/-
# The control channel

`read_loop` of `src/control.rs` and the write tasks it spawns. A provision frame
first sets the control key from its `control_public_key`, then reconfigures the
connectors; a write request becomes a task of its own, which verifies the
request against the key of that moment and later writes. Tasks run between any
two steps of the loop.

The key is the decoded text, so a `control_public_key` that is not base64, or not a
text, leaves no key, as a frame without one does, and then nothing is verified
(`unsigned_write`). Where every frame carries a base64 text or nothing at all, a
request without a valid signature fails while the latest frame carries a key
(`signing_required`).

Left out: frames of the other kinds, which change neither the key nor the
connectors nor the tasks, and the datasources, which no write reads.

Key definitions: `Channel`, `ChanEvent`, `chanStep`, `KeyDecodes`.
-/
import LymonAgent.Control.Signing
import LymonAgent.Runs

namespace LymonAgent
namespace Control

open Text Runs

/-- Where a write task is: spawned, verified, or answered. -/
inductive Phase where
  | spawned
  | verified
  | answered
  deriving DecidableEq

/-- `latest` is not in the source: the provision frame processed last. `reconf`
is the frame whose `reconfigure` the loop is in. `device` and `acks` are what
the task of each index wrote and answered. -/
structure Channel where
  pubkey : Option (List UInt8)
  connectors : ConnStore
  latest : Option Json
  reconf : Option Json
  tasks : List (Json × Phase)
  device : List (ℕ × DeviceWrite)
  acks : List (ℕ × Json)

inductive ChanEvent where
  | frame (v : Json)
  | reconfigure
  | verify (i : ℕ)
  | write (i : ℕ) (env : Env)

def chanStart : Channel := ⟨none, fun _ => none, none, none, [], [], []⟩

/-! ### Acknowledgements -/

def failedAck (commandId detail : String) : Json :=
  .obj [("command_id", .str commandId), ("detail", .str detail), ("kind", .str "write_ack"),
    ("status", .str "failed")]

def ackedAck (commandId : String) (readback : Option F64) : Json :=
  match readback with
  | none => .obj [("command_id", .str commandId), ("kind", .str "write_ack"), ("status", .str "acked")]
  | some v => .obj [("command_id", .str commandId), ("kind", .str "write_ack"),
      ("readback", jsonF64 v), ("status", .str "acked")]

def ackOf (commandId : String) : Except String (Option F64) → Json
  | .ok readback => ackedAck commandId readback
  | .error e => failedAck commandId e

/-! ### The loop and the tasks -/

/-- The key a provision frame sets. -/
def frameKey (v : Json) : Option (List UInt8) := (v.getStr "control_public_key").bind base64

section

variable (V : Ed25519) (F : FloatText)

def chanStep (s : Channel) : ChanEvent → Option Channel
  | .frame v =>
    -- the loop takes the next frame when it is done with the last one
    if s.reconf.isSome then none
    else
      match v.getStr "kind" with
      | some "provision" =>
        some { s with
          pubkey := frameKey v
          latest := some v
          reconf := if (v.get "connectors").isSome ∨ (v.get "ingests").isSome then some v else none }
      | some "write_request" => some { s with tasks := s.tasks ++ [(v, .spawned)] }
      | _ => some s
  | .reconfigure =>
    match s.reconf with
    | none => none
    | some v => some { s with connectors := storeOf (parseConnectors F v), reconf := none }
  | .verify i =>
    match s.tasks[i]? with
    | some (req, .spawned) =>
      let r := WriteRequest.ofJson req
      match verifySignature V F s.pubkey req r with
      | .ok _ => some { s with tasks := s.tasks.set i (req, .verified) }
      | .error e => some { s with
          tasks := s.tasks.set i (req, .answered)
          acks := s.acks ++ [(i, failedAck r.commandId e)] }
    | _ => none
  | .write i env =>
    match s.tasks[i]? with
    | some (req, .verified) =>
      let r := WriteRequest.ofJson req
      let o := doWrite F env s.connectors r
      some { s with
        tasks := s.tasks.set i (req, .answered)
        device := s.device ++ o.writes.map fun w => (i, w)
        acks := s.acks ++ [(i, ackOf r.commandId o.result)] }
    | _ => none

end

/-- What the latest provision frame carries as its `control_public_key`, of whatever
type. -/
def Channel.carried (s : Channel) : Option Json := s.latest.bind (Json.get "control_public_key")

/-- What a provision frame carries as its `control_public_key`, if anything, is a text
that is base64. -/
def KeyDecodes (_ : Channel) : ChanEvent → Prop
  | .frame v => v.getStr "kind" = some "provision" →
      (v.get "control_public_key").isSome = true → (frameKey v).isSome = true
  | _ => True

instance (s : Channel) (e : ChanEvent) : Decidable (KeyDecodes s e) := by
  unfold KeyDecodes
  split <;> infer_instance

variable {V : Ed25519} {F : FloatText} {s t : Channel} {e : ChanEvent} {es : List ChanEvent}

/-! ### What a step does -/

/-- Every way the channel moves. -/
inductive ChanMoves (V : Ed25519) (F : FloatText) (s : Channel) : ChanEvent → Channel → Prop
  | provision {v : Json} {reconf : Option Json} : v.getStr "kind" = some "provision" →
      ChanMoves V F s (.frame v)
        { s with pubkey := frameKey v, latest := some v, reconf := reconf }
  | spawn {v : Json} :
      ChanMoves V F s (.frame v) { s with tasks := s.tasks ++ [(v, .spawned)] }
  | other {e : ChanEvent} {connectors : ConnStore} {reconf : Option Json} : (∀ i, e ≠ .verify i) →
      ChanMoves V F s e { s with connectors := connectors, reconf := reconf }
  | pass {i : ℕ} {req : Json} : s.tasks[i]? = some (req, .spawned) →
      verifySignature V F s.pubkey req (WriteRequest.ofJson req) = .ok () →
      ChanMoves V F s (.verify i) { s with tasks := s.tasks.set i (req, .verified) }
  | fail {i : ℕ} {req : Json} {detail : String} : s.tasks[i]? = some (req, .spawned) →
      verifySignature V F s.pubkey req (WriteRequest.ofJson req) = .error detail →
      ChanMoves V F s (.verify i) { s with
        tasks := s.tasks.set i (req, .answered)
        acks := s.acks ++ [(i, failedAck (WriteRequest.ofJson req).commandId detail)] }
  | write {i : ℕ} {env : Env} {req : Json} {writes : List DeviceWrite} {ack : Json} :
      s.tasks[i]? = some (req, .verified) →
      ChanMoves V F s (.write i env) { s with
        tasks := s.tasks.set i (req, .answered)
        device := s.device ++ writes.map (fun w => (i, w))
        acks := s.acks ++ [(i, ack)] }

theorem chanStep_moves (h : chanStep V F s e = some t) : ChanMoves V F s e t := by
  cases e with
  | frame v =>
    simp only [chanStep] at h
    split at h
    · cases h
    · split at h
      · rename_i hk
        obtain rfl := Option.some.inj h
        exact .provision hk
      · obtain rfl := Option.some.inj h
        exact .spawn
      · obtain rfl := Option.some.inj h
        exact .other fun _ he => by cases he
  | reconfigure =>
    simp only [chanStep] at h
    split at h
    · cases h
    · obtain rfl := Option.some.inj h
      exact .other fun _ he => by cases he
  | verify i =>
    simp only [chanStep] at h
    split at h
    · rename_i req hreq
      split at h
      · rename_i hok
        obtain rfl := Option.some.inj h
        exact .pass hreq hok
      · rename_i detail herr
        obtain rfl := Option.some.inj h
        exact .fail hreq herr
    · cases h
  | write i env =>
    simp only [chanStep] at h
    split at h
    · rename_i req hreq
      obtain rfl := Option.some.inj h
      exact .write hreq
    · cases h

/-! ### The key -/

/-- The key is the latest frame's, and is there when that frame carries one. -/
structure KeyInv (s : Channel) : Prop where
  pubkey : s.pubkey = s.latest.bind frameKey
  decodes : s.carried.isSome = true → s.pubkey.isSome = true

theorem keyInv_start : KeyInv chanStart := ⟨rfl, fun h => by cases h⟩

theorem keyInv_step (hs : KeyInv s) (hk : KeyDecodes s e) (h : chanStep V F s e = some t) :
    KeyInv t := by
  cases chanStep_moves h with
  | provision hkind => exact ⟨rfl, hk hkind⟩
  | spawn => exact ⟨hs.pubkey, hs.decodes⟩
  | other _ => exact ⟨hs.pubkey, hs.decodes⟩
  | pass _ _ => exact ⟨hs.pubkey, hs.decodes⟩
  | fail _ _ => exact ⟨hs.pubkey, hs.decodes⟩
  | write _ => exact ⟨hs.pubkey, hs.decodes⟩

/-! ### A task's trace -/

/-- What the task `i` has done so far: its writes and its acknowledgements. -/
def Channel.trace (s : Channel) (i : ℕ) : List DeviceWrite × List Json :=
  (s.device.filterMap fun x => if x.1 = i then some x.2 else none,
    s.acks.filterMap fun x => if x.1 = i then some x.2 else none)

/-- An answered task stays answered and does nothing more. -/
theorem answered_step {i : ℕ} {req : Json} (hs : s.tasks[i]? = some (req, .answered))
    (h : chanStep V F s e = some t) :
    t.tasks[i]? = some (req, .answered) ∧ t.trace i = s.trace i := by
  have hother : ∀ {j : ℕ} {req' : Json} {p : Phase}, s.tasks[j]? = some (req', p) → p ≠ .answered →
      j ≠ i := by
    rintro j req' p hj hp rfl
    rw [hs] at hj
    exact hp (Prod.mk.inj (Option.some.inj hj)).2.symm
  cases chanStep_moves h with
  | provision _ => exact ⟨hs, rfl⟩
  | spawn => exact ⟨List.getElem?_append_left (List.getElem?_eq_some_iff.mp hs).1 ▸ hs, rfl⟩
  | other _ => exact ⟨hs, rfl⟩
  | @pass j req' hj _ =>
    have hji := hother hj (by decide)
    exact ⟨by simp [List.getElem?_set_ne hji, hs], rfl⟩
  | @fail j req' detail hj _ =>
    have hji := hother hj (by decide)
    exact ⟨by simp [List.getElem?_set_ne hji, hs], by simp [Channel.trace, hji]⟩
  | @write j env req' writes ack hj =>
    have hji := hother hj (by decide)
    exact ⟨by simp [List.getElem?_set_ne hji, hs], by
      simp [Channel.trace, hji, List.filterMap_map]⟩

/-- A task that is not answered has done nothing. -/
def Silent (s : Channel) : Prop :=
  ∀ i, (∀ req, s.tasks[i]? ≠ some (req, .answered)) → s.trace i = ([], [])

theorem silent_step (hs : Silent s) (h : chanStep V F s e = some t) : Silent t := by
  intro i hi
  have hold : s.trace i = ([], []) := hs i fun req hr => hi req (answered_step hr h).1
  have hother : ∀ {j : ℕ} {req : Json} {p : Phase}, s.tasks[j]? = some (req, p) →
      t.tasks = s.tasks.set j (req, .answered) → j ≠ i := by
    rintro j req p hj ht rfl
    have hlt := (List.getElem?_eq_some_iff.mp hj).1
    exact hi req (by rw [ht, List.getElem?_set_self hlt])
  rw [← hold]
  cases chanStep_moves h with
  | provision _ => rfl
  | spawn => rfl
  | other _ => rfl
  | pass _ _ => rfl
  | fail hj _ => simp [Channel.trace, hother hj rfl]
  | write hj => simp [Channel.trace, hother hj rfl, List.filterMap_map]

theorem silent_run (h : run (chanStep V F) chanStart es = some s) : Silent s :=
  inv_run (fun _ _ _ hs ht => silent_step hs ht) (fun _ _ => rfl) h

/-! ### Signing is required -/

/-- The request has no valid signature under the key of the latest frame. -/
def Unsigned (V : Ed25519) (F : FloatText) (s : Channel) (req : Json) : Prop :=
  ∀ pk, s.latest.bind frameKey = some pk → ¬ ValidSignature V F pk req

/-- With a key, a request without a valid signature does not pass. -/
theorem not_pass (hs : KeyInv s) {req : Json} (hbad : Unsigned V F s req)
    (hkey : s.carried.isSome = true) :
    verifySignature V F s.pubkey req (WriteRequest.ofJson req) ≠ .ok () := by
  obtain ⟨pk, hpk⟩ := Option.isSome_iff_exists.mp (hs.decodes hkey)
  rw [hpk, Ne, verifySignature_iff]
  exact hbad pk (hs.pubkey ▸ hpk)

/-- **Signing is required.** In every run whose provision frames carry no
`control_public_key` or a base64 text: when a request is verified that has no valid
signature under the key of the latest provision frame, then, if that frame carries a
`control_public_key`, the task's only acknowledgement is ever a failed one and it writes
to no device; and if the request passes, that frame carries none, or there is no
frame yet. -/
theorem signing_required {u : Channel} (h : run (chanStep V F) chanStart es = some u)
    (hkeys : Each (chanStep V F) KeyDecodes chanStart es) {pre : List ChanEvent} {i : ℕ}
    (hv : Took (chanStep V F) chanStart es pre s (.verify i) t) {req : Json} {phase : Phase}
    (hreq : s.tasks[i]? = some (req, phase)) (hbad : Unsigned V F s req) :
    (s.carried.isSome = true →
      ∃ detail, u.trace i = ([], [failedAck (WriteRequest.ofJson req).commandId detail])) ∧
    (t.tasks[i]? = some (req, .verified) → s.carried = none) := by
  obtain ⟨post, rfl, hpost⟩ := hv.rest h
  have hs : KeyInv s :=
    each_run (fun _ _ _ hs hp ht => keyInv_step hs hp ht) hkeys.left keyInv_start hv.before
  have hsame : ∀ {req' : Json}, s.tasks[i]? = some (req', .spawned) → req' = req := fun hr =>
    (Prod.mk.inj (Option.some.inj (hr.symm.trans hreq))).1
  have hsilent := silent_run hv.before i
  cases chanStep_moves hv.taken with
  | other hne => exact absurd rfl (hne i)
  | pass hr hok =>
    obtain rfl := hsame hr
    refine ⟨fun hkey => absurd hok (not_pass hs hbad hkey), fun _ => ?_⟩
    by_contra hkey
    exact not_pass hs hbad (Option.isSome_iff_ne_none.mpr hkey) hok
  | @fail _ req' detail hr herr =>
    obtain rfl : req' = req := hsame hr
    have hlt := (List.getElem?_eq_some_iff.mp hr).1
    refine ⟨fun _ => ⟨detail, ?_⟩, fun hpass => ?_⟩
    · have htrace : s.trace i = ([], []) := hsilent fun req hq => by rw [hr] at hq; cases hq
      -- from here on the task is answered, and its trace stays
      refine (inv_run (P := fun u => u.tasks[i]? = some (req', .answered) ∧ u.trace i = _)
        (fun _ _ _ hu hut => ⟨(answered_step hu.1 hut).1, (answered_step hu.1 hut).2.trans hu.2⟩)
        ⟨List.getElem?_set_self hlt, ?_⟩ hpost).2
      rw [Channel.trace, Prod.mk.injEq] at htrace
      simp [Channel.trace, htrace]
    · rw [List.getElem?_set_self hlt] at hpass
      cases hpass

/-- A provision frame with the connector of the register 10 and a key. -/
def keyFrame (key : Json) : Json :=
  .obj [("connectors", .arr [plcConnector [registerTen]]), ("control_public_key", key),
    ("kind", .str "provision")]

/-- A request to write 1 to it, without a signature. -/
def bareRequest : Json :=
  .obj [("command_id", .str "c1"), ("connector_id", .str "plc"), ("kind", .str "write_request"),
    ("target", keyedTarget "holding" 10 "uint16"), ("value", .num (.float 1))]

/-- The frame, then the request, verified. -/
def bareUnder (key : Json) : List ChanEvent :=
  [.frame (keyFrame key), .reconfigure, .frame bareRequest, .verify 0]

theorem unsigned_bareRequest (s : Channel) : Unsigned V F s bareRequest := by
  rintro pk - ⟨signature, -, -, hs, -⟩
  cases hs

theorem signing_required_bare : ∃ u detail,
    run (chanStep signedOnce plainFloat) chanStart (bareUnder (.str "Bw==")) = some u ∧
    u.trace 0 = ([], [failedAck "c1" detail]) := by
  obtain ⟨u, hu⟩ : ∃ u, run (chanStep signedOnce plainFloat) chanStart (bareUnder (.str "Bw==")) = some u :=
    Option.isSome_iff_exists.mp (by decide)
  obtain ⟨s, hs, ht⟩ := run_snoc.mp (show run (chanStep signedOnce plainFloat) chanStart
    ((bareUnder (.str "Bw==")).take 3 ++ [.verify 0]) = some u from hu)
  have hreq : s.tasks[0]? = some (bareRequest, .spawned) := by
    obtain rfl := Option.some.inj hs
    rfl
  have hkey : s.carried.isSome = true := by
    obtain rfl := Option.some.inj hs
    rfl
  obtain ⟨detail, hd⟩ :=
    (signing_required hu (by decide) ⟨⟨[], rfl⟩, hs, ht⟩ hreq (unsigned_bareRequest s)).1 hkey
  exact ⟨u, detail, hu, hd⟩

/-- A key text that is not base64 lets the unsigned request write. -/
theorem unsigned_write : ∃ u s t,
    run (chanStep signedOnce plainFloat) chanStart
      (bareUnder (.str "!!!") ++ [.write 0 ⟨accepting, fun _ => none⟩]) = some u ∧
    Took (chanStep signedOnce plainFloat) chanStart
      (bareUnder (.str "!!!") ++ [.write 0 ⟨accepting, fun _ => none⟩]) ((bareUnder (.str "!!!")).take 3) s (.verify 0) t ∧
    s.carried = some (.str "!!!") ∧ s.tasks[0]? = some (bareRequest, .spawned) ∧
    Unsigned signedOnce plainFloat s bareRequest ∧
    u.device = [(0, .holding "10.0.0.9" 502 10 [1])] := by
  obtain ⟨u, hu⟩ : ∃ u, run (chanStep signedOnce plainFloat) chanStart
      (bareUnder (.str "!!!") ++ [.write 0 ⟨accepting, fun _ => none⟩]) = some u :=
    Option.isSome_iff_exists.mp (by decide +kernel)
  have hdev : (run (chanStep signedOnce plainFloat) chanStart
      (bareUnder (.str "!!!") ++ [.write 0 ⟨accepting, fun _ => none⟩])).map Channel.device =
        some [(0, .holding "10.0.0.9" 502 10 [1])] := by decide +kernel
  rw [hu, Option.map_some, Option.some.injEq] at hdev
  exact ⟨u, _, _, hu, ⟨⟨_, rfl⟩, rfl, rfl⟩, rfl, rfl, unsigned_bareRequest _, hdev⟩

end Control
end LymonAgent
