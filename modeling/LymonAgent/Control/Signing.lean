/-
# Signed commands

`verify_signature` of `src/control.rs`. When a public key is provisioned, a
write request carries a payload `command|connector|key|value` and its Ed25519
signature; the payload must verify and must describe the request.

The payload names the target by its key, and the words that go to the device
depend on more of the target than its key. `fixes_effect_iff` says when a
signature fixes the write all the same: when the request would not get through
at all, or when its key is that of a coil or is the target's whole text.

The fourth field is read as a number, and where it is none the comparison with the
request's value is one with NaN, which passes. `sound_on_value_iff` says when a
signature that verifies is for a value near the request's.

The fields stand side by side with bars between them, and only the target's key
can hold a bar itself: then an honest command is refused (`honest_accepted_iff`).

Ed25519 is a parameter.

Key definitions: `verifySignature`, `handleWrite`, `FixesEffect`, `Admissible`,
`SoundOnValue`, `HonestlySigned`.
-/
import LymonAgent.Control.Gate

namespace LymonAgent
namespace Control

open Text

/-- `UnparsedPublicKey::verify`: of a key, a payload and a signature. -/
abbrev Ed25519 : Type := List UInt8 → String → List UInt8 → Bool

/-- The fourth field of a payload as a number. -/
def signedValue (parts : List String) : F64 := (parts[3]?.bind F64.fromStr).getD .nan

/-- How far the signed value may be from the request's. -/
def tolerance : F64 := .fin (1 / 10 ^ 9)

section

variable (V : Ed25519) (F : FloatText)

/-- The signed bytes describe the command. -/
def describes (payload : String) (r : WriteRequest) : Bool :=
  let parts := split '|' payload
  !(parts.length ≠ 4 || parts[0]? ≠ some r.commandId || parts[1]? ≠ some r.connectorId ||
    parts[2]? ≠ some (targetKey F r.target) ||
    ((signedValue parts).sub r.value).abs.gt tolerance)

def verifySignature (pubkey : Option (List UInt8)) (req : Json) (r : WriteRequest) :
    Except String Unit :=
  match pubkey with
  | none => .ok ()
  | some pk =>
    match req.getStr "signature" with
    | none => .error "command signing required but signature missing"
    | some signature =>
      match req.getStr "sig_payload" with
      | none => .error "command signing required but sig_payload missing"
      | some payload =>
        match base64 signature with
        | none => .error "signature not base64"
        | some sig =>
          if !V pk payload sig then .error "invalid command signature"
          else if !describes F payload r then .error "signed payload does not match the command"
          else .ok ()

/-- `handle_write`, between the request and its acknowledgement. -/
def handleWrite (env : Env) (connectors : ConnStore) (pubkey : Option (List UInt8)) (req : Json) :
    Outcome :=
  let r := WriteRequest.ofJson req
  match verifySignature V F pubkey req r with
  | .error e => .fail e
  | .ok _ => doWrite F env connectors r

/-- The request carries a payload that verifies under the key and describes
it. -/
def ValidSignature (pk : List UInt8) (req : Json) : Prop :=
  ∃ signature payload sig, req.getStr "signature" = some signature ∧
    req.getStr "sig_payload" = some payload ∧ base64 signature = some sig ∧
    V pk payload sig = true ∧ describes F payload (WriteRequest.ofJson req) = true

end

variable {V : Ed25519} {F : FloatText}

theorem verifySignature_eq_ok {pk : List UInt8} {req : Json} {r : WriteRequest} :
    verifySignature V F (some pk) req r = .ok () ↔
      ∃ signature payload sig, req.getStr "signature" = some signature ∧
        req.getStr "sig_payload" = some payload ∧ base64 signature = some sig ∧
        V pk payload sig = true ∧ describes F payload r = true := by
  unfold verifySignature
  cases hs : req.getStr "signature" with
  | none => simp
  | some signature =>
    cases hp : req.getStr "sig_payload" with
    | none => simp
    | some payload =>
      cases hb : base64 signature with
      | none => simp [hb]
      | some sig =>
        cases hv : V pk payload sig <;> cases hd : describes F payload r <;> simp [hb, hv, hd]

theorem verifySignature_iff {pk : List UInt8} {req : Json} :
    verifySignature V F (some pk) req (WriteRequest.ofJson req) = .ok () ↔
      ValidSignature V F pk req :=
  verifySignature_eq_ok

theorem describes_iff {payload : String} {r : WriteRequest} :
    describes F payload r = true ↔
      ∃ num, split '|' payload = [r.commandId, r.connectorId, targetKey F r.target, num] ∧
        (((F64.fromStr num).getD .nan).sub r.value).abs.gt tolerance = false := by
  unfold describes signedValue
  generalize split '|' payload = parts
  constructor
  · intro h
    match parts with
    | [a, b, c, d] =>
      simp at h
      obtain ⟨⟨⟨rfl, rfl⟩, rfl⟩, hv⟩ := h
      exact ⟨d, rfl, hv⟩
    | [] | [_] | [_, _] | [_, _, _] => simp at h
    | _ :: _ :: _ :: _ :: _ :: _ => simp at h
  · rintro ⟨num, rfl, hv⟩
    simpa using hv

/-! ### What is fixed -/

/-- The request carries this payload, signature and value, is for a Modbus
connector, and makes the agent send this write. -/
structure Reaches (V : Ed25519) (F : FloatText) (connectors : ConnStore) (pk : List UInt8)
    (payload signature : String) (value : F64) (req : Json) (w : DeviceWrite) : Prop where
  sorted : req.Sorted
  payload : req.getStr "sig_payload" = some payload
  signature : req.getStr "signature" = some signature
  value : (WriteRequest.ofJson req).value = value
  modbus : ∃ c, connectors (WriteRequest.ofJson req).connectorId = some c ∧ c.dsType = "modbus"
  written : ∃ env, w ∈ (handleWrite V F env connectors (some pk) req).writes

/-- All requests with this payload, signature and value make one write. -/
def FixesEffect (V : Ed25519) (F : FloatText) (connectors : ConnStore) (pk : List UInt8)
    (payload signature : String) (value : F64) : Prop :=
  ∀ req₁ req₂ w₁ w₂, Reaches V F connectors pk payload signature value req₁ w₁ →
    Reaches V F connectors pk payload signature value req₂ w₂ → w₁ = w₂

/-- The signature verifies, the payload has four fields and the value, and names
a Modbus connector with a host and a target key on its list. -/
def Admissible (V : Ed25519) (connectors : ConnStore) (pk : List UInt8) (payload signature : String)
    (value : F64) (conn : Conn) (command id key : String) : Prop :=
  (∃ sig, base64 signature = some sig ∧ V pk payload sig = true) ∧
  (∃ num, split '|' payload = [command, id, key, num] ∧
    (((F64.fromStr num).getD .nan).sub value).abs.gt tolerance = false) ∧
  value.isFinite = true ∧ connectors id = some conn ∧ conn.dsType = "modbus" ∧
  (conn.config.getStr "host").isSome = true ∧ key ∈ conn.writable

/-- The key leaves the registers open: it names a function other than `coil`, or
a node. -/
def Loose (key : String) : Prop :=
  (∃ f, ∃ a : UInt64, f ≠ "coil" ∧ key = keyed f a.toNat) ∨ ∃ n, key = "node:" ++ n

variable {connectors : ConnStore} {pk : List UInt8} {payload signature : String} {value : F64}

theorem Reaches.admissible {req : Json} {w : DeviceWrite}
    (h : Reaches V F connectors pk payload signature value req w) :
    ∃ conn command, ∃ plc : Plc, Admissible V connectors pk payload signature value conn command
        (WriteRequest.ofJson req).connectorId (targetKey F (WriteRequest.ofJson req).target) ∧
      w ∈ (writeModbus plc conn.config (WriteRequest.ofJson req)).writes := by
  obtain ⟨env, hw⟩ := h.written
  unfold handleWrite at hw
  simp only at hw
  split at hw
  · cases hw
  · rename_i hok
    obtain ⟨signature', payload', sig, hs, hp, hb, hv, hd⟩ := verifySignature_iff.mp hok
    obtain rfl : signature = signature' := Option.some.inj (h.signature.symm.trans hs)
    obtain rfl : payload = payload' := Option.some.inj (h.payload.symm.trans hp)
    obtain ⟨num, hsplit, hnum⟩ := describes_iff.mp hd
    obtain ⟨c, hc, hmodbus⟩ := h.modbus
    obtain ⟨conn, hconn, hfin, hkey, hw⟩ := mem_writes_doWrite hw
    obtain rfl : c = conn := Option.some.inj (hc.symm.trans hconn)
    have hw := (hw.resolve_right fun h => h.1 hmodbus).2
    obtain ⟨host, -, hhost, -⟩ := mem_writes_writeModbus hw
    rw [h.value] at hnum hfin
    exact ⟨c, _, env.plc, ⟨⟨sig, hb, hv⟩, ⟨num, hsplit, hnum⟩, hfin, hconn, hmodbus, by simp [hhost], hkey⟩,
      hw⟩

/-- A key that is not loose leaves one write. -/
theorem write_eq {plc₁ plc₂ : Plc} {config : Json} {r₁ r₂ : WriteRequest} {w₁ w₂ : DeviceWrite}
    (h₁ : w₁ ∈ (writeModbus plc₁ config r₁).writes) (h₂ : w₂ ∈ (writeModbus plc₂ config r₂).writes)
    (hv : r₁.value = r₂.value) (hk : targetKey F r₁.target = targetKey F r₂.target)
    (hl : ¬ Loose (targetKey F r₁.target)) : w₁ = w₂ := by
  obtain ⟨host, a, hhost, ha, hw₁⟩ := mem_writes_writeModbus h₁
  obtain ⟨host', a', hhost', ha', hw₂⟩ := mem_writes_writeModbus h₂
  obtain rfl : host = host' := Option.some.inj (hhost.symm.trans hhost')
  rcases same_key_cases hk with ⟨f, b, hf, hb, hf', hb'⟩ | hn | ⟨ht, -, -⟩
  · obtain rfl : a = b := Option.some.inj (ha.symm.trans hb)
    obtain rfl : a' = a := Option.some.inj (ha'.symm.trans hb')
    have hcoil : f = "coil" := by
      by_contra hne
      exact hl (Or.inl ⟨f, a', hne, targetKey_of_keyed hf hb⟩)
    subst hcoil
    have hc₁ := Target.fnclass_eq_coil.mpr hf
    have hc₂ := Target.fnclass_eq_coil.mpr hf'
    rw [(hw₁.resolve_right fun h => h.1 hc₁).2, (hw₂.resolve_right fun h => h.1 hc₂).2, hv]
  · exact absurd (Or.inr hn) hl
  · rw [← ht] at ha' hw₂
    obtain rfl : a = a' := Option.some.inj (ha.symm.trans ha')
    rcases hw₁ with ⟨hc₁, rfl⟩ | ⟨hc₁, words₁, he₁, rfl⟩ <;>
      rcases hw₂ with ⟨hc₂, rfl⟩ | ⟨hc₂, words₂, he₂, rfl⟩
    · rw [hv]
    · exact absurd hc₁ hc₂
    · exact absurd hc₂ hc₁
    · rw [← hv, he₁] at he₂
      rw [Except.ok.inj he₂]

/-! ### What is left open -/

/-- A signed request to write a target. -/
def signedRequest (command id payload signature : String) (target : Json) (q : ℚ) : Json :=
  .obj [("command_id", .str command), ("connector_id", .str id), ("sig_payload", .str payload),
    ("signature", .str signature), ("target", target), ("value", .num (.float q))]

theorem sorted_signedRequest {command id payload signature : String} {target : Json} {q : ℚ}
    (h : target.Sorted) : (signedRequest command id payload signature target q).Sorted := by
  simp +decide [signedRequest, Json.Sorted, Json.Sorted.Members, h]

theorem reaches_signedRequest {conn : Conn} {command id key : String} {q : ℚ}
    (h : Admissible V connectors pk payload signature (.fin q) conn command id key) {target : Json}
    (hs : target.Sorted) (hk : targetKey F target = key) {w : DeviceWrite}
    (hw : w ∈ (writeModbus accepting conn.config ⟨command, id, .fin q, target, false, 5000⟩).writes) :
    Reaches V F connectors pk payload signature (.fin q)
      (signedRequest command id payload signature target q) w := by
  obtain ⟨⟨sig, hb, hv⟩, ⟨num, hsplit, hnum⟩, hfin, hconn, hmodbus, -, hkey⟩ := h
  refine ⟨sorted_signedRequest hs, rfl, rfl, rfl, ⟨conn, hconn, hmodbus⟩,
    ⟨accepting, fun _ => none⟩, ?_⟩
  have hok : verifySignature V F (some pk) (signedRequest command id payload signature target q)
      (WriteRequest.ofJson (signedRequest command id payload signature target q)) = .ok () :=
    verifySignature_iff.mpr ⟨signature, payload, sig, rfl, rfl, hb, hv,
      describes_iff.mpr ⟨num, hk ▸ hsplit, hnum⟩⟩
  unfold handleWrite
  simp only [hok]
  have hr : WriteRequest.ofJson (signedRequest command id payload signature target q) =
      ⟨command, id, .fin q, target, false, 5000⟩ := rfl
  rw [hr, doWrite_of_listed hconn rfl (hk ▸ hkey), if_pos hmodbus]
  exact hw

/-- A loose key lets two requests write differently. -/
theorem not_fixesEffect {conn : Conn} {command id key : String}
    (h : Admissible V connectors pk payload signature value conn command id key) (hl : Loose key) :
    ¬ FixesEffect V F connectors pk payload signature value := by
  intro hfix
  obtain ⟨host, hhost⟩ := Option.isSome_iff_exists.mp h.2.2.2.2.2.1
  obtain ⟨q, rfl⟩ := F64.exists_fin_of_isFinite h.2.2.1
  rcases hl with ⟨f, a, hf, rfl⟩ | ⟨n, rfl⟩
  · -- one word, or two
    have hw : ∀ datatype n, width datatype = some n → ∃ words, words.length = n ∧
        Reaches V F connectors pk payload signature (.fin q)
          (signedRequest command id payload signature (keyedTarget f a datatype) q)
          (.holding host (portOf conn.config) a.toUInt16 words) := by
      intro datatype n hn
      obtain ⟨words, hlen, hw⟩ := writes_holding
        (r := ⟨command, id, .fin q, keyedTarget f a datatype, false, 5000⟩) (a := a) hhost rfl hf hn
      exact ⟨words, hlen, reaches_signedRequest h (sorted_keyedTarget _ _ _) rfl hw⟩
    obtain ⟨ws₁, hlen₁, h₁⟩ := hw "uint16" 1 rfl
    obtain ⟨ws₂, hlen₂, h₂⟩ := hw "uint32" 2 rfl
    have hsame := (DeviceWrite.holding.inj (hfix _ _ _ _ h₁ h₂)).2.2.2
    rw [← hsame, hlen₁] at hlen₂
    cases hlen₂
  · -- one address, or another
    have hw : ∀ a : UInt64, ∃ words, Reaches V F connectors pk payload signature (.fin q)
          (signedRequest command id payload signature (nodeTarget n a) q)
          (.holding host (portOf conn.config) a.toUInt16 words) := by
      intro a
      obtain ⟨words, -, hw⟩ := writes_holding
        (r := ⟨command, id, .fin q, nodeTarget n a, false, 5000⟩) (a := a) (n := 2) hhost rfl
        (show "holding" ≠ "coil" by decide) rfl
      exact ⟨words, reaches_signedRequest h (sorted_nodeTarget _ _) rfl hw⟩
    obtain ⟨ws₁, h₁⟩ := hw 0
    obtain ⟨ws₂, h₂⟩ := hw 1
    have hsame := (DeviceWrite.holding.inj (hfix _ _ _ _ h₁ h₂)).2.2.1
    exact absurd hsame (by decide)

/-- **A signature fixes the write exactly when its key is not loose.** For every
connector store, key, payload, signature and value: all requests that carry
them and reach a Modbus device make the same write, if and only if such a
request is not admitted at all or the signed target key is neither that of a
function other than `coil` nor of a node. -/
theorem fixes_effect_iff :
    FixesEffect V F connectors pk payload signature value ↔
      ∀ conn command id key, Admissible V connectors pk payload signature value conn command id key →
        ¬ Loose key := by
  constructor
  · intro hfix conn command id key hadm hl
    exact not_fixesEffect hadm hl hfix
  · intro hno req₁ req₂ w₁ w₂ h₁ h₂
    obtain ⟨conn₁, command₁, plc₁, hadm₁, hw₁⟩ := h₁.admissible
    obtain ⟨conn₂, command₂, plc₂, hadm₂, hw₂⟩ := h₂.admissible
    have hl := hno _ _ _ _ hadm₁
    obtain ⟨-, ⟨num₁, hsplit₁, -⟩, -, hconn₁, -⟩ := hadm₁
    obtain ⟨-, ⟨num₂, hsplit₂, -⟩, -, hconn₂, -⟩ := hadm₂
    rw [hsplit₁] at hsplit₂
    simp only [List.cons.injEq] at hsplit₂
    obtain ⟨-, hid, hkey, -⟩ := hsplit₂
    rw [← hid, hconn₁] at hconn₂
    obtain rfl := Option.some.inj hconn₂
    exact write_eq hw₁ hw₂ (h₁.value.trans h₂.value.symm) hkey hl

/-- The key holder signed one command: write 1 to the listed register 10. -/
def signedOnce : Ed25519 := fun pk payload sig =>
  decide (pk = [7] ∧ payload = "c1|plc|holding:10|1" ∧ sig = [9])

def signedWrite (datatype : String) : Json :=
  signedRequest "c1" "plc" "c1|plc|holding:10|1" "CQ==" (keyedTarget "holding" 10 datatype) 1

/-- One signed command, two writes: with the datatype `uint16` it sets register
10 to 1, with `uint32` it sets register 10 to 0 and register 11 to 1. -/
theorem effect_not_fixed :
    (handleWrite signedOnce plainFloat ⟨accepting, fun _ => none⟩
      (storeOf (parseConnectors plainFloat (plcFrame [registerTen]))) (some [7])
      (signedWrite "uint16")).writes = [.holding "10.0.0.9" 502 10 [1]] ∧
    (handleWrite signedOnce plainFloat ⟨accepting, fun _ => none⟩
      (storeOf (parseConnectors plainFloat (plcFrame [registerTen]))) (some [7])
      (signedWrite "uint32")).writes = [.holding "10.0.0.9" 502 10 [0, 1]] ∧
    ¬ FixesEffect signedOnce plainFloat
      (storeOf (parseConnectors plainFloat (plcFrame [registerTen]))) [7] "c1|plc|holding:10|1" "CQ=="
      (.fin 1) := by
  have h16 : (handleWrite signedOnce plainFloat ⟨accepting, fun _ => none⟩
      (storeOf (parseConnectors plainFloat (plcFrame [registerTen]))) (some [7])
      (signedWrite "uint16")).writes = [.holding "10.0.0.9" 502 10 [1]] := by decide +kernel
  have h32 : (handleWrite signedOnce plainFloat ⟨accepting, fun _ => none⟩
      (storeOf (parseConnectors plainFloat (plcFrame [registerTen]))) (some [7])
      (signedWrite "uint32")).writes = [.holding "10.0.0.9" 502 10 [0, 1]] := by decide +kernel
  refine ⟨h16, h32, fun hfix => ?_⟩
  have hreaches : ∀ {datatype w},
      (handleWrite signedOnce plainFloat ⟨accepting, fun _ => none⟩
        (storeOf (parseConnectors plainFloat (plcFrame [registerTen]))) (some [7])
        (signedWrite datatype)).writes = [w] →
      Reaches signedOnce plainFloat (storeOf (parseConnectors plainFloat (plcFrame [registerTen]))) [7]
        "c1|plc|holding:10|1" "CQ==" (.fin 1) (signedWrite datatype) w := fun hw =>
    ⟨sorted_signedRequest (sorted_keyedTarget _ _ _), rfl, rfl, rfl, ⟨_, rfl, rfl⟩, _,
      hw ▸ List.mem_singleton_self _⟩
  exact absurd (hfix _ _ _ _ (hreaches h16) (hreaches h32)) (by decide)

/-! ### The signed value -/

/-- The payload of a command whose fourth field is `t`. -/
def signedFields (F : FloatText) (r : WriteRequest) (t : String) : String :=
  r.commandId ++ "|" ++ r.connectorId ++ "|" ++ targetKey F r.target ++ "|" ++ t

/-- If the signature is accepted, the payload is the command's with a number
close to the value. -/
def SoundOnValue (V : Ed25519) (F : FloatText) (pk : List UInt8) (req : Json) (r : WriteRequest)
    (value : ℚ) : Prop :=
  verifySignature V F (some pk) req { r with value := .fin value } = .ok () →
    ∃ t q, req.getStr "sig_payload" = some (signedFields F r t) ∧ F64.fromStr t = some (.fin q) ∧
      |q - value| ≤ 1 / 10 ^ 9

/-- The text is no number, or reads as NaN. -/
def NoNumber (t : String) : Prop := F64.fromStr t = none ∨ F64.fromStr t = some .nan

/-- The request carries a signed payload for the command whose fourth field is
no number. -/
def SignsNoNumber (V : Ed25519) (F : FloatText) (pk : List UInt8) (req : Json) (r : WriteRequest) :
    Prop :=
  ∃ signature payload sig t, req.getStr "signature" = some signature ∧
    req.getStr "sig_payload" = some payload ∧ base64 signature = some sig ∧
    V pk payload sig = true ∧
    split '|' payload = [r.commandId, r.connectorId, targetKey F r.target, t] ∧ NoNumber t

theorem eq_signedFields {r : WriteRequest} {payload t : String}
    (h : split '|' payload = [r.commandId, r.connectorId, targetKey F r.target, t]) :
    payload = signedFields F r t := by
  apply String.toList_injective
  have hjoin : ['|'].intercalate (payload.toList.splitOn '|') = payload.toList :=
    List.intercalate_splitOn '|'
  have hl := congrArg (List.map String.toList) h
  simp only [split, List.map_map, Function.comp_def, String.toList_ofList, List.map_id'] at hl
  rw [← hjoin, hl]
  simp [signedFields, List.intercalate]

/-- A field within the tolerance of a finite value reads as NaN or is close to
it. -/
theorem close_iff {x : F64} {value : ℚ} :
    (x.sub (.fin value)).abs.gt tolerance = false ↔
      x = .nan ∨ ∃ q, x = .fin q ∧ |q - value| ≤ 1 / 10 ^ 9 := by
  cases x with
  | fin q => simp [F64.sub, F64.neg, F64.add, F64.abs, F64.gt, tolerance, sub_eq_add_neg]
  | inf s => simp [F64.sub, F64.neg, F64.add, F64.abs, F64.gt, tolerance]
  | nan => simp [F64.sub, F64.add, F64.abs, F64.gt]

theorem noNumber_iff {t : String} : NoNumber t ↔ (F64.fromStr t).getD .nan = .nan := by
  unfold NoNumber
  cases F64.fromStr t with
  | none => simp
  | some x => simp

/-- **A signature is sound on the value exactly when its fourth field is a
number.** For every key, request, command, target and finite value: an accepted
signature has a payload that is the command's own with a number within the
tolerance, if and only if the request does not carry a signed payload for the
command with a fourth field that is no number or reads as NaN. -/
theorem sound_on_value_iff {req : Json} {r : WriteRequest} {q : ℚ} :
    SoundOnValue V F pk req r q ↔ ¬ SignsNoNumber V F pk req r := by
  constructor
  · rintro hsound ⟨signature, payload, sig, t, hs, hp, hb, hv, hsplit, ht⟩
    have hnan := noNumber_iff.mp ht
    have hok : verifySignature V F (some pk) req { r with value := .fin q } = .ok () :=
      verifySignature_eq_ok.mpr ⟨signature, payload, sig, hs, hp, hb, hv,
        describes_iff.mpr ⟨t, hsplit, close_iff.mpr (Or.inl hnan)⟩⟩
    obtain ⟨t', p, hp', hnum, -⟩ := hsound hok
    -- two payloads of one command differ in the fourth field only
    have hsame : signedFields F r t = signedFields F r t' := by
      rw [← eq_signedFields hsplit]
      exact Option.some.inj (hp.symm.trans hp')
    obtain rfl : t = t' := by
      simpa [signedFields] using hsame
    rw [hnum] at hnan
    cases hnan
  · intro hno hok
    obtain ⟨signature, payload, sig, hs, hp, hb, hv, hd⟩ := verifySignature_eq_ok.mp hok
    obtain ⟨t, hsplit, hclose⟩ := describes_iff.mp hd
    have hnum : ¬ NoNumber t := fun ht =>
      hno ⟨signature, payload, sig, t, hs, hp, hb, hv, hsplit, ht⟩
    rcases close_iff.mp hclose with hnan | ⟨p, hq, hle⟩
    · exact absurd (noNumber_iff.mpr hnan) hnum
    · refine ⟨t, p, ?_, ?_, hle⟩
      · rw [hp]
        exact congrArg some (eq_signedFields (r := r) hsplit)
      · cases hx : F64.fromStr t with
        | none => exact absurd (Or.inl hx) hnum
        | some x => rw [hx] at hq; exact congrArg some hq

/-- The key holder signed a command with a word where the number goes. -/
def signedWord : Ed25519 := fun pk payload sig =>
  decide (pk = [7] ∧ payload = "c1|plc|holding:10|open" ∧ sig = [9])

/-- The signed word `open` authorises writing a million. -/
theorem word_authorises_value :
    verifySignature signedWord plainFloat (some [7])
      (signedRequest "c1" "plc" "c1|plc|holding:10|open" "CQ==" registerTen 1000000)
      ⟨"c1", "plc", .fin 1000000, registerTen, false, 5000⟩ = .ok () ∧
    ¬ SoundOnValue signedWord plainFloat [7]
      (signedRequest "c1" "plc" "c1|plc|holding:10|open" "CQ==" registerTen 1000000)
      ⟨"c1", "plc", .fin 1000000, registerTen, false, 5000⟩ 1000000 := by
  have hok : verifySignature signedWord plainFloat (some [7])
      (signedRequest "c1" "plc" "c1|plc|holding:10|open" "CQ==" registerTen 1000000)
      ⟨"c1", "plc", .fin 1000000, registerTen, false, 5000⟩ = .ok () := by
    decide +kernel
  refine ⟨hok, fun hsound => ?_⟩
  obtain ⟨t, q, hp, hnum, -⟩ := hsound hok
  have hfields : "c1|plc|holding:10|" ++ "open" = "c1|plc|holding:10|" ++ t := Option.some.inj hp
  obtain rfl : "open" = t := (String.append_right_inj _).mp hfields
  have hnone : F64.fromStr "open" = none := by decide +kernel
  rw [hnone] at hnum
  cases hnum

/-! ### Honest commands -/

/-- The request carries the command's own payload, with a text of the value as its
fourth field, and a signature that verifies. -/
def HonestlySigned (V : Ed25519) (F : FloatText) (pk : List UInt8) (req : Json) (r : WriteRequest)
    (value : ℚ) : Prop :=
  ∃ t signature sig, F64.fromStr t = some (.fin value) ∧
    req.getStr "sig_payload" = some (signedFields F r t) ∧ req.getStr "signature" = some signature ∧
    base64 signature = some sig ∧ V pk (signedFields F r t) sig = true

/-- Only the target's key can add fields to the payload. -/
theorem split_signedFields {r : WriteRequest} {t : String} (hcommand : '|' ∉ r.commandId.toList)
    (hconnector : '|' ∉ r.connectorId.toList) (ht : '|' ∉ t.toList) :
    split '|' (signedFields F r t) =
      [r.commandId, r.connectorId] ++ split '|' (targetKey F r.target) ++ [t] := by
  have hbar : "|" = String.singleton '|' := rfl
  unfold signedFields
  rw [hbar, split_append, split_append, split_append, split_eq_singleton hcommand,
    split_eq_singleton hconnector, split_eq_singleton ht]
  rfl

/-- **An honest command is accepted exactly when its target's key has no bar.** For
every command and connector id without the character `|`, every target and every
finite value, with the signature of the key holder on the command's payload. -/
theorem honest_accepted_iff {req : Json} {r : WriteRequest} {q : ℚ}
    (hcommand : '|' ∉ r.commandId.toList) (hconnector : '|' ∉ r.connectorId.toList)
    (hvalue : r.value = .fin q) (hsigned : HonestlySigned V F pk req r q) :
    verifySignature V F (some pk) req r = .ok () ↔ '|' ∉ (targetKey F r.target).toList := by
  obtain ⟨t, signature, sig, ht, hp, hs, hb, hv⟩ := hsigned
  have hbar : '|' ∉ t.toList := by
    intro hmem
    exact absurd (F64.numeral_of_fromStr ht _ hmem) (by decide)
  have hsplit := split_signedFields (F := F) hcommand hconnector hbar
  constructor
  · intro hok hmem
    obtain ⟨signature', payload, sig', -, hp', -, -, hd⟩ := verifySignature_eq_ok.mp hok
    obtain rfl : signedFields F r t = payload := Option.some.inj (hp.symm.trans hp')
    obtain ⟨num, hnum, -⟩ := describes_iff.mp hd
    have hlen := congrArg List.length (hsplit.symm.trans hnum)
    have hkey := two_le_length_split hmem
    simp only [List.length_append, List.length_cons, List.length_nil] at hlen
    omega
  · intro hkey
    have hfour : split '|' (signedFields F r t) =
        [r.commandId, r.connectorId, targetKey F r.target, t] := by
      rw [hsplit, split_eq_singleton hkey]
      rfl
    have hclose : (((F64.fromStr t).getD .nan).sub r.value).abs.gt tolerance = false := by
      rw [ht, hvalue]
      exact close_iff.mpr (Or.inr ⟨q, rfl, by simp⟩)
    exact verifySignature_eq_ok.mpr ⟨signature, _, sig, hs, hp, hb, hv,
      describes_iff.mpr ⟨t, hfour, hclose⟩⟩

/-- The key holder signs whatever it is asked to. -/
def signsAll : Ed25519 := fun pk _ sig => decide (pk = [7] ∧ sig = [9])

/-- A command to set a node to 50, and the request that carries it. -/
def nodeCommand (node : String) : WriteRequest :=
  ⟨"c1", "ua", .fin 50, .obj [("node_id", .str node)], false, 5000⟩

def nodeRequest (node : String) : Json :=
  signedRequest "c1" "ua" (signedFields plainFloat (nodeCommand node) "50") "CQ=="
    (nodeCommand node).target 50

theorem honestlySigned_node (node : String) :
    HonestlySigned signsAll plainFloat [7] (nodeRequest node) (nodeCommand node) 50 := by
  have ht : F64.fromStr "50" = some (.fin 50) := by decide +kernel
  exact ⟨"50", "CQ==", [9], ht, rfl, rfl, by decide, rfl⟩

theorem honest_accepted_setpoint :
    verifySignature signsAll plainFloat (some [7]) (nodeRequest "ns=2;s=Sp") (nodeCommand "ns=2;s=Sp") =
      .ok () :=
  (honest_accepted_iff (by decide) (by decide) rfl (honestlySigned_node _)).mpr (by decide)

/-- A node whose name has a bar in it. -/
theorem honest_refused :
    HonestlySigned signsAll plainFloat [7] (nodeRequest "ns=2;s=Line|Sp") (nodeCommand "ns=2;s=Line|Sp")
      50 ∧
    verifySignature signsAll plainFloat (some [7]) (nodeRequest "ns=2;s=Line|Sp")
      (nodeCommand "ns=2;s=Line|Sp") = .error "signed payload does not match the command" := by
  refine ⟨honestlySigned_node _, ?_⟩
  decide +kernel

end Control
end LymonAgent
