/-
# Calls in order

A plugin as those who call it see it. Exchanges come from many tasks at once, are aborted,
time out and fail, and the process dies and is spawned again. Where they are in step
(`InStep`), the plugin is still an object that takes one call at a time: what the exchanges
returned, in their order, is a history of the connector (`History`), in which every answer
is that of the connector's own method (`call`), on the state that the calls before it left
since the process was spawned, and only an error or an answer cut short ends the life of a
process (`calls_in_order`).

A query with the operation `subscribe` opens a subscription on the shared process. What
that writes first answers it, and it leaves the connector as far as it has come; in step it
writes nothing more, and if it has not ended, the process hears of nothing more.

Key definitions: `Connector`, `Performs`, `History`, `RunsOn`, `Stage`, `InOrder`.
Key theorems: `stage_step`, `inOrder_step`, `calls_in_order`.
-/
import LymonAgent.Plugin.Remote

namespace LymonAgent
namespace Plugin

open Collect Control Runs

/-! ### The object -/

/-- A collector with its subscriptions: `subscribe s r t line` says that one that is opened
in the state `s` may write the line first, and has brought the collector to `t` then. -/
structure Connector (σ : Type) extends Sdk.Collector σ where
  subscribe : σ → Sdk.ReadRequest → σ → Json → Prop

section

variable {σ : Type} (c : Connector σ) (F : FloatText) (parse : String → Except String Sdk.ReadRequest)

/-- The line a request got, and the state it left the collector in, are those of the
call. A request that the SDK cannot read leaves the state as it was. -/
def Performs (s : σ) (req : Request) (out : Json) (t : σ) : Prop :=
  match req.asked with
  | none => t = s ∧ ∃ e, out = Sdk.errorLine ("bad request: " ++ e)
  | some r =>
    if r.op = "subscribe" then c.subscribe s r t out
    else ∀ now, (t, req.answer now (.json out)) = call c.toCollector s now r req

/-- What exchanges returned, one after the other, with the state of the collector after
it if the process lives. -/
inductive History : List (ℕ × Request × Except String Written) → Option σ → Prop
  | start : History [] none
  | spawned {l : List (ℕ × Request × Except String Written)} (s : σ) : History l none → History l (some s)
  | answered {l : List (ℕ × Request × Except String Written)} {s t : σ} {req : Request} {w : Written}
    {out : Json} (id : ℕ) : History l (some s) → Performs c s req out t → w.text = out.chars F →
    History (l ++ [(id, req, .ok w)]) (some t)
  | cut {l : List (ℕ × Request × Except String Written)} {s t : σ} {req : Request} {w : Written}
    {out : Json} (id : ℕ) : History l (some s) → Performs c s req out t → w.text <+: out.chars F →
    w.text ≠ out.chars F → History (l ++ [(id, req, .ok w)]) none
  | failed {l : List (ℕ × Request × Except String Written)} {o : Option σ} (id : ℕ) (req : Request)
    (e : String) : History l o → History (l ++ [(id, req, .error e)]) none

/-- The step of a process is one of the connector: it answers with the connector's methods,
and what it writes first for a subscription is what the connector may. -/
def Proc.Of (p : Proc σ) : ProcEvent σ → Prop
  | .answer c' => c' = c.toCollector
  | .emit coll samples => ∀ input r, p.doing = .busy input false → requestOf parse input = .ok r →
      c.subscribe p.coll r coll (Sdk.batchLine samples)
  | .finish coll result => ∀ input r, p.doing = .busy input false → requestOf parse input = .ok r →
      c.subscribe p.coll r coll (Sdk.statusLine result)
  | _ => True

/-- The plugin runs the connector. -/
def RunsOn (s : Exchanges σ) : Event σ → Prop
  | .plugin e => ∀ p ∈ s.proc, p.Of c parse e
  | _ => True

/-- The SDK's parser reads the line of the request. -/
def Reads (req : Request) : Prop := (parse (req.line.text F)).toOption = Sdk.ReadRequest.ofJson req.line

/-- How far the call of a request is, which found the collector at `s`: not made, or made,
and its line being printed or there to read. -/
structure Stage (s : σ) (own : List (ℕ × Char)) (req : Request) (p : Proc σ) : Prop where
  before : p.stdout = [] → (∀ input text goesOn, p.doing ≠ .printing input text goesOn) → p.coll = s
  printing : ∀ text goesOn, p.doing = .printing own text goesOn →
    ∃ out, text = out.chars F ∧ Performs c s req out p.coll
  answered : ∀ w ∈ p.stdout, ∃ out, w.text = out.chars F ∧ Performs c s req out p.coll

/-- What a dead process left is the answer to the request, or the beginning of it. -/
def Leaves (s : σ) (req : Request) (p : Proc σ) : Prop :=
  ∀ w ∈ p.stdout, ∃ out t, w.text <+: out.chars F ∧ Performs c s req out t

end

variable {σ : Type} {c : Connector σ} {F : FloatText} {parse : String → Except String Sdk.ReadRequest}

/-! ### One call -/

theorem lineText_ownLine (id : ℕ) (req : Request) : lineText (ownLine F id req) = req.line.text F := by
  have hchars : (ownLine F id req).map Prod.snd = req.line.chars F := by
    simp [ownLine]
  have hlast : (req.line.chars F).getLast? = some '}' := by
    cases req <;>
      simp only [Request.line, readLine, ingestLine, queryLine, readPointsLine, writeLine] <;>
      rw [Json.chars, List.getLast?_cons, getLast_members] <;> rfl
  have hne : (req.line.chars F).getLast? ≠ some '\r' := by
    rw [hlast]
    decide
  unfold lineText
  simp only [hchars]
  rw [if_neg hne]
  rfl

/-- What the SDK makes of a request line is what was asked. -/
theorem requestOf_ownLine {req : Request} (h : Reads F parse req) (id : ℕ) :
    (requestOf parse (ownLine F id req)).toOption = req.asked := by
  rw [← ofJson_line, ← h, requestOf, lineText_ownLine]
  cases parse (req.line.text F) <;> rfl

/-- The answer of `run` to a request that is no subscription is that of the call. -/
theorem performs_respondTo {req : Request} (h : Reads F parse req) (s : σ) {id : ℕ}
    (hs : Subscribes parse (ownLine F id req) = false) :
    Performs c s req (respondTo c.toCollector s (requestOf parse (ownLine F id req))).2
      (respondTo c.toCollector s (requestOf parse (ownLine F id req))).1 := by
  have hasked := requestOf_ownLine h id
  unfold Subscribes at hs
  cases hreq : requestOf parse (ownLine F id req) with
  | error e =>
    rw [hreq] at hasked
    unfold Performs
    rw [← hasked]
    exact ⟨rfl, e, rfl⟩
  | ok r =>
    rw [hreq] at hasked hs
    unfold Performs
    rw [← hasked]
    dsimp only [Except.toOption]
    rw [if_neg (of_decide_eq_false hs)]
    exact fun now => remote_eq c.toCollector s now req hasked.symm

/-- A subscription answers its request. -/
theorem performs_subscribe {req : Request} (h : Reads F parse req) {id : ℕ}
    (hs : Subscribes parse (ownLine F id req) = true) {s t : σ} {out : Json}
    (hsub : ∀ r, requestOf parse (ownLine F id req) = .ok r → c.subscribe s r t out) :
    Performs c s req out t := by
  have hasked := requestOf_ownLine h id
  unfold Subscribes at hs
  cases hreq : requestOf parse (ownLine F id req) with
  | error e =>
    rw [hreq] at hs
    cases hs
  | ok r =>
    rw [hreq] at hs hasked
    unfold Performs
    rw [← hasked]
    dsimp only [Except.toOption]
    rw [if_pos (of_decide_eq_true hs)]
    exact hsub r hreq

/-- A step of the process while an exchange has the lock: the call goes on, or the process
dies and leaves nothing but its answer. -/
theorem stage_step {p q : Proc σ} {e : ProcEvent σ} {s : σ} {id : ℕ} {req : Request} {left : List Char}
    (hread : Reads F parse req) (hw : OnItsWay (ownLine F id req) id left p)
    (hs : Stage c F s (ownLine F id req) req p) (ho : p.OneLine e) (hof : p.Of c parse e)
    (h : procStep F parse p e = some q) :
    (q.alive = true ∧ Stage c F s (ownLine F id req) req q) ∨ (q.alive = false ∧ Leaves c F s req q) := by
  have halive := (procStep_cases h).1
  have hnil : ∀ q' : Proc σ, q'.stdout = [] → Leaves c F s req q' := fun q' hq' w hmem => by
    rw [hq'] at hmem
    exact absurd hmem List.not_mem_nil
  cases hw with
  | sent hd hout hi =>
    have hcoll : p.coll = s := hs.before hout fun input text goesOn heq => by
      rw [heq] at hd
      exact hd
    rcases mute_step hd ho h with ⟨input, rest, hl, hq⟩ | rfl
    · obtain ⟨rfl, -, -⟩ := cutLine_whole (ownLine_plain id req) hi hl
      rw [hq (ownLine_not_blank id req)]
      refine Or.inl ⟨halive, fun _ _ => hcoll, fun _ _ heq => Doing.noConfusion heq, ?_⟩
      simp [hout]
    · exact Or.inr ⟨rfl, hnil _ hout⟩
  | taken hl hi hd hout =>
    have hcoll : p.coll = s := hs.before hout fun input text goesOn heq => by cases hd.symm.trans heq
    -- the line that starts to be printed
    have hprint : ∀ (coll : σ) (out : Json) (goesOn : Bool), Performs c s req out coll →
        Stage c F s (ownLine F id req) req
          { p with coll, doing := .printing (ownLine F id req) (out.chars F) goesOn } :=
      fun coll out goesOn hperf => by
      refine ⟨fun _ hne => absurd rfl (hne _ _ _), fun text goesOn' heq => ?_, by simp [hout]⟩
      obtain ⟨-, rfl, -⟩ := Doing.printing.inj heq
      exact ⟨out, rfl, hperf⟩
    cases (procStep_cases h).2 with
    | skip hd' | take hd' | printed hd' | cut _ hd' => cases hd.symm.trans hd'
    | answer c' hd' hsub =>
      obtain ⟨rfl, -⟩ := Doing.busy.inj (hd.symm.trans hd')
      obtain rfl : c' = c.toCollector := hof
      rw [hcoll]
      exact Or.inl ⟨halive, hprint _ _ _ (performs_respondTo hread s hsub)⟩
    | emit coll samples hd' hsub =>
      obtain ⟨rfl, -⟩ := Doing.busy.inj (hd.symm.trans hd')
      exact Or.inl ⟨halive, hprint _ _ _ (performs_subscribe hread hsub fun r hr => hcoll ▸ hof _ r hd hr)⟩
    | finish coll result hd' hsub =>
      obtain ⟨rfl, -⟩ := Doing.busy.inj (hd.symm.trans hd')
      exact Or.inl ⟨halive, hprint _ _ _ (performs_subscribe hread hsub fun r hr => hcoll ▸ hof _ r hd hr)⟩
    | die n => exact Or.inr ⟨rfl, hnil _ hout⟩
  | @printing text goesOn hl hi hd hout =>
    obtain ⟨out, rfl, hperf⟩ := hs.printing text goesOn hd
    cases (procStep_cases h).2 with
    | skip hd' | take hd' | answer _ hd' | emit _ _ hd' | finish _ _ hd' => cases hd.symm.trans hd'
    | @printed input text' goesOn' hd' =>
      obtain ⟨rfl, rfl, rfl⟩ := Doing.printing.inj (hd.symm.trans hd')
      refine Or.inl ⟨halive, fun hnil' => ?_, fun text' goesOn' heq => ?_, fun w hmem => ?_⟩
      · simp at hnil'
      · cases goesOn <;> cases heq
      · simp only [hout, List.nil_append, List.mem_singleton] at hmem
        subst hmem
        exact ⟨out, rfl, hperf⟩
    | cut n hd' =>
      obtain ⟨rfl, rfl, rfl⟩ := Doing.printing.inj (hd.symm.trans hd')
      refine Or.inr ⟨rfl, fun w hmem => ?_⟩
      dsimp only at hmem
      rw [hout] at hmem
      split at hmem
      · exact absurd hmem List.not_mem_nil
      · obtain rfl := List.mem_singleton.mp hmem
        exact ⟨out, _, List.take_prefix n _, hperf⟩
    | die n => exact Or.inr ⟨rfl, hnil _ hout⟩
  | answered hl hi hd hout =>
    rw [mute_step_nil hd hi ho h]
    refine Or.inr ⟨rfl, fun w hmem => ?_⟩
    obtain ⟨out, htext, hperf⟩ := hs.answered w hmem
    exact ⟨out, _, htext ▸ List.prefix_rfl, hperf⟩

/-! ### The requests -/

/-- The requests that wait and the one that has the lock. -/
structure Asked (Q : Request → Prop) (s : Exchanges σ) : Prop where
  waiting : ∀ x ∈ s.waiting, Q x.2
  holder : ∀ h, s.holder = some h → Q h.req

/-- The exchange that takes the lock is one of those that waited. -/
theorem acquired_waiting {s t : Exchanges σ} {i : ℕ} {spawn : Except String σ} {x : Holder}
    (h : step F parse s (.acquire i spawn) = some t) (hx : t.holder = some x) :
    ∃ y ∈ s.waiting, y.2 = x.req := by
  simp only [step] at h
  split at h
  · rename_i id req hh hw
    split at h <;> obtain rfl := Option.some.inj h
    · obtain rfl := Option.some.inj hx
      exact ⟨_, List.mem_of_getElem? hw, rfl⟩
    · obtain rfl := Option.some.inj hx
      exact ⟨_, List.mem_of_getElem? hw, rfl⟩
    · cases hh.symm.trans hx
  · cases h

theorem asked_step {Q : Request → Prop} {s t : Exchanges σ} {e : Event σ} (hs : Asked Q s)
    (he : ∀ req, e = .call req → Q req) (h : step F parse s e = some t) : Asked Q t := by
  have herased : ∀ i, ∀ x ∈ s.waiting.eraseIdx i, Q x.2 := fun i x hx =>
    hs.waiting x (List.mem_of_mem_eraseIdx hx)
  cases tookStep_of_step h with
  | call req =>
    refine ⟨fun x hx => ?_, hs.holder⟩
    rcases List.mem_append.mp hx with hx | hx
    · exact hs.waiting x hx
    · obtain rfl := List.mem_singleton.mp hx
      exact he req rfl
  | @acquire i | @spawn i =>
    refine ⟨herased i, fun x hx => ?_⟩
    obtain ⟨y, hy, heq⟩ := acquired_waiting h hx
    exact heq ▸ hs.waiting y hy
  | @spawnFails i => exact ⟨herased i, hs.holder⟩
  | @write id req left p n hh =>
    refine ⟨hs.waiting, fun x hx => ?_⟩
    obtain rfl := Option.some.inj hx
    exact hs.holder ⟨id, req, .writing left⟩ hh
  | @flushed id req hh =>
    refine ⟨hs.waiting, fun x hx => ?_⟩
    obtain rfl := Option.some.inj hx
    exact hs.holder ⟨id, req, .writing []⟩ hh
  | receive | fails | abort => exact ⟨hs.waiting, fun x hx => (Option.some_ne_none x hx.symm).elim⟩
  | abortWaiting i => exact ⟨herased i, hs.holder⟩
  | plugin => exact ⟨hs.waiting, hs.holder⟩

/-! ### All calls -/

/-- What the exchanges returned is a history, and the process is where it ends: the
collector is as the calls left it, or a call is on its way. -/
structure InOrder (c : Connector σ) (F : FloatText) (s : Exchanges σ) : Prop where
  past : ∃ o, History c F s.returned o
  gone : s.proc = none → History c F s.returned none
  free : s.holder = none → ∀ p, s.proc = some p → p.alive = true → History c F s.returned (some p.coll)
  live : ∀ h p, s.holder = some h → s.proc = some p → p.alive = true →
    ∃ st, History c F s.returned (some st) ∧ Stage c F st (ownLine F h.id h.req) h.req p
  dead : ∀ h p, s.holder = some h → s.proc = some p → p.alive = false →
    h.phase ≠ .writing (h.req.payload F) →
    ∃ st, History c F s.returned (some st) ∧ Leaves c F st h.req p

theorem inOrder_start : InOrder c F (start : Exchanges σ) where
  past := ⟨none, .start⟩
  gone _ := .start
  free _ p hp := (Option.some_ne_none p hp.symm).elim
  live h _ hh := (Option.some_ne_none h hh.symm).elim
  dead h _ hh := (Option.some_ne_none h hh.symm).elim

/-- The stage of a call that has not been made. -/
theorem stage_mute {p : Proc σ} {s : σ} {own : List (ℕ × Char)} {req : Request} (hm : p.doing.Mute)
    (ho : p.stdout = []) (hcoll : p.coll = s) : Stage c F s own req p := by
  refine ⟨fun _ _ => hcoll, fun text goesOn hd => ?_, by simp [ho]⟩
  rw [hd] at hm
  cases hm

/-- A line that is received goes on with the history, or ends a life. -/
theorem history_receive {l : List (ℕ × Request × Except String Written)} {s : σ} {req : Request}
    {w : Written} {p : Proc σ} {rest : List Written} (id : ℕ) (hl : History c F l (some s))
    (hp : Leaves c F s req p) (ho : p.stdout = w :: rest) : ∃ o, History c F (l ++ [(id, req, .ok w)]) o := by
  obtain ⟨out, t, htext, hperf⟩ := hp w (ho ▸ List.mem_cons_self)
  by_cases hall : w.text = out.chars F
  · exact ⟨some t, hl.answered id hperf hall⟩
  · exact ⟨none, hl.cut id hperf htext hall⟩

theorem inOrder_step {s t : Exchanges σ} {e : Event σ} (hsync : InSync F s) (hasked : Asked (Reads F parse) s)
    (hs : InOrder c F s) (hc : InStep F s e) (hof : RunsOn c parse s e)
    (h : step F parse s e = some t) : InOrder c F t := by
  cases tookStep_of_step h with
  | call | abortWaiting => exact ⟨hs.past, hs.gone, hs.free, hs.live, hs.dead⟩
  | @acquire i id req spawn hh hp =>
    refine ⟨hs.past, hs.gone, fun hn => (Option.some_ne_none _ hn).elim, fun x p hx hp' ha => ?_,
      fun x p hx hp' ha hne => ?_⟩
    · obtain rfl := Option.some.inj hx
      obtain ⟨hm, -, ho⟩ := hsync.free hh p hp' ha
      exact ⟨p.coll, hs.free hh p hp' ha, stage_mute hm ho rfl⟩
    · obtain rfl := Option.some.inj hx
      exact absurd rfl hne
  | @spawn i id req coll hh hp =>
    have hlife : History c F s.returned (some coll) := (hs.gone hp).spawned coll
    refine ⟨⟨_, hlife⟩, fun hn => (Option.some_ne_none _ hn).elim, fun hn => (Option.some_ne_none _ hn).elim,
      fun x p hx hp' ha => ?_, fun x p hx hp' ha hne => ?_⟩
    · obtain rfl := Option.some.inj hx
      obtain rfl := Option.some.inj hp'
      exact ⟨coll, hlife, stage_mute trivial rfl rfl⟩
    · obtain rfl := Option.some.inj hx
      exact absurd rfl hne
  | @spawnFails i id req m hh hp =>
    have hlife := (hs.gone hp).failed id req m
    exact ⟨⟨_, hlife⟩, fun _ => hlife, fun _ p hp' => (Option.some_ne_none p (hp'.symm.trans hp)).elim,
      fun x _ hx => (Option.some_ne_none x (hx.symm.trans hh)).elim,
      fun x _ hx => (Option.some_ne_none x (hx.symm.trans hh)).elim⟩
  | @write id req left p n hh hp ha =>
    refine ⟨hs.past, fun hn => (Option.some_ne_none _ hn).elim, fun hn => (Option.some_ne_none _ hn).elim,
      fun x q hx hq _ => ?_, fun x q hx hq hd => ?_⟩
    · obtain rfl := Option.some.inj hx
      obtain rfl := Option.some.inj hq
      obtain ⟨st, hl, hstage⟩ := hs.live _ p hh hp ha
      exact ⟨st, hl, ⟨hstage.before, hstage.printing, hstage.answered⟩⟩
    · obtain rfl := Option.some.inj hq
      cases ha.symm.trans hd
  | @flushed id req hh =>
    have hne : Phase.writing [] ≠ .writing (req.payload F) := fun he =>
      payload_ne_nil req (Phase.writing.inj he).symm
    refine ⟨hs.past, hs.gone, fun hn => (Option.some_ne_none _ hn).elim, fun x p hx hp ha => ?_,
      fun x p hx hp hd _ => ?_⟩
    · obtain rfl := Option.some.inj hx
      exact hs.live ⟨id, req, .writing []⟩ p hh hp ha
    · obtain rfl := Option.some.inj hx
      exact hs.dead ⟨id, req, .writing []⟩ p hh hp hd hne
  | @receive id req p w rest hh hp ho =>
    refine ⟨?_, fun hn => (Option.some_ne_none _ hn).elim, fun _ q hq ha => ?_,
      fun x _ hx => (Option.some_ne_none x hx.symm).elim, fun x _ hx => (Option.some_ne_none x hx.symm).elim⟩
    · cases ha : p.alive with
      | true =>
        obtain ⟨st, hl, hstage⟩ := hs.live _ p hh hp ha
        obtain ⟨out, htext, hperf⟩ := hstage.answered w (ho ▸ List.mem_cons_self)
        exact ⟨_, hl.answered id hperf htext⟩
      | false =>
        obtain ⟨st, hl, hleaves⟩ := hs.dead _ p hh hp ha (by simp)
        exact history_receive id hl hleaves ho
    · obtain rfl := Option.some.inj hq
      obtain ⟨st, hl, hstage⟩ := hs.live _ p hh hp ha
      obtain ⟨out, htext, hperf⟩ := hstage.answered w (ho ▸ List.mem_cons_self)
      exact hl.answered id hperf htext
  | @fails _ holder hh m =>
    obtain ⟨o, hl⟩ := hs.past
    have hlife := hl.failed holder.id holder.req m
    exact ⟨⟨none, hlife⟩, fun _ => hlife, fun _ p hp => (Option.some_ne_none p hp.symm).elim,
      fun x _ hx => (Option.some_ne_none x hx.symm).elim, fun x _ hx => (Option.some_ne_none x hx.symm).elim⟩
  | @abort holder hh =>
    refine ⟨hs.past, hs.gone, fun _ p hp ha => ?_, fun x _ hx => (Option.some_ne_none x hx.symm).elim,
      fun x _ hx => (Option.some_ne_none x hx.symm).elim⟩
    rcases hc holder hh with hphase | hdead
    · -- nothing of the request is in the pipe, and the call has not been made
      have hw := hsync.live holder p hh hp ha
      rw [hphase] at hw
      obtain ⟨hm, -, hout⟩ := onItsWay_untouched hw
      obtain ⟨st, hl, hstage⟩ := hs.live holder p hh hp ha
      have hcoll : p.coll = st := hstage.before hout fun input text goesOn hd => by
        rw [hd] at hm
        cases hm
      rw [hcoll]
      exact hl
    · cases (hdead p hp).symm.trans ha
  | @plugin e p q hp hq =>
    have hline : p.OneLine e := hc p hp
    have halive := (procStep_cases hq).1
    -- the call of the exchange with the lock, after the step
    have hnext : ∀ x, s.holder = some x → ∃ st, History c F s.returned (some st) ∧
        ((q.alive = true ∧ Stage c F st (ownLine F x.id x.req) x.req q) ∨
          (q.alive = false ∧ Leaves c F st x.req q)) := fun x hx => by
      obtain ⟨st, hl, hstage⟩ := hs.live x p hx hp halive
      exact ⟨st, hl, stage_step (hasked.holder x hx) (hsync.live x p hx hp halive) hstage hline (hof p hp) hq⟩
    refine ⟨hs.past, fun hn => (Option.some_ne_none _ hn).elim, fun hn q' hq' ha => ?_,
      fun x q' hx hq' ha => ?_, fun x q' hx hq' hd _ => ?_⟩ <;> obtain rfl := Option.some.inj hq'
    · obtain ⟨hm, hi, -⟩ := hsync.free hn p hp halive
      rw [mute_step_nil hm hi hline hq] at ha
      cases ha
    · obtain ⟨st, hl, ⟨-, hstage⟩ | ⟨hd, -⟩⟩ := hnext x hx
      · exact ⟨st, hl, hstage⟩
      · cases ha.symm.trans hd
    · obtain ⟨st, hl, ⟨ha, -⟩ | ⟨-, hleaves⟩⟩ := hnext x hx
      · cases ha.symm.trans hd
      · exact ⟨st, hl, hleaves⟩

/-- **A plugin is an object that takes one call at a time.** In every run of calls on a
plugin, in any interleaving, with aborts, time-outs, write errors, deaths and respawns of
the process, in which no exchange is aborted with part of its request in the pipe of a live
process and no request is answered by a second line: what the exchanges returned, in their
order, is a history of the connector. Every line is the answer of the connector's own method
to what was asked, or what its subscription writes first, on the state that the calls before
it left since the process was spawned; that state is lost only with an error, or with a line
that is cut short. -/
theorem calls_in_order {es : List (Event σ)} {t : Exchanges σ}
    (hc : Each (step F parse) (InStep F) start es) (hof : Each (step F parse) (RunsOn c parse) start es)
    (hreads : ∀ req, .call req ∈ es → Reads F parse req) (h : run (step F parse) start es = some t) :
    ∃ o, History c F t.returned o := by
  have hevents : ∀ e ∈ es, ∀ req, e = .call req → Reads F parse req := fun e he req heq => hreads req (heq ▸ he)
  have hstart : InSync F (start : Exchanges σ) ∧ Asked (Reads F parse) (start : Exchanges σ) ∧
      InOrder c F (start : Exchanges σ) :=
    ⟨sync_start, ⟨fun x hx => absurd hx List.not_mem_nil, fun x hx => (Option.some_ne_none x hx.symm).elim⟩,
      inOrder_start⟩
  have hinv : InSync F t ∧ Asked (Reads F parse) t ∧ InOrder c F t := by
    refine each_run (I := fun s => InSync F s ∧ Asked (Reads F parse) s ∧ InOrder c F s)
      (fun s e u hs hP hu => ?_) (hc.and (hof.and (each_of_mem fun e he _ => hevents e he))) hstart h
    obtain ⟨hsync, hasked, hord⟩ := hs
    obtain ⟨hstep, hruns, hcall⟩ := hP
    exact ⟨sync_step hsync hstep hu, asked_step hasked hcall hu,
      inOrder_step hsync hasked hord hstep hruns hu⟩
  exact hinv.2.2.past

/-- The gauge, whose subscriptions fail. -/
def gaugeConnector : Connector Unit where
  toCollector := gauge
  subscribe _ _ _ line := line = Sdk.statusLine (.error "subscribe (push) not supported by this plugin")

/-- The process takes a line that opens a subscription, which ends at once. -/
def refuses : List (Event Unit) :=
  [.plugin .take, .plugin (.finish () (.error "subscribe (push) not supported by this plugin")),
    .plugin .printed, .receive]

/-- A poll, a query and a subscription are answered; before the last query one exchange was
aborted while it waited, and one timed out. -/
theorem calls_in_order_thrice : ∃ t,
    gaugeRun (asks poll ++ replies ++ [.receive, .call poll, .abortWaiting 0] ++ asks (ask "test") ++
      [.timedOut] ++ asks (ask "test") ++ replies ++ [.receive] ++ asks (ask "subscribe") ++ refuses) = some t ∧
      t.returned.length = 4 ∧ ∃ o, History gaugeConnector plainFloat t.returned o := by
  have h : ∃ t ∈ gaugeRun (asks poll ++ replies ++ [.receive, .call poll, .abortWaiting 0] ++
      asks (ask "test") ++ [.timedOut] ++ asks (ask "test") ++ replies ++ [.receive] ++
      asks (ask "subscribe") ++ refuses), t.returned.length = 4 := by decide +kernel
  obtain ⟨t, ht, hlen⟩ := h
  rw [Option.mem_def] at ht
  have hpoll : Reads plainFloat gaugeParse poll := by rfl
  have htest : Reads plainFloat gaugeParse (ask "test") := by rfl
  have hsubscribe : Reads plainFloat gaugeParse (ask "subscribe") := by rfl
  refine ⟨t, ht, hlen, calls_in_order (by decide +kernel) (each_of_mem fun e he s => ?_) (fun req hreq => ?_) ht⟩
  · revert e
    simp [asks, replies, refuses, RunsOn, Proc.Of, gaugeConnector]
  · have hcases : req = poll ∨ req = ask "test" ∨ req = ask "subscribe" := by
      simpa [asks, replies, refuses, or_assoc] using hreq
    rcases hcases with rfl | rfl | rfl
    · exact hpoll
    · exact htest
    · exact hsubscribe

end Plugin
end LymonAgent
