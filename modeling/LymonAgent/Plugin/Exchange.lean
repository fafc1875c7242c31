/-
# Exchanges with a plugin

`Plugin::exchange` of `src/plugins.rs`: one process serves every connector of a
type, and an exchange holds its lock while it writes its request and reads one
line. A write that fails, a time-out and the end of the output kill the process,
and the next exchange spawns another. A task that is aborted lets go of the lock
at whichever await it is and leaves the process as it is (`Collector::reconfigure`
aborts the tasks that poll).

Answers carry no id, so an exchange is given its own only while the pipes hold
nothing of another. `own_answers` is about runs in which no exchange is aborted
with part of its request in the pipe of a live process and no request is answered
by two lines.

Key definitions: `Exchanges`, `Event`, `step`, `OwnAnswers`, `InStep`.
Key theorems: `tookStep_of_step`, `sync_step`, `allAnswered_step`.
-/
import LymonAgent.Plugin.Host
import LymonAgent.Plugin.Process
import LymonAgent.Runs

namespace LymonAgent
namespace Plugin

open Collect Control Runs

/-- What the agent asks of a plugin: `Plugin::read`, `query`, `read_points` and
`write`. -/
inductive Request where
  | read (c : Conn) (ing : Ingest)
  | query (op dsType : String) (config secrets args : Json)
  | readPoints (dsType : String) (config secrets points : Json)
  | write (c : Conn) (r : WriteRequest)

def Request.line : Request → Json
  | .read c ing => readLine c ing
  | .query op dsType config secrets args => queryLine op dsType config secrets args
  | .readPoints dsType config secrets points => readPointsLine dsType config secrets points
  | .write c r => writeLine c r

/-- Where the exchange with the lock is: it has `left` to write, or waits for its
line. -/
inductive Phase where
  | writing (left : List Char)
  | reading
  deriving DecidableEq

structure Holder where
  id : ℕ
  req : Request
  phase : Phase

/-- A plugin of the agent: the exchanges that wait for the lock, the one that has
it, the process, and what the exchanges that came to an end returned. -/
structure Exchanges (σ : Type) where
  next : ℕ
  waiting : List (ℕ × Request)
  holder : Option Holder
  proc : Option (Proc σ)
  returned : List (ℕ × Request × Except String Written)

inductive Event (σ : Type) where
  | call (req : Request)
  /-- The `i`-th of those that wait takes the lock. -/
  | acquire (i : ℕ) (spawn : Except String σ)
  | write (n : ℕ)
  | flushed
  | receive
  | closed
  | timedOut
  | ioError (e : String)
  | abort
  | abortWaiting (i : ℕ)
  | plugin (e : ProcEvent σ)

def start {σ : Type} : Exchanges σ := ⟨0, [], none, none, []⟩

section

variable {σ : Type} (F : FloatText) (parse : String → Except String Sdk.ReadRequest)

/-- The characters of a request, as `exchange` sends them. -/
def Request.payload (req : Request) : List Char := req.line.chars F ++ ['\n']

/-- The exchange with the lock returns an error: the process is killed. -/
def Exchanges.fail (s : Exchanges σ) (h : Holder) (e : String) : Exchanges σ :=
  { s with holder := none, proc := none, returned := s.returned ++ [(h.id, h.req, .error e)] }

def step (s : Exchanges σ) : Event σ → Option (Exchanges σ)
  | .call req => some { s with next := s.next + 1, waiting := s.waiting ++ [(s.next, req)] }
  | .acquire i spawn =>
    match s.holder, s.waiting[i]? with
    | none, some (id, req) =>
      let holder := some ⟨id, req, .writing (req.payload F)⟩
      let waiting := s.waiting.eraseIdx i
      match s.proc, spawn with
      | some _, _ => some { s with waiting, holder }
      | none, .ok coll => some { s with waiting, holder, proc := some (.fresh coll) }
      | none, .error e => some { s with waiting, returned := s.returned ++ [(id, req, .error e)] }
    | _, _ => none
  | .write n =>
    match s.holder, s.proc with
    | some ⟨id, req, .writing left⟩, some p =>
      if p.alive && n ≤ left.length then
        some { s with
          holder := some ⟨id, req, .writing (left.drop n)⟩
          proc := some { p with stdin := p.stdin ++ (left.take n).map (id, ·) } }
      else none
    | _, _ => none
  | .flushed =>
    match s.holder with
    | some ⟨id, req, .writing []⟩ => some { s with holder := some ⟨id, req, .reading⟩ }
    | _ => none
  | .receive =>
    match s.holder, s.proc with
    | some ⟨id, req, .reading⟩, some p =>
      match p.stdout with
      | w :: rest => some { s with
          holder := none
          proc := some { p with stdout := rest }
          returned := s.returned ++ [(id, req, .ok w)] }
      | [] => none
    | _, _ => none
  | .closed =>
    match s.holder, s.proc with
    | some ⟨id, req, .reading⟩, some p =>
      if p.stdout.isEmpty && !p.alive then some (s.fail ⟨id, req, .reading⟩ "plugin closed its output")
      else none
    | _, _ => none
  | .timedOut =>
    match s.holder with
    | some ⟨id, req, .reading⟩ =>
      some (s.fail ⟨id, req, .reading⟩ "plugin did not respond within 60s")
    | _ => none
  -- of the write, the flush or the read
  | .ioError e =>
    match s.holder with
    | some h => some (s.fail h e)
    | none => none
  | .abort =>
    match s.holder with
    | some _ => some { s with holder := none }
    | none => none
  | .abortWaiting i => some { s with waiting := s.waiting.eraseIdx i }
  | .plugin e =>
    match s.proc with
    | some p => (procStep F parse p e).map fun q => { s with proc := some q }
    | none => none

/-! ### Own answers -/

/-- The request line of an exchange, as it is in the pipe. -/
def ownLine (id : ℕ) (req : Request) : List (ℕ × Char) := (req.line.chars F).map (id, ·)

/-- Every exchange that returned a line returned one that the plugin wrote in
answer to the exchange's own request. -/
def OwnAnswers (s : Exchanges σ) : Prop :=
  ∀ id req w, (id, req, .ok w) ∈ s.returned → w.input = ownLine F id req ∧ w.Answer F parse σ

/-- An exchange is aborted while it waits for the lock, before it has written of
its request, or with the process dead; and what writes a line in answer to a
request has written none for it before. -/
def InStep (s : Exchanges σ) : Event σ → Prop
  | .abort => ∀ h ∈ s.holder, h.phase = .writing (h.req.payload F) ∨ ∀ p ∈ s.proc, p.alive = false
  | .plugin e => ∀ p ∈ s.proc, p.OneLine e
  | _ => True

instance (s : Exchanges σ) : (e : Event σ) → Decidable (InStep F s e)
  | .abort => inferInstanceAs (Decidable (∀ h ∈ s.holder,
      h.phase = .writing (h.req.payload F) ∨ ∀ p ∈ s.proc, p.alive = false))
  | .plugin e => inferInstanceAs (Decidable (∀ p ∈ s.proc, p.OneLine e))
  | .call _ | .acquire _ _ | .write _ | .flushed | .receive | .closed | .timedOut | .ioError _
  | .abortWaiting _ => isTrue trivial

/-! ### The steps -/

/-- The steps of the exchanges, one by one. -/
inductive TookStep (s : Exchanges σ) : Event σ → Exchanges σ → Prop
  | call (req : Request) :
    TookStep s (.call req) { s with next := s.next + 1, waiting := s.waiting ++ [(s.next, req)] }
  | acquire {i id : ℕ} {req : Request} (spawn : Except String σ) (hh : s.holder = none)
    (hp : s.proc ≠ none) : TookStep s (.acquire i spawn) { s with
      waiting := s.waiting.eraseIdx i
      holder := some ⟨id, req, .writing (req.payload F)⟩ }
  | spawn {i id : ℕ} {req : Request} (coll : σ) (hh : s.holder = none) (hp : s.proc = none) :
    TookStep s (.acquire i (.ok coll)) { s with
      waiting := s.waiting.eraseIdx i
      holder := some ⟨id, req, .writing (req.payload F)⟩
      proc := some (.fresh coll) }
  | spawnFails {i id : ℕ} {req : Request} (e : String) (hh : s.holder = none) (hp : s.proc = none) :
    TookStep s (.acquire i (.error e)) { s with
      waiting := s.waiting.eraseIdx i
      returned := s.returned ++ [(id, req, .error e)] }
  | write {id : ℕ} {req : Request} {left : List Char} {p : Proc σ} (n : ℕ)
    (hh : s.holder = some ⟨id, req, .writing left⟩) (hp : s.proc = some p) (ha : p.alive = true) :
    TookStep s (.write n) { s with
      holder := some ⟨id, req, .writing (left.drop n)⟩
      proc := some { p with stdin := p.stdin ++ (left.take n).map (id, ·) } }
  | flushed {id : ℕ} {req : Request} (hh : s.holder = some ⟨id, req, .writing []⟩) :
    TookStep s .flushed { s with holder := some ⟨id, req, .reading⟩ }
  | receive {id : ℕ} {req : Request} {p : Proc σ} {w : Written} {rest : List Written}
    (hh : s.holder = some ⟨id, req, .reading⟩) (hp : s.proc = some p) (ho : p.stdout = w :: rest) :
    TookStep s .receive { s with
      holder := none
      proc := some { p with stdout := rest }
      returned := s.returned ++ [(id, req, .ok w)] }
  | fails {e : Event σ} {h : Holder} (hh : s.holder = some h) (m : String) : TookStep s e (s.fail h m)
  | abort {h : Holder} (hh : s.holder = some h) : TookStep s .abort { s with holder := none }
  | abortWaiting (i : ℕ) : TookStep s (.abortWaiting i) { s with waiting := s.waiting.eraseIdx i }
  | plugin {e : ProcEvent σ} {p q : Proc σ} (hp : s.proc = some p) (h : procStep F parse p e = some q) :
    TookStep s (.plugin e) { s with proc := some q }

variable {F parse}

theorem tookStep_of_step {s t : Exchanges σ} {e : Event σ} (h : step F parse s e = some t) :
    TookStep F parse s e t := by
  cases e with
  | call req =>
    obtain rfl := Option.some.inj h
    exact .call req
  | acquire i spawn =>
    simp only [step] at h
    split at h
    · rename_i id req hh hw
      split at h
      · rename_i p hp
        obtain rfl := Option.some.inj h
        exact .acquire _ hh (by rw [hp]; exact Option.some_ne_none p)
      · rename_i coll hp
        obtain rfl := Option.some.inj h
        exact .spawn coll hh hp
      · rename_i e hp
        obtain rfl := Option.some.inj h
        exact .spawnFails e hh hp
    · cases h
  | write n =>
    simp only [step] at h
    split at h
    · rename_i hh hp
      split at h
      · rename_i hc
        obtain rfl := Option.some.inj h
        exact .write n hh hp (Bool.and_eq_true_iff.mp hc).1
      · cases h
    · cases h
  | flushed =>
    simp only [step] at h
    split at h
    · rename_i hh
      obtain rfl := Option.some.inj h
      exact .flushed hh
    · cases h
  | receive =>
    simp only [step] at h
    split at h
    · rename_i hh hp
      split at h
      · rename_i ho
        obtain rfl := Option.some.inj h
        exact .receive hh hp ho
      · cases h
    · cases h
  | closed =>
    simp only [step] at h
    split at h
    · rename_i hh hp
      split at h
      · obtain rfl := Option.some.inj h
        exact .fails hh _
      · cases h
    · cases h
  | timedOut =>
    simp only [step] at h
    split at h
    · rename_i hh
      obtain rfl := Option.some.inj h
      exact .fails hh _
    · cases h
  | ioError m =>
    simp only [step] at h
    split at h
    · rename_i hh
      obtain rfl := Option.some.inj h
      exact .fails hh m
    · cases h
  | abort =>
    simp only [step] at h
    split at h
    · rename_i hh
      obtain rfl := Option.some.inj h
      exact .abort hh
    · cases h
  | abortWaiting i =>
    obtain rfl := Option.some.inj h
    exact .abortWaiting i
  | plugin e =>
    simp only [step] at h
    split at h
    · rename_i hp
      obtain ⟨q, hq, rfl⟩ := Option.map_eq_some_iff.mp h
      exact .plugin hp hq
    · cases h

/-! ### What the process wrote -/

/-- All that the process wrote and all that was returned is in answer to its input
line. -/
structure AllAnswered (F : FloatText) (parse : String → Except String Sdk.ReadRequest)
    (s : Exchanges σ) : Prop where
  proc : ∀ p, s.proc = some p → p.Answered F parse
  returned : ∀ id req w, (id, req, .ok w) ∈ s.returned → w.Answer F parse σ

/-- An error is no line. -/
theorem ok_mem_of_append {l : List (ℕ × Request × Except String Written)} {id i : ℕ} {req r : Request}
    {e : String} {w : Written} (h : (id, req, .ok w) ∈ l ++ [(i, r, .error e)]) : (id, req, .ok w) ∈ l := by
  rcases List.mem_append.mp h with h | h
  · exact h
  · cases List.mem_singleton.mp h

theorem allAnswered_step {s t : Exchanges σ} {e : Event σ} (hs : AllAnswered F parse s)
    (h : step F parse s e = some t) : AllAnswered F parse t := by
  cases tookStep_of_step h with
  | call | acquire | flushed | abort | abortWaiting => exact ⟨hs.proc, hs.returned⟩
  | spawn coll hh hp =>
    refine ⟨fun p h => ?_, hs.returned⟩
    obtain rfl := Option.some.inj h
    exact answered_fresh coll
  | spawnFails e hh hp => exact ⟨hs.proc, fun id req w h => hs.returned id req w (ok_mem_of_append h)⟩
  | @write id req left p n hh hp ha =>
    refine ⟨fun q h => ?_, hs.returned⟩
    obtain rfl := Option.some.inj h
    exact ⟨(hs.proc p hp).stdout, (hs.proc p hp).doing⟩
  | @receive id req p w rest hh hp ho =>
    have hout := (hs.proc p hp).stdout
    rw [ho] at hout
    refine ⟨fun q h => ?_, fun id' req' w' h => ?_⟩
    · obtain rfl := Option.some.inj h
      exact ⟨fun w hw => hout w (List.mem_cons_of_mem _ hw), (hs.proc p hp).doing⟩
    · rcases List.mem_append.mp h with h | h
      · exact hs.returned id' req' w' h
      · cases List.mem_singleton.mp h
        exact hout w List.mem_cons_self
  | fails hh m =>
    exact ⟨fun _ h => (Option.some_ne_none _ h.symm).elim,
      fun id req w h => hs.returned id req w (ok_mem_of_append h)⟩
  | @plugin e p q hp hq =>
    refine ⟨fun q' h => ?_, hs.returned⟩
    obtain rfl := Option.some.inj h
    exact answers_step (hs.proc p hp) hq

/-! ### Who is answered -/

def Phase.left : Phase → List Char
  | .writing left => left
  | .reading => []

/-- While no exchange has the lock, a live process has nothing to say; otherwise
the pipes hold the request of the one that has it, and what a dead process left is
in answer to that request once a part of it has been written. -/
structure InSync (F : FloatText) (s : Exchanges σ) : Prop where
  free : s.holder = none → ∀ p, s.proc = some p → p.alive = true →
    p.doing.Mute ∧ p.stdin = [] ∧ p.stdout = []
  live : ∀ h p, s.holder = some h → s.proc = some p → p.alive = true →
    OnItsWay (ownLine F h.id h.req) h.id h.phase.left p
  dead : ∀ h p, s.holder = some h → s.proc = some p → p.alive = false →
    h.phase ≠ .writing (h.req.payload F) → ∀ w ∈ p.stdout, w.input = ownLine F h.id h.req
  returned : ∀ id req w, (id, req, .ok w) ∈ s.returned → w.input = ownLine F id req

/-- A request is one line. -/
theorem ownLine_plain (id : ℕ) (req : Request) : ∀ c ∈ ownLine F id req, c.2 ≠ '\n' := by
  intro c hc he
  obtain ⟨d, hd, rfl⟩ := List.mem_map.mp hc
  obtain rfl : d = '\n' := he
  exact req.line.newline_not_mem hd

theorem ownLine_not_blank (id : ℕ) (req : Request) :
    isBlank (lineText (ownLine F id req)) = false := by
  cases req <;> exact not_isBlank (c := '{') (by decide) _

theorem payload_map (id : ℕ) (req : Request) :
    (req.payload F).map (id, ·) = ownLine F id req ++ [(id, '\n')] := by
  rw [Request.payload, List.map_append]
  rfl

theorem payload_ne_nil (req : Request) : req.payload F ≠ [] :=
  List.append_ne_nil_of_right_ne_nil _ (List.cons_ne_nil _ _)

/-- An exchange that has just taken the lock. -/
theorem onItsWay_payload {p : Proc σ} {id : ℕ} {req : Request}
    (hp : p.doing.Mute ∧ p.stdin = [] ∧ p.stdout = []) :
    OnItsWay (ownLine F id req) id (req.payload F) p :=
  .sent hp.1 hp.2.2 (by rw [hp.2.1, List.nil_append, payload_map])

/-- An exchange that has written nothing leaves the pipes empty. -/
theorem onItsWay_untouched {p : Proc σ} {id : ℕ} {req : Request}
    (hw : OnItsWay (ownLine F id req) id (req.payload F) p) :
    p.doing.Mute ∧ p.stdin = [] ∧ p.stdout = [] := by
  cases hw with
  | sent hd ho hi =>
    rw [payload_map] at hi
    exact ⟨hd, List.append_left_eq_self.mp hi, ho⟩
  | taken hl | printing hl | answered hl => exact absurd hl (payload_ne_nil req)

/-- Characters written move from the exchange to the pipe. -/
theorem onItsWay_write {p : Proc σ} {own : List (ℕ × Char)} {id : ℕ} {left : List Char}
    (hw : OnItsWay own id left p) (n : ℕ) :
    OnItsWay own id (left.drop n) { p with stdin := p.stdin ++ (left.take n).map (id, ·) } := by
  cases hw with
  | sent hd ho hi =>
    refine .sent hd ho ?_
    rw [List.append_assoc, ← List.map_append, List.take_append_drop]
    exact hi
  | taken hl hi hd ho =>
    subst hl
    exact .taken (by simp) (by simp [hi]) hd ho
  | printing hl hi hd ho =>
    subst hl
    exact .printing (by simp) (by simp [hi]) hd ho
  | answered hl hi hd ho =>
    subst hl
    exact .answered (by simp) (by simp [hi]) hd ho

/-- The only line there is to receive is the answer, and after it there is none. -/
theorem onItsWay_receive {p : Proc σ} {own : List (ℕ × Char)} {id : ℕ} {w : Written}
    {rest : List Written} (hw : OnItsWay own id [] p) (ho : p.stdout = w :: rest) :
    w.input = own ∧ p.doing.Mute ∧ p.stdin = [] ∧ rest = [] := by
  cases hw with
  | sent _ ho' | taken _ _ _ ho' | printing _ _ _ ho' =>
    rw [ho'] at ho
    cases ho
  | answered _ hi hd ho' =>
    rw [ho'] at ho
    obtain ⟨rfl, rfl⟩ := List.cons.inj ho
    exact ⟨rfl, hd, hi, rfl⟩

theorem sync_step {s t : Exchanges σ} {e : Event σ} (hs : InSync F s) (hc : InStep F s e)
    (h : step F parse s e = some t) : InSync F t := by
  cases tookStep_of_step h with
  | call | abortWaiting => exact ⟨hs.free, hs.live, hs.dead, hs.returned⟩
  | @acquire i id req spawn hh hp =>
    refine ⟨fun hn => (Option.some_ne_none _ hn).elim,
      fun h p hh' hp' ha => ?_, fun h p hh' hp' ha hne => ?_, hs.returned⟩
    · obtain rfl := Option.some.inj hh'
      exact onItsWay_payload (hs.free hh p hp' ha)
    · obtain rfl := Option.some.inj hh'
      exact absurd rfl hne
  | @spawn i id req coll hh hp =>
    refine ⟨fun hn => (Option.some_ne_none _ hn).elim,
      fun h p hh' hp' ha => ?_, fun h p hh' hp' ha hne => ?_, hs.returned⟩
    · obtain rfl := Option.some.inj hh'
      obtain rfl := Option.some.inj hp'
      exact onItsWay_payload ⟨trivial, rfl, rfl⟩
    · obtain rfl := Option.some.inj hh'
      exact absurd rfl hne
  | spawnFails e hh hp =>
    exact ⟨hs.free, hs.live, hs.dead, fun id req w h => hs.returned id req w (ok_mem_of_append h)⟩
  | @write id req left p n hh hp ha =>
    refine ⟨fun hn => (Option.some_ne_none _ hn).elim,
      fun h q hh' hq _ => ?_, fun h q hh' hq hd => ?_, hs.returned⟩
    · obtain rfl := Option.some.inj hh'
      obtain rfl := Option.some.inj hq
      exact onItsWay_write (hs.live _ p hh hp ha) n
    · obtain rfl := Option.some.inj hq
      cases ha.symm.trans hd
  | @flushed id req hh =>
    have hne : Phase.writing [] ≠ .writing (req.payload F) := by
      intro he
      exact payload_ne_nil req (Phase.writing.inj he).symm
    refine ⟨fun hn => (Option.some_ne_none _ hn).elim,
      fun h p hh' hp ha => ?_, fun h p hh' hp hd _ => ?_, hs.returned⟩
    · obtain rfl := Option.some.inj hh'
      exact hs.live ⟨id, req, .writing []⟩ p hh hp ha
    · obtain rfl := Option.some.inj hh'
      exact hs.dead ⟨id, req, .writing []⟩ p hh hp hd hne
  | @receive id req p w rest hh hp ho =>
    have hown : w.input = ownLine F id req := by
      cases ha : p.alive with
      | true => exact (onItsWay_receive (hs.live _ p hh hp ha) ho).1
      | false => exact hs.dead _ p hh hp ha (by simp) w (ho ▸ List.mem_cons_self)
    refine ⟨fun _ q hq ha => ?_, fun h q hn => (Option.some_ne_none h hn.symm).elim,
      fun h q hn => (Option.some_ne_none h hn.symm).elim, fun id' req' w' h => ?_⟩
    · obtain rfl := Option.some.inj hq
      exact (onItsWay_receive (hs.live _ p hh hp ha) ho).2
    · rcases List.mem_append.mp h with h | h
      · exact hs.returned id' req' w' h
      · cases List.mem_singleton.mp h
        exact hown
  | fails hh m =>
    exact ⟨fun _ p hp => (Option.some_ne_none p hp.symm).elim,
      fun h _ hn => (Option.some_ne_none h hn.symm).elim,
      fun h _ hn => (Option.some_ne_none h hn.symm).elim,
      fun id req w h => hs.returned id req w (ok_mem_of_append h)⟩
  | @abort holder hh =>
    refine ⟨fun _ p hp ha => ?_, fun h _ hn => (Option.some_ne_none h hn.symm).elim,
      fun h _ hn => (Option.some_ne_none h hn.symm).elim, hs.returned⟩
    rcases hc holder hh with hphase | hdead
    · have hw := hs.live holder p hh hp ha
      rw [hphase] at hw
      exact onItsWay_untouched hw
    · cases (hdead p hp).symm.trans ha
  | @plugin e p q hp hq =>
    have hone : p.OneLine e := hc p hp
    have halive := (procStep_cases hq).1
    refine ⟨fun hn q' hq' ha => ?_, fun h q' hh hq' ha => ?_, fun h q' hh hq' hd _ => ?_, hs.returned⟩
    · obtain rfl := Option.some.inj hq'
      obtain ⟨hm, hi, ho⟩ := hs.free hn p hp halive
      rw [mute_step_nil hm hi hone hq] at ha
      cases ha
    · obtain rfl := Option.some.inj hq'
      rcases onItsWay_step (ownLine_plain h.id h.req) (ownLine_not_blank h.id h.req)
        (hs.live h p hh hp halive) hone hq with ⟨-, hw⟩ | ⟨hd, -⟩
      · exact hw
      · cases ha.symm.trans hd
    · obtain rfl := Option.some.inj hq'
      rcases onItsWay_step (ownLine_plain h.id h.req) (ownLine_not_blank h.id h.req)
        (hs.live h p hh hp halive) hone hq with ⟨ha, -⟩ | ⟨-, hown⟩
      · cases ha.symm.trans hd
      · exact hown

theorem sync_start : InSync F (start : Exchanges σ) where
  free _ p hp := (Option.some_ne_none p hp.symm).elim
  live h _ hh := (Option.some_ne_none h hh.symm).elim
  dead h _ hh := (Option.some_ne_none h hh.symm).elim
  returned _ _ _ hr := absurd hr List.not_mem_nil

theorem allAnswered_start : AllAnswered F parse (start : Exchanges σ) where
  proc p hp := (Option.some_ne_none p hp.symm).elim
  returned _ _ _ hr := absurd hr List.not_mem_nil

/-- **Every line is an answer to one's own request.** In every run of calls on a
plugin, in any interleaving, with aborts, time-outs, write errors, deaths and
respawns of the process, in which no exchange is aborted with part of its request
in the pipe of a live process and no request is answered by a second line: every
exchange that returned a line returned what the plugin wrote in answer to that
exchange's own request. -/
theorem own_answers {es : List (Event σ)} {t : Exchanges σ}
    (hc : Each (step F parse) (InStep F) start es) (h : run (step F parse) start es = some t) :
    OwnAnswers F parse t := by
  have hsync : InSync F t := each_run (fun _ _ _ => sync_step) hc sync_start h
  have hanswered : AllAnswered F parse t := inv_run (fun _ _ _ => allAnswered_step) allAnswered_start h
  exact fun id req w hr => ⟨hsync.returned id req w hr, hanswered.returned id req w hr⟩

end

/-! ### Three runs -/

/-- A poll of a connector. -/
def poll : Request :=
  .read ⟨"s7", .null, .null, []⟩ ⟨"i", "plc", .null, 1, .null, .null⟩

/-- A query of the cloud. -/
def ask (op : String) : Request := .query op "s7" .null .null .null

/-- The requests among these lines are read as they were printed. -/
def readsBack (lines : List Json) (s : String) : Except String Sdk.ReadRequest :=
  match (lines.find? fun v => v.text plainFloat = s).bind Sdk.ReadRequest.ofJson with
  | some req => .ok req
  | none => .error "expected value at line 1 column 1"

/-- A collector of one gauge. -/
def gauge : Sdk.Collector Unit where
  read _ _ := ((), .ok [⟨"level", .fin 7, none, 0⟩])
  query := Sdk.queryOfRead fun _ _ => ((), .ok [⟨"level", .fin 7, none, 0⟩])
  write _ _ := ((), .error "write not supported by this plugin")
  discover _ _ := ((), .error "discover not supported by this plugin")

/-- An exchange up to where it waits for its line. -/
def asks (req : Request) : List (Event Unit) :=
  [.call req, .acquire 0 (.ok ()), .write (req.payload plainFloat).length, .flushed]

/-- The process takes a line and answers it. -/
def replies : List (Event Unit) := [.plugin .take, .plugin (.answer gauge), .plugin .printed]

def gaugeParse : String → Except String Sdk.ReadRequest :=
  readsBack [poll.line, (ask "test").line, (ask "subscribe").line]

abbrev gaugeRun (es : List (Event Unit)) : Option (Exchanges Unit) :=
  run (step plainFloat gaugeParse) start es

/-- A poll and a query are answered; before the last query one exchange was aborted
while it waited, and one timed out. -/
theorem own_answers_thrice : ∃ t,
    gaugeRun (asks poll ++ replies ++ [.receive, .call poll, .abortWaiting 0] ++ asks (ask "test") ++
      [.timedOut] ++ asks (ask "test") ++ replies ++ [.receive]) = some t ∧ t.returned.length = 3 ∧
      OwnAnswers plainFloat gaugeParse t := by
  have h : ∃ t ∈ gaugeRun (asks poll ++ replies ++ [.receive, .call poll, .abortWaiting 0] ++
      asks (ask "test") ++ [.timedOut] ++ asks (ask "test") ++ replies ++ [.receive]),
      t.returned.length = 3 := by decide +kernel
  obtain ⟨t, ht, hlen⟩ := h
  rw [Option.mem_def] at ht
  exact ⟨t, ht, hlen, own_answers (by decide +kernel) ht⟩

/-- An exchange that follows one aborted at its read is given the answer to that
one; and one that follows a subscription, the next batch of it. -/
theorem answer_of_another : ∃ s t,
    gaugeRun (asks poll ++ [.plugin .take, .abort] ++ asks (ask "test") ++
      [.plugin (.answer gauge), .plugin .printed, .receive]) = some s ∧
      ¬ OwnAnswers plainFloat gaugeParse s ∧
    gaugeRun (asks (ask "subscribe") ++ [.plugin .take, .plugin (.emit () []), .plugin .printed, .receive] ++
      asks (ask "test") ++ [.plugin (.emit () []), .plugin .printed, .receive]) = some t ∧
      ¬ OwnAnswers plainFloat gaugeParse t := by
  have hother : ∀ es : List (Event Unit), (∃ t ∈ gaugeRun es, ∃ x ∈ t.returned,
      ∃ w ∈ x.2.2.toOption, w.input ≠ ownLine plainFloat x.1 x.2.1) →
      ∃ t, gaugeRun es = some t ∧ ¬ OwnAnswers plainFloat gaugeParse t := by
    rintro es ⟨t, ht, ⟨id, req, r⟩, hx, w, hw, hne⟩
    cases r with
    | error e => cases hw
    | ok v =>
      obtain rfl := Option.some.inj hw
      exact ⟨t, ht, fun h => hne (h id req v hx).1⟩
  obtain ⟨s, hs⟩ := hother (asks poll ++ [.plugin .take, .abort] ++ asks (ask "test") ++
    [.plugin (.answer gauge), .plugin .printed, .receive]) (by decide +kernel)
  obtain ⟨t, ht⟩ := hother (asks (ask "subscribe") ++ [.plugin .take, .plugin (.emit () []),
    .plugin .printed, .receive] ++ asks (ask "test") ++ [.plugin (.emit () []), .plugin .printed, .receive])
    (by decide +kernel)
  exact ⟨s, t, hs.1, hs.2, ht.1, ht.2⟩

end Plugin
end LymonAgent
