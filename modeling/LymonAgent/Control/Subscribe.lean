/-
# Streaming subscriptions

The subscribe and unsubscribe requests of `read_loop`, the `handle_subscribe`
tasks it spawns for them, the `stream_point` tasks those spawn, and the teardown
in `serve` (`src/control.rs`). A handler looks its connector up, acknowledges,
spawns a stream for each point and only then puts the handles into
`subscriptions`; an unsubscribe request and the teardown act on the map at once.
The handlers run between any two steps of the loop, and a stream may end by
itself (no plugin, or the channel is gone).

So a handler can register too late, or over the handles of a stream that still
runs. Where none does, every stream is registered under its request and none
outlives the teardown (`no_orphans`).

Key definitions: `Subscriptions`, `SubEvent`, `subStep`, `NoOrphans`,
`RegistersInTime`.
-/
import LymonAgent.Plugin.Route
import LymonAgent.Runs

namespace LymonAgent
namespace Control

open Handles Runs Collect Plugin

/-- Where a `handle_subscribe` is: spawned; its connector looked up, if the
request is supported; with the handles of the streams it has opened; done. -/
inductive SubPhase where
  | started
  | checked (conn : Option Conn)
  | spawning (conn : Conn) (handles : List ℕ)
  | finished

/-- `stream_point` with the values it was spawned with. -/
structure StreamTask where
  requestId : String
  conn : Conn
  ing : Ingest

/-- `serve`: in `read_loop`, after it, after the teardown. -/
inductive Stage where
  | reading
  | ended
  | tornDown
  deriving DecidableEq

/-- `latest` is not in the source: whether the last request for an id was to
subscribe. -/
structure Subscriptions where
  subs : Pool String StreamTask
  handlers : List (Json × SubPhase)
  acks : List (ℕ × Json)
  latest : String → Option Bool
  stage : Stage

inductive SubEvent where
  | frame (v : Json)
  | close
  | teardown
  | check (i : ℕ) (connectors : ConnStore) (host : PluginHost)
  | ack (i : ℕ)
  | spawn (i : ℕ)
  | register (i : ℕ)
  | ends (n : ℕ)

def subStart : Subscriptions := ⟨.empty, [], [], fun _ => none, .reading⟩

/-- The id of a subscribe request. -/
def requestId (req : Json) : String := (req.getStr "request_id").getD ""

def subscribeAck (id : String) (supported : Bool) : Json :=
  .obj [("kind", .str "subscribe_ack"), ("request_id", .str id), ("supported", .bool supported)]

/-- Note the last request for an id. -/
def note (latest : String → Option Bool) (id : String) (b : Bool) : String → Option Bool :=
  fun k => if k = id then some b else latest k

def subStep (s : Subscriptions) : SubEvent → Option Subscriptions
  | .frame v =>
    if s.stage ≠ .reading then none
    else
      match v.getStr "kind" with
      | some "subscribe_request" => some { s with
          handlers := s.handlers ++ [(v, .started)]
          latest := note s.latest (requestId v) true }
      | some "unsubscribe_request" =>
        match v.getStr "request_id" with
        | none => some s
        | some id => some { s with subs := s.subs.remove id, latest := note s.latest id false }
      | _ => some s
  | .close => if s.stage = .reading then some { s with stage := .ended } else none
  | .teardown =>
    if s.stage = .ended then some { s with subs := s.subs.drain, stage := .tornDown } else none
  | .check i connectors host =>
    match s.handlers[i]? with
    | some (req, .started) =>
      some { s with handlers := s.handlers.set i (req, .checked (subscribeConn host connectors req)) }
    | _ => none
  | .ack i =>
    match s.handlers[i]? with
    | some (req, .checked conn) =>
      let phase := match conn with
        | none => SubPhase.finished
        | some c => .spawning c []
      some { s with
        handlers := s.handlers.set i (req, phase)
        acks := s.acks ++ [(i, subscribeAck (requestId req) conn.isSome)] }
    | _ => none
  | .spawn i =>
    match s.handlers[i]? with
    | some (req, .spawning c handles) =>
      (subscribePoints req)[handles.length]?.map fun pt => { s with
        subs := s.subs.spawn ⟨requestId req, c, pointIngest req handles.length pt⟩
        handlers := s.handlers.set i (req, .spawning c (handles ++ [s.subs.next])) }
    | _ => none
  | .register i =>
    match s.handlers[i]? with
    | some (req, .spawning _ handles) =>
      -- all points have their stream
      if handles.length = (subscribePoints req).length then
        some { s with
          subs := s.subs.insert (requestId req) handles
          handlers := s.handlers.set i (req, .finished) }
      else none
    | _ => none
  | .ends n => some { s with subs := s.subs.abort [n] }

/-! ### Orphans -/

/-- The handler is done. -/
def SubPhase.Done : SubPhase → Prop
  | .finished => True
  | _ => False

instance : DecidablePred SubPhase.Done
  | .finished => isTrue trivial
  | .started | .checked _ | .spawning _ _ => isFalse id

/-- No handler is midway. -/
def Quiet (s : Subscriptions) : Prop := ∀ h ∈ s.handlers, h.2.Done

instance (s : Subscriptions) : Decidable (Quiet s) := inferInstanceAs (Decidable (∀ h ∈ s.handlers, _))

/-- Where no handler is midway, every running stream is registered under its
request, whose last request was to subscribe; and none runs after the teardown. -/
structure NoOrphans (s : Subscriptions) : Prop where
  registered : Quiet s → ∀ t ∈ s.subs.running,
    t.1 ∈ s.subs.handles t.2.requestId ∧ s.latest t.2.requestId = some true
  tornDown : Quiet s → s.stage = .tornDown → s.subs.running = []

/-- A handler registers where no stream registered under its request still runs,
and, if one of its own does, while the last request for the id is to subscribe
and before the teardown. -/
def RegistersInTime (s : Subscriptions) : SubEvent → Prop
  | .register i =>
    match s.handlers[i]? with
    | some (req, .spawning _ handles) =>
      (∀ t ∈ s.subs.running, t.1 ∉ s.subs.handles (requestId req)) ∧
      ((∃ t ∈ s.subs.running, t.1 ∈ handles) →
        s.latest (requestId req) = some true ∧ s.stage ≠ .tornDown)
    | _ => True
  | _ => True

instance (s : Subscriptions) (e : SubEvent) : Decidable (RegistersInTime s e) := by
  unfold RegistersInTime
  split
  · split <;> infer_instance
  · infer_instance

variable {s t : Subscriptions} {e : SubEvent} {es : List SubEvent}

/-! ### What a step does -/

/-- Every way the subscriptions move; `handlers` that move without touching the
pool keep the handles of those that spawn. -/
inductive SubMoves (s : Subscriptions) : SubEvent → Subscriptions → Prop
  | subscribe {v : Json} : SubMoves s (.frame v) { s with
      handlers := s.handlers ++ [(v, .started)], latest := note s.latest (requestId v) true }
  | unsubscribe {v : Json} {id : String} : SubMoves s (.frame v) { s with
      subs := s.subs.remove id, latest := note s.latest id false }
  | other {v : Json} : SubMoves s (.frame v) s
  | close : s.stage = .reading → SubMoves s .close { s with stage := .ended }
  | teardown : s.stage = .ended →
      SubMoves s .teardown { s with subs := s.subs.drain, stage := .tornDown }
  | handler {e : SubEvent} {i : ℕ} {req : Json} {phase phase' : SubPhase} {acks : List (ℕ × Json)} :
      s.handlers[i]? = some (req, phase) → (∀ c handles, phase ≠ .spawning c handles) →
      SubMoves s e { s with handlers := s.handlers.set i (req, phase'), acks := acks }
  | spawn {i : ℕ} {req : Json} {c : Conn} {handles : List ℕ} {ing : Ingest} :
      s.handlers[i]? = some (req, .spawning c handles) →
      SubMoves s (.spawn i) { s with
        subs := s.subs.spawn ⟨requestId req, c, ing⟩
        handlers := s.handlers.set i (req, .spawning c (handles ++ [s.subs.next])) }
  | register {i : ℕ} {req : Json} {c : Conn} {handles : List ℕ} :
      s.handlers[i]? = some (req, .spawning c handles) →
      SubMoves s (.register i) { s with
        subs := s.subs.insert (requestId req) handles
        handlers := s.handlers.set i (req, .finished) }
  | ends {n : ℕ} : SubMoves s (.ends n) { s with subs := s.subs.abort [n] }

theorem subStep_moves (h : subStep s e = some t) : SubMoves s e t := by
  cases e with
  | frame v =>
    simp only [subStep] at h
    split at h
    · cases h
    · split at h
      · obtain rfl := Option.some.inj h
        exact .subscribe
      · split at h
        · obtain rfl := Option.some.inj h
          exact .other
        · obtain rfl := Option.some.inj h
          exact .unsubscribe
      · obtain rfl := Option.some.inj h
        exact .other
  | close =>
    simp only [subStep] at h
    split at h
    · rename_i hstage
      obtain rfl := Option.some.inj h
      exact .close hstage
    · cases h
  | teardown =>
    simp only [subStep] at h
    split at h
    · rename_i hstage
      obtain rfl := Option.some.inj h
      exact .teardown hstage
    · cases h
  | check i connectors host =>
    simp only [subStep] at h
    split at h
    · rename_i hi
      obtain rfl := Option.some.inj h
      exact .handler hi fun _ _ hp => by cases hp
    · cases h
  | ack i =>
    simp only [subStep] at h
    split at h
    · rename_i hi
      obtain rfl := Option.some.inj h
      exact .handler hi fun _ _ hp => by cases hp
    · cases h
  | spawn i =>
    simp only [subStep] at h
    split at h
    · rename_i hi
      obtain ⟨pt, -, rfl⟩ := Option.map_eq_some_iff.mp h
      exact .spawn hi
    · cases h
  | register i =>
    simp only [subStep] at h
    split at h
    · rename_i hi
      split at h
      · obtain rfl := Option.some.inj h
        exact .register hi
      · cases h
    · cases h
  | ends n =>
    obtain rfl := Option.some.inj h
    exact .ends

/-! ### Where a running stream is -/

/-- Its handle is in the map, and an unsubscribe request or the teardown would
find it. -/
def Registered (s : Subscriptions) (t : ℕ × StreamTask) : Prop :=
  t.1 ∈ s.subs.handles t.2.requestId ∧ s.latest t.2.requestId = some true ∧ s.stage ≠ .tornDown

/-- Its handler has not registered yet. -/
def Midway (handlers : List (Json × SubPhase)) (t : ℕ × StreamTask) : Prop :=
  ∃ (i : ℕ) (req : Json) (c : Conn) (handles : List ℕ),
    handlers[i]? = some (req, .spawning c handles) ∧ requestId req = t.2.requestId ∧ t.1 ∈ handles

def Accounted (s : Subscriptions) : Prop :=
  ∀ t ∈ s.subs.running, Registered s t ∨ Midway s.handlers t

variable {handlers : List (Json × SubPhase)} {u : ℕ × StreamTask} {i : ℕ} {req : Json}
  {phase phase' : SubPhase}

theorem Midway.append (h : Midway handlers u) (x : Json × SubPhase) : Midway (handlers ++ [x]) u := by
  obtain ⟨j, req, c, handles, hj, hid, hmem⟩ := h
  have hlt := (List.getElem?_eq_some_iff.mp hj).1
  exact ⟨j, req, c, handles, by rw [List.getElem?_append_left hlt, hj], hid, hmem⟩

/-- When a handler moves, the stream is still another one's, or was this one's. -/
theorem Midway.set (h : Midway handlers u) (hi : handlers[i]? = some (req, phase)) :
    Midway (handlers.set i (req, phase')) u ∨
      ∃ c handles, phase = .spawning c handles ∧ requestId req = u.2.requestId ∧ u.1 ∈ handles := by
  obtain ⟨j, req', c, handles, hj, hid, hmem⟩ := h
  by_cases hij : i = j
  · subst hij
    rw [hi] at hj
    obtain ⟨rfl, rfl⟩ := Prod.mk.inj (Option.some.inj hj)
    exact Or.inr ⟨c, handles, rfl, hid, hmem⟩
  · exact Or.inl ⟨j, req', c, handles, by rw [List.getElem?_set_ne hij, hj], hid, hmem⟩

/-- The handler that moved has the stream. -/
theorem midway_self {c : Conn} {handles : List ℕ} (hi : handlers[i]? = some (req, phase))
    (hid : requestId req = u.2.requestId) (hmem : u.1 ∈ handles) :
    Midway (handlers.set i (req, .spawning c handles)) u := by
  have hlt := (List.getElem?_eq_some_iff.mp hi).1
  exact ⟨i, req, c, handles, by rw [List.getElem?_set_self hlt], hid, hmem⟩

theorem accounted_step (hs : Accounted s) (hc : RegistersInTime s e) (h : subStep s e = some t) :
    Accounted t := by
  intro u hu
  cases subStep_moves h with
  | @subscribe v =>
    rcases hs u hu with ⟨hmem, hlast, hstage⟩ | hmid
    · refine Or.inl ⟨hmem, ?_, hstage⟩
      simp only [note]
      split
      · rfl
      · exact hlast
    · exact Or.inr (hmid.append _)
  | @unsubscribe v id =>
    obtain ⟨hu, hnot⟩ := mem_running_remove.mp hu
    rcases hs u hu with ⟨hmem, hlast, hstage⟩ | hmid
    · -- a stream of this id was in the map and has been aborted
      have hne : u.2.requestId ≠ id := fun hid => hnot (hid ▸ hmem)
      refine Or.inl ⟨?_, ?_, hstage⟩
      · rw [handles_remove_ne hne]
        exact hmem
      · simp only [note, if_neg hne]
        exact hlast
    · exact Or.inr hmid
  | other => exact hs u hu
  | close hstage =>
    rcases hs u hu with ⟨hmem, hlast, -⟩ | hmid
    · exact Or.inl ⟨hmem, hlast, by simp⟩
    · exact Or.inr hmid
  | teardown hstage =>
    obtain ⟨hu, hnot⟩ := mem_running_drain.mp hu
    rcases hs u hu with ⟨hmem, -, -⟩ | hmid
    · exact absurd (held_of_mem_handles hmem) hnot
    · exact Or.inr hmid
  | handler hi hp =>
    rcases hs u hu with hreg | hmid
    · exact Or.inl hreg
    · rcases hmid.set hi with hmid | ⟨c, handles, hphase, -⟩
      · exact Or.inr hmid
      · exact absurd hphase (hp c handles)
  | @spawn i req c handles ing hi =>
    rcases List.mem_append.mp hu with hu | hu
    · rcases hs u hu with hreg | hmid
      · exact Or.inl hreg
      · rcases hmid.set hi with hmid | ⟨c', handles', hphase, hid, hmem⟩
        · exact Or.inr hmid
        · obtain ⟨rfl, rfl⟩ := SubPhase.spawning.inj hphase
          exact Or.inr (midway_self hi hid (List.mem_append_left _ hmem))
    · obtain rfl := List.mem_singleton.mp hu
      exact Or.inr (midway_self hi rfl (by simp))
  | @register i req c handles hi =>
    simp only [RegistersInTime, hi] at hc
    obtain ⟨hold, hown⟩ := hc
    rcases hs u hu with ⟨hmem, hlast, hstage⟩ | hmid
    · have hne : u.2.requestId ≠ requestId req := fun hid => hold u hu (hid ▸ hmem)
      refine Or.inl ⟨?_, hlast, hstage⟩
      rw [handles_insert_ne hne]
      exact hmem
    · rcases hmid.set hi with hmid | ⟨c', handles', hphase, hid, hmem⟩
      · exact Or.inr hmid
      · obtain ⟨rfl, rfl⟩ := SubPhase.spawning.inj hphase
        obtain ⟨hlast, hstage⟩ := hown ⟨u, hu, hmem⟩
        refine Or.inl ⟨?_, hid ▸ hlast, hstage⟩
        rw [← hid, handles_insert_self]
        exact hmem
  | ends =>
    rcases hs u (List.mem_of_mem_filter hu) with hreg | hmid
    · exact Or.inl hreg
    · exact Or.inr hmid

theorem Accounted.noOrphans (h : Accounted s) : NoOrphans s := by
  have hreg : Quiet s → ∀ t ∈ s.subs.running, Registered s t := by
    intro hquiet t ht
    refine (h t ht).resolve_right ?_
    rintro ⟨i, req, c, handles, hi, -, -⟩
    exact hquiet _ (List.mem_of_getElem? hi)
  refine ⟨fun hquiet t ht => ?_, fun hquiet hdown => ?_⟩
  · obtain ⟨hmem, hlast, -⟩ := hreg hquiet t ht
    exact ⟨hmem, hlast⟩
  · exact List.eq_nil_iff_forall_not_mem.mpr fun t ht => (hreg hquiet t ht).2.2 hdown

/-- **Streams are never orphaned where handlers register in time.** For every
sequence of frames, the end of the stream and the teardown, and every
interleaving with the handlers and streams, in which each handler that registers
finds no running stream registered under its request id and, if one of its own
streams runs, no unsubscribe request since the last subscribe request of the id
and no teardown: in every state without a handler midway, each running stream is
registered under its request id, whose last request was to subscribe; and after
the teardown none runs. -/
theorem no_orphans (h : run subStep subStart es = some s)
    (hc : Each subStep RegistersInTime subStart es) : NoOrphans s := by
  have hstart : Accounted subStart := fun t ht => by cases ht
  have hall : Accounted s :=
    each_run (fun _ _ _ hs hp ht => accounted_step hs hp ht) hc hstart h
  exact hall.noOrphans

/-- A request of the id `r` for one point of the connector `ua`. -/
def subscribeFrame : Json :=
  .obj [("connector_id", .str "ua"), ("ds_type", .str "opcua"), ("kind", .str "subscribe_request"),
    ("points", .arr [.null]), ("request_id", .str "r")]

def unsubscribeFrame : Json := .obj [("kind", .str "unsubscribe_request"), ("request_id", .str "r")]

/-- A handler up to its registration, where the connector is known and served. -/
def handlerRun (i : ℕ) : List SubEvent :=
  [.check i (fun _ => some ⟨"opcua", .null, .null, []⟩)
    ⟨[("opcua", ⟨"opcua", ["opcua"], "sh", [], 1⟩)]⟩, .ack i, .spawn i]

/-- A subscription, and the teardown. -/
theorem no_orphans_once : ∃ s,
    run subStep subStart ([.frame subscribeFrame] ++ handlerRun 0 ++ [.register 0, .close, .teardown]) =
      some s ∧ NoOrphans s := by
  obtain ⟨s, hs⟩ := Option.isSome_iff_exists.mp (show (run subStep subStart
    ([.frame subscribeFrame] ++ handlerRun 0 ++ [.register 0, .close, .teardown])).isSome = true by
      decide +kernel)
  exact ⟨s, hs, no_orphans hs (by decide +kernel)⟩

/-- Three orphans: unsubscribed before its handler registers, registered over,
and registered after the teardown. -/
theorem orphans : ∃ s₁ s₂ s₃,
    run subStep subStart ([.frame subscribeFrame] ++ handlerRun 0 ++
      [.frame unsubscribeFrame, .register 0]) = some s₁ ∧ ¬ NoOrphans s₁ ∧
    run subStep subStart ([.frame subscribeFrame] ++ handlerRun 0 ++ [.register 0,
      .frame subscribeFrame] ++ handlerRun 1 ++ [.register 1]) = some s₂ ∧ ¬ NoOrphans s₂ ∧
    run subStep subStart ([.frame subscribeFrame] ++ handlerRun 0 ++
      [.close, .teardown, .register 0]) = some s₃ ∧ ¬ NoOrphans s₃ := by
  have horphan : ∀ es : List SubEvent, (∃ s ∈ run subStep subStart es, Quiet s ∧
      ∃ t ∈ s.subs.running, ¬ (t.1 ∈ s.subs.handles t.2.requestId ∧
        s.latest t.2.requestId = some true)) →
      ∃ s, run subStep subStart es = some s ∧ ¬ NoOrphans s := by
    rintro es ⟨s, hs, hquiet, t, ht, hnot⟩
    exact ⟨s, hs, fun h => hnot (h.registered hquiet t ht)⟩
  have hdown : ∀ es : List SubEvent, (∃ s ∈ run subStep subStart es, Quiet s ∧
      s.stage = .tornDown ∧ s.subs.running.length ≠ 0) →
      ∃ s, run subStep subStart es = some s ∧ ¬ NoOrphans s := by
    rintro es ⟨s, hs, hquiet, hstage, hlen⟩
    exact ⟨s, hs, fun h => hlen (by rw [h.tornDown hquiet hstage]; rfl)⟩
  obtain ⟨s₁, h₁⟩ := horphan ([.frame subscribeFrame] ++ handlerRun 0 ++
    [.frame unsubscribeFrame, .register 0]) (by decide +kernel)
  obtain ⟨s₂, h₂⟩ := horphan ([.frame subscribeFrame] ++ handlerRun 0 ++ [.register 0,
    .frame subscribeFrame] ++ handlerRun 1 ++ [.register 1]) (by decide +kernel)
  obtain ⟨s₃, h₃⟩ := hdown ([.frame subscribeFrame] ++ handlerRun 0 ++
    [.close, .teardown, .register 0]) (by decide +kernel)
  exact ⟨s₁, s₂, s₃, h₁.1, h₁.2, h₂.1, h₂.2, h₃.1, h₃.2⟩

end Control
end LymonAgent
