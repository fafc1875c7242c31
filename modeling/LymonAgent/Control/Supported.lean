/-
# Whether a supported subscription streams

`handle_subscribe` answers with `supported` by the type the request names in
`ds_type`; the `stream_point` tasks it spawns look for a plugin by the type of the
connector in the store. `really_streams_iff` says for which requests the answer is
what the tasks then do, and `run_handleSubscribe` that a handler of the
subscriptions answers and spawns so.

Key definitions: `handleSubscribe`, `StreamTask.Opens`, `ReallyStreams`, `SameService`.
-/
import LymonAgent.Control.Subscribe

namespace LymonAgent
namespace Control

open Handles Runs Collect Plugin

/-! ### One request -/

def connectorId (req : Json) : String := (req.getStr "connector_id").getD ""

/-- The tasks of a request for the connector `c`: one for each point. -/
def streamTasks (c : Conn) (req : Json) : List StreamTask :=
  (subscribePoints req).zipIdx.map fun (pt, i) => ⟨requestId req, c, pointIngest req i pt⟩

/-- `handle_subscribe`: the frame it answers with, and the tasks it spawns. -/
def handleSubscribe (host : PluginHost) (connectors : ConnStore) (req : Json) : Json × List StreamTask :=
  match subscribeConn host connectors req with
  | none => (subscribeAck (requestId req) false, [])
  | some c => (subscribeAck (requestId req) true, streamTasks c req)

/-- `stream_point` finds a plugin and goes on to open a stream. -/
def StreamTask.Opens (host : PluginHost) (t : StreamTask) : Prop :=
  (streamRoute host t.conn t.ing).isSome = true

/-- The request has points, its connector is known, and each of its points streams. -/
def Streams (host : PluginHost) (connectors : ConnStore) (req : Json) : Prop :=
  subscribePoints req ≠ [] ∧
    ∃ c, connectors (connectorId req) = some c ∧ ∀ t ∈ streamTasks c req, t.Opens host

/-- The answer says what the tasks do. -/
structure ReallyStreams (host : PluginHost) (connectors : ConnStore) (req : Json) : Prop where
  supported : (handleSubscribe host connectors req).1 = subscribeAck (requestId req) true ↔
    Streams host connectors req
  refused : (∀ c, connectors (connectorId req) = some c → ∀ t ∈ streamTasks c req, ¬ t.Opens host) →
    handleSubscribe host connectors req = (subscribeAck (requestId req) false, [])

/-- A plugin serves both the type the request names and that of the connector, or
neither. -/
def SameService (host : PluginHost) (req : Json) (c : Conn) : Prop :=
  (host.forType ((req.getStr "ds_type").getD "")).isSome = (host.forType c.dsType).isSome

variable {host : PluginHost} {connectors : ConnStore} {req : Json} {c : Conn}

theorem subscribeAck_inj {id : String} {b b' : Bool} : subscribeAck id b = subscribeAck id b' ↔ b = b' := by
  constructor
  · intro h
    simp only [subscribeAck, Json.obj.injEq, List.cons.injEq, Prod.mk.injEq, true_and, and_true,
      Json.bool.injEq] at h
    exact h
  · exact fun h => h ▸ rfl

/-- A task opens a stream where its connector's type is served. -/
theorem opens_iff {t : StreamTask} (h : t ∈ streamTasks c req) :
    t.Opens host ↔ (host.forType c.dsType).isSome = true := by
  obtain ⟨⟨pt, i⟩, -, rfl⟩ := List.mem_map.mp h
  rw [StreamTask.Opens, streamRoute, Option.isSome_map]

theorem streamTasks_eq_nil : streamTasks c req = [] ↔ subscribePoints req = [] := by
  rw [streamTasks, List.map_eq_nil_iff, List.zipIdx_eq_nil_iff]

theorem subscribeConn_eq (hc : connectors (connectorId req) = some c) :
    subscribeConn host connectors req =
      if (host.forType ((req.getStr "ds_type").getD "")).isSome = true ∧ subscribePoints req ≠ [] then
        some c
      else none := by
  unfold subscribeConn
  rw [← connectorId, hc]
  cases (host.forType ((req.getStr "ds_type").getD "")).isSome <;> cases subscribePoints req <;> rfl

/-- For a connector that is known, the answer is by the type the request names. -/
theorem handleSubscribe_eq (hc : connectors (connectorId req) = some c) :
    handleSubscribe host connectors req =
      if (host.forType ((req.getStr "ds_type").getD "")).isSome = true ∧ subscribePoints req ≠ [] then
        (subscribeAck (requestId req) true, streamTasks c req)
      else (subscribeAck (requestId req) false, []) := by
  rw [handleSubscribe, subscribeConn_eq hc]
  split
  · rename_i h
    split at h
    · cases h
    · rename_i hnot
      rw [if_neg hnot]
  · rename_i c' h
    split at h
    · rename_i hsup
      rw [if_pos hsup, Option.some.inj h]
    · cases h

/-- The answer is `supported` where a plugin serves the type named and there are points. -/
theorem supported_iff (hc : connectors (connectorId req) = some c) :
    (handleSubscribe host connectors req).1 = subscribeAck (requestId req) true ↔
      (host.forType ((req.getStr "ds_type").getD "")).isSome = true ∧ subscribePoints req ≠ [] := by
  rw [handleSubscribe_eq hc]
  split
  · rename_i h
    exact iff_of_true rfl h
  · rename_i h
    exact iff_of_false (fun hack => Bool.false_ne_true (subscribeAck_inj.mp hack)) h

theorem handleSubscribe_unknown (hc : connectors (connectorId req) = none) :
    handleSubscribe host connectors req = (subscribeAck (requestId req) false, []) := by
  have hconn : subscribeConn host connectors req = none := by
    unfold subscribeConn
    rw [← connectorId, hc]
    rfl
  rw [handleSubscribe, hconn]

theorem streams_iff (hc : connectors (connectorId req) = some c) :
    Streams host connectors req ↔
      subscribePoints req ≠ [] ∧ (host.forType c.dsType).isSome = true := by
  constructor
  · rintro ⟨hpoints, c', hc', hopens⟩
    obtain rfl := Option.some.inj (hc.symm.trans hc')
    obtain ⟨t, ht⟩ := List.exists_mem_of_ne_nil _ (mt streamTasks_eq_nil.mp hpoints)
    exact ⟨hpoints, (opens_iff ht).mp (hopens t ht)⟩
  · rintro ⟨hpoints, hserved⟩
    exact ⟨hpoints, c, hc, fun t ht => (opens_iff ht).mpr hserved⟩

/-- **A supported subscription streams exactly where the two types agree.** For every
store, plugin set and request, the answer says what the stream tasks do if and only
if the connector is not known, or there are no points, or a plugin serves both the
type the request names and that of the connector, or neither. -/
theorem really_streams_iff (host : PluginHost) (connectors : ConnStore) (req : Json) :
    ReallyStreams host connectors req ↔
      ∀ c, connectors (connectorId req) = some c → subscribePoints req ≠ [] → SameService host req c := by
  cases hc : connectors (connectorId req) with
  | none =>
    refine ⟨fun _ c h => (Option.some_ne_none c h.symm).elim, fun _ => ⟨?_, fun _ => ?_⟩⟩
    · rw [handleSubscribe_unknown hc, subscribeAck_inj]
      refine ⟨fun h => (Bool.false_ne_true h).elim, ?_⟩
      rintro ⟨-, c, h, -⟩
      rw [hc] at h
      cases h
    · exact handleSubscribe_unknown hc
  | some c =>
    constructor
    · rintro ⟨hsup, -⟩ c' h hpoints
      obtain rfl := Option.some.inj h
      rw [streams_iff hc, supported_iff hc, and_comm, and_congr_right_iff] at hsup
      exact Bool.eq_iff_iff.mpr (hsup hpoints)
    · intro h
      refine ⟨?_, fun hnone => ?_⟩
      · rw [streams_iff hc, supported_iff hc, and_comm, and_congr_right_iff]
        exact fun hpoints => Bool.eq_iff_iff.mp (h c rfl hpoints)
      · rw [handleSubscribe_eq hc]
        refine if_neg fun ⟨hnamed, hpoints⟩ => ?_
        obtain ⟨t, ht⟩ := List.exists_mem_of_ne_nil _ (mt streamTasks_eq_nil.mp hpoints)
        refine hnone c hc t ht ((opens_iff ht).mpr ?_)
        rw [← h c rfl hpoints]
        exact hnamed

/-- A request that names a type with a plugin, for a connector of a type without: the
answer is `supported` and the stream returns at once. -/
theorem not_really_streams : ¬ ∀ (host : PluginHost) (connectors : ConnStore) (req : Json),
    ReallyStreams host connectors req := by
  intro h
  have hsup := (h ⟨[("opcua", ⟨"opcua", ["opcua"], "sh", [], 1⟩)]⟩
    (fun _ => some ⟨"modbus", .null, .null, []⟩) subscribeFrame).supported.mp rfl
  exact absurd ((streams_iff rfl).mp hsup).2 (by decide)

/-! ### The handler of the subscriptions -/

variable {s : Subscriptions} {i : ℕ}

/-- The spawns of a handler that has opened `k` streams. -/
theorem run_spawns : ∀ (n : ℕ) (s : Subscriptions) (handles : List ℕ),
    s.handlers[i]? = some (req, .spawning c handles) →
    handles.length + n = (subscribePoints req).length →
      ∃ t handles', run subStep s (List.replicate n (.spawn i)) = some t ∧
        t.handlers[i]? = some (req, .spawning c handles') ∧
        handles'.length = (subscribePoints req).length ∧ t.acks = s.acks ∧
        t.subs.running.map Prod.snd =
          s.subs.running.map Prod.snd ++ (streamTasks c req).drop handles.length := by
  have htasks : (streamTasks c req).length = (subscribePoints req).length := by
    rw [streamTasks, List.length_map, List.length_zipIdx]
  intro n
  induction n with
  | zero =>
    intro s handles hi hlen
    refine ⟨s, handles, rfl, hi, hlen, rfl, ?_⟩
    rw [List.drop_of_length_le (by omega), List.append_nil]
  | succ n ih =>
    intro s handles hi hlen
    have hk : handles.length < (subscribePoints req).length := by omega
    have hlt := (List.getElem?_eq_some_iff.mp hi).1
    -- the first of them opens the stream of the next point
    let pt := (subscribePoints req)[handles.length]
    let u : Subscriptions := { s with
      subs := s.subs.spawn ⟨requestId req, c, pointIngest req handles.length pt⟩
      handlers := s.handlers.set i (req, .spawning c (handles ++ [s.subs.next])) }
    have hstep : subStep s (.spawn i) = some u := by
      simp only [subStep, hi, List.getElem?_eq_getElem hk, Option.map_some]
      rfl
    have hlen' : (handles ++ [s.subs.next]).length + n = (subscribePoints req).length := by
      rw [List.length_append, List.length_singleton]
      omega
    obtain ⟨t, handles', hrun, hphase, hall, hacks, hrunning⟩ :=
      ih u _ (by rw [List.getElem?_set_self hlt]) hlen'
    have hdrop : (streamTasks c req).drop handles.length =
        ⟨requestId req, c, pointIngest req handles.length pt⟩ ::
          (streamTasks c req).drop (handles ++ [s.subs.next]).length := by
      rw [List.drop_eq_getElem_cons (htasks ▸ hk), List.length_append, List.length_singleton]
      congr 1
      simp only [streamTasks, List.getElem_map, List.getElem_zipIdx, Nat.zero_add]
      rfl
    refine ⟨t, handles', ?_, hphase, hall, hacks, ?_⟩
    · rw [List.replicate_succ]
      exact run_cons.mpr ⟨u, hstep, hrun⟩
    · have hnext : u.subs.running = s.subs.running ++
          [(s.subs.next, ⟨requestId req, c, pointIngest req handles.length pt⟩)] := rfl
      rw [hrunning, hdrop, hnext, List.map_append, List.append_assoc]
      rfl

/-- The steps a handler takes once it is spawned. -/
def handlerSteps (host : PluginHost) (connectors : ConnStore) (req : Json) (i : ℕ) : List SubEvent :=
  [.check i connectors host, .ack i] ++
    match subscribeConn host connectors req with
    | none => []
    | some _ => List.replicate (subscribePoints req).length (.spawn i) ++ [.register i]

/-- A handler that takes its steps answers and spawns as `handleSubscribe` does. -/
theorem run_handleSubscribe (hi : s.handlers[i]? = some (req, .started)) :
    ∃ t, run subStep s (handlerSteps host connectors req i) = some t ∧
      t.handlers[i]? = some (req, .finished) ∧
      t.acks = s.acks ++ [(i, (handleSubscribe host connectors req).1)] ∧
      t.subs.running.map Prod.snd =
        s.subs.running.map Prod.snd ++ (handleSubscribe host connectors req).2 := by
  have hlt := (List.getElem?_eq_some_iff.mp hi).1
  let u : Subscriptions :=
    { s with handlers := s.handlers.set i (req, .checked (subscribeConn host connectors req)) }
  have hcheck : subStep s (.check i connectors host) = some u := by
    simp only [subStep, hi]
    rfl
  have hu : u.handlers[i]? = some (req, .checked (subscribeConn host connectors req)) :=
    List.getElem?_set_self hlt
  unfold handlerSteps handleSubscribe
  cases hconn : subscribeConn host connectors req with
  | none =>
    rw [hconn] at hu
    refine ⟨{ u with
      handlers := u.handlers.set i (req, .finished)
      acks := u.acks ++ [(i, subscribeAck (requestId req) false)] }, ?_, ?_, rfl, (List.append_nil _).symm⟩
    · refine run_cons.mpr ⟨u, hcheck, run_cons.mpr ⟨_, ?_, rfl⟩⟩
      simp only [subStep, hu]
      rfl
    · exact List.getElem?_set_self ((List.getElem?_eq_some_iff.mp hu).1)
  | some c =>
    rw [hconn] at hu
    let v : Subscriptions := { u with
      handlers := u.handlers.set i (req, .spawning c [])
      acks := u.acks ++ [(i, subscribeAck (requestId req) true)] }
    have hack : subStep u (.ack i) = some v := by
      simp only [subStep, hu]
      rfl
    have hv : v.handlers[i]? = some (req, .spawning c []) :=
      List.getElem?_set_self ((List.getElem?_eq_some_iff.mp hu).1)
    obtain ⟨w, handles, hrun, hw, hall, hacks, hrunning⟩ :=
      run_spawns (subscribePoints req).length v [] hv (Nat.zero_add _)
    refine ⟨{ w with
      subs := w.subs.insert (requestId req) handles
      handlers := w.handlers.set i (req, .finished) }, ?_, ?_, hacks, hrunning⟩
    · refine run_cons.mpr ⟨u, hcheck, run_cons.mpr ⟨v, hack, ?_⟩⟩
      refine run_snoc.mpr ⟨w, hrun, ?_⟩
      simp only [subStep, hw, if_pos hall]
    · exact List.getElem?_set_self ((List.getElem?_eq_some_iff.mp hw).1)

end Control
end LymonAgent
