/-
# One connection of the control channel

`serve` of `src/control.rs` while its connection lasts: `read_loop`, the tasks it
spawns for query, write and subscribe requests and their streams, the heartbeat, and
the one writer that takes what all of them send from a queue of 32 frames. A task
that finds the queue full waits, and so does the loop, for its pongs and the log
lines it answers itself; the writer stops when it cannot write a frame, and at the
teardown. The keys, the connectors and the writes are those of `Channel`, the
subscriptions those of `Subscriptions`.

`answered_once` says what the other side gets for a request, in every interleaving:
at most one frame, which answers it, and exactly one when its task is done and the
frames have left. A task waits for its device or plugin as long as that takes, which
may be for ever: a register write and a line to a plugin have no time-out. But the
connection lets no other task wait for it (`answerable`).

Left out: what an update request writes to disk, and what is logged.

Key definitions: `Connection`, `ServeEvent`, `serveStep`, `Ask`, `OneAnswer`,
`InOrder`, `Outside`.
Key theorems: `boxInv_run`, `answers_run`, `answered_once`, `sent_in_order`,
`answerable`.
-/
import LymonAgent.Control.Supported
import LymonAgent.LogBuf
import LymonAgent.Mailbox
import LymonAgent.Plugin.Boundary

namespace LymonAgent
namespace Control

open Text Runs Collect Plugin

/-! ### Frames -/

/-- What the agent sends: a text, or the answer to a ping. -/
inductive Frame where
  | text (v : Json)
  | pong (payload : List UInt8)

/-- The task a frame is of: the `i`-th of its kind. -/
inductive Sender where
  | hello
  | heartbeat
  | loop
  | query (i : ℕ)
  | write (i : ℕ)
  | subscribe (i : ℕ)
  | stream (n : ℕ)
  deriving DecidableEq

/-- `WRITER_QUEUE`. -/
def writerQueue : ℕ := 32

/-- What `serve` is called with, besides the collector. -/
structure ServeArgs where
  agentId : String
  tenantId : String
  token : String
  capabilities : List String

def hello (version : String) (args : ServeArgs) : Json :=
  .obj [("agent_id", .str args.agentId), ("agent_version", .str version),
    ("capabilities", .arr (args.capabilities.map .str)), ("kind", .str "hello"),
    ("tenant_id", .str args.tenantId), ("token", .str args.token)]

def heartbeatFrame (agentId : String) : Json :=
  .obj [("agent_id", .str agentId), ("kind", .str "heartbeat")]

def logsResponse (id : String) (lines : List String) : Json :=
  .obj [("kind", .str "logs_response"), ("lines", .arr (lines.map .str)), ("request_id", .str id)]

/-- What `get_logs` answers when the log is `log`. -/
def logsAnswer (log : List String) (v : Json) : Json :=
  logsResponse (requestId v) (LogBuf.tail log ((v.getU64 "lines").getD 500).toNat)

def pointData (id : String) (samples : List AgentSample) : Json :=
  .obj [("kind", .str "point_data"), ("request_id", .str id),
    ("samples", .arr (samples.map fun s => .obj [("quality", .num (.posInt s.quality.toUInt64)),
      ("ts_ms", Sdk.jsonI64 (.ofInt s.tsMs)), ("value", jsonF64 s.value), ("variable_id", .str s.pointId)]))]

/-! ### Queries -/

/-- Where a `handle_query` is: spawned; with the datasource or connector it found; or
with its answer made. -/
inductive QueryPhase where
  | spawned
  | resolved (origin : Option (String × Json × Json))
  | answered (answer : Json)

def respondErr (id code detail : String) : Json :=
  .obj [("error", .obj [("code", .str code), ("detail", .str detail)]), ("kind", .str "query_response"),
    ("ok", .bool false), ("request_id", .str id)]

def respondOk (id : String) (result : Json) : Json :=
  .obj [("kind", .str "query_response"), ("ok", .bool true), ("request_id", .str id), ("result", result)]

def datasourceId (req : Json) : String := (req.getStr "datasource_id").getD ""

def queryOp (req : Json) : String := (req.getStr "op").getD ""

/-- What an operation on a type comes to; `reply` is what the plugin or PSS says. -/
def queryOutcome (host : PluginHost) (dsType op : String) (reply : Except String Json) : Except String Json :=
  if op = "read" then
    match host.forType dsType with
    | some _ => reply
    | none => .error ("agent has no plugin for " ++ dsType ++ " read")
  else
    match dsType with
    | "pss" => reply
    | other =>
      match host.forType other with
      | some _ => reply
      | none => .error ("agent has no adapter for " ++ other ++ "." ++ op ++ " yet")

/-- `handle_query`, from what it found on. -/
def queryAnswer (host : PluginHost) (req : Json) (origin : Option (String × Json × Json))
    (reply : Except String Json) : Json :=
  match origin with
  | none => respondErr (requestId req) "agent_unknown_datasource"
      ("agent has no config for " ++ datasourceId req)
  | some o =>
    match queryOutcome host o.1 (queryOp req) reply with
    | .ok result => respondOk (requestId req) result
    | .error e => respondErr (requestId req) "agent_query_failed" e

/-! ### The connection -/

structure Connection where
  agentId : String
  chan : Channel
  store : DsStore
  subs : Subscriptions
  queries : List (Json × QueryPhase)
  box : Mailbox Sender Frame

/-- A connection of the agent whose collector is that of `a`: the first frame is in the
queue before anything runs, and no datasource is known. -/
def serveStart (version : String) (args : ServeArgs) (a : Agent) : Connection where
  agentId := args.agentId
  chan := { chanStart with pubkey := a.pubkey, connectors := a.collector.connectors }
  store := fun _ => none
  subs := subStart
  queries := []
  box := .start (.hello, .text (hello version args))

/-- What happens: a text comes, with the log of that moment; a ping; the end of the stream
and the teardown; a step of a task; a batch of a stream; a heartbeat; one that waits
goes on; the writer takes a frame, or cannot write the one it took. -/
inductive ServeEvent where
  | text (v : Json) (log : List String)
  | ping (payload : List UInt8)
  | close
  | teardown
  | reconfigure
  | resolve (i : ℕ)
  | answer (i : ℕ) (reply : Except String Json)
  | verify (i : ℕ)
  | write (i : ℕ) (env : Env)
  | check (i : ℕ)
  | ack (i : ℕ)
  | spawn (i : ℕ)
  | register (i : ℕ)
  | ends (n : ℕ)
  | push (n : ℕ) (samples : List AgentSample)
  | beat
  | accept (k : ℕ)
  | deliver
  | writerFails

/-- The sender waits for room in the queue. -/
def Connection.Waits (s : Connection) (who : Sender) : Prop := who ∈ s.box.waiting.map Prod.fst

instance (s : Connection) (who : Sender) : Decidable (s.Waits who) :=
  inferInstanceAs (Decidable (who ∈ s.box.waiting.map Prod.fst))

/-- The streams that ran in `s` and do not in `t`. -/
def stopped (s t : Subscriptions) : List Sender :=
  (s.subs.running.filter fun u => u.1 ∉ t.subs.running.map Prod.fst).map fun u => .stream u.1

/-- The subscriptions after a step of theirs: the streams it aborted are heard of no
more. -/
def Connection.withSubs (s : Connection) (subs : Subscriptions) : Connection :=
  { s with subs, box := s.box.cancel (stopped s.subs subs) }

/-- What the tasks `who` acknowledged in a step, sent. -/
def sendNew (who : ℕ → Sender) (old new : List (ℕ × Json)) (b : Mailbox Sender Frame) :
    Option (Mailbox Sender Frame) :=
  match new.drop old.length with
  | [] => some b
  | (i, v) :: _ => b.post (who i) (.text v)

section

variable (V : Ed25519) (F : FloatText) (host : PluginHost)

/-- A text frame in the loop. -/
def hear (s : Connection) (v : Json) (log : List String) : Option Connection :=
  (chanStep V F s.chan (.frame v)).bind fun chan =>
    (subStep s.subs (.frame v)).bind fun subs =>
      let t := { s with chan }.withSubs subs
      match v.getStr "kind" with
      | some "hello_ack" =>
        if (v.getBool "ok").getD false then some t else some { t with subs := { subs with stage := .ended } }
      | some "provision" => some { t with store := provisionDs s.store v }
      | some "query_request" => some { t with queries := s.queries ++ [(v, .spawned)] }
      | some "get_logs" =>
        (t.box.post .loop (.text (logsAnswer log v))).map fun box => { t with box }
      | _ => some t

def serveStep (s : Connection) : ServeEvent → Option Connection
  | .text v log => if s.Waits .loop then none else hear V F s v log
  | .ping payload =>
    if s.Waits .loop ∨ s.chan.reconf.isSome ∨ s.subs.stage ≠ .reading then none
    else (s.box.post .loop (.pong payload)).map fun box => { s with box }
  | .close =>
    if s.Waits .loop ∨ s.chan.reconf.isSome then none else (subStep s.subs .close).map s.withSubs
  | .teardown =>
    (subStep s.subs .teardown).map fun subs =>
      let t := s.withSubs subs
      -- the heartbeat and the writer are aborted
      { t with box := (t.box.cancel [.heartbeat]).stop }
  | .reconfigure => (chanStep V F s.chan .reconfigure).map fun chan => { s with chan }
  | .resolve i =>
    match s.queries[i]? with
    | some (req, .spawned) =>
      let a : Agent := ⟨s.chan.pubkey, s.store, ⟨s.chan.connectors, .empty⟩⟩
      some { s with queries := s.queries.set i (req, .resolved (origin a (datasourceId req))) }
    | _ => none
  | .answer i reply =>
    match s.queries[i]? with
    | some (req, .resolved o) =>
      let f := queryAnswer host req o reply
      (s.box.post (.query i) (.text f)).map fun box =>
        { s with queries := s.queries.set i (req, .answered f), box }
    | _ => none
  | .verify i =>
    (chanStep V F s.chan (.verify i)).bind fun chan =>
      (sendNew .write s.chan.acks chan.acks s.box).map fun box => { s with chan, box }
  | .write i env =>
    (chanStep V F s.chan (.write i env)).bind fun chan =>
      (sendNew .write s.chan.acks chan.acks s.box).map fun box => { s with chan, box }
  | .check i => (subStep s.subs (.check i s.chan.connectors host)).map s.withSubs
  | .ack i =>
    (subStep s.subs (.ack i)).bind fun subs =>
      (sendNew .subscribe s.subs.acks subs.acks s.box).map fun box => { s with subs, box }
  | .spawn i => if s.Waits (.subscribe i) then none else (subStep s.subs (.spawn i)).map s.withSubs
  | .register i => if s.Waits (.subscribe i) then none else (subStep s.subs (.register i)).map s.withSubs
  | .ends n => if s.Waits (.stream n) then none else (subStep s.subs (.ends n)).map s.withSubs
  | .push n samples =>
    match s.subs.subs.running.find? fun u => u.1 = n with
    | none => none
    | some u => (s.box.post (.stream n) (.text (pointData u.2.requestId samples))).map fun box => { s with box }
  | .beat => (s.box.post .heartbeat (.text (heartbeatFrame s.agentId))).map fun box => { s with box }
  | .accept k => (s.box.accept writerQueue k).map fun box => { s with box }
  | .deliver => s.box.deliver.map fun box => { s with box }
  | .writerFails => some { s with box := s.box.stop }

end

/-! ### Requests -/

/-- The requests that a task of its own answers. -/
inductive Ask where
  | query
  | write
  | subscribe

def Ask.requestKind : Ask → String
  | .query => "query_request"
  | .write => "write_request"
  | .subscribe => "subscribe_request"

def Ask.replyKind : Ask → String
  | .query => "query_response"
  | .write => "write_ack"
  | .subscribe => "subscribe_ack"

def Ask.sender : Ask → ℕ → Sender
  | .query => .query
  | .write => .write
  | .subscribe => .subscribe

def QueryPhase.done : QueryPhase → Bool
  | .answered _ => true
  | _ => false

def SubPhase.acked : SubPhase → Bool
  | .spawning _ _ | .finished => true
  | _ => false

/-- The tasks of a kind, in the order they were spawned: the request, and whether the
task has made its answer. -/
def Ask.tasks (s : Connection) : Ask → List (Json × Bool)
  | .query => s.queries.map fun q => (q.1, q.2.done)
  | .write => s.chan.tasks.map fun t => (t.1, decide (t.2 = .answered))
  | .subscribe => s.subs.handlers.map fun h => (h.1, h.2.acked)

def Frame.kind : Frame → Option String
  | .text v => v.getStr "kind"
  | .pong _ => none

def Frame.str (key : String) : Frame → Option String
  | .text v => v.getStr key
  | .pong _ => none

/-- The frame answers the request: it is of the kind, with the id the request came
with. -/
def Ask.Reply (k : Ask) (req : Json) (f : Frame) : Prop :=
  f.kind = some k.replyKind ∧
    match k with
    | .write => f.str "command_id" = some ((req.getStr "command_id").getD "")
    | _ => f.str "request_id" = some (requestId req)

/-- The tasks of a kind that an event spawns. -/
def Ask.spawns (k : Ask) : ServeEvent → List Json
  | .text v _ => if v.getStr "kind" = some k.requestKind then [v] else []
  | _ => []

/-- What the loop itself answers to an event. -/
def ServeEvent.about : ServeEvent → List Frame
  | .text v log => if v.getStr "kind" = some "get_logs" then [.text (logsAnswer log v)] else []
  | .ping payload => [.pong payload]
  | _ => []

variable {V : Ed25519} {F : FloatText} {host : PluginHost} {s t : Connection} {e : ServeEvent}
  {es : List ServeEvent}

theorem Ask.sender_injective (k : Ask) : Function.Injective k.sender := by
  intro i j h
  cases k <;> cases h <;> rfl

theorem Ask.sender_ne {k k' : Ask} (h : k ≠ k') (i j : ℕ) : k.sender i ≠ k'.sender j := by
  cases k <;> cases k' <;> first | exact absurd rfl h | simp [Ask.sender]

theorem Ask.sender_ne_hello (k : Ask) (i : ℕ) : k.sender i ≠ .hello := by
  cases k <;> simp [Ask.sender]

theorem reply_queryAnswer (req : Json) (o : Option (String × Json × Json)) (reply : Except String Json) :
    Ask.query.Reply req (.text (queryAnswer host req o reply)) := by
  unfold queryAnswer
  split
  · exact ⟨rfl, rfl⟩
  · split
    · exact ⟨rfl, rfl⟩
    · exact ⟨rfl, rfl⟩

theorem reply_failedAck (req : Json) (detail : String) :
    Ask.write.Reply req (.text (failedAck (WriteRequest.ofJson req).commandId detail)) := ⟨rfl, rfl⟩

theorem reply_ackOf (req : Json) (result : Except String (Option F64)) :
    Ask.write.Reply req (.text (ackOf (WriteRequest.ofJson req).commandId result)) := by
  cases result with
  | error detail => exact ⟨rfl, rfl⟩
  | ok readback =>
    cases readback with
    | none => exact ⟨rfl, rfl⟩
    | some v => exact ⟨rfl, rfl⟩

theorem reply_subscribeAck (req : Json) (b : Bool) :
    Ask.subscribe.Reply req (.text (subscribeAck (requestId req) b)) := ⟨rfl, rfl⟩

/-! ### What a step does -/

/-- Frames that answer no task's request; those of the loop are what it says to the
event. -/
structure Free (e : ServeEvent) (l : List (Sender × Frame)) : Prop where
  loop : Mailbox.sent .loop l = e.about.map (Prod.mk .loop)
  apart : ∀ x ∈ l, ∀ (k : Ask) (i : ℕ), k.sender i ≠ x.1
  kind : ∀ x ∈ l, ∀ k : Ask, x.2.kind ≠ some k.replyKind

/-- Every way the tasks and the frames move: requests come and nobody answers one, or one
task does. -/
inductive ServeMoves (s : Connection) (e : ServeEvent) (t : Connection) : Prop
  | free {l : List (Sender × Frame)} : Free e l →
      (∀ k : Ask, k.tasks t = k.tasks s ++ (k.spawns e).map fun req => (req, false)) →
      t.box.made = s.box.made ++ l → ServeMoves s e t
  | done {k : Ask} {i : ℕ} {req : Json} {f : Frame} : e.about = [] → (∀ k : Ask, k.spawns e = []) →
      (k.tasks s)[i]? = some (req, false) → k.tasks t = (k.tasks s).set i (req, true) →
      (∀ k', k' ≠ k → k'.tasks t = k'.tasks s) → k.Reply req f →
      t.box.made = s.box.made ++ [(k.sender i, f)] → ServeMoves s e t

theorem free_nil (h : e.about = []) : Free e [] where
  loop := by rw [h]; rfl
  apart := fun _ h => absurd h List.not_mem_nil
  kind := fun _ h => absurd h List.not_mem_nil

theorem free_loop {f : Frame} (h : e.about = [f]) (hf : ∀ k : Ask, f.kind ≠ some k.replyKind) :
    Free e [(.loop, f)] where
  loop := by rw [h]; rfl
  apart := List.forall_mem_singleton.mpr fun k i => by cases k <;> simp [Ask.sender]
  kind := List.forall_mem_singleton.mpr hf

theorem kind_ne_reply {f : Frame} {kind : String} (hf : f.kind = some kind)
    (hk : ∀ k : Ask, kind ≠ k.replyKind) (k : Ask) : f.kind ≠ some k.replyKind := fun h =>
  hk k (Option.some.inj (hf.symm.trans h))

/-- A change of an element that a map does not see. -/
theorem map_set_same {α β : Type*} {f : α → β} {l : List α} {i : ℕ} {x y : α} (hi : l[i]? = some x)
    (hf : f y = f x) : (l.set i y).map f = l.map f := by
  obtain ⟨hlt, rfl⟩ := List.getElem?_eq_some_iff.mp hi
  rw [List.map_set, hf, ← List.map_set, List.set_getElem_self]

section

variable {c c' : Channel} {u u' : Subscriptions}

theorem tasks_frame {v : Json} (h : chanStep V F c (.frame v) = some c') :
    c'.tasks = c.tasks ++ (if v.getStr "kind" = some "write_request" then [(v, .spawned)] else []) := by
  simp only [chanStep] at h
  split at h
  · cases h
  · split at h
    · rename_i hk
      obtain rfl := Option.some.inj h
      have hne : ¬ v.getStr "kind" = some "write_request" := by simp [hk]
      rw [if_neg hne, List.append_nil]
    · rename_i hk
      obtain rfl := Option.some.inj h
      rw [if_pos hk]
    · rename_i hk
      obtain rfl := Option.some.inj h
      rw [if_neg hk, List.append_nil]

theorem handlers_frame {v : Json} (h : subStep u (.frame v) = some u') :
    u'.handlers = u.handlers ++ (if v.getStr "kind" = some "subscribe_request" then [(v, .started)] else []) := by
  simp only [subStep] at h
  split at h
  · cases h
  · split at h
    · rename_i hk
      obtain rfl := Option.some.inj h
      rw [if_pos hk]
    · rename_i hk
      have hne : ¬ v.getStr "kind" = some "subscribe_request" := by simp [hk]
      rw [if_neg hne, List.append_nil]
      split at h
      · obtain rfl := Option.some.inj h
        rfl
      · obtain rfl := Option.some.inj h
        rfl
    · rename_i hk _
      obtain rfl := Option.some.inj h
      rw [if_neg hk, List.append_nil]

/-- A step of a write task: it goes on, or it answers. -/
theorem task_step {e : ChanEvent} {i : ℕ} (he : e = .verify i ∨ ∃ env, e = .write i env)
    (h : chanStep V F c e = some c') : ∃ req phase, c.tasks[i]? = some (req, phase) ∧ phase ≠ .answered ∧
      ((phase = .spawned ∧ c'.tasks = c.tasks.set i (req, .verified) ∧ c'.acks = c.acks) ∨
        ∃ ack, c'.tasks = c.tasks.set i (req, .answered) ∧ c'.acks = c.acks ++ [(i, ack)] ∧
          Ask.write.Reply req (.text ack)) := by
  rcases he with rfl | ⟨env, rfl⟩
  · simp only [chanStep] at h
    split at h
    · rename_i req hreq
      refine ⟨req, .spawned, hreq, by decide, ?_⟩
      split at h
      · obtain rfl := Option.some.inj h
        exact Or.inl ⟨rfl, rfl, rfl⟩
      · obtain rfl := Option.some.inj h
        exact Or.inr ⟨_, rfl, rfl, reply_failedAck req _⟩
    · cases h
  · simp only [chanStep] at h
    split at h
    · rename_i req hreq
      obtain rfl := Option.some.inj h
      exact ⟨req, .verified, hreq, by decide, Or.inr ⟨_, rfl, rfl, reply_ackOf req _⟩⟩
    · cases h

/-- A step of a subscription other than the loop's and `ack`. -/
theorem handlers_step {e : SubEvent} (hframe : ∀ v, e ≠ .frame v) (hack : ∀ i, e ≠ .ack i)
    (h : subStep u e = some u') :
    (u'.handlers.map fun h => (h.1, h.2.acked)) = u.handlers.map fun h => (h.1, h.2.acked) := by
  cases e with
  | frame v => exact absurd rfl (hframe v)
  | ack i => exact absurd rfl (hack i)
  | close =>
    simp only [subStep] at h
    split at h
    · obtain rfl := Option.some.inj h
      rfl
    · cases h
  | teardown =>
    simp only [subStep] at h
    split at h
    · obtain rfl := Option.some.inj h
      rfl
    · cases h
  | check i connectors host =>
    simp only [subStep] at h
    split at h
    · rename_i hi
      obtain rfl := Option.some.inj h
      exact map_set_same hi rfl
    · cases h
  | spawn i =>
    simp only [subStep] at h
    split at h
    · rename_i hi
      obtain ⟨pt, -, rfl⟩ := Option.map_eq_some_iff.mp h
      exact map_set_same hi rfl
    · cases h
  | register i =>
    simp only [subStep] at h
    split at h
    · rename_i hi
      split at h
      · obtain rfl := Option.some.inj h
        exact map_set_same hi rfl
      · cases h
    · cases h
  | ends n =>
    obtain rfl := Option.some.inj h
    rfl

theorem acked_step {i : ℕ} (h : subStep u (.ack i) = some u') : ∃ req phase phase' b,
    u.handlers[i]? = some (req, phase) ∧ phase.acked = false ∧ phase'.acked = true ∧
    u'.handlers = u.handlers.set i (req, phase') ∧ u'.acks = u.acks ++ [(i, subscribeAck (requestId req) b)] := by
  simp only [subStep] at h
  split at h
  · rename_i req conn hi
    obtain rfl := Option.some.inj h
    refine ⟨req, _, _, _, hi, rfl, ?_, rfl, rfl⟩
    cases conn <;> rfl
  · cases h

end

@[simp] theorem sendNew_self (who : ℕ → Sender) (acks : List (ℕ × Json)) (b : Mailbox Sender Frame) :
    sendNew who acks acks b = some b := by
  simp [sendNew]

@[simp] theorem sendNew_snoc (who : ℕ → Sender) (acks : List (ℕ × Json)) (i : ℕ) (v : Json)
    (b : Mailbox Sender Frame) : sendNew who acks (acks ++ [(i, v)]) b = b.post (who i) (.text v) := by
  simp [sendNew]

/-- What the loop does with a text: the channel's and the subscriptions' steps, a query
task if it is a query, and the log lines if it asks for them. -/
theorem hear_cases {v : Json} {log : List String} (h : hear V F s v log = some t) :
    ∃ chan subs, chanStep V F s.chan (.frame v) = some chan ∧ subStep s.subs (.frame v) = some subs ∧
      t.chan = chan ∧ t.subs.handlers = subs.handlers ∧
      t.queries = s.queries ++ (if v.getStr "kind" = some "query_request" then [(v, .spawned)] else []) ∧
      if v.getStr "kind" = some "get_logs" then
        (s.box.cancel (stopped s.subs subs)).post .loop (.text (logsAnswer log v)) = some t.box
      else t.box = s.box.cancel (stopped s.subs subs) := by
  obtain ⟨chan, hchan, h⟩ := Option.bind_eq_some_iff.mp h
  obtain ⟨subs, hsubs, h⟩ := Option.bind_eq_some_iff.mp h
  refine ⟨chan, subs, hchan, hsubs, ?_⟩
  split at h
  · rename_i hk
    split at h <;> obtain rfl := Option.some.inj h
    · simp [hk, Connection.withSubs]
    · simp [hk, Connection.withSubs]
  · rename_i hk
    obtain rfl := Option.some.inj h
    simp [hk, Connection.withSubs]
  · rename_i hk
    obtain rfl := Option.some.inj h
    simp [hk, Connection.withSubs]
  · rename_i hk
    obtain ⟨box, hbox, rfl⟩ := Option.map_eq_some_iff.mp h
    simpa [hk, Connection.withSubs] using hbox
  · rename_i hquery hlogs
    obtain rfl := Option.some.inj h
    refine ⟨rfl, rfl, ?_, ?_⟩
    · rw [if_neg hquery, List.append_nil]
      rfl
    · rw [if_neg hlogs]
      rfl

theorem map_spawned {α : Type*} {f : α → Json × Bool} {l : List α} {x : α} {v : Json} {p : Prop} [Decidable p]
    (hx : f x = (v, false)) :
    (l ++ if p then [x] else []).map f = l.map f ++ (if p then [v] else []).map fun req => (req, false) := by
  by_cases hp : p
  · rw [if_pos hp, if_pos hp, List.map_append, List.map_singleton, hx]
    rfl
  · rw [if_neg hp, if_neg hp, List.map_append]
    rfl

theorem moves_text {v : Json} {log : List String} (h : hear V F s v log = some t) :
    ServeMoves s (.text v log) t := by
  obtain ⟨chan, subs, hchan, hsubs, rfl, hhandlers, hqueries, hbox⟩ := hear_cases h
  have htasks : ∀ k : Ask, k.tasks t = k.tasks s ++ (k.spawns (.text v log)).map fun req => (req, false) := by
    intro k
    cases k with
    | query => exact (congrArg _ hqueries).trans (map_spawned rfl)
    | write => exact (congrArg _ (tasks_frame hchan)).trans (map_spawned rfl)
    | subscribe => exact (congrArg _ (hhandlers.trans (handlers_frame hsubs))).trans (map_spawned rfl)
  by_cases hk : v.getStr "kind" = some "get_logs"
  · rw [if_pos hk] at hbox
    exact .free (free_loop (f := .text (logsAnswer log v)) (by simp [ServeEvent.about, hk])
      (kind_ne_reply rfl fun k => by cases k <;> decide)) htasks (Mailbox.made_post hbox).1
  · rw [if_neg hk] at hbox
    refine .free (free_nil (by simp [ServeEvent.about, hk])) htasks ?_
    rw [hbox, List.append_nil]
    rfl

/-- A step that spawns no task and answers no request. -/
theorem moves_quiet (habout : e.about = []) (hspawns : ∀ k : Ask, k.spawns e = [])
    (htasks : ∀ k : Ask, k.tasks t = k.tasks s) (hmade : t.box.made = s.box.made) : ServeMoves s e t :=
  .free (free_nil habout) (fun k => by rw [htasks k, hspawns k, List.map_nil, List.append_nil])
    (by rw [hmade, List.append_nil])

/-- A step of a write task. -/
theorem moves_task {d : ChanEvent} {i : ℕ} {chan : Channel} {box : Mailbox Sender Frame}
    (habout : e.about = []) (hspawns : ∀ k : Ask, k.spawns e = [])
    (hd : d = .verify i ∨ ∃ env, d = .write i env) (hchan : chanStep V F s.chan d = some chan)
    (hbox : sendNew .write s.chan.acks chan.acks s.box = some box) :
    ServeMoves s e { s with chan, box } := by
  obtain ⟨req, phase, hreq, hphase, ⟨-, htasks, hacks⟩ | ⟨ack, htasks, hacks, hreply⟩⟩ := task_step hd hchan
  · rw [hacks, sendNew_self] at hbox
    obtain rfl := Option.some.inj hbox
    refine moves_quiet habout hspawns (fun k => ?_) rfl
    cases k with
    | write =>
      simp only [Ask.tasks, htasks]
      exact map_set_same hreq (by simp [hphase])
    | query => rfl
    | subscribe => rfl
  · rw [hacks, sendNew_snoc] at hbox
    refine .done (k := .write) (i := i) habout hspawns (by simp [Ask.tasks, hreq, hphase])
      (by simp [Ask.tasks, htasks, List.map_set]) (fun k hk => ?_) hreply (Mailbox.made_post hbox).1
    cases k with
    | write => exact absurd rfl hk
    | query => rfl
    | subscribe => rfl

/-- A step of the subscriptions other than a frame and an acknowledgement. -/
theorem moves_subs {d : SubEvent} {subs : Subscriptions} (habout : e.about = [])
    (hspawns : ∀ k : Ask, k.spawns e = []) (hframe : ∀ v, d ≠ .frame v) (hack : ∀ i, d ≠ .ack i)
    (hd : subStep s.subs d = some subs) : ServeMoves s e (s.withSubs subs) := by
  refine moves_quiet habout hspawns (fun k => ?_) rfl
  cases k with
  | subscribe => exact handlers_step hframe hack hd
  | query => rfl
  | write => rfl

theorem serve_moves (h : serveStep V F host s e = some t) : ServeMoves s e t := by
  cases e with
  | text v log =>
    simp only [serveStep] at h
    split at h
    · cases h
    · exact moves_text h
  | ping payload =>
    simp only [serveStep] at h
    split at h
    · cases h
    · obtain ⟨box, hbox, rfl⟩ := Option.map_eq_some_iff.mp h
      refine .free (free_loop (f := .pong payload) rfl fun k => by simp [Frame.kind]) (fun k => ?_)
        (Mailbox.made_post hbox).1
      exact (List.append_nil _).symm
  | close =>
    simp only [serveStep] at h
    split at h
    · cases h
    · obtain ⟨subs, hsubs, rfl⟩ := Option.map_eq_some_iff.mp h
      exact moves_subs rfl (fun _ => rfl) (fun _ hd => by cases hd) (fun _ hd => by cases hd) hsubs
  | teardown =>
    obtain ⟨subs, hsubs, rfl⟩ := Option.map_eq_some_iff.mp h
    refine moves_quiet rfl (fun _ => rfl) (fun k => ?_) rfl
    cases k with
    | subscribe => exact handlers_step (fun _ hd => by cases hd) (fun _ hd => by cases hd) hsubs
    | query => rfl
    | write => rfl
  | reconfigure =>
    obtain ⟨chan, hchan, rfl⟩ := Option.map_eq_some_iff.mp h
    refine moves_quiet rfl (fun _ => rfl) (fun k => ?_) rfl
    simp only [chanStep] at hchan
    split at hchan
    · cases hchan
    · obtain rfl := Option.some.inj hchan
      cases k <;> rfl
  | resolve i =>
    simp only [serveStep] at h
    split at h
    · rename_i req hi
      obtain rfl := Option.some.inj h
      refine moves_quiet rfl (fun _ => rfl) (fun k => ?_) rfl
      cases k with
      | query => exact map_set_same hi rfl
      | write => rfl
      | subscribe => rfl
    · cases h
  | answer i reply =>
    simp only [serveStep] at h
    split at h
    · rename_i req o hi
      obtain ⟨box, hbox, rfl⟩ := Option.map_eq_some_iff.mp h
      refine .done (k := .query) (i := i) rfl (fun _ => rfl)
        (by simp [Ask.tasks, hi, QueryPhase.done]) (by simp [Ask.tasks, List.map_set, QueryPhase.done])
        (fun k hk => ?_) (reply_queryAnswer req o reply) (Mailbox.made_post hbox).1
      cases k with
      | query => exact absurd rfl hk
      | write => rfl
      | subscribe => rfl
    · cases h
  | verify i =>
    obtain ⟨chan, hchan, h⟩ := Option.bind_eq_some_iff.mp h
    obtain ⟨box, hbox, rfl⟩ := Option.map_eq_some_iff.mp h
    exact moves_task rfl (fun _ => rfl) (Or.inl rfl) hchan hbox
  | write i env =>
    obtain ⟨chan, hchan, h⟩ := Option.bind_eq_some_iff.mp h
    obtain ⟨box, hbox, rfl⟩ := Option.map_eq_some_iff.mp h
    exact moves_task rfl (fun _ => rfl) (Or.inr ⟨env, rfl⟩) hchan hbox
  | check i =>
    obtain ⟨subs, hsubs, rfl⟩ := Option.map_eq_some_iff.mp h
    exact moves_subs rfl (fun _ => rfl) (fun _ hd => by cases hd) (fun _ hd => by cases hd) hsubs
  | ack i =>
    obtain ⟨subs, hsubs, h⟩ := Option.bind_eq_some_iff.mp h
    obtain ⟨box, hbox, rfl⟩ := Option.map_eq_some_iff.mp h
    obtain ⟨req, phase, phase', b, hi, hphase, hphase', hhandlers, hacks⟩ := acked_step hsubs
    rw [hacks, sendNew_snoc] at hbox
    refine .done (k := .subscribe) (i := i) rfl (fun _ => rfl)
      (by simp [Ask.tasks, hi, hphase]) (by simp [Ask.tasks, hhandlers, List.map_set, hphase'])
      (fun k hk => ?_) (reply_subscribeAck req b) (Mailbox.made_post hbox).1
    cases k with
    | subscribe => exact absurd rfl hk
    | query => rfl
    | write => rfl
  | spawn i =>
    simp only [serveStep] at h
    split at h
    · cases h
    · obtain ⟨subs, hsubs, rfl⟩ := Option.map_eq_some_iff.mp h
      exact moves_subs rfl (fun _ => rfl) (fun _ hd => by cases hd) (fun _ hd => by cases hd) hsubs
  | register i =>
    simp only [serveStep] at h
    split at h
    · cases h
    · obtain ⟨subs, hsubs, rfl⟩ := Option.map_eq_some_iff.mp h
      exact moves_subs rfl (fun _ => rfl) (fun _ hd => by cases hd) (fun _ hd => by cases hd) hsubs
  | ends n =>
    simp only [serveStep] at h
    split at h
    · cases h
    · obtain ⟨subs, hsubs, rfl⟩ := Option.map_eq_some_iff.mp h
      exact moves_subs rfl (fun _ => rfl) (fun _ hd => by cases hd) (fun _ hd => by cases hd) hsubs
  | push n samples =>
    simp only [serveStep] at h
    split at h
    · cases h
    · obtain ⟨box, hbox, rfl⟩ := Option.map_eq_some_iff.mp h
      refine .free ⟨rfl, ?_, ?_⟩ (fun k => (List.append_nil _).symm) (Mailbox.made_post hbox).1
      · exact List.forall_mem_singleton.mpr fun k i => by cases k <;> simp [Ask.sender]
      · exact List.forall_mem_singleton.mpr (kind_ne_reply rfl fun k => by cases k <;> decide)
  | beat =>
    obtain ⟨box, hbox, rfl⟩ := Option.map_eq_some_iff.mp h
    refine .free ⟨rfl, ?_, ?_⟩ (fun k => (List.append_nil _).symm) (Mailbox.made_post hbox).1
    · exact List.forall_mem_singleton.mpr fun k i => by cases k <;> simp [Ask.sender]
    · exact List.forall_mem_singleton.mpr (kind_ne_reply rfl fun k => by cases k <;> decide)
  | accept j =>
    obtain ⟨box, hbox, rfl⟩ := Option.map_eq_some_iff.mp h
    exact moves_quiet rfl (fun _ => rfl) (fun _ => rfl) (Mailbox.made_accept hbox)
  | deliver =>
    obtain ⟨box, hbox, rfl⟩ := Option.map_eq_some_iff.mp h
    exact moves_quiet rfl (fun _ => rfl) (fun _ => rfl) (Mailbox.made_deliver hbox)
  | writerFails =>
    obtain rfl := Option.some.inj h
    exact moves_quiet rfl (fun _ => rfl) (fun _ => rfl) rfl

/-! ### The queue -/

/-- The teardown aborts the task, or an unsubscribe request does. -/
def Sender.Stoppable : Sender → Prop
  | .heartbeat | .stream _ => True
  | _ => False

theorem stoppable_stopped (s : Connection) (subs : Subscriptions) :
    ∀ who ∈ stopped s.subs subs, who.Stoppable := fun who h => by
  obtain ⟨u, -, rfl⟩ := List.mem_map.mp h
  trivial

theorem box_sendNew {who : ℕ → Sender} {old new : List (ℕ × Json)} {b b' : Mailbox Sender Frame}
    (h : sendNew who old new b = some b') : ∃ ds, run (Mailbox.step writerQueue) b ds = some b' ∧
      ∀ d ∈ ds, d.Cancels Sender.Stoppable := by
  unfold sendNew at h
  split at h
  · exact ⟨[], h, fun _ hd => absurd hd List.not_mem_nil⟩
  · exact ⟨[.post _ _], run_cons.mpr ⟨b', h, rfl⟩, List.forall_mem_singleton.mpr trivial⟩

theorem box_post {who : Sender} {m : Frame} {b b' : Mailbox Sender Frame} (h : b.post who m = some b') :
    ∃ ds, run (Mailbox.step writerQueue) b ds = some b' ∧ ∀ d ∈ ds, d.Cancels Sender.Stoppable :=
  ⟨[.post who m], run_cons.mpr ⟨b', h, rfl⟩, List.forall_mem_singleton.mpr trivial⟩

/-- A step of the connection is a run of its queue. -/
theorem box_step (h : serveStep V F host s e = some t) : ∃ ds,
    run (Mailbox.step writerQueue) s.box ds = some t.box ∧ ∀ d ∈ ds, d.Cancels Sender.Stoppable := by
  have hsame : ∃ ds, run (Mailbox.step writerQueue) s.box ds = some s.box ∧
      ∀ d ∈ ds, d.Cancels Sender.Stoppable := ⟨[], rfl, fun _ hd => absurd hd List.not_mem_nil⟩
  have hsubs : ∀ subs, ∃ ds, run (Mailbox.step writerQueue) s.box ds = some (s.withSubs subs).box ∧
      ∀ d ∈ ds, d.Cancels Sender.Stoppable := fun subs =>
    ⟨[.cancel (stopped s.subs subs)], rfl, List.forall_mem_singleton.mpr (stoppable_stopped s subs)⟩
  cases e with
  | text v log =>
    simp only [serveStep] at h
    split at h
    · cases h
    · obtain ⟨chan, subs, -, -, -, -, -, hbox⟩ := hear_cases h
      have hstop := stoppable_stopped s subs
      split at hbox
      · exact ⟨[.cancel (stopped s.subs subs), .post .loop (.text (logsAnswer log v))],
          run_cons.mpr ⟨_, rfl, run_cons.mpr ⟨_, hbox, rfl⟩⟩, by simp [Mailbox.Event.Cancels]; exact hstop⟩
      · rw [hbox]
        exact ⟨[.cancel (stopped s.subs subs)], rfl, List.forall_mem_singleton.mpr hstop⟩
  | ping payload =>
    simp only [serveStep] at h
    split at h
    · cases h
    · obtain ⟨box, hbox, rfl⟩ := Option.map_eq_some_iff.mp h
      exact box_post hbox
  | close =>
    simp only [serveStep] at h
    split at h
    · cases h
    · obtain ⟨subs, -, rfl⟩ := Option.map_eq_some_iff.mp h
      exact hsubs subs
  | teardown =>
    obtain ⟨subs, -, rfl⟩ := Option.map_eq_some_iff.mp h
    exact ⟨[.cancel (stopped s.subs subs), .cancel [.heartbeat], .stop], rfl,
      List.forall_mem_cons.mpr ⟨stoppable_stopped s subs, by simp [Mailbox.Event.Cancels, Sender.Stoppable]⟩⟩
  | reconfigure =>
    obtain ⟨chan, -, rfl⟩ := Option.map_eq_some_iff.mp h
    exact hsame
  | resolve i =>
    simp only [serveStep] at h
    split at h
    · obtain rfl := Option.some.inj h
      exact hsame
    · cases h
  | answer i reply =>
    simp only [serveStep] at h
    split at h
    · obtain ⟨box, hbox, rfl⟩ := Option.map_eq_some_iff.mp h
      exact box_post hbox
    · cases h
  | verify i =>
    obtain ⟨chan, -, h⟩ := Option.bind_eq_some_iff.mp h
    obtain ⟨box, hbox, rfl⟩ := Option.map_eq_some_iff.mp h
    exact box_sendNew hbox
  | write i env =>
    obtain ⟨chan, -, h⟩ := Option.bind_eq_some_iff.mp h
    obtain ⟨box, hbox, rfl⟩ := Option.map_eq_some_iff.mp h
    exact box_sendNew hbox
  | check i =>
    obtain ⟨subs, -, rfl⟩ := Option.map_eq_some_iff.mp h
    exact hsubs subs
  | ack i =>
    obtain ⟨subs, -, h⟩ := Option.bind_eq_some_iff.mp h
    obtain ⟨box, hbox, rfl⟩ := Option.map_eq_some_iff.mp h
    exact box_sendNew hbox
  | spawn i =>
    simp only [serveStep] at h
    split at h
    · cases h
    · obtain ⟨subs, -, rfl⟩ := Option.map_eq_some_iff.mp h
      exact hsubs subs
  | register i =>
    simp only [serveStep] at h
    split at h
    · cases h
    · obtain ⟨subs, -, rfl⟩ := Option.map_eq_some_iff.mp h
      exact hsubs subs
  | ends n =>
    simp only [serveStep] at h
    split at h
    · cases h
    · obtain ⟨subs, -, rfl⟩ := Option.map_eq_some_iff.mp h
      exact hsubs subs
  | push n samples =>
    simp only [serveStep] at h
    split at h
    · cases h
    · obtain ⟨box, hbox, rfl⟩ := Option.map_eq_some_iff.mp h
      exact box_post hbox
  | beat =>
    obtain ⟨box, hbox, rfl⟩ := Option.map_eq_some_iff.mp h
    exact box_post hbox
  | accept j =>
    obtain ⟨box, hbox, rfl⟩ := Option.map_eq_some_iff.mp h
    exact ⟨[.accept j], run_cons.mpr ⟨box, hbox, rfl⟩, List.forall_mem_singleton.mpr trivial⟩
  | deliver =>
    obtain ⟨box, hbox, rfl⟩ := Option.map_eq_some_iff.mp h
    exact ⟨[.deliver], run_cons.mpr ⟨box, hbox, rfl⟩, List.forall_mem_singleton.mpr trivial⟩
  | writerFails =>
    obtain rfl := Option.some.inj h
    exact ⟨[.stop], rfl, List.forall_mem_singleton.mpr trivial⟩

/-- What holds of the queue after every step. -/
structure BoxInv (helloFrame : Json) (b : Mailbox Sender Frame) : Prop where
  kept : Mailbox.Kept writerQueue b
  first : Mailbox.First (.hello, .text helloFrame) b
  cancelled : ∀ who ∈ b.cancelled, who.Stoppable

variable {version : String} {args : ServeArgs} {a : Agent}

theorem boxInv_run (h : run (serveStep V F host) (serveStart version args a) es = some s) :
    BoxInv (hello version args) s.box := by
  refine inv_run (P := fun s : Connection => BoxInv (hello version args) s.box) (fun s e t hs ht => ?_) ?_ h
  · obtain ⟨ds, hrun, hds⟩ := box_step ht
    exact ⟨Mailbox.kept_run hs.kept hrun,
      inv_run (fun _ _ _ hb hstep => Mailbox.first_step hb hstep) hs.first hrun,
      Mailbox.cancelled_run hds hs.cancelled hrun⟩
  · exact ⟨.start _ (by decide), Or.inl ⟨[], rfl⟩, fun _ h => absurd h List.not_mem_nil⟩

/-! ### One answer -/

theorem answers_step {k : Ask} (hs : Mailbox.Answers k.sender k.Reply (k.tasks s) s.box.made)
    (h : serveStep V F host s e = some t) : Mailbox.Answers k.sender k.Reply (k.tasks t) t.box.made := by
  cases serve_moves h with
  | free hfree htasks hmade =>
    rw [htasks, hmade]
    exact (hs.spawn _).other fun x hx i => hfree.apart x hx k i
  | @done k' i req f _ _ hi htasks hother hreply hmade =>
    rw [hmade]
    by_cases hk : k = k'
    · subst hk
      rw [htasks]
      exact hs.done k.sender_injective hi hreply
    · rw [hother k hk]
      exact hs.other (List.forall_mem_singleton.mpr fun j => Ask.sender_ne hk j i)

theorem answers_run (k : Ask) (h : run (serveStep V F host) (serveStart version args a) es = some s) :
    Mailbox.Answers k.sender k.Reply (k.tasks s) s.box.made := by
  refine inv_run (P := fun s => Mailbox.Answers k.sender k.Reply (k.tasks s) s.box.made)
    (fun _ _ _ hs ht => answers_step hs ht) ?_ h
  have hnone : k.tasks (serveStart version args a) = [] := by cases k <;> rfl
  rw [hnone]
  exact .start k.sender_ne_hello

theorem requests_step (k : Ask) (h : serveStep V F host s e = some t) :
    (k.tasks t).map Prod.fst = (k.tasks s).map Prod.fst ++ k.spawns e := by
  cases serve_moves h with
  | free _ htasks _ => simp [htasks, List.map_map, Function.comp_def]
  | @done k' i req f _ hspawns hi htasks hother _ _ =>
    rw [hspawns k, List.append_nil]
    by_cases hk : k = k'
    · subst hk
      rw [htasks]
      exact map_set_same hi rfl
    · rw [hother k hk]

/-- The tasks are of the requests that came, in order. -/
theorem requests_run (k : Ask) (h : run (serveStep V F host) (serveStart version args a) es = some s) :
    (k.tasks s).map Prod.fst = es.flatMap k.spawns := by
  refine hist_run (P := fun es s => (k.tasks s).map Prod.fst = es.flatMap k.spawns) ?_
    (fun es s e t _ hs ht => ?_) h
  · cases k <;> rfl
  · rw [requests_step k ht, hs, List.flatMap_append, List.flatMap_singleton]

/-- Only the tasks of a kind make frames of its reply kind. -/
theorem repliers_run (k : Ask) (h : run (serveStep V F host) (serveStart version args a) es = some s) :
    ∀ x ∈ s.box.made, x.2.kind = some k.replyKind → ∃ i, x.1 = k.sender i := by
  refine inv_run (P := fun s : Connection => ∀ x ∈ s.box.made, x.2.kind = some k.replyKind →
    ∃ i, x.1 = k.sender i) (fun s e t hs ht x hx hkind => ?_) ?_ h
  · cases serve_moves ht with
    | free hfree _ hmade =>
      rw [hmade] at hx
      exact (List.mem_append.mp hx).elim (fun hx => hs x hx hkind) fun hx => absurd hkind (hfree.kind x hx k)
    | @done k' i req f _ _ _ _ _ hreply hmade =>
      rw [hmade] at hx
      rcases List.mem_append.mp hx with hx | hx
      · exact hs x hx hkind
      · obtain rfl := List.mem_singleton.mp hx
        have hsame : k' = k := by
          have heq := Option.some.inj (hreply.1.symm.trans hkind)
          cases k' <;> cases k <;> first | rfl | exact absurd heq (by decide)
        exact ⟨i, by rw [hsame]⟩
  · exact List.forall_mem_singleton.mpr fun hkind =>
      absurd hkind (kind_ne_reply rfl (fun k => by cases k <;> decide) k)

/-- Of the requests of a kind that came in the events, each has a task; the frames of its
sender that went out are none, or the one that answers it, when the task is done; nobody
else sends frames of the reply kind; and once nothing waits and the queue is empty, with
the writer running, every done task's answer has gone out. -/
structure OneAnswer (k : Ask) (es : List ServeEvent) (s : Connection) : Prop where
  asked : (k.tasks s).map Prod.fst = es.flatMap k.spawns
  atMost : ∀ i, Mailbox.sent (k.sender i) s.box.out = [] ∨ ∃ req f, (k.tasks s)[i]? = some (req, true) ∧
    k.Reply req f ∧ Mailbox.sent (k.sender i) s.box.out = [(k.sender i, f)]
  only : ∀ x ∈ s.box.out, x.2.kind = some k.replyKind → ∃ i, x.1 = k.sender i
  whole : s.box.live = true → s.box.waiting = [] → s.box.queue = [] →
    ∀ i req, (k.tasks s)[i]? = some (req, true) →
      ∃ f, k.Reply req f ∧ Mailbox.sent (k.sender i) s.box.out = [(k.sender i, f)]

theorem not_stoppable (k : Ask) (i : ℕ) : ¬ (k.sender i).Stoppable := by
  cases k <;> exact id

theorem BoxInv.not_cancelled {helloFrame : Json} {b : Mailbox Sender Frame} (h : BoxInv helloFrame b)
    (k : Ask) (i : ℕ) : k.sender i ∉ b.cancelled := fun hc => not_stoppable k i (h.cancelled _ hc)

/-- **A request gets one answer.** In every run of a connection, whatever the other side
sends and however the loop, the tasks, the streams and the writer interleave, each query,
write and subscribe request gets at most one frame, which answers it, and, when its task
is done and the writer has caught up, exactly one. -/
theorem answered_once (k : Ask) (h : run (serveStep V F host) (serveStart version args a) es = some s) :
    OneAnswer k es s := by
  have hbox := boxInv_run h
  have hans := answers_run k h
  refine ⟨requests_run k h, hans.out hbox.kept, fun x hx => ?_, fun hlive hw hq i req hi => ?_⟩
  · exact repliers_run k h x (hbox.kept.mem_made hx)
  · exact hans.drained hbox.kept hlive (hbox.not_cancelled k i) hw hq hi

/-- A query for a datasource the agent does not have. -/
def unknownQuery : Json :=
  .obj [("datasource_id", .str "db"), ("kind", .str "query_request"), ("op", .str "read"),
    ("request_id", .str "q1")]

def plainArgs : ServeArgs := ⟨"a1", "t1", "secret", ["modbus"]⟩

def plainAgent : Agent := ⟨none, fun _ => none, .new⟩

/-- It is answered while a ping is. -/
def queried : List ServeEvent :=
  [.deliver, .text unknownQuery [], .resolve 0, .ping [1], .answer 0 (.error ""), .accept 1, .deliver,
    .accept 0, .deliver]

theorem answered_once_queried : ∃ s,
    run (serveStep signedOnce plainFloat ⟨[]⟩) (serveStart "1" plainArgs plainAgent) queried = some s ∧
      OneAnswer .query queried s ∧ s.box.out.map Prod.fst = [.hello, .query 0, .loop] := by
  obtain ⟨s, hs⟩ : ∃ s, run (serveStep signedOnce plainFloat ⟨[]⟩) (serveStart "1" plainArgs plainAgent)
      queried = some s := Option.isSome_iff_exists.mp (by decide +kernel)
  have hout : (run (serveStep signedOnce plainFloat ⟨[]⟩) (serveStart "1" plainArgs plainAgent) queried).map
      (fun s => s.box.out.map Prod.fst) = some [.hello, .query 0, .loop] := by decide +kernel
  rw [hs, Option.map_some, Option.some.injEq] at hout
  exact ⟨s, hs, answered_once .query hs, hout⟩

/-! ### In order -/

theorem loop_run (h : run (serveStep V F host) (serveStart version args a) es = some s) :
    Mailbox.sent .loop s.box.made = (es.flatMap ServeEvent.about).map (Prod.mk .loop) := by
  refine hist_run (P := fun es (s : Connection) =>
    Mailbox.sent .loop s.box.made = (es.flatMap ServeEvent.about).map (Prod.mk .loop)) rfl
    (fun es s e t _ hs ht => ?_) h
  rw [List.flatMap_append, List.flatMap_singleton, List.map_append, ← hs]
  cases serve_moves ht with
  | free hfree _ hmade => rw [hmade, Mailbox.sent_append, hfree.loop]
  | @done k i req f habout _ _ _ _ _ hmade =>
    have hnone : Mailbox.sent .loop [(k.sender i, f)] = [] :=
      List.filter_eq_nil_iff.mpr (List.forall_mem_singleton.mpr (by cases k <;> simp [Ask.sender]))
    rw [hmade, habout, Mailbox.sent_append, hnone]
    rfl

/-- The queue has its bound and no task has two frames that wait; the hello goes out
first; what goes out of a task is what it made, in order, and the pongs and log lines
are those asked for, in order; and while the writer runs, nothing that a task made is
lost, unless the task was stopped. -/
structure InOrder (version : String) (args : ServeArgs) (es : List ServeEvent) (s : Connection) : Prop where
  bound : s.box.queue.length ≤ writerQueue
  once : (s.box.waiting.map Prod.fst).Nodup
  first : ∀ x ∈ s.box.out.head?, x = (.hello, .text (hello version args))
  order : ∀ who, Mailbox.sent who s.box.out <+: Mailbox.sent who s.box.made
  loop : (Mailbox.sent .loop s.box.out).map Prod.snd <+: es.flatMap ServeEvent.about
  whole : s.box.live = true → ∀ who, ¬ who.Stoppable →
    Mailbox.sent who s.box.out ++ Mailbox.sent who (s.box.queue ++ s.box.waiting) = Mailbox.sent who s.box.made

/-- **The frames go out in order.** In every run of a connection the hello is the first
frame; the queue holds 32 frames at most and each task waits with one at most; each
task's frames go out in the order it made them, each once; the pings and log requests
are answered in the order they came; and while the writer runs no frame of the loop, of
a query, a write or a subscribe handler is lost. -/
theorem sent_in_order (h : run (serveStep V F host) (serveStart version args a) es = some s) :
    InOrder version args es s := by
  obtain ⟨hkept, hfirst, hcancelled⟩ := boxInv_run h
  have horder : ∀ who, Mailbox.sent who s.box.out <+: Mailbox.sent who s.box.made := fun who => by
    refine List.IsPrefix.trans ?_ (hkept.order who)
    rw [Mailbox.sent_append]
    exact List.prefix_append _ _
  refine ⟨hkept.bound, hkept.once, fun x hx => ?_, horder, ?_, fun hlive who hwho => ?_⟩
  · obtain ⟨rest, hout⟩ := List.head?_eq_some_iff.mp hx
    rcases hfirst with ⟨rest', heq⟩ | ⟨hnone, -, -⟩
    · rw [hout] at heq
      exact (List.cons.inj heq).1
    · rw [hnone] at hout
      cases hout
  · have hmade := (horder .loop).map Prod.snd
    rw [loop_run h, List.map_map] at hmade
    simpa [Function.comp_def] using hmade
  · have hwhole := hkept.whole hlive who fun hc => hwho (hcancelled who hc)
    rw [Mailbox.sent_append] at hwhole ⊢
    rw [← List.append_assoc, hwhole]

theorem sent_in_order_queried : ∃ s,
    run (serveStep signedOnce plainFloat ⟨[]⟩) (serveStart "1" plainArgs plainAgent) queried = some s ∧
      InOrder "1" plainArgs queried s := by
  obtain ⟨s, hs⟩ : ∃ s, run (serveStep signedOnce plainFloat ⟨[]⟩) (serveStart "1" plainArgs plainAgent)
      queried = some s := Option.isSome_iff_exists.mp (by decide +kernel)
  exact ⟨s, hs, sent_in_order hs⟩

/-! ### Nobody is stuck -/

/-- What each query gets from its plugin or PSS, and what each write runs against, by the
number of its task; `none` where the plugin or the device never answers it, or never comes
to it behind another that it does not answer. -/
structure Outside where
  reply : ℕ → Option (Except String Json)
  env : ℕ → Option Env

/-- The task is not left waiting. A subscribe handler acknowledges before it asks a
plugin. -/
def Outside.Answers (o : Outside) : Ask → ℕ → Prop
  | .query, i => (o.reply i).isSome = true
  | .write, i => (o.env i).isSome = true
  | .subscribe, _ => True

/-- A step of a query, write or subscribe task up to its answer, where the devices and
plugins answer as `o` says, or of the writer. -/
def ServeEvent.Inner (o : Outside) : ServeEvent → Prop
  | .resolve _ | .verify _ | .check _ | .ack _ | .accept _ | .deliver => True
  | .answer i r => o.reply i = some r
  | .write i e => o.env i = some e
  | _ => False

def QueryPhase.left : QueryPhase → ℕ
  | .spawned => 2
  | .resolved _ => 1
  | .answered _ => 0

def Phase.left : Phase → ℕ
  | .spawned => 2
  | .verified => 1
  | .answered => 0

def SubPhase.left : SubPhase → ℕ
  | .started => 2
  | .checked _ => 1
  | _ => 0

/-- How many steps the tasks have left up to their answers. -/
def Connection.left (s : Connection) : ℕ :=
  (s.queries.map fun q => q.2.left).sum + (s.chan.tasks.map fun t => t.2.left).sum +
    (s.subs.handlers.map fun h => h.2.left).sum

theorem Phase.left_pos {phase : Phase} (h : phase ≠ .answered) : 0 < phase.left := by
  cases phase with
  | spawned => exact Nat.zero_lt_two
  | verified => exact Nat.zero_lt_one
  | answered => exact absurd rfl h

theorem SubPhase.left_of_acked {phase : SubPhase} (h : phase.acked = true) : phase.left = 0 := by
  cases phase with
  | started => cases h
  | checked _ => cases h
  | spawning _ _ => rfl
  | finished => rfl

theorem sum_set_lt {α : Type*} {f : α → ℕ} {x y : α} : ∀ {l : List α} {i : ℕ}, l[i]? = some x →
    f y < f x → ((l.set i y).map f).sum < (l.map f).sum
  | z :: l, 0, h, hlt => by
    obtain rfl := Option.some.inj h
    simpa using hlt
  | z :: l, i + 1, h, hlt => by
    have ih := sum_set_lt (l := l) (i := i) h hlt
    simpa using ih

theorem spawns_of_inner {o : Outside} (h : e.Inner o) (k : Ask) :
    k.spawns e = [] := by
  cases e <;> first | rfl | exact h.elim

theorem post_of_silent {k : Ask} {i : ℕ} {req : Json} {helloFrame : Json} (hbox : BoxInv helloFrame s.box)
    (hans : Mailbox.Answers k.sender k.Reply (k.tasks s) s.box.made) (hlive : s.box.live = true)
    (hi : (k.tasks s)[i]? = some (req, false)) (f : Frame) :
    ∃ box, s.box.post (k.sender i) f = some box := by
  have hwait := hans.not_waiting hbox.kept hlive (fun r hr => by
    rw [hi] at hr
    cases hr) (hbox.not_cancelled k i)
  have hfree := not_or.mpr ⟨hwait, hbox.not_cancelled k i⟩
  exact ⟨_, by rw [Mailbox.post, if_neg hfree]⟩

section

variable {out : Outside} {i : ℕ} {req : Json}

theorem query_goes_on (hout : out.Answers .query i) (hi : (Ask.query.tasks s)[i]? = some (req, false))
    (hpost : ∀ f, ∃ box, s.box.post (.query i) f = some box) : ∃ d t, d.Inner out ∧
      serveStep V F host s d = some t ∧ t.box.live = s.box.live ∧ t.left < s.left := by
  simp only [Ask.tasks, List.getElem?_map, Option.map_eq_some_iff, Prod.mk.injEq] at hi
  obtain ⟨⟨req', phase⟩, hq, rfl, hphase⟩ := hi
  cases phase with
  | spawned =>
    obtain ⟨o, hstep⟩ : ∃ o, serveStep V F host s (.resolve i) =
        some { s with queries := s.queries.set i (req', .resolved o) } := by
      simp only [serveStep, hq]
      exact ⟨_, rfl⟩
    refine ⟨.resolve i, _, trivial, hstep, rfl, ?_⟩
    have hlt := sum_set_lt (f := fun q : Json × QueryPhase => q.2.left) (y := (req', .resolved o)) hq
      Nat.one_lt_two
    simp only [Connection.left]
    omega
  | resolved o =>
    obtain ⟨reply, hreply⟩ := Option.isSome_iff_exists.mp hout
    obtain ⟨box, hbox⟩ := hpost (.text (queryAnswer host req' o reply))
    have hstep : serveStep V F host s (.answer i reply) = some { s with
        queries := s.queries.set i (req', .answered (queryAnswer host req' o reply)), box } := by
      simp only [serveStep, hq, hbox, Option.map_some]
    refine ⟨.answer i reply, _, hreply, hstep, (Mailbox.made_post hbox).2.2, ?_⟩
    have hlt := sum_set_lt (f := fun q : Json × QueryPhase => q.2.left)
      (y := (req', .answered (queryAnswer host req' o reply))) hq
      Nat.zero_lt_one
    simp only [Connection.left]
    omega
  | answered f => cases hphase

theorem write_goes_on (hout : out.Answers .write i) (hi : (Ask.write.tasks s)[i]? = some (req, false))
    (hpost : ∀ f, ∃ box, s.box.post (.write i) f = some box) : ∃ d t, d.Inner out ∧
      serveStep V F host s d = some t ∧ t.box.live = s.box.live ∧ t.left < s.left := by
  simp only [Ask.tasks, List.getElem?_map, Option.map_eq_some_iff, Prod.mk.injEq] at hi
  obtain ⟨⟨req', phase⟩, hq, rfl, hphase⟩ := hi
  -- the channel's step, whichever it is
  have hstep : ∃ d chan, (d = .verify i ∨ ∃ env', d = .write i env') ∧ chanStep V F s.chan d = some chan ∧
      ∃ d' : ServeEvent, d'.Inner out ∧ serveStep V F host s d' =
        (sendNew .write s.chan.acks chan.acks s.box).map fun box => { s with chan, box } := by
    cases phase with
    | spawned =>
      obtain ⟨chan, hchan⟩ : ∃ chan, chanStep V F s.chan (.verify i) = some chan := by
        simp only [chanStep, hq]
        split <;> exact ⟨_, rfl⟩
      exact ⟨_, chan, Or.inl rfl, hchan, .verify i, trivial, by simp only [serveStep, hchan, Option.bind_some]⟩
    | verified =>
      obtain ⟨env, henv⟩ := Option.isSome_iff_exists.mp hout
      obtain ⟨chan, hchan⟩ : ∃ chan, chanStep V F s.chan (.write i env) = some chan := by
        simp only [chanStep, hq]
        exact ⟨_, rfl⟩
      exact ⟨_, chan, Or.inr ⟨env, rfl⟩, hchan, .write i env, henv, by
        simp only [serveStep, hchan, Option.bind_some]⟩
    | answered => simp at hphase
  obtain ⟨d, chan, hd, hchan, d', hinner, hserve⟩ := hstep
  obtain ⟨req, phase', hreq, hne, hcases⟩ := task_step hd hchan
  rcases hcases with ⟨rfl, htasks, hacks⟩ | ⟨ack, htasks, hacks, -⟩
  · rw [hacks, sendNew_self] at hserve
    refine ⟨d', _, hinner, hserve, rfl, ?_⟩
    have hlt := sum_set_lt (f := fun t : Json × Phase => t.2.left) (y := (req, .verified)) hreq
      Nat.one_lt_two
    simp only [Connection.left, htasks]
    omega
  · obtain ⟨box, hbox⟩ := hpost (.text ack)
    rw [hacks, sendNew_snoc, hbox] at hserve
    refine ⟨d', _, hinner, hserve, (Mailbox.made_post hbox).2.2, ?_⟩
    have hlt := sum_set_lt (f := fun t : Json × Phase => t.2.left) (y := (req, .answered)) hreq
      (Phase.left_pos hne)
    simp only [Connection.left, htasks]
    omega

theorem handler_goes_on (hi : (Ask.subscribe.tasks s)[i]? = some (req, false))
    (hpost : ∀ f, ∃ box, s.box.post (.subscribe i) f = some box) : ∃ d t, d.Inner out ∧
      serveStep V F host s d = some t ∧ t.box.live = s.box.live ∧ t.left < s.left := by
  simp only [Ask.tasks, List.getElem?_map, Option.map_eq_some_iff, Prod.mk.injEq] at hi
  obtain ⟨⟨req', phase⟩, hq, rfl, hphase⟩ := hi
  cases phase with
  | started =>
    have hstep : serveStep V F host s (.check i) = some (s.withSubs { s.subs with
        handlers := s.subs.handlers.set i (req', .checked (subscribeConn host s.chan.connectors req')) }) := by
      simp only [serveStep, subStep, hq, Option.map_some]
    refine ⟨.check i, _, trivial, hstep, rfl, ?_⟩
    have hlt := sum_set_lt (f := fun h : Json × SubPhase => h.2.left)
      (y := (req', .checked (subscribeConn host s.chan.connectors req'))) hq Nat.one_lt_two
    simp only [Connection.left, Connection.withSubs]
    omega
  | checked conn =>
    obtain ⟨subs, hsubs⟩ : ∃ subs, subStep s.subs (.ack i) = some subs := by
      simp only [subStep, hq]
      exact ⟨_, rfl⟩
    obtain ⟨req, phase, phase', b, hreq, -, hacked, hhandlers, hacks⟩ := acked_step hsubs
    obtain ⟨box, hbox⟩ := hpost (.text (subscribeAck (requestId req) b))
    refine ⟨.ack i, { s with subs, box }, trivial, by
      simp only [serveStep, hsubs, Option.bind_some, hacks, sendNew_snoc, hbox, Option.map_some],
      (Mailbox.made_post hbox).2.2, ?_⟩
    obtain ⟨rfl, rfl⟩ := Prod.mk.inj (Option.some.inj (hreq.symm.trans hq))
    have hlt := sum_set_lt (f := fun h : Json × SubPhase => h.2.left) (y := (req, phase')) hreq
      (by rw [SubPhase.left_of_acked hacked]; exact Nat.zero_lt_one)
    simp only [Connection.left, hhandlers]
    omega
  | spawning c handles => cases hphase
  | finished => cases hphase

end

/-- While the writer runs, the tasks can go on until each has answered that is not left
waiting. -/
theorem tasks_finish (o : Outside) (n : ℕ) : ∀ {es : List ServeEvent} {s : Connection},
    run (serveStep V F host) (serveStart version args a) es = some s → s.box.live = true → s.left < n →
    ∃ ds t, run (serveStep V F host) s ds = some t ∧ (∀ d ∈ ds, d.Inner o) ∧ t.box.live = true ∧
      ∀ (k : Ask) (i : ℕ) (x : Json × Bool), (k.tasks t)[i]? = some x → o.Answers k i → x.2 = true := by
  induction n with
  | zero => exact fun _ _ hn => absurd hn (Nat.not_lt_zero _)
  | succ n ih =>
    intro es s h hlive hn
    by_cases hall : ∀ (k : Ask) (i : ℕ) (x : Json × Bool), (k.tasks s)[i]? = some x → o.Answers k i → x.2 = true
    · exact ⟨[], s, rfl, fun _ hd => absurd hd List.not_mem_nil, hlive, hall⟩
    · obtain ⟨k, i, x, hi, hout, hfalse⟩ : ∃ (k : Ask) (i : ℕ) (x : Json × Bool), (k.tasks s)[i]? = some x ∧
          o.Answers k i ∧ x.2 = false := by
        by_contra hnone
        exact hall fun k i x hi hout => Bool.eq_true_of_not_eq_false fun hfalse => hnone ⟨k, i, x, hi, hout, hfalse⟩
      have hi : (k.tasks s)[i]? = some (x.1, false) := hfalse ▸ hi
      have hpost := post_of_silent (boxInv_run h) (answers_run k h) hlive hi
      obtain ⟨d, t, hd, hstep, hlive', hlt⟩ : ∃ d t, d.Inner o ∧ serveStep V F host s d = some t ∧
          t.box.live = s.box.live ∧ t.left < s.left := by
        cases k with
        | query => exact query_goes_on hout hi hpost
        | write => exact write_goes_on hout hi hpost
        | subscribe => exact handler_goes_on hi hpost
      obtain ⟨ds, u, hrun, hds, hu⟩ := ih (run_snoc.mpr ⟨s, h, hstep⟩) (hlive'.trans hlive) (by omega)
      exact ⟨d :: ds, u, run_cons.mpr ⟨t, hstep, hrun⟩, List.forall_mem_cons.mpr ⟨hd, hds⟩, hu⟩

/-- What the queue can do by itself, the connection can. -/
theorem run_onward (o : Outside) : ∀ {ds : List (Mailbox.Event Sender Frame)}
    {s : Connection} {box : Mailbox Sender Frame}, run (Mailbox.step writerQueue) s.box ds = some box →
    (∀ d ∈ ds, d.Onward) →
    ∃ es, run (serveStep V F host) s es = some { s with box } ∧ ∀ e ∈ es, e.Inner o
  | [], s, box, h, _ => by
    obtain rfl := Option.some.inj h
    exact ⟨[], rfl, fun _ he => absurd he List.not_mem_nil⟩
  | d :: ds, s, box, h, hds => by
    obtain ⟨b, hb, hrun⟩ := run_cons.mp h
    obtain ⟨hd, hds⟩ := List.forall_mem_cons.mp hds
    obtain ⟨es, hes, hinner⟩ := run_onward o (s := { s with box := b }) hrun hds
    cases d with
    | accept j =>
      have haccept : s.box.accept writerQueue j = some b := hb
      exact ⟨.accept j :: es, run_cons.mpr ⟨_, by simp only [serveStep, haccept, Option.map_some], hes⟩,
        List.forall_mem_cons.mpr ⟨trivial, hinner⟩⟩
    | deliver =>
      have hdeliver : s.box.deliver = some b := hb
      exact ⟨.deliver :: es, run_cons.mpr ⟨_, by simp only [serveStep, hdeliver, Option.map_some], hes⟩,
        List.forall_mem_cons.mpr ⟨trivial, hinner⟩⟩
    | post who m => exact hd.elim
    | cancel gone => exact hd.elim
    | stop => exact hd.elim

theorem requests_inner {o : Outside} (k : Ask) : ∀ {ds : List ServeEvent}
    {s t : Connection}, run (serveStep V F host) s ds = some t → (∀ d ∈ ds, d.Inner o) →
    (k.tasks t).map Prod.fst = (k.tasks s).map Prod.fst
  | [], s, t, h, _ => by
    obtain rfl := Option.some.inj h
    rfl
  | d :: ds, s, t, h, hds => by
    obtain ⟨u, hu, hrun⟩ := run_cons.mp h
    obtain ⟨hd, hds⟩ := List.forall_mem_cons.mp hds
    rw [requests_inner k hrun hds, requests_step k hu, spawns_of_inner hd, List.append_nil]

/-- **The connection keeps no request waiting.** From every state that a run of a
connection reaches while its writer runs, whatever each device and plugin says to each
request, and whichever requests they never answer: the tasks and the writer alone can go
on, without another frame from the other side, until every query, write and subscribe
request that came, but for those, has its one answer out. -/
theorem answerable (h : run (serveStep V F host) (serveStart version args a) es = some s)
    (hlive : s.box.live = true) (o : Outside) : ∃ ds t,
    run (serveStep V F host) s ds = some t ∧ (∀ d ∈ ds, d.Inner o) ∧
      ∀ (k : Ask) (i : ℕ) (req : Json), (es.flatMap k.spawns)[i]? = some req → o.Answers k i →
        ∃ f, k.Reply req f ∧ Mailbox.sent (k.sender i) t.box.out = [(k.sender i, f)] := by
  obtain ⟨ds, t, hrun, hds, hlive', hall⟩ := tasks_finish o (s.left + 1) h hlive (Nat.lt_succ_self _)
  obtain ⟨cs, box, hcs, hon, hw, hq, hlive'', hmade, -⟩ :=
    Mailbox.drains (b := t.box) (show 0 < writerQueue by decide) _ hlive' (Nat.le_refl _)
  obtain ⟨ds', hrun', hds'⟩ := run_onward (V := V) (F := F) o hcs hon
  have hrunAll := run_append.mpr ⟨t, hrun, hrun'⟩
  refine ⟨ds ++ ds', { t with box }, hrunAll, List.forall_mem_append.mpr ⟨hds, hds'⟩,
    fun k i req hi hout => ?_⟩
  have hfull := run_append.mpr ⟨s, h, hrunAll⟩
  have hbox := boxInv_run hfull
  -- the task of the request, which is done
  have hfst : (k.tasks t).map Prod.fst = es.flatMap k.spawns :=
    (requests_inner k hrun hds).trans (requests_run k h)
  rw [← hfst, List.getElem?_map] at hi
  obtain ⟨x, hx, rfl⟩ := Option.map_eq_some_iff.mp hi
  have hdone : x.2 = true := hall k i x hx hout
  have hx : (k.tasks t)[i]? = some (x.1, true) := hdone ▸ hx
  exact (answers_run k hfull).drained hbox.kept hlive'' (hbox.not_cancelled k i) hw hq hx

/-- Nothing answers the first of two queries. -/
theorem answerable_queried : ∃ ds t f,
    run (serveStep signedOnce plainFloat ⟨[]⟩) (serveStart "1" plainArgs plainAgent)
      (.text unknownQuery [] :: .text unknownQuery [] :: ds) = some t ∧
    Ask.query.Reply unknownQuery f ∧ Mailbox.sent (.query 1) t.box.out = [(.query 1, f)] := by
  obtain ⟨s, hs⟩ : ∃ s, run (serveStep signedOnce plainFloat ⟨[]⟩) (serveStart "1" plainArgs plainAgent)
      [.text unknownQuery [], .text unknownQuery []] = some s := Option.isSome_iff_exists.mp (by decide +kernel)
  have hlive : s.box.live = true := by
    obtain rfl := Option.some.inj hs
    rfl
  obtain ⟨ds, t, hrun, -, hall⟩ := answerable hs hlive
    ⟨fun i => if i = 0 then none else some (.error ""), fun _ => none⟩
  obtain ⟨f, hreply, hout⟩ := hall .query 1 unknownQuery rfl rfl
  exact ⟨ds, t, f, run_append.mpr ⟨s, hs, hrun⟩, hreply, hout⟩

end Control
end LymonAgent
