/-
# The streamer

`src/ingest_client.rs`: one task connects to the ingest service, resends what
was in flight when it last lost the connection (`recover_in_flight`), and then
claims a batch, sends it, waits for its acknowledgement and settles it in the
buffer, over and over. Producers call `enqueue_with_origin` at any time. An
error at any await ends the attempt and `run` starts another one; a crash loses
everything but the tables.

`step` is one move of the agent, between two awaits of `run_one_attempt` or one
call of a producer. Which acknowledgement arrives next is the environment's
choice, and so is every failure.

The streamer is lock-step: at most one batch is in flight, it is the one the
streamer holds, and what it holds is what the table says (`Inv`).

Left out: endpoint, TLS and the API key, which only decide whether a connection
is made, and the log lines.

Key definitions: `Agent`, `Event`, `step`, `Inv`.
Key theorems: `step_does`, `inv_step`.
-/
import LymonAgent.Ingest.BufferInv

namespace LymonAgent
namespace Ingest

open Rowid Runs

/-! ### Messages -/

inductive AckStatus where
  | unspecified
  | ok
  | duplicate
  | rejected
  | retry
  deriving DecidableEq

/-- The statuses on the wire: the `i32` values the protobuf definition gives
them and the `TryFrom<i32>` generated with it. -/
structure AckCodes where
  toI32 : AckStatus → ℤ
  tryFrom : ℤ → Option AckStatus
  tryFrom_toI32 : ∀ s, tryFrom (toI32 s) = some s

structure BatchAck where
  batchId : String
  status : ℤ
  deriving DecidableEq

structure SampleBatch where
  batchId : String
  agentId : String
  datasourceId : String
  sentAtMs : ℤ
  samples : List Sample
  deriving DecidableEq

structure StreamerConfig extends BufferConfig where
  agentId : String
  datasourceId : String
  codes : AckCodes

/-- `max_batch_size`. -/
def maxBatchSize : UInt64 := 1000

/-- The status of an acknowledgement that names the batch in flight. -/
def resolveAck (codes : AckCodes) (ack : BatchAck) (inFlightBatchId : String) : Option AckStatus :=
  if ack.batchId ≠ inFlightBatchId then none
  else some ((codes.tryFrom ack.status).getD .unspecified)

/-- The statuses that make the streamer delete the batch. -/
def AckStatus.delivers : AckStatus → Bool
  | .ok | .duplicate | .rejected => true
  | .retry | .unspecified => false

/-! ### The agent -/

/-- Where the batch in hand came from: the list `recover_in_flight` returned,
with what is left of it, or a claim. -/
inductive Source where
  | recovered (rest : List ClaimedBatch)
  | claimed
  deriving DecidableEq

/-- The await `run` is at: between attempts, in front of `recover_in_flight`,
in front of `claim_batch`, or in `send_and_ack` before the send, before the
acknowledgement, or before the buffer call. -/
inductive Pc where
  | down
  | opened
  | claiming
  | sending (k : ClaimedBatch) (src : Source)
  | waiting (k : ClaimedBatch) (src : Source)
  | resolved (id : String) (status : AckStatus) (src : Source)
  deriving DecidableEq

/-- A message pushed onto the stream opened as number `epoch`. `origin` and
`rows` are not on the wire: the origin of the batch, and the ids of the rows
tagged with it. -/
structure Sent where
  epoch : ℕ
  batch : SampleBatch
  origin : Option String
  rows : List ℕ
  deriving DecidableEq

structure Agent where
  buf : BufferDb
  pc : Pc
  backoffSecs : ℕ
  epoch : ℕ
  sent : List Sent

inductive Event where
  | enqueue (origin : Option String) (samples : Vec Sample) (fault : Option Stmt)
  | connect
  | recover (fault : Bool)
  | claim (ulid : String) (nowMs : ℤ) (fault : Bool)
  | send (nowMs : ℤ)
  | recvAck (ack : BatchAck)
  | settle (fault : Bool)
  | fail
  | crash

/-- The rest of the recovered batches, then the main loop. -/
def next : List ClaimedBatch → Pc
  | [] => .claiming
  | k :: rest => .sending k (.recovered rest)

def Source.next : Source → Pc
  | .recovered rest => Ingest.next rest
  | .claimed => .claiming

/-- Only the main loop resets the backoff after a batch. -/
def Source.backoff (current : ℕ) : Source → ℕ
  | .recovered _ => current
  | .claimed => 1

/-- The attempt ends with an error; `run` sleeps and doubles the backoff. -/
def failed (s : Agent) : Agent :=
  { s with pc := .down, backoffSecs := min (s.backoffSecs * 2) 60 }

/-- An agent started on a buffer. -/
def start (b : BufferDb) : Agent := ⟨b, .down, 1, 0, []⟩

section

variable (c : StreamerConfig)

def sampleBatch (k : ClaimedBatch) (nowMs : ℤ) : SampleBatch where
  batchId := k.batchId
  agentId := c.agentId
  datasourceId := k.origin.getD c.datasourceId
  sentAtMs := nowMs
  samples := k.samples

/-- What `send_and_ack` does with a resolved acknowledgement. -/
def settleAck (b : BufferDb) (id : String) (status : AckStatus) (fault : Bool) :
    BufferDb × Except DbError Unit :=
  match status with
  | .ok | .duplicate => ackOk b id fault
  | .rejected => ackOk b id fault
  | .retry => ackRetry b id fault
  | .unspecified => ackRetry b id fault

def step (s : Agent) : Event → Option Agent
  | .enqueue origin samples fault =>
    some { s with buf := (enqueueWithOrigin c.toBufferConfig s.buf origin samples fault).1 }
  | .connect =>
    match s.pc with
    | .down => some { s with pc := .opened, epoch := s.epoch + 1 }
    | _ => none
  | .recover fault =>
    match s.pc with
    | .opened =>
      if fault then some (failed s)
      else some { s with pc := next (recoverInFlight c.toBufferConfig s.buf) }
    | _ => none
  | .claim ulid nowMs fault =>
    match s.pc with
    | .claiming =>
      if ulid ∈ s.buf.ulids then none
      else
        match claimBatch c.toBufferConfig s.buf maxBatchSize ulid nowMs fault with
        | (b, .ok (some k)) => some { s with buf := b, pc := .sending k .claimed }
        | (b, .ok none) => some { s with buf := b }
        | (b, .error _) => some (failed { s with buf := b })
    | _ => none
  | .send nowMs =>
    match s.pc with
    | .sending k src =>
      some { s with
        pc := .waiting k src
        sent := s.sent ++ [⟨s.epoch, sampleBatch c k nowMs, k.origin,
          (batchRows s.buf k.batchId).map Prod.fst⟩] }
    | _ => none
  | .recvAck ack =>
    match s.pc with
    | .waiting k src =>
      match resolveAck c.codes ack k.batchId with
      | some status => some { s with pc := .resolved k.batchId status src }
      | none => some s
    | _ => none
  | .settle fault =>
    match s.pc with
    | .resolved id status src =>
      match settleAck s.buf id status fault with
      | (b, .ok _) => some { s with buf := b, pc := src.next, backoffSecs := src.backoff s.backoffSecs }
      | (b, .error _) => some (failed { s with buf := b })
    | _ => none
  | .fail =>
    -- connecting, pushing the batch and reading the acknowledgement can fail
    match s.pc with
    | .down | .sending _ _ | .waiting _ _ => some (failed s)
    | _ => none
  | .crash => some { s with buf := reopen s.buf, pc := .down, backoffSecs := 1 }

/-! ### What a move can be -/

/-- The buffer operation behind an event of the agent. -/
inductive Does (s : Agent) : Event → Op → Prop
  | enqueue (o : Option String) (ss : Vec Sample) (f : Option Stmt) :
      Does s (.enqueue o ss f) (.enqueue o ss f)
  | claim (u : String) (n : ℤ) (f : Bool) : s.pc = .claiming →
      Does s (.claim u n f) (.claim maxBatchSize u n f)
  | ackOk {id : String} {st : AckStatus} {src : Source} (f : Bool) :
      s.pc = .resolved id st src → st.delivers = true → Does s (.settle f) (.ackOk id f)
  | ackRetry {id : String} {st : AckStatus} {src : Source} (f : Bool) :
      s.pc = .resolved id st src → st.delivers = false → Does s (.settle f) (.ackRetry id f)
  | reopen : Does s .crash .reopen

/-- Every way the agent moves, with its guard. -/
inductive Moves (s : Agent) : Event → Agent → Prop
  | enqueue (o : Option String) (ss : Vec Sample) (f : Option Stmt) :
      Moves s (.enqueue o ss f)
        { s with buf := (enqueueWithOrigin c.toBufferConfig s.buf o ss f).1 }
  | connect : s.pc = .down →
      Moves s .connect { s with pc := .opened, epoch := s.epoch + 1 }
  | recover : s.pc = .opened →
      Moves s (.recover false) { s with pc := next (recoverInFlight c.toBufferConfig s.buf) }
  | lost {e : Event} : Moves s e (failed s)
  | claim {u : String} {n : ℤ} {b : BufferDb} {k : ClaimedBatch} : s.pc = .claiming →
      u ∉ s.buf.ulids →
      claimBatch c.toBufferConfig s.buf maxBatchSize u n false = (b, .ok (some k)) →
      Moves s (.claim u n false) { s with buf := b, pc := .sending k .claimed }
  | idle {u : String} {n : ℤ} : s.pc = .claiming → Moves s (.claim u n false) s
  | claimFailed {u : String} {n : ℤ} {f : Bool} {b : BufferDb} {err : DbError} :
      s.pc = .claiming → u ∉ s.buf.ulids →
      claimBatch c.toBufferConfig s.buf maxBatchSize u n f = (b, .error err) →
      Moves s (.claim u n f) (failed { s with buf := b })
  | send {n : ℤ} {k : ClaimedBatch} {src : Source} : s.pc = .sending k src →
      Moves s (.send n) { s with
        pc := .waiting k src
        sent := s.sent ++ [⟨s.epoch, sampleBatch c k n, k.origin,
          (batchRows s.buf k.batchId).map Prod.fst⟩] }
  | discard {ack : BatchAck} {k : ClaimedBatch} {src : Source} : s.pc = .waiting k src →
      ack.batchId ≠ k.batchId → Moves s (.recvAck ack) s
  | recvAck {ack : BatchAck} {k : ClaimedBatch} {src : Source} {st : AckStatus} :
      s.pc = .waiting k src → ack.batchId = k.batchId →
      st = (c.codes.tryFrom ack.status).getD .unspecified →
      Moves s (.recvAck ack) { s with pc := .resolved k.batchId st src }
  | ackOk {id : String} {st : AckStatus} {src : Source} : s.pc = .resolved id st src →
      st.delivers = true →
      Moves s (.settle false) { s with
        buf := (ackOk s.buf id false).1, pc := src.next, backoffSecs := src.backoff s.backoffSecs }
  | ackRetry {id : String} {st : AckStatus} {src : Source} : s.pc = .resolved id st src →
      st.delivers = false →
      Moves s (.settle false) { s with
        buf := (ackRetry s.buf id false).1, pc := src.next, backoffSecs := src.backoff s.backoffSecs }
  | crash : Moves s .crash { s with buf := reopen s.buf, pc := .down, backoffSecs := 1 }

end

/-- The two buffer calls behind the five statuses. -/
theorem settleAck_eq (b : BufferDb) (id : String) (st : AckStatus) (fault : Bool) :
    settleAck b id st fault = if st.delivers then ackOk b id fault else ackRetry b id fault := by
  cases st <;> rfl

theorem settleAck_fault (b : BufferDb) (id : String) (st : AckStatus) :
    settleAck b id st true = (b, .error .io) := by
  cases st <;> rfl

variable {c : StreamerConfig} {s t : Agent} {e : Event}

theorem step_moves (h : step c s e = some t) : Moves c s e t := by
  cases e with
  | enqueue o ss f =>
    obtain rfl := Option.some.inj h
    exact .enqueue o ss f
  | connect =>
    simp only [step] at h
    split at h
    · rename_i hpc
      obtain rfl := Option.some.inj h
      exact .connect hpc
    · cases h
  | recover f =>
    simp only [step] at h
    split at h
    · rename_i hpc
      split at h
      · obtain rfl := Option.some.inj h
        exact .lost
      · rename_i hf
        obtain rfl := Option.some.inj h
        rw [Bool.not_eq_true] at hf
        exact hf ▸ .recover hpc
    · cases h
  | claim u n f =>
    simp only [step] at h
    split at h
    · rename_i hpc
      split at h
      · cases h
      · rename_i hu
        rcases claimBatch_cases c.toBufferConfig s.buf maxBatchSize u n f with
          ⟨rfl, hc⟩ | ⟨us, e, -, hc⟩ | ⟨x, v, -, -, rfl, -, hc⟩
        · simp only [hc] at h
          obtain rfl := Option.some.inj h
          exact .idle hpc
        · simp only [hc] at h
          obtain rfl := Option.some.inj h
          exact .claimFailed hpc hu hc
        · simp only [hc] at h
          obtain rfl := Option.some.inj h
          exact .claim hpc hu hc
    · cases h
  | send n =>
    simp only [step] at h
    split at h
    · rename_i k src hpc
      obtain rfl := Option.some.inj h
      exact .send hpc
    · cases h
  | recvAck ack =>
    simp only [step] at h
    split at h
    · rename_i k src hpc
      unfold resolveAck at h
      by_cases hid : ack.batchId = k.batchId
      · simp only [hid, ne_eq, not_true_eq_false, if_false] at h
        obtain rfl := Option.some.inj h
        exact .recvAck hpc hid rfl
      · simp only [hid, ne_eq, not_false_eq_true, if_true] at h
        obtain rfl := Option.some.inj h
        exact .discard hpc hid
    · cases h
  | settle f =>
    simp only [step] at h
    split at h
    · rename_i id st src hpc
      cases f with
      | true =>
        simp only [settleAck_fault] at h
        obtain rfl := Option.some.inj h
        exact .lost
      | false =>
        cases hd : st.delivers with
        | true =>
          have hok : settleAck s.buf id st false = ((ackOk s.buf id false).1, .ok ()) := by
            rw [settleAck_eq, hd]
            rfl
          simp only [hok] at h
          obtain rfl := Option.some.inj h
          exact .ackOk hpc hd
        | false =>
          have hok : settleAck s.buf id st false = ((ackRetry s.buf id false).1, .ok ()) := by
            rw [settleAck_eq, hd]
            rfl
          simp only [hok] at h
          obtain rfl := Option.some.inj h
          exact .ackRetry hpc hd
    · cases h
  | fail =>
    simp only [step] at h
    split at h
    · obtain rfl := Option.some.inj h; exact .lost
    · obtain rfl := Option.some.inj h; exact .lost
    · obtain rfl := Option.some.inj h; exact .lost
    · cases h
  | crash =>
    obtain rfl := Option.some.inj h
    exact .crash

/-- A move is at most one buffer operation. -/
theorem Moves.does (h : Moves c s e t) :
    t.buf = s.buf ∨ ∃ op, Does s e op ∧ opStep c.toBufferConfig s.buf op = some t.buf := by
  cases h with
  | enqueue o ss f => exact Or.inr ⟨_, .enqueue o ss f, rfl⟩
  | connect _ => exact Or.inl rfl
  | recover _ => exact Or.inl rfl
  | lost => exact Or.inl rfl
  | claim hpc hu hc => exact Or.inr ⟨_, .claim _ _ _ hpc, by simp [opStep, hu, hc]⟩
  | idle _ => exact Or.inl rfl
  | claimFailed hpc hu hc => exact Or.inr ⟨_, .claim _ _ _ hpc, by simp [opStep, hu, hc, failed]⟩
  | send _ => exact Or.inl rfl
  | discard _ _ => exact Or.inl rfl
  | recvAck _ _ _ => exact Or.inl rfl
  | ackOk hpc hd => exact Or.inr ⟨_, .ackOk false hpc hd, rfl⟩
  | ackRetry hpc hd => exact Or.inr ⟨_, .ackRetry false hpc hd, rfl⟩
  | crash => exact Or.inr ⟨_, .reopen, rfl⟩

theorem step_does (h : step c s e = some t) :
    t.buf = s.buf ∨ ∃ op, Does s e op ∧ Effect c.toBufferConfig s.buf t.buf op :=
  (step_moves h).does.imp_right fun ⟨op, hd, ho⟩ => ⟨op, hd, op_cases ho⟩

/-- The agent refines the buffer: every run of the agent is, on the tables, a
run of buffer operations. -/
theorem buf_run {es : List Event} (h : run (step c) s es = some t) :
    ∃ ops, run (opStep c.toBufferConfig) s.buf ops = some t.buf := by
  refine sim_run Agent.buf (fun s e t hst => ?_) h
  rcases (step_moves hst).does with hb | ⟨op, -, ho⟩
  · exact ⟨[], by rw [hb]; rfl⟩
  · exact ⟨[op], by simp [run, ho]⟩

/-! ### Lock-step -/

/-- The batch in hand is what the table holds under its id. -/
def Loaded (c : StreamerConfig) (b : BufferDb) (k : ClaimedBatch) : Prop :=
  k.samples = (batchRows b k.batchId).map (fun x => sampleOf c.toBufferConfig x.2) ∧
    ∀ x ∈ batchRows b k.batchId, x.2.origin = k.origin

def Source.rest : Source → List ClaimedBatch
  | .recovered rest => rest
  | .claimed => []

/-- What the program counter says about the batches in flight. -/
def PcInv (c : StreamerConfig) (b : BufferDb) : Pc → Prop
  | .down | .opened => (inFlight b).length ≤ 1
  | .claiming => inFlight b = []
  | .sending k src | .waiting k src =>
    src.rest = [] ∧ inFlight b = [k.batchId] ∧ Loaded c b k
  | .resolved id _ src => src.rest = [] ∧ inFlight b = [id]

structure Inv (c : StreamerConfig) (s : Agent) : Prop where
  rep : RepInv s.buf
  pc : PcInv c s.buf s.pc
  size : ∀ id, (batchRows s.buf id).length ≤ 1000

theorem inv_start : Inv c (start openNew) where
  rep := repInv_openNew
  pc := Nat.zero_le _
  size := fun id => by simp [start, openNew, batchRows, Table.select]

theorem PcInv.length_le {b : BufferDb} {pc : Pc} (h : PcInv c b pc) : (inFlight b).length ≤ 1 := by
  cases pc with
  | down => exact h
  | opened => exact h
  | claiming => rw [show inFlight b = [] from h]; exact Nat.zero_le _
  | sending k src => rw [h.2.1]; exact le_rfl
  | waiting k src => rw [h.2.1]; exact le_rfl
  | resolved id st src => rw [h.2]; exact le_rfl

theorem Source.next_of_rest {src : Source} (h : src.rest = []) : src.next = .claiming := by
  cases src with
  | recovered rest => simp only [Source.rest] at h; rw [h]; rfl
  | claimed => rfl

theorem settled_singleton {b : BufferDb} {id : String} (h : inFlight b = [id]) :
    (settled id b.db.inFlightBatches).map Prod.fst = [] := by
  rw [List.eq_nil_iff_forall_not_mem]
  intro i hi
  obtain ⟨h1, h2⟩ := mem_settled.mp hi
  have : i ∈ inFlight b := h1
  rw [h] at this
  exact h2 (List.mem_singleton.mp this)

/-- A program counter's claim depends on the batches in flight and their rows. -/
theorem PcInv.congr {b b' : BufferDb} (hf : inFlight b' = inFlight b)
    (hr : ∀ id, batchRows b' id = batchRows b id) {pc : Pc} (h : PcInv c b pc) : PcInv c b' pc := by
  cases pc <;> simp only [PcInv, Loaded, hf, hr] at h ⊢ <;> exact h

theorem pcInv_next {b : BufferDb} (hb : RepInv b) (hl : (inFlight b).length ≤ 1) :
    PcInv c b (next (recoverInFlight c.toBufferConfig b)) := by
  have hperm := perm_inFlightIds b
  have hloaded : ∀ k ∈ recoverInFlight c.toBufferConfig b, Loaded c b k := by
    intro k hk
    obtain ⟨-, hs, ho⟩ := mem_recoverInFlight hk
    exact ⟨hs, fun x hx => by rw [ho, originOf_eq hb hx]⟩
  have hids : (recoverInFlight c.toBufferConfig b).map (·.batchId) = inFlightIds b.db := by
    simp [recoverInFlight, Function.comp_def]
  cases hrec : recoverInFlight c.toBufferConfig b with
  | nil =>
    rw [hrec, List.map_nil] at hids
    rw [← hids] at hperm
    exact List.nil_perm.mp hperm
  | cons k rest =>
    rw [hrec] at hids
    have hlen : (k :: rest).length ≤ 1 := by
      rw [← List.length_map (f := (·.batchId)), hids, hperm.length_eq]; exact hl
    obtain rfl : rest = [] := by
      cases rest with
      | nil => rfl
      | cons _ _ => simp at hlen
    refine ⟨rfl, ?_, hloaded k (by rw [hrec]; exact List.mem_singleton_self k)⟩
    have hp : [k.batchId].Perm (inFlight b) := by
      simpa [← hids] using hperm
    exact List.perm_singleton.mp hp.symm

/-- A claim puts the new batch in flight after the others, and what it returns
is what the table holds. -/
theorem claimBatch_some {b b' : BufferDb} (hb : RepInv b) {m : UInt64} {u : String} {n : ℤ}
    {f : Bool} {k : ClaimedBatch} (hu : u ∉ b.ulids)
    (h : claimBatch c.toBufferConfig b m u n f = (b', .ok (some k))) :
    k.batchId = u ∧ inFlight b' = inFlight b ++ [u] ∧ Loaded c b' k := by
  rcases claimBatch_cases c.toBufferConfig b m u n f with
    ⟨-, hc⟩ | ⟨us, e, -, hc⟩ | ⟨x, v, hx, hne, rfl, rfl, hc⟩
  · simp [hc] at h
  · simp [hc] at h
  · have hclaim := hc
    rw [h, Prod.mk.injEq, Except.ok.injEq, Option.some.injEq] at hc
    obtain ⟨rfl, rfl⟩ := hc
    refine ⟨rfl, by simp [inFlight], rfl, fun y hy => ?_⟩
    exact (mem_batchRows_claim hx (rows_setAll_setBatch _ _ _) (hb.batchRows_eq_nil hu) hy).2

theorem Does.length_batchRows_le (hs : Inv c s) {op : Op} (hd : Does s e op)
    (he : Effect c.toBufferConfig s.buf t.buf op) (id : String) :
    (batchRows t.buf id).length ≤ 1000 := by
  by_cases hn : op.names id
  · rcases he.named hs.rep hn with ⟨-, hr⟩ | ⟨hu, hf, -⟩ | ⟨-, hr⟩
    · rw [hr]; exact hs.size id
    · have h0 : id ∉ inFlight s.buf := fun h => hu (hs.rep.drawn id h)
      have h1 : id ∈ inFlight t.buf := by simp [hf]
      obtain ⟨m, now, f, rfl⟩ := he.claim_of_mem_inFlight h0 h1
      cases hd
      exact (length_batchRows_claim he hs.rep h0 h1).2
    · rw [hr]; exact Nat.zero_le _
  · rw [he.batchRows_eq hn]; exact hs.size id

theorem size_step (hs : Inv c s) (h : step c s e = some t) (id : String) :
    (batchRows t.buf id).length ≤ 1000 := by
  rcases step_does h with hb | ⟨op, hd, he⟩
  · rw [hb]; exact hs.size id
  · exact hd.length_batchRows_le hs he id

theorem pcInv_step (hs : Inv c s) (h : step c s e = some t) : PcInv c t.buf t.pc := by
  have hpc := hs.pc
  have hlen := hpc.length_le
  cases step_moves h with
  | enqueue o ss f =>
    have he := enqueue_effect (c := c.toBufferConfig) s.buf o ss f
    exact hpc.congr (he.inFlight_eq fun _ => id) fun id => he.batchRows_eq not_false
  | connect _ => exact hlen
  | recover _ => exact pcInv_next hs.rep hlen
  | lost => exact hlen
  | claim hcl hu hc =>
    obtain ⟨hk, hf, hl⟩ := claimBatch_some hs.rep hu hc
    rw [hcl] at hpc
    refine ⟨rfl, ?_, hl⟩
    rw [hf, show inFlight s.buf = [] from hpc, hk]
    rfl
  | idle _ => exact hpc
  | @claimFailed u n f _ _ _ hu hc =>
    rcases claimBatch_cases c.toBufferConfig s.buf maxBatchSize u n f with
      ⟨-, h'⟩ | ⟨us, e', -, h'⟩ | ⟨_, _, -, -, -, -, h'⟩
    · simp [h'] at hc
    · rw [h', Prod.mk.injEq] at hc
      obtain ⟨rfl, -⟩ := hc
      exact hlen
    · simp [h'] at hc
  | send hk => rw [hk] at hpc; exact hpc
  | discard _ _ => exact hpc
  | recvAck hk _ _ => rw [hk] at hpc; exact ⟨hpc.1, hpc.2.1⟩
  | ackOk hr _ =>
    rw [hr] at hpc
    simp only [Source.next_of_rest hpc.1]
    exact settled_singleton hpc.2
  | ackRetry hr _ =>
    rw [hr] at hpc
    simp only [Source.next_of_rest hpc.1]
    exact settled_singleton hpc.2
  | crash => exact hlen

theorem inv_step (hs : Inv c s) (h : step c s e = some t) : Inv c t := by
  refine ⟨?_, pcInv_step hs h, size_step hs h⟩
  rcases step_does h with hb | ⟨op, -, he⟩
  · rw [hb]; exact hs.rep
  · exact he.repInv hs.rep

theorem inv_agent {es : List Event} (h : run (step c) (start openNew) es = some s) : Inv c s :=
  inv_run (fun _ _ _ hs ht => inv_step hs ht) inv_start h

end Ingest
end LymonAgent
