/-
# One batch and the acknowledgements that arrive

`send_and_ack` pushes a batch onto the stream and reads acknowledgements until
one names the batch; what the server sends is its own business: acknowledgements
of other batches, twice, out of order, with any status code, and the stream may
end at any point. `Streamer.step` has the same in single moves; here it is the
call as a whole, over the messages that arrive, and `sendAndAck_run` puts the two
together.

The first acknowledgement that names the batch decides, and only the batch's own
rows and its entry change (`ack_named_only`).

Key definitions: `awaitAck`, `sendAndAck`.
Key theorems: `awaitAck_eq`, `sendAndAck_run`, `ack_named_only`.
-/
import LymonAgent.Ingest.Streamer

namespace LymonAgent
namespace Ingest

open Rowid Runs

/-- How the inbound stream ends: the server closes it, or reading it fails. -/
inductive StreamEnd where
  | closed
  | status
  deriving DecidableEq

/-- What the server sends on the inbound stream. -/
structure Inbound where
  acks : List BatchAck
  ending : StreamEnd

inductive SendError where
  | push
  | closed
  | status
  | db (e : DbError)
  deriving DecidableEq

def StreamEnd.error : StreamEnd → SendError
  | .closed => .closed
  | .status => .status

/-- The loop of `send_and_ack`: the status of the first acknowledgement that
names the batch, and the messages behind it. -/
def awaitAck (codes : AckCodes) (id : String) (ending : StreamEnd) :
    List BatchAck → Except SendError (AckStatus × List BatchAck)
  | [] => .error ending.error
  | ack :: rest =>
    match resolveAck codes ack id with
    | some status => .ok (status, rest)
    | none => awaitAck codes id ending rest

section

variable (c : StreamerConfig)

/-- The buffer after the call, its result, and the messages it left unread.
`pushFails` and `fault` are the failures of the send and of the transaction at
the end. -/
def sendAndAck (b : BufferDb) (claimed : ClaimedBatch) (inbound : Inbound) (pushFails fault : Bool) :
    BufferDb × Except SendError Unit × List BatchAck :=
  if pushFails then (b, .error .push, inbound.acks)
  else
    match awaitAck c.codes claimed.batchId inbound.ending inbound.acks with
    | .error e => (b, .error e, [])
    | .ok (status, rest) =>
      match settleAck b claimed.batchId status fault with
      | (b, .ok _) => (b, .ok (), rest)
      | (b, .error e) => (b, .error (.db e), rest)

end

/-! ### Which acknowledgement decides -/

/-- The status an acknowledgement stands for, unknown codes included. -/
def BatchAck.decoded (codes : AckCodes) (ack : BatchAck) : AckStatus :=
  (codes.tryFrom ack.status).getD .unspecified

/-- The first acknowledgement that names the batch. -/
def firstNaming (id : String) (acks : List BatchAck) : Option BatchAck :=
  acks.find? fun a => decide (a.batchId = id)

variable {codes : AckCodes} {id : String} {ending : StreamEnd}

theorem resolveAck_named {ack : BatchAck} (h : ack.batchId = id) :
    resolveAck codes ack id = some (ack.decoded codes) := by
  simp [resolveAck, BatchAck.decoded, h]

theorem resolveAck_other {ack : BatchAck} (h : ack.batchId ≠ id) : resolveAck codes ack id = none := by
  simp [resolveAck, h]

/-- Acknowledgements of other batches are passed over. -/
theorem awaitAck_append {pre acks : List BatchAck} (h : ∀ a ∈ pre, a.batchId ≠ id) :
    awaitAck codes id ending (pre ++ acks) = awaitAck codes id ending acks := by
  induction pre with
  | nil => rfl
  | cons a pre ih =>
    rw [List.cons_append, awaitAck, resolveAck_other (h a List.mem_cons_self)]
    exact ih fun x hx => h x (List.mem_cons_of_mem _ hx)

theorem awaitAck_none {acks : List BatchAck} (h : firstNaming id acks = none) :
    awaitAck codes id ending acks = .error ending.error := by
  have hno : ∀ a ∈ acks, a.batchId ≠ id := by simpa [firstNaming] using h
  have happ : awaitAck codes id ending (acks ++ []) = awaitAck codes id ending [] :=
    awaitAck_append hno
  rw [List.append_nil] at happ
  rw [happ, awaitAck]

theorem firstNaming_split {acks : List BatchAck} {a : BatchAck} (h : firstNaming id acks = some a) :
    a.batchId = id ∧ ∃ pre post, acks = pre ++ a :: post ∧ ∀ x ∈ pre, x.batchId ≠ id := by
  obtain ⟨ha, pre, post, hsplit, hpre⟩ := List.find?_eq_some_iff_append.mp h
  exact ⟨by simpa using ha, pre, post, hsplit, fun x hx => by simpa using hpre x hx⟩

theorem awaitAck_some (codes : AckCodes) (ending : StreamEnd) {acks : List BatchAck} {a : BatchAck}
    (h : firstNaming id acks = some a) :
    ∃ pre post, acks = pre ++ a :: post ∧ (∀ x ∈ pre, x.batchId ≠ id) ∧
      awaitAck codes id ending acks = .ok (a.decoded codes, post) := by
  obtain ⟨ha, pre, post, rfl, hpre⟩ := firstNaming_split h
  refine ⟨pre, post, rfl, hpre, ?_⟩
  rw [awaitAck_append hpre, awaitAck, resolveAck_named ha]

/-! ### What the call does to the buffer -/

variable {c : StreamerConfig} {b : BufferDb} {k : ClaimedBatch} {inbound : Inbound}
  {pushFails fault : Bool}

/-- The rows and the entries of other batches than `id`, before and after. -/
structure Untouched (id : String) (b b' : BufferDb) : Prop where
  rows : (b'.db.pendingSamples.rows.filter fun x => decide (x.1 ∉ (batchRows b id).map Prod.fst)) =
    b.db.pendingSamples.rows.filter fun x => decide (x.1 ∉ (batchRows b id).map Prod.fst)
  entries : (b'.db.inFlightBatches.filter fun x => decide (x.1 ≠ id)) =
    b.db.inFlightBatches.filter fun x => decide (x.1 ≠ id)

theorem Untouched.refl (id : String) (b : BufferDb) : Untouched id b b := ⟨rfl, rfl⟩

theorem mem_ids_batchRows {x : ℕ × Row} (hx : x ∈ b.db.pendingSamples.rows) :
    x.1 ∈ (batchRows b id).map Prod.fst ↔ x.2.inBatch id = true := by
  have hsub : batchRows b id ⊆ b.db.pendingSamples.rows := List.filter_sublist.subset
  rw [Table.mem_ids_iff _ hsub hx]
  exact Table.mem_select.trans (and_iff_right hx)

theorem untouched_ackOk (id : String) (b : BufferDb) (fault : Bool) :
    Untouched id b (ackOk b id fault).1 := by
  cases fault with
  | true => exact .refl id b
  | false =>
    refine ⟨?_, ?_⟩
    · simp only [ackOk, Bool.false_eq_true, if_false, Table.rows_delete, List.filter_filter]
      refine List.filter_congr fun x hx => ?_
      by_cases h : x.2.inBatch id = true <;> simp [mem_ids_batchRows hx, h]
    · simp [ackOk, settled, List.filter_filter]

theorem untouched_ackRetry (id : String) (b : BufferDb) (fault : Bool) :
    Untouched id b (ackRetry b id fault).1 := by
  cases fault with
  | true => exact .refl id b
  | false =>
    refine ⟨?_, ?_⟩
    · simp only [ackRetry, Bool.false_eq_true, if_false, Table.rows_update]
      refine filter_changed fun x hx h => ?_
      have hid := (mem_ids_batchRows hx).mpr h
      simp [hid]
    · simp [ackRetry, settled, List.filter_filter]

theorem sendAndAck_pushFails :
    sendAndAck c b k inbound true fault = (b, .error .push, inbound.acks) := rfl

theorem sendAndAck_none (h : firstNaming k.batchId inbound.acks = none) :
    sendAndAck c b k inbound false fault = (b, .error inbound.ending.error, []) := by
  simp [sendAndAck, awaitAck_none h]

/-- The call where an acknowledgement names the batch. -/
theorem sendAndAck_some {a : BatchAck} (h : firstNaming k.batchId inbound.acks = some a) :
    ∃ pre post, inbound.acks = pre ++ a :: post ∧ (∀ x ∈ pre, x.batchId ≠ k.batchId) ∧
      sendAndAck c b k inbound false true = (b, .error (.db .io), post) ∧
      sendAndAck c b k inbound false false =
        ((if (a.decoded c.codes).delivers then ackOk b k.batchId false
          else ackRetry b k.batchId false).1, .ok (), post) := by
  obtain ⟨pre, post, hsplit, hpre, hawait⟩ :=
    awaitAck_some c.codes inbound.ending h
  refine ⟨pre, post, hsplit, hpre, ?_, ?_⟩
  · simp only [sendAndAck, hawait, settleAck_fault, Bool.false_eq_true, if_false]
  · simp only [sendAndAck, hawait, settleAck_eq, Bool.false_eq_true, if_false]
    cases (a.decoded c.codes).delivers <;> rfl

theorem untouched_sendAndAck (c : StreamerConfig) (b : BufferDb) (k : ClaimedBatch)
    (inbound : Inbound) (pushFails fault : Bool) :
    Untouched k.batchId b (sendAndAck c b k inbound pushFails fault).1 := by
  cases pushFails with
  | true => exact .refl _ b
  | false =>
    cases h : firstNaming k.batchId inbound.acks with
    | none =>
      rw [sendAndAck_none h]
      exact .refl _ b
    | some a =>
      obtain ⟨_, _, -, -, hfault, hok⟩ := sendAndAck_some (c := c) (b := b) h
      cases fault with
      | true =>
        rw [hfault]
        exact .refl _ b
      | false =>
        rw [hok]
        split
        · exact untouched_ackOk _ b false
        · exact untouched_ackRetry _ b false

/-! ### The call as moves of the streamer -/

/-- The moves of a call that got its batch out: it read the acknowledgements
`read` and then settled the batch or failed. -/
def callMoves (nowMs : ℤ) (read : List BatchAck) (last : Event) : List Event :=
  .send nowMs :: read.map .recvAck ++ [last]

/-- Acknowledgements of other batches leave the streamer waiting. -/
theorem run_discards {s : Agent} {src : Source} (hs : s.pc = .waiting k src) {pre : List BatchAck}
    (h : ∀ a ∈ pre, a.batchId ≠ k.batchId) : run (step c) s (pre.map .recvAck) = some s := by
  induction pre with
  | nil => rfl
  | cons a pre ih =>
    refine run_cons.mpr ⟨s, ?_, ih fun x hx => h x (List.mem_cons_of_mem _ hx)⟩
    simp [step, hs, resolveAck_other (h a List.mem_cons_self)]

theorem step_send {s : Agent} {src : Source} (hs : s.pc = .sending k src) (nowMs : ℤ) :
    ∃ t, step c s (.send nowMs) = some t ∧ t.pc = .waiting k src ∧ t.buf = s.buf := by
  simp only [step, hs]
  exact ⟨_, rfl, rfl, rfl⟩

/-- **The call is a run of the streamer.** A streamer in front of the send that
makes the moves of the call ends with the buffer of the call, in front of its
next batch where the call returned and between two attempts where it failed. -/
theorem sendAndAck_run {s : Agent} {src : Source} (hs : s.pc = .sending k src) (nowMs : ℤ)
    (inbound : Inbound) (fault : Bool) :
    (∃ t, run (step c) s [.fail] = some t ∧ t.pc = .down ∧
      t.buf = (sendAndAck c s.buf k inbound true fault).1) ∧
    ∃ read last t, read <+: inbound.acks ∧
      run (step c) s (callMoves nowMs read last) = some t ∧
      t.buf = (sendAndAck c s.buf k inbound false fault).1 ∧
      t.pc = if (sendAndAck c s.buf k inbound false fault).2.1.isOk then src.next else .down := by
  refine ⟨⟨failed s, by simp [run, step, hs], rfl, rfl⟩, ?_⟩
  obtain ⟨u, hsend, hu, hbuf⟩ := step_send (c := c) hs nowMs
  cases h : firstNaming k.batchId inbound.acks with
  | none =>
    have hno : ∀ a ∈ inbound.acks, a.batchId ≠ k.batchId := by simpa [firstNaming] using h
    refine ⟨inbound.acks, .fail, failed u, List.prefix_refl _, ?_, ?_, ?_⟩
    · refine run_cons.mpr ⟨u, hsend, run_append.mpr ⟨u, run_discards hu hno, ?_⟩⟩
      simp [run, step, hu]
    · rw [sendAndAck_none h]
      exact hbuf
    · rw [sendAndAck_none h]
      rfl
  | some a =>
    obtain ⟨ha, -⟩ := firstNaming_split h
    obtain ⟨pre, post, hsplit, hpre, hfault, hok⟩ := sendAndAck_some (c := c) (b := s.buf) h
    let v : Agent := { u with pc := .resolved k.batchId (a.decoded c.codes) src }
    have hread : run (step c) u ((pre ++ [a]).map .recvAck) = some v := by
      rw [List.map_append]
      refine run_append.mpr ⟨u, run_discards hu hpre, ?_⟩
      simp [run, step, hu, resolveAck_named ha, v]
    have hprefix : pre ++ [a] <+: inbound.acks := ⟨post, by simp [hsplit]⟩
    have hrun : ∀ {last t}, step c v last = some t →
        run (step c) s (callMoves nowMs (pre ++ [a]) last) = some t := by
      intro last t ht
      refine run_cons.mpr ⟨u, hsend, run_append.mpr ⟨v, hread, ?_⟩⟩
      simp [run, ht]
    cases fault with
    | true =>
      refine ⟨pre ++ [a], .settle true, failed v, hprefix, hrun ?_, ?_, ?_⟩
      · simp only [step, v, settleAck_fault]
      · rw [hfault]
        exact hbuf
      · rw [hfault]
        rfl
    | false =>
      rw [← hbuf] at hok
      refine ⟨pre ++ [a], .settle false, _, hprefix, hrun (t := { v with
        buf := (sendAndAck c u.buf k inbound false false).1
        pc := src.next
        backoffSecs := src.backoff u.backoffSecs }) ?_, by rw [hbuf], ?_⟩
      · simp only [step, v, settleAck_eq, hok]
        cases (a.decoded c.codes).delivers <;> rfl
      · rw [← hbuf, hok]
        rfl

/-- **An acknowledgement only ever affects the batch it names.** Whatever arrives
and whatever fails, the rows and the entries of other batches stay as they are.
Once the batch is out: where an acknowledgement names it, the first one decides
alone, and deletes the batch's rows or makes them pending again by its status,
unless the transaction fails, which changes nothing; where none does, the call
fails and changes nothing. -/
theorem ack_named_only (c : StreamerConfig) (b : BufferDb) (k : ClaimedBatch) (inbound : Inbound)
    (pushFails fault : Bool) :
    Untouched k.batchId b (sendAndAck c b k inbound pushFails fault).1 ∧
    (sendAndAck c b k inbound true fault).1 = b ∧
    (∀ a, firstNaming k.batchId inbound.acks = some a →
      (sendAndAck c b k inbound false true).1 = b ∧
      (sendAndAck c b k inbound false true).2.1 = .error (.db .io) ∧
      (sendAndAck c b k inbound false false).2.1 = .ok () ∧
      (sendAndAck c b k inbound false false).1.db.inFlightBatches =
        (b.db.inFlightBatches.filter fun x => decide (x.1 ≠ k.batchId)) ∧
      (sendAndAck c b k inbound false false).1.db.pendingSamples.rows =
        if a.decoded c.codes ∈ [.ok, .duplicate, .rejected] then
          b.db.pendingSamples.rows.filter fun x => decide (x.2.batchId ≠ some k.batchId)
        else
          b.db.pendingSamples.rows.map fun x =>
            if x.2.batchId = some k.batchId then (x.1, { x.2 with batchId := none }) else x) ∧
    (firstNaming k.batchId inbound.acks = none →
      (sendAndAck c b k inbound false fault).1 = b ∧
      (sendAndAck c b k inbound false fault).2.1 = .error inbound.ending.error) := by
  refine ⟨untouched_sendAndAck c b k inbound pushFails fault, rfl, fun a h => ?_, fun h => ?_⟩
  · obtain ⟨_, _, -, -, hfault, hok⟩ := sendAndAck_some (c := c) (b := b) h
    rw [hfault, hok]
    have hset : ∀ st : AckStatus, st.delivers = decide (st ∈ [.ok, .duplicate, .rejected]) := by
      intro st
      cases st <;> rfl
    refine ⟨rfl, rfl, rfl, ?_, ?_⟩
    · split <;> simp [ackOk, ackRetry, settled]
    · rw [hset]
      by_cases hd : a.decoded c.codes ∈ [.ok, .duplicate, .rejected]
      · simp only [hd, decide_true, if_true, ackOk, Bool.false_eq_true, if_false, Table.rows_delete]
        refine List.filter_congr fun x _ => ?_
        by_cases hx : x.2.batchId = some k.batchId <;> simp [Row.inBatch, hx]
      · simp [hd, ackRetry, Row.inBatch, Row.setBatch]
  · rw [sendAndAck_none h]
    exact ⟨rfl, rfl⟩

end Ingest
end LymonAgent
