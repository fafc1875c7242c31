/-
# What the streamer does to a sample

Four laws of every run of the agent, from an empty buffer, with any producers,
acknowledgements, failures, crashes and restarts:

* `no_loss`: an enqueued row stays in the buffer until drop-oldest takes it
  while it is pending, or until its own batch is acknowledged;
* `same_content`: two messages with one batch id carry the same samples of the
  same origin;
* `bounded`: at most one batch of at most 1000 rows is in flight, and the table
  stays within the limit or one batch and one enqueue;
* `in_order`: a row is acknowledged only when no older row of its origin is
  left.
-/
import LymonAgent.Ingest.Streamer

namespace LymonAgent
namespace Ingest

open Rowid Runs

variable {c : StreamerConfig} {s t u : Agent} {e : Event} {es pre : List Event}

/-- The rows of `pending_samples`. -/
def Agent.rows (s : Agent) : List (ℕ × Row) := s.buf.db.pendingSamples.rows

/-- The largest id ever used. -/
def Agent.seq (s : Agent) : ℕ := s.buf.db.pendingSamples.seq

/-- In the run `es`, the event `e` came after `pre` and took `s` to `t`. -/
abbrev Happened (c : StreamerConfig) (es pre : List Event) (s : Agent) (e : Event) (t : Agent) : Prop :=
  Took (step c) (start openNew) es pre s e t

/-! ### A row through a run -/

theorem came_step (h : step c s e = some t) {i : ℕ} {r' : Row} (hr : (i, r') ∈ t.rows) :
    (∃ r, (i, r) ∈ s.rows ∧ r.Same r') ∨ s.seq < i := by
  rcases step_does h with hb | ⟨op, -, he⟩
  · exact Or.inl ⟨r', by rwa [Agent.rows, ← hb], .refl r'⟩
  · exact (he.came hr).imp_right And.left

theorem seq_step (h : step c s e = some t) : s.seq ≤ t.seq := by
  rcases step_does h with hb | ⟨op, -, he⟩
  · rw [Agent.seq, Agent.seq, hb]
  · exact he.seq_le

/-- A row stays, or it goes while it is pending, in a producer's call, or in
the `ack_ok` of its own batch. -/
theorem kept_step (h : step c s e = some t) {i : ℕ} {r : Row} (hr : (i, r) ∈ s.rows) :
    (∃ r', (i, r') ∈ t.rows ∧ r.Same r') ∨
    (∃ o ss f, e = .enqueue o ss f ∧ r.batchId = none) ∨
    (∃ f id st src, e = .settle f ∧ s.pc = .resolved id st src ∧ st.delivers = true ∧
      r.batchId = some id) := by
  rcases step_does h with hb | ⟨op, hd, he⟩
  · exact Or.inl ⟨r, by rwa [Agent.rows, hb], .refl r⟩
  · rcases he.kept hr with hk | ⟨o, ss, f, rfl, hn⟩ | ⟨id, f, rfl, hn⟩
    · exact Or.inl hk
    · cases hd
      exact Or.inr (Or.inl ⟨o, ss, f, rfl, hn⟩)
    · cases hd with
      | ackOk _ hpc hdel => exact Or.inr (Or.inr ⟨f, id, _, _, rfl, hpc, hdel, hn⟩)

/-- The id was used and its row is gone. -/
def Gone (i : ℕ) (s : Agent) : Prop := i ≤ s.seq ∧ ∀ r, (i, r) ∉ s.rows

/-- An id that is gone does not come back. -/
theorem gone_step {i : ℕ} (hs : Gone i s) (h : step c s e = some t) : Gone i t := by
  refine ⟨hs.1.trans (seq_step h), fun r' hr => ?_⟩
  rcases came_step h hr with ⟨r, hr, -⟩ | hlt
  · exact hs.2 r hr
  · exact absurd hs.1 (Nat.not_le.mpr hlt)

theorem gone_run {i : ℕ} (hs : Gone i s) (h : run (step c) s es = some t) : Gone i t :=
  inv_run (fun _ _ _ hs ht => gone_step hs ht) hs h

theorem le_seq {i : ℕ} {r : Row} (h : (i, r) ∈ s.rows) : i ≤ s.seq :=
  s.buf.db.pendingSamples.le_seq _ h

theorem gone_of_step (h : step c s e = some t) {i : ℕ} {r : Row} (hr : (i, r) ∈ s.rows)
    (hn : ∀ r, (i, r) ∉ t.rows) : Gone i t := ⟨(le_seq hr).trans (seq_step h), hn⟩

/-! ### The acknowledgement behind a settled batch -/

/-- The streamer received an acknowledgement that names the batch, with a
status that deletes it. -/
def Received (c : StreamerConfig) (es : List Event) (id : String) : Prop :=
  ∃ ack st, Event.recvAck ack ∈ es ∧ ack.batchId = id ∧ c.codes.tryFrom ack.status = some st ∧
    (st = .ok ∨ st = .duplicate ∨ st = .rejected)

theorem next_ne_resolved (l : List ClaimedBatch) {id : String} {st : AckStatus} {src : Source} :
    next l ≠ .resolved id st src := by
  cases l <;> exact fun h => by cases h

theorem Source.next_ne_resolved (src : Source) {id : String} {st : AckStatus} {src' : Source} :
    src.next ≠ .resolved id st src' := by
  cases src with
  | recovered rest => exact Ingest.next_ne_resolved rest
  | claimed => exact fun h => by cases h

theorem resolved_of_run (h : run (step c) (start openNew) es = some s) {id : String}
    {st : AckStatus} {src : Source} (hpc : s.pc = .resolved id st src) :
    ∃ ack, Event.recvAck ack ∈ es ∧ ack.batchId = id ∧
      st = (c.codes.tryFrom ack.status).getD .unspecified := by
  revert id st src
  refine hist_run (P := fun es s => ∀ {id st src}, s.pc = .resolved id st src →
    ∃ ack, Event.recvAck ack ∈ es ∧ ack.batchId = id ∧
      st = (c.codes.tryFrom ack.status).getD .unspecified) ?_ ?_ h
  · intro id st src hpc
    simp [start] at hpc
  · intro es s e t _ ih hst id st src hpc
    have hold : t.pc = s.pc → ∃ ack, Event.recvAck ack ∈ es ++ [e] ∧ ack.batchId = id ∧
        st = (c.codes.tryFrom ack.status).getD .unspecified := by
      intro heq
      obtain ⟨ack, hmem, hack⟩ := ih (heq ▸ hpc)
      exact ⟨ack, List.mem_append_left _ hmem, hack⟩
    cases step_moves hst with
    | enqueue _ _ _ => exact hold rfl
    | connect _ => cases hpc
    | recover _ => exact absurd hpc (next_ne_resolved _)
    | lost => cases hpc
    | claim _ _ _ => cases hpc
    | idle _ => exact hold rfl
    | claimFailed _ _ _ => cases hpc
    | send _ => cases hpc
    | discard _ _ => exact hold rfl
    | recvAck _ hid hst' =>
      cases hpc
      exact ⟨_, List.mem_append_right _ (List.mem_singleton_self _), hid, hst'⟩
    | ackOk _ _ => exact absurd hpc (Source.next_ne_resolved _)
    | ackRetry _ _ => exact absurd hpc (Source.next_ne_resolved _)
    | crash => cases hpc

theorem received_of_run (h : run (step c) (start openNew) es = some s) {id : String}
    {st : AckStatus} {src : Source} (hpc : s.pc = .resolved id st src)
    (hd : st.delivers = true) : Received c es id := by
  obtain ⟨ack, hmem, hid, hst⟩ := resolved_of_run h hpc
  cases hc : c.codes.tryFrom ack.status with
  | none =>
    rw [hc, Option.getD_none] at hst
    subst hst
    cases hd
  | some st' =>
    rw [hc, Option.getD_some] at hst
    subst hst
    refine ⟨ack, st, hmem, hid, hc, ?_⟩
    cases st <;> simp [AckStatus.delivers] at hd ⊢

/-! ### No loss -/

/-- A committed enqueue inserted the row `r` under the id `i`. -/
def Inserted (c : StreamerConfig) (es : List Event) (i : ℕ) (r : Row) : Prop :=
  ∃ pre s o ss f t, Happened c es pre s (.enqueue o ss f) t ∧ (∀ q, (i, q) ∉ s.rows) ∧ (i, r) ∈ t.rows

/-- The row is there, once, and is still the sample that was inserted. -/
def Present (s : Agent) (i : ℕ) (r : Row) : Prop :=
  ∃ r', s.rows.filter (fun x => x.1 = i) = [(i, r')] ∧ r.Same r'

/-- Drop-oldest deleted the row while its `batch_id` was NULL. -/
def Dropped (c : StreamerConfig) (es : List Event) (i : ℕ) : Prop :=
  ∃ pre s o ss f t r, Happened c es pre s (.enqueue o ss f) t ∧ (i, r) ∈ s.rows ∧
    r.batchId = none ∧ ∀ q, (i, q) ∉ t.rows

/-- `ack_ok` of the batch the row was tagged with deleted it, and the streamer
had received an acknowledgement of that batch. -/
def Acknowledged (c : StreamerConfig) (es : List Event) (i : ℕ) : Prop :=
  ∃ pre s f t r id st src, Happened c es pre s (.settle f) t ∧ s.pc = .resolved id st src ∧
    st.delivers = true ∧ (i, r) ∈ s.rows ∧ r.batchId = some id ∧ (∀ q, (i, q) ∉ t.rows) ∧
    Received c pre id

theorem present_iff {i : ℕ} {r : Row} : Present s i r ↔ ∃ r', (i, r') ∈ s.rows ∧ r.Same r' := by
  constructor
  · rintro ⟨r', hf, hr⟩
    have : (i, r') ∈ s.rows.filter fun x => x.1 = i := hf ▸ List.mem_singleton_self _
    exact ⟨r', List.mem_of_mem_filter this, hr⟩
  · rintro ⟨r', hm, hr⟩
    refine ⟨r', ?_, hr⟩
    have hnd : (s.rows.filter fun x => x.1 = i).Nodup :=
      ((List.Nodup.of_map _ s.buf.db.pendingSamples.nodup_ids).filter _)
    refine List.perm_singleton.mp ((List.perm_ext_iff_of_nodup hnd (List.nodup_singleton _)).mpr ?_)
    rintro ⟨j, q⟩
    simp only [List.mem_filter, decide_eq_true_eq, List.mem_singleton, Prod.mk.injEq]
    constructor
    · rintro ⟨hq, rfl⟩
      exact ⟨rfl, s.buf.db.pendingSamples.eq_of_mem hq hm⟩
    · rintro ⟨rfl, rfl⟩
      exact ⟨hm, rfl⟩

theorem dropped_gone (h : run (step c) (start openNew) es = some u) {i : ℕ}
    (hd : Dropped c es i) : Gone i u := by
  obtain ⟨pre, s, o, ss, f, t, r, ht, hr, -, hn⟩ := hd
  obtain ⟨post, -, hpost⟩ := ht.rest h
  exact gone_run (gone_of_step ht.taken hr hn) hpost

theorem acknowledged_gone (h : run (step c) (start openNew) es = some u) {i : ℕ}
    (ha : Acknowledged c es i) : Gone i u := by
  obtain ⟨pre, s, f, t, r, id, st, src, ht, -, -, hr, -, hn, -⟩ := ha
  obtain ⟨post, -, hpost⟩ := ht.rest h
  exact gone_run (gone_of_step ht.taken hr hn) hpost

/-- A row goes once. -/
theorem not_dropped_and_acknowledged {i : ℕ} (hd : Dropped c es i) (ha : Acknowledged c es i) :
    False := by
  obtain ⟨pre, s, o, ss, f, t, r, ht, hr, -, hn⟩ := hd
  obtain ⟨pre', s', f', t', r', id, st, src, ht', -, -, hr', -, hn', -⟩ := ha
  rcases ht.order ht' with ⟨-, he, -⟩ | ⟨mid, hm⟩ | ⟨mid, hm⟩
  · cases he
  · exact (gone_run (gone_of_step ht.taken hr hn) hm).2 r' hr'
  · exact (gone_run (gone_of_step ht'.taken hr' hn') hm).2 r hr

/-- The ways a row goes. -/
def Goes (i : ℕ) (s : Agent) (e : Event) (t : Agent) : Prop :=
  (∀ q, (i, q) ∉ t.rows) ∧ ∃ r, (i, r) ∈ s.rows ∧
    ((∃ o ss f, e = Event.enqueue o ss f ∧ r.batchId = none) ∨
      ∃ f id st src, e = Event.settle f ∧ s.pc = .resolved id st src ∧ st.delivers = true ∧
        r.batchId = some id)

theorem stays_or_goes (h : step c s e = some t) {i : ℕ} {r : Row}
    (hr : ∃ r', (i, r') ∈ s.rows ∧ r.Same r') :
    (∃ r', (i, r') ∈ t.rows ∧ r.Same r') ∨ Goes i s e t := by
  obtain ⟨r', hr', hsame⟩ := hr
  by_cases ht : ∀ q, (i, q) ∉ t.rows
  · rcases kept_step h hr' with ⟨q, hq, -⟩ | hq | hq
    · exact absurd hq (ht q)
    · exact Or.inr ⟨ht, r', hr', Or.inl hq⟩
    · exact Or.inr ⟨ht, r', hr', Or.inr hq⟩
  · push Not at ht
    obtain ⟨q, hq⟩ := ht
    rcases came_step h hq with ⟨r'', hr'', hs⟩ | hlt
    · obtain rfl := s.buf.db.pendingSamples.eq_of_mem hr' hr''
      exact Or.inl ⟨q, hq, hsame.trans hs⟩
    · exact absurd (le_seq hr') (Nat.not_le.mpr hlt)

theorem present_or_gone (h : run (step c) (start openNew) es = some u) {i : ℕ} {r : Row}
    (hi : Inserted c es i r) : Present u i r ∨ Dropped c es i ∨ Acknowledged c es i := by
  obtain ⟨pre, s, o, ss, f, t, ht, -, hr⟩ := hi
  obtain ⟨post, rfl, hpost⟩ := ht.rest h
  have hpre : run (step c) (start openNew) (pre ++ [Event.enqueue o ss f]) = some t :=
    run_snoc.mpr ⟨s, ht.before, ht.taken⟩
  have hsplit : pre ++ Event.enqueue o ss f :: post = pre ++ [Event.enqueue o ss f] ++ post := by simp
  rw [present_iff]
  rcases unless_run (I := fun _ => True) (fun _ _ _ _ _ => trivial)
      (fun _ _ _ _ hvw hv => stays_or_goes hvw hv) trivial hpre ⟨r, hr, .refl r⟩ hpost with
    hp | ⟨mid, v, e, w, hw, -, -, hn, r', hr', hq⟩
  · exact Or.inl hp
  · rw [← hsplit] at hw
    rcases hq with ⟨o', ss', f', rfl, hnone⟩ | ⟨f', id, st, src, rfl, hpc, hdel, hid⟩
    · exact Or.inr (Or.inl ⟨_, v, o', ss', f', w, r', hw, hr', hnone, hn⟩)
    · exact Or.inr (Or.inr ⟨_, v, f', w, r', id, st, src, hw, hpc, hdel, hr', hid, hn,
        received_of_run hw.before hpc hdel⟩)

/-- **No loss.** In every run, a row a committed enqueue inserted is in exactly
one of three situations: it is in the table once, as inserted; drop-oldest
deleted it while it was pending; or `ack_ok` deleted it with the batch it was
tagged with, after the streamer received an acknowledgement that names this
batch with status Ok, Duplicate or Rejected. -/
theorem no_loss (h : run (step c) (start openNew) es = some u) {i : ℕ} {r : Row}
    (hi : Inserted c es i r) :
    (Present u i r ∧ ¬ Dropped c es i ∧ ¬ Acknowledged c es i) ∨
    (¬ Present u i r ∧ Dropped c es i ∧ ¬ Acknowledged c es i) ∨
    (¬ Present u i r ∧ ¬ Dropped c es i ∧ Acknowledged c es i) := by
  have hgone : Present u i r → ¬ Gone i u := by
    intro hp hg
    obtain ⟨r', hr', -⟩ := present_iff.mp hp
    exact hg.2 r' hr'
  rcases present_or_gone h hi with hp | hd | ha
  · exact Or.inl ⟨hp, fun hd => hgone hp (dropped_gone h hd),
      fun ha => hgone hp (acknowledged_gone h ha)⟩
  · exact Or.inr (Or.inl ⟨fun hp => hgone hp (dropped_gone h hd), hd,
      fun ha => not_dropped_and_acknowledged hd ha⟩)
  · exact Or.inr (Or.inr ⟨fun hp => hgone hp (acknowledged_gone h ha),
      fun hd => not_dropped_and_acknowledged hd ha, ha⟩)

/-- The wire values of the statuses, one after the other. -/
def plainCodes : AckCodes where
  toI32
    | .unspecified => 0
    | .ok => 1
    | .duplicate => 2
    | .rejected => 3
    | .retry => 4
  tryFrom n :=
    if n = 0 then some .unspecified
    else if n = 1 then some .ok
    else if n = 2 then some .duplicate
    else if n = 3 then some .rejected
    else if n = 4 then some .retry
    else none
  tryFrom_toI32 s := by cases s <;> rfl

def plainStreamer (maxRows : UInt64) : StreamerConfig := ⟨plainConfig maxRows, "agent", "agent", plainCodes⟩

/-- What a producer brings in a call with one sample. -/
def oneSample (s : Sample) : Vec Sample := ⟨[s], by simp⟩

/-- One batch, sent twice because the stream broke, then acknowledged; a second
sample of its origin came while it was in flight. -/
def resentThenAcked : List Event :=
  [.enqueue (some "con_a") (oneSample (reading "v1" 100 1)) none, .connect, .recover false,
    .claim "01A" 10 false, .enqueue (some "con_a") (oneSample (reading "v2" 200 2)) none,
    .send 20, .fail, .connect, .recover false, .send 30, .recvAck ⟨"01A", 1⟩, .settle false]

theorem exists_run_resentThenAcked :
    ∃ u, run (step (plainStreamer 10)) (start openNew) resentThenAcked = some u :=
  Option.isSome_iff_exists.mp (by decide)

theorem no_loss_resent : ∃ u r, run (step (plainStreamer 10)) (start openNew) resentThenAcked = some u ∧
    Inserted (plainStreamer 10) resentThenAcked 1 r ∧
    (Present u 1 r ∨ Dropped (plainStreamer 10) resentThenAcked 1 ∨
      Acknowledged (plainStreamer 10) resentThenAcked 1) := by
  obtain ⟨u, hu⟩ := exists_run_resentThenAcked
  have hins : Inserted (plainStreamer 10) resentThenAcked 1
      (rowOf (plainConfig 10) (some "con_a") (reading "v1" 100 1)) :=
    ⟨[], _, _, _, _, _, ⟨⟨_, rfl⟩, rfl, rfl⟩, fun _ => List.not_mem_nil, List.mem_singleton_self _⟩
  refine ⟨u, _, hu, hins, ?_⟩
  rcases no_loss hu hins with ⟨hp, -⟩ | ⟨-, hd, -⟩ | ⟨-, -, ha⟩
  · exact Or.inl hp
  · exact Or.inr (Or.inl hd)
  · exact Or.inr (Or.inr ha)

/-! ### One content under one batch id -/

theorem ulids_step (h : step c s e = some t) : s.buf.ulids ⊆ t.buf.ulids := by
  rcases step_does h with hb | ⟨op, -, he⟩
  · rw [hb]; exact List.Subset.refl _
  · exact he.ulids_subset

theorem batchRows_step (hs : Inv c s) (h : step c s e = some t) {id : String}
    (hid : id ∈ s.buf.ulids) :
    batchRows t.buf id = batchRows s.buf id ∨ batchRows t.buf id = [] := by
  rcases step_does h with hb | ⟨op, -, he⟩
  · rw [hb]; exact Or.inl rfl
  · exact he.batchRows_of_drawn hs.rep hid

/-- The message the streamer in `s` pushes for `k`. -/
def message (c : StreamerConfig) (s : Agent) (k : ClaimedBatch) (nowMs : ℤ) : Sent :=
  ⟨s.epoch, sampleBatch c k nowMs, k.origin, (batchRows s.buf k.batchId).map Prod.fst⟩

theorem sent_step (h : step c s e = some t) :
    t.sent = s.sent ∨ ∃ k src n, e = .send n ∧ s.pc = .sending k src ∧
      t = { s with pc := .waiting k src, sent := s.sent ++ [message c s k n] } := by
  cases step_moves h with
  | send hk => exact Or.inr ⟨_, _, _, rfl, hk, rfl⟩
  | enqueue _ _ _ => exact Or.inl rfl
  | connect _ => exact Or.inl rfl
  | recover _ => exact Or.inl rfl
  | lost => exact Or.inl rfl
  | claim _ _ _ => exact Or.inl rfl
  | idle _ => exact Or.inl rfl
  | claimFailed _ _ _ => exact Or.inl rfl
  | discard _ _ => exact Or.inl rfl
  | recvAck _ _ _ => exact Or.inl rfl
  | ackOk _ _ => exact Or.inl rfl
  | ackRetry _ _ => exact Or.inl rfl
  | crash => exact Or.inl rfl

/-- The message carries the rows of its batch. -/
structure Carries (c : StreamerConfig) (b : BufferDb) (m : Sent) : Prop where
  rows : m.rows = (batchRows b m.batch.batchId).map Prod.fst
  samples : m.batch.samples =
    (batchRows b m.batch.batchId).map fun x => sampleOf c.toBufferConfig x.2
  origin : ∀ x ∈ batchRows b m.batch.batchId, x.2.origin = m.origin
  source : m.batch.datasourceId = m.origin.getD c.datasourceId

structure Sent.SameContent (m m' : Sent) : Prop where
  samples : m.batch.samples = m'.batch.samples
  origin : m.origin = m'.origin
  datasourceId : m.batch.datasourceId = m'.batch.datasourceId
  rows : m.rows = m'.rows

/-- What was sent under an id still in the table is what the table holds under
it, and what was sent twice is the same. -/
structure SentInv (c : StreamerConfig) (s : Agent) : Prop where
  drawn : ∀ m ∈ s.sent, m.batch.batchId ∈ s.buf.ulids
  carries : ∀ m ∈ s.sent, batchRows s.buf m.batch.batchId ≠ [] → Carries c s.buf m
  agree : ∀ m ∈ s.sent, ∀ m' ∈ s.sent, m.batch.batchId = m'.batch.batchId → m.SameContent m'

theorem sentInv_start : SentInv c (start openNew) where
  drawn := by simp [start]
  carries := by simp [start]
  agree := by simp [start]

theorem Carries.sameContent {b : BufferDb} {m m' : Sent} (h : Carries c b m) (h' : Carries c b m')
    (hid : m.batch.batchId = m'.batch.batchId) (hne : batchRows b m.batch.batchId ≠ []) :
    m.SameContent m' := by
  obtain ⟨x, hx⟩ := List.exists_mem_of_ne_nil _ hne
  have ho : m.origin = m'.origin := (h.origin x hx).symm.trans (h'.origin x (hid ▸ hx))
  exact ⟨by rw [h.samples, h'.samples, hid], ho, by rw [h.source, h'.source, ho],
    by rw [h.rows, h'.rows, hid]⟩

/-- What the streamer is about to send is in the table. -/
theorem Inv.carries_message (hs : Inv c s) {k : ClaimedBatch} {src : Source}
    (hk : s.pc = .sending k src) (n : ℤ) :
    k.batchId ∈ s.buf.ulids ∧ batchRows s.buf k.batchId ≠ [] ∧ Carries c s.buf (message c s k n) := by
  have hpc := hs.pc
  rw [hk] at hpc
  have hin : k.batchId ∈ inFlight s.buf := by rw [hpc.2.1]; exact List.mem_singleton_self _
  exact ⟨hs.rep.drawn _ hin, (hs.rep.tagged _).mp hin, rfl, hpc.2.2.1, hpc.2.2.2, rfl⟩

theorem sentInv_step (hs : Inv c s) (hi : SentInv c s) (h : step c s e = some t) : SentInv c t := by
  rcases sent_step h with hsent | ⟨k, src, n, rfl, hk, rfl⟩
  · refine ⟨fun m hm => ulids_step h (hi.drawn m (hsent ▸ hm)), fun m hm hne => ?_, ?_⟩
    · rw [hsent] at hm
      have hr := (batchRows_step hs h (hi.drawn m hm)).resolve_right hne
      have hc := hi.carries m hm (hr ▸ hne)
      exact ⟨hr ▸ hc.rows, hr ▸ hc.samples, hr ▸ hc.origin, hc.source⟩
    · rw [hsent]; exact hi.agree
  · obtain ⟨hdrawn, hne, hnew⟩ := hs.carries_message hk n
    have hold : ∀ m ∈ s.sent, m.batch.batchId = k.batchId → m.SameContent (message c s k n) :=
      fun m hm he => (hi.carries m hm (he ▸ hne)).sameContent hnew he (he ▸ hne)
    refine ⟨fun m hm => ?_, fun m hm hm' => ?_, fun m hm m' hm' he => ?_⟩
    · rcases List.mem_append.mp hm with hm | hm
      · exact hi.drawn m hm
      · obtain rfl := List.mem_singleton.mp hm
        exact hdrawn
    · rcases List.mem_append.mp hm with hm | hm
      · exact hi.carries m hm hm'
      · obtain rfl := List.mem_singleton.mp hm
        exact hnew
    · rcases List.mem_append.mp hm with hm | hm <;> rcases List.mem_append.mp hm' with hm' | hm'
      · exact hi.agree m hm m' hm' he
      · obtain rfl := List.mem_singleton.mp hm'
        exact hold m hm he
      · obtain rfl := List.mem_singleton.mp hm
        have hc := hold m' hm' he.symm
        exact ⟨hc.samples.symm, hc.origin.symm, hc.datasourceId.symm, hc.rows.symm⟩
      · obtain rfl := List.mem_singleton.mp hm
        obtain rfl := List.mem_singleton.mp hm'
        exact ⟨rfl, rfl, rfl, rfl⟩

theorem sentInv_run (h : run (step c) (start openNew) es = some s) : Inv c s ∧ SentInv c s :=
  inv_run (P := fun s => Inv c s ∧ SentInv c s)
    (fun _ _ _ hs ht => ⟨inv_step hs.1 ht, sentInv_step hs.1 hs.2 ht⟩) ⟨inv_start, sentInv_start⟩ h

/-- **One content under one id.** In every run, two messages sent with one
batch id carry the same samples in the same order, of the same origin. -/
theorem same_content (h : run (step c) (start openNew) es = some s) {m m' : Sent}
    (hm : m ∈ s.sent) (hm' : m' ∈ s.sent) (hid : m.batch.batchId = m'.batch.batchId) :
    m.batch.samples = m'.batch.samples ∧ m.origin = m'.origin ∧
      m.batch.datasourceId = m'.batch.datasourceId := by
  have hc := (sentInv_run h).2.agree m hm m' hm' hid
  exact ⟨hc.samples, hc.origin, hc.datasourceId⟩

theorem same_content_resent : ∃ u m m', run (step (plainStreamer 10)) (start openNew) resentThenAcked = some u ∧
    u.sent = [m, m'] ∧ m.batch.sentAtMs = 20 ∧ m'.batch.sentAtMs = 30 ∧
    m.batch.samples = m'.batch.samples ∧ m.origin = m'.origin ∧
    m.batch.datasourceId = m'.batch.datasourceId := by
  obtain ⟨u, hu⟩ := exists_run_resentThenAcked
  let m (epoch : ℕ) (nowMs : ℤ) : Sent :=
    ⟨epoch, ⟨"01A", "agent", "con_a", nowMs, [reading "v1" 100 1]⟩, some "con_a", [1]⟩
  have hsent : (run (step (plainStreamer 10)) (start openNew) resentThenAcked).map Agent.sent =
      some [m 1 20, m 2 30] := by decide
  rw [hu, Option.map_some, Option.some.injEq] at hsent
  have hfirst : m 1 20 ∈ u.sent := by simp [hsent]
  have hsecond : m 2 30 ∈ u.sent := by simp [hsent]
  exact ⟨u, _, _, hu, hsent, rfl, rfl, same_content hu hfirst hsecond rfl⟩

/-! ### Bounded -/

theorem Inv.mem_inFlight (hs : Inv c s) {x : ℕ × Row} (hx : x ∈ s.rows) {id : String}
    (hid : x.2.batchId = some id) : id ∈ inFlight s.buf :=
  (hs.rep.tagged id).mpr (List.ne_nil_of_mem (mem_batchRows.mpr ⟨hx, hid⟩))

/-- With one batch in flight, the rows that are not pending are its rows. -/
theorem Inv.batchId_eq (hs : Inv c s) {id : String} (hf : inFlight s.buf = [id]) {x : ℕ × Row}
    (hx : x ∈ s.rows) (hp : x.2.batchId ≠ none) : x.2.batchId = some id := by
  obtain ⟨b, hb⟩ := Option.ne_none_iff_exists'.mp hp
  have hin := hs.mem_inFlight hx hb
  rw [hf, List.mem_singleton] at hin
  rw [hb, hin]

theorem length_tagged_le (hs : Inv c s) :
    (s.buf.db.pendingSamples.select fun r => !r.isPending).length ≤ 1000 := by
  have hlen := hs.pc.length_le
  cases hf : inFlight s.buf with
  | nil =>
    have hnone : ∀ x ∈ s.rows, x.2.isPending = true := by
      intro x hx
      cases hb : x.2.batchId with
      | none => simp [Row.isPending, hb]
      | some b =>
        have hin := hs.mem_inFlight hx hb
        rw [hf] at hin
        cases hin
    have hnil : s.buf.db.pendingSamples.select (fun r => !r.isPending) = [] :=
      List.filter_eq_nil_iff.mpr fun x hx => by simp [hnone x hx]
    rw [hnil]
    exact Nat.zero_le _
  | cons id rest =>
    obtain rfl : rest = [] := by
      rw [hf] at hlen
      exact List.length_eq_zero_iff.mp (Nat.le_zero.mp (Nat.le_of_succ_le_succ hlen))
    have heq : s.buf.db.pendingSamples.select (fun r => !r.isPending) = batchRows s.buf id := by
      refine List.filter_congr fun x hx => ?_
      cases hb : x.2.batchId with
      | none => simp [Row.isPending, Row.inBatch, hb]
      | some b =>
        have hid := hs.batchId_eq hf hx (by simp [hb])
        simp [Row.isPending, Row.inBatch, hid]
    rw [heq]
    exact hs.size id

/-- Only an enqueue adds rows. -/
theorem Effect.length_le {c : BufferConfig} {b b' : BufferDb} {op : Op} (h : Effect c b b' op) :
    b'.db.pendingSamples.rows.length ≤ b.db.pendingSamples.rows.length ∨
    ∃ o ss f, op = .enqueue o ss f ∧ b'.db.pendingSamples.rows.length =
      (dropOldest c.maxRows ss.1.length b.db.pendingSamples).rows.length + ss.1.length := by
  cases h with
  | same hdb _ => rw [hdb]; exact Or.inl le_rfl
  | @enqueue o ss f hrows _ _ _ =>
    exact Or.inr ⟨o, ss, f, rfl, by rw [hrows, List.length_append, length_newRows]⟩
  | claim _ _ _ hrows _ _ _ => rw [hrows, List.length_map]; exact Or.inl le_rfl
  | ackOk hp _ _ => rw [hp]; exact Or.inl (List.length_filter_le _ _)
  | ackRetry hp _ _ => rw [hp, Table.rows_update, List.length_map]; exact Or.inl le_rfl

theorem length_step (hs : Inv c s) (h : step c s e = some t) {n : ℕ}
    (hn : ∀ o ss f, e = .enqueue o ss f → ss.1.length ≤ n)
    (hl : s.rows.length ≤ max c.maxRows.toNat (1000 + n)) :
    t.rows.length ≤ max c.maxRows.toNat (1000 + n) := by
  rcases step_does h with hb | ⟨op, hd, he⟩
  · rwa [Agent.rows, hb]
  · rcases he.length_le with hle | ⟨o, ss, f, rfl, hlen⟩
    · exact le_trans hle hl
    · cases hd
      have htrim := length_dropOldest_add_le c.maxRows ss.2 s.buf.db.pendingSamples
      have htag := length_tagged_le hs
      have hss := hn o ss f rfl
      rw [Agent.rows, hlen]
      omega

/-- **Lock-step and bounded.** In every run, at most one batch is in flight,
it has at most 1000 rows, and when no enqueue brings more than `n` samples the
table has at most `max(max_rows, 1000 + n)` rows. -/
theorem bounded (h : run (step c) (start openNew) es = some s) :
    (inFlight s.buf).length ≤ 1 ∧ (∀ id ∈ inFlight s.buf, (batchRows s.buf id).length ≤ 1000) ∧
    ∀ n, (∀ o ss f, Event.enqueue o ss f ∈ es → ss.1.length ≤ n) →
      s.rows.length ≤ max c.maxRows.toNat (1000 + n) := by
  have hs := inv_agent h
  refine ⟨hs.pc.length_le, fun id _ => hs.size id, fun n => ?_⟩
  refine hist_run (P := fun es s => (∀ o ss f, Event.enqueue o ss f ∈ es → ss.1.length ≤ n) →
    s.rows.length ≤ max c.maxRows.toNat (1000 + n)) ?_ ?_ h
  · intro _
    exact Nat.zero_le _
  · intro es s e t hrun ih hst hn
    refine length_step (inv_agent hrun) hst (fun o ss f he => hn o ss f (by simp [he])) (ih ?_)
    exact fun o ss f hm => hn o ss f (List.mem_append_left _ hm)

theorem bounded_resent : ∃ u, run (step (plainStreamer 10)) (start openNew) resentThenAcked = some u ∧
    (inFlight u.buf).length ≤ 1 ∧ u.rows.length ≤ 1001 := by
  obtain ⟨u, hu⟩ := exists_run_resentThenAcked
  have hn : ∀ o ss f, Event.enqueue o ss f ∈ resentThenAcked → ss.1.length ≤ 1 := by
    intro o ss f hm
    simp only [resentThenAcked, List.mem_cons, Event.enqueue.injEq, reduceCtorEq, false_or, or_false,
      List.not_mem_nil] at hm
    rcases hm with ⟨-, rfl, -⟩ | ⟨-, rfl, -⟩ <;> exact le_rfl
  exact ⟨u, hu, (bounded hu).1, (bounded hu).2.2 1 hn⟩

/-! ### In order -/

/-- The rows in flight are older than the pending rows of their origin. -/
def OrderInv (b : BufferDb) : Prop :=
  ∀ x ∈ b.db.pendingSamples.rows, ∀ y ∈ b.db.pendingSamples.rows,
    x.2.batchId ≠ none → y.2.batchId = none → x.2.origin = y.2.origin → x.1 < y.1

/-- Every operation keeps the order, where a retried batch is the only one. -/
theorem Effect.orderInv {c : BufferConfig} {b b' : BufferDb} {op : Op} (h : Effect c b b' op)
    (hb : OrderInv b) (hretry : ∀ id f, op = .ackRetry id f →
      ∀ x ∈ b.db.pendingSamples.rows, x.2.batchId ≠ none → x.2.batchId = some id) : OrderInv b' := by
  rintro ⟨i, q⟩ hx ⟨j, r⟩ hy hxt hyp ho
  cases h with
  | same hdb _ => rw [hdb] at hx hy; exact hb _ hx _ hy hxt hyp ho
  | enqueue hrows _ _ _ =>
    rw [hrows, List.mem_append] at hx hy
    rcases hx with hx | hx
    · rcases hy with hy | hy
      · exact hb _ (mem_dropOldest hx) _ (mem_dropOldest hy) hxt hyp ho
      · exact Nat.lt_of_le_of_lt (b.db.pendingSamples.le_seq _ (mem_dropOldest hx)) (mem_newRows hy).1
    · exact absurd (mem_newRows hx).2.2.1 hxt
  | claim _ hz _ hrows _ _ _ =>
    rw [hrows] at hx hy
    obtain ⟨q', hq, hclaimed⟩ := mem_changed.mp hx
    obtain ⟨r', hr, ⟨-, rfl⟩ | ⟨hjc, rfl⟩⟩ := mem_changed.mp hy
    · cases hyp
    · rcases hclaimed with ⟨hic, rfl⟩ | ⟨-, rfl⟩
      · obtain ⟨p, hp, -, hpo⟩ := mem_claimIds hz hic
        obtain rfl := b.db.pendingSamples.eq_of_mem hq hp
        exact lt_of_mem_claimIds hz hic hr hyp (ho.symm.trans hpo) hjc
      · exact hb _ hq _ hr hxt hyp ho
  | ackOk hp _ _ =>
    rw [hp] at hx hy
    exact hb _ (List.mem_of_mem_filter hx) _ (List.mem_of_mem_filter hy) hxt hyp ho
  | @ackRetry id f hp _ _ =>
    -- the only batch is given back, so no row is in flight after it
    rw [hp, Table.rows_update] at hx
    obtain ⟨q', hq, ⟨-, rfl⟩ | ⟨hne, rfl⟩⟩ := mem_changed.mp hx
    · exact absurd rfl hxt
    · exact absurd (beq_iff_eq.mpr (hretry id f rfl _ hq hxt)) hne

theorem orderInv_step (hs : Inv c s) (ho : OrderInv s.buf) (h : step c s e = some t) :
    OrderInv t.buf := by
  rcases step_does h with hb | ⟨op, hd, he⟩
  · rw [hb]; exact ho
  · refine he.orderInv ho ?_
    rintro id f rfl x hx hne
    cases hd with
    | ackRetry _ hpc _ =>
      have hf := hs.pc
      rw [hpc] at hf
      exact hs.batchId_eq hf.2 hx hne

theorem orderInv_run (h : run (step c) (start openNew) es = some s) : Inv c s ∧ OrderInv s.buf :=
  inv_run (P := fun s => Inv c s ∧ OrderInv s.buf)
    (fun _ _ _ hs ht => ⟨inv_step hs.1 ht, orderInv_step hs.1 hs.2 ht⟩)
    ⟨inv_start, by simp [OrderInv, start, openNew]⟩ h

/-- `ack_ok` deleted the row `r` of the id `i`, with the acknowledged batch it
was tagged with. -/
def Delivered (c : StreamerConfig) (es : List Event) (i : ℕ) (r : Row) : Prop :=
  ∃ pre s f t id st src, Happened c es pre s (.settle f) t ∧ s.pc = .resolved id st src ∧
    st.delivers = true ∧ (i, r) ∈ s.rows ∧ r.batchId = some id ∧ ∀ q, (i, q) ∉ t.rows

/-- The row `i` of the origin `o` is older than all that is left and all that
may come. -/
def Oldest (i : ℕ) (o : Option String) (s : Agent) : Prop :=
  i ≤ s.seq ∧ ∀ x ∈ s.rows, x.2.origin = o → i < x.1

theorem oldest_step {i : ℕ} {o : Option String} (hs : Oldest i o s) (h : step c s e = some t) :
    Oldest i o t := by
  refine ⟨hs.1.trans (seq_step h), fun x hx ho => ?_⟩
  rcases came_step h hx with ⟨r, hr, hsame⟩ | hlt
  · exact hs.2 (x.1, r) hr (hsame.origin.trans ho)
  · exact Nat.lt_of_le_of_lt hs.1 hlt

theorem Delivered.oldest {i : ℕ} {r : Row} (h : Delivered c es i r) :
    ∃ pre t f s, Happened c es pre s (.settle f) t ∧ Oldest i r.origin t := by
  obtain ⟨pre, s, f, t, id, st, src, ht, hpc, hdel, hr, hid, hn⟩ := h
  obtain ⟨hs, ho⟩ := orderInv_run ht.before
  have hf := hs.pc
  rw [hpc] at hf
  refine ⟨pre, t, f, s, ht, (le_seq hr).trans (seq_step ht.taken), fun x hx hxo => ?_⟩
  have hleft : x ∈ s.rows ∧ x.2.batchId ≠ some id := by
    cases step_moves ht.taken with
    | lost => exact absurd hr (hn r)
    | ackOk hpc' _ =>
      rw [hpc] at hpc'
      cases hpc'
      obtain ⟨hx, hid⟩ := List.mem_filter.mp hx
      exact ⟨hx, by simpa [Row.inBatch] using hid⟩
    | ackRetry hpc' hdel' =>
      rw [hpc] at hpc'
      cases hpc'
      rw [hdel] at hdel'
      cases hdel'
  -- one batch was in flight, so a row outside it is pending
  have hnone : x.2.batchId = none := by
    by_contra hne
    exact hleft.2 (hs.batchId_eq hf.2 hleft.1 hne)
  exact ho (i, r) hr x hleft.1 (by simp [hid]) hnone hxo.symm

/-- **In order.** In every run, a row acknowledged as delivered is older than
every row of its origin that is in the buffer at the end. -/
theorem in_order (h : run (step c) (start openNew) es = some u) {i : ℕ} {r : Row}
    (hd : Delivered c es i r) : ∀ x ∈ u.rows, x.2.origin = r.origin → i < x.1 := by
  obtain ⟨pre, t, f, s, ht, ho⟩ := hd.oldest
  obtain ⟨post, -, hpost⟩ := ht.rest h
  exact (inv_run (fun _ _ _ hs hst => oldest_step hs hst) ho hpost).2

theorem in_order_resent : ∃ u r, run (step (plainStreamer 10)) (start openNew) resentThenAcked = some u ∧
    Delivered (plainStreamer 10) resentThenAcked 1 r ∧ u.rows.map Prod.fst = [2] ∧
    ∀ x ∈ u.rows, x.2.origin = r.origin → 1 < x.1 := by
  obtain ⟨u, hu⟩ := exists_run_resentThenAcked
  have hrows : (run (step (plainStreamer 10)) (start openNew) resentThenAcked).map
      (fun u => u.rows.map Prod.fst) = some [2] := by decide
  rw [hu, Option.map_some, Option.some.injEq] at hrows
  have hd : Delivered (plainStreamer 10) resentThenAcked 1
      ((rowOf (plainConfig 10) (some "con_a") (reading "v1" 100 1)).setBatch (some "01A")) := by
    refine ⟨resentThenAcked.take 11, _, _, _, "01A", .ok, .recovered [], ⟨⟨_, rfl⟩, rfl, rfl⟩, rfl, rfl,
      List.mem_cons_self, rfl, ?_⟩
    intro q hq
    have hmem : 1 ∈ List.map Prod.fst _ := List.mem_map_of_mem hq
    exact absurd hmem (by decide)
  exact ⟨u, _, hu, hd, hrows, in_order hu hd⟩

end Ingest
end LymonAgent
