/-
# At most once

The agent against a server that deduplicates on the batch id. A copy of a batch
on the wire is lost or processed, at any later time and in any order, also
after its stream broke. Processing a copy of a recorded batch replies
Duplicate; else the server applies the samples, records the batch and replies
Ok, or applies nothing and replies Retry, or Rejected. An acknowledgement reaches
the agent on the stream its copy came on, or is lost.

A batch id guards the rows it was drawn for only while they keep it.
`ack_retry` gives the rows of a batch back, to be claimed under another id,
while a copy under the first may still be on the wire or may have been applied
since: then a row is applied twice (`applied_twice`). Where every `ack_retry`
is of a batch that is neither, no row is (`at_most_once`).

Key definitions: `System`, `sysStep`, `RetrySafe`.
-/
import LymonAgent.Ingest.Delivery

namespace LymonAgent
namespace Ingest

open Rowid Runs

/-- The agent, the copies on the wire, the copies the server applied, those it
rejected, and the acknowledgements on their way, each with its stream. -/
structure System where
  agent : Agent
  wire : List Sent
  applied : List Sent
  rejected : List Sent
  acks : List (ℕ × BatchAck)

inductive SysEvent where
  | agent (e : Event)
  | accept (i : ℕ)
  | refuse (i : ℕ)
  | reject (i : ℕ)
  | loseCopy (i : ℕ)
  | deliver (j : ℕ)
  | loseAck (j : ℕ)

/-- The batch ids the server recorded. -/
def System.recorded (s : System) : List String := s.applied.map fun m => m.batch.batchId

/-- The rows of `pending_samples` the server applied, one entry a time. -/
def System.appliedRows (s : System) : List ℕ := s.applied.flatMap Sent.rows

/-- The rows in batches the server rejected. The agent deletes them, though they
were not applied. -/
def System.rejectedRows (s : System) : List ℕ := s.rejected.flatMap Sent.rows

def sysStart : System := ⟨start openNew, [], [], [], []⟩

section

variable (c : StreamerConfig)

/-- The server is done with the copy `i` and replies. -/
def System.reply (s : System) (i : ℕ) (m : Sent) (status : AckStatus) : System :=
  { s with
    wire := s.wire.eraseIdx i
    acks := s.acks ++ [(m.epoch, ⟨m.batch.batchId, c.codes.toI32 status⟩)] }

/-- The agent moves; what it pushed onto its stream is on the wire. -/
def agentStep (s : System) (e : Event) : Option System :=
  (step c s.agent e).map fun a =>
    { s with agent := a, wire := s.wire ++ a.sent.drop s.agent.sent.length }

def sysStep (s : System) : SysEvent → Option System
  | .agent (.recvAck _) => none
  | .agent e => agentStep c s e
  | .accept i =>
    match s.wire[i]? with
    | none => none
    | some m =>
      if m.batch.batchId ∈ s.recorded then some (s.reply c i m .duplicate)
      else some { s.reply c i m .ok with applied := s.applied ++ [m] }
  | .refuse i =>
    match s.wire[i]? with
    | none => none
    | some m => if m.batch.batchId ∈ s.recorded then none else some (s.reply c i m .retry)
  | .reject i =>
    match s.wire[i]? with
    | none => none
    | some m =>
      if m.batch.batchId ∈ s.recorded then none
      else some { s.reply c i m .rejected with rejected := s.rejected ++ [m] }
  | .loseCopy i => some { s with wire := s.wire.eraseIdx i }
  | .deliver j =>
    match s.acks[j]? with
    | none => none
    | some (epoch, ack) =>
      if epoch = s.agent.epoch then agentStep c { s with acks := s.acks.eraseIdx j } (.recvAck ack)
      else none
  | .loseAck j => some { s with acks := s.acks.eraseIdx j }

/-- What a step is to the rows: a move of the agent, or copies taken off the
wire, of which one may have been applied for the first time, or rejected. -/
inductive SysMoves (s : System) : SysEvent → System → Prop
  | agent {ev : SysEvent} {e : Event} {a : Agent} {acks : List (ℕ × BatchAck)} :
      step c s.agent e = some a → (∀ f, e = .settle f → ev = .agent e) →
      SysMoves s ev ⟨a, s.wire ++ a.sent.drop s.agent.sent.length, s.applied, s.rejected, acks⟩
  | took {ev : SysEvent} {i : ℕ} {acks : List (ℕ × BatchAck)} :
      SysMoves s ev ⟨s.agent, s.wire.eraseIdx i, s.applied, s.rejected, acks⟩
  | apply {i : ℕ} {m : Sent} {acks : List (ℕ × BatchAck)} : m ∈ s.wire →
      m.batch.batchId ∉ s.recorded →
      SysMoves s (.accept i) ⟨s.agent, s.wire.eraseIdx i, s.applied ++ [m], s.rejected, acks⟩
  | reject {i : ℕ} {m : Sent} {acks : List (ℕ × BatchAck)} : m ∈ s.wire →
      SysMoves s (.reject i) ⟨s.agent, s.wire.eraseIdx i, s.applied, s.rejected ++ [m], acks⟩
  | loseAck {ev : SysEvent} {acks : List (ℕ × BatchAck)} :
      SysMoves s ev ⟨s.agent, s.wire, s.applied, s.rejected, acks⟩

/-- The streamer gives a batch back only when the server has not applied it and
no copy of it is on the wire. -/
def RetrySafe (s : System) : SysEvent → Prop
  | .agent (.settle _) =>
    match s.agent.pc with
    | .resolved id status _ => status.delivers = true ∨
        (id ∉ s.recorded ∧ ∀ m ∈ s.wire, m.batch.batchId ≠ id)
    | _ => True
  | _ => True

instance (s : System) (ev : SysEvent) : Decidable (RetrySafe s ev) := by
  unfold RetrySafe
  split
  · split <;> infer_instance
  · infer_instance

end

variable {c : StreamerConfig} {s t : System} {ev : SysEvent} {es : List SysEvent}

theorem sysStep_moves (h : sysStep c s ev = some t) : SysMoves c s ev t := by
  have hagent : ∀ e, agentStep c s e = some t → (∀ f, e = .settle f → ev = .agent e) →
      SysMoves c s ev t := by
    intro e he hev
    obtain ⟨a, ha, rfl⟩ := Option.map_eq_some_iff.mp he
    exact .agent ha hev
  cases ev with
  | agent e =>
    cases e with
    | recvAck _ => cases h
    | _ => exact hagent _ h fun _ _ => rfl
  | accept i =>
    simp only [sysStep] at h
    split at h
    · cases h
    · rename_i m hm
      split at h
      · obtain rfl := Option.some.inj h
        exact .took
      · rename_i hrec
        obtain rfl := Option.some.inj h
        exact .apply (List.mem_of_getElem? hm) hrec
  | refuse i =>
    simp only [sysStep] at h
    split at h
    · cases h
    · split at h
      · cases h
      · obtain rfl := Option.some.inj h
        exact .took
  | reject i =>
    simp only [sysStep] at h
    split at h
    · cases h
    · rename_i m hm
      split at h
      · cases h
      · obtain rfl := Option.some.inj h
        exact .reject (List.mem_of_getElem? hm)
  | loseCopy i =>
    obtain rfl := Option.some.inj h
    exact .took
  | deliver j =>
    simp only [sysStep] at h
    split at h
    · cases h
    · split at h
      · obtain ⟨a, ha, rfl⟩ := Option.map_eq_some_iff.mp h
        exact .agent ha fun _ hf => by cases hf
      · cases h
  | loseAck j =>
    obtain rfl := Option.some.inj h
    exact .loseAck

/-! ### A row keeps its batch until the batch is settled -/

theorem Effect.tag_kept {c : BufferConfig} {b b' : BufferDb} {op : Op} (h : Effect c b b' op) {i : ℕ}
    {r r' : Row} (hr : (i, r) ∈ b.db.pendingSamples.rows) (hr' : (i, r') ∈ b'.db.pendingSamples.rows)
    {id : String} (hid : r.batchId = some id) :
    r'.batchId = some id ∨ ∃ f, op = .ackRetry id f := by
  cases h with
  | same hdb _ =>
    rw [hdb] at hr'
    exact Or.inl (b.db.pendingSamples.eq_of_mem hr hr' ▸ hid)
  | enqueue hrows _ _ _ =>
    rw [hrows] at hr'
    rcases List.mem_append.mp hr' with hr' | hr'
    · exact Or.inl (b.db.pendingSamples.eq_of_mem hr (mem_dropOldest hr') ▸ hid)
    · exact absurd (b.db.pendingSamples.le_seq _ hr) (Nat.not_le.mpr (mem_newRows hr').1)
  | claim _ hx _ hrows _ _ _ =>
    rw [hrows] at hr'
    obtain ⟨q, hq, ⟨hclaimed, -⟩ | ⟨-, rfl⟩⟩ := mem_changed.mp hr'
    · obtain ⟨p, hp, hnone, -⟩ := mem_claimIds hx hclaimed
      rw [b.db.pendingSamples.eq_of_mem hr hp, hnone] at hid
      cases hid
    · exact Or.inl (b.db.pendingSamples.eq_of_mem hr hq ▸ hid)
  | ackOk hp _ _ =>
    rw [hp] at hr'
    exact Or.inl (b.db.pendingSamples.eq_of_mem hr (List.mem_of_mem_filter hr') ▸ hid)
  | @ackRetry id' f hp _ _ =>
    rw [hp, Table.rows_update] at hr'
    obtain ⟨q, hq, ⟨hb, -⟩ | ⟨-, rfl⟩⟩ := mem_changed.mp hr'
    · have hqr := b.db.pendingSamples.eq_of_mem hr hq
      rw [Row.inBatch, beq_iff_eq, ← hqr, hid, Option.some.injEq] at hb
      exact Or.inr ⟨f, by rw [hb]⟩
    · exact Or.inl (b.db.pendingSamples.eq_of_mem hr hq ▸ hid)

/-- A tag changes only when the streamer gives the batch back. -/
theorem tag_step {a a' : Agent} {e : Event} (h : step c a e = some a') {i : ℕ} {r r' : Row}
    (hr : (i, r) ∈ a.rows) (hr' : (i, r') ∈ a'.rows) {id : String} (hid : r.batchId = some id) :
    r'.batchId = some id ∨
    ∃ f st src, e = .settle f ∧ a.pc = .resolved id st src ∧ st.delivers = false := by
  rcases step_does h with hb | ⟨op, hd, he⟩
  · rw [Agent.rows, hb] at hr'
    exact Or.inl (a.buf.db.pendingSamples.eq_of_mem hr hr' ▸ hid)
  · rcases he.tag_kept hr hr' hid with hk | ⟨f, rfl⟩
    · exact Or.inl hk
    · cases hd with
      | ackRetry _ hpc hdel => exact Or.inr ⟨f, _, _, rfl, hpc, hdel⟩

/-! ### The invariant -/

/-- The copies that count: applied, or still to be processed. -/
def Live (s : System) (m : Sent) : Prop := m ∈ s.wire ∨ m ∈ s.applied

/-- A row is in live copies of one batch only, and if it is in the table it is
tagged with that batch. -/
structure ServerInv (s : System) : Prop where
  used : ∀ m, Live s m → ∀ i ∈ m.rows, i ≤ s.agent.seq
  nodup : ∀ m, Live s m → m.rows.Nodup
  tagged : ∀ m, Live s m → ∀ i ∈ m.rows, ∀ r, (i, r) ∈ s.agent.rows → r.batchId = some m.batch.batchId
  one : ∀ m m', Live s m → Live s m' → ∀ i ∈ m.rows, i ∈ m'.rows → m.batch.batchId = m'.batch.batchId
  recorded : s.recorded.Nodup

theorem serverInv_start : ServerInv sysStart where
  used := by simp [Live, sysStart]
  nodup := by simp [Live, sysStart]
  tagged := by simp [Live, sysStart]
  one := by simp [Live, sysStart]
  recorded := List.nodup_nil

/-- Fewer live copies keep it. -/
theorem ServerInv.of_live (hs : ServerInv s) (ha : t.agent = s.agent) (hl : ∀ m, Live t m → Live s m)
    (hr : t.recorded.Nodup) : ServerInv t where
  used := fun m hm => ha ▸ hs.used m (hl m hm)
  nodup := fun m hm => hs.nodup m (hl m hm)
  tagged := fun m hm => ha ▸ hs.tagged m (hl m hm)
  one := fun m m' hm hm' => hs.one m m' (hl m hm) (hl m' hm')
  recorded := hr

/-- The live copies after a move of the agent: those before, and the batch it
sent. -/
theorem live_agent {a : Agent} {e : Event} (h : step c s.agent e = some a)
    {acks : List (ℕ × BatchAck)} {m : Sent}
    (hm : Live ⟨a, s.wire ++ a.sent.drop s.agent.sent.length, s.applied, s.rejected, acks⟩ m) :
    Live s m ∨ (a.buf = s.agent.buf ∧ m.rows = (batchRows s.agent.buf m.batch.batchId).map Prod.fst) := by
  rcases hm with hm | hm
  · rcases List.mem_append.mp hm with hm | hm
    · exact Or.inl (Or.inl hm)
    · rcases sent_step h with hsent | ⟨k, src, n, rfl, hk, rfl⟩
      · rw [hsent, List.drop_length] at hm
        cases hm
      · rw [List.drop_left, List.mem_singleton] at hm
        exact Or.inr ⟨rfl, by rw [hm]; rfl⟩
  · exact Or.inl (Or.inr hm)

theorem mem_sent_rows {b : BufferDb} {id : String} {i : ℕ}
    (h : i ∈ (batchRows b id).map Prod.fst) :
    ∃ r, (i, r) ∈ b.db.pendingSamples.rows ∧ r.batchId = some id := by
  obtain ⟨x, hx, rfl⟩ := List.mem_map.mp h
  exact ⟨x.2, mem_batchRows.mp hx⟩

theorem serverInv_agent (hs : ServerInv s) {a : Agent} {e : Event} (h : step c s.agent e = some a)
    (hsafe : RetrySafe s (.agent e)) (acks : List (ℕ × BatchAck)) :
    ServerInv ⟨a, s.wire ++ a.sent.drop s.agent.sent.length, s.applied, s.rejected, acks⟩ := by
  have hlive : ∀ m, Live ⟨a, s.wire ++ a.sent.drop s.agent.sent.length, s.applied, s.rejected, acks⟩ m → _ :=
    fun _ hm => live_agent h hm
  refine ⟨fun m hm i hi => ?_, fun m hm => ?_, fun m hm i hi r hr => ?_, fun m m' hm hm' i hi hi' => ?_,
    hs.recorded⟩
  · rcases hlive m hm with hm | ⟨-, hrows⟩
    · exact (hs.used m hm i hi).trans (seq_step h)
    · obtain ⟨r, hr, -⟩ := mem_sent_rows (hrows ▸ hi)
      exact (le_seq hr).trans (seq_step h)
  · rcases hlive m hm with hm | ⟨-, hrows⟩
    · exact hs.nodup m hm
    · rw [hrows]
      exact s.agent.buf.db.pendingSamples.nodup_ids.sublist (List.filter_sublist.map _)
  · rcases hlive m hm with hm | ⟨hbuf, hrows⟩
    · rcases came_step h hr with ⟨q, hq, -⟩ | hlt
      · rcases tag_step h hq hr (hs.tagged m hm i hi q hq) with hk | ⟨f, st, src, rfl, hpc, hdel⟩
        · exact hk
        · -- the batch was given back, so no live copy is of it
          simp only [RetrySafe, hpc, hdel, Bool.false_eq_true, false_or] at hsafe
          obtain ⟨hrec, hwire⟩ := hsafe
          rcases hm with hm | hm
          · exact absurd rfl (hwire m hm)
          · exact absurd (List.mem_map.mpr ⟨m, hm, rfl⟩) hrec
      · exact absurd (hs.used m hm i hi) (Nat.not_le.mpr hlt)
    · obtain ⟨q, hq, hid⟩ := mem_sent_rows (hrows ▸ hi)
      have hr' : (i, r) ∈ s.agent.rows := by
        rw [Agent.rows, ← hbuf]; exact hr
      exact s.agent.buf.db.pendingSamples.eq_of_mem hq hr' ▸ hid
  · rcases hlive m hm with hm | ⟨-, hrows⟩ <;> rcases hlive m' hm' with hm' | ⟨-, hrows'⟩
    · exact hs.one m m' hm hm' i hi hi'
    · obtain ⟨r, hr, hid⟩ := mem_sent_rows (hrows' ▸ hi')
      exact Option.some.inj ((hs.tagged m hm i hi r hr).symm.trans hid)
    · obtain ⟨r, hr, hid⟩ := mem_sent_rows (hrows ▸ hi)
      exact Option.some.inj (hid.symm.trans (hs.tagged m' hm' i hi' r hr))
    · obtain ⟨r, hr, hid⟩ := mem_sent_rows (hrows ▸ hi)
      obtain ⟨r', hr', hid'⟩ := mem_sent_rows (hrows' ▸ hi')
      rw [s.agent.buf.db.pendingSamples.eq_of_mem hr hr', hid'] at hid
      exact (Option.some.inj hid).symm

theorem serverInv_step (hs : ServerInv s) (hsafe : RetrySafe s ev) (h : sysStep c s ev = some t) :
    ServerInv t := by
  have hwire : ∀ i m, m ∈ s.wire.eraseIdx i → m ∈ s.wire := fun i m hm =>
    (List.eraseIdx_sublist _ _).subset hm
  cases sysStep_moves h with
  | @agent _ e a acks ha hev =>
    refine serverInv_agent hs ha ?_ acks
    cases e with
    | settle f => exact hev f rfl ▸ hsafe
    | _ => exact trivial
  | took => exact hs.of_live rfl (fun m hm => hm.imp_left (hwire _ m)) hs.recorded
  | @apply i m acks hm hrec =>
    refine hs.of_live rfl (fun m' hm' => ?_) ?_
    · rcases hm' with hm' | hm'
      · exact Or.inl (hwire _ m' hm')
      · rcases List.mem_append.mp hm' with hm' | hm'
        · exact Or.inr hm'
        · rw [List.mem_singleton.mp hm']
          exact Or.inl hm
    · simp only [System.recorded, List.map_append, List.map_cons, List.map_nil]
      refine List.nodup_append.mpr ⟨hs.recorded, List.nodup_singleton _, fun x hx y hy => ?_⟩
      rw [List.mem_singleton] at hy
      subst hy
      exact fun he => hrec (he ▸ hx)
  | reject _ => exact hs.of_live rfl (fun m hm => hm.imp_left (hwire _ m)) hs.recorded
  | loseAck => exact hs.of_live rfl (fun m hm => hm) hs.recorded

/-- What the server applied are different batches, and a row is in one. -/
theorem ServerInv.nodup_appliedRows (hs : ServerInv s) : s.appliedRows.Nodup := by
  refine List.nodup_flatMap.mpr ⟨fun m hm => hs.nodup m (Or.inr hm), ?_⟩
  have hpair : s.applied.Pairwise fun m m' => m.batch.batchId ≠ m'.batch.batchId :=
    List.pairwise_map.mp hs.recorded
  refine hpair.imp_of_mem fun hm hm' hne => ?_
  exact List.disjoint_left.mpr fun i hi hi' => hne (hs.one _ _ (Or.inr hm) (Or.inr hm') i hi hi')

/-- **At most once.** In every run in which the streamer gives a batch back
only when the server has not applied it and no copy of it is on the wire, the
server applies no row twice. -/
theorem at_most_once (h : run (sysStep c) sysStart es = some s)
    (hsafe : Each (sysStep c) RetrySafe sysStart es) : s.appliedRows.Nodup := by
  have hinv : ServerInv s :=
    each_run (fun _ _ _ hs hp ht => serverInv_step hs hp ht) hsafe serverInv_start h
  exact hinv.nodup_appliedRows

/-- One sample on its way: sent as the batch `id`. -/
def sendBatch (id : String) : List SysEvent := [.agent (.claim id 10 false), .agent (.send 20)]

def enqueueOne : List SysEvent :=
  [.agent (.enqueue none (oneSample (reading "v1" 100 1)) none), .agent .connect,
    .agent (.recover false)]

/-- The server refuses the only copy of a batch; the row goes out again under
another id. -/
def refusedOnce : List SysEvent :=
  enqueueOne ++ sendBatch "01A" ++ [.refuse 0, .deliver 0, .agent (.settle false)] ++
    sendBatch "01B" ++ [.accept 0]

theorem at_most_once_refused : ∃ s, run (sysStep (plainStreamer 10)) sysStart refusedOnce = some s ∧
    s.appliedRows = [1] ∧ s.appliedRows.Nodup := by
  obtain ⟨s, hs⟩ : ∃ s, run (sysStep (plainStreamer 10)) sysStart refusedOnce = some s :=
    Option.isSome_iff_exists.mp (by decide)
  have hrows : (run (sysStep (plainStreamer 10)) sysStart refusedOnce).map System.appliedRows =
      some [1] := by decide
  rw [hs, Option.map_some, Option.some.injEq] at hrows
  exact ⟨s, hs, hrows, at_most_once hs (by decide)⟩

/-- The stream breaks after the first copy of a batch, the server refuses the
second one, and the first one is processed after the row went out again. -/
def lateCopy : List SysEvent :=
  enqueueOne ++ sendBatch "01A" ++
    [.agent .fail, .agent .connect, .agent (.recover false), .agent (.send 30)] ++
    [.refuse 1, .deliver 0, .agent (.settle false)] ++ sendBatch "01B" ++ [.accept 1, .accept 0]

theorem applied_twice : ∃ s, run (sysStep (plainStreamer 10)) sysStart lateCopy = some s ∧
    s.recorded = ["01B", "01A"] ∧ s.appliedRows = [1, 1] ∧ ¬ s.appliedRows.Nodup := by
  obtain ⟨s, hs⟩ : ∃ s, run (sysStep (plainStreamer 10)) sysStart lateCopy = some s :=
    Option.isSome_iff_exists.mp (by decide)
  have hrows : (run (sysStep (plainStreamer 10)) sysStart lateCopy).map
      (fun s => (s.recorded, s.appliedRows)) = some (["01B", "01A"], [1, 1]) := by decide
  rw [hs, Option.map_some, Option.some.injEq, Prod.mk.injEq] at hrows
  exact ⟨s, hs, hrows.1, hrows.2, by rw [hrows.2]; decide⟩

end Ingest
end LymonAgent
