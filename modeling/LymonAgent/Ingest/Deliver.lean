/-
# From the buffer to the server

The agent and the server together (`Server`), end to end. What the streamer
deletes as delivered the server has applied, or rejected: an acknowledgement that
delivers is of such a batch (`SysInv`), the copy the server had carries the rows the
batch still has, and so a row leaves the table only into the server, by its
rejection, or by drop-oldest (`applied_or_dropped`). A rejected row is lost: the
streamer deletes it, and nobody applied it.

And it can leave. Wherever the agent, the wire and the server are, the streamer can
empty the table without a fault and without a producer (`deliverable`): it settles
what it holds, and then claims, sends and settles one batch after the other, each of
at least one row. Only where it waits for an acknowledgement the stream has to break
first: the acknowledgement may be lost, and the streamer has no time-out for it.

Key definitions: `SysInv`, `SentUsed`, `Pinned`, `SysEvent.Friendly`.
Key theorems: `sysInv_run`, `applied_or_dropped`, `deliverable`.
-/
import LymonAgent.Ingest.Acks
import LymonAgent.Ingest.Drain
import LymonAgent.Ingest.Server
import Mathlib.Data.Fintype.EquivFin

namespace LymonAgent
namespace Ingest

open Rowid Runs

/-- The server applied a copy of the batch, or rejected one. -/
def Decided (s : System) (id : String) : Prop :=
  ∃ m, (m ∈ s.applied ∨ m ∈ s.rejected) ∧ m.batch.batchId = id

/-- The server has decided what the agent is told, or has been told, that it has; and
every copy is of a message the agent pushed. -/
structure SysInv (c : StreamerConfig) (s : System) : Prop where
  agent : Inv c s.agent
  sent : SentInv c s.agent
  live : ∀ m, Live s m → m ∈ s.agent.sent
  rejected : ∀ m ∈ s.rejected, m ∈ s.agent.sent
  acks : ∀ x ∈ s.acks, (x.2.decoded c.codes).delivers = true → Decided s x.2.batchId
  resolved : ∀ id st src, s.agent.pc = .resolved id st src → st.delivers = true → Decided s id

variable {c : StreamerConfig} {s t u : System} {ev : SysEvent} {es : List SysEvent}

theorem Decided.mono {id : String} (h : Decided s id) (ha : s.applied ⊆ t.applied)
    (hr : s.rejected ⊆ t.rejected) : Decided t id := by
  obtain ⟨m, hm, hid⟩ := h
  exact ⟨m, hm.imp (fun hm => ha hm) (fun hm => hr hm), hid⟩

theorem decided_of_recorded {id : String} (h : id ∈ s.recorded) : Decided s id := by
  obtain ⟨m, hm, hid⟩ := List.mem_map.mp h
  exact ⟨m, Or.inl hm, hid⟩

theorem sysInv_start : SysInv c sysStart where
  agent := inv_start
  sent := sentInv_start
  live := by simp [Live, sysStart]
  rejected := by simp [sysStart]
  acks := by simp [sysStart]
  resolved := fun _ _ _ h => by cases h

theorem decoded_toI32 (id : String) (st : AckStatus) :
    BatchAck.decoded c.codes ⟨id, c.codes.toI32 st⟩ = st := by
  simp [BatchAck.decoded, c.codes.tryFrom_toI32]

theorem mem_sent_step {a a' : Agent} {e : Event} (h : step c a e = some a') {m : Sent} :
    m ∈ a'.sent ↔ m ∈ a.sent ∨ m ∈ a'.sent.drop a.sent.length := by
  rcases sent_step h with hsent | ⟨k, src, n, -, -, rfl⟩
  · simp [hsent]
  · simp

/-- The streamer holds a resolved batch after an acknowledgement of it. -/
theorem resolved_step {a a' : Agent} {e : Event} (h : step c a e = some a') {id : String} {st : AckStatus}
    {src : Source} (hpc : a'.pc = .resolved id st src) :
    a.pc = .resolved id st src ∨
      ∃ ack, e = .recvAck ack ∧ ack.batchId = id ∧ ack.decoded c.codes = st := by
  cases step_moves h with
  | enqueue _ _ _ => exact Or.inl hpc
  | connect _ => cases hpc
  | recover _ => exact absurd hpc (next_ne_resolved _)
  | lost => cases hpc
  | claim _ _ _ => cases hpc
  | idle _ => exact Or.inl hpc
  | claimFailed _ _ _ => cases hpc
  | send _ => cases hpc
  | discard _ _ => exact Or.inl hpc
  | recvAck _ hid hst =>
    obtain ⟨rfl, rfl, -⟩ := Pc.resolved.inj hpc
    exact Or.inr ⟨_, rfl, hid, hst.symm⟩
  | ackOk _ _ => exact absurd hpc (Source.next_ne_resolved _)
  | ackRetry _ _ => exact absurd hpc (Source.next_ne_resolved _)
  | crash => cases hpc

/-- A move of the agent, with what is left of the acknowledgements. -/
theorem sysInv_agent (hs : SysInv c s) {a : Agent} {e : Event} (h : step c s.agent e = some a)
    (hack : ∀ ack, e = .recvAck ack → (ack.decoded c.codes).delivers = true → Decided s ack.batchId)
    {acks : List (ℕ × BatchAck)} (hacks : acks ⊆ s.acks) :
    SysInv c ⟨a, s.wire ++ a.sent.drop s.agent.sent.length, s.applied, s.rejected, acks⟩ where
  agent := inv_step hs.agent h
  sent := sentInv_step hs.agent hs.sent h
  live := fun m hm => by
    rw [mem_sent_step h]
    rcases hm with hm | hm
    · exact (List.mem_append.mp hm).imp_left fun hw => hs.live m (Or.inl hw)
    · exact Or.inl (hs.live m (Or.inr hm))
  rejected := fun m hm => (mem_sent_step h).mpr (Or.inl (hs.rejected m hm))
  acks := fun x hx => hs.acks x (hacks hx)
  resolved := fun id st src hpc hdel => by
    rcases resolved_step h hpc with hold | ⟨ack, he, rfl, rfl⟩
    · exact hs.resolved id st src hold hdel
    · exact hack ack he hdel

/-- A copy taken off the wire, with the reply to it. -/
theorem sysInv_reply (hs : SysInv c s) {i : ℕ} {m : Sent} {st : AckStatus} {applied rejected : List Sent}
    (ha : s.applied ⊆ applied) (hr : s.rejected ⊆ rejected) (hlive : ∀ x ∈ applied, Live s x)
    (hrejected : ∀ x ∈ rejected, x ∈ s.rejected ∨ Live s x)
    (hst : st.delivers = true → Decided { s with applied, rejected } m.batch.batchId) :
    SysInv c { s.reply c i m st with applied, rejected } := by
  refine ⟨hs.agent, hs.sent, fun x hx => ?_, fun x hx => ?_, fun x hx hdel => ?_,
    fun id st src hpc hdel => (hs.resolved id st src hpc hdel).mono ha hr⟩
  · rcases hx with hx | hx
    · exact hs.live x (Or.inl ((List.eraseIdx_sublist _ _).subset hx))
    · exact hs.live x (hlive x hx)
  · rcases hrejected x hx with hx | hx
    · exact hs.rejected x hx
    · exact hs.live x hx
  · rcases List.mem_append.mp hx with hx | hx
    · exact (hs.acks x hx hdel).mono ha hr
    · obtain rfl := List.mem_singleton.mp hx
      rw [decoded_toI32] at hdel
      exact hst hdel

theorem sysInv_step (hs : SysInv c s) (h : sysStep c s ev = some t) : SysInv c t := by
  have hagent : ∀ {e : Event}, (∀ ack, e ≠ .recvAck ack) → agentStep c s e = some t → SysInv c t := by
    intro e he h
    obtain ⟨a, ha, rfl⟩ := Option.map_eq_some_iff.mp h
    exact sysInv_agent hs ha (fun ack hack => absurd hack (he ack)) (List.Subset.refl _)
  cases ev with
  | agent e =>
    cases e with
    | recvAck _ => cases h
    | _ => exact hagent (fun _ he => by cases he) h
  | accept i =>
    simp only [sysStep] at h
    split at h
    · cases h
    · rename_i m hm
      have hmem : m ∈ s.wire := List.mem_of_getElem? hm
      split at h
      · rename_i hrec
        obtain rfl := Option.some.inj h
        exact sysInv_reply hs (fun _ hx => hx) (fun _ hx => hx) (fun _ hx => Or.inr hx)
          (fun _ hx => Or.inl hx) fun _ => decided_of_recorded hrec
      · obtain rfl := Option.some.inj h
        refine sysInv_reply hs (List.subset_append_left _ _) (fun _ hx => hx) (fun x hx => ?_)
          (fun _ hx => Or.inl hx) fun _ => ⟨m, Or.inl (by simp), rfl⟩
        rcases List.mem_append.mp hx with hx | hx
        · exact Or.inr hx
        · exact Or.inl (List.mem_singleton.mp hx ▸ hmem)
  | refuse i =>
    simp only [sysStep] at h
    split at h
    · cases h
    · split at h
      · cases h
      · obtain rfl := Option.some.inj h
        exact sysInv_reply hs (fun _ hx => hx) (fun _ hx => hx) (fun _ hx => Or.inr hx)
          (fun _ hx => Or.inl hx) fun hdel => by cases hdel
  | reject i =>
    simp only [sysStep] at h
    split at h
    · cases h
    · rename_i m hm
      have hmem : m ∈ s.wire := List.mem_of_getElem? hm
      split at h
      · cases h
      · obtain rfl := Option.some.inj h
        refine sysInv_reply hs (fun _ hx => hx) (List.subset_append_left _ _) (fun _ hx => Or.inr hx)
          (fun x hx => ?_) fun _ => ⟨m, Or.inr (by simp), rfl⟩
        rcases List.mem_append.mp hx with hx | hx
        · exact Or.inl hx
        · exact Or.inr (Or.inl (List.mem_singleton.mp hx ▸ hmem))
  | loseCopy i =>
    obtain rfl := Option.some.inj h
    exact ⟨hs.agent, hs.sent, fun m hm => hs.live m (hm.imp_left fun hw => (List.eraseIdx_sublist _ _).subset hw),
      hs.rejected, hs.acks, hs.resolved⟩
  | deliver j =>
    simp only [sysStep] at h
    split at h
    · cases h
    · rename_i epoch ack hj
      split at h
      · obtain ⟨a, ha, rfl⟩ := Option.map_eq_some_iff.mp h
        refine sysInv_agent hs ha (fun ack' hack hdel => ?_) (List.eraseIdx_sublist _ _).subset
        obtain rfl := Event.recvAck.inj hack
        exact hs.acks _ (List.mem_of_getElem? hj) hdel
      · cases h
  | loseAck j =>
    obtain rfl := Option.some.inj h
    exact ⟨hs.agent, hs.sent, hs.live, hs.rejected,
      fun x hx => hs.acks x ((List.eraseIdx_sublist _ _).subset hx), hs.resolved⟩

theorem sysInv_run (h : run (sysStep c) sysStart es = some s) : SysInv c s :=
  inv_run (fun _ _ _ hs ht => sysInv_step hs ht) sysInv_start h

/-! ### A row leaves by the server's word -/

/-- The enqueue `ev` drops the row `i`, which was pending. -/
def Drops (i : ℕ) (s : System) (ev : SysEvent) (t : System) : Prop :=
  (∃ o ss f, ev = .agent (.enqueue o ss f)) ∧ (∃ r, (i, r) ∈ s.agent.rows ∧ r.batchId = none) ∧
    ∀ r, (i, r) ∉ t.agent.rows

/-- The server applied the row, or rejected it. -/
def DecidedRow (s : System) (i : ℕ) : Prop := i ∈ s.appliedRows ∨ i ∈ s.rejectedRows

/-- The rows of a batch in the table are those of the copy the server decided on. -/
theorem SysInv.decidedRow (hs : SysInv c s) {i : ℕ} {r : Row} {id : String} (hr : (i, r) ∈ s.agent.rows)
    (hid : r.batchId = some id) (hdec : Decided s id) : DecidedRow s i := by
  obtain ⟨m, hm, rfl⟩ := hdec
  have hmem : (i, r) ∈ batchRows s.agent.buf m.batch.batchId := mem_batchRows.mpr ⟨hr, hid⟩
  have hsent : m ∈ s.agent.sent := hm.elim (fun hm => hs.live m (Or.inr hm)) (hs.rejected m)
  have hrow : i ∈ m.rows := by
    rw [(hs.sent.carries m hsent (List.ne_nil_of_mem hmem)).rows]
    exact List.mem_map.mpr ⟨_, hmem, rfl⟩
  exact hm.imp (fun hm => List.mem_flatMap.mpr ⟨m, hm, hrow⟩) fun hm => List.mem_flatMap.mpr ⟨m, hm, hrow⟩

theorem appliedRows_step (h : sysStep c s ev = some t) {i : ℕ} (hi : i ∈ s.appliedRows) :
    i ∈ t.appliedRows := by
  cases sysStep_moves h with
  | agent _ _ => exact hi
  | took => exact hi
  | apply _ _ =>
    simp only [System.appliedRows, List.flatMap_append, List.mem_append]
    exact Or.inl hi
  | reject _ => exact hi
  | loseAck => exact hi

theorem rejectedRows_step (h : sysStep c s ev = some t) {i : ℕ} (hi : i ∈ s.rejectedRows) :
    i ∈ t.rejectedRows := by
  cases sysStep_moves h with
  | agent _ _ => exact hi
  | took => exact hi
  | apply _ _ => exact hi
  | reject _ =>
    simp only [System.rejectedRows, List.flatMap_append, List.mem_append]
    exact Or.inl hi
  | loseAck => exact hi

theorem decidedRow_step (h : sysStep c s ev = some t) {i : ℕ} (hi : DecidedRow s i) : DecidedRow t i :=
  hi.imp (appliedRows_step h) (rejectedRows_step h)

/-- What a step is to the agent: its own event, an acknowledgement, or nothing. -/
theorem agent_step (h : sysStep c s ev = some t) :
    t.agent = s.agent ∨ ∃ e, step c s.agent e = some t.agent ∧ (ev = .agent e ∨ ∃ ack, e = .recvAck ack) := by
  have hagent : ∀ {e : Event}, agentStep c s e = some t → step c s.agent e = some t.agent := fun h => by
    obtain ⟨a, ha, rfl⟩ := Option.map_eq_some_iff.mp h
    exact ha
  cases ev with
  | agent e =>
    cases e with
    | recvAck _ => cases h
    | _ => exact Or.inr ⟨_, hagent h, Or.inl rfl⟩
  | deliver j =>
    simp only [sysStep] at h
    split at h
    · cases h
    · split at h
      · obtain ⟨a, ha, rfl⟩ := Option.map_eq_some_iff.mp h
        exact Or.inr ⟨_, ha, Or.inr ⟨_, rfl⟩⟩
      · cases h
  | accept i =>
    simp only [sysStep] at h
    split at h
    · cases h
    · split at h <;> obtain rfl := Option.some.inj h <;> exact Or.inl rfl
  | refuse i | reject i =>
    simp only [sysStep] at h
    split at h
    · cases h
    · split at h
      · cases h
      · obtain rfl := Option.some.inj h
        exact Or.inl rfl
  | loseCopy i =>
    obtain rfl := Option.some.inj h
    exact Or.inl rfl
  | loseAck j =>
    obtain rfl := Option.some.inj h
    exact Or.inl rfl

/-- What one step does to a row of the table. -/
theorem row_step (hs : SysInv c s) (h : sysStep c s ev = some t) {i : ℕ} {r : Row}
    (hr : ∃ r', (i, r') ∈ s.agent.rows ∧ r.Same r') :
    (∃ r', (i, r') ∈ t.agent.rows ∧ r.Same r') ∨ DecidedRow t i ∨ Drops i s ev t := by
  rcases agent_step h with hsame | ⟨e, he, hev⟩
  · exact Or.inl (hsame ▸ hr)
  · rcases stays_or_goes he hr with hstay | ⟨hgone, r', hr', hwhy⟩
    · exact Or.inl hstay
    · rcases hwhy with ⟨o, ss, f, rfl, hnone⟩ | ⟨f, id, st, src, rfl, hpc, hdel, hid⟩
      · have hev := hev.resolve_right fun ⟨_, hack⟩ => by cases hack
        exact Or.inr (Or.inr ⟨⟨o, ss, f, hev⟩, ⟨r', hr', hnone⟩, hgone⟩)
      · have hdecided := hs.decidedRow hr' hid (hs.resolved id st src hpc hdel)
        exact Or.inr (Or.inl (decidedRow_step h hdecided))

/-- **A row leaves only by the server's word.** In every run of the agent and the server,
whatever is lost, delayed, refused or resent and wherever the agent fails or crashes:
a row that was in the table is there, as it was inserted; or the server has applied it; or
the server has rejected a batch that has it; or an enqueue dropped it while it was
pending. -/
theorem applied_or_dropped {pre post : List SysEvent} (h : run (sysStep c) sysStart pre = some s)
    (hu : run (sysStep c) s post = some u) {i : ℕ} {r : Row} (hr : (i, r) ∈ s.agent.rows) :
    (∃ r', (i, r') ∈ u.agent.rows ∧ r.Same r') ∨ i ∈ u.appliedRows ∨ i ∈ u.rejectedRows ∨
      ∃ mid v ev w, Took (sysStep c) sysStart (pre ++ post) (pre ++ mid) v ev w ∧ Drops i v ev w := by
  let P (v : System) : Prop := (∃ r', (i, r') ∈ v.agent.rows ∧ r.Same r') ∨ DecidedRow v i
  have hstep : ∀ v ev w, SysInv c v → sysStep c v ev = some w → P v → P w ∨ Drops i v ev w := by
    intro v ev w hv hw hP
    rcases hP with hrow | hdecided
    · exact (or_assoc.mpr (row_step hv hw hrow))
    · exact Or.inl (Or.inr (decidedRow_step hw hdecided))
  rcases unless_run (fun _ _ _ hv hw => sysInv_step hv hw) hstep (sysInv_run h) h (Or.inl ⟨r, hr, .refl r⟩)
      hu with (hrow | happlied | hrejected) | ⟨mid, v, ev, w, htook, -, -, hdrops⟩
  · exact Or.inl hrow
  · exact Or.inr (Or.inl happlied)
  · exact Or.inr (Or.inr (Or.inl hrejected))
  · exact Or.inr (Or.inr (Or.inr ⟨mid, v, ev, w, htook, hdrops⟩))

theorem applied_or_dropped_one : ∃ s u r, run (sysStep (plainStreamer 10)) sysStart enqueueOne = some s ∧
    run (sysStep (plainStreamer 10)) s
      (sendBatch "01A" ++ [.accept 0, .deliver 0, .agent (.settle false)]) = some u ∧
    (1, r) ∈ s.agent.rows ∧ u.agent.rows = [] ∧ 1 ∈ u.appliedRows := by
  obtain ⟨u, hu⟩ : ∃ u, run (sysStep (plainStreamer 10)) sysStart (enqueueOne ++ (sendBatch "01A" ++
      [.accept 0, .deliver 0, .agent (.settle false)])) = some u := Option.isSome_iff_exists.mp (by decide)
  obtain ⟨s, hs, hsu⟩ := run_append.mp hu
  have hids : (run (sysStep (plainStreamer 10)) sysStart enqueueOne).map (fun s => s.agent.rows.map Prod.fst) =
      some [1] := by decide
  rw [hs, Option.map_some, Option.some.injEq] at hids
  obtain ⟨x, hx, hid⟩ := List.mem_map.mp (hids ▸ List.mem_singleton_self 1)
  have hr : (1, x.2) ∈ s.agent.rows := hid ▸ hx
  have hempty : u.agent.rows = [] := by
    obtain rfl := Option.some.inj hu
    rfl
  refine ⟨s, u, x.2, hs, hsu, hr, hempty, ?_⟩
  rcases applied_or_dropped hs hsu hr with
    ⟨r', hr', -⟩ | happlied | hrejected | ⟨mid, v, ev, w, htook, ⟨o, ss, f, rfl⟩, -, -⟩
  · rw [hempty] at hr'
    cases hr'
  · exact happlied
  · obtain rfl := Option.some.inj hu
    cases hrejected
  · obtain rfl := Option.some.inj hu
    decide

/-! ### What the messages have of a row -/

/-- The rows in messages have been inserted. -/
def SentUsed (a : Agent) : Prop := ∀ m ∈ a.sent, ∀ j ∈ m.rows, j ≤ a.seq

theorem sentUsed_step {a a' : Agent} {e : Event} (ha : SentUsed a) (h : step c a e = some a') :
    SentUsed a' := by
  intro m hm j hj
  rcases sent_step h with hsent | ⟨k, src, n, -, -, rfl⟩
  · exact (ha m (hsent ▸ hm) j hj).trans (seq_step h)
  · rcases List.mem_append.mp hm with hm | hm
    · exact ha m hm j hj
    · obtain rfl := List.mem_singleton.mp hm
      obtain ⟨r, hr, -⟩ := mem_sent_rows hj
      exact le_seq hr

/-- The row `i` was inserted as `r`: it is that row in the table, and its sample, with its
origin, in every message that has the row. -/
structure Pinned (c : StreamerConfig) (i : ℕ) (r : Row) (a : Agent) : Prop where
  used : i ≤ a.seq
  row : ∀ r', (i, r') ∈ a.rows → r.Same r'
  sent : ∀ m ∈ a.sent, ∀ k : ℕ, m.rows[k]? = some i →
    m.batch.samples[k]? = some (sampleOf c.toBufferConfig r) ∧
      m.batch.datasourceId = r.origin.getD c.datasourceId

theorem pinned_step {a a' : Agent} {e : Event} {i : ℕ} {r : Row} (ha : Inv c a) (hp : Pinned c i r a)
    (h : step c a e = some a') : Pinned c i r a' where
  used := hp.used.trans (seq_step h)
  row := fun r' hr' => by
    rcases came_step h hr' with ⟨q, hq, hsame⟩ | hlt
    · exact (hp.row q hq).trans hsame
    · exact absurd hp.used (Nat.not_le.mpr hlt)
  sent := fun m hm k hk => by
    rcases sent_step h with hsent | ⟨kb, src, n, -, hsending, rfl⟩
    · exact hp.sent m (hsent ▸ hm) k hk
    · rcases List.mem_append.mp hm with hm | hm
      · exact hp.sent m hm k hk
      · obtain rfl := List.mem_singleton.mp hm
        -- the message carries the rows of its batch
        obtain ⟨-, -, hcarries⟩ := ha.carries_message hsending n
        rw [hcarries.rows, List.getElem?_map] at hk
        obtain ⟨⟨i', r'⟩, hx, rfl⟩ := Option.map_eq_some_iff.mp hk
        have hmem := List.mem_of_getElem? hx
        have hsame := hp.row r' (mem_batchRows.mp hmem).1
        rw [hcarries.samples, List.getElem?_map, hx, hcarries.source, ← hcarries.origin _ hmem, hsame.origin,
          hsame.sampleOf_eq]
        exact ⟨rfl, rfl⟩

theorem pinned_of_new {a a' : Agent} {e : Event} {i : ℕ} {r : Row} (ha : SentUsed a)
    (h : step c a e = some a') (hi : a.seq < i) (hr : (i, r) ∈ a'.rows) : Pinned c i r a' where
  used := le_seq hr
  row := fun r' hr' => a'.buf.db.pendingSamples.eq_of_mem hr hr' ▸ .refl r
  sent := fun m hm k hk => by
    rcases sent_step h with hsent | ⟨kb, src, n, -, -, rfl⟩
    · exact absurd (ha m (hsent ▸ hm) i (List.mem_of_getElem? hk)) (Nat.not_le.mpr hi)
    · exact absurd (le_seq (s := a) hr) (Nat.not_le.mpr hi)

/-! ### Everything can leave -/

/-- A step without a fault, a broken stream, a loss or a producer: the streamer's own, and
the server's, accepting and being heard. -/
def SysEvent.Friendly : SysEvent → Prop
  | .agent e =>
    match e with
    | .connect | .recover false | .claim _ _ false | .send _ | .settle false => True
    | _ => False
  | .accept _ | .deliver _ => True
  | _ => False

/-- `t` can be reached from `s` by friendly steps. -/
def Leads (c : StreamerConfig) (s t : System) : Prop :=
  ∃ ds, run (sysStep c) s ds = some t ∧ ∀ d ∈ ds, d.Friendly

theorem Leads.refl (s : System) : Leads c s s := ⟨[], rfl, fun _ h => absurd h List.not_mem_nil⟩

theorem Leads.head (h : sysStep c s ev = some t) (hu : Leads c t u) (hev : ev.Friendly) : Leads c s u := by
  obtain ⟨ds, hrun, hds⟩ := hu
  exact ⟨ev :: ds, run_cons.mpr ⟨t, h, hrun⟩, List.forall_mem_cons.mpr ⟨hev, hds⟩⟩

theorem Leads.trans (h : Leads c s t) (hu : Leads c t u) : Leads c s u := by
  obtain ⟨ds, hrun, hds⟩ := h
  obtain ⟨ds', hrun', hds'⟩ := hu
  exact ⟨ds ++ ds', run_append.mpr ⟨t, hrun, hrun'⟩, List.forall_mem_append.mpr ⟨hds, hds'⟩⟩

theorem Leads.sysInv (h : Leads c s t) (hs : SysInv c s) : SysInv c t := by
  obtain ⟨ds, hrun, -⟩ := h
  exact inv_run (fun _ _ _ hv hw => sysInv_step hv hw) hs hrun

/-- The batch in hand is sent, accepted and settled. -/
theorem leads_settled (hs : SysInv c s) {k : ClaimedBatch} {src : Source} (hpc : s.agent.pc = .sending k src) :
    ∃ t, Leads c s t ∧ t.agent.pc = .claiming ∧ t.agent.buf = (ackOk s.agent.buf k.batchId false).1 := by
  have hrest : src.rest = [] := by
    have hinv := hs.agent.pc
    rw [hpc] at hinv
    exact hinv.1
  obtain ⟨m, hm⟩ : ∃ m, m = message c s.agent k 0 := ⟨_, rfl⟩
  have hid : m.batch.batchId = k.batchId := by rw [hm]; rfl
  have hepoch : m.epoch = s.agent.epoch := by rw [hm]; rfl
  -- the copy goes onto the wire
  have hsend : sysStep c s (.agent (.send 0)) =
      some ⟨{ s.agent with pc := .waiting k src, sent := s.agent.sent ++ [m] }, s.wire ++ [m], s.applied, s.rejected,
        s.acks⟩ := by
    simp only [sysStep, agentStep, step, hpc, Option.map_some, List.drop_left, hm]
    rfl
  -- the server has it, or has it now, and says so
  obtain ⟨st, applied, hdel, haccept⟩ : ∃ st applied, st.delivers = true ∧
      sysStep c ⟨{ s.agent with pc := .waiting k src, sent := s.agent.sent ++ [m] }, s.wire ++ [m], s.applied,
          s.rejected, s.acks⟩ (.accept s.wire.length) =
        some ⟨{ s.agent with pc := .waiting k src, sent := s.agent.sent ++ [m] }, s.wire, applied,
          s.rejected, s.acks ++ [(s.agent.epoch, ⟨k.batchId, c.codes.toI32 st⟩)]⟩ := by
    have herase : (s.wire ++ [m]).eraseIdx s.wire.length = s.wire := by
      rw [List.eraseIdx_append_of_length_le (Nat.le_refl _), Nat.sub_self, List.eraseIdx_zero]
      exact List.append_nil _
    simp only [sysStep, List.getElem?_append_right (Nat.le_refl _), Nat.sub_self, List.getElem?_cons_zero,
      System.reply, herase, hid, hepoch]
    split
    · exact ⟨.duplicate, _, rfl, rfl⟩
    · exact ⟨.ok, _, rfl, rfl⟩
  -- the streamer hears it
  have hdeliver : sysStep c ⟨{ s.agent with pc := .waiting k src, sent := s.agent.sent ++ [m] }, s.wire, applied,
      s.rejected, s.acks ++ [(s.agent.epoch, ⟨k.batchId, c.codes.toI32 st⟩)]⟩ (.deliver s.acks.length) =
        some ⟨{ s.agent with pc := .resolved k.batchId st src, sent := s.agent.sent ++ [m] }, s.wire, applied,
          s.rejected, s.acks⟩ := by
    have herase : (s.acks ++ [(s.agent.epoch, (⟨k.batchId, c.codes.toI32 st⟩ : BatchAck))]).eraseIdx s.acks.length =
        s.acks := by
      rw [List.eraseIdx_append_of_length_le (Nat.le_refl _), Nat.sub_self, List.eraseIdx_zero]
      exact List.append_nil _
    have hack : resolveAck c.codes ⟨k.batchId, c.codes.toI32 st⟩ k.batchId = some st := by
      rw [resolveAck_named rfl, decoded_toI32]
    simp only [sysStep, List.getElem?_append_right (Nat.le_refl _), Nat.sub_self, List.getElem?_cons_zero,
      if_true, agentStep, step, hack, Option.map_some, herase, List.drop_length, List.append_nil]
  -- and settles it
  have hsettle : sysStep c ⟨{ s.agent with pc := .resolved k.batchId st src, sent := s.agent.sent ++ [m] }, s.wire,
      applied, s.rejected, s.acks⟩ (.agent (.settle false)) =
        some ⟨{ s.agent with
          pc := src.next
          sent := s.agent.sent ++ [m]
          buf := (ackOk s.agent.buf k.batchId false).1
          backoffSecs := src.backoff s.agent.backoffSecs }, s.wire, applied, s.rejected, s.acks⟩ := by
    have hok : settleAck s.agent.buf k.batchId st false = ((ackOk s.agent.buf k.batchId false).1, .ok ()) := by
      rw [settleAck_eq, hdel]
      rfl
    simp only [sysStep, agentStep, step, hok, Option.map_some, List.drop_length, List.append_nil]
  have hleads := Leads.head hsend (.head haccept (.head hdeliver (.head hsettle (.refl _) trivial) trivial) trivial)
    trivial
  exact ⟨_, hleads, Source.next_of_rest hrest, rfl⟩

/-- Wherever the streamer is, it can get to where it claims, if it waits for no
acknowledgement. -/
theorem leads_claiming (hs : SysInv c s) (hwait : ∀ k src, s.agent.pc ≠ .waiting k src) :
    ∃ t, Leads c s t ∧ t.agent.pc = .claiming := by
  have hsending : ∀ {s : System} {k src}, SysInv c s → s.agent.pc = .sending k src →
      ∃ t, Leads c s t ∧ t.agent.pc = .claiming := fun hs hpc => by
    obtain ⟨t, hleads, hclaiming, -⟩ := leads_settled hs hpc
    exact ⟨t, hleads, hclaiming⟩
  have hopened : ∀ {s : System}, SysInv c s → s.agent.pc = .opened →
      ∃ t, Leads c s t ∧ t.agent.pc = .claiming := by
    intro s hs hpc
    have hstep : sysStep c s (.agent (.recover false)) = some { s with
        agent := { s.agent with pc := next (recoverInFlight c.toBufferConfig s.agent.buf) } } := by
      simp only [sysStep, agentStep, step, hpc, Bool.false_eq_true, if_false, Option.map_some,
        List.drop_length, List.append_nil]
    have ht := sysInv_step hs hstep
    cases hrec : recoverInFlight c.toBufferConfig s.agent.buf with
    | nil =>
      rw [hrec] at hstep
      exact ⟨_, .head hstep (.refl _) trivial, rfl⟩
    | cons k rest =>
      rw [hrec] at hstep ht
      obtain ⟨t, hleads, hclaiming⟩ := hsending ht rfl
      exact ⟨t, .head hstep hleads trivial, hclaiming⟩
  have hdown : ∀ {s : System}, SysInv c s → s.agent.pc = .down → ∃ t, Leads c s t ∧ t.agent.pc = .claiming := by
    intro s hs hpc
    have hstep : sysStep c s (.agent .connect) =
        some { s with agent := { s.agent with pc := .opened, epoch := s.agent.epoch + 1 } } := by
      simp only [sysStep, agentStep, step, hpc, Option.map_some, List.drop_length, List.append_nil]
    obtain ⟨t, hleads, hclaiming⟩ := hopened (sysInv_step hs hstep) rfl
    exact ⟨t, .head hstep hleads trivial, hclaiming⟩
  cases hpc : s.agent.pc with
  | down => exact hdown hs hpc
  | opened => exact hopened hs hpc
  | claiming => exact ⟨s, .refl s, hpc⟩
  | sending k src => exact hsending hs hpc
  | waiting k src => exact absurd hpc (hwait k src)
  | resolved id st src =>
    have hrest : src.rest = [] := by
      have hinv := hs.agent.pc
      rw [hpc] at hinv
      exact hinv.1
    obtain ⟨b, hb⟩ : ∃ b, settleAck s.agent.buf id st false = (b, .ok ()) := by
      rw [settleAck_eq]
      cases st.delivers <;> exact ⟨_, rfl⟩
    have hstep : sysStep c s (.agent (.settle false)) = some { s with agent := { s.agent with
        buf := b, pc := src.next, backoffSecs := src.backoff s.agent.backoffSecs } } := by
      simp only [sysStep, agentStep, step, hpc, hb, Option.map_some, List.drop_length, List.append_nil]
    exact ⟨_, .head hstep (.refl _) trivial, Source.next_of_rest hrest⟩

theorem exists_fresh_ulid (l : List String) : ∃ u, u ∉ l := by
  have hinj : Function.Injective fun n => String.ofList (List.replicate n 'Z') := fun m n h => by
    have hlen := congrArg String.length h
    simpa using hlen
  have : Infinite String := Infinite.of_injective _ hinj
  obtain ⟨u, hu⟩ := Infinite.exists_notMem_finset l.toFinset
  exact ⟨u, fun h => hu (List.mem_toFinset.mpr h)⟩

/-- Where no batch is in flight, every row is pending. -/
theorem rows_of_claiming (hs : SysInv c s) (hpc : s.agent.pc = .claiming) :
    s.agent.rows = pendingRows s.agent.buf := by
  have hnone : inFlight s.agent.buf = [] := by
    have hinv := hs.agent.pc
    rw [hpc] at hinv
    exact hinv
  refine (List.filter_eq_self.mpr fun x hx => ?_).symm
  cases hbatch : x.2.batchId with
  | none => rw [Row.isPending, hbatch]; rfl
  | some id =>
    have hin := (hs.agent.rep.tagged id).mpr (List.ne_nil_of_mem (mem_batchRows.mpr ⟨hx, hbatch⟩))
    rw [hnone] at hin
    cases hin

/-- The rest of the table goes, a batch at a time. -/
theorem leads_empty (n : ℕ) : ∀ {s : System}, SysInv c s → s.agent.pc = .claiming →
    (pendingRows s.agent.buf).length ≤ n → ∃ t, Leads c s t ∧ t.agent.rows = [] := by
  induction n with
  | zero =>
    intro s hs hpc hn
    exact ⟨s, .refl s, (rows_of_claiming hs hpc).trans (List.length_eq_zero_iff.mp (Nat.le_zero.mp hn))⟩
  | succ n ih =>
    intro s hs hpc hn
    cases hx : pendingRows s.agent.buf with
    | nil => exact ⟨s, .refl s, (rows_of_claiming hs hpc).trans hx⟩
    | cons x rest =>
      obtain ⟨ulid, hfresh⟩ := exists_fresh_ulid s.agent.buf.ulids
      obtain ⟨b₁, b₂, hclaim, hack, hleft, -, -, -⟩ := drain_round (c := c.toBufferConfig) (m := maxBatchSize)
        hs.agent.rep (by decide) hfresh 0 hx
      have hstep : sysStep c s (.agent (.claim ulid 0 false)) = some { s with agent := { s.agent with
          buf := b₁
          pc := .sending ⟨ulid, (firstOf maxBatchSize.toNat x (pendingRows s.agent.buf)).map fun y =>
            sampleOf c.toBufferConfig y.2, x.2.origin⟩ .claimed } } := by
        simp only [sysStep, agentStep, step, hpc, hfresh, if_false, hclaim, Option.map_some, List.drop_length,
          List.append_nil]
      obtain ⟨t, hleads, hclaiming, hbuf⟩ := leads_settled (sysInv_step hs hstep) rfl
      have ht := Leads.sysInv (.head hstep hleads trivial) hs
      have hlt : (pendingRows t.agent.buf).length ≤ n := by
        have hbuf : t.agent.buf = b₂ := hbuf.trans (congrArg Prod.fst hack)
        have hless := length_without_lt (m := maxBatchSize.toNat) (by decide) x rest
        rw [hbuf, hleft, hx]
        rw [hx] at hn
        omega
      obtain ⟨u, hrest, hempty⟩ := ih ht hclaiming hlt
      exact ⟨u, .head hstep (hleads.trans hrest) trivial, hempty⟩

/-- Friendly steps drop no row, and reject none. -/
theorem friendly_rows {i : ℕ} {r : Row} : ∀ {ds : List SysEvent} {s : System}, SysInv c s →
    run (sysStep c) s ds = some u → (∀ d ∈ ds, d.Friendly) → (∃ r', (i, r') ∈ s.agent.rows ∧ r.Same r') →
    (∃ r', (i, r') ∈ u.agent.rows ∧ r.Same r') ∨ DecidedRow u i
  | [], s, _, h, _, hr => by
    obtain rfl := Option.some.inj h
    exact Or.inl hr
  | d :: ds, s, hs, h, hds, hr => by
    obtain ⟨t, ht, hrun⟩ := run_cons.mp h
    obtain ⟨hd, hds⟩ := List.forall_mem_cons.mp hds
    rcases row_step hs ht hr with hrow | hdecided | ⟨⟨o, ss, f, rfl⟩, -, -⟩
    · exact friendly_rows (sysInv_step hs ht) hrun hds hrow
    · exact Or.inr (inv_run (P := fun s => DecidedRow s i) (fun _ _ _ hi ht => decidedRow_step ht hi)
        hdecided hrun)
    · exact hd.elim

theorem rejected_friendly : ∀ {ds : List SysEvent} {s : System}, run (sysStep c) s ds = some u →
    (∀ d ∈ ds, d.Friendly) → u.rejected = s.rejected
  | [], s, h, _ => by
    obtain rfl := Option.some.inj h
    rfl
  | d :: ds, s, h, hds => by
    obtain ⟨t, ht, hrun⟩ := run_cons.mp h
    obtain ⟨hd, hds⟩ := List.forall_mem_cons.mp hds
    have hstep : t.rejected = s.rejected := by
      cases sysStep_moves ht with
      | reject _ => exact hd.elim
      | _ => rfl
    exact (rejected_friendly hrun hds).trans hstep

/-- The table can be emptied, where no acknowledgement is waited for. -/
theorem delivers_all (hs : SysInv c s) (hwait : ∀ k src, s.agent.pc ≠ .waiting k src) :
    ∃ ds u, run (sysStep c) s ds = some u ∧ (∀ d ∈ ds, d.Friendly) ∧ u.agent.rows = [] ∧
      ∀ x ∈ s.agent.rows, x.1 ∈ u.appliedRows ∨ x.1 ∈ s.rejectedRows := by
  obtain ⟨t, hleads, hpc⟩ := leads_claiming hs hwait
  obtain ⟨u, hleads', hempty⟩ := leads_empty _ (hleads.sysInv hs) hpc (Nat.le_refl _)
  obtain ⟨ds, hrun, hds⟩ := hleads.trans hleads'
  refine ⟨ds, u, hrun, hds, hempty, fun x hx => ?_⟩
  have hrejected : u.rejectedRows = s.rejectedRows := congrArg (List.flatMap Sent.rows) (rejected_friendly hrun hds)
  rw [← hrejected]
  refine (friendly_rows hs hrun hds ⟨x.2, hx, .refl x.2⟩).resolve_left ?_
  rintro ⟨r', hr', -⟩
  rw [hempty] at hr'
  cases hr'

/-- **Everything can be delivered.** From every state that a run of the agent and the
server reaches there are steps of the two, with no producer, no fault and nothing lost,
after which the table is empty and the server has applied every row that was in it,
unless it had rejected a batch with the row before. If the streamer waits for an
acknowledgement, which may have been lost, its stream breaks first; no other stream
does. -/
theorem deliverable (h : run (sysStep c) sysStart es = some s) :
    ∃ brk ds u, run (sysStep c) s (brk ++ ds) = some u ∧
      (brk = [] ∨ brk = [.agent .fail] ∧ ∃ k src, s.agent.pc = .waiting k src) ∧
      (∀ d ∈ ds, d.Friendly) ∧ u.agent.rows = [] ∧
      ∀ x ∈ s.agent.rows, x.1 ∈ u.appliedRows ∨ x.1 ∈ s.rejectedRows := by
  have hs := sysInv_run h
  by_cases hwait : ∃ k src, s.agent.pc = .waiting k src
  · obtain ⟨k, src, hpc⟩ := hwait
    have hbreak : sysStep c s (.agent .fail) = some { s with agent := failed s.agent } := by
      simp only [sysStep, agentStep, step, hpc, Option.map_some]
      simp [failed]
    obtain ⟨ds, u, hrun, hds, hempty, hrows⟩ := delivers_all (sysInv_step hs hbreak) fun _ _ hpc => by cases hpc
    exact ⟨[.agent .fail], ds, u, run_cons.mpr ⟨_, hbreak, hrun⟩, Or.inr ⟨rfl, k, src, hpc⟩, hds, hempty, hrows⟩
  · obtain ⟨ds, u, hrun, hds, hempty, hrows⟩ := delivers_all hs fun k src hpc => hwait ⟨k, src, hpc⟩
    exact ⟨[], ds, u, hrun, Or.inl rfl, hds, hempty, hrows⟩

theorem deliverable_one : ∃ ds u, run (sysStep (plainStreamer 10)) sysStart (enqueueOne ++ ds) = some u ∧
    u.agent.rows = [] ∧ 1 ∈ u.appliedRows := by
  obtain ⟨s, hs⟩ : ∃ s, run (sysStep (plainStreamer 10)) sysStart enqueueOne = some s :=
    Option.isSome_iff_exists.mp (by decide)
  have hids : (run (sysStep (plainStreamer 10)) sysStart enqueueOne).map (fun s => s.agent.rows.map Prod.fst) =
      some [1] := by decide
  have hrejected : (run (sysStep (plainStreamer 10)) sysStart enqueueOne).map System.rejectedRows = some [] := rfl
  rw [hs, Option.map_some, Option.some.injEq] at hids hrejected
  obtain ⟨x, hx, hid⟩ := List.mem_map.mp (hids ▸ List.mem_singleton_self 1)
  obtain ⟨brk, ds, u, hrun, -, -, hempty, hall⟩ := deliverable hs
  have happlied := (hall x hx).resolve_right (hrejected ▸ List.not_mem_nil)
  exact ⟨brk ++ ds, u, run_append.mpr ⟨s, hs, hrun⟩, hempty, hid ▸ happlied⟩

end Ingest
end LymonAgent
