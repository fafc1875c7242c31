/-
# The two tables agree

`pending_samples.batch_id` and `in_flight_batches` say the same thing in two
places, and only the operations' own statements keep them together. `RepInv`
is that agreement; every operation keeps it (`Effect.repInv`), whatever batch
ids the acknowledgements name, so it holds of every buffer reached from a new
file, and with it what `recover_in_flight` returns (`rep_invariant`).

`Effect.kept` and `Effect.came` follow a single row through an operation,
forwards and backwards.
-/
import LymonAgent.Ingest.Buffer

namespace LymonAgent
namespace Ingest

open Rowid Runs

variable {c : BufferConfig} {b b' : BufferDb} {op : Op}

/-! ### A row through an operation -/

/-- The same sample: the rows differ in `batch_id` at most. -/
def Row.Same (r r' : Row) : Prop := r.setBatch none = r'.setBatch none

theorem Row.Same.refl (r : Row) : r.Same r := rfl

theorem Row.Same.trans {r s t : Row} (h : r.Same s) (h' : s.Same t) : r.Same t := Eq.trans h h'

theorem Row.same_setBatch (r : Row) (id : Option String) : r.Same (r.setBatch id) := rfl

theorem Row.Same.origin {r r' : Row} (h : r.Same r') : r.origin = r'.origin := by
  have ho := congrArg Row.origin (show r.setBatch none = r'.setBatch none from h)
  exact ho

/-- A row stays, or drop-oldest deletes it while it is pending, or `ack_ok` of
its own batch does. -/
theorem Effect.kept (h : Effect c b b' op) {i : ℕ} {r : Row}
    (hr : (i, r) ∈ b.db.pendingSamples.rows) :
    (∃ r', (i, r') ∈ b'.db.pendingSamples.rows ∧ r.Same r') ∨
    (∃ o ss f, op = .enqueue o ss f ∧ r.batchId = none) ∨
    (∃ id f, op = .ackOk id f ∧ r.batchId = some id) := by
  cases h with
  | same hdb _ => exact Or.inl ⟨r, hdb ▸ hr, .refl r⟩
  | @enqueue _ samples _ hrows _ _ _ =>
    by_cases hk : (i, r) ∈ (dropOldest c.maxRows samples.1.length b.db.pendingSamples).rows
    · exact Or.inl ⟨r, hrows ▸ List.mem_append_left _ hk, .refl r⟩
    · refine Or.inr (Or.inl ⟨_, _, _, rfl, ?_⟩)
      exact Option.isNone_iff_eq_none.mp (isPending_of_dropped hr hk)
  | @claim maxSize ulid _ _ _ _ _ _ hrows _ _ _ =>
    left
    rw [hrows]
    by_cases hi : i ∈ claimIds b.db.pendingSamples maxSize
    · exact ⟨r.setBatch (some ulid), mem_changed.mpr ⟨r, hr, Or.inl ⟨hi, rfl⟩⟩, r.same_setBatch _⟩
    · exact ⟨r, mem_changed.mpr ⟨r, hr, Or.inr ⟨hi, rfl⟩⟩, .refl r⟩
  | @ackOk id _ hp _ _ =>
    by_cases hb : r.batchId = some id
    · exact Or.inr (Or.inr ⟨id, _, rfl, hb⟩)
    · refine Or.inl ⟨r, ?_, .refl r⟩
      rw [hp]
      exact List.mem_filter.mpr ⟨hr, by simp [Row.inBatch, hb]⟩
  | @ackRetry id _ hp _ _ =>
    left
    rw [hp, Table.rows_update]
    by_cases hb : r.inBatch id = true
    · exact ⟨r.setBatch none, mem_changed.mpr ⟨r, hr, Or.inl ⟨hb, rfl⟩⟩, r.same_setBatch _⟩
    · exact ⟨r, mem_changed.mpr ⟨r, hr, Or.inr ⟨hb, rfl⟩⟩, .refl r⟩

theorem Effect.seq_le (h : Effect c b b' op) :
    b.db.pendingSamples.seq ≤ b'.db.pendingSamples.seq := by
  cases h with
  | same hdb _ => rw [hdb]
  | enqueue _ hs _ _ => rw [hs]; exact Nat.le_add_right _ _
  | claim _ _ _ _ hs _ _ => rw [hs]
  | ackOk hp _ _ => rw [hp]; exact le_rfl
  | ackRetry hp _ _ => rw [hp]; exact le_rfl

/-- A row after an operation was there before it, or is new: then it is pending
and its id was never used. -/
theorem Effect.came (h : Effect c b b' op) {i : ℕ} {r' : Row}
    (hr : (i, r') ∈ b'.db.pendingSamples.rows) :
    (∃ r, (i, r) ∈ b.db.pendingSamples.rows ∧ r.Same r') ∨
    (b.db.pendingSamples.seq < i ∧ r'.batchId = none) := by
  cases h with
  | same hdb _ => exact Or.inl ⟨r', hdb ▸ hr, .refl r'⟩
  | enqueue hrows _ _ _ =>
    rw [hrows] at hr
    rcases List.mem_append.mp hr with hr | hr
    · exact Or.inl ⟨r', mem_dropOldest hr, .refl r'⟩
    · exact Or.inr ⟨(mem_newRows hr).1, (mem_newRows hr).2.2.1⟩
  | claim _ _ _ hrows _ _ _ =>
    rw [hrows] at hr
    obtain ⟨r, hold, ⟨-, rfl⟩ | ⟨-, rfl⟩⟩ := mem_changed.mp hr
    · exact Or.inl ⟨r, hold, r.same_setBatch _⟩
    · exact Or.inl ⟨r', hold, .refl r'⟩
  | ackOk hp _ _ =>
    rw [hp] at hr
    exact Or.inl ⟨r', List.mem_of_mem_filter hr, .refl r'⟩
  | ackRetry hp _ _ =>
    rw [hp, Table.rows_update] at hr
    obtain ⟨r, hold, ⟨-, rfl⟩ | ⟨-, rfl⟩⟩ := mem_changed.mp hr
    · exact Or.inl ⟨r, hold, r.same_setBatch _⟩
    · exact Or.inl ⟨r', hold, .refl r'⟩

/-! ### The invariant -/

def inFlight (b : BufferDb) : List String := b.db.inFlightBatches.map Prod.fst

theorem mem_settled {id i : String} {l : List (String × ℤ)} :
    i ∈ (settled id l).map Prod.fst ↔ i ∈ l.map Prod.fst ∧ i ≠ id := by
  simp only [settled, List.mem_map, List.mem_filter, decide_eq_true_eq]
  constructor
  · rintro ⟨x, ⟨hx, hne⟩, rfl⟩
    exact ⟨⟨x, hx, rfl⟩, hne⟩
  · rintro ⟨⟨x, hx, rfl⟩, hne⟩
    exact ⟨x, ⟨hx, hne⟩, rfl⟩

structure RepInv (b : BufferDb) : Prop where
  tagged : ∀ id, id ∈ inFlight b ↔ batchRows b id ≠ []
  nodup : (inFlight b).Nodup
  drawn : ∀ id ∈ inFlight b, id ∈ b.ulids
  origin : ∀ id, ∀ x ∈ batchRows b id, ∀ y ∈ batchRows b id, x.2.origin = y.2.origin

theorem repInv_openNew : RepInv openNew where
  tagged := fun id => by simp [inFlight, openNew, batchRows, Table.select]
  nodup := List.nodup_nil
  drawn := by simp [inFlight, openNew]
  origin := by simp [openNew, batchRows, Table.select]

theorem RepInv.batchRows_eq_nil (h : RepInv b) {id : String} (hid : id ∉ b.ulids) :
    batchRows b id = [] := by
  by_contra hne
  exact hid (h.drawn id ((h.tagged id).mpr hne))

/-- An acknowledged batch has no rows left. -/
theorem batchRows_ackOk {id : String}
    (hp : b'.db.pendingSamples = b.db.pendingSamples.delete fun x => x.2.inBatch id) :
    batchRows b' id = [] := by
  unfold batchRows
  rw [hp]
  simp [Table.select, List.filter_filter]

theorem batchRows_ackRetry {id : String} (hp : b'.db.pendingSamples =
      b.db.pendingSamples.update (fun x => x.2.inBatch id) (Row.setBatch none)) :
    batchRows b' id = [] := by
  refine List.eq_nil_iff_forall_not_mem.mpr fun ⟨i, r'⟩ hr' => ?_
  obtain ⟨hr', hid⟩ := mem_batchRows.mp hr'
  rw [hp, Table.rows_update] at hr'
  obtain ⟨r, -, ⟨-, rfl⟩ | ⟨hb, rfl⟩⟩ := mem_changed.mp hr'
  · cases hid
  · exact hb (beq_iff_eq.mpr hid)

/-- The rows of a batch just claimed are the claimed ones. -/
theorem mem_batchRows_claim {maxSize : UInt64} {ulid : String} {x y : ℕ × Row}
    (hx : (b.db.pendingSamples.select Row.isPending).head? = some x)
    (hrows : b'.db.pendingSamples.rows = b.db.pendingSamples.rows.map fun y =>
      if y.1 ∈ claimIds b.db.pendingSamples maxSize then (y.1, y.2.setBatch (some ulid)) else y)
    (hnil : batchRows b ulid = []) (hy : y ∈ batchRows b' ulid) :
    y.1 ∈ claimIds b.db.pendingSamples maxSize ∧ y.2.origin = x.2.origin := by
  obtain ⟨i, q⟩ := y
  obtain ⟨hy1, hy2⟩ := mem_batchRows.mp hy
  rw [hrows] at hy1
  obtain ⟨r, hr, ⟨hc, rfl⟩ | ⟨-, rfl⟩⟩ := mem_changed.mp hy1
  · obtain ⟨r', hr', -, ho⟩ := mem_claimIds hx hc
    obtain rfl := b.db.pendingSamples.eq_of_mem hr hr'
    exact ⟨hc, ho⟩
  · have hold : (i, q) ∈ batchRows b ulid := mem_batchRows.mpr ⟨hr, hy2⟩
    rw [hnil] at hold
    cases hold

theorem batchRows_claim_ne_nil {maxSize : UInt64} {ulid : String} {x : ℕ × Row}
    (hx : (b.db.pendingSamples.select Row.isPending).head? = some x)
    (hne : claimIds b.db.pendingSamples maxSize ≠ [])
    (hrows : b'.db.pendingSamples.rows = b.db.pendingSamples.rows.map fun y =>
      if y.1 ∈ claimIds b.db.pendingSamples maxSize then (y.1, y.2.setBatch (some ulid)) else y) :
    batchRows b' ulid ≠ [] := by
  obtain ⟨i, hi⟩ := List.exists_mem_of_ne_nil _ hne
  obtain ⟨r, hr, -, -⟩ := mem_claimIds hx hi
  have : (i, r.setBatch (some ulid)) ∈ batchRows b' ulid :=
    mem_batchRows.mpr ⟨hrows ▸ mem_changed.mpr ⟨r, hr, Or.inl ⟨hi, rfl⟩⟩, rfl⟩
  exact List.ne_nil_of_mem this

/-- The batches in flight after an operation, up to the one it names. -/
theorem Effect.mem_inFlight (h : Effect c b b' op) {id : String} (hn : ¬ op.names id) :
    id ∈ inFlight b' ↔ id ∈ inFlight b := by
  unfold inFlight
  cases h with
  | same hdb _ => rw [hdb]
  | enqueue _ _ hf _ => rw [hf]
  | claim _ _ _ _ _ hf _ =>
    rw [hf]
    simp only [Op.names] at hn
    simp [Ne.symm hn]
  | ackOk _ hf _ =>
    rw [hf, mem_settled]
    exact and_iff_left fun h => hn h.symm
  | ackRetry _ hf _ =>
    rw [hf, mem_settled]
    exact and_iff_left fun h => hn h.symm

theorem Effect.inFlight_eq (h : Effect c b b' op) (hn : ∀ id, ¬ op.names id) :
    inFlight b' = inFlight b := by
  unfold inFlight
  cases h with
  | same hdb _ => rw [hdb]
  | enqueue _ _ hf _ => rw [hf]
  | claim _ _ _ _ _ _ _ => exact absurd rfl (hn _)
  | ackOk _ _ _ => exact absurd rfl (hn _)
  | ackRetry _ _ _ => exact absurd rfl (hn _)

theorem Effect.ulids_subset (h : Effect c b b' op) : b.ulids ⊆ b'.ulids := by
  cases h with
  | same _ hu => exact hu
  | enqueue _ _ _ hu => exact hu ▸ List.Subset.refl _
  | claim _ _ _ _ _ _ hu => exact hu ▸ List.subset_append_left _ _
  | ackOk _ _ hu => exact hu ▸ List.Subset.refl _
  | ackRetry _ _ hu => exact hu ▸ List.Subset.refl _

/-- The batch an operation names: in flight, drawn and of one origin if the
operation claimed it, gone if it acknowledged it, as before if the transaction
did nothing. -/
theorem Effect.named (h : Effect c b b' op) (hb : RepInv b) {id : String} (hn : op.names id) :
    (inFlight b' = inFlight b ∧ batchRows b' id = batchRows b id) ∨
    (id ∉ b.ulids ∧ inFlight b' = inFlight b ++ [id] ∧ id ∈ b'.ulids ∧ batchRows b' id ≠ [] ∧
      ∀ x ∈ batchRows b' id, ∀ y ∈ batchRows b' id, x.2.origin = y.2.origin) ∨
    (inFlight b' = (settled id b.db.inFlightBatches).map Prod.fst ∧ batchRows b' id = []) := by
  cases h with
  | same hdb _ => exact Or.inl ⟨by rw [inFlight, hdb, inFlight], by rw [batchRows, hdb, batchRows]⟩
  | enqueue _ _ _ _ => exact hn.elim
  | claim hu hx hne hrows _ hf hul =>
    simp only [Op.names] at hn
    subst hn
    have hnil := hb.batchRows_eq_nil hu
    refine Or.inr (Or.inl ⟨hu, by simp [inFlight, hf], by simp [hul],
      batchRows_claim_ne_nil hx hne hrows, fun y hy z hz => ?_⟩)
    rw [(mem_batchRows_claim hx hrows hnil hy).2, (mem_batchRows_claim hx hrows hnil hz).2]
  | ackOk hp hf _ =>
    simp only [Op.names] at hn
    subst hn
    exact Or.inr (Or.inr ⟨by rw [inFlight, hf], batchRows_ackOk hp⟩)
  | ackRetry hp hf _ =>
    simp only [Op.names] at hn
    subst hn
    exact Or.inr (Or.inr ⟨by rw [inFlight, hf], batchRows_ackRetry hp⟩)

theorem Effect.nodup_inFlight (h : Effect c b b' op) (hb : RepInv b) : (inFlight b').Nodup := by
  unfold inFlight
  cases h with
  | same hdb _ => rw [hdb]; exact hb.nodup
  | enqueue _ _ hf _ => rw [hf]; exact hb.nodup
  | claim hu _ _ _ _ hf _ =>
    rw [hf, List.map_append]
    refine List.nodup_append.mpr ⟨hb.nodup, by simp, fun x hx y hy => ?_⟩
    rw [List.map_singleton, List.mem_singleton] at hy
    subst hy
    exact fun he => hu (he ▸ hb.drawn x hx)
  | ackOk _ hf _ => rw [hf]; exact hb.nodup.sublist (List.filter_sublist.map _)
  | ackRetry _ hf _ => rw [hf]; exact hb.nodup.sublist (List.filter_sublist.map _)

/-- Every operation keeps the agreement. -/
theorem Effect.repInv (h : Effect c b b' op) (hb : RepInv b) : RepInv b' := by
  have hsub := h.ulids_subset
  refine ⟨fun id => ?_, h.nodup_inFlight hb, fun id hid => ?_, fun id => ?_⟩
  · by_cases hn : op.names id
    · rcases h.named hb hn with ⟨hf, hr⟩ | ⟨-, hf, -, hr, -⟩ | ⟨hf, hr⟩
      · rw [hf, hr]; exact hb.tagged id
      · simp [hf, hr]
      · rw [hf, hr, mem_settled]; simp
    · rw [h.mem_inFlight hn, h.batchRows_eq hn]
      exact hb.tagged id
  · by_cases hn : op.names id
    · rcases h.named hb hn with ⟨hf, -⟩ | ⟨-, -, hu, -⟩ | ⟨hf, -⟩
      · exact hsub (hb.drawn id (hf ▸ hid))
      · exact hu
      · rw [hf, mem_settled] at hid
        exact absurd rfl hid.2
    · exact hsub (hb.drawn id ((h.mem_inFlight hn).mp hid))
  · by_cases hn : op.names id
    · rcases h.named hb hn with ⟨-, hr⟩ | ⟨-, -, -, -, ho⟩ | ⟨-, hr⟩
      · rw [hr]; exact hb.origin id
      · exact ho
      · rw [hr]; simp
    · rw [h.batchRows_eq hn]
      exact hb.origin id

theorem repInv_step {s t : BufferDb} {e : Op} (hs : RepInv s) (h : opStep c s e = some t) :
    RepInv t := (op_cases h).repInv hs

theorem repInv_run {es : List Op} (h : run (opStep c) openNew es = some b) : RepInv b :=
  inv_run (fun _ _ _ hs ht => repInv_step hs ht) repInv_openNew h

/-! ### The size a batch was claimed with -/

/-- In the run `es`, a `claim_batch(m)` put the batch `id` in flight. -/
def ClaimedWith (c : BufferConfig) (es : List Op) (id : String) (m : UInt64) : Prop :=
  ∃ pre s nowMs fault t, Took (opStep c) openNew es pre s (.claim m id nowMs fault) t ∧
    id ∉ inFlight s ∧ id ∈ inFlight t

theorem ClaimedWith.mono {es fs : List Op} {id : String} {m : UInt64} (h : ClaimedWith c es id m) :
    ClaimedWith c (es ++ fs) id m := by
  obtain ⟨pre, s, now, f, t, ht, h1, h2⟩ := h
  exact ⟨pre, s, now, f, t, ht.mono, h1, h2⟩

/-- Only a claim puts a batch in flight. -/
theorem Effect.claim_of_mem_inFlight (h : Effect c b b' op) {id : String} (h0 : id ∉ inFlight b)
    (h1 : id ∈ inFlight b') : ∃ m now f, op = .claim m id now f := by
  cases h with
  | same hdb _ => rw [inFlight, hdb] at h1; exact absurd h1 h0
  | enqueue _ _ hf _ => rw [inFlight, hf] at h1; exact absurd h1 h0
  | claim _ _ _ _ _ hf _ =>
    rw [inFlight, hf, List.map_append, List.mem_append] at h1
    obtain rfl : id = _ := List.mem_singleton.mp (h1.resolve_left h0)
    exact ⟨_, _, _, rfl⟩
  | ackOk _ hf _ => rw [inFlight, hf, mem_settled] at h1; exact absurd h1.1 h0
  | ackRetry _ hf _ => rw [inFlight, hf, mem_settled] at h1; exact absurd h1.1 h0

theorem exists_claimedWith {es : List Op} (h : run (opStep c) openNew es = some b) :
    ∀ id ∈ inFlight b, ∃ m, ClaimedWith c es id m := by
  refine hist_run (P := fun es b => ∀ id ∈ inFlight b, ∃ m, ClaimedWith c es id m) ?_ ?_ h
  · simp [inFlight, openNew]
  · intro es s e t hrun ih hstep id hid
    by_cases h0 : id ∈ inFlight s
    · obtain ⟨m, hm⟩ := ih id h0
      exact ⟨m, hm.mono⟩
    · obtain ⟨m, now, f, rfl⟩ := (op_cases hstep).claim_of_mem_inFlight h0 hid
      exact ⟨m, es, s, now, f, t, ⟨⟨[], rfl⟩, hrun, hstep⟩, h0, hid⟩

/-- A batch keeps its rows or loses them all; once its ULID is drawn no
operation adds one. -/
theorem Effect.batchRows_of_drawn (h : Effect c b b' op) (hb : RepInv b) {id : String}
    (hid : id ∈ b.ulids) : batchRows b' id = batchRows b id ∨ batchRows b' id = [] := by
  by_cases hn : op.names id
  · rcases h.named hb hn with ⟨-, hr⟩ | ⟨hu, -⟩ | ⟨-, hr⟩
    · exact Or.inl hr
    · exact absurd hid hu
    · exact Or.inr hr
  · exact Or.inl (h.batchRows_eq hn)

theorem length_batchRows_claim {m : UInt64} {id : String} {now : ℤ} {f : Bool}
    (h : Effect c b b' (.claim m id now f)) (hb : RepInv b) (h0 : id ∉ inFlight b)
    (h1 : id ∈ inFlight b') : id ∈ b'.ulids ∧ (batchRows b' id).length ≤ m.toNat := by
  refine ⟨(h.repInv hb).drawn id h1, ?_⟩
  cases h with
  | same hdb _ => rw [inFlight, hdb] at h1; exact absurd h1 h0
  | claim hu hx _ hrows _ _ _ =>
    have hsub : (batchRows b' id).map Prod.fst ⊆ claimIds b.db.pendingSamples m := by
      intro i hi
      obtain ⟨y, hy, rfl⟩ := List.mem_map.mp hi
      exact (mem_batchRows_claim hx hrows (hb.batchRows_eq_nil hu) hy).1
    have hnd : ((batchRows b' id).map Prod.fst).Nodup :=
      b'.db.pendingSamples.nodup_ids.sublist (List.filter_sublist.map _)
    calc (batchRows b' id).length = ((batchRows b' id).map Prod.fst).length := by simp
      _ ≤ (claimIds b.db.pendingSamples m).length := (hnd.subperm hsub).length_le
      _ ≤ m.toNat := length_claimIds _ _

theorem length_batchRows_le {es : List Op} (h : run (opStep c) openNew es = some b) {id : String}
    {m : UInt64} (hm : ClaimedWith c es id m) : (batchRows b id).length ≤ m.toNat := by
  obtain ⟨pre, s, now, f, t, ht, h0, h1⟩ := hm
  obtain ⟨post, -, hpost⟩ := ht.rest h
  have hs := repInv_run ht.before
  obtain ⟨hu, hl⟩ := length_batchRows_claim (op_cases ht.taken) hs h0 h1
  -- from the claim on the ULID is drawn, so the batch only shrinks
  refine (inv_run (P := fun u => RepInv u ∧ id ∈ u.ulids ∧ (batchRows u id).length ≤ m.toNat)
    (fun u e v hu hv => ?_) ⟨repInv_step hs ht.taken, hu, hl⟩ hpost).2.2
  have he := op_cases hv
  refine ⟨he.repInv hu.1, he.ulids_subset hu.2.1, ?_⟩
  rcases he.batchRows_of_drawn hu.1 hu.2.1 with hr | hr
  · rw [hr]; exact hu.2.2
  · rw [hr]; exact Nat.zero_le _

/-! ### What recovery returns -/

theorem perm_inFlightIds (b : BufferDb) : (inFlightIds b.db).Perm (inFlight b) :=
  (List.perm_insertionSort _ _).map _

theorem originOf_eq (hb : RepInv b) {id : String} {x : ℕ × Row} (hx : x ∈ batchRows b id) :
    originOf b.db.pendingSamples id = x.2.origin := by
  obtain ⟨y, l, hl⟩ := List.exists_cons_of_ne_nil (List.ne_nil_of_mem hx)
  have hy : originOf b.db.pendingSamples id = y.2.origin := by
    have : b.db.pendingSamples.select (Row.inBatch id) = y :: l := hl
    simp [originOf, this]
  rw [hy]
  exact hb.origin id y (hl ▸ List.mem_cons_self) x hx

theorem mem_recoverInFlight {k : ClaimedBatch} (hk : k ∈ recoverInFlight c b) :
    k.batchId ∈ inFlight b ∧ k.samples = (batchRows b k.batchId).map (fun x => sampleOf c x.2) ∧
      k.origin = originOf b.db.pendingSamples k.batchId := by
  obtain ⟨id, hid, rfl⟩ := List.mem_map.mp hk
  exact ⟨(perm_inFlightIds b).mem_iff.mp hid, rfl, rfl⟩

/-- **The tables agree in every buffer.** After any operations on a new buffer,
with any acknowledged ids and any failures: a batch id tags a row exactly when
it is in flight; a batch in flight has a row, was put in flight by a claim and
has at most that claim's `max_size` rows; the rows of a batch have one origin;
and `recover_in_flight` returns one batch for each batch in flight, with that
origin and a sample, and changes nothing. -/
theorem rep_invariant {es : List Op} (h : run (opStep c) openNew es = some b) :
    (∀ id, (∃ x ∈ b.db.pendingSamples.rows, x.2.batchId = some id) ↔ id ∈ inFlight b) ∧
    (∀ id ∈ inFlight b, 1 ≤ (batchRows b id).length ∧ (∃ m, ClaimedWith c es id m) ∧
      ∀ m, ClaimedWith c es id m → (batchRows b id).length ≤ m.toNat) ∧
    (∀ id, ∀ x ∈ batchRows b id, ∀ y ∈ batchRows b id, x.2.origin = y.2.origin) ∧
    (((recoverInFlight c b).map (·.batchId)).Perm (inFlight b) ∧ (inFlight b).Nodup ∧
      (∀ k ∈ recoverInFlight c b, k.samples ≠ [] ∧
        ∀ x ∈ batchRows b k.batchId, x.2.origin = k.origin) ∧
      opStep c b .recover = some b) := by
  have hb := repInv_run h
  refine ⟨fun id => ?_, fun id hid => ?_, hb.origin, ?_, hb.nodup, fun k hk => ?_, rfl⟩
  · rw [hb.tagged id]
    constructor
    · rintro ⟨x, hx, hid⟩
      exact List.ne_nil_of_mem (mem_batchRows.mpr ⟨hx, hid⟩)
    · intro hne
      obtain ⟨x, hx⟩ := List.exists_mem_of_ne_nil _ hne
      exact ⟨x, (mem_batchRows.mp hx).1, (mem_batchRows.mp hx).2⟩
  · have hne := (hb.tagged id).mp hid
    exact ⟨List.length_pos_iff.mpr hne, exists_claimedWith h id hid, fun m hm =>
      length_batchRows_le h hm⟩
  · have hmap : (recoverInFlight c b).map (·.batchId) = inFlightIds b.db := by
      simp [recoverInFlight, Function.comp_def]
    exact hmap ▸ perm_inFlightIds b
  · obtain ⟨hid, hs, ho⟩ := mem_recoverInFlight hk
    refine ⟨?_, fun x hx => ?_⟩
    · rw [hs]
      simpa using (hb.tagged _).mp hid
    · rw [ho, originOf_eq hb hx]

/-- A buffer of at most `maxRows` rows for samples without attributes. -/
def plainConfig (maxRows : UInt64) : BufferConfig := ⟨maxRows, fun _ => "{}", fun _ => some []⟩

/-- A reading without attributes. -/
def reading (id : String) (ts : ℤ) (v : ℚ) : Sample := ⟨id, ts, .fin v, 0, []⟩

/-- A batch claimed and not acknowledged when the process stops. -/
def claimedThenReopened : List Op :=
  [.enqueue (some "con_a") ⟨[reading "v1" 100 1, reading "v2" 200 2], by decide⟩ none,
    .claim 10 "01A" 300 false, .reopen]

theorem rep_invariant_claimed : ∃ b, run (opStep (plainConfig 10)) openNew claimedThenReopened = some b ∧
    inFlight b = ["01A"] ∧
    ((recoverInFlight (plainConfig 10) b).map (·.batchId)).Perm (inFlight b) := by
  refine ⟨_, rfl, by decide, ?_⟩
  have hrun : run (opStep (plainConfig 10)) openNew claimedThenReopened = some _ := rfl
  exact (rep_invariant hrun).2.2.2.1

end Ingest
end LymonAgent
