/-
# Draining the buffer

Claim a batch, acknowledge it, until nothing is left to claim. A round takes
the oldest pending row and with it the first rows of its origin, and changes no
other row (`drain_round`), so the rounds are a recursion on the pending rows
alone (`Drains`): it ends because a round takes a row, and every pending row is
in one round.

What a batch carries is what was enqueued: the row of a sample keeps its
columns through every operation (`stored_run`), and reads back as the sample
(`sampleOf_rowOf`).

Key definitions: `drain`, `Drains`, `firstOf`.
Key theorems: `drain_round`, `drain_drains`, `drain_exact`.
-/
import LymonAgent.Ingest.Enqueue

namespace LymonAgent
namespace Ingest

open Rowid Runs

variable {c : BufferConfig}

/-! ### A sample and its row -/

theorem sampleOf_setBatch (r : Row) (id : Option String) :
    sampleOf c (r.setBatch id) = sampleOf c r := rfl

theorem Row.Same.sampleOf_eq {r r' : Row} (h : r.Same r') : sampleOf c r = sampleOf c r' := by
  rw [← sampleOf_setBatch r none, ← sampleOf_setBatch r' none]
  exact congrArg (sampleOf c) h

/-- The row of a sample reads back as the sample. -/
theorem sampleOf_rowOf {o : Option String} {s : Sample}
    (h : c.attrs.fromStr (c.attrs.toString s.attrs) = some s.attrs) :
    sampleOf c (rowOf c o s) = s := by
  have hq : UInt32.ofInt (s.quality.toNat : ℤ) = s.quality := by
    have hlt := s.quality.toNat_lt
    have hmod : ((s.quality.toNat : ℤ) % 2 ^ 32).toNat = s.quality.toNat := by omega
    rw [UInt32.ofInt, hmod, UInt32.ofNat_toNat]
  have ha : (sampleOf c (rowOf c o s)).attrs = s.attrs := by
    cases hs : s.attrs with
    | nil => simp [sampleOf, rowOf, hs]
    | cons a as =>
      rw [hs] at h
      simp [sampleOf, rowOf, hs, h]
  cases s with
  | mk pointId tsMs value quality attrs => simp_all [sampleOf, rowOf]

/-- The row `r` came in with an enqueue of the run `es`, for the sample `s`. -/
def StoredBy (c : BufferConfig) (es : List Op) (r : Row) (s : Sample) : Prop :=
  ∃ o ss f, .enqueue o ss f ∈ es ∧ s ∈ ss.1 ∧ (rowOf c o s).Same r

theorem mem_newRows_rowOf {o : Option String} :
    ∀ {n : ℕ} {ss : List Sample} {x : ℕ × Row}, x ∈ newRows c o n ss → ∃ s ∈ ss, x.2 = rowOf c o s
  | n, s :: ss, x, h => by
    rcases List.mem_cons.mp h with rfl | h
    · exact ⟨s, List.mem_cons_self, rfl⟩
    · obtain ⟨s', hs', hx⟩ := mem_newRows_rowOf h
      exact ⟨s', List.mem_cons_of_mem _ hs', hx⟩

/-- A row after an operation was there before it, or is the row of a sample the
operation enqueued. -/
theorem Effect.stored {b b' : BufferDb} {op : Op} (h : Effect c b b' op) {i : ℕ} {r' : Row}
    (hr : (i, r') ∈ b'.db.pendingSamples.rows) :
    (∃ r, (i, r) ∈ b.db.pendingSamples.rows ∧ r.Same r') ∨
    ∃ o ss f, op = .enqueue o ss f ∧ ∃ s ∈ ss.1, r' = rowOf c o s := by
  rcases h.came hr with hold | ⟨hnew, -⟩
  · exact Or.inl hold
  -- a row with a new id is one an enqueue added
  · have hle : ∀ {t : Table Row}, t.seq = b.db.pendingSamples.seq → (i, r') ∈ t.rows → False := by
      intro t ht hi
      have := t.le_seq _ hi
      simp only [ht] at this
      omega
    cases h with
    | same hdb _ => exact (hle (hdb ▸ rfl) hr).elim
    | enqueue hrows _ _ _ =>
      rw [hrows] at hr
      rcases List.mem_append.mp hr with hr | hr
      · exact (hle rfl (mem_dropOldest hr)).elim
      · exact Or.inr ⟨_, _, _, rfl, mem_newRows_rowOf hr⟩
    | claim _ _ _ _ hs _ _ => exact (hle hs hr).elim
    | ackOk hp _ _ => exact (hle (hp ▸ rfl) hr).elim
    | ackRetry hp _ _ => exact (hle (hp ▸ rfl) hr).elim

/-- Every row of a buffer is the row of a sample enqueued on the way to it. -/
theorem stored_run {es : List Op} {b : BufferDb} (h : run (opStep c) openNew es = some b) :
    ∀ x ∈ b.db.pendingSamples.rows, ∃ s, StoredBy c es x.2 s := by
  refine hist_run (P := fun es b => ∀ x ∈ b.db.pendingSamples.rows, ∃ s, StoredBy c es x.2 s)
    ?_ ?_ h
  · intro x hx
    cases hx
  · intro es s e t _ ih hstep x hx
    rcases (op_cases hstep).stored hx with ⟨r, hr, hsame⟩ | ⟨o, ss, f, rfl, s', hs', hx'⟩
    · obtain ⟨s', o, ss, f, he, hs', hsame'⟩ := ih _ hr
      exact ⟨s', o, ss, f, List.mem_append_left _ he, hs', hsame'.trans hsame⟩
    · exact ⟨s', o, ss, f, List.mem_append_right _ (List.mem_singleton.mpr rfl), hs', hx' ▸ .refl _⟩

/-! ### One round -/

/-- The first `m` of the rows that have the origin of `x`. -/
def firstOf (m : ℕ) (x : ℕ × Row) (rows : List (ℕ × Row)) : List (ℕ × Row) :=
  (rows.filter fun y => decide (y.2.origin = x.2.origin)).take m

theorem mem_firstOf_self {m : ℕ} (hm : 1 ≤ m) (x : ℕ × Row) (rest : List (ℕ × Row)) :
    x ∈ firstOf m x (x :: rest) := by
  obtain ⟨k, rfl⟩ := Nat.exists_eq_add_of_le hm
  simp [firstOf, Nat.add_comm 1 k]

theorem firstOf_sublist (m : ℕ) (x : ℕ × Row) (rows : List (ℕ × Row)) :
    (firstOf m x rows).Sublist rows := (List.take_sublist _ _).trans List.filter_sublist

/-- The ids a claim takes, where the cast of `max_size` plays no part. -/
theorem claimIds_eq {b : BufferDb} {m : UInt64} {x : ℕ × Row} {rest : List (ℕ × Row)}
    (hx : pendingRows b = x :: rest) :
    claimIds b.db.pendingSamples m = (firstOf m.toNat x (pendingRows b)).map Prod.fst := by
  have hhead : (b.db.pendingSamples.select Row.isPending).head? = some x := by
    have : b.db.pendingSamples.select Row.isPending = x :: rest := hx
    rw [this]
    rfl
  have hsel : (b.db.pendingSamples.select fun r => r.isPending && decide (r.origin = x.2.origin)) =
      (pendingRows b).filter fun y => decide (y.2.origin = x.2.origin) := by
    simp only [pendingRows, Table.select, List.filter_filter, Bool.and_comm]
  have hlen : ((pendingRows b).filter fun y => decide (y.2.origin = x.2.origin)).length < 2 ^ 63 :=
    Nat.lt_of_le_of_lt (List.filter_sublist.trans List.filter_sublist).length_le
      b.db.pendingSamples.length_lt
  unfold claimIds
  rw [hhead]
  simp only [hsel, limit_asI64 m.toNat_lt hlen]
  rfl

/-- The rows of the pending list `l` that are left when those of `ch` go. -/
def without (ch l : List (ℕ × Row)) : List (ℕ × Row) := l.removeAll ch

theorem without_eq (ch l : List (ℕ × Row)) : without ch l = l.filter fun x => decide (x ∉ ch) := by
  unfold without List.removeAll
  refine List.filter_congr fun x _ => ?_
  rw [List.elem_eq_mem, decide_not]

section

variable {b : BufferDb} {m : UInt64} {ulid : String} {x : ℕ × Row} {rest : List (ℕ × Row)}

theorem head?_pendingRows (hx : pendingRows b = x :: rest) :
    (b.db.pendingSamples.select Row.isPending).head? = some x := by
  have : b.db.pendingSamples.select Row.isPending = x :: rest := hx
  rw [this]
  rfl

theorem claimIds_ne_nil (hm : 1 ≤ m.toNat) (hx : pendingRows b = x :: rest) :
    claimIds b.db.pendingSamples m ≠ [] := by
  rw [claimIds_eq hx, hx]
  exact List.ne_nil_of_mem (List.mem_map.mpr ⟨x, mem_firstOf_self hm x rest, rfl⟩)

/-- The table after a claim. -/
def tagged (b : BufferDb) (m : UInt64) (ulid : String) : Table Row :=
  b.db.pendingSamples.setAll (claimIds b.db.pendingSamples m) (Row.setBatch (some ulid))

theorem claimBatch_eq (hb : RepInv b) (hm : 1 ≤ m.toNat) (hu : ulid ∉ b.ulids) (now : ℤ)
    (hx : pendingRows b = x :: rest) :
    claimBatch c b m ulid now false =
      (⟨⟨tagged b m ulid, b.db.inFlightBatches ++ [(ulid, now)]⟩, b.droppedTotal, b.ulids ++ [ulid]⟩,
        .ok (some ⟨ulid, loadSamplesForBatch c (tagged b m ulid) ulid, x.2.origin⟩)) := by
  have hnotin : ulid ∉ b.db.inFlightBatches.map Prod.fst := fun h => hu (hb.drawn ulid h)
  unfold claimBatch
  simp only [head?_pendingRows hx]
  rw [if_neg (claimIds_ne_nil hm hx), if_neg Bool.false_ne_true, if_neg hnotin]
  rfl

/-- The tag of a claim tells the claimed rows from the others. -/
theorem inBatch_tagged (hb : RepInv b) (hu : ulid ∉ b.ulids) (is : List ℕ) :
    ∀ y ∈ b.db.pendingSamples.rows, Row.inBatch ulid
      (if y.1 ∈ is then (y.1, y.2.setBatch (some ulid)) else y).2 = decide (y.1 ∈ is) := by
  intro y hy
  by_cases h : y.1 ∈ is
  · simp [h, Row.inBatch, Row.setBatch]
  · have hnil := List.filter_eq_nil_iff.mp (hb.batchRows_eq_nil hu) y hy
    simpa [h] using hnil

theorem loadSamplesForBatch_tagged (hb : RepInv b) (hu : ulid ∉ b.ulids)
    (hx : pendingRows b = x :: rest) :
    loadSamplesForBatch c (tagged b m ulid) ulid =
      (firstOf m.toNat x (pendingRows b)).map fun y => sampleOf c y.2 := by
  have hsub : (firstOf m.toNat x (pendingRows b)).Sublist b.db.pendingSamples.rows :=
    (firstOf_sublist _ _ _).trans List.filter_sublist
  have hpos := filter_changed_pos (f := Row.setBatch (some ulid)) (q := fun y => y.2.inBatch ulid)
    (inBatch_tagged hb hu ((firstOf m.toNat x (pendingRows b)).map Prod.fst))
  unfold loadSamplesForBatch Table.select tagged
  rw [rows_setAll_setBatch, claimIds_eq hx, hpos,
    List.filter_congr fun y hy => decide_eq_decide.mpr (Table.mem_ids_iff _ hsub.subset hy),
    filter_mem_sublist hsub b.db.pendingSamples.nodup_rows, List.map_map]
  rfl

theorem rows_delete_tagged (hb : RepInv b) (hu : ulid ∉ b.ulids) (hx : pendingRows b = x :: rest) :
    ((tagged b m ulid).delete fun y => y.2.inBatch ulid).rows =
      without (firstOf m.toNat x (pendingRows b)) b.db.pendingSamples.rows := by
  have hsub : (firstOf m.toNat x (pendingRows b)).Sublist b.db.pendingSamples.rows :=
    (firstOf_sublist _ _ _).trans List.filter_sublist
  have hneg := filter_changed_neg (f := Row.setBatch (some ulid)) (q := fun y => y.2.inBatch ulid)
    (inBatch_tagged hb hu ((firstOf m.toNat x (pendingRows b)).map Prod.fst))
  unfold tagged
  rw [Table.rows_delete, rows_setAll_setBatch, claimIds_eq hx, hneg, without_eq]
  exact List.filter_congr fun y hy =>
    decide_eq_decide.mpr (not_congr (Table.mem_ids_iff _ hsub.subset hy))

/-- A claim and its acknowledgement: the batch is the first rows of the oldest
pending row's origin, those rows go, and nothing else changes. -/
theorem drain_round (hb : RepInv b) (hm : 1 ≤ m.toNat) (hu : ulid ∉ b.ulids) (now : ℤ)
    (hx : pendingRows b = x :: rest) :
    ∃ b₁ b₂, claimBatch c b m ulid now false = (b₁, .ok (some
        ⟨ulid, (firstOf m.toNat x (pendingRows b)).map fun y => sampleOf c y.2, x.2.origin⟩)) ∧
      ackOk b₁ ulid false = (b₂, .ok ()) ∧
      pendingRows b₂ = without (firstOf m.toNat x (pendingRows b)) (pendingRows b) ∧
      inFlightRows b₂ = inFlightRows b ∧ RepInv b₂ ∧ b₂.ulids = b.ulids ++ [ulid] := by
  have hclaim := claimBatch_eq (c := c) hb hm hu now hx
  have hleft := rows_delete_tagged (m := m) hb hu hx
  have hb₁ := (claim_effect (c := c) m now false hu).repInv hb
  rw [hclaim] at hb₁
  rw [loadSamplesForBatch_tagged hb hu hx] at hclaim
  refine ⟨_, _, hclaim, rfl, ?_, ?_, repInv_step (c := c) (e := .ackOk ulid false) hb₁ rfl, rfl⟩
  · simp only [pendingRows, Table.select] at hleft ⊢
    rw [hleft]
    simp only [without_eq, List.filter_filter, Bool.and_comm]
  · simp only [inFlightRows, Table.select]
    rw [hleft, without_eq, List.filter_filter]
    refine List.filter_congr fun y _ => ?_
    -- the rows that went were pending
    cases hp : y.2.isPending with
    | true => rfl
    | false =>
      have hy : y ∉ firstOf m.toNat x (pendingRows b) := fun h => by
        have := (Table.mem_select.mp ((firstOf_sublist _ _ _).subset h)).2
        rw [hp] at this
        cases this
      simpa using hy

end

/-! ### The loop -/

/-- Claim and acknowledge until a claim finds nothing, for at most `fuel`
rounds; the `k`-th draws the ULID and the time `env k`. The batches in the order
they were claimed, or nothing when the rounds ran out or a call failed. -/
def drain (c : BufferConfig) (m : UInt64) (env : ℕ → String × ℤ) :
    ℕ → ℕ → BufferDb → Option (BufferDb × List ClaimedBatch)
  | 0, _, _ => none
  | fuel + 1, k, b =>
    match claimBatch c b m (env k).1 (env k).2 false with
    | (_, .error _) => none
    | (b₁, .ok none) => some (b₁, [])
    | (b₁, .ok (some batch)) =>
      match ackOk b₁ batch.batchId false with
      | (_, .error _) => none
      | (b₂, .ok ()) => (drain c m env fuel (k + 1) b₂).map fun r => (r.1, batch :: r.2)

/-- The rounds of a drain as a recursion on the pending rows: each batch beside
the rows it carries. -/
inductive Drains (c : BufferConfig) (m : ℕ) :
    List (ℕ × Row) → List (ClaimedBatch × List (ℕ × Row)) → Prop
  | nil : Drains c m [] []
  | cons {x : ℕ × Row} {rest : List (ℕ × Row)} {k : ClaimedBatch}
      {rounds : List (ClaimedBatch × List (ℕ × Row))} :
      k.origin = x.2.origin → k.samples = (firstOf m x (x :: rest)).map (fun y => sampleOf c y.2) →
      Drains c m (without (firstOf m x (x :: rest)) (x :: rest)) rounds →
      Drains c m (x :: rest) ((k, firstOf m x (x :: rest)) :: rounds)

theorem length_without_lt {m : ℕ} (hm : 1 ≤ m) (x : ℕ × Row) (rest : List (ℕ × Row)) :
    (without (firstOf m x (x :: rest)) (x :: rest)).length < (x :: rest).length :=
  List.length_filter_lt_length_iff_exists.mpr
    ⟨x, List.mem_cons_self, by simpa using mem_firstOf_self hm x rest⟩

/-- With more rounds than pending rows the loop ends, and its rounds are those
of the recursion. -/
theorem drain_drains {m : UInt64} (hm : 1 ≤ m.toNat) {env : ℕ → String × ℤ}
    (hinj : ∀ j k, (env j).1 = (env k).1 → j = k) :
    ∀ {fuel k : ℕ} {b : BufferDb}, RepInv b → (∀ j, k ≤ j → (env j).1 ∉ b.ulids) →
      (pendingRows b).length < fuel →
      ∃ b' rounds, drain c m env fuel k b = some (b', rounds.map Prod.fst) ∧
        Drains c m.toNat (pendingRows b) rounds ∧ pendingRows b' = [] ∧
        inFlightRows b' = inFlightRows b
  | fuel + 1, k, b, hb, hfresh, hfuel => by
    cases hx : pendingRows b with
    | nil =>
      have hhead : (b.db.pendingSamples.select Row.isPending).head? = none :=
        List.head?_eq_none_iff.mpr hx
      refine ⟨b, [], ?_, .nil, hx, rfl⟩
      simp [drain, claimBatch, hhead]
    | cons x rest =>
      obtain ⟨b₁, b₂, hclaim, hack, hp, hf, hb₂, hul⟩ :=
        drain_round (c := c) hb hm (hfresh k le_rfl) (env k).2 hx
      have hfresh₂ : ∀ j, k + 1 ≤ j → (env j).1 ∉ b₂.ulids := by
        intro j hj
        rw [hul, List.mem_append, List.mem_singleton]
        rintro (h | h)
        · exact hfresh j (by omega) h
        · have := hinj j k h
          omega
      have hlt : (pendingRows b₂).length < fuel := by
        have := length_without_lt hm x rest
        rw [hp, hx]
        rw [hx] at hfuel
        omega
      obtain ⟨b', rounds, hd, hr, hp', hf'⟩ := drain_drains hm hinj hb₂ hfresh₂ hlt
      rw [hx] at hclaim hp
      rw [hp] at hr
      let batch : ClaimedBatch :=
        ⟨(env k).1, (firstOf m.toNat x (x :: rest)).map fun y => sampleOf c y.2, x.2.origin⟩
      refine ⟨b', (batch, firstOf m.toNat x (x :: rest)) :: rounds, ?_, .cons rfl rfl hr, hp',
        hf'.trans hf⟩
      simp only [drain, hclaim, hack, hd]
      rfl

/-- What a round takes: the pending rows were `left`, the batch is `k` and
carries the rows `ch`. -/
structure Round (c : BufferConfig) (m : ℕ) (left : List (ℕ × Row)) (k : ClaimedBatch)
    (ch : List (ℕ × Row)) : Prop where
  samples : k.samples = ch.map fun y => sampleOf c y.2
  first : ∃ x, left.head? = some x ∧ x ∈ ch ∧ k.origin = x.2.origin ∧ ch = firstOf m x left
  origin : ∀ y ∈ ch, y.2.origin = k.origin
  size : 1 ≤ ch.length ∧ ch.length ≤ m
  order : ch.Pairwise fun x y => x.1 < y.1

theorem round_cons {m : ℕ} (hm : 1 ≤ m) {x : ℕ × Row} {rest : List (ℕ × Row)}
    (hsorted : (x :: rest).Pairwise fun x y => x.1 < y.1) {k : ClaimedBatch}
    (ho : k.origin = x.2.origin)
    (hs : k.samples = (firstOf m x (x :: rest)).map fun y => sampleOf c y.2) :
    Round c m (x :: rest) k (firstOf m x (x :: rest)) where
  samples := hs
  first := ⟨x, rfl, mem_firstOf_self hm x rest, ho, rfl⟩
  origin := by
    intro y hy
    have := (List.mem_filter.mp (List.mem_of_mem_take hy)).2
    rw [ho]
    simpa using this
  size := ⟨List.length_pos_of_mem (mem_firstOf_self hm x rest), List.length_take_le _ _⟩
  order := hsorted.sublist (firstOf_sublist _ _ _)

theorem without_append (l ch ch' : List (ℕ × Row)) :
    without (ch ++ ch') l = without ch' (without ch l) := by
  simp only [without_eq, List.filter_filter]
  refine List.filter_congr fun x _ => ?_
  by_cases h1 : x ∈ ch <;> by_cases h2 : x ∈ ch' <;> simp [h1, h2]

/-- Each round takes from the rows that the rounds before it left. -/
theorem Drains.round {m : ℕ} (hm : 1 ≤ m) {rows : List (ℕ × Row)}
    {rounds : List (ClaimedBatch × List (ℕ × Row))} (h : Drains c m rows rounds)
    (hsorted : rows.Pairwise fun x y => x.1 < y.1) :
    ∀ {pre : List (ClaimedBatch × List (ℕ × Row))} {k : ClaimedBatch} {ch : List (ℕ × Row)}
      {post : List (ClaimedBatch × List (ℕ × Row))}, rounds = pre ++ (k, ch) :: post →
      Round c m (without (pre.map Prod.snd).flatten rows) k ch := by
  induction h with
  | nil =>
    intro pre k ch post hsplit
    cases pre <;> cases hsplit
  | @cons x rest k' rounds ho hs _ ih =>
    intro pre k ch post hsplit
    cases pre with
    | nil =>
      simp only [List.nil_append, List.cons.injEq, Prod.mk.injEq] at hsplit
      obtain ⟨⟨rfl, rfl⟩, -⟩ := hsplit
      have hall : without ([] : List (ℕ × Row)) (x :: rest) = x :: rest := by simp [without_eq]
      simp only [List.map_nil, List.flatten_nil, hall]
      exact round_cons hm hsorted ho hs
    | cons p pre =>
      simp only [List.cons_append, List.cons.injEq] at hsplit
      obtain ⟨rfl, hsplit⟩ := hsplit
      simp only [List.map_cons, List.flatten_cons, without_append]
      exact ih (hsorted.sublist List.filter_sublist) hsplit

/-- Every pending row is in one round. -/
theorem Drains.perm {m : ℕ} {rows : List (ℕ × Row)}
    {rounds : List (ClaimedBatch × List (ℕ × Row))} (h : Drains c m rows rounds)
    (hnd : rows.Nodup) : (rounds.map Prod.snd).flatten.Perm rows := by
  induction h with
  | nil => exact List.Perm.refl _
  | @cons x rest k rounds _ _ _ ih =>
    have hch := filter_mem_sublist (firstOf_sublist m x (x :: rest)) hnd
    have hsplit := List.filter_append_perm (fun y => decide (y ∈ firstOf m x (x :: rest))) (x :: rest)
    rw [hch] at hsplit
    simp only [List.map_cons, List.flatten_cons]
    have hleft : (without (firstOf m x (x :: rest)) (x :: rest)).Nodup := by
      rw [without_eq]
      exact hnd.filter _
    refine ((ih hleft).append_left _).trans ?_
    simpa only [without_eq, decide_not] using hsplit

/-- **Draining is exact and ends.** From every buffer and for every `max_size`
from 1 on, with ULIDs that are new and `serde_json` reading the attributes back:
the loop ends and leaves nothing pending and the rows in flight as they were;
the rounds carry every pending row once; each takes the first rows of the origin
of the oldest row that is left; and what a batch says of a row is the sample
that was enqueued. -/
theorem drain_exact {es : List Op} {b : BufferDb} (hrun : run (opStep c) openNew es = some b)
    {m : UInt64} (hm : 1 ≤ m.toNat) {env : ℕ → String × ℤ} (hfresh : ∀ k, (env k).1 ∉ b.ulids)
    (hinj : ∀ j k, (env j).1 = (env k).1 → j = k)
    (hattrs : ∀ o ss f, .enqueue o ss f ∈ es → ∀ s ∈ ss.1,
      c.attrs.fromStr (c.attrs.toString s.attrs) = some s.attrs)
    {fuel : ℕ} (hfuel : (pendingRows b).length < fuel) :
    ∃ b' rounds, drain c m env fuel 0 b = some (b', rounds.map Prod.fst) ∧
      pendingRows b' = [] ∧ inFlightRows b' = inFlightRows b ∧
      (rounds.map Prod.snd).flatten.Perm (pendingRows b) ∧
      (∀ pre k ch post, rounds = pre ++ (k, ch) :: post →
        Round c m.toNat (without (pre.map Prod.snd).flatten (pendingRows b)) k ch) ∧
      ∀ x ∈ pendingRows b, ∃ s, StoredBy c es x.2 s ∧ sampleOf c x.2 = s := by
  obtain ⟨b', rounds, hd, hr, hp, hf⟩ :=
    drain_drains (c := c) hm hinj (repInv_run hrun) (fun j _ => hfresh j) hfuel
  have hsorted := b.db.pendingSamples.sorted_select Row.isPending
  have hnd : (pendingRows b).Nodup := b.db.pendingSamples.nodup_rows.sublist List.filter_sublist
  refine ⟨b', rounds, hd, hp, hf, hr.perm hnd, fun pre k ch post hs => hr.round hm hsorted hs, ?_⟩
  intro x hx
  obtain ⟨s, hs⟩ := stored_run hrun x (List.mem_of_mem_filter hx)
  obtain ⟨o, ss, f, he, hmem, hsame⟩ := hs
  exact ⟨s, ⟨o, ss, f, he, hmem, hsame⟩, hsame.sampleOf_eq.symm.trans (sampleOf_rowOf (hattrs o ss f he s hmem))⟩

/-- Rows of two connectors, one of them claimed and put back. -/
def interleaved : List Op :=
  [.enqueue (some "con_a") ⟨[reading "v1" 100 1], by decide⟩ none,
    .enqueue none ⟨[reading "v2" 200 2], by decide⟩ none,
    .enqueue (some "con_a") ⟨[reading "v3" 300 3], by decide⟩ none,
    .claim 1 "01A" 400 false, .ackRetry "01A" false]

/-- The ULIDs of a drain, each of its own length. -/
def drawn (k : ℕ) : String × ℤ := (String.ofList ('Z' :: List.replicate k 'Z'), 0)

theorem drawn_inj (j k : ℕ) (h : (drawn j).1 = (drawn k).1) : j = k := by
  have := congrArg String.length h
  simpa [drawn] using this

theorem drain_exact_interleaved :
    ∃ b b', ∃ rounds : List (ClaimedBatch × List (ℕ × Row)),
      run (opStep (plainConfig 10)) openNew interleaved = some b ∧
      drain (plainConfig 10) 5 drawn 4 0 b = some (b', rounds.map Prod.fst) ∧
      pendingRows b' = [] ∧ (rounds.map Prod.snd).flatten.Perm (pendingRows b) := by
  have hrun : run (opStep (plainConfig 10)) openNew interleaved = some _ := rfl
  have hfresh : ∀ k, (drawn k).1 ∉ ["01A"] := by
    intro k h
    have := congrArg String.toList (List.mem_singleton.mp h)
    simp [drawn] at this
  have hattrs : ∀ o ss f, .enqueue o ss f ∈ interleaved → ∀ s ∈ ss.1,
      (plainConfig 10).attrs.fromStr ((plainConfig 10).attrs.toString s.attrs) = some s.attrs := by
    intro o ss f he s hs
    simp only [interleaved, List.mem_cons, Op.enqueue.injEq, List.not_mem_nil] at he
    rcases he with ⟨-, rfl, -⟩ | ⟨-, rfl, -⟩ | ⟨-, rfl, -⟩ | he | he | he
    · obtain rfl := List.mem_singleton.mp hs
      rfl
    · obtain rfl := List.mem_singleton.mp hs
      rfl
    · obtain rfl := List.mem_singleton.mp hs
      rfl
    · cases he
    · cases he
    · exact he.elim
  obtain ⟨b', rounds, hd, hp, -, hperm, -⟩ :=
    drain_exact (m := 5) hrun (by decide) hfresh drawn_inj hattrs (show _ < 4 by decide)
  exact ⟨_, b', rounds, hrun, hd, hp, hperm⟩

end Ingest
end LymonAgent
