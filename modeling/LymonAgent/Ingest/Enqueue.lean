/-
# Enqueue and the high-water mark

`enqueue_with_origin` counts, trims and inserts in one transaction, but adds
the trimmed rows to `dropped_total` before the inserts and the commit. A call
ends in one of four ways (`enqueueWithOrigin_cases`): it had no samples, it
failed before anything was counted, it failed afterwards, or it went through.

What a call that went through does is exact (`drop_oldest_exact`). A call that
failed leaves the tables alone; the counter it leaves alone as well unless the
trim took rows and a later statement failed (`CountsUndone`), and only then
does `dropped_total` part from the rows that were really evicted
(`failed_enqueue_iff`).

Key definitions: `dropAmount`, `CountsUndone`, `evictStep`.
Key theorems: `rows_dropOldest`, `insertSamples_error_iff`,
`enqueueWithOrigin_cases`, `drop_oldest_exact`, `failed_enqueue_iff`.
-/
import LymonAgent.Ingest.BufferInv

namespace LymonAgent
namespace Ingest

open Rowid Runs

/-! ### The trim -/

/-- The pending rows, oldest first. -/
def pendingRows (b : BufferDb) : List (ℕ × Row) := b.db.pendingSamples.select Row.isPending

/-- The rows of a batch in flight. -/
def inFlightRows (b : BufferDb) : List (ℕ × Row) :=
  b.db.pendingSamples.select fun r => !r.isPending

/-- What the trim is to take, without the machine arithmetic of `toDrop`. -/
def dropAmount (maxRows total n : ℕ) : ℕ :=
  if total + n ≤ maxRows then 0 else max (total + n - maxRows) (max (maxRows / 100) 1)

/-- The machine arithmetic of `toDrop` is exact below `2^64`. -/
theorem toDrop_eq (maxRows : UInt64) {total n : ℕ} (h : total + n < 2 ^ 64) :
    toDrop maxRows total n =
      if total + n ≤ maxRows.toNat then none else some (dropAmount maxRows.toNat total n) := by
  simp only [toDrop, dropAmount, Nat.mod_eq_of_lt h]
  by_cases hle : total + n ≤ maxRows.toNat
  · rw [if_neg (Nat.not_lt.mpr hle), if_pos hle]
  · rw [if_pos (Nat.not_le.mp hle), if_neg hle, if_neg hle]

theorem getD_toDrop (maxRows : UInt64) {total n : ℕ} (h : total + n < 2 ^ 64) :
    (toDrop maxRows total n).getD 0 = dropAmount maxRows.toNat total n := by
  rw [toDrop_eq maxRows h]
  split
  · rename_i hle
    simp [dropAmount, hle]
  · rfl

theorem isSome_toDrop (maxRows : UInt64) {total n : ℕ} (h : total + n < 2 ^ 64) :
    (toDrop maxRows total n).isSome ↔ maxRows.toNat < total + n := by
  rw [toDrop_eq maxRows h]
  split <;> simp_all

theorem projected_lt (t : Table Row) (samples : Vec Sample) :
    t.rows.length + samples.1.length < 2 ^ 64 := by
  have h1 := t.length_lt
  have h2 := samples.2
  omega

/-- The cast of a `LIMIT` does no harm on a table. -/
theorem limit_asI64 {β : Type*} {d : ℕ} {l : List β} (hd : d < 2 ^ 64) (hl : l.length < 2 ^ 63) :
    limit (asI64 d) l = l.take d := by
  unfold asI64 limit
  by_cases h : d < 2 ^ 63
  · have hpos : ¬ (d : ℤ) < 0 := by omega
    rw [if_pos h, if_neg hpos, Int.toNat_natCast]
  · have hneg : (d : ℤ) - 2 ^ 64 < 0 := by omega
    rw [if_neg h, if_pos hneg, List.take_of_length_le (by omega)]

/-- The trim takes the oldest pending rows and nothing else. -/
theorem rows_dropOldest {maxRows : UInt64} {n : ℕ} {t : Table Row}
    (h : t.rows.length + n < 2 ^ 64) :
    (dropOldest maxRows n t).rows = t.rows.filter fun x =>
      decide (x ∉ (t.select Row.isPending).take (dropAmount maxRows.toNat t.rows.length n)) := by
  have hget := getD_toDrop maxRows h
  have hsel : (t.select Row.isPending).length < 2 ^ 63 :=
    Nat.lt_of_le_of_lt (List.length_filter_le _ _) t.length_lt
  unfold dropOldest
  cases hd : toDrop maxRows t.rows.length n with
  | none =>
    rw [hd] at hget
    simp [← hget]
  | some d =>
    rw [hd, Option.getD_some] at hget
    simp only [Table.rows_delete, limit_asI64 (toDrop_lt hd) hsel, ← hget]
    refine List.filter_congr fun x hx => ?_
    have hsub : (t.select Row.isPending).take d ⊆ t.rows :=
      ((List.take_sublist _ _).trans List.filter_sublist).subset
    simp only [decide_not, t.mem_ids_iff hsub hx]

/-- The trim takes a row exactly when the table would pass its limit and a
row is pending. -/
theorem length_dropOldest_lt_iff (maxRows : UInt64) {n : ℕ} {t : Table Row}
    (h : t.rows.length + n < 2 ^ 64) :
    (dropOldest maxRows n t).rows.length < t.rows.length ↔
      maxRows.toNat < t.rows.length + n ∧ t.select Row.isPending ≠ [] := by
  have hlen := length_dropOldest maxRows n t
  rw [getD_toDrop maxRows h] at hlen
  have hpos : 0 < (t.select Row.isPending).length ↔ t.select Row.isPending ≠ [] :=
    List.length_pos_iff
  have hamount : 0 < dropAmount maxRows.toNat t.rows.length n ↔ maxRows.toNat < t.rows.length + n := by
    unfold dropAmount
    split <;> omega
  rw [← hpos, ← hamount]
  omega

/-! ### The inserts -/

variable {c : BufferConfig}

/-- An insert fails: a value is NaN, the ids are used up, or the statement does. -/
def InsertFails (seq i : ℕ) (ss : List Sample) (fault : Option Stmt) : Prop :=
  (∃ s ∈ ss, s.value = .nan) ∨ maxRowid < seq + ss.length ∨
    ∃ j < ss.length, fault = some (.insert (i + j))

theorem insertFails_cons {seq i : ℕ} {s : Sample} {ss : List Sample} {fault : Option Stmt} :
    InsertFails seq i (s :: ss) fault ↔
      fault = some (.insert i) ∨ s.value = .nan ∨ InsertFails (seq + 1) (i + 1) ss fault := by
  have hseq : seq + (s :: ss).length = seq + 1 + ss.length := by simp; omega
  unfold InsertFails
  rw [hseq]
  constructor
  · rintro (⟨x, hx, hn⟩ | hfull | ⟨j, hj, hf⟩)
    · rcases List.mem_cons.mp hx with rfl | hx
      · exact Or.inr (Or.inl hn)
      · exact Or.inr (Or.inr (Or.inl ⟨x, hx, hn⟩))
    · exact Or.inr (Or.inr (Or.inr (Or.inl hfull)))
    · cases j with
      | zero => exact Or.inl hf
      | succ j =>
        refine Or.inr (Or.inr (Or.inr (Or.inr ⟨j, by simpa using hj, ?_⟩)))
        rw [hf]
        congr 2
        omega
  · rintro (hf | hn | ⟨x, hx, hn⟩ | hfull | ⟨j, hj, hf⟩)
    · exact Or.inr (Or.inr ⟨0, by simp, hf⟩)
    · exact Or.inl ⟨s, List.mem_cons_self, hn⟩
    · exact Or.inl ⟨x, List.mem_cons_of_mem _ hx, hn⟩
    · exact Or.inr (Or.inl hfull)
    · refine Or.inr (Or.inr ⟨j + 1, by simpa using hj, ?_⟩)
      rw [hf]
      congr 2
      omega

/-- When the inserts of a call fail. -/
theorem insertSamples_error_iff (origin : Option String) (fault : Option Stmt) :
    ∀ (i : ℕ) (ss : List Sample) (t : Table Row),
      (∃ e, insertSamples c origin fault i ss t = .error e) ↔ InsertFails t.seq i ss fault
  | i, [], t => by
    have hseq := t.seq_le
    have hno : ¬ InsertFails t.seq i [] fault := by
      rintro (⟨x, hx, -⟩ | hfull | ⟨j, hj, -⟩)
      · cases hx
      · simp only [List.length_nil, Nat.add_zero] at hfull
        omega
      · simp at hj
    simp [insertSamples, hno]
  | i, s :: ss, t => by
    rw [insertFails_cons]
    unfold insertSamples insertSample
    by_cases hf : fault = some (.insert i)
    · simp [hf]
    · by_cases hn : s.value = .nan
      · simp [hf, hn]
      · rw [if_neg hf, if_neg hn]
        simp only [hf, hn, false_or]
        cases hi : t.insert (rowOf c origin s) with
        | none =>
          have hfull := Table.insert_eq_none_iff.mp hi
          have hfails : InsertFails (t.seq + 1) (i + 1) ss fault := Or.inr (Or.inl (by omega))
          simp [hfails]
        | some u =>
          have ih := insertSamples_error_iff origin fault (i + 1) ss u
          rw [(Table.insert_eq_some hi).2] at ih
          exact ih

/-! ### How a call ends -/

/-- A statement fails before the trim is counted. -/
def FailsEarly (maxRows : UInt64) (b : BufferDb) (n : ℕ) (fault : Option Stmt) : Prop :=
  fault = some .start ∨ fault = some .count ∨
    ((toDrop maxRows b.db.pendingSamples.rows.length n).isSome ∧ fault = some .delete)

/-- A statement after the trim fails. -/
def FailsLate (b : BufferDb) (ss : List Sample) (fault : Option Stmt) : Prop :=
  InsertFails b.db.pendingSamples.seq 0 ss fault ∨ fault = some .commit

/-- The buffer with the rows the trim of a call takes already counted. -/
def counted (maxRows : UInt64) (b : BufferDb) (n : ℕ) : BufferDb :=
  { b with droppedTotal := b.droppedTotal +
      (b.db.pendingSamples.rows.length - (dropOldest maxRows n b.db.pendingSamples).rows.length) }

/-- The buffer and the result of a call, by how it ended. -/
inductive Enqueued (c : BufferConfig) (b : BufferDb) (origin : Option String) (ss : List Sample)
    (fault : Option Stmt) : BufferDb × Except DbError Unit → Prop
  | empty : ss = [] → Enqueued c b origin ss fault (b, .ok ())
  | early {e : DbError} : ss ≠ [] → FailsEarly c.maxRows b ss.length fault →
      Enqueued c b origin ss fault (b, .error e)
  | late {e : DbError} : ss ≠ [] → ¬ FailsEarly c.maxRows b ss.length fault → FailsLate b ss fault →
      Enqueued c b origin ss fault (counted c.maxRows b ss.length, .error e)
  | done {u : Table Row} : ss ≠ [] → ¬ FailsEarly c.maxRows b ss.length fault →
      ¬ FailsLate b ss fault →
      u.rows = (dropOldest c.maxRows ss.length b.db.pendingSamples).rows ++
        newRows c origin b.db.pendingSamples.seq ss →
      u.seq = b.db.pendingSamples.seq + ss.length →
      Enqueued c b origin ss fault
        ({ counted c.maxRows b ss.length with db := ⟨u, b.db.inFlightBatches⟩ }, .ok ())

theorem enqueueWithOrigin_cases (b : BufferDb) (origin : Option String) (samples : Vec Sample)
    (fault : Option Stmt) :
    Enqueued c b origin samples.1 fault (enqueueWithOrigin c b origin samples fault) := by
  have hins := insertSamples_error_iff (c := c) origin fault 0 samples.1
    (dropOldest c.maxRows samples.1.length b.db.pendingSamples)
  rw [seq_dropOldest] at hins
  unfold enqueueWithOrigin
  simp only
  split
  · rename_i hnil
    exact .empty (List.isEmpty_iff.mp hnil)
  · rename_i hne
    have hne' : samples.1 ≠ [] := fun h => hne (List.isEmpty_iff.mpr h)
    split
    · rename_i hf
      exact .early hne' (hf.elim Or.inl fun h => Or.inr (Or.inl h))
    · rename_i hf
      split
      · rename_i hdel
        exact .early hne' (Or.inr (Or.inr hdel))
      · rename_i hdel
        have hearly : ¬ FailsEarly c.maxRows b samples.1.length fault := by
          rintro (h | h | h)
          · exact hf (Or.inl h)
          · exact hf (Or.inr h)
          · exact hdel h
        split
        · rename_i e he
          exact .late hne' hearly (Or.inl (hins.mp ⟨e, he⟩))
        · rename_i u hu
          split
          · rename_i hcommit
            exact .late hne' hearly (Or.inr hcommit)
          · rename_i hcommit
            obtain ⟨hr, hs⟩ := insertSamples_ok hu
            rw [seq_dropOldest] at hr hs
            refine .done hne' hearly ?_ hr hs
            rintro (h | h)
            · obtain ⟨e, he⟩ := hins.mpr h
              cases hu.symm.trans he
            · exact hcommit h

/-! ### A call that goes through -/

theorem map_snd_newRows {origin : Option String} :
    ∀ (n : ℕ) (ss : List Sample), (newRows c origin n ss).map Prod.snd = ss.map (rowOf c origin)
  | _, [] => rfl
  | n, s :: ss => by simp [newRows, map_snd_newRows (n + 1) ss]

theorem sorted_newRows {origin : Option String} :
    ∀ (n : ℕ) (ss : List Sample), (newRows c origin n ss).Pairwise fun x y => x.1 < y.1
  | _, [] => List.Pairwise.nil
  | n, s :: ss => by
    refine List.pairwise_cons.mpr ⟨fun x hx => ?_, sorted_newRows (n + 1) ss⟩
    exact (mem_newRows hx).1

/-- What drop-oldest is to do: `ss` go in behind every row, in list order, and
the `d` oldest pending rows go out. -/
structure DroppedOldest (c : BufferConfig) (b : BufferDb) (origin : Option String)
    (ss : List Sample) (d : ℕ) (b' : BufferDb) : Prop where
  inFlight : inFlightRows b' = inFlightRows b ∧ b'.db.inFlightBatches = b.db.inFlightBatches
  inserted : ∃ new,
    b'.db.pendingSamples.rows =
      (b.db.pendingSamples.rows.filter fun x => decide (x ∉ (pendingRows b).take d)) ++ new ∧
    new.map Prod.snd = ss.map (rowOf c origin) ∧ (new.Pairwise fun x y => x.1 < y.1) ∧
    ∀ x ∈ b.db.pendingSamples.rows, ∀ y ∈ new, x.1 < y.1
  removed : (b.db.pendingSamples.rows.filter fun x => decide (x ∉ b'.db.pendingSamples.rows)) =
    (pendingRows b).take d
  count : ((pendingRows b).take d).length = min (pendingRows b).length d
  oldest : ∀ x ∈ b.db.pendingSamples.rows, x ∉ b'.db.pendingSamples.rows →
    ∀ y ∈ b'.db.pendingSamples.rows, y.2.isPending = true → x.1 < y.1
  total : b'.db.pendingSamples.rows.length ≤ max c.maxRows.toNat ((inFlightRows b).length + ss.length)

theorem droppedOldest {b : BufferDb} {origin : Option String} {ss : List Sample} {u : Table Row}
    (hn : ss.length < 2 ^ 63)
    (hr : u.rows = (dropOldest c.maxRows ss.length b.db.pendingSamples).rows ++
      newRows c origin b.db.pendingSamples.seq ss) :
    DroppedOldest c b origin ss
      (dropAmount c.maxRows.toNat b.db.pendingSamples.rows.length ss.length)
      { counted c.maxRows b ss.length with db := ⟨u, b.db.inFlightBatches⟩ } := by
  have hlt : b.db.pendingSamples.rows.length + ss.length < 2 ^ 64 := by
    have := b.db.pendingSamples.length_lt
    omega
  have htotal := length_dropOldest_add_le c.maxRows hn b.db.pendingSamples
  rw [rows_dropOldest hlt] at hr htotal
  set d := dropAmount c.maxRows.toNat b.db.pendingSamples.rows.length ss.length with hd
  have hsub : ((pendingRows b).take d).Sublist b.db.pendingSamples.rows :=
    (List.take_sublist _ _).trans List.filter_sublist
  have hlast : ∀ x ∈ b.db.pendingSamples.rows, ∀ y ∈ newRows c origin b.db.pendingSamples.seq ss,
      x.1 < y.1 := fun x hx y hy =>
    Nat.lt_of_le_of_lt (b.db.pendingSamples.le_seq x hx) (mem_newRows hy).1
  have hgone : ∀ x ∈ b.db.pendingSamples.rows, x ∉ u.rows ↔ x ∈ (pendingRows b).take d := by
    intro x hx
    have hnew : x ∉ newRows c origin b.db.pendingSamples.seq ss :=
      fun h => Nat.lt_irrefl _ (hlast x hx x h)
    rw [hr, List.mem_append, List.mem_filter]
    simp [hx, hnew, pendingRows]
  refine ⟨⟨?_, rfl⟩, ⟨_, hr, map_snd_newRows _ _, sorted_newRows _ _, hlast⟩, ?_, ?_, ?_, ?_⟩
  · -- a trimmed row is pending and so is a new one
    have hnew : (newRows c origin b.db.pendingSamples.seq ss).filter (fun x => !x.2.isPending) = [] := by
      rw [List.filter_eq_nil_iff]
      intro x hx
      simp [Row.isPending, (mem_newRows hx).2.2.1]
    simp only [inFlightRows, Table.select]
    rw [hr, List.filter_append, hnew, List.append_nil, List.filter_filter]
    refine List.filter_congr fun x _ => ?_
    cases hp : x.2.isPending with
    | true => rfl
    | false =>
      have hx : x ∉ (pendingRows b).take d := fun h => by
        have := (Table.mem_select.mp (List.mem_of_mem_take h)).2
        rw [hp] at this
        cases this
      simpa [pendingRows] using hx
  · calc (b.db.pendingSamples.rows.filter fun x => decide (x ∉ u.rows))
        = b.db.pendingSamples.rows.filter fun x => decide (x ∈ (pendingRows b).take d) :=
          List.filter_congr fun x hx => by rw [decide_eq_decide]; exact hgone x hx
      _ = (pendingRows b).take d := filter_mem_sublist hsub b.db.pendingSamples.nodup_rows
  · rw [List.length_take, Nat.min_comm]
  · intro x hx hxu y hy hp
    have hxd := (hgone x hx).mp hxu
    rw [hr, List.mem_append] at hy
    rcases hy with hy | hy
    · obtain ⟨hy, hyd⟩ := List.mem_filter.mp hy
      exact lt_of_mem_take (b.db.pendingSamples.sorted_select Row.isPending) hxd
        (Table.mem_select.mpr ⟨hy, hp⟩) (by simpa [pendingRows] using hyd)
    · exact hlast x hx y hy
  · rw [hr, List.length_append, length_newRows]
    exact htotal

/-- **Drop-oldest keeps exactly the newest.** A call that goes through on a
buffer of `P` pending and `F` in-flight rows leaves the rows in flight alone,
puts its samples behind every row in list order and takes the
`dropAmount maxRows (P + F) n` oldest pending rows, or all `P` of them; what it
leaves is within `max maxRows (F + n)` rows; and the machine arithmetic of the
amount is exact. -/
theorem drop_oldest_exact {b b' : BufferDb} {origin : Option String} {samples : Vec Sample}
    {fault : Option Stmt} (hne : samples.1 ≠ [])
    (hok : enqueueWithOrigin c b origin samples fault = (b', .ok ())) :
    let total := (pendingRows b).length + (inFlightRows b).length
    let d := dropAmount c.maxRows.toNat total samples.1.length
    DroppedOldest c b origin samples.1 d b' ∧
      b.db.pendingSamples.rows.length = total ∧
      toDrop c.maxRows total samples.1.length =
        (if total + samples.1.length ≤ c.maxRows.toNat then none else some d) ∧
      total + samples.1.length < 2 ^ 63 ∧ asI64 d = d := by
  have htot : (pendingRows b).length + (inFlightRows b).length = b.db.pendingSamples.rows.length :=
    length_select_add b.db.pendingSamples
  intro total d
  have hcases := enqueueWithOrigin_cases (c := c) b origin samples fault
  rw [hok] at hcases
  cases hcases with
  | empty h => exact absurd h hne
  | @done u _ _ hlate hr hs =>
    have hd : d = dropAmount c.maxRows.toNat b.db.pendingSamples.rows.length samples.1.length :=
      congrArg (dropAmount c.maxRows.toNat · samples.1.length) htot
    have hlen : total + samples.1.length < 2 ^ 63 := by
      have h1 := b.db.pendingSamples.length_le_seq
      have h2 := u.seq_le
      have h3 : total = b.db.pendingSamples.rows.length := htot
      unfold maxRowid at h2
      omega
    have hd63 : d < 2 ^ 63 := by
      have := c.maxRows.toNat_lt
      simp only [d, dropAmount]
      split <;> omega
    have hasI64 : asI64 d = d := by rw [asI64, if_pos hd63]
    exact ⟨hd ▸ droppedOldest samples.2 hr, htot.symm, toDrop_eq _ (by omega), hlen, hasI64⟩

/-- A full buffer of two rows, one of them in flight. -/
def halfClaimed : BufferDb :=
  (run (opStep (plainConfig 2)) openNew
    [.enqueue none ⟨[reading "v1" 110 1, reading "v2" 210 2], by decide⟩ none,
      .claim 1 "01A" 300 false]).getD openNew

/-- Two samples into it: the pending row goes, the row in flight stays, and the
table is one row over its limit. -/
theorem drop_oldest_exact_halfClaimed :
    ∃ b', enqueueWithOrigin (plainConfig 2) halfClaimed none
        ⟨[reading "v3" 400 3, reading "v4" 500 4], by decide⟩ none = (b', .ok ()) ∧
      DroppedOldest (plainConfig 2) halfClaimed none [reading "v3" 400 3, reading "v4" 500 4] 2 b' ∧
      b'.db.pendingSamples.rows.map Prod.fst = [1, 3, 4] := by
  have hok : enqueueWithOrigin (plainConfig 2) halfClaimed none
      ⟨[reading "v3" 400 3, reading "v4" 500 4], by decide⟩ none = (_, .ok ()) := rfl
  exact ⟨_, hok, (drop_oldest_exact (by decide) hok).1, by decide⟩

/-! ### A call that fails -/

/-- The call takes pending rows for the high-water mark, counts them, and then
an insert or the commit fails, which brings the rows back. -/
def CountsUndone (maxRows : UInt64) (b : BufferDb) (ss : List Sample) (fault : Option Stmt) : Prop :=
  (ss ≠ [] ∧ maxRows.toNat < b.db.pendingSamples.rows.length + ss.length ∧ pendingRows b ≠ []) ∧
  (fault ≠ some .start ∧ fault ≠ some .count ∧ fault ≠ some .delete) ∧
  ((∃ s ∈ ss, s.value = .nan) ∨ maxRowid < b.db.pendingSamples.seq + ss.length ∨
    (∃ j < ss.length, fault = some (.insert j)) ∨ fault = some .commit)

theorem failsLate_iff {b : BufferDb} {ss : List Sample} {fault : Option Stmt} :
    FailsLate b ss fault ↔
      (∃ s ∈ ss, s.value = .nan) ∨ maxRowid < b.db.pendingSamples.seq + ss.length ∨
        (∃ j < ss.length, fault = some (.insert j)) ∨ fault = some .commit := by
  simp only [FailsLate, InsertFails, Nat.zero_add, or_assoc]

theorem not_countsUndone_of_early {maxRows : UInt64} {b : BufferDb} {ss : List Sample}
    {fault : Option Stmt} (h : FailsEarly maxRows b ss.length fault) :
    ¬ CountsUndone maxRows b ss fault := by
  rintro ⟨-, ⟨h1, h2, h3⟩, -⟩
  rcases h with h | h | ⟨-, h⟩
  · exact h1 h
  · exact h2 h
  · exact h3 h

theorem not_countsUndone_of_done {maxRows : UInt64} {b : BufferDb} {ss : List Sample}
    {fault : Option Stmt} (h : ¬ FailsLate b ss fault) : ¬ CountsUndone maxRows b ss fault :=
  fun hc => h (failsLate_iff.mpr hc.2.2)

/-- A call that fails late leaves the counter alone where the trim takes no row. -/
theorem counted_eq_iff {maxRows : UInt64} {b : BufferDb} {ss : List Sample} {fault : Option Stmt}
    (hn : ss.length < 2 ^ 63) (hne : ss ≠ []) (hearly : ¬ FailsEarly maxRows b ss.length fault)
    (hlate : FailsLate b ss fault) :
    (counted maxRows b ss.length).droppedTotal = b.droppedTotal ↔
      ¬ CountsUndone maxRows b ss fault := by
  have hlt : b.db.pendingSamples.rows.length + ss.length < 2 ^ 64 := by
    have := b.db.pendingSamples.length_lt
    omega
  have hdrop := length_dropOldest_lt_iff maxRows hlt
  have hundone : CountsUndone maxRows b ss fault ↔
      maxRows.toNat < b.db.pendingSamples.rows.length + ss.length ∧ pendingRows b ≠ [] := by
    constructor
    · exact fun h => h.1.2
    · intro h
      refine ⟨⟨hne, h⟩, ⟨fun he => hearly (Or.inl he), fun he => hearly (Or.inr (Or.inl he)), ?_⟩,
        failsLate_iff.mp hlate⟩
      exact fun he => hearly (Or.inr (Or.inr ⟨(isSome_toDrop maxRows hlt).mpr h.1, he⟩))
  rw [hundone]
  unfold pendingRows
  rw [← hdrop]
  simp only [counted]
  omega

theorem failed_enqueue_unchanged_iff (b : BufferDb) (origin : Option String)
    (samples : Vec Sample) (fault : Option Stmt) :
    (∀ e, (enqueueWithOrigin c b origin samples fault).2 = .error e →
      (enqueueWithOrigin c b origin samples fault).1 = b) ↔
      ¬ CountsUndone c.maxRows b samples.1 fault := by
  have hcases := enqueueWithOrigin_cases (c := c) b origin samples fault
  generalize enqueueWithOrigin c b origin samples fault = r at hcases
  cases hcases with
  | empty h => exact iff_of_true (fun _ _ => rfl) fun hc => hc.1.1 h
  | early _ h => exact iff_of_true (fun _ _ => rfl) (not_countsUndone_of_early h)
  | @late e hne hearly hlate =>
    rw [← counted_eq_iff samples.2 hne hearly hlate]
    constructor
    · exact fun h => congrArg BufferDb.droppedTotal (h e rfl)
    · intro h e' _
      simp only [counted] at h ⊢
      rw [h]
  | done _ _ h _ _ =>
    exact iff_of_true (fun e he => by cases he) (not_countsUndone_of_done h)

/-! ### The counter over a run -/

/-- The rows an operation took out of the table. -/
def evicted (b b' : BufferDb) : ℕ :=
  (b.db.pendingSamples.rows.filter fun x => decide (x ∉ b'.db.pendingSamples.rows)).length

/-- The buffer beside the number of rows drop-oldest took since the process
started. -/
def evictStep (c : BufferConfig) (s : BufferDb × ℕ) (op : Op) : Option (BufferDb × ℕ) :=
  (opStep c s.1 op).map fun b' =>
    match op with
    | .enqueue _ _ _ => (b', s.2 + evicted s.1 b')
    | .reopen => (b', 0)
    | _ => (b', s.2)

/-- The operation does not count rows that it does not take. -/
def CountsTrue (maxRows : UInt64) (b : BufferDb) : Op → Prop
  | .enqueue _ samples fault => ¬ CountsUndone maxRows b samples.1 fault
  | _ => True

theorem evicted_self {b b' : BufferDb} (h : b'.db = b.db) : evicted b b' = 0 := by
  unfold evicted
  rw [h, List.length_eq_zero_iff, List.filter_eq_nil_iff]
  intro x hx
  simpa using hx

theorem droppedTotal_claimBatch (b : BufferDb) (m : UInt64) (id : String) (now : ℤ) (f : Bool) :
    (claimBatch c b m id now f).1.droppedTotal = b.droppedTotal := by
  rcases claimBatch_cases c b m id now f with ⟨-, h⟩ | ⟨us, e, -, h⟩ | ⟨x, u, -, -, -, -, h⟩ <;>
    rw [h]

theorem droppedTotal_ackOk (b : BufferDb) (id : String) (f : Bool) :
    (ackOk b id f).1.droppedTotal = b.droppedTotal := by
  unfold ackOk
  split <;> rfl

theorem droppedTotal_ackRetry (b : BufferDb) (id : String) (f : Bool) :
    (ackRetry b id f).1.droppedTotal = b.droppedTotal := by
  unfold ackRetry
  split <;> rfl

/-- A call keeps the counter and the evicted rows together exactly when it
counts none that it does not take. -/
theorem enqueue_counts (b : BufferDb) (origin : Option String) (samples : Vec Sample)
    (fault : Option Stmt) :
    (enqueueWithOrigin c b origin samples fault).1.droppedTotal =
        b.droppedTotal + evicted b (enqueueWithOrigin c b origin samples fault).1 ↔
      ¬ CountsUndone c.maxRows b samples.1 fault := by
  have hcases := enqueueWithOrigin_cases (c := c) b origin samples fault
  generalize enqueueWithOrigin c b origin samples fault = r at hcases
  cases hcases with
  | empty h =>
    rw [evicted_self rfl]
    exact iff_of_true rfl fun hc => hc.1.1 h
  | early _ h =>
    rw [evicted_self rfl]
    exact iff_of_true rfl (not_countsUndone_of_early h)
  | late hne hearly hlate =>
    have hkept : evicted b (counted c.maxRows b samples.1.length) = 0 := evicted_self rfl
    rw [hkept, Nat.add_zero]
    exact counted_eq_iff samples.2 hne hearly hlate
  | done _ _ h hr _ =>
    refine iff_of_true ?_ (not_countsUndone_of_done h)
    have hlen := length_dropOldest c.maxRows samples.1.length b.db.pendingSamples
    rw [getD_toDrop _ (projected_lt _ _)] at hlen
    have hgone := droppedOldest samples.2 hr
    rw [evicted, hgone.removed, hgone.count]
    simp only [counted, pendingRows]
    omega

theorem evictStep_counts {s t : BufferDb × ℕ} {op : Op} (hs : s.1.droppedTotal = s.2)
    (h : evictStep c s op = some t) :
    t.1.droppedTotal = t.2 ↔ CountsTrue c.maxRows s.1 op := by
  obtain ⟨b', hb', rfl⟩ := Option.map_eq_some_iff.mp h
  cases op with
  | enqueue origin samples fault =>
    obtain rfl := Option.some.inj hb'
    simp only [CountsTrue, ← hs]
    exact enqueue_counts s.1 origin samples fault
  | claim m id now f =>
    simp only [opStep] at hb'
    split at hb'
    · cases hb'
    · obtain rfl := Option.some.inj hb'
      exact iff_of_true ((droppedTotal_claimBatch s.1 m id now f).trans hs) trivial
  | ackOk id f =>
    obtain rfl := Option.some.inj hb'
    exact iff_of_true ((droppedTotal_ackOk s.1 id f).trans hs) trivial
  | ackRetry id f =>
    obtain rfl := Option.some.inj hb'
    exact iff_of_true ((droppedTotal_ackRetry s.1 id f).trans hs) trivial
  | recover =>
    obtain rfl := Option.some.inj hb'
    exact iff_of_true hs trivial
  | reopen =>
    obtain rfl := Option.some.inj hb'
    exact iff_of_true rfl trivial

/-- **When a failed enqueue leaves everything as it was.** A call that fails
leaves the tables and `dropped_total` as they were exactly when it does not
trim and then fail (`CountsUndone`); and all along a run from a new buffer
`dropped_total` is the number of rows evicted since the process started exactly
when no call of the run does so. -/
theorem failed_enqueue_iff (c : BufferConfig) :
    (∀ b origin samples fault,
      (∀ e, (enqueueWithOrigin c b origin samples fault).2 = .error e →
        (enqueueWithOrigin c b origin samples fault).1 = b) ↔
        ¬ CountsUndone c.maxRows b samples.1 fault) ∧
    ∀ es, (∀ pre, pre <+: es → ∀ s, run (evictStep c) (openNew, 0) pre = some s →
        s.1.droppedTotal = s.2) ↔
      Each (evictStep c) (fun s => CountsTrue c.maxRows s.1) (openNew, 0) es := by
  refine ⟨failed_enqueue_unchanged_iff, fun es => ?_⟩
  refine each_iff_run (I := fun s : BufferDb × ℕ => s.1.droppedTotal = s.2) (fun s e t hs ht => ?_)
    (fun s op hop => ?_) rfl
  · exact evictStep_counts hs ht
  · -- only a claim can be refused, and a claim counts nothing
    cases op with
    | claim _ _ _ _ => trivial
    | enqueue _ _ _ => cases hop
    | ackOk _ _ => cases hop
    | ackRetry _ _ => cases hop
    | recover => cases hop
    | reopen => cases hop

/-- A full buffer of one row gets a good sample and a NaN: the call fails, the
row is still there, and the counter says that it was dropped. -/
theorem failed_enqueue_counts :
    ∃ b, run (opStep (plainConfig 1)) openNew [.enqueue none ⟨[reading "v1" 100 1], by decide⟩ none] =
        some b ∧
      let r := enqueueWithOrigin (plainConfig 1) b none
        ⟨[reading "v1" 200 2, ⟨"v2", 200, .nan, 0, []⟩], by decide⟩ none
      r.2 = .error .notNull ∧ r.1.db.pendingSamples.rows = b.db.pendingSamples.rows ∧
        b.droppedTotal = 0 ∧ r.1.droppedTotal = 1 ∧ r.1 ≠ b := by
  refine ⟨_, rfl, rfl, by decide, rfl, by decide, fun h => ?_⟩
  have hcount := congrArg BufferDb.droppedTotal h
  revert hcount
  decide

end Ingest
end LymonAgent
