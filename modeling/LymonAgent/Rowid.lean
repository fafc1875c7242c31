/-
# Rowid tables

A table with an `INTEGER PRIMARY KEY AUTOINCREMENT`: the rows are kept in id
order, an insert takes the id after the largest one ever used, and no id is
used twice. A `Table` carries these facts, so a statement on it cannot break
them; the largest id is `2^63 - 1`, past which an insert fails.

Key definitions: `Table`, `Table.insert`, `Table.delete`, `Table.update`,
`Table.select`, `limit`.
Key theorems: `Table.eq_of_mem`, `Table.length_lt`, `lt_of_mem_limit`,
`mem_changed`, `Table.rows_setAll`.
-/
import Mathlib.Data.List.Nodup
import Mathlib.Data.List.Perm.Subperm
import Mathlib.Algebra.Order.Ring.Int

namespace LymonAgent
namespace Rowid

/-- The largest rowid. -/
def maxRowid : ℕ := 2 ^ 63 - 1

/-- The rows of a table in id order, and the largest id it ever used. -/
structure Table (α : Type*) where
  rows : List (ℕ × α)
  seq : ℕ
  sorted : rows.Pairwise fun x y => x.1 < y.1
  pos : ∀ x ∈ rows, 0 < x.1
  le_seq : ∀ x ∈ rows, x.1 ≤ seq
  seq_le : seq ≤ maxRowid

/-- `LIMIT n`: a negative limit is none. -/
def limit {β : Type*} (n : ℤ) (l : List β) : List β := if n < 0 then l else l.take n.toNat

theorem limit_sublist {β : Type*} (n : ℤ) (l : List β) : (limit n l).Sublist l := by
  unfold limit
  split
  · exact List.Sublist.refl _
  · exact List.take_sublist _ _

theorem mem_of_mem_limit {β : Type*} {n : ℤ} {l : List β} {x : β} (h : x ∈ limit n l) : x ∈ l :=
  (limit_sublist n l).subset h

theorem length_limit {β : Type*} {n : ℤ} (hn : 0 ≤ n) (l : List β) :
    (limit n l).length = min n.toNat l.length := by
  simp [limit, not_lt.mpr hn]

/-- The first entries of an ordered list are its least. -/
theorem lt_of_mem_take {β : Type*} {r : β → β → Prop} {n : ℕ} {l : List β} (hl : l.Pairwise r)
    {x y : β} (hx : x ∈ l.take n) (hy : y ∈ l) (hy' : y ∉ l.take n) : r x y := by
  rw [← List.take_append_drop n l, List.pairwise_append] at hl
  refine hl.2.2 x hx y ?_
  rw [← List.take_append_drop n l, List.mem_append] at hy
  exact hy.resolve_left hy'

theorem lt_of_mem_limit {β : Type*} {r : β → β → Prop} {n : ℤ} {l : List β} (hl : l.Pairwise r)
    {x y : β} (hx : x ∈ limit n l) (hy : y ∈ l) (hy' : y ∉ limit n l) : r x y := by
  unfold limit at hx hy'
  split at hx
  · rename_i h
    rw [if_pos h] at hy'
    exact absurd hy hy'
  · rename_i h
    rw [if_neg h] at hy'
    exact lt_of_mem_take hl hx hy hy'

/-- The entries of a sublist, picked out of the whole list. -/
theorem filter_mem_sublist {β : Type*} {l m : List β} [DecidablePred (· ∈ l)] (hs : l.Sublist m)
    (hm : m.Nodup) : (m.filter fun x => decide (x ∈ l)) = l := by
  have hself : (l.filter fun x => decide (x ∈ l)) = l := List.filter_eq_self.mpr (by simp)
  have hsub := hs.filter fun x => decide (x ∈ l)
  rw [hself] at hsub
  refine (hsub.eq_of_length_le ?_).symm
  exact ((hm.filter _).subperm fun x hx => by simpa using (List.mem_filter.mp hx).2).length_le

/-! ### Rows with some of their columns changed -/

section Changed

variable {α : Type*} {p : ℕ × α → Prop} [DecidablePred p] {f : α → α} {l : List (ℕ × α)}

/-- The row of an id after a change is the row of that id before it, changed or
as it was. -/
theorem mem_changed {i : ℕ} {b : α} :
    (i, b) ∈ (l.map fun x => if p x then (x.1, f x.2) else x) ↔
      ∃ a, (i, a) ∈ l ∧ ((p (i, a) ∧ b = f a) ∨ (¬ p (i, a) ∧ b = a)) := by
  rw [List.mem_map]
  constructor
  · rintro ⟨⟨j, a⟩, ha, he⟩
    by_cases hp : p (j, a)
    · rw [if_pos hp, Prod.mk.injEq] at he
      obtain ⟨rfl, rfl⟩ := he
      exact ⟨a, ha, Or.inl ⟨hp, rfl⟩⟩
    · rw [if_neg hp, Prod.mk.injEq] at he
      obtain ⟨rfl, rfl⟩ := he
      exact ⟨a, ha, Or.inr ⟨hp, rfl⟩⟩
  · rintro ⟨a, ha, ⟨hp, rfl⟩ | ⟨hp, rfl⟩⟩
    · exact ⟨(i, a), ha, if_pos hp⟩
    · exact ⟨(i, b), ha, if_neg hp⟩

/-- A filter that passes no changed row, before or after the change, does not
see the change. -/
theorem filter_changed {q : ℕ × α → Bool}
    (h : ∀ x ∈ l, p x → q x = false ∧ q (x.1, f x.2) = false) :
    (l.map fun x => if p x then (x.1, f x.2) else x).filter q = l.filter q := by
  rw [List.filter_map, List.filter_congr (q := q)]
  · refine (List.map_congr_left fun x hx => ?_).trans (List.map_id _)
    obtain ⟨hx, hq⟩ := List.mem_filter.mp hx
    refine if_neg fun hp => ?_
    rw [(h x hx hp).1] at hq
    cases hq
  · intro x hx
    by_cases hp : p x
    · simp only [Function.comp_apply, if_pos hp]
      rw [(h x hx hp).1, (h x hx hp).2]
    · simp only [Function.comp_apply, if_neg hp]

/-- A filter that tells the changed rows from the others, passing the changed
ones or the others. -/
theorem filter_changed_pos {q : ℕ × α → Bool}
    (h : ∀ x ∈ l, q (if p x then (x.1, f x.2) else x) = decide (p x)) :
    (l.map fun x => if p x then (x.1, f x.2) else x).filter q =
      (l.filter fun x => decide (p x)).map fun x => (x.1, f x.2) := by
  have hq : ∀ x ∈ l, (q ∘ fun x => if p x then (x.1, f x.2) else x) x = decide (p x) := h
  rw [List.filter_map, List.filter_congr hq]
  refine List.map_congr_left fun x hx => if_pos ?_
  simpa using (List.mem_filter.mp hx).2

theorem filter_changed_neg {q : ℕ × α → Bool}
    (h : ∀ x ∈ l, q (if p x then (x.1, f x.2) else x) = decide (p x)) :
    (l.map fun x => if p x then (x.1, f x.2) else x).filter (fun x => !q x) =
      l.filter fun x => decide (¬ p x) := by
  have hq : ∀ x ∈ l, ((fun x => !q x) ∘ fun x => if p x then (x.1, f x.2) else x) x =
      decide (¬ p x) := by
    intro x hx
    rw [Function.comp_apply, h x hx, decide_not]
  rw [List.filter_map, List.filter_congr hq]
  refine (List.map_congr_left fun x hx => ?_).trans (List.map_id _)
  exact if_neg (by simpa using (List.mem_filter.mp hx).2)

end Changed

namespace Table

variable {α : Type*}

/-- A table nothing was inserted into yet. -/
def empty : Table α where
  rows := []
  seq := 0
  sorted := List.Pairwise.nil
  pos := by simp
  le_seq := by simp
  seq_le := Nat.zero_le _

/-- `INSERT`: the new row has the next id. It fails when the ids are used up. -/
def insert (t : Table α) (a : α) : Option (Table α) :=
  if h : t.seq < maxRowid then
    some
      { rows := t.rows ++ [(t.seq + 1, a)]
        seq := t.seq + 1
        sorted := by
          refine List.pairwise_append.mpr ⟨t.sorted, by simp, fun x hx y hy => ?_⟩
          have := t.le_seq x hx
          simp only [List.mem_singleton] at hy
          subst hy; simp only; omega
        pos := by
          intro x hx
          rcases List.mem_append.mp hx with hx | hx
          · exact t.pos x hx
          · simp only [List.mem_singleton] at hx
            subst hx; exact Nat.succ_pos _
        le_seq := by
          intro x hx
          rcases List.mem_append.mp hx with hx | hx
          · have := t.le_seq x hx; omega
          · simp only [List.mem_singleton] at hx
            subst hx; exact le_rfl
        seq_le := h }
  else none

/-- `DELETE`: the rows that `p` holds of go. -/
def delete (p : ℕ × α → Bool) (t : Table α) : Table α where
  rows := t.rows.filter fun x => !p x
  seq := t.seq
  sorted := t.sorted.sublist List.filter_sublist
  pos := fun x hx => t.pos x (List.mem_of_mem_filter hx)
  le_seq := fun x hx => t.le_seq x (List.mem_of_mem_filter hx)
  seq_le := t.seq_le

/-- `UPDATE`: `f` on the columns of the rows that `p` holds of. -/
def update (p : ℕ × α → Bool) (f : α → α) (t : Table α) : Table α where
  rows := t.rows.map fun x => if p x then (x.1, f x.2) else x
  seq := t.seq
  sorted := by
    refine List.pairwise_map.mpr (t.sorted.imp fun {x y} h => ?_)
    split <;> split <;> exact h
  pos := by
    intro y hy
    obtain ⟨x, hx, rfl⟩ := List.mem_map.mp hy
    have := t.pos x hx
    split <;> exact this
  le_seq := by
    intro y hy
    obtain ⟨x, hx, rfl⟩ := List.mem_map.mp hy
    have := t.le_seq x hx
    split <;> exact this
  seq_le := t.seq_le

/-- `SELECT`: the rows that `p` holds of, in id order. -/
def select (p : α → Bool) (t : Table α) : List (ℕ × α) := t.rows.filter fun x => p x.2

/-- One `UPDATE` for each of the ids `is`. -/
def setAll (is : List ℕ) (f : α → α) (t : Table α) : Table α :=
  is.foldl (fun t i => t.update (fun x => x.1 == i) f) t

@[simp] theorem rows_empty : (empty : Table α).rows = [] := rfl

@[simp] theorem rows_delete (p : ℕ × α → Bool) (t : Table α) :
    (t.delete p).rows = t.rows.filter fun x => !p x := rfl

@[simp] theorem rows_update (p : ℕ × α → Bool) (f : α → α) (t : Table α) :
    (t.update p f).rows = t.rows.map fun x => if p x then (x.1, f x.2) else x := rfl

theorem insert_eq_some {t u : Table α} {a : α} (h : t.insert a = some u) :
    u.rows = t.rows ++ [(t.seq + 1, a)] ∧ u.seq = t.seq + 1 := by
  unfold insert at h
  split at h
  · obtain rfl := Option.some.inj h; exact ⟨rfl, rfl⟩
  · cases h

theorem insert_eq_none_iff {t : Table α} {a : α} : t.insert a = none ↔ maxRowid ≤ t.seq := by
  unfold insert
  split
  · rename_i h
    simp [h]
  · rename_i h
    simpa using h

theorem nodup_ids (t : Table α) : (t.rows.map Prod.fst).Nodup :=
  List.pairwise_map.mpr (t.sorted.imp fun h => Nat.ne_of_lt h)

theorem nodup_rows (t : Table α) : t.rows.Nodup := t.nodup_ids.of_map _

/-- An id names one row. -/
theorem eq_of_mem (t : Table α) {i : ℕ} {a b : α} (ha : (i, a) ∈ t.rows) (hb : (i, b) ∈ t.rows) :
    a = b :=
  congrArg Prod.snd (List.inj_on_of_nodup_map t.nodup_ids ha hb rfl)

/-- So rows of the table can be told by their ids. -/
theorem mem_ids_iff (t : Table α) {l : List (ℕ × α)} (hl : l ⊆ t.rows) {x : ℕ × α}
    (hx : x ∈ t.rows) : x.1 ∈ l.map Prod.fst ↔ x ∈ l := by
  constructor
  · intro hi
    obtain ⟨y, hy, hyx⟩ := List.mem_map.mp hi
    have hxy : x = y := Prod.ext hyx.symm (t.eq_of_mem hx (hyx ▸ hl hy))
    exact hxy ▸ hy
  · exact fun hi => List.mem_map.mpr ⟨x, hi, rfl⟩

theorem length_le_seq (t : Table α) : t.rows.length ≤ t.seq := by
  have hsub : t.rows.map Prod.fst ⊆ List.range' 1 t.seq := by
    intro i hi
    obtain ⟨x, hx, rfl⟩ := List.mem_map.mp hi
    have h1 := t.pos x hx
    have h2 := t.le_seq x hx
    exact List.mem_range'_1.mpr ⟨h1, by omega⟩
  simpa using (t.nodup_ids.subperm hsub).length_le

theorem length_lt (t : Table α) : t.rows.length < 2 ^ 63 := by
  have h1 := t.length_le_seq
  have h2 := t.seq_le
  unfold maxRowid at h2
  omega

theorem sorted_select (p : α → Bool) (t : Table α) :
    (t.select p).Pairwise fun x y => x.1 < y.1 :=
  t.sorted.sublist List.filter_sublist

theorem mem_select {p : α → Bool} {t : Table α} {x : ℕ × α} :
    x ∈ t.select p ↔ x ∈ t.rows ∧ p x.2 = true := List.mem_filter

/-- Deleting ids that are there takes one row each. -/
theorem length_delete_ids (t : Table α) {is : List ℕ} (hnd : is.Nodup)
    (hsub : is ⊆ t.rows.map Prod.fst) :
    (t.delete fun x => decide (x.1 ∈ is)).rows.length + is.length = t.rows.length := by
  have hperm : ((t.rows.filter fun x => decide (x.1 ∈ is)).map Prod.fst).Perm is := by
    refine (List.perm_ext_iff_of_nodup (t.nodup_ids.sublist (List.filter_sublist.map _)) hnd).mpr ?_
    intro i
    simp only [List.mem_map, List.mem_filter, decide_eq_true_eq]
    constructor
    · rintro ⟨x, ⟨-, hx⟩, rfl⟩
      exact hx
    · intro hi
      obtain ⟨x, hx, rfl⟩ := List.mem_map.mp (hsub hi)
      exact ⟨x, ⟨hx, hi⟩, rfl⟩
  have hlen := hperm.length_eq
  have hsplit := List.length_eq_length_filter_add (l := t.rows) fun x => decide (x.1 ∈ is)
  simp only [List.length_map] at hlen
  rw [rows_delete]
  omega

/-- Updating the ids one by one is updating them all, for an update that does
not add up. -/
theorem rows_setAll {f : α → α} (hf : ∀ a, f (f a) = f a) :
    ∀ (is : List ℕ) (t : Table α),
      (t.setAll is f).rows = t.rows.map fun x => if x.1 ∈ is then (x.1, f x.2) else x
  | [], t => by simp [setAll]
  | i :: is, t => by
    have ih := rows_setAll hf is (t.update (fun x => x.1 == i) f)
    simp only [setAll, List.foldl_cons] at ih ⊢
    rw [ih, rows_update, List.map_map]
    refine List.map_congr_left fun x _ => ?_
    by_cases h1 : x.1 = i <;> by_cases h2 : x.1 ∈ is <;> simp [h1, h2, hf]

theorem seq_setAll {f : α → α} : ∀ (is : List ℕ) (t : Table α), (t.setAll is f).seq = t.seq
  | [], _ => rfl
  | _ :: is, t => seq_setAll is (t.update _ f)

end Table
end Rowid
end LymonAgent
