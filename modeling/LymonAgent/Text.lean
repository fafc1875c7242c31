/-
# Text

The pieces of text a protocol builds its keys and payloads from: decimal
numbers, fields between separators, base64.

* `span_cancel`, `cut_last`: where a text can be read in one way only, by the
  characters of its parts or by the last separator;
* `keyed`: a name and a number with a colon between them, which determines both
  (`keyed_inj`);
* `split`: the fields between separators, which a separator within a field
  breaks (`split_append`, `two_le_length_split`);
* `base64`: the standard alphabet, with canonical padding and no stray bits.
-/
import Mathlib.Data.List.Basic

namespace LymonAgent
namespace Text

/-! ### Reading a text one way -/

/-- A part of `p` characters ends at the first character that is not `p`. -/
theorem span_cancel {α : Type*} {p : α → Bool} {a b s t : List α} (ha : ∀ c ∈ a, p c = true)
    (hb : ∀ c ∈ b, p c = true) (hs : ∀ c ∈ s.head?, p c = false) (ht : ∀ c ∈ t.head?, p c = false)
    (h : a ++ s = b ++ t) : a = b ∧ s = t := by
  induction a generalizing b with
  | nil =>
    cases b with
    | nil => exact ⟨rfl, h⟩
    | cons x b =>
      have hx : x ∈ s.head? := by
        rw [show s = x :: (b ++ t) from h]; rfl
      exact absurd (hb x List.mem_cons_self) (by simp [hs x hx])
  | cons x a ih =>
    cases b with
    | nil =>
      have hx : x ∈ t.head? := by
        rw [show t = x :: (a ++ s) from h.symm]; rfl
      exact absurd (ha x List.mem_cons_self) (by simp [ht x hx])
    | cons y b =>
      obtain ⟨rfl, htail⟩ := List.cons.inj h
      obtain ⟨rfl, rfl⟩ := ih (fun c hc => ha c (List.mem_cons_of_mem _ hc))
        (fun c hc => hb c (List.mem_cons_of_mem _ hc)) htail
      exact ⟨rfl, rfl⟩

/-- A text determines what stands before and after its last separator. -/
theorem cut_last {c : Char} {x y d e : List Char} (hd : c ∉ d) (he : c ∉ e)
    (h : x ++ c :: d = y ++ c :: e) : x = y ∧ d = e := by
  have hne : ∀ {l : List Char}, c ∉ l → ∀ a ∈ l.reverse, decide (a ≠ c) = true := by
    intro l hl a ha
    simp only [ne_eq, decide_eq_true_eq]
    rintro rfl
    exact hl (List.mem_reverse.mp ha)
  have hrev := congrArg List.reverse h
  simp only [List.reverse_append, List.reverse_cons, List.append_assoc, List.singleton_append] at hrev
  obtain ⟨h1, h2⟩ := span_cancel (hne hd) (hne he) (by simp) (by simp) hrev
  exact ⟨List.reverse_inj.mp (List.cons.inj h2).2, List.reverse_inj.mp h1⟩

/-! ### Decimal numbers and keys -/

theorem isDigit_of_mem_repr {n : ℕ} {c : Char} (h : c ∈ n.repr.toList) : c.isDigit = true := by
  rw [Nat.toList_repr] at h
  exact Nat.isDigit_of_mem_toDigits (by decide) (by decide) h

theorem not_mem_repr {c : Char} (hc : c.isDigit = false) (n : ℕ) : c ∉ n.repr.toList := by
  intro h
  rw [isDigit_of_mem_repr h] at hc
  cases hc

theorem repr_ne_nil (n : ℕ) : n.repr.toList ≠ [] := by
  rw [Nat.toList_repr]
  exact Nat.toDigits_ne_nil

theorem repr_inj {m n : ℕ} (h : m.repr.toList = n.repr.toList) : m = n := by
  rw [Nat.toList_repr, Nat.toList_repr] at h
  rw [← Nat.ofDigitChars_ten_toDigits (n := m), h, Nat.ofDigitChars_ten_toDigits]

/-- A name, a colon and a number. -/
def keyed (f : String) (a : ℕ) : String := f ++ ":" ++ a.repr

theorem toList_keyed (f : String) (a : ℕ) :
    (keyed f a).toList = f.toList ++ ':' :: a.repr.toList := by
  simp [keyed]

theorem keyed_inj {f f' : String} {a a' : ℕ} (h : keyed f a = keyed f' a') : f = f' ∧ a = a' := by
  have hcolon : ∀ n : ℕ, ':' ∉ n.repr.toList := not_mem_repr (by decide)
  have hl := congrArg String.toList h
  rw [toList_keyed, toList_keyed] at hl
  obtain ⟨h1, h2⟩ := cut_last (hcolon a) (hcolon a') hl
  exact ⟨String.toList_injective h1, repr_inj h2⟩

/-- The last character of a key is a digit. -/
theorem getLast_keyed {f : String} {a : ℕ} {c : Char} (h : (keyed f a).toList.getLast? = some c) :
    c.isDigit = true := by
  rw [toList_keyed, List.getLast?_append, List.getLast?_cons] at h
  cases hd : a.repr.toList.getLast? with
  | none => exact absurd (List.getLast?_eq_none_iff.mp hd) (repr_ne_nil a)
  | some d =>
    rw [hd] at h
    obtain rfl : d = c := by simpa using h
    exact isDigit_of_mem_repr (List.mem_of_getLast? hd)

/-! ### Fields -/

/-- `str::split(c)`. -/
def split (c : Char) (s : String) : List String := (s.toList.splitOn c).map String.ofList

theorem split_append (c : Char) (s t : String) :
    split c (s ++ String.singleton c ++ t) = split c s ++ split c t := by
  unfold split
  rw [String.append_assoc, String.toList_append, String.toList_append, String.toList_singleton,
    List.singleton_append, List.splitOn_append_cons_self, List.map_append]

theorem split_eq_singleton {c : Char} {s : String} (h : c ∉ s.toList) : split c s = [s] := by
  rw [split, List.splitOn_eq_singleton h, List.map_singleton, String.ofList_toList]

/-- Where a separator comes after a text that has none. -/
theorem split_first {c : Char} {s : String} (h : c ∉ s.toList) (t : String) :
    split c (s ++ (String.singleton c ++ t)) = s :: split c t := by
  rw [← String.append_assoc, split_append, split_eq_singleton h, List.singleton_append]

/-- A text with a separator in it has several fields. -/
theorem two_le_length_split {c : Char} {s : String} (h : c ∈ s.toList) : 2 ≤ (split c s).length := by
  have hpos : ∀ l : List Char, 0 < (l.splitOn c).length := fun l =>
    List.length_pos_iff.mpr (List.splitOn_ne_nil c l)
  obtain ⟨a, b, hab⟩ := List.append_of_mem h
  rw [split, hab, List.splitOn_append_cons_self, List.length_map, List.length_append]
  have ha := hpos a
  have hb := hpos b
  omega

/-! ### Base64 -/

/-- The six bits of a character of the standard alphabet. -/
def sextet (c : Char) : Option ℕ :=
  if 'A' ≤ c ∧ c ≤ 'Z' then some (c.toNat - 'A'.toNat)
  else if 'a' ≤ c ∧ c ≤ 'z' then some (c.toNat - 'a'.toNat + 26)
  else if '0' ≤ c ∧ c ≤ '9' then some (c.toNat - '0'.toNat + 52)
  else if c = '+' then some 62
  else if c = '/' then some 63
  else none

/-- The last four characters: one or two may be padding, over zero bits. -/
def lastQuad (a b c d : Char) : Option (List UInt8) :=
  if d = '=' then
    if c = '=' then
      match sextet a, sextet b with
      | some x, some y => if y % 16 = 0 then some [.ofNat (x * 4 + y / 16)] else none
      | _, _ => none
    else
      match sextet a, sextet b, sextet c with
      | some x, some y, some z =>
        if z % 4 = 0 then some [.ofNat (x * 4 + y / 16), .ofNat (y * 16 + z / 4)] else none
      | _, _, _ => none
  else
    match sextet a, sextet b, sextet c, sextet d with
    | some x, some y, some z, some w =>
      some [.ofNat (x * 4 + y / 16), .ofNat (y * 16 + z / 4), .ofNat (z * 64 + w)]
    | _, _, _, _ => none

def quads : List Char → Option (List UInt8)
  | [] => some []
  | [a, b, c, d] => lastQuad a b c d
  | a :: b :: c :: d :: rest =>
    match sextet a, sextet b, sextet c, sextet d, quads rest with
    | some x, some y, some z, some w, some bytes =>
      some (.ofNat (x * 4 + y / 16) :: .ofNat (y * 16 + z / 4) :: .ofNat (z * 64 + w) :: bytes)
    | _, _, _, _, _ => none
  | _ => none

/-- `base64::engine::general_purpose::STANDARD.decode`. -/
def base64 (s : String) : Option (List UInt8) := quads s.toList

end Text
end LymonAgent
