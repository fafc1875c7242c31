/-
# Padded decimals

A signed number written with at least so many characters, zeros between its sign and
its digits (`pad`), and a signed number read from a text (`readInt`). What is written
is read back (`readInt_pad`). The other way round, a text that is read is what its
number is written as exactly if it is `Plain`: without a plus sign, and without a
minus sign before zeros only (`pad_eq_iff`).
-/
import Mathlib.Data.Nat.Digits.Defs
import Mathlib.Data.List.Induction

namespace LymonAgent
namespace Decimal

/-- `{:0w}`. -/
def pad (w : ℕ) (n : ℤ) : List Char :=
  let digits := Nat.toDigits 10 n.natAbs
  let sign := if n < 0 then ['-'] else []
  sign ++ List.replicate (w - sign.length - digits.length) '0' ++ digits

/-- One or more digits. -/
def readNat (ds : List Char) : Option ℕ :=
  if ds ≠ [] ∧ ds.all Char.isDigit then some (Nat.ofDigitChars 10 ds 0) else none

/-- `str::parse` to a signed integer that the text is too short to overflow. -/
def readInt : List Char → Option ℤ
  | '-' :: ds => (readNat ds).map fun n : ℕ => -(n : ℤ)
  | '+' :: ds => (readNat ds).map Int.ofNat
  | ds => (readNat ds).map Int.ofNat

/-- The text has no sign that the number it is read as is written without. -/
def Plain (cs : List Char) : Prop :=
  cs.head? ≠ some '+' ∧ ¬ (cs.head? = some '-' ∧ ∀ c ∈ cs.tail, c = '0')

instance (cs : List Char) : Decidable (Plain cs) := inferInstanceAs (Decidable (_ ∧ _))

variable {w : ℕ} {n : ℤ} {ds es cs : List Char}

/-! ### Digits -/

theorem digit_le {c : Char} (h : c.isDigit = true) : 48 ≤ c.toNat ∧ c.toNat ≤ 57 := by
  simp only [Char.isDigit, Bool.and_eq_true, decide_eq_true_eq, UInt32.le_iff_toNat_le, ge_iff_le] at h
  exact h

theorem ofDigitChars_snoc (ds : List Char) (c : Char) :
    Nat.ofDigitChars 10 (ds ++ [c]) 0 = 10 * Nat.ofDigitChars 10 ds 0 + (c.toNat - 48) := by
  rw [Nat.ofDigitChars_append, Nat.ofDigitChars_cons, Nat.ofDigitChars_nil]
  rfl

theorem ofDigitChars_lt (h : ∀ c ∈ ds, c.isDigit = true) : Nat.ofDigitChars 10 ds 0 < 10 ^ ds.length := by
  induction ds using List.reverseRecOn with
  | nil => decide
  | append_singleton ds c ih =>
    have hfirst := ih fun d hd => h d (List.mem_append_left _ hd)
    have hc := digit_le (h c (by simp))
    rw [ofDigitChars_snoc, List.length_append, List.length_singleton, pow_succ]
    omega

/-- Texts of digits of one length and one value are the same. -/
theorem ofDigitChars_inj (hd : ∀ c ∈ ds, c.isDigit = true) (he : ∀ c ∈ es, c.isDigit = true)
    (hlen : ds.length = es.length) (h : Nat.ofDigitChars 10 ds 0 = Nat.ofDigitChars 10 es 0) : ds = es := by
  induction ds using List.reverseRecOn generalizing es with
  | nil => exact (List.eq_nil_of_length_eq_zero hlen.symm).symm
  | append_singleton ds c ih =>
    obtain rfl | ⟨es, e, rfl⟩ := List.eq_nil_or_concat es
    · simp at hlen
    · rw [List.concat_eq_append] at *
      have hc := digit_le (hd c (by simp))
      have he' := digit_le (he e (by simp))
      rw [ofDigitChars_snoc, ofDigitChars_snoc] at h
      have hfirst : ds = es := ih (fun d hd' => hd d (List.mem_append_left _ hd'))
        (fun d hd' => he d (List.mem_append_left _ hd')) (by simpa using hlen) (by omega)
      have hlast : c = e := Char.toNat_inj.mp (by omega)
      rw [hfirst, hlast]

theorem readNat_eq_some {v : ℕ} :
    readNat ds = some v ↔ ds ≠ [] ∧ (∀ c ∈ ds, c.isDigit = true) ∧ Nat.ofDigitChars 10 ds 0 = v := by
  unfold readNat
  rw [← List.all_eq_true]
  split
  · rename_i h
    simp [h.1, h.2]
  · rename_i h
    simp only [reduceCtorEq, false_iff]
    exact fun hall => h ⟨hall.1, hall.2.1⟩

/-- Zeros before the digits of a number. -/
theorem readNat_zeros (k v : ℕ) : readNat (List.replicate k '0' ++ Nat.toDigits 10 v) = some v := by
  rw [readNat_eq_some]
  refine ⟨?_, ?_, ?_⟩
  · exact List.append_ne_nil_of_right_ne_nil _ Nat.toDigits_ne_nil
  · intro c hc
    rcases List.mem_append.mp hc with hc | hc
    · rw [List.eq_of_mem_replicate hc]
      rfl
    · exact Nat.isDigit_of_mem_toDigits (by decide) (by decide) hc
  · rw [Nat.ofDigitChars_append, Nat.ofDigitChars_replicate_zero, Nat.mul_zero,
      Nat.ofDigitChars_ten_toDigits]

/-- A text of digits is its number's digits after zeros. -/
theorem zeros_of_readNat {v : ℕ} (h : readNat ds = some v) :
    List.replicate (ds.length - (Nat.toDigits 10 v).length) '0' ++ Nat.toDigits 10 v = ds := by
  obtain ⟨hne, hdigits, hv⟩ := readNat_eq_some.mp h
  have hlt := ofDigitChars_lt hdigits
  rw [hv] at hlt
  have hlen := (Nat.length_toDigits_le_iff (by decide) (List.length_pos_iff.mpr hne)).mpr hlt
  obtain ⟨-, hzeros, hvalue⟩ := readNat_eq_some.mp
    (readNat_zeros (ds.length - (Nat.toDigits 10 v).length) v)
  refine ofDigitChars_inj hzeros hdigits ?_ (hvalue.trans hv.symm)
  rw [List.length_append, List.length_replicate]
  omega

/-! ### Signs -/

/-- A text of digits is read without a sign. -/
theorem readInt_of_readNat {v : ℕ} (h : readNat ds = some v) : readInt ds = some (v : ℤ) := by
  obtain ⟨hne, hdigits, -⟩ := readNat_eq_some.mp h
  cases ds with
  | nil => exact absurd rfl hne
  | cons c ds =>
    have hc := digit_le (hdigits c List.mem_cons_self)
    unfold readInt
    split
    · rename_i heq
      rw [(List.cons.inj heq).1] at hc
      exact absurd hc.1 (by decide)
    · rename_i heq
      rw [(List.cons.inj heq).1] at hc
      exact absurd hc.1 (by decide)
    · rw [h]
      rfl

theorem pad_of_nonneg (w : ℕ) (v : ℕ) :
    pad w v = List.replicate (w - (Nat.toDigits 10 v).length) '0' ++ Nat.toDigits 10 v := by
  have hsign : ¬ (v : ℤ) < 0 := by omega
  simp only [pad, if_neg hsign, Int.natAbs_natCast, List.length_nil, Nat.sub_zero, List.nil_append]

theorem pad_of_neg (w : ℕ) {v : ℕ} (h : v ≠ 0) : pad w (-(v : ℤ)) =
    '-' :: (List.replicate (w - 1 - (Nat.toDigits 10 v).length) '0' ++ Nat.toDigits 10 v) := by
  have hsign : -(v : ℤ) < 0 := by omega
  simp only [pad, if_pos hsign, Int.natAbs_neg, Int.natAbs_natCast, List.length_singleton,
    List.cons_append, List.nil_append]

theorem readInt_neg {v : ℕ} (h : readNat ds = some v) : readInt ('-' :: ds) = some (-(v : ℤ)) := by
  rw [readInt, h]
  rfl

/-- **What is written is read back.** -/
theorem readInt_pad (w : ℕ) (n : ℤ) : readInt (pad w n) = some n := by
  obtain ⟨v, rfl | rfl⟩ := n.eq_nat_or_neg
  · rw [pad_of_nonneg]
    exact readInt_of_readNat (readNat_zeros _ v)
  · by_cases h : v = 0
    · rw [h]
      exact readInt_of_readNat (pad_of_nonneg w 0 ▸ readNat_zeros _ 0)
    · rw [pad_of_neg w h]
      exact readInt_neg (readNat_zeros _ v)

/-- A number that fits is written with exactly so many characters. -/
theorem length_pad (hn : 0 ≤ n) (hw : 0 < w) (h : n < 10 ^ w) : (pad w n).length = w := by
  obtain ⟨v, rfl⟩ := Int.eq_ofNat_of_zero_le hn
  have hlen := (Nat.length_toDigits_le_iff (n := v) (b := 10) (by decide) hw).mpr (by exact_mod_cast h)
  rw [pad_of_nonneg, List.length_append, List.length_replicate]
  omega

theorem length_pad_neg (hn : n < 0) (hw : 0 < w) (h : -10 ^ w < n) : (pad (w + 1) n).length = w + 1 := by
  obtain ⟨v, rfl | rfl⟩ := n.eq_nat_or_neg
  · omega
  · have hlen := (Nat.length_toDigits_le_iff (n := v) (b := 10) (by decide) hw).mpr (by
      have hlt : (v : ℤ) < 10 ^ w := by omega
      exact_mod_cast hlt)
    rw [pad_of_neg _ (by omega), List.length_cons, List.length_append, List.length_replicate]
    omega

/-- The bounds of what a text of so many characters can be read as. -/
theorem readInt_bounds {k : ℕ} (hlen : cs.length = k + 1) (h : readInt cs = some n) :
    -10 ^ k < n ∧ n < 10 ^ (k + 1) := by
  have hvalue : ∀ {ds : List Char} {v m : ℕ}, ds.length ≤ m → readNat ds = some v → v < 10 ^ m := by
    intro ds v m hm hv
    obtain ⟨-, hdigits, rfl⟩ := readNat_eq_some.mp hv
    exact Nat.lt_of_lt_of_le (ofDigitChars_lt hdigits) (Nat.pow_le_pow_right (by decide) hm)
  have hpos : ∀ m : ℕ, (0 : ℤ) < 10 ^ m := fun m => pow_pos (by decide) m
  unfold readInt at h
  split at h
  · obtain ⟨v, hv, rfl⟩ := Option.map_eq_some_iff.mp h
    have hlt : (v : ℤ) < 10 ^ k := by exact_mod_cast hvalue (by simpa using hlen.le) hv
    have hk := hpos (k + 1)
    omega
  · obtain ⟨v, hv, rfl⟩ := Option.map_eq_some_iff.mp h
    have hlt : (v : ℤ) < 10 ^ (k + 1) := by
      exact_mod_cast hvalue (Nat.le_of_succ_le hlen.le) hv
    have hk := hpos k
    simp only [Int.ofNat_eq_natCast]
    omega
  · obtain ⟨v, hv, rfl⟩ := Option.map_eq_some_iff.mp h
    have hlt : (v : ℤ) < 10 ^ (k + 1) := by exact_mod_cast hvalue hlen.le hv
    have hk := hpos k
    simp only [Int.ofNat_eq_natCast]
    omega

theorem isDigit_of_mem_pad (w v : ℕ) {c : Char} (h : c ∈ pad w v) : c.isDigit = true := by
  rw [pad_of_nonneg] at h
  exact (readNat_eq_some.mp (readNat_zeros _ v)).2.1 c h

/-- A number is written with digits and a minus sign. -/
theorem mem_pad {c : Char} (h : c ∈ pad w n) : c = '-' ∨ c.isDigit = true := by
  obtain ⟨v, rfl | rfl⟩ := n.eq_nat_or_neg
  · exact Or.inr (isDigit_of_mem_pad w v h)
  · by_cases hv : v = 0
    · rw [hv] at h
      exact Or.inr (isDigit_of_mem_pad w 0 h)
    · rw [pad_of_neg w hv] at h
      exact (List.mem_cons.mp h).imp id fun h => (readNat_eq_some.mp (readNat_zeros _ v)).2.1 c h

/-- The number zero is a text of zeros only. -/
theorem readNat_eq_zero (h : readNat ds = some 0) : ∀ c ∈ ds, c = '0' := by
  intro c hc
  rw [← zeros_of_readNat h] at hc
  rcases List.mem_append.mp hc with hc | hc
  · exact List.eq_of_mem_replicate hc
  · exact List.mem_singleton.mp hc

theorem readNat_of_zeros {v : ℕ} (h : readNat ds = some v) (hall : ∀ c ∈ ds, c = '0') : v = 0 := by
  obtain ⟨-, -, hv⟩ := readNat_eq_some.mp h
  rw [List.eq_replicate_of_mem hall, Nat.ofDigitChars_replicate_zero, Nat.mul_zero] at hv
  exact hv.symm

/-- **A text that is read is what its number is written as exactly if it is plain.** -/
theorem pad_eq_iff (h : readInt cs = some n) : pad cs.length n = cs ↔ Plain cs := by
  have hsigned : ∀ (v : ℕ) (c : Char) (ds : List Char), c.isDigit = false →
      pad (c :: ds).length v ≠ c :: ds := by
    intro v c ds hc heq
    have hmem : c ∈ pad (c :: ds).length v := by
      rw [heq]
      exact List.mem_cons_self
    rw [isDigit_of_mem_pad _ v hmem] at hc
    cases hc
  unfold readInt at h
  split at h
  · rename_i ds
    obtain ⟨v, hv, rfl⟩ := Option.map_eq_some_iff.mp h
    by_cases hzero : v = 0
    · rw [hzero] at hv ⊢
      exact iff_of_false (hsigned 0 '-' ds (by decide)) fun hplain => hplain.2 ⟨rfl, readNat_eq_zero hv⟩
    · have hplain : Plain ('-' :: ds) :=
        ⟨by simp, fun hall => hzero (readNat_of_zeros hv hall.2)⟩
      refine iff_of_true ?_ hplain
      rw [pad_of_neg _ hzero, List.length_cons, Nat.add_sub_cancel, zeros_of_readNat hv]
  · rename_i ds
    obtain ⟨v, hv, rfl⟩ := Option.map_eq_some_iff.mp h
    exact iff_of_false (hsigned v '+' ds (by decide)) fun hplain => hplain.1 rfl
  · rename_i hminus hplus
    obtain ⟨v, hv, rfl⟩ := Option.map_eq_some_iff.mp h
    have hplain : Plain cs := by
      cases cs with
      | nil => exact ⟨by simp, fun hall => by simp at hall⟩
      | cons c ds =>
        refine ⟨fun hc => hplus ds ?_, fun hall => hminus ds ?_⟩
        · rw [Option.some.inj hc]
        · rw [Option.some.inj hall.1]
    refine iff_of_true ?_ hplain
    exact (pad_of_nonneg cs.length v).trans (zeros_of_readNat hv)

end Decimal
end LymonAgent
