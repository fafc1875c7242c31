/-
# Doubles as exact numbers

An `f64` is a rational, an infinity or NaN. Arithmetic on the finite ones is
exact: nothing is rounded and nothing overflows. What is kept of IEEE 754 is
what programs branch on: a comparison with NaN is false, a cast to an integer
type truncates and saturates and takes NaN to 0, and `round` goes half away
from zero.

Key definitions: `F64`, `F64.round`, `F64.castSat`, `F64.fromStr`,
`F64.toF32Bits`, `F64.ofBits`.
Key theorem: `F64.numeral_of_fromStr`, what a text that is read is made of.
-/
import Mathlib.Data.Rat.Floor
import Mathlib.Tactic.Linarith

namespace LymonAgent

inductive F64 where
  | fin (q : ℚ)
  | inf (neg : Bool)
  | nan
  deriving DecidableEq

namespace F64

def isFinite : F64 → Bool
  | fin _ => true
  | _ => false

theorem exists_fin_of_isFinite {x : F64} (h : x.isFinite = true) : ∃ q, x = fin q := by
  cases x with
  | fin q => exact ⟨q, rfl⟩
  | inf s => cases h
  | nan => cases h

def neg : F64 → F64
  | fin q => fin (-q)
  | inf s => inf (!s)
  | nan => nan

def add : F64 → F64 → F64
  | fin a, fin b => fin (a + b)
  | fin _, inf s => inf s
  | inf s, fin _ => inf s
  | inf s, inf t => if s = t then inf s else nan
  | _, _ => nan

def sub (x y : F64) : F64 := add x (neg y)

/-- A factor's sign on an infinity; zero times infinity is NaN. -/
def scaleInf (s : Bool) (q : ℚ) : F64 := if q = 0 then nan else inf (s != decide (q < 0))

def mul : F64 → F64 → F64
  | fin a, fin b => fin (a * b)
  | fin a, inf s => scaleInf s a
  | inf s, fin a => scaleInf s a
  | inf s, inf t => inf (s != t)
  | _, _ => nan

def div : F64 → F64 → F64
  | fin a, fin b => if b = 0 then scaleInf false a else fin (a / b)
  | fin _, inf _ => fin 0
  | inf s, fin b => inf (s != decide (b < 0))
  | _, _ => nan

def abs : F64 → F64
  | fin q => fin |q|
  | inf _ => inf false
  | nan => nan

/-- `x == y`: NaN equals nothing. -/
def eq : F64 → F64 → Bool
  | fin a, fin b => decide (a = b)
  | inf s, inf t => s == t
  | _, _ => false

/-- `x > y`: false when either is NaN. -/
def gt : F64 → F64 → Bool
  | fin a, fin b => decide (b < a)
  | fin _, inf s => s
  | inf s, fin _ => !s
  | inf s, inf t => !s && t
  | _, _ => false

/-- To the nearest integer, half away from zero. -/
def roundHalfAway (q : ℚ) : ℤ := if 0 ≤ q then ⌊q + 1 / 2⌋ else ⌈q - 1 / 2⌉

/-- Rounding moves a number by half a unit at most. -/
theorem abs_roundHalfAway_sub_le (q : ℚ) : |(roundHalfAway q : ℚ) - q| ≤ 1 / 2 := by
  unfold roundHalfAway
  split
  · have hle := Int.floor_le (q + 1 / 2)
    have hlt := Int.lt_floor_add_one (q + 1 / 2)
    exact abs_le.mpr ⟨by linarith, by linarith⟩
  · have hle := Int.le_ceil (q - 1 / 2)
    have hlt := Int.ceil_lt_add_one (q - 1 / 2)
    exact abs_le.mpr ⟨by linarith, by linarith⟩

def round : F64 → F64
  | fin q => fin (roundHalfAway q)
  | x => x

def trunc (q : ℚ) : ℤ := if 0 ≤ q then ⌊q⌋ else ⌈q⌉

theorem trunc_intCast (n : ℤ) : trunc n = n := by
  unfold trunc
  split <;> simp

/-- `x as T` for an integer type of range `[lo, hi]`. -/
def castSat (lo hi : ℤ) : F64 → ℤ
  | fin q => max lo (min hi (trunc q))
  | inf true => lo
  | inf false => hi
  | nan => 0

/-- `x as i64`. -/
def toI64 : F64 → ℤ := castSat (-2 ^ 63) (2 ^ 63 - 1)

/-! ### Reading a number

`str::parse::<f64>`: an optional sign, then `inf`, `infinity` or `nan` in any
case, or digits with an optional point and an optional exponent. -/

def natOf (ds : List Char) : ℕ := ds.foldl (fun n c => n * 10 + (c.toNat - '0'.toNat)) 0

def sign : List Char → Bool × List Char
  | '-' :: cs => (true, cs)
  | '+' :: cs => (false, cs)
  | cs => (false, cs)

/-- The exponent, which ends the text. -/
def exponent : List Char → Option ℤ
  | [] => some 0
  | c :: cs =>
    let ds := (sign cs).2
    if (c = 'e' ∨ c = 'E') ∧ ds ≠ [] ∧ ds.all Char.isDigit then
      some (if (sign cs).1 then -(natOf ds : ℤ) else natOf ds)
    else none

def number (cs : List Char) : Option ℚ :=
  let i := cs.takeWhile Char.isDigit
  match cs.dropWhile Char.isDigit with
  | '.' :: r =>
    let f := r.takeWhile Char.isDigit
    if i = [] ∧ f = [] then none
    else (exponent (r.dropWhile Char.isDigit)).map fun e =>
      (natOf (i ++ f) : ℚ) * 10 ^ (e - (f.length : ℤ))
  | r => if i = [] then none else (exponent r).map fun e => (natOf i : ℚ) * 10 ^ e

def fromStr (s : String) : Option F64 :=
  let neg := (sign s.toList).1
  let cs := (sign s.toList).2
  let lower := cs.map Char.toLower
  if lower = ['i', 'n', 'f'] ∨ lower = ['i', 'n', 'f', 'i', 'n', 'i', 't', 'y'] then some (inf neg)
  else if lower = ['n', 'a', 'n'] then some nan
  else (number cs).map fun q => fin (if neg then -q else q)

/-- The characters of the texts that can be read. -/
def numeral (c : Char) : Bool := c.isDigit || "+-.einftya".toList.contains c.toLower

theorem numeral_of_isDigit {c : Char} (h : c.isDigit = true) : numeral c = true := by
  rw [numeral, h, Bool.true_or]

theorem mem_sign {l : List Char} {c : Char} (h : c ∈ l) : numeral c = true ∨ c ∈ (sign l).2 := by
  unfold sign
  split
  · rcases List.mem_cons.mp h with rfl | h
    · exact Or.inl (by decide)
    · exact Or.inr h
  · rcases List.mem_cons.mp h with rfl | h
    · exact Or.inl (by decide)
    · exact Or.inr h
  · exact Or.inr h

theorem numeral_of_exponent {l : List Char} {e : ℤ} (h : exponent l = some e) :
    ∀ c ∈ l, numeral c = true := by
  intro c hc
  cases l with
  | nil => cases hc
  | cons d ds =>
    unfold exponent at h
    dsimp only at h
    split at h
    · rename_i hd
      obtain ⟨he, -, hdigits⟩ := hd
      rcases List.mem_cons.mp hc with rfl | hc
      · rcases he with rfl | rfl <;> decide
      · rcases mem_sign hc with hn | hc
        · exact hn
        · exact numeral_of_isDigit (List.all_eq_true.mp hdigits c hc)
    · cases h

/-- The digits a text starts with need no look. -/
theorem numeral_of_dropWhile {l : List Char}
    (h : ∀ c ∈ l.dropWhile Char.isDigit, numeral c = true) : ∀ c ∈ l, numeral c = true := by
  intro c hc
  rw [← List.takeWhile_append_dropWhile (p := Char.isDigit) (l := l)] at hc
  rcases List.mem_append.mp hc with hc | hc
  · exact numeral_of_isDigit (List.all_eq_true.mp List.all_takeWhile c hc)
  · exact h c hc

theorem numeral_of_number {l : List Char} {q : ℚ} (h : number l = some q) :
    ∀ c ∈ l, numeral c = true := by
  apply numeral_of_dropWhile
  unfold number at h
  dsimp only at h
  split at h
  · rename_i r hr
    rw [hr]
    split at h
    · cases h
    · obtain ⟨e, he, -⟩ := Option.map_eq_some_iff.mp h
      intro c hc
      rcases List.mem_cons.mp hc with rfl | hc
      · decide
      · exact numeral_of_dropWhile (numeral_of_exponent he) c hc
  · split at h
    · cases h
    · obtain ⟨e, he, -⟩ := Option.map_eq_some_iff.mp h
      exact numeral_of_exponent he

theorem numeral_of_fromStr {s : String} {x : F64} (h : fromStr s = some x) :
    ∀ c ∈ s.toList, numeral c = true := by
  have hword : ∀ word : List Char, (word.all fun c => "+-.einftya".toList.contains c) = true →
      (sign s.toList).2.map Char.toLower = word → ∀ c ∈ (sign s.toList).2, numeral c = true := by
    intro word hw hl c hc
    have hmem : c.toLower ∈ word := hl ▸ List.mem_map_of_mem hc
    rw [numeral, List.all_eq_true.mp hw _ hmem, Bool.or_true]
  have hrest : ∀ c ∈ (sign s.toList).2, numeral c = true := by
    unfold fromStr at h
    dsimp only at h
    split at h
    · rename_i hinf
      rcases hinf with hinf | hinf
      · exact hword _ (by decide) hinf
      · exact hword _ (by decide) hinf
    · split at h
      · rename_i hnan
        exact hword _ (by decide) hnan
      · obtain ⟨q, hq, -⟩ := Option.map_eq_some_iff.mp h
        exact numeral_of_number hq
  intro c hc
  rcases mem_sign hc with hn | hc
  · exact hn
  · exact hrest c hc

/-! ### Single precision -/

def roundHalfEven (q : ℚ) : ℤ :=
  let f := ⌊q⌋
  if q - f < 1 / 2 then f
  else if 1 / 2 < q - f then f + 1
  else if f % 2 = 0 then f else f + 1

/-- The exponent of a positive rational: `2^e ≤ q < 2^(e+1)`. -/
def log2 (q : ℚ) : ℤ :=
  let e : ℤ := Nat.log2 q.num.natAbs - Nat.log2 q.den
  if (2 : ℚ) ^ e ≤ q then e else e - 1

/-- The bits of a non-negative rational as the nearest `f32`, ties to even;
below the normal range the exponent stays at its least, above it the result is
infinity. -/
def f32Magnitude (q : ℚ) : ℕ :=
  if q = 0 then 0
  else
    let e := max (log2 q) (-126)
    let m := roundHalfEven (q / 2 ^ (e - 23))
    min ((e + 126) * 2 ^ 23 + m).toNat 0x7f800000

/-- `(x as f32).to_bits()`. -/
def toF32Bits : F64 → UInt32
  | fin q => .ofNat ((if q < 0 then 2 ^ 31 else 0) + f32Magnitude |q|)
  | inf neg => if neg then 0xff800000 else 0x7f800000
  | nan => 0x7fc00000

/-- `f64::from(f32::from_bits(b))`. -/
def ofF32Bits (b : UInt32) : F64 :=
  let neg := 2 ^ 31 ≤ b.toNat
  let e : ℕ := b.toNat / 2 ^ 23 % 256
  let m : ℕ := b.toNat % 2 ^ 23
  if e = 255 then (if m = 0 then inf neg else nan)
  else
    let q : ℚ := if e = 0 then (m : ℚ) * 2 ^ (-149 : ℤ)
      else ((2 ^ 23 + m : ℕ) : ℚ) * 2 ^ ((e : ℤ) - 150)
    fin (if neg then -q else q)

/-- `f64::from_bits`. -/
def ofBits (b : UInt64) : F64 :=
  let neg := 2 ^ 63 ≤ b.toNat
  let e : ℕ := b.toNat / 2 ^ 52 % 2048
  let m : ℕ := b.toNat % 2 ^ 52
  if e = 2047 then (if m = 0 then inf neg else nan)
  else
    let q : ℚ := if e = 0 then (m : ℚ) * 2 ^ (-1074 : ℤ)
      else ((2 ^ 52 + m : ℕ) : ℚ) * 2 ^ ((e : ℤ) - 1075)
    fin (if neg then -q else q)

end F64
end LymonAgent
