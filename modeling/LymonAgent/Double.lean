/-
# Rounding to doubles

The exact numbers of `F64` as the doubles they round to: to the nearest, ties to
even, and to an infinity from half a unit in the last place above the largest double
on (`isFinite_double`).
-/
import LymonAgent.F64

namespace LymonAgent
namespace F64

/-- The least magnitude that rounds to an infinity. -/
def overflowBound : ℚ := ((2 ^ 1024 - 2 ^ 970 : ℕ) : ℚ)

/-- The nearest number with 53 binary digits, or fewer below the normal range. -/
def nearest (q : ℚ) : ℚ :=
  if q = 0 then 0
  else
    let e := max (log2 |q|) (-1022)
    roundHalfEven (q / 2 ^ (e - 52)) * 2 ^ (e - 52)

/-- The result of an operation whose exact result this is. -/
def double : F64 → F64
  | fin q => if overflowBound ≤ |q| then inf (decide (q < 0)) else fin (nearest q)
  | x => x

/-- `str::parse::<f64>`. -/
def parse (s : String) : Option F64 := (fromStr s).map double

theorem double_of_lt {q : ℚ} (h : |q| < overflowBound) : double (fin q) = fin (nearest q) :=
  if_neg (not_le_of_gt h)

theorem double_of_le {q : ℚ} (h : overflowBound ≤ |q|) : double (fin q) = inf (decide (q < 0)) :=
  if_pos h

theorem isFinite_double (q : ℚ) : (double (fin q)).isFinite = true ↔ |q| < overflowBound := by
  by_cases h : overflowBound ≤ |q|
  · rw [double_of_le h]
    exact iff_of_false Bool.false_ne_true (not_lt_of_ge h)
  · have hlt := lt_of_not_ge h
    rw [double_of_lt hlt]
    exact iff_of_true rfl hlt

/-- An infinity stays one when a number is added to it. -/
theorem add_inf_fin (s : Bool) (q : ℚ) : (inf s).add (fin q) = inf s := rfl

end F64
end LymonAgent
