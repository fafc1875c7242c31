/-
# Register words

`encode_words` and `decode_words` of `src/control.rs`: an engineering value as
one or two 16-bit registers, by the name of a datatype. A 32-bit value takes
two, high word first unless the word order is `little`.

Key definitions: `encodeWords`, `decodeWords`, `width`.
-/
import LymonAgent.F64

namespace LymonAgent
namespace Control

def splitU32 (v : UInt32) (wordOrder : String) : List UInt16 :=
  let hi := (v >>> 16).toUInt16
  let lo := (v &&& 0xffff).toUInt16
  if wordOrder = "little" then [lo, hi] else [hi, lo]

def joinU32 (regs : List UInt16) (wordOrder : String) : UInt32 :=
  let a := regs[0]?.getD 0
  let b := regs[1]?.getD 0
  let (hi, lo) := if wordOrder = "little" then (b, a) else (a, b)
  (hi.toUInt32 <<< 16) ||| lo.toUInt32

/-- `i64::clamp`. -/
def clamp (lo hi n : ℤ) : ℤ := max lo (min hi n)

def encodeWords (datatype : String) (raw : F64) (wordOrder : String) :
    Except String (List UInt16) :=
  match datatype with
  | "bool" => .ok [if raw.eq (.fin 0) then 0 else 1]
  | "uint16" => .ok [.ofInt (clamp 0 65535 raw.round.toI64)]
  | "int16" => .ok [.ofInt (clamp (-32768) 32767 raw.round.toI64)]
  | "uint32" => .ok (splitU32 (.ofInt (clamp 0 4294967295 raw.round.toI64)) wordOrder)
  | "int32" => .ok (splitU32 (.ofInt (clamp (-2147483648) 2147483647 raw.round.toI64)) wordOrder)
  | "float32" => .ok (splitU32 raw.toF32Bits wordOrder)
  | other => .error ("unsupported datatype " ++ other)

/-- `n as i16` of a `u16`, `n as i32` of a `u32`. -/
def asSigned (bits n : ℕ) : ℤ := if n < 2 ^ (bits - 1) then n else (n : ℤ) - 2 ^ bits

def decodeWords (datatype : String) (regs : List UInt16) (wordOrder : String) (scale offset : F64) :
    F64 :=
  let first := regs[0]?.getD 0
  let raw : F64 :=
    match datatype with
    | "bool" => .fin (if first = 0 then 0 else 1)
    | "uint16" => .fin first.toNat
    | "int16" => .fin (asSigned 16 first.toNat)
    | "uint32" => .fin (joinU32 regs wordOrder).toNat
    | "int32" => .fin (asSigned 32 (joinU32 regs wordOrder).toNat)
    | "float32" => .ofF32Bits (joinU32 regs wordOrder)
    | _ => .fin first.toNat
  (raw.mul scale).add offset

/-- How many registers a datatype takes. -/
def width : String → Option ℕ
  | "bool" | "uint16" | "int16" => some 1
  | "uint32" | "int32" | "float32" => some 2
  | _ => none

theorem length_splitU32 (v : UInt32) (wordOrder : String) : (splitU32 v wordOrder).length = 2 := by
  unfold splitU32
  simp only
  split <;> rfl

/-- An encoding has the width of its datatype. -/
theorem width_of_encodeWords {datatype : String} {raw : F64} {wordOrder : String} {ws : List UInt16}
    (h : encodeWords datatype raw wordOrder = .ok ws) : width datatype = some ws.length := by
  unfold encodeWords at h
  split at h
  iterate 3 obtain rfl := Except.ok.inj h; rfl
  iterate 3 obtain rfl := Except.ok.inj h; rw [length_splitU32]; rfl
  cases h

theorem exists_encodeWords {datatype : String} {n : ℕ} (h : width datatype = some n) (raw : F64)
    (wordOrder : String) : ∃ ws, encodeWords datatype raw wordOrder = .ok ws := by
  unfold width at h
  split at h
  iterate 6 exact ⟨_, rfl⟩
  cases h

theorem width_le {datatype : String} {n : ℕ} (h : width datatype = some n) : n ≤ 2 := by
  unfold width at h
  split at h <;> simp at h <;> omega

/-! ### What comes back -/

/-- The range of an integer datatype. -/
def intRange : String → Option (ℤ × ℤ)
  | "uint16" => some (0, 65535)
  | "int16" => some (-32768, 32767)
  | "uint32" => some (0, 4294967295)
  | "int32" => some (-2147483648, 2147483647)
  | _ => none

theorem width_of_intRange {datatype : String} {lo hi : ℤ} (h : intRange datatype = some (lo, hi)) :
    ∃ n, width datatype = some n := by
  unfold intRange at h
  split at h
  iterate 4 exact ⟨_, rfl⟩
  cases h

theorem le_of_intRange {datatype : String} {lo hi : ℤ} (h : intRange datatype = some (lo, hi)) :
    lo ≤ hi := by
  unfold intRange at h
  split at h
  iterate 4 cases h; decide
  cases h

theorem le_clamp {lo hi n : ℤ} : lo ≤ clamp lo hi n := le_max_left _ _

theorem clamp_le {lo hi n : ℤ} (h : lo ≤ hi) : clamp lo hi n ≤ hi := max_le h (min_le_left _ _)

theorem clamp_of_mem {lo hi n : ℤ} (hlo : lo ≤ n) (hhi : n ≤ hi) : clamp lo hi n = n := by
  unfold clamp
  omega

theorem clamp_of_lt {lo hi n : ℤ} (hn : n < lo) : clamp lo hi n = lo := by
  unfold clamp
  omega

theorem clamp_of_gt {lo hi n : ℤ} (h : lo ≤ hi) (hn : hi < n) : clamp lo hi n = hi := by
  unfold clamp
  omega

/-- The cast to `i64` on the way does not show: its range holds that of every
datatype. -/
theorem clamp_toI64 {lo hi : ℤ} (hlo : -2 ^ 63 ≤ lo) (h : lo ≤ hi) (hhi : hi ≤ 2 ^ 63 - 1) (q : ℚ) :
    clamp lo hi (F64.fin q).round.toI64 = clamp lo hi (F64.roundHalfAway q) := by
  simp only [F64.round, F64.toI64, F64.castSat, F64.trunc_intCast, clamp]
  omega

/-- The two halves of a word make it. -/
theorem halves_u32 (v : UInt32) :
    ((v >>> 16).toUInt16.toUInt32 <<< 16) ||| (v &&& 0xffff).toUInt16.toUInt32 = v := by
  have hv := v.toNat_lt
  have hlo : (v.toNat &&& 65535) % 65536 = v.toNat % 65536 := by
    rw [show 65535 = 2 ^ 16 - 1 from rfl, Nat.and_two_pow_sub_one_eq_mod, Nat.mod_mod]
  have hhi : (v.toNat / 65536 % 65536) <<< 16 % 4294967296 = (v.toNat / 65536) <<< 16 := by
    simp only [Nat.shiftLeft_eq]
    omega
  apply UInt32.toNat_inj.mp
  simp only [UInt32.toNat_or, UInt32.toNat_shiftLeft, UInt16.toNat_toUInt32, UInt32.toNat_toUInt16,
    UInt32.toNat_shiftRight, UInt32.toNat_and, Nat.shiftRight_eq_div_pow, UInt32.reduceToNat,
    Nat.reduceMod, Nat.reducePow]
  rw [hlo, hhi, ← Nat.shiftLeft_add_eq_or_of_lt (Nat.mod_lt _ (by decide)), Nat.shiftLeft_eq]
  omega

theorem joinU32_splitU32 (v : UInt32) (wordOrder : String) :
    joinU32 (splitU32 v wordOrder) wordOrder = v := by
  unfold joinU32 splitU32
  by_cases h : wordOrder = "little"
  · simpa [h] using halves_u32 v
  · simpa [h] using halves_u32 v

theorem toNat_u16_ofInt {n : ℤ} (h0 : 0 ≤ n) (h1 : n ≤ 65535) : ((UInt16.ofInt n).toNat : ℤ) = n := by
  simp only [UInt16.ofInt, UInt16.toNat_ofNat']
  omega

theorem toNat_u32_ofInt {n : ℤ} (h0 : 0 ≤ n) (h1 : n ≤ 4294967295) :
    ((UInt32.ofInt n).toNat : ℤ) = n := by
  simp only [UInt32.ofInt, UInt32.toNat_ofNat']
  omega

theorem asSigned_u16_ofInt {n : ℤ} (h0 : -32768 ≤ n) (h1 : n ≤ 32767) :
    asSigned 16 (UInt16.ofInt n).toNat = n := by
  simp only [UInt16.ofInt, UInt16.toNat_ofNat', asSigned]
  split <;> omega

theorem asSigned_u32_ofInt {n : ℤ} (h0 : -2147483648 ≤ n) (h1 : n ≤ 2147483647) :
    asSigned 32 (UInt32.ofInt n).toNat = n := by
  simp only [UInt32.ofInt, UInt32.toNat_ofNat', asSigned]
  split <;> omega

/-- An integer datatype gives back the rounded value, saturated at the ends of
its range. -/
theorem decodeWords_encodeWords {datatype wordOrder : String} {lo hi : ℤ} {q : ℚ} {ws : List UInt16}
    (hr : intRange datatype = some (lo, hi)) (h : encodeWords datatype (.fin q) wordOrder = .ok ws)
    (scale offset : F64) : decodeWords datatype ws wordOrder scale offset =
      ((F64.fin (clamp lo hi (F64.roundHalfAway q))).mul scale).add offset := by
  unfold intRange at hr
  split at hr
  · cases hr
    obtain rfl := Except.ok.inj h
    have hn := toNat_u16_ofInt le_clamp (clamp_le (n := F64.roundHalfAway q) (by decide))
    simp only [decodeWords, List.getElem?_cons_zero, Option.getD_some]
    rw [clamp_toI64 (by decide) (by decide) (by decide), ← Int.cast_natCast, hn]
  · cases hr
    obtain rfl := Except.ok.inj h
    have hn := asSigned_u16_ofInt le_clamp (clamp_le (n := F64.roundHalfAway q) (by decide))
    simp only [decodeWords, List.getElem?_cons_zero, Option.getD_some]
    rw [clamp_toI64 (by decide) (by decide) (by decide), hn]
  · cases hr
    obtain rfl := Except.ok.inj h
    have hn := toNat_u32_ofInt le_clamp (clamp_le (n := F64.roundHalfAway q) (by decide))
    simp only [decodeWords, joinU32_splitU32]
    rw [clamp_toI64 (by decide) (by decide) (by decide), ← Int.cast_natCast, hn]
  · cases hr
    obtain rfl := Except.ok.inj h
    have hn := asSigned_u32_ofInt le_clamp (clamp_le (n := F64.roundHalfAway q) (by decide))
    simp only [decodeWords, joinU32_splitU32]
    rw [clamp_toI64 (by decide) (by decide) (by decide), hn]
  · cases hr

end Control
end LymonAgent
