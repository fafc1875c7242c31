/-
# The register codec both ways

For the four integer datatypes `decode_words` takes back what `encode_words` gives,
rounded and saturated (`decodeWords_encodeWords`), and `encode_words` gives back
every list of registers of the datatype's width from the value they decode to
(`encodeWords_decodeWords`). `OpcUaConnector::write` is another implementation of
the same conversion; it comes to the same integer (`integer_variantOf`).

Key theorem: `codec_round_trip`.
-/
import LymonAgent.Control.OpcUa

namespace LymonAgent
namespace Control

/-! ### Words -/

theorem toNat_joined (hi lo : UInt16) :
    ((hi.toUInt32 <<< 16) ||| lo.toUInt32).toNat = hi.toNat * 65536 + lo.toNat := by
  have hhi := hi.toNat_lt
  have hlo := lo.toNat_lt
  have hshift : hi.toNat <<< 16 % 4294967296 = hi.toNat <<< 16 := by
    rw [Nat.shiftLeft_eq]
    omega
  simp only [UInt32.toNat_or, UInt32.toNat_shiftLeft, UInt16.toNat_toUInt32, UInt32.reduceToNat,
    Nat.reduceMod, Nat.reducePow]
  rw [hshift, ← Nat.shiftLeft_add_eq_or_of_lt hlo, Nat.shiftLeft_eq]

/-- The high half of a joined word. -/
theorem high_joined (hi lo : UInt16) :
    (((hi.toUInt32 <<< 16) ||| lo.toUInt32) >>> 16).toUInt16 = hi := by
  have hhi := hi.toNat_lt
  have hlo := lo.toNat_lt
  apply UInt16.toNat_inj.mp
  simp only [UInt32.toNat_toUInt16, UInt32.toNat_shiftRight, toNat_joined, Nat.shiftRight_eq_div_pow,
    UInt32.reduceToNat, Nat.reduceMod, Nat.reducePow]
  omega

theorem low_joined (hi lo : UInt16) :
    (((hi.toUInt32 <<< 16) ||| lo.toUInt32) &&& 0xffff).toUInt16 = lo := by
  have hlo := lo.toNat_lt
  apply UInt16.toNat_inj.mp
  simp only [UInt32.toNat_toUInt16, UInt32.toNat_and, toNat_joined, UInt32.reduceToNat]
  rw [show 65535 = 2 ^ 16 - 1 from rfl, Nat.and_two_pow_sub_one_eq_mod]
  omega

theorem splitU32_joinU32 {regs : List UInt16} (h : regs.length = 2) (wordOrder : String) :
    splitU32 (joinU32 regs wordOrder) wordOrder = regs := by
  obtain ⟨a, b, rfl⟩ := List.length_eq_two.mp h
  unfold splitU32 joinU32
  by_cases hw : wordOrder = "little"
  · simp only [hw, if_true, List.getElem?_cons_zero, List.getElem?_cons_succ, Option.getD_some,
      high_joined, low_joined]
  · simp only [hw, if_false, List.getElem?_cons_zero, List.getElem?_cons_succ, Option.getD_some,
      high_joined, low_joined]

/-! ### From registers and back -/

theorem roundHalfAway_intCast (n : ℤ) : F64.roundHalfAway n = n := by
  have hle := abs_le.mp (F64.abs_roundHalfAway_sub_le n)
  have hlo : ((n - 1 : ℤ) : ℚ) < F64.roundHalfAway n := by
    push_cast
    linarith
  have hhi : (F64.roundHalfAway n : ℚ) < ((n + 1 : ℤ) : ℚ) := by
    push_cast
    linarith
  have h1 := Int.cast_lt.mp hlo
  have h2 := Int.cast_lt.mp hhi
  omega

/-- A value without scale and offset is the raw one. -/
theorem mul_one_add_zero (q : ℚ) : ((F64.fin q).mul (.fin 1)).add (.fin 0) = .fin q := by
  rw [F64.mul, F64.add, mul_one, add_zero]

theorem toI64_round_intCast {n : ℤ} (hlo : -2 ^ 63 ≤ n) (hhi : n ≤ 2 ^ 63 - 1) :
    (F64.fin n).round.toI64 = n := by
  simp only [F64.round, roundHalfAway_intCast, F64.toI64, F64.castSat, F64.trunc_intCast]
  omega

theorem asSigned_mem (bits : ℕ) {n : ℕ} (h0 : 0 < bits) (h : n < 2 ^ bits) :
    -2 ^ (bits - 1) ≤ asSigned bits n ∧ asSigned bits n ≤ 2 ^ (bits - 1) - 1 := by
  obtain ⟨k, rfl⟩ := Nat.exists_eq_succ_of_ne_zero (Nat.pos_iff_ne_zero.mp h0)
  rw [Nat.succ_sub_one]
  have hp : (2 : ℕ) ^ (k + 1) = 2 ^ k * 2 := pow_succ 2 k
  have hpz : (2 : ℤ) ^ (k + 1) = 2 ^ k * 2 := pow_succ 2 k
  have hcast : ((2 ^ k : ℕ) : ℤ) = 2 ^ k := Nat.cast_pow 2 k
  unfold asSigned
  rw [Nat.succ_sub_one]
  rw [Nat.succ_eq_add_one] at h ⊢
  split
  · constructor <;> omega
  · constructor <;> omega

theorem u16_ofInt_asSigned (x : UInt16) : UInt16.ofInt (asSigned 16 x.toNat) = x := by
  have hx := x.toNat_lt
  apply UInt16.toNat_inj.mp
  simp only [UInt16.ofInt, UInt16.toNat_ofNat', asSigned]
  split <;> omega

theorem u32_ofInt_asSigned (x : UInt32) : UInt32.ofInt (asSigned 32 x.toNat) = x := by
  have hx := x.toNat_lt
  apply UInt32.toNat_inj.mp
  simp only [UInt32.ofInt, UInt32.toNat_ofNat', asSigned]
  split <;> omega

theorem u16_ofInt_toNat (x : UInt16) : UInt16.ofInt x.toNat = x := by
  have hx := x.toNat_lt
  apply UInt16.toNat_inj.mp
  simp only [UInt16.ofInt, UInt16.toNat_ofNat']
  omega

theorem u32_ofInt_toNat (x : UInt32) : UInt32.ofInt x.toNat = x := by
  have hx := x.toNat_lt
  apply UInt32.toNat_inj.mp
  simp only [UInt32.ofInt, UInt32.toNat_ofNat']
  omega

/-- What registers of the width decode to, encodes to them again. -/
theorem encodeWords_decodeWords {datatype : String} {lo hi : ℤ} {regs : List UInt16}
    (hr : intRange datatype = some (lo, hi)) (hw : width datatype = some regs.length)
    (wordOrder : String) :
    encodeWords datatype (decodeWords datatype regs wordOrder (.fin 1) (.fin 0)) wordOrder = .ok regs := by
  unfold intRange at hr
  split at hr
  · obtain ⟨a, rfl⟩ := List.length_eq_one_iff.mp (Option.some.inj hw).symm
    have ha := a.toNat_lt
    simp only [decodeWords, List.getElem?_cons_zero, Option.getD_some, mul_one_add_zero, encodeWords]
    rw [← Int.cast_natCast, toI64_round_intCast (by omega) (by omega),
      clamp_of_mem (by omega) (by omega), u16_ofInt_toNat]
  · obtain ⟨a, rfl⟩ := List.length_eq_one_iff.mp (Option.some.inj hw).symm
    have ha := asSigned_mem 16 (by decide) a.toNat_lt
    simp only [decodeWords, List.getElem?_cons_zero, Option.getD_some, mul_one_add_zero, encodeWords]
    rw [toI64_round_intCast (by omega) (by omega), clamp_of_mem (by omega) (by omega),
      u16_ofInt_asSigned]
  · have hv := (joinU32 regs wordOrder).toNat_lt
    simp only [decodeWords, mul_one_add_zero, encodeWords]
    rw [← Int.cast_natCast, toI64_round_intCast (by omega) (by omega),
      clamp_of_mem (by omega) (by omega), u32_ofInt_toNat, splitU32_joinU32 (Option.some.inj hw).symm]
  · have hv := asSigned_mem 32 (by decide) (joinU32 regs wordOrder).toNat_lt
    simp only [decodeWords, mul_one_add_zero, encodeWords]
    rw [toI64_round_intCast (by omega) (by omega), clamp_of_mem (by omega) (by omega),
      u32_ofInt_asSigned, splitU32_joinU32 (Option.some.inj hw).symm]
  · cases hr

/-! ### The other implementation -/

/-- The integer an OPC-UA value holds, of the types the write path makes. -/
def Variant.integer : Variant → Option ℤ
  | .int16 n | .uint16 n | .int32 n | .uint32 n => some n
  | _ => none

theorem castSat_round (lo hi : ℤ) (q : ℚ) :
    (F64.fin q).round.castSat lo hi = clamp lo hi (F64.roundHalfAway q) := by
  rw [F64.round, F64.castSat, F64.trunc_intCast, clamp]

theorem integer_variantOf {datatype : String} {lo hi : ℤ} (hr : intRange datatype = some (lo, hi))
    (q : ℚ) :
    (variantOf datatype (.fin q)).integer = some (clamp lo hi (F64.roundHalfAway q)) := by
  unfold intRange at hr
  split at hr
  iterate 4
    cases hr
    rw [variantOf, Variant.integer, castSat_round]
  cases hr

/-! ### The codec is exact on integers -/

/-- The ends of a datatype's range are those of its registers, within `i64`. -/
theorem toI64_of_intRange {datatype : String} {lo hi : ℤ} (hr : intRange datatype = some (lo, hi)) (q : ℚ) :
    clamp lo hi (F64.fin q).round.toI64 = clamp lo hi (F64.roundHalfAway q) := by
  unfold intRange at hr
  split at hr
  iterate 4
    cases hr
    exact clamp_toI64 (by decide) (by decide) (by decide) q
  cases hr

/-- **The register codec is exact on integers.** For every raw value and word order
and each integer datatype: what is encoded decodes to the raw value rounded half
away from zero and clamped to the datatype's range, the cast to `i64` never shows,
and the OPC-UA write path comes to the same integer. Conversely every register list
of the datatype's width is the encoding of its value, and splitting and joining undo
each other in either word order. -/
theorem codec_round_trip {datatype : String} {lo hi : ℤ} (hr : intRange datatype = some (lo, hi))
    (wordOrder : String) :
    (∀ q : ℚ,
      (∃ ws, encodeWords datatype (.fin q) wordOrder = .ok ws ∧
        decodeWords datatype ws wordOrder (.fin 1) (.fin 0) = .fin (clamp lo hi (F64.roundHalfAway q))) ∧
      clamp lo hi (F64.fin q).round.toI64 = clamp lo hi (F64.roundHalfAway q) ∧
      (variantOf datatype (.fin q)).integer = some (clamp lo hi (F64.roundHalfAway q))) ∧
    (∀ regs : List UInt16, width datatype = some regs.length →
      encodeWords datatype (decodeWords datatype regs wordOrder (.fin 1) (.fin 0)) wordOrder = .ok regs) ∧
    (∀ v : UInt32, joinU32 (splitU32 v wordOrder) wordOrder = v) ∧
    ∀ regs : List UInt16, regs.length = 2 → splitU32 (joinU32 regs wordOrder) wordOrder = regs := by
  refine ⟨fun q => ⟨?_, toI64_of_intRange hr q, integer_variantOf hr q⟩, ?_, ?_, ?_⟩
  · obtain ⟨n, hn⟩ := width_of_intRange hr
    obtain ⟨ws, hws⟩ := exists_encodeWords hn (.fin q) wordOrder
    refine ⟨ws, hws, ?_⟩
    rw [decodeWords_encodeWords hr hws, mul_one_add_zero]
  · exact fun regs hw => encodeWords_decodeWords hr hw wordOrder
  · exact fun v => joinU32_splitU32 v wordOrder
  · exact fun regs h => splitU32_joinU32 h wordOrder

/-- Far above the range, in either word order. -/
theorem codec_round_trip_int32 :
    ∃ ws, encodeWords "int32" (.fin (10 ^ 30)) "little" = .ok ws ∧
      decodeWords "int32" ws "little" (.fin 1) (.fin 0) =
        .fin (clamp (-2147483648) 2147483647 (F64.roundHalfAway (10 ^ 30)) : ℤ) :=
  ((codec_round_trip (show intRange "int32" = some (-2147483648, 2147483647) from rfl) "little").1 (10 ^ 30)).1

end Control
end LymonAgent
