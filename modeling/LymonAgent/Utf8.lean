/-
# UTF-8

Texts as lists of bytes, over the standard library's encoding of a character.
`decode` is the inverse of `encode` (`decode_eq_some`), and a byte below 128 is read
as itself at the end of what decodes (`decode_snoc`), since none stands within a
longer character (`mem_encodeChar`).
-/
import Mathlib.Data.List.Basic

namespace LymonAgent
namespace Utf8

/-- The bytes of a text. -/
def encode (s : String) : List UInt8 := s.toList.flatMap String.utf8EncodeChar

/-- `str::from_utf8`. -/
def decode (b : List UInt8) : Option String :=
  if h : b.toByteArray.IsValidUTF8 then some ⟨b.toByteArray, h⟩ else none

variable {b : List UInt8} {s t : String} {c : Char}

theorem toByteArray_encode (s : String) : (encode s).toByteArray = s.toByteArray := by
  rw [← String.utf8Encode_toList]
  rfl

theorem decode_encode (s : String) : decode (encode s) = some s := by
  have hvalid : (encode s).toByteArray.IsValidUTF8 := by
    rw [toByteArray_encode]
    exact s.isValidUTF8
  rw [decode, dif_pos hvalid]
  exact congrArg some (String.toByteArray_inj.mp (toByteArray_encode s))

theorem decode_eq_some : decode b = some s ↔ b = encode s := by
  constructor
  · intro h
    unfold decode at h
    split at h
    · refine List.toByteArray_inj.mp ?_
      rw [toByteArray_encode, ← Option.some.inj h]
    · cases h
  · rintro rfl
    exact decode_encode s

theorem encode_append (s t : String) : encode (s ++ t) = encode s ++ encode t := by
  rw [encode, String.toList_append, List.flatMap_append, ← encode, ← encode]

/-- A character below 128 is one byte. -/
theorem encodeChar_ascii (h : c.toNat < 128) : String.utf8EncodeChar c = [.ofNat c.toNat] := by
  have hsize : c.utf8Size = 1 :=
    Char.utf8Size_eq_one_iff.mpr (UInt32.le_iff_toNat_le.mpr (Nat.le_of_lt_succ h))
  rw [String.utf8EncodeChar_eq_singleton hsize]
  rfl

theorem le_or_high (a : UInt8) {m : UInt8} (hm : 128 ≤ m.toNat) : 128 ≤ (a ||| m).toNat := by
  rw [UInt8.toNat_or]
  exact Nat.le_trans hm Nat.right_le_or

/-- The bytes of any other character are from 128 on. -/
theorem mem_encodeChar (h : ¬ c.toNat < 128) {x : UInt8} (hx : x ∈ String.utf8EncodeChar c) :
    128 ≤ x.toNat := by
  have hsize : c.utf8Size ≠ 1 := fun hone =>
    h (Nat.lt_succ_of_le (UInt32.le_iff_toNat_le.mp (Char.utf8Size_eq_one_iff.mp hone)))
  have hmem : ∃ (a m : UInt8), 128 ≤ m.toNat ∧ x = a ||| m := by
    rcases c.utf8Size_eq with hone | htwo | hthree | hfour
    · exact absurd hone hsize
    · rw [String.utf8EncodeChar_eq_cons_cons htwo] at hx
      simp only [List.mem_cons, List.not_mem_nil, or_false] at hx
      rcases hx with rfl | rfl
      · exact ⟨_, 0xc0, by decide, rfl⟩
      · exact ⟨_, 0x80, by decide, rfl⟩
    · rw [String.utf8EncodeChar_eq_cons_cons_cons hthree] at hx
      simp only [List.mem_cons, List.not_mem_nil, or_false] at hx
      rcases hx with rfl | rfl | rfl
      · exact ⟨_, 0xe0, by decide, rfl⟩
      · exact ⟨_, 0x80, by decide, rfl⟩
      · exact ⟨_, 0x80, by decide, rfl⟩
    · rw [String.utf8EncodeChar_eq_cons_cons_cons_cons hfour] at hx
      simp only [List.mem_cons, List.not_mem_nil, or_false] at hx
      rcases hx with rfl | rfl | rfl | rfl
      · exact ⟨_, 0xf0, by decide, rfl⟩
      · exact ⟨_, 0x80, by decide, rfl⟩
      · exact ⟨_, 0x80, by decide, rfl⟩
      · exact ⟨_, 0x80, by decide, rfl⟩
  obtain ⟨a, m, hm, rfl⟩ := hmem
  exact le_or_high a hm

theorem encode_singleton (h : c.toNat < 128) : encode (.singleton c) = [.ofNat c.toNat] := by
  rw [encode, String.toList_singleton, List.flatMap_singleton, encodeChar_ascii h]

/-- A character below 128 after some bytes is read as itself. -/
theorem decode_snoc (h : c.toNat < 128) (b : List UInt8) :
    decode (b ++ [.ofNat c.toNat]) = (decode b).map (· ++ .singleton c) := by
  cases hb : decode b with
  | some s =>
    rw [decode_eq_some.mp hb, Option.map_some, ← encode_singleton h, ← encode_append, decode_encode]
  | none =>
    rw [Option.map_none, Option.eq_none_iff_forall_ne_some]
    intro t ht
    have henc := decode_eq_some.mp ht
    rcases List.eq_nil_or_concat t.toList with hnil | ⟨cs, d, hcs⟩
    · rw [encode, hnil] at henc
      exact absurd henc (List.append_ne_nil_of_right_ne_nil _ (List.cons_ne_nil _ _))
    · rw [encode, hcs, List.concat_eq_append, List.flatMap_append, List.flatMap_singleton] at henc
      -- the byte is the last one of the last character, which is then no longer than it
      by_cases hd : d.toNat < 128
      · rw [encodeChar_ascii hd] at henc
        have hfirst : b = encode (.ofList cs) := by
          rw [encode, String.toList_ofList]
          exact (List.append_inj' henc rfl).1
        rw [decode_eq_some.mpr hfirst] at hb
        cases hb
      · obtain ⟨bs, x, hx⟩ := (List.eq_nil_or_concat (String.utf8EncodeChar d)).resolve_left fun hnil => by
          have hpos := d.utf8Size_pos
          rw [← String.length_utf8EncodeChar, hnil] at hpos
          cases hpos
        have hhigh := mem_encodeChar hd (x := x) (by rw [hx]; simp)
        rw [hx, List.concat_eq_append, ← List.append_assoc] at henc
        have hlast := List.singleton_inj.mp (List.append_inj' henc rfl).2
        rw [← hlast, UInt8.toNat_ofNat', Nat.mod_eq_of_lt (Nat.lt_trans h (by decide))] at hhigh
        exact absurd h (Nat.not_lt_of_le hhigh)

end Utf8
end LymonAgent
