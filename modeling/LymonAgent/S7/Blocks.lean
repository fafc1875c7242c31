/-
# Replies about data blocks

`parse_block_list` and `parse_block_info` of `crates/plugin-s7/src/s7/blocks.rs`
index into what the CPU sends. `Indexed` has them with each read as the source makes
it, `none` where it would be out of bounds: there is no such read in any reply
(`parseBlockList_indexed`, `parseBlockInfo_indexed`). A list of blocks is read
exactly, and one that was cut off as far as it is complete (`parseBlockList_records`).

Key definitions: `Indexed.parseBlockList`, `Indexed.parseBlockInfo`, `Accepting`,
`recordsOf`.
-/
import LymonAgent.S7.Connector
import LymonAgent.S7.Addressing

namespace LymonAgent
namespace S7

variable {payload header rest : List UInt8} {records : List (UInt16 × UInt8 × UInt8)}

/-! ### Every read is in bounds -/

namespace Indexed

/-- `u16::from_be_bytes` of the bytes at `i`. -/
def u16At (b : List UInt8) (i : ℕ) : Option ℕ := do
  let hi ← b[i]?
  let lo ← b[i + 1]?
  return makeU16 hi lo

def checkUserdataOk (payload : List UInt8) (op : String) : Option (Except S7Error Unit) := do
  let errNo ← u16At payload 20
  if errNo ≠ 0 then
    return .error (.other (op ++ ": CPU error 0x" ++ .ofList (checkUserdataOk.hexDigits 4 errNo)))
  let retval ← payload[22]?
  if retval ≠ 0xFF then
    return .error (.other (op ++ ": not available (retval 0x" ++
      .ofList (checkUserdataOk.hexDigits 2 retval.toNat) ++ ")"))
  return .ok ()

/-- The loop of `parse_block_list` from its `i`-th round on. -/
def blockNumbers (payload : List UInt8) : ℕ → ℕ → Option (List UInt16)
  | _, 0 => some []
  | i, count + 1 => do
    let n ← u16At payload (26 + i * 4)
    let out ← blockNumbers payload (i + 1) count
    return .ofNat n :: out

def parseBlockList (payload : List UInt8) : Option (Except S7Error (List UInt16)) := do
  if payload.length < 26 then
    return .error (.other ("list-blocks response too short (" ++ payload.length.repr ++ " bytes)"))
  match ← checkUserdataOk payload "list-blocks" with
  | .error e => return .error e
  | .ok () =>
    let dataLen ← u16At payload 24
    let out ← blockNumbers payload 0 (min dataLen (payload.length - 26) / 4)
    return .ok out

/-- `payload.get(off..off + len)`. -/
def slice (payload : List UInt8) (off len : ℕ) : Option (List UInt8) :=
  if off + len ≤ payload.length then some ((payload.drop off).take len) else none

def parseBlockInfo (payload : List UInt8) : Option (Except S7Error BlockInfo) := do
  if payload.length ≤ 22 then
    return .error (.other ("block-info response too short (" ++ payload.length.repr ++ " bytes)"))
  match ← checkUserdataOk payload "block-info" with
  | .error e => return .error e
  | .ok () =>
    let size ← match slice payload 66 2 with
      | none => some none
      | some b => (u16At b 0).map some
    return .ok ⟨size, (slice payload 84 8).bind parseHeaderName, payload[36]?⟩

end Indexed

theorem getElem?_eq_getD {i : ℕ} (h : i < payload.length) : payload[i]? = some (payload.getD i 0) := by
  rw [List.getD_eq_getElem?_getD, List.getElem?_eq_getElem h, Option.getD_some]

theorem u16At_eq {i : ℕ} (h : i + 1 < payload.length) :
    Indexed.u16At payload i = some (makeU16 (payload.getD i 0) (payload.getD (i + 1) 0)) := by
  unfold Indexed.u16At
  rw [getElem?_eq_getD (Nat.lt_of_succ_lt h), getElem?_eq_getD h]
  rfl

theorem checkUserdataOk_indexed (h : 22 < payload.length) (op : String) :
    Indexed.checkUserdataOk payload op = some (checkUserdataOk payload op) := by
  unfold Indexed.checkUserdataOk checkUserdataOk
  rw [u16At_eq (by omega), getElem?_eq_getD h]
  simp only [Option.bind_eq_bind, Option.bind_some, Option.pure_def]
  by_cases herr : makeU16 (payload.getD 20 0) (payload.getD 21 0) = 0
  · by_cases hret : payload.getD 22 0 = 0xFF
    · simp only [herr, hret, ne_eq, not_true_eq_false, if_false]
    · simp only [herr, hret, ne_eq, not_true_eq_false, not_false_eq_true, if_false, if_true]
  · simp only [herr, ne_eq, not_false_eq_true, if_true]

theorem blockNumbers_indexed : ∀ (count i : ℕ), 26 + (i + count) * 4 ≤ payload.length →
    Indexed.blockNumbers payload i count = some (blockNumbers (payload.drop (26 + i * 4)) count) := by
  intro count
  induction count with
  | zero => exact fun _ _ => rfl
  | succ count ih =>
    intro i h
    have hnext : (payload.drop (26 + i * 4)).drop 4 = payload.drop (26 + (i + 1) * 4) := by
      rw [List.drop_drop]
      congr 1
      omega
    rw [Indexed.blockNumbers, u16At_eq (by omega), ih (i + 1) (by omega), blockNumbers, hnext]
    simp only [List.getD_eq_getElem?_getD, List.getElem?_drop]
    rfl

theorem parseBlockList_indexed (payload : List UInt8) :
    Indexed.parseBlockList payload = some (parseBlockList payload) := by
  unfold Indexed.parseBlockList parseBlockList
  by_cases h : payload.length < 26
  · rw [if_pos h, if_pos h]
    rfl
  · rw [if_neg h, if_neg h, checkUserdataOk_indexed (by omega)]
    cases checkUserdataOk payload "list-blocks" with
    | error e => rfl
    | ok u =>
      have hcount := Nat.div_mul_le_self
        (min (makeU16 (payload.getD 24 0) (payload.getD 25 0)) (payload.length - 26)) 4
      simp only [Option.bind_eq_bind, Option.bind_some, u16At_eq (show 24 + 1 < payload.length by omega)]
      rw [blockNumbers_indexed _ 0 (by omega)]
      rfl

theorem parseBlockInfo_indexed (payload : List UInt8) :
    Indexed.parseBlockInfo payload = some (parseBlockInfo payload) := by
  unfold Indexed.parseBlockInfo parseBlockInfo
  by_cases h : payload.length ≤ 22
  · rw [if_pos h, if_pos h]
    rfl
  · rw [if_neg h, if_neg h, checkUserdataOk_indexed (by omega)]
    cases checkUserdataOk payload "block-info" with
    | error e => rfl
    | ok u =>
      have hname : (Indexed.slice payload 84 8).bind parseHeaderName =
          if 92 ≤ payload.length then parseHeaderName ((payload.drop 84).take 8) else none := by
        rw [Indexed.slice]
        split <;> rfl
      simp only [Option.bind_eq_bind, Option.bind_some, Option.pure_def, hname]
      by_cases hsize : 68 ≤ payload.length
      · have hread : Indexed.u16At ((payload.drop 66).take 2) 0 =
            some (makeU16 (payload.getD 66 0) (payload.getD 67 0)) := by
          rw [u16At_eq (by rw [List.length_take, List.length_drop]; omega)]
          simp only [List.getD_eq_getElem?_getD, List.getElem?_take, List.getElem?_drop]
          rfl
        rw [Indexed.slice, if_pos hsize, if_pos hsize]
        simp only [hread, Option.map_some, Option.bind_some]
        rfl
      · rw [Indexed.slice, if_neg hsize, if_neg hsize]
        rfl

/-! ### The list is exact -/

/-- The 26 bytes before the records of a reply without an error. -/
structure Accepting (header : List UInt8) : Prop where
  length : header.length = 26
  errNo : makeU16 (header.getD 20 0) (header.getD 21 0) = 0
  retval : header.getD 22 0 = 0xFF

/-- The data length the header declares. -/
def declared (header : List UInt8) : ℕ := makeU16 (header.getD 24 0) (header.getD 25 0)

/-- The records of the blocks with these numbers and filler bytes. -/
def recordsOf (records : List (UInt16 × UInt8 × UInt8)) : List UInt8 :=
  records.flatMap fun r => [hiPart r.1, loPart r.1, r.2.1, r.2.2]

theorem length_recordsOf : (recordsOf records).length = 4 * records.length := by
  induction records with
  | nil => rfl
  | cons r records ih =>
    rw [recordsOf, List.flatMap_cons, List.length_append, ← recordsOf, ih, List.length_cons]
    simp only [List.length_cons, List.length_nil]
    omega

theorem blockNumbers_records (rest : List UInt8) :
    blockNumbers (recordsOf records ++ rest) records.length = records.map Prod.fst := by
  induction records with
  | nil => rfl
  | cons r records ih =>
    have hrecord : recordsOf (r :: records) ++ rest =
        hiPart r.1 :: loPart r.1 :: r.2.1 :: r.2.2 :: (recordsOf records ++ rest) := rfl
    rw [List.length_cons, List.map_cons, ← ih, hrecord, blockNumbers]
    simp only [List.getD_cons_zero, List.getD_cons_succ, List.drop_succ_cons, List.drop_zero, makeU16_parts,
      UInt16.ofNat_toNat]

/-- A reply is read as far as the smaller of what is declared and what is there. -/
theorem parseBlockList_records (ha : Accepting header)
    (hcount : min (declared header) (4 * records.length + rest.length) / 4 = records.length) :
    parseBlockList (header ++ recordsOf records ++ rest) = .ok (records.map Prod.fst) := by
  obtain ⟨hlength, herr, hret⟩ := ha
  have hget : ∀ i < 26, (header ++ recordsOf records ++ rest).getD i 0 = header.getD i 0 := by
    intro i hi
    rw [List.append_assoc, List.getD_eq_getElem?_getD, List.getElem?_append_left (by omega),
      ← List.getD_eq_getElem?_getD]
  have hlong : ¬ (header ++ recordsOf records ++ rest).length < 26 := by
    simp only [List.length_append]
    omega
  have havail : (header ++ recordsOf records ++ rest).length - 26 = 4 * records.length + rest.length := by
    simp only [List.length_append, length_recordsOf]
    omega
  have hdrop : (header ++ recordsOf records ++ rest).drop 26 = recordsOf records ++ rest := by
    rw [List.append_assoc, ← hlength, List.drop_left]
  have hok : checkUserdataOk (header ++ recordsOf records ++ rest) "list-blocks" = .ok () := by
    unfold checkUserdataOk
    rw [hget 20 (by decide), hget 21 (by decide), hget 22 (by decide), herr, hret]
    rfl
  unfold parseBlockList
  rw [if_neg hlong, hok, Except.map, hget 24 (by decide), hget 25 (by decide), havail, hdrop, ← declared]
  simp only [hcount, blockNumbers_records]

/-- **Block lists are parsed safely and exactly.** No read of either parser is out of
bounds, in any reply. For every list of numbers with any filler bytes, after any
header without an error that declares four bytes for each, and whatever follows:
exactly that list. Where the reply ends before what is declared, exactly the records
that are complete. -/
theorem block_list_safe_exact :
    (∀ payload : List UInt8, Indexed.parseBlockList payload = some (parseBlockList payload) ∧
      Indexed.parseBlockInfo payload = some (parseBlockInfo payload)) ∧
    ∀ (header : List UInt8) (records : List (UInt16 × UInt8 × UInt8)) (rest : List UInt8),
      Accepting header →
        (declared header = 4 * records.length →
          parseBlockList (header ++ recordsOf records ++ rest) = .ok (records.map Prod.fst)) ∧
        (rest.length < 4 → 4 * records.length + rest.length < declared header →
          parseBlockList (header ++ recordsOf records ++ rest) = .ok (records.map Prod.fst)) := by
  refine ⟨fun payload => ⟨parseBlockList_indexed payload, parseBlockInfo_indexed payload⟩, ?_⟩
  intro header records rest ha
  refine ⟨fun hdeclared => ?_, fun hrest hshort => ?_⟩
  · exact parseBlockList_records ha (by rw [hdeclared]; omega)
  · exact parseBlockList_records ha (by omega)

/-- Two blocks and a cut-off third, of three declared. -/
theorem block_list_safe_exact_cut :
    parseBlockList (List.replicate 22 0 ++ [0xFF, 9, 0, 12] ++
      recordsOf [(1, 0, 7), (17, 0, 7)] ++ [0, 18]) = .ok [1, 17] :=
  (block_list_safe_exact.2 (List.replicate 22 0 ++ [0xFF, 9, 0, 12]) [(1, 0, 7), (17, 0, 7)] [0, 18]
    ⟨rfl, rfl, rfl⟩).2 (by decide) (by decide)

end S7
end LymonAgent
