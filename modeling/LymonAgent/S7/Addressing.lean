/-
# From JSON to the wire

The address of an S7 read goes through three narrowings. `parse_selection` and
`resolve_rack_slot` read the numbers of the configuration as `u64`, take the
default for what is none, and cut the rest to `u16` and `u8`. `read_bit` computes
the number of the bit in `u16`, where the bytes go through `u32`. And
`connect_rack_slot` packs rack and slot into the sixteen bits of the TSAP.

* `taken_literally_iff`: what is accepted is what the JSON says exactly when each
  number given is an integer of its field;
* `wire_exact_iff`: the telegram has the address of the selection exactly when it
  is not a bit behind byte 8191, and two racks and slots have TSAPs of their own
  exactly when their numbers are below 256 and differ.

Key definitions: `Literally`, `Fits`, `Refused`, `Telegrams`, `tsapNumber`.
-/
import LymonAgent.S7.Connector

namespace LymonAgent
namespace S7

/-! ### What the JSON says -/

/-- `n` is the integer under the key `k`, or the default where there is no such key. -/
def Literally (default : ℕ) (k : String) (v : Json) (n : ℕ) : Prop :=
  (v.get k = none ∧ n = default) ∨ ∃ x u, v.get k = some x ∧ x.asU64 = some u ∧ n = u.toNat

/-- There is no such key, or it has an integer below `bound`. -/
def Fits (bound : ℕ) (k : String) (v : Json) : Prop :=
  v.get k = none ∨ ∃ x u, v.get k = some x ∧ x.asU64 = some u ∧ u.toNat < bound

/-- The `u64` under a key, cut to a field of `bound` values, is literal exactly when
it fits. -/
theorem literally_cut_iff {bound default : ℕ} {k : String} {v : Json} (hd : default < bound) :
    Literally default k v (((v.getU64 k).map UInt64.toNat).elim default (· % bound)) ↔
      Fits bound k v := by
  unfold Literally Fits Json.getU64
  cases hk : v.get k with
  | none => simp
  | some x =>
    cases hu : x.asU64 with
    | none => simp [hu]
    | some u =>
      have hmod : u.toNat % bound = u.toNat ↔ u.toNat < bound := by
        constructor
        · intro h
          rw [← h]
          exact Nat.mod_lt _ (by omega)
        · exact Nat.mod_eq_of_lt
      simp [hu, hmod]

/-- The area and the type of a selection. -/
def areaOf (sel : Json) : Except String UInt8 :=
  match sel.getStr "area" with
  | some a => parseArea a
  | none => .ok 0x84

def dtypeOf (sel : Json) : Except String DType := DType.parse ((sel.getStr "type").getD "real")

/-- What `parse_selection` accepts, and as what. -/
theorem parseSelection_eq_ok {sel : Json} {s : Selection} :
    parseSelection sel = .ok s ↔
      areaOf sel = .ok s.area ∧ dtypeOf sel = .ok s.dtype ∧
      ¬ (s.area = 0x84 ∧ sel.get "db" = none) ∧ ¬ (s.dtype = .bool ∧ s.bit > 7) ∧
      s.db = ((sel.getU64 "db").getD 0).toUInt16 ∧ s.byte = ((sel.getU64 "byte").getD 0).toUInt16 ∧
      s.bit = ((sel.getU64 "bit").getD 0).toUInt8 := by
  have hparse : parseSelection sel = (areaOf sel).bind fun area => (dtypeOf sel).bind fun dtype =>
      if area = 0x84 ∧ sel.get "db" = none then .error "selection.db is required for a DB read"
      else if dtype = .bool ∧ ((sel.getU64 "bit").getD 0).toUInt8 > 7 then
        .error ("selection.bit must be 0..7 for bool, got " ++
          ((sel.getU64 "bit").getD 0).toUInt8.toNat.repr)
      else .ok ⟨area, ((sel.getU64 "db").getD 0).toUInt16, ((sel.getU64 "byte").getD 0).toUInt16,
        ((sel.getU64 "bit").getD 0).toUInt8, dtype⟩ := by
    unfold parseSelection areaOf dtypeOf
    cases sel.getStr "area" <;> rfl
  rw [hparse]
  cases areaOf sel with
  | error e => simp [Except.bind]
  | ok area =>
    cases dtypeOf sel with
    | error e => simp [Except.bind]
    | ok dtype =>
      simp only [Except.bind, Except.ok.injEq]
      split
      · rename_i hdb
        refine iff_of_false nofun ?_
        rintro ⟨rfl, -, hno, -⟩
        exact hno hdb
      · rename_i hdb
        split
        · rename_i hbit
          refine iff_of_false nofun ?_
          rintro ⟨-, rfl, -, hno, -, -, hs⟩
          exact hno (hs ▸ hbit)
        · rename_i hbit
          rw [Except.ok.injEq]
          constructor
          · rintro rfl
            exact ⟨rfl, rfl, hdb, hbit, rfl, rfl, rfl⟩
          · rintro ⟨rfl, rfl, -, -, hd, hb, hi⟩
            rw [← hd, ← hb, ← hi]

/-- What `parse_selection` refuses: an unknown area or type, a data block without a
number, a bit of a bool that is over 7 when cut to eight bits. -/
def Refused (sel : Json) : Prop :=
  (∃ e, areaOf sel = .error e) ∨ (∃ e, dtypeOf sel = .error e) ∨
    (areaOf sel = .ok 0x84 ∧ sel.get "db" = none) ∨
    (dtypeOf sel = .ok .bool ∧ 7 < ((sel.getU64 "bit").getD 0).toNat % 256)

/-- The selection a JSON says. -/
structure LiteralSelection (sel : Json) (s : Selection) : Prop where
  db : Literally 0 "db" sel s.db.toNat
  byte : Literally 0 "byte" sel s.byte.toNat
  bit : Literally 0 "bit" sel s.bit.toNat
  range : s.dtype = .bool → s.bit.toNat ≤ 7

def FitsSelection (sel : Json) : Prop :=
  Fits 65536 "db" sel ∧ Fits 65536 "byte" sel ∧ Fits 256 "bit" sel

theorem getD_mod (x : Option UInt64) (bound : ℕ) :
    (x.getD 0).toNat % bound = (x.map UInt64.toNat).elim 0 (· % bound) := by
  cases x <;> simp

theorem literalSelection_iff {sel : Json} {s : Selection} (h : parseSelection sel = .ok s) :
    LiteralSelection sel s ↔ FitsSelection sel := by
  obtain ⟨-, -, -, hbit, hd, hb, hi⟩ := parseSelection_eq_ok.mp h
  have hrange : s.dtype = .bool → s.bit.toNat ≤ 7 := by
    intro hbool
    by_contra hgt
    refine hbit ⟨hbool, ?_⟩
    rw [gt_iff_lt, UInt8.lt_iff_toNat_lt]
    exact Nat.not_le.mp hgt
  have hdb : s.db.toNat = ((sel.getU64 "db").map UInt64.toNat).elim 0 (· % 65536) := by
    rw [hd, UInt64.toNat_toUInt16, getD_mod]
  have hbyte : s.byte.toNat = ((sel.getU64 "byte").map UInt64.toNat).elim 0 (· % 65536) := by
    rw [hb, UInt64.toNat_toUInt16, getD_mod]
  have hbits : s.bit.toNat = ((sel.getU64 "bit").map UInt64.toNat).elim 0 (· % 256) := by
    rw [hi, UInt64.toNat_toUInt8, getD_mod]
  have h1 := literally_cut_iff (k := "db") (v := sel) (show 0 < 65536 by decide)
  have h2 := literally_cut_iff (k := "byte") (v := sel) (show 0 < 65536 by decide)
  have h3 := literally_cut_iff (k := "bit") (v := sel) (show 0 < 256 by decide)
  rw [← hdb] at h1
  rw [← hbyte] at h2
  rw [← hbits] at h3
  constructor
  · exact fun hl => ⟨h1.mp hl.db, h2.mp hl.byte, h3.mp hl.bit⟩
  · exact fun hf => ⟨h1.mpr hf.1, h2.mpr hf.2.1, h3.mpr hf.2.2, hrange⟩

theorem refused_iff {sel : Json} : Refused sel ↔ ∀ s, parseSelection sel ≠ .ok s := by
  constructor
  · intro h s hs
    obtain ⟨harea, htype, hdb, hbit, -, -, hi⟩ := parseSelection_eq_ok.mp hs
    rcases h with ⟨e, he⟩ | ⟨e, he⟩ | ⟨he, hnone⟩ | ⟨he, hgt⟩
    · cases harea.symm.trans he
    · cases htype.symm.trans he
    · exact hdb ⟨Except.ok.inj (harea.symm.trans he), hnone⟩
    · refine hbit ⟨Except.ok.inj (htype.symm.trans he), ?_⟩
      rw [gt_iff_lt, UInt8.lt_iff_toNat_lt, hi, UInt64.toNat_toUInt8]
      exact hgt
  · intro h
    by_contra hn
    unfold Refused at hn
    push Not at hn
    obtain ⟨harea, htype, hdb, hbit⟩ := hn
    cases ha : areaOf sel with
    | error e => exact harea e ha
    | ok area =>
      cases ht : dtypeOf sel with
      | error e => exact htype e ht
      | ok dtype =>
        refine h ⟨area, ((sel.getU64 "db").getD 0).toUInt16, ((sel.getU64 "byte").getD 0).toUInt16,
          ((sel.getU64 "bit").getD 0).toUInt8, dtype⟩
          (parseSelection_eq_ok.mpr ⟨ha, ht, ?_, ?_, rfl, rfl, rfl⟩)
        · rintro ⟨rfl, hnone⟩
          exact hdb ha hnone
        · rintro ⟨rfl, hgt⟩
          have hle := hbit ht
          simp only [gt_iff_lt, UInt8.lt_iff_toNat_lt, UInt64.toNat_toUInt8] at hgt
          exact absurd hgt (Nat.not_lt.mpr hle)

theorem selection_literal_iff (sel : Json) :
    (∀ s, parseSelection sel = .ok s → LiteralSelection sel s) ↔ Refused sel ∨ FitsSelection sel := by
  constructor
  · intro h
    by_cases hr : Refused sel
    · exact Or.inl hr
    · rw [refused_iff] at hr
      push Not at hr
      obtain ⟨s, hs⟩ := hr
      exact Or.inr ((literalSelection_iff hs).mp (h s hs))
  · rintro (hr | hf) s hs
    · exact absurd hs (refused_iff.mp hr s)
    · exact (literalSelection_iff hs).mpr hf

/-! ### Rack and slot -/

/-- Rack and slot of the family, or of the integrated interface where none is named. -/
def familyDefault (config : Json) : Option (UInt16 × UInt16) :=
  match config.getStr "family" with
  | none => some (0, 1)
  | some family =>
    match toAsciiLowercase family with
    | "s7-1500" | "s71500" | "s7-1200" | "s71200" => some (0, 1)
    | "s7-300" | "s7300" => some (0, 2)
    | _ => none

/-- Rack and slot are not both given, and the family has none. -/
def RackRefused (config : Json) : Prop :=
  (config.getU64 "rack" = none ∨ config.getU64 "slot" = none) ∧ familyDefault config = none

/-- What `resolve_rack_slot` makes of a configuration it does not refuse. -/
def rackSlotOf (config : Json) : UInt16 × UInt16 :=
  let default := (familyDefault config).getD (0, 1)
  (((config.getU64 "rack").map UInt64.toUInt16).getD default.1,
    ((config.getU64 "slot").map UInt64.toUInt16).getD default.2)

theorem resolveRackSlot_cases (config : Json) :
    (RackRefused config ∧ ∃ e, resolveRackSlot config = .error e) ∨
      (¬ RackRefused config ∧ resolveRackSlot config = .ok (rackSlotOf config)) := by
  unfold RackRefused resolveRackSlot rackSlotOf familyDefault
  cases config.getU64 "rack" <;> cases config.getU64 "slot"
  case some.some => simp
  all_goals
    cases config.getStr "family" with
    | none => simp
    | some family =>
      simp only [Option.map_some, Option.map_none]
      generalize toAsciiLowercase family = f
      split
      case h_7 => split <;> simp_all
      all_goals simp

/-- The rack and the slot a configuration says, or those of the family. -/
structure LiteralRackSlot (config : Json) (p : UInt16 × UInt16) : Prop where
  rack : Literally ((familyDefault config).getD (0, 1)).1.toNat "rack" config p.1.toNat
  slot : Literally ((familyDefault config).getD (0, 1)).2.toNat "slot" config p.2.toNat

theorem map_getD_toNat (x : Option UInt64) (d : UInt16) :
    ((x.map UInt64.toUInt16).getD d).toNat = (x.map UInt64.toNat).elim d.toNat (· % 65536) := by
  cases x <;> simp

theorem rackSlot_literal_iff (config : Json) :
    (∀ p, resolveRackSlot config = .ok p → LiteralRackSlot config p) ↔
      RackRefused config ∨ (Fits 65536 "rack" config ∧ Fits 65536 "slot" config) := by
  have h1 := literally_cut_iff (k := "rack") (v := config)
    ((familyDefault config).getD (0, 1)).1.toNat_lt
  have h2 := literally_cut_iff (k := "slot") (v := config)
    ((familyDefault config).getD (0, 1)).2.toNat_lt
  have hlit : LiteralRackSlot config (rackSlotOf config) ↔
      Fits 65536 "rack" config ∧ Fits 65536 "slot" config := by
    have hrack : (rackSlotOf config).1.toNat = _ := map_getD_toNat _ _
    have hslot : (rackSlotOf config).2.toNat = _ := map_getD_toNat _ _
    constructor
    · rintro ⟨hr, hs⟩
      rw [hrack] at hr
      rw [hslot] at hs
      exact ⟨h1.mp hr, h2.mp hs⟩
    · rintro ⟨hr, hs⟩
      exact ⟨hrack ▸ h1.mpr hr, hslot ▸ h2.mpr hs⟩
  rcases resolveRackSlot_cases config with ⟨href, e, he⟩ | ⟨href, hok⟩
  · refine iff_of_true (fun p hp => ?_) (Or.inl href)
    cases he.symm.trans hp
  · rw [← hlit, or_iff_right href, hok]
    constructor
    · exact fun h => h _ rfl
    · rintro h p hp
      exact Except.ok.inj hp ▸ h

/-! ### Before the wire -/

theorem targetsOf_error {ps : List Sdk.Point} {p : Sdk.Point} (hp : p ∈ ps) {e : String}
    (he : parseSelection p.selection = .error e) : ∃ e', targetsOf ps = .error e' := by
  induction ps with
  | nil => cases hp
  | cons q ps ih =>
    unfold targetsOf
    cases hq : parseSelection q.selection with
    | error e' => exact ⟨e', rfl⟩
    | ok sel =>
      rcases List.mem_cons.mp hp with rfl | hp
      · cases hq.symm.trans he
      · obtain ⟨e', he'⟩ := ih hp
        exact ⟨e', by simp [Except.bind, Except.map, he']⟩

/-- A request with a selection or a configuration that is refused is answered
without a session: the connector keeps the one it has and sends nothing. -/
theorem read_of_refused (conn : Option Conn) {req : Sdk.ReadRequest} (h : Handshake)
    (answers : List (List Answer))
    (href : (∃ e, resolveRackSlot req.config = .error e) ∨
      ∃ p ∈ req.allPoints, ∃ e, parseSelection p.selection = .error e) :
    ∃ e, read conn req h answers = some (conn, .error e) := by
  unfold read
  cases hkey : keyOf req with
  | error e => exact ⟨e, rfl⟩
  | ok key =>
    rcases href with ⟨e, he⟩ | ⟨p, hp, e, he⟩
    · unfold keyOf at hkey
      split at hkey
      · cases hkey
      · rw [he] at hkey
        cases hkey
    · obtain ⟨e', he'⟩ := targetsOf_error hp he
      exact ⟨e', by simp [he']⟩

/-- **When S7 addresses are taken literally or refused.** A selection that is
accepted has the numbers of the JSON, 0 for those that are absent, exactly when
it is refused or each of its numbers is an integer that fits its field; so have
rack and slot, with the family's values for those that are absent; and what is
refused is refused before a session is used. -/
theorem taken_literally_iff (sel config : Json) (conn : Option Conn) (req : Sdk.ReadRequest) (h : Handshake)
    (answers : List (List Answer)) :
    ((∀ s, parseSelection sel = .ok s → LiteralSelection sel s) ↔ Refused sel ∨ FitsSelection sel) ∧
    ((∀ p, resolveRackSlot config = .ok p → LiteralRackSlot config p) ↔
      RackRefused config ∨ (Fits 65536 "rack" config ∧ Fits 65536 "slot" config)) ∧
    (((∃ e, resolveRackSlot req.config = .error e) ∨
        ∃ p ∈ req.allPoints, ∃ e, parseSelection p.selection = .error e) →
      ∃ e, read conn req h answers = some (conn, .error e)) :=
  ⟨selection_literal_iff sel, rackSlot_literal_iff config, read_of_refused conn h answers⟩

/-- A selection of two bytes of a data block, a selection whose block number is a
text, and a rack behind the last one. -/
def bigBlock : Json :=
  .obj [("area", .str "db"), ("byte", jsonNat 4), ("db", jsonNat 65537), ("type", .str "int")]

def textBlock : Json := .obj [("db", .str "7"), ("type", .str "int")]

def bigRack : Json := .obj [("rack", jsonNat 65536), ("slot", jsonNat 2)]

/-- They are taken for data block 1, data block 0 and rack 0. -/
theorem address_changed :
    (parseSelection bigBlock = .ok ⟨0x84, 1, 4, 0, .int⟩ ∧
      ¬ LiteralSelection bigBlock ⟨0x84, 1, 4, 0, .int⟩) ∧
    parseSelection textBlock = .ok ⟨0x84, 0, 0, 0, .int⟩ ∧ resolveRackSlot bigRack = .ok (0, 2) := by
  have hparse : parseSelection bigBlock = .ok ⟨0x84, 1, 4, 0, .int⟩ := by rfl
  have hget : bigBlock.get "db" = some (jsonNat 65537) := by rfl
  refine ⟨⟨hparse, fun h => ?_⟩, by rfl, by rfl⟩
  rcases h.db with ⟨hnone, -⟩ | ⟨x, u, hx, hu, hn⟩
  · rw [hget] at hnone
    cases hnone
  · obtain rfl := Option.some.inj (hget.symm.trans hx)
    obtain rfl := Option.some.inj hu
    exact absurd hn (by decide)

/-! ### The fields of a telegram -/

/-- The number of elements, the data block and the 24-bit address in a read request. -/
def askedOf (t : List UInt8) : ℕ := makeU16 (t.getD 23 0) (t.getD 24 0)

def blockOf (t : List UInt8) : ℕ := makeU16 (t.getD 25 0) (t.getD 26 0)

def addressOf (t : List UInt8) : ℕ :=
  (t.getD 28 0).toNat * 65536 + (t.getD 29 0).toNat * 256 + (t.getD 30 0).toNat

/-- The number of the first bit of a selection, and of the bits between two of its
elements. -/
def Selection.address (sel : Selection) : ℕ :=
  8 * sel.byte.toNat + if sel.dtype = .bool then sel.bit.toNat else 0

def Selection.unit (sel : Selection) : ℕ := if sel.dtype = .bool then 1 else 8

/-- The telegram reads from the area and the block of the selection, at an address. -/
structure Telegram (sel : Selection) (address : ℕ) (t : List UInt8) : Prop where
  area : t.getD 27 0 = sel.area
  block : blockOf t = sel.db.toNat
  address : addressOf t = address

/-- The first telegram reads at the address, and each of the others where the one
before it ended. -/
def Telegrams (sel : Selection) : ℕ → List Exchange → Prop
  | _, [] => True
  | address, x :: xs => Telegram sel address x.telegram ∧
      Telegrams sel (address + sel.unit * askedOf x.telegram) xs

theorem makeU16_parts (x : UInt16) : makeU16 (hiPart x) (loPart x) = x.toNat := by
  have hlt := x.toNat_lt
  simp only [makeU16, hiPart, loPart, UInt16.toNat_toUInt8, UInt16.toNat_shiftRight]
  have hshift : x.toNat >>> (UInt16.toNat 8 % 16) = x.toNat / 256 := Nat.shiftRight_eq_div_pow _ _
  rw [hshift]
  omega

theorem three_bytes (x : UInt32) : (x >>> 16).toUInt8.toNat * 65536 + (x >>> 8).toUInt8.toNat * 256 +
    x.toUInt8.toNat = x.toNat % 2 ^ 24 := by
  have h16 : x.toNat >>> (UInt32.toNat 16 % 32) = x.toNat / 65536 := Nat.shiftRight_eq_div_pow _ _
  have h8 : x.toNat >>> (UInt32.toNat 8 % 32) = x.toNat / 256 := Nat.shiftRight_eq_div_pow _ _
  simp only [UInt32.toNat_toUInt8, UInt32.toNat_shiftRight, h16, h8]
  omega

section

variable (area : UInt8) (db : UInt16) (start : UInt32) (count : UInt16)

theorem askedOf_readTelegram (wordlen : UInt8) :
    askedOf (readTelegram area db wordlen start count) = count.toNat := makeU16_parts count

theorem blockOf_readTelegram (wordlen : UInt8) :
    blockOf (readTelegram area db wordlen start count) = db.toNat := makeU16_parts db

/-- The address of a request for bits, and of one for bytes. -/
theorem addressOf_bits :
    addressOf (readTelegram area db 0x01 start count) = start.toNat % 2 ^ 24 := three_bytes start

theorem addressOf_bytes :
    addressOf (readTelegram area db 0x02 start count) = 8 * start.toNat % 2 ^ 24 := by
  have hshift : (start <<< 3).toNat = start.toNat * 8 % 2 ^ 32 := by
    rw [UInt32.toNat_shiftLeft]
    exact congrArg (· % 2 ^ 32) (Nat.shiftLeft_eq _ _)
  have h : addressOf (readTelegram area db 0x02 start count) = (start <<< 3).toNat % 2 ^ 24 :=
    three_bytes (start <<< 3)
  rw [h, hshift]
  omega

end

/-! ### The telegrams a selection is read with -/

theorem telegram_at (sel : Selection) {start : UInt32} (count : UInt16)
    (hfits : sel.unit * start.toNat < 2 ^ 24) :
    Telegram sel (sel.unit * start.toNat) (readTelegram sel.area sel.db sel.wordlen start count) := by
  refine ⟨rfl, blockOf_readTelegram _ _ _ _ _, ?_⟩
  unfold Selection.unit at hfits ⊢
  unfold Selection.wordlen
  by_cases hbool : sel.dtype = .bool
  · rw [if_pos hbool] at hfits ⊢
    rw [if_pos hbool, addressOf_bits]
    omega
  · rw [if_neg hbool] at hfits ⊢
    rw [if_neg hbool, addressOf_bytes]
    omega

theorem one_le_unit (sel : Selection) : 1 ≤ sel.unit := by
  unfold Selection.unit
  split <;> decide

/-- Where the last element fits the address, the chunks follow one another. -/
theorem telegrams_readChunks {sel : Selection} {datasize : UInt16} : ∀ {answers : List Answer}
    {s s' : Session} {offset : UInt16} {start : UInt32} {buffer : List UInt8} {xs : List Exchange}
    {r : Except S7Error (List UInt8)},
    sel.unit * (start.toNat + (datasize.toNat - offset.toNat)) < 2 ^ 24 →
    readChunks sel.area sel.db sel.wordlen datasize answers s offset start buffer = some (s', xs, r) →
    Telegrams sel (sel.unit * start.toNat) xs := by
  intro answers
  induction answers with
  | nil =>
    intro s s' offset start buffer xs r _ h
    unfold readChunks at h
    split at h
    · obtain ⟨rfl, rfl, rfl⟩ := h
      exact trivial
    · cases h
  | cons a answers ih =>
    intro s s' offset start buffer xs r hfits h
    unfold readChunks at h
    split at h
    · obtain ⟨rfl, rfl, rfl⟩ := h
      exact trivial
    · rename_i hlt
      have hchunk := chunk_le hlt (s.pduLength - 18)
      have hfirst : sel.unit * start.toNat < 2 ^ 24 :=
        Nat.lt_of_le_of_lt (Nat.mul_le_mul_left _ (Nat.le_add_right _ _)) hfits
      dsimp only at h
      split at h
      · obtain ⟨rfl, rfl, rfl⟩ := h
        exact ⟨telegram_transact ▸ telegram_at sel _ hfirst, trivial⟩
      · split at h
        · obtain ⟨rfl, rfl, rfl⟩ := h
          exact ⟨telegram_transact ▸ telegram_at sel _ hfirst, trivial⟩
        · obtain ⟨⟨t, ys, r'⟩, hrec, heq⟩ := Option.map_eq_some_iff.mp h
          obtain ⟨rfl, rfl, rfl⟩ := heq
          refine ⟨telegram_transact ▸ telegram_at sel _ hfirst, ?_⟩
          rw [telegram_transact, askedOf_readTelegram]
          generalize min (datasize - offset) (s.pduLength - 18) = count at hchunk hrec ⊢
          -- neither the start nor the offset wraps, as the last element fits
          have hstart : start.toNat + (datasize.toNat - offset.toNat) < 2 ^ 24 :=
            Nat.lt_of_le_of_lt (Nat.le_mul_of_pos_left _ (one_le_unit sel)) hfits
          have hnext : (start + count.toUInt32).toNat = start.toNat + count.toNat := by
            rw [UInt32.toNat_add, UInt16.toNat_toUInt32]
            omega
          have hoffset := toNat_add_chunk hchunk
          rw [← Nat.mul_add, ← hnext]
          refine ih ?_ hrec
          rw [hnext, hoffset]
          have : start.toNat + count.toNat + (datasize.toNat - (offset.toNat + count.toNat)) =
              start.toNat + (datasize.toNat - offset.toNat) := by omega
          rw [this]
          exact hfits

theorem parseArea_mem {a : String} {area : UInt8} (h : parseArea a = .ok area) :
    area ∈ ([0x81, 0x82, 0x83, 0x84] : List UInt8) := by
  unfold parseArea at h
  split at h <;> cases h <;> decide

theorem area_mem {j : Json} {sel : Selection} (h : parseSelection j = .ok sel) :
    sel.area ∈ ([0x81, 0x82, 0x83, 0x84] : List UInt8) := by
  have harea := (parseSelection_eq_ok.mp h).1
  unfold areaOf at harea
  split at harea
  · exact parseArea_mem harea
  · rw [← Except.ok.inj harea]
    decide

theorem readable_of_parsed {j : Json} {sel : Selection} (h : parseSelection j = .ok sel) :
    sel.Readable := ⟨area_mem h, (parseSelection_eq_ok.mp h).2.2.2.1⟩

theorem size_le (sel : Selection) : sel.size ≤ 8 := by
  unfold Selection.size
  cases sel.dtype <;> decide

/-- The telegrams of a read follow one another from where the first one starts. -/
theorem telegrams_readValue {j : Json} {sel : Selection} (h : parseSelection j = .ok sel)
    {s s' : Session} {answers : List Answer} {xs : List Exchange} {r : Except String F64}
    (hread : readValue s sel answers = some (s', xs, r)) :
    xs ≠ [] ∧ Telegrams sel (sel.unit * sel.start.toNat) xs := by
  rw [readValue_chunks, if_pos (readable_of_parsed h)] at hread
  obtain ⟨⟨t, ys, r'⟩, hchunks, heq⟩ := Option.map_eq_some_iff.mp hread
  obtain ⟨rfl, rfl, -⟩ := heq
  have hstart := sel.start.toNat_lt
  have hsize := size_le sel
  have hunit : sel.unit ≤ 8 := by
    unfold Selection.unit
    split <;> decide
  have hfits : sel.unit * (sel.start.toUInt32.toNat + (sel.datasize.toNat - (0 : UInt16).toNat)) <
      2 ^ 24 := by
    rw [UInt16.toNat_toUInt32, datasize_toNat]
    calc sel.unit * (sel.start.toNat + (sel.size - (0 : UInt16).toNat))
        ≤ 8 * (sel.start.toNat + 8) := Nat.mul_le_mul hunit (by omega)
      _ < 2 ^ 24 := by omega
  have htelegrams := telegrams_readChunks hfits hchunks
  rw [UInt16.toNat_toUInt32] at htelegrams
  exact ⟨(readChunks_eq hchunks).2 (not_datasize_le sel), htelegrams⟩

/-- The first one starts at the address of the selection exactly when the number of
the bit fits sixteen bits. -/
theorem start_eq_address_iff {j : Json} {sel : Selection} (h : parseSelection j = .ok sel) :
    sel.unit * sel.start.toNat = sel.address ↔ ¬ (sel.dtype = .bool ∧ 8192 ≤ sel.byte.toNat) := by
  obtain ⟨-, -, -, hbit, -⟩ := parseSelection_eq_ok.mp h
  unfold Selection.unit Selection.start Selection.address
  by_cases hbool : sel.dtype = .bool
  · have hle : sel.bit.toNat ≤ 7 := by
      by_contra hgt
      refine hbit ⟨hbool, ?_⟩
      rw [gt_iff_lt, UInt8.lt_iff_toNat_lt]
      exact Nat.not_le.mp hgt
    have hbyte := sel.byte.toNat_lt
    have h8 : UInt16.toNat 8 = 8 := rfl
    simp only [hbool, if_true, true_and, UInt16.toNat_add, UInt16.toNat_mul, UInt8.toNat_toUInt16, h8]
    omega
  · simp only [hbool, if_false, false_and, not_false_eq_true, Nat.add_zero]

/-- A PLC that does not answer. -/
def silent : Answer := ⟨[], rfl, 0, 0, "timed out"⟩

/-- A read ends when the PLC does not answer its first telegram. -/
theorem readValue_silent (s : Session) (sel : Selection) : ∃ y, readValue s sel [silent] = some y := by
  rw [readValue_chunks]
  split
  · unfold readChunks
    rw [if_neg (not_datasize_le sel)]
    exact ⟨_, rfl⟩
  · exact ⟨_, rfl⟩

theorem addressed_iff {j : Json} {sel : Selection} (h : parseSelection j = .ok sel) :
    (∀ s answers s' xs r, readValue s sel answers = some (s', xs, r) →
        xs ≠ [] ∧ Telegrams sel sel.address xs) ↔
      ¬ (sel.dtype = .bool ∧ 8192 ≤ sel.byte.toNat) := by
  rw [← start_eq_address_iff h]
  constructor
  · intro hall
    obtain ⟨⟨s', xs, r⟩, hread⟩ := readValue_silent ⟨480, [], []⟩ sel
    obtain ⟨hne, hwant⟩ := hall _ _ _ _ _ hread
    have hgot := (telegrams_readValue h hread).2
    cases xs with
    | nil => exact absurd rfl hne
    | cons x xs => exact hgot.1.address.symm.trans hwant.1.address
  · intro heq s answers s' xs r hread
    rw [← heq]
    exact telegrams_readValue h hread

/-! ### Rack and slot in the TSAP -/

/-- The connection request for a rack and a slot, and the TSAP in it with the byte
for its connection type. -/
def connectTelegram (p : UInt16 × UInt16) : List UInt8 := isoCr 0x0100 (remoteTsap p.1 p.2)

def tsapOf (t : List UInt8) : ℕ := makeU16 (t.getD 20 0) (t.getD 21 0)

def typeOf (t : List UInt8) : UInt8 := t.getD 20 0

/-- The number of a rack and a slot, which the lower byte of the TSAP is for. -/
def tsapNumber (p : UInt16 × UInt16) : ℕ := 32 * p.1.toNat + p.2.toNat

/-- The TSAP is that of the rack and the slot, and of the connection type 1. -/
structure Tsap (p : UInt16 × UInt16) : Prop where
  number : tsapOf (connectTelegram p) = 256 + tsapNumber p
  type : typeOf (connectTelegram p) = 0x01

theorem sent_connect {p : UInt16 × UInt16} {h : Handshake} {s : Session}
    (hc : connectRackSlot p.1 p.2 h = .ok s) : s.sent.head? = some (connectTelegram p) := by
  obtain ⟨pduLength, rfl⟩ := connectTsap_ok hc
  rfl

theorem tsapOf_connectTelegram (p : UInt16 × UInt16) :
    tsapOf (connectTelegram p) = (256 + tsapNumber p) % 65536 := by
  have hsum : (remoteTsap p.1 p.2).toNat = (256 + tsapNumber p) % 65536 := by
    have h1 : ((0x0001 : UInt16) <<< 8).toNat = 256 := rfl
    have h2 : UInt16.toNat 0x20 = 32 := rfl
    simp only [remoteTsap, tsapNumber, UInt16.toNat_add, UInt16.toNat_mul, h1, h2]
    omega
  rw [← hsum]
  exact makeU16_parts _

theorem tsap_iff (p : UInt16 × UInt16) : Tsap p ↔ tsapNumber p < 256 := by
  have htsap := tsapOf_connectTelegram p
  have htype : tsapOf (connectTelegram p) =
      (typeOf (connectTelegram p)).toNat * 256 + ((connectTelegram p).getD 21 0).toNat := rfl
  have hlow := ((connectTelegram p).getD 21 0).toNat_lt
  have hhigh := (typeOf (connectTelegram p)).toNat_lt
  constructor
  · rintro ⟨hnumber, hone⟩
    have : (typeOf (connectTelegram p)).toNat = 1 := congrArg UInt8.toNat hone
    omega
  · intro hlt
    refine ⟨by omega, ?_⟩
    apply UInt8.toNat_inj.mp
    have : UInt8.toNat 0x01 = 1 := rfl
    omega

/-- The two pairs have TSAPs of their own. -/
def OwnTsaps (p q : UInt16 × UInt16) : Prop :=
  Tsap p ∧ Tsap q ∧ (p ≠ q → tsapOf (connectTelegram p) ≠ tsapOf (connectTelegram q))

theorem ownTsaps_iff (p q : UInt16 × UInt16) : OwnTsaps p q ↔
    tsapNumber p < 256 ∧ tsapNumber q < 256 ∧ (p ≠ q → tsapNumber p ≠ tsapNumber q) := by
  unfold OwnTsaps
  rw [tsap_iff, tsap_iff]
  refine and_congr_right fun hp => and_congr_right fun hq => imp_congr_right fun _ => not_congr ?_
  rw [tsapOf_connectTelegram, tsapOf_connectTelegram]
  omega

/-- So do racks up to 7 with slots up to 31. -/
theorem ownTsaps_of_small {p q : UInt16 × UInt16} (hp : p.1.toNat ≤ 7 ∧ p.2.toNat ≤ 31)
    (hq : q.1.toNat ≤ 7 ∧ q.2.toNat ≤ 31) : OwnTsaps p q := by
  rw [ownTsaps_iff]
  unfold tsapNumber
  refine ⟨by omega, by omega, fun hne heq => hne ?_⟩
  apply Prod.ext
  · exact UInt16.toNat_inj.mp (by omega)
  · exact UInt16.toNat_inj.mp (by omega)

/-- **When S7 addresses are exact on the wire.** Whatever the PLC answers, the
telegrams of a read of a parsed selection have its area, its block and its
addresses exactly when it is not for a bit from byte 8192 on; the connection
request has the TSAP of the rack and the slot; and two pairs have TSAPs of their
own, with the connection type 1, exactly when their numbers are below 256 and
different. -/
theorem wire_exact_iff (j : Json) (p q : UInt16 × UInt16) :
    (∀ sel, parseSelection j = .ok sel →
      ((∀ s answers s' xs r, readValue s sel answers = some (s', xs, r) →
          xs ≠ [] ∧ Telegrams sel sel.address xs) ↔
        ¬ (sel.dtype = .bool ∧ 8192 ≤ sel.byte.toNat))) ∧
    (∀ h s, connectRackSlot p.1 p.2 h = .ok s → s.sent.head? = some (connectTelegram p)) ∧
    (OwnTsaps p q ↔
      tsapNumber p < 256 ∧ tsapNumber q < 256 ∧ (p ≠ q → tsapNumber p ≠ tsapNumber q)) :=
  ⟨fun _ h => addressed_iff h, fun _ _ hc => sent_connect hc, ownTsaps_iff p q⟩

/-- The first bit of byte 8192. -/
def farBit : Json := .obj [("byte", jsonNat 8192), ("db", jsonNat 1), ("type", .str "bool")]

def lastSlot : Json := .obj [("rack", jsonNat 0), ("slot", jsonNat 32)]

def secondRack : Json := .obj [("rack", jsonNat 1), ("slot", jsonNat 0)]

/-- It is read as the first bit of byte 0; and slot 32 of rack 0 has the TSAP of slot
0 of rack 1. -/
theorem address_wrapped :
    (∃ sel s' x r, parseSelection farBit = .ok sel ∧ sel.address = 65536 ∧
      readValue ⟨480, [], []⟩ sel [silent] = some (s', [x], r) ∧ addressOf x.telegram = 0) ∧
    resolveRackSlot lastSlot = .ok (0, 32) ∧ resolveRackSlot secondRack = .ok (1, 0) ∧
    tsapOf (connectTelegram (0, 32)) = tsapOf (connectTelegram (1, 0)) :=
  ⟨⟨⟨0x84, 1, 8192, 0, .bool⟩, _, _, _, rfl, rfl, rfl, rfl⟩, rfl, rfl, rfl⟩

end S7
end LymonAgent
