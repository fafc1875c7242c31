/-
# PSS dates

`format_pss_date`, `parse_iso` and `parse_pss_date` of `src/pss.rs`: an instant as
`DDMMYYYYHHmmss`. Writing pads every part to its width and no further, and reading
takes the first 14 characters apart and reads each part as a signed number
(`parsePssDate_eq_some`).

So what is written is read back unless the year has no four characters or the second
is a leap second (`parsePssDate_formatPssDate`), and what is read is what would be
written unless a part has a sign that is not written (`formatPssDate_eq_iff`).

Key definitions: `DateTime`, `formatPssDate`, `parsePssDate`, `PlainDate`.
-/
import Mathlib.Data.List.SplitLengths
import LymonAgent.Decimal

namespace LymonAgent
namespace Pss

open Decimal

/-! ### Instants -/

def isLeapYear (year : ℤ) : Bool := year % 4 = 0 && (year % 100 ≠ 0 || year % 400 = 0)

def daysIn (year : ℤ) : ℕ → ℕ
  | 2 => if isLeapYear year then 29 else 28
  | 4 | 6 | 9 | 11 => 30
  | _ => 31

theorem daysIn_le (year : ℤ) (month : ℕ) : daysIn year month ≤ 31 := by
  unfold daysIn
  split <;> (try split) <;> decide

/-- A leap second is a second 59 with a billion nanoseconds or more. -/
structure IsInstant (year : ℤ) (month day hour minute second nanosecond : ℕ) : Prop where
  year_mem : -262143 ≤ year ∧ year ≤ 262142
  month_mem : 1 ≤ month ∧ month ≤ 12
  day_mem : 1 ≤ day ∧ day ≤ daysIn year month
  hour_lt : hour < 24
  minute_lt : minute < 60
  second_lt : second < 60
  nanosecond_lt : nanosecond < 10 ^ 9 ∨ (second = 59 ∧ nanosecond < 2 * 10 ^ 9)

instance (year : ℤ) (month day hour minute second nanosecond : ℕ) :
    Decidable (IsInstant year month day hour minute second nanosecond) :=
  decidable_of_iff ((-262143 ≤ year ∧ year ≤ 262142) ∧ (1 ≤ month ∧ month ≤ 12) ∧
      (1 ≤ day ∧ day ≤ daysIn year month) ∧ hour < 24 ∧ minute < 60 ∧ second < 60 ∧
      (nanosecond < 10 ^ 9 ∨ (second = 59 ∧ nanosecond < 2 * 10 ^ 9)))
    ⟨fun ⟨h1, h2, h3, h4, h5, h6, h7⟩ => ⟨h1, h2, h3, h4, h5, h6, h7⟩,
      fun ⟨h1, h2, h3, h4, h5, h6, h7⟩ => ⟨h1, h2, h3, h4, h5, h6, h7⟩⟩

/-- `DateTime<Utc>`, by its calendar fields. -/
@[ext] structure DateTime where
  year : ℤ
  month : ℕ
  day : ℕ
  hour : ℕ
  minute : ℕ
  second : ℕ
  nanosecond : ℕ
  valid : IsInstant year month day hour minute second nanosecond

/-- The instant at the start of its second. -/
def DateTime.truncSecond (dt : DateTime) : DateTime where
  year := dt.year
  month := dt.month
  day := dt.day
  hour := dt.hour
  minute := dt.minute
  second := dt.second
  nanosecond := dt.nanosecond - dt.nanosecond % 10 ^ 9
  valid := { dt.valid with
    nanosecond_lt := dt.valid.nanosecond_lt.imp (Nat.lt_of_le_of_lt (Nat.sub_le _ _))
      (And.imp_right (Nat.lt_of_le_of_lt (Nat.sub_le _ _))) }

/-- `Utc.with_ymd_and_hms(..).single()`. -/
def withYmdAndHms (year : ℤ) (month day hour min sec : ℕ) : Option DateTime :=
  if h : IsInstant year month day hour min sec 0 then some ⟨year, month, day, hour, min, sec, 0, h⟩
  else none

/-! ### The three functions -/

def formatPssDate (dt : DateTime) : String :=
  .ofList (pad 2 dt.day ++ pad 2 dt.month ++ pad 4 dt.year ++ pad 2 dt.hour ++ pad 2 dt.minute ++
    pad 2 dt.second)

/-- `DateTime::parse_from_rfc3339`, as the instant in UTC, is `rfc3339`. -/
def parseIso (rfc3339 : String → Option DateTime) (s : String) : Except String DateTime :=
  match rfc3339 s with
  | some dt => .ok dt
  | none => .error ("invalid ISO timestamp: " ++ s)

/-- `n as u32` of an `i64`. -/
def asU32 (n : ℤ) : ℕ := (n % 2 ^ 32).toNat

/-- `n as i32` of an `i64`. -/
def asI32 (n : ℤ) : ℤ := n.bmod (2 ^ 32)

/-- `s[a..b]`. -/
def field (s : List Char) (a b : ℕ) : List Char := (s.drop a).take (b - a)

def parsePssDate (input : String) : Option DateTime :=
  let s := input.toList.take 14
  if s.length < 14 then none
  else do
    let day ← readInt (field s 0 2)
    let month ← readInt (field s 2 4)
    let year ← readInt (field s 4 8)
    let hour ← readInt (field s 8 10)
    let min ← readInt (field s 10 12)
    let sec ← readInt (field s 12 14)
    withYmdAndHms (asI32 year) (asU32 month) (asU32 day) (asU32 hour) (asU32 min) (asU32 sec)

/-! ### The parts of a date -/

/-- The six parts of the first 14 characters. -/
def fields (s : List Char) : List (List Char) :=
  [field s 0 2, field s 2 4, field s 4 8, field s 8 10, field s 10 12, field s 12 14]

/-- No part has a sign that is not written. -/
def PlainDate (input : String) : Prop := ∀ f ∈ fields (input.toList.take 14), Plain f

instance (input : String) : Decidable (PlainDate input) :=
  inferInstanceAs (Decidable (∀ f ∈ _, Plain f))

variable {dt : DateTime} {input : String} {s : List Char}

/-- The parts as they are written. -/
def parts (dt : DateTime) : List (List Char) :=
  [pad 2 dt.day, pad 2 dt.month, pad 4 dt.year, pad 2 dt.hour, pad 2 dt.minute, pad 2 dt.second]

theorem toList_formatPssDate (dt : DateTime) : (formatPssDate dt).toList = (parts dt).flatten := by
  rw [formatPssDate, String.toList_ofList, parts]
  simp only [List.flatten_cons, List.flatten_nil, List.append_nil, List.append_assoc]

/-- The lengths of the six parts. -/
def widths : List ℕ := [2, 2, 4, 2, 2, 2]

theorem fields_eq (s : List Char) : fields s = widths.splitLengths s := by
  simp [fields, field, widths, List.drop_drop]

theorem splitLengths_flatten {α : Type*} (fs : List (List α)) :
    (fs.map List.length).splitLengths fs.flatten = fs := by
  induction fs with
  | nil => rfl
  | cons f fs ih =>
    rw [List.map_cons, List.flatten_cons, List.splitLengths_cons, List.take_left, List.drop_left, ih]

theorem flatten_fields (h : s.length = 14) : (fields s).flatten = s := by
  rw [fields_eq]
  exact List.flatten_splitLengths s widths h.le

theorem length_fields (h : s.length = 14) : (fields s).map List.length = widths := by
  rw [fields_eq]
  exact List.map_splitLengths_length s widths h.ge

theorem fields_flatten {fs : List (List Char)} (h : fs.map List.length = widths) : fields fs.flatten = fs := by
  rw [fields_eq, ← h, splitLengths_flatten]

/-! ### Reading a date -/

/-- The numbers of a date, in their order. -/
def numbers (dt : DateTime) : List ℤ := [dt.day, dt.month, dt.year, dt.hour, dt.minute, dt.second]

theorem asU32_natCast {n : ℕ} (h : n < 100) : asU32 n = n := by
  unfold asU32
  omega

theorem asI32_of_mem {n : ℤ} (h0 : -10000 < n) (h1 : n < 10000) : asI32 n = n := by
  exact Int.bmod_eq_of_le (by omega) (by omega)

/-- A part that is a negative number is too large as a `u32`. -/
theorem eq_asU32 {n : ℤ} (h : -10 ^ 1 < n ∧ n < 10 ^ (1 + 1)) (hlt : asU32 n < 100) : (asU32 n : ℤ) = n := by
  unfold asU32 at hlt ⊢
  omega

theorem DateTime.numbers_lt (dt : DateTime) :
    dt.day < 100 ∧ dt.month < 100 ∧ dt.hour < 100 ∧ dt.minute < 100 ∧ dt.second < 100 := by
  obtain ⟨-, hmonth, hday, hhour, hminute, hsecond, -⟩ := dt.valid
  have hdays := daysIn_le dt.year dt.month
  omega

/-- The fields of the instant that is made. -/
theorem withYmdAndHms_eq_some {year : ℤ} {month day hour min sec : ℕ} :
    withYmdAndHms year month day hour min sec = some dt ↔ dt.year = year ∧ dt.month = month ∧
      dt.day = day ∧ dt.hour = hour ∧ dt.minute = min ∧ dt.second = sec ∧ dt.nanosecond = 0 := by
  unfold withYmdAndHms
  constructor
  · intro h
    split at h
    · obtain rfl := Option.some.inj h
      exact ⟨rfl, rfl, rfl, rfl, rfl, rfl, rfl⟩
    · cases h
  · rintro ⟨rfl, rfl, rfl, rfl, rfl, rfl, hnano⟩
    rw [dif_pos (hnano ▸ dt.valid)]
    exact congrArg some (DateTime.ext rfl rfl rfl rfl rfl rfl hnano.symm)

/-- **A date is read from the parts of the first 14 characters**, each a number by
itself. -/
theorem parsePssDate_eq_some : parsePssDate input = some dt ↔
    (input.toList.take 14).length = 14 ∧
      (fields (input.toList.take 14)).map readInt = (numbers dt).map some ∧ dt.nanosecond = 0 := by
  unfold parsePssDate
  dsimp only
  generalize hs : input.toList.take 14 = s
  have hle : s.length ≤ 14 := by
    rw [← hs]
    exact List.length_take_le _ _
  by_cases hlen : s.length < 14
  · rw [if_pos hlen]
    exact iff_of_false (by simp) fun h => hlen.ne h.1
  · have hlen14 : s.length = 14 := by omega
    have hwidth : ∀ {a b : ℕ}, b ≤ 14 → (field s a b).length = b - a := by
      intro a b hb
      rw [field, List.length_take, List.length_drop]
      omega
    rw [if_neg hlen]
    simp only [Option.bind_eq_bind, Option.bind_eq_some_iff, withYmdAndHms_eq_some, fields, numbers,
      List.map_cons, List.map_nil, List.cons.injEq, and_true]
    constructor
    · rintro ⟨day, hday, month, hmonth, year, hyear, hour, hhour, min, hmin, sec, hsec, rest⟩
      obtain ⟨hy, hmo, hd, hh, hmi, hse, hnano⟩ := rest
      obtain ⟨hd', hmo', hh', hmi', hse'⟩ := dt.numbers_lt
      have hb := readInt_bounds (k := 3) (hwidth (by decide)) hyear
      rw [asI32_of_mem (by omega) (by omega)] at hy
      rw [hday, hmonth, hyear, hhour, hmin, hsec, hy, hd, hmo, hh, hmi, hse,
        eq_asU32 (readInt_bounds (hwidth (by decide)) hday) (hd ▸ hd'),
        eq_asU32 (readInt_bounds (hwidth (by decide)) hmonth) (hmo ▸ hmo'),
        eq_asU32 (readInt_bounds (hwidth (by decide)) hhour) (hh ▸ hh'),
        eq_asU32 (readInt_bounds (hwidth (by decide)) hmin) (hmi ▸ hmi'),
        eq_asU32 (readInt_bounds (hwidth (by decide)) hsec) (hse ▸ hse')]
      exact ⟨hlen14, ⟨rfl, rfl, rfl, rfl, rfl, rfl⟩, hnano⟩
    · rintro ⟨-, ⟨hday, hmonth, hyear, hhour, hmin, hsec⟩, hnano⟩
      obtain ⟨hd', hmo', hh', hmi', hse'⟩ := dt.numbers_lt
      have hb := readInt_bounds (k := 3) (hwidth (by decide)) hyear
      refine ⟨_, hday, _, hmonth, _, hyear, _, hhour, _, hmin, _, hsec, ?_⟩
      rw [asI32_of_mem (by omega) (by omega), asU32_natCast hd', asU32_natCast hmo', asU32_natCast hh',
        asU32_natCast hmi', asU32_natCast hse']
      exact ⟨rfl, rfl, rfl, rfl, rfl, rfl, hnano⟩

/-! ### What is written is read back -/

/-- A year of four characters, a sign among them. -/
def FourCharYear (year : ℤ) : Prop := -999 ≤ year ∧ year ≤ 9999

instance (year : ℤ) : Decidable (FourCharYear year) := inferInstanceAs (Decidable (_ ∧ _))

theorem length_parts (h : FourCharYear dt.year) : (parts dt).map List.length = widths := by
  obtain ⟨hd, hmo, hh, hmi, hse⟩ := dt.numbers_lt
  have htwo : ∀ {n : ℕ}, n < 100 → (pad 2 n).length = 2 := fun hn =>
    length_pad (by omega) (by decide) (by exact_mod_cast hn)
  have hyear : (pad 4 dt.year).length = 4 := by
    obtain ⟨hlo, hhi⟩ := h
    by_cases hneg : dt.year < 0
    · exact length_pad_neg hneg (by decide) (by omega)
    · exact length_pad (by omega) (by decide) (by omega)
  simp only [parts, widths, List.map_cons, List.map_nil, htwo hd, htwo hmo, htwo hh, htwo hmi, htwo hse,
    hyear]

theorem map_readInt_parts (dt : DateTime) : (parts dt).map readInt = (numbers dt).map some := by
  simp only [parts, numbers, List.map_cons, List.map_nil, readInt_pad]

theorem truncSecond_nanosecond : dt.truncSecond.nanosecond = 0 ↔ dt.nanosecond < 10 ^ 9 := by
  obtain ⟨-, -, -, -, -, -, hnano⟩ := dt.valid
  simp only [DateTime.truncSecond]
  omega

/-- The year of a date that is read has four characters. -/
theorem fourCharYear_of_parse (h : parsePssDate input = some dt) : FourCharYear dt.year := by
  obtain ⟨hlen, hmap, -⟩ := parsePssDate_eq_some.mp h
  simp only [fields, numbers, List.map_cons, List.map_nil, List.cons.injEq] at hmap
  have hwidth : (field (input.toList.take 14) 4 8).length = 3 + 1 := by
    rw [field, List.length_take, List.length_drop, hlen]
    rfl
  have hb := readInt_bounds hwidth hmap.2.2.1
  exact ⟨by omega, by omega⟩

/-- **A date that is written is read back to the second** exactly if its year has four
characters and its second is no leap second. -/
theorem parsePssDate_formatPssDate (dt : DateTime) :
    parsePssDate (formatPssDate dt) = some dt.truncSecond ↔
      FourCharYear dt.year ∧ dt.nanosecond < 10 ^ 9 := by
  constructor
  · intro h
    have hyear : FourCharYear dt.truncSecond.year := fourCharYear_of_parse h
    exact ⟨hyear, truncSecond_nanosecond.mp (parsePssDate_eq_some.mp h).2.2⟩
  · rintro ⟨hyear, hnano⟩
    have hwidths := length_parts hyear
    have hlen : (parts dt).flatten.length = 14 := by
      rw [List.length_flatten, hwidths]
      rfl
    rw [parsePssDate_eq_some, toList_formatPssDate, List.take_of_length_le hlen.le, fields_flatten hwidths]
    exact ⟨hlen, map_readInt_parts dt, truncSecond_nanosecond.mpr hnano⟩

/-! ### What is read is what would be written -/

/-- **A date that is read is written as the same 14 characters** exactly if its text is
plain. -/
theorem formatPssDate_eq_iff (h : parsePssDate input = some dt) :
    formatPssDate dt = .ofList (input.toList.take 14) ↔ PlainDate input := by
  have hyear := fourCharYear_of_parse h
  obtain ⟨hlen, hmap, -⟩ := parsePssDate_eq_some.mp h
  have hwidths := length_fields hlen
  -- the texts are the same if their parts are
  have hparts : formatPssDate dt = .ofList (input.toList.take 14) ↔
      parts dt = fields (input.toList.take 14) := by
    rw [← String.toList_inj, toList_formatPssDate, String.toList_ofList]
    constructor
    · intro heq
      rw [← heq, fields_flatten (length_parts hyear)]
    · intro heq
      rw [heq, flatten_fields hlen]
  rw [hparts]
  unfold PlainDate
  simp only [fields, parts, numbers, widths, List.map_cons, List.map_nil, List.cons.injEq, and_true] at hmap hwidths ⊢
  obtain ⟨hday, hmonth, hyr, hhour, hmin, hsec⟩ := hmap
  obtain ⟨wday, wmonth, wyr, whour, wmin, wsec⟩ := hwidths
  simp only [List.mem_cons, List.not_mem_nil, or_false, forall_eq_or_imp, forall_eq]
  rw [← pad_eq_iff hday, ← pad_eq_iff hmonth, ← pad_eq_iff hyr, ← pad_eq_iff hhour, ← pad_eq_iff hmin,
    ← pad_eq_iff hsec, wday, wmonth, wyr, whour, wmin, wsec]

/-- **PSS dates undo each other up to signs, long years and leap seconds.** For every
reader of RFC 3339 texts: the instant of a text that is accepted comes back to the
second exactly if its year in UTC has four characters and its second is no leap
second; and a text read as a date is the one the date is written as exactly if it is
plain. -/
theorem pss_dates_iff (rfc3339 : String → Option DateTime) :
    (∀ text dt, parseIso rfc3339 text = .ok dt →
      (parsePssDate (formatPssDate dt) = some dt.truncSecond ↔
        FourCharYear dt.year ∧ dt.nanosecond < 10 ^ 9)) ∧
    ∀ s dt, parsePssDate s = some dt →
      (formatPssDate dt = .ofList (s.toList.take 14) ↔ PlainDate s) :=
  ⟨fun _ dt _ => parsePssDate_formatPssDate dt, fun _ _ h => formatPssDate_eq_iff h⟩

/-- The last second of the year 9999 an hour west of Greenwich, in UTC. -/
def pastNines : DateTime := ⟨10000, 1, 1, 0, 59, 59, 0, by decide⟩

/-- A reader of that one text. -/
def readsPastNines (text : String) : Option DateTime :=
  if text = "9999-12-31T23:59:59-01:00" then some pastNines else none

theorem pss_dates_iff_plus : ∃ dt, parsePssDate "+1012024000000" = some dt ∧
    (formatPssDate dt = .ofList ("+1012024000000".toList.take 14) ↔ PlainDate "+1012024000000") := by
  obtain ⟨dt, hdt⟩ := Option.isSome_iff_exists.mp
    (show (parsePssDate "+1012024000000").isSome = true by decide +kernel)
  exact ⟨dt, hdt, (pss_dates_iff readsPastNines).2 _ dt hdt⟩

/-- A year of five digits is not read back, and a day with a plus sign is read. -/
theorem not_pss_dates :
    ¬ (∀ (rfc3339 : String → Option DateTime) text dt, parseIso rfc3339 text = .ok dt →
        parsePssDate (formatPssDate dt) = some dt.truncSecond) ∧
    ¬ ∀ s dt, parsePssDate s = some dt → formatPssDate dt = .ofList (s.toList.take 14) := by
  constructor
  · intro h
    have hback := h readsPastNines "9999-12-31T23:59:59-01:00" pastNines rfl
    exact absurd ((parsePssDate_formatPssDate pastNines).mp hback).1 (by decide)
  · intro h
    obtain ⟨dt, hdt⟩ := Option.isSome_iff_exists.mp
      (show (parsePssDate "+1012024000000").isSome = true by decide +kernel)
    exact absurd ((formatPssDate_eq_iff hdt).mp (h _ dt hdt)) (by decide +kernel)

end Pss
end LymonAgent
