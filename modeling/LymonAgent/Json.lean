/-
# JSON values and their text

The values of `serde_json`: a number is a `u64`, a negative `i64` or a double,
and an object is the list of its members in the order the map iterates them,
which is key order (`Json.Sorted`). `Json.text` is the compact text
`Value::to_string` prints.

The printed text determines the value (`text_inj`): each value can be read back
from a text that starts with it, as the first character tells its kind, and the
closing bracket, the closing quote or the next separator tells its end. No
printed text is a key `name:number` (`text_ne_keyed`).

How a double is printed is a parameter (`FloatText`).

Key definitions: `Json`, `Json.get`, `Json.text`.
Key theorems: `text_inj`, `text_ne_keyed`.
-/
import LymonAgent.F64
import LymonAgent.Text

namespace LymonAgent

open Text

inductive Number where
  | posInt (n : UInt64)
  /-- The integer `-(n + 1)`. -/
  | negInt (n : Fin (2 ^ 63))
  | float (q : ℚ)
  deriving DecidableEq

inductive Json where
  | null
  | bool (b : Bool)
  | num (n : Number)
  | str (s : String)
  | arr (l : List Json)
  | obj (l : List (String × Json))

namespace Json

/-! ### Access -/

def get (k : String) : Json → Option Json
  | .obj l => l.lookup k
  | _ => none

def asStr : Json → Option String
  | .str s => some s
  | _ => none

def asBool : Json → Option Bool
  | .bool b => some b
  | _ => none

def asU64 : Json → Option UInt64
  | .num (.posInt n) => some n
  | _ => none

def asF64 : Json → Option F64
  | .num (.posInt n) => some (.fin n.toNat)
  | .num (.negInt n) => some (.fin (-(n + 1 : ℕ) : ℤ))
  | .num (.float q) => some (.fin q)
  | _ => none

def asArray : Json → Option (List Json)
  | .arr l => some l
  | _ => none

/-- `v.get(k).and_then(Value::as_str)`. -/
def getStr (k : String) (v : Json) : Option String := (v.get k).bind asStr

def getBool (k : String) (v : Json) : Option Bool := (v.get k).bind asBool

def getU64 (k : String) (v : Json) : Option UInt64 := (v.get k).bind asU64

def getF64 (k : String) (v : Json) : Option F64 := (v.get k).bind asF64

def getArray (k : String) (v : Json) : Option (List Json) := (v.get k).bind asArray

/-- The order of keys: character by character. -/
def charsLt : List Char → List Char → Bool
  | _, [] => false
  | [], _ :: _ => true
  | a :: as, b :: bs => a.toNat < b.toNat || (a = b && charsLt as bs)

def keyLt (a b : String) : Bool := charsLt a.toList b.toList

/-- The members of every object are in key order, each key once. -/
def Sorted : Json → Prop
  | .arr l => All l
  | .obj l => (l.map Prod.fst).Pairwise (fun a b => keyLt a b = true) ∧ Members l
  | _ => True
where
  All : List Json → Prop
    | [] => True
    | v :: vs => v.Sorted ∧ All vs
  Members : List (String × Json) → Prop
    | [] => True
    | (_, v) :: l => v.Sorted ∧ Members l

theorem Sorted.of_lookup {k : String} {v : Json} :
    ∀ {l : List (String × Json)}, Sorted.Members l → l.lookup k = some v → v.Sorted
  | (j, w) :: l, hl, h => by
    rw [Sorted.Members] at hl
    rw [List.lookup_cons] at h
    split at h
    · obtain rfl := Option.some.inj h
      exact hl.1
    · exact of_lookup hl.2 h

theorem Sorted.of_get {k : String} {v w : Json} (hv : v.Sorted) (h : v.get k = some w) :
    w.Sorted := by
  cases v with
  | obj l =>
    rw [Sorted] at hv
    exact Sorted.of_lookup hv.2 h
  | _ => cases h

theorem Sorted.of_all {v : Json} : ∀ {l : List Json}, Sorted.All l → v ∈ l → v.Sorted
  | w :: l, hl, h => by
    rw [Sorted.All] at hl
    rcases List.mem_cons.mp h with rfl | h
    · exact hl.1
    · exact of_all hl.2 h

theorem Sorted.of_getArray {k : String} {v w : Json} {l : List Json} (hv : v.Sorted)
    (h : v.getArray k = some l) (hw : w ∈ l) : w.Sorted := by
  obtain ⟨u, hu, hl⟩ := Option.bind_eq_some_iff.mp h
  have hsorted := hv.of_get hu
  cases u with
  | arr m =>
    obtain rfl : m = l := Option.some.inj hl
    rw [Sorted] at hsorted
    exact Sorted.of_all hsorted hw
  | _ => cases hl

end Json

/-! ### Printing -/

/-- The characters of a printed number. -/
def isNumeric (c : Char) : Bool := c.isDigit || c = '-' || c = '+' || c = '.' || c = 'e'

/-- How a double is printed: different doubles differently, with the characters
of numbers, and with a point or an exponent, so that no integer is printed so. -/
structure FloatText where
  text : ℚ → String
  inj : ∀ p q, text p = text q → p = q
  numeric : ∀ q, ∀ c ∈ (text q).toList, isNumeric c = true
  marked : ∀ q, '.' ∈ (text q).toList ∨ 'e' ∈ (text q).toList

/-- The escape of a character of a string. -/
def escape (c : Char) : List Char :=
  if c = '"' then ['\\', '"']
  else if c = '\\' then ['\\', '\\']
  else if c = '\n' then ['\\', 'n']
  else if c = '\r' then ['\\', 'r']
  else if c = '\t' then ['\\', 't']
  else if c.toNat = 8 then ['\\', 'b']
  else if c.toNat = 12 then ['\\', 'f']
  else if c.toNat < 32 then
    ['\\', 'u', '0', '0', (c.toNat / 16).digitChar, (c.toNat % 16).digitChar]
  else [c]

/-- A string from its first character on, with the closing quote. -/
def unquoted : List Char → List Char
  | [] => ['"']
  | c :: cs => escape c ++ unquoted cs

def quoted (s : String) : List Char := '"' :: unquoted s.toList

section

variable (F : FloatText)

def Number.chars : Number → List Char
  | .posInt n => n.toNat.repr.toList
  | .negInt n => '-' :: (n.val + 1).repr.toList
  | .float q => (F.text q).toList

mutual

def Json.chars : Json → List Char
  | .null => ['n', 'u', 'l', 'l']
  | .bool true => ['t', 'r', 'u', 'e']
  | .bool false => ['f', 'a', 'l', 's', 'e']
  | .num n => n.chars F
  | .str s => quoted s
  | .arr l => '[' :: items [] l
  | .obj l => '{' :: members [] l

/-- The items of an array, the next one after `sep`, with the closing bracket. -/
def items (sep : List Char) : List Json → List Char
  | [] => [']']
  | v :: vs => sep ++ (v.chars ++ items [','] vs)

def members (sep : List Char) : List (String × Json) → List Char
  | [] => ['}']
  | (k, v) :: l => sep ++ (quoted k ++ ':' :: (v.chars ++ members [','] l))

end

/-- `Value::to_string`. -/
def Json.text (v : Json) : String := .ofList (v.chars F)

end

variable {F : FloatText}

/-! ### Strings read back -/

/-- The characters `escape` changes. -/
def escaped : List Char := '"' :: '\\' :: (List.range 32).map Char.ofNat

theorem escape_of_not_mem {c : Char} (h : c ∉ escaped) : escape c = [c] := by
  have hge : ¬ c.toNat < 32 := fun hlt => h <| List.mem_cons_of_mem _ <| List.mem_cons_of_mem _ <|
    List.mem_map.mpr ⟨c.toNat, List.mem_range.mpr hlt, Char.ofNat_toNat c⟩
  have hne : ∀ d ∈ escaped, c ≠ d := fun d hd he => h (he ▸ hd)
  unfold escape
  rw [if_neg (hne _ (by decide)), if_neg (hne _ (by decide)), if_neg (hne _ (by decide)),
    if_neg (hne _ (by decide)), if_neg (hne _ (by decide)), if_neg (by omega), if_neg (by omega),
    if_neg hge]

/-- A string without such characters is printed as it is. -/
theorem quoted_of_not_mem {s : String} (h : ∀ c ∈ s.toList, c ∉ escaped) :
    quoted s = '"' :: (s.toList ++ ['"']) := by
  have hun : ∀ cs : List Char, (∀ c ∈ cs, c ∉ escaped) → unquoted cs = cs ++ ['"'] := by
    intro cs
    induction cs with
    | nil => exact fun _ => rfl
    | cons c cs ih =>
      intro h
      rw [unquoted, escape_of_not_mem (h c List.mem_cons_self), ih fun d hd => h d (List.mem_cons_of_mem c hd)]
      rfl
  rw [quoted, hun s.toList h]

/-- The escapes, one against the other. -/
theorem all_escaped : (escaped.all fun c => (escape c).head? == some '\\' &&
    escaped.all fun d => !(escape c).isPrefixOf (escape d) || c == d) = true := by
  decide +kernel

/-- An escape starts with a backslash and is no prefix of another. -/
theorem escape_of_mem {c : Char} (hc : c ∈ escaped) : (escape c).head? = some '\\' ∧
    ∀ d ∈ escaped, escape c <+: escape d → c = d := by
  have h := List.all_eq_true.mp all_escaped c hc
  simp only [Bool.and_eq_true, beq_iff_eq, List.all_eq_true] at h
  refine ⟨h.1, fun d hd hp => ?_⟩
  have hd := h.2 d hd
  rw [List.isPrefixOf_iff_prefix.mpr hp] at hd
  simpa using hd

theorem escape_eq_cons {c : Char} (hc : c ∈ escaped) : ∃ r, escape c = '\\' :: r :=
  List.head?_eq_some_iff.mp (escape_of_mem hc).1

theorem escape_inj {c d : Char} {s t : List Char} (h : escape c ++ s = escape d ++ t) :
    c = d ∧ s = t := by
  have hplain : ∀ {c d : Char} {s t : List Char}, c ∉ escaped → d ∈ escaped →
      escape c ++ s ≠ escape d ++ t := by
    intro c d s t hc hd he
    obtain ⟨r, hr⟩ := escape_eq_cons hd
    rw [escape_of_not_mem hc, hr] at he
    have hb : c = '\\' := (List.cons.inj he).1
    exact hc (hb ▸ by decide)
  by_cases hc : c ∈ escaped
  · by_cases hd : d ∈ escaped
    · obtain rfl : c = d := by
        rcases List.prefix_or_prefix_of_prefix ⟨s, rfl⟩ ⟨t, h.symm⟩ with hp | hp
        · exact (escape_of_mem hc).2 d hd hp
        · exact ((escape_of_mem hd).2 c hc hp).symm
      exact ⟨rfl, List.append_cancel_left h⟩
    · exact absurd h.symm (hplain hd hc)
  · by_cases hd : d ∈ escaped
    · exact absurd h (hplain hc hd)
    · rw [escape_of_not_mem hc, escape_of_not_mem hd] at h
      exact List.cons.inj h

/-- No character's escape starts like the closing quote. -/
theorem escape_ne_quote {c : Char} {s t : List Char} : escape c ++ s ≠ '"' :: t := by
  intro h
  by_cases hc : c ∈ escaped
  · obtain ⟨r, hr⟩ := escape_eq_cons hc
    rw [hr] at h
    exact absurd (List.cons.inj h).1 (by decide)
  · rw [escape_of_not_mem hc] at h
    have hq : c = '"' := (List.cons.inj h).1
    exact hc (hq ▸ by decide)

theorem unquoted_inj : ∀ {cs ds s t : List Char}, unquoted cs ++ s = unquoted ds ++ t →
    cs = ds ∧ s = t
  | [], [], _, _, h => ⟨rfl, (List.cons.inj h).2⟩
  | [], d :: ds, s, t, h => by
    rw [unquoted, unquoted, List.append_assoc] at h
    exact absurd h.symm escape_ne_quote
  | c :: cs, [], s, t, h => by
    rw [unquoted, unquoted, List.append_assoc] at h
    exact absurd h escape_ne_quote
  | c :: cs, d :: ds, s, t, h => by
    rw [unquoted, unquoted, List.append_assoc, List.append_assoc] at h
    obtain ⟨rfl, htail⟩ := escape_inj h
    obtain ⟨rfl, rfl⟩ := unquoted_inj htail
    exact ⟨rfl, rfl⟩

theorem quoted_inj {a b : String} {s t : List Char} (h : quoted a ++ s = quoted b ++ t) :
    a = b ∧ s = t := by
  obtain ⟨h1, h2⟩ := unquoted_inj (List.cons.inj h).2
  exact ⟨String.toList_injective h1, h2⟩

/-! ### Numbers read back -/

theorem numeric_of_isDigit {c : Char} (h : c.isDigit = true) : isNumeric c = true := by
  simp [isNumeric, h]

theorem Number.numeric (n : Number) : ∀ c ∈ n.chars F, isNumeric c = true := by
  cases n with
  | posInt n => exact fun c hc => numeric_of_isDigit (isDigit_of_mem_repr hc)
  | negInt n =>
    intro c hc
    rcases List.mem_cons.mp hc with rfl | hc
    · decide
    · exact numeric_of_isDigit (isDigit_of_mem_repr hc)
  | float q => exact F.numeric q

theorem Number.chars_ne_nil (n : Number) : n.chars F ≠ [] := by
  cases n with
  | posInt n => exact repr_ne_nil _
  | negInt n => exact List.cons_ne_nil _ _
  | float q =>
    rcases F.marked q with h | h
    · exact List.ne_nil_of_mem h
    · exact List.ne_nil_of_mem h

/-- A double has a character that no integer has. -/
theorem FloatText.ne_digits (q : ℚ) {l : List Char}
    (hl : ∀ c ∈ l, c.isDigit = true ∨ c = '-') : (F.text q).toList ≠ l := by
  rintro rfl
  rcases F.marked q with h | h <;> rcases hl _ h with hd | hd <;> revert hd <;> decide

theorem Number.chars_inj {m n : Number} (h : m.chars F = n.chars F) : m = n := by
  have hdig : ∀ k : ℕ, ∀ c ∈ k.repr.toList, c.isDigit = true ∨ c = '-' :=
    fun k c hc => Or.inl (isDigit_of_mem_repr hc)
  have hneg : ∀ k : ℕ, ∀ c ∈ '-' :: k.repr.toList, c.isDigit = true ∨ c = '-' := by
    intro k c hc
    rcases List.mem_cons.mp hc with rfl | hc
    · exact Or.inr rfl
    · exact hdig k c hc
  have hminus : ∀ j k : ℕ, j.repr.toList ≠ '-' :: k.repr.toList := by
    intro j k he
    exact not_mem_repr (by decide) j (he ▸ List.mem_cons_self : '-' ∈ j.repr.toList)
  cases m with
  | posInt m =>
    cases n with
    | posInt n => exact congrArg _ (UInt64.toNat_inj.mp (repr_inj h))
    | negInt n => exact absurd h (hminus _ _)
    | float q => exact absurd h.symm (F.ne_digits q (hdig _))
  | negInt m =>
    cases n with
    | posInt n => exact absurd h.symm (hminus _ _)
    | negInt n =>
      have hv := repr_inj (List.cons.inj h).2
      exact congrArg _ (Fin.ext (by omega))
    | float q => exact absurd h.symm (F.ne_digits q (hneg _))
  | float p =>
    cases n with
    | posInt n => exact absurd h (F.ne_digits p (hdig _))
    | negInt n => exact absurd h (F.ne_digits p (hneg _))
    | float q => exact congrArg _ (F.inj p q (String.toList_injective h))

/-! ### Values read back -/

/-- What may follow a value in a text. -/
def Delim (s : List Char) : Prop := ∀ c ∈ s.head?, isNumeric c = false

/-- The kind of a value, as its first character tells it: `0` for a number. -/
def Json.kind : Json → Char
  | .null => 'n'
  | .bool true => 't'
  | .bool false => 'f'
  | .num _ => '0'
  | .str _ => '"'
  | .arr _ => '['
  | .obj _ => '{'

theorem Json.chars_head (v : Json) :
    ∃ c cs, v.chars F = c :: cs ∧ (if isNumeric c then '0' else c) = v.kind := by
  cases v with
  | null => exact ⟨_, _, by rw [Json.chars], by decide⟩
  | bool b => cases b <;> exact ⟨_, _, by rw [Json.chars], by decide⟩
  | num n =>
    obtain ⟨c, cs, hc⟩ := List.exists_cons_of_ne_nil (n.chars_ne_nil (F := F))
    have hn := n.numeric (F := F) c (hc ▸ List.mem_cons_self)
    exact ⟨c, cs, by rw [Json.chars, hc], by rw [if_pos hn]; rfl⟩
  | str s => exact ⟨_, _, by rw [Json.chars, quoted], rfl⟩
  | arr l => exact ⟨_, _, by rw [Json.chars], rfl⟩
  | obj l => exact ⟨_, _, by rw [Json.chars], rfl⟩

theorem Json.kind_eq {v w : Json} {s t : List Char} (h : v.chars F ++ s = w.chars F ++ t) :
    v.kind = w.kind := by
  obtain ⟨c, cs, hc, hk⟩ := v.chars_head (F := F)
  obtain ⟨d, ds, hd, hk'⟩ := w.chars_head (F := F)
  rw [hc, hd] at h
  rw [← hk, ← hk', (List.cons.inj h).1]

/-- Values of one kind have one constructor. -/
theorem Json.of_kind_eq {v w : Json} (h : v.kind = w.kind) :
    match v with
    | .null => w = .null
    | .bool b => w = .bool b
    | .num _ => ∃ n, w = .num n
    | .str _ => ∃ s, w = .str s
    | .arr _ => ∃ l, w = .arr l
    | .obj _ => ∃ l, w = .obj l := by
  rcases v with _ | (_ | _) | _ | _ | _ | _ <;> rcases w with _ | (_ | _) | _ | _ | _ | _ <;>
    simp [Json.kind] at h ⊢

/-- No value starts like the end of an array or of an object. -/
theorem Json.chars_ne_close (v : Json) {s t : List Char} {c : Char} (hc : c = ']' ∨ c = '}') :
    v.chars F ++ s ≠ c :: t := by
  intro h
  have hkind : v.kind ≠ ']' ∧ v.kind ≠ '}' := by
    rcases v with _ | (_ | _) | _ | _ | _ | _ <;> simp [Json.kind]
  obtain ⟨d, ds, hd, hk⟩ := v.chars_head (F := F)
  rw [hd] at h
  rw [show d = c from (List.cons.inj h).1] at hk
  rcases hc with rfl | rfl
  · exact hkind.1 hk.symm
  · exact hkind.2 hk.symm

theorem delim_items (l : List Json) (s : List Char) : Delim (items F [','] l ++ s) := by
  intro c hc
  cases l with
  | nil => rw [items] at hc; obtain rfl := Option.some.inj hc; decide
  | cons v vs => rw [items] at hc; obtain rfl := Option.some.inj hc; decide

theorem delim_members (l : List (String × Json)) (s : List Char) :
    Delim (members F [','] l ++ s) := by
  intro c hc
  cases l with
  | nil => rw [members] at hc; obtain rfl := Option.some.inj hc; decide
  | cons v vs => rw [members] at hc; obtain rfl := Option.some.inj hc; decide

/-- In front of the next item or member stands nothing or a comma, so it does
not start like the end. -/
theorem close_ne {sep t r : List Char} {c : Char} (hsep : sep = [] ∨ sep = [','])
    (hc : c = ']' ∨ c = '}') (hr : r ≠ c :: t) : c :: t ≠ sep ++ r := by
  intro h
  rcases hsep with rfl | rfl
  · exact hr h.symm
  · rcases hc with rfl | rfl <;> exact absurd (List.cons.inj h).1 (by decide)

theorem quoted_ne_close (k : String) {s t : List Char} : quoted k ++ s ≠ '}' :: t :=
  fun h => absurd (List.cons.inj h).1 (by decide)

mutual

theorem Json.chars_inj : ∀ (v w : Json) {s t : List Char}, Delim s → Delim t →
    v.chars F ++ s = w.chars F ++ t → v = w ∧ s = t
  | .null, w, s, t, _, _, h => by
    have hw : w = .null := Json.of_kind_eq (Json.kind_eq h)
    subst hw
    exact ⟨rfl, List.append_cancel_left h⟩
  | .bool b, w, s, t, _, _, h => by
    have hw : w = .bool b := Json.of_kind_eq (Json.kind_eq h)
    subst hw
    exact ⟨rfl, List.append_cancel_left h⟩
  | .num n, w, s, t, hs, ht, h => by
    obtain ⟨m, rfl⟩ : ∃ m, w = .num m := Json.of_kind_eq (Json.kind_eq h)
    rw [Json.chars, Json.chars] at h
    obtain ⟨hnm, rfl⟩ := span_cancel n.numeric m.numeric hs ht h
    exact ⟨congrArg _ (Number.chars_inj hnm), rfl⟩
  | .str a, w, s, t, _, _, h => by
    obtain ⟨b, rfl⟩ : ∃ b, w = .str b := Json.of_kind_eq (Json.kind_eq h)
    rw [Json.chars, Json.chars] at h
    obtain ⟨rfl, rfl⟩ := quoted_inj h
    exact ⟨rfl, rfl⟩
  | .arr l, w, s, t, _, _, h => by
    obtain ⟨m, rfl⟩ : ∃ m, w = .arr m := Json.of_kind_eq (Json.kind_eq h)
    rw [Json.chars, Json.chars] at h
    obtain ⟨rfl, rfl⟩ := items_inj l m (Or.inl rfl) (List.cons.inj h).2
    exact ⟨rfl, rfl⟩
  | .obj l, w, s, t, _, _, h => by
    obtain ⟨m, rfl⟩ : ∃ m, w = .obj m := Json.of_kind_eq (Json.kind_eq h)
    rw [Json.chars, Json.chars] at h
    obtain ⟨rfl, rfl⟩ := members_inj l m (Or.inl rfl) (List.cons.inj h).2
    exact ⟨rfl, rfl⟩

theorem items_inj : ∀ (l m : List Json) {sep s t : List Char}, sep = [] ∨ sep = [','] →
    items F sep l ++ s = items F sep m ++ t → l = m ∧ s = t
  | [], [], _, _, _, _, h => by
    rw [items] at h
    exact ⟨rfl, (List.cons.inj h).2⟩
  | [], w :: ws, sep, s, t, hsep, h => by
    rw [items, items, List.append_assoc] at h
    exact absurd h (close_ne hsep (Or.inl rfl) (by rw [List.append_assoc]; exact w.chars_ne_close (Or.inl rfl)))
  | v :: vs, [], sep, s, t, hsep, h => by
    rw [items, items, List.append_assoc] at h
    exact absurd h.symm (close_ne hsep (Or.inl rfl) (by rw [List.append_assoc]; exact v.chars_ne_close (Or.inl rfl)))
  | v :: vs, w :: ws, sep, s, t, _, h => by
    simp only [items, List.append_assoc, List.append_cancel_left_eq] at h
    obtain ⟨rfl, hrest⟩ := Json.chars_inj v w (delim_items vs s) (delim_items ws t) h
    obtain ⟨rfl, rfl⟩ := items_inj vs ws (Or.inr rfl) hrest
    exact ⟨rfl, rfl⟩

theorem members_inj : ∀ (l m : List (String × Json)) {sep s t : List Char}, sep = [] ∨ sep = [','] →
    members F sep l ++ s = members F sep m ++ t → l = m ∧ s = t
  | [], [], _, _, _, _, h => by
    rw [members] at h
    exact ⟨rfl, (List.cons.inj h).2⟩
  | [], (k, w) :: ws, sep, s, t, hsep, h => by
    rw [members, members, List.append_assoc] at h
    exact absurd h (close_ne hsep (Or.inr rfl) (by rw [List.append_assoc]; exact quoted_ne_close k))
  | (k, v) :: vs, [], sep, s, t, hsep, h => by
    rw [members, members, List.append_assoc] at h
    exact absurd h.symm (close_ne hsep (Or.inr rfl) (by rw [List.append_assoc]; exact quoted_ne_close k))
  | (j, v) :: vs, (k, w) :: ws, sep, s, t, _, h => by
    simp only [members, List.append_assoc, List.append_cancel_left_eq, List.cons_append] at h
    obtain ⟨rfl, hvalue⟩ := quoted_inj h
    obtain ⟨rfl, hrest⟩ := Json.chars_inj v w (delim_members vs s) (delim_members ws t)
      (List.cons.inj hvalue).2
    obtain ⟨rfl, rfl⟩ := members_inj vs ws (Or.inr rfl) hrest
    exact ⟨rfl, rfl⟩

end

/-- The text determines the value. -/
theorem text_inj {v w : Json} (h : v.text F = w.text F) : v = w := by
  have hl : v.chars F ++ [] = w.chars F ++ [] := congrArg (· ++ []) (String.ofList_injective h)
  exact (Json.chars_inj v w (by simp [Delim]) (by simp [Delim]) hl).1

/-! ### What a text is not -/

theorem getLast_items : ∀ (l : List Json) (sep : List Char), (items F sep l).getLast? = some ']'
  | [], _ => by rw [items]; rfl
  | v :: vs, sep => by
    rw [items, List.getLast?_append, List.getLast?_append, getLast_items vs]
    rfl

theorem getLast_members : ∀ (l : List (String × Json)) (sep : List Char),
    (members F sep l).getLast? = some '}'
  | [], _ => by rw [members]; rfl
  | (k, v) :: l, sep => by
    rw [members, List.getLast?_append, List.getLast?_append, List.getLast?_cons, List.getLast?_append,
      getLast_members l]
    rfl

theorem getLast_unquoted : ∀ cs : List Char, (unquoted cs).getLast? = some '"'
  | [] => rfl
  | c :: cs => by
    rw [unquoted, List.getLast?_append, getLast_unquoted cs]
    rfl

/-- Only a number's text ends with a digit. -/
theorem Json.isNum_of_getLast {v : Json} {c : Char} (h : (v.chars F).getLast? = some c)
    (hc : c.isDigit = true) : ∃ n, v = .num n := by
  have hend : ∀ d : Char, (v.chars F).getLast? = some d → d.isDigit = false → False := by
    intro d hd hdig
    obtain rfl : c = d := Option.some.inj (h.symm.trans hd)
    rw [hc] at hdig
    cases hdig
  cases v with
  | null => exact (hend 'l' (by rw [Json.chars]; rfl) (by decide)).elim
  | bool b => cases b <;> exact (hend 'e' (by rw [Json.chars]; rfl) (by decide)).elim
  | num n => exact ⟨n, rfl⟩
  | str s =>
    refine (hend '"' ?_ (by decide)).elim
    rw [Json.chars, quoted, List.getLast?_cons, getLast_unquoted]
    rfl
  | arr l =>
    refine (hend ']' ?_ (by decide)).elim
    rw [Json.chars, List.getLast?_cons, getLast_items]
    rfl
  | obj l =>
    refine (hend '}' ?_ (by decide)).elim
    rw [Json.chars, List.getLast?_cons, getLast_members]
    rfl

/-- No text is a name, a colon and a number. -/
theorem text_ne_keyed (v : Json) (f : String) (a : ℕ) : v.text F ≠ keyed f a := by
  intro h
  have hl : v.chars F = (keyed f a).toList := by rw [← h, Json.text, String.toList_ofList]
  cases hc : (v.chars F).getLast? with
  | none =>
    obtain ⟨c, cs, hcs, -⟩ := v.chars_head (F := F)
    rw [hcs] at hc
    simp at hc
  | some c =>
    obtain ⟨n, rfl⟩ := Json.isNum_of_getLast hc (getLast_keyed (hl ▸ hc))
    have hcolon : ':' ∈ Json.chars F (.num n) := by rw [hl, toList_keyed]; simp
    rw [Json.chars] at hcolon
    exact absurd (n.numeric _ hcolon) (by decide)

/-! ### One line -/

theorem newline_not_mem_escape (c : Char) : '\n' ∉ escape c := by
  by_cases hc : c ∈ escaped
  · have hall : (escaped.all fun d => !(escape d).contains '\n') = true := by decide +kernel
    have hc := List.all_eq_true.mp hall c hc
    simpa using hc
  · rw [escape_of_not_mem hc, List.mem_singleton]
    rintro rfl
    exact hc (by decide)

theorem newline_not_mem_quoted (s : String) : '\n' ∉ quoted s := by
  have hun : ∀ cs : List Char, '\n' ∉ unquoted cs := by
    intro cs
    induction cs with
    | nil => decide
    | cons c cs ih => exact List.not_mem_append (newline_not_mem_escape c) ih
  exact List.not_mem_cons_of_ne_of_not_mem (by decide) (hun _)

mutual

/-- A value is printed on one line. -/
theorem Json.newline_not_mem : ∀ v : Json, '\n' ∉ v.chars F
  | .null | .bool true | .bool false => by simp [Json.chars]
  | .num n => fun h => absurd (n.numeric _ h) (by decide)
  | .str s => newline_not_mem_quoted s
  | .arr l => List.not_mem_cons_of_ne_of_not_mem (by decide) (newline_not_mem_items (by decide) l)
  | .obj l => List.not_mem_cons_of_ne_of_not_mem (by decide) (newline_not_mem_members (by decide) l)

theorem newline_not_mem_items {sep : List Char} (hsep : '\n' ∉ sep) :
    ∀ l : List Json, '\n' ∉ items F sep l
  | [] => by simp [items]
  | v :: vs => List.not_mem_append hsep
    (List.not_mem_append v.newline_not_mem (newline_not_mem_items (by decide) vs))

theorem newline_not_mem_members {sep : List Char} (hsep : '\n' ∉ sep) :
    ∀ l : List (String × Json), '\n' ∉ members F sep l
  | [] => by simp [members]
  | (k, v) :: l => List.not_mem_append hsep (List.not_mem_append (newline_not_mem_quoted k)
    (List.not_mem_cons_of_ne_of_not_mem (by decide)
      (List.not_mem_append v.newline_not_mem (newline_not_mem_members (by decide) l))))

end

/-! ### A way to print doubles -/

/-- The sign and the numerator of a rational. -/
def numChars (q : ℚ) : List Char := (if q.num < 0 then ['-'] else []) ++ q.num.natAbs.repr.toList

theorem numChars_inj {p q : ℚ} (h : numChars p = numChars q) : p.num = q.num := by
  have hminus : ∀ n : ℕ, '-' ∉ n.repr.toList := not_mem_repr (by decide)
  unfold numChars at h
  by_cases hp : p.num < 0 <;> by_cases hq : q.num < 0
  · simp only [hp, hq, if_true, List.append_cancel_left_eq] at h
    have := repr_inj h
    omega
  · simp only [hp, hq, if_true, if_false, List.nil_append] at h
    exact absurd (h ▸ List.mem_append_left _ (List.mem_singleton_self _)) (hminus q.num.natAbs)
  · simp only [hp, hq, if_true, if_false, List.nil_append] at h
    exact absurd (h ▸ List.mem_append_left _ (List.mem_singleton_self _)) (hminus p.num.natAbs)
  · simp only [hp, hq, if_false, List.nil_append] at h
    have := repr_inj h
    omega

/-- The numerator and the denominator less one, around a point: `1.0` for 1. -/
def plainFloat : FloatText where
  text q := .ofList (numChars q ++ '.' :: (q.den - 1).repr.toList)
  inj p q h := by
    have hpoint : ∀ n : ℕ, '.' ∉ n.repr.toList := not_mem_repr (by decide)
    obtain ⟨h1, h2⟩ := cut_last (hpoint _) (hpoint _) (String.ofList_injective h)
    have hden := repr_inj h2
    have := p.den_pos
    have := q.den_pos
    exact Rat.ext (numChars_inj h1) (by omega)
  numeric q c hc := by
    rw [String.toList_ofList, numChars] at hc
    simp only [List.mem_append, List.mem_cons] at hc
    rcases hc with (hc | hc) | rfl | hc
    · split at hc
      · obtain rfl := List.mem_singleton.mp hc; decide
      · cases hc
    · exact numeric_of_isDigit (isDigit_of_mem_repr hc)
    · decide
    · exact numeric_of_isDigit (isDigit_of_mem_repr hc)
  marked q := by simp

end LymonAgent
