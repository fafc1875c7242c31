/-
# PSS values

The number behind a row of a PSS answer, by three routes of `src/pss.rs` and
`src/collector.rs`: a query for several variables, a history, and `collect_once`,
which queries one variable and reads the answer with `scalar_value`. The first looks
at the value only, the others at the text value before it; the first two leave out
what is not finite, the collector does not.

`routes_agree_iff` says for which rows the three agree on a finite number.

Key definitions: `normalizeValue`, `query`, `historyValue`, `collectOnce`,
`RoutesAgree`, `Readable`.
-/
import LymonAgent.Double
import LymonAgent.Ingest.Buffer
import LymonAgent.Pss.Paths

namespace LymonAgent
namespace Pss

open F64 (parse double nearest overflowBound)
open LymonAgent.Ingest (Sample)

/-! ### The routes -/

/-- A row of `values.xml` or a field of `records.xml`. -/
structure VarRow where
  id : String
  value : Option String
  textValue : Option String

def normalizeValue (row : VarRow) : Json :=
  match row.textValue with
  | some t => .str t
  | none =>
    match row.value with
    | none => .null
    | some v =>
      match parse v with
      | some (.fin q) => .num (.float q)
      | _ => .str v

/-- The entry of a variable in a vector. -/
def vectorValue (hit : Option VarRow) : Json :=
  match ((hit.bind VarRow.value).bind parse).filter F64.isFinite with
  | some (.fin q) => .num (.float q)
  | _ => .null

/-- The row of a variable. -/
def rowOf (rows : List VarRow) (v : String) : Option VarRow := rows.find? fun r => r.id = v

/-- What `query` makes of the rows it gets. -/
def query (vars : List String) (rows : List VarRow) : Json :=
  match vars with
  | [v] => .obj [("kind", .str "scalar"), ("value", ((rowOf rows v).map normalizeValue).getD .null)]
  | vars => .obj [("kind", .str "vector"), ("values", .arr (vars.map fun v => vectorValue (rowOf rows v)))]

/-- The value `history` takes from the fields of a record. -/
def historyValue (v : String) (fields : List VarRow) : Option F64 :=
  ((rowOf fields v).bind fun f =>
    match normalizeValue f with
    | .num n => (Json.num n).asF64
    | .str s => parse s
    | _ => none).filter F64.isFinite

/-- `scalar_value`. -/
def scalarValue (result : Json) : Option F64 :=
  (result.get "value").bind fun v => v.asF64.or (v.asStr.bind parse)

/-- A field of a transform, as a double. -/
def factor (transform : Json) (key : String) (default : ℚ) : ℚ :=
  match transform.getF64 key with
  | some (.fin q) => nearest q
  | _ => default

/-- `apply_scale`, with the product and the sum rounded. -/
def applyScale (transform : Json) (raw : F64) : F64 :=
  if (transform.getStr "expression").isSome then raw
  else double ((double (raw.mul (.fin (factor transform "scale" 1)))).add (.fin (factor transform "offset" 0)))

/-- `collect_once` of a `pss` connector, with the rows the server answers. -/
def collectOnce (selection transform : Json) (varId : String) (tsMs : ℤ) (rows : List VarRow) :
    Except String (List Sample) := do
  let vars ← requireVars selection
  match scalarValue (query vars.val rows) with
  | none => .error ("pss query for " ++ varId ++ " returned no scalar value")
  | some value => return [⟨varId, tsMs, applyScale transform value, 0, []⟩]

/-! ### The same number by every route -/

/-- The number a vector has at a place. -/
def vectorNumber (result : Json) (i : ℕ) : Option F64 :=
  ((result.getArray "values").bind (·[i]?)).bind Json.asF64

/-- The three routes come to the same number for a variable, if to any, it is finite,
and so is every sample collected. -/
structure RoutesAgree (rows : List VarRow) (v : String) (transform : Json) : Prop where
  vector : ∀ (vars : List String) (i : ℕ), vars.length ≠ 1 → vars[i]? = some v →
    vectorNumber (query vars rows) i = historyValue v rows
  collector : scalarValue (query [v] rows) = historyValue v rows
  finite : ∀ x, historyValue v rows = some x → x.isFinite = true
  samples : ∀ selection vars varId tsMs samples, requireVars selection = .ok vars → vars.val = [v] →
    collectOnce selection transform varId tsMs rows = .ok samples → ∀ s ∈ samples, s.value.isFinite = true

/-- The text that a number is read from: the text value, or else the value. -/
def usedText (row : VarRow) : Option String := row.textValue.or row.value

/-- The text used reads as no NaN or infinity; a text value reads as the same number
as the value, or neither reads as a finite one. -/
structure Readable (row : VarRow) : Prop where
  finite : ∀ s x, usedText row = some s → parse s = some x → x.isFinite = true
  same : ∀ t, row.textValue = some t → (row.value.bind parse).filter F64.isFinite = parse t

/-- The number can be scaled without an overflow. -/
def InRange (transform : Json) (q : ℚ) : Prop :=
  (transform.getStr "expression").isSome = true ∨
    |q * factor transform "scale" 1| < overflowBound ∧
      |nearest (q * factor transform "scale" 1) + factor transform "offset" 0| < overflowBound

variable {rows : List VarRow} {v : String} {transform : Json} {row : VarRow}

/-! ### Each route by the texts -/

/-- What is read of a normalized value is read of the text it is made of. -/
theorem parse_normalizeValue (row : VarRow) :
    (normalizeValue row).asF64.or ((normalizeValue row).asStr.bind parse) = (usedText row).bind parse := by
  obtain ⟨id, value, textValue⟩ := row
  cases textValue with
  | some t => rfl
  | none =>
    cases value with
    | none => rfl
    | some s =>
      change _ = parse s
      rw [normalizeValue]
      dsimp only
      cases hs : parse s with
      | none => exact hs
      | some x =>
        cases x with
        | fin q => rfl
        | inf neg => exact hs
        | nan => exact hs

theorem scalarValue_query (rows : List VarRow) (v : String) :
    scalarValue (query [v] rows) = ((rowOf rows v).bind usedText).bind parse := by
  change (((rowOf rows v).map normalizeValue).getD .null).asF64.or
    ((((rowOf rows v).map normalizeValue).getD .null).asStr.bind parse) = _
  cases rowOf rows v with
  | none => rfl
  | some row => exact parse_normalizeValue row

/-- A history reads what the collector reads, and leaves out what is not finite. -/
theorem historyValue_eq (rows : List VarRow) (v : String) :
    historyValue v rows = (((rowOf rows v).bind usedText).bind parse).filter F64.isFinite := by
  unfold historyValue
  congr 1
  cases rowOf rows v with
  | none => rfl
  | some row =>
    rw [Option.bind_some, Option.bind_some, ← parse_normalizeValue]
    cases normalizeValue row with
    | num n => cases n <;> rfl
    | null | bool | str | arr | obj => rfl

theorem asF64_vectorValue (hit : Option VarRow) :
    (vectorValue hit).asF64 = ((hit.bind VarRow.value).bind parse).filter F64.isFinite := by
  unfold vectorValue
  cases (hit.bind VarRow.value).bind parse with
  | none => rfl
  | some x => cases x <;> rfl

theorem vectorNumber_query {vars : List String} {i : ℕ} (hlen : vars.length ≠ 1) (hi : vars[i]? = some v) :
    vectorNumber (query vars rows) i =
      (((rowOf rows v).bind VarRow.value).bind parse).filter F64.isFinite := by
  have hquery : query vars rows = .obj [("kind", .str "vector"),
      ("values", .arr (vars.map fun v => vectorValue (rowOf rows v)))] := by
    unfold query
    split
    · exact absurd rfl hlen
    · rfl
  have hvalues : (query vars rows).getArray "values" = some (vars.map fun v => vectorValue (rowOf rows v)) := by
    rw [hquery]
    rfl
  rw [vectorNumber, hvalues, Option.bind_some, List.getElem?_map, hi, Option.map_some, Option.bind_some,
    asF64_vectorValue]

/-! ### The sample -/

/-- A number is scaled to a finite one exactly when it is in range. -/
theorem isFinite_applyScale (transform : Json) (q : ℚ) :
    (applyScale transform (.fin q)).isFinite = true ↔ InRange transform q := by
  unfold applyScale InRange
  by_cases hexpr : (transform.getStr "expression").isSome = true
  · rw [if_pos hexpr]
    exact iff_of_true rfl (Or.inl hexpr)
  · rw [if_neg hexpr, or_iff_right hexpr]
    change (double ((double (.fin (q * factor transform "scale" 1))).add _)).isFinite = true ↔ _
    by_cases hprod : |q * factor transform "scale" 1| < overflowBound
    · rw [and_iff_right hprod, F64.double_of_lt hprod]
      exact F64.isFinite_double _
    · -- the offset does not bring an infinity back
      rw [F64.double_of_le (le_of_not_gt hprod), F64.add_inf_fin]
      exact iff_of_false Bool.false_ne_true fun h => hprod h.1

theorem collectOnce_eq (transform : Json) {selection : Json} {vars : { vars : List String // vars ≠ [] }} {x : F64}
    (hvars : requireVars selection = .ok vars) (hv : vars.val = [v])
    (hx : scalarValue (query [v] rows) = some x) (varId : String) (tsMs : ℤ) :
    collectOnce selection transform varId tsMs rows =
      .ok [⟨varId, tsMs, applyScale transform x, 0, []⟩] := by
  simp only [collectOnce, hvars, bind, Except.bind, hv, hx, pure, Except.pure]

theorem collectOnce_none {selection : Json} {vars : { vars : List String // vars ≠ [] }}
    (hvars : requireVars selection = .ok vars) (hv : vars.val = [v])
    (hx : scalarValue (query [v] rows) = none) (varId : String) (tsMs : ℤ) :
    collectOnce selection transform varId tsMs rows =
      .error ("pss query for " ++ varId ++ " returned no scalar value") := by
  simp only [collectOnce, hvars, bind, Except.bind, hv, hx]

/-- The selection of one variable. -/
def selectionOf (v : String) : Json := .obj [("variables", .arr [.str v])]

theorem requireVars_selectionOf (v : String) :
    requireVars (selectionOf v) = .ok ⟨[v], List.cons_ne_nil v []⟩ := rfl

/-! ### Agreement -/

/-- For a row the agreement is about its texts and the range. -/
theorem routesAgree_of_row (hrow : rowOf rows v = some row) (hread : Readable row)
    (hrange : ∀ q, (usedText row).bind parse = some (.fin q) → InRange transform q) :
    RoutesAgree rows v transform := by
  have hscalar := scalarValue_query rows v
  have hhistory := historyValue_eq rows v
  rw [hrow, Option.bind_some] at hscalar hhistory
  have hfinite : ∀ x, (usedText row).bind parse = some x → x.isFinite = true := by
    intro x hx
    obtain ⟨s, hs, hparse⟩ := Option.bind_eq_some_iff.mp hx
    exact hread.finite s x hs hparse
  have hfilter : ((usedText row).bind parse).filter F64.isFinite = (usedText row).bind parse := by
    cases hx : (usedText row).bind parse with
    | none => rfl
    | some x => exact Option.filter_some_pos (hfinite x hx)
  rw [hfilter] at hhistory
  refine ⟨?_, ?_, ?_, ?_⟩
  · intro vars i hlen hi
    rw [vectorNumber_query hlen hi, hrow, Option.bind_some, hhistory]
    cases ht : row.textValue with
    | none =>
      rw [usedText, ht, Option.none_or] at hfilter ⊢
      exact hfilter
    | some t =>
      rw [usedText, ht, Option.some_or, Option.bind_some]
      exact hread.same t ht
  · rw [hscalar, hhistory]
  · intro x hx
    rw [hhistory] at hx
    exact hfinite x hx
  · intro selection vars varId tsMs samples hvars hv hcollect s hs
    cases hx : (usedText row).bind parse with
    | none =>
      rw [collectOnce_none hvars hv (hscalar.trans hx)] at hcollect
      cases hcollect
    | some x =>
      rw [collectOnce_eq transform hvars hv (hscalar.trans hx)] at hcollect
      cases hcollect
      obtain ⟨q, rfl⟩ := F64.exists_fin_of_isFinite (hfinite x hx)
      rw [List.mem_singleton.mp hs]
      exact (isFinite_applyScale transform q).mpr (hrange q hx)

/-- Without a row no route has a number. -/
theorem routesAgree_of_none (hrow : rowOf rows v = none) : RoutesAgree rows v transform := by
  have hscalar := scalarValue_query rows v
  have hhistory := historyValue_eq rows v
  rw [hrow, Option.bind_none, Option.bind_none] at hscalar hhistory
  refine ⟨?_, ?_, ?_, ?_⟩
  · intro vars i hlen hi
    rw [vectorNumber_query hlen hi, hrow, hhistory]
    rfl
  · rw [hscalar, hhistory]
    rfl
  · intro x hx
    rw [hhistory] at hx
    cases hx
  · intro selection vars varId tsMs samples hvars hv hcollect s hs
    rw [collectOnce_none hvars hv hscalar] at hcollect
    cases hcollect

theorem readable_of_routesAgree (h : RoutesAgree rows v transform) (hrow : rowOf rows v = some row) :
    Readable row := by
  have hscalar := scalarValue_query rows v
  have hhistory := historyValue_eq rows v
  rw [hrow, Option.bind_some] at hscalar hhistory
  -- the collector leaves nothing out, so there is nothing to leave out
  have hself : historyValue v rows = (usedText row).bind parse := h.collector.symm.trans hscalar
  constructor
  · intro s x hs hparse
    apply h.finite x
    rw [hself, hs, Option.bind_some, hparse]
  · intro t ht
    have htwo : [v, v].length ≠ 1 := Nat.succ_ne_self 1
    have hvector := h.vector [v, v] 0 htwo rfl
    rw [vectorNumber_query htwo rfl, hrow, Option.bind_some, hself, usedText, ht, Option.some_or,
      Option.bind_some] at hvector
    exact hvector

theorem inRange_of_routesAgree (h : RoutesAgree rows v transform) (hrow : rowOf rows v = some row) {q : ℚ}
    (hq : (usedText row).bind parse = some (.fin q)) : InRange transform q := by
  have hscalar := scalarValue_query rows v
  rw [hrow, Option.bind_some, hq] at hscalar
  have hcollect := collectOnce_eq transform (requireVars_selectionOf v) rfl hscalar v 0
  exact (isFinite_applyScale transform q).mp
    (h.samples _ _ v 0 _ (requireVars_selectionOf v) rfl hcollect _ (List.mem_singleton_self _))

/-- **The three routes agree on finite numbers exactly for the rows that are readable
and in range.** For all rows, variables and transforms: either no row has the variable,
or the first that has reads as no NaN or infinity, as the same number by its text
value as by its value, and as one that is scaled without an overflow. -/
theorem routes_agree_iff (rows : List VarRow) (v : String) (transform : Json) :
    RoutesAgree rows v transform ↔ ∀ row, rowOf rows v = some row →
      Readable row ∧ ∀ q, (usedText row).bind parse = some (.fin q) → InRange transform q := by
  constructor
  · intro h row hrow
    exact ⟨readable_of_routesAgree h hrow, fun q hq => inRange_of_routesAgree h hrow hq⟩
  · intro h
    cases hrow : rowOf rows v with
    | none => exact routesAgree_of_none hrow
    | some row => exact routesAgree_of_row hrow (h row hrow).1 (h row hrow).2

/-- A value that reads as NaN is collected and left out elsewhere. -/
theorem not_routes_agree : ¬ ∀ rows v transform, RoutesAgree rows v transform := by
  intro h
  have hcollector := (h [⟨"v", some "NaN", none⟩] "v" (.obj [])).collector
  rw [historyValue_eq, scalarValue_query] at hcollector
  exact absurd hcollector (by decide +kernel)

end Pss
end LymonAgent
