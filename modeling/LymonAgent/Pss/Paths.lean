/-
# PSS request paths

The paths that `query` and `history` of `src/pss.rs` ask a PSS server for. The server
takes its parameters between question marks, and `urlencode` leaves none in a
variable's name; the period of a history is not encoded.

So a query carries exactly its variables (`query_exact`), and a history exactly its
four parameters where the period has no question mark (`history_exact_iff`).

The HTTP client makes a request of it (`sent`), without what follows a number sign and
with the query encoded: the paths of queries come through as they are
(`sent_queryPath`), and that of a history with its period encoded (`sent_path`), if
this has nothing that the client takes out.

Key definitions: `requireVars`, `queryPath`, `historyArgs`, `HistoryArgs.path`,
`params`, `sent`, `Intact`.
-/
import LymonAgent.Json
import LymonAgent.Percent
import LymonAgent.Pss.Dates
import Mathlib.Data.List.DropRight

namespace LymonAgent
namespace Pss

open Text

/-! ### The paths -/

/-- A variable name that is not empty, or else an array with texts in it. -/
def requireVars (args : Json) : Except String { vars : List String // vars ≠ [] } :=
  let missing := "pss query requires `variable` (e.g. \"DEV1/Power\") or a `variables` array"
  let fromArray : Except String { vars : List String // vars ≠ [] } :=
    let vars := ((args.getArray "variables").getD []).filterMap Json.asStr
    if h : vars ≠ [] then .ok ⟨vars, h⟩ else .error missing
  match args.getStr "variable" with
  | some v => if v ≠ "" then .ok ⟨[v], List.cons_ne_nil v []⟩ else fromArray
  | none => fromArray

/-- The characters `urlencode` leaves as they are. -/
def unreserved (c : Char) : Bool :=
  ('A' ≤ c && c ≤ 'Z') || ('a' ≤ c && c ≤ 'z') || ('0' ≤ c && c ≤ '9') || ['-', '_', '.', '~'].contains c

def urlencode (s : String) : String := Percent.encode unreserved s

/-- The path of `query`. -/
def queryPath (vars : List String) : String :=
  "/services/user/values.xml?var=" ++ "?var=".intercalate (vars.map urlencode)

/-- What `history` takes from its arguments. -/
structure HistoryArgs where
  var : String
  begins : DateTime
  ends : DateTime
  period : String

def historyArgs (rfc3339 : String → Option DateTime) (args : Json) : Except String HistoryArgs := do
  let vars ← requireVars args
  let period := (args.getStr "period").getD "ALL"
  match args.getStr "from" with
  | none => .error "history requires `from`"
  | some start =>
    match args.getStr "to" with
    | none => .error "history requires `to`"
    | some stop =>
      let begins ← parseIso rfc3339 start
      let ends ← parseIso rfc3339 stop
      return ⟨vars.val.head vars.property, begins, ends, period⟩

/-- The path of `history`. -/
def HistoryArgs.path (a : HistoryArgs) : String :=
  "/services/user/records.xml?begin=" ++ formatPssDate a.begins ++ "?end=" ++ formatPssDate a.ends ++
    "?var=" ++ urlencode a.var ++ "?period=" ++ a.period

/-! ### What a path carries -/

/-- The name and the value of a parameter. -/
def cutParam (s : String) : String × String :=
  (.ofList (s.toList.takeWhile (· ≠ '=')), .ofList ((s.toList.dropWhile (· ≠ '=')).drop 1))

/-- The parameters after the first question mark. -/
def params (path : String) : List (String × String) := (split '?' path).tail.map cutParam

/-- Each variable is a parameter `var`, in their order, and there are no others. -/
def QueryExact (vars : List String) (path : String) : Prop :=
  (params path).map (fun p => (p.1, Percent.decode p.2)) = vars.map fun v => ("var", some v)

/-- Four parameters, once each, with the values that were given. -/
def HistoryExact (a : HistoryArgs) (path : String) : Prop :=
  ∃ enc, Percent.decode enc = some a.var ∧
    params path = [("begin", formatPssDate a.begins), ("end", formatPssDate a.ends), ("var", enc),
      ("period", a.period)]

variable {s t : String} {c : Char}

/-! ### Encoded names -/

theorem keepable_unreserved : Percent.Keepable unreserved where
  ascii := by
    intro c h
    have hle : ∀ {a b : Char}, a ≤ b → a.toNat ≤ b.toNat := fun h => UInt32.le_iff_toNat_le.mp h
    have hmarks : (['-', '_', '.', '~'].all fun c => c.toNat < 128) = true := by decide
    simp only [unreserved, Bool.or_eq_true, Bool.and_eq_true, decide_eq_true_eq, List.contains_iff_mem] at h
    rcases h with ((⟨-, h⟩ | ⟨-, h⟩) | ⟨-, h⟩) | h
    · exact Nat.lt_of_le_of_lt (hle h) (by decide)
    · exact Nat.lt_of_le_of_lt (hle h) (by decide)
    · exact Nat.lt_of_le_of_lt (hle h) (by decide)
    · exact of_decide_eq_true (List.all_eq_true.mp hmarks c h)
  percent := by decide

theorem decode_urlencode (s : String) : Percent.decode (urlencode s) = some s :=
  Percent.decode_encode keepable_unreserved s

theorem not_mem_urlencode (s : String) : '?' ∉ (urlencode s).toList :=
  Percent.not_mem_encode (by decide) (by decide) (by decide) s

/-! ### Splitting -/

/-- A parameter is its name, an equals sign and its value. -/
theorem cutParam_eq (name : String) {start : String} (hstart : start.toList = name.toList ++ ['='])
    (h : '=' ∉ name.toList) (value : String) : cutParam (start ++ value) = (name, value) := by
  have hall : ∀ c ∈ name.toList, decide (c ≠ '=') = true := by
    intro c hc
    rw [decide_eq_true_eq]
    rintro rfl
    exact h hc
  rw [cutParam, String.toList_append, hstart, List.append_assoc, List.takeWhile_append_of_pos hall,
    List.dropWhile_append_of_pos hall]
  simp

theorem mem_append {c : Char} {s t : String} : c ∈ (s ++ t).toList ↔ c ∈ s.toList ∨ c ∈ t.toList := by
  rw [String.toList_append, List.mem_append]

/-- Where a separator comes between two texts of which the first has none. -/
theorem split_cons (h : '?' ∉ s.toList) (t : String) : split '?' (s ++ ("?" ++ t)) = s :: split '?' t := by
  have hmark : "?" = String.singleton '?' := rfl
  rw [hmark, split_first h]

/-- A text with a question mark in it, before another. -/
theorem append_mark (start base name : String)
    (h : start.toList = base.toList ++ '?' :: name.toList) (t : String) :
    start ++ t = base ++ ("?" ++ (name ++ t)) := by
  rw [← String.toList_inj, String.toList_append, String.toList_append, String.toList_append,
    String.toList_append, h, List.append_assoc]
  rfl

/-- Joined names, after a first part. -/
theorem split_join (vars : List String) : ∀ (start v : String), '?' ∉ start.toList →
    split '?' (start ++ "?var=".intercalate ((v :: vars).map urlencode)) =
      (start ++ urlencode v) :: vars.map fun v => "var=" ++ urlencode v := by
  induction vars with
  | nil =>
    intro start v hstart
    rw [List.map_singleton, String.intercalate_singleton, List.map_nil]
    exact split_eq_singleton fun h => (mem_append.mp h).elim hstart (not_mem_urlencode v)
  | cons u vars ih =>
    intro start v hstart
    have hv : '?' ∉ (start ++ urlencode v).toList :=
      fun h => (mem_append.mp h).elim hstart (not_mem_urlencode v)
    rw [List.map_cons, List.map_cons, String.intercalate_cons_cons, ← List.map_cons, String.append_assoc,
      append_mark "?var=" "" "var=" (by decide), String.empty_append, ← String.append_assoc, split_cons hv,
      ih "var=" u (by decide), List.map_cons]

/-! ### Each path carries its arguments -/

theorem queryPath_eq (vars : List String) : queryPath vars =
    "/services/user/values.xml" ++ ("?" ++ ("var=" ++ "?var=".intercalate (vars.map urlencode))) :=
  append_mark "/services/user/values.xml?var=" "/services/user/values.xml" "var=" (by decide +kernel) _

/-- **A query carries exactly its variables.** -/
theorem query_exact {vars : List String} (h : vars ≠ []) : QueryExact vars (queryPath vars) := by
  obtain ⟨v, vars, rfl⟩ := List.exists_cons_of_ne_nil h
  have hsplit : split '?' (queryPath (v :: vars)) =
      "/services/user/values.xml" :: (v :: vars).map fun v => "var=" ++ urlencode v := by
    rw [queryPath_eq, split_cons (by decide), split_join vars "var=" v (by decide), List.map_cons]
  rw [QueryExact, params, hsplit, List.tail_cons, List.map_map, List.map_map]
  refine List.map_congr_left fun v _ => ?_
  rw [Function.comp_apply, Function.comp_apply, cutParam_eq "var" (by decide) (by decide),
    decode_urlencode]

theorem not_mem_formatPssDate (dt : DateTime) : '?' ∉ (formatPssDate dt).toList := by
  have hpad : ∀ (w : ℕ) (n : ℤ), '?' ∉ Decimal.pad w n := fun w n h =>
    (Decimal.mem_pad h).elim (by decide) (by decide)
  rw [formatPssDate, String.toList_ofList]
  simp only [List.mem_append, hpad, or_self, not_false_eq_true]

theorem split_path (a : HistoryArgs) : split '?' a.path =
    ["/services/user/records.xml", "begin=" ++ formatPssDate a.begins, "end=" ++ formatPssDate a.ends,
      "var=" ++ urlencode a.var] ++ split '?' ("period=" ++ a.period) := by
  have hcut : a.path = "/services/user/records.xml" ++ ("?" ++ (("begin=" ++ formatPssDate a.begins) ++
      ("?" ++ (("end=" ++ formatPssDate a.ends) ++ ("?" ++ (("var=" ++ urlencode a.var) ++
        ("?" ++ ("period=" ++ a.period)))))))) := by
    have hbegin : "/services/user/records.xml?begin=".toList =
        "/services/user/records.xml".toList ++ "?".toList ++ "begin=".toList := by decide +kernel
    have hend : "?end=".toList = "?".toList ++ "end=".toList := by decide
    have hvar : "?var=".toList = "?".toList ++ "var=".toList := by decide
    have hperiod : "?period=".toList = "?".toList ++ "period=".toList := by decide
    rw [← String.toList_inj]
    unfold HistoryArgs.path
    simp only [String.toList_append, List.append_assoc, hbegin, hend, hvar, hperiod]
  have hpart : ∀ {name value : String}, '?' ∉ name.toList → '?' ∉ value.toList →
      '?' ∉ (name ++ value).toList := fun hn hv h => (mem_append.mp h).elim hn hv
  rw [hcut, split_cons (by decide), split_cons (hpart (by decide) (not_mem_formatPssDate _)),
    split_cons (hpart (by decide) (not_mem_formatPssDate _)),
    split_cons (hpart (by decide) (not_mem_urlencode _))]
  rfl

/-- **A history carries exactly its parameters** if and only if its period has no
question mark. -/
theorem history_exact_iff (a : HistoryArgs) : HistoryExact a a.path ↔ '?' ∉ a.period.toList := by
  constructor
  · rintro ⟨enc, -, hparams⟩ hmark
    have hlen := congrArg List.length hparams
    have htwo := two_le_length_split (c := '?') (s := "period=" ++ a.period) (mem_append.mpr (Or.inr hmark))
    rw [params, split_path, List.length_map, List.length_tail, List.length_append] at hlen
    simp only [List.length_cons, List.length_nil] at hlen
    omega
  · intro hmark
    have hperiod : '?' ∉ ("period=" ++ a.period).toList :=
      fun h => (mem_append.mp h).elim (by decide) hmark
    refine ⟨urlencode a.var, decode_urlencode a.var, ?_⟩
    rw [params, split_path, split_eq_singleton hperiod]
    simp only [List.cons_append, List.nil_append, List.tail_cons, List.map_cons, List.map_nil]
    rw [cutParam_eq "begin" (by decide) (by decide), cutParam_eq "end" (by decide) (by decide),
      cutParam_eq "var" (by decide) (by decide),
      cutParam_eq "period" (by decide) (by decide)]

/-! ### What is sent -/

/-- The characters that the HTTP client leaves as they are in the query of a URL: visible
ASCII, but for quotation marks, number signs, apostrophes and angle brackets. -/
def kept (c : Char) : Bool :=
  0x21 ≤ c.toNat && c.toNat ≤ 0x7E && !([0x22, 0x23, 0x27, 0x3C, 0x3E].contains c.toNat)

/-- What the HTTP client sends of a URL of the adapter: white space at the end, tabs and
line breaks and the fragment fall away, and the query is encoded. In what way it writes the
base address is left to the server. -/
def sent (url : String) : String :=
  let text := (url.toList.rdropWhile fun c => c.toNat ≤ 0x20).filter fun c => c ∉ ['\t', '\n', '\r']
  Percent.encode kept (.ofList (text.takeWhile (· ≠ '#')))

/-- The period is one parameter, and the client takes nothing out of it. -/
structure Intact (period : String) : Prop where
  chars : ∀ c ∈ period.toList, 0x20 ≤ c.toNat ∧ c ∉ ['?', '#', '%']
  last : period.toList.getLast? ≠ some ' '

theorem kept_ascii {c : Char} (h : kept c = true) : c.toNat < 128 := by
  simp only [kept, Bool.and_eq_true, decide_eq_true_eq] at h
  omega

/-- Neither white space nor the start of a fragment. -/
theorem visible_of_kept {c : Char} (h : kept c = true) : 0x20 < c.toNat ∧ c ≠ '#' := by
  simp only [kept, Bool.and_eq_true, decide_eq_true_eq, Bool.not_eq_true', List.contains_eq_mem] at h
  refine ⟨by omega, ?_⟩
  rintro rfl
  exact absurd h.2 (by decide)

/-- Nothing falls away from a text without controls and number signs that does not end in
white space. -/
theorem sent_whole {text : String} (hchars : ∀ c ∈ text.toList, 0x20 ≤ c.toNat ∧ c ≠ '#')
    (hlast : ∀ c, text.toList.getLast? = some c → 0x20 < c.toNat) : sent text = Percent.encode kept text := by
  have hend : text.toList.rdropWhile (fun c => c.toNat ≤ 0x20) = text.toList :=
    List.rdropWhile_eq_self_iff.mpr fun hne hle =>
      absurd (of_decide_eq_true hle) (Nat.not_le.mpr (hlast _ (List.getLast?_eq_some_getLast hne)))
  have hplain : text.toList.filter (fun c => c ∉ ['\t', '\n', '\r']) = text.toList := by
    refine List.filter_eq_self.mpr fun c hc => decide_eq_true fun hmem => ?_
    have hle := (hchars c hc).1
    simp only [List.mem_cons, List.not_mem_nil, or_false] at hmem
    rcases hmem with rfl | rfl | rfl <;> exact absurd hle (by decide)
  have hwhole : text.toList.takeWhile (· ≠ '#') = text.toList :=
    List.takeWhile_eq_self_iff.mpr fun c hc => decide_eq_true (hchars c hc).2
  rw [sent, hend, hplain, hwhole, String.ofList_toList]

/-- What comes after a text of characters to keep is encoded. -/
theorem sent_append {url period : String} (hurl : ∀ c ∈ url.toList, kept c = true) (hp : Intact period) :
    sent (url ++ period) = url ++ Percent.encode kept period := by
  have hchars : ∀ c ∈ (url ++ period).toList, 0x20 ≤ c.toNat ∧ c ≠ '#' := by
    intro c hc
    rcases mem_append.mp hc with hc | hc
    · exact ⟨Nat.le_of_lt (visible_of_kept (hurl c hc)).1, (visible_of_kept (hurl c hc)).2⟩
    · exact ⟨(hp.chars c hc).1, fun h => (hp.chars c hc).2 (by simp [h])⟩
  have hlast : ∀ c, (url ++ period).toList.getLast? = some c → 0x20 < c.toNat := by
    intro c hc
    rw [String.toList_append, List.getLast?_append] at hc
    cases hperiod : period.toList.getLast? with
    | some d =>
      rw [hperiod, Option.some_or, Option.some.injEq] at hc
      subst hc
      refine Nat.lt_of_le_of_ne (hp.chars d (List.mem_of_getLast? hperiod)).1 fun hspace => hp.last ?_
      rw [hperiod, Option.some.injEq]
      exact Char.toNat_inj.mp hspace.symm
    | none =>
      rw [hperiod, Option.none_or] at hc
      exact (visible_of_kept (hurl c (List.mem_of_getLast? hc))).1
  rw [sent_whole hchars hlast, Percent.encode_append, Percent.encode_eq_self (fun _ => kept_ascii) hurl]

variable {base : String}

/-- The period is taken as it is given. -/
theorem period_of_historyArgs {rfc3339 : String → Option DateTime} {args : Json} {a : HistoryArgs}
    (h : historyArgs rfc3339 args = .ok a) : a.period = (args.getStr "period").getD "ALL" := by
  simp only [historyArgs, bind, Except.bind, pure, Except.pure] at h
  -- one branch for each error, and the last one is the arguments
  split at h
  · cases h
  · split at h
    · cases h
    · split at h
      · cases h
      · split at h
        · cases h
        · split at h
          · cases h
          · rw [← Except.ok.inj h]

/-- **PSS paths carry exactly their arguments up to the period.** For every list of
variables that is not empty, the path of a query carries these; and for all arguments
`history` accepts, its path carries exactly the four parameters if and only if the
period has no question mark. -/
theorem pss_paths_iff (rfc3339 : String → Option DateTime) :
    (∀ vars : List String, vars ≠ [] → QueryExact vars (queryPath vars)) ∧
    ∀ args a, historyArgs rfc3339 args = .ok a →
      (HistoryExact a a.path ↔ '?' ∉ ((args.getStr "period").getD "ALL").toList) := by
  refine ⟨fun vars h => query_exact h, fun args a h => ?_⟩
  rw [history_exact_iff, period_of_historyArgs h]

/-- A reader of one text: the first instant of 2024. -/
def readsNewYear (text : String) : Option DateTime :=
  if text = "2024-01-01T00:00:00Z" then some ⟨2024, 1, 1, 0, 0, 0, 0, by decide⟩ else none

/-- Arguments of a history with this period. -/
def historyOf (period : String) : Json :=
  .obj [("from", .str "2024-01-01T00:00:00Z"), ("period", .str period), ("to", .str "2024-01-01T00:00:00Z"),
    ("variable", .str "DEV1/Power")]

theorem pss_paths_iff_raw : ∃ a, historyArgs readsNewYear (historyOf "RAW") = .ok a ∧
    HistoryExact a a.path :=
  ⟨_, rfl, ((pss_paths_iff readsNewYear).2 (historyOf "RAW") _ rfl).mpr (by decide)⟩

/-- A period that brings a parameter of its own. -/
theorem not_pss_paths : ¬ ∀ (rfc3339 : String → Option DateTime) args a, historyArgs rfc3339 args = .ok a →
    HistoryExact a a.path := by
  intro h
  have hexact := h readsNewYear (historyOf "ALL?var=DEV2/Power") _ rfl
  exact (history_exact_iff _).mp hexact (by decide)

end Pss
end LymonAgent
