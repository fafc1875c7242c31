/-
# Samples across the plugin boundary

A plugin writes samples as lines of JSON (`Sample` of
`crates/collector-sdk/src/lib.rs`), and the agent reads them with structs of its
own (`PluginSample`, `ReadResp`, `Plugin::read` and `PluginStream::next` of
`src/plugins.rs`). Finite readings come through as they are. A value that is not
finite is written as null, which the agent's struct refuses, and with it the
whole line: `survive_iff` says when a reading is lost that way.

Key definitions: `PluginSample.ofJson`, `ReadResp.ofJson`, `pluginRead`, `next`,
`nexts`, `streamLines`.
Key theorems: `ofJson_toJson`, `resp_batchLine`, `nexts_streamLines`.
-/
import LymonAgent.Ingest.Buffer
import LymonAgent.Plugin.Sdk

namespace LymonAgent
namespace Plugin

open Control (defaulted jsonF64)

/-- A sample of the agent. -/
abbrev AgentSample : Type := LymonAgent.Ingest.Sample

/-! ### What the agent reads -/

structure PluginSample where
  variableId : String
  value : F64
  tsMs : Option ℤ
  quality : Option ℕ

def asI64 : Json → Option ℤ
  | .num (.posInt n) => if n.toNat < 2 ^ 63 then some n.toNat else none
  | .num (.negInt n) => some (-(n.val : ℤ) - 1)
  | _ => none

def PluginSample.ofJson (v : Json) : Option PluginSample :=
  match v.getStr "variable_id", v.getF64 "value", Control.optional asI64 (v.get "ts_ms"),
      Control.optional Sdk.asU32 (v.get "quality") with
  | some variableId, some value, some tsMs, some quality => some { variableId, value, tsMs, quality }
  | _, _, _, _ => none

structure ReadResp where
  ok : Bool
  samples : List PluginSample
  error : Option String

def asSamples (v : Json) : Option (List PluginSample) := v.asArray.bind fun l => l.mapM PluginSample.ofJson

def ReadResp.ofJson (v : Json) : Option ReadResp :=
  match v with
  | .obj _ =>
    match defaulted Json.asBool false (v.get "ok"), defaulted asSamples [] (v.get "samples"),
        Control.optional Json.asStr (v.get "error") with
    | some ok, some samples, some error => some { ok, samples, error }
    | _, _, _ => none
  | _ => none

/-- A sample without a time gets the agent's, one without a quality is good. -/
def PluginSample.toSample (now : ℤ) (s : PluginSample) : AgentSample :=
  ⟨s.variableId, s.tsMs.getD now, s.value, .ofNat (s.quality.getD 0), []⟩

/-- A line of a plugin's output: blank, JSON, or neither. -/
inductive Line where
  | blank
  | json (v : Json)
  | other

/-- The response a line holds, with the samples as the agent takes them at a
time. -/
def Line.resp (now : ℤ) (invalid failed : String) : Line → Except String (List AgentSample)
  | .json v =>
    match ReadResp.ofJson v with
    | none => .error invalid
    | some r => if r.ok then .ok (r.samples.map (PluginSample.toSample now)) else .error (r.error.getD failed)
  | _ => .error invalid

/-- `Plugin::read`, from the line on. -/
def pluginRead (now : ℤ) (line : Line) : Except String (List AgentSample) :=
  line.resp now "plugin response not valid JSON" "plugin error"

/-- What a line of a stream gives at a time: nothing where it is blank or has no
samples. -/
def Line.pushed (now : ℤ) : Line → Option (Except String (List AgentSample))
  | .blank => none
  | line =>
    match line.resp now "plugin stream line not valid JSON" "plugin stream error" with
    | .ok [] => none
    | r => some r

/-- `PluginStream::next` on the lines still to come, each with the time it is
read at. -/
def next : List (ℤ × Line) → Except String (Option (List AgentSample)) × List (ℤ × Line)
  | [] => (.ok none, [])
  | (now, line) :: lines =>
    match line.pushed now with
    | none => next lines
    | some r => (r.map some, lines)

theorem length_next {lines rest : List (ℤ × Line)} {r : Except String (Option (List AgentSample))}
    (h : next lines = (r, rest)) (hr : r ≠ .ok none) : rest.length < lines.length := by
  induction lines with
  | nil => exact absurd (Prod.mk.inj h).1.symm hr
  | cons head lines ih =>
    rw [next] at h
    split at h
    · exact Nat.lt_succ_of_lt (ih h)
    · obtain rfl := (Prod.mk.inj h).2
      exact Nat.lt_succ_self _

/-- `next` again and again until the stream closes: the batches and errors. -/
def nexts (lines : List (ℤ × Line)) : List (Except String (List AgentSample)) :=
  match _h : next lines with
  | (.ok none, _) => []
  | (.ok (some samples), rest) => .ok samples :: nexts rest
  | (.error e, rest) => .error e :: nexts rest
termination_by lines.length
decreasing_by
  · exact length_next _h (by simp)
  · exact length_next _h (by simp)

/-- The batches up to the first error, where `run_stream` and `stream_point` drop
the stream. -/
def untilError {α : Type} : List (Except String α) → List α
  | .ok a :: rs => a :: untilError rs
  | _ => []

/-- Each line is taken once, in order. -/
theorem nexts_eq (lines : List (ℤ × Line)) :
    nexts lines = lines.filterMap fun p => p.2.pushed p.1 := by
  induction lines with
  | nil =>
    rw [nexts]
    rfl
  | cons head lines ih =>
    rw [List.filterMap_cons]
    cases hp : head.2.pushed head.1 with
    | none =>
      have hnext : next (head :: lines) = next lines := by rw [next, hp]
      rw [← ih, nexts, nexts, hnext]
    | some r =>
      have hnext : next (head :: lines) = (r.map some, lines) := by rw [next, hp]
      rw [nexts, hnext, ← ih]
      cases r <;> rfl

/-! ### What comes through -/

/-- A sample of the plugin as the agent has it, with the agent's time where it
has none. -/
def received (now : ℤ) (s : Sdk.Sample) : AgentSample :=
  ⟨s.variableId, (s.tsMs.map Int64.toInt).getD now, s.value, s.quality, []⟩

theorem asI64_jsonI64 (n : Int64) : asI64 (Sdk.jsonI64 n) = some n.toInt := by
  have hlo := n.le_toInt
  have hhi := n.toInt_lt
  unfold Sdk.jsonI64
  split
  · simp only [asI64, Option.some.injEq]
    omega
  · simp only [asI64, UInt64.toNat_ofNat']
    rw [if_pos (by omega)]
    congr 1
    omega

theorem optional_quality (q : UInt32) :
    Control.optional Sdk.asU32 (some (.num (.posInt q.toUInt64))) = some (some q.toNat) := by
  have hq := q.toNat_lt
  simp [Control.optional, Sdk.asU32, Json.asU64, hq]

/-- The members of a printed sample. -/
theorem get_toJson (s : Sdk.Sample) :
    s.toJson.get "variable_id" = some (.str s.variableId) ∧
    s.toJson.get "value" = some (jsonF64 s.value) ∧
    s.toJson.get "ts_ms" = s.tsMs.map Sdk.jsonI64 ∧
    s.toJson.get "quality" = some (.num (.posInt s.quality.toUInt64)) := by
  cases ht : s.tsMs <;> simp [Sdk.Sample.toJson, ht, Json.get, List.lookup_cons]

theorem asF64_jsonF64 (x : F64) : (jsonF64 x).asF64 = if x.isFinite then some x else none := by
  cases x <;> rfl

theorem optional_jsonI64 (t : Option Int64) :
    Control.optional asI64 (t.map Sdk.jsonI64) = some (t.map Int64.toInt) := by
  cases t with
  | none => rfl
  | some n =>
    have hn : ∀ v, asI64 v = some n.toInt → Control.optional asI64 (some v) = some (some n.toInt) := by
      intro v hv
      cases v with
      | null => cases hv
      | _ => simp [Control.optional, hv]
    exact hn _ (asI64_jsonI64 n)

/-- A sample is read back if its value is finite, and refused if it is not. -/
theorem ofJson_toJson (s : Sdk.Sample) :
    PluginSample.ofJson s.toJson =
      if s.value.isFinite then
        some ⟨s.variableId, s.value, s.tsMs.map Int64.toInt, some s.quality.toNat⟩
      else none := by
  obtain ⟨hid, hvalue, hts, hquality⟩ := get_toJson s
  simp only [PluginSample.ofJson, Json.getStr, Json.getF64, hid, hvalue, hts, hquality,
    Option.bind_some, Json.asStr, asF64_jsonF64, optional_jsonI64, optional_quality]
  cases s.value.isFinite <;> rfl

theorem toSample_toJson {s : Sdk.Sample} (now : ℤ) (h : s.value.isFinite = true) :
    (PluginSample.ofJson s.toJson).map (PluginSample.toSample now) = some (received now s) := by
  rw [ofJson_toJson, if_pos h]
  simp [PluginSample.toSample, received]

theorem mapM_toJson (samples : List Sdk.Sample) (now : ℤ) :
    ((samples.map Sdk.Sample.toJson).mapM PluginSample.ofJson).map
        (List.map (PluginSample.toSample now)) =
      if samples.all (·.value.isFinite) then some (samples.map (received now)) else none := by
  induction samples with
  | nil => rfl
  | cons s samples ih =>
    rw [List.map_cons, List.mapM_cons, List.all_cons]
    cases hfin : s.value.isFinite with
    | false => simp [ofJson_toJson, hfin]
    | true =>
      have hs := toSample_toJson now hfin
      obtain ⟨p, hp, hps⟩ := Option.map_eq_some_iff.mp hs
      cases hrest : (samples.map Sdk.Sample.toJson).mapM PluginSample.ofJson with
      | none =>
        rw [hrest] at ih
        cases hall : samples.all (·.value.isFinite) with
        | false => simp [hp]
        | true => simp [hall] at ih
      | some ps =>
        rw [hrest] at ih
        cases hall : samples.all (·.value.isFinite) with
        | false => simp [hall] at ih
        | true =>
          rw [hall, if_pos rfl, Option.map_some] at ih
          simp [hp, hps, Option.some.inj ih]

/-! ### Lines of samples -/

/-- The response in a line of samples: all of them, or none if one is not
finite. -/
theorem resp_batchLine (samples : List Sdk.Sample) (now : ℤ) (invalid failed : String) :
    (Line.json (Sdk.batchLine samples)).resp now invalid failed =
      if samples.all (·.value.isFinite) then .ok (samples.map (received now)) else .error invalid := by
  have hget : ReadResp.ofJson (Sdk.batchLine samples) =
      ((samples.map Sdk.Sample.toJson).mapM PluginSample.ofJson).map fun ps => ⟨true, ps, none⟩ := by
    have hsamples : defaulted asSamples [] ((Sdk.batchLine samples).get "samples") =
        (samples.map Sdk.Sample.toJson).mapM PluginSample.ofJson := rfl
    have hok : defaulted Json.asBool false ((Sdk.batchLine samples).get "ok") = some true := rfl
    have herror : Control.optional Json.asStr ((Sdk.batchLine samples).get "error") = some none := rfl
    unfold Sdk.batchLine Sdk.okLine at hsamples hok herror ⊢
    simp only [ReadResp.ofJson, hsamples, hok, herror]
    cases (samples.map Sdk.Sample.toJson).mapM PluginSample.ofJson <;> rfl
  have hmap := mapM_toJson samples now
  simp only [Line.resp, hget]
  cases hps : (samples.map Sdk.Sample.toJson).mapM PluginSample.ofJson with
  | none =>
    rw [hps] at hmap
    split at hmap
    · cases hmap
    · rename_i hall
      rw [if_neg hall]
      rfl
  | some ps =>
    rw [hps] at hmap
    split at hmap
    · rename_i hall
      rw [if_pos hall]
      simpa using Option.some.inj hmap
    · cases hmap

/-! ### What survives -/

/-- The lines of a subscription: its batches, each with the time the agent reads
it at, and the line that ends it, if it came to that. -/
def streamLines (batches : List (ℤ × List Sdk.Sample)) (ending : Option (ℤ × Except String Unit)) :
    List (ℤ × Line) :=
  batches.map (fun b => (b.1, .json (Sdk.batchLine b.2))) ++
    (ending.map fun e => (e.1, Line.json (Sdk.statusLine e.2))).toList

/-- The samples in an answer. -/
def samplesOf : Except String (List AgentSample) → List AgentSample
  | .ok samples => samples
  | .error _ => []

/-- The finite samples of a batch, as the agent should have them. -/
def finite (b : ℤ × List Sdk.Sample) : List AgentSample :=
  (b.2.filter (·.value.isFinite)).map (received b.1)

/-- Of the batches sent, every finite sample was obtained, once and in order. -/
def Survives (batches : List (ℤ × List Sdk.Sample)) (obtained : List AgentSample) : Prop :=
  obtained.filter (·.value.isFinite) = batches.flatMap finite

/-- All values of the batch are finite. -/
def AllFinite (samples : List Sdk.Sample) : Prop := ∀ s ∈ samples, s.value.isFinite = true

/-- No value of the batch is finite. -/
def NoneFinite (samples : List Sdk.Sample) : Prop := ∀ s ∈ samples, s.value.isFinite = false

instance (samples : List Sdk.Sample) : Decidable (AllFinite samples) :=
  inferInstanceAs (Decidable (∀ s ∈ samples, _))

theorem finite_eq_nil {b : ℤ × List Sdk.Sample} : finite b = [] ↔ NoneFinite b.2 := by
  simp [finite, NoneFinite, List.filter_eq_nil_iff]

theorem finite_of_allFinite {b : ℤ × List Sdk.Sample} (h : AllFinite b.2) :
    finite b = b.2.map (received b.1) := by
  rw [finite, List.filter_eq_self.mpr h]

theorem filter_finite (b : ℤ × List Sdk.Sample) :
    (finite b).filter (·.value.isFinite) = finite b := by
  refine List.filter_eq_self.mpr fun a ha => ?_
  obtain ⟨s, hs, rfl⟩ := List.mem_map.mp ha
  exact (List.mem_filter.mp hs).2

/-- What a batch's line gives: its samples if they are all finite. -/
theorem resp_batch (b : ℤ × List Sdk.Sample) (invalid failed : String) :
    (Line.json (Sdk.batchLine b.2)).resp b.1 invalid failed =
      if AllFinite b.2 then .ok (finite b) else .error invalid := by
  rw [resp_batchLine]
  by_cases h : AllFinite b.2
  · rw [if_pos (List.all_eq_true.mpr h), if_pos h, finite_of_allFinite h]
  · rw [if_neg h, if_neg fun hall => h (List.all_eq_true.mp hall)]

theorem pushed_batch (b : ℤ × List Sdk.Sample) :
    ((Line.json (Sdk.batchLine b.2)).pushed b.1).toList =
      if AllFinite b.2 then (if finite b = [] then [] else [.ok (finite b)])
      else [.error "plugin stream line not valid JSON"] := by
  simp only [Line.pushed, resp_batch]
  by_cases h : AllFinite b.2
  · simp only [if_pos h]
    cases finite b <;> rfl
  · simp [if_neg h]

theorem pushed_status (now : ℤ) (result : Except String Unit) :
    ((Line.json (Sdk.statusLine result)).pushed now).toList =
      match result with
      | .ok _ => []
      | .error e => [.error e] := by
  cases result <;> rfl

/-- The answers to a subscription, batch by batch. -/
def answers (batches : List (ℤ × List Sdk.Sample)) : List (Except String (List AgentSample)) :=
  batches.flatMap fun b => ((Line.json (Sdk.batchLine b.2)).pushed b.1).toList

theorem nexts_streamLines (batches : List (ℤ × List Sdk.Sample))
    (ending : Option (ℤ × Except String Unit)) :
    ∃ last, nexts (streamLines batches ending) = answers batches ++ last ∧
      ∀ r ∈ last, ∃ e, r = .error e := by
  rw [nexts_eq, streamLines, List.filterMap_append]
  refine ⟨_, congrArg (· ++ _) ?_, ?_⟩
  · rw [List.filterMap_map, answers, List.filterMap_eq_flatMap_toList]
    rfl
  · intro r hr
    obtain ⟨p, hp, hr⟩ := List.mem_filterMap.mp hr
    cases ending with
    | none => cases hp
    | some e =>
      obtain rfl := List.mem_singleton.mp hp
      have hstatus := pushed_status e.1 e.2
      rw [hr] at hstatus
      cases he : e.2 with
      | ok _ => simp [he] at hstatus
      | error detail =>
        rw [he] at hstatus
        exact ⟨detail, List.cons.inj hstatus |>.1⟩

/-- A batch gives its finite samples, or nothing if it has one that is not. -/
def kept (b : ℤ × List Sdk.Sample) : List AgentSample := if AllFinite b.2 then finite b else []

theorem samples_nexts (batches : List (ℤ × List Sdk.Sample))
    (ending : Option (ℤ × Except String Unit)) :
    (nexts (streamLines batches ending)).flatMap samplesOf = batches.flatMap kept := by
  obtain ⟨last, hlast, herr⟩ := nexts_streamLines batches ending
  have hnil : last.flatMap samplesOf = [] := by
    refine List.flatMap_eq_nil_iff.mpr fun r hr => ?_
    obtain ⟨e, rfl⟩ := herr r hr
    rfl
  rw [hlast, List.flatMap_append, hnil, List.append_nil, answers, List.flatMap_assoc]
  refine List.flatMap_congr fun b _ => ?_
  rw [pushed_batch, kept]
  by_cases h : AllFinite b.2
  · simp only [if_pos h]
    split
    · rename_i hb
      rw [hb]
      rfl
    · simp [samplesOf]
  · simp [if_neg h, samplesOf]

/-- What the agent has when it drops the stream at the first error. -/
def keptUntil : List (ℤ × List Sdk.Sample) → List AgentSample
  | [] => []
  | b :: bs => if AllFinite b.2 then finite b ++ keptUntil bs else []

theorem samples_untilError (batches : List (ℤ × List Sdk.Sample))
    (ending : Option (ℤ × Except String Unit)) :
    (untilError (nexts (streamLines batches ending))).flatten = keptUntil batches := by
  obtain ⟨last, hlast, herr⟩ := nexts_streamLines batches ending
  rw [hlast]
  clear hlast
  induction batches with
  | nil =>
    cases last with
    | nil => rfl
    | cons r last =>
      obtain ⟨e, rfl⟩ := herr r List.mem_cons_self
      rfl
  | cons b batches ih =>
    have hcons : answers (b :: batches) =
        ((Line.json (Sdk.batchLine b.2)).pushed b.1).toList ++ answers batches := rfl
    rw [hcons, List.append_assoc, pushed_batch, keptUntil]
    by_cases h : AllFinite b.2
    · simp only [if_pos h]
      split
      · rename_i hb
        rw [hb]
        exact ih
      · rw [List.singleton_append, untilError, List.flatten_cons, ih]
    · simp [if_neg h, untilError]

/-- Nothing that comes through is not finite. -/
theorem filter_kept (b : ℤ × List Sdk.Sample) : (kept b).filter (·.value.isFinite) = kept b := by
  unfold kept
  split
  · exact filter_finite b
  · rfl

theorem kept_eq_finite {b : ℤ × List Sdk.Sample} :
    kept b = finite b ↔ AllFinite b.2 ∨ NoneFinite b.2 := by
  unfold kept
  by_cases h : AllFinite b.2
  · simp [h]
  · rw [if_neg h, eq_comm, finite_eq_nil]
    simp [h]

theorem length_kept_le (b : ℤ × List Sdk.Sample) : (kept b).length ≤ (finite b).length := by
  unfold kept
  split
  · exact le_refl _
  · exact Nat.zero_le _

theorem length_flatMap_kept_le (batches : List (ℤ × List Sdk.Sample)) :
    (batches.flatMap kept).length ≤ (batches.flatMap finite).length := by
  induction batches with
  | nil => exact le_refl _
  | cons b batches ih =>
    have hb := length_kept_le b
    simp only [List.flatMap_cons, List.length_append]
    omega

/-- No batch makes up for what another lost. -/
theorem flatMap_kept_eq {batches : List (ℤ × List Sdk.Sample)} :
    batches.flatMap kept = batches.flatMap finite ↔ ∀ b ∈ batches, kept b = finite b := by
  constructor
  · intro h
    induction batches with
    | nil => simp
    | cons b batches ih =>
      simp only [List.flatMap_cons] at h
      have hlen := congrArg List.length h
      have hrest := length_flatMap_kept_le batches
      have hb := length_kept_le b
      simp only [List.length_append] at hlen
      obtain ⟨h1, h2⟩ := List.append_inj h (by omega)
      exact List.forall_mem_cons.mpr ⟨h1, ih h2⟩
  · intro h
    exact List.flatMap_congr h

theorem survives_kept {batches : List (ℤ × List Sdk.Sample)} :
    Survives batches (batches.flatMap kept) ↔
      ∀ b ∈ batches, AllFinite b.2 ∨ NoneFinite b.2 := by
  have hfilter : (batches.flatMap kept).filter (·.value.isFinite) = batches.flatMap kept := by
    rw [List.filter_flatMap]
    exact List.flatMap_congr fun b _ => filter_kept b
  rw [Survives, hfilter, flatMap_kept_eq]
  exact forall₂_congr fun b _ => kept_eq_finite

theorem filter_keptUntil (batches : List (ℤ × List Sdk.Sample)) :
    (keptUntil batches).filter (·.value.isFinite) = keptUntil batches := by
  induction batches with
  | nil => rfl
  | cons b batches ih =>
    rw [keptUntil]
    split
    · rw [List.filter_append, filter_finite, ih]
    · rfl

theorem survives_keptUntil {batches : List (ℤ × List Sdk.Sample)} :
    Survives batches (keptUntil batches) ↔
      ∀ pre b post, batches = pre ++ b :: post → ¬ AllFinite b.2 →
        ∀ c ∈ b :: post, NoneFinite c.2 := by
  rw [Survives, filter_keptUntil]
  induction batches with
  | nil => simp [keptUntil]
  | cons b batches ih =>
    rw [keptUntil, List.flatMap_cons]
    by_cases h : AllFinite b.2
    · rw [if_pos h, List.append_cancel_left_eq, ih]
      constructor
      · rintro hall (_ | ⟨a, pre⟩) b' post hsplit hb'
        · obtain ⟨rfl, rfl⟩ := List.cons.inj hsplit
          exact absurd h hb'
        · exact hall pre b' post (List.cons.inj hsplit).2 hb'
      · rintro hall pre b' post rfl hb'
        exact hall (b :: pre) b' post rfl hb'
    · rw [if_neg h, eq_comm, ← List.flatMap_cons, List.flatMap_eq_nil_iff]
      constructor
      · rintro hall pre b' post hsplit - c hc
        exact finite_eq_nil.mp (hall c (hsplit ▸ List.mem_append_right _ hc))
      · intro hall c hc
        exact finite_eq_nil.mpr (hall [] b batches rfl h c hc)

/-- **A finite reading is lost exactly where its line carries one that is not.**
For every collector and request to read, and every list of samples it returns:
the agent has every finite one, once and in order, if and only if all of them are
finite or none is. For every subscription, however it ends, the same holds of
`next` called until the stream closes if and only if it holds of each batch; and
of the agent's loops, which drop the stream at the first error, if and only if no
finite sample stands in or after a batch with one that is not finite. -/
theorem survive_iff {σ : Type} (c : Sdk.Collector σ) (s : σ) (req : Sdk.ReadRequest) (now : ℤ)
    {samples : List Sdk.Sample} (hop : req.op = "read") (hread : (c.read s req).2 = .ok samples)
    (batches : List (ℤ × List Sdk.Sample)) (ending : Option (ℤ × Except String Unit)) :
    (Survives [(now, samples)] (samplesOf (pluginRead now (.json (Sdk.dispatch c s req).2))) ↔
      AllFinite samples ∨ NoneFinite samples) ∧
    (Survives batches ((nexts (streamLines batches ending)).flatMap samplesOf) ↔
      ∀ b ∈ batches, AllFinite b.2 ∨ NoneFinite b.2) ∧
    (Survives batches (untilError (nexts (streamLines batches ending))).flatten ↔
      ∀ pre b post, batches = pre ++ b :: post → ¬ AllFinite b.2 →
        ∀ c ∈ b :: post, NoneFinite c.2) := by
  refine ⟨?_, ?_, ?_⟩
  · have hline : (Sdk.dispatch c s req).2 = Sdk.batchLine samples := by
      simp only [Sdk.dispatch, hop, hread, Sdk.respond]
    have hkept : samplesOf (pluginRead now (.json (Sdk.dispatch c s req).2)) =
        [(now, samples)].flatMap kept := by
      rw [hline, pluginRead, resp_batch (now, samples)]
      by_cases h : AllFinite samples <;> simp [kept, h, samplesOf]
    rw [hkept, survives_kept]
    simp
  · rw [samples_nexts]
    exact survives_kept
  · rw [samples_untilError]
    exact survives_keptUntil

/-- A collector that reads the same samples every time. -/
def constant (samples : List Sdk.Sample) : Sdk.Collector Unit where
  read _ _ := ((), .ok samples)
  query := Sdk.queryOfRead fun _ _ => ((), .ok samples)
  write _ _ := ((), .error "write not supported by this connector")
  discover _ _ := ((), .error "discover not supported by this plugin")

def readRequest : Sdk.ReadRequest :=
  ⟨1, "read", "plc", "s7", .null, .null, .null, .null, .null, [], .null, none, false⟩

/-- A good reading and one that is no number. -/
def good : Sdk.Sample := ⟨"good", .fin 42, some 7, 0⟩

def bad : Sdk.Sample := ⟨"bad", .nan, some 7, 0⟩

theorem survive_good :
    Survives [(9, [good])]
      (samplesOf (pluginRead 9 (.json (Sdk.dispatch (constant [good]) () readRequest).2))) :=
  (survive_iff (constant [good]) () readRequest 9 rfl rfl [] none).1.mpr (Or.inl (by decide))

/-- A NaN beside it loses a good reading, in a poll and in a batch of a stream;
the agent's loop loses the good readings of every later batch too. -/
theorem lost_beside_nan :
    (samplesOf (pluginRead 9 (.json (Sdk.dispatch (constant [good, bad]) () readRequest).2)) = [] ∧
      ¬ Survives [(9, [good, bad])]
        (samplesOf (pluginRead 9 (.json (Sdk.dispatch (constant [good, bad]) () readRequest).2)))) ∧
    ((nexts (streamLines [(9, [good, bad])] none)).flatMap samplesOf = [] ∧
      ¬ Survives [(9, [good, bad])] ((nexts (streamLines [(9, [good, bad])] none)).flatMap samplesOf)) ∧
    ((untilError (nexts (streamLines [(9, [bad]), (10, [good])] none))).flatten = [] ∧
      ¬ Survives [(9, [bad]), (10, [good])]
        (untilError (nexts (streamLines [(9, [bad]), (10, [good])] none))).flatten) := by
  have hread : samplesOf (pluginRead 9
      (.json (Sdk.dispatch (constant [good, bad]) () readRequest).2)) = [] := by decide +kernel
  have hnext : (nexts (streamLines [(9, [good, bad])] none)).flatMap samplesOf = [] := by
    rw [samples_nexts]
    decide +kernel
  have hloop : (untilError (nexts (streamLines [(9, [bad]), (10, [good])] none))).flatten = [] := by
    rw [samples_untilError]
    decide +kernel
  have hlost : ∀ batches : List (ℤ × List Sdk.Sample), batches.flatMap finite ≠ [] →
      ¬ Survives batches [] := fun _ hne h => hne h.symm
  refine ⟨⟨hread, ?_⟩, ⟨hnext, ?_⟩, ⟨hloop, ?_⟩⟩
  · rw [hread]
    exact hlost _ (by decide +kernel)
  · rw [hnext]
    exact hlost _ (by decide +kernel)
  · rw [hloop]
    exact hlost _ (by decide +kernel)

end Plugin
end LymonAgent
