/-
# Oversampled windows

`run_window` of `src/collector.rs`: an ingest read more often than it is
recorded is read over and over for one record window, the values of a point are
added up as they come, and the mean of each point is enqueued with quality 0.
The sums take in every sample of a read. A plugin reports a point it could not
read as 0 with a quality other than 0, so that value is scaled and added like
the others. `averages_good_iff` says for which windows the means are those of
the good readings all the same.

The map of sums is an `AList`; the order it is walked in, which decides the
order of the enqueued samples, is not the source's, and nothing depends on it.
The count is a `u32` and wraps.

Key definitions: `runWindow`, `AveragesGood`, `Harmless`.
Key theorems: `lookup_window`, `mem_windowSamples`, `averages_good_iff`.
-/
import LymonAgent.Collect.Reconfigure
import LymonAgent.Ingest.Buffer
import Mathlib.Data.List.AList

namespace LymonAgent
namespace Collect

open LymonAgent.Ingest (Sample)

/-! ### Reading -/

/-- `apply_scale`: an ingest's own scale and offset, unless it has an expression. -/
def applyScale (transform : Json) (raw : F64) : F64 :=
  if (transform.getStr "expression").isSome then raw
  else (raw.mul ((transform.getF64 "scale").getD (.fin 1))).add
    ((transform.getF64 "offset").getD (.fin 0))

/-- What `collect_once` makes of a plugin's answer. -/
def collectPlugin (ing : Ingest) (read : Except String (List Sample)) : Except String (List Sample) :=
  read.map fun samples => samples.map fun s => { s with value := applyScale ing.transform s.value }

/-! ### The window -/

/-- The sum and the number of readings of each point. -/
abbrev Sums : Type := AList fun _ : String => F64 × UInt32

def accumulate (acc : Sums) (s : Sample) : Sums :=
  let e := (acc.lookup s.pointId).getD (.fin 0, 0)
  acc.insert s.pointId (e.1.add s.value, e.2 + 1)

/-- The sums after the reads of a window; a read that failed adds nothing. -/
def window (results : List (Except String (List Sample))) : Sums :=
  results.foldl (fun acc r =>
    match r with
    | .ok samples => samples.foldl accumulate acc
    | .error _ => acc) ∅

def meanSample (tsMs : ℤ) (id : String) (e : F64 × UInt32) : Sample where
  pointId := id
  tsMs := tsMs
  value := if 0 < e.2 then e.1.div (.fin e.2.toNat) else e.1
  quality := 0
  attrs := []

def windowSamples (results : List (Except String (List Sample))) (tsMs : ℤ) : List Sample :=
  (window results).entries.map fun x => meanSample tsMs x.1 x.2

/-- The call of `enqueue_with_origin` a window ends with, if it makes one. -/
def runWindow (ing : Ingest) (results : List (Except String (List Sample))) (tsMs : ℤ) :
    Option (Option String × List Sample) :=
  if (window results).entries.isEmpty then none
  else some (some ing.connectorId, windowSamples results tsMs)

/-! ### The readings of a point -/

/-- The samples of the reads that went through. -/
def readings (results : List (Except String (List Sample))) : List Sample :=
  results.flatMap fun r =>
    match r with
    | .ok samples => samples
    | .error _ => []

def ofPoint (id : String) (l : List Sample) : List Sample := l.filter fun s => decide (s.pointId = id)

def good (l : List Sample) : List Sample := l.filter fun s => decide (s.quality = 0)

def bad (l : List Sample) : List Sample := l.filter fun s => decide (s.quality ≠ 0)

/-- The number behind a finite value. -/
def exact : F64 → ℚ
  | .fin q => q
  | _ => 0

def total (l : List Sample) : ℚ := (l.map fun s => exact s.value).sum

def mean (l : List Sample) : ℚ := total l / l.length

/-- Every value is a number. -/
def Finite (l : List Sample) : Prop := ∀ s ∈ l, ∃ q, s.value = .fin q

theorem window_eq (results : List (Except String (List Sample))) :
    window results = (readings results).foldl accumulate ∅ := by
  unfold window readings
  generalize (∅ : Sums) = acc
  induction results generalizing acc with
  | nil => rfl
  | cons r results ih =>
    rw [List.foldl_cons, List.flatMap_cons, List.foldl_append, ih]
    cases r <;> rfl

/-- One more reading of a point on top of what is there. -/
def addReading (e : Option (F64 × UInt32)) (s : Sample) : Option (F64 × UInt32) :=
  some ((e.getD (.fin 0, 0)).1.add s.value, (e.getD (.fin 0, 0)).2 + 1)

theorem lookup_accumulate (acc : Sums) (s : Sample) (id : String) :
    (accumulate acc s).lookup id =
      if s.pointId = id then addReading (acc.lookup id) s else acc.lookup id := by
  unfold accumulate addReading
  by_cases h : s.pointId = id
  · rw [if_pos h, ← h, AList.lookup_insert]
  · rw [if_neg h, AList.lookup_insert_ne (Ne.symm h)]

/-- A point's entry depends on the point's own readings. -/
theorem lookup_foldl (l : List Sample) (acc : Sums) (id : String) :
    (l.foldl accumulate acc).lookup id = (ofPoint id l).foldl addReading (acc.lookup id) := by
  induction l generalizing acc with
  | nil => rfl
  | cons s l ih =>
    rw [List.foldl_cons, ih, lookup_accumulate]
    by_cases h : s.pointId = id
    · simp [ofPoint, h]
    · simp [ofPoint, h]

theorem foldl_addReading {l : List Sample} (hl : Finite l) (a : ℚ) (n : UInt32) :
    l.foldl addReading (some (.fin a, n)) = some (.fin (a + total l), n + .ofNat l.length) := by
  induction l generalizing a n with
  | nil => simp [total]
  | cons s l ih =>
    obtain ⟨q, hq⟩ := hl s List.mem_cons_self
    have hstep : addReading (some (.fin a, n)) s = some (.fin (a + q), n + 1) := by
      simp [addReading, hq, F64.add]
    have htotal : total (s :: l) = q + total l := by simp [total, hq, exact]
    have hcount : n + 1 + .ofNat l.length = n + .ofNat (l.length + 1) := by
      rw [UInt32.ofNat_add, UInt32.add_assoc, UInt32.add_comm 1]
      rfl
    rw [List.foldl_cons, hstep, ih (fun x hx => hl x (List.mem_cons_of_mem _ hx)), htotal,
      List.length_cons, add_assoc, hcount]

/-- The entry of a point: the sum of its readings and their number as a `u32`. -/
theorem lookup_window {results : List (Except String (List Sample))} (id : String)
    (hfin : Finite (readings results)) :
    (window results).lookup id =
      if ofPoint id (readings results) = [] then none
      else some (.fin (total (ofPoint id (readings results))),
        .ofNat (ofPoint id (readings results)).length) := by
  have hmine : Finite (ofPoint id (readings results)) := fun s hs => hfin s (List.mem_of_mem_filter hs)
  rw [window_eq, lookup_foldl, AList.lookup_empty]
  cases hl : ofPoint id (readings results) with
  | nil => rfl
  | cons s l =>
    rw [hl] at hmine
    have hnone : (s :: l).foldl addReading none = (s :: l).foldl addReading (some (.fin 0, 0)) := rfl
    rw [if_neg (List.cons_ne_nil s l), hnone, foldl_addReading hmine, zero_add, UInt32.zero_add]

/-! ### The mean the code takes -/

/-- What the sum of `n` readings is divided by: the `u32` count, or nothing when
it wrapped to 0. -/
def divisor (n : ℕ) : ℕ := if n % 2 ^ 32 = 0 then 1 else n % 2 ^ 32

theorem divisor_pos (n : ℕ) : 0 < divisor n := by
  unfold divisor
  split <;> omega

theorem divisor_of_lt {n : ℕ} (h0 : 0 < n) (h : n < 2 ^ 32) : divisor n = n := by
  have hmod : n % 2 ^ 32 = n := Nat.mod_eq_of_lt h
  unfold divisor
  rw [hmod, if_neg (by omega)]

theorem meanSample_eq (tsMs : ℤ) (id : String) (q : ℚ) (n : ℕ) :
    meanSample tsMs id (.fin q, .ofNat n) = ⟨id, tsMs, .fin (q / divisor n), 0, []⟩ := by
  have hcount : (UInt32.ofNat n).toNat = n % 2 ^ 32 := UInt32.toNat_ofNat'
  have hpos : 0 < UInt32.ofNat n ↔ n % 2 ^ 32 ≠ 0 := by
    rw [UInt32.lt_iff_toNat_lt, hcount]
    exact Nat.pos_iff_ne_zero
  simp only [meanSample, hpos, hcount, divisor]
  by_cases h : n % 2 ^ 32 = 0
  · simp only [h, ne_eq, not_true_eq_false, if_false, if_true, Nat.cast_one, div_one]
  · have hcast : ((n % 2 ^ 32 : ℕ) : ℚ) ≠ 0 := Nat.cast_ne_zero.mpr h
    simp only [h, ne_eq, not_false_eq_true, if_true, if_false, F64.div, hcast]

/-- What a window enqueues for a point with the readings `l`. -/
def sampleFor (tsMs : ℤ) (id : String) (l : List Sample) : Sample :=
  ⟨id, tsMs, .fin (total l / divisor l.length), 0, []⟩

theorem mem_windowSamples {results : List (Except String (List Sample))} {tsMs : ℤ} {s : Sample}
    (hfin : Finite (readings results)) :
    s ∈ windowSamples results tsMs ↔
      ∃ id, ofPoint id (readings results) ≠ [] ∧ s = sampleFor tsMs id (ofPoint id (readings results)) := by
  have hentry : ∀ {id : String} {e : F64 × UInt32}, ⟨id, e⟩ ∈ (window results).entries ↔
      ofPoint id (readings results) ≠ [] ∧
        e = (.fin (total (ofPoint id (readings results))),
          .ofNat (ofPoint id (readings results)).length) := by
    intro id e
    rw [← AList.mem_lookup_iff, lookup_window id hfin]
    by_cases h : ofPoint id (readings results) = []
    · simp [h]
    · simp only [h, if_false, Option.mem_def, Option.some.injEq, ne_eq, not_false_eq_true, true_and]
      exact eq_comm
  constructor
  · intro hs
    obtain ⟨⟨id, e⟩, hx, rfl⟩ := List.mem_map.mp hs
    obtain ⟨hne, rfl⟩ := hentry.mp hx
    exact ⟨id, hne, meanSample_eq _ _ _ _⟩
  · rintro ⟨id, hne, rfl⟩
    exact List.mem_map.mpr ⟨⟨id, _⟩, hentry.mpr ⟨hne, rfl⟩, meanSample_eq _ _ _ _⟩

/-! ### Good readings and bad ones -/

theorem total_good_add_bad (l : List Sample) : total (good l) + total (bad l) = total l := by
  have hperm := (List.filter_append_perm (fun s : Sample => decide (s.quality = 0)) l).map
    fun s => exact s.value
  rw [List.map_append] at hperm
  have hsum := hperm.sum_eq
  rw [List.sum_append] at hsum
  simpa [total, good, bad] using hsum

/-- The samples of a window average its good readings: a point has one sample, its
value is the mean of the point's good readings, and it has quality 0 only where there
is one. -/
structure AveragesGood (results : List (Except String (List Sample))) (out : List Sample) : Prop where
  one : (out.map (·.pointId)).Nodup
  mean : ∀ s ∈ out, good (ofPoint s.pointId (readings results)) ≠ [] →
    s.value = .fin (mean (good (ofPoint s.pointId (readings results))))
  quality : ∀ s ∈ out, s.quality = 0 → good (ofPoint s.pointId (readings results)) ≠ []

/-- The readings `l` of a point have a good one among them, and the bad ones add
what as many readings of the good mean would. -/
def Harmless (l : List Sample) : Prop :=
  good l ≠ [] ∧ total (bad l) = ((divisor l.length : ℚ) - (good l).length) * mean (good l)

/-- The mean the code takes is the mean of the good readings exactly when the
bad ones are harmless. -/
theorem mean_eq_iff {l : List Sample} (hg : good l ≠ []) :
    total l / divisor l.length = mean (good l) ↔
      total (bad l) = ((divisor l.length : ℚ) - (good l).length) * mean (good l) := by
  have hd : (divisor l.length : ℚ) ≠ 0 := Nat.cast_ne_zero.mpr (divisor_pos _).ne'
  have hlen : ((good l).length : ℚ) ≠ 0 := Nat.cast_ne_zero.mpr (List.length_pos_iff.mpr hg).ne'
  have hgood : total (good l) = (good l).length * mean (good l) := by
    unfold mean
    rw [mul_div_cancel₀ _ hlen]
  rw [div_eq_iff hd, ← total_good_add_bad l, hgood]
  constructor
  · intro h
    linarith
  · intro h
    rw [h]
    ring

/-- Of fewer than `2^32` readings of a point, the bad ones are harmless when
there are none or when their own mean is that of the good ones. -/
theorem harmless_iff {l : List Sample} (h : l.length < 2 ^ 32) :
    Harmless l ↔ good l ≠ [] ∧ (bad l = [] ∨ mean (bad l) = mean (good l)) := by
  refine and_congr_right fun hg => ?_
  have hsplit : (good l).length + (bad l).length = l.length := by
    have := (List.filter_append_perm (fun s : Sample => decide (s.quality = 0)) l).length_eq
    rw [List.length_append] at this
    simpa [good, bad] using this
  have hpos : 0 < l.length := by
    have := List.length_pos_iff.mpr hg
    omega
  have hcast : ((divisor l.length : ℚ) - (good l).length) = (bad l).length := by
    rw [divisor_of_lt hpos h, ← hsplit]
    push_cast
    ring
  rw [hcast]
  by_cases hb : bad l = []
  · simp [hb, total]
  · have hlen : ((bad l).length : ℚ) ≠ 0 := Nat.cast_ne_zero.mpr (List.length_pos_iff.mpr hb).ne'
    simp only [hb, false_or]
    conv_rhs => rw [mean, div_eq_iff hlen, mul_comm]

theorem averagesGood_windowSamples_iff {results : List (Except String (List Sample))} (tsMs : ℤ)
    (hfin : Finite (readings results)) :
    AveragesGood results (windowSamples results tsMs) ↔
      ∀ id, ofPoint id (readings results) ≠ [] → Harmless (ofPoint id (readings results)) := by
  constructor
  · intro h id hid
    have hs : sampleFor tsMs id (ofPoint id (readings results)) ∈ windowSamples results tsMs :=
      (mem_windowSamples hfin).mpr ⟨id, hid, rfl⟩
    have hg := h.quality _ hs rfl
    have hmean := F64.fin.inj (h.mean _ hs hg)
    exact ⟨hg, (mean_eq_iff hg).mp hmean⟩
  · intro h
    refine ⟨?_, fun s hs hg => ?_, fun s hs _ => ?_⟩
    · have hkeys := (window results).nodupKeys
      simpa [windowSamples, meanSample, Function.comp_def, List.NodupKeys, List.keys] using hkeys
    · obtain ⟨id, hne, rfl⟩ := (mem_windowSamples hfin).mp hs
      exact congrArg F64.fin ((mean_eq_iff hg).mpr (h id hne).2)
    · obtain ⟨id, hne, rfl⟩ := (mem_windowSamples hfin).mp hs
      exact (h id hne).1

/-- **When a window averages the good readings.** For every sequence of reads of
a window, failed ones among them, with numbers for values: what the window
enqueues has one sample for each point, with the mean of the point's good
readings for its value and quality 0 only where there is a good one, exactly when
the readings of every point are harmless. -/
theorem averages_good_iff (ing : Ingest) {results : List (Except String (List Sample))} (tsMs : ℤ)
    (hfin : Finite (readings results)) :
    (∀ origin out, runWindow ing results tsMs = some (origin, out) → AveragesGood results out) ↔
      ∀ id, ofPoint id (readings results) ≠ [] → Harmless (ofPoint id (readings results)) := by
  rw [← averagesGood_windowSamples_iff tsMs hfin]
  by_cases hnil : (window results).entries = []
  · -- nothing was read, and nothing is enqueued
    have hout : windowSamples results tsMs = [] := by simp [windowSamples, hnil]
    have hcall : runWindow ing results tsMs = none := by simp [runWindow, hnil]
    rw [hout, hcall]
    exact iff_of_true nofun ⟨List.nodup_nil, nofun, nofun⟩
  · have hcall : runWindow ing results tsMs = some (some ing.connectorId, windowSamples results tsMs) := by
      simp [runWindow, hnil]
    rw [hcall]
    constructor
    · exact fun h => h _ _ rfl
    · rintro h origin out hout
      simp only [Option.some.injEq, Prod.mk.injEq] at hout
      exact hout.2 ▸ h

/-- What a plugin returns for a point it read, and for one it could not read. -/
def pointRead (v : ℚ) : Sample := ⟨"temp", 100, .fin v, 0, []⟩

def pointFailed : Sample := ⟨"temp", 200, .fin 0, 1, []⟩

def collected (reads : List (Except String (List Sample))) : List (Except String (List Sample)) :=
  reads.map (collectPlugin (plainIngest "temp" "plc"))

/-- Two good reads and one that failed altogether. -/
def goodReads : List (Except String (List Sample)) :=
  collected [.ok [pointRead 10], .error "timeout", .ok [pointRead 30]]

theorem averages_good_reads :
    runWindow (plainIngest "temp" "plc") goodReads 300 =
      some (some "plc", [⟨"temp", 300, .fin 20, 0, []⟩]) ∧
    AveragesGood goodReads [⟨"temp", 300, .fin 20, 0, []⟩] := by
  have hrun : runWindow (plainIngest "temp" "plc") goodReads 300 =
      some (some "plc", [⟨"temp", 300, .fin 20, 0, []⟩]) := by decide +kernel
  have hread : readings goodReads = [pointRead 10, pointRead 30] := by decide +kernel
  refine ⟨hrun, (averages_good_iff (plainIngest "temp" "plc") 300 ?_).mpr (fun id hid => ?_) _ _ hrun⟩
  · rw [hread]
    intro s hs
    simp only [List.mem_cons, List.not_mem_nil, or_false] at hs
    rcases hs with rfl | rfl
    · exact ⟨10, rfl⟩
    · exact ⟨30, rfl⟩
  · rw [hread] at hid ⊢
    have htemp : id = "temp" := by
      by_contra hne
      exact hid (by simp [ofPoint, pointRead, Ne.symm hne])
    subst htemp
    have hlen : (ofPoint "temp" [pointRead 10, pointRead 30]).length < 2 ^ 32 := by decide +kernel
    exact (harmless_iff hlen).mpr ⟨by decide +kernel, Or.inl (by decide +kernel)⟩

/-- A good read of 10 and a failed one: the window records 5 as a good value. -/
theorem placeholder_averaged :
    let results := collected [.ok [pointRead 10], .ok [pointFailed]]
    let out : List Sample := [⟨"temp", 300, .fin 5, 0, []⟩]
    runWindow (plainIngest "temp" "plc") results 300 = some (some "plc", out) ∧
      mean (good (ofPoint "temp" (readings results))) = 10 ∧ ¬ AveragesGood results out := by
  intro results out
  have hmean : mean (good (ofPoint "temp" (readings results))) = 10 := by decide +kernel
  have hg : good (ofPoint "temp" (readings results)) ≠ [] := by decide +kernel
  refine ⟨by decide +kernel, hmean, fun h => ?_⟩
  have hvalue := F64.fin.inj (h.mean _ List.mem_cons_self hg)
  rw [hmean] at hvalue
  exact absurd hvalue (by decide)

end Collect
end LymonAgent
