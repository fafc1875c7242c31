/-
# Runs of a guarded transition system

A system is a partial step function `step : σ → ε → Option σ`: `step s e` is
the state the event `e` leads to from `s`, and `none` says that `e` cannot
happen there. A run is a list of events (`run`), and what a run keeps is said
by six rules:

* `inv_run`: what every step keeps, every run keeps;
* `each_run`: what every step that meets a condition keeps, every run of such
  steps keeps;
* `each_iff_run`: an invariant that a step keeps exactly when it meets a
  condition holds all along a run exactly when every step meets it;
* `hist_run`: the same for a property of the state and of the events so far;
* `unless_run`: what holds until a step of a certain kind holds at the end, or
  the run took such a step;
* `sim_run`: a map that sends every step of one system to a run of another
  sends runs to runs.
-/
import Mathlib.Data.List.Induction

namespace LymonAgent
namespace Runs

variable {σ ε : Type*} (step : σ → ε → Option σ)

/-- The state after the events `es`, if each of them could happen. -/
def run (s : σ) : List ε → Option σ
  | [] => some s
  | e :: es => (step s e).bind fun t => run t es

/-- In the run `es` from `s₀`, the event `e` came after the events `pre` and
took `s` to `t`. -/
structure Took (s₀ : σ) (es pre : List ε) (s : σ) (e : ε) (t : σ) : Prop where
  split : ∃ post, es = pre ++ e :: post
  before : run step s₀ pre = some s
  taken : step s e = some t

/-- Every step of the run `es` from `s` is taken where `P` allows it. -/
def Each (P : σ → ε → Prop) (s : σ) : List ε → Prop
  | [] => True
  | e :: es => P s e ∧ ∀ t ∈ step s e, Each P t es

instance decidableEach (P : σ → ε → Prop) [∀ s e, Decidable (P s e)] (s : σ) :
    (es : List ε) → Decidable (Each step P s es)
  | [] => isTrue trivial
  | e :: es =>
    have : ∀ t, Decidable (Each step P t es) := fun t => decidableEach P t es
    inferInstanceAs (Decidable (P s e ∧ ∀ t ∈ step s e, Each step P t es))

variable {step}

theorem run_cons {s t : σ} {e : ε} {es : List ε} :
    run step s (e :: es) = some t ↔ ∃ u, step s e = some u ∧ run step u es = some t := by
  simp [run, Option.bind_eq_some_iff]

theorem run_append {s t : σ} {es fs : List ε} :
    run step s (es ++ fs) = some t ↔ ∃ u, run step s es = some u ∧ run step u fs = some t := by
  induction es generalizing s with
  | nil => simp [run]
  | cons e es ih =>
    simp only [List.cons_append, run_cons, ih]
    constructor
    · rintro ⟨u, h1, v, h2, h3⟩
      exact ⟨v, ⟨u, h1, h2⟩, h3⟩
    · rintro ⟨v, ⟨u, h1, h2⟩, h3⟩
      exact ⟨u, h1, v, h2, h3⟩

theorem run_snoc {s t : σ} {es : List ε} {e : ε} :
    run step s (es ++ [e]) = some t ↔ ∃ u, run step s es = some u ∧ step u e = some t := by
  simp [run_append, run]

/-- The events after a step lead on from the state it reached. -/
theorem run_after {s₀ s t u : σ} {pre post : List ε} {e : ε} (hb : run step s₀ pre = some s)
    (ht : step s e = some t) (h : run step s₀ (pre ++ e :: post) = some u) :
    run step t post = some u := by
  obtain ⟨s', h1, h2⟩ := run_append.mp h
  obtain rfl : s' = s := Option.some.inj (h1.symm.trans hb)
  obtain ⟨t', h3, h4⟩ := run_cons.mp h2
  obtain rfl : t' = t := Option.some.inj (h3.symm.trans ht)
  exact h4

theorem Took.rest {s₀ s t u : σ} {es pre : List ε} {e : ε} (h : Took step s₀ es pre s e t)
    (hr : run step s₀ es = some u) : ∃ post, es = pre ++ e :: post ∧ run step t post = some u := by
  obtain ⟨⟨post, rfl⟩, hb, ht⟩ := h
  exact ⟨post, rfl, run_after hb ht hr⟩

theorem Took.mono {s₀ s t : σ} {es fs pre : List ε} {e : ε} (h : Took step s₀ es pre s e t) :
    Took step s₀ (es ++ fs) pre s e t := by
  obtain ⟨⟨post, rfl⟩, hb, ht⟩ := h
  exact ⟨⟨post ++ fs, by simp⟩, hb, ht⟩

/-- Two steps of one run are the same step, or one comes after the other. -/
theorem Took.order {s₀ s s' t t' : σ} {es pre pre' : List ε} {e e' : ε}
    (h : Took step s₀ es pre s e t) (h' : Took step s₀ es pre' s' e' t') :
    (s = s' ∧ e = e' ∧ t = t') ∨ (∃ mid, run step t mid = some s') ∨
      ∃ mid, run step t' mid = some s := by
  obtain ⟨⟨post, rfl⟩, hb, ht⟩ := h
  obtain ⟨⟨post', hp⟩, hb', ht'⟩ := h'
  have hsame : pre = pre' → e = e' → s = s' ∧ e = e' ∧ t = t' := by
    rintro rfl rfl
    obtain rfl : s = s' := Option.some.inj (hb.symm.trans hb')
    exact ⟨rfl, rfl, Option.some.inj (ht.symm.trans ht')⟩
  rcases List.append_eq_append_iff.mp hp with ⟨l, h1, h2⟩ | ⟨l, h1, h2⟩
  · cases l with
    | nil =>
      simp only [List.append_nil, List.nil_append, List.cons.injEq] at h1 h2
      exact Or.inl (hsame h1.symm h2.1)
    | cons x l =>
      simp only [List.cons_append, List.cons.injEq] at h2
      obtain ⟨rfl, -⟩ := h2
      exact Or.inr (Or.inl ⟨l, run_after hb ht (h1 ▸ hb')⟩)
  · cases l with
    | nil =>
      simp only [List.append_nil, List.nil_append, List.cons.injEq] at h1 h2
      exact Or.inl (hsame h1 h2.1.symm)
    | cons x l =>
      simp only [List.cons_append, List.cons.injEq] at h2
      obtain ⟨rfl, -⟩ := h2
      exact Or.inr (Or.inr ⟨l, run_after hb' ht' (h1 ▸ hb)⟩)

/-- What every step keeps, every run keeps. -/
theorem inv_run {P : σ → Prop} (hstep : ∀ s e t, P s → step s e = some t → P t) :
    ∀ {es : List ε} {s t : σ}, P s → run step s es = some t → P t
  | [], s, t, hs, h => by
    obtain rfl : s = t := Option.some.inj h
    exact hs
  | e :: es, s, t, hs, h => by
    obtain ⟨u, h1, h2⟩ := run_cons.mp h
    exact inv_run hstep (hstep s e u hs h1) h2

theorem Each.left {P : σ → ε → Prop} :
    ∀ {es fs : List ε} {s : σ}, Each step P s (es ++ fs) → Each step P s es
  | [], _, _, _ => trivial
  | _ :: _, _, _, h => ⟨h.1, fun t ht => Each.left (h.2 t ht)⟩

theorem Each.and {P Q : σ → ε → Prop} :
    ∀ {es : List ε} {s : σ}, Each step P s es → Each step Q s es → Each step (fun s e => P s e ∧ Q s e) s es
  | [], _, _, _ => trivial
  | _ :: _, _, hp, hq => ⟨⟨hp.1, hq.1⟩, fun t ht => Each.and (hp.2 t ht) (hq.2 t ht)⟩

/-- A condition that the events meet in every state. -/
theorem each_of_mem {P : σ → ε → Prop} :
    ∀ {es : List ε} {s : σ}, (∀ e ∈ es, ∀ s, P s e) → Each step P s es
  | [], _, _ => trivial
  | e :: _, _, h =>
    ⟨h e List.mem_cons_self _, fun _ _ => each_of_mem fun d hd => h d (List.mem_cons_of_mem e hd)⟩

/-- A step that was taken met the condition. -/
theorem Each.took {P : σ → ε → Prop} : ∀ {es pre : List ε} {s₀ s t : σ} {e : ε},
    Each step P s₀ es → Took step s₀ es pre s e t → P s e
  | [], pre, _, _, _, _, _, h => by
    obtain ⟨post, hpost⟩ := h.split
    simp at hpost
  | e :: es, [], _, _, _, _, hp, h => by
    obtain ⟨post, hpost⟩ := h.split
    obtain ⟨rfl, -⟩ := List.cons.inj hpost
    obtain rfl := Option.some.inj h.before
    exact hp.1
  | e :: es, _ :: pre, _, _, _, _, hp, h => by
    obtain ⟨post, hpost⟩ := h.split
    obtain ⟨rfl, rfl⟩ := List.cons.inj hpost
    obtain ⟨u, hu, hbefore⟩ := run_cons.mp h.before
    exact Each.took (hp.2 u hu) ⟨⟨post, rfl⟩, hbefore, h.taken⟩

theorem each_run {I : σ → Prop} {P : σ → ε → Prop}
    (hstep : ∀ s e t, I s → P s e → step s e = some t → I t) :
    ∀ {es : List ε} {s t : σ}, Each step P s es → I s → run step s es = some t → I t
  | [], s, t, _, hs, h => by
    obtain rfl : s = t := Option.some.inj h
    exact hs
  | e :: es, s, t, hp, hs, h => by
    obtain ⟨u, h1, h2⟩ := run_cons.mp h
    exact each_run hstep (hp.2 u h1) (hstep s e u hs hp.1 h1) h2

theorem each_iff_run {I : σ → Prop} {P : σ → ε → Prop}
    (hstep : ∀ s e t, I s → step s e = some t → (I t ↔ P s e))
    (hstuck : ∀ s e, step s e = none → P s e) :
    ∀ {es : List ε} {s : σ}, I s →
      ((∀ pre, pre <+: es → ∀ t, run step s pre = some t → I t) ↔ Each step P s es)
  | [], s, hs => by
    refine iff_of_true (fun pre hpre t h => ?_) trivial
    obtain rfl := List.prefix_nil.mp hpre
    obtain rfl : s = t := Option.some.inj h
    exact hs
  | e :: es, s, hs => by
    constructor
    · intro h
      have hP : P s e := by
        cases he : step s e with
        | none => exact hstuck s e he
        | some t =>
          refine (hstep s e t hs he).mp (h [e] ⟨es, rfl⟩ t ?_)
          exact run_cons.mpr ⟨t, he, rfl⟩
      refine ⟨hP, fun t ht => (each_iff_run hstep hstuck ((hstep s e t hs ht).mpr hP)).mp ?_⟩
      intro pre hpre u hu
      exact h (e :: pre) ((List.prefix_cons_inj e).mpr hpre) u (run_cons.mpr ⟨t, ht, hu⟩)
    · rintro heach pre ⟨post, hpost⟩ u hu
      rw [← hpost] at heach
      exact each_run (fun v e' w hv hP hw => (hstep v e' w hv hw).mpr hP) heach.left hs hu

/-- The same as `inv_run` for a property of the events so far and the state they lead to. -/
theorem hist_run {P : List ε → σ → Prop} {s₀ : σ} (h0 : P [] s₀)
    (hstep : ∀ es s e t, run step s₀ es = some s → P es s → step s e = some t → P (es ++ [e]) t)
    {es : List ε} {s : σ} (h : run step s₀ es = some s) : P es s := by
  induction es using List.reverseRecOn generalizing s with
  | nil =>
    obtain rfl : s₀ = s := Option.some.inj h
    exact h0
  | append_singleton es e ih =>
    obtain ⟨u, h1, h2⟩ := run_snoc.mp h
    exact hstep es u e s h1 (ih h1) h2

/-- A property that only a step `Q` can end: it holds after the run, or the
run took such a step. `I` is an invariant the argument may use. -/
theorem unless_run {P I : σ → Prop} {Q : σ → ε → σ → Prop}
    (hinv : ∀ s e t, I s → step s e = some t → I t)
    (hstep : ∀ s e t, I s → step s e = some t → P s → P t ∨ Q s e t) {s₀ : σ} :
    ∀ {pre post : List ε} {s u : σ}, I s → run step s₀ pre = some s → P s →
      run step s post = some u →
      P u ∨ ∃ mid v e w, Took step s₀ (pre ++ post) (pre ++ mid) v e w ∧ I v ∧ P v ∧ Q v e w
  | _, [], s, u, _, _, hP, h => by
    obtain rfl : s = u := Option.some.inj h
    exact Or.inl hP
  | pre, e :: post, s, u, hI, hpre, hP, h => by
    obtain ⟨t, h1, h2⟩ := run_cons.mp h
    rcases hstep s e t hI h1 hP with hP' | hQ
    · have hpre' : run step s₀ (pre ++ [e]) = some t := run_snoc.mpr ⟨s, hpre, h1⟩
      rcases unless_run hinv hstep (hinv s e t hI h1) hpre' hP' h2 with h | ⟨mid, v, e', w, h, hv⟩
      · exact Or.inl h
      · exact Or.inr ⟨e :: mid, v, e', w, by simpa using h, hv⟩
    · exact Or.inr ⟨[], s, e, t, ⟨⟨post, by simp⟩, by simpa using hpre, h1⟩, hI, hP, hQ⟩

/-- A map that sends each step of one system to a run of another sends its
runs to runs. -/
theorem sim_run {τ δ : Type*} {step' : τ → δ → Option τ} (f : σ → τ)
    (hstep : ∀ s e t, step s e = some t → ∃ ds, run step' (f s) ds = some (f t)) :
    ∀ {es : List ε} {s t : σ}, run step s es = some t → ∃ ds, run step' (f s) ds = some (f t)
  | [], s, t, h => by
    obtain rfl : s = t := Option.some.inj h
    exact ⟨[], rfl⟩
  | e :: es, s, t, h => by
    obtain ⟨u, h1, h2⟩ := run_cons.mp h
    obtain ⟨ds, hd⟩ := hstep s e u h1
    obtain ⟨ds', hd'⟩ := sim_run f hstep h2
    exact ⟨ds ++ ds', run_append.mpr ⟨f u, hd, hd'⟩⟩

end Runs
end LymonAgent
