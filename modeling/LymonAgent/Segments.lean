/-
# Segments of a path

A path as the segments between its slashes, and what its normalisation leaves of
them: a single dot goes, and a double dot goes with the segment before it. A path
is as its normalisation leaves it if and only if no segment is of dots
(`normalize_eq_self_iff`).
-/
import Mathlib.Data.List.Basic

namespace LymonAgent
namespace Segments

def IsDots (s : String) : Prop := s = "." ∨ s = ".."

instance : DecidablePred IsDots := fun s => inferInstanceAs (Decidable (s = "." ∨ s = ".."))

/-- The segments left, after those in `done`, the last of them first. A path that ends
in dots ends in a slash. -/
def removeDots : List String → List String → List String
  | done, [] => done.reverse
  | done, [s] =>
    if s = "." then ("" :: done).reverse
    else if s = ".." then ("" :: done.tail).reverse
    else (s :: done).reverse
  | done, s :: t :: l =>
    if s = "." then removeDots done (t :: l)
    else if s = ".." then removeDots done.tail (t :: l)
    else removeDots (s :: done) (t :: l)

def normalize (l : List String) : List String := removeDots [] l

variable {l done : List String} {s : String}

/-- Dots that are not among the segments done are not among those left. -/
theorem not_isDots_of_mem_removeDots (hdone : ∀ s ∈ done, ¬IsDots s) :
    ∀ s ∈ removeDots done l, ¬IsDots s := by
  have hrev : ∀ {d : List String}, (∀ s ∈ d, ¬IsDots s) → ∀ s ∈ d.reverse, ¬IsDots s :=
    fun h s hs => h s (List.mem_reverse.mp hs)
  have htail : ∀ {d : List String}, (∀ s ∈ d, ¬IsDots s) → ∀ s ∈ d.tail, ¬IsDots s :=
    fun h s hs => h s (List.mem_of_mem_tail hs)
  have hcons : ∀ {d : List String} {t : String}, ¬IsDots t → (∀ s ∈ d, ¬IsDots s) → ∀ s ∈ t :: d, ¬IsDots s :=
    fun ht h => List.forall_mem_cons.mpr ⟨ht, h⟩
  fun_induction removeDots done l with
  | case1 done => exact hrev hdone
  | case2 done => exact hrev (hcons (by decide) hdone)
  | case3 done => exact hrev (hcons (by decide) (htail hdone))
  | case4 done s h1 h2 => exact hrev (hcons (not_or_intro h1 h2) hdone)
  | case5 done t l ih => exact ih hdone
  | case6 done t l h ih => exact ih (htail hdone)
  | case7 done s t l h1 h2 ih => exact ih (hcons (not_or_intro h1 h2) hdone)

theorem removeDots_eq (h : ∀ s ∈ l, ¬IsDots s) : removeDots done l = done.reverse ++ l := by
  fun_induction removeDots done l with
  | case1 done => exact (List.append_nil _).symm
  | case2 done => exact absurd (Or.inl rfl) (h _ List.mem_cons_self)
  | case3 done => exact absurd (Or.inr rfl) (h _ List.mem_cons_self)
  | case4 done s h1 h2 => exact List.reverse_cons
  | case5 done t l ih => exact absurd (Or.inl rfl) (h _ List.mem_cons_self)
  | case6 done t l h1 ih => exact absurd (Or.inr rfl) (h _ List.mem_cons_self)
  | case7 done s t l h1 h2 ih =>
    rw [ih fun u hu => h u (List.mem_cons_of_mem s hu), List.reverse_cons, List.append_assoc,
      List.singleton_append]

/-- **Normalisation changes exactly the paths with dots.** -/
theorem normalize_eq_self_iff : normalize l = l ↔ ∀ s ∈ l, ¬IsDots s := by
  constructor
  · intro h s hs
    rw [← h] at hs
    exact not_isDots_of_mem_removeDots (List.forall_mem_nil _) s hs
  · exact fun h => removeDots_eq h

end Segments
end LymonAgent
