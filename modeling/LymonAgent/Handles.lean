/-
# Tasks and the map that holds their handles

A runtime numbers the tasks it spawns, and a task runs until it is aborted or
ends. The program keeps the handles of its tasks in a map and aborts through
it; a handle that is dropped stops nothing, so a running task whose number is in
no entry is out of reach (`Escaped`). Draining the map stops the others and only
them (`mem_running_drain`).

Key definitions: `Pool`, `Pool.spawn`, `Pool.insert`, `Pool.remove`,
`Pool.drain`, `Escaped`.
-/
import Mathlib.Data.List.Basic

namespace LymonAgent
namespace Handles

/-- The running tasks with their numbers, the next number, and the map: a key
has one entry, with the numbers of its handles. -/
structure Pool (κ τ : Type*) where
  running : List (ℕ × τ)
  next : ℕ
  held : List (κ × List ℕ)

variable {κ τ : Type*}

namespace Pool

def empty : Pool κ τ := ⟨[], 0, []⟩

def spawn (t : τ) (p : Pool κ τ) : Pool κ τ :=
  { p with running := p.running ++ [(p.next, t)], next := p.next + 1 }

def abort (hs : List ℕ) (p : Pool κ τ) : Pool κ τ :=
  { p with running := p.running.filter fun t => t.1 ∉ hs }

/-- The number is in an entry of the map. -/
def Held (p : Pool κ τ) (h : ℕ) : Prop := ∃ e ∈ p.held, h ∈ e.2

/-- Abort what the map holds and forget it. -/
def drain (p : Pool κ τ) : Pool κ τ := { p.abort (p.held.flatMap Prod.snd) with held := [] }

variable [DecidableEq κ]

/-- The handles of a key. -/
def handles (k : κ) (p : Pool κ τ) : List ℕ := (p.held.lookup k).getD []

/-- An insertion drops the handles the key had. -/
def insert (k : κ) (hs : List ℕ) (p : Pool κ τ) : Pool κ τ :=
  { p with held := (k, hs) :: p.held.filter fun e => e.1 ≠ k }

/-- Abort what a key holds and forget it. -/
def remove (k : κ) (p : Pool κ τ) : Pool κ τ :=
  { p.abort (p.handles k) with held := p.held.filter fun e => e.1 ≠ k }

end Pool

/-- The task runs and cannot be reached through the map. -/
def Escaped (p : Pool κ τ) (t : ℕ × τ) : Prop := t ∈ p.running ∧ ¬ p.Held t.1

theorem mem_running_drain {p : Pool κ τ} {t : ℕ × τ} : t ∈ p.drain.running ↔ Escaped p t := by
  simp [Pool.drain, Pool.abort, Escaped, Pool.Held]

section

variable [DecidableEq κ] {p : Pool κ τ} {k j : κ} {hs : List ℕ} {n : ℕ}

theorem lookup_filter_ne {l : List (κ × List ℕ)} (h : j ≠ k) :
    (l.filter fun e => e.1 ≠ k).lookup j = l.lookup j := by
  induction l with
  | nil => rfl
  | cons e l ih =>
    obtain ⟨i, ns⟩ := e
    by_cases hi : i = k
    · have hj : (j == i) = false := by simpa [hi] using h
      rw [List.filter_cons_of_neg (by simpa using hi), ih, List.lookup_cons, hj]
    · rw [List.filter_cons_of_pos (by simpa using hi), List.lookup_cons, List.lookup_cons, ih]

@[simp] theorem handles_insert_self : (p.insert k hs).handles k = hs := by
  simp [Pool.handles, Pool.insert]

theorem handles_insert_ne (h : j ≠ k) : (p.insert k hs).handles j = p.handles j := by
  have hj : (j == k) = false := by simpa using h
  unfold Pool.handles Pool.insert
  rw [List.lookup_cons, hj, lookup_filter_ne h]

theorem handles_remove_ne (h : j ≠ k) : (p.remove k).handles j = p.handles j := by
  unfold Pool.handles Pool.remove
  rw [lookup_filter_ne h]

theorem mem_running_remove {t : ℕ × τ} :
    t ∈ (p.remove k).running ↔ t ∈ p.running ∧ t.1 ∉ p.handles k := by
  simp [Pool.remove, Pool.abort]

/-- What a key holds, the map holds. -/
theorem held_of_mem_handles (h : n ∈ p.handles k) : p.Held n := by
  unfold Pool.handles at h
  cases hl : p.held.lookup k with
  | none => rw [hl] at h; cases h
  | some ns =>
    rw [hl] at h
    obtain ⟨l, r, he, -⟩ := List.lookup_eq_some_iff.mp hl
    exact ⟨(k, ns), by simp [he], h⟩

end

end Handles
end LymonAgent
