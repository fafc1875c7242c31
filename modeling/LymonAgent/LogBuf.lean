/-
# The log tail

`src/logbuf.rs`: a `LineWriter` keeps the bytes after the last newline it was
written, hands on each line that a newline ends, and what is left when it is
dropped; `push_line` puts a line into a ring of 500.

However a writer's bytes are cut into writes, it hands on the pieces between the
newlines (`runWriter_eq`), and the ring holds the last of the lines they make
(`foldl_pushBytes`): `tail_writers`.

Key definitions: `pushLine`, `tail`, `drain`, `runWriters`, `linesOf`.
-/
import Mathlib.Data.List.DropRight
import LymonAgent.Utf8

namespace LymonAgent
namespace LogBuf

def cap : ℕ := 500

/-! ### The buffer -/

/-- `trim_end_matches(['\n', '\r'])`. -/
def trimEnd (line : String) : String :=
  .ofList (line.toList.rdropWhile fun c => c = '\n' || c = '\r')

/-- The loop of `push_line`. -/
def makeRoom : List String → List String
  | [] => []
  | line :: ring => if cap ≤ ring.length + 1 then makeRoom ring else line :: ring

def pushLine (ring : List String) (line : String) : List String :=
  let line := trimEnd line
  if line = "" then ring else makeRoom ring ++ [line]

def tail (ring : List String) (n : ℕ) : List String :=
  let take := min n ring.length
  ring.drop (ring.length - take)

/-! ### The writer -/

/-- A line is pushed if it is UTF-8. -/
def pushBytes (ring : List String) (line : List UInt8) : List String :=
  match Utf8.decode line with
  | some s => pushLine ring s
  | none => ring

/-- The loop of `write`: the ring, and the bytes after the last newline. -/
def drain (ring : List String) (held : List UInt8) : List String × List UInt8 :=
  if 10 ∈ held then
    let pos := held.idxOf 10
    drain (pushBytes ring (held.take (pos + 1))) (held.drop (pos + 1))
  else (ring, held)
termination_by held.length
decreasing_by
  rename_i h
  have hpos := List.length_pos_of_mem h
  rw [List.length_drop]
  omega

def write (s : List String × List UInt8) (data : List UInt8) : List String × List UInt8 :=
  drain s.1 (s.2 ++ data)

/-- `drop`. -/
def flushRest (s : List String × List UInt8) : List String :=
  if s.2 = [] then s.1 else pushBytes s.1 s.2

/-- A new writer is fed its writes and dropped. -/
def runWriter (ring : List String) (writes : List (List UInt8)) : List String :=
  flushRest (writes.foldl write (ring, []))

/-- Writers used one after another, from the empty ring on. -/
def runWriters (writers : List (List (List UInt8))) : List String := writers.foldl runWriter []

/-! ### The lines of a text -/

/-- The line a piece between newlines makes. -/
def lineOf (piece : List UInt8) : Option String :=
  ((Utf8.decode piece).map trimEnd).filter (· ≠ "")

/-- What a byte string adds to the log. -/
def linesOf (bytes : List UInt8) : List String := (bytes.splitOn 10).filterMap lineOf

variable {ring : List String} {piece held rest : List UInt8}

/-! ### The ring holds the last lines -/

theorem rtake_rtake {α : Type*} (l : List α) (m n : ℕ) : (l.rtake m).rtake n = l.rtake (min n m) := by
  rw [List.rtake_eq_reverse_take_reverse, List.rtake_eq_reverse_take_reverse, List.reverse_reverse,
    List.take_take, ← List.rtake_eq_reverse_take_reverse]

theorem makeRoom_eq (ring : List String) : makeRoom ring = ring.rtake 499 := by
  induction ring with
  | nil => rfl
  | cons line ring ih =>
    rw [makeRoom, List.rtake, List.length_cons]
    by_cases h : cap ≤ ring.length + 1
    · have hsub : ring.length + 1 - 499 = ring.length - 499 + 1 := by
        rw [cap] at h
        omega
      rw [if_pos h, ih, hsub, List.drop_succ_cons, List.rtake]
    · have hsub : ring.length + 1 - 499 = 0 := by
        rw [cap] at h
        omega
      rw [if_neg h, hsub, List.drop_zero]

/-- A piece adds its line to the ring, if it makes one. -/
theorem pushBytes_eq (ring : List String) (piece : List UInt8) : pushBytes ring piece =
    match lineOf piece with
    | some line => makeRoom ring ++ [line]
    | none => ring := by
  unfold pushBytes lineOf
  cases Utf8.decode piece with
  | none => rfl
  | some s =>
    by_cases h : trimEnd s = ""
    · simp [pushLine, h, Option.filter_some]
    · simp [pushLine, h, Option.filter_some]

/-- **The ring holds the last lines of what was pushed.** -/
theorem foldl_pushBytes (pieces : List (List UInt8)) (lines : List String) :
    pieces.foldl pushBytes (lines.rtake cap) = (lines ++ pieces.filterMap lineOf).rtake cap := by
  induction pieces generalizing lines with
  | nil => rw [List.foldl_nil, List.filterMap_nil, List.append_nil]
  | cons piece pieces ih =>
    rw [List.foldl_cons, pushBytes_eq]
    cases h : lineOf piece with
    | none =>
      rw [List.filterMap_cons_none h]
      exact ih lines
    | some line =>
      have hroom : makeRoom (lines.rtake cap) ++ [line] = (lines ++ [line]).rtake cap := by
        rw [makeRoom_eq, rtake_rtake]
        exact (List.rtake_concat_succ lines 499 line).symm
      rw [List.filterMap_cons_some h, List.append_cons, ← ih]
      dsimp only
      rw [hroom]

theorem length_rtake_le {α : Type*} (l : List α) (n : ℕ) : (l.rtake n).length ≤ n := by
  rw [List.rtake, List.length_drop]
  omega

theorem tail_rtake (lines : List String) (n : ℕ) : tail (lines.rtake cap) n = lines.rtake (min n cap) := by
  have htake : tail (lines.rtake cap) n = (lines.rtake cap).rtake n := by
    rw [tail, List.rtake]
    congr 1
    omega
  rw [htake, rtake_rtake]

/-! ### The writes do not show -/

/-- A newline at the end of a piece is trimmed again. -/
theorem pushBytes_newline (ring : List String) (piece : List UInt8) :
    pushBytes ring (piece ++ [10]) = pushBytes ring piece := by
  have hdecode := Utf8.decode_snoc (c := '\n') (by decide) piece
  have htrim : ∀ s : String, trimEnd (s ++ .singleton '\n') = trimEnd s := by
    intro s
    rw [trimEnd, String.toList_append, String.toList_singleton, List.rdropWhile_concat_pos _ _ _ rfl, trimEnd]
  have hline : lineOf (piece ++ [10]) = lineOf piece := by
    unfold lineOf
    rw [show ([10] : List UInt8) = [.ofNat '\n'.toNat] from rfl, hdecode, Option.map_map]
    congr 2
    exact funext htrim
  rw [pushBytes_eq, pushBytes_eq, hline]

/-- The bytes up to the first newline, and those after it. -/
theorem take_idxOf (h : 10 ∈ held) : held.take (held.idxOf 10 + 1) = held.take (held.idxOf 10) ++ [10] := by
  rw [List.take_add_one, List.getElem?_idxOf h, Option.toList_some]

/-- What comes before the first newline is a piece of its own. -/
theorem splitOn_idxOf (h : 10 ∈ held) (rest : List UInt8) : (held ++ rest).splitOn 10 =
    held.take (held.idxOf 10) :: (held.drop (held.idxOf 10 + 1) ++ rest).splitOn 10 := by
  have hcut : held ++ rest =
      held.take (held.idxOf 10) ++ 10 :: (held.drop (held.idxOf 10 + 1) ++ rest) := by
    rw [← List.singleton_append, ← List.append_assoc, ← List.append_assoc, ← take_idxOf h,
      List.take_append_drop]
  have hfirst : 10 ∉ held.take (held.idxOf 10) := fun hmem =>
    Nat.lt_irrefl _ ((List.mem_take_iff_idxOf_lt h).mp hmem)
  rw [hcut, List.splitOn_append_cons_self, List.splitOn_eq_singleton hfirst, List.singleton_append]

/-- The loop of a write: with what is written after it, the pieces pushed are those of
the whole. -/
theorem drain_spec (ring : List String) (held : List UInt8) : 10 ∉ (drain ring held).2 ∧
    ∀ rest, (((drain ring held).2 ++ rest).splitOn 10).foldl pushBytes (drain ring held).1 =
      ((held ++ rest).splitOn 10).foldl pushBytes ring := by
  induction ring, held using drain.induct with
  | case1 ring held h pos ih =>
    rw [drain, if_pos h]
    refine ⟨ih.1, fun rest => ?_⟩
    rw [splitOn_idxOf h, List.foldl_cons, ← pushBytes_newline, ← take_idxOf h]
    exact ih.2 rest
  | case2 ring held h =>
    rw [drain, if_neg h]
    exact ⟨h, fun rest => rfl⟩

/-- The same for writes one after another. -/
theorem foldl_write (writes : List (List UInt8)) (s : List String × List UInt8) (h : 10 ∉ s.2) :
    10 ∉ (writes.foldl write s).2 ∧
    ∀ rest, (((writes.foldl write s).2 ++ rest).splitOn 10).foldl pushBytes (writes.foldl write s).1 =
      ((s.2 ++ writes.flatten ++ rest).splitOn 10).foldl pushBytes s.1 := by
  induction writes generalizing s with
  | nil =>
    refine ⟨h, fun rest => ?_⟩
    rw [List.flatten_nil, List.append_nil]
    rfl
  | cons data writes ih =>
    have hdrain := drain_spec s.1 (s.2 ++ data)
    obtain ⟨hnone, hpieces⟩ := ih (write s data) hdrain.1
    refine ⟨hnone, fun rest => ?_⟩
    rw [List.foldl_cons, hpieces, List.append_assoc, write, hdrain.2, List.flatten_cons]
    simp only [List.append_assoc]

/-- **A writer pushes the pieces of what it was written**, however it was cut. -/
theorem runWriter_eq (ring : List String) (writes : List (List UInt8)) :
    runWriter ring writes = (writes.flatten.splitOn 10).foldl pushBytes ring := by
  obtain ⟨hnone, hpieces⟩ := foldl_write writes (ring, []) List.not_mem_nil
  have hall := hpieces []
  rw [List.append_nil, List.splitOn_eq_singleton hnone, List.append_nil, List.nil_append] at hall
  rw [← hall, runWriter, flushRest, List.foldl_cons, List.foldl_nil]
  split
  · rename_i hempty
    rw [hempty]
    rfl
  · rfl

/-- What is in the ring after some writers. -/
theorem runWriters_eq (writers : List (List (List UInt8))) :
    runWriters writers = (writers.flatMap fun w => linesOf w.flatten).rtake cap := by
  have hrun : ∀ lines : List String, writers.foldl runWriter (lines.rtake cap) =
      (lines ++ writers.flatMap fun w => linesOf w.flatten).rtake cap := by
    induction writers with
    | nil =>
      intro lines
      rw [List.foldl_nil, List.flatMap_nil, List.append_nil]
    | cons w writers ih =>
      intro lines
      rw [List.foldl_cons, runWriter_eq, foldl_pushBytes, ih, List.flatMap_cons, List.append_assoc, linesOf]
  exact hrun []

/-! ### Between the writes -/

theorem length_pushBytes_le (h : ring.length ≤ cap) (piece : List UInt8) :
    (pushBytes ring piece).length ≤ cap := by
  rw [pushBytes_eq]
  split
  · have hroom := length_rtake_le ring 499
    rw [makeRoom_eq, List.length_append, List.length_singleton, cap]
    omega
  · exact h

theorem length_drain_le (h : ring.length ≤ cap) : (drain ring held).1.length ≤ cap := by
  induction ring, held using drain.induct with
  | case1 ring held hmem pos ih =>
    rw [drain, if_pos hmem]
    exact ih (length_pushBytes_le h _)
  | case2 ring held hmem =>
    rw [drain, if_neg hmem]
    exact h

theorem length_foldl_write_le (writes : List (List UInt8)) (s : List String × List UInt8)
    (h : s.1.length ≤ cap) : (writes.foldl write s).1.length ≤ cap := by
  induction writes generalizing s with
  | nil => exact h
  | cons data writes ih => exact ih (write s data) (length_drain_le h)

/-- **The log tail is the last lines, however they were written.** For all writers used
one after another, whatever bytes each was fed and however these were cut into
writes: `tail n` gives the last `min n 500` of the lines of their texts. The ring
holds no more than 500, also while another writer writes. -/
theorem tail_writers (writers : List (List (List UInt8))) (n : ℕ) :
    tail (runWriters writers) n = (writers.flatMap fun w => linesOf w.flatten).rtake (min n cap) ∧
    (runWriters writers).length ≤ cap ∧
    ∀ writes : List (List UInt8), (writes.foldl write (runWriters writers, [])).1.length ≤ cap := by
  have hlength : (runWriters writers).length ≤ cap := by
    rw [runWriters_eq]
    exact length_rtake_le _ cap
  refine ⟨?_, hlength, fun writes => length_foldl_write_le writes _ hlength⟩
  rw [runWriters_eq, tail_rtake]

end LogBuf
end LymonAgent
