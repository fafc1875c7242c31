/-
# Browsing an OPC-UA server

`browse_node` of `crates/plugin-opcua/src/main.rs` asks for the references of a
node, follows the continuation points for at most 64 more pages while the
references gathered are fewer than the budget, and then makes a node of each
reference, browsing what is no variable one level deeper on the same budget.

* `browse_pages`: against a server that answers in pages, what comes back is the
  references of the first 65 pages, as far as the budget goes;
* `browse_bounded`: against any server, each call asks for at most 64 more pages,
  the nodes that come back are what the budget went down by, and they are nested
  no deeper than asked for.

Key definitions: `paged`, `count`, `height`, `Bounded`.
-/
import LymonAgent.Plugin.OpcUa

namespace LymonAgent
namespace UaConnector

open Control (NodeId)

/-! ### Pages -/

/-- A server that has the references of the browsed node in these pages, each but the
last with a continuation point. -/
def paged (pages : List (List Reference)) (n : ℕ) : Except String (Option Page) :=
  .ok (pages[n]?.map fun refs => ⟨refs, decide (n + 1 < pages.length)⟩)

/-- The node of a reference without anything below it. -/
def leaf (r : Reference) : Sdk.Node :=
  .node r.idText r.label (if r.isVariable then "variable" else "folder") [] .null

variable {pages : List (List Reference)} {budget : ℕ}

theorem flatten_take_succ {k : ℕ} {refs : List Reference} (h : pages[k]? = some refs) :
    (pages.take (k + 1)).flatten = (pages.take k).flatten ++ refs := by
  rw [List.take_add_one, h, Option.toList_some, List.flatten_append, List.flatten_singleton]

/-- Where a first part has as many references as the whole, it has them all. -/
theorem flatten_take_of_length {k : ℕ} (h : pages.flatten.length ≤ (pages.take k).flatten.length)
    (m : ℕ) : (pages.take (k + m)).flatten = (pages.take k).flatten := by
  have hall : ∀ n, (pages.take n).flatten <+: pages.flatten := fun n =>
    ⟨(pages.drop n).flatten, by rw [← List.flatten_append, List.take_append_drop]⟩
  have hfirst : (pages.take k).flatten = pages.flatten :=
    (hall k).eq_of_length (Nat.le_antisymm (hall k).length_le h)
  have hmore : (pages.take k).flatten <+: (pages.take (k + m)).flatten :=
    ⟨((pages.drop k).take m).flatten, by rw [← List.flatten_append, ← List.take_add]⟩
  refine (hmore.eq_of_length (Nat.le_antisymm hmore.length_le ?_)).symm
  rw [hfirst]
  exact (hall (k + m)).length_le

/-- After `k` pages, `left` more are followed. -/
theorem morePages_paged (hb : pages.flatten.length ≤ budget) : ∀ (left k : ℕ) (calls : List ServiceCall),
    calls.length = k → (morePages (paged pages) budget left calls (pages.take k).flatten
      (decide (k < pages.length))).2 = (pages.take (k + left)).flatten := by
  intro left
  induction left with
  | zero =>
    intro k calls _
    rfl
  | succ left ih =>
    intro k calls hk
    unfold morePages
    by_cases hmore : k < pages.length
    · by_cases hfull : budget ≤ (pages.take k).flatten.length
      · -- the budget is used up, and so there are no references in the pages left
        simp only [hfull, decide_true, Bool.or_true, if_true]
        exact (flatten_take_of_length (Nat.le_trans hb hfull) _).symm
      · have hpage : pages[k]? = some pages[k] := List.getElem?_eq_getElem hmore
        simp only [hmore, hfull, decide_true, decide_false, Bool.not_true, Bool.or_false,
          Bool.false_eq_true, if_false, hk, paged, hpage, Option.map_some]
        rw [← flatten_take_succ hpage, ih (k + 1) _ (by rw [List.length_append, hk]; rfl), Nat.add_assoc,
          Nat.add_comm 1]
    · simp only [hmore, decide_false, Bool.not_false, Bool.true_or, if_true]
      rw [List.take_of_length_le (Nat.le_of_not_lt hmore), List.take_of_length_le (by omega)]

/-- At the last level each reference is a node, while the budget lasts. -/
theorem visit_leaves {children : NodeId → ℕ → List ServiceCall → List Sdk.Node × ℕ × List ServiceCall}
    (hc : ∀ node budget calls, children node budget calls = ([], budget, calls)) :
    ∀ (refs : List Reference) (budget : ℕ) (calls : List ServiceCall),
      (visit children refs budget calls).1 = (refs.take budget).map leaf := by
  intro refs
  induction refs with
  | nil =>
    intro budget calls
    rw [visit, List.take_nil, List.map_nil]
  | cons r refs ih =>
    intro budget calls
    cases budget with
    | zero => simp [visit]
    | succ budget =>
      by_cases hvar : r.isVariable
      · simp only [visit, Nat.succ_ne_zero, if_false, if_pos hvar, Nat.add_sub_cancel, ih, List.take_succ_cons,
          List.map_cons, leaf]
      · simp only [visit, Nat.succ_ne_zero, if_false, if_neg hvar, Nat.add_sub_cancel, hc, ih,
          List.take_succ_cons, List.map_cons, leaf]

/-- What browsing one level gives where the references fit the budget: those of the
first 65 pages. -/
theorem browseNode_paged (node : NodeId) (hb : pages.flatten.length ≤ budget) :
    (browseNode (paged pages) 1 node budget []).1 = (pages.take 65).flatten.map leaf := by
  have hprefix : (pages.take 65).flatten <+: pages.flatten :=
    ⟨(pages.drop 65).flatten, by rw [← List.flatten_append, List.take_append_drop]⟩
  have hle := Nat.le_trans hprefix.length_le hb
  unfold browseNode
  by_cases hzero : budget = 0
  · rw [if_pos hzero]
    rw [hzero] at hle
    rw [List.eq_nil_of_length_eq_zero (Nat.le_zero.mp hle)]
    rfl
  · rw [if_neg hzero]
    cases hpages : pages with
    | nil => rfl
    | cons first rest =>
      have hanswer : paged (first :: rest) 0 = .ok (some ⟨first, decide (1 < (first :: rest).length)⟩) := rfl
      have hleaf : ∀ n b c, browseNode (paged (first :: rest)) 0 n b c = ([], b, c) := fun _ _ _ => rfl
      have hmore := morePages_paged hb 64 1 [.browse node] rfl
      rw [hpages] at hmore hle
      rw [List.take_succ_cons, List.take_zero, List.flatten_singleton] at hmore
      rw [List.length_nil, hanswer]
      dsimp only
      rw [visit_leaves hleaf, List.nil_append, hmore, List.take_of_length_le hle]

/-- **Browsing loses no child within its budget and 65 pages**, and of more pages it
keeps what the first 65 have. -/
theorem browse_pages (node : NodeId) (hb : pages.flatten.length ≤ budget) :
    (browseNode (paged pages) 1 node budget []).1 = (pages.take 65).flatten.map leaf ∧
      (pages.length ≤ 65 →
        (browseNode (paged pages) 1 node budget []).1 = pages.flatten.map leaf) := by
  refine ⟨browseNode_paged node hb, fun hpages => ?_⟩
  rw [browseNode_paged node hb, List.take_of_length_le hpages]

/-- A child without anything below it. -/
def child : Reference := ⟨⟨0, .numeric 1⟩, "i=1", "a", true⟩

theorem browse_pages_two :
    (browseNode (paged [[child], [child]]) 1 ⟨0, .numeric 0⟩ 2 []).1 = [leaf child, leaf child] :=
  (browse_pages ⟨0, .numeric 0⟩ (show [[child], [child]].flatten.length ≤ 2 by decide)).2 (by decide)

/-- 66 pages of one child each: the last is dropped, whatever is left of the budget. -/
theorem not_browse_all_pages : ¬ ∀ (pages : List (List Reference)) (node : NodeId) (budget : ℕ),
    (∀ refs ∈ pages, refs ≠ []) → pages.flatten.length ≤ budget →
      (browseNode (paged pages) 1 node budget []).1 = pages.flatten.map leaf := by
  intro h
  have hnodes := h (List.replicate 66 [child]) ⟨0, .numeric 0⟩ 1000
    (fun refs hrefs => by rw [List.eq_of_mem_replicate hrefs]; exact List.cons_ne_nil _ _) (by decide)
  rw [browseNode_paged _ (by decide)] at hnodes
  exact absurd (congrArg List.length hnodes) (by decide)

/-! ### Any server -/

mutual

/-- The nodes in a tree. -/
def nodeCount : Sdk.Node → ℕ
  | .node _ _ _ children _ => count children + 1

def count : List Sdk.Node → ℕ
  | [] => 0
  | n :: ns => nodeCount n + count ns

end

mutual

def nodeHeight : Sdk.Node → ℕ
  | .node _ _ _ children _ => height children + 1

def height : List Sdk.Node → ℕ
  | [] => 0
  | n :: ns => max (nodeHeight n) (height ns)

end

/-- The calls of so many browsed nodes: for each a Browse and up to 64 BrowseNext. -/
inductive Bursts : ℕ → List ServiceCall → Prop
  | nil : Bursts 0 []
  | cons {n next : ℕ} {calls : List ServiceCall} (node : NodeId) (h : next ≤ 64) (hs : Bursts n calls) :
      Bursts (n + 1) (.browse node :: List.replicate next .browseNext ++ calls)

theorem Bursts.append {n m : ℕ} {calls calls' : List ServiceCall} (h : Bursts n calls)
    (h' : Bursts m calls') : Bursts (n + m) (calls ++ calls') := by
  induction h with
  | nil => rwa [Nat.zero_add, List.nil_append]
  | cons node hnext _ ih =>
    rw [List.append_assoc, Nat.add_right_comm]
    exact .cons node hnext ih

theorem Bursts.length_le {n : ℕ} {calls : List ServiceCall} (h : Bursts n calls) :
    calls.length ≤ 65 * n := by
  induction h with
  | nil => exact Nat.le_refl 0
  | cons node hnext _ ih =>
    rw [List.length_append, List.length_cons, List.length_replicate]
    omega

/-- What browsing to a depth and on a budget may come to: the nodes are what the
budget went down by, they are nested no deeper, and the calls made are those of no
more nodes than there are, and `slack` others. -/
structure Bounded (depth budget slack : ℕ) (calls : List ServiceCall)
    (r : List Sdk.Node × ℕ × List ServiceCall) : Prop where
  count_eq : count r.1 + r.2.1 = budget
  height_le : height r.1 ≤ depth
  calls_eq : ∃ n made, r.2.2 = calls ++ made ∧ Bursts n made ∧ n ≤ count r.1 + slack

/-- The calls for the pages after the first. -/
theorem morePages_calls (answer : ℕ → Except String (Option Page)) (budget : ℕ) :
    ∀ (left : ℕ) (calls : List ServiceCall) (refs : List Reference) (more : Bool),
      ∃ next ≤ left, (morePages answer budget left calls refs more).1 =
        calls ++ List.replicate next .browseNext := by
  intro left
  induction left with
  | zero =>
    intro calls refs more
    exact ⟨0, Nat.le_refl 0, (List.append_nil calls).symm⟩
  | succ left ih =>
    intro calls refs more
    unfold morePages
    split
    · exact ⟨0, Nat.zero_le _, (List.append_nil calls).symm⟩
    · split
      · rename_i page _
        obtain ⟨next, hnext, heq⟩ := ih (calls ++ [.browseNext]) (refs ++ page.refs) page.more
        refine ⟨next + 1, Nat.succ_le_succ hnext, ?_⟩
        rw [heq, List.append_assoc, List.replicate_succ, List.singleton_append]
      · exact ⟨1, Nat.succ_le_succ (Nat.zero_le _), rfl⟩

/-- No references are visited, or none with the budget used up. -/
theorem bounded_nil (depth budget slack : ℕ) (calls : List ServiceCall) :
    Bounded depth budget slack calls ([], budget, calls) :=
  ⟨by rw [count, Nat.zero_add], by rw [height]; exact Nat.zero_le _,
    0, [], (List.append_nil calls).symm, .nil, Nat.zero_le _⟩

/-- Visiting makes a node of each reference, and what is browsed below a node is one
call of `children`. -/
theorem bounded_visit {children : NodeId → ℕ → List ServiceCall → List Sdk.Node × ℕ × List ServiceCall}
    {depth : ℕ} (hc : ∀ node budget calls, Bounded depth budget 1 calls (children node budget calls)) :
    ∀ (refs : List Reference) (budget : ℕ) (calls : List ServiceCall),
      Bounded (depth + 1) budget 0 calls (visit children refs budget calls) := by
  intro refs
  induction refs with
  | nil => exact fun budget calls => bounded_nil _ budget 0 calls
  | cons r refs ih =>
    intro budget calls
    unfold visit
    by_cases hzero : budget = 0
    · rw [if_pos hzero]
      exact bounded_nil _ budget 0 calls
    · rw [if_neg hzero]
      by_cases hvar : r.isVariable
      · rw [if_pos hvar]
        have hrest := ih (budget - 1) calls
        generalize visit children refs (budget - 1) calls = rest at hrest ⊢
        obtain ⟨nodes, left, log⟩ := rest
        obtain ⟨hcount, hheight, n, made, hcalls, hmade, hn⟩ := hrest
        dsimp only at hcount hheight hcalls hn ⊢
        refine ⟨?_, ?_, n, made, hcalls, hmade, ?_⟩
        · simp only [count, nodeCount]
          omega
        · simp only [height, nodeHeight]
          omega
        · simp only [count, nodeCount]
          omega
      · rw [if_neg hvar]
        have hkids := hc r.id (budget - 1) calls
        generalize children r.id (budget - 1) calls = kids at hkids ⊢
        obtain ⟨kids, between, log⟩ := kids
        have hrest := ih between log
        dsimp only
        generalize visit children refs between log = rest at hrest ⊢
        obtain ⟨nodes, left, log'⟩ := rest
        obtain ⟨hcount, hheight, n, made, hcalls, hmade, hn⟩ := hkids
        obtain ⟨hcount', hheight', n', made', hcalls', hmade', hn'⟩ := hrest
        dsimp only at hcount hheight hcalls hn hcount' hheight' hcalls' hn' ⊢
        refine ⟨?_, ?_, n + n', made ++ made', ?_, hmade.append hmade', ?_⟩
        · simp only [count, nodeCount]
          omega
        · simp only [height, nodeHeight]
          omega
        · rw [hcalls', hcalls, List.append_assoc]
        · simp only [count, nodeCount]
          omega

/-- One level below the other, with a call for each that is browsed. -/
theorem bounded_browseNode (answer : ℕ → Except String (Option Page)) :
    ∀ (depth : ℕ) (node : NodeId) (budget : ℕ) (calls : List ServiceCall),
      Bounded depth budget 1 calls (browseNode answer depth node budget calls) := by
  intro depth
  induction depth with
  | zero => exact fun node budget calls => bounded_nil 0 budget 1 calls
  | succ depth ih =>
    intro node budget calls
    have hone : Bounded (depth + 1) budget 1 calls ([], budget, calls ++ [.browse node]) :=
      ⟨by rw [count, Nat.zero_add], by rw [height]; exact Nat.zero_le _,
        1, [.browse node], rfl, .cons node (Nat.zero_le 64) .nil, Nat.le_add_left 1 _⟩
    unfold browseNode
    by_cases hzero : budget = 0
    · rw [if_pos hzero]
      exact bounded_nil _ budget 1 calls
    · rw [if_neg hzero]
      split
      · exact hone
      · exact hone
      · rename_i page _
        have hpages := morePages_calls answer budget 64 (calls ++ [.browse node]) page.refs page.more
        generalize morePages answer budget 64 (calls ++ [.browse node]) page.refs page.more = more at hpages ⊢
        obtain ⟨next, hnext, hmore⟩ := hpages
        obtain ⟨hcount, hheight, n, made, hcalls, hmade, hn⟩ := bounded_visit ih more.2 budget more.1
        refine ⟨hcount, hheight, n + 1, _, ?_, .cons node hnext hmade, Nat.succ_le_succ hn⟩
        refine hcalls.trans ?_
        rw [hmore, List.append_assoc, List.append_assoc, List.singleton_append, List.cons_append]

/-- **Browsing ends within its budget and depth, whatever the server answers**, and so
with a bounded number of calls. -/
theorem browse_bounded (answer : ℕ → Except String (Option Page)) (depth : ℕ) (node : NodeId) (budget : ℕ)
    (calls : List ServiceCall) :
    Bounded depth budget 1 calls (browseNode answer depth node budget calls) ∧
      (browseNode answer depth node budget calls).2.2.length ≤ calls.length + 65 * (budget + 1) := by
  have hbounded := bounded_browseNode answer depth node budget calls
  refine ⟨hbounded, ?_⟩
  obtain ⟨hcount, -, n, made, hcalls, hmade, hn⟩ := hbounded
  have hlength := hmade.length_le
  rw [hcalls, List.length_append]
  omega

end UaConnector
end LymonAgent
