/-
# A bounded queue of many senders

Many senders share a queue with one receiver. A sender makes a message and waits
with it until there is room, and makes no other meanwhile; those that wait are let
in in any order. The receiver takes the messages from the front, until it stops: then
the queue is lost, and whoever waits goes on as if the message were sent. A sender
may be cancelled while it waits, and is heard of no more.

`Kept` is what every step keeps: the queue has its bound, nobody waits twice, and
what has come out of each sender is the beginning of what it made, in order; what
has not come out is still on its way, as long as the receiver runs and the sender is
not cancelled. A queue with room for a message can always be drained (`drains`).

Some senders are tasks with one request each, which make one message, when they are
done: `Answers` says so of the tasks of one kind.

Key definitions: `Mailbox`, `Mailbox.step`, `Mailbox.Kept`, `Mailbox.Answers`.
Key theorems: `kept_run`, `drains`, `Answers.done`, `Answers.out`, `Answers.drained`.
-/
import LymonAgent.Runs
import Mathlib.Data.List.Nodup

namespace LymonAgent

open Runs

/-- The messages made so far, in order; those whose senders wait; those in the queue;
those the receiver took; whether it runs; and the senders that were cancelled. -/
structure Mailbox (σ α : Type*) where
  made : List (σ × α)
  waiting : List (σ × α)
  queue : List (σ × α)
  out : List (σ × α)
  live : Bool
  cancelled : List σ

namespace Mailbox

variable {σ α : Type*}

/-- A queue with one message in it. -/
def start (x : σ × α) : Mailbox σ α := ⟨[x], [], [x], [], true, []⟩

/-- The `k`-th of the waiting senders goes on: its message is in the queue, or lost. -/
def accept (cap : ℕ) (b : Mailbox σ α) (k : ℕ) : Option (Mailbox σ α) :=
  match b.waiting[k]? with
  | none => none
  | some x =>
    if b.live then
      if b.queue.length < cap then
        some { b with waiting := b.waiting.eraseIdx k, queue := b.queue ++ [x] }
      else none
    else some { b with waiting := b.waiting.eraseIdx k }

def deliver (b : Mailbox σ α) : Option (Mailbox σ α) :=
  match b.queue with
  | [] => none
  | x :: q => some { b with queue := q, out := b.out ++ [x] }

/-- The receiver stops. -/
def stop (b : Mailbox σ α) : Mailbox σ α := { b with live := false, queue := [] }

variable {cap : ℕ} {b b' : Mailbox σ α}

theorem made_accept {k : ℕ} (h : b.accept cap k = some b') : b'.made = b.made := by
  unfold Mailbox.accept at h
  split at h
  · cases h
  · split at h
    · split at h
      · obtain rfl := Option.some.inj h
        rfl
      · cases h
    · obtain rfl := Option.some.inj h
      rfl

theorem made_deliver (h : b.deliver = some b') : b'.made = b.made := by
  unfold Mailbox.deliver at h
  split at h
  · cases h
  · obtain rfl := Option.some.inj h
    rfl

variable [DecidableEq σ]

/-- A sender that does not wait makes a message. -/
def post (b : Mailbox σ α) (who : σ) (m : α) : Option (Mailbox σ α) :=
  if who ∈ b.waiting.map Prod.fst ∨ who ∈ b.cancelled then none
  else some { b with made := b.made ++ [(who, m)], waiting := b.waiting ++ [(who, m)] }

/-- The senders `gone` are cancelled. -/
def cancel (b : Mailbox σ α) (gone : List σ) : Mailbox σ α :=
  { b with waiting := b.waiting.filter (·.1 ∉ gone), cancelled := b.cancelled ++ gone }

inductive Event (σ α : Type*) where
  | post (who : σ) (m : α)
  | cancel (gone : List σ)
  | stop
  | accept (k : ℕ)
  | deliver

def step (cap : ℕ) (b : Mailbox σ α) : Event σ α → Option (Mailbox σ α)
  | .post who m => b.post who m
  | .cancel gone => some (b.cancel gone)
  | .stop => some b.stop
  | .accept k => b.accept cap k
  | .deliver => b.deliver

/-- The messages of one sender. -/
def sent (who : σ) (l : List (σ × α)) : List (σ × α) := l.filter (·.1 = who)

@[simp] theorem sent_nil (who : σ) : sent who ([] : List (σ × α)) = [] := rfl

@[simp] theorem sent_append (who : σ) (l l' : List (σ × α)) :
    sent who (l ++ l') = sent who l ++ sent who l' := List.filter_append _ _

theorem sent_eq_nil {who : σ} {l : List (σ × α)} : sent who l = [] ↔ who ∉ l.map Prod.fst := by
  simp only [sent, List.filter_eq_nil_iff, decide_eq_true_eq, List.mem_map, not_exists, not_and]

/-- What every step keeps. -/
structure Kept (cap : ℕ) (b : Mailbox σ α) : Prop where
  bound : b.queue.length ≤ cap
  once : (b.waiting.map Prod.fst).Nodup
  fresh : ∀ x ∈ b.waiting, x.1 ∉ b.cancelled
  order : ∀ who, sent who (b.out ++ b.queue) <+: sent who b.made
  whole : b.live = true → ∀ who, who ∉ b.cancelled →
    sent who (b.out ++ b.queue) ++ sent who b.waiting = sent who b.made
  ended : b.live = false → b.queue = []

variable {who : σ} {m : α}

theorem made_post (h : b.post who m = some b') :
    b'.made = b.made ++ [(who, m)] ∧ b'.cancelled = b.cancelled ∧ b'.live = b.live := by
  unfold Mailbox.post at h
  split at h
  · cases h
  · obtain rfl := Option.some.inj h
    exact ⟨rfl, rfl, rfl⟩

theorem Kept.start (x : σ × α) (hcap : 0 < cap) : Kept cap (start x) where
  bound := hcap
  once := List.nodup_nil
  fresh := fun _ hx => absurd hx List.not_mem_nil
  order := fun _ => List.prefix_refl _
  whole := fun _ _ _ => List.append_nil _
  ended := fun h => Bool.noConfusion h

theorem Kept.post (hb : Kept cap b) (h : b.post who m = some b') : Kept cap b' := by
  unfold Mailbox.post at h
  by_cases hw : who ∈ b.waiting.map Prod.fst ∨ who ∈ b.cancelled
  · rw [if_pos hw] at h
    cases h
  · rw [if_neg hw] at h
    obtain rfl := Option.some.inj h
    obtain ⟨hwait, hcancelled⟩ := not_or.mp hw
    refine ⟨hb.bound, ?_, ?_, fun other => ?_, fun hlive other hother => ?_, hb.ended⟩
    · rw [List.map_append, List.map_singleton]
      exact hb.once.append (List.nodup_singleton _) (List.disjoint_singleton.mpr hwait)
    · exact List.forall_mem_append.mpr ⟨hb.fresh, List.forall_mem_singleton.mpr hcancelled⟩
    · rw [sent_append other b.made]
      exact (hb.order other).trans (List.prefix_append _ _)
    · rw [sent_append other b.made, sent_append other b.waiting, ← List.append_assoc,
        hb.whole hlive other hother]

theorem Kept.deliver (hb : Kept cap b) (h : b.deliver = some b') : Kept cap b' := by
  unfold Mailbox.deliver at h
  cases hq : b.queue with
  | nil =>
    rw [hq] at h
    cases h
  | cons x q =>
    rw [hq] at h
    obtain rfl := Option.some.inj h
    have hsame : ∀ who, sent who (b.out ++ [x] ++ q) = sent who (b.out ++ b.queue) := fun who => by
      rw [hq, List.append_assoc]
      rfl
    have hbound := hb.bound
    rw [hq, List.length_cons] at hbound
    refine ⟨Nat.le_of_succ_le hbound, hb.once, hb.fresh, fun who => ?_, fun hlive who hwho => ?_,
      fun hlive => ?_⟩
    · rw [hsame]
      exact hb.order who
    · rw [hsame]
      exact hb.whole hlive who hwho
    · have hnone := hb.ended hlive
      rw [hq] at hnone
      cases hnone

theorem Kept.stop (hb : Kept cap b) : Kept cap b.stop where
  bound := Nat.zero_le cap
  once := hb.once
  fresh := hb.fresh
  order := fun who => by
    have hprefix : sent who (b.out ++ []) <+: sent who (b.out ++ b.queue) := by
      rw [sent_append who b.out b.queue, List.append_nil]
      exact List.prefix_append _ _
    exact hprefix.trans (hb.order who)
  whole := fun h => absurd h (by simp [Mailbox.stop])
  ended := fun _ => rfl

theorem Kept.cancel (hb : Kept cap b) (gone : List σ) : Kept cap (b.cancel gone) where
  bound := hb.bound
  once := hb.once.sublist (List.filter_sublist.map _)
  fresh := fun x hx hmem => by
    obtain ⟨hwait, hgone⟩ := List.mem_filter.mp hx
    rcases List.mem_append.mp hmem with hc | hg
    · exact hb.fresh x hwait hc
    · exact of_decide_eq_true hgone hg
  order := hb.order
  whole := fun hlive who hwho => by
    obtain ⟨hc, hg⟩ := not_or.mp (fun h => hwho (List.mem_append.mpr h))
    have hsame : sent who (b.waiting.filter (·.1 ∉ gone)) = sent who b.waiting := by
      rw [sent, List.filter_filter]
      refine List.filter_congr fun x _ => ?_
      by_cases hx : x.1 = who
      · simp [hx, hg]
      · simp [hx]
    exact (congrArg (sent who (b.out ++ b.queue) ++ ·) hsame).trans (hb.whole hlive who hc)
  ended := hb.ended

/-- The list around its `k`-th element. -/
theorem split_getElem? {α : Type*} {l : List α} {k : ℕ} {x : α} (h : l[k]? = some x) :
    ∃ pre post, l = pre ++ x :: post ∧ l.eraseIdx k = pre ++ post := by
  obtain ⟨hk, hx⟩ := List.getElem?_eq_some_iff.mp h
  refine ⟨l.take k, l.drop (k + 1), ?_, List.eraseIdx_eq_take_drop_succ l k⟩
  rw [← hx, ← List.drop_eq_getElem_cons hk, List.take_append_drop]

theorem Kept.accept {k : ℕ} (hb : Kept cap b) (h : b.accept cap k = some b') : Kept cap b' := by
  unfold Mailbox.accept at h
  cases hk : b.waiting[k]? with
  | none =>
    rw [hk] at h
    cases h
  | some x =>
    rw [hk] at h
    dsimp only at h
    obtain ⟨pre, post, hsplit, herase⟩ := split_getElem? hk
    rw [herase] at h
    have honce := hb.once
    rw [hsplit, List.map_append, List.map_cons, List.nodup_middle, List.nodup_cons,
      ← List.map_append] at honce
    obtain ⟨hx, hrest⟩ := honce
    have hfresh : ∀ y ∈ pre ++ post, y.1 ∉ b.cancelled := fun y hy => hb.fresh y (by
      rw [hsplit]
      exact List.mem_append.mpr ((List.mem_append.mp hy).imp_right (List.mem_cons_of_mem x)))
    -- of each sender, what waits is what waits without the one let in, and its message
    have hsent : ∀ who, sent who [x] ++ sent who (pre ++ post) = sent who b.waiting := by
      intro who
      rw [hsplit]
      by_cases hwho : x.1 = who
      · have hnone : sent who (pre ++ post) = [] := sent_eq_nil.mpr (hwho ▸ hx)
        obtain ⟨hpre, hpost⟩ := List.append_eq_nil_iff.mp (sent_append who pre post ▸ hnone)
        have hcons : sent who (x :: post) = sent who [x] ++ sent who post := sent_append who [x] post
        rw [hnone, sent_append who pre, hpre, hcons, hpost]
        rfl
      · have hnone : sent who [x] = [] := List.filter_eq_nil_iff.mpr (by simpa using hwho)
        have hcons : sent who (x :: post) = sent who [x] ++ sent who post := sent_append who [x] post
        rw [hnone, sent_append who pre post, sent_append who pre (x :: post), hcons, hnone]
        rfl
    by_cases hlive : b.live = true
    · rw [if_pos hlive] at h
      by_cases hroom : b.queue.length < cap
      · rw [if_pos hroom] at h
        obtain rfl := Option.some.inj h
        have hwhole : ∀ who, who ∉ b.cancelled →
            sent who (b.out ++ (b.queue ++ [x])) ++ sent who (pre ++ post) = sent who b.made := by
          intro who hwho
          rw [← List.append_assoc b.out, sent_append who _ [x], List.append_assoc, hsent who]
          exact hb.whole hlive who hwho
        refine ⟨?_, hrest, hfresh, fun who => ?_, fun _ => hwhole, fun hdead => ?_⟩
        · rw [List.length_append, List.length_singleton]
          exact hroom
        · by_cases hwho : who ∈ b.cancelled
          · have hne : ¬ x.1 = who := fun heq => hb.fresh x (by simp [hsplit]) (heq ▸ hwho)
            have hnone : sent who [x] = [] := List.filter_eq_nil_iff.mpr (by simpa using hne)
            rw [← List.append_assoc, sent_append who _ [x], hnone, List.append_nil]
            exact hb.order who
          · exact ⟨_, hwhole who hwho⟩
        · exact absurd (hlive.symm.trans hdead) (by decide)
      · rw [if_neg hroom] at h
        cases h
    · rw [if_neg hlive] at h
      obtain rfl := Option.some.inj h
      exact ⟨hb.bound, hrest, hfresh, hb.order, fun h' => absurd h' hlive, hb.ended⟩

theorem kept_step {e : Event σ α} (hb : Kept cap b) (h : step cap b e = some b') : Kept cap b' := by
  cases e with
  | post who m => exact hb.post h
  | cancel gone =>
    obtain rfl := Option.some.inj h
    exact hb.cancel gone
  | stop =>
    obtain rfl := Option.some.inj h
    exact hb.stop
  | accept k => exact hb.accept h
  | deliver => exact hb.deliver h

theorem kept_run {es : List (Event σ α)} (hb : Kept cap b) (h : run (step cap) b es = some b') : Kept cap b' :=
  inv_run (fun _ _ _ hs ht => kept_step hs ht) hb h

/-- The event cancels only such senders. -/
def Event.Cancels (P : σ → Prop) : Event σ α → Prop
  | .cancel gone => ∀ who ∈ gone, P who
  | _ => True

theorem cancelled_run {P : σ → Prop} {es : List (Event σ α)} (hes : ∀ e ∈ es, e.Cancels P)
    (hb : ∀ who ∈ b.cancelled, P who) (h : run (step cap) b es = some b') : ∀ who ∈ b'.cancelled, P who := by
  induction es generalizing b with
  | nil =>
    obtain rfl := Option.some.inj h
    exact hb
  | cons e es ih =>
    obtain ⟨c, hc, hrun⟩ := run_cons.mp h
    obtain ⟨he, hes⟩ := List.forall_mem_cons.mp hes
    refine ih hes ?_ hrun
    cases e with
    | post who m =>
      rw [(made_post hc).2.1]
      exact hb
    | cancel gone =>
      obtain rfl := Option.some.inj hc
      exact fun who hwho => (List.mem_append.mp hwho).elim (hb who) (he who)
    | stop =>
      obtain rfl := Option.some.inj hc
      exact hb
    | accept k =>
      simp only [step, Mailbox.accept] at hc
      split at hc
      · cases hc
      · split at hc
        · split at hc
          · obtain rfl := Option.some.inj hc
            exact hb
          · cases hc
        · obtain rfl := Option.some.inj hc
          exact hb
    | deliver =>
      simp only [step, Mailbox.deliver] at hc
      split at hc
      · cases hc
      · obtain rfl := Option.some.inj hc
        exact hb

/-- What the receiver took was made. -/
theorem Kept.mem_made (hb : Kept cap b) {x : σ × α} (hx : x ∈ b.out) : x ∈ b.made := by
  have hsent : x ∈ sent x.1 (b.out ++ b.queue) :=
    List.mem_filter.mpr ⟨List.mem_append_left _ hx, by simp⟩
  exact List.mem_of_mem_filter ((hb.order x.1).subset hsent)

/-! ### Draining -/

/-- A step of the receiver, or of one of those that wait. -/
def Event.Onward : Event σ α → Prop
  | .accept _ | .deliver => True
  | _ => False

/-- While the receiver runs, those that wait and the receiver can go on until nothing is
left. -/
theorem drains (hcap : 0 < cap) (n : ℕ) : ∀ {b : Mailbox σ α}, b.live = true →
    2 * b.waiting.length + b.queue.length ≤ n →
    ∃ es b', run (step cap) b es = some b' ∧ (∀ e ∈ es, e.Onward) ∧ b'.waiting = [] ∧ b'.queue = [] ∧
      b'.live = true ∧ b'.made = b.made ∧ b'.cancelled = b.cancelled := by
  induction n with
  | zero =>
    intro b hlive hn
    exact ⟨[], b, rfl, fun _ h => absurd h List.not_mem_nil, List.length_eq_zero_iff.mp (by omega),
      List.length_eq_zero_iff.mp (by omega), hlive, rfl, rfl⟩
  | succ n ih =>
    intro b hlive hn
    cases hq : b.queue with
    | cons x q =>
      have hstep : step cap b .deliver = some { b with queue := q, out := b.out ++ [x] } := by
        simp only [step, Mailbox.deliver, hq]
      rw [hq, List.length_cons] at hn
      obtain ⟨es, b', hrun, hon, hrest⟩ := ih (b := { b with queue := q, out := b.out ++ [x] }) hlive
        (by dsimp only; omega)
      exact ⟨.deliver :: es, b', run_cons.mpr ⟨_, hstep, hrun⟩, List.forall_mem_cons.mpr ⟨trivial, hon⟩, hrest⟩
    | nil =>
      cases hw : b.waiting with
      | nil => exact ⟨[], b, rfl, fun _ h => absurd h List.not_mem_nil, hw, hq, hlive, rfl, rfl⟩
      | cons x w =>
        have hstep : step cap b (.accept 0) = some { b with waiting := w, queue := [x] } := by
          simp only [step, Mailbox.accept, hw, hq, List.getElem?_cons_zero, hlive, if_true,
            List.length_nil, hcap, List.eraseIdx_zero, List.tail_cons, List.nil_append]
        rw [hw, hq, List.length_cons, List.length_nil] at hn
        obtain ⟨es, b', hrun, hon, hrest⟩ := ih (b := { b with waiting := w, queue := [x] }) hlive (by
          dsimp only
          rw [List.length_singleton]
          omega)
        exact ⟨.accept 0 :: es, b', run_cons.mpr ⟨_, hstep, hrun⟩,
          List.forall_mem_cons.mpr ⟨trivial, hon⟩, hrest⟩

/-- What came out came in order after the first message, if the receiver got that far. -/
def First (x : σ × α) (b : Mailbox σ α) : Prop :=
  (∃ rest, b.out ++ b.queue = x :: rest) ∨ (b.out = [] ∧ b.queue = [] ∧ b.live = false)

theorem first_step {x : σ × α} {e : Event σ α} (hb : First x b) (h : step cap b e = some b') : First x b' := by
  cases e with
  | post who m =>
    simp only [step, Mailbox.post] at h
    split at h
    · cases h
    · obtain rfl := Option.some.inj h
      exact hb
  | cancel gone =>
    obtain rfl := Option.some.inj h
    exact hb
  | stop =>
    obtain rfl := Option.some.inj h
    rcases hb with ⟨rest, hrest⟩ | ⟨hout, -, -⟩
    · cases hout : b.out with
      | nil => exact Or.inr ⟨hout, rfl, rfl⟩
      | cons y l =>
        rw [hout] at hrest
        obtain ⟨rfl, -⟩ := List.cons.inj hrest
        exact Or.inl ⟨l, by simp [Mailbox.stop, hout]⟩
    · exact Or.inr ⟨hout, rfl, rfl⟩
  | accept k =>
    simp only [step, Mailbox.accept] at h
    split at h
    · cases h
    · rename_i y hy
      split at h
      · rename_i hlive
        split at h
        · obtain rfl := Option.some.inj h
          rcases hb with ⟨rest, hrest⟩ | ⟨-, -, hdead⟩
          · refine Or.inl ⟨rest ++ [y], ?_⟩
            rw [← List.append_assoc, hrest, List.cons_append]
          · exact absurd (hlive.symm.trans hdead) (by decide)
        · cases h
      · obtain rfl := Option.some.inj h
        exact hb
  | deliver =>
    simp only [step, Mailbox.deliver] at h
    split at h
    · cases h
    · rename_i y q hq
      obtain rfl := Option.some.inj h
      rcases hb with ⟨rest, hrest⟩ | ⟨-, hnone, -⟩
      · refine Or.inl ⟨rest, ?_⟩
        rw [List.append_assoc, List.singleton_append, ← hq, hrest]
      · rw [hq] at hnone
        cases hnone

/-! ### Tasks with one answer -/

variable {ρ : Type*}

/-- The tasks `l`, each with its request and whether it is done, send as `k`: one that is
not done has made nothing, and one that is done has made one message, which answers its
request. -/
structure Answers (k : ℕ → σ) (ok : ρ → α → Prop) (l : List (ρ × Bool)) (made : List (σ × α)) : Prop where
  silent : ∀ i, (∀ r, l[i]? ≠ some (r, true)) → sent (k i) made = []
  answered : ∀ i r, l[i]? = some (r, true) → ∃ m, ok r m ∧ sent (k i) made = [(k i, m)]

section

variable {k : ℕ → σ} {ok : ρ → α → Prop} {l : List (ρ × Bool)} {made : List (σ × α)} {i : ℕ} {r : ρ}

theorem Answers.start {x : σ × α} (hx : ∀ i, k i ≠ x.1) : Answers k ok [] [x] where
  silent := fun i _ => List.filter_eq_nil_iff.mpr (by simpa using (hx i).symm)
  answered := fun i r h => by cases h

/-- Requests come. -/
theorem Answers.spawn (h : Answers k ok l made) (rs : List ρ) :
    Answers k ok (l ++ rs.map fun r => (r, false)) made where
  silent := fun i hi => h.silent i fun r' hr => hi r' (by
    rw [List.getElem?_append_left (List.getElem?_eq_some_iff.mp hr).1, hr])
  answered := fun i r' hi => by
    rw [List.getElem?_append] at hi
    split at hi
    · exact h.answered i r' hi
    · obtain ⟨r, -, hr⟩ := List.mem_map.mp (List.mem_of_getElem? hi)
      cases hr

/-- Others make messages. -/
theorem Answers.other {new : List (σ × α)} (h : Answers k ok l made) (hnew : ∀ x ∈ new, ∀ i, k i ≠ x.1) :
    Answers k ok l (made ++ new) := by
  have hsame : ∀ i, sent (k i) (made ++ new) = sent (k i) made := fun i => by
    have hnone : sent (k i) new = [] :=
      List.filter_eq_nil_iff.mpr fun x hx => by simpa using (hnew x hx i).symm
    rw [sent_append, hnone, List.append_nil]
  exact ⟨fun i hi => (hsame i).trans (h.silent i hi), fun i r hi => by
    rw [hsame]
    exact h.answered i r hi⟩

/-- A task that is not done answers. -/
theorem Answers.done {m : α} (h : Answers k ok l made) (hk : Function.Injective k)
    (hi : l[i]? = some (r, false)) (hm : ok r m) :
    Answers k ok (l.set i (r, true)) (made ++ [(k i, m)]) := by
  have hlt := (List.getElem?_eq_some_iff.mp hi).1
  have hself : sent (k i) [(k i, m)] = [(k i, m)] := List.filter_eq_self.mpr (by simp)
  have hother : ∀ {j}, j ≠ i → sent (k j) (made ++ [(k i, m)]) = sent (k j) made := fun hj => by
    have hnone : sent (k _) [(k i, m)] = [] :=
      List.filter_eq_nil_iff.mpr (by simpa using fun h => hj (hk h).symm)
    rw [sent_append, hnone, List.append_nil]
  refine ⟨fun j hj => ?_, fun j r' hj => ?_⟩
  · have hji : j ≠ i := fun h => hj r (by rw [h, List.getElem?_set_self hlt])
    rw [hother hji]
    exact h.silent j fun r' hr => hj r' (by rw [List.getElem?_set_ne (Ne.symm hji), hr])
  · by_cases hji : j = i
    · subst hji
      rw [List.getElem?_set_self hlt] at hj
      obtain rfl : r = r' := congrArg Prod.fst (Option.some.inj hj)
      have hnone := h.silent j fun r' hr => by
        rw [hi] at hr
        cases hr
      exact ⟨m, hm, by rw [sent_append, hnone, hself, List.nil_append]⟩
    · rw [List.getElem?_set_ne (Ne.symm hji)] at hj
      rw [hother hji]
      exact h.answered j r' hj

/-- One that is not done neither waits nor is in the queue. -/
theorem Answers.not_waiting (h : Answers k ok l b.made) (hb : Kept cap b) (hlive : b.live = true)
    (hi : ∀ r, l[i]? ≠ some (r, true)) (hc : k i ∉ b.cancelled) : k i ∉ b.waiting.map Prod.fst := by
  have hwhole := hb.whole hlive (k i) hc
  rw [h.silent i hi] at hwhole
  exact sent_eq_nil.mp (List.append_eq_nil_iff.mp hwhole).2

/-- What the receiver took of a task: nothing, or its answer. -/
theorem Answers.out (h : Answers k ok l b.made) (hb : Kept cap b) (i : ℕ) :
    sent (k i) b.out = [] ∨
      ∃ r m, l[i]? = some (r, true) ∧ ok r m ∧ sent (k i) b.out = [(k i, m)] := by
  have hle : sent (k i) b.out <+: sent (k i) b.made := by
    refine List.IsPrefix.trans ?_ (hb.order (k i))
    rw [sent_append]
    exact List.prefix_append _ _
  by_cases hi : ∃ r, l[i]? = some (r, true)
  · obtain ⟨r, hr⟩ := hi
    obtain ⟨m, hm, hmade⟩ := h.answered i r hr
    rw [hmade] at hle
    rcases List.prefix_cons_iff.mp hle with hnil | ⟨t, ht, htle⟩
    · exact Or.inl hnil
    · obtain rfl := List.prefix_nil.mp htle
      exact Or.inr ⟨r, m, hr, hm, ht⟩
  · rw [h.silent i (fun r hr => hi ⟨r, hr⟩)] at hle
    exact Or.inl (List.prefix_nil.mp hle)

/-- Once nothing waits and nothing is in the queue, a done task's answer came out. -/
theorem Answers.drained (h : Answers k ok l b.made) (hb : Kept cap b) (hlive : b.live = true)
    (hc : k i ∉ b.cancelled) (hw : b.waiting = []) (hq : b.queue = []) (hi : l[i]? = some (r, true)) :
    ∃ m, ok r m ∧ sent (k i) b.out = [(k i, m)] := by
  obtain ⟨m, hm, hmade⟩ := h.answered i r hi
  have hwhole := hb.whole hlive (k i) hc
  rw [hw, hq, List.append_nil, sent_nil, List.append_nil, hmade] at hwhole
  exact ⟨m, hm, hwhole⟩

end

end Mailbox
end LymonAgent
