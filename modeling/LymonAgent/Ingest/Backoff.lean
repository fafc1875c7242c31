/-
# The backoff between attempts

`run` sleeps `backoff_secs` after a failed attempt and doubles it, up to 60.
The attempt resets it to 1 when a batch is acknowledged, says the comment; the
reset is in the main loop only, and a batch sent again after `recover_in_flight`
is acknowledged in front of it.

The streamer's moves are followed with a record of the attempts that ended
(`attemptStep`). What an attempt slept is then a fact of the attempts before it,
for the code with the claimed batches in the rule (`backoff_inv`) and for the
comment with all of them. The two agree all along a run exactly when every
attempt but the first that had a recovered batch acknowledged had a claimed one
acknowledged too (`backoff_iff`); the first attempt of a run has nothing to reset.

Key definitions: `Attempt`, `attemptStep`, `Slept`, `ResetsToo`.
Key theorems: `step_backoff`, `backoff_inv`, `slept_iff`, `backoff_iff`.
-/
import LymonAgent.Ingest.Delivery

namespace LymonAgent
namespace Ingest

open Rowid Runs

/-! ### Attempts -/

/-- An attempt that failed: whether `send_and_ack` succeeded for a recovered
batch and for a claimed one, and how long `run` slept after it. -/
structure Attempt where
  recovered : Bool
  claimed : Bool
  slept : ℕ
  deriving DecidableEq

/-- `send_and_ack` succeeded for some batch. -/
def Attempt.acked (a : Attempt) : Bool := a.recovered || a.claimed

/-- The attempts of a run of the streamer: what the current one has done so far
and those that ended, the last one first. -/
structure History where
  recovered : Bool
  claimed : Bool
  ended : List Attempt

def History.new : History := ⟨false, false, []⟩

/-- The current attempt failed. -/
def History.fail (h : History) (slept : ℕ) : History :=
  ⟨false, false, ⟨h.recovered, h.claimed, slept⟩ :: h.ended⟩

/-- `send_and_ack` succeeded in the current attempt. -/
def History.ack (h : History) : Source → History
  | .recovered _ => { h with recovered := true }
  | .claimed => { h with claimed := true }

/-- The move ends the attempt with an error. -/
def endsAttempt (e : Event) (t : Agent) : Bool :=
  match e with
  | .fail | .recover true | .settle true => true
  | .claim _ _ _ => decide (t.pc = .down)
  | _ => false

/-- Where the batch came from that the move has `send_and_ack` succeed for. -/
def ackedSource (s : Agent) : Event → Option Source
  | .settle false =>
    match s.pc with
    | .resolved _ _ src => some src
    | _ => none
  | _ => none

/-- The record after the move `e` from `s` to `t`; a crash starts another run. -/
def History.note (h : History) (s : Agent) (e : Event) (t : Agent) : History :=
  if endsAttempt e t then h.fail s.backoffSecs
  else
    match e, ackedSource s e with
    | .crash, _ => .new
    | _, some src => h.ack src
    | _, none => h

def attemptStep (c : StreamerConfig) (s : Agent × History) (e : Event) : Option (Agent × History) :=
  (step c s.1 e).map fun t => (t, s.2.note s.1 e t)

/-! ### What an attempt is to sleep -/

/-- The failed attempts since the last one that `p` holds of, with it. -/
def streak (p : Attempt → Bool) : List Attempt → ℕ
  | [] => 0
  | a :: earlier => if p a then 1 else streak p earlier + 1

def sleepSecs (k : ℕ) : ℕ := min 60 (2 ^ k)

/-- The sleep after an attempt, where the attempts that `p` holds of reset the
backoff. -/
def sleepAfter (p : Attempt → Bool) (reset : Bool) (earlier : List Attempt) : ℕ :=
  sleepSecs (if reset then 0 else streak p earlier)

/-- Every attempt slept what the rule says. -/
def Slept (p : Attempt → Bool) : List Attempt → Prop
  | [] => True
  | a :: earlier => a.slept = sleepAfter p (p a) earlier ∧ Slept p earlier

theorem sleepSecs_succ (k : ℕ) : min (sleepSecs k * 2) 60 = sleepSecs (k + 1) := by
  unfold sleepSecs
  rw [pow_succ]
  omega

theorem two_le_sleepSecs {k : ℕ} (hk : 1 ≤ k) : 2 ≤ sleepSecs k := by
  obtain ⟨j, rfl⟩ := Nat.exists_eq_add_of_le hk
  have hj : 1 ≤ 2 ^ j := Nat.one_le_two_pow
  unfold sleepSecs
  rw [pow_add]
  omega

theorem streak_pos {p : Attempt → Bool} {l : List Attempt} (h : l ≠ []) : 1 ≤ streak p l := by
  cases l with
  | nil => exact absurd rfl h
  | cons a earlier =>
    unfold streak
    split <;> omega

/-! ### What the code sleeps -/

variable {c : StreamerConfig} {s t : Agent} {e : Event}

/-- The backoff through a move. -/
theorem step_backoff (h : step c s e = some t) :
    (endsAttempt e t = true ∧ t.backoffSecs = min (s.backoffSecs * 2) 60) ∨
    (endsAttempt e t = false ∧
      ((e = .crash ∧ t.backoffSecs = 1) ∨
       (∃ src, e = .settle false ∧ ackedSource s e = some src ∧
          t.backoffSecs = src.backoff s.backoffSecs) ∨
       (e ≠ .crash ∧ ackedSource s e = none ∧ t.backoffSecs = s.backoffSecs))) := by
  cases e with
  | enqueue o ss f =>
    obtain rfl := Option.some.inj h
    exact Or.inr ⟨rfl, Or.inr (Or.inr ⟨by simp, rfl, rfl⟩)⟩
  | connect =>
    simp only [step] at h
    split at h
    · obtain rfl := Option.some.inj h
      exact Or.inr ⟨rfl, Or.inr (Or.inr ⟨by simp, rfl, rfl⟩)⟩
    · cases h
  | recover f =>
    simp only [step] at h
    split at h
    · cases f with
      | true =>
        obtain rfl := Option.some.inj h
        exact Or.inl ⟨rfl, rfl⟩
      | false =>
        obtain rfl := Option.some.inj h
        exact Or.inr ⟨rfl, Or.inr (Or.inr ⟨by simp, rfl, rfl⟩)⟩
    · cases h
  | claim u n f =>
    simp only [step] at h
    split at h
    · rename_i hpc
      split at h
      · cases h
      · split at h
        · obtain rfl := Option.some.inj h
          exact Or.inr ⟨rfl, Or.inr (Or.inr ⟨by simp, rfl, rfl⟩)⟩
        · obtain rfl := Option.some.inj h
          refine Or.inr ⟨?_, Or.inr (Or.inr ⟨by simp, rfl, rfl⟩)⟩
          simp [endsAttempt, hpc]
        · obtain rfl := Option.some.inj h
          exact Or.inl ⟨rfl, rfl⟩
    · cases h
  | send n =>
    simp only [step] at h
    split at h
    · obtain rfl := Option.some.inj h
      exact Or.inr ⟨rfl, Or.inr (Or.inr ⟨by simp, rfl, rfl⟩)⟩
    · cases h
  | recvAck ack =>
    simp only [step] at h
    split at h
    · split at h
      · obtain rfl := Option.some.inj h
        exact Or.inr ⟨rfl, Or.inr (Or.inr ⟨by simp, rfl, rfl⟩)⟩
      · obtain rfl := Option.some.inj h
        exact Or.inr ⟨rfl, Or.inr (Or.inr ⟨by simp, rfl, rfl⟩)⟩
    · cases h
  | settle f =>
    simp only [step] at h
    split at h
    · rename_i id st src hpc
      cases f with
      | true =>
        simp only [settleAck_fault] at h
        obtain rfl := Option.some.inj h
        exact Or.inl ⟨rfl, rfl⟩
      | false =>
        have hok : ∃ b, settleAck s.buf id st false = (b, .ok ()) := by cases st <;> exact ⟨_, rfl⟩
        obtain ⟨b, hok⟩ := hok
        simp only [hok] at h
        obtain rfl := Option.some.inj h
        exact Or.inr ⟨rfl, Or.inr (Or.inl ⟨src, rfl, by simp [ackedSource, hpc], rfl⟩)⟩
    · cases h
  | fail =>
    simp only [step] at h
    split at h
    · obtain rfl := Option.some.inj h
      exact Or.inl ⟨rfl, rfl⟩
    · obtain rfl := Option.some.inj h
      exact Or.inl ⟨rfl, rfl⟩
    · obtain rfl := Option.some.inj h
      exact Or.inl ⟨rfl, rfl⟩
    · cases h
  | crash =>
    obtain rfl := Option.some.inj h
    exact Or.inr ⟨rfl, Or.inl ⟨rfl, rfl⟩⟩

theorem note_quiet (h : History) (hend : endsAttempt e t = false) (hne : e ≠ .crash)
    (hsrc : ackedSource s e = none) : h.note s e t = h := by
  unfold History.note
  rw [hend, hsrc]
  cases e with
  | crash => exact absurd rfl hne
  | _ => rfl

/-- What the code keeps: the backoff and the sleeps follow the rule with the
claimed batches alone. -/
structure BackoffInv (s : Agent × History) : Prop where
  current : s.1.backoffSecs = sleepAfter Attempt.claimed s.2.claimed s.2.ended
  slept : Slept Attempt.claimed s.2.ended

theorem backoff_inv {s t : Agent × History} (hs : BackoffInv s) (h : attemptStep c s e = some t) :
    BackoffInv t := by
  obtain ⟨t, ht, rfl⟩ := Option.map_eq_some_iff.mp h
  rcases step_backoff ht with ⟨hend, hb⟩ | ⟨hend, hcase⟩
  · -- the next attempt starts with nothing acknowledged and one more in the streak
    have hnote : s.2.note s.1 e t = s.2.fail s.1.backoffSecs := by simp [History.note, hend]
    refine ⟨?_, ?_⟩
    · simp only [hnote, hb, hs.current, History.fail, sleepAfter, streak, sleepSecs_succ]
      cases s.2.claimed <;> rfl
    · rw [hnote]
      exact ⟨hs.current, hs.slept⟩
  · rcases hcase with ⟨rfl, hb⟩ | ⟨src, rfl, hsrc, hb⟩ | ⟨hne, hsrc, hb⟩
    · exact ⟨hb, trivial⟩
    · have hnote : s.2.note s.1 (.settle false) t = s.2.ack src := by
        simp [History.note, hend, hsrc]
      rw [hnote]
      cases src with
      | recovered rest => exact ⟨hb.trans hs.current, hs.slept⟩
      | claimed => exact ⟨hb, hs.slept⟩
    · rw [note_quiet _ hend hne hsrc]
      exact ⟨hb.trans hs.current, hs.slept⟩

theorem backoffInv_start (b : BufferDb) : BackoffInv (start b, .new) := ⟨rfl, trivial⟩

/-! ### When the two rules agree -/

/-- Every attempt but the first that had a recovered batch acknowledged had a
claimed one acknowledged too. -/
def ClaimedToo : List Attempt → Prop
  | [] => True
  | a :: earlier =>
    (earlier ≠ [] → a.recovered = true → a.claimed = true) ∧ ClaimedToo earlier

theorem streak_eq {l : List Attempt} (h : ClaimedToo l) :
    streak Attempt.acked l = streak Attempt.claimed l := by
  induction l with
  | nil => rfl
  | cons a earlier ih =>
    obtain ⟨ha, he⟩ := h
    simp only [streak, ih he, Attempt.acked]
    cases hc : a.claimed with
    | true => simp
    | false =>
      cases hr : a.recovered with
      | false => simp
      | true =>
        -- a recovered batch alone: then this is the first attempt
        have hnil : earlier = [] := by
          by_contra hne
          rw [ha hne hr] at hc
          cases hc
        simp [hnil, streak]

theorem sleepAfter_eq_iff (a : Attempt) {earlier : List Attempt} (h : ClaimedToo earlier) :
    sleepAfter Attempt.claimed a.claimed earlier = sleepAfter Attempt.acked a.acked earlier ↔
      (earlier ≠ [] → a.recovered = true → a.claimed = true) := by
  unfold sleepAfter
  rw [streak_eq h]
  unfold Attempt.acked
  cases hc : a.claimed with
  | true => simp
  | false =>
    cases hr : a.recovered with
    | false => simp
    | true =>
      by_cases hne : earlier = []
      · simp [hne, streak]
      · have h2 := two_le_sleepSecs (streak_pos (p := Attempt.claimed) hne)
        have h1 : sleepSecs 0 = 1 := rfl
        simp only [Bool.true_or, if_true, Bool.false_eq_true, if_false, ne_eq, hne,
          not_false_eq_true, forall_const, iff_false, h1]
        omega

/-- The sleeps the code makes are those of the comment's rule exactly then. -/
theorem slept_iff {l : List Attempt} (h : Slept Attempt.claimed l) :
    Slept Attempt.acked l ↔ ClaimedToo l := by
  induction l with
  | nil => exact Iff.rfl
  | cons a earlier ih =>
    obtain ⟨ha, he⟩ := h
    constructor
    · rintro ⟨ha', he'⟩
      have hgood := (ih he).mp he'
      exact ⟨(sleepAfter_eq_iff a hgood).mp (ha.symm.trans ha'), hgood⟩
    · rintro ⟨ha', he'⟩
      exact ⟨ha.trans ((sleepAfter_eq_iff a he').mpr ha'), (ih he).mpr he'⟩

/-- The move does not end an attempt, other than the first, in which a recovered
batch was acknowledged and no claimed one. -/
def ResetsToo (c : StreamerConfig) (s : Agent × History) (e : Event) : Prop :=
  ∀ t, step c s.1 e = some t → endsAttempt e t = true → s.2.ended ≠ [] → s.2.recovered = true →
    s.2.claimed = true

theorem claimedToo_step {s t : Agent × History} (hs : ClaimedToo s.2.ended)
    (h : attemptStep c s e = some t) : ClaimedToo t.2.ended ↔ ResetsToo c s e := by
  obtain ⟨t, ht, rfl⟩ := Option.map_eq_some_iff.mp h
  have hres : ResetsToo c s e ↔ (endsAttempt e t = true → s.2.ended ≠ [] → s.2.recovered = true →
      s.2.claimed = true) := by
    constructor
    · exact fun hr => hr t ht
    · intro hr t' ht'
      obtain rfl : t = t' := Option.some.inj (ht.symm.trans ht')
      exact hr
  rw [hres]
  rcases step_backoff ht with ⟨hend, -⟩ | ⟨hend, hcase⟩
  · simp only [History.note, hend, if_true, History.fail, ClaimedToo, hs, and_true, forall_const]
  · refine iff_of_true ?_ (fun h => by rw [hend] at h; cases h)
    rcases hcase with ⟨rfl, -⟩ | ⟨src, rfl, hsrc, -⟩ | ⟨hne, hsrc, -⟩
    · trivial
    · cases src <;> simpa [History.note, hend, hsrc, History.ack] using hs
    · rw [note_quiet _ hend hne hsrc]
      exact hs

/-- **When the backoff is reset by every acknowledged batch.** All along a run of
the streamer, from any buffer, every failed attempt slept `min 60 2^k` seconds,
with `k` counted from the last attempt in which `send_and_ack` succeeded for a
recovered or a claimed batch, exactly when no move ends an attempt, other than
the first, that succeeded for recovered batches only. -/
theorem backoff_iff (c : StreamerConfig) (b : BufferDb) (es : List Event) :
    (∀ pre, pre <+: es → ∀ s, run (attemptStep c) (start b, .new) pre = some s →
      Slept Attempt.acked s.2.ended) ↔
      Each (attemptStep c) (ResetsToo c) (start b, .new) es := by
  have hinv : ∀ {pre s}, run (attemptStep c) (start b, .new) pre = some s → BackoffInv s :=
    fun h => inv_run (fun _ _ _ hs ht => backoff_inv hs ht) (backoffInv_start b) h
  have hstuck : ∀ s e, attemptStep c s e = none → ResetsToo c s e := by
    intro s e hnone t ht
    rw [attemptStep, ht] at hnone
    cases hnone
  have heach : (∀ pre, pre <+: es → ∀ s, run (attemptStep c) (start b, .new) pre = some s →
      ClaimedToo s.2.ended) ↔ Each (attemptStep c) (ResetsToo c) (start b, .new) es :=
    each_iff_run (I := fun s : Agent × History => ClaimedToo s.2.ended)
      (fun s e t hs ht => claimedToo_step hs ht) hstuck trivial
  rw [← heach]
  constructor
  · exact fun h pre hpre s hs => (slept_iff (hinv hs).slept).mp (h pre hpre s hs)
  · exact fun h pre hpre s hs => (slept_iff (hinv hs).slept).mpr (h pre hpre s hs)

/-- The stream breaks before the batch is acknowledged; on the next one the
batch is sent again and acknowledged, and then that stream breaks as well. -/
def ackedOnRecovery : List Event :=
  [.enqueue none (oneSample (reading "v1" 100 1)) none, .connect, .recover false,
    .claim "01A" 10 false, .send 20, .fail, .connect, .recover false, .send 30,
    .recvAck ⟨"01A", 1⟩, .settle false, .enqueue none (oneSample (reading "v2" 200 2)) none,
    .claim "01B" 40 false, .fail]

/-- The second attempt had a batch acknowledged, and `run` sleeps 2 seconds after it. -/
theorem sleeps_two_after_ack :
    ∃ s, run (attemptStep (plainStreamer 10)) (start openNew, .new) ackedOnRecovery = some s ∧
      s.2.ended = [⟨true, false, 2⟩, ⟨false, false, 1⟩] ∧ ¬ Slept Attempt.acked s.2.ended := by
  have hrun : (run (attemptStep (plainStreamer 10)) (start openNew, .new) ackedOnRecovery).map
      (fun s => s.2.ended) = some [⟨true, false, 2⟩, ⟨false, false, 1⟩] := by decide
  obtain ⟨s, hs, hended⟩ := Option.map_eq_some_iff.mp hrun
  refine ⟨s, hs, hended, fun h => ?_⟩
  rw [hended] at h
  exact absurd h.1 (by decide)

end Ingest
end LymonAgent
