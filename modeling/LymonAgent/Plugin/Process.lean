/-
# The plugin process

`run` and `stream` of `crates/collector-sdk/src/lib.rs` as a process between two
pipes: it takes a line from its input, and writes one line in answer, or one for
each batch of a subscription and one when it ends. A line is printed in one step
and in the pipe in the next, so that a process that dies may leave the beginning
of one.

Every character of the input is tagged with the exchange that wrote it, and every
line of output with the input line it answers (`Written`); the source has
neither. `answers_step` says that what is written is what the SDK writes in
answer to that line.

How the text of a request is read (`serde_json::from_str`) is a parameter. A
collector may answer each request as it likes, so it comes with the step, and so
does the state that a running subscription has brought the collector to. Input that
is no UTF-8 ends the loop, like any other death of the process.

Key definitions: `Proc`, `ProcEvent`, `procStep`, `Answers`.
Key theorems: `cutLine_whole`, `procStep_cases`, `answers_step`.
-/
import LymonAgent.Plugin.Sdk

namespace LymonAgent
namespace Plugin

/-! ### Lines -/

/-- The first line of the input and what comes after it. -/
def cutLine : List (ℕ × Char) → Option (List (ℕ × Char) × List (ℕ × Char))
  | [] => none
  | c :: cs => if c.2 = '\n' then some ([], cs) else (cutLine cs).map fun p => (c :: p.1, p.2)

/-- A line as `lines` gives it, without a carriage return at its end. -/
def lineText (input : List (ℕ × Char)) : String :=
  let cs := input.map Prod.snd
  .ofList (if cs.getLast? = some '\r' then cs.dropLast else cs)

/-- `char::is_whitespace`. -/
def isWhitespace (c : Char) : Bool :=
  let n := c.toNat
  (9 ≤ n && n ≤ 13) || n = 0x20 || n = 0x85 || n = 0xA0 || n = 0x1680 || (0x2000 ≤ n && n ≤ 0x200A) ||
    n = 0x2028 || n = 0x2029 || n = 0x202F || n = 0x205F || n = 0x3000

/-- `line.trim().is_empty()`. -/
def isBlank (s : String) : Bool := s.toList.all isWhitespace

/-- A line that starts with a character that is no white space is not blank. -/
theorem not_isBlank {i : ℕ} {c : Char} (hc : isWhitespace c = false) (input : List (ℕ × Char)) :
    isBlank (lineText ((i, c) :: input)) = false := by
  simp only [isBlank, lineText, List.map_cons, String.toList_ofList]
  split
  · rename_i hlast
    cases input with
    | nil =>
      obtain rfl : c = '\r' := Option.some.inj hlast
      exact absurd hc (by decide)
    | cons d input => simp [hc]
  · simp [hc]

theorem cutLine_eq_some : ∀ {input l rest : List (ℕ × Char)}, cutLine input = some (l, rest) →
    ∃ i, input = l ++ (i, '\n') :: rest ∧ ∀ c ∈ l, c.2 ≠ '\n'
  | c :: cs, l, rest, h => by
    rw [cutLine] at h
    split at h
    · rename_i hc
      obtain ⟨rfl, rfl⟩ := Prod.mk.inj (Option.some.inj h)
      exact ⟨c.1, by rw [← hc]; rfl, fun _ hx => absurd hx List.not_mem_nil⟩
    · rename_i hc
      obtain ⟨⟨l', rest'⟩, hcut, hp⟩ := Option.map_eq_some_iff.mp h
      obtain ⟨rfl, rfl⟩ := Prod.mk.inj hp
      obtain ⟨i, rfl, hl⟩ := cutLine_eq_some hcut
      exact ⟨i, rfl, List.forall_mem_cons.mpr ⟨hc, hl⟩⟩

/-- A line that comes first is cut at its own end. -/
theorem cutLine_whole {own input more l rest : List (ℕ × Char)} {i : ℕ} (hown : ∀ c ∈ own, c.2 ≠ '\n')
    (h : input ++ more = own ++ [(i, '\n')]) (hcut : cutLine input = some (l, rest)) :
    l = own ∧ rest = [] ∧ more = [] := by
  obtain ⟨j, rfl, hl⟩ := cutLine_eq_some hcut
  rw [List.append_assoc, List.cons_append] at h
  -- neither line has a newline, so the first newline ends both
  have hplain : ∀ {l : List (ℕ × Char)}, (∀ c ∈ l, c.2 ≠ '\n') → ∀ c ∈ l, decide (c.2 ≠ '\n') = true :=
    fun hl c hc => decide_eq_true (hl c hc)
  obtain ⟨rfl, htail⟩ := Text.span_cancel (hplain hl) (hplain hown) (by simp) (by simp) h
  obtain ⟨rfl, rfl⟩ := List.append_eq_nil_iff.mp (List.cons.inj htail).2
  exact ⟨rfl, rfl, rfl⟩

/-! ### The process -/

/-- A line of output, and the input line it answers. -/
structure Written where
  input : List (ℕ × Char)
  text : List Char
  deriving DecidableEq

/-- What the loop is doing: waiting for a line; at work on one, and whether it has
written a line in answer; printing a line, and whether it goes on after it. -/
inductive Doing where
  | idle
  | busy (input : List (ℕ × Char)) (wrote : Bool)
  | printing (input : List (ℕ × Char)) (text : List Char) (goesOn : Bool)
  deriving DecidableEq

/-- A line has been written in answer to the one at work. -/
def Doing.wrote : Doing → Bool
  | .busy _ wrote => wrote
  | .idle | .printing _ _ _ => false

structure Proc (σ : Type) where
  coll : σ
  stdin : List (ℕ × Char)
  doing : Doing
  stdout : List Written
  alive : Bool

inductive ProcEvent (σ : Type) where
  | take
  | answer (c : Sdk.Collector σ)
  | emit (coll : σ) (samples : List Sdk.Sample)
  | finish (coll : σ) (result : Except String Unit)
  | printed
  | die (n : ℕ)

/-- What writes a line in answer to a subscription has written none for it before. -/
def Proc.OneLine {σ : Type} (p : Proc σ) : ProcEvent σ → Prop
  | .emit _ _ | .finish _ _ => p.doing.wrote = false
  | _ => True

instance {σ : Type} (p : Proc σ) : (e : ProcEvent σ) → Decidable (p.OneLine e)
  | .emit _ _ | .finish _ _ => inferInstanceAs (Decidable (p.doing.wrote = false))
  | .take | .answer _ | .printed | .die _ => isTrue trivial

/-- A process that has just been spawned. -/
def Proc.fresh {σ : Type} (coll : σ) : Proc σ := ⟨coll, [], .idle, [], true⟩

section

variable {σ : Type} (F : FloatText) (parse : String → Except String Sdk.ReadRequest)

/-- The request of a line. -/
def requestOf (input : List (ℕ × Char)) : Except String Sdk.ReadRequest :=
  (parse (lineText input)).map Sdk.ReadRequest.mirrored

/-- The answer of `run` to a line that opens no subscription. -/
def respondTo (c : Sdk.Collector σ) (coll : σ) : Except String Sdk.ReadRequest → σ × Json
  | .error e => (coll, Sdk.errorLine ("bad request: " ++ e))
  | .ok req => Sdk.dispatch c coll req

/-- The line opens a subscription. -/
def Subscribes (input : List (ℕ × Char)) : Bool :=
  match requestOf parse input with
  | .ok req => req.op = "subscribe"
  | .error _ => false

def procStep (p : Proc σ) (e : ProcEvent σ) : Option (Proc σ) :=
  if !p.alive then none
  else
    match e, p.doing with
    | .take, .idle =>
      (cutLine p.stdin).map fun (input, rest) =>
        if isBlank (lineText input) then { p with stdin := rest }
        else { p with stdin := rest, doing := .busy input false }
    | .answer c, .busy input false =>
      if Subscribes parse input then none
      else
        let (coll, line) := respondTo c p.coll (requestOf parse input)
        some { p with coll, doing := .printing input (line.chars F) false }
    | .emit coll samples, .busy input _ =>
      if Subscribes parse input then
        some { p with coll, doing := .printing input ((Sdk.batchLine samples).chars F) true }
      else none
    | .finish coll result, .busy input _ =>
      if Subscribes parse input then
        some { p with coll, doing := .printing input ((Sdk.statusLine result).chars F) false }
      else none
    | .printed, .printing input text goesOn => some { p with
        doing := if goesOn then .busy input true else .idle
        stdout := p.stdout ++ [⟨input, text⟩] }
    -- the first `n` characters of a line that was being printed got out
    | .die n, .printing input text _ => some { p with
        alive := false
        stdout := if n = 0 then p.stdout else p.stdout ++ [⟨input, text.take n⟩] }
    | .die _, _ => some { p with alive := false }
    | _, _ => none

/-- The steps of the process, one by one. -/
inductive ProcTook (p : Proc σ) : ProcEvent σ → Proc σ → Prop
  | skip {input rest : List (ℕ × Char)} (hd : p.doing = .idle) (hl : cutLine p.stdin = some (input, rest))
    (hb : isBlank (lineText input) = true) : ProcTook p .take { p with stdin := rest }
  | take {input rest : List (ℕ × Char)} (hd : p.doing = .idle) (hl : cutLine p.stdin = some (input, rest))
    (hb : isBlank (lineText input) = false) :
    ProcTook p .take { p with stdin := rest, doing := .busy input false }
  | answer {input : List (ℕ × Char)} (c : Sdk.Collector σ) (hd : p.doing = .busy input false)
    (hs : Subscribes parse input = false) : ProcTook p (.answer c) { p with
      coll := (respondTo c p.coll (requestOf parse input)).1
      doing := .printing input ((respondTo c p.coll (requestOf parse input)).2.chars F) false }
  | emit {input : List (ℕ × Char)} {wrote : Bool} (coll : σ) (samples : List Sdk.Sample)
    (hd : p.doing = .busy input wrote) (hs : Subscribes parse input = true) : ProcTook p (.emit coll samples)
      { p with coll, doing := .printing input ((Sdk.batchLine samples).chars F) true }
  | finish {input : List (ℕ × Char)} {wrote : Bool} (coll : σ) (result : Except String Unit)
    (hd : p.doing = .busy input wrote) (hs : Subscribes parse input = true) : ProcTook p (.finish coll result)
      { p with coll, doing := .printing input ((Sdk.statusLine result).chars F) false }
  | printed {input : List (ℕ × Char)} {text : List Char} {goesOn : Bool}
    (hd : p.doing = .printing input text goesOn) : ProcTook p .printed { p with
      doing := if goesOn then .busy input true else .idle
      stdout := p.stdout ++ [⟨input, text⟩] }
  | cut {input : List (ℕ × Char)} {text : List Char} {goesOn : Bool} (n : ℕ)
    (hd : p.doing = .printing input text goesOn) : ProcTook p (.die n) { p with
      alive := false
      stdout := if n = 0 then p.stdout else p.stdout ++ [⟨input, text.take n⟩] }
  | die (n : ℕ) : ProcTook p (.die n) { p with alive := false }

variable {F parse}

theorem procStep_cases {p q : Proc σ} {e : ProcEvent σ} (h : procStep F parse p e = some q) :
    p.alive = true ∧ ProcTook F parse p e q := by
  unfold procStep at h
  split at h
  · cases h
  · rename_i halive
    refine ⟨by simpa using halive, ?_⟩
    split at h
    · rename_i hd
      obtain ⟨⟨input, rest⟩, hl, rfl⟩ := Option.map_eq_some_iff.mp h
      cases hb : isBlank (lineText input) with
      | true => simpa [hb] using ProcTook.skip hd hl hb
      | false => simpa [hb] using ProcTook.take hd hl hb
    · rename_i c input hd
      split at h
      · cases h
      · rename_i hs
        obtain rfl := Option.some.inj h
        exact .answer c hd (by simpa using hs)
    · rename_i coll samples input wrote hd
      split at h
      · rename_i hs
        obtain rfl := Option.some.inj h
        exact .emit coll samples hd hs
      · cases h
    · rename_i coll result input wrote hd
      split at h
      · rename_i hs
        obtain rfl := Option.some.inj h
        exact .finish coll result hd hs
      · cases h
    · rename_i input text goesOn hd
      obtain rfl := Option.some.inj h
      exact .printed hd
    · rename_i n input text goesOn hd
      obtain rfl := Option.some.inj h
      exact .cut n hd
    · obtain rfl := Option.some.inj h
      exact .die _
    · cases h

/-! ### What is written -/

/-- What the SDK writes in answer to a line. -/
inductive Answers (F : FloatText) (parse : String → Except String Sdk.ReadRequest) (σ : Type)
    (input : List (ℕ × Char)) : List Char → Prop
  | one (c : Sdk.Collector σ) (coll : σ) (hs : Subscribes parse input = false) :
    Answers F parse σ input ((respondTo c coll (requestOf parse input)).2.chars F)
  | batch (samples : List Sdk.Sample) (hs : Subscribes parse input = true) :
    Answers F parse σ input ((Sdk.batchLine samples).chars F)
  | status (result : Except String Unit) (hs : Subscribes parse input = true) :
    Answers F parse σ input ((Sdk.statusLine result).chars F)

/-- The line, or the beginning of it that got out, is one that the SDK writes in
answer to its input line. -/
def Written.Answer (F : FloatText) (parse : String → Except String Sdk.ReadRequest) (σ : Type)
    (w : Written) : Prop := ∃ line, Answers F parse σ w.input line ∧ w.text <+: line

/-- The line being printed is one the SDK writes in answer to its input line. -/
def Doing.Answer (F : FloatText) (parse : String → Except String Sdk.ReadRequest) (σ : Type) :
    Doing → Prop
  | .printing input text _ => Answers F parse σ input text
  | .idle | .busy _ _ => True

/-- All that the process has written or is printing is in answer to its input
line. -/
structure Proc.Answered (F : FloatText) (parse : String → Except String Sdk.ReadRequest)
    (p : Proc σ) : Prop where
  stdout : ∀ w ∈ p.stdout, w.Answer F parse σ
  doing : p.doing.Answer F parse σ

theorem answered_fresh (coll : σ) : (Proc.fresh coll).Answered F parse :=
  ⟨fun _ hw => absurd hw List.not_mem_nil, trivial⟩

/-- A line that has been printed, or the beginning of one. -/
theorem Proc.Answered.append {p : Proc σ} (hp : p.Answered F parse) {input : List (ℕ × Char)}
    {text t : List Char} {goesOn : Bool} (hd : p.doing = .printing input text goesOn) (ht : t <+: text) :
    ∀ w ∈ p.stdout ++ [⟨input, t⟩], w.Answer F parse σ := by
  have hline := hp.doing
  rw [hd] at hline
  intro w hw
  rcases List.mem_append.mp hw with hw | hw
  · exact hp.stdout w hw
  · obtain rfl := List.mem_singleton.mp hw
    exact ⟨text, hline, ht⟩

theorem answers_step {p q : Proc σ} {e : ProcEvent σ} (hp : p.Answered F parse)
    (h : procStep F parse p e = some q) : q.Answered F parse := by
  cases (procStep_cases h).2 with
  | skip => exact ⟨hp.stdout, hp.doing⟩
  | take => exact ⟨hp.stdout, trivial⟩
  | answer c _ hs => exact ⟨hp.stdout, Answers.one c p.coll hs⟩
  | emit coll samples _ hs => exact ⟨hp.stdout, Answers.batch samples hs⟩
  | finish coll result _ hs => exact ⟨hp.stdout, Answers.status result hs⟩
  | @printed input text goesOn hd =>
    refine ⟨hp.append hd List.prefix_rfl, ?_⟩
    cases goesOn <;> trivial
  | cut n hd =>
    refine ⟨?_, hp.doing⟩
    dsimp only
    split
    · exact hp.stdout
    · exact hp.append hd (List.take_prefix n _)
  | die => exact ⟨hp.stdout, hp.doing⟩

/-! ### One line for each request -/

/-- The process writes no line but in answer to another one: it waits, or has
answered the line it is at. -/
def Doing.Mute : Doing → Prop
  | .idle => True
  | .busy _ wrote => wrote = true
  | .printing _ _ _ => False

/-- Where the request line `own` of the exchange with the lock is, with `left` not
written yet: on its way to the process, at work, being answered, or answered. The
pipes hold nothing else. -/
inductive OnItsWay (own : List (ℕ × Char)) (id : ℕ) (left : List Char) (p : Proc σ) : Prop
  | sent (hd : p.doing.Mute) (ho : p.stdout = [])
    (hi : p.stdin ++ left.map (id, ·) = own ++ [(id, '\n')])
  | taken (hl : left = []) (hi : p.stdin = []) (hd : p.doing = .busy own false) (ho : p.stdout = [])
  | printing {text : List Char} {goesOn : Bool} (hl : left = []) (hi : p.stdin = [])
    (hd : p.doing = .printing own text goesOn) (ho : p.stdout = [])
  | answered {text : List Char} (hl : left = []) (hi : p.stdin = []) (hd : p.doing.Mute)
    (ho : p.stdout = [⟨own, text⟩])

section

variable {p q : Proc σ} {e : ProcEvent σ}

/-- A process that writes nothing more can only take a line or die. -/
theorem mute_step (hm : p.doing.Mute) (ho : p.OneLine e) (h : procStep F parse p e = some q) :
    (∃ input rest, cutLine p.stdin = some (input, rest) ∧ (isBlank (lineText input) = false →
      q = { p with stdin := rest, doing := .busy input false })) ∨ q = { p with alive := false } := by
  cases (procStep_cases h).2 with
  | @skip input rest hd hl hb =>
    refine Or.inl ⟨input, rest, hl, fun hn => ?_⟩
    rw [hb] at hn
    cases hn
  | @take input rest hd hl hb => exact Or.inl ⟨input, rest, hl, fun _ => rfl⟩
  | answer c hd hs =>
    rw [hd] at hm
    cases hm
  | emit coll samples hd hs =>
    rw [Proc.OneLine, hd] at ho
    rw [hd] at hm
    cases ho.symm.trans hm
  | finish coll result hd hs =>
    rw [Proc.OneLine, hd] at ho
    rw [hd] at hm
    cases ho.symm.trans hm
  | printed hd | cut n hd =>
    rw [hd] at hm
    cases hm
  | die n => exact Or.inr rfl

/-- With nothing in its input it can only die. -/
theorem mute_step_nil (hm : p.doing.Mute) (hi : p.stdin = []) (ho : p.OneLine e)
    (h : procStep F parse p e = some q) : q = { p with alive := false } := by
  rcases mute_step hm ho h with ⟨input, rest, hl, -⟩ | h
  · rw [hi] at hl
    cases hl
  · exact h

/-- The request goes on its way, or the process dies and leaves nothing but an
answer to it. -/
theorem onItsWay_step {own : List (ℕ × Char)} {id : ℕ} {left : List Char}
    (hown : ∀ c ∈ own, c.2 ≠ '\n') (hb : isBlank (lineText own) = false)
    (hw : OnItsWay own id left p) (ho : p.OneLine e) (h : procStep F parse p e = some q) :
    (q.alive = true ∧ OnItsWay own id left q) ∨ (q.alive = false ∧ ∀ w ∈ q.stdout, w.input = own) := by
  have halive := (procStep_cases h).1
  cases hw with
  | sent hd hout hi =>
    rcases mute_step hd ho h with ⟨input, rest, hl, hq⟩ | rfl
    · obtain ⟨rfl, rfl, hleft⟩ := cutLine_whole hown hi hl
      rw [hq hb]
      exact Or.inl ⟨halive, .taken (List.map_eq_nil_iff.mp hleft) rfl rfl hout⟩
    · exact Or.inr ⟨rfl, by simp [hout]⟩
  | taken hl hi hd hout =>
    cases (procStep_cases h).2 with
    | skip hd' | take hd' | printed hd' | cut _ hd' => cases hd.symm.trans hd'
    | answer c hd' hs =>
      obtain ⟨rfl, -⟩ := Doing.busy.inj (hd.symm.trans hd')
      exact Or.inl ⟨halive, .printing hl hi rfl hout⟩
    | emit coll samples hd' hs =>
      obtain ⟨rfl, -⟩ := Doing.busy.inj (hd.symm.trans hd')
      exact Or.inl ⟨halive, .printing hl hi rfl hout⟩
    | finish coll result hd' hs =>
      obtain ⟨rfl, -⟩ := Doing.busy.inj (hd.symm.trans hd')
      exact Or.inl ⟨halive, .printing hl hi rfl hout⟩
    | die n => exact Or.inr ⟨rfl, by simp [hout]⟩
  | @printing text goesOn hl hi hd hout =>
    cases (procStep_cases h).2 with
    | skip hd' | take hd' | answer _ hd' | emit _ _ hd' | finish _ _ hd' => cases hd.symm.trans hd'
    | printed hd' =>
      obtain ⟨rfl, rfl, rfl⟩ := Doing.printing.inj (hd.symm.trans hd')
      refine Or.inl ⟨halive, .answered hl hi ?_ (by rw [hout]; rfl)⟩
      cases goesOn <;> trivial
    | cut n hd' =>
      obtain ⟨rfl, rfl, rfl⟩ := Doing.printing.inj (hd.symm.trans hd')
      refine Or.inr ⟨rfl, ?_⟩
      dsimp only
      rw [hout]
      split <;> simp
    | die n => exact Or.inr ⟨rfl, by simp [hout]⟩
  | answered hl hi hd hout =>
    rw [mute_step_nil hd hi ho h]
    exact Or.inr ⟨rfl, by simp [hout]⟩

end

end

end Plugin
end LymonAgent
