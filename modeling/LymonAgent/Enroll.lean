/-
# Credentials across starts

`src/enroll.rs`: on every start the agent takes its credentials from `credentials.json`, from
the environment, or from the exchange of a one-time code, in this order, and what it gets for
a code it writes to the file. The exchange, the write and the agent can fail or stop at any
point between, and the file is truncated before it is written.

An installation that has enrolled, or has read its credentials once, reads the same ones ever
after, whatever codes it is given (`enrolled_once`). Between the answer of the server and the
last character written, though, a stop loses the credentials and the code is spent:
`can_start_iff` says which installations can still come up.

The JSON parser and the permissions of the file are left out; `JsonReader` says what is read
back of a file that was written whole or in part.

Key definitions: `resolveStored`, `Config.direct`, `Install`, `step`, `SingleUse`.
Key theorems: `kept_step`, `stranded_step`, `enrolled_once`, `can_start_iff`.
-/
import LymonAgent.Control.Write
import LymonAgent.Runs
import Mathlib.Data.List.DropRight

namespace LymonAgent
namespace Enroll

open Runs

/-! ### Credentials -/

structure Credentials where
  agentId : String
  token : String
  ingestEndpoint : String
  tenantId : Option String
  controlEndpoint : Option String
  deriving DecidableEq

def jsonOption : Option String → Json
  | none => .null
  | some s => .str s

def Credentials.toJson (c : Credentials) : Json :=
  .obj [("agent_id", .str c.agentId), ("control_endpoint", jsonOption c.controlEndpoint),
    ("ingest_endpoint", .str c.ingestEndpoint), ("tenant_id", jsonOption c.tenantId), ("token", .str c.token)]

/-- A file from before the control channel has neither a tenant nor an endpoint for it. -/
def Credentials.ofJson (v : Json) : Option Credentials :=
  match v.getStr "agent_id", v.getStr "token", v.getStr "ingest_endpoint",
      Control.optional Json.asStr (v.get "tenant_id"), Control.optional Json.asStr (v.get "control_endpoint") with
  | some agentId, some token, some ingestEndpoint, some tenantId, some controlEndpoint =>
    some { agentId, token, ingestEndpoint, tenantId, controlEndpoint }
  | _, _, _, _, _ => none

def quotedOption : Option String → List Char
  | none => "null".toList
  | some s => quoted s

/-- The file, as `to_vec_pretty` writes it. -/
def Credentials.pretty (c : Credentials) : List Char :=
  "\x7b\n  \"agent_id\": ".toList ++ (quoted c.agentId ++
    (",\n  \"token\": ".toList ++ (quoted c.token ++
      (",\n  \"ingest_endpoint\": ".toList ++ (quoted c.ingestEndpoint ++
        (",\n  \"tenant_id\": ".toList ++ (quotedOption c.tenantId ++
          (",\n  \"control_endpoint\": ".toList ++ (quotedOption c.controlEndpoint ++ "\n\x7d".toList)))))))))

/-- A JSON parser, on the files that the agent leaves. -/
structure JsonReader where
  parse : List Char → Option Json
  parse_pretty : ∀ c : Credentials, parse c.pretty = some c.toJson
  parse_cut : ∀ (c : Credentials) (s : List Char), s <+: c.pretty → s ≠ c.pretty → parse s = none

/-! ### The control channel's address -/

def stripPrefix (start s : List Char) : Option (List Char) :=
  if start.isPrefixOf s then some (s.drop start.length) else none

def stripSuffix (tail s : List Char) : Option (List Char) :=
  if tail.isSuffixOf s then some (s.take (s.length - tail.length)) else none

def deriveControlEndpoint (enrollUrl : String) : Option String :=
  let base := ((stripSuffix "/api/agent/enroll".toList enrollUrl.toList).getD enrollUrl.toList).rdropWhile
    (· = '/')
  match stripPrefix "https://".toList base with
  | some rest => some ("wss://" ++ .ofList rest ++ "/api/agent-control")
  | none =>
    (stripPrefix "http://".toList base).map fun rest => "ws://" ++ .ofList rest ++ "/api/agent-control"

/-! ### A start -/

/-- What the environment gives of credentials. -/
structure Config where
  agentId : Option String
  apiKey : Option String
  ingestEndpoint : Option String
  enrollCode : Option String
  enrollUrl : Option String

def Config.direct (cfg : Config) : Option Credentials :=
  match cfg.agentId, cfg.apiKey, cfg.ingestEndpoint with
  | some agentId, some token, some ingestEndpoint => some ⟨agentId, token, ingestEndpoint, none, none⟩
  | _, _, _ => none

def Config.exchange (cfg : Config) : Option (String × String) :=
  match cfg.enrollCode, cfg.enrollUrl with
  | some code, some url => some (code, url)
  | _, _ => none

/-- The credentials that an answer of the server gives. -/
def enrolled (url : String) (body : Json) : Option Credentials :=
  match body.getStr "agent_id", body.getStr "token", body.getStr "ingest_endpoint",
      Control.optional Json.asStr (body.get "tenant_id") with
  | some agentId, some token, some ingestEndpoint, some tenantId =>
    some { agentId, token, ingestEndpoint, tenantId, controlEndpoint := deriveControlEndpoint url }
  | _, _, _, _ => none

def noCredentials : String :=
  "no credentials available: set LYMON_ENROLL_CODE + LYMON_ENROLL_URL " ++
    "(recommended) or LYMON_API_KEY + LYMON_AGENT_ID + LYMON_INGEST_ENDPOINT"

/-- How the exchange of a code ends: no answer, with the code spent or not, another status
than success, or success and a body, which may be no JSON. -/
inductive Reply where
  | failed (spent : Bool)
  | rejected (status body : String)
  | granted (body : Option Json)

inductive Source where
  | stored
  | environment
  | enrollment
  deriving DecidableEq

inductive Phase where
  | off
  | posting (code url : String)
  | saving (c : Credentials)
  | writing (c : Credentials) (left : List Char)
  | running (c : Credentials)

/-- An installation: its file, what its agent is at, the codes that the server has taken, and
what `resolve` returned on each start. -/
structure Install where
  file : Option (List Char)
  phase : Phase
  spent : List String
  resolved : List (Except String (Source × Credentials))

inductive Event where
  | start (cfg : Config) (readable : Bool)
  | reply (r : Reply)
  /-- The file is opened, and truncated. -/
  | opened
  | openFails
  | write (n : ℕ)
  | writeFails
  | saved
  /-- The agent stops, or is stopped. -/
  | stop

def Install.runs (s : Install) (src : Source) (c : Credentials) : Install :=
  { s with phase := .running c, resolved := s.resolved ++ [.ok (src, c)] }

def Install.fails (s : Install) (e : String) : Install :=
  { s with phase := .off, resolved := s.resolved ++ [.error e] }

section

variable (R : JsonReader) (path : String)

/-- The stored credentials: a file that does not parse is as none. -/
def resolveStored (file : Option (List Char)) : Option Credentials :=
  (file.bind R.parse).bind Credentials.ofJson

def step (s : Install) : Event → Option Install
  | .start cfg readable =>
    match s.phase with
    | .off =>
      match if readable then resolveStored R s.file else none with
      | some c => some (s.runs .stored c)
      | none =>
        match cfg.direct with
        | some c => some (s.runs .environment c)
        | none =>
          match cfg.exchange with
          | some (code, url) => some { s with phase := .posting code url }
          | none => some (s.fails noCredentials)
    | _ => none
  | .reply r =>
    match s.phase with
    | .posting code url =>
      match r with
      | .failed spent =>
        some ({ s with spent := if spent then s.spent ++ [code] else s.spent }.fails "enrollment request failed")
      | .rejected status body =>
        some (s.fails ("enrollment rejected: HTTP " ++ status ++ " " ++ body))
      | .granted body =>
        match body.bind (enrolled url) with
        | none => some ({ s with spent := s.spent ++ [code] }.fails "parsing enrollment response")
        | some c => some { s with phase := .saving c, spent := s.spent ++ [code] }
    | _ => none
  | .opened =>
    match s.phase with
    | .saving c => some { s with file := some [], phase := .writing c c.pretty }
    | _ => none
  | .openFails =>
    match s.phase with
    | .saving _ => some (s.fails ("saving credentials to " ++ path))
    | _ => none
  | .write n =>
    match s.phase, s.file with
    | .writing c left, some text =>
      if n ≤ left.length then
        some { s with file := some (text ++ left.take n), phase := .writing c (left.drop n) }
      else none
    | _, _ => none
  | .writeFails =>
    match s.phase with
    | .writing _ _ => some (s.fails ("saving credentials to " ++ path))
    | _ => none
  | .saved =>
    match s.phase with
    | .writing c [] => some (s.runs .enrollment c)
    | _ => none
  | .stop => some { s with phase := .off }

end

/-- An installation whose agent is not running. -/
def atRest (file : Option (List Char)) (spent : List String)
    (resolved : List (Except String (Source × Credentials))) : Install := ⟨file, .off, spent, resolved⟩

/-- The server grants a code once. -/
def SingleUse (s : Install) : Event → Prop
  | .reply (.granted _) => ∀ code url, s.phase = .posting code url → code ∉ s.spent
  | _ => True

/-! ### The steps -/

section

variable (R : JsonReader) (path : String)

/-- The steps of an installation, one by one. -/
inductive TookStep (s : Install) : Event → Install → Prop
  | stored {c : Credentials} (cfg : Config) (hp : s.phase = .off) (hs : resolveStored R s.file = some c) :
    TookStep s (.start cfg true) (s.runs .stored c)
  | environment {c : Credentials} (cfg : Config) {readable : Bool} (hp : s.phase = .off)
    (hs : readable = true → resolveStored R s.file = none) (hd : cfg.direct = some c) :
    TookStep s (.start cfg readable) (s.runs .environment c)
  | posts {code url : String} (cfg : Config) {readable : Bool} (hp : s.phase = .off)
    (hs : readable = true → resolveStored R s.file = none) (hd : cfg.direct = none)
    (he : cfg.exchange = some (code, url)) :
    TookStep s (.start cfg readable) { s with phase := .posting code url }
  | noWay (cfg : Config) {readable : Bool} (hp : s.phase = .off)
    (hs : readable = true → resolveStored R s.file = none) :
    TookStep s (.start cfg readable) (s.fails noCredentials)
  | refused {code url : String} (r : Reply) (spent : List String) (e : String)
    (hp : s.phase = .posting code url) (hsp : spent = s.spent ∨ spent = s.spent ++ [code]) :
    TookStep s (.reply r) ({ s with spent }.fails e)
  | granted {code url : String} {c : Credentials} {body : Option Json} (hp : s.phase = .posting code url)
    (hb : body.bind (enrolled url) = some c) :
    TookStep s (.reply (.granted body)) { s with phase := .saving c, spent := s.spent ++ [code] }
  | opened {c : Credentials} (hp : s.phase = .saving c) :
    TookStep s .opened { s with file := some [], phase := .writing c c.pretty }
  | openFails {c : Credentials} (e : String) (hp : s.phase = .saving c) : TookStep s .openFails (s.fails e)
  | write {c : Credentials} {left text : List Char} (n : ℕ) (hp : s.phase = .writing c left)
    (hf : s.file = some text) : TookStep s (.write n)
      { s with file := some (text ++ left.take n), phase := .writing c (left.drop n) }
  | writeFails {c : Credentials} {left : List Char} (e : String) (hp : s.phase = .writing c left) :
    TookStep s .writeFails (s.fails e)
  | saved {c : Credentials} (hp : s.phase = .writing c []) : TookStep s .saved (s.runs .enrollment c)
  | stop : TookStep s .stop { s with phase := .off }

variable {R path}

theorem tookStep_of_step {s t : Install} {e : Event} (h : step R path s e = some t) : TookStep R s e t := by
  cases e with
  | start cfg readable =>
    simp only [step] at h
    split at h
    · rename_i hp
      split at h
      · rename_i c hs
        obtain rfl := Option.some.inj h
        cases readable with
        | true => exact .stored cfg hp hs
        | false => cases hs
      · rename_i hs
        have hnone : readable = true → resolveStored R s.file = none := by
          rintro rfl
          exact hs
        split at h
        · rename_i c hd
          obtain rfl := Option.some.inj h
          exact .environment cfg hp hnone hd
        · rename_i hd
          split at h
          · rename_i he
            obtain rfl := Option.some.inj h
            exact .posts cfg hp hnone hd he
          · obtain rfl := Option.some.inj h
            exact .noWay cfg hp hnone
    · cases h
  | reply r =>
    simp only [step] at h
    split at h
    · rename_i code url hp
      split at h
      · rename_i spent
        obtain rfl := Option.some.inj h
        exact .refused _ _ _ hp (by cases spent <;> simp)
      · obtain rfl := Option.some.inj h
        exact .refused _ s.spent _ hp (Or.inl rfl)
      · split at h
        · obtain rfl := Option.some.inj h
          exact .refused _ _ _ hp (Or.inr rfl)
        · rename_i c hb
          obtain rfl := Option.some.inj h
          exact .granted hp hb
    · cases h
  | opened =>
    simp only [step] at h
    split at h
    · rename_i hp
      obtain rfl := Option.some.inj h
      exact .opened hp
    · cases h
  | openFails =>
    simp only [step] at h
    split at h
    · rename_i hp
      obtain rfl := Option.some.inj h
      exact .openFails _ hp
    · cases h
  | write n =>
    simp only [step] at h
    split at h
    · rename_i hp hf
      split at h
      · obtain rfl := Option.some.inj h
        exact .write n hp hf
      · cases h
    · cases h
  | writeFails =>
    simp only [step] at h
    split at h
    · rename_i hp
      obtain rfl := Option.some.inj h
      exact .writeFails _ hp
    · cases h
  | saved =>
    simp only [step] at h
    split at h
    · rename_i hp
      obtain rfl := Option.some.inj h
      exact .saved hp
    · cases h
  | stop =>
    obtain rfl := Option.some.inj h
    exact .stop

end

variable {R : JsonReader} {path : String}

/-! ### The file -/

theorem ofJson_toJson (c : Credentials) : Credentials.ofJson c.toJson = some c := by
  obtain ⟨a, t, i, _ | tenant, _ | control⟩ := c <;> rfl

theorem resolveStored_pretty (c : Credentials) : resolveStored R (some c.pretty) = some c := by
  simp [resolveStored, R.parse_pretty, ofJson_toJson]

theorem quoted_member {k x y s t : List Char} {a b : String}
    (h : k ++ (quoted a ++ x) ++ s = k ++ (quoted b ++ y) ++ t) : a = b ∧ x ++ s = y ++ t := by
  simp only [List.append_assoc, List.append_cancel_left_eq] at h
  exact quoted_inj h

theorem quotedOption_member {k x y s t : List Char} {a b : Option String}
    (h : k ++ (quotedOption a ++ x) ++ s = k ++ (quotedOption b ++ y) ++ t) : a = b ∧ x ++ s = y ++ t := by
  simp only [List.append_assoc, List.append_cancel_left_eq] at h
  cases a <;> cases b
  · exact ⟨rfl, List.append_cancel_left h⟩
  · cases (List.cons.inj h).1
  · cases (List.cons.inj h).1
  · obtain ⟨rfl, hrest⟩ := quoted_inj h
    exact ⟨rfl, hrest⟩

/-- A file that was written whole is the beginning of no other. -/
theorem pretty_inj {c d : Credentials} {s t : List Char} (h : c.pretty ++ s = d.pretty ++ t) : c = d ∧ s = t := by
  obtain ⟨agentId, token, ingestEndpoint, tenantId, controlEndpoint⟩ := c
  obtain ⟨agentId', token', ingestEndpoint', tenantId', controlEndpoint'⟩ := d
  unfold Credentials.pretty at h
  obtain ⟨rfl, h⟩ := quoted_member h
  obtain ⟨rfl, h⟩ := quoted_member h
  obtain ⟨rfl, h⟩ := quoted_member h
  obtain ⟨rfl, h⟩ := quotedOption_member h
  obtain ⟨rfl, h⟩ := quotedOption_member h
  exact ⟨rfl, List.append_cancel_left h⟩

open Classical in
/-- A parser of the files that were written whole, and of no others. -/
noncomputable def wholeFiles : JsonReader where
  parse s := if h : ∃ c : Credentials, c.pretty = s then some h.choose.toJson else none
  parse_pretty c := by
    have h : ∃ d : Credentials, d.pretty = c.pretty := ⟨c, rfl⟩
    have hsame : h.choose = c := (pretty_inj (congrArg (· ++ []) h.choose_spec)).1
    rw [dif_pos h, hsame]
  parse_cut c s hs hne := by
    refine dif_neg ?_
    rintro ⟨d, rfl⟩
    obtain ⟨r, hr⟩ := hs
    obtain ⟨rfl, -⟩ := pretty_inj (hr.trans (List.append_nil _).symm)
    exact hne rfl

/-! ### One enrollment -/

/-- An answer of the server that grants a code. -/
def grant : Json := .obj [("agent_id", .str "edge"), ("ingest_endpoint", .str "ingest"), ("token", .str "t")]

def granted (url : String) : Credentials := ⟨"edge", "t", "ingest", none, deriveControlEndpoint url⟩

/-- An enrollment that nothing stops. -/
def enrolls (cfg : Config) (url : String) : List Event :=
  [.start cfg true, .reply (.granted (some grant)), .opened, .write (granted url).pretty.length, .saved]

theorem step_posts {cfg : Config} {file : Option (List Char)} {spent : List String}
    {resolved : List (Except String (Source × Credentials))} {code url : String}
    (hs : resolveStored R file = none) (hd : cfg.direct = none) (he : cfg.exchange = some (code, url)) :
    step R path (atRest file spent resolved) (.start cfg true) = some ⟨file, .posting code url, spent, resolved⟩ := by
  simp [step, atRest, hs, hd, he]

theorem run_enrolls {cfg : Config} {file : Option (List Char)} {spent : List String}
    {resolved : List (Except String (Source × Credentials))} {code url : String}
    (hs : resolveStored R file = none) (hd : cfg.direct = none) (he : cfg.exchange = some (code, url)) :
    run (step R path) (atRest file spent resolved) (enrolls cfg url) =
      some ((atRest (some (granted url).pretty) (spent ++ [code]) resolved).runs .enrollment (granted url)) := by
  have hwrite : step R path ⟨some [], .writing (granted url) (granted url).pretty, spent ++ [code], resolved⟩
      (.write (granted url).pretty.length) =
        some ⟨some (granted url).pretty, .writing (granted url) [], spent ++ [code], resolved⟩ := by
    simp [step]
  refine run_cons.mpr ⟨_, step_posts hs hd he, ?_⟩
  refine run_cons.mpr ⟨⟨file, .saving (granted url), spent ++ [code], resolved⟩, rfl, ?_⟩
  exact run_cons.mpr ⟨_, rfl, run_cons.mpr ⟨_, hwrite, rfl⟩⟩

/-! ### One set of credentials -/

/-- After credentials that are stored, a start resolves to the same, from the file. -/
def Followed (a b : Except String (Source × Credentials)) : Prop :=
  ∀ src c, a = .ok (src, c) → src ≠ .environment → b = .ok (.stored, c)

/-- No start has stored or read credentials. -/
def OnlyEnvironment (l : List (Except String (Source × Credentials))) : Prop :=
  ∀ src c, .ok (src, c) ∈ l → src = .environment

/-- Credentials that were stored or read are in the file, and what is about to be written,
or being written, is the first. -/
structure Kept (R : JsonReader) (s : Install) : Prop where
  file : ∀ src c, .ok (src, c) ∈ s.resolved → src ≠ .environment → resolveStored R s.file = some c
  order : s.resolved.Pairwise Followed
  posting : ∀ code url, s.phase = .posting code url → resolveStored R s.file = none
  saving : ∀ c, s.phase = .saving c → resolveStored R s.file = none
  writing : ∀ c left, s.phase = .writing c left →
    (∃ text, s.file = some text ∧ text ++ left = c.pretty) ∧ OnlyEnvironment s.resolved

theorem Kept.only {s : Install} (h : Kept R s) (hs : resolveStored R s.file = none) :
    OnlyEnvironment s.resolved := fun src c hmem => by
  by_contra hne
  exact Option.some_ne_none c ((h.file src c hmem hne).symm.trans hs)

theorem order_concat {l : List (Except String (Source × Credentials))} {b : Except String (Source × Credentials)}
    (h : l.Pairwise Followed) (hb : ∀ a ∈ l, Followed a b) : (l ++ [b]).Pairwise Followed :=
  List.pairwise_append.mpr ⟨h, List.pairwise_singleton _ _, fun a ha _ hc => List.mem_singleton.mp hc ▸ hb a ha⟩

theorem OnlyEnvironment.followed {l : List (Except String (Source × Credentials))} (h : OnlyEnvironment l)
    (b : Except String (Source × Credentials)) : ∀ a ∈ l, Followed a b := by
  rintro a ha src c rfl hne
  exact absurd (h src c ha) hne

/-- A start that fails, of an agent that has no credentials stored. -/
theorem kept_fails {s : Install} {spent : List String} (e : String) (ho : s.resolved.Pairwise Followed)
    (honly : OnlyEnvironment s.resolved) : Kept R ({ s with spent }.fails e) where
  file src c hmem hne := by
    rcases List.mem_append.mp hmem with hmem | hmem
    · exact absurd (honly src c hmem) hne
    · cases List.mem_singleton.mp hmem
  order := order_concat ho (honly.followed _)
  posting _ _ hp := Phase.noConfusion hp
  saving _ hp := Phase.noConfusion hp
  writing _ _ hp := Phase.noConfusion hp

/-- A start that succeeds. -/
theorem kept_runs {s : Install} {src : Source} {c : Credentials} (ho : s.resolved.Pairwise Followed)
    (hfile : ∀ x d, .ok (x, d) ∈ s.resolved → x ≠ .environment → resolveStored R s.file = some d)
    (hnew : src ≠ .environment → resolveStored R s.file = some c)
    (hsame : ∀ x d, .ok (x, d) ∈ s.resolved → x ≠ .environment → src = .stored ∧ d = c) :
    Kept R (s.runs src c) where
  file x d hmem hne := by
    rcases List.mem_append.mp hmem with hmem | hmem
    · exact hfile x d hmem hne
    · obtain ⟨rfl, rfl⟩ := Prod.mk.inj (Except.ok.inj (List.mem_singleton.mp hmem))
      exact hnew hne
  order := by
    refine order_concat ho ?_
    rintro a ha x d rfl hne
    obtain ⟨rfl, rfl⟩ := hsame x d ha hne
    rfl
  posting _ _ hp := Phase.noConfusion hp
  saving _ hp := Phase.noConfusion hp
  writing _ _ hp := Phase.noConfusion hp

theorem kept_step {s t : Install} {e : Event} (hs : Kept R s) (hread : ∀ cfg, e ≠ .start cfg false)
    (h : step R path s e = some t) : Kept R t := by
  have htrue : ∀ {cfg readable}, e = .start cfg readable → readable = true := by
    intro cfg readable he
    cases readable with
    | true => rfl
    | false => exact absurd he (hread cfg)
  cases tookStep_of_step h with
  | @stored c cfg hp hstored =>
    refine kept_runs hs.order hs.file (fun _ => hstored) fun x d hmem hne => ⟨rfl, ?_⟩
    exact Option.some.inj ((hs.file x d hmem hne).symm.trans hstored)
  | environment cfg hp hnone hd =>
    exact kept_runs hs.order hs.file (fun hne => absurd rfl hne) fun x d hmem hne =>
      absurd (hs.only (hnone (htrue rfl)) x d hmem) hne
  | posts cfg hp hnone hd he =>
    refine ⟨hs.file, hs.order, fun _ _ _ => hnone (htrue rfl), ?_, ?_⟩
    · exact fun _ hp' => Phase.noConfusion hp'
    · exact fun _ _ hp' => Phase.noConfusion hp'
  | noWay cfg hp hnone => exact kept_fails _ hs.order (hs.only (hnone (htrue rfl)))
  | refused r spent m hp => exact kept_fails m hs.order (hs.only (hs.posting _ _ hp))
  | granted hp hb =>
    refine ⟨hs.file, hs.order, ?_, fun _ _ => hs.posting _ _ hp, ?_⟩
    · exact fun _ _ hp' => Phase.noConfusion hp'
    · exact fun _ _ hp' => Phase.noConfusion hp'
  | @opened c hp =>
    have honly := hs.only (hs.saving c hp)
    refine ⟨fun src d hmem hne => absurd (honly src d hmem) hne, hs.order, ?_, ?_, fun d left hp' => ?_⟩
    · exact fun _ _ hp' => Phase.noConfusion hp'
    · exact fun _ hp' => Phase.noConfusion hp'
    · obtain ⟨rfl, rfl⟩ := Phase.writing.inj hp'
      exact ⟨⟨[], rfl, rfl⟩, honly⟩
  | openFails m hp => exact kept_fails m hs.order (hs.only (hs.saving _ hp))
  | @write c left text n hp hf =>
    obtain ⟨⟨text', hf', htext⟩, honly⟩ := hs.writing c left hp
    obtain rfl := Option.some.inj (hf'.symm.trans hf)
    refine ⟨fun src d hmem hne => absurd (honly src d hmem) hne, hs.order, ?_, ?_, fun d left' hp' => ?_⟩
    · exact fun _ _ hp' => Phase.noConfusion hp'
    · exact fun _ hp' => Phase.noConfusion hp'
    · obtain ⟨rfl, rfl⟩ := Phase.writing.inj hp'
      exact ⟨⟨_, rfl, by rw [List.append_assoc, List.take_append_drop, htext]⟩, honly⟩
  | @writeFails c left m hp => exact kept_fails m hs.order (hs.writing c left hp).2
  | @saved c hp =>
    obtain ⟨⟨text, hf, htext⟩, honly⟩ := hs.writing c [] hp
    rw [List.append_nil] at htext
    refine kept_runs hs.order hs.file (fun _ => ?_) fun x d hmem hne => absurd (honly x d hmem) hne
    rw [hf, htext, resolveStored_pretty]
  | stop =>
    refine ⟨hs.file, hs.order, ?_, ?_, ?_⟩
    · exact fun _ _ hp' => Phase.noConfusion hp'
    · exact fun _ hp' => Phase.noConfusion hp'
    · exact fun _ _ hp' => Phase.noConfusion hp'

theorem kept_atRest (file : Option (List Char)) (spent : List String) : Kept R (atRest file spent []) where
  file _ _ hmem := absurd hmem List.not_mem_nil
  order := .nil
  posting _ _ hp := Phase.noConfusion hp
  saving _ hp := Phase.noConfusion hp
  writing _ _ hp := Phase.noConfusion hp

/-- **An installation enrolls once.** Whatever its file held, over every run of starts, stops,
exchanges and writes, with what the environment gives different on each start, in which the
file can be read: once a start has come up on credentials it read or enrolled for, they are
in the file in every state from then on, every later start comes up on the same, read from
the file, and no code is posted. -/
theorem enrolled_once {file : Option (List Char)} {spent : List String} {es : List Event} {t : Install}
    (hread : ∀ cfg, .start cfg false ∉ es) (h : run (step R path) (atRest file spent []) es = some t) :
    t.resolved.Pairwise Followed ∧ ∀ src c, .ok (src, c) ∈ t.resolved → src ≠ .environment →
      resolveStored R t.file = some c ∧ ∀ code url, t.phase ≠ .posting code url := by
  have hevents : ∀ e ∈ es, ∀ cfg, e ≠ .start cfg false := by
    rintro e he cfg rfl
    exact hread cfg he
  have hstep : ∀ s e u, Kept R s → (∀ cfg, e ≠ .start cfg false) → step R path s e = some u → Kept R u :=
    fun _ _ _ => kept_step
  have hkept : Kept R t := each_run hstep (each_of_mem fun e he _ => hevents e he) (kept_atRest file spent) h
  refine ⟨hkept.order, fun src c hmem hne => ?_⟩
  have hstored := hkept.file src c hmem hne
  exact ⟨hstored, fun code url hp => Option.some_ne_none c (hstored.symm.trans (hkept.posting code url hp))⟩

/-- What the environment gives of an agent that is to enroll. -/
def enrolling (code : String) : Config :=
  ⟨none, none, none, some code, some "https://host/api/agent/enroll"⟩

/-- A start that enrolls, and one with another code. -/
theorem enrolled_once_twice : ∃ es t,
    run (step wholeFiles "credentials.json") (atRest none [] []) es = some t ∧
      t.resolved.map (·.map Prod.fst) = [.ok .enrollment, .ok .stored] ∧ t.resolved.Pairwise Followed := by
  let url := "https://host/api/agent/enroll"
  let es : List Event := enrolls (enrolling "first") url ++ [.stop, .start (enrolling "second") true]
  let home : Install := atRest (some (granted url).pretty) ["first"] [.ok (.enrollment, granted url)]
  have hstart : step wholeFiles "credentials.json" home (.start (enrolling "second") true) =
      some (home.runs .stored (granted url)) := by
    simp [step, home, atRest, resolveStored_pretty]
  have hrun : run (step wholeFiles "credentials.json") (atRest none [] []) es =
      some (home.runs .stored (granted url)) :=
    run_append.mpr ⟨_, run_enrolls rfl rfl rfl, run_cons.mpr ⟨home, rfl, run_cons.mpr ⟨_, hstart, rfl⟩⟩⟩
  refine ⟨es, _, hrun, rfl, (enrolled_once (fun cfg hmem => ?_) hrun).1⟩
  simp [es, enrolls] at hmem

/-! ### Lost credentials -/

/-- The agent can come up, with what this environment gives: some run of starts, stops,
exchanges and writes brings it up, where the server grants a code once. -/
def CanStart (R : JsonReader) (path : String) (cfg : Config) (s : Install) : Prop :=
  ∃ es t c, (∀ cfg' readable, .start cfg' readable ∈ es → cfg' = cfg) ∧
    Each (step R path) SingleUse s es ∧ run (step R path) s es = some t ∧ t.phase = .running c

/-- No credentials are stored, and the code there is has been spent. -/
structure Stranded (R : JsonReader) (cfg : Config) (s : Install) : Prop where
  file : resolveStored R s.file = none
  spent : ∀ code url, cfg.exchange = some (code, url) → code ∈ s.spent
  phase : s.phase = .off ∨ ∃ code url, cfg.exchange = some (code, url) ∧ s.phase = .posting code url

theorem stranded_step {cfg : Config} {s t : Install} {e : Event} (hd : cfg.direct = none)
    (hs : Stranded R cfg s) (hcfg : ∀ cfg' readable, e = .start cfg' readable → cfg' = cfg)
    (hu : SingleUse s e) (h : step R path s e = some t) : Stranded R cfg t := by
  have hsaving : ∀ c, s.phase ≠ .saving c := by
    rcases hs.phase with hp | ⟨code, url, -, hp⟩ <;> rw [hp] <;> exact fun _ => Phase.noConfusion
  have hwriting : ∀ c left, s.phase ≠ .writing c left := by
    rcases hs.phase with hp | ⟨code, url, -, hp⟩ <;> rw [hp] <;> exact fun _ _ => Phase.noConfusion
  cases tookStep_of_step h with
  | stored cfg' hp hstored => cases hs.file.symm.trans hstored
  | environment cfg' hp hnone hd' =>
    obtain rfl := hcfg cfg' _ rfl
    cases hd.symm.trans hd'
  | @posts code url cfg' readable hp hnone hd' he =>
    obtain rfl := hcfg cfg' _ rfl
    exact ⟨hs.file, hs.spent, Or.inr ⟨code, url, he, rfl⟩⟩
  | noWay cfg' hp hnone => exact ⟨hs.file, hs.spent, Or.inl rfl⟩
  | @refused code url r spent m hp hsp =>
    refine ⟨hs.file, fun code' url' he => ?_, Or.inl rfl⟩
    rcases hsp with rfl | rfl
    · exact hs.spent code' url' he
    · exact List.mem_append_left _ (hs.spent code' url' he)
  | @granted code url c body hp hb =>
    -- a spent code is not granted again
    rcases hs.phase with hp' | ⟨code', url', he, hp'⟩
    · cases hp.symm.trans hp'
    · obtain ⟨rfl, rfl⟩ := Phase.posting.inj (hp.symm.trans hp')
      exact absurd (hs.spent code url he) (hu code url hp)
  | opened hp | openFails m hp => exact absurd hp (hsaving _)
  | write n hp hf => exact absurd hp (hwriting _ _)
  | writeFails m hp => exact absurd hp (hwriting _ _)
  | saved hp => exact absurd hp (hwriting _ _)
  | stop => exact ⟨hs.file, hs.spent, Or.inl rfl⟩

/-- A start that finds credentials needs no other step. -/
theorem canStart_of_start {cfg : Config} {s : Install} (src : Source) (c : Credentials)
    (h : step R path s (.start cfg true) = some (s.runs src c)) : CanStart R path cfg s := by
  refine ⟨[.start cfg true], s.runs src c, c, ?_, ⟨trivial, fun _ _ => trivial⟩, run_cons.mpr ⟨_, h, rfl⟩, rfl⟩
  intro cfg' readable hmem
  exact (Event.start.inj (List.mem_singleton.mp hmem)).1

/-- A code that the server still grants brings the agent up, if nothing stops it. -/
theorem canStart_of_code {cfg : Config} {file : Option (List Char)} {spent : List String}
    {resolved : List (Except String (Source × Credentials))} {code url : String}
    (hs : resolveStored R file = none) (hd : cfg.direct = none) (he : cfg.exchange = some (code, url))
    (hfresh : code ∉ spent) : CanStart R path cfg (atRest file spent resolved) := by
  refine ⟨enrolls cfg url, _, granted url, fun cfg' readable hmem => ?_, ?_, run_enrolls hs hd he, rfl⟩
  · simp only [enrolls, List.mem_cons, Event.start.injEq, reduceCtorEq, List.not_mem_nil, or_false] at hmem
    exact hmem.1
  · refine ⟨trivial, fun s hs' => ⟨?_, fun _ _ => ⟨trivial, fun _ _ => ⟨trivial, fun _ _ => ⟨trivial, ?_⟩⟩⟩⟩⟩
    · obtain rfl := Option.some.inj ((step_posts hs hd he).symm.trans hs')
      rintro _ _ ⟨⟩
      exact hfresh
    · exact fun _ _ => trivial

/-- **A stop can cost the installation its credentials.** With what the environment gives, the
agent can come up exactly when its file holds credentials, the environment gives them, or it
gives a code that the server has not granted before: where the agent stops after the server
has answered and before the file is whole, no later start with that code comes up. -/
theorem can_start_iff (R : JsonReader) (path : String) (cfg : Config) (file : Option (List Char))
    (spent : List String) (resolved : List (Except String (Source × Credentials))) :
    CanStart R path cfg (atRest file spent resolved) ↔
      (∃ c, resolveStored R file = some c) ∨ (∃ c, cfg.direct = some c) ∨
        ∃ code url, cfg.exchange = some (code, url) ∧ code ∉ spent := by
  constructor
  · rintro ⟨es, t, c, hcfg, hu, hrun, hp⟩
    by_contra hnone
    simp only [not_or, not_exists, not_and, not_not] at hnone
    obtain ⟨hs, hd, he⟩ := hnone
    have hstart : Stranded R cfg (atRest file spent resolved) :=
      ⟨Option.eq_none_iff_forall_ne_some.mpr hs, he, Or.inl rfl⟩
    have hevents : ∀ e ∈ es, ∀ cfg' readable, e = .start cfg' readable → cfg' = cfg := by
      rintro e hmem cfg' readable rfl
      exact hcfg cfg' readable hmem
    have hstep : ∀ s e u, Stranded R cfg s → (SingleUse s e ∧ ∀ cfg' readable, e = .start cfg' readable → cfg' = cfg) →
        step R path s e = some u → Stranded R cfg u := fun _ _ _ hstr hP hu' =>
      stranded_step (Option.eq_none_iff_forall_ne_some.mpr hd) hstr hP.2 hP.1 hu'
    have hstr := each_run hstep (hu.and (each_of_mem fun e he _ => hevents e he)) hstart hrun
    rcases hstr.phase with hp' | ⟨code, url, -, hp'⟩ <;> cases hp.symm.trans hp'
  · intro h
    cases hs : resolveStored R file with
    | some c => exact canStart_of_start .stored c (by simp [step, atRest, hs])
    | none =>
      cases hd : cfg.direct with
      | some c => exact canStart_of_start .environment c (by simp [step, atRest, hs, hd])
      | none =>
        rcases h with ⟨c, h⟩ | ⟨c, h⟩ | ⟨code, url, he, hfresh⟩
        · cases hs.symm.trans h
        · cases hd.symm.trans h
        · exact canStart_of_code hs hd he hfresh

end Enroll
end LymonAgent
