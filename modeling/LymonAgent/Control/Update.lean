/-
# Self-update requests

`request_update` (`src/control.rs`) writes the version and the repository of a
request to a file, which `update.sh` (`install/agent.sh`) or `update.ps1`
(`install/agent.ps1`) reads, checks again and makes a download address of.

The three accept the same characters. What a repository is made of is up to the
last: `request_update` and `update.sh` take one with an empty part, and all three
take parts of dots, which lead to another address. `safe_request_iff` says that
nothing else can go wrong.

Key definitions: `requestUpdate`, `sed`, `updateSh`, `updatePs1`, `OneRelease`.
-/
import LymonAgent.Json
import LymonAgent.Segments
import Mathlib.Data.List.DropRight

namespace LymonAgent
namespace Update

open Text

/-! ### The request -/

/-- A letter or a digit, a dot, an underscore or a dash. -/
def nameChar (c : Char) : Bool := c.isAlphanum || c = '.' || c = '_' || c = '-'

def repoChar (c : Char) : Bool := nameChar c || c = '/'

/-- `strip_prefix('v').unwrap_or(s)`. -/
def tagBody (s : String) : List Char :=
  match s.toList with
  | 'v' :: cs => cs
  | cs => cs

def safeTag (s : String) : Bool :=
  tagBody s ≠ [] && (String.ofList (tagBody s)).utf8ByteSize ≤ 64 && (tagBody s).all nameChar

def safeRepo (r : String) : Bool :=
  r.utf8ByteSize ≤ 140 && r.toList.count '/' = 1 && r.toList.all repoChar

inductive UpdateError where
  | invalidVersion (version : String)
  | invalidRepo (repo : String)

def updatePayload (version : String) : Option String → Json
  | some r => .obj [("repo", .str r), ("version", .str version)]
  | none => .obj [("version", .str version)]

/-- `request_update`, with the payload it writes to the file. -/
def requestUpdate (version : String) (repo : Option String) : Except UpdateError Json :=
  if !safeTag version then .error (.invalidVersion version)
  else
    match repo with
    | some r => if !safeRepo r then .error (.invalidRepo r) else .ok (updatePayload version repo)
    | none => .ok (updatePayload version repo)

def repoDefault : String := "lybits/lymon-agent"

/-- What a script makes of a request. -/
structure Download where
  version : String
  repo : String
  tag : String
  url : String

def url (repo tag bundle : String) : String :=
  "https://github.com/" ++ repo ++ "/releases/download/" ++ tag ++ "/" ++ bundle

/-! ### The shell script -/

/-- `[[:space:]]`. -/
def isSpace (c : Char) : Bool := c = ' ' || (9 ≤ c.toNat && c.toNat ≤ 13)

/-- What `[[:space:]]*:[[:space:]]*"\([^"]*\)"` captures at the start of a text. -/
def valueAfter (l : List Char) : Option (List Char) :=
  match l.dropWhile isSpace with
  | ':' :: l =>
    match l.dropWhile isSpace with
    | '"' :: l => if '"' ∈ l then some (l.takeWhile (· ≠ '"')) else none
    | _ => none
  | _ => none

/-- The same with the key in quotation marks before it. -/
def fieldAt (key l : List Char) : Option (List Char) :=
  (('"' :: (key ++ ['"'])).isPrefixOf? l).bind valueAfter

/-- `s/.*"key"[[:space:]]*:[[:space:]]*"\([^"]*\)".*/\1/`: the first `.*` takes as much as
it can, so it is the last field that counts. -/
def sedLine (key : List Char) : List Char → Option (List Char)
  | [] => none
  | c :: cs => (sedLine key cs).or (fieldAt key (c :: cs))

/-- `$(sed -n 's/…/\1/p')`: what each line captures, without the newlines at the end. -/
def sed (key file : String) : String :=
  .ofList ((['\n'].intercalate (((split '\n' file).map String.toList).filterMap (sedLine key.toList))).rdropWhile
    (· = '\n'))

/-- `grep -q` for a character that is not `p`. -/
def grepNot (p : Char → Bool) (s : String) : Bool := s.toList.any fun c => c ≠ '\n' && !p c

/-- The platform, by `uname -s` and `uname -m`. -/
def slugOf (os arch : String) : Except String String :=
  if os = "Darwin" then
    if arch = "arm64" ∨ arch = "aarch64" then .ok "macos-arm64" else .error "unsupported mac arch"
  else if os = "Linux" then
    if arch = "x86_64" ∨ arch = "amd64" then .ok "linux-x86_64" else .error "unsupported linux arch"
  else .error "unsupported os"

/-- `case "$TAG" in v*) : ;; *) TAG="v$TAG" ;; esac`. -/
def tagSh (version : String) : String :=
  if version.toList.head? = some 'v' then version else "v" ++ version

def bundleSh (slug : String) : String := "lymon-agent-" ++ slug ++ ".tar.gz"

def updateSh (os arch file : String) : Except String Download :=
  let version := sed "version" file
  let repo := if sed "repo" file ≠ "" then sed "repo" file else repoDefault
  if version = "" || grepNot nameChar version then
    .error ("lymon-agent update: bad version '" ++ version ++ "'; dropping trigger")
  else if grepNot repoChar repo then
    .error ("lymon-agent update: bad repo '" ++ repo ++ "'; dropping trigger")
  else (slugOf os arch).map fun slug =>
    { version, repo, tag := tagSh version, url := url repo (tagSh version) (bundleSh slug) }

/-! ### The PowerShell script -/

/-- What the script asks of PowerShell: to read JSON, to put a value into a text, and
to take one for a condition. -/
structure PowerShell where
  convertFromJson : String → Except String Json
  interpolate : Option Json → String
  truthy : Option Json → Bool
  interpolate_str : ∀ s, interpolate (some (.str s)) = s
  truthy_str : ∀ s, truthy (some (.str s)) = true ↔ s ≠ ""
  truthy_null : truthy none = false

/-- `[…]+$`: the end may stand before a last newline. -/
def plusEnd (p : Char → Bool) (l : List Char) : Bool :=
  let word := if l.getLast? = some '\n' then l.dropLast else l
  word ≠ [] && word.all p

/-- `-match '^v?[0-9A-Za-z._-]+$'`; `-match` does not look at the case. -/
def matchesVersion (s : String) : Bool :=
  match s.toList with
  | [] => false
  | c :: cs => (c.toLower = 'v' && plusEnd nameChar cs) || plusEnd nameChar (c :: cs)

/-- `-match '^[0-9A-Za-z._-]+/[0-9A-Za-z._-]+$'`. -/
def matchesRepo (s : String) : Bool :=
  s.toList.takeWhile nameChar ≠ [] &&
    match s.toList.dropWhile nameChar with
    | '/' :: cs => plusEnd nameChar cs
    | _ => false

/-- `-like 'v*'` does not look at the case either. -/
def tagPs1 (version : String) : String :=
  if version.toList.head?.map Char.toLower = some 'v' then version else "v" ++ version

def bundlePs1 : String := "lymon-agent-windows-x86_64.zip"

def updatePs1 (P : PowerShell) (file : String) : Except String Download := do
  let req ← P.convertFromJson file
  let version := P.interpolate (req.get "version")
  let repo := if P.truthy (req.get "repo") then P.interpolate (req.get "repo") else repoDefault
  if !matchesVersion version then throw ("bad version '" ++ version ++ "'")
  if !matchesRepo repo then throw ("bad repo '" ++ repo ++ "'")
  return { version, repo, tag := tagPs1 version, url := url repo (tagPs1 version) bundlePs1 }

/-! ### One release of one repository -/

/-- The segments of the path of an `https` address. -/
def pathSegments (address : String) : List String := (split '/' address).drop 3

/-- The download is of one release of the repository named. -/
structure OneRelease (version repo bundle : String) (d : Download) : Prop where
  readVersion : d.version = version
  readRepo : d.repo = repo
  tagged : d.tag = version ∨ d.tag = "v" ++ version
  address : ∃ owner name, split '/' repo = [owner, name] ∧
    (owner ≠ "" ∧ name ≠ "") ∧ (¬Segments.IsDots owner ∧ ¬Segments.IsDots name) ∧
    d.url = "https://github.com/" ++ owner ++ "/" ++ name ++ "/releases/download/" ++ d.tag ++ "/" ++ bundle ∧
    Segments.normalize (pathSegments d.url) = [owner, name, "releases", "download", d.tag, bundle]

/-- Both scripts accept the file, and download one release. -/
structure SafeRequest (P : PowerShell) (version repo file : String) : Prop where
  sh : ∀ os arch slug, slugOf os arch = .ok slug →
    ∃ d, updateSh os arch file = .ok d ∧ OneRelease version repo (bundleSh slug) d
  ps1 : ∃ d, updatePs1 P file = .ok d ∧ OneRelease version repo bundlePs1 d

/-- Every part of a repository's name is a name. -/
def Named (repo : String) : Prop := ∀ part ∈ split '/' repo, part ≠ "" ∧ ¬Segments.IsDots part

instance : DecidablePred Named := fun repo =>
  inferInstanceAs (Decidable (∀ part ∈ split '/' repo, part ≠ "" ∧ ¬Segments.IsDots part))

variable {F : FloatText} {P : PowerShell} {version repo bundle : String} {repo? : Option String} {payload : Json}

/-! ### What is accepted -/

theorem not_mem_escaped {c : Char} (h : repoChar c = true) : c ∉ escaped := by
  have hall : (escaped.all fun c => !repoChar c) = true := by decide
  intro hmem
  have hc := List.all_eq_true.mp hall c hmem
  rw [h] at hc
  cases hc

theorem repoChar_of_nameChar {c : Char} (h : nameChar c = true) : repoChar c = true := by
  rw [repoChar, h, Bool.true_or]

/-- A version accepted is made of names' characters. -/
theorem nameChar_of_safeTag (h : safeTag version = true) : ∀ c ∈ version.toList, nameChar c = true := by
  rw [safeTag, Bool.and_eq_true] at h
  have hall := List.all_eq_true.mp h.2
  intro c hc
  unfold tagBody at hall
  split at hall
  · rename_i cs hcs
    rw [hcs] at hc
    rcases List.mem_cons.mp hc with rfl | hc
    · decide
    · exact hall c hc
  · exact hall c hc

theorem ne_empty_of_safeTag (h : safeTag version = true) : version ≠ "" := by
  rintro rfl
  exact absurd h (by decide)

theorem ne_empty_of_safeRepo (h : safeRepo repo = true) : repo ≠ "" := by
  rintro rfl
  exact absurd h (by decide)

/-- A repository accepted is two texts of names' characters with a slash between. -/
theorem parts_of_safeRepo (h : safeRepo repo = true) : ∃ owner name, repo = owner ++ ("/" ++ name) ∧
    (∀ c ∈ owner.toList, nameChar c = true) ∧ ∀ c ∈ name.toList, nameChar c = true := by
  rw [safeRepo, Bool.and_eq_true, Bool.and_eq_true, decide_eq_true_eq, decide_eq_true_eq] at h
  obtain ⟨⟨-, hcount⟩, hall⟩ := h
  have hmem : '/' ∈ repo.toList := List.count_pos_iff.mp (by omega)
  obtain ⟨a, b, hab⟩ := List.append_of_mem hmem
  rw [hab, List.count_append, List.count_cons_self] at hcount
  -- one slash is the one between the parts
  have hname : ∀ l : List Char, l ⊆ repo.toList → l.count '/' = 0 → ∀ c ∈ l, nameChar c = true := by
    intro l hl hzero c hc
    have hrepo := List.all_eq_true.mp hall c (hl hc)
    rw [repoChar, Bool.or_eq_true, decide_eq_true_eq] at hrepo
    rcases hrepo with hrepo | rfl
    · exact hrepo
    · exact absurd hc (List.count_eq_zero.mp hzero)
  refine ⟨.ofList a, .ofList b, ?_, ?_, ?_⟩
  · rw [← String.toList_inj, hab, String.toList_append, String.toList_append, String.toList_ofList, String.toList_ofList,
      String.toList_ofList]
    rfl
  · rw [String.toList_ofList]
    exact hname a (hab ▸ List.subset_append_left a _) (by omega)
  · rw [String.toList_ofList]
    exact hname b (hab ▸ List.Subset.trans (List.subset_cons_self _ b) (List.subset_append_right a _)) (by omega)

/-! ### Reading with `sed` -/

/-- A text in quotation marks, before another. -/
def word (w l : List Char) : List Char := '"' :: (w ++ '"' :: l)

variable {key w l : List Char}

theorem all_ne_quote (hw : '"' ∉ w) : ∀ c ∈ w, decide (c ≠ '"') = true := by
  intro c hc
  rw [decide_eq_true_eq]
  rintro rfl
  exact hw hc

/-- Quotation marks are around one text only. -/
theorem word_inj {w' l' : List Char} (hw : '"' ∉ w) (hw' : '"' ∉ w') (h : word w l = word w' l') :
    w = w' ∧ l = l' := by
  obtain ⟨rfl, hrest⟩ := span_cancel (all_ne_quote hw) (all_ne_quote hw') (by simp) (by simp) (List.cons.inj h).2
  exact ⟨rfl, (List.cons.inj hrest).2⟩

theorem fieldAt_of_ne {c : Char} (hc : c ≠ '"') : fieldAt key (c :: l) = none := by
  unfold fieldAt
  rw [List.isPrefixOf?, if_neg (by simpa using hc.symm)]
  rfl

/-- A text in quotation marks is a field if it is the key. -/
theorem fieldAt_word (hkey : '"' ∉ key) (hw : '"' ∉ w) :
    fieldAt key (word w l) = if w = key then valueAfter l else none := by
  have happend : ∀ t : List Char, '"' :: (key ++ ['"']) ++ t = word key t := by
    intro t
    rw [word, List.cons_append, List.append_assoc, List.singleton_append]
  unfold fieldAt
  split
  · rename_i heq
    have hfound : ('"' :: (key ++ ['"'])).isPrefixOf? (word w l) = some l := by
      rw [List.isPrefixOf?_eq_some_iff_append_eq, happend, heq]
    rw [hfound, Option.bind_some]
  · rename_i hne
    cases ht : ('"' :: (key ++ ['"'])).isPrefixOf? (word w l) with
    | none => rfl
    | some t =>
      rw [List.isPrefixOf?_eq_some_iff_append_eq, happend] at ht
      exact absurd (word_inj hkey hw ht).1.symm hne

/-- Nor is there one at a closing mark, where what comes next is not in the key. -/
theorem fieldAt_close {k : Char} (hl : ∀ c ∈ l.head?, c ≠ k) : fieldAt (k :: key) ('"' :: l) = none := by
  unfold fieldAt
  cases l with
  | nil => rfl
  | cons c l =>
    have hc : (k == c) = false := by
      rw [beq_eq_false_iff_ne]
      exact (hl c rfl).symm
    rw [List.isPrefixOf?, if_pos (beq_self_eq_true _), List.cons_append, List.isPrefixOf?, if_neg (by simp [hc])]
    rfl

theorem sedLine_cons {c : Char} (hc : c ≠ '"') : sedLine key (c :: l) = sedLine key l := by
  rw [sedLine, fieldAt_of_ne hc, Option.or_none]

theorem sedLine_skip (hw : '"' ∉ w) : sedLine key (w ++ l) = sedLine key l := by
  induction w with
  | nil => rfl
  | cons c w ih =>
    rw [List.mem_cons, not_or] at hw
    rw [List.cons_append, sedLine_cons (Ne.symm hw.1), ih hw.2]

/-- Past a text in quotation marks: what comes later counts first. -/
theorem sedLine_word {k : Char} (hkey : '"' ∉ k :: key) (hw : '"' ∉ w) (hl : ∀ c ∈ l.head?, c ≠ k) :
    sedLine (k :: key) (word w l) =
      (sedLine (k :: key) l).or (if w = k :: key then valueAfter l else none) := by
  rw [← fieldAt_word hkey hw, word, sedLine, sedLine_skip hw, sedLine, fieldAt_close hl, Option.or_none]

theorem valueAfter_word (hw : '"' ∉ w) : valueAfter (':' :: word w l) = some w := by
  change (if '"' ∈ w ++ '"' :: l then some ((w ++ '"' :: l).takeWhile (· ≠ '"')) else none) = some w
  rw [if_pos (List.mem_append_right w List.mem_cons_self), List.takeWhile_append_of_pos (all_ne_quote hw),
    List.takeWhile_cons_of_neg (by decide), List.append_nil]

/-- A value is printed on one line. -/
theorem lines_text (v : Json) : (split '\n' (v.text F)).map String.toList = [v.chars F] := by
  have hsplit : split '\n' (v.text F) = [v.text F] := by
    apply split_eq_singleton
    rw [Json.text, String.toList_ofList]
    exact v.newline_not_mem
  rw [hsplit, List.map_singleton, Json.text, String.toList_ofList]

/-- What `sed` prints for a value. -/
theorem sed_text (key : List Char) {v : Json} {s : String} (hline : sedLine key (v.chars F) = some s.toList)
    (hs : '\n' ∉ s.toList) : sed (.ofList key) (v.text F) = s := by
  have hend : s.toList.rdropWhile (· = '\n') = s.toList := by
    rw [List.rdropWhile_eq_self_iff]
    intro hne hlast
    exact hs (of_decide_eq_true hlast ▸ List.getLast_mem hne)
  rw [sed, lines_text, String.toList_ofList, List.filterMap_cons_some hline, List.filterMap_nil,
    List.intercalate_singleton, hend, String.ofList_toList]

theorem sed_text_none (key : List Char) {v : Json} (hline : sedLine key (v.chars F) = none) :
    sed (.ofList key) (v.text F) = "" := by
  rw [sed, lines_text, String.toList_ofList, List.filterMap_cons_none hline, List.filterMap_nil]
  rfl

/-! ### What is read -/

theorem of_requestUpdate (h : requestUpdate version repo? = .ok payload) :
    safeTag version = true ∧ safeRepo (repo?.getD repoDefault) = true ∧ payload = updatePayload version repo? := by
  unfold requestUpdate at h
  split at h
  · cases h
  · rename_i htag
    rw [Bool.not_eq_true', Bool.not_eq_false] at htag
    split at h
    · split at h
      · cases h
      · rename_i hrepo
        rw [Bool.not_eq_true', Bool.not_eq_false] at hrepo
        exact ⟨htag, hrepo, (Except.ok.inj h).symm⟩
    · exact ⟨htag, by decide, (Except.ok.inj h).symm⟩

theorem quote_not_mem {s : String} (h : ∀ c ∈ s.toList, repoChar c = true) : '"' ∉ s.toList :=
  fun hmem => absurd (h _ hmem) (by decide)

theorem newline_not_mem {s : String} (h : ∀ c ∈ s.toList, repoChar c = true) : '\n' ∉ s.toList :=
  fun hmem => absurd (h _ hmem) (by decide)

theorem quoted_eq {s : String} (h : ∀ c ∈ s.toList, repoChar c = true) (l : List Char) :
    quoted s ++ l = word s.toList l := by
  rw [quoted_of_not_mem fun c hc => not_mem_escaped (h c hc), List.cons_append, List.append_assoc]
  rfl

theorem repoChar_keys : (∀ c ∈ "repo".toList, repoChar c = true) ∧ ∀ c ∈ "version".toList, repoChar c = true :=
  ⟨List.all_eq_true.mp (by decide), List.all_eq_true.mp (by decide)⟩

theorem chars_updatePayload_none (hv : ∀ c ∈ version.toList, repoChar c = true) :
    (updatePayload version none).chars F =
      '{' :: word "version".toList (':' :: word version.toList ['}']) := by
  rw [updatePayload, Json.chars, members, members, Json.chars, List.nil_append, quoted_eq hv,
    quoted_eq repoChar_keys.2]

theorem chars_updatePayload_some (hr : ∀ c ∈ repo.toList, repoChar c = true)
    (hv : ∀ c ∈ version.toList, repoChar c = true) :
    (updatePayload version (some repo)).chars F =
      '{' :: word "repo".toList (':' :: word repo.toList
        (',' :: word "version".toList (':' :: word version.toList ['}']))) := by
  rw [updatePayload, Json.chars, members, members, members, Json.chars, Json.chars, List.nil_append, quoted_eq hv,
    quoted_eq hr, List.singleton_append, quoted_eq repoChar_keys.1, quoted_eq repoChar_keys.2]

/-- Nothing is captured after a comma or at the end. -/
theorem valueAfter_eq_none {c : Char} (hspace : isSpace c = false) (hc : c ≠ ':') : valueAfter (c :: l) = none := by
  unfold valueAfter
  rw [List.dropWhile_cons_of_neg (by simp [hspace])]
  split
  · rename_i heq
    exact absurd (List.cons.inj heq).1 hc
  · rfl

/-- Past a text in quotation marks and what is between it and the next. -/
theorem sedLine_part {k c : Char} (hkey : ∀ d ∈ k :: key, repoChar d = true) (hw : '"' ∉ w)
    (hc : repoChar c = false) (hquote : c ≠ '"') :
    sedLine (k :: key) (word w (c :: l)) =
      (sedLine (k :: key) l).or (if w = k :: key then valueAfter (c :: l) else none) := by
  have hq : '"' ∉ k :: key := fun h => absurd (hkey _ h) (by decide)
  have hne : ∀ d ∈ (c :: l).head?, d ≠ k := by
    rintro d hd rfl
    obtain rfl : c = d := by simpa using hd
    rw [hkey c List.mem_cons_self] at hc
    cases hc
  rw [sedLine_word hq hw hne, sedLine_cons hquote]

/-- Of a file without a repository the version is captured, whatever it is. -/
theorem sedLine_none {k : Char} (hkey : ∀ d ∈ k :: key, repoChar d = true)
    (hv : ∀ c ∈ version.toList, repoChar c = true) :
    sedLine (k :: key) ((updatePayload version none).chars F) =
      if "version".toList = k :: key then some version.toList else none := by
  have hq := quote_not_mem hv
  rw [chars_updatePayload_none hv, sedLine_cons (by decide),
    sedLine_part hkey (by decide) (by decide) (by decide), sedLine_part hkey hq (by decide) (by decide),
    valueAfter_eq_none (by decide) (by decide), ite_self, valueAfter_word hq]
  rfl

theorem sedLine_some {k : Char} (hkey : ∀ d ∈ k :: key, repoChar d = true)
    (hr : ∀ c ∈ repo.toList, repoChar c = true) (hv : ∀ c ∈ version.toList, repoChar c = true) :
    sedLine (k :: key) ((updatePayload version (some repo)).chars F) =
      (if "version".toList = k :: key then some version.toList else none).or
        (if "repo".toList = k :: key then some repo.toList else none) := by
  have hqr := quote_not_mem hr
  have hqv := quote_not_mem hv
  rw [chars_updatePayload_some hr hv, sedLine_cons (by decide),
    sedLine_part hkey (by decide) (by decide) (by decide), sedLine_part hkey hqr (by decide) (by decide),
    sedLine_part hkey (by decide) (by decide) (by decide), sedLine_part hkey hqv (by decide) (by decide),
    valueAfter_word hqr, valueAfter_word hqv]
  -- what stands before a comma or a brace is no key
  rw [valueAfter_eq_none (c := ',') (by decide) (by decide), valueAfter_eq_none (c := '}') (by decide) (by decide),
    ite_self, ite_self, Option.or_none]
  rfl

/-- **The shell script reads the version written.** -/
theorem sed_version (hv : ∀ c ∈ version.toList, repoChar c = true)
    (hr : ∀ r, repo? = some r → ∀ c ∈ r.toList, repoChar c = true) :
    sed "version" ((updatePayload version repo?).text F) = version := by
  refine sed_text "version".toList ?_ (newline_not_mem hv)
  cases repo? with
  | none => exact sedLine_none repoChar_keys.2 hv
  | some r => exact sedLine_some repoChar_keys.2 (hr r rfl) hv

/-- **And the repository, if one is written.** -/
theorem sed_repo (hv : ∀ c ∈ version.toList, repoChar c = true)
    (hr : ∀ r, repo? = some r → ∀ c ∈ r.toList, repoChar c = true) :
    sed "repo" ((updatePayload version repo?).text F) = repo?.getD "" := by
  cases repo? with
  | none => exact sed_text_none "repo".toList (sedLine_none repoChar_keys.1 hv)
  | some r =>
    exact sed_text "repo".toList (sedLine_some repoChar_keys.1 (hr r rfl) hv) (newline_not_mem (hr r rfl))

/-! ### What the scripts accept -/

theorem grepNot_eq_false {p : Char → Bool} {s : String} (h : ∀ c ∈ s.toList, p c = true) : grepNot p s = false := by
  rw [grepNot, List.any_eq_false]
  intro c hc
  simp [h c hc]

theorem repoChar_of_safeRepo (h : safeRepo repo = true) : ∀ c ∈ repo.toList, repoChar c = true := by
  rw [safeRepo, Bool.and_eq_true] at h
  exact List.all_eq_true.mp h.2

/-- **The shell script accepts what was written**, and reads it as it was. -/
theorem updateSh_eq (os arch : String) (htag : safeTag version = true)
    (hrepo : safeRepo (repo?.getD repoDefault) = true) :
    updateSh os arch ((updatePayload version repo?).text F) = (slugOf os arch).map fun slug =>
      { version, repo := repo?.getD repoDefault, tag := tagSh version,
        url := url (repo?.getD repoDefault) (tagSh version) (bundleSh slug) } := by
  have hname := nameChar_of_safeTag htag
  have hv : ∀ c ∈ version.toList, repoChar c = true := fun c hc => repoChar_of_nameChar (hname c hc)
  have hr : ∀ r, repo? = some r → ∀ c ∈ r.toList, repoChar c = true := by
    rintro r rfl
    exact repoChar_of_safeRepo hrepo
  have hread : (if sed "repo" ((updatePayload version repo?).text F) ≠ "" then
      sed "repo" ((updatePayload version repo?).text F) else repoDefault) = repo?.getD repoDefault := by
    rw [sed_repo hv hr]
    cases repo? with
    | none => rfl
    | some r => exact if_pos (ne_empty_of_safeRepo hrepo)
  have hversion : ¬((decide (version = "") || grepNot nameChar version) = true) := by
    rw [decide_eq_false (ne_empty_of_safeTag htag), grepNot_eq_false hname]
    exact Bool.false_ne_true
  have hgrep : ¬(grepNot repoChar (repo?.getD repoDefault) = true) := by
    rw [grepNot_eq_false (repoChar_of_safeRepo hrepo)]
    exact Bool.false_ne_true
  unfold updateSh
  dsimp only
  rw [sed_version hv hr, hread, if_neg hversion, if_neg hgrep]

theorem plusEnd_of_all {p : Char → Bool} (hp : p '\n' = false) (hne : l ≠ []) (h : ∀ c ∈ l, p c = true) :
    plusEnd p l = true := by
  have hlast : l.getLast? ≠ some '\n' := by
    intro hlast
    rw [h _ (List.mem_of_getLast? hlast)] at hp
    cases hp
  rw [plusEnd, if_neg hlast]
  simp [hne, List.all_eq_true.mpr h]

theorem matchesVersion_of_safeTag (h : safeTag version = true) : matchesVersion version = true := by
  have hname := nameChar_of_safeTag h
  unfold matchesVersion
  split
  · rename_i hnil
    exact absurd (String.toList_eq_nil_iff.mp hnil) (ne_empty_of_safeTag h)
  · rename_i c cs hcs
    rw [hcs] at hname
    rw [plusEnd_of_all (by decide) (List.cons_ne_nil c cs) hname, Bool.or_true]

/-- A repository of two parts is accepted if they are not empty. -/
theorem matchesRepo_append {owner name : String} (howner : ∀ c ∈ owner.toList, nameChar c = true)
    (hname : ∀ c ∈ name.toList, nameChar c = true) (hne : owner ≠ "" ∧ name ≠ "") :
    matchesRepo (owner ++ ("/" ++ name)) = true := by
  have hlist : (owner ++ ("/" ++ name)).toList = owner.toList ++ '/' :: name.toList := by
    rw [String.toList_append, String.toList_append]
    rfl
  have hslash : ¬(nameChar '/' = true) := by decide
  unfold matchesRepo
  rw [hlist, List.takeWhile_append_of_pos howner, List.dropWhile_append_of_pos howner,
    List.takeWhile_cons_of_neg hslash, List.dropWhile_cons_of_neg hslash, List.append_nil]
  change (decide (owner.toList ≠ []) && plusEnd nameChar name.toList) = true
  rw [plusEnd_of_all (by decide) (fun h => hne.2 (String.toList_eq_nil_iff.mp h)) hname, Bool.and_true,
    decide_eq_true_eq]
  exact fun h => hne.1 (String.toList_eq_nil_iff.mp h)

/-- **The PowerShell script accepts what was written**, if it accepts the repository. -/
theorem updatePs1_eq (hread : P.convertFromJson ((updatePayload version repo?).text F) = .ok (updatePayload version repo?))
    (htag : safeTag version = true) (hrepo : safeRepo (repo?.getD repoDefault) = true)
    (hmatch : matchesRepo (repo?.getD repoDefault) = true) :
    updatePs1 P ((updatePayload version repo?).text F) = .ok
      { version, repo := repo?.getD repoDefault, tag := tagPs1 version,
        url := url (repo?.getD repoDefault) (tagPs1 version) bundlePs1 } := by
  have hversion : (updatePayload version repo?).get "version" = some (.str version) := by
    cases repo? <;> rfl
  have hget : (if P.truthy ((updatePayload version repo?).get "repo") = true then
      P.interpolate ((updatePayload version repo?).get "repo") else repoDefault) = repo?.getD repoDefault := by
    cases repo? with
    | none =>
      change (if P.truthy none = true then _ else repoDefault) = repoDefault
      rw [P.truthy_null, if_neg Bool.false_ne_true]
    | some r =>
      change (if P.truthy (some (.str r)) = true then P.interpolate (some (.str r)) else repoDefault) = r
      rw [if_pos ((P.truthy_str r).mpr (ne_empty_of_safeRepo hrepo)), P.interpolate_str]
  unfold updatePs1
  simp only [hread, bind, Except.bind, hversion, P.interpolate_str, hget, matchesVersion_of_safeTag htag, hmatch,
    Bool.not_true, Bool.false_eq_true, if_false, pure, Except.pure]

/-! ### The address -/

theorem slash_not_mem {s : String} (h : ∀ c ∈ s.toList, nameChar c = true) : '/' ∉ s.toList :=
  fun hmem => absurd (h _ hmem) (by decide)

/-- The address, with a part at each slash. -/
theorem url_eq (owner name tag bundle : String) : url (owner ++ ("/" ++ name)) tag bundle =
    "https:" ++ ("/" ++ ("" ++ ("/" ++ ("github.com" ++ ("/" ++ (owner ++ ("/" ++ (name ++ ("/" ++ ("releases" ++
      ("/" ++ ("download" ++ ("/" ++ (tag ++ ("/" ++ bundle))))))))))))))) := by
  have hhost : "https://github.com/" = "https:" ++ ("/" ++ ("" ++ ("/" ++ ("github.com" ++ "/")))) := by
    decide +kernel
  have hpath : "/releases/download/" = "/" ++ ("releases" ++ ("/" ++ ("download" ++ "/"))) := by
    decide +kernel
  unfold url
  rw [hhost, hpath]
  simp only [String.append_assoc]

theorem url_append (owner name tag bundle : String) : url (owner ++ ("/" ++ name)) tag bundle =
    "https://github.com/" ++ owner ++ "/" ++ name ++ "/releases/download/" ++ tag ++ "/" ++ bundle := by
  have hassoc : ∀ a b c d : String, a ++ (b ++ (c ++ d)) = a ++ b ++ c ++ d := by
    intro a b c d
    rw [String.append_assoc, String.append_assoc]
  unfold url
  rw [hassoc]

theorem pathSegments_url {owner name tag bundle : String} (howner : '/' ∉ owner.toList) (hname : '/' ∉ name.toList)
    (htag : '/' ∉ tag.toList) (hbundle : '/' ∉ bundle.toList) :
    pathSegments (url (owner ++ ("/" ++ name)) tag bundle) = [owner, name, "releases", "download", tag, bundle] := by
  have hslash : "/" = String.singleton '/' := rfl
  rw [pathSegments, url_eq, hslash, split_first (by decide), split_first (by decide), split_first (by decide),
    split_first howner, split_first hname, split_first (by decide), split_first (by decide), split_first htag,
    split_eq_singleton hbundle]
  rfl

theorem split_repo {owner name : String} (howner : '/' ∉ owner.toList) (hname : '/' ∉ name.toList) :
    split '/' (owner ++ ("/" ++ name)) = [owner, name] := by
  have hslash : "/" = String.singleton '/' := rfl
  rw [hslash, split_first howner, split_eq_singleton hname]

/-- A tag is the version, with a letter in front if it has none. -/
structure IsTag (version tag : String) : Prop where
  tagged : tag = version ∨ tag = "v" ++ version
  head : ∃ c cs, tag.toList = c :: cs ∧ c ≠ '.'

theorem isTag_tagSh (version : String) : IsTag version (tagSh version) := by
  unfold tagSh
  split
  · rename_i hhead
    obtain ⟨cs, hcs⟩ := List.head?_eq_some_iff.mp hhead
    exact ⟨Or.inl rfl, 'v', cs, hcs, by decide⟩
  · exact ⟨Or.inr rfl, 'v', version.toList, String.toList_append, by decide⟩

theorem isTag_tagPs1 (version : String) : IsTag version (tagPs1 version) := by
  unfold tagPs1
  split
  · rename_i hhead
    obtain ⟨c, hc, hlower⟩ := Option.map_eq_some_iff.mp hhead
    obtain ⟨cs, hcs⟩ := List.head?_eq_some_iff.mp hc
    refine ⟨Or.inl rfl, c, cs, hcs, ?_⟩
    rintro rfl
    exact absurd hlower (by decide)
  · exact ⟨Or.inr rfl, 'v', version.toList, String.toList_append, by decide⟩

theorem IsTag.not_isDots {tag : String} (h : IsTag version tag) : ¬Segments.IsDots tag := by
  obtain ⟨c, cs, htag, hc⟩ := h.head
  rintro (rfl | rfl)
  · exact hc (List.cons.inj htag).1.symm
  · exact hc (List.cons.inj htag).1.symm

theorem IsTag.slash_not_mem {tag : String} (h : IsTag version tag) (hv : '/' ∉ version.toList) : '/' ∉ tag.toList := by
  rcases h.tagged with rfl | rfl
  · exact hv
  · rw [String.toList_append, List.mem_append]
    exact fun h => h.elim (by decide) hv

/-- The bundle is the last segment, and no dots. -/
structure IsFile (bundle : String) : Prop where
  slash : '/' ∉ bundle.toList
  dots : ¬Segments.IsDots bundle

theorem isFile_bundlePs1 : IsFile bundlePs1 := ⟨by decide +kernel, by decide +kernel⟩

theorem isFile_bundleSh {os arch slug : String} (h : slugOf os arch = .ok slug) : IsFile (bundleSh slug) := by
  have hslug : slug = "macos-arm64" ∨ slug = "linux-x86_64" := by
    unfold slugOf at h
    split at h
    · split at h
      · exact Or.inl (Except.ok.inj h).symm
      · cases h
    · split at h
      · split at h
        · exact Or.inr (Except.ok.inj h).symm
        · cases h
      · cases h
  rcases hslug with rfl | rfl
  · exact ⟨by decide +kernel, by decide +kernel⟩
  · exact ⟨by decide +kernel, by decide +kernel⟩

/-- A download of a repository whose parts are names is of one release. -/
theorem oneRelease {tag : String} (htag : safeTag version = true) (hrepo : safeRepo repo = true) (hnamed : Named repo)
    (hT : IsTag version tag) (hB : IsFile bundle) :
    OneRelease version repo bundle { version, repo, tag, url := url repo tag bundle } := by
  obtain ⟨owner, name, rfl, howner, hname⟩ := parts_of_safeRepo hrepo
  have ho := slash_not_mem howner
  have hn := slash_not_mem hname
  have hsplit := split_repo ho hn
  obtain ⟨hne, hdots⟩ := hnamed owner (hsplit ▸ List.mem_cons_self)
  obtain ⟨hne', hdots'⟩ := hnamed name (hsplit ▸ List.mem_cons_of_mem owner (List.mem_singleton_self name))
  have hsegments := pathSegments_url ho hn (hT.slash_not_mem (slash_not_mem (nameChar_of_safeTag htag))) hB.slash
  have hnormal : Segments.normalize (pathSegments (url (owner ++ ("/" ++ name)) tag bundle)) =
      [owner, name, "releases", "download", tag, bundle] := by
    rw [hsegments, Segments.normalize_eq_self_iff]
    simp only [List.forall_mem_cons]
    exact ⟨hdots, hdots', by decide, by decide, hT.not_isDots, hB.dots, List.forall_mem_nil _⟩
  exact {
    readVersion := rfl
    readRepo := rfl
    tagged := hT.tagged
    address := ⟨owner, name, hsplit, ⟨hne, hne'⟩, ⟨hdots, hdots'⟩, url_append owner name tag bundle, hnormal⟩ }

theorem OneRelease.named {d : Download} (h : OneRelease version repo bundle d) : Named repo := by
  obtain ⟨owner, name, hsplit, hne, hdots, -, -⟩ := h.address
  intro part hpart
  rw [hsplit] at hpart
  rcases List.mem_cons.mp hpart with rfl | hpart
  · exact ⟨hne.1, hdots.1⟩
  · rw [List.mem_singleton.mp hpart]
    exact ⟨hne.2, hdots.2⟩

/-- Parts that are names are not empty. -/
theorem matchesRepo_of_named (hrepo : safeRepo repo = true) (hnamed : Named repo) : matchesRepo repo = true := by
  obtain ⟨owner, name, rfl, howner, hname⟩ := parts_of_safeRepo hrepo
  have hsplit := split_repo (slash_not_mem howner) (slash_not_mem hname)
  exact matchesRepo_append howner hname ⟨(hnamed owner (hsplit ▸ List.mem_cons_self)).1,
    (hnamed name (hsplit ▸ List.mem_cons_of_mem owner (List.mem_singleton_self name))).1⟩

/-- **A request is for one release of one repository exactly if the repository's two
parts are names.** For every version and repository that `request_update` accepts, both
scripts read them from the file, accept them, and download that release from that
repository; unless a part is empty, or a single or a double dot. -/
theorem safe_request_iff (F : FloatText) (P : PowerShell) (version : String) (repo? : Option String) (payload : Json)
    (h : requestUpdate version repo? = .ok payload)
    (hread : P.convertFromJson (payload.text F) = .ok payload) :
    SafeRequest P version (repo?.getD repoDefault) (payload.text F) ↔ Named (repo?.getD repoDefault) := by
  obtain ⟨htag, hrepo, rfl⟩ := of_requestUpdate h
  constructor
  · intro hsafe
    obtain ⟨d, -, hd⟩ := hsafe.ps1
    exact hd.named
  · intro hnamed
    constructor
    · intro os arch slug hslug
      refine ⟨_, by rw [updateSh_eq os arch htag hrepo, hslug]; rfl, ?_⟩
      exact oneRelease htag hrepo hnamed (isTag_tagSh version) (isFile_bundleSh hslug)
    · exact ⟨_, updatePs1_eq hread htag hrepo (matchesRepo_of_named hrepo hnamed),
        oneRelease htag hrepo hnamed (isTag_tagPs1 version) isFile_bundlePs1⟩

/-- A PowerShell that has one file to read. -/
def psReading (file : String) (payload : Json) : PowerShell where
  convertFromJson s := if s = file then .ok payload else .error "no such file"
  interpolate
    | some (.str s) => s
    | _ => ""
  truthy
    | some (.str s) => s ≠ ""
    | _ => false
  interpolate_str _ := rfl
  truthy_str _ := decide_eq_true_iff
  truthy_null := rfl

theorem psReading_file (file : String) (payload : Json) :
    (psReading file payload).convertFromJson file = .ok payload := if_pos rfl

theorem requestUpdate_some (htag : safeTag version = true) (hrepo : safeRepo repo = true) :
    requestUpdate version (some repo) = .ok (updatePayload version (some repo)) := by
  simp only [requestUpdate, htag, hrepo, Bool.not_true, Bool.false_eq_true, if_false]

theorem safe_request_iff_named :
    SafeRequest (psReading ((updatePayload "v1.2.0" (some "lybits/lymon-agent")).text plainFloat)
      (updatePayload "v1.2.0" (some "lybits/lymon-agent"))) "v1.2.0" "lybits/lymon-agent"
      ((updatePayload "v1.2.0" (some "lybits/lymon-agent")).text plainFloat) :=
  (safe_request_iff plainFloat _ "v1.2.0" (some "lybits/lymon-agent") _
    (requestUpdate_some (by decide +kernel) (by decide +kernel)) (psReading_file _ _)).mpr (by decide +kernel)

/-- Two dots in place of a name: the owner goes too when the address is normalised. -/
theorem not_safe_request : ¬ ∀ (F : FloatText) (P : PowerShell) version repo? payload,
    requestUpdate version repo? = .ok payload → P.convertFromJson (payload.text F) = .ok payload →
    SafeRequest P version (repo?.getD repoDefault) (payload.text F) := by
  intro h
  have hsafe := h plainFloat (psReading ((updatePayload "v1.2.0" (some "x/..")).text plainFloat)
    (updatePayload "v1.2.0" (some "x/.."))) "v1.2.0" (some "x/..") _
    (requestUpdate_some (by decide +kernel) (by decide +kernel)) (psReading_file _ _)
  obtain ⟨d, -, hd⟩ := hsafe.ps1
  exact absurd hd.named (by decide +kernel)

/-! ### The tags -/

theorem toLower_eq_v {c : Char} : c.toLower = 'v' ↔ c = 'v' ∨ c = 'V' := by
  constructor
  · intro h
    unfold Char.toLower at h
    split at h
    · right
      apply Char.ext
      have hval : c.val + 32 = 86 + 32 := congrArg Char.val h
      exact (UInt32.add_left_inj _).mp hval
    · exact Or.inl h
  · rintro (rfl | rfl)
    · decide
    · decide

/-- **The two scripts download the same release** unless the version starts with a capital
`V`, to which the shell script alone adds a letter. -/
theorem tagSh_eq_tagPs1_iff (version : String) :
    tagSh version = tagPs1 version ↔ version.toList.head? ≠ some 'V' := by
  have hlower : version.toList.head?.map Char.toLower = some 'v' ↔
      version.toList.head? = some 'v' ∨ version.toList.head? = some 'V' := by
    rw [Option.map_eq_some_iff]
    constructor
    · rintro ⟨c, hc, hv⟩
      rcases toLower_eq_v.mp hv with rfl | rfl
      · exact Or.inl hc
      · exact Or.inr hc
    · rintro (h | h)
      · exact ⟨'v', h, by decide⟩
      · exact ⟨'V', h, by decide⟩
  unfold tagSh tagPs1
  by_cases hv : version.toList.head? = some 'v'
  · rw [if_pos hv, if_pos (hlower.mpr (Or.inl hv)), hv]
    exact iff_of_true rfl (by decide)
  · rw [if_neg hv]
    by_cases hV : version.toList.head? = some 'V'
    · rw [if_pos (hlower.mpr (Or.inr hV))]
      refine iff_of_false ?_ (not_not_intro hV)
      intro h
      have hlen := congrArg String.length h
      rw [String.length_append] at hlen
      exact absurd hlen (by simp)
    · rw [if_neg fun h => (hlower.mp h).elim hv hV]
      exact iff_of_true rfl hV

end Update
end LymonAgent
