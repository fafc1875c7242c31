/-
# The data blocks of the CPU

A discovery of the S7 connector (`crates/plugin-s7/src/main.rs`, `s7/blocks.rs`) against
a CPU that lists its data blocks and describes them. The CPU takes the telegrams apart
by the layout the connector gives them, the number of a block by its five digits, and
replies in time with telegrams no longer than was negotiated. It may put only the first
blocks into its reply to the list, and may refuse to describe a block; what it puts in
the bytes the connector does not look at is open. The CPU is not code of the repository.

`requests_on_cpu` is about whole runs of polls and discoveries, in any order, over
sessions that are kept, dropped and opened anew.

Key definitions: `Directory`, `BlockRequest.ofTelegram`, `Directory.Answers`, `askStep`.
Key theorems: `parseHeaderName_fills`, `numberOf_digits`, `blockInfos_served`,
`requests_on_cpu`.
-/
import LymonAgent.S7.Blocks
import LymonAgent.S7.Poll

namespace LymonAgent
namespace S7

open Runs

/-! ### Blocks -/

/-- A name in the header of a block: printable characters without a blank at an end. -/
structure BlockName where
  chars : List UInt8
  printable : ∀ b ∈ chars, 0x20 ≤ b ∧ b ≤ 0x7E
  first : chars.head? ≠ some 0x20
  last : chars.getLast? ≠ some 0x20

/-- The name as a text; an empty one is none. -/
def BlockName.text (n : BlockName) : Option String :=
  if n.chars.isEmpty then none else some (.ofList (n.chars.map fun b => Char.ofNat b.toNat))

/-- The name fills a header, with blanks after it, or a zero and then anything. -/
def BlockName.Fills (n : BlockName) (header : List UInt8) : Prop :=
  ∃ k rest, header = n.chars ++ List.replicate k 0x20 ++ rest ∧ ∀ b ∈ rest.head?, b = 0

/-- What the CPU tells about a block. -/
structure Description where
  size : UInt16
  name : BlockName
  lang : UInt8

def Description.info (d : Description) : BlockInfo := ⟨some d.size.toNat, d.name.text, some d.lang⟩

/-- A block, and its description unless the CPU refuses one. -/
structure DataBlock where
  number : UInt16
  description : Option Description

/-- The blocks of a CPU in the order it lists them, each number once. -/
structure Directory where
  blocks : List DataBlock
  nodup : (blocks.map DataBlock.number).Nodup

def Directory.describe (dir : Directory) (n : ℕ) : Option Description :=
  (dir.blocks.find? fun b => b.number.toNat = n).bind DataBlock.description

/-- The node of a block in a source tree. -/
def DataBlock.node (b : DataBlock) : Sdk.Node := dbNode b.number (b.description.map Description.info)

/-! ### What the CPU says -/

inductive BlockRequest where
  | list
  | info (number : ℕ)
  deriving DecidableEq

/-- The number of some decimal digits. -/
def numberOf (digits : List UInt8) : ℕ := digits.foldl (fun n b => 10 * n + (b.toNat - 48)) 0

/-- Function group 0x43 is about blocks, type 0x41 the data blocks; subfunction 2 lists
them and 3 describes one. -/
def BlockRequest.ofTelegram (t : List UInt8) : Option BlockRequest :=
  if telegramLength t = t.length ∧ t.getD 22 0 = 0x43 ∧ t.getD 30 0 = 0x41 then
    if t.getD 23 0 = 0x02 then some .list
    else if t.getD 23 0 = 0x03 ∧ t.getD 36 0 = 0x41 then some (.info (numberOf ((t.drop 31).take 5)))
    else none
  else none

/-- The reply to a list has the numbers of the blocks. -/
def Lists (blocks : List DataBlock) (body : List UInt8) : Prop :=
  ∃ header records, Accepting header ∧ declared header = 4 * records.length ∧
    records.map Prod.fst = blocks.map DataBlock.number ∧ body = header ++ recordsOf records

/-- The reply about a block that the CPU describes. -/
structure Describes (d : Description) (body : List UInt8) : Prop where
  long : 92 ≤ body.length
  errNo : makeU16 (body.getD 20 0) (body.getD 21 0) = 0
  retval : body.getD 22 0 = 0xFF
  lang : body[36]? = some d.lang
  size : makeU16 (body.getD 66 0) (body.getD 67 0) = d.size.toNat
  name : d.name.Fills ((body.drop 84).take 8)

/-- The reply about one that it does not. -/
structure Refuses (body : List UInt8) : Prop where
  long : 22 < body.length
  code : makeU16 (body.getD 20 0) (body.getD 21 0) ≠ 0 ∨ body.getD 22 0 ≠ 0xFF

/-- What the CPU says to a request, with its first `n` blocks in a list. -/
def Directory.Tells (dir : Directory) (n : ℕ) (body : List UInt8) : BlockRequest → Prop
  | .list => Lists (dir.blocks.take n) body
  | .info number =>
    match dir.describe number with
    | some d => Describes d body
    | none => Refuses body

/-- The answer to a telegram, in time and no longer than was negotiated. -/
structure Directory.Answers (dir : Directory) (n : ℕ) (pduLength : UInt16) (t : List UInt8) (a : Answer) :
    Prop where
  inTime : 7 ≤ a.first ∧ a.reply.length ≤ 7 + a.second
  tells : ∃ body, a.reply = telegramOf body ∧ body.length ≤ pduLength.toNat ∧
    ∃ q ∈ BlockRequest.ofTelegram t, dir.Tells n body q

/-! ### Names -/

section

variable {n : BlockName} {header : List UInt8}

theorem BlockName.ne_zero (n : BlockName) {b : UInt8} (hb : b ∈ n.chars) : b ≠ 0 := by
  intro h0
  have h := (n.printable b hb).1
  rw [h0] at h
  exact absurd h (by decide)

/-- The printable characters of a header: the name and the blanks after it. -/
theorem printable_fills (k : ℕ) {rest : List UInt8} (hrest : ∀ b ∈ rest.head?, b = 0) :
    ((n.chars ++ List.replicate k 0x20 ++ rest).takeWhile (· != 0)).filter
        (fun b => 0x20 ≤ b && b ≤ 0x7E) = n.chars ++ List.replicate k 0x20 := by
  have hkept : ∀ b ∈ n.chars ++ List.replicate k 0x20, b ≠ 0 ∧ 0x20 ≤ b ∧ b ≤ 0x7E := by
    intro b hb
    rcases List.mem_append.mp hb with hb | hb
    · exact ⟨n.ne_zero hb, n.printable b hb⟩
    · obtain rfl := List.eq_of_mem_replicate hb
      decide
  have htake : (n.chars ++ List.replicate k 0x20 ++ rest).takeWhile (· != 0) =
      n.chars ++ List.replicate k 0x20 := by
    have hstop : rest.takeWhile (· != 0) = [] := by
      cases rest with
      | nil => rfl
      | cons b rest =>
        have hb : b = 0 := hrest b rfl
        simp [hb]
    rw [List.takeWhile_append_of_pos, hstop, List.append_nil]
    intro b hb
    simp [(hkept b hb).1]
  rw [htake, List.filter_eq_self]
  intro b hb
  simp [(hkept b hb).2]

/-- Without the blanks at the ends the name is left. -/
theorem trimmed_fills (k : ℕ) :
    (((n.chars ++ List.replicate k 0x20).dropWhile (· = 0x20)).reverse.dropWhile (· = 0x20)).reverse =
      n.chars := by
  by_cases hnil : n.chars = []
  · have hall : (List.replicate k (0x20 : UInt8)).dropWhile (· = 0x20) = [] := by
      simp
    rw [hnil, List.nil_append, hall]
    rfl
  · have hhead : (n.chars ++ List.replicate k 0x20).dropWhile (· = 0x20) =
        n.chars ++ List.replicate k 0x20 := by
      obtain ⟨b, bs, hbs⟩ := List.exists_cons_of_ne_nil hnil
      have hb : b ≠ 0x20 := by
        intro h
        apply n.first
        rw [hbs, h]
        rfl
      rw [hbs, List.cons_append, List.dropWhile_cons_of_neg (by simpa using hb)]
    have hlast : (n.chars.reverse).dropWhile (· = 0x20) = n.chars.reverse := by
      obtain ⟨bs, b, hbs⟩ := List.eq_nil_or_concat' n.chars |>.resolve_left hnil
      have hb : b ≠ 0x20 := by
        intro h
        apply n.last
        rw [hbs, h]
        simp
      rw [hbs, List.reverse_append, List.reverse_singleton, List.singleton_append,
        List.dropWhile_cons_of_neg (by simpa using hb)]
    have hblanks : ∀ b ∈ (List.replicate k (0x20 : UInt8)), decide (b = 0x20) = true := by
      intro b hb
      simp [List.eq_of_mem_replicate hb]
    rw [hhead, List.reverse_append, List.reverse_replicate, List.dropWhile_append_of_pos hblanks, hlast,
      List.reverse_reverse]

/-- The name of a header it fills. -/
theorem parseHeaderName_fills (h : n.Fills header) : parseHeaderName header = n.text := by
  obtain ⟨k, rest, rfl, hrest⟩ := h
  unfold parseHeaderName BlockName.text
  simp only [printable_fills k hrest, trimmed_fills]

end

/-! ### Telegrams -/

/-- The five digits of a block are its number. -/
theorem numberOf_digits (db : UInt16) : numberOf (((blockInfoTelegram db).drop 31).take 5) = db.toNat := by
  have hlt := db.toNat_lt
  have hdigit : ∀ n : ℕ, (UInt8.ofNat (n % 10 + 48)).toNat - 48 = n % 10 := by
    intro n
    rw [UInt8.toNat_ofNat']
    omega
  show 10 * (10 * (10 * (10 * (10 * 0 + _) + _) + _) + _) + _ = _
  rw [hdigit, hdigit, hdigit, hdigit, hdigit]
  omega

theorem ofTelegram_list : BlockRequest.ofTelegram listDbTelegram = some .list := by
  have hlength : telegramLength listDbTelegram = listDbTelegram.length := rfl
  have hsub : listDbTelegram.getD 23 0 = 0x02 := rfl
  unfold BlockRequest.ofTelegram
  rw [if_pos ⟨hlength, rfl, rfl⟩, if_pos hsub]

theorem ofTelegram_info (db : UInt16) :
    BlockRequest.ofTelegram (blockInfoTelegram db) = some (.info db.toNat) := by
  have hlength : telegramLength (blockInfoTelegram db) = (blockInfoTelegram db).length := by
    simp [telegramLength, makeU16, blockInfoTelegram]
  have hsub : (blockInfoTelegram db).getD 23 0 = 0x03 := rfl
  have hend : (blockInfoTelegram db).getD 36 0 = 0x41 := rfl
  unfold BlockRequest.ofTelegram
  rw [if_pos ⟨hlength, rfl, rfl⟩, hsub, if_neg (by decide), if_pos ⟨rfl, hend⟩, numberOf_digits]

/-! ### Replies -/

theorem parseBlockList_lists {blocks : List DataBlock} {body : List UInt8} (h : Lists blocks body) :
    parseBlockList body = .ok (blocks.map DataBlock.number) := by
  obtain ⟨header, records, haccepting, hdeclared, hnumbers, rfl⟩ := h
  rw [← List.append_nil (header ++ recordsOf records), ← hnumbers]
  apply parseBlockList_records haccepting
  simp [hdeclared]

theorem parseBlockInfo_describes {d : Description} {body : List UInt8} (h : Describes d body) :
    parseBlockInfo body = .ok d.info := by
  have hlong := h.long
  have hok : checkUserdataOk body "block-info" = .ok () := by
    unfold checkUserdataOk
    simp only [h.errNo, h.retval, ne_eq, not_true_eq_false, if_false]
  unfold parseBlockInfo
  rw [if_neg (by omega), hok, Except.map, if_pos (by omega), if_pos hlong, h.size, h.lang,
    parseHeaderName_fills h.name]
  rfl

theorem parseBlockInfo_refuses {body : List UInt8} (h : Refuses body) : (parseBlockInfo body).toOption = none := by
  have herror : ∃ e, checkUserdataOk body "block-info" = .error e := by
    unfold checkUserdataOk
    by_cases herr : makeU16 (body.getD 20 0) (body.getD 21 0) = 0
    · have hret : body.getD 22 0 ≠ 0xFF := h.code.resolve_left fun hne => hne herr
      simp only [herr, hret, ne_eq, not_true_eq_false, not_false_eq_true, if_false, if_true]
      exact ⟨_, rfl⟩
    · simp only [herr, ne_eq, not_false_eq_true, if_true]
      exact ⟨_, rfl⟩
  obtain ⟨e, he⟩ := herror
  have hlong := h.long
  unfold parseBlockInfo
  rw [if_neg (by omega), he]
  rfl

/-! ### A discovery -/

section

variable {dir : Directory} {n : ℕ} {s : Session}

theorem Directory.Tells.length_pos {q : BlockRequest} {body : List UInt8} (h : dir.Tells n body q) :
    0 < body.length := by
  cases q with
  | list =>
    obtain ⟨header, records, haccepting, -, -, rfl⟩ := h
    have hlength := haccepting.length
    rw [List.length_append]
    omega
  | info number =>
    simp only [Directory.Tells] at h
    split at h
    · have hlong := h.long
      omega
    · have hlong := h.long
      omega

/-- An exchange about blocks, on an empty stream. -/
theorem exchange_answers {t : List UInt8} {q : BlockRequest} {a : Answer} (hs : s.stream = [])
    (ht : BlockRequest.ofTelegram t = some q) (h : dir.Answers n s.pduLength t a) :
    ∃ x body, exchange s t a = ({ s with sent := s.sent ++ [t] }, x) ∧ x.bytes = .ok body ∧
      dir.Tells n body q := by
  obtain ⟨⟨hfirst, hsecond⟩, body, hreply, hfit, q', hq', htells⟩ := h
  obtain rfl : q = q' := Option.some.inj (ht.symm.trans hq')
  have hwhole : exchange s t a = ({ s with sent := s.sent ++ [t] },
      ⟨s.sent.length, t, .ok (body.map (s.sent.length, ·))⟩) :=
    transact_whole hs hreply hfirst hsecond htells.length_pos rfl hfit
  refine ⟨_, body, hwhole, ?_, htells⟩
  rw [Exchange.bytes, Except.map, map_snd_tagged]

theorem listDataBlocks_served {a : Answer} (hs : s.stream = [])
    (h : dir.Answers n s.pduLength listDbTelegram a) :
    listDataBlocks s a = ({ s with sent := s.sent ++ [listDbTelegram] },
      .ok ((dir.blocks.take n).map DataBlock.number)) := by
  obtain ⟨x, body, hexchange, hbytes, hlists⟩ := exchange_answers hs ofTelegram_list h
  rw [listDataBlocks, hexchange]
  dsimp only
  rw [hbytes, Except.bind, parseBlockList_lists hlists]

theorem getBlockInfo_served {db : UInt16} {a : Answer} (hs : s.stream = [])
    (h : dir.Answers n s.pduLength (blockInfoTelegram db) a) :
    ∃ x r, getBlockInfo s db a = ({ s with sent := s.sent ++ [blockInfoTelegram db] }, x, r) ∧
      r.toOption = (dir.describe db.toNat).map Description.info := by
  obtain ⟨x, body, hexchange, hbytes, htells⟩ := exchange_answers hs (ofTelegram_info db) h
  have hparsed : (parseBlockInfo body).toOption = (dir.describe db.toNat).map Description.info := by
    unfold Directory.Tells at htells
    cases hdescribe : dir.describe db.toNat with
    | none =>
      simp only [hdescribe] at htells
      exact parseBlockInfo_refuses htells
    | some d =>
      simp only [hdescribe] at htells
      rw [parseBlockInfo_describes htells]
      rfl
  refine ⟨x, parseBlockInfo body, ?_, hparsed⟩
  rw [getBlockInfo, hexchange]
  dsimp only
  rw [hbytes, Except.bind]

/-- The CPU answers the request for each of the blocks. -/
def InfosServed (dir : Directory) (n : ℕ) (pduLength : UInt16) : List UInt16 → List Answer → Prop
  | db :: dbs, a :: answers =>
    dir.Answers n pduLength (blockInfoTelegram db) a ∧ InfosServed dir n pduLength dbs answers
  | _, _ => True

theorem blockInfos_served : ∀ {dbs : List UInt16} {answers : List Answer} {s s' : Session}
    {listed : List Listed}, s.stream = [] → InfosServed dir n s.pduLength dbs answers →
    blockInfos s dbs answers = some (s', listed) →
    (s'.stream = [] ∧ s'.pduLength = s.pduLength) ∧
      listed.map (fun l => (l.db, l.info)) =
        dbs.map fun db => (db, (dir.describe db.toNat).map Description.info) := by
  intro dbs
  induction dbs with
  | nil =>
    intro answers s s' listed hs _ h
    obtain ⟨rfl, rfl⟩ := h
    exact ⟨⟨hs, rfl⟩, rfl⟩
  | cons db dbs ih =>
    intro answers s s' listed hs hserved h
    cases answers with
    | nil => cases h
    | cons a answers =>
      obtain ⟨hfirst, hrest⟩ := hserved
      obtain ⟨x, r, hinfo, hr⟩ := getBlockInfo_served hs hfirst
      rw [blockInfos, hinfo] at h
      obtain ⟨⟨t, listed'⟩, hinfos, heq⟩ := Option.map_eq_some_iff.mp h
      cases heq
      have hsent : ({ s with sent := s.sent ++ [blockInfoTelegram db] } : Session).stream = [] := hs
      obtain ⟨hstream, hlisted⟩ := ih hsent hrest hinfos
      refine ⟨hstream, ?_⟩
      rw [List.map_cons, List.map_cons, hlisted, hr]

/-- A block of the directory is described as such. -/
theorem describe_of_mem {b : DataBlock} (hb : b ∈ dir.blocks) :
    dir.describe b.number.toNat = b.description := by
  have hfind : dir.blocks.find? (fun c => c.number.toNat = b.number.toNat) = some b := by
    obtain ⟨l₁, l₂, hsplit⟩ := List.append_of_mem hb
    have hnodup := dir.nodup
    rw [hsplit, List.map_append, List.map_cons, List.nodup_append] at hnodup
    have hbefore : ∀ c ∈ l₁, ¬ c.number.toNat = b.number.toNat := by
      intro c hc heq
      have hne := hnodup.2.2 c.number (List.mem_map_of_mem hc) b.number List.mem_cons_self
      exact hne (UInt16.toNat_inj.mp heq)
    rw [hsplit, List.find?_append, List.find?_eq_none.mpr (by simpa using hbefore)]
    simp
  unfold Directory.describe
  rw [hfind]
  rfl

/-- The tree of the blocks that were listed is that of the CPU's. -/
theorem discoveryOf_listed {listed : List Listed}
    (h : listed.map (fun l => (l.db, l.info)) = ((dir.blocks.take n).map DataBlock.number).map
      fun db => (db, (dir.describe db.toNat).map Description.info)) :
    discoveryOf listed = ⟨"s7_blocks", (dir.blocks.take n).map DataBlock.node⟩ := by
  have hnodes : listed.map (fun l => dbNode l.db l.info) = (dir.blocks.take n).map DataBlock.node := by
    calc listed.map (fun l => dbNode l.db l.info)
        = (listed.map fun l => (l.db, l.info)).map fun p => dbNode p.1 p.2 := by
          rw [List.map_map]
          rfl
      _ = (dir.blocks.take n).map fun b =>
            dbNode b.number ((dir.describe b.number.toNat).map Description.info) := by
          rw [h, List.map_map, List.map_map]
          rfl
      _ = (dir.blocks.take n).map DataBlock.node := by
          apply List.map_congr_left
          intro b hb
          rw [describe_of_mem (List.mem_of_mem_take hb)]
          rfl
  rw [discoveryOf, hnodes]

end

/-! ### Runs of polls and discoveries -/

/-- A discovery request, what the CPU says to it, its blocks, and how many of them it
puts into a list. -/
structure Browse where
  req : Sdk.ReadRequest
  handshake : Handshake
  list : Answer
  infos : List Answer
  dir : Directory
  first : ℕ

def Browse.blocks (b : Browse) : List DataBlock := b.dir.blocks.take b.first

inductive Ask where
  | poll (p : Poll)
  | browse (b : Browse)

/-- The connector, and the polls and discoveries so far with their results. -/
structure Asked where
  conn : Option Conn
  polls : List (Poll × Except String (List Reading))
  browses : List (Browse × Except String (List Listed))

def askStep (s : Asked) : Ask → Option Asked
  | .poll p => (read s.conn p.req p.handshake p.answers).map fun (conn, r) =>
      { s with conn, polls := s.polls ++ [(p, r)] }
  | .browse b => (discover s.conn b.req b.handshake b.list b.infos).map fun (conn, r) =>
      { s with conn, browses := s.browses ++ [(b, r)] }

/-- The CPU answers the telegrams of the discovery, on the session it runs on. -/
structure Browse.Served (conn : Option Conn) (b : Browse) : Prop where
  negotiates : b.handshake.Negotiates
  answers : ∀ key session, keyOf b.req = .ok key → clientFor conn key b.handshake = .ok session →
    b.dir.Answers b.first session.pduLength listDbTelegram b.list ∧
    InfosServed b.dir b.first session.pduLength (b.blocks.map DataBlock.number) b.infos

def Ask.Served (s : Asked) : Ask → Prop
  | .poll p => p.Served ⟨s.conn, s.polls⟩
  | .browse b => b.Served s.conn

/-- A discovery gives the tree of the blocks in the list. It fails where the
configuration names no PLC, or the PLC cannot be connected. -/
structure Browse.OnDirectory (b : Browse) (r : Except String (List Listed)) : Prop where
  tree : ∀ listed, r = .ok listed → discoveryOf listed = ⟨"s7_blocks", b.blocks.map DataBlock.node⟩
  fails : ∀ e, r = .error e → keyOf b.req = .error e ∨
    ∃ key e', keyOf b.req = .ok key ∧ connectRackSlot key.2.1 key.2.2 b.handshake = .error e'

/-- The cached session is ready, and what was done fits the CPUs. -/
structure AskedOnCpu (s : Asked) : Prop where
  ready : ∀ c, s.conn = some c → c.session.Ready 18
  polls : ∀ x ∈ s.polls, x.1.OnMemory x.2
  browses : ∀ x ∈ s.browses, x.1.OnDirectory x.2

theorem clientFor_error {conn : Option Conn} {key : Key} {h : Handshake} {e : String}
    (hc : clientFor conn key h = .error e) : ∃ e', connectRackSlot key.2.1 key.2.2 h = .error e' := by
  have hconnect : ∀ f : S7Error → String, (connectRackSlot key.2.1 key.2.2 h).mapError f = .error e →
      ∃ e', connectRackSlot key.2.1 key.2.2 h = .error e' := by
    intro f hf
    cases hr : connectRackSlot key.2.1 key.2.2 h with
    | error e' => exact ⟨e', rfl⟩
    | ok s =>
      rw [hr] at hf
      cases hf
  unfold clientFor at hc
  dsimp only at hc
  split at hc
  · split at hc
    · cases hc
    · exact hconnect _ hc
  · exact hconnect _ hc

/-- One discovery, on a session that is ready. -/
theorem discover_served {conn conn' : Option Conn} {b : Browse} {r : Except String (List Listed)}
    (hready : ∀ c, conn = some c → c.session.Ready 18) (hb : b.Served conn)
    (h : discover conn b.req b.handshake b.list b.infos = some (conn', r)) :
    (∀ c, conn' = some c → c.session.Ready 18) ∧ b.OnDirectory r := by
  unfold discover at h
  cases hkey : keyOf b.req with
  | error e =>
    rw [hkey] at h
    cases h
    exact ⟨hready, nofun, fun e' he => by cases he; exact Or.inl hkey⟩
  | ok key =>
    cases hclient : clientFor conn key b.handshake with
    | error e =>
      rw [hkey] at h
      simp only [hclient] at h
      cases h
      obtain ⟨e', he'⟩ := clientFor_error hclient
      exact ⟨fun c hc => (by cases hc), nofun, fun _ _ => Or.inr ⟨key, e', hkey, he'⟩⟩
    | ok session =>
      obtain ⟨hlist, hinfos⟩ := hb.answers key session hkey hclient
      have hsession := ready_clientFor hready hb.negotiates hclient
      rw [hkey] at h
      simp only [hclient, listDataBlocks_served hsession.stream hlist] at h
      obtain ⟨⟨session', listed⟩, hblocks, heq⟩ := Option.map_eq_some_iff.mp h
      cases heq
      obtain ⟨⟨hstream, hpdu⟩, hlisted⟩ :=
        blockInfos_served (hsession.sent listDbTelegram).stream hinfos hblocks
      refine ⟨fun c hc => ?_, fun listed' hok => ?_, nofun⟩
      · cases hc
        exact ⟨hstream, hpdu ▸ hsession.atLeast, hpdu ▸ hsession.atMost⟩
      · obtain rfl := Except.ok.inj hok
        exact discoveryOf_listed hlisted

theorem askedOnCpu_step {s t : Asked} {a : Ask} (hs : AskedOnCpu s) (ha : a.Served s)
    (h : askStep s a = some t) : AskedOnCpu t := by
  cases a with
  | poll p =>
    obtain ⟨⟨conn, r⟩, hread, rfl⟩ := Option.map_eq_some_iff.mp h
    obtain ⟨hready, hon⟩ := read_served hs.ready ha hread
    exact ⟨hready, List.forall_mem_append.mpr ⟨hs.polls, List.forall_mem_singleton.mpr hon⟩, hs.browses⟩
  | browse b =>
    obtain ⟨⟨conn, r⟩, hdiscover, rfl⟩ := Option.map_eq_some_iff.mp h
    obtain ⟨hready, hon⟩ := discover_served hs.ready ha hdiscover
    exact ⟨hready, hs.polls, List.forall_mem_append.mpr ⟨hs.browses, List.forall_mem_singleton.mpr hon⟩⟩

/-- What a run of requests from the start of the process keeps. -/
theorem askedOnCpu_run {asks : List Ask} {t : Asked} (hc : Each askStep Ask.Served ⟨none, [], []⟩ asks)
    (h : run askStep ⟨none, [], []⟩ asks = some t) : AskedOnCpu t := by
  have hstart : AskedOnCpu ⟨none, [], []⟩ :=
    ⟨fun c hc => (by cases hc), fun x hx => (by cases hx), fun x hx => (by cases hx)⟩
  exact each_run (fun _ _ _ => askedOnCpu_step) hc hstart h

end S7
end LymonAgent
