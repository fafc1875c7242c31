/-
# The S7 connector

`crates/plugin-s7/src/main.rs` with `s7/decode.rs` and `s7/blocks.rs`: one process
serves every S7 connector of the agent and keeps one session between requests. A
read takes its points one by one on the session and goes on after a point that
failed; the session is dropped at the end if one did. A discovery lists the data
blocks, and drops the session if that fails; it then asks for the information of
each block and drops nothing if that fails.

So a reply that comes late, or that is not read to its end, is still in the stream
when the next telegram is sent, except after the last point of a read and after
the list of a discovery. `own_replies` is about runs in which no other reply is
such.

Left out: the log lines.

Key definitions: `parseSelection`, `readValue`, `read`, `discover`, `step`,
`OwnReplies`, `InTime`.
Key theorems: `readValue_chunks`, `settled_readValue`, `own_readPoints`,
`own_blockInfos`.
-/
import LymonAgent.Plugin.Sdk
import LymonAgent.Runs
import LymonAgent.S7.Client

namespace LymonAgent
namespace S7

open Runs

/-! ### Types -/

inductive DType where
  | bool
  | sint
  | usint
  | int
  | uint
  | dint
  | udint
  | real
  | lreal
  deriving DecidableEq

/-- `str::to_ascii_lowercase`. -/
def toAsciiLowercase (s : String) : String := .ofList (s.toList.map Char.toLower)

def DType.parse (s : String) : Except String DType :=
  match toAsciiLowercase s with
  | "bool" | "bit" => .ok .bool
  | "sint" => .ok .sint
  | "usint" | "byte" => .ok .usint
  | "int" => .ok .int
  | "uint" | "word" => .ok .uint
  | "dint" => .ok .dint
  | "udint" | "dword" => .ok .udint
  | "real" | "float" => .ok .real
  | "lreal" | "double" => .ok .lreal
  | other => .error ("unknown s7 type: " ++ other.quote)

def DType.byteLen : DType → ℕ
  | .bool => 0
  | .sint | .usint => 1
  | .int | .uint => 2
  | .dint | .udint | .real => 4
  | .lreal => 8

/-- The number of some bytes, the most significant first. -/
def fromBeBytes (b : List UInt8) : ℕ := b.foldl (fun n x => n * 256 + x.toNat) 0

/-- The same as a signed number of `w` bits. -/
def signedBe (w : ℕ) (b : List UInt8) : ℤ :=
  if fromBeBytes b < 2 ^ (w - 1) then fromBeBytes b else (fromBeBytes b : ℤ) - 2 ^ w

def DType.decode (t : DType) (buf : List UInt8) : Except String F64 :=
  if buf.length < t.byteLen then
    .error ("s7 decode: need " ++ t.byteLen.repr ++ " bytes, got " ++ buf.length.repr)
  else
    let b := buf.take t.byteLen
    match t with
    | .bool => .error "s7 decode() called on Bool — use the bit path"
    | .sint => .ok (.fin (signedBe 8 b))
    | .int => .ok (.fin (signedBe 16 b))
    | .dint => .ok (.fin (signedBe 32 b))
    | .usint | .uint | .udint => .ok (.fin (fromBeBytes b))
    | .real => .ok (.ofF32Bits (.ofNat (fromBeBytes b)))
    | .lreal => .ok (.ofBits (.ofNat (fromBeBytes b)))

/-! ### Selections -/

structure Selection where
  area : UInt8
  db : UInt16
  byte : UInt16
  bit : UInt8
  dtype : DType

def parseArea (s : String) : Except String UInt8 :=
  match toAsciiLowercase s with
  | "db" | "datablock" => .ok 0x84
  | "m" | "mk" | "merker" | "flag" => .ok 0x83
  | "i" | "e" | "input" | "pe" => .ok 0x81
  | "q" | "a" | "output" | "pa" => .ok 0x82
  | other => .error ("unknown area " ++ other.quote ++ " (expected db/m/i/q)")

/-- A number that is absent or no `u64` is 0, and the others are cut to the field. -/
def parseSelection (sel : Json) : Except String Selection := do
  let area ← match sel.getStr "area" with
    | some a => parseArea a
    | none => pure 0x84
  let dtype ← DType.parse ((sel.getStr "type").getD "real")
  if area = 0x84 ∧ sel.get "db" = none then throw "selection.db is required for a DB read"
  let db := ((sel.getU64 "db").getD 0).toUInt16
  let byte := ((sel.getU64 "byte").getD 0).toUInt16
  let bit := ((sel.getU64 "bit").getD 0).toUInt8
  if dtype = .bool ∧ bit > 7 then
    throw ("selection.bit must be 0..7 for bool, got " ++ bit.toNat.repr)
  return ⟨area, db, byte, bit, dtype⟩

/-- Rack and slot: both given, or of the family, or of the integrated interface; one
that is given replaces the default. -/
def resolveRackSlot (config : Json) : Except String (UInt16 × UInt16) :=
  let rack := (config.getU64 "rack").map UInt64.toUInt16
  let slot := (config.getU64 "slot").map UInt64.toUInt16
  let or (default : UInt16 × UInt16) : Except String (UInt16 × UInt16) :=
    .ok (rack.getD default.1, slot.getD default.2)
  match rack, slot with
  | some r, some s => .ok (r, s)
  | _, _ =>
    match config.getStr "family" with
    | none => or (0, 1)
    | some family =>
      match toAsciiLowercase family with
      | "s7-1500" | "s71500" | "s7-1200" | "s71200" => or (0, 1)
      | "s7-300" | "s7300" => or (0, 2)
      | "s7-400" | "s7400" =>
        .error "family s7-400 has no fixed rack/slot — set rack and slot explicitly"
      | other => .error ("unknown family " ++ other.quote ++
          " (use s7-1500/s7-1200/s7-300, or set rack+slot)")

/-! ### Reading a point -/

def readValue (s : Session) (sel : Selection) (answers : List Answer) :
    Option (Session × List Exchange × Except String F64) :=
  if sel.dtype = .bool then
    (readBit s sel.area sel.db sel.byte sel.bit answers).map fun (s, xs, r) =>
      (s, xs, (r.mapError S7Error.text).map fun b => .fin (if b then 1 else 0))
  else
    (readArea s sel.area sel.db sel.byte 0x02 sel.dtype.byteLen answers).map fun (s, xs, r) =>
      (s, xs, (r.mapError S7Error.text).bind sel.dtype.decode)

/-- A sample, the selection it is of and the exchanges it was read by. -/
structure Reading where
  sel : Selection
  exchanges : List Exchange
  sample : Sdk.Sample

def sampleOf (variableId : String) : Except String F64 → Sdk.Sample
  | .ok v => ⟨variableId, v, none, 0⟩
  | .error _ => ⟨variableId, .fin 0, none, 1⟩

/-- The loop of `read`, with the answers to the telegrams of each point, and whether
a point failed. -/
def readPoints : Session → List (String × Selection) → List (List Answer) →
    Option (Session × List Reading × Bool)
  | s, [], _ => some (s, [], false)
  | _, _ :: _, [] => none
  | s, (variableId, sel) :: targets, answers :: rest =>
    (readValue s sel answers).bind fun (s, xs, r) =>
      (readPoints s targets rest).map fun (s, readings, wireErr) =>
        (s, ⟨sel, xs, sampleOf variableId r⟩ :: readings, !r.isOk || wireErr)

/-- The value of a selection in the replies to the telegrams that read it. -/
def decodedFrom (pduLength : UInt16) (sel : Selection) (replies : List (Except S7Error (List UInt8))) :
    Except String F64 :=
  if sel.dtype = .bool then
    ((assemble pduLength 1 replies 0 [0]).mapError S7Error.text).map fun buffer =>
      .fin (if buffer.getD 0 0 != 0 then 1 else 0)
  else
    let len := sel.dtype.byteLen
    ((assemble pduLength (elements 0x02 len) replies 0 (List.replicate len 0)).mapError S7Error.text).bind
      sel.dtype.decode

/-! ### A value and its chunks -/

/-- The word length, the start, the bytes and the number of elements of the request
for a selection, and the value of its bytes. -/
def Selection.wordlen (sel : Selection) : UInt8 := if sel.dtype = .bool then 0x01 else 0x02

def Selection.start (sel : Selection) : UInt16 :=
  if sel.dtype = .bool then sel.byte * 8 + sel.bit.toUInt16 else sel.byte

def Selection.size (sel : Selection) : ℕ := if sel.dtype = .bool then 1 else sel.dtype.byteLen

def Selection.datasize (sel : Selection) : UInt16 := elements sel.wordlen sel.size

def Selection.valueOf (sel : Selection) (bytes : List UInt8) : Except String F64 :=
  if sel.dtype = .bool then .ok (.fin (if bytes.getD 0 0 != 0 then 1 else 0)) else sel.dtype.decode bytes

/-- The parameters pass the checks of `read_area` and `read_bit`. -/
def Selection.Readable (sel : Selection) : Prop :=
  sel.area ∈ ([0x81, 0x82, 0x83, 0x84] : List UInt8) ∧ ¬ (sel.dtype = .bool ∧ sel.bit > 7)

instance (sel : Selection) : Decidable sel.Readable :=
  inferInstanceAs (Decidable (sel.area ∈ ([0x81, 0x82, 0x83, 0x84] : List UInt8) ∧
    ¬ (sel.dtype = .bool ∧ sel.bit > 7)))

theorem datasize_toNat (sel : Selection) : sel.datasize.toNat = sel.size := by
  unfold Selection.datasize Selection.size Selection.wordlen
  cases sel.dtype <;> rfl

theorem not_datasize_le (sel : Selection) : ¬ sel.datasize ≤ 0 := by
  unfold Selection.datasize Selection.size Selection.wordlen
  cases sel.dtype <;> decide

/-- A selection is read by the loop over its chunks, a bit as one byte. -/
theorem readValue_chunks (s : Session) (sel : Selection) (answers : List Answer) :
    readValue s sel answers =
      if sel.Readable then
        (readChunks sel.area sel.db sel.wordlen sel.datasize answers s 0 sel.start.toUInt32
          (List.replicate sel.size 0)).map
            fun x => (x.1, x.2.1, (x.2.2.mapError S7Error.text).bind sel.valueOf)
      else some (s, [], .error S7Error.invalidFunParameter.text) := by
  unfold readValue Selection.Readable Selection.datasize Selection.size Selection.start Selection.wordlen
    Selection.valueOf
  by_cases hbool : sel.dtype = .bool
  · have hbit : ∀ r : Except S7Error (List UInt8),
        ((r.map fun buffer => buffer.getD 0 0 != 0).mapError S7Error.text).map
            (fun b => F64.fin (if b then 1 else 0)) =
          (r.mapError S7Error.text).bind fun bytes => .ok (.fin (if bytes.getD 0 0 != 0 then 1 else 0)) := by
      intro r
      cases r <;> rfl
    by_cases hgt : sel.bit > 7
    · simp only [hbool, hgt, readBit, if_true, and_self, not_true_eq_false, and_false, if_false]
      rfl
    · by_cases harea : sel.area ∈ ([0x81, 0x82, 0x83, 0x84] : List UInt8)
      · simp only [hbool, hgt, harea, readBit, readArea, if_true, if_false, and_false, not_false_eq_true,
          and_self, Option.map_map, Function.comp_def, hbit]
        rfl
      · simp only [hbool, hgt, harea, readBit, readArea, if_true, if_false, not_false_eq_true, true_or,
          false_and]
        rfl
  · by_cases harea : sel.area ∈ ([0x81, 0x82, 0x83, 0x84] : List UInt8)
    · simp [hbool, harea, readArea]
    · simp [hbool, harea, readArea]
      rfl

/-- A value that is read is that of the buffer its chunks are read into. -/
theorem readValue_ok {s s' : Session} {sel : Selection} {answers : List Answer} {xs : List Exchange}
    {v : F64} (h : readValue s sel answers = some (s', xs, .ok v)) :
    ∃ out, readChunks sel.area sel.db sel.wordlen sel.datasize answers s 0 sel.start.toUInt32
      (List.replicate sel.size 0) = some (s', xs, .ok out) ∧ sel.valueOf out = .ok v := by
  rw [readValue_chunks] at h
  split at h
  · obtain ⟨⟨t, ys, r⟩, hchunks, heq⟩ := Option.map_eq_some_iff.mp h
    obtain ⟨rfl, rfl, hv⟩ := Prod.mk.inj heq |>.imp_right Prod.mk.inj
    obtain ⟨out, hout, hvalue⟩ := bind_eq_ok hv
    obtain rfl := mapError_eq_ok hout
    exact ⟨out, hchunks, hvalue⟩
  · cases h

/-- A value is decoded from the replies to the telegrams sent for it. -/
theorem readValue_eq {s s' : Session} {sel : Selection} {answers : List Answer} {xs : List Exchange}
    {v : F64} (h : readValue s sel answers = some (s', xs, .ok v)) :
    decodedFrom s.pduLength sel (xs.map Exchange.bytes) = .ok v ∧ xs ≠ [] := by
  obtain ⟨out, hchunks, hv⟩ := readValue_ok h
  obtain ⟨hasm, hne⟩ := readChunks_eq hchunks
  refine ⟨?_, hne (not_datasize_le sel)⟩
  unfold Selection.datasize Selection.size Selection.wordlen at hasm
  unfold Selection.valueOf at hv
  unfold decodedFrom
  by_cases hbool : sel.dtype = .bool
  · rw [if_pos hbool] at hv ⊢
    simp only [hbool, if_true] at hasm
    have hasm' : assemble s.pduLength 1 (xs.map Exchange.bytes) 0 [0] = .ok out := hasm.symm
    rw [hasm']
    exact hv
  · rw [if_neg hbool] at hv ⊢
    simp only [hbool, if_false] at hasm
    simp only [← hasm]
    exact hv

/-! ### Data blocks -/

/-- `check_userdata_ok`. -/
def checkUserdataOk (payload : List UInt8) (op : String) : Except S7Error Unit :=
  let errNo := makeU16 (payload.getD 20 0) (payload.getD 21 0)
  if errNo ≠ 0 then
    .error (.other (op ++ ": CPU error 0x" ++ .ofList (hexDigits 4 errNo)))
  else if payload.getD 22 0 ≠ 0xFF then
    .error (.other (op ++ ": not available (retval 0x" ++
      .ofList (hexDigits 2 (payload.getD 22 0).toNat) ++ ")"))
  else .ok ()
where
  /-- The last `w` hexadecimal digits. -/
  hexDigits : ℕ → ℕ → List Char
    | 0, _ => []
    | w + 1, n => hexDigits w (n / 16) ++ [(n % 16).digitChar]

def listDbTelegram : List UInt8 :=
  [0x03, 0x00, 0x00, 0x1f, 0x02, 0xf0, 0x80, 0x32, 0x07, 0x00, 0x00, 0x05, 0x00, 0x00, 0x08, 0x00, 0x06,
    0x00, 0x01, 0x12, 0x04, 0x11, 0x43, 0x02, 0x00, 0xff, 0x09, 0x00, 0x02, 0x30, 0x41]

/-- The numbers of `count` records of four bytes. -/
def blockNumbers (records : List UInt8) : ℕ → List UInt16
  | 0 => []
  | count + 1 =>
    .ofNat (makeU16 (records.getD 0 0) (records.getD 1 0)) :: blockNumbers (records.drop 4) count

def parseBlockList (payload : List UInt8) : Except S7Error (List UInt16) :=
  if payload.length < 26 then
    .error (.other ("list-blocks response too short (" ++ payload.length.repr ++ " bytes)"))
  else
    (checkUserdataOk payload "list-blocks").map fun _ =>
      let dataLen := makeU16 (payload.getD 24 0) (payload.getD 25 0)
      blockNumbers (payload.drop 26) (min dataLen (payload.length - 26) / 4)

structure BlockInfo where
  size : Option ℕ
  name : Option String
  lang : Option UInt8

/-- A request for the information of a block, its number as five digits. -/
def blockInfoTelegram (db : UInt16) : List UInt8 :=
  let digit (div : ℕ) : UInt8 := .ofNat (db.toNat / div % 10 + 48)
  [0x03, 0x00, 0x00, 0x25, 0x02, 0xf0, 0x80, 0x32, 0x07, 0x00, 0x00, 0x05, 0x00, 0x00, 0x08, 0x00, 0x0c,
    0x00, 0x01, 0x12, 0x04, 0x11, 0x43, 0x03, 0x00, 0xff, 0x09, 0x00, 0x08, 0x30, 0x41,
    digit 10000, digit 1000, digit 100, digit 10, digit 1, 0x41]

/-- The printable characters up to a zero, without blanks at the ends. -/
def parseHeaderName (header : List UInt8) : Option String :=
  let printable := (header.takeWhile (· != 0)).filter fun b => 0x20 ≤ b && b ≤ 0x7E
  let trimmed := ((printable.dropWhile (· = 0x20)).reverse.dropWhile (· = 0x20)).reverse
  if trimmed.isEmpty then none else some (.ofList (trimmed.map fun b => Char.ofNat b.toNat))

/-- Each field is read if the payload reaches as far. -/
def parseBlockInfo (payload : List UInt8) : Except S7Error BlockInfo :=
  if payload.length ≤ 22 then
    .error (.other ("block-info response too short (" ++ payload.length.repr ++ " bytes)"))
  else
    (checkUserdataOk payload "block-info").map fun _ =>
      ⟨if 68 ≤ payload.length then some (makeU16 (payload.getD 66 0) (payload.getD 67 0)) else none,
        if 92 ≤ payload.length then parseHeaderName ((payload.drop 84).take 8) else none,
        payload[36]?⟩

def listDataBlocks (s : Session) (a : Answer) : Session × Except S7Error (List UInt16) :=
  let (s, x) := exchange s listDbTelegram a
  (s, x.bytes.bind parseBlockList)

/-- A block, the exchange that asked for its information, and what came of it. -/
structure Listed where
  db : UInt16
  exchange : Exchange
  info : Option BlockInfo

def getBlockInfo (s : Session) (db : UInt16) (a : Answer) : Session × Exchange × Except S7Error BlockInfo :=
  let (s, x) := exchange s (blockInfoTelegram db) a
  (s, x, x.bytes.bind parseBlockInfo)

/-- The loop of `discover`. -/
def blockInfos : Session → List UInt16 → List Answer → Option (Session × List Listed)
  | s, [], _ => some (s, [])
  | _, _ :: _, [] => none
  | s, db :: dbs, a :: answers =>
    let (s, x, r) := getBlockInfo s db a
    (blockInfos s dbs answers).map fun (s, listed) => (s, ⟨db, x, r.toOption⟩ :: listed)

def optJson {α : Type} (f : α → Json) (x : Option α) : Json := (x.map f).getD .null

def jsonNat (n : ℕ) : Json := .num (.posInt (.ofNat n))

def dbNode (db : UInt16) (info : Option BlockInfo) : Sdk.Node :=
  let name := info.bind BlockInfo.name
  let size := info.bind BlockInfo.size
  let lang := info.bind BlockInfo.lang
  let id := "DB" ++ db.toNat.repr
  let label := match name, size with
    | some n, some sz => id ++ " · " ++ n ++ " (" ++ sz.repr ++ " B)"
    | some n, none => id ++ " · " ++ n
    | none, some sz => id ++ " (" ++ sz.repr ++ " B)"
    | none, none => id
  .node id label "db" [] (.obj [("db", jsonNat db.toNat), ("lang", optJson (fun b => jsonNat b.toNat) lang),
    ("name", optJson .str name), ("size_bytes", optJson jsonNat size)])

/-! ### Requests -/

/-- Host, rack and slot. -/
abbrev Key : Type := String × UInt16 × UInt16

structure Conn where
  key : Key
  session : Session

def keyOf (req : Sdk.ReadRequest) : Except String Key :=
  match req.config.getStr "host" with
  | none => .error "config.host is required"
  | some host => (resolveRackSlot req.config).map fun (rack, slot) => (host, rack, slot)

/-- The cached session if it is for this key, or a new one. Where there is none
after it, none is cached. -/
def clientFor (conn : Option Conn) (key : Key) (h : Handshake) : Except String Session :=
  let connect := (connectRackSlot key.2.1 key.2.2 h).mapError fun e =>
    "s7 connect " ++ key.1 ++ " rack" ++ key.2.1.toNat.repr ++ "/slot" ++ key.2.2.toNat.repr ++ ": " ++ e.text
  match conn with
  | some c => if c.key = key then .ok c.session else connect
  | none => connect

/-- The variable and the selection of each point. -/
def targetsOf : List Sdk.Point → Except String (List (String × Selection))
  | [] => .ok []
  | p :: ps =>
    (parseSelection p.selection).bind fun sel =>
      (targetsOf ps).map ((((p.naming.getStr "variable_id").getD "s7.value"), sel) :: ·)

def read (conn : Option Conn) (req : Sdk.ReadRequest) (h : Handshake) (answers : List (List Answer)) :
    Option (Option Conn × Except String (List Reading)) :=
  match keyOf req with
  | .error e => some (conn, .error e)
  | .ok key =>
    match targetsOf req.allPoints with
    | .error e => some (conn, .error e)
    | .ok targets =>
      match clientFor conn key h with
      | .error e => some (none, .error e)
      | .ok session =>
        (readPoints session targets answers).map fun (session, readings, hadWireErr) =>
          (if hadWireErr then none else some ⟨key, session⟩, .ok readings)

def discover (conn : Option Conn) (req : Sdk.ReadRequest) (h : Handshake) (list : Answer)
    (infos : List Answer) : Option (Option Conn × Except String (List Listed)) :=
  match keyOf req with
  | .error e => some (conn, .error e)
  | .ok key =>
    match clientFor conn key h with
    | .error e => some (none, .error e)
    | .ok session =>
      match listDataBlocks session list with
      | (_, .error e) => some (none, .error ("s7 discover: " ++ e.text))
      | (session, .ok dbs) =>
        (blockInfos session dbs infos).map fun (session, listed) => (some ⟨key, session⟩, .ok listed)

/-- The tree of a discovery. -/
def discoveryOf (listed : List Listed) : Sdk.Discovery :=
  ⟨"s7_blocks", listed.map fun l => dbNode l.db l.info⟩

/-- What a request came to. -/
inductive Served where
  | read (req : Sdk.ReadRequest) (r : Except String (List Reading))
  | discover (r : Except String (List Listed))

structure Connector where
  conn : Option Conn
  served : List Served

/-- A request, with what the PLC says to it: the answers to the telegrams of each
point, or to the list and to each block. -/
inductive Event where
  | read (req : Sdk.ReadRequest) (h : Handshake) (answers : List (List Answer))
  | discover (req : Sdk.ReadRequest) (h : Handshake) (list : Answer) (infos : List Answer)

def start : Connector := ⟨none, []⟩

def step (s : Connector) : Event → Option Connector
  | .read req h answers =>
    (read s.conn req h answers).map fun (conn, r) => ⟨conn, s.served ++ [.read req r]⟩
  | .discover req h list infos =>
    (discover s.conn req h list infos).map fun (conn, r) => ⟨conn, s.served ++ [.discover r]⟩

/-! ### Own readings -/

/-- A telegram reads the bit of the selection, or some of its bytes. -/
def Selection.ReadBy (sel : Selection) : List UInt8 → Prop :=
  if sel.dtype = .bool then
    ReadsFrom sel.area sel.db 0x01 (sel.byte * 8 + sel.bit.toUInt16).toUInt32 1
  else ReadsFrom sel.area sel.db 0x02 sel.byte.toUInt32 (elements 0x02 sel.dtype.byteLen)

/-- The sample is decoded from the replies to the telegrams that were sent for its
selection. -/
structure Reading.Own (rd : Reading) : Prop where
  sent : rd.exchanges ≠ []
  decoded : ∃ pduLength, decodedFrom pduLength rd.sel (rd.exchanges.map Exchange.bytes) =
    .ok rd.sample.value
  own : ∀ x ∈ rd.exchanges, x.Own ∧ rd.sel.ReadBy x.telegram

/-- The information is read from the reply to the request for the block. -/
structure Listed.Own (l : Listed) (info : BlockInfo) : Prop where
  parsed : l.exchange.bytes.bind parseBlockInfo = .ok info
  own : l.exchange.Own ∧ l.exchange.telegram = blockInfoTelegram l.db

/-- The variable and the selection of a reading. -/
def Reading.target (rd : Reading) : String × Selection := (rd.sample.variableId, rd.sel)

/-- There is one reading for each point of the request. Every good sample and the
information of every block are of their own replies. -/
def Served.Own : Served → Prop
  | .read req r => ∀ readings, r = .ok readings →
      targetsOf req.allPoints = .ok (readings.map Reading.target) ∧
      ∀ rd ∈ readings, rd.sample.quality = 0 → rd.Own
  | .discover r => ∀ listed, r = .ok listed → ∀ l ∈ listed, ∀ info, l.info = some info → l.Own info

def OwnReplies (s : Connector) : Prop := ∀ x ∈ s.served, x.Own

/-- The answers to all points but the last, and to the requests for the blocks, come
in time and can be used on the session the request runs on. -/
def InTime (s : Connector) : Event → Prop
  | .read req h answers => ∀ key ∈ (keyOf req).toOption, ∀ session ∈ (clientFor s.conn key h).toOption,
      ∀ as ∈ answers.take (req.allPoints.length - 1), ∀ a ∈ as, a.Usable readAdmits session.pduLength
  | .discover req h _ infos =>
      ∀ key ∈ (keyOf req).toOption, ∀ session ∈ (clientFor s.conn key h).toOption,
        ∀ a ∈ infos, a.Usable (fun _ => true) session.pduLength

instance (s : Connector) : (e : Event) → Decidable (InTime s e)
  | .read req h answers => inferInstanceAs (Decidable (∀ key ∈ (keyOf req).toOption,
      ∀ session ∈ (clientFor s.conn key h).toOption, ∀ as ∈ answers.take (req.allPoints.length - 1),
        ∀ a ∈ as, a.Usable readAdmits session.pduLength))
  | .discover req h _ infos => inferInstanceAs (Decidable (∀ key ∈ (keyOf req).toOption,
      ∀ session ∈ (clientFor s.conn key h).toOption, ∀ a ∈ infos,
        a.Usable (fun _ => true) session.pduLength))

/-! ### The session between requests -/

/-- The cached session has nothing left in its stream. -/
def Idle (conn : Option Conn) : Prop := ∀ c, conn = some c → c.session.stream = []

theorem idle_none : Idle none := fun c h => (Option.some_ne_none c h.symm).elim

theorem stream_connect {rack slot : UInt16} {h : Handshake} {s : Session}
    (hc : connectRackSlot rack slot h = .ok s) : s.stream = [] := by
  obtain ⟨pduLength, rfl⟩ := connectTsap_ok hc
  rfl

theorem stream_clientFor {conn : Option Conn} {key : Key} {h : Handshake} {s : Session}
    (hi : Idle conn) (hc : clientFor conn key h = .ok s) : s.stream = [] := by
  have hconnect : ∀ f : S7Error → String, (connectRackSlot key.2.1 key.2.2 h).mapError f = .ok s →
      s.stream = [] := by
    intro f hf
    exact stream_connect (mapError_eq_ok hf)
  unfold clientFor at hc
  dsimp only at hc
  split at hc
  · split at hc
    · obtain rfl := Except.ok.inj hc
      exact hi _ rfl
    · exact hconnect _ hc
  · exact hconnect _ hc

theorem readBy_eq (sel : Selection) :
    sel.ReadBy = ReadsFrom sel.area sel.db sel.wordlen sel.start.toUInt32 sel.datasize := by
  unfold Selection.ReadBy Selection.datasize Selection.size Selection.start Selection.wordlen
  split <;> rfl

theorem settled_readValue {s s' : Session} {sel : Selection} {answers : List Answer}
    {xs : List Exchange} {r : Except String F64} (hs : s.stream = [])
    (h : readValue s sel answers = some (s', xs, r)) :
    Settled sel.ReadBy readAdmits answers (∃ v, r = .ok v) s s' xs := by
  rw [readValue_chunks] at h
  split at h
  · obtain ⟨⟨t, ys, r'⟩, hchunks, heq⟩ := Option.map_eq_some_iff.mp h
    obtain ⟨rfl, rfl, rfl⟩ := heq
    have hstart : sel.start.toUInt32 = sel.start.toUInt32 + (0 : UInt16).toUInt32 := (UInt32.add_zero _).symm
    rw [hstart] at hchunks
    have hset := settled_readChunks hs hchunks
    rw [readBy_eq]
    refine ⟨hset.own, fun hd => hset.empty (hd.imp_right ?_)⟩
    rintro ⟨v, hv⟩
    obtain ⟨buffer, hbuffer, -⟩ := bind_eq_ok hv
    exact ⟨buffer, mapError_eq_ok hbuffer⟩
  · obtain ⟨rfl, rfl, rfl⟩ := h
    exact .none hs

/-- A point read on an empty stream, if it is good. -/
theorem own_reading {s s' : Session} {sel : Selection} {answers : List Answer} {xs : List Exchange}
    {r : Except String F64} (hs : s.stream = []) (h : readValue s sel answers = some (s', xs, r))
    (variableId : String) (hq : (sampleOf variableId r).quality = 0) :
    Reading.Own ⟨sel, xs, sampleOf variableId r⟩ := by
  cases r with
  | error e => exact absurd hq (by simp [sampleOf])
  | ok v =>
    obtain ⟨hv, hne⟩ := readValue_eq h
    exact ⟨hne, ⟨_, hv⟩, (settled_readValue hs h).own⟩

/-- A read of at least one point reads the first one and then the others. -/
theorem readPoints_cons {target : String × Selection} {targets : List (String × Selection)}
    {answers : List (List Answer)} {s s' : Session} {readings : List Reading} {hadWireErr : Bool}
    (h : readPoints s (target :: targets) answers = some (s', readings, hadWireErr)) :
    ∃ as rest t xs r readings' err, answers = as :: rest ∧ readValue s target.2 as = some (t, xs, r) ∧
      readPoints t targets rest = some (s', readings', err) ∧
      readings = ⟨target.2, xs, sampleOf target.1 r⟩ :: readings' ∧ hadWireErr = (!r.isOk || err) := by
  cases answers with
  | nil => cases h
  | cons as rest =>
    simp only [readPoints] at h
    obtain ⟨⟨t, xs, r⟩, hvalue, hmap⟩ := Option.bind_eq_some_iff.mp h
    obtain ⟨⟨t', readings', err⟩, hpoints, heq⟩ := Option.map_eq_some_iff.mp hmap
    obtain ⟨rfl, rfl, rfl⟩ := heq
    exact ⟨as, rest, t, xs, r, readings', err, rfl, hvalue, hpoints, rfl, rfl⟩

/-- The points of a read, on an empty stream: the good ones are of their own replies
if those to all points but the last can be used, and the stream is empty again if
none failed. -/
theorem own_readPoints : ∀ {targets : List (String × Selection)} {answers : List (List Answer)}
    {s s' : Session} {readings : List Reading} {hadWireErr : Bool}, s.stream = [] →
    (∀ as ∈ answers.take (targets.length - 1), ∀ a ∈ as, a.Usable readAdmits s.pduLength) →
    readPoints s targets answers = some (s', readings, hadWireErr) →
    (∀ rd ∈ readings, rd.sample.quality = 0 → rd.Own) ∧ (hadWireErr = false → s'.stream = []) := by
  intro targets
  induction targets with
  | nil =>
    intro answers s s' readings hadWireErr hs _ h
    obtain ⟨rfl, rfl, rfl⟩ := h
    exact ⟨fun _ hrd => absurd hrd List.not_mem_nil, fun _ => hs⟩
  | cons target targets ih =>
    intro answers s s' readings hadWireErr hs husable h
    obtain ⟨as, rest, t, xs, r, readings', err, rfl, hvalue, hpoints, rfl, rfl⟩ := readPoints_cons h
    have hset := settled_readValue hs hvalue
    cases targets with
    | nil =>
      -- the last point: it may fail, and then the session is dropped
      obtain ⟨rfl, rfl, rfl⟩ := hpoints
      refine ⟨List.forall_mem_singleton.mpr (own_reading hs hvalue target.1), fun herr => ?_⟩
      cases r with
      | error e => cases herr
      | ok v => exact (hset.empty (Or.inr ⟨v, rfl⟩)).1
    | cons next targets =>
      have hlen : (target :: next :: targets).length - 1 = targets.length + 1 := rfl
      rw [hlen, List.take_succ_cons] at husable
      obtain ⟨hfirst, hrest⟩ := List.forall_mem_cons.mp husable
      obtain ⟨hstream, hpdu⟩ := hset.empty (Or.inl hfirst)
      rw [← hpdu] at hrest
      obtain ⟨hown, hempty⟩ := ih hstream hrest hpoints
      exact ⟨List.forall_mem_cons.mpr ⟨own_reading hs hvalue target.1, hown⟩,
        fun herr => hempty (Bool.or_eq_false_iff.mp herr).2⟩

/-- The readings are those of the targets, in their order. -/
theorem targets_readPoints : ∀ {targets : List (String × Selection)} {answers : List (List Answer)}
    {s s' : Session} {readings : List Reading} {hadWireErr : Bool},
    readPoints s targets answers = some (s', readings, hadWireErr) →
    readings.map Reading.target = targets := by
  intro targets
  induction targets with
  | nil =>
    intro answers s s' readings hadWireErr h
    obtain ⟨rfl, rfl, rfl⟩ := h
    rfl
  | cons target targets ih =>
    intro answers s s' readings hadWireErr h
    obtain ⟨as, rest, t, xs, r, readings', err, -, -, hpoints, rfl, -⟩ := readPoints_cons h
    rw [List.map_cons, ih hpoints]
    cases r <;> rfl

/-- The blocks of a discovery, on an empty stream, if every reply can be used. -/
theorem own_blockInfos : ∀ {dbs : List UInt16} {answers : List Answer} {s s' : Session}
    {listed : List Listed}, s.stream = [] →
    (∀ a ∈ answers, a.Usable (fun _ => true) s.pduLength) →
    blockInfos s dbs answers = some (s', listed) →
    (∀ l ∈ listed, ∀ info, l.info = some info → l.Own info) ∧ s'.stream = [] := by
  intro dbs
  induction dbs with
  | nil =>
    intro answers s s' listed hs _ h
    obtain ⟨rfl, rfl⟩ := h
    exact ⟨fun _ hl => absurd hl List.not_mem_nil, hs⟩
  | cons db dbs ih =>
    intro answers s s' listed hs husable h
    cases answers with
    | nil => cases h
    | cons a answers =>
      obtain ⟨hfirst, hrest⟩ := List.forall_mem_cons.mp husable
      simp only [blockInfos, getBlockInfo, exchange] at h
      obtain ⟨⟨t, listed'⟩, hinfos, heq⟩ := Option.map_eq_some_iff.mp h
      obtain ⟨rfl, rfl⟩ := heq
      obtain ⟨hstream, hpdu⟩ := session_of_usable hs hfirst
      rw [← hpdu] at hrest
      obtain ⟨hown, hempty⟩ := ih hstream hrest hinfos
      refine ⟨List.forall_mem_cons.mpr ⟨fun info hinfo => ?_, hown⟩, hempty⟩
      exact ⟨toOption_eq_some hinfo, own_transact hs, telegram_transact⟩

/-- The list of a discovery, on an empty stream, leaves it empty if it is read. -/
theorem stream_listDataBlocks {s s' : Session} {a : Answer} {dbs : List UInt16} (hs : s.stream = [])
    (h : listDataBlocks s a = (s', .ok dbs)) : s'.stream = [] ∧ s'.pduLength = s.pduLength := by
  simp only [listDataBlocks, exchange, Prod.mk.injEq] at h
  obtain ⟨rfl, hresp⟩ := h
  obtain ⟨bytes, hbytes, -⟩ := bind_eq_ok hresp
  obtain ⟨body, hbody, -⟩ := map_eq_ok hbytes
  exact session_of_ok hs hbody

theorem length_targetsOf : ∀ {points : List Sdk.Point} {targets : List (String × Selection)},
    targetsOf points = .ok targets → targets.length = points.length
  | [], targets, h => by
    obtain rfl := Except.ok.inj h
    rfl
  | p :: ps, targets, h => by
    rw [targetsOf] at h
    obtain ⟨sel, -, hmap⟩ := bind_eq_ok h
    obtain ⟨rest, hrest, rfl⟩ := map_eq_ok hmap
    rw [List.length_cons, List.length_cons, length_targetsOf hrest]

/-! ### Requests keep the session idle -/

section

variable {conn conn' : Option Conn} {req : Sdk.ReadRequest} {h : Handshake}

/-- A request that fails before its calls, on a session that stays as it is or none. -/
theorem idle_of_error {α : Type} (served : Except String α → Served)
    (he : ∀ e, (served (.error e)).Own) {c : Option Conn} {e : String} {r : Except String α}
    (hc : Idle c) (h : some (c, .error e) = some (conn', r)) : Idle conn' ∧ (served r).Own := by
  obtain ⟨rfl, rfl⟩ := h
  exact ⟨hc, he e⟩

theorem own_read {answers : List (List Answer)} {r : Except String (List Reading)} (hi : Idle conn)
    (ht : InTime ⟨conn, []⟩ (.read req h answers)) (hr : read conn req h answers = some (conn', r)) :
    Idle conn' ∧ (Served.read req r).Own := by
  unfold read at hr
  split at hr
  · exact idle_of_error (Served.read req) (fun _ => nofun) hi hr
  · rename_i key hkey
    split at hr
    · exact idle_of_error (Served.read req) (fun _ => nofun) hi hr
    · rename_i targets htargets
      split at hr
      · exact idle_of_error (Served.read req) (fun _ => nofun) idle_none hr
      · rename_i session hsession
        obtain ⟨⟨s', readings, err⟩, hpoints, heq⟩ := Option.map_eq_some_iff.mp hr
        obtain ⟨rfl, rfl⟩ := heq
        have husable := ht key (by rw [hkey]; rfl) session (by rw [hsession]; rfl)
        rw [← length_targetsOf htargets] at husable
        obtain ⟨hown, hempty⟩ := own_readPoints (stream_clientFor hi hsession) husable hpoints
        refine ⟨?_, ?_⟩
        · cases err with
          | true => exact idle_none
          | false =>
            intro c hc
            obtain rfl := Option.some.inj hc
            exact hempty rfl
        · intro readings' hok
          obtain rfl := Except.ok.inj hok
          exact ⟨by rw [htargets, targets_readPoints hpoints], hown⟩

theorem own_discover {list : Answer} {infos : List Answer} {r : Except String (List Listed)}
    (hi : Idle conn) (ht : InTime ⟨conn, []⟩ (.discover req h list infos))
    (hr : discover conn req h list infos = some (conn', r)) : Idle conn' ∧ (Served.discover r).Own := by
  unfold discover at hr
  split at hr
  · exact idle_of_error Served.discover (fun _ => nofun) hi hr
  · rename_i key hkey
    split at hr
    · exact idle_of_error Served.discover (fun _ => nofun) idle_none hr
    · rename_i session hsession
      split at hr
      · exact idle_of_error Served.discover (fun _ => nofun) idle_none hr
      · rename_i s dbs hlist
        obtain ⟨⟨s', listed⟩, hinfos, heq⟩ := Option.map_eq_some_iff.mp hr
        obtain ⟨rfl, rfl⟩ := heq
        have husable := ht key (by rw [hkey]; rfl) session (by rw [hsession]; rfl)
        obtain ⟨hstream, hpdu⟩ := stream_listDataBlocks (stream_clientFor hi hsession) hlist
        rw [← hpdu] at husable
        obtain ⟨hown, hempty⟩ := own_blockInfos hstream husable hinfos
        refine ⟨fun c hc => ?_, fun listed' hok => ?_⟩
        · obtain rfl := Option.some.inj hc
          exact hempty
        · obtain rfl := Except.ok.inj hok
          exact hown

end

/-- Between requests the session is idle, and all that was served is of its own
replies. -/
structure Kept (s : Connector) : Prop where
  idle : Idle s.conn
  own : OwnReplies s

theorem kept_step {s t : Connector} {e : Event} (hs : Kept s) (ht : InTime s e)
    (h : step s e = some t) : Kept t := by
  have hadd : ∀ {conn : Option Conn} {x : Served}, Idle conn ∧ x.Own →
      Kept ⟨conn, s.served ++ [x]⟩ := by
    intro conn x hx
    refine ⟨hx.1, fun y hy => ?_⟩
    rcases List.mem_append.mp hy with hy | hy
    · exact hs.own y hy
    · obtain rfl := List.mem_singleton.mp hy
      exact hx.2
  cases e with
  | read req hsk answers =>
    obtain ⟨⟨conn, r⟩, hr, rfl⟩ := Option.map_eq_some_iff.mp h
    exact hadd (own_read hs.idle ht hr)
  | discover req hsk list infos =>
    obtain ⟨⟨conn, r⟩, hr, rfl⟩ := Option.map_eq_some_iff.mp h
    exact hadd (own_discover hs.idle ht hr)

/-- **Replies are matched to their own requests where none is left behind.** For
every sequence of read and discover requests to one connector, whatever the PLC
replies and however late, in which the replies to all points of a read but the
last and to all requests for a block come in time and pass the checks of their
headers: there is a sample for each point, every good one is read from the replies
to the telegrams sent for that point, and the information of every block from the reply to the request
for that block. -/
theorem own_replies {es : List Event} {t : Connector} (hc : Each step InTime start es)
    (h : run step start es = some t) : OwnReplies t := by
  have hstart : Kept start := ⟨idle_none, fun _ hx => absurd hx List.not_mem_nil⟩
  have hkept : Kept t := each_run (fun _ _ _ => kept_step) hc hstart h
  exact hkept.own

/-! ### Late replies -/

/-- A PLC that negotiates 480 bytes at once. -/
def handshake : Handshake where
  tcp := .ok ()
  confirm := [0x03, 0x00, 0x00, 22, 0x11, 0xD0] ++ List.replicate 16 0
  confirm_length := rfl
  negotiated := [0x03, 0x00, 0x00, 27, 0x02, 0xF0, 0x80, 0x32] ++ List.replicate 17 0 ++ [0x01, 0xE0]
  negotiated_length := rfl
  first := 22
  second := 27
  ioError := "timed out"

/-- The reply to a read of a word; `first` bytes have come when the first read gives
up, `second` when the second does. -/
def wordReply (hi lo : UInt8) (first second : ℕ) : Answer where
  reply := [0x03, 0x00, 0x00, 27, 0x02, 0xF0, 0x80] ++ List.replicate 14 0 ++ [0xFF, 0x04, 0x00, 16, hi, lo]
  framed := by simp [telegramLength, makeU16]
  first := first
  second := second
  ioError := "timed out"

/-- The blocks 1 and 2. -/
def listReply : Answer where
  reply := [0x03, 0x00, 0x00, 41, 0x02, 0xF0, 0x80] ++ List.replicate 22 0 ++
    [0xFF, 0x09, 0x00, 0x08, 0x00, 0x01, 0x00, 0x00, 0x00, 0x02, 0x00, 0x00]
  framed := by simp [telegramLength, makeU16]
  first := 41
  second := 34
  ioError := "timed out"

/-- The information of a block in the language `lang`. -/
def infoReply (lang : UInt8) (first second : ℕ) : Answer where
  reply := [0x03, 0x00, 0x00, 44, 0x02, 0xF0, 0x80] ++ List.replicate 22 0 ++ [0xFF] ++
    List.replicate 13 0 ++ [lang]
  framed := by simp [telegramLength, makeU16]
  first := first
  second := second
  ioError := "timed out"

/-- A word of the first data block. -/
def wordAt (byte : UInt64) : Sdk.Point :=
  ⟨.obj [("byte", .num (.posInt byte)), ("db", .num (.posInt 1)), ("type", .str "word")], .null⟩

/-- A request for two words of one PLC. -/
def twoWords (op : String) : Sdk.ReadRequest where
  v := 1
  op := op
  connectorId := "plc"
  dsType := "s7"
  config := .obj [("host", .str "10.0.0.5")]
  secrets := .null
  selection := .null
  args := .null
  naming := .null
  points := [wordAt 0, wordAt 2]
  target := .null
  writeValue := none
  readback := false

def Served.readings : Served → List Reading
  | .read _ (.ok readings) => readings
  | _ => []

def Served.blocks : Served → List Listed
  | .discover (.ok listed) => listed
  | _ => []

/-- An exchange has read a byte of another reply. -/
def Exchange.Astray (x : Exchange) : Prop := ∃ body ∈ x.response.toOption, ∃ b ∈ body, b.1 ≠ x.id

instance (x : Exchange) : Decidable x.Astray :=
  inferInstanceAs (Decidable (∃ body ∈ x.response.toOption, ∃ b ∈ body, b.1 ≠ x.id))

theorem not_own_of_astray {x : Exchange} (h : x.Astray) : ¬ x.Own := by
  obtain ⟨body, hbody, b, hb, hne⟩ := h
  intro hown
  exact hne (hown body (toOption_eq_some hbody) b hb)

/-- A read whose last point comes late, a discovery, and a read on its session. -/
theorem own_replies_thrice : ∃ t,
    run step start [.read (twoWords "read") handshake [[wordReply 0 5 7 20], [wordReply 0 7 0 0]],
      .discover (twoWords "discover") handshake listReply [infoReply 4 7 37, infoReply 7 7 37],
      .read (twoWords "read") handshake [[wordReply 0 5 7 20], [wordReply 0 7 7 20]]] = some t ∧
      t.served.length = 3 ∧ OwnReplies t := by
  have h : ∃ t ∈ run step start
      [.read (twoWords "read") handshake [[wordReply 0 5 7 20], [wordReply 0 7 0 0]],
        .discover (twoWords "discover") handshake listReply [infoReply 4 7 37, infoReply 7 7 37],
        .read (twoWords "read") handshake [[wordReply 0 5 7 20], [wordReply 0 7 7 20]]],
      t.served.length = 3 := by decide +kernel
  obtain ⟨t, ht, hlen⟩ := h
  exact ⟨t, ht, hlen, own_replies (by decide +kernel) ht⟩

/-- Where the first word comes late, the second is read from the reply to the first;
and where the information of the first block comes late, that of the second is
the first's. -/
theorem reply_of_another : ∃ s t,
    run step start [.read (twoWords "read") handshake [[wordReply 0 5 0 0], [wordReply 0 7 27 20]]] =
      some s ∧ ¬ OwnReplies s ∧
    run step start [.discover (twoWords "discover") handshake listReply
      [infoReply 4 0 0, infoReply 7 44 37]] = some t ∧ ¬ OwnReplies t := by
  have hread : ∃ s ∈ run step start [.read (twoWords "read") handshake
      [[wordReply 0 5 0 0], [wordReply 0 7 27 20]]], ∃ x ∈ s.served, ∃ rd ∈ x.readings,
      rd.sample.quality = 0 ∧ ∃ e ∈ rd.exchanges, e.Astray := by decide +kernel
  have hinfo : ∃ t ∈ run step start [.discover (twoWords "discover") handshake listReply
      [infoReply 4 0 0, infoReply 7 44 37]], ∃ x ∈ t.served, ∃ l ∈ x.blocks,
      l.info.isSome = true ∧ l.exchange.Astray := by decide +kernel
  obtain ⟨s, hs, x, hx, rd, hrd, hgood, e, he, hastray⟩ := hread
  obtain ⟨t, ht, y, hy, l, hl, hsome, hastray'⟩ := hinfo
  refine ⟨s, t, hs, fun h => ?_, ht, fun h => ?_⟩
  · have hown := h x hx
    cases x with
    | read req r =>
      cases r with
      | error _ => cases hrd
      | ok readings => exact not_own_of_astray hastray (((hown readings rfl).2 rd hrd hgood).own e he).1
    | discover r => cases hrd
  · have hown := h y hy
    cases y with
    | read req r => cases hl
    | discover r =>
      cases r with
      | error _ => cases hl
      | ok listed =>
        obtain ⟨info, hinfo⟩ := Option.isSome_iff_exists.mp hsome
        exact not_own_of_astray hastray' (hown listed rfl l hl info hinfo).own.1

end S7
end LymonAgent
