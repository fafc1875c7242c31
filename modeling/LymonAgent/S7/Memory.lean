/-
# The memory of the CPU

Writing with the client of `crates/plugin-s7/src/s7/client.rs`, and a CPU at the
other end of the session that serves its memory: it takes each telegram apart by the
layout the client gives it, does what it says, and replies in time with a telegram
of the layout the client reads. The CPU is not code of the repository. What it puts
in the bytes the client does not look at is open.

A memory is read and written in pieces or as a whole (`Memory.bytes_add`,
`Memory.write_append`), and what the CPU makes of the client's telegrams are these
operations (`serve_readBytes`, `serve_writeBytes` and the two for bits).

Key definitions: `Memory`, `writeArea`, `writeBit`, `serve`, `Replies`, `ServedBy`.
Key theorems: `Memory.bytes_of_write`, `Memory.bit_of_writeBit`, `transact_whole`.
-/
import LymonAgent.S7.Payload

namespace LymonAgent
namespace S7

/-! ### Memory -/

/-- The bytes of each block of each area; `none` for a block the CPU does not have. -/
abbrev Memory : Type := UInt8 → UInt16 → Option (List UInt8)

namespace Memory

variable (m : Memory) (area : UInt8) (db : UInt16)

/-- `n` bytes from the byte `first` on. -/
def bytes (first n : ℕ) : Except S7Error (List UInt8) :=
  if n = 0 then .ok []
  else
    match m area db with
    | none => .error .s7NotFound
    | some block =>
      if first + n ≤ block.length then .ok ((block.drop first).take n) else .error .s7InvalidAddress

/-- Another block in the place of one. -/
def put (block : List UInt8) : Memory := fun area' db' =>
  if area' = area ∧ db' = db then some block else m area' db'

/-- The memory with `data` from the byte `first` on. -/
def write (first : ℕ) (data : List UInt8) : Except S7Error Memory :=
  if data = [] then .ok m
  else
    match m area db with
    | none => .error .s7NotFound
    | some block =>
      if first + data.length ≤ block.length then .ok (m.put area db (copyAt block first data))
      else .error .s7InvalidAddress

/-- The bit with the number `a`, counted from the lowest of the first byte. -/
def bit (a : ℕ) : Except S7Error Bool :=
  (m.bytes area db (a / 8) 1).map fun bs => (bs.getD 0 0).toNat.testBit (a % 8)

end Memory

/-- A byte with one bit as given. -/
def withBit (b : UInt8) (i : ℕ) (v : Bool) : UInt8 :=
  .ofNat (if v then b.toNat ||| 2 ^ i else b.toNat &&& (255 - 2 ^ i))

/-- The memory with a bit as given. -/
def Memory.writeBit (m : Memory) (area : UInt8) (db : UInt16) (a : ℕ) (v : Bool) : Except S7Error Memory :=
  (m.bytes area db (a / 8) 1).bind fun bs => m.write area db (a / 8) [withBit (bs.getD 0 0) (a % 8) v]

/-! ### Writing an area -/

/-- The reply to a write is long enough for its header and fits the buffer. -/
def writeAdmits (size : ℕ) : Bool := 15 ≤ size && size ≤ 480

/-- A write request for `chunk`. -/
def writeTelegram (area : UInt8) (db : UInt16) (wordlen : UInt8) (start : UInt32) (chunk : List UInt8) :
    List UInt8 :=
  let count : UInt16 := .ofNat chunk.length
  let total : UInt16 := .ofNat (35 + chunk.length)
  let payload : UInt16 := .ofNat (chunk.length + 4)
  let bits : UInt16 := if wordlen = 0x01 then 1 else .ofNat (chunk.length * 8)
  let transport : UInt8 := if wordlen = 0x01 then 0x03 else 0x04
  let address := if wordlen = 0x01 then start else start <<< 3
  [0x03, 0x00, hiPart total, loPart total, 0x02, 0xf0, 0x80, 0x32, 0x01, 0x00, 0x00, 0x05, 0x00, 0x00, 0x0e,
    hiPart payload, loPart payload, 0x05, 0x01, 0x12, 0x0a, 0x10, wordlen, hiPart count, loPart count,
    hiPart db, loPart db, area, (address >>> 16).toUInt8, (address >>> 8).toUInt8, address.toUInt8, 0x00,
    transport, hiPart bits, loPart bits] ++ chunk

/-- The return code of a reply to a write. -/
def writeResult (body : List UInt8) : Except S7Error Unit :=
  let code := body.getD 14 0
  if code = 0xFF then .ok ()
  else if code = 0x0A then .error .s7NotFound
  else if code = 0x05 then .error .s7InvalidAddress
  else .error .s7Unspecified

/-- The loop of `write_area`, one answer for each chunk. -/
def writeChunks (area : UInt8) (db : UInt16) (wordlen : UInt8) (datasize : ℕ) (buffer : List UInt8) :
    List Answer → Session → ℕ → UInt32 → Option (Session × List Exchange × Except S7Error Unit)
  | answers, s, offset, longStart =>
    if datasize ≤ offset then some (s, [], .ok ())
    else
      match answers with
      | [] => none
      | a :: answers =>
        let count := min (datasize - offset) (s.pduLength - 28).toNat
        let chunk := (buffer.drop offset).take count
        let (s, x) := transact writeAdmits s (writeTelegram area db wordlen longStart chunk) a
        match x.response with
        | .error e => some (s, [x], .error e)
        | .ok body =>
          match writeResult (body.map Prod.snd) with
          | .error e => some (s, [x], .error e)
          | .ok _ =>
            (writeChunks area db wordlen datasize buffer answers s (offset + count)
              (longStart + .ofNat count)).map fun (s, xs, r) => (s, x :: xs, r)

/-- `S7Client::write_area`. A bit is the first byte of the buffer: there is no result
if it has none (the slice panics). -/
def writeArea (s : Session) (area : UInt8) (db start : UInt16) (wordlen : UInt8) (buffer : List UInt8)
    (answers : List Answer) : Option (Session × List Exchange × Except S7Error Unit) :=
  if area ∉ [0x81, 0x82, 0x83, 0x84] ∨ (wordlen ≠ 0x01 ∧ wordlen ≠ 0x02) then
    some (s, [], .error .invalidFunParameter)
  else if wordlen = 0x01 ∧ buffer = [] then none
  else
    writeChunks area db wordlen (if wordlen = 0x02 then min buffer.length 65535 else 1) buffer answers s 0
      start.toUInt32

def writeBit (s : Session) (area : UInt8) (db byteNum : UInt16) (bitIdx : UInt8) (value : Bool)
    (answers : List Answer) : Option (Session × List Exchange × Except S7Error Unit) :=
  if bitIdx > 7 then some (s, [], .error .invalidFunParameter)
  else
    writeArea s area db (byteNum * 8 + bitIdx.toUInt16) 0x01 [if value then 1 else 0] answers

/-! ### The CPU -/

/-- What a telegram says. `whole` is that its length is the one in its header. -/
structure Request where
  whole : Bool
  function : UInt8
  wordlen : UInt8
  count : ℕ
  db : UInt16
  area : UInt8
  address : ℕ
  transport : UInt8
  bits : ℕ
  data : List UInt8

def Request.ofTelegram (t : List UInt8) : Request where
  whole := telegramLength t = t.length
  function := t.getD 17 0
  wordlen := t.getD 22 0
  count := askedOf t
  db := .ofNat (blockOf t)
  area := t.getD 27 0
  address := addressOf t
  transport := t.getD 32 0
  bits := makeU16 (t.getD 33 0) (t.getD 34 0)
  data := t.drop 35

/-- The memory after a write, if there is one. -/
def wrote (m : Memory) : Except S7Error Memory → Memory × Except S7Error (List UInt8)
  | .ok m => (m, .ok [])
  | .error e => (m, .error e)

/-- What the CPU does: function 4 is a read, 5 a write, of a bit or of bytes. A
request that contradicts itself is refused. -/
def Request.serve (m : Memory) (q : Request) : Memory × Except S7Error (List UInt8) :=
  if !q.whole then (m, .error .s7Unspecified)
  else if q.function = 0x04 then
    if q.wordlen = 0x02 then (m, m.bytes q.area q.db (q.address / 8) q.count)
    else if q.wordlen = 0x01 ∧ q.count = 1 then
      (m, (m.bit q.area q.db q.address).map fun b => [if b then 1 else 0])
    else (m, .error .s7Unspecified)
  else if q.function = 0x05 ∧ q.data.length = q.count then
    if q.wordlen = 0x02 ∧ q.transport = 0x04 ∧ q.bits = 8 * q.count then
      wrote m (m.write q.area q.db (q.address / 8) q.data)
    else if q.wordlen = 0x01 ∧ q.transport = 0x03 ∧ q.bits = 1 then
      wrote m (m.writeBit q.area q.db q.address (q.data.getD 0 0 != 0))
    else (m, .error .s7Unspecified)
  else (m, .error .s7Unspecified)

def serve (m : Memory) (t : List UInt8) : Memory × Except S7Error (List UInt8) :=
  (Request.ofTelegram t).serve m

/-- The length of the reply to a telegram before its data. -/
def headOf (t : List UInt8) : ℕ := if t.getD 17 0 = 0x04 then 18 else 15

def returnCode : Except S7Error (List UInt8) → UInt8
  | .ok _ => 0xFF
  | .error .s7NotFound => 0x0A
  | .error .s7InvalidAddress => 0x05
  | .error _ => 0x03

def resultData : Except S7Error (List UInt8) → List UInt8
  | .ok data => data
  | .error _ => []

/-- A telegram with `body`. -/
def telegramOf (body : List UInt8) : List UInt8 :=
  let n : UInt16 := .ofNat (7 + body.length)
  [0x03, 0x00, hiPart n, loPart n, 0x02, 0xF0, 0x80] ++ body

/-- The answer to a telegram carries a result, and comes in time. -/
structure Replies (t : List UInt8) (r : Except S7Error (List UInt8)) (a : Answer) : Prop where
  inTime : 7 ≤ a.first ∧ a.reply.length ≤ 7 + a.second
  carries : ∃ front back, front.length = 14 ∧ 15 + back.length = headOf t ∧
    a.reply = telegramOf (front ++ returnCode r :: back ++ resultData r)

/-- The CPU answers the telegrams one after another, and its memory goes from `m` to
`m'`. -/
def ServedBy : Memory → List Exchange → List Answer → Memory → Prop
  | m, [], _, m' => m' = m
  | _, _ :: _, [], _ => False
  | m, x :: xs, a :: answers, m' =>
    Replies x.telegram (serve m x.telegram).2 a ∧ ServedBy (serve m x.telegram).1 xs answers m'

/-! ### Replacing a part of a block -/

section

variable {block p q : List UInt8} {first : ℕ}

/-- A part is replaced as a whole or in two pieces. -/
theorem copyAt_append (h : first + p.length ≤ block.length) :
    copyAt (copyAt block first p) (first + p.length) q = copyAt block first (p ++ q) := by
  have htake : (copyAt block first p).take (first + p.length) = block.take first ++ p :=
    take_copyAt (by omega)
  have hdrop : (copyAt block first p).drop (first + p.length + q.length) =
      block.drop (first + p.length + q.length) := drop_copyAt (by omega) _
  rw [copyAt, htake, hdrop, copyAt, List.length_append, Nat.add_assoc, List.append_assoc (block.take first)]

theorem copyAt_nil : copyAt block first [] = block := by
  simp [copyAt]

/-- What is read where a part was replaced. -/
theorem drop_copyAt_self (h : first ≤ block.length) :
    ((copyAt block first p).drop first).take p.length = p := by
  rw [List.take_drop, take_copyAt h]
  refine List.drop_left' ?_
  rw [List.length_take, Nat.min_eq_left h]

end

namespace Memory

section

variable {m m' : Memory} {area : UInt8} {db : UInt16} {first a b n : ℕ} {p q : List UInt8}

/-- Bytes are read as a whole or in two pieces. -/
theorem bytes_add : m.bytes area db first (a + b) =
    (m.bytes area db first a).bind fun p => (m.bytes area db (first + a) b).map (p ++ ·) := by
  unfold bytes
  by_cases ha : a = 0
  · subst ha
    simp only [Nat.zero_add, Nat.add_zero, if_true, Except.bind, List.nil_append]
    split <;> [rfl; split <;> [rfl; split <;> rfl]]
  · rw [if_neg (by omega), if_neg ha]
    cases m area db with
    | none => rfl
    | some block =>
      dsimp only
      by_cases hfirst : first + a ≤ block.length
      · rw [if_pos hfirst]
        dsimp only [Except.bind]
        by_cases hb : b = 0
        · simp [hb, hfirst, Except.map]
        · rw [if_neg hb, Nat.add_assoc]
          split
          · rw [Except.map, List.take_add, List.drop_drop]
          · rfl
      · rw [if_neg hfirst, if_neg (by omega)]
        rfl

/-- Data is written as a whole or in two pieces. -/
theorem write_append : m.write area db first (p ++ q) =
    (m.write area db first p).bind fun m => m.write area db (first + p.length) q := by
  unfold write
  by_cases hp : p = []
  · subst hp
    simp [Except.bind]
  · rw [if_neg (by simp [hp]), if_neg hp]
    cases hm : m area db with
    | none => rfl
    | some block =>
      dsimp only
      rw [List.length_append]
      by_cases hfirst : first + p.length ≤ block.length
      · rw [if_pos hfirst]
        dsimp only [Except.bind]
        by_cases hq : q = []
        · simp [hq, hfirst]
        · rw [if_neg hq]
          have hput : m.put area db (copyAt block first p) area db = some (copyAt block first p) := by
            simp [put]
          rw [hput]
          dsimp only
          rw [length_copyAt hfirst, copyAt_append hfirst, Nat.add_assoc]
          have hagain : (m.put area db (copyAt block first p)).put area db (copyAt block first (p ++ q)) =
              m.put area db (copyAt block first (p ++ q)) := by
            funext area' db'
            unfold put
            split <;> rfl
          rw [hagain]
      · rw [if_neg hfirst, if_neg (by omega)]
        rfl

theorem write_ok (h : m.write area db first p = .ok m') (hp : p ≠ []) :
    ∃ block, m area db = some block ∧ first + p.length ≤ block.length ∧
      m' = m.put area db (copyAt block first p) := by
  unfold write at h
  rw [if_neg hp] at h
  cases hm : m area db with
  | none => simp [hm] at h
  | some block =>
    simp only [hm] at h
    by_cases hfirst : first + p.length ≤ block.length
    · rw [if_pos hfirst] at h
      exact ⟨block, rfl, hfirst, (Except.ok.inj h).symm⟩
    · rw [if_neg hfirst] at h
      cases h

/-- What was written is read. -/
theorem bytes_of_write (h : m.write area db first p = .ok m') : m'.bytes area db first p.length = .ok p := by
  by_cases hp : p = []
  · simp [hp, bytes]
  · obtain ⟨block, -, hfirst, rfl⟩ := write_ok h hp
    have hput : m.put area db (copyAt block first p) area db = some (copyAt block first p) := by
      simp [put]
    have hlen : p.length ≠ 0 := fun h0 => hp (List.length_eq_zero_iff.mp h0)
    unfold bytes
    rw [if_neg hlen, hput]
    dsimp only
    rw [length_copyAt hfirst, if_pos hfirst, drop_copyAt_self (by omega)]

/-- A write changes no byte outside its own. -/
theorem bytes_of_write_apart {area' : UInt8} {db' : UInt16} {first' : ℕ}
    (h : m.write area db first p = .ok m')
    (hap : (area', db') ≠ (area, db) ∨ first' + n ≤ first ∨ first + p.length ≤ first') :
    m'.bytes area' db' first' n = m.bytes area' db' first' n := by
  by_cases hp : p = []
  · unfold write at h
    rw [if_pos hp] at h
    rw [Except.ok.inj h]
  · obtain ⟨block, hm, hfirst, rfl⟩ := write_ok h hp
    unfold bytes
    by_cases hsame : area' = area ∧ db' = db
    · obtain ⟨rfl, rfl⟩ := hsame
      have hout : first' + n ≤ first ∨ first + p.length ≤ first' := hap.resolve_left fun hne => hne rfl
      have hput : m.put area' db' (copyAt block first p) area' db' = some (copyAt block first p) := by
        simp [put]
      rw [hput, hm]
      dsimp only
      rw [length_copyAt hfirst]
      by_cases hn : first' + n ≤ block.length
      · rw [if_pos hn, if_pos hn]
        rcases hout with hbefore | hafter
        · -- both parts come before what was replaced
          rw [List.take_drop, List.take_drop, copyAt, List.append_assoc,
            List.take_append_of_le_length (by rw [List.length_take]; omega), List.take_take,
            Nat.min_eq_left hbefore]
        · obtain ⟨k, rfl⟩ := Nat.le.dest hafter
          rw [drop_copyAt (by omega)]
      · rw [if_neg hn, if_neg hn]
    · have hput : m.put area db (copyAt block first p) area' db' = m area' db' := if_neg hsame
      rw [hput]

end

end Memory

/-- Writing a bit leaves it as given, and the others of its byte as they were. -/
theorem testBit_withBit (b : UInt8) (v : Bool) {i j : ℕ} (hi : i < 8) (hj : j < 8) :
    (withBit b i v).toNat.testBit j = if j = i then v else b.toNat.testBit j := by
  have hpow : 2 ^ i < 2 ^ 8 := Nat.pow_lt_pow_right (by decide) hi
  have hmod : (withBit b i v).toNat =
      (if v then b.toNat ||| 2 ^ i else b.toNat &&& (2 ^ 8 - (2 ^ i + 1))) % 2 ^ 8 := by
    have h255 : 255 - 2 ^ i = 2 ^ 8 - (2 ^ i + 1) := by omega
    rw [withBit, UInt8.toNat_ofNat', h255]
  rw [hmod, Nat.testBit_mod_two_pow]
  cases v with
  | true =>
    simp only [if_true, hj, decide_true, Bool.true_and, Nat.testBit_or, Nat.testBit_two_pow]
    by_cases hij : j = i
    · simp [hij]
    · simp [hij, Ne.symm hij]
  | false =>
    simp only [Bool.false_eq_true, if_false, hj, decide_true, Bool.true_and, Nat.testBit_and,
      Nat.testBit_two_pow_sub_succ hpow, Nat.testBit_two_pow]
    by_cases hij : j = i
    · simp [hij]
    · simp [hij, Ne.symm hij]

/-- A bit that was written is read as it was given, and every other bit as before. -/
theorem Memory.bit_of_writeBit {m m' : Memory} {area area' : UInt8} {db db' : UInt16} {a a' : ℕ} {v : Bool}
    (h : m.writeBit area db a v = .ok m') :
    m'.bit area' db' a' = if (area', db', a') = (area, db, a) then .ok v else m.bit area' db' a' := by
  obtain ⟨bs, hbs, hwrite⟩ := bind_eq_ok h
  unfold Memory.bit
  by_cases hbyte : (area', db') = (area, db) ∧ a' / 8 = a / 8
  · obtain ⟨hblock, hdiv⟩ := hbyte
    obtain ⟨rfl, rfl⟩ := Prod.mk.inj hblock
    have hread : m'.bytes area' db' (a' / 8) 1 = .ok [withBit (bs.getD 0 0) (a % 8) v] := by
      rw [hdiv]
      exact Memory.bytes_of_write hwrite
    rw [hread, hdiv, hbs]
    simp only [Except.map, List.getD_cons_zero]
    rw [testBit_withBit _ v (Nat.mod_lt _ (by decide)) (Nat.mod_lt _ (by decide))]
    by_cases hbit : a' % 8 = a % 8
    · have ha : a' = a := by omega
      simp [ha]
    · have ha : a' ≠ a := fun ha => hbit (by rw [ha])
      simp [ha, hbit]
  · have hne : (area', db', a') ≠ (area, db, a) := by
      intro heq
      obtain ⟨rfl, hrest⟩ := Prod.mk.inj heq
      obtain ⟨rfl, rfl⟩ := Prod.mk.inj hrest
      exact hbyte ⟨rfl, rfl⟩
    have hap : (area', db') ≠ (area, db) ∨ a' / 8 + 1 ≤ a / 8 ∨ a / 8 + 1 ≤ a' / 8 := by
      by_cases hblock : (area', db') = (area, db)
      · have hdiv : a' / 8 ≠ a / 8 := fun hdiv => hbyte ⟨hblock, hdiv⟩
        exact Or.inr (by omega)
      · exact Or.inl hblock
    rw [if_neg hne, Memory.bytes_of_write_apart hwrite hap]

/-! ### What the CPU makes of the client's telegrams -/

section

variable (m : Memory) (area : UInt8) (db : UInt16) (start : UInt32)

theorem ofTelegram_read (wordlen : UInt8) (count : UInt16) :
    Request.ofTelegram (readTelegram area db wordlen start count) =
      { whole := true, function := 0x04, wordlen, count := count.toNat, db, area
        address := addressOf (readTelegram area db wordlen start count)
        transport := 0, bits := 0, data := [] } := by
  have hwhole : telegramLength (readTelegram area db wordlen start count) =
      (readTelegram area db wordlen start count).length := by
    simp [telegramLength, makeU16, readTelegram]
  unfold Request.ofTelegram
  rw [askedOf_readTelegram, blockOf_readTelegram, UInt16.ofNat_toNat, hwhole, decide_eq_true rfl]
  simp [readTelegram, makeU16]

theorem serve_readBytes (count : UInt16) (hs : 8 * start.toNat < 2 ^ 24) :
    serve m (readTelegram area db 0x02 start count) = (m, m.bytes area db start.toNat count.toNat) := by
  have haddress : 8 * start.toNat / 8 = start.toNat := by omega
  rw [serve, ofTelegram_read, addressOf_bytes, Nat.mod_eq_of_lt hs]
  simp [Request.serve, haddress]

theorem serve_readBit (hs : start.toNat < 2 ^ 24) :
    serve m (readTelegram area db 0x01 start 1) =
      (m, (m.bit area db start.toNat).map fun b => [if b then 1 else 0]) := by
  rw [serve, ofTelegram_read, addressOf_bits, Nat.mod_eq_of_lt hs]
  simp [Request.serve]

/-- The address of a telegram that writes. -/
theorem addressOf_write (wordlen : UInt8) (chunk : List UInt8) :
    addressOf (writeTelegram area db wordlen start chunk) =
      if wordlen = 0x01 then start.toNat % 2 ^ 24 else 8 * start.toNat % 2 ^ 24 := by
  have hfields : addressOf (writeTelegram area db wordlen start chunk) =
      addressOf (readTelegram area db wordlen start 0) := rfl
  rw [hfields]
  by_cases hbit : wordlen = 0x01
  · rw [if_pos hbit, hbit, addressOf_bits]
  · rw [if_neg hbit]
    have hshift : addressOf (readTelegram area db wordlen start 0) =
        addressOf (readTelegram area db 0x02 start 0) := by
      simp [addressOf, readTelegram, hbit]
    rw [hshift, addressOf_bytes]

theorem ofTelegram_write (wordlen : UInt8) {chunk : List UInt8} (hc : 8 * chunk.length < 65536) :
    Request.ofTelegram (writeTelegram area db wordlen start chunk) =
      { whole := true, function := 0x05, wordlen, count := chunk.length, db, area
        address := if wordlen = 0x01 then start.toNat % 2 ^ 24 else 8 * start.toNat % 2 ^ 24
        transport := if wordlen = 0x01 then 0x03 else 0x04
        bits := if wordlen = 0x01 then 1 else 8 * chunk.length
        data := chunk } := by
  have hlength : (writeTelegram area db wordlen start chunk).length = 35 + chunk.length := by
    unfold writeTelegram
    exact List.length_append
  have htotal : telegramLength (writeTelegram area db wordlen start chunk) = 35 + chunk.length := by
    have h : telegramLength (writeTelegram area db wordlen start chunk) =
        makeU16 (hiPart (.ofNat (35 + chunk.length))) (loPart (.ofNat (35 + chunk.length))) := rfl
    rw [h, makeU16_parts, UInt16.toNat_ofNat', Nat.mod_eq_of_lt (by omega)]
  have hcount : askedOf (writeTelegram area db wordlen start chunk) = chunk.length := by
    have h : askedOf (writeTelegram area db wordlen start chunk) =
        makeU16 (hiPart (.ofNat chunk.length)) (loPart (.ofNat chunk.length)) := rfl
    rw [h, makeU16_parts, UInt16.toNat_ofNat', Nat.mod_eq_of_lt (by omega)]
  have hdb : blockOf (writeTelegram area db wordlen start chunk) = db.toNat := makeU16_parts db
  have hbits : makeU16 ((writeTelegram area db wordlen start chunk).getD 33 0)
      ((writeTelegram area db wordlen start chunk).getD 34 0) =
        if wordlen = 0x01 then 1 else 8 * chunk.length := by
    have h : makeU16 ((writeTelegram area db wordlen start chunk).getD 33 0)
        ((writeTelegram area db wordlen start chunk).getD 34 0) =
          (if wordlen = 0x01 then (1 : UInt16) else .ofNat (chunk.length * 8)).toNat := makeU16_parts _
    rw [h]
    by_cases hbit : wordlen = 0x01
    · rw [if_pos hbit, if_pos hbit]
      rfl
    · rw [if_neg hbit, if_neg hbit, UInt16.toNat_ofNat', Nat.mod_eq_of_lt (by omega), Nat.mul_comm]
  have hwhole : decide (telegramLength (writeTelegram area db wordlen start chunk) =
      (writeTelegram area db wordlen start chunk).length) = true := by
    rw [htotal, hlength, decide_eq_true rfl]
  have hdata : (writeTelegram area db wordlen start chunk).drop 35 = chunk := rfl
  unfold Request.ofTelegram
  rw [hwhole, hcount, hdb, hbits, hdata, addressOf_write, UInt16.ofNat_toNat]
  rfl

theorem serve_writeBytes {chunk : List UInt8} (hc : 8 * chunk.length < 65536)
    (hs : 8 * start.toNat < 2 ^ 24) :
    serve m (writeTelegram area db 0x02 start chunk) = wrote m (m.write area db start.toNat chunk) := by
  have haddress : 8 * start.toNat / 8 = start.toNat := by omega
  rw [serve, ofTelegram_write _ _ _ _ hc, Nat.mod_eq_of_lt hs]
  simp [Request.serve, haddress]

theorem serve_writeBit (v : Bool) (hs : start.toNat < 2 ^ 24) :
    serve m (writeTelegram area db 0x01 start [if v then 1 else 0]) =
      wrote m (m.writeBit area db start.toNat v) := by
  have hv : ((if v then (1 : UInt8) else 0) != 0) = v := by
    cases v <;> rfl
  rw [serve, ofTelegram_write _ _ _ _ (by rw [List.length_singleton]; decide), Nat.mod_eq_of_lt hs]
  simp [Request.serve, hv]

end

/-! ### One telegram and its reply -/

/-- The errors of the memory: those the return codes of the client tell apart. -/
def Told {α : Type} (r : Except S7Error α) : Prop :=
  ∀ e, r = .error e → e = .s7NotFound ∨ e = .s7InvalidAddress

section

variable {m : Memory} {area : UInt8} {db : UInt16} {first n : ℕ} {p : List UInt8}

theorem told_bytes : Told (m.bytes area db first n) := by
  intro e h
  unfold Memory.bytes at h
  split at h
  · cases h
  · split at h
    · exact Or.inl (Except.error.inj h).symm
    · split at h
      · cases h
      · exact Or.inr (Except.error.inj h).symm

theorem told_write : Told (m.write area db first p) := by
  intro e h
  unfold Memory.write at h
  split at h
  · cases h
  · split at h
    · exact Or.inl (Except.error.inj h).symm
    · split at h
      · cases h
      · exact Or.inr (Except.error.inj h).symm

theorem Told.map {α β : Type} {x : Except S7Error α} (f : α → β) (h : Told x) : Told (x.map f) := by
  intro e he
  cases x with
  | error e' => exact h e (congrArg Except.error (Except.error.inj he))
  | ok v => cases he

theorem Told.bind {α β : Type} {x : Except S7Error α} {f : α → Except S7Error β} (h : Told x)
    (hf : ∀ a, Told (f a)) : Told (x.bind f) := by
  intro e he
  cases x with
  | error e' => exact h e (congrArg Except.error (Except.error.inj he))
  | ok v => exact hf v e he

theorem length_bytes {bs : List UInt8} (h : m.bytes area db first n = .ok bs) : bs.length = n := by
  unfold Memory.bytes at h
  by_cases hn : n = 0
  · rw [if_pos hn] at h
    rw [← Except.ok.inj h, hn]
    rfl
  · rw [if_neg hn] at h
    split at h
    · cases h
    · split at h
      · rw [← Except.ok.inj h, List.length_take, List.length_drop]
        omega
      · cases h

end

section

variable {admits : ℕ → Bool} {s : Session} {t : List UInt8} {a : Answer} {r : Except S7Error (List UInt8)}

/-- A telegram that comes in time and fits is read whole, on an empty stream. -/
theorem transact_whole {body : List UInt8} (hs : s.stream = []) (hreply : a.reply = telegramOf body)
    (hfirst : 7 ≤ a.first) (hsecond : a.reply.length ≤ 7 + a.second) (hpos : 0 < body.length)
    (hadm : admits body.length = true) (hfit : body.length ≤ s.pduLength.toNat) :
    transact admits s t a = ({ s with sent := s.sent ++ [t] },
      ⟨s.sent.length, t, .ok (body.map (s.sent.length, ·))⟩) := by
  have hreplyLength : a.reply.length = 7 + body.length := by
    rw [hreply, telegramOf, List.length_append]
    rfl
  have hcheck : checkIsoPacket s.pduLength (a.reply.take 7) = .ok body.length := by
    have hframed : telegramLength (a.reply.take 7) = 7 + body.length := by
      rw [telegramLength_take, a.framed, hreplyLength]
    unfold checkIsoPacket
    rw [hframed, if_neg (by rw [hreply]; simp [telegramOf]), if_neg (by rw [hreply]; simp [telegramOf]),
      if_neg (by omega)]
    exact congrArg Except.ok (by omega)
  have hu : a.Usable admits s.pduLength := by
    refine ⟨hfirst, body.length, ?_, hadm, by omega⟩
    rw [hcheck]
    rfl
  rw [transact_usable hs hu, hreply]
  rfl

/-- What is read of the CPU's reply has its return code and its data. -/
theorem transact_replies (hs : s.stream = []) (h : Replies t r a)
    (hadm : admits (headOf t + (resultData r).length) = true)
    (hfit : headOf t + (resultData r).length ≤ s.pduLength.toNat) :
    ∃ body : List UInt8, transact admits s t a = ({ s with sent := s.sent ++ [t] },
        ⟨s.sent.length, t, .ok (body.map (s.sent.length, ·))⟩) ∧
      body.getD 14 0 = returnCode r ∧ body.drop (headOf t) = resultData r := by
  obtain ⟨⟨hfirst, hsecond⟩, front, back, hfront, hback, hreply⟩ := h
  obtain ⟨body, hbody⟩ : ∃ body, body = front ++ returnCode r :: back ++ resultData r := ⟨_, rfl⟩
  have hlen : body.length = headOf t + (resultData r).length := by
    rw [hbody, List.length_append, List.length_append, List.length_cons]
    omega
  rw [← hbody] at hreply
  rw [← hlen] at hadm hfit
  refine ⟨body, transact_whole hs hreply hfirst hsecond (by omega) hadm hfit, ?_, ?_⟩
  · rw [hbody, List.append_assoc, ← hfront]
    simp
  · have hhead : (front ++ returnCode r :: back).length = headOf t := by
      rw [List.length_append, List.length_cons]
      omega
    rw [hbody]
    exact List.drop_left' hhead

end

section

variable {body : List UInt8} {r : Except S7Error (List UInt8)}

/-- The data of a reply is the result it carries. -/
theorem readPayload_eq {count : UInt16} (hcode : body.getD 14 0 = returnCode r)
    (hdata : body.drop 18 = resultData r) (ht : Told r) (hc : (resultData r).length ≤ count.toNat) :
    readPayload body count = r := by
  unfold readPayload
  rw [hcode, hdata]
  cases r with
  | ok data =>
    exact congrArg Except.ok (List.take_of_length_le hc)
  | error e =>
    rcases ht e rfl with rfl | rfl
    · rfl
    · rfl

theorem writeResult_eq (hcode : body.getD 14 0 = returnCode r) (ht : Told r) :
    writeResult body = r.map fun _ => () := by
  unfold writeResult
  rw [hcode]
  cases r with
  | ok data => rfl
  | error e =>
    rcases ht e rfl with rfl | rfl
    · rfl
    · rfl

end

end S7
end LymonAgent
