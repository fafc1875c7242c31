/-
# The S7 client

The vendored client of `crates/plugin-s7/src/s7/client.rs`, as far as the plugin
uses it: the handshake, reading an area in chunks, and one request and its reply.
The PLC answers every telegram in order on the one TCP stream. A read waits for
its bytes until it times out, and loses those that came too late to be all of
them; what comes later stays in the stream.

Each byte of the stream is tagged with the telegram it answers, which the source
does not do: an exchange is given its own reply if its bytes have its tag
(`Exchange.Own`). On an empty stream it always is (`own_transact`), and it leaves
an empty stream when it succeeds (`session_of_ok`); after a reply that was late or
could not be used the rest of that reply is still to come.

What the PLC replies and how many of the bytes come in time are parameters
(`Answer`, `Handshake`). Integer arithmetic wraps, as in a release build.

Key definitions: `Session`, `Session.readExact`, `checkIsoPacket`, `transact`,
`readArea`, `connectTsap`.
Key theorems: `transact_usable`, `usable_of_ok`, `own_transact`, `readChunks_eq`.
-/
import Mathlib.Data.List.Basic

namespace LymonAgent
namespace S7

inductive S7Error where
  | io (e : String)
  | isoConnectionFailed
  | isoFragmentedPacket
  | isoInvalidHeader
  | isoInvalidTelegram
  | pduNegotiationFailed
  | invalidFunParameter
  | s7NotFound
  | s7InvalidAddress
  | s7Unspecified
  | other (msg : String)

def S7Error.text : S7Error → String
  | .io e => "IO error: " ++ e
  | .isoConnectionFailed => "ISO-on-TCP connection failed"
  | .isoFragmentedPacket => "Fragmented ISO Packet"
  | .isoInvalidHeader => "Invalid ISO Header"
  | .isoInvalidTelegram => "Invalid ISO Telegram"
  | .pduNegotiationFailed => "S7 PDU negotiation failed"
  | .invalidFunParameter => "Invalid parameter supplied to the function"
  | .s7NotFound => "S7 Resource not found in the CPU"
  | .s7InvalidAddress => "S7 Invalid address"
  | .s7Unspecified => "S7 unspecified error"
  | .other msg => msg

/-! ### Results that are ok -/

section

variable {ε ε' α β : Type} {x : Except ε α} {a : α} {b : β}

theorem toOption_eq_some (h : x.toOption = some a) : x = .ok a := by
  cases x with
  | error e => cases h
  | ok v => exact congrArg Except.ok (Option.some.inj h)

theorem bind_eq_ok {f : α → Except ε β} (h : x.bind f = .ok b) : ∃ v, x = .ok v ∧ f v = .ok b := by
  cases x with
  | error e => cases h
  | ok v => exact ⟨v, rfl, h⟩

theorem map_eq_ok {f : α → β} (h : x.map f = .ok b) : ∃ v, x = .ok v ∧ f v = b := by
  cases x with
  | error e => cases h
  | ok v => exact ⟨v, rfl, Except.ok.inj h⟩

theorem mapError_eq_ok {f : ε → ε'} (h : x.mapError f = .ok a) : x = .ok a := by
  cases x with
  | error e => cases h
  | ok v => exact congrArg Except.ok (Except.ok.inj h)

end

/-! ### Bytes -/

/-- `make_u16!`. -/
def makeU16 (hi lo : UInt8) : ℕ := hi.toNat * 256 + lo.toNat

/-- `hi_part!`. -/
def hiPart (x : UInt16) : UInt8 := (x >>> 8).toUInt8

/-- `lo_part!`. -/
def loPart (x : UInt16) : UInt8 := x.toUInt8

/-- The length in the header of a telegram. -/
def telegramLength (bytes : List UInt8) : ℕ := makeU16 (bytes.getD 2 0) (bytes.getD 3 0)

/-! ### The stream -/

/-- The PLC's reply to a telegram, a telegram whose header has its length; and how
many bytes have come when the first and when the second read gives up, with the
error it gives up with. -/
structure Answer where
  reply : List UInt8
  framed : telegramLength reply = reply.length
  first : ℕ
  second : ℕ
  ioError : String

/-- A connected client: the telegrams it has sent, and the bytes sent to it that it
has not read, each with the number of the telegram it answers. -/
structure Session where
  pduLength : UInt16
  sent : List (List UInt8)
  stream : List (ℕ × UInt8)

def Session.send (s : Session) (telegram reply : List UInt8) : Session :=
  { s with
    sent := s.sent ++ [telegram]
    stream := s.stream ++ reply.map (s.sent.length, ·) }

/-- `read_exact` where `came` bytes come in time: a read that fails has taken those
that came. -/
def Session.readExact (s : Session) (n came : ℕ) : Session × Option (List (ℕ × UInt8)) :=
  if n ≤ came ∧ n ≤ s.stream.length then
    ({ s with stream := s.stream.drop n }, some (s.stream.take n))
  else ({ s with stream := s.stream.drop (min came n) }, none)

/-- The bytes of the telegram after its header, if the header is in order. -/
def checkIsoPacket (pduLength : UInt16) (iso : List UInt8) : Except S7Error ℕ :=
  if iso.getD 0 0 ≠ 0x03 ∨ iso.getD 4 0 ≠ 0x02 ∨ iso.getD 5 0 ≠ 0xF0 then .error .isoInvalidHeader
  else if iso.getD 6 0 ≠ 0x80 then .error .isoFragmentedPacket
  else if telegramLength iso < 7 ∨ pduLength.toNat < telegramLength iso - 7 ∨
      telegramLength iso - 7 = 0 then .error .isoInvalidTelegram
  else .ok (telegramLength iso - 7)

/-- A telegram that was sent, its number, and what was read as its reply: the bytes
after the header. -/
structure Exchange where
  id : ℕ
  telegram : List UInt8
  response : Except S7Error (List (ℕ × UInt8))

/-- One request and its reply; `admits` are the sizes for which the reply is read
on after its header. -/
def transact (admits : ℕ → Bool) (s : Session) (telegram : List UInt8) (a : Answer) :
    Session × Exchange :=
  let id := s.sent.length
  match (s.send telegram a.reply).readExact 7 a.first with
  | (s, none) => (s, ⟨id, telegram, .error (.io a.ioError)⟩)
  | (s, some iso) =>
    match checkIsoPacket s.pduLength (iso.map Prod.snd) with
    | .error e => (s, ⟨id, telegram, .error e⟩)
    | .ok size =>
      if admits size then
        match s.readExact size a.second with
        | (s, none) => (s, ⟨id, telegram, .error (.io a.ioError)⟩)
        | (s, some body) => (s, ⟨id, telegram, .ok body⟩)
      else (s, ⟨id, telegram, .error .isoInvalidTelegram⟩)

/-- `S7Client::exchange`. -/
def exchange : Session → List UInt8 → Answer → Session × Exchange := transact fun _ => true

/-! ### Reading an area -/

/-- The reply to a read is long enough for its header and fits the buffer. -/
def readAdmits (size : ℕ) : Bool := 18 ≤ size && size ≤ 480

/-- A read request; `wordlen` 1 is for bits, 2 for bytes. -/
def readTelegram (area : UInt8) (db : UInt16) (wordlen : UInt8) (start : UInt32) (count : UInt16) :
    List UInt8 :=
  let address := if wordlen = 0x01 then start else start <<< 3
  [0x03, 0x00, 0x00, 0x1f, 0x02, 0xf0, 0x80, 0x32, 0x01, 0x00, 0x00, 0x05, 0x00, 0x00, 0x0e, 0x00, 0x00,
    0x04, 0x01, 0x12, 0x0a, 0x10, wordlen, hiPart count, loPart count, hiPart db, loPart db, area,
    (address >>> 16).toUInt8, (address >>> 8).toUInt8, address.toUInt8]

/-- The data of a reply to a read of `count` elements, if its return code is good. -/
def readPayload (body : List UInt8) (count : UInt16) : Except S7Error (List UInt8) :=
  let code := body.getD 14 0
  if code = 0xFF then .ok ((body.drop 18).take count.toNat)
  else if code = 0x0A then .error .s7NotFound
  else if code = 0x05 then .error .s7InvalidAddress
  else .error .s7Unspecified

/-- `payload` copied into the buffer. -/
def copyAt (buffer : List UInt8) (offset : ℕ) (payload : List UInt8) : List UInt8 :=
  buffer.take offset ++ payload ++ buffer.drop (offset + payload.length)

/-- The loop of `read_area`, one answer for each chunk: it does not return when
there are no more. -/
def readChunks (area : UInt8) (db : UInt16) (wordlen : UInt8) (datasize : UInt16) :
    List Answer → Session → UInt16 → UInt32 → List UInt8 →
      Option (Session × List Exchange × Except S7Error (List UInt8))
  | answers, s, offset, longStart, buffer =>
    if datasize ≤ offset then some (s, [], .ok buffer)
    else
      match answers with
      | [] => none
      | a :: answers =>
        let count := min (datasize - offset) (s.pduLength - 18)
        let (s, x) := transact readAdmits s (readTelegram area db wordlen longStart count) a
        match x.response with
        | .error e => some (s, [x], .error e)
        | .ok body =>
          match readPayload (body.map Prod.snd) count with
          | .error e => some (s, [x], .error e)
          | .ok payload =>
            (readChunks area db wordlen datasize answers s (offset + count)
              (longStart + count.toUInt32) (copyAt buffer offset.toNat payload)).map
                fun (s, xs, r) => (s, x :: xs, r)

/-- The number of elements to read into a buffer of `len` bytes. -/
def elements (wordlen : UInt8) (len : ℕ) : UInt16 :=
  if wordlen = 0x02 then .ofNat (min len 65535) else 1

/-- `S7Client::read_area` into a buffer of `len` zeros. -/
def readArea (s : Session) (area : UInt8) (db start : UInt16) (wordlen : UInt8) (len : ℕ)
    (answers : List Answer) : Option (Session × List Exchange × Except S7Error (List UInt8)) :=
  if area ∉ [0x81, 0x82, 0x83, 0x84] ∨ (wordlen ≠ 0x01 ∧ wordlen ≠ 0x02) then
    some (s, [], .error .invalidFunParameter)
  else
    readChunks area db wordlen (elements wordlen len) answers s 0 start.toUInt32 (List.replicate len 0)

def readBit (s : Session) (area : UInt8) (db byteNum : UInt16) (bitIdx : UInt8)
    (answers : List Answer) : Option (Session × List Exchange × Except S7Error Bool) :=
  if bitIdx > 7 then some (s, [], .error .invalidFunParameter)
  else
    (readArea s area db (byteNum * 8 + bitIdx.toUInt16) 0x01 1 answers).map fun (s, xs, r) =>
      (s, xs, r.map fun buffer => buffer.getD 0 0 != 0)

/-! ### Connecting -/

/-- What the PLC says to a client that connects: its telegrams have the lengths the
protocol gives them. -/
structure Handshake where
  tcp : Except String Unit
  confirm : List UInt8
  confirm_length : confirm.length = 22
  negotiated : List UInt8
  negotiated_length : negotiated.length = 27
  first : ℕ
  second : ℕ
  ioError : String

def remoteTsap (rack slot : UInt16) : UInt16 := ((0x0001 : UInt16) <<< 8) + rack * 0x20 + slot

def isoCr (localTsap remoteTsap : UInt16) : List UInt8 :=
  [0x03, 0x00, 0x00, 22, 0x11, 0xE0, 0x00, 0x00, 0x00, 0x01, 0x00, 0xC0, 0x01, 0x0A, 0xC1, 0x02,
    hiPart localTsap, loPart localTsap, 0xC2, 0x02, hiPart remoteTsap, loPart remoteTsap]

def s7Pn : List UInt8 :=
  [0x03, 0x00, 0x00, 0x19, 0x02, 0xf0, 0x80, 0x32, 0x01, 0x00, 0x00, 0x04, 0x00, 0x00, 0x08, 0x00, 0x00,
    0xf0, 0x00, 0x00, 0x01, 0x00, 0x01, hiPart 480, loPart 480]

/-- `S7Client::connect_tsap`: each of the two replies is taken by one `read`. -/
def connectTsap (localTsap remoteTsap : UInt16) (h : Handshake) : Except S7Error Session :=
  match h.tcp with
  | .error e => .error (.io e)
  | .ok _ =>
    if h.first = 0 then .error (.io h.ioError)
    else if h.first < 22 ∨ h.confirm.getD 5 0 ≠ 0xD0 then .error .isoConnectionFailed
    else if h.second = 0 then .error (.io h.ioError)
    else if h.second < 27 ∨ h.negotiated.getD 0 0 ≠ 0x03 ∨ h.negotiated.getD 7 0 ≠ 0x32 ∨
        h.negotiated.getD 17 0 ≠ 0x00 then .error .pduNegotiationFailed
    else
      let pduLength : UInt16 := .ofNat (makeU16 (h.negotiated.getD 25 0) (h.negotiated.getD 26 0))
      if pduLength = 0 then .error .pduNegotiationFailed
      else .ok ⟨pduLength, [isoCr localTsap remoteTsap, s7Pn], []⟩

def connectRackSlot (rack slot : UInt16) (h : Handshake) : Except S7Error Session :=
  connectTsap 0x0100 (remoteTsap rack slot) h

/-- A client that is connected has sent its two requests, and nothing is left to
read. -/
theorem connectTsap_ok {localTsap remoteTsap : UInt16} {h : Handshake} {s : Session}
    (hc : connectTsap localTsap remoteTsap h = .ok s) :
    ∃ pduLength, s = ⟨pduLength, [isoCr localTsap remoteTsap, s7Pn], []⟩ := by
  unfold connectTsap at hc
  split at hc
  · cases hc
  · split at hc
    · cases hc
    · split at hc
      · cases hc
      · split at hc
        · cases hc
        · split at hc
          · cases hc
          · dsimp only at hc
            split at hc
            · cases hc
            · exact ⟨_, (Except.ok.inj hc).symm⟩

/-! ### The header of a reply -/

theorem check_ok {pduLength : UInt16} {iso : List UInt8} {size : ℕ}
    (h : checkIsoPacket pduLength iso = .ok size) : telegramLength iso = 7 + size := by
  unfold checkIsoPacket at h
  split at h
  · cases h
  · split at h
    · cases h
    · split at h
      · cases h
      · have := Except.ok.inj h
        omega

theorem telegramLength_take (bytes : List UInt8) : telegramLength (bytes.take 7) = telegramLength bytes := by
  simp [telegramLength, List.getD_eq_getElem?_getD]

/-! ### Whose reply is read -/

/-- What was read as the reply is part of the reply to this telegram. -/
def Exchange.Own (x : Exchange) : Prop :=
  ∀ body, x.response = .ok body → ∀ b ∈ body, b.1 = x.id

/-- The reply comes in time and passes the checks of the header. -/
def Answer.Usable (admits : ℕ → Bool) (pduLength : UInt16) (a : Answer) : Prop :=
  7 ≤ a.first ∧ ∃ size ∈ (checkIsoPacket pduLength (a.reply.take 7)).toOption,
    admits size = true ∧ size ≤ a.second

instance (admits : ℕ → Bool) (pduLength : UInt16) (a : Answer) : Decidable (a.Usable admits pduLength) :=
  inferInstanceAs (Decidable (7 ≤ a.first ∧
    ∃ size ∈ (checkIsoPacket pduLength (a.reply.take 7)).toOption, admits size = true ∧ size ≤ a.second))

section

variable {admits : ℕ → Bool} {s : Session} {telegram : List UInt8} {a : Answer}

/-- The size the header check gives is that of the rest of the reply. -/
theorem length_of_check {pduLength : UInt16} {size : ℕ}
    (h : checkIsoPacket pduLength (a.reply.take 7) = .ok size) : a.reply.length = 7 + size := by
  rw [← a.framed, ← telegramLength_take]
  exact check_ok h

/-- The bytes of a reply without their tags. -/
theorem take_tagged (reply : List UInt8) (id n : ℕ) :
    ((reply.map (id, ·)).take n).map Prod.snd = reply.take n := by
  rw [← List.map_take, List.map_map]
  exact List.map_id _

/-- On an empty stream a reply that can be used is read whole. -/
theorem transact_usable (hs : s.stream = []) (hu : a.Usable admits s.pduLength) :
    transact admits s telegram a = ({ s with sent := s.sent ++ [telegram] },
      ⟨s.sent.length, telegram, .ok ((a.reply.drop 7).map (s.sent.length, ·))⟩) := by
  obtain ⟨hfirst, size, hsize, hadm, hsecond⟩ := hu
  have hc := toOption_eq_some hsize
  have hlen := length_of_check hc
  have hbody : (a.reply.drop 7).length = size := by
    rw [List.length_drop]
    omega
  have htake : ((a.reply.drop 7).map (s.sent.length, ·)).take size =
      (a.reply.drop 7).map (s.sent.length, ·) :=
    List.take_of_length_le (Nat.le_of_eq (by rw [List.length_map, hbody]))
  have hdrop : (a.reply.drop 7).drop size = [] := List.drop_of_length_le (Nat.le_of_eq hbody)
  simp only [transact, Session.send, hs, List.nil_append, Session.readExact, List.length_map]
  rw [if_pos ⟨hfirst, by omega⟩]
  simp only [take_tagged, hc, hadm, if_true, List.length_drop, List.length_map, ← List.map_drop]
  rw [if_pos ⟨hsecond, by omega⟩, htake, hdrop]
  rfl

/-- A reply that can be used leaves the stream empty. -/
theorem session_of_usable (hs : s.stream = []) (hu : a.Usable admits s.pduLength) :
    (transact admits s telegram a).1.stream = [] ∧
      (transact admits s telegram a).1.pduLength = s.pduLength := by
  rw [transact_usable hs hu]
  exact ⟨hs, rfl⟩

/-- On an empty stream a reply that is read can be used. -/
theorem usable_of_ok (hs : s.stream = []) {body : List (ℕ × UInt8)}
    (h : (transact admits s telegram a).2.response = .ok body) : a.Usable admits s.pduLength := by
  simp only [transact, Session.send, hs, List.nil_append, Session.readExact, List.length_map] at h
  by_cases hfirst : 7 ≤ a.first ∧ 7 ≤ a.reply.length
  · rw [if_pos hfirst] at h
    simp only [take_tagged] at h
    refine ⟨hfirst.1, ?_⟩
    cases hc : checkIsoPacket s.pduLength (a.reply.take 7) with
    | error e =>
      simp only [hc] at h
      cases h
    | ok size =>
      simp only [hc] at h
      split at h
      · rename_i hadm
        by_cases hsecond : size ≤ a.second
        · exact ⟨size, rfl, hadm, hsecond⟩
        · rw [if_neg fun hn => hsecond hn.1] at h
          cases h
      · cases h
  · rw [if_neg hfirst] at h
    cases h

theorem session_of_ok (hs : s.stream = []) {body : List (ℕ × UInt8)}
    (h : (transact admits s telegram a).2.response = .ok body) :
    (transact admits s telegram a).1.stream = [] ∧
      (transact admits s telegram a).1.pduLength = s.pduLength :=
  session_of_usable hs (usable_of_ok hs h)

/-- On an empty stream an exchange reads its own reply. -/
theorem own_transact (hs : s.stream = []) : (transact admits s telegram a).2.Own := by
  intro body h b hb
  have hu := usable_of_ok hs h
  rw [transact_usable hs hu] at h ⊢
  obtain rfl := Except.ok.inj h
  obtain ⟨c, -, rfl⟩ := List.mem_map.mp hb
  rfl

theorem telegram_transact : (transact admits s telegram a).2.telegram = telegram := by
  unfold transact
  dsimp only
  split
  · rfl
  · split
    · rfl
    · split
      · split <;> rfl
      · rfl

/-- What a sequence of exchanges on an empty stream came to: each read its own
reply to a telegram of the kind `kind`, and the stream is empty again if all
replies could be used or the sequence succeeded. -/
structure Settled (kind : List UInt8 → Prop) (admits : ℕ → Bool) (answers : List Answer) (done : Prop)
    (s s' : Session) (xs : List Exchange) : Prop where
  own : ∀ x ∈ xs, x.Own ∧ kind x.telegram
  empty : (∀ a ∈ answers, a.Usable admits s.pduLength) ∨ done →
    s'.stream = [] ∧ s'.pduLength = s.pduLength

variable {kind : List UInt8 → Prop} {answers : List Answer} {done : Prop} {s' : Session}
  {xs : List Exchange}

theorem Settled.none (hs : s.stream = []) : Settled kind admits answers done s s [] where
  own _ hx := absurd hx List.not_mem_nil
  empty _ := ⟨hs, rfl⟩

/-- One exchange, and nothing after it if its reply could not be used. -/
theorem Settled.one (hs : s.stream = []) (hk : kind telegram)
    (hd : done → ∃ body, (transact admits s telegram a).2.response = .ok body) :
    Settled kind admits (a :: answers) done s (transact admits s telegram a).1
      [(transact admits s telegram a).2] where
  own x hx := by
    obtain rfl := List.mem_singleton.mp hx
    exact ⟨own_transact hs, telegram_transact ▸ hk⟩
  empty h := by
    have hu : a.Usable admits s.pduLength := by
      rcases h with h | h
      · exact h a List.mem_cons_self
      · obtain ⟨body, hbody⟩ := hd h
        exact usable_of_ok hs hbody
    exact session_of_usable hs hu

/-- An exchange whose reply is read, and more after it. -/
theorem Settled.cons (hs : s.stream = []) (hk : kind telegram) {body : List (ℕ × UInt8)}
    (hok : (transact admits s telegram a).2.response = .ok body)
    (hrest : Settled kind admits answers done (transact admits s telegram a).1 s' xs) :
    Settled kind admits (a :: answers) done s s' ((transact admits s telegram a).2 :: xs) := by
  have hpdu : (transact admits s telegram a).1.pduLength = s.pduLength :=
    (session_of_ok hs hok).2
  refine ⟨List.forall_mem_cons.mpr ⟨⟨own_transact hs, telegram_transact ▸ hk⟩, hrest.own⟩, fun h => ?_⟩
  obtain ⟨hstream, hlen⟩ := hrest.empty (h.imp_left fun hall b hb => by
    rw [hpdu]
    exact hall b (List.mem_cons_of_mem _ hb))
  exact ⟨hstream, hlen.trans hpdu⟩

end

/-- A telegram reads some of the `datasize` elements from `first` on. -/
def ReadsFrom (area : UInt8) (db : UInt16) (wordlen : UInt8) (first : UInt32) (datasize : UInt16)
    (telegram : List UInt8) : Prop :=
  ∃ offset count : UInt16, offset.toNat + count.toNat ≤ datasize.toNat ∧
    telegram = readTelegram area db wordlen (first + offset.toUInt32) count

/-- A chunk does not reach over the end. -/
theorem chunk_le {datasize offset : UInt16} (h : ¬ datasize ≤ offset) (limit : UInt16) :
    offset.toNat + (min (datasize - offset) limit).toNat ≤ datasize.toNat := by
  have hlt : offset < datasize := UInt16.not_le.mp h
  have hsub : (datasize - offset).toNat = datasize.toNat - offset.toNat :=
    UInt16.toNat_sub_of_le _ _ (UInt16.le_of_lt hlt)
  have hmin : min (datasize - offset) limit ≤ datasize - offset := by
    rw [UInt16.min_def]
    grind
  rw [UInt16.le_iff_toNat_le, hsub] at hmin
  rw [UInt16.lt_iff_toNat_lt] at hlt
  omega

/-- The offset after a chunk does not wrap. -/
theorem toNat_add_chunk {datasize offset count : UInt16} (h : offset.toNat + count.toNat ≤ datasize.toNat) :
    (offset + count).toNat = offset.toNat + count.toNat := by
  have hsize := datasize.toNat_lt
  rw [UInt16.toNat_add, Nat.mod_eq_of_lt (by omega)]

theorem toUInt32_add {a b : UInt16} (h : a.toNat + b.toNat < 65536) :
    (a + b).toUInt32 = a.toUInt32 + b.toUInt32 := by
  apply UInt32.toNat_inj.mp
  simp only [UInt16.toNat_toUInt32, UInt32.toNat_add, UInt16.toNat_add]
  omega

theorem settled_readChunks {area : UInt8} {db : UInt16} {wordlen : UInt8} {first : UInt32}
    {datasize : UInt16} : ∀ {answers : List Answer} {s s' : Session} {offset : UInt16}
      {buffer : List UInt8} {xs : List Exchange} {r : Except S7Error (List UInt8)}, s.stream = [] →
      readChunks area db wordlen datasize answers s offset (first + offset.toUInt32) buffer =
        some (s', xs, r) →
      Settled (ReadsFrom area db wordlen first datasize) readAdmits answers (∃ b, r = .ok b) s s' xs := by
  intro answers
  induction answers with
  | nil =>
    intro s s' offset buffer xs r hs h
    unfold readChunks at h
    split at h
    · obtain ⟨rfl, rfl, rfl⟩ := h
      exact .none hs
    · cases h
  | cons a answers ih =>
    intro s s' offset buffer xs r hs h
    unfold readChunks at h
    split at h
    · obtain ⟨rfl, rfl, rfl⟩ := h
      exact .none hs
    · rename_i hlt
      have hchunk := chunk_le hlt (s.pduLength - 18)
      dsimp only at h
      split at h
      · obtain ⟨rfl, rfl, rfl⟩ := h
        exact .one hs ⟨_, _, hchunk, rfl⟩ fun hd => by obtain ⟨b, hb⟩ := hd; cases hb
      · rename_i body hbody
        split at h
        · obtain ⟨rfl, rfl, rfl⟩ := h
          exact .one hs ⟨_, _, hchunk, rfl⟩ fun _ => ⟨body, hbody⟩
        · obtain ⟨⟨t, ys, r'⟩, hrec, heq⟩ := Option.map_eq_some_iff.mp h
          obtain ⟨rfl, rfl, rfl⟩ := heq
          -- offset and start advance together, as the offset does not wrap
          have hnext : first + offset.toUInt32 + (min (datasize - offset) (s.pduLength - 18)).toUInt32 =
              first + (offset + min (datasize - offset) (s.pduLength - 18)).toUInt32 := by
            rw [toUInt32_add (Nat.lt_of_le_of_lt hchunk datasize.toNat_lt), UInt32.add_assoc]
          rw [hnext] at hrec
          exact .cons hs ⟨_, _, hchunk, rfl⟩ hbody (ih (session_of_ok hs hbody).1 hrec)

/-! ### What is read is made of the replies -/

theorem pduLength_readExact (s : Session) (n came : ℕ) : (s.readExact n came).1.pduLength = s.pduLength := by
  unfold Session.readExact
  split <;> rfl

theorem pduLength_transact (admits : ℕ → Bool) (s : Session) (telegram : List UInt8) (a : Answer) :
    (transact admits s telegram a).1.pduLength = s.pduLength := by
  have hfirst := pduLength_readExact (s.send telegram a.reply) 7 a.first
  unfold transact
  dsimp only
  split
  · rename_i t h
    rw [h] at hfirst
    exact hfirst
  · rename_i t iso h
    rw [h] at hfirst
    split
    · exact hfirst
    · rename_i size _
      have hsecond := pduLength_readExact t size a.second
      split
      · split
        · rename_i h2
          rw [h2] at hsecond
          exact hsecond.trans hfirst
        · rename_i h2
          rw [h2] at hsecond
          exact hsecond.trans hfirst
      · exact hfirst

/-- The bytes that were read as the reply. -/
def Exchange.bytes (x : Exchange) : Except S7Error (List UInt8) := x.response.map (·.map Prod.snd)

/-- What the loop of `read_area` makes of the replies to its telegrams. -/
def assemble (pduLength datasize : UInt16) :
    List (Except S7Error (List UInt8)) → UInt16 → List UInt8 → Except S7Error (List UInt8)
  | [], _, buffer => .ok buffer
  | .error e :: _, _, _ => .error e
  | .ok body :: rest, offset, buffer =>
    let count := min (datasize - offset) (pduLength - 18)
    (readPayload body count).bind fun payload =>
      assemble pduLength datasize rest (offset + count) (copyAt buffer offset.toNat payload)

section

variable {area : UInt8} {db : UInt16} {wordlen : UInt8} {datasize : UInt16}

/-- The result of the loop is made of the replies it read, and there is one if there
was something to read. -/
theorem readChunks_eq : ∀ {answers : List Answer} {s s' : Session} {offset : UInt16}
    {longStart : UInt32} {buffer : List UInt8} {xs : List Exchange} {r : Except S7Error (List UInt8)},
    readChunks area db wordlen datasize answers s offset longStart buffer = some (s', xs, r) →
    r = assemble s.pduLength datasize (xs.map Exchange.bytes) offset buffer ∧
      (¬ datasize ≤ offset → xs ≠ []) := by
  intro answers
  induction answers with
  | nil =>
    intro s s' offset longStart buffer xs r h
    unfold readChunks at h
    split at h
    · rename_i hle
      obtain ⟨rfl, rfl, rfl⟩ := h
      exact ⟨rfl, fun hlt => absurd hle hlt⟩
    · cases h
  | cons a answers ih =>
    intro s s' offset longStart buffer xs r h
    unfold readChunks at h
    split at h
    · rename_i hle
      obtain ⟨rfl, rfl, rfl⟩ := h
      exact ⟨rfl, fun hlt => absurd hle hlt⟩
    · dsimp only at h
      split at h
      · rename_i e he
        obtain ⟨rfl, rfl, rfl⟩ := h
        refine ⟨?_, fun _ => List.cons_ne_nil _ _⟩
        simp [Exchange.bytes, he, Except.map, assemble]
      · rename_i body hbody
        split at h
        · rename_i e he
          obtain ⟨rfl, rfl, rfl⟩ := h
          refine ⟨?_, fun _ => List.cons_ne_nil _ _⟩
          simp [Exchange.bytes, hbody, Except.map, assemble, he, Except.bind]
        · rename_i payload hpayload
          obtain ⟨⟨t, ys, r'⟩, hrec, heq⟩ := Option.map_eq_some_iff.mp h
          obtain ⟨rfl, rfl, rfl⟩ := heq
          refine ⟨?_, fun _ => List.cons_ne_nil _ _⟩
          rw [(ih hrec).1, pduLength_transact]
          simp [Exchange.bytes, hbody, Except.map, assemble, hpayload, Except.bind]

end

end S7
end LymonAgent
