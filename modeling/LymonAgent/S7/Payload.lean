/-
# The bytes of a good value

`read_area` reads into a buffer of zeros. Of each reply it copies as many bytes as
it asked for, or as many as there are if the reply has fewer, and goes on with the
next chunk; `decode` sees the whole buffer. A reply that says it is good and has
too few bytes is therefore no error: the zeros behind them are decoded.

`good_value_iff` says when a value is made of the bytes of the replies only:
exactly when each telegram in the stream is as long as its header and the bytes
that were asked for.

Key definitions: `payloads`, `MadeOf`, `FullReplies`.
Key theorems: `transact_ok`, `readChunks_full`, `good_value_iff`.
-/
import LymonAgent.S7.Addressing

namespace LymonAgent
namespace S7

/-! ### Values from full replies -/

/-- The data of a reply, up to what its telegram asked for. -/
def payloadOf (x : Exchange) : List UInt8 :=
  match x.bytes with
  | .error _ => []
  | .ok body => (body.drop 18).take (askedOf x.telegram)

def payloads (xs : List Exchange) : List UInt8 := (xs.map payloadOf).flatten

/-- The replies have the bytes of the selection, and the value is decoded from them. -/
structure MadeOf (sel : Selection) (xs : List Exchange) (v : F64) : Prop where
  enough : sel.size ≤ (payloads xs).length
  decoded : sel.valueOf (payloads xs) = .ok v

/-- In the stream of replies that follows `stream`, each one is as long as its header
and the elements it was asked for, those from `offset` on. -/
def FullReplies (pduLength datasize : UInt16) : List Answer → UInt16 → List UInt8 → Prop
  | [], _, _ => True
  | a :: answers, offset, stream =>
    datasize ≤ offset ∨
      let count := min (datasize - offset) (pduLength - 18)
      let bytes := stream ++ a.reply
      25 + count.toNat ≤ telegramLength bytes ∧
        FullReplies pduLength datasize answers (offset + count) (bytes.drop (telegramLength bytes))

/-! ### One reply -/

section

variable {s s' : Session}

theorem readExact_some {n came : ℕ} {bs : List (ℕ × UInt8)} (h : s.readExact n came = (s', some bs)) :
    n ≤ s.stream.length ∧ bs = s.stream.take n ∧ s'.stream = s.stream.drop n := by
  unfold Session.readExact at h
  split at h
  · rename_i hn
    obtain ⟨rfl, hbs⟩ := Prod.mk.inj h
    exact ⟨hn.2, (Option.some.inj hbs).symm, rfl⟩
  · cases h

/-- The bytes in the stream when the reply has been sent. -/
def arrived (s : Session) (a : Answer) : List UInt8 := s.stream.map Prod.snd ++ a.reply

/-- A reply that is read is the telegram the stream begins with, and is taken from
it. -/
theorem transact_ok {admits : ℕ → Bool} {telegram : List UInt8} {a : Answer} {body : List (ℕ × UInt8)}
    (h : (transact admits s telegram a).2.response = .ok body) :
    telegramLength (arrived s a) = 7 + body.length ∧ admits body.length = true ∧
      (transact admits s telegram a).1.stream.map Prod.snd = (arrived s a).drop (7 + body.length) := by
  have hsent : (s.send telegram a.reply).stream.map Prod.snd = arrived s a := by
    simp [Session.send, arrived]
  unfold transact at h ⊢
  dsimp only at h ⊢
  split at h
  · cases h
  · rename_i t iso hiso
    obtain ⟨-, rfl, ht⟩ := readExact_some hiso
    split at h
    · cases h
    · rename_i size hsize
      have hlen := check_ok hsize
      rw [List.map_take, telegramLength_take, hsent] at hlen
      split at h
      · rename_i hadm
        split at h
        · cases h
        · rename_i u bs hbs
          obtain ⟨hle, rfl, hu⟩ := readExact_some hbs
          obtain rfl := Except.ok.inj h
          rw [List.length_take, Nat.min_eq_left hle]
          refine ⟨hlen, hadm, ?_⟩
          rw [if_pos hadm]
          dsimp only
          rw [hu, ht, List.drop_drop, List.map_drop, hsent]
      · cases h

end

/-! ### The chunks of a read -/

/-- What is read of a chunk of `count` elements, from one session to the next: at
most the bytes asked for, and all of them exactly when the telegram has them. -/
structure ChunkRead (a : Answer) (s t : Session) (x : Exchange) (count : UInt16) : Prop where
  length_le : (payloadOf x).length ≤ count.toNat
  full_iff : (payloadOf x).length = count.toNat ↔ 25 + count.toNat ≤ telegramLength (arrived s a)
  pduLength : t.pduLength = s.pduLength
  stream : t.stream.map Prod.snd = (arrived s a).drop (telegramLength (arrived s a))

section

variable {area : UInt8} {db : UInt16} {wordlen : UInt8} {datasize : UInt16} {answers : List Answer}
  {s s' : Session} {offset : UInt16} {start : UInt32} {buffer out : List UInt8} {xs : List Exchange}

theorem payloadOf_transact {a : Answer} {count : UInt16} {body : List (ℕ × UInt8)}
    (hbody : (transact readAdmits s (readTelegram area db wordlen start count) a).2.response = .ok body) :
    payloadOf (transact readAdmits s (readTelegram area db wordlen start count) a).2 =
      ((body.map Prod.snd).drop 18).take count.toNat := by
  have hbytes : (transact readAdmits s (readTelegram area db wordlen start count) a).2.bytes =
      .ok (body.map Prod.snd) := by
    rw [Exchange.bytes, hbody]
    rfl
  rw [payloadOf, hbytes, telegram_transact, askedOf_readTelegram]

theorem readPayload_ok {body payload : List UInt8} {count : UInt16}
    (h : readPayload body count = .ok payload) : payload = (body.drop 18).take count.toNat := by
  unfold readPayload at h
  dsimp only at h
  split at h
  · exact (Except.ok.inj h).symm
  · split at h
    · cases h
    · split at h <;> cases h

theorem chunkRead_transact {a : Answer} {count : UInt16} {body : List (ℕ × UInt8)}
    (hbody : (transact readAdmits s (readTelegram area db wordlen start count) a).2.response = .ok body) :
    ChunkRead a s (transact readAdmits s (readTelegram area db wordlen start count) a).1
      (transact readAdmits s (readTelegram area db wordlen start count) a).2 count := by
  obtain ⟨hlen, hadm, hstream⟩ := transact_ok hbody
  have hhead : 18 ≤ body.length := by
    unfold readAdmits at hadm
    simp only [Bool.and_eq_true, decide_eq_true_eq] at hadm
    exact hadm.1
  have hsize : (payloadOf (transact readAdmits s (readTelegram area db wordlen start count) a).2).length =
      min count.toNat (body.length - 18) := by
    rw [payloadOf_transact hbody, List.length_take, List.length_drop, List.length_map]
  refine ⟨by omega, by omega, pduLength_transact _ _ _ _, ?_⟩
  rw [hstream, hlen]

/-- A read that succeeds has nothing left to ask for, or it reads a chunk and goes on
after it. -/
theorem readChunks_ok
    (h : readChunks area db wordlen datasize answers s offset start buffer = some (s', xs, .ok out)) :
    (datasize ≤ offset ∧ xs = [] ∧ out = buffer) ∨
    ∃ a rest x t ys, ∃ count : UInt16, ¬ datasize ≤ offset ∧ answers = a :: rest ∧ xs = x :: ys ∧
      count = min (datasize - offset) (s.pduLength - 18) ∧ ChunkRead a s t x count ∧
      readChunks area db wordlen datasize rest t (offset + count) (start + count.toUInt32)
        (copyAt buffer offset.toNat (payloadOf x)) = some (s', ys, .ok out) := by
  unfold readChunks at h
  by_cases hle : datasize ≤ offset
  · rw [if_pos hle] at h
    obtain ⟨rfl, rfl, hout⟩ := h
    exact .inl ⟨hle, rfl, rfl⟩
  · rw [if_neg hle] at h
    cases answers with
    | nil => cases h
    | cons a rest =>
      dsimp only at h
      split at h
      · cases h
      · rename_i body hbody
        split at h
        · cases h
        · rename_i payload hpayload
          obtain ⟨⟨t, ys, r⟩, hrec, heq⟩ := Option.map_eq_some_iff.mp h
          obtain ⟨rfl, rfl, rfl⟩ := heq
          rw [readPayload_ok hpayload, ← payloadOf_transact hbody] at hrec
          exact .inr ⟨a, rest, _, _, ys, _, hle, rfl, rfl, rfl, chunkRead_transact hbody, hrec⟩

end

theorem payloads_cons (x : Exchange) (xs : List Exchange) :
    payloads (x :: xs) = payloadOf x ++ payloads xs := rfl

/-- The replies have no more bytes than were asked for, and all of them exactly when
each is full. -/
theorem length_payloads {area : UInt8} {db : UInt16} {wordlen : UInt8} {datasize : UInt16} :
    ∀ {answers : List Answer} {s s' : Session} {offset : UInt16} {start : UInt32}
      {buffer out : List UInt8} {xs : List Exchange},
      readChunks area db wordlen datasize answers s offset start buffer = some (s', xs, .ok out) →
      (payloads xs).length ≤ datasize.toNat - offset.toNat ∧
        (datasize.toNat - offset.toNat ≤ (payloads xs).length ↔
          FullReplies s.pduLength datasize answers offset (s.stream.map Prod.snd)) := by
  intro answers
  induction answers with
  | nil =>
    intro s s' offset start buffer out xs h
    rcases readChunks_ok h with ⟨hle, rfl, -⟩ | ⟨_, _, _, _, _, _, -, hcons, -⟩
    · rw [UInt16.le_iff_toNat_le] at hle
      exact ⟨Nat.zero_le _, iff_of_true (by omega) trivial⟩
    · cases hcons
  | cons a answers ih =>
    intro s s' offset start buffer out xs h
    rcases readChunks_ok h with ⟨hle, rfl, -⟩ | ⟨_, _, x, t, ys, count, hlt, hcons, rfl, hcount, hread, hrec⟩
    · have hle' := UInt16.le_iff_toNat_le.mp hle
      exact ⟨Nat.zero_le _, iff_of_true (by omega) (Or.inl hle)⟩
    · obtain ⟨rfl, rfl⟩ := List.cons.inj hcons
      obtain ⟨hmax, hfull⟩ := ih hrec
      have hchunk := chunk_le hlt (s.pduLength - 18)
      rw [← hcount] at hchunk
      have hoffset := toNat_add_chunk hchunk
      rw [hoffset] at hmax hfull
      rw [hread.pduLength, hread.stream] at hfull
      have hunfold : FullReplies s.pduLength datasize (a :: answers) offset (s.stream.map Prod.snd) ↔
          25 + count.toNat ≤ telegramLength (arrived s a) ∧
            FullReplies s.pduLength datasize answers (offset + count)
              ((arrived s a).drop (telegramLength (arrived s a))) := by
        rw [hcount]
        exact or_iff_right hlt
      have hmost := hread.length_le
      rw [hunfold, ← hread.full_iff, ← hfull, payloads_cons, List.length_append]
      constructor
      · omega
      · omega

theorem take_copyAt {buffer payload : List UInt8} {offset : ℕ} (h : offset ≤ buffer.length) :
    (copyAt buffer offset payload).take (offset + payload.length) = buffer.take offset ++ payload := by
  unfold copyAt
  refine List.take_left' ?_
  rw [List.length_append, List.length_take, Nat.min_eq_left h]

theorem drop_copyAt {buffer payload : List UInt8} {offset : ℕ} (h : offset ≤ buffer.length) (n : ℕ) :
    (copyAt buffer offset payload).drop (offset + payload.length + n) =
      buffer.drop (offset + payload.length + n) := by
  have hleft : (copyAt buffer offset payload).drop (offset + payload.length) =
      buffer.drop (offset + payload.length) := by
    unfold copyAt
    refine List.drop_left' ?_
    rw [List.length_append, List.length_take, Nat.min_eq_left h]
  rw [← List.drop_drop, hleft, List.drop_drop]

theorem length_copyAt {buffer payload : List UInt8} {offset : ℕ}
    (h : offset + payload.length ≤ buffer.length) :
    (copyAt buffer offset payload).length = buffer.length := by
  simp only [copyAt, List.length_append, List.length_take, List.length_drop]
  omega

/-- Where every reply is full, the buffer has their bytes one after another. -/
theorem buffer_of_full {area : UInt8} {db : UInt16} {wordlen : UInt8} {datasize : UInt16} :
    ∀ {answers : List Answer} {s s' : Session} {offset : UInt16} {start : UInt32}
      {buffer out : List UInt8} {xs : List Exchange}, datasize.toNat ≤ buffer.length →
      readChunks area db wordlen datasize answers s offset start buffer = some (s', xs, .ok out) →
      datasize.toNat - offset.toNat ≤ (payloads xs).length →
      out = buffer.take offset.toNat ++ payloads xs ++
        buffer.drop (offset.toNat + (payloads xs).length) := by
  intro answers
  induction answers with
  | nil =>
    intro s s' offset start buffer out xs _ h _
    rcases readChunks_ok h with ⟨-, rfl, rfl⟩ | ⟨_, _, _, _, _, _, -, hcons, -⟩
    · simp [payloads]
    · cases hcons
  | cons a answers ih =>
    intro s s' offset start buffer out xs hlen h hfull
    rcases readChunks_ok h with ⟨-, rfl, rfl⟩ | ⟨_, _, x, t, ys, count, hlt, hcons, rfl, hcount, hread, hrec⟩
    · simp [payloads]
    · obtain ⟨rfl, rfl⟩ := List.cons.inj hcons
      have hmax := (length_payloads hrec).1
      have hmost := hread.length_le
      have hchunk := chunk_le hlt (s.pduLength - 18)
      rw [← hcount] at hchunk
      have hoffset := toNat_add_chunk hchunk
      rw [hoffset] at hmax
      rw [payloads_cons, List.length_append] at hfull ⊢
      -- no reply can make up for another, so this one has all its bytes
      have hpayload : (payloadOf x).length = count.toNat := by omega
      have hbuffer := ih (by rw [length_copyAt (by omega)]; exact hlen) hrec (by omega)
      rw [hoffset, ← hpayload, take_copyAt (by omega), drop_copyAt (by omega)] at hbuffer
      rw [hbuffer, List.append_assoc (buffer.take offset.toNat), Nat.add_assoc offset.toNat]

/-! ### The value -/

/-- **When a good value is made of what the PLC sent.** For every selection and every
stream of replies, a value that is read without an error has its bytes in the
replies and is decoded from them exactly when each reply is as long as its header
and the elements it was asked for. -/
theorem good_value_iff {s s' : Session} {sel : Selection} {answers : List Answer} {xs : List Exchange}
    {v : F64} (h : readValue s sel answers = some (s', xs, .ok v)) :
    MadeOf sel xs v ↔
      FullReplies s.pduLength sel.datasize answers 0 (s.stream.map Prod.snd) := by
  obtain ⟨out, hchunks, hv⟩ := readValue_ok h
  obtain ⟨hmax, hfull⟩ := length_payloads hchunks
  have hzero : (0 : UInt16).toNat = 0 := rfl
  rw [hzero, Nat.sub_zero, datasize_toNat] at hmax hfull
  constructor
  · intro hmade
    exact hfull.mp hmade.enough
  · intro hreplies
    have henough := hfull.mpr hreplies
    have hlen : sel.datasize.toNat ≤ (List.replicate sel.size (0 : UInt8)).length := by
      rw [List.length_replicate, datasize_toNat]
    have hout := buffer_of_full hlen hchunks (by rw [hzero, Nat.sub_zero, datasize_toNat]; exact henough)
    have hrest : (List.replicate sel.size (0 : UInt8)).drop (0 + (payloads xs).length) = [] := by
      rw [List.drop_eq_nil_of_le]
      rw [List.length_replicate, Nat.zero_add]
      exact henough
    rw [hzero, hrest, List.take_zero, List.nil_append, List.append_nil] at hout
    rw [hout] at hv
    exact ⟨henough, hv⟩

/-- The word at byte 0 of the first data block. -/
def firstWord : Selection := ⟨0x84, 1, 0, 0, .uint⟩

theorem good_value_iff_word : ∃ s' xs, readValue ⟨480, [], []⟩ firstWord [wordReply 0 5 27 20] =
    some (s', xs, .ok (.fin 5)) ∧ MadeOf firstWord xs (.fin 5) := by
  have h : ∃ y ∈ readValue ⟨480, [], []⟩ firstWord [wordReply 0 5 27 20],
      y.2.2.toOption = some (.fin 5) := by decide +kernel
  obtain ⟨⟨s', xs, r⟩, hread, hr⟩ := h
  obtain rfl := toOption_eq_some hr
  exact ⟨s', xs, hread, (good_value_iff hread).mpr (Or.inr ⟨by decide +kernel, trivial⟩)⟩

/-- A reply with a good return code and the length of a word, and no byte after them. -/
def emptyReply : Answer where
  reply := [0x03, 0x00, 0x00, 25, 0x02, 0xF0, 0x80] ++ List.replicate 14 0 ++ [0xFF, 0x04, 0x00, 16]
  framed := by simp [telegramLength, makeU16]
  first := 25
  second := 18
  ioError := "timed out"

/-- Two words that the PLC sends no byte of are reported as 0, with quality 0. -/
theorem zeros_decoded : ∃ conn readings,
    read none (twoWords "read") handshake [[emptyReply], [emptyReply]] = some (conn, .ok readings) ∧
      readings.length = 2 ∧ ∀ rd ∈ readings, rd.sample.quality = 0 ∧ rd.sample.value = .fin 0 ∧
        payloads rd.exchanges = [] ∧ ¬ MadeOf rd.sel rd.exchanges rd.sample.value := by
  have h : ∃ y ∈ read none (twoWords "read") handshake [[emptyReply], [emptyReply]],
      ∃ readings ∈ y.2.toOption, readings.length = 2 ∧ ∀ rd ∈ readings, rd.sample.quality = 0 ∧
        rd.sample.value = .fin 0 ∧ payloads rd.exchanges = [] ∧ rd.sel.size = 2 := by decide +kernel
  obtain ⟨⟨conn, r⟩, hread, readings, hr, hlen, hall⟩ := h
  obtain rfl := toOption_eq_some hr
  refine ⟨conn, readings, hread, hlen, fun rd hrd => ?_⟩
  obtain ⟨hquality, hvalue, hnone, hsize⟩ := hall rd hrd
  refine ⟨hquality, hvalue, hnone, fun hmade => ?_⟩
  have henough := hmade.enough
  rw [hnone, hsize] at henough
  exact absurd henough (by decide)

end S7
end LymonAgent
