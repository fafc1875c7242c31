/-
# Transfers to and from the memory

`read_area` and `write_area` of `crates/plugin-s7/src/s7/client.rs` cut what they
move into chunks that fit a telegram, one telegram and one reply for each. Against a
CPU that serves its memory the cuts do not show: an operation on a session is the
operation on the memory (`ops_on_memory`), a read gives the bytes there or the error
of reading all of them, and a write leaves all of its data there, or the chunks
before the one that was refused. Every operation comes to an end (`ops_return`). A bit
at byte 8192 would be asked for at byte 0, so operations have bounds (`Op.Fits`).

Key definitions: `Session.Ready`, `Written`, `Op`, `Op.On`, `Ran`.
Key theorems: `readChunks_served`, `writeChunks_served`, `ops_on_memory`,
`read_after_write`, `ops_return`.
-/
import LymonAgent.S7.Memory

namespace LymonAgent
namespace S7

/-! ### Reading and writing in chunks -/

/-- Nothing is left in the stream, and a telegram with a header of `head` bytes has
room for data. -/
structure Session.Ready (s : Session) (head : ℕ) : Prop where
  stream : s.stream = []
  atLeast : head < s.pduLength.toNat
  atMost : s.pduLength.toNat ≤ 480

theorem Session.Ready.sent {s : Session} {head : ℕ} (hs : s.Ready head) (t : List UInt8) :
    Session.Ready { s with sent := s.sent ++ [t] } head := ⟨hs.stream, hs.atLeast, hs.atMost⟩

theorem toNat_readRoom {s : Session} (hs : s.Ready 18) :
    (s.pduLength - 18).toNat = s.pduLength.toNat - 18 :=
  UInt16.toNat_sub_of_le _ _ (UInt16.le_iff_toNat_le.mpr (Nat.le_of_lt hs.atLeast))

theorem toNat_writeRoom {s : Session} (hs : s.Ready 28) :
    (s.pduLength - 28).toNat = s.pduLength.toNat - 28 :=
  UInt16.toNat_sub_of_le _ _ (UInt16.le_iff_toNat_le.mpr (Nat.le_of_lt hs.atLeast))

theorem map_snd_tagged (id : ℕ) (body : List UInt8) : (body.map (id, ·)).map Prod.snd = body := by
  rw [List.map_map]
  exact List.map_id _

theorem readAdmits_iff {size : ℕ} : readAdmits size = true ↔ 18 ≤ size ∧ size ≤ 480 := by
  simp [readAdmits]

theorem writeAdmits_iff {size : ℕ} : writeAdmits size = true ↔ 15 ≤ size ∧ size ≤ 480 := by
  simp [writeAdmits]

/-- The payload of a chunk of a read fits the telegram. -/
theorem readRoom {s : Session} (hs : s.Ready 18) (rest : UInt16) :
    18 + (min rest (s.pduLength - 18)).toNat ≤ s.pduLength.toNat := by
  have hmin : min rest (s.pduLength - 18) ≤ s.pduLength - 18 := by
    rw [UInt16.min_def]
    grind
  have hsub := toNat_readRoom hs
  rw [UInt16.le_iff_toNat_le, hsub] at hmin
  have := hs.atLeast
  omega

/-- A chunk has an element at least. -/
theorem readCount_pos {s : Session} {datasize offset : UInt16} (hs : s.Ready 18) (hle : ¬ datasize ≤ offset) :
    0 < (min (datasize - offset) (s.pduLength - 18)).toNat := by
  have hlt := UInt16.lt_iff_toNat_lt.mp (UInt16.not_le.mp hle)
  have hrest : (datasize - offset).toNat = datasize.toNat - offset.toNat :=
    UInt16.toNat_sub_of_le _ _ (UInt16.le_of_lt (UInt16.not_le.mp hle))
  have hroom := toNat_readRoom hs
  have := hs.atLeast
  rw [UInt16.min_def]
  split
  · omega
  · have h18 : (18 : UInt16).toNat = 18 := rfl
    omega

theorem resultData_length {m : Memory} {area : UInt8} {db : UInt16} {first n : ℕ} :
    (resultData (m.bytes area db first n)).length ≤ n := by
  cases h : m.bytes area db first n with
  | error e => exact Nat.zero_le n
  | ok bs => exact Nat.le_of_eq (length_bytes h)

section

variable {m m' : Memory} {area : UInt8} {db : UInt16}

/-- A telegram that reads `count` elements gets what the CPU makes of it. -/
theorem transact_read {s : Session} {wordlen : UInt8} {start : UInt32} {count : UInt16} {a : Answer}
    {r : Except S7Error (List UInt8)} (hs : s.Ready 18)
    (hcount : 18 + count.toNat ≤ s.pduLength.toNat)
    (hr : (serve m (readTelegram area db wordlen start count)).2 = r) (ht : Told r)
    (hdata : (resultData r).length ≤ count.toNat)
    (h : Replies (readTelegram area db wordlen start count)
      (serve m (readTelegram area db wordlen start count)).2 a) :
    ∃ body : List UInt8, transact readAdmits s (readTelegram area db wordlen start count) a =
        ({ s with sent := s.sent ++ [readTelegram area db wordlen start count] },
          ⟨s.sent.length, readTelegram area db wordlen start count, .ok (body.map (s.sent.length, ·))⟩) ∧
      readPayload body count = r := by
  rw [hr] at h
  have hhead : headOf (readTelegram area db wordlen start count) = 18 := if_pos rfl
  have hmost := hs.atMost
  obtain ⟨body, htransact, hcode, hbody⟩ := transact_replies hs.stream h
    (readAdmits_iff.mpr (by rw [hhead]; omega)) (by rw [hhead]; omega)
  rw [hhead] at hbody
  exact ⟨body, htransact, readPayload_eq hcode hbody ht hdata⟩

/-- Whatever comes of it, the first exchange of a read is the one for its first chunk. -/
theorem readChunks_head {wordlen : UInt8} {datasize offset : UInt16} {a : Answer} {answers : List Answer}
    {s s' : Session} {start : UInt32} {buffer : List UInt8} {xs : List Exchange}
    {r : Except S7Error (List UInt8)} (hle : ¬ datasize ≤ offset)
    (h : readChunks area db wordlen datasize (a :: answers) s offset start buffer = some (s', xs, r)) :
    ∃ ys, xs = (transact readAdmits s (readTelegram area db wordlen start
      (min (datasize - offset) (s.pduLength - 18))) a).2 :: ys := by
  unfold readChunks at h
  rw [if_neg hle] at h
  dsimp only at h
  split at h
  · cases h
    exact ⟨_, rfl⟩
  · split at h
    · cases h
      exact ⟨_, rfl⟩
    · obtain ⟨y, -, heq⟩ := Option.map_eq_some_iff.mp h
      cases heq
      exact ⟨_, rfl⟩

/-- The telegrams of a read give the bytes of the memory from `offset` on, or the
error of reading all of them. -/
theorem readChunks_served {datasize : UInt16} {first : ℕ} (hfirst : 8 * (first + datasize.toNat) < 2 ^ 24) :
    ∀ {answers : List Answer} {s s' : Session} {offset : UInt16} {longStart : UInt32}
      {buffer : List UInt8} {xs : List Exchange} {r : Except S7Error (List UInt8)}, s.Ready 18 →
      longStart.toNat = first + offset.toNat → datasize.toNat ≤ buffer.length →
      readChunks area db 0x02 datasize answers s offset longStart buffer = some (s', xs, r) →
      ServedBy m xs answers m' →
      m' = m ∧ s'.stream = [] ∧ s'.pduLength = s.pduLength ∧ r = (m.bytes area db (first + offset.toNat)
        (datasize.toNat - offset.toNat)).map (copyAt buffer offset.toNat) := by
  intro answers
  induction answers with
  | nil =>
    intro s s' offset longStart buffer xs r hs hstart hbuffer h hserved
    unfold readChunks at h
    by_cases hle : datasize ≤ offset
    · rw [if_pos hle] at h
      obtain ⟨rfl, rfl, rfl⟩ := h
      have hnone : datasize.toNat - offset.toNat = 0 := Nat.sub_eq_zero_of_le hle
      exact ⟨hserved, hs.stream, rfl, by simp [hnone, Memory.bytes, Except.map, copyAt_nil]⟩
    · rw [if_neg hle] at h
      cases h
  | cons a answers ih =>
    intro s s' offset longStart buffer xs r hs hstart hbuffer h hserved
    by_cases hle : datasize ≤ offset
    · unfold readChunks at h
      rw [if_pos hle] at h
      obtain ⟨rfl, rfl, rfl⟩ := h
      have hnone : datasize.toNat - offset.toNat = 0 := Nat.sub_eq_zero_of_le hle
      exact ⟨hserved, hs.stream, rfl, by simp [hnone, Memory.bytes, Except.map, copyAt_nil]⟩
    · obtain ⟨ys, rfl⟩ := readChunks_head hle h
      unfold readChunks at h
      rw [if_neg hle] at h
      dsimp only at h
      have hchunk := chunk_le hle (s.pduLength - 18)
      have hroom := readRoom hs (datasize - offset)
      obtain ⟨count, hcount⟩ : ∃ count, count = min (datasize - offset) (s.pduLength - 18) := ⟨_, rfl⟩
      rw [← hcount] at h hchunk hroom hserved
      have hsmall : 8 * longStart.toNat < 2 ^ 24 := by omega
      obtain ⟨hreplies, hrest⟩ := hserved
      rw [telegram_transact] at hreplies hrest
      have hserve := serve_readBytes m area db longStart count hsmall
      obtain ⟨body, htransact, hpayload⟩ := transact_read hs hroom (congrArg Prod.snd hserve) told_bytes
        resultData_length hreplies
      rw [hserve] at hrest
      rw [htransact] at h
      simp only [map_snd_tagged, hpayload] at h
      have hsplit : datasize.toNat - offset.toNat =
          count.toNat + (datasize.toNat - (offset + count).toNat) := by
        rw [toNat_add_chunk hchunk]
        omega
      rw [hsplit, Memory.bytes_add, ← hstart]
      cases hbytes : m.bytes area db longStart.toNat count.toNat with
      | error e =>
        rw [hbytes] at h
        cases h
        exact ⟨hrest, hs.stream, rfl, rfl⟩
      | ok payload =>
        rw [hbytes] at h
        obtain ⟨⟨t, zs, r'⟩, hrec, heq⟩ := Option.map_eq_some_iff.mp h
        cases heq
        have hlen := length_bytes hbytes
        have hoffset := toNat_add_chunk hchunk
        have hnext : (longStart + count.toUInt32).toNat = first + (offset + count).toNat := by
          rw [hoffset, UInt32.toNat_add, UInt16.toNat_toUInt32]
          omega
        obtain ⟨hm, hstream, hpdu, hr⟩ := ih (hs.sent _) hnext
          (by rw [length_copyAt (by omega)]; exact hbuffer) hrec hrest
        refine ⟨hm, hstream, hpdu, ?_⟩
        have hrest : first + (offset + count).toNat = longStart.toNat + count.toNat := by omega
        rw [hr, hrest]
        cases m.bytes area db (longStart.toNat + count.toNat)
            (datasize.toNat - (offset + count).toNat) with
        | error e => rfl
        | ok bs =>
          simp only [Except.map, Except.bind]
          rw [hoffset, ← hlen, copyAt_append (by omega)]

/-- A read of bytes gives the bytes of the memory. -/
theorem readArea_served {s s' : Session} {start : UInt16} {len : ℕ} {answers : List Answer}
    {xs : List Exchange} {r : Except S7Error (List UInt8)} (hs : s.Ready 18)
    (harea : area ∈ ([0x81, 0x82, 0x83, 0x84] : List UInt8)) (hlen : len ≤ 65535)
    (h : readArea s area db start 0x02 len answers = some (s', xs, r)) (hserved : ServedBy m xs answers m') :
    m' = m ∧ s'.stream = [] ∧ s'.pduLength = s.pduLength ∧ r = m.bytes area db start.toNat len := by
  unfold readArea at h
  rw [if_neg (by simp [harea])] at h
  have hsize : (elements 0x02 len).toNat = len := by
    rw [elements, if_pos rfl, Nat.min_eq_left hlen, UInt16.toNat_ofNat', Nat.mod_eq_of_lt (by omega)]
  have hstart := start.toNat_lt
  have hfits : 8 * (start.toNat + (elements 0x02 len).toNat) < 2 ^ 24 := by omega
  obtain ⟨hm, hstream, hpdu, hr⟩ := readChunks_served hfits hs (UInt16.toNat_toUInt32 start)
    (by rw [List.length_replicate, hsize]) h hserved
  refine ⟨hm, hstream, hpdu, ?_⟩
  have hzero : (0 : UInt16).toNat = 0 := rfl
  rw [hr, hzero, Nat.add_zero, Nat.sub_zero, hsize]
  cases hbytes : m.bytes area db start.toNat len with
  | error e => rfl
  | ok bs => simp [Except.map, copyAt, length_bytes hbytes]

theorem bitIdx_le {bitIdx : UInt8} (h : bitIdx.toNat ≤ 7) : ¬ bitIdx > 7 := by
  rw [gt_iff_lt, UInt8.lt_iff_toNat_lt]
  exact Nat.not_lt.mpr h

theorem readCount_bit {s : Session} (hs : s.Ready 18) : min ((1 : UInt16) - 0) (s.pduLength - 18) = 1 := by
  have hone : (1 : UInt16) - 0 ≤ s.pduLength - 18 := by
    have hleast := hs.atLeast
    have h1 : ((1 : UInt16) - 0).toNat = 1 := rfl
    rw [UInt16.le_iff_toNat_le, toNat_readRoom hs, h1]
    omega
  rw [UInt16.min_def, if_pos hone]
  rfl

theorem resultData_bit (r : Except S7Error Bool) :
    (resultData (r.map fun b => [if b then 1 else 0])).length ≤ 1 := by
  cases r with
  | error e => exact Nat.zero_le 1
  | ok b => exact Nat.le_refl 1

theorem writeCount_bit {s : Session} (hs : s.Ready 28) : min (1 - 0) (s.pduLength - 28).toNat = 1 := by
  have hroom := toNat_writeRoom hs
  have hleast := hs.atLeast
  omega

/-- The number of a bit below the byte 8192 fits the start of a request. -/
theorem toNat_bitStart {byteNum : UInt16} {bitIdx : UInt8} (hbit : bitIdx.toNat ≤ 7)
    (hbyte : byteNum.toNat < 8192) :
    (byteNum * 8 + bitIdx.toUInt16).toUInt32.toNat = 8 * byteNum.toNat + bitIdx.toNat := by
  rw [UInt16.toNat_toUInt32, UInt16.toNat_add, UInt16.toNat_mul, UInt8.toNat_toUInt16]
  have h8 : (8 : UInt16).toNat = 8 := rfl
  rw [h8]
  omega

/-- A read of a bit gives the bit of the memory. -/
theorem readBit_served {s s' : Session} {byteNum : UInt16} {bitIdx : UInt8} {answers : List Answer}
    {xs : List Exchange} {r : Except S7Error Bool} (hs : s.Ready 18)
    (harea : area ∈ ([0x81, 0x82, 0x83, 0x84] : List UInt8)) (hbit : bitIdx.toNat ≤ 7)
    (hbyte : byteNum.toNat < 8192) (h : readBit s area db byteNum bitIdx answers = some (s', xs, r))
    (hserved : ServedBy m xs answers m') :
    m' = m ∧ s'.stream = [] ∧ s'.pduLength = s.pduLength ∧
      r = m.bit area db (8 * byteNum.toNat + bitIdx.toNat) := by
  have hstart := toNat_bitStart hbit hbyte
  unfold readBit at h
  rw [if_neg (bitIdx_le hbit)] at h
  obtain ⟨⟨t, ys, b⟩, hread, heq⟩ := Option.map_eq_some_iff.mp h
  cases heq
  unfold readArea at hread
  rw [if_neg (by simp [harea])] at hread
  have helements : elements 0x01 1 = 1 := rfl
  have hcount := readCount_bit hs
  have hroom := readRoom hs (1 - 0)
  rw [hcount] at hroom
  rw [helements] at hread
  cases answers with
  | nil =>
    unfold readChunks at hread
    rw [if_neg (by decide)] at hread
    cases hread
  | cons a answers =>
    obtain ⟨zs, rfl⟩ := readChunks_head (by decide) hread
    unfold readChunks at hread
    rw [if_neg (by decide)] at hread
    dsimp only at hread
    rw [hcount] at hread hserved
    obtain ⟨hreplies, hrest⟩ := hserved
    rw [telegram_transact] at hreplies hrest
    have hserve := serve_readBit m area db (byteNum * 8 + bitIdx.toUInt16).toUInt32
      (by rw [hstart]; have := bitIdx.toNat_lt; omega)
    rw [hstart] at hserve
    obtain ⟨body, htransact, hpayload⟩ := transact_read hs hroom (congrArg Prod.snd hserve)
      ((told_bytes.map _).map _) (resultData_bit _) hreplies
    rw [hserve] at hrest
    rw [htransact] at hread
    simp only [map_snd_tagged, hpayload] at hread
    cases hbit : m.bit area db (8 * byteNum.toNat + bitIdx.toNat) with
    | error e =>
      rw [hbit] at hread
      cases hread
      exact ⟨hrest, hs.stream, rfl, rfl⟩
    | ok v =>
      rw [hbit] at hread
      obtain ⟨⟨u, ws, r'⟩, hrec, heq⟩ := Option.map_eq_some_iff.mp hread
      cases heq
      unfold readChunks at hrec
      rw [if_pos (by decide)] at hrec
      cases hrec
      refine ⟨hrest, hs.stream, rfl, ?_⟩
      cases v <;> rfl

/-- A telegram that writes gets what the CPU makes of it. -/
theorem transact_write {s : Session} {wordlen : UInt8} {start : UInt32} {chunk : List UInt8} {a : Answer}
    {r : Except S7Error Memory} (hs : s.Ready 28)
    (hserve : serve m (writeTelegram area db wordlen start chunk) = wrote m r) (ht : Told r)
    (h : Replies (writeTelegram area db wordlen start chunk)
      (serve m (writeTelegram area db wordlen start chunk)).2 a) :
    ∃ body : List UInt8, transact writeAdmits s (writeTelegram area db wordlen start chunk) a =
        ({ s with sent := s.sent ++ [writeTelegram area db wordlen start chunk] },
          ⟨s.sent.length, writeTelegram area db wordlen start chunk,
            .ok (body.map (s.sent.length, ·))⟩) ∧
      writeResult body = r.map fun _ => () := by
  rw [hserve] at h
  have hhead : headOf (writeTelegram area db wordlen start chunk) = 15 := if_neg (by simp [writeTelegram])
  have hnone : (resultData (wrote m r).2).length = 0 := by
    cases r <;> rfl
  have hleast := hs.atLeast
  have hmost := hs.atMost
  obtain ⟨body, htransact, hcode, -⟩ := transact_replies hs.stream h
    (writeAdmits_iff.mpr (by rw [hhead, hnone]; decide)) (by rw [hhead, hnone]; omega)
  refine ⟨body, htransact, ?_⟩
  cases r with
  | ok m1 => exact writeResult_eq (r := .ok []) hcode fun e he => by cases he
  | error e => exact writeResult_eq (r := .error e) hcode fun e' he => ht e' (by cases he; rfl)

/-- Whatever comes of it, the first exchange of a write is the one for its first
chunk. -/
theorem writeChunks_head {wordlen : UInt8} {datasize offset : ℕ} {a : Answer} {answers : List Answer}
    {s s' : Session} {start : UInt32} {buffer : List UInt8} {xs : List Exchange}
    {r : Except S7Error Unit} (hle : ¬ datasize ≤ offset)
    (h : writeChunks area db wordlen datasize buffer (a :: answers) s offset start = some (s', xs, r)) :
    ∃ ys, xs = (transact writeAdmits s (writeTelegram area db wordlen start ((buffer.drop offset).take
      (min (datasize - offset) (s.pduLength - 28).toNat))) a).2 :: ys := by
  unfold writeChunks at h
  rw [if_neg hle] at h
  dsimp only at h
  split at h
  · cases h
    exact ⟨_, rfl⟩
  · split at h
    · cases h
      exact ⟨_, rfl⟩
    · obtain ⟨y, -, heq⟩ := Option.map_eq_some_iff.mp h
      cases heq
      exact ⟨_, rfl⟩

/-- What a write came to: the result of writing all of `data`, and a beginning of it
in the memory, which is all of it if the write succeeded. -/
structure Written (m : Memory) (area : UInt8) (db : UInt16) (first : ℕ) (data : List UInt8)
    (r : Except S7Error Unit) (m' : Memory) : Prop where
  result : r = (m.write area db first data).map fun _ => ()
  part : ∃ k ≤ data.length, m.write area db first (data.take k) = .ok m' ∧ (r = .ok () → k = data.length)

theorem Written.none {first : ℕ} : Written m area db first [] (.ok ()) m where
  result := by simp [Memory.write, Except.map]
  part := ⟨0, Nat.le_refl 0, by simp [Memory.write], fun _ => rfl⟩

theorem Written.refused {first : ℕ} {chunk data : List UInt8} {e : S7Error}
    (h : m.write area db first chunk = .error e) :
    Written m area db first (chunk ++ data) (.error e) m where
  result := by
    rw [Memory.write_append, h]
    rfl
  part := ⟨0, Nat.zero_le _, by simp [Memory.write], fun he => by cases he⟩

theorem Written.append {m1 : Memory} {first : ℕ} {chunk data : List UInt8} {r : Except S7Error Unit}
    (h : m.write area db first chunk = .ok m1)
    (hrest : Written m1 area db (first + chunk.length) data r m') :
    Written m area db first (chunk ++ data) r m' where
  result := by
    rw [Memory.write_append, h]
    exact hrest.result
  part := by
    obtain ⟨k, hk, hwrite, hall⟩ := hrest.part
    refine ⟨chunk.length + k, by rw [List.length_append]; omega, ?_, fun hr => ?_⟩
    · rw [List.take_length_add_append, Memory.write_append, h]
      exact hwrite
    · rw [hall hr, List.length_append]

/-- The telegrams of a write leave the data from `offset` on in the memory, or the
chunks before the one that is refused. -/
theorem writeChunks_served {datasize first : ℕ} {buffer : List UInt8}
    (hfirst : 8 * (first + datasize) < 2 ^ 24) (hbuffer : datasize ≤ buffer.length) :
    ∀ {answers : List Answer} {s s' : Session} {m m' : Memory} {offset : ℕ} {longStart : UInt32}
      {xs : List Exchange} {r : Except S7Error Unit}, s.Ready 28 → longStart.toNat = first + offset →
      writeChunks area db 0x02 datasize buffer answers s offset longStart = some (s', xs, r) →
      ServedBy m xs answers m' →
      s'.stream = [] ∧ s'.pduLength = s.pduLength ∧
        Written m area db (first + offset) ((buffer.drop offset).take (datasize - offset)) r m' := by
  intro answers
  induction answers with
  | nil =>
    intro s s' m m' offset longStart xs r hs hstart h hserved
    unfold writeChunks at h
    by_cases hle : datasize ≤ offset
    · rw [if_pos hle] at h
      cases h
      rw [Nat.sub_eq_zero_of_le hle, List.take_zero]
      obtain rfl : m' = m := hserved
      exact ⟨hs.stream, rfl, .none⟩
    · rw [if_neg hle] at h
      cases h
  | cons a answers ih =>
    intro s s' m m' offset longStart xs r hs hstart h hserved
    by_cases hle : datasize ≤ offset
    · unfold writeChunks at h
      rw [if_pos hle] at h
      cases h
      rw [Nat.sub_eq_zero_of_le hle, List.take_zero]
      obtain rfl : m' = m := hserved
      exact ⟨hs.stream, rfl, .none⟩
    · obtain ⟨ys, rfl⟩ := writeChunks_head hle h
      unfold writeChunks at h
      rw [if_neg hle] at h
      dsimp only at h
      have hroom := toNat_writeRoom hs
      have hleast := hs.atLeast
      have hmost := hs.atMost
      obtain ⟨count, hcount⟩ : ∃ count, count = min (datasize - offset) (s.pduLength - 28).toNat := ⟨_, rfl⟩
      rw [← hcount] at h hserved
      obtain ⟨chunk, hchunk⟩ : ∃ chunk, chunk = (buffer.drop offset).take count := ⟨_, rfl⟩
      rw [← hchunk] at h hserved
      have hlen : chunk.length = count := by
        rw [hchunk, List.length_take, List.length_drop]
        omega
      obtain ⟨hreplies, hrest⟩ := hserved
      rw [telegram_transact] at hreplies hrest
      have hsmall : 8 * chunk.length < 65536 := by omega
      have hserve := serve_writeBytes m area db longStart hsmall (by omega)
      obtain ⟨body, htransact, hresult⟩ := transact_write hs hserve told_write hreplies
      rw [hserve] at hrest
      rw [htransact] at h
      simp only [map_snd_tagged, hresult] at h
      -- the data from here on are this chunk and the data from the next one on
      have hsplit : (buffer.drop offset).take (datasize - offset) =
          chunk ++ (buffer.drop (offset + count)).take (datasize - (offset + count)) := by
        have hadd : datasize - offset = count + (datasize - (offset + count)) := by omega
        rw [hadd, List.take_add, ← hchunk, List.drop_drop]
      rw [hsplit, ← hstart]
      cases hwrite : m.write area db longStart.toNat chunk with
      | error e =>
        rw [hwrite] at h hrest
        cases h
        obtain rfl : m' = m := hrest
        exact ⟨hs.stream, rfl, .refused hwrite⟩
      | ok m1 =>
        rw [hwrite] at h hrest
        obtain ⟨⟨t, zs, r'⟩, hrec, heq⟩ := Option.map_eq_some_iff.mp h
        cases heq
        have hnext : (longStart + .ofNat count).toNat = first + (offset + count) := by
          rw [UInt32.toNat_add, UInt32.toNat_ofNat']
          omega
        obtain ⟨hstream, hpdu, hwritten⟩ := ih (hs.sent _) hnext hrec hrest
        refine ⟨hstream, hpdu, .append hwrite ?_⟩
        rw [hlen, hstart, Nat.add_assoc]
        exact hwritten

theorem writeArea_served {s s' : Session} {start : UInt16} {data : List UInt8} {answers : List Answer}
    {xs : List Exchange} {r : Except S7Error Unit} (hs : s.Ready 28)
    (harea : area ∈ ([0x81, 0x82, 0x83, 0x84] : List UInt8)) (hlen : data.length ≤ 65535)
    (h : writeArea s area db start 0x02 data answers = some (s', xs, r)) (hserved : ServedBy m xs answers m') :
    s'.stream = [] ∧ s'.pduLength = s.pduLength ∧ Written m area db start.toNat data r m' := by
  unfold writeArea at h
  rw [if_neg (by simp [harea]), if_neg (by simp), if_pos rfl, Nat.min_eq_left hlen] at h
  have hstart := start.toNat_lt
  have hfits : 8 * (start.toNat + data.length) < 2 ^ 24 := by omega
  obtain ⟨hstream, hpdu, hwritten⟩ := writeChunks_served hfits (Nat.le_refl _) hs
    (UInt16.toNat_toUInt32 start) h hserved
  rw [List.drop_zero, Nat.sub_zero, List.take_length] at hwritten
  exact ⟨hstream, hpdu, hwritten⟩

/-- A bit is written in one telegram, or not at all. -/
theorem writeBit_served {s s' : Session} {byteNum : UInt16} {bitIdx : UInt8} {v : Bool}
    {answers : List Answer} {xs : List Exchange} {r : Except S7Error Unit} (hs : s.Ready 28)
    (harea : area ∈ ([0x81, 0x82, 0x83, 0x84] : List UInt8)) (hbit : bitIdx.toNat ≤ 7)
    (hbyte : byteNum.toNat < 8192) (h : writeBit s area db byteNum bitIdx v answers = some (s', xs, r))
    (hserved : ServedBy m xs answers m') :
    s'.stream = [] ∧ s'.pduLength = s.pduLength ∧
      r = (m.writeBit area db (8 * byteNum.toNat + bitIdx.toNat) v).map (fun _ => ()) ∧
      m' = (wrote m (m.writeBit area db (8 * byteNum.toNat + bitIdx.toNat) v)).1 := by
  unfold writeBit at h
  rw [if_neg (bitIdx_le hbit)] at h
  unfold writeArea at h
  rw [if_neg (by simp [harea]), if_neg (by simp), if_neg (by decide)] at h
  have hstart := toNat_bitStart hbit hbyte
  cases answers with
  | nil =>
    unfold writeChunks at h
    rw [if_neg (by decide)] at h
    cases h
  | cons a answers =>
    obtain ⟨ys, rfl⟩ := writeChunks_head (by decide) h
    unfold writeChunks at h
    rw [if_neg (by decide)] at h
    dsimp only at h
    rw [writeCount_bit hs, List.drop_zero, List.take_of_length_le (Nat.le_refl 1)] at h hserved
    obtain ⟨hreplies, hrest⟩ := hserved
    rw [telegram_transact] at hreplies hrest
    have hserve := serve_writeBit m area db (byteNum * 8 + bitIdx.toUInt16).toUInt32 v
      (by rw [hstart]; omega)
    rw [hstart] at hserve
    obtain ⟨body, htransact, hresult⟩ := transact_write hs hserve
      (told_bytes.bind fun _ => told_write) hreplies
    rw [hserve] at hrest
    rw [htransact] at h
    simp only [map_snd_tagged, hresult] at h
    cases hwrite : m.writeBit area db (8 * byteNum.toNat + bitIdx.toNat) v with
    | error e =>
      rw [hwrite] at h hrest
      cases h
      exact ⟨hs.stream, rfl, rfl, hrest⟩
    | ok m1 =>
      rw [hwrite] at h hrest
      obtain ⟨⟨t, zs, r'⟩, hrec, heq⟩ := Option.map_eq_some_iff.mp h
      cases heq
      unfold writeChunks at hrec
      rw [if_pos (by decide)] at hrec
      cases hrec
      exact ⟨hs.stream, rfl, rfl, hrest⟩

end

/-! ### Operations -/

/-- The operations of the client on an area. -/
inductive Op where
  | readArea (area : UInt8) (db start : UInt16) (len : ℕ)
  | readBit (area : UInt8) (db byteNum : UInt16) (bitIdx : UInt8)
  | writeArea (area : UInt8) (db start : UInt16) (data : List UInt8)
  | writeBit (area : UInt8) (db byteNum : UInt16) (bitIdx : UInt8) (value : Bool)

inductive Outcome where
  | bytes (data : List UInt8)
  | bit (value : Bool)
  | done
  deriving DecidableEq

/-- The operation on a session; `read_area` and `write_area` for bytes. -/
def Op.run (s : Session) (answers : List Answer) :
    Op → Option (Session × List Exchange × Except S7Error Outcome)
  | .readArea area db start len =>
    (S7.readArea s area db start 0x02 len answers).map fun y => (y.1, y.2.1, y.2.2.map .bytes)
  | .readBit area db byteNum bitIdx =>
    (S7.readBit s area db byteNum bitIdx answers).map fun y => (y.1, y.2.1, y.2.2.map .bit)
  | .writeArea area db start data =>
    (S7.writeArea s area db start 0x02 data answers).map fun y => (y.1, y.2.1, y.2.2.map fun _ => .done)
  | .writeBit area db byteNum bitIdx value =>
    (S7.writeBit s area db byteNum bitIdx value answers).map fun y =>
      (y.1, y.2.1, y.2.2.map fun _ => .done)

/-- The operation names an area, and what it moves has a start and a length of 16
bits. -/
def Op.Fits : Op → Prop
  | .readArea area _ _ len => area ∈ ([0x81, 0x82, 0x83, 0x84] : List UInt8) ∧ len ≤ 65535
  | .readBit area _ byteNum bitIdx =>
    area ∈ ([0x81, 0x82, 0x83, 0x84] : List UInt8) ∧ bitIdx.toNat ≤ 7 ∧ byteNum.toNat < 8192
  | .writeArea area _ _ data => area ∈ ([0x81, 0x82, 0x83, 0x84] : List UInt8) ∧ data.length ≤ 65535
  | .writeBit area _ byteNum bitIdx _ =>
    area ∈ ([0x81, 0x82, 0x83, 0x84] : List UInt8) ∧ bitIdx.toNat ≤ 7 ∧ byteNum.toNat < 8192

instance : (op : Op) → Decidable op.Fits
  | .readArea area _ _ len =>
    inferInstanceAs (Decidable (area ∈ ([0x81, 0x82, 0x83, 0x84] : List UInt8) ∧ len ≤ 65535))
  | .readBit area _ byteNum bitIdx =>
    inferInstanceAs (Decidable (area ∈ ([0x81, 0x82, 0x83, 0x84] : List UInt8) ∧ bitIdx.toNat ≤ 7 ∧
      byteNum.toNat < 8192))
  | .writeArea area _ _ data =>
    inferInstanceAs (Decidable (area ∈ ([0x81, 0x82, 0x83, 0x84] : List UInt8) ∧ data.length ≤ 65535))
  | .writeBit area _ byteNum bitIdx _ =>
    inferInstanceAs (Decidable (area ∈ ([0x81, 0x82, 0x83, 0x84] : List UInt8) ∧ bitIdx.toNat ≤ 7 ∧
      byteNum.toNat < 8192))

/-- The operation on a memory: what it gives, and the memory after it. -/
def Op.On (m : Memory) (r : Except S7Error Outcome) (m' : Memory) : Op → Prop
  | .readArea area db start len => m' = m ∧ r = (m.bytes area db start.toNat len).map .bytes
  | .readBit area db byteNum bitIdx =>
    m' = m ∧ r = (m.bit area db (8 * byteNum.toNat + bitIdx.toNat)).map .bit
  | .writeArea area db start data =>
    ∃ u, r = u.map (fun _ => .done) ∧ Written m area db start.toNat data u m'
  | .writeBit area db byteNum bitIdx value =>
    let w := m.writeBit area db (8 * byteNum.toNat + bitIdx.toNat) value
    r = w.map (fun _ => .done) ∧ m' = (wrote m w).1

section

variable {s s' : Session} {m m' : Memory} {op : Op} {answers : List Answer} {xs : List Exchange}
  {r : Except S7Error Outcome}

/-- An operation on a session, served by a CPU, is the operation on its memory. -/
theorem op_served (hs : s.Ready 28) (hfits : op.Fits) (h : op.run s answers = some (s', xs, r))
    (hserved : ServedBy m xs answers m') : s'.Ready 28 ∧ op.On m r m' := by
  have hread : s.Ready 18 := ⟨hs.stream, Nat.lt_trans (by decide) hs.atLeast, hs.atMost⟩
  have hready : s'.stream = [] → s'.pduLength = s.pduLength → s'.Ready 28 := fun hstream hpdu =>
    ⟨hstream, hpdu ▸ hs.atLeast, hpdu ▸ hs.atMost⟩
  cases op with
  | readArea area db start len =>
    obtain ⟨⟨t, ys, u⟩, hrun, heq⟩ := Option.map_eq_some_iff.mp h
    cases heq
    obtain ⟨hm, hstream, hpdu, hu⟩ := readArea_served hread hfits.1 hfits.2 hrun hserved
    exact ⟨hready hstream hpdu, hm, congrArg _ hu⟩
  | readBit area db byteNum bitIdx =>
    obtain ⟨⟨t, ys, u⟩, hrun, heq⟩ := Option.map_eq_some_iff.mp h
    cases heq
    obtain ⟨hm, hstream, hpdu, hu⟩ := readBit_served hread hfits.1 hfits.2.1 hfits.2.2 hrun hserved
    exact ⟨hready hstream hpdu, hm, congrArg _ hu⟩
  | writeArea area db start data =>
    obtain ⟨⟨t, ys, u⟩, hrun, heq⟩ := Option.map_eq_some_iff.mp h
    cases heq
    obtain ⟨hstream, hpdu, hwritten⟩ := writeArea_served hs hfits.1 hfits.2 hrun hserved
    exact ⟨hready hstream hpdu, u, rfl, hwritten⟩
  | writeBit area db byteNum bitIdx value =>
    obtain ⟨⟨t, ys, u⟩, hrun, heq⟩ := Option.map_eq_some_iff.mp h
    cases heq
    obtain ⟨hstream, hpdu, hu, hm⟩ := writeBit_served hs hfits.1 hfits.2.1 hfits.2.2 hrun hserved
    refine ⟨hready hstream hpdu, ?_, hm⟩
    rw [hu]
    cases m.writeBit area db (8 * byteNum.toNat + bitIdx.toNat) value <;> rfl

end

/-! ### Runs -/

/-- Operations one after another on a session, each served by the CPU: what they give,
and the session and the memory after them. -/
inductive Ran : Session → Memory → List Op → List (Except S7Error Outcome) → Session → Memory → Prop where
  | none {s : Session} {m : Memory} : Ran s m [] [] s m
  | one {s t s' : Session} {m n m' : Memory} {op : Op} {ops : List Op} {answers : List Answer}
      {xs : List Exchange} {r : Except S7Error Outcome} {rs : List (Except S7Error Outcome)}
      (run : op.run s answers = some (t, xs, r)) (served : ServedBy m xs answers n)
      (rest : Ran t n ops rs s' m') : Ran s m (op :: ops) (r :: rs) s' m'

/-- The same operations on the memory. -/
inductive AllOn : Memory → List Op → List (Except S7Error Outcome) → Memory → Prop where
  | none {m : Memory} : AllOn m [] [] m
  | one {m n m' : Memory} {op : Op} {ops : List Op} {r : Except S7Error Outcome}
      {rs : List (Except S7Error Outcome)} (on : op.On m r n) (rest : AllOn n ops rs m') :
      AllOn m (op :: ops) (r :: rs) m'

/-- What a run gives, the operations give on the memory. -/
theorem allOn_of_ran {s s' : Session} {m m' : Memory} {ops : List Op}
    {rs : List (Except S7Error Outcome)} (hs : s.Ready 28) (hfits : ∀ op ∈ ops, op.Fits)
    (h : Ran s m ops rs s' m') : AllOn m ops rs m' := by
  induction h with
  | none => exact .none
  | one hrun hserved _ ih =>
    obtain ⟨hop, hops⟩ := List.forall_mem_cons.mp hfits
    obtain ⟨hready, hon⟩ := op_served hs hop hrun hserved
    exact .one hon (ih hready hops)

/-! ### What stays -/

/-- The operation does not write the bit with the number `a`. -/
def Op.Spares (area : UInt8) (db : UInt16) (a : ℕ) : Op → Prop
  | .readArea .. => True
  | .readBit .. => True
  | .writeArea area' db' start data =>
    (area, db) ≠ (area', db') ∨ a / 8 < start.toNat ∨ start.toNat + data.length ≤ a / 8
  | .writeBit area' db' byteNum bitIdx _ => (area, db, a) ≠ (area', db', 8 * byteNum.toNat + bitIdx.toNat)

section

variable {m m' : Memory} {op : Op} {r : Except S7Error Outcome} {area : UInt8} {db : UInt16}

theorem bit_of_spares {a : ℕ} (h : op.On m r m') (hs : op.Spares area db a) :
    m'.bit area db a = m.bit area db a := by
  cases op with
  | readArea => rw [h.1]
  | readBit => rw [h.1]
  | writeArea area' db' start data =>
    obtain ⟨u, -, hwritten⟩ := h
    obtain ⟨k, hk, hwrite, -⟩ := hwritten.part
    have hle : (data.take k).length ≤ data.length := List.length_take_le' k data
    unfold Memory.bit
    rw [Memory.bytes_of_write_apart hwrite (hs.imp_right fun hout => by omega)]
  | writeBit area' db' byteNum bitIdx value =>
    obtain ⟨-, rfl⟩ := h
    cases hw : m.writeBit area' db' (8 * byteNum.toNat + bitIdx.toNat) value with
    | error e => rfl
    | ok n => exact (Memory.bit_of_writeBit hw).trans (if_neg hs)

/-- Bytes no bit of which is written stay as they are. -/
theorem bytes_of_spares {first n : ℕ} (hfits : op.Fits) (h : op.On m r m')
    (hs : ∀ a, first ≤ a / 8 → a / 8 < first + n → op.Spares area db a) :
    m'.bytes area db first n = m.bytes area db first n := by
  by_cases hn : n = 0
  · subst hn
    rfl
  cases op with
  | readArea => rw [h.1]
  | readBit => rw [h.1]
  | writeArea area' db' start data =>
    obtain ⟨u, -, hwritten⟩ := h
    obtain ⟨k, hk, hwrite, -⟩ := hwritten.part
    have hle : (data.take k).length ≤ data.length := List.length_take_le' k data
    by_cases hnone : data = []
    · rw [hnone, List.take_nil, Memory.write, if_pos rfl] at hwrite
      rw [Except.ok.inj hwrite]
    · have hpos : 0 < data.length := List.length_pos_iff.mpr hnone
      apply Memory.bytes_of_write_apart hwrite
      by_cases hblock : (area, db) = (area', db')
      · -- a byte of both would have bits that are not spared
        have hout : first ≤ max first start.toNat → max first start.toNat < first + n →
            max first start.toNat < start.toNat ∨ start.toNat + data.length ≤ max first start.toNat := by
          have hbyte : 8 * max first start.toNat / 8 = max first start.toNat := by omega
          have hall := hs (8 * max first start.toNat)
          rw [hbyte] at hall
          intro hle hlt
          have hspared := (hall hle hlt).resolve_left fun hne => hne hblock
          rwa [hbyte] at hspared
        exact Or.inr (by omega)
      · exact Or.inl hblock
  | writeBit area' db' byteNum bitIdx value =>
    obtain ⟨-, rfl⟩ := h
    cases hw : m.writeBit area' db' (8 * byteNum.toNat + bitIdx.toNat) value with
    | error e => rfl
    | ok n' =>
      obtain ⟨bs, -, hwrite⟩ := bind_eq_ok hw
      apply Memory.bytes_of_write_apart hwrite
      have hbit := hfits.2.1
      by_cases hblock : (area, db) = (area', db')
      · obtain ⟨rfl, rfl⟩ := Prod.mk.inj hblock
        have hout : ¬ (first ≤ (8 * byteNum.toNat + bitIdx.toNat) / 8 ∧
            (8 * byteNum.toNat + bitIdx.toNat) / 8 < first + n) := fun hin => hs _ hin.1 hin.2 rfl
        exact Or.inr (by rw [List.length_singleton]; omega)
      · exact Or.inl hblock

end

theorem AllOn.append {m m' : Memory} {ops ops' : List Op} {rs : List (Except S7Error Outcome)}
    (h : AllOn m (ops ++ ops') rs m') :
    ∃ us vs n, rs = us ++ vs ∧ AllOn m ops us n ∧ AllOn n ops' vs m' := by
  induction ops generalizing m rs with
  | nil => exact ⟨[], rs, m, rfl, .none, h⟩
  | cons op ops ih =>
    obtain _ | ⟨hon, hrest⟩ := h
    obtain ⟨us, vs, n, rfl, hfirst, hsecond⟩ := ih hrest
    exact ⟨_ :: us, vs, n, rfl, .one hon hfirst, hsecond⟩

/-- What all operations of a run keep of the memory, the run keeps. -/
theorem AllOn.keeps {α : Type} (f : Memory → α) {m m' : Memory} {ops : List Op}
    {rs : List (Except S7Error Outcome)} (h : AllOn m ops rs m')
    (hkeep : ∀ op ∈ ops, ∀ n r n', op.On n r n' → f n' = f n) : f m' = f m := by
  induction h with
  | none => rfl
  | one hon _ ih =>
    obtain ⟨hop, hops⟩ := List.forall_mem_cons.mp hkeep
    exact (ih hops).trans (hop _ _ _ hon)

/-! ### Every operation returns -/

/-- There is an answer that carries a result of at most 480 bytes. -/
theorem exists_replies (t : List UInt8) {r : Except S7Error (List UInt8)}
    (hr : (resultData r).length ≤ 480) : ∃ a, Replies t r a := by
  obtain ⟨body, hbody⟩ : ∃ body : List UInt8, body = List.replicate 14 0 ++
      returnCode r :: List.replicate (headOf t - 15) 0 ++ resultData r := ⟨_, rfl⟩
  have hhead : 15 ≤ headOf t ∧ headOf t ≤ 18 := by
    unfold headOf
    split <;> decide
  have hlen : body.length = headOf t + (resultData r).length := by
    rw [hbody]
    simp only [List.length_append, List.length_replicate, List.length_cons]
    omega
  have hreply : (telegramOf body).length = 7 + body.length := by
    rw [telegramOf, List.length_append]
    rfl
  have hframed : telegramLength (telegramOf body) = (telegramOf body).length := by
    have h : telegramLength (telegramOf body) =
        makeU16 (hiPart (.ofNat (7 + body.length))) (loPart (.ofNat (7 + body.length))) := rfl
    rw [h, makeU16_parts, UInt16.toNat_ofNat', Nat.mod_eq_of_lt (by omega), hreply]
  refine ⟨⟨telegramOf body, hframed, 7, body.length, ""⟩, ⟨Nat.le_refl 7, Nat.le_of_eq hreply⟩,
    List.replicate 14 0, List.replicate (headOf t - 15) 0, List.length_replicate, ?_, ?_⟩
  · rw [List.length_replicate]
    omega
  · exact congrArg telegramOf hbody

section

variable {m : Memory} {area : UInt8} {db : UInt16}

/-- The CPU answers a telegram that reads, and the client reads the answer. -/
theorem answered_read {s : Session} {wordlen : UInt8} {start : UInt32} {count : UInt16}
    {r : Except S7Error (List UInt8)} (hs : s.Ready 18) (hcount : 18 + count.toNat ≤ s.pduLength.toNat)
    (hserve : serve m (readTelegram area db wordlen start count) = (m, r)) (ht : Told r)
    (hdata : (resultData r).length ≤ count.toNat) :
    ∃ (a : Answer) (body : List UInt8),
      Replies (readTelegram area db wordlen start count)
        (serve m (readTelegram area db wordlen start count)).2 a ∧
      transact readAdmits s (readTelegram area db wordlen start count) a =
        ({ s with sent := s.sent ++ [readTelegram area db wordlen start count] },
          ⟨s.sent.length, readTelegram area db wordlen start count, .ok (body.map (s.sent.length, ·))⟩) ∧
      readPayload body count = r := by
  have hmost := hs.atMost
  have hr : (serve m (readTelegram area db wordlen start count)).2 = r := congrArg Prod.snd hserve
  obtain ⟨a, ha⟩ := exists_replies (readTelegram area db wordlen start count)
    (Nat.le_trans hdata (by omega) : (resultData r).length ≤ 480)
  rw [← hr] at ha
  obtain ⟨body, htransact, hpayload⟩ := transact_read hs hcount hr ht hdata ha
  exact ⟨a, body, ha, htransact, hpayload⟩

theorem answered_write {s : Session} {wordlen : UInt8} {start : UInt32} {chunk : List UInt8}
    {r : Except S7Error Memory} (hs : s.Ready 28)
    (hserve : serve m (writeTelegram area db wordlen start chunk) = wrote m r) (ht : Told r) :
    ∃ (a : Answer) (body : List UInt8),
      Replies (writeTelegram area db wordlen start chunk)
        (serve m (writeTelegram area db wordlen start chunk)).2 a ∧
      transact writeAdmits s (writeTelegram area db wordlen start chunk) a =
        ({ s with sent := s.sent ++ [writeTelegram area db wordlen start chunk] },
          ⟨s.sent.length, writeTelegram area db wordlen start chunk,
            .ok (body.map (s.sent.length, ·))⟩) ∧
      writeResult body = r.map fun _ => () := by
  have hnone : (resultData (wrote m r).2).length ≤ 480 := by
    cases r <;> exact Nat.zero_le 480
  rw [← hserve] at hnone
  obtain ⟨a, ha⟩ := exists_replies (writeTelegram area db wordlen start chunk) hnone
  obtain ⟨body, htransact, hresult⟩ := transact_write hs hserve ht ha
  exact ⟨a, body, ha, htransact, hresult⟩

/-- A read of bytes returns, if the CPU answers its telegrams: each chunk has a byte at
least. -/
theorem readChunks_return {datasize : UInt16} {first : ℕ} (hfirst : 8 * (first + datasize.toNat) < 2 ^ 24)
    (n : ℕ) : ∀ {s : Session} {offset : UInt16} {longStart : UInt32} (buffer : List UInt8), s.Ready 18 →
      datasize.toNat - offset.toNat ≤ n → longStart.toNat = first + offset.toNat →
      ∃ answers s' xs r, readChunks area db 0x02 datasize answers s offset longStart buffer =
        some (s', xs, r) ∧ ServedBy m xs answers m := by
  induction n with
  | zero =>
    intro s offset longStart buffer hs hn hstart
    have hle : datasize ≤ offset := UInt16.le_iff_toNat_le.mpr (by omega)
    refine ⟨[], s, [], .ok buffer, ?_, rfl⟩
    unfold readChunks
    rw [if_pos hle]
  | succ n ih =>
    intro s offset longStart buffer hs hn hstart
    by_cases hle : datasize ≤ offset
    · refine ⟨[], s, [], .ok buffer, ?_, rfl⟩
      unfold readChunks
      rw [if_pos hle]
    · have hchunk := chunk_le hle (s.pduLength - 18)
      have hroom := readRoom hs (datasize - offset)
      have hsome := readCount_pos hs hle
      obtain ⟨count, hcount⟩ : ∃ count, count = min (datasize - offset) (s.pduLength - 18) := ⟨_, rfl⟩
      rw [← hcount] at hchunk hroom hsome
      have hserve := serve_readBytes m area db longStart count (by omega)
      have hmem : (serve m (readTelegram area db 0x02 longStart count)).1 = m := congrArg Prod.fst hserve
      obtain ⟨a, body, hreplies, htransact, hpayload⟩ := answered_read hs hroom hserve told_bytes
        resultData_length
      cases hbytes : m.bytes area db longStart.toNat count.toNat with
      | error e =>
        refine ⟨[a], { s with sent := s.sent ++ [readTelegram area db 0x02 longStart count] },
          [⟨s.sent.length, readTelegram area db 0x02 longStart count, .ok (body.map (s.sent.length, ·))⟩],
          .error e, ?_, hreplies, hmem.symm⟩
        unfold readChunks
        rw [if_neg hle]
        dsimp only
        rw [← hcount, htransact]
        simp only [map_snd_tagged, hpayload, hbytes]
      | ok payload =>
        have hoffset := toNat_add_chunk hchunk
        have hnext : (longStart + count.toUInt32).toNat = first + (offset + count).toNat := by
          rw [hoffset, UInt32.toNat_add, UInt16.toNat_toUInt32]
          omega
        obtain ⟨answers, s', xs, r, hrec, hserved⟩ := ih (copyAt buffer offset.toNat payload)
          (hs.sent (readTelegram area db 0x02 longStart count)) (by omega) hnext
        refine ⟨a :: answers, s', ⟨s.sent.length, readTelegram area db 0x02 longStart count,
          .ok (body.map (s.sent.length, ·))⟩ :: xs, r, ?_, hreplies, by rw [hmem]; exact hserved⟩
        unfold readChunks
        rw [if_neg hle]
        dsimp only
        rw [← hcount, htransact]
        simp only [map_snd_tagged, hpayload, hbytes, hrec]
        rfl

theorem writeChunks_return {datasize first : ℕ} {buffer : List UInt8}
    (hfirst : 8 * (first + datasize) < 2 ^ 24) (hbuffer : datasize ≤ buffer.length) (n : ℕ) :
    ∀ (m : Memory) {s : Session} {offset : ℕ} {longStart : UInt32}, s.Ready 28 → datasize - offset ≤ n →
      longStart.toNat = first + offset →
      ∃ answers s' xs r m', writeChunks area db 0x02 datasize buffer answers s offset longStart =
        some (s', xs, r) ∧ ServedBy m xs answers m' := by
  induction n with
  | zero =>
    intro m s offset longStart hs hn hstart
    refine ⟨[], s, [], .ok (), m, ?_, rfl⟩
    unfold writeChunks
    rw [if_pos (by omega)]
  | succ n ih =>
    intro m s offset longStart hs hn hstart
    by_cases hle : datasize ≤ offset
    · refine ⟨[], s, [], .ok (), m, ?_, rfl⟩
      unfold writeChunks
      rw [if_pos hle]
    · have hroom := toNat_writeRoom hs
      have hleast := hs.atLeast
      have hmost := hs.atMost
      obtain ⟨count, hcount⟩ : ∃ count, count = min (datasize - offset) (s.pduLength - 28).toNat := ⟨_, rfl⟩
      obtain ⟨chunk, hchunk⟩ : ∃ chunk, chunk = (buffer.drop offset).take count := ⟨_, rfl⟩
      have hlen : chunk.length = count := by
        rw [hchunk, List.length_take, List.length_drop]
        omega
      have hsmall : 8 * chunk.length < 65536 := by omega
      have hserve := serve_writeBytes m area db longStart hsmall (by omega)
      obtain ⟨a, body, hreplies, htransact, hresult⟩ := answered_write hs hserve told_write
      cases hwrite : m.write area db longStart.toNat chunk with
      | error e =>
        have hmem : (serve m (writeTelegram area db 0x02 longStart chunk)).1 = m := by
          rw [hserve, hwrite]
          rfl
        refine ⟨[a], { s with sent := s.sent ++ [writeTelegram area db 0x02 longStart chunk] },
          [⟨s.sent.length, writeTelegram area db 0x02 longStart chunk, .ok (body.map (s.sent.length, ·))⟩],
          .error e, m, ?_, hreplies, hmem.symm⟩
        unfold writeChunks
        rw [if_neg hle]
        dsimp only
        rw [← hcount, ← hchunk, htransact]
        simp only [map_snd_tagged, hresult, hwrite]
        rfl
      | ok m1 =>
        have hmem : (serve m (writeTelegram area db 0x02 longStart chunk)).1 = m1 := by
          rw [hserve, hwrite]
          rfl
        have hnext : (longStart + .ofNat count).toNat = first + (offset + count) := by
          rw [UInt32.toNat_add, UInt32.toNat_ofNat']
          omega
        obtain ⟨answers, s', xs, r, m', hrec, hserved⟩ := ih m1
          (hs.sent (writeTelegram area db 0x02 longStart chunk)) (by omega) hnext
        refine ⟨a :: answers, s', ⟨s.sent.length, writeTelegram area db 0x02 longStart chunk,
          .ok (body.map (s.sent.length, ·))⟩ :: xs, r, m', ?_, hreplies, by rw [hmem]; exact hserved⟩
        unfold writeChunks
        rw [if_neg hle]
        dsimp only
        rw [← hcount, ← hchunk, htransact]
        simp only [map_snd_tagged, hresult, hwrite]
        exact congrArg (Option.map _) hrec

end

/-- An operation returns, if the CPU answers its telegrams. -/
theorem op_return {s : Session} {op : Op} (m : Memory) (hs : s.Ready 28) (hfits : op.Fits) :
    ∃ answers s' xs r m', op.run s answers = some (s', xs, r) ∧ ServedBy m xs answers m' := by
  have hread : s.Ready 18 := ⟨hs.stream, Nat.lt_trans (by decide) hs.atLeast, hs.atMost⟩
  cases op with
  | readArea area db start len =>
    have hstart := start.toNat_lt
    have hsize := (elements 0x02 len).toNat_lt
    have hsmall : 8 * (start.toNat + (elements 0x02 len).toNat) < 2 ^ 24 := by omega
    have hzero : start.toUInt32.toNat = start.toNat + (0 : UInt16).toNat := UInt16.toNat_toUInt32 start
    obtain ⟨answers, s', xs, r, hrun, hserved⟩ := readChunks_return hsmall _ (List.replicate len 0) hread
      (Nat.le_refl _) hzero
    refine ⟨answers, s', xs, r.map .bytes, m, ?_, hserved⟩
    rw [Op.run, S7.readArea, if_neg (by simp [hfits.1]), hrun]
    rfl
  | readBit area db byteNum bitIdx =>
    obtain ⟨harea, hbit, hbyte⟩ := hfits
    have hstart := toNat_bitStart hbit hbyte
    obtain ⟨start, hdef⟩ : ∃ start, start = (byteNum * 8 + bitIdx.toUInt16).toUInt32 := ⟨_, rfl⟩
    rw [← hdef] at hstart
    have hroom := readRoom hread (1 - 0)
    rw [readCount_bit hread] at hroom
    have hserve := serve_readBit m area db start (by omega)
    have hmem : (serve m (readTelegram area db 0x01 start 1)).1 = m := congrArg Prod.fst hserve
    obtain ⟨a, body, hreplies, htransact, hpayload⟩ := answered_read hread hroom hserve
      ((told_bytes.map _).map _) (resultData_bit _)
    obtain ⟨t, xs, r, hrun, hserved⟩ : ∃ t xs r, readChunks area db 0x01 1 [a] s 0 start [0] =
        some (t, xs, r) ∧ ServedBy m xs [a] m := by
      refine ⟨{ s with sent := s.sent ++ [readTelegram area db 0x01 start 1] },
        [⟨s.sent.length, readTelegram area db 0x01 start 1, .ok (body.map (s.sent.length, ·))⟩],
        (m.bit area db start.toNat).map fun b => [if b then 1 else 0], ?_, hreplies, hmem.symm⟩
      unfold readChunks
      rw [if_neg (by decide)]
      dsimp only
      rw [readCount_bit hread, htransact]
      simp only [map_snd_tagged, hpayload]
      cases m.bit area db start.toNat with
      | error e => rfl
      | ok v =>
        simp only [Except.map]
        unfold readChunks
        rw [if_pos (by decide)]
        rfl
    refine ⟨[a], t, xs, (r.map fun buffer => buffer.getD 0 0 != 0).map .bit, m, ?_, hserved⟩
    have helements : elements 0x01 1 = 1 := rfl
    rw [Op.run, S7.readBit, if_neg (bitIdx_le hbit), S7.readArea, if_neg (by simp [harea]), helements, ← hdef,
      List.replicate_one, hrun]
    rfl
  | writeArea area db start data =>
    have hstart := start.toNat_lt
    have hlen : min data.length 65535 = data.length := Nat.min_eq_left hfits.2
    have hsmall : 8 * (start.toNat + data.length) < 2 ^ 24 := by
      have := hfits.2
      omega
    have hzero : start.toUInt32.toNat = start.toNat + 0 := UInt16.toNat_toUInt32 start
    obtain ⟨answers, s', xs, r, m', hrun, hserved⟩ := writeChunks_return hsmall (Nat.le_refl _) _ m hs
      (Nat.le_refl _) hzero
    refine ⟨answers, s', xs, r.map fun _ => .done, m', ?_, hserved⟩
    rw [Op.run, S7.writeArea, if_neg (by simp [hfits.1]), if_neg (by simp), if_pos rfl, hlen, hrun]
    rfl
  | writeBit area db byteNum bitIdx value =>
    obtain ⟨harea, hbit, hbyte⟩ := hfits
    have hstart := toNat_bitStart hbit hbyte
    obtain ⟨start, hdef⟩ : ∃ start, start = (byteNum * 8 + bitIdx.toUInt16).toUInt32 := ⟨_, rfl⟩
    rw [← hdef] at hstart
    have hserve := serve_writeBit m area db start value (by omega)
    obtain ⟨a, body, hreplies, htransact, hresult⟩ := answered_write hs hserve
      (told_bytes.bind fun _ => told_write)
    obtain ⟨t, xs, r, m', hrun, hserved⟩ : ∃ t xs r m', writeChunks area db 0x01 1
        [if value then 1 else 0] [a] s 0 start = some (t, xs, r) ∧ ServedBy m xs [a] m' := by
      refine ⟨{ s with sent := s.sent ++ [writeTelegram area db 0x01 start [if value then 1 else 0]] },
        [⟨s.sent.length, writeTelegram area db 0x01 start [if value then 1 else 0],
          .ok (body.map (s.sent.length, ·))⟩],
        (m.writeBit area db start.toNat value).map fun _ => (), _, ?_, hreplies, rfl⟩
      unfold writeChunks
      rw [if_neg (by decide : ¬ 1 ≤ 0)]
      dsimp only
      rw [writeCount_bit hs, List.drop_zero, List.take_of_length_le (Nat.le_refl 1), htransact]
      simp only [map_snd_tagged, hresult]
      cases m.writeBit area db start.toNat value with
      | error e => rfl
      | ok m1 =>
        simp only [Except.map]
        unfold writeChunks
        rw [if_pos (by decide : 1 ≤ 0 + 1)]
        rfl
    refine ⟨[a], t, xs, r.map fun _ => .done, m', ?_, hserved⟩
    rw [Op.run, S7.writeBit, if_neg (bitIdx_le hbit), S7.writeArea, if_neg (by simp [harea]),
      if_neg (by simp), if_neg (by simp), ← hdef, hrun]
    rfl

/-- Whatever is in the memory of the CPU, there are answers of the CPU with which the
operations return, one after another. -/
theorem exists_ran {ops : List Op} {s : Session} (m : Memory) (hs : s.Ready 28)
    (hfits : ∀ op ∈ ops, op.Fits) : ∃ rs s' m', Ran s m ops rs s' m' := by
  induction ops generalizing s m with
  | nil => exact ⟨[], s, m, .none⟩
  | cons op ops ih =>
    obtain ⟨hop, hops⟩ := List.forall_mem_cons.mp hfits
    obtain ⟨answers, t, xs, r, n, hrun, hserved⟩ := op_return m hs hop
    obtain ⟨rs, s', m', hrest⟩ := ih n (op_served hs hop hrun hserved).1 hops
    exact ⟨r :: rs, s', m', .one hrun hserved hrest⟩

/-! ### Operations on a session are operations on the memory -/

/-- A CPU with one data block of eight bytes, and a session whose telegrams have room
for two bytes of a write. -/
def oneBlock : Memory := fun area db => if area = 0x84 ∧ db = 1 then some (List.replicate 8 0) else none

def narrow : Session := ⟨30, [], []⟩

theorem narrow_ready : narrow.Ready 28 := ⟨rfl, by decide, by decide⟩

section

variable {s s' : Session} {m m' : Memory} {ops : List Op} {rs : List (Except S7Error Outcome)}
  {area : UInt8} {db : UInt16}

/-- **What was written is read.** In a run of operations that fit, against a CPU that
serves its memory, data that were written are what a read of their length at their
place gives, however the two were cut into telegrams and whatever was read, and
written elsewhere, between them. -/
theorem read_after_write {start : UInt16} {data : List UInt8} (hs : s.Ready 28)
    (hfits : ∀ op ∈ Op.writeArea area db start data :: ops, op.Fits)
    (hspares : ∀ op ∈ ops, ∀ a, start.toNat ≤ a / 8 → a / 8 < start.toNat + data.length →
      op.Spares area db a)
    (h : Ran s m (.writeArea area db start data :: ops ++ [.readArea area db start data.length]) rs s' m')
    (hok : rs.head? = some (.ok .done)) : rs.getLast? = some (.ok (.bytes data)) := by
  obtain ⟨hwfits, hops⟩ := List.forall_mem_cons.mp hfits
  have hlast : (Op.readArea area db start data.length).Fits := hwfits
  have hall := allOn_of_ran hs (fun op hop => by
    rcases List.mem_append.mp hop with hmem | hmem
    · exact hfits op hmem
    · exact List.mem_singleton.mp hmem ▸ hlast) h
  obtain ⟨us, vs, n, rfl, hfirst, hsecond⟩ := hall.append
  obtain _ | ⟨hwrite, hbetween⟩ := hfirst
  obtain _ | ⟨hread, hnone⟩ := hsecond
  cases hnone
  obtain rfl := Option.some.inj hok
  obtain ⟨u, hu, hwritten⟩ := hwrite
  obtain ⟨k, -, hk, hwhole⟩ := hwritten.part
  have hdone : u = .ok () := by
    cases u with
    | error e => cases hu
    | ok v => rfl
  rw [hwhole hdone, List.take_length] at hk
  have hkept := hbetween.keeps (fun n => n.bytes area db start.toNat data.length)
    fun op hop n r n' hon => bytes_of_spares (hops op hop) hon (hspares op hop)
  rw [List.getLast?_append, List.getLast?_singleton, hread.2, hkept, Memory.bytes_of_write hk]
  rfl

theorem read_after_write_block : ∃ rs s' m',
    Ran narrow oneBlock [.writeArea 0x84 1 1 [1, 2, 3, 4, 5], .writeBit 0x84 1 0 7 true,
      .readArea 0x84 1 1 5] rs s' m' ∧
    rs.head? = some (.ok .done) ∧ rs.getLast? = some (.ok (.bytes [1, 2, 3, 4, 5])) := by
  obtain ⟨rs, s', m', hran⟩ : ∃ rs s' m', Ran narrow oneBlock [.writeArea 0x84 1 1 [1, 2, 3, 4, 5],
      .writeBit 0x84 1 0 7 true, .readArea 0x84 1 1 5] rs s' m' :=
    exists_ran oneBlock narrow_ready (by decide)
  have hfirst : rs.head? = some (.ok .done) := by
    obtain _ | ⟨hon, -⟩ := allOn_of_ran narrow_ready (by decide) hran
    obtain ⟨u, hu, hwritten⟩ := hon
    have hresult : u = .ok () := hwritten.result
    rw [List.head?_cons, hu, hresult]
    rfl
  refine ⟨rs, s', m', hran, hfirst, ?_⟩
  have hfits : ∀ op ∈ [Op.writeArea 0x84 1 1 [1, 2, 3, 4, 5], .writeBit 0x84 1 0 7 true], op.Fits := by
    decide
  refine read_after_write narrow_ready hfits (fun op hop a hle hlt => ?_) hran hfirst
  obtain rfl := List.mem_singleton.mp hop
  have hone : (1 : UInt16).toNat = 1 := rfl
  rw [hone] at hle
  intro heq
  have ha : a = 8 * (0 : UInt16).toNat + (7 : UInt8).toNat := congrArg (fun x => x.2.2) heq
  have h7 : 8 * (0 : UInt16).toNat + (7 : UInt8).toNat = 7 := rfl
  omega

/-- **A bit that was written is read**, and the bits next to it do not matter. -/
theorem bit_after_write {byteNum : UInt16} {bitIdx : UInt8} {value : Bool} (hs : s.Ready 28)
    (hfits : ∀ op ∈ Op.writeBit area db byteNum bitIdx value :: ops, op.Fits)
    (hspares : ∀ op ∈ ops, op.Spares area db (8 * byteNum.toNat + bitIdx.toNat))
    (h : Ran s m (.writeBit area db byteNum bitIdx value :: ops ++ [.readBit area db byteNum bitIdx])
      rs s' m')
    (hok : rs.head? = some (.ok .done)) : rs.getLast? = some (.ok (.bit value)) := by
  obtain ⟨hwfits, hops⟩ := List.forall_mem_cons.mp hfits
  have hlast : (Op.readBit area db byteNum bitIdx).Fits := hwfits
  have hall := allOn_of_ran hs (fun op hop => by
    rcases List.mem_append.mp hop with hmem | hmem
    · exact hfits op hmem
    · exact List.mem_singleton.mp hmem ▸ hlast) h
  obtain ⟨us, vs, n, rfl, hfirst, hsecond⟩ := hall.append
  obtain _ | ⟨hwrite, hbetween⟩ := hfirst
  obtain _ | ⟨hread, hnone⟩ := hsecond
  cases hnone
  obtain rfl := Option.some.inj hok
  obtain ⟨hw, rfl⟩ := hwrite
  have hkept := hbetween.keeps (fun n => n.bit area db (8 * byteNum.toNat + bitIdx.toNat))
    fun op hop n r n' hon => bit_of_spares hon (hspares op hop)
  rw [List.getLast?_append, List.getLast?_singleton, hread.2, hkept]
  cases hwrite : m.writeBit area db (8 * byteNum.toNat + bitIdx.toNat) value with
  | error e =>
    rw [hwrite] at hw
    cases hw
  | ok n' =>
    have hbit : n'.bit area db (8 * byteNum.toNat + bitIdx.toNat) = .ok value :=
      (Memory.bit_of_writeBit hwrite).trans (if_pos rfl)
    simp only [wrote, hbit]
    rfl

theorem bit_after_write_block : ∃ rs s' m',
    Ran narrow oneBlock [.writeBit 0x84 1 2 3 true, .writeBit 0x84 1 2 4 false, .readBit 0x84 1 2 3] rs s' m' ∧
    rs.head? = some (.ok .done) ∧ rs.getLast? = some (.ok (.bit true)) := by
  obtain ⟨rs, s', m', hran⟩ : ∃ rs s' m', Ran narrow oneBlock [.writeBit 0x84 1 2 3 true,
      .writeBit 0x84 1 2 4 false, .readBit 0x84 1 2 3] rs s' m' :=
    exists_ran oneBlock narrow_ready (by decide)
  have hfirst : rs.head? = some (.ok .done) := by
    obtain _ | ⟨hon, -⟩ := allOn_of_ran narrow_ready (by decide) hran
    rw [List.head?_cons, hon.1]
    rfl
  refine ⟨rs, s', m', hran, hfirst, ?_⟩
  have hfits : ∀ op ∈ [Op.writeBit 0x84 1 2 3 true, .writeBit 0x84 1 2 4 false], op.Fits := by
    decide
  refine bit_after_write narrow_ready hfits (fun op hop => ?_) hran hfirst
  obtain rfl := List.mem_singleton.mp hop
  exact (by decide : ((0x84 : UInt8), (1 : UInt16), 19) ≠ (0x84, 1, 20))

end

end S7
end LymonAgent
