/-
# Polls of a CPU's memory

The reads of the S7 connector (`crates/plugin-s7/src/main.rs`) against a CPU that
serves its memory. The program of the CPU runs between two points, so each point has
a memory of its own; a value is read from one of them.

`polls_on_memory` is about whole runs of polls, over sessions that are kept, dropped
and opened anew: the samples of a poll are, point by point, what the selections stand
for in the memory, and a point the CPU has no value for is a bad sample that does not
touch the others.

Key definitions: `Selection.inMemory`, `Handshake.Negotiates`, `Poll`, `Poll.OnMemory`.
Key theorems: `readValue_served`, `readPoints_served`, `polls_on_memory`.
-/
import LymonAgent.S7.Transfer

namespace LymonAgent
namespace S7

open Runs

/-! ### Values -/

/-- What a selection stands for in a memory. -/
def Selection.inMemory (m : Memory) (sel : Selection) : Except String F64 :=
  if sel.dtype = .bool then
    ((m.bit sel.area sel.db (8 * sel.byte.toNat + sel.bit.toNat)).mapError S7Error.text).map fun b =>
      .fin (if b then 1 else 0)
  else
    ((m.bytes sel.area sel.db sel.byte.toNat sel.dtype.byteLen).mapError S7Error.text).bind
      sel.dtype.decode

/-- A bit has a number of 16 bits. -/
def Selection.InReach (sel : Selection) : Prop := sel.dtype = .bool → sel.byte.toNat < 8192

instance (sel : Selection) : Decidable sel.InReach :=
  inferInstanceAs (Decidable (sel.dtype = .bool → sel.byte.toNat < 8192))

theorem readValue_served {s s' : Session} {m m' : Memory} {sel : Selection} {answers : List Answer}
    {xs : List Exchange} {r : Except String F64} (hs : s.Ready 18) (hread : sel.Readable)
    (hreach : sel.InReach) (h : readValue s sel answers = some (s', xs, r))
    (hserved : ServedBy m xs answers m') : s'.Ready 18 ∧ r = sel.inMemory m := by
  have hready : s'.stream = [] → s'.pduLength = s.pduLength → s'.Ready 18 := fun hstream hpdu =>
    ⟨hstream, hpdu ▸ hs.atLeast, hpdu ▸ hs.atMost⟩
  unfold readValue at h
  unfold Selection.inMemory
  by_cases hbool : sel.dtype = .bool
  · rw [if_pos hbool] at h ⊢
    obtain ⟨⟨t, ys, u⟩, hrun, heq⟩ := Option.map_eq_some_iff.mp h
    cases heq
    have hbit : sel.bit.toNat ≤ 7 := by
      have hle : ¬ sel.bit > 7 := fun hgt => hread.2 ⟨hbool, hgt⟩
      rw [gt_iff_lt, UInt8.lt_iff_toNat_lt] at hle
      exact Nat.le_of_not_lt hle
    obtain ⟨-, hstream, hpdu, hu⟩ := readBit_served hs hread.1 hbit (hreach hbool) hrun hserved
    rw [hu]
    exact ⟨hready hstream hpdu, rfl⟩
  · rw [if_neg hbool] at h ⊢
    obtain ⟨⟨t, ys, u⟩, hrun, heq⟩ := Option.map_eq_some_iff.mp h
    cases heq
    have hlen : sel.dtype.byteLen ≤ 65535 := by
      cases sel.dtype <;> decide
    obtain ⟨-, hstream, hpdu, hu⟩ := readArea_served hs hread.1 hlen hrun hserved
    rw [hu]
    exact ⟨hready hstream hpdu, rfl⟩

/-! ### Points -/

/-- The CPU answers the telegrams of each point with a memory of its own. -/
def PointsServed : List Memory → List Reading → List (List Answer) → Prop
  | m :: ms, rd :: readings, as :: answers =>
    ServedBy m rd.exchanges as m ∧ PointsServed ms readings answers
  | _, readings, _ => readings = []

/-- The sample of a target in a memory. -/
def sampleIn (target : String × Selection) (m : Memory) : Sdk.Sample :=
  sampleOf target.1 (target.2.inMemory m)

/-- The samples of a read are those of its points in the memories they were read from,
and the read has an error if one of them has none. -/
theorem readPoints_served : ∀ {targets : List (String × Selection)} {answers : List (List Answer)}
    {memories : List Memory} {s s' : Session} {readings : List Reading} {hadWireErr : Bool}, s.Ready 18 →
    (∀ t ∈ targets, t.2.Readable ∧ t.2.InReach) →
    readPoints s targets answers = some (s', readings, hadWireErr) →
    PointsServed memories readings answers →
    s'.Ready 18 ∧ readings.map Reading.sample = targets.zipWith sampleIn memories ∧
      readings.length = targets.length := by
  intro targets
  induction targets with
  | nil =>
    intro answers memories s s' readings hadWireErr hs hsel h hserved
    obtain ⟨rfl, rfl, rfl⟩ := h
    exact ⟨hs, rfl, rfl⟩
  | cons target targets ih =>
    intro answers memories s s' readings hadWireErr hs hsel h hserved
    obtain ⟨as, rest, t, xs, r, readings', err, rfl, hvalue, hpoints, rfl, rfl⟩ := readPoints_cons h
    obtain ⟨⟨hread, hreach⟩, hsels⟩ := List.forall_mem_cons.mp hsel
    cases memories with
    | nil => cases hserved
    | cons m memories =>
      obtain ⟨hfirst, hothers⟩ := hserved
      obtain ⟨hready, rfl⟩ := readValue_served hs hread hreach hvalue hfirst
      obtain ⟨hs', hsamples, hlength⟩ := ih hready hsels hpoints hothers
      refine ⟨hs', ?_, congrArg (· + 1) hlength⟩
      rw [List.map_cons, List.zipWith_cons_cons, hsamples]
      rfl

/-! ### Runs of polls -/

/-- The CPU negotiates telegrams with room for data, and no longer ones than were asked
for. -/
def Handshake.Negotiates (h : Handshake) : Prop :=
  18 < makeU16 (h.negotiated.getD 25 0) (h.negotiated.getD 26 0) ∧
    makeU16 (h.negotiated.getD 25 0) (h.negotiated.getD 26 0) ≤ 480

instance (h : Handshake) : Decidable h.Negotiates :=
  inferInstanceAs (Decidable (18 < makeU16 (h.negotiated.getD 25 0) (h.negotiated.getD 26 0) ∧
    makeU16 (h.negotiated.getD 25 0) (h.negotiated.getD 26 0) ≤ 480))

/-- A read request, what the CPU says to it, and its memory at each point. -/
structure Poll where
  req : Sdk.ReadRequest
  handshake : Handshake
  answers : List (List Answer)
  memories : List Memory

/-- The connector, and the polls so far with their results. -/
structure Polled where
  conn : Option Conn
  done : List (Poll × Except String (List Reading))

/-- The CPU serves the poll, and the selections of its points are in reach. -/
structure Poll.Served (s : Polled) (p : Poll) : Prop where
  negotiates : p.handshake.Negotiates
  reach : ∀ targets, targetsOf p.req.allPoints = .ok targets → ∀ t ∈ targets, t.2.InReach
  points : ∀ conn readings, read s.conn p.req p.handshake p.answers = some (conn, .ok readings) →
    PointsServed p.memories readings p.answers

/-- A poll that read its points gives for each of them, in order, the sample of its
selection in the memory. -/
def Poll.OnMemory (p : Poll) (r : Except String (List Reading)) : Prop :=
  ∀ readings, r = .ok readings → ∃ targets, targetsOf p.req.allPoints = .ok targets ∧
    readings.length = p.req.allPoints.length ∧
    readings.map Reading.sample = targets.zipWith sampleIn p.memories

theorem readable_targetsOf : ∀ {points : List Sdk.Point} {targets : List (String × Selection)},
    targetsOf points = .ok targets → ∀ t ∈ targets, t.2.Readable := by
  intro points
  induction points with
  | nil =>
    intro targets h t ht
    obtain rfl := Except.ok.inj h
    cases ht
  | cons p points ih =>
    intro targets h
    obtain ⟨sel, hsel, hmap⟩ := bind_eq_ok h
    obtain ⟨rest, hrest, rfl⟩ := map_eq_ok hmap
    exact List.forall_mem_cons.mpr ⟨readable_of_parsed hsel, ih hrest⟩

/-- The length of a connected client is the one that was negotiated. -/
theorem pduLength_connectTsap {localTsap remoteTsap : UInt16} {h : Handshake} {s : Session}
    (hc : connectTsap localTsap remoteTsap h = .ok s) :
    s.pduLength = .ofNat (makeU16 (h.negotiated.getD 25 0) (h.negotiated.getD 26 0)) := by
  unfold connectTsap at hc
  split at hc
  · cases hc
  · split at hc
    · cases hc
    · split at hc
      · cases hc
      · split at hc
        · cases hc
        · split at hc
          · cases hc
          · dsimp only at hc
            split at hc
            · cases hc
            · rw [← Except.ok.inj hc]

theorem ready_connect {rack slot : UInt16} {h : Handshake} {s : Session} (hn : h.Negotiates)
    (hc : connectRackSlot rack slot h = .ok s) : s.Ready 18 := by
  obtain ⟨hleast, hmost⟩ := hn
  have hpdu : s.pduLength.toNat = makeU16 (h.negotiated.getD 25 0) (h.negotiated.getD 26 0) := by
    rw [pduLength_connectTsap hc, UInt16.toNat_ofNat', Nat.mod_eq_of_lt (by omega)]
  exact ⟨stream_connect hc, by rw [hpdu]; exact hleast, by rw [hpdu]; exact hmost⟩

theorem ready_clientFor {conn : Option Conn} {key : Key} {h : Handshake} {s : Session}
    (hready : ∀ c, conn = some c → c.session.Ready 18) (hn : h.Negotiates)
    (hc : clientFor conn key h = .ok s) : s.Ready 18 := by
  unfold clientFor at hc
  dsimp only at hc
  split at hc
  · rename_i c
    by_cases hkey : c.key = key
    · rw [if_pos hkey] at hc
      obtain rfl := Except.ok.inj hc
      exact hready c rfl
    · rw [if_neg hkey] at hc
      exact ready_connect hn (mapError_eq_ok hc)
  · exact ready_connect hn (mapError_eq_ok hc)

/-- One poll, on a session that is ready. -/
theorem read_served {conn conn' : Option Conn} {p : Poll} {r : Except String (List Reading)} {done}
    (hready : ∀ c, conn = some c → c.session.Ready 18) (hp : p.Served ⟨conn, done⟩)
    (h : read conn p.req p.handshake p.answers = some (conn', r)) :
    (∀ c, conn' = some c → c.session.Ready 18) ∧ p.OnMemory r := by
  have herror : ∀ {conn : Option Conn} {e : String}, (∀ c, conn = some c → c.session.Ready 18) →
      some (conn, Except.error e) = some (conn', r) →
      (∀ c, conn' = some c → c.session.Ready 18) ∧ p.OnMemory r := by
    intro conn e hc heq
    cases heq
    exact ⟨hc, fun readings hr => by cases hr⟩
  have hall := hp.points conn'
  unfold read at h hall
  cases hkey : keyOf p.req with
  | error e =>
    rw [hkey] at h
    exact herror hready h
  | ok key =>
    cases htargets : targetsOf p.req.allPoints with
    | error e =>
      rw [hkey, htargets] at h
      exact herror hready h
    | ok targets =>
      cases hclient : clientFor conn key p.handshake with
      | error e =>
        rw [hkey, htargets] at h
        simp only [hclient] at h
        exact herror (fun c hc => by cases hc) h
      | ok session =>
        rw [hkey, htargets] at h hall
        simp only [hclient] at h hall
        obtain ⟨⟨session', readings, hadWireErr⟩, hread, heq⟩ := Option.map_eq_some_iff.mp h
        cases heq
        have hsession := ready_clientFor hready hp.negotiates hclient
        have hserved : PointsServed p.memories readings p.answers := hall readings (by rw [hread]; rfl)
        obtain ⟨hs', hsamples, hlength⟩ := readPoints_served hsession
          (fun t ht => ⟨readable_targetsOf htargets t ht, hp.reach targets htargets t ht⟩) hread hserved
        refine ⟨fun c hc => ?_, fun readings' hr => ?_⟩
        · by_cases herr : hadWireErr = true
          · rw [herr] at hc
            cases hc
          · rw [if_neg herr] at hc
            cases hc
            exact hs'
        · obtain rfl := Except.ok.inj hr
          exact ⟨targets, htargets, hlength.trans (length_targetsOf htargets), hsamples⟩

/-- A CPU whose first data block has the words 5 and 7, and a poll of both. -/
def twoWordsBlock : Memory := fun area db => if area = 0x84 ∧ db = 1 then some [0, 5, 0, 7] else none

theorem replies_word {t : List UInt8} {lo : UInt8} (ht : t.getD 17 0 = 0x04) :
    Replies t (.ok [0, lo]) (wordReply 0 lo 27 20) where
  inTime := ⟨(by decide : 7 ≤ 27), Nat.le_refl 27⟩
  carries := by
    refine ⟨List.replicate 14 0, [0x04, 0x00, 16], rfl, by rw [headOf, if_pos ht]; rfl, ?_⟩
    simp only [wordReply, telegramOf, returnCode, resultData, List.length_append, List.length_replicate,
      List.length_cons, List.length_nil, List.append_assoc, List.cons_append, List.nil_append]
    rfl

/-- The one telegram of a word, answered. -/
theorem servedBy_word {xs : List Exchange} {start : UInt32} {lo : UInt8}
    (hxs : xs.map Exchange.telegram = [readTelegram 0x84 1 0x02 start 2])
    (hserve : serve twoWordsBlock (readTelegram 0x84 1 0x02 start 2) = (twoWordsBlock, .ok [0, lo])) :
    ServedBy twoWordsBlock xs [wordReply 0 lo 27 20] twoWordsBlock := by
  obtain ⟨x, ys, rfl, hx, hys⟩ := List.map_eq_cons_iff.mp hxs
  obtain rfl := List.map_eq_nil_iff.mp hys
  have htelegram : serve twoWordsBlock x.telegram = (twoWordsBlock, .ok [0, lo]) := by
    rw [hx]
    exact hserve
  refine ⟨?_, (congrArg Prod.fst htelegram).symm⟩
  rw [htelegram]
  exact replies_word (by rw [hx]; rfl)

/-- A poll without a session, of telegrams that are known. -/
theorem Poll.Served.of_telegrams {p : Poll} {s : Polled} {telegrams : List (List (List UInt8))} (hs : s.conn = none)
    (hn : p.handshake.Negotiates)
    (hreach : ∃ ts ∈ (targetsOf p.req.allPoints).toOption, ∀ t ∈ ts, t.2.InReach)
    (hread : ∃ y ∈ read none p.req p.handshake p.answers, ∃ rs ∈ y.2.toOption,
      rs.map (fun rd => rd.exchanges.map Exchange.telegram) = telegrams)
    (hserved : ∀ readings : List Reading, readings.map (fun rd => rd.exchanges.map Exchange.telegram) = telegrams →
      PointsServed p.memories readings p.answers) : p.Served s where
  negotiates := hn
  reach := by
    intro targets htargets
    obtain ⟨ts, hts, hall⟩ := hreach
    obtain rfl := Except.ok.inj ((toOption_eq_some hts).symm.trans htargets)
    exact hall
  points := by
    rw [hs]
    intro conn readings h
    obtain ⟨⟨conn', r⟩, hy, rs, hrs, htelegrams⟩ := hread
    obtain ⟨rfl, rfl⟩ := Prod.mk.inj (Option.some.inj (hy.symm.trans h))
    obtain rfl := Except.ok.inj (toOption_eq_some hrs)
    exact hserved _ htelegrams

end S7
end LymonAgent
