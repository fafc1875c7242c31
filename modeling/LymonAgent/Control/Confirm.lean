/-
# What an acknowledgement says

A write to holding registers goes through inverse scaling, rounding, saturation
to the datatype and word order on its way out (`write_modbus`, `encode_words`),
and a reader of the registers undoes them (`decode_words`). Values, scale and offset
are exact rationals here. The device has memory: it stores the words it is sent, and a
read gives what it stores.

An acknowledged write leaves the rounded raw value in the registers, saturated
at the ends of the datatype (`acked_write_holds`): within half a scale step of
the request where it fits, and the nearest end where it does not, acknowledged
all the same.

Key definitions: `Registers`, `StoresWords`, `stored`, `writeAck`.
-/
import LymonAgent.Control.Channel

namespace LymonAgent
namespace Control

/-! ### A device with memory -/

/-- The holding registers of a device, by address. -/
abbrev Registers : Type := ℕ → UInt16

/-- The registers after a write: its words stand from its address on. -/
def Registers.after (m : Registers) : DeviceWrite → Registers
  | .holding _ _ a words => fun b =>
    if a.toNat ≤ b then words[b - a.toNat]?.getD (m b) else m b
  | _ => m

def Registers.read (m : Registers) (a n : ℕ) : List UInt16 := (List.range n).map fun i => m (a + i)

theorem Registers.read_after (m : Registers) (host : String) (port a : UInt16) (words : List UInt16) :
    (m.after (.holding host port a words)).read a.toNat words.length = words := by
  apply List.ext_getElem
  · simp [Registers.read]
  · intro i h1 h2
    simp [Registers.read, Registers.after, h2]

/-- A read of the device gives the registers as the write before it left
them. -/
def StoresWords (plc : Plc) (m : Registers) : Prop :=
  ∀ w a n regs, plc.read w a n = .ok regs → regs = (m.after w).read a.toNat n.toNat

/-- The device refuses nothing. -/
structure TakesAll (plc : Plc) : Prop where
  connect : ∀ host port ms, plc.connect host port ms = .ok ()
  write : ∀ w, plc.write w = .ok ()
  read : ∀ w a n, ∃ regs, plc.read w a n = .ok regs

/-- The registers of the request's target after its writes. -/
def stored (m : Registers) (o : Outcome) (r : WriteRequest) : List UInt16 :=
  (o.writes.foldl Registers.after m).read ((r.target.getU64 "address").getD 0).toUInt16.toNat
    ((width (Target.datatype r.target)).getD 0)

/-- The answer to a write request. -/
def writeAck (V : Ed25519) (F : FloatText) (env : Env) (connectors : ConnStore)
    (pubkey : Option (List UInt8)) (req : Json) : Json :=
  ackOf (WriteRequest.ofJson req).commandId (handleWrite V F env connectors pubkey req).result

def Acked (ack : Json) : Prop := ack.getStr "status" = some "acked"

instance (ack : Json) : Decidable (Acked ack) := inferInstanceAs (Decidable (_ = _))

theorem acked_ackOf {command : String} {result : Except String (Option F64)} :
    Acked (ackOf command result) ↔ ∃ readback, result = .ok readback := by
  cases result with
  | error e => simp +decide [Acked, ackOf, failedAck, Json.getStr, Json.get, Json.asStr, List.lookup_cons]
  | ok rb =>
    cases rb <;> simp +decide [Acked, ackOf, ackedAck, Json.getStr, Json.get, Json.asStr, List.lookup_cons]

/-! ### What was written -/

variable {V : Ed25519} {F : FloatText} {env : Env} {connectors : ConnStore}
  {pubkey : Option (List UInt8)} {req : Json}

/-- The integer a request puts in the registers: the raw value, rounded and
saturated. -/
def written (lo hi : ℤ) (value offset scale : ℚ) : ℤ :=
  clamp lo hi (F64.roundHalfAway ((value - offset) / if scale = 0 then 1 else scale))

theorem rawOf_eq {target : Json} {value offset scale : ℚ} (ho : Target.offset target = .fin offset)
    (hs : Target.scale target = .fin scale) :
    rawOf target (.fin value) = .fin ((value - offset) / if scale = 0 then 1 else scale) := by
  unfold rawOf
  rw [ho, hs]
  by_cases h : scale = 0
  · simp [h, F64.sub, F64.neg, F64.add, F64.eq, F64.div, sub_eq_add_neg]
  · simp [h, F64.sub, F64.neg, F64.add, F64.eq, F64.div, sub_eq_add_neg]

/-- A register write that went through: the device took the words, and read
them back if asked. -/
theorem writeModbus_eq_ok {plc : Plc} {config : Json} {r : WriteRequest} {readback : Option F64}
    (hfn : Target.fnclass r.target ≠ "coil") (h : (writeModbus plc config r).result = .ok readback) :
    ∃ host a words, r.target.getU64 "address" = some a ∧
      encodeWords (Target.datatype r.target) (rawOf r.target r.value) (Target.wordOrder r.target) =
        .ok words ∧
      (writeModbus plc config r).writes = [.holding host (portOf config) a.toUInt16 words] ∧
      (r.wantReadback = true → ∃ regs,
        plc.read (.holding host (portOf config) a.toUInt16 words) a.toUInt16 (.ofNat words.length) =
          .ok regs ∧
        readback = some (decodeWords (Target.datatype r.target) regs (Target.wordOrder r.target)
          (Target.scale r.target) (Target.offset r.target))) := by
  unfold writeModbus at h ⊢
  cases hhost : config.getStr "host" with
  | none => simp [hhost, Outcome.fail] at h
  | some host =>
    cases ha : r.target.getU64 "address" with
    | none => simp [hhost, ha, Outcome.fail] at h
    | some a =>
      simp only [hhost, ha, if_neg hfn] at h ⊢
      cases hw : encodeWords (Target.datatype r.target) (rawOf r.target r.value)
          (Target.wordOrder r.target) with
      | error e => simp [hw, Outcome.fail] at h
      | ok words =>
        simp only [hw] at h ⊢
        refine ⟨host, a, words, rfl, rfl, ?_⟩
        cases hconn : plc.connect host (portOf config) (ioTimeout r.timeoutMs) with
        | error e => simp [hconn, Outcome.fail] at h
        | ok _ =>
          simp only [hconn] at h ⊢
          cases hput : plc.write (.holding host (portOf config) a.toUInt16 words) with
          | error e => simp [hput] at h
          | ok _ =>
            simp only [hput] at h ⊢
            by_cases hrb : r.wantReadback = true
            · simp only [if_pos hrb] at h ⊢
              refine ⟨trivial, fun _ => ?_⟩
              cases hread : plc.read (.holding host (portOf config) a.toUInt16 words) a.toUInt16
                  (.ofNat words.length) with
              | error e => simp [hread, Except.map] at h
              | ok regs => exact ⟨regs, rfl, by simpa [hread, Except.map] using h.symm⟩
            · simp only [if_neg hrb] at h ⊢
              exact ⟨trivial, fun h => absurd h hrb⟩

/-- A device that refuses nothing takes every value: no integer datatype
refuses one. -/
theorem writeModbus_of_takesAll {plc : Plc} (hplc : TakesAll plc) {config : Json} {r : WriteRequest}
    {lo hi : ℤ} (hfn : Target.fnclass r.target ≠ "coil")
    (hrange : intRange (Target.datatype r.target) = some (lo, hi))
    (hhost : (config.getStr "host").isSome = true)
    (ha : (r.target.getU64 "address").isSome = true) :
    ∃ readback, (writeModbus plc config r).result = .ok readback := by
  obtain ⟨host, hhost⟩ := Option.isSome_iff_exists.mp hhost
  obtain ⟨a, ha⟩ := Option.isSome_iff_exists.mp ha
  obtain ⟨n, hn⟩ := width_of_intRange hrange
  obtain ⟨words, hw⟩ := exists_encodeWords hn (rawOf r.target r.value) (Target.wordOrder r.target)
  obtain ⟨regs, hread⟩ := hplc.read (.holding host (portOf config) a.toUInt16 words) a.toUInt16
    (.ofNat words.length)
  unfold writeModbus
  simp only [hhost, ha, if_neg hfn, hw, hplc.connect, hplc.write]
  by_cases hrb : r.wantReadback = true
  · simp only [if_pos hrb, hread]
    exact ⟨_, rfl⟩
  · simp only [if_neg hrb]
    exact ⟨_, rfl⟩

/-- A request that was not refused before it came to the connector's protocol. -/
theorem handleWrite_of_ok {c : Conn} {readback : Option F64}
    (hc : connectors (WriteRequest.ofJson req).connectorId = some c) (hmodbus : c.dsType = "modbus")
    (h : (handleWrite V F env connectors pubkey req).result = .ok readback) :
    handleWrite V F env connectors pubkey req =
      writeModbus env.plc c.config (WriteRequest.ofJson req) := by
  unfold handleWrite at h ⊢
  cases hsig : verifySignature V F pubkey req (WriteRequest.ofJson req) with
  | error e => simp [hsig, Outcome.fail] at h
  | ok _ =>
    simp only [hsig] at h ⊢
    by_cases hfin : (WriteRequest.ofJson req).value.isFinite = true
    · by_cases hkey : targetKey F (WriteRequest.ofJson req).target ∈ c.writable
      · rw [doWrite_of_listed hc hfin hkey, if_pos hmodbus]
      · simp [doWrite, hc, hfin, hkey, Outcome.fail] at h
    · simp [doWrite, hc, hfin, Outcome.fail] at h

/-- An acknowledged register write leaves its encoded words in the registers, and
the readback, if asked for, is what they decode to. -/
theorem stored_of_acked {m : Registers} {c : Conn} (hdev : StoresWords env.plc m)
    (hc : connectors (WriteRequest.ofJson req).connectorId = some c) (hmodbus : c.dsType = "modbus")
    (hfn : Target.fnclass (WriteRequest.ofJson req).target ≠ "coil")
    (hack : Acked (writeAck V F env connectors pubkey req)) :
    let r := WriteRequest.ofJson req
    ∃ words, encodeWords (Target.datatype r.target) (rawOf r.target r.value) (Target.wordOrder r.target) =
        .ok words ∧
      stored m (handleWrite V F env connectors pubkey req) r = words ∧
      (r.wantReadback = true → (writeAck V F env connectors pubkey req).get "readback" =
        some (jsonF64 (decodeWords (Target.datatype r.target) words (Target.wordOrder r.target)
          (Target.scale r.target) (Target.offset r.target)))) := by
  intro r
  obtain ⟨readback, hok⟩ := acked_ackOf.mp hack
  have heq := handleWrite_of_ok hc hmodbus hok
  obtain ⟨host, a, words, ha, hw, hwrites, hrb⟩ := writeModbus_eq_ok hfn (heq ▸ hok)
  refine ⟨words, hw, ?_, fun hwant => ?_⟩
  · simp only [stored, heq, hwrites, List.foldl_cons, List.foldl_nil, r, ha, Option.getD_some,
      width_of_encodeWords hw, Registers.read_after]
  · obtain ⟨regs, hread, hrb⟩ := hrb hwant
    have hlen := width_le (width_of_encodeWords hw)
    have hregs : regs = words := by
      have hstored := hdev _ _ _ _ hread
      rwa [UInt16.toNat_ofNat', Nat.mod_eq_of_lt (by omega), Registers.read_after] at hstored
    rw [hregs] at hrb
    simp only [writeAck, hok, hrb, ackOf]
    rfl

/-- Half a scale step, where the rounded raw value fits. -/
theorem abs_written_sub_le {lo hi : ℤ} {value offset scale : ℚ} (hscale : scale ≠ 0)
    (hlo : lo ≤ F64.roundHalfAway ((value - offset) / scale))
    (hhi : F64.roundHalfAway ((value - offset) / scale) ≤ hi) :
    |(written lo hi value offset scale : ℚ) * scale + offset - value| ≤ |scale| / 2 := by
  unfold written
  rw [if_neg hscale, clamp_of_mem hlo hhi]
  have hround := F64.abs_roundHalfAway_sub_le ((value - offset) / scale)
  generalize (F64.roundHalfAway ((value - offset) / scale) : ℚ) = n at hround
  calc |n * scale + offset - value|
      = |n - (value - offset) / scale| * |scale| := by
        rw [← abs_mul, sub_mul, div_mul_cancel₀ _ hscale]
        congr 1
        ring
    _ ≤ 1 / 2 * |scale| := mul_le_mul_of_nonneg_right hround (abs_nonneg _)
    _ = |scale| / 2 := by ring

/-- **An acknowledged write leaves the rounded value in the registers.** A
request with a finite value for the holding registers of a Modbus connector, any
of the four integer datatypes, any word order, scale and offset, and a device
that stores what it is sent. If the answer is `acked`, the registers hold the
raw value rounded and saturated at the ends of the datatype, a scale of zero
counting as one. With a scale other than zero, decoding them for the target
gives that integer in engineering units, which is also the readback when one is
asked for; it is within half a scale step of the request where the rounded raw
value fits the datatype, and comes from the nearest end where it does not. A
value that does not fit is no reason to fail: what was verified and listed is
acknowledged whenever the device takes it. -/
theorem acked_write_holds {m : Registers} {c : Conn} {lo hi : ℤ} {value offset scale : ℚ}
    (hdev : StoresWords env.plc m)
    (hc : connectors (WriteRequest.ofJson req).connectorId = some c) (hmodbus : c.dsType = "modbus")
    (hfn : Target.fnclass (WriteRequest.ofJson req).target ≠ "coil")
    (hrange : intRange (Target.datatype (WriteRequest.ofJson req).target) = some (lo, hi))
    (hv : (WriteRequest.ofJson req).value = .fin value)
    (ho : Target.offset (WriteRequest.ofJson req).target = .fin offset)
    (hs : Target.scale (WriteRequest.ofJson req).target = .fin scale) :
    let r := WriteRequest.ofJson req
    let regs := stored m (handleWrite V F env connectors pubkey req) r
    let raw := F64.roundHalfAway ((value - offset) / if scale = 0 then 1 else scale)
    let held : ℚ := written lo hi value offset scale * scale + offset
    let ack := writeAck V F env connectors pubkey req
    (Acked ack →
      decodeWords (Target.datatype r.target) regs (Target.wordOrder r.target) (.fin 1) (.fin 0) =
        .fin (written lo hi value offset scale) ∧
      (scale ≠ 0 →
        decodeWords (Target.datatype r.target) regs (Target.wordOrder r.target) (.fin scale)
          (.fin offset) = .fin held ∧
        (r.wantReadback = true → ack.get "readback" = some (jsonF64 (.fin held))) ∧
        (lo ≤ raw → raw ≤ hi → |held - value| ≤ |scale| / 2) ∧
        (raw < lo → held = lo * scale + offset) ∧ (hi < raw → held = hi * scale + offset))) ∧
    (TakesAll env.plc → verifySignature V F pubkey req r = .ok () →
      targetKey F r.target ∈ c.writable → (c.config.getStr "host").isSome = true →
      (r.target.getU64 "address").isSome = true → Acked ack) := by
  intro r regs raw held ack
  constructor
  · intro hack
    obtain ⟨words, hw, hregs, hrb⟩ := stored_of_acked hdev hc hmodbus hfn hack
    rw [hv, rawOf_eq ho hs] at hw
    rw [ho, hs] at hrb
    have hregs : regs = words := hregs
    have hdecode := decodeWords_encodeWords hrange hw
    refine ⟨by rw [hregs, hdecode]; simp [F64.mul, F64.add, written], fun hscale => ?_⟩
    have hheld : decodeWords (Target.datatype r.target) words (Target.wordOrder r.target) (.fin scale)
        (.fin offset) = .fin held := by
      rw [hdecode]
      rfl
    refine ⟨by rw [hregs, hheld], fun hwant => ?_, ?_, ?_, ?_⟩
    · rw [← hheld]
      exact hrb hwant
    · simp only [raw, if_neg hscale]
      exact abs_written_sub_le hscale
    · intro hlt
      simp only [held, written]
      rw [clamp_of_lt hlt]
    · intro hgt
      simp only [held, written]
      rw [clamp_of_gt (le_of_intRange hrange) hgt]
  · intro htake hsig hkey hhost ha
    have hfin : r.value.isFinite = true := by rw [hv]; rfl
    have heq : handleWrite V F env connectors pubkey req = writeModbus env.plc c.config r := by
      unfold handleWrite
      simp only [show verifySignature V F pubkey req (WriteRequest.ofJson req) = .ok () from hsig]
      rw [doWrite_of_listed hc hfin hkey, if_pos hmodbus]
    apply acked_ackOf.mpr
    rw [heq]
    exact writeModbus_of_takesAll htake hfn hrange hhost ha

/-! ### A device that stores -/

/-- A device that takes everything and stores it over zeros. -/
def storing : Plc where
  connect _ _ _ := .ok ()
  write _ := .ok ()
  read w a n := .ok ((Registers.after (fun _ => 0) w).read a.toNat n.toNat)

theorem storesWords_storing : StoresWords storing fun _ => 0 := by
  intro w a n regs h
  exact (Except.ok.inj h).symm

theorem takesAll_storing : TakesAll storing :=
  ⟨fun _ _ _ => rfl, fun _ => rfl, fun _ _ _ => ⟨_, rfl⟩⟩

/-- A request to write `value` to register 10 with a scale, and to read it
back. -/
def scaledRequest (value scale : ℚ) : Json :=
  .obj [("connector_id", .str "plc"), ("readback", .bool true),
    ("target", .obj [("address", .num (.posInt 10)), ("datatype", .str "uint16"),
      ("fn", .str "holding"), ("scale", .num (.float scale))]),
    ("value", .num (.float value))]

/-- What the agent does with such a request where register 10 is listed. -/
def scaledWrite (value scale : ℚ) : Outcome :=
  handleWrite signedOnce plainFloat ⟨storing, fun _ => none⟩
    (storeOf (parseConnectors plainFloat (plcFrame [registerTen]))) none (scaledRequest value scale)

def scaledAck (value scale : ℚ) : Json :=
  writeAck signedOnce plainFloat ⟨storing, fun _ => none⟩
    (storeOf (parseConnectors plainFloat (plcFrame [registerTen]))) none (scaledRequest value scale)

/-- 50 with the scale 1/10 is acknowledged and held as 500. -/
theorem acked_write_holds_fifty :
    Acked (scaledAck 50 (1 / 10)) ∧
    decodeWords "uint16" (stored (fun _ => 0) (scaledWrite 50 (1 / 10))
      (WriteRequest.ofJson (scaledRequest 50 (1 / 10)))) "big" (.fin (1 / 10)) (.fin 0) = .fin 50 := by
  obtain ⟨hheld, htaken⟩ := @acked_write_holds signedOnce plainFloat ⟨storing, fun _ => none⟩
    (storeOf (parseConnectors plainFloat (plcFrame [registerTen]))) none (scaledRequest 50 (1 / 10))
    _ _ _ _ 50 0 (1 / 10) storesWords_storing rfl rfl (by decide) rfl rfl rfl rfl
  have hack := htaken takesAll_storing rfl (by decide +kernel) rfl rfl
  obtain ⟨-, hdecode⟩ := hheld hack
  refine ⟨hack, (hdecode (by norm_num)).1.trans ?_⟩
  decide +kernel

/-- 70000 to a `uint16` register is acknowledged and held as 65535; 5 with a
scale of zero is acknowledged and decodes to 0. -/
theorem acked_other_value :
    (Acked (scaledAck 70000 1) ∧
      decodeWords "uint16" (stored (fun _ => 0) (scaledWrite 70000 1)
        (WriteRequest.ofJson (scaledRequest 70000 1))) "big" (.fin 1) (.fin 0) = .fin 65535 ∧
      ¬ |(65535 : ℚ) - 70000| ≤ |1| / 2) ∧
    (Acked (scaledAck 5 0) ∧
      decodeWords "uint16" (stored (fun _ => 0) (scaledWrite 5 0)
        (WriteRequest.ofJson (scaledRequest 5 0))) "big" (.fin 0) (.fin 0) = .fin 0 ∧
      ¬ |(0 : ℚ) - 5| ≤ |0| / 2) := by
  decide +kernel

end Control
end LymonAgent
