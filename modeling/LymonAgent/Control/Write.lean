/-
# Device writes

The write path of `src/control.rs`: a provision frame gives each connector a
list of writable targets, kept as a set of keys (`parse_connectors`,
`target_key`); a write request is checked against that set and carried out on a
Modbus device or through a connector plugin (`do_write`, `write_modbus`,
`Plugin::write` of `src/plugins.rs`).

The key names a function and an address, or a node, or is the whole target as
text. The driver then reads function, address, datatype and word order from the
request's own target. `mem_writes_doWrite` says what a request that reaches a
device must have had.

What the device and the plugin process answer is a parameter (`Plc`,
`Plugin`). A request line goes to the plugin, and its answer comes back, as
`serde_json` text; the model passes the values.

Key definitions: `targetKey`, `connOf`, `writeModbus`, `doWrite`.
Key theorems: `targetKey_cases`, `mem_writes_doWrite`.
-/
import LymonAgent.Json
import LymonAgent.Control.Codec

namespace LymonAgent
namespace Control

open Text

/-! ### Devices -/

inductive Identifier where
  | numeric (n : ℕ)
  | string (s : String)
  | guid (s : String)
  | bytes (l : List UInt8)
  deriving DecidableEq

/-- An OPC-UA node. -/
structure NodeId where
  ns : ℕ
  identifier : Identifier
  deriving DecidableEq

/-- OPC-UA values; a float is its bits, and `other` is no number. -/
inductive Variant where
  | boolean (b : Bool)
  | sbyte (n : ℤ)
  | byte (n : ℤ)
  | int16 (n : ℤ)
  | uint16 (n : ℤ)
  | int32 (n : ℤ)
  | uint32 (n : ℤ)
  | int64 (n : ℤ)
  | uint64 (n : ℤ)
  | float (bits : UInt32)
  | double (x : F64)
  | other
  deriving DecidableEq

/-- A write request sent to a device. -/
inductive DeviceWrite where
  | coil (host : String) (port address : UInt16) (on : Bool)
  | holding (host : String) (port address : UInt16) (words : List UInt16)
  | node (endpoint : String) (id : NodeId) (value : Variant)
  deriving DecidableEq

/-- What a write request did: the writes sent, and what the caller gets. -/
structure Outcome where
  writes : List DeviceWrite
  result : Except String (Option F64)

def Outcome.fail (detail : String) : Outcome := ⟨[], .error detail⟩

/-- How a Modbus device answers: connecting to a host and port within a number
of milliseconds, a write, and a read of registers after it. The last two are awaited
without a time-out: a request that never gets an answer here has no step in a run. -/
structure Plc where
  connect : String → UInt16 → ℕ → Except String Unit
  write : DeviceWrite → Except String Unit
  read : DeviceWrite → UInt16 → UInt16 → Except String (List UInt16)

/-- What a plugin process does with a request line: the writes it makes, and
the response line, or the error of the exchange. -/
abbrev Plugin : Type := Json → List DeviceWrite × Except String Json

/-! ### Connectors and keys -/

/-- An agent-host connector. -/
structure Conn where
  dsType : String
  config : Json
  secrets : Json
  writable : List String

abbrev ConnStore : Type := String → Option Conn

section

variable (F : FloatText)

/-- The allow-list key of a write target. -/
def targetKey (target : Json) : String :=
  match target.getStr "fn", target.getU64 "address" with
  | some f, some a => keyed f a.toNat
  | _, _ =>
    match target.getStr "node_id" with
    | some n => "node:" ++ n
    | none => target.text F

/-- The writable targets of a connector of a provision frame. -/
def writableTargets (c : Json) : List Json := (c.getArray "writable_targets").getD []

/-- A connector of a provision frame. -/
def connOf (c : Json) : Conn where
  dsType := (c.getStr "type").getD ""
  config := (c.get "config").getD .null
  secrets := (c.get "secrets").getD .null
  writable := (writableTargets c).map (targetKey F)

def parseConnectors (v : Json) : List (String × Conn) :=
  ((v.getArray "connectors").getD []).filterMap fun c =>
    (c.getStr "connector_id").map fun id => (id, connOf F c)

/-- The connector store `reconfigure` leaves: of two connectors with one id the
later one stays. -/
def storeOf (connectors : List (String × Conn)) : ConnStore := fun id => connectors.reverse.lookup id

/-! ### The request -/

/-- What `handle_write` takes out of a write request. -/
structure WriteRequest where
  commandId : String
  connectorId : String
  value : F64
  target : Json
  wantReadback : Bool
  timeoutMs : UInt64

def WriteRequest.ofJson (req : Json) : WriteRequest where
  commandId := (req.getStr "command_id").getD ""
  connectorId := (req.getStr "connector_id").getD ""
  value := (req.getF64 "value").getD .nan
  target := (req.get "target").getD .null
  wantReadback := (req.getBool "readback").getD false
  timeoutMs := (req.getU64 "timeout_ms").getD 5000

/-! ### Modbus -/

/-- The deadline `ModbusClient::new` gives a connection, in milliseconds. -/
def ioTimeout (timeoutMs : UInt64) : ℕ := min 30000 (max 5000 (max timeoutMs.toNat 1000 * 3))

def Target.fnclass (target : Json) : String := (target.getStr "fn").getD "holding"

def Target.datatype (target : Json) : String := (target.getStr "datatype").getD "uint16"

def Target.wordOrder (target : Json) : String := (target.getStr "word_order").getD "big"

def Target.scale (target : Json) : F64 := (target.getF64 "scale").getD (.fin 1)

def Target.offset (target : Json) : F64 := (target.getF64 "offset").getD (.fin 0)

/-- Engineering to raw, in exact numbers: a scale of zero counts as one. The source rounds
the difference and the quotient to doubles. -/
def rawOf (target : Json) (value : F64) : F64 :=
  let scale := Target.scale target
  (value.sub (Target.offset target)).div (if scale.eq (.fin 0) then .fin 1 else scale)

/-- `config.port`, narrowed to 16 bits. -/
def portOf (config : Json) : UInt16 := ((config.getU64 "port").getD 502).toUInt16

def writeModbus (plc : Plc) (config : Json) (r : WriteRequest) : Outcome :=
  match config.getStr "host" with
  | none => .fail "modbus connector config.host missing"
  | some host =>
    let port := portOf config
    match r.target.getU64 "address" with
    | none => .fail "target.address missing"
    | some a =>
      let address := a.toUInt16
      if Target.fnclass r.target = "coil" then
        let w := DeviceWrite.coil host port address (!r.value.eq (.fin 0))
        match plc.connect host port (ioTimeout r.timeoutMs) with
        | .error e => .fail e
        | .ok _ => ⟨[w], (plc.write w).map fun _ => none⟩
      else
        let datatype := Target.datatype r.target
        let wordOrder := Target.wordOrder r.target
        match encodeWords datatype (rawOf r.target r.value) wordOrder with
        | .error e => .fail e
        | .ok words =>
          let w := DeviceWrite.holding host port address words
          match plc.connect host port (ioTimeout r.timeoutMs) with
          | .error e => .fail e
          | .ok _ =>
            match plc.write w with
            | .error e => ⟨[w], .error e⟩
            | .ok _ =>
              if r.wantReadback then
                ⟨[w], (plc.read w address (.ofNat words.length)).map fun regs =>
                  some (decodeWords datatype regs wordOrder (Target.scale r.target)
                    (Target.offset r.target))⟩
              else ⟨[w], .ok none⟩

/-! ### Plugins -/

/-- `json!` of a double: what is not finite has no JSON number. -/
def jsonF64 : F64 → Json
  | .fin q => .num (.float q)
  | _ => .null

/-- The request line of `Plugin::write`. -/
def writeLine (c : Conn) (r : WriteRequest) : Json :=
  .obj [("config", c.config), ("op", .str "write"), ("readback", .bool r.wantReadback),
    ("secrets", c.secrets), ("target", r.target), ("type", .str c.dsType),
    ("v", .num (.posInt 1)), ("write_value", jsonF64 r.value)]

/-- An `Option` field with a default: absent or null, or a value of its type. -/
def optional {α : Type} (read : Json → Option α) : Option Json → Option (Option α)
  | none | some .null => some none
  | some v => (read v).map some

/-- The answer to a write, as `Plugin::write` reads it. -/
def writeResp (line : Json) : Except String (Option F64) :=
  match line.getBool "ok", optional Json.asF64 (line.get "readback"),
      optional Json.asStr (line.get "error") with
  | some ok, some readback, some error =>
    if ok then .ok readback else .error (error.getD "plugin write error")
  | _, _, _ => .error "plugin write response not valid JSON"

def pluginWrite (plugin : Plugin) (c : Conn) (r : WriteRequest) : Outcome :=
  let (writes, line) := plugin (writeLine c r)
  ⟨writes, line.bind writeResp⟩

/-! ### The gate -/

/-- What `do_write` runs against: the device, and the plugins by type. -/
structure Env where
  plc : Plc
  plugins : String → Option Plugin

def doWrite (env : Env) (connectors : ConnStore) (r : WriteRequest) : Outcome :=
  match connectors r.connectorId with
  | none => .fail ("agent has no connector " ++ r.connectorId)
  | some c =>
    if !r.value.isFinite then .fail "non-finite value"
    else
      let key := targetKey F r.target
      if key ∉ c.writable then
        .fail ("target " ++ key ++ " not provisioned writable on " ++ r.connectorId)
      else if c.dsType = "modbus" then writeModbus env.plc c.config r
      else
        match env.plugins c.dsType with
        | some plugin => pluginWrite plugin c r
        | none => .fail ("connector " ++ r.connectorId ++ " type " ++ c.dsType ++ " has no write handler")

end

variable {F : FloatText}

/-! ### What a key says of its target -/

/-- The three shapes of a target. -/
theorem targetKey_cases (t : Json) :
    (∃ f a, t.getStr "fn" = some f ∧ t.getU64 "address" = some a ∧ targetKey F t = keyed f a.toNat) ∨
    ((t.getStr "fn" = none ∨ t.getU64 "address" = none) ∧
      ((∃ n, t.getStr "node_id" = some n ∧ targetKey F t = "node:" ++ n) ∨
        (t.getStr "node_id" = none ∧ targetKey F t = t.text F))) := by
  unfold targetKey
  cases hf : t.getStr "fn" with
  | none =>
    cases hn : t.getStr "node_id" with
    | none => exact Or.inr ⟨Or.inl rfl, Or.inr ⟨rfl, rfl⟩⟩
    | some n => exact Or.inr ⟨Or.inl rfl, Or.inl ⟨n, rfl, rfl⟩⟩
  | some f =>
    cases ha : t.getU64 "address" with
    | some a => exact Or.inl ⟨f, a, rfl, rfl, rfl⟩
    | none =>
      cases hn : t.getStr "node_id" with
      | none => exact Or.inr ⟨Or.inr rfl, Or.inr ⟨rfl, rfl⟩⟩
      | some n => exact Or.inr ⟨Or.inr rfl, Or.inl ⟨n, rfl, rfl⟩⟩

theorem targetKey_of_keyed {t : Json} {f : String} {a : UInt64} (hf : t.getStr "fn" = some f)
    (ha : t.getU64 "address" = some a) : targetKey F t = keyed f a.toNat := by
  unfold targetKey
  rw [hf, ha]

theorem keyed_coil_ne_node (a : ℕ) (n : String) : keyed "coil" a ≠ "node:" ++ n := by
  intro h
  have hl := congrArg String.toList h
  rw [toList_keyed, String.toList_append] at hl
  exact absurd (List.cons.inj hl).1 (by decide)

/-- Targets with one key: the same function and address, or the key reads as a
node, or they are the same target. -/
theorem same_key_cases {g t : Json} (h : targetKey F g = targetKey F t) :
    (∃ f a, g.getStr "fn" = some f ∧ g.getU64 "address" = some a ∧ t.getStr "fn" = some f ∧
      t.getU64 "address" = some a) ∨
    (∃ n, targetKey F g = "node:" ++ n) ∨
    (g = t ∧ g.getStr "node_id" = none ∧ (g.getStr "fn" = none ∨ g.getU64 "address" = none)) := by
  rcases targetKey_cases (F := F) g with
    ⟨f, a, hf, ha, hk⟩ | ⟨hshape, ⟨n, -, hk⟩ | ⟨hn, hk⟩⟩
  · rcases targetKey_cases (F := F) t with ⟨f', a', hf', ha', hk'⟩ | ⟨-, ⟨n, -, hk'⟩ | ⟨-, hk'⟩⟩
    · obtain ⟨rfl, haa⟩ := keyed_inj (hk.symm.trans (h.trans hk'))
      obtain rfl := UInt64.toNat_inj.mp haa
      exact Or.inl ⟨f, a, hf, ha, hf', ha'⟩
    · exact Or.inr (Or.inl ⟨n, h.trans hk'⟩)
    · exact absurd (hk'.symm.trans (h.symm.trans hk)) (text_ne_keyed _ _ _)
  · exact Or.inr (Or.inl ⟨n, hk⟩)
  · rcases targetKey_cases (F := F) t with ⟨f', a', -, -, hk'⟩ | ⟨-, ⟨n, -, hk'⟩ | ⟨-, hk'⟩⟩
    · exact absurd (hk.symm.trans (h.trans hk')) (text_ne_keyed _ _ _)
    · exact Or.inr (Or.inl ⟨n, h.trans hk'⟩)
    · exact Or.inr (Or.inr ⟨text_inj (hk.symm.trans (h.trans hk')), hn, hshape⟩)

theorem sorted_of_writable {c t : Json} (hc : c.Sorted) (ht : t ∈ writableTargets c) : t.Sorted := by
  unfold writableTargets at ht
  cases hl : c.getArray "writable_targets" with
  | none => rw [hl] at ht; cases ht
  | some l => rw [hl] at ht; exact hc.of_getArray hl ht

/-- A coil is written only when the target says so: the default is `holding`. -/
theorem Target.fnclass_eq_coil {t : Json} :
    Target.fnclass t = "coil" ↔ t.getStr "fn" = some "coil" := by
  unfold Target.fnclass
  cases t.getStr "fn" with
  | none => exact ⟨fun h => absurd h (by decide), fun h => by cases h⟩
  | some f => rw [Option.getD_some, Option.some.injEq]

/-! ### What a write that reached a device had -/

theorem mem_writes_writeModbus {plc : Plc} {config : Json} {r : WriteRequest} {w : DeviceWrite}
    (h : w ∈ (writeModbus plc config r).writes) :
    ∃ host a, config.getStr "host" = some host ∧ r.target.getU64 "address" = some a ∧
      ((Target.fnclass r.target = "coil" ∧
          w = .coil host (portOf config) a.toUInt16 (!r.value.eq (.fin 0))) ∨
        (Target.fnclass r.target ≠ "coil" ∧ ∃ words,
          encodeWords (Target.datatype r.target) (rawOf r.target r.value) (Target.wordOrder r.target) =
            .ok words ∧ w = .holding host (portOf config) a.toUInt16 words)) := by
  unfold writeModbus at h
  split at h
  · cases h
  · rename_i host hhost
    split at h
    · cases h
    · rename_i a ha
      simp only at h
      split at h
      · rename_i hcoil
        split at h
        · cases h
        · exact ⟨host, a, hhost, ha, Or.inl ⟨hcoil, List.mem_singleton.mp h⟩⟩
      · rename_i hcoil
        split at h
        · cases h
        · rename_i words hwords
          refine ⟨host, a, hhost, ha, Or.inr ⟨hcoil, words, hwords, ?_⟩⟩
          split at h
          · cases h
          · split at h
            · exact List.mem_singleton.mp h
            · split at h <;> exact List.mem_singleton.mp h

theorem mem_writes_doWrite {env : Env} {connectors : ConnStore} {r : WriteRequest} {w : DeviceWrite}
    (h : w ∈ (doWrite F env connectors r).writes) :
    ∃ c, connectors r.connectorId = some c ∧ r.value.isFinite = true ∧
      targetKey F r.target ∈ c.writable ∧
      ((c.dsType = "modbus" ∧ w ∈ (writeModbus env.plc c.config r).writes) ∨
        (c.dsType ≠ "modbus" ∧ ∃ plugin, env.plugins c.dsType = some plugin ∧
          w ∈ (plugin (writeLine c r)).1)) := by
  unfold doWrite at h
  split at h
  · cases h
  · rename_i c hc
    split at h
    · cases h
    · rename_i hv
      simp only at h
      split at h
      · cases h
      · rename_i hkey
        refine ⟨c, hc, by simpa using hv, not_not.mp hkey, ?_⟩
        split at h
        · rename_i hm
          exact Or.inl ⟨hm, h⟩
        · rename_i hm
          split at h
          · rename_i plugin hp
            exact Or.inr ⟨hm, plugin, hp, h⟩
          · cases h

/-- A request with a finite value to a listed target goes through the gate. -/
theorem doWrite_of_listed {env : Env} {connectors : ConnStore} {r : WriteRequest} {c : Conn}
    (hc : connectors r.connectorId = some c) (hv : r.value.isFinite = true)
    (hk : targetKey F r.target ∈ c.writable) :
    doWrite F env connectors r =
      if c.dsType = "modbus" then writeModbus env.plc c.config r
      else
        match env.plugins c.dsType with
        | some plugin => pluginWrite plugin c r
        | none =>
          .fail ("connector " ++ r.connectorId ++ " type " ++ c.dsType ++ " has no write handler") := by
  simp [doWrite, hc, hv, hk]

/-! ### A device that accepts and a request to it -/

/-- A device that accepts every write. -/
def accepting : Plc := ⟨fun _ _ _ => .ok (), fun _ => .ok (), fun _ _ _ => .ok []⟩

/-- A request to write 1 to a target of the connector `id`. -/
def requestTo (id : String) (target : Json) : Json :=
  .obj [("connector_id", .str id), ("target", target), ("value", .num (.float 1))]

theorem ofJson_requestTo (id : String) (target : Json) :
    WriteRequest.ofJson (requestTo id target) = ⟨"", id, .fin 1, target, false, 5000⟩ := rfl

theorem sorted_requestTo (id : String) {target : Json} (h : target.Sorted) :
    (requestTo id target).Sorted := by
  simp +decide [requestTo, Json.Sorted, Json.Sorted.Members, h]

end Control
end LymonAgent
