/-
# The plugin side

`crates/collector-sdk/src/lib.rs`: a plugin reads request lines, hands each to
its collector and writes response lines. Every request gets one line
(`dispatch`), except a subscription, which gets one for each batch it emits and
one when it ends (`batchLine`, `statusLine`).

A collector is a parameter: the state it keeps and what it answers. What a
subscription emits, and when, is left to the caller.

Key definitions: `ReadRequest`, `Sample`, `Collector`, `dispatch`, `batchLine`,
`statusLine`.
-/
import LymonAgent.Control.OpcUa

namespace LymonAgent
namespace Sdk

open Control (defaulted jsonF64)

/-! ### Requests -/

/-- One point to read. -/
structure Point where
  selection : Json
  naming : Json

/-- One request from the agent. -/
structure ReadRequest where
  v : ℕ
  op : String
  connectorId : String
  dsType : String
  config : Json
  secrets : Json
  selection : Json
  args : Json
  naming : Json
  points : List Point
  target : Json
  writeValue : Option F64
  readback : Bool

def asU32 (v : Json) : Option ℕ :=
  v.asU64.bind fun n => if n.toNat < 2 ^ 32 then some n.toNat else none

def Point.ofJson : Json → Option Point
  | .obj l => some ⟨((Json.obj l).get "selection").getD .null, ((Json.obj l).get "naming").getD .null⟩
  | _ => none

def asPoints (v : Json) : Option (List Point) := v.asArray.bind fun l => l.mapM Point.ofJson

/-- Every field has a default, so a request is any object whose fields have the
right types. -/
def ReadRequest.ofJson (line : Json) : Option ReadRequest :=
  match line with
  | .obj _ =>
    match defaulted asU32 0 (line.get "v"), defaulted Json.asStr "" (line.get "op"),
        defaulted Json.asStr "" (line.get "connector_id"), defaulted Json.asStr "" (line.get "type"),
        defaulted asPoints [] (line.get "points"), Control.optional Json.asF64 (line.get "write_value"),
        defaulted Json.asBool false (line.get "readback") with
    | some v, some op, some connectorId, some dsType, some points, some writeValue, some readback =>
      some {
        v, op, connectorId, dsType, points, writeValue, readback
        config := (line.get "config").getD .null
        secrets := (line.get "secrets").getD .null
        selection := (line.get "selection").getD .null
        args := (line.get "args").getD .null
        naming := (line.get "naming").getD .null
        target := (line.get "target").getD .null }
    | _, _, _, _, _, _, _ => none
  | _ => none

/-- The fields a write uses. -/
def ReadRequest.forWrite (req : ReadRequest) : Control.ReadRequest :=
  ⟨req.op, req.dsType, req.config, req.secrets, req.target, req.writeValue, req.readback⟩

theorem ofJson_forWrite {line : Json} {req : ReadRequest} (h : ReadRequest.ofJson line = some req) :
    Control.ReadRequest.ofJson line = some req.forWrite := by
  cases line with
  | obj l =>
    simp only [ReadRequest.ofJson] at h
    split at h
    · rename_i hop _ hty _ hval hrb
      obtain rfl := Option.some.inj h
      simp only [Control.ReadRequest.ofJson, hop, hty, hval, hrb, ReadRequest.forWrite]
    · cases h
  | _ => cases h

def isNull : Json → Bool
  | .null => true
  | _ => false

/-- Ad-hoc parameters stand in for an absent selection. -/
def ReadRequest.mirrored (req : ReadRequest) : ReadRequest :=
  if isNull req.selection && !isNull req.args then { req with selection := req.args } else req

/-- The points of the request: the list, or the request's own selection. -/
def ReadRequest.allPoints (req : ReadRequest) : List Point :=
  if req.points.isEmpty then [⟨req.selection, req.naming⟩] else req.points

/-! ### Results -/

/-- One reading. -/
structure Sample where
  variableId : String
  value : F64
  tsMs : Option Int64
  quality : UInt32
  deriving DecidableEq

/-- An `i64` as a JSON number. -/
def jsonI64 (n : Int64) : Json :=
  if h : n.toInt < 0 then
    .num (.negInt ⟨(-n.toInt - 1).toNat, by have := n.le_toInt; omega⟩)
  else .num (.posInt (.ofNat n.toInt.toNat))

/-- A time that is absent is left out. -/
def Sample.toJson (s : Sample) : Json :=
  .obj ([("quality", .num (.posInt s.quality.toUInt64))] ++
    (s.tsMs.map fun t => ("ts_ms", jsonI64 t)).toList ++
    [("value", jsonF64 s.value), ("variable_id", .str s.variableId)])

/-- A node of a source tree. -/
inductive Node where
  | node (id label nodeType : String) (children : List Node) (info : Json)

mutual

/-- Empty children and null information are left out. -/
def Node.toJson : Node → Json
  | .node id label nodeType children info =>
    .obj ((if children.isEmpty then [] else [("children", .arr (Node.listJson children))]) ++
      [("id", .str id), ("label", .str label)] ++
      (if isNull info then [] else [("meta", info)]) ++ [("node_type", .str nodeType)])

def Node.listJson : List Node → List Json
  | [] => []
  | n :: ns => n.toJson :: Node.listJson ns

end

structure Discovery where
  schemaKind : String
  nodes : List Node

/-! ### Responses -/

def errorLine (e : String) : Json := .obj [("error", .str e), ("ok", .bool false)]

/-- `{"ok":true}` with one more member. -/
def okLine (k : String) (v : Json) : Json := .obj [("ok", .bool true), (k, v)]

def respond {α : Type} (result : Except String α) (ok : α → Json) : Json :=
  match result with
  | .ok a => ok a
  | .error e => errorLine e

/-- The line of one batch of samples. -/
def batchLine (samples : List Sample) : Json := okLine "samples" (.arr (samples.map Sample.toJson))

/-- The line that ends a subscription. -/
def statusLine (result : Except String Unit) : Json := respond result fun _ => .obj [("ok", .bool true)]

/-- The line of a source tree. -/
def treeLine (d : Discovery) : Json :=
  okLine "result" (.obj [("kind", .str "tree"), ("nodes", .arr (Node.listJson d.nodes)),
    ("schema_kind", .str d.schemaKind)])

/-- The line of a write. -/
def readbackLine (readback : Option F64) : Json :=
  okLine "readback" ((readback.map jsonF64).getD .null)

/-- A connector: the state it keeps from one request to the next, and what it
answers. -/
structure Collector (σ : Type) where
  read : σ → ReadRequest → σ × Except String (List Sample)
  query : σ → ReadRequest → σ × Except String Json
  write : σ → ReadRequest → σ × Except String (Option F64)
  discover : σ → ReadRequest → σ × Except String Discovery

/-- Samples as a scalar or a vector. -/
def shaped : List Sample → Json
  | [one] => .obj [("kind", .str "scalar"), ("value", jsonF64 one.value)]
  | many => .obj [("kind", .str "vector"), ("values", .arr (many.map fun s => jsonF64 s.value))]

/-- The default `query`: a read. -/
def queryOfRead {σ : Type} (read : σ → ReadRequest → σ × Except String (List Sample)) (s : σ)
    (req : ReadRequest) : σ × Except String Json :=
  let (t, result) := read s req
  (t, result.map shaped)

/-- One request, one response: an unknown operation is acknowledged. -/
def dispatch {σ : Type} (c : Collector σ) (s : σ) (req : ReadRequest) : σ × Json :=
  match req.op with
  | "read" => let (t, r) := c.read s req; (t, respond r batchLine)
  | "discover" => let (t, r) := c.discover s req; (t, respond r treeLine)
  | "query" | "test" | "history" => let (t, r) := c.query s req; (t, respond r (okLine "result"))
  | "write" => let (t, r) := c.write s req; (t, respond r readbackLine)
  | _ => (s, .obj [("ok", .bool true)])

end Sdk
end LymonAgent
