/-
# The OPC-UA allow-list

The plugin behind an OPC-UA connector (`crates/plugin-opcua/src/main.rs`, on the
SDK of `crates/collector-sdk/src/lib.rs`): a write line is read into a request,
the node is parsed from `target.node_id`, a session for the endpoint is taken
or opened, and one Write service call is made on it.

The plugin looks at the node only; the gate looks at the key, and for a target
with a function and an address the key leaves the node out. `nodes_within_iff`
says for which lists this matters: the nodes written are listed exactly when
there is no endpoint or no key of the list reads as a name and a number.

What the server answers (`UaServer`) and how a node is read from its text form
(`NodeIdText`) are parameters. Left out: the message `serde` gives for a line
that is no request.

Key definitions: `OpcUa.write`, `opcuaPlugin`, `NodesWithin`.
-/
import LymonAgent.Control.Write
import Mathlib.Data.List.Nodup
import Mathlib.Data.List.Perm.Subperm

namespace LymonAgent
namespace Control

open Text

/-- `NodeId::from_str`. A string identifier made of digits is one of the texts
it accepts, in namespace 0. -/
structure NodeIdText where
  fromStr : String → Option NodeId
  fromStr_digits : ∀ n : ℕ, fromStr ("s=" ++ n.repr) = some ⟨0, .string n.repr⟩

inductive Identity where
  | anonymous
  | userName (user password : String)
  deriving DecidableEq

structure Session where
  endpoint : String
  identity : Identity
  deriving DecidableEq

/-- How an OPC-UA server answers: connecting, a Write call, with the status of
each node that is not good as its text, and a Read call. -/
structure UaServer where
  connect : String → Identity → Except String Unit
  write : Session → NodeId → Variant → Except String (List (Option String))
  read : Session → NodeId → Except String (List (Option Variant))

/-! ### The request line -/

structure ReadRequest where
  op : String
  dsType : String
  config : Json
  secrets : Json
  target : Json
  writeValue : Option F64
  readback : Bool

/-- A field with a default. -/
def defaulted {α : Type} (read : Json → Option α) (d : α) : Option Json → Option α
  | none => some d
  | some v => read v

/-- The fields a write uses; the others have their own types and defaults. -/
def ReadRequest.ofJson (line : Json) : Option ReadRequest :=
  match line with
  | .obj _ =>
    match defaulted Json.asStr "" (line.get "op"), defaulted Json.asStr "" (line.get "type"),
        optional Json.asF64 (line.get "write_value"), defaulted Json.asBool false (line.get "readback") with
    | some op, some dsType, some writeValue, some readback =>
      some ⟨op, dsType, (line.get "config").getD .null, (line.get "secrets").getD .null,
        (line.get "target").getD .null, writeValue, readback⟩
    | _, _, _, _ => none
  | _ => none

def identityFrom (req : ReadRequest) : Identity :=
  match req.config.getStr "user" with
  | some user => .userName user ((req.secrets.getStr "password").getD "")
  | none => .anonymous

/-! ### The connector -/

def variantToF64 : Variant → Option F64
  | .double x => some x
  | .float bits => some (.ofF32Bits bits)
  | .int64 n | .uint64 n | .int32 n | .uint32 n | .int16 n | .uint16 n | .sbyte n | .byte n =>
    some (.fin n)
  | .boolean b => some (.fin (if b then 1 else 0))
  | .other => none

/-- The value as the wire type of its datatype; the casts saturate. -/
def variantOf (datatype : String) (raw : F64) : Variant :=
  match datatype with
  | "bool" | "boolean" => .boolean (!raw.eq (.fin 0))
  | "int16" => .int16 (raw.round.castSat (-32768) 32767)
  | "uint16" => .uint16 (raw.round.castSat 0 65535)
  | "int32" => .int32 (raw.round.castSat (-2147483648) 2147483647)
  | "uint32" => .uint32 (raw.round.castSat 0 4294967295)
  | "float" | "float32" => .float raw.toF32Bits
  | _ => .double raw

namespace OpcUa

section

variable (srv : UaServer)

/-- A session for the endpoint: the cached one if it is for this endpoint. -/
def sessionFor (conn : Option Session) (endpoint : String) (identity : Identity) :
    Option Session × Except String Session :=
  let connect : Option Session × Except String Session :=
    match srv.connect endpoint identity with
    | .error e => (none, .error e)
    | .ok _ => (some ⟨endpoint, identity⟩, .ok ⟨endpoint, identity⟩)
  match conn with
  | some s => if s.endpoint ≠ endpoint then connect else (conn, .ok s)
  | none => connect

/-- `OpcUaConnector::write`: the cached session after it, the Write calls made,
and the result. -/
def write (P : NodeIdText) (conn : Option Session) (req : ReadRequest) :
    Option Session × List DeviceWrite × Except String (Option F64) :=
  match req.config.getStr "endpoint_url" with
  | none => (conn, [], .error "config.endpoint_url is required")
  | some endpoint =>
    match req.target.getStr "node_id" with
    | none => (conn, [], .error "target.node_id is required (e.g. \"ns=2;s=Setpoint\")")
    | some nodeStr =>
      match P.fromStr nodeStr with
      | none => (conn, [], .error ("invalid node_id " ++ nodeStr.quote))
      | some nodeId =>
        match req.writeValue with
        | none => (conn, [], .error "write_value is required")
        | some value =>
          let datatype := (req.target.getStr "datatype").getD "double"
          let variant := variantOf datatype (rawOf req.target value)
          match sessionFor srv conn endpoint (identityFrom req) with
          | (conn, .error e) => (conn, [], .error e)
          | (conn, .ok session) =>
            let w := DeviceWrite.node session.endpoint nodeId variant
            match srv.write session nodeId variant with
            | .error status => (none, [w], .error ("OPC-UA write failed: " ++ status))
            | .ok statuses =>
              match statuses.head? with
              | some (some status) => (none, [w], .error ("OPC-UA write rejected: " ++ status))
              | _ =>
                if !req.readback then (conn, [w], .ok none)
                else
                  match srv.read session nodeId with
                  | .error s => (conn, [w], .error ("OPC-UA read-back failed: " ++ s))
                  | .ok values =>
                    (conn, [w], .ok ((values.head?.join.bind variantToF64).map fun r =>
                      (r.mul (Target.scale req.target)).add (Target.offset req.target)))

end

end OpcUa

/-- The plugin process on a write line, with the session it has cached. -/
def opcuaPlugin (P : NodeIdText) (srv : UaServer) (conn : Option Session) : Plugin := fun line =>
  match ReadRequest.ofJson line with
  | none => ([], .ok (.obj [("error", .str "bad request"), ("ok", .bool false)]))
  | some req =>
    let (_, writes, result) := OpcUa.write srv P conn req
    match result with
    | .ok readback =>
      (writes, .ok (.obj [("ok", .bool true), ("readback", (readback.map jsonF64).getD .null)]))
    | .error e => (writes, .ok (.obj [("error", .str e), ("ok", .bool false)]))

variable {F : FloatText} {P : NodeIdText} {srv : UaServer} {conn : Option Session}

/-! ### What a Write call is for -/

theorem mem_writes_opcua {req : ReadRequest} {w : DeviceWrite}
    (h : w ∈ (OpcUa.write srv P conn req).2.1) :
    ∃ url endpoint n node v, req.config.getStr "endpoint_url" = some url ∧
      req.target.getStr "node_id" = some n ∧ P.fromStr n = some node ∧ w = .node endpoint node v := by
  unfold OpcUa.write at h
  split at h
  · cases h
  · rename_i url hurl
    split at h
    · cases h
    · rename_i n hn
      split at h
      · cases h
      · rename_i node hnode
        split at h
        · cases h
        · rename_i value _
          simp only at h
          split at h
          · cases h
          · rename_i session _
            refine ⟨url, session.endpoint, n, node,
              variantOf ((req.target.getStr "datatype").getD "double") (rawOf req.target value),
              hurl, hn, hnode, ?_⟩
            split at h
            · exact List.mem_singleton.mp h
            · split at h
              · exact List.mem_singleton.mp h
              · split at h
                · exact List.mem_singleton.mp h
                · split at h <;> exact List.mem_singleton.mp h

/-- The agent's write line is a request, with the connector's config and the
request's target and value. -/
theorem ofJson_writeLine (c : Conn) {r : WriteRequest} (hv : r.value.isFinite = true) :
    ReadRequest.ofJson (writeLine c r) =
      some ⟨"write", c.dsType, c.config, c.secrets, r.target, some r.value, r.wantReadback⟩ := by
  obtain ⟨q, hq⟩ := F64.exists_fin_of_isFinite hv
  simp only [writeLine, hq]
  rfl

theorem mem_writes_opcuaPlugin {c : Conn} {r : WriteRequest} (hv : r.value.isFinite = true)
    {w : DeviceWrite} (h : w ∈ (opcuaPlugin P srv conn (writeLine c r)).1) :
    ∃ url endpoint n node v, c.config.getStr "endpoint_url" = some url ∧
      r.target.getStr "node_id" = some n ∧ P.fromStr n = some node ∧ w = .node endpoint node v := by
  let req : ReadRequest :=
    ⟨"write", c.dsType, c.config, c.secrets, r.target, some r.value, r.wantReadback⟩
  have hw : w ∈ (OpcUa.write srv P conn req).2.1 := by
    unfold opcuaPlugin at h
    rw [ofJson_writeLine c hv] at h
    simp only at h
    split at h <;> exact h
  exact mem_writes_opcua hw

/-! ### The gate -/

/-- Every node that any request to the connector makes the plugin write is the
node of a listed target. -/
def NodesWithin (F : FloatText) (P : NodeIdText) (connectors : ConnStore) (id : String)
    (targets : List Json) : Prop :=
  ∀ req : Json, req.Sorted → (WriteRequest.ofJson req).connectorId = id →
    ∀ env srv conn, (∀ c, connectors id = some c → env.plugins c.dsType = some (opcuaPlugin P srv conn)) →
      ∀ w ∈ (doWrite F env connectors (WriteRequest.ofJson req)).writes,
        ∃ t ∈ targets, ∃ n node endpoint v, t.getStr "node_id" = some n ∧ P.fromStr n = some node ∧
          w = .node endpoint node v

/-- A server that accepts every write. -/
def acceptingServer : UaServer := ⟨fun _ _ => .ok (), fun _ _ _ => .ok [none], fun _ _ => .ok []⟩

/-- A function, an address and a node. -/
def mixedTarget (f : String) (a : UInt64) (n : String) : Json :=
  .obj [("address", .num (.posInt a)), ("fn", .str f), ("node_id", .str n)]

theorem sorted_mixedTarget (f : String) (a : UInt64) (n : String) : (mixedTarget f a n).Sorted := by
  simp +decide [mixedTarget, Json.Sorted, Json.Sorted.Members]

/-- Some node of the number family is not in a finite list. -/
theorem exists_fresh (l : List NodeId) : ∃ k : ℕ, (⟨0, .string k.repr⟩ : NodeId) ∉ l := by
  by_contra hall
  push Not at hall
  have hinj : Function.Injective fun k : ℕ => (⟨0, .string k.repr⟩ : NodeId) := by
    intro j k h
    simp only [NodeId.mk.injEq, Identifier.string.injEq, true_and] at h
    exact repr_inj (congrArg String.toList h)
  have hsub : (List.range (l.length + 1)).map (fun k : ℕ => (⟨0, .string k.repr⟩ : NodeId)) ⊆ l := by
    intro x hx
    obtain ⟨k, -, rfl⟩ := List.mem_map.mp hx
    exact hall k
  have hlen := ((List.Nodup.map hinj List.nodup_range).subperm hsub).length_le
  rw [List.length_map, List.length_range] at hlen
  omega

variable {connectors : ConnStore} {id : String} {c : Json}

/-- The plugin writes the node of a mixed target. -/
theorem writes_mixedTarget {url : String} {k : Conn} (hurl : k.config.getStr "endpoint_url" = some url)
    {n : String} {node : NodeId} (hn : P.fromStr n = some node) (id f : String) (a : UInt64) :
    ∃ v, (opcuaPlugin P acceptingServer none
      (writeLine k ⟨"", id, .fin 1, mixedTarget f a n, false, 5000⟩)).1 = [.node url node v] := by
  have hnode : (mixedTarget f a n).getStr "node_id" = some n := rfl
  refine ⟨variantOf "double" (rawOf (mixedTarget f a n) (.fin 1)), ?_⟩
  unfold opcuaPlugin
  rw [ofJson_writeLine k rfl]
  simp only [OpcUa.write, hurl, hnode, hn, OpcUa.sessionFor, acceptingServer]
  rfl

/-- A target with a node has the key of its node, or one that reads as a name
and a number. -/
theorem targetKey_of_node {t : Json} {n : String} (hn : t.getStr "node_id" = some n)
    (hk : ∀ (f : String) (a : UInt64), targetKey F t ≠ keyed f a.toNat) :
    targetKey F t = "node:" ++ n := by
  rcases targetKey_cases (F := F) t with ⟨f, a, -, -, h⟩ | ⟨-, ⟨m, hm, h⟩ | ⟨hnone, -⟩⟩
  · exact absurd h (hk f a)
  · rw [hn] at hm
    rw [h, Option.some.inj hm]
  · rw [hn] at hnone
    cases hnone

theorem node_inj {m n : String} (h : "node:" ++ m = "node:" ++ n) : m = n := by
  have hl := congrArg String.toList h
  rw [String.toList_append, String.toList_append] at hl
  exact String.toList_injective (List.append_cancel_left hl)

/-- Through a key that reads as a name and a number any node is written. -/
theorem key_ne_of_within (hty : (connOf F c).dsType ≠ "modbus")
    (hs : connectors id = some (connOf F c)) {url : String}
    (hurl : (connOf F c).config.getStr "endpoint_url" = some url)
    (hin : NodesWithin F P connectors id (writableTargets c)) {t : Json}
    (ht : t ∈ writableTargets c) (f : String) (a : UInt64) : targetKey F t ≠ keyed f a.toNat := by
  intro hk
  obtain ⟨k, hfresh⟩ := exists_fresh
    ((writableTargets c).filterMap fun t => (t.getStr "node_id").bind P.fromStr)
  obtain ⟨v, hw⟩ := writes_mixedTarget hurl (P.fromStr_digits k) id f a
  have hmem : targetKey F (mixedTarget f a ("s=" ++ k.repr)) ∈ (connOf F c).writable :=
    List.mem_map.mpr ⟨t, ht, hk⟩
  let env : Env := ⟨accepting, fun _ => some (opcuaPlugin P acceptingServer none)⟩
  obtain ⟨t', ht', n, node, endpoint, v', hn, hnode, hw'⟩ := hin
    (requestTo id (mixedTarget f a ("s=" ++ k.repr))) (sorted_requestTo id (sorted_mixedTarget _ _ _))
    rfl env acceptingServer none (fun _ _ => rfl)
    (.node url ⟨0, .string k.repr⟩ v) (by
      rw [ofJson_requestTo, doWrite_of_listed hs rfl hmem, if_neg hty]
      simp only [env, pluginWrite, hw, List.mem_singleton])
  obtain ⟨-, rfl, -⟩ := DeviceWrite.node.inj hw'
  exact hfresh (List.mem_filterMap.mpr ⟨t', ht', by rw [hn]; exact hnode⟩)

/-- **OPC-UA writes stay inside the allow-list exactly when no key reads as a
name and a number.** For a connector served by the OPC-UA plugin, each of whose
listed targets has a node: every node any write request makes the plugin write
is a listed one, if and only if the connector has no endpoint or no listed
target has a key `name:number`. -/
theorem nodes_within_iff (hty : (connOf F c).dsType ≠ "modbus")
    (hs : connectors id = some (connOf F c))
    (hnodes : ∀ t ∈ writableTargets c, ∃ n, t.getStr "node_id" = some n) :
    NodesWithin F P connectors id (writableTargets c) ↔
      ((connOf F c).config.getStr "endpoint_url" = none ∨
        ∀ t ∈ writableTargets c, ∀ (f : String) (a : UInt64), targetKey F t ≠ keyed f a.toNat) := by
  constructor
  · intro hin
    cases hurl : (connOf F c).config.getStr "endpoint_url" with
    | none => exact Or.inl rfl
    | some url => exact Or.inr fun t ht f a => key_ne_of_within hty hs hurl hin ht f a
  · intro hor req _ hid env srv conn hplugin w hw
    obtain ⟨k, hk, hv, hkey, hw⟩ := mem_writes_doWrite hw
    rw [hid, hs] at hk
    obtain rfl := Option.some.inj hk
    obtain ⟨-, plugin, hp, hw⟩ := hw.resolve_left fun h => hty h.1
    rw [hplugin _ hs] at hp
    obtain rfl := Option.some.inj hp
    obtain ⟨url, endpoint, n, node, v, hurl, hn, hnode, rfl⟩ := mem_writes_opcuaPlugin hv hw
    have hkeys := hor.resolve_left fun h => by rw [hurl] at h; cases h
    obtain ⟨t, ht, hkt⟩ := List.mem_map.mp hkey
    obtain ⟨m, hm⟩ := hnodes t ht
    -- neither key reads as a name and a number, so both name their nodes
    have htkey := targetKey_of_node hm (hkeys t ht)
    have hrkey := targetKey_of_node hn fun f a h => hkeys t ht f a (hkt.trans h)
    have hmn : m = n := node_inj (htkey.symm.trans (hkt.trans hrkey))
    exact ⟨t, ht, m, node, endpoint, v, hm, hmn ▸ hnode, rfl⟩

/-! ### Two lists -/

/-- Nodes of one-digit namespaces with string identifiers. -/
def plainNodes : NodeIdText where
  fromStr s :=
    match s.toList with
    | 's' :: '=' :: v => some ⟨0, .string (.ofList v)⟩
    | 'n' :: 's' :: '=' :: d :: ';' :: 's' :: '=' :: v =>
      if d.isDigit then some ⟨d.toNat - '0'.toNat, .string (.ofList v)⟩ else none
    | _ => none
  fromStr_digits n := by
    have hl : ("s=" ++ n.repr).toList = 's' :: '=' :: n.repr.toList := by
      rw [String.toList_append]; rfl
    simp only [hl, String.ofList_toList]

def uaConnector (targets : List Json) : Json :=
  .obj [("config", .obj [("endpoint_url", .str "opc.tcp://10.0.0.5:4840")]),
    ("connector_id", .str "ua"), ("type", .str "opcua"), ("writable_targets", .arr targets)]

def uaFrame (targets : List Json) : Json :=
  .obj [("connectors", .arr [uaConnector targets]), ("kind", .str "provision")]

def nodeOnly (n : String) : Json := .obj [("node_id", .str n)]

theorem nodes_within_setpoint :
    NodesWithin plainFloat plainNodes
      (storeOf (parseConnectors plainFloat (uaFrame [nodeOnly "ns=2;s=Setpoint"]))) "ua"
      [nodeOnly "ns=2;s=Setpoint"] := by
  have hmem : ∀ t ∈ writableTargets (uaConnector [nodeOnly "ns=2;s=Setpoint"]),
      t = nodeOnly "ns=2;s=Setpoint" := fun t ht => List.mem_singleton.mp ht
  refine (nodes_within_iff (c := uaConnector [nodeOnly "ns=2;s=Setpoint"]) (by decide) rfl ?_).mpr
    (Or.inr ?_)
  · intro t ht
    obtain rfl := hmem t ht
    exact ⟨_, rfl⟩
  · intro t ht f a hk
    obtain rfl := hmem t ht
    have hlast : (keyed f a.toNat).toList.getLast? = some 't' := by rw [← hk]; decide
    exact absurd (getLast_keyed hlast) (by decide)

/-- A node whose identifier ends like a key lets a request write another node. -/
theorem nodes_outside :
    targetKey plainFloat (nodeOnly "ns=2;s=Motor:5") =
      targetKey plainFloat (mixedTarget "node:ns=2;s=Motor" 5 "ns=2;s=Other") ∧
    (doWrite plainFloat ⟨accepting, fun _ => some (opcuaPlugin plainNodes acceptingServer none)⟩
      (storeOf (parseConnectors plainFloat (uaFrame [nodeOnly "ns=2;s=Motor:5"])))
      (WriteRequest.ofJson (requestTo "ua" (mixedTarget "node:ns=2;s=Motor" 5 "ns=2;s=Other")))).writes =
        [.node "opc.tcp://10.0.0.5:4840" ⟨2, .string "Other"⟩ (.double (.fin 1))] ∧
    ¬ NodesWithin plainFloat plainNodes
      (storeOf (parseConnectors plainFloat (uaFrame [nodeOnly "ns=2;s=Motor:5"]))) "ua"
      [nodeOnly "ns=2;s=Motor:5"] := by
  have hw : (doWrite plainFloat ⟨accepting, fun _ => some (opcuaPlugin plainNodes acceptingServer none)⟩
      (storeOf (parseConnectors plainFloat (uaFrame [nodeOnly "ns=2;s=Motor:5"])))
      (WriteRequest.ofJson (requestTo "ua" (mixedTarget "node:ns=2;s=Motor" 5 "ns=2;s=Other")))).writes =
        [.node "opc.tcp://10.0.0.5:4840" ⟨2, .string "Other"⟩ (.double (.fin 1))] := by decide +kernel
  refine ⟨rfl, hw, fun hin => ?_⟩
  obtain ⟨t, ht, n, node, endpoint, v, hn, hnode, hx⟩ := hin _
    (sorted_requestTo "ua" (sorted_mixedTarget _ _ _)) rfl ⟨accepting, _⟩ acceptingServer none
    (fun _ _ => rfl) _ (hw ▸ List.mem_singleton_self _)
  obtain rfl := List.mem_singleton.mp ht
  obtain rfl : "ns=2;s=Motor:5" = n := Option.some.inj hn
  obtain rfl : ⟨2, .string "Motor:5"⟩ = node := Option.some.inj hnode
  obtain ⟨-, hnodes, -⟩ := DeviceWrite.node.inj hx
  exact absurd hnodes (by decide)

end Control
end LymonAgent
