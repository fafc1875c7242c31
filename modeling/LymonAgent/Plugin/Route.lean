/-
# Where an operation goes

The agent has adapters of its own for `modbus` and `pss`; any other type goes to
a plugin, if one serves it. The choice is made at each place that starts an
operation: `run_ingest` and `collect_once` of `src/collector.rs`, and
`handle_query`, `handle_subscribe` and `do_write` of `src/control.rs`. A route
here is the plugin and the request line it is sent.

`PluginHost::discover` registers any type a manifest declares, and the places
check for the agent's own types in different orders, or for one of them only.
`built_in_iff` says which operations on a connector of these types stay with the
agent.

Key definitions: `ingestRoute`, `queryRoute`, `subscribeRoutes`, `writeRoute`,
`Operation`, `Operation.sent`, `Operation.Stays`.
Key theorems: `handleWrite_route`.
-/
import LymonAgent.Collect.Provision
import LymonAgent.Plugin.Host

namespace LymonAgent
namespace Plugin

open Control Collect

/-- The types with an adapter in the agent. -/
def builtIn : List String := ["modbus", "pss"]

/-- A plugin and the line it is sent. -/
abbrev Route : Type := Manifest × Json

/-! ### The five places -/

/-- `selection.subscribe`. -/
def subscribeMode (ing : Ingest) : Bool := (ing.selection.getBool "subscribe").getD false

/-- `collect_once`. -/
def pollRoute (host : PluginHost) (c : Conn) (ing : Ingest) : Option Route :=
  match c.dsType with
  | "modbus" => none
  | "pss" => none
  | other => (host.forType other).map fun p => (p, readLine c ing)

/-- `run_ingest`: a subscription streams from a plugin for the type, if there is
one, and is polled if there is none. -/
def ingestRoute (host : PluginHost) (c : Conn) (ing : Ingest) : Option Route :=
  if subscribeMode ing then
    match host.forType c.dsType with
    | some p => some (p, subscribeLine c ing)
    | none => pollRoute host c ing
  else pollRoute host c ing

/-- The type, config and secrets of an id: of a provisioned datasource, or else
of a connector. -/
def origin (a : Agent) (id : String) : Option (String × Json × Json) :=
  match a.store id with
  | some d => some (d.dsType, d.config, d.secrets)
  | none => (a.collector.connectors id).map fun c => (c.dsType, c.config, c.secrets)

/-- `handle_query`. -/
def queryRoute (host : PluginHost) (a : Agent) (req : Json) : Option Route :=
  let op := (req.getStr "op").getD ""
  let args := (req.get "args").getD .null
  match origin a ((req.getStr "datasource_id").getD "") with
  | none => none
  | some (dsType, config, secrets) =>
    if op = "read" then
      (host.forType dsType).map fun p =>
        (p, readPointsLine dsType config secrets ((args.get "points").getD .null))
    else
      match dsType with
      | "pss" => none
      | other => (host.forType other).map fun p => (p, queryLine op other config secrets args)

/-- The points of a subscribe request. -/
def subscribePoints (req : Json) : List Json := (req.getArray "points").getD []

/-- The ingest of the `i`-th point of a subscription. -/
def pointIngest (req : Json) (i : ℕ) (pt : Json) : Ingest where
  ingestId := "sub:" ++ (req.getStr "request_id").getD "" ++ ":" ++ i.repr
  connectorId := (req.getStr "connector_id").getD ""
  selection := (pt.get "selection").getD .null
  intervalS := 0
  naming := .obj [("variable_id", .str (((pt.get "naming").bind (Json.getStr "variable_id")).getD i.repr))]
  transform := .null

/-- The connector of a subscribe request that is taken: its connector is known,
a plugin serves the type the request names, and it has points. -/
def subscribeConn (host : PluginHost) (connectors : ConnStore) (req : Json) : Option Conn :=
  let conn := connectors ((req.getStr "connector_id").getD "")
  let supported := conn.isSome && (host.forType ((req.getStr "ds_type").getD "")).isSome &&
    !(subscribePoints req).isEmpty
  if supported then conn else none

/-- `stream_point`: the type is that of the connector. -/
def streamRoute (host : PluginHost) (c : Conn) (ing : Ingest) : Option Route :=
  (host.forType c.dsType).map fun p => (p, subscribeLine c ing)

/-- `handle_subscribe`: one stream for each point. -/
def subscribeRoutes (host : PluginHost) (a : Agent) (req : Json) : List Route :=
  match subscribeConn host a.collector.connectors req with
  | none => []
  | some c => (subscribePoints req).zipIdx.filterMap fun (pt, i) => streamRoute host c (pointIngest req i pt)

section

variable (V : Ed25519) (F : FloatText)

/-- The write request passes the signature check and the gate of `do_write`. -/
def Admitted (a : Agent) (req : Json) (c : Conn) : Prop :=
  verifySignature V F a.pubkey req (WriteRequest.ofJson req) = .ok () ∧
    (WriteRequest.ofJson req).value.isFinite = true ∧
    targetKey F (WriteRequest.ofJson req).target ∈ c.writable

/-- `handle_write`. -/
def writeRoute (host : PluginHost) (a : Agent) (req : Json) : Option Route :=
  let r := WriteRequest.ofJson req
  match verifySignature V F a.pubkey req r, a.collector.connectors r.connectorId with
  | .ok _, some c =>
    if !r.value.isFinite then none
    else if targetKey F r.target ∉ c.writable then none
    else if c.dsType = "modbus" then none
    else (host.forType c.dsType).map fun p => (p, writeLine c r)
  | _, _ => none

/-! ### Operations on a connector -/

inductive Operation where
  | ingest (c : Conn) (ing : Ingest)
  | query (req : Json)
  | subscribe (req : Json)
  | write (req : Json)

/-- The type of the connector the operation is on. -/
def Operation.connType (a : Agent) : Operation → Option String
  | .ingest c _ => some c.dsType
  | .query req => (origin a ((req.getStr "datasource_id").getD "")).map (·.1)
  | .subscribe req => (a.collector.connectors ((req.getStr "connector_id").getD "")).map (·.dsType)
  | .write req => (a.collector.connectors (WriteRequest.ofJson req).connectorId).map (·.dsType)

/-- What the operation sends to plugins. -/
def Operation.sent (host : PluginHost) (a : Agent) : Operation → List Route
  | .ingest c ing => (ingestRoute host c ing).toList
  | .query req => (queryRoute host a req).toList
  | .subscribe req => subscribeRoutes host a req
  | .write req => (writeRoute V F host a req).toList

/-- No loaded manifest declares the connector's type `t`; or the operation is one
that does not look for it. -/
def Operation.Stays (allow : List String) (entries : List (Option Json)) (a : Agent) (t : String) :
    Operation → Prop
  | .ingest _ ing => ¬ Serves allow entries t ∨ subscribeMode ing = false
  | .query req => ¬ Serves allow entries t ∨ (t = "pss" ∧ req.getStr "op" ≠ some "read")
  | .subscribe req => ¬ Serves allow entries t ∨
      ¬ Serves allow entries ((req.getStr "ds_type").getD "") ∨ subscribePoints req = []
  | .write req => ¬ Serves allow entries t ∨ t = "modbus" ∨
      ∀ c, a.collector.connectors (WriteRequest.ofJson req).connectorId = some c →
        ¬ Admitted V F a req c

end

variable {V : Ed25519} {F : FloatText} {host : PluginHost} {a : Agent} {req : Json}
  {allow : List String} {entries : List (Option Json)} {t : String}

/-! ### Each place -/

theorem pollRoute_of_builtIn {c : Conn} {ing : Ingest} (h : c.dsType ∈ builtIn) :
    pollRoute host c ing = none := by
  unfold pollRoute
  rcases List.mem_cons.mp h with h | h
  · rw [h]
    rfl
  · rw [List.mem_singleton.mp h]
    rfl

theorem ingestRoute_eq_none {c : Conn} {ing : Ingest} (h : c.dsType ∈ builtIn) :
    ingestRoute host c ing = none ↔ host.forType c.dsType = none ∨ subscribeMode ing = false := by
  unfold ingestRoute
  rw [pollRoute_of_builtIn h]
  cases subscribeMode ing <;> cases host.forType c.dsType <;> simp

theorem queryRoute_eq_none {config secrets : Json} (h : t ∈ builtIn)
    (ho : origin a ((req.getStr "datasource_id").getD "") = some (t, config, secrets)) :
    queryRoute host a req = none ↔
      host.forType t = none ∨ (t = "pss" ∧ req.getStr "op" ≠ some "read") := by
  have hop : (req.getStr "op").getD "" = "read" ↔ req.getStr "op" = some "read" := by
    cases req.getStr "op" <;> simp
  unfold queryRoute
  rw [ho]
  simp only [hop]
  by_cases hread : req.getStr "op" = some "read"
  · simp [hread]
  · rcases List.mem_cons.mp h with rfl | h
    · simp [hread]
    · obtain rfl := List.mem_singleton.mp h
      simp [hread]

theorem subscribeRoutes_eq_nil {c : Conn}
    (hc : a.collector.connectors ((req.getStr "connector_id").getD "") = some c) :
    subscribeRoutes host a req = [] ↔
      host.forType c.dsType = none ∨ host.forType ((req.getStr "ds_type").getD "") = none ∨
        subscribePoints req = [] := by
  unfold subscribeRoutes subscribeConn
  rw [hc]
  cases host.forType ((req.getStr "ds_type").getD "") with
  | none => simp
  | some p =>
    cases hp : subscribePoints req with
    | nil => simp
    | cons pt pts =>
      cases hty : host.forType c.dsType with
      | none => simp [streamRoute, hty]
      | some q => simp [streamRoute, hty, List.zipIdx_cons]

theorem writeRoute_eq_none {c : Conn}
    (hc : a.collector.connectors (WriteRequest.ofJson req).connectorId = some c) :
    writeRoute V F host a req = none ↔
      host.forType c.dsType = none ∨ c.dsType = "modbus" ∨ ¬ Admitted V F a req c := by
  unfold writeRoute Admitted
  simp only [hc]
  cases hsig : verifySignature V F a.pubkey req (WriteRequest.ofJson req) with
  | error e => simp
  | ok u =>
    cases hfin : (WriteRequest.ofJson req).value.isFinite with
    | false => simp
    | true =>
      by_cases hkey : targetKey F (WriteRequest.ofJson req).target ∈ c.writable
      · by_cases hm : c.dsType = "modbus"
        · simp [hm]
        · simp [hkey, hm]
      · simp [hkey]

/-- What the write path of the control channel does is what the route says:
without one no plugin plays a part, and with one the plugin gets its line. -/
theorem handleWrite_route (plc : Plc) (behave : Manifest → Control.Plugin) :
    match writeRoute V F host a req with
    | none => ∀ behave' : Manifest → Control.Plugin,
        handleWrite V F ⟨plc, fun t => (host.forType t).map behave⟩ a.collector.connectors a.pubkey req =
          handleWrite V F ⟨plc, fun t => (host.forType t).map behave'⟩ a.collector.connectors
            a.pubkey req
    | some (p, line) =>
        handleWrite V F ⟨plc, fun t => (host.forType t).map behave⟩ a.collector.connectors a.pubkey req =
          ⟨(behave p line).1, (behave p line).2.bind writeResp⟩ := by
  unfold writeRoute handleWrite
  simp only
  cases hsig : verifySignature V F a.pubkey req (WriteRequest.ofJson req) with
  | error e => simp
  | ok u =>
    cases hc : a.collector.connectors (WriteRequest.ofJson req).connectorId with
    | none => simp [doWrite, hc]
    | some c =>
      cases hfin : (WriteRequest.ofJson req).value.isFinite with
      | false => simp [doWrite, hc, hfin]
      | true =>
        by_cases hkey : targetKey F (WriteRequest.ofJson req).target ∈ c.writable
        · by_cases hm : c.dsType = "modbus"
          · simp [doWrite, hc, hfin, hkey, hm]
          · cases hp : host.forType c.dsType with
            | none => simp [doWrite, hc, hfin, hkey, hm, hp]
            | some p => simp [doWrite, hc, hfin, hkey, hm, hp, pluginWrite]
        · simp [doWrite, hc, hfin, hkey]

/-- **Which operations on the agent's own types stay with the agent.** For every
allow-list, every directory of manifests, every agent state and every operation
on a connector of type `modbus` or `pss`: nothing is sent to a plugin if and only
if no loaded manifest declares the type, or the operation is an ingest that does
not subscribe, a query other than `read` on `pss`, a subscription without points
or for a type no manifest declares, or a write to `modbus` or one that is
refused. -/
theorem built_in_iff (op : Operation) (hop : op.connType a = some t) (ht : t ∈ builtIn) :
    op.sent V F (discover allow entries) a = [] ↔ op.Stays V F allow entries a t := by
  cases op with
  | ingest c ing =>
    obtain rfl : c.dsType = t := Option.some.inj hop
    rw [Operation.sent, Option.toList_eq_nil_iff, ingestRoute_eq_none ht, forType_eq_none]
    rfl
  | query req =>
    obtain ⟨⟨ty, config, secrets⟩, ho, rfl⟩ := Option.map_eq_some_iff.mp hop
    rw [Operation.sent, Option.toList_eq_nil_iff, queryRoute_eq_none ht ho, forType_eq_none]
    rfl
  | subscribe req =>
    obtain ⟨c, hc, rfl⟩ := Option.map_eq_some_iff.mp hop
    rw [Operation.sent, subscribeRoutes_eq_nil hc, forType_eq_none, forType_eq_none]
    rfl
  | write req =>
    obtain ⟨c, hc, rfl⟩ := Option.map_eq_some_iff.mp hop
    rw [Operation.sent, Option.toList_eq_nil_iff, writeRoute_eq_none hc, forType_eq_none]
    simp only [Operation.Stays, hc, Option.some.injEq, forall_eq']

/-- A manifest that declares the agent's own types. -/
def greedy : Json :=
  .obj [("exec", .str "sh"), ("name", .str "greedy"), ("types", .arr [.str "modbus", .str "pss"])]

/-- An agent with a connector of each of its own types. -/
def plant : Agent :=
  provision plainFloat ⟨none, fun _ => none, .new⟩
    (.obj [("connectors", .arr [
        .obj [("connector_id", .str "plc"), ("secrets", .str "s1"), ("type", .str "modbus")],
        .obj [("connector_id", .str "hist"), ("secrets", .str "s2"), ("type", .str "pss"),
          ("writable_targets", .arr [registerTen])]]),
      ("kind", .str "provision")])

/-- A query of the connector `id`. -/
def queryOf (op id : String) : Json := .obj [("datasource_id", .str id), ("op", .str op)]

/-- A query other than `read` on `pss` stays with the agent. -/
theorem built_in_query :
    (Operation.query (queryOf "test" "hist")).sent signedOnce plainFloat
      (discover [] [some greedy]) plant = [] :=
  (built_in_iff (t := "pss") _ rfl (by decide)).mpr (Or.inr ⟨rfl, by decide⟩)

/-- With that manifest, the plugin gets the config and secrets of the Modbus
connector with a query, and a line of each other kind. -/
theorem built_in_sent :
    (Operation.query (queryOf "read" "plc")).sent signedOnce plainFloat
        (discover [] [some greedy]) plant =
      [(⟨"greedy", ["modbus", "pss"], "sh", [], 0⟩,
        readPointsLine "modbus" .null (.str "s1") .null)] ∧
    (Operation.ingest ⟨"modbus", .null, .str "s1", []⟩
        ⟨"i", "plc", .obj [("subscribe", .bool true)], 60, .null, .null⟩).sent signedOnce plainFloat
      (discover [] [some greedy]) plant ≠ [] ∧
    (Operation.subscribe (.obj [("connector_id", .str "plc"), ("ds_type", .str "modbus"),
        ("points", .arr [.null])])).sent signedOnce plainFloat (discover [] [some greedy]) plant ≠ [] ∧
    (Operation.write (requestTo "hist" registerTen)).sent signedOnce plainFloat
      (discover [] [some greedy]) plant ≠ [] := by
  refine ⟨rfl, ?_, ?_, ?_⟩
  · exact List.ne_nil_of_length_pos (by decide +kernel)
  · exact List.ne_nil_of_length_pos (by decide +kernel)
  · exact List.ne_nil_of_length_pos (by decide +kernel)

end Plugin
end LymonAgent
