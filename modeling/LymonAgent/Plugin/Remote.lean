/-
# A plugin call is a method call

What the agent and the SDK make of each other's lines, put together. A request of the
agent (`Plugin::read`, `query`, `read_points`, `write` of `src/plugins.rs`) is read by the
SDK of `crates/collector-sdk/src/lib.rs` with what was asked (`ofJson_line`), dispatched to
a method of the collector, and the response is read by the agent: the two together are the
call of that method (`remote_eq`), but for the values that JSON has no number for. A poll
with one of them fails, a batched read has `null` in its place, and a value read back is
as if it had not been.

Key definitions: `Request.answer`, `Request.asked`, `call`.
Key theorems: `ofJson_line`, `remote_eq`.
-/
import LymonAgent.Plugin.Boundary
import LymonAgent.Plugin.Exchange

namespace LymonAgent
namespace Plugin

open Collect Control
open Sdk (isNull)

/-! ### What the agent reads -/

structure QueryResp where
  ok : Bool
  result : Json
  error : Option String

def QueryResp.ofJson (v : Json) : Option QueryResp :=
  match v with
  | .obj _ =>
    match defaulted Json.asBool false (v.get "ok"), Control.optional Json.asStr (v.get "error") with
    | some ok, some error => some { ok, result := (v.get "result").getD .null, error }
    | _, _ => none
  | _ => none

/-- `Plugin::query`, from the line on. -/
def pluginQuery : Line → Except String Json
  | .json v =>
    match QueryResp.ofJson v with
    | none => .error "plugin response not valid JSON"
    | some r => if r.ok then .ok r.result else .error (r.error.getD "plugin error")
  | _ => .error "plugin response not valid JSON"

/-- `Plugin::read_points`, from the line on. -/
def pluginReadPoints : Line → Except String Json
  | .json v =>
    if v.getBool "ok" = some true then .ok ((v.get "samples").getD (.arr []))
    else .error ((v.getStr "error").getD "plugin error")
  | _ => .error "plugin response not valid JSON"

/-- `Plugin::write`, from the line on. -/
def pluginWriteResp : Line → Except String (Option F64)
  | .json v => writeResp v
  | _ => .error "plugin write response not valid JSON"

/-- What a call gives the agent. -/
inductive Answer where
  | samples (l : List AgentSample)
  | result (v : Json)
  | points (v : Json)
  | readback (x : Option F64)

/-- What the agent makes of the line it gets at a time. -/
def Request.answer (now : ℤ) (line : Line) : Request → Except String Answer
  | .read _ _ => (pluginRead now line).map .samples
  | .query _ _ _ _ _ => (pluginQuery line).map .result
  | .readPoints _ _ _ _ => (pluginReadPoints line).map .points
  | .write _ _ => (pluginWriteResp line).map .readback

/-! ### The call -/

/-- What the collector is asked. Points that are no list of objects make no request. -/
def Request.asked : Request → Option Sdk.ReadRequest
  | .read c ing =>
    some ⟨1, "read", ing.connectorId, c.dsType, c.config, c.secrets, ing.selection, .null, ing.naming, [],
      .null, none, false⟩
  | .query op dsType config secrets args =>
    some ⟨1, op, "", dsType, config, secrets, args, args, .null, [], .null, none, false⟩
  | .readPoints dsType config secrets points =>
    (Sdk.asPoints points).map fun l =>
      ⟨1, "read", "", dsType, config, secrets, .null, .null, .null, l, .null, none, false⟩
  | .write c r =>
    some ⟨1, "write", "", c.dsType, c.config, c.secrets, .null, .null, .null, [], r.target,
      if r.value.isFinite then some r.value else none, r.wantReadback⟩

def treeJson (d : Sdk.Discovery) : Json :=
  .obj [("kind", .str "tree"), ("nodes", .arr (Sdk.Node.listJson d.nodes)), ("schema_kind", .str d.schemaKind)]

/-- The samples of a poll: all of them, or an error if one is no number. -/
def polled (now : ℤ) (samples : List Sdk.Sample) : Except String Answer :=
  if samples.all (·.value.isFinite) then .ok (.samples (samples.map (received now)))
  else .error "plugin response not valid JSON"

/-- The method that a query calls, by its operation. -/
def callQuery {σ : Type} (c : Sdk.Collector σ) (s : σ) (r : Sdk.ReadRequest) : σ × Except String Answer :=
  match r.op with
  | "read" => let (t, x) := c.read s r; (t, x.map fun _ => .result .null)
  | "discover" => let (t, x) := c.discover s r; (t, x.map fun d => .result (treeJson d))
  | "query" | "test" | "history" => let (t, x) := c.query s r; (t, x.map .result)
  | "write" => let (t, x) := c.write s r; (t, x.map fun _ => .result .null)
  | _ => (s, .ok (.result .null))

/-- The call of the collector's own method: its state after, and what it gives. -/
def call {σ : Type} (c : Sdk.Collector σ) (s : σ) (now : ℤ) (r : Sdk.ReadRequest) :
    Request → σ × Except String Answer
  | .read _ _ => let (t, x) := c.read s r; (t, x.bind (polled now))
  | .query _ _ _ _ _ => callQuery c s r
  | .readPoints _ _ _ _ =>
    let (t, x) := c.read s r; (t, x.map fun samples => .points (.arr (samples.map Sdk.Sample.toJson)))
  | .write _ _ =>
    let (t, x) := c.write s r; (t, x.map fun back => .readback (back.filter F64.isFinite))

/-! ### What is asked arrives -/

theorem optional_jsonF64 (x : F64) :
    Control.optional Json.asF64 (some (jsonF64 x)) = some (if x.isFinite then some x else none) := by
  cases x <;> rfl

theorem mirrored_of_args (r : Sdk.ReadRequest) (h : r.args = .null) : r.mirrored = r := by
  simp [Sdk.ReadRequest.mirrored, h, isNull]

/-- The SDK reads a request of the agent as it was asked. -/
theorem ofJson_line (req : Request) :
    (Sdk.ReadRequest.ofJson req.line).map Sdk.ReadRequest.mirrored = req.asked := by
  cases req with
  | read c ing =>
    have hline : Sdk.ReadRequest.ofJson (readLine c ing) = (Request.read c ing).asked := rfl
    rw [Request.line, hline, Request.asked, Option.map_some, mirrored_of_args _ rfl]
  | query op dsType config secrets args =>
    have hline : Sdk.ReadRequest.ofJson (queryLine op dsType config secrets args) =
        some ⟨1, op, "", dsType, config, secrets, .null, args, .null, [], .null, none, false⟩ := rfl
    rw [Request.line, hline, Option.map_some]
    cases args <;> rfl
  | readPoints dsType config secrets points =>
    have hpoints : defaulted Sdk.asPoints [] ((readPointsLine dsType config secrets points).get "points") =
        Sdk.asPoints points := rfl
    rw [Request.line, Request.asked]
    cases h : Sdk.asPoints points with
    | none =>
      have hline : Sdk.ReadRequest.ofJson (readPointsLine dsType config secrets points) = none := by
        unfold readPointsLine at hpoints ⊢
        simp [Sdk.ReadRequest.ofJson, hpoints, h]
      rw [hline]
      rfl
    | some l =>
      have hline : Sdk.ReadRequest.ofJson (readPointsLine dsType config secrets points) =
          some ⟨1, "read", "", dsType, config, secrets, .null, .null, .null, l, .null, none, false⟩ := by
        unfold readPointsLine at hpoints ⊢
        simp only [Sdk.ReadRequest.ofJson, hpoints, h]
        rfl
      rw [hline, Option.map_some, mirrored_of_args _ rfl, Option.map_some]
  | write c r =>
    have hvalue : Control.optional Json.asF64 ((writeLine c r).get "write_value") =
        some (if r.value.isFinite then some r.value else none) := optional_jsonF64 r.value
    have hline : Sdk.ReadRequest.ofJson (writeLine c r) = (Request.write c r).asked := by
      unfold writeLine at hvalue ⊢
      simp only [Sdk.ReadRequest.ofJson, hvalue]
      rfl
    rw [Request.line, hline, Request.asked, Option.map_some, mirrored_of_args _ rfl]

/-! ### What is answered arrives -/

/-- An error of the collector reaches the agent, whatever was asked. -/
theorem answer_errorLine (now : ℤ) (req : Request) (e : String) :
    req.answer now (.json (Sdk.errorLine e)) = .error e := by
  cases req <;> rfl

theorem answer_batchLine (now : ℤ) (c : Conn) (ing : Ingest) (samples : List Sdk.Sample) :
    (Request.read c ing).answer now (.json (Sdk.batchLine samples)) = polled now samples := by
  have hanswer : (Request.read c ing).answer now (.json (Sdk.batchLine samples)) =
      (pluginRead now (.json (Sdk.batchLine samples))).map .samples := rfl
  rw [hanswer, pluginRead, resp_batchLine, polled]
  split <;> rfl

/-- What the response to a query has beside a result is not read. -/
theorem answer_query {σ : Type} (c : Sdk.Collector σ) (s : σ) (r : Sdk.ReadRequest) :
    ((Sdk.dispatch c s r).1, (pluginQuery (.json (Sdk.dispatch c s r).2)).map Answer.result) =
      callQuery c s r := by
  by_cases hread : r.op = "read"
  · simp only [Sdk.dispatch, callQuery, hread]
    cases (c.read s r).2 <;> rfl
  by_cases hdiscover : r.op = "discover"
  · simp only [Sdk.dispatch, callQuery, hdiscover]
    cases (c.discover s r).2 <;> rfl
  by_cases hquery : r.op = "query" ∨ r.op = "test" ∨ r.op = "history"
  · rcases hquery with hop | hop | hop <;>
      simp only [Sdk.dispatch, callQuery, hop] <;>
      cases (c.query s r).2 <;> rfl
  by_cases hwrite : r.op = "write"
  · simp only [Sdk.dispatch, callQuery, hwrite]
    cases (c.write s r).2 <;> rfl
  · -- an unknown operation is acknowledged
    push Not at hquery
    have hunknown : Sdk.dispatch c s r = (s, .obj [("ok", .bool true)]) := by
      unfold Sdk.dispatch
      split <;> simp_all
    have hcall : callQuery c s r = (s, .ok (.result .null)) := by
      unfold callQuery
      split <;> simp_all
    rw [hunknown, hcall]
    rfl

theorem write_readbackLine (x : Option F64) :
    pluginWriteResp (.json (Sdk.readbackLine x)) = .ok (x.filter F64.isFinite) := by
  cases x with
  | none => rfl
  | some x => cases x <;> rfl

/-- **A plugin call is the call of the collector's method.** Whatever the collector and
its state, for every request of the agent: what the agent makes of the response to it, and
the state the collector is left in, are those of the call of the collector's own method
with what was asked. -/
theorem remote_eq {σ : Type} (c : Sdk.Collector σ) (s : σ) (now : ℤ) (req : Request) {r : Sdk.ReadRequest}
    (h : req.asked = some r) :
    ((Sdk.dispatch c s r).1, req.answer now (.json (Sdk.dispatch c s r).2)) = call c s now r req := by
  cases req with
  | read conn ing =>
    obtain rfl := Option.some.inj h
    simp only [Sdk.dispatch, call]
    cases (c.read s _).2 with
    | error e => exact congrArg (Prod.mk _) (answer_errorLine now (.read conn ing) e)
    | ok samples => exact congrArg (Prod.mk _) (answer_batchLine now conn ing samples)
  | query op dsType config secrets args => exact answer_query c s r
  | readPoints dsType config secrets points =>
    obtain ⟨l, -, rfl⟩ := Option.map_eq_some_iff.mp h
    simp only [Sdk.dispatch, call]
    cases (c.read s _).2 <;> rfl
  | write conn w =>
    obtain rfl := Option.some.inj h
    simp only [Sdk.dispatch, call]
    cases (c.write s _).2 with
    | error e => exact congrArg (Prod.mk _) (answer_errorLine now (.write conn w) e)
    | ok back => exact congrArg (fun x => (_, Except.map Answer.readback x)) (write_readbackLine back)

end Plugin
end LymonAgent
