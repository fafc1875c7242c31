/-
# The OPC-UA connector

`crates/plugin-opcua/src/main.rs`: one process serves every OPC-UA connector of
the agent and keeps one session between requests. Each operation checks its
request, takes the session for the request's endpoint (`session_for`, which
compares the endpoint only) and makes its service calls on it; what fails on the
way drops the session, or keeps it.

A session knows the endpoint and the identity it was opened with. A request gets
the one of an earlier request to the same endpoint, whoever that was:
`own_sessions_iff` says when the calls run on a session of the request's own.

How the server answers the calls of a request is a parameter (`UaAnswers`).

Key definitions: `onSession`, `read`, `write`, `browseNode`, `discover`,
`subscribe`, `handle`, `ServedAlone`, `Matches`.
Key theorems: `write_eq`, `servedAlone_iff`, `cached_from`.
-/
import LymonAgent.Plugin.Sdk
import Mathlib.Data.List.Induction

namespace LymonAgent
namespace UaConnector

open Control
open Control.OpcUa (sessionFor)

/-! ### Service calls -/

inductive ServiceCall where
  | read (nodes : List NodeId)
  | write (node : NodeId) (value : Variant)
  | browse (node : NodeId)
  | browseNext
  | createSubscription
  | createMonitoredItems (node : NodeId)

/-- A reference of a browsed node. -/
structure Reference where
  id : NodeId
  idText : String
  label : String
  isVariable : Bool

/-- A page of references; `more` says that it comes with a continuation point. -/
structure Page where
  refs : List Reference
  more : Bool

/-- How the server answers the calls of one request: connecting, writing and
reading one node, reading a list, the `n`-th Browse or BrowseNext call, the two
calls of a subscription, and the values it then pushes. -/
structure UaAnswers where
  server : UaServer
  readAll : Session → List NodeId → Except String (List (Option Variant))
  browse : Session → ℕ → Except String (Option Page)
  createSubscription : Session → Except String Unit
  createMonitoredItems : Session → NodeId → Except String Unit
  pushed : List Variant

/-- What an operation leaves: the cached session, the calls it made and on which
session, and its result. -/
structure Served (α : Type) where
  conn : Option Session
  calls : List (Session × ServiceCall)
  result : Except String α

def identityOf (req : Sdk.ReadRequest) : Identity := identityFrom req.forWrite

/-- The frame of every operation: the endpoint, the operation's own check of the
request, the session, and the calls on it. -/
def onSession {α β : Type} (srv : UaServer) (conn : Option Session) (req : Sdk.ReadRequest)
    (checked : Except String β) (body : Option Session → Session → β → Served α) : Served α :=
  match req.config.getStr "endpoint_url" with
  | none => ⟨conn, [], .error "config.endpoint_url is required"⟩
  | some endpoint =>
    match checked with
    | .error e => ⟨conn, [], .error e⟩
    | .ok b =>
      match sessionFor srv conn endpoint (identityOf req) with
      | (conn, .error e) => ⟨conn, [], .error e⟩
      | (conn, .ok session) => body conn session b

variable (P : NodeIdText)

/-! ### Reading -/

/-- The variable and the node of a point. -/
def targetOf (p : Sdk.Point) : Except String (String × NodeId) :=
  match p.selection.getStr "node_id" with
  | none => .error "selection.node_id is required (e.g. \"ns=2;s=Temp\")"
  | some n =>
    match P.fromStr n with
    | none => .error ("invalid node_id " ++ n.quote ++ " (expected OPC-UA text form)")
    | some node => .ok ((p.naming.getStr "variable_id").getD "opcua.value", node)

def targetsOf : List Sdk.Point → Except String (List (String × NodeId))
  | [] => .ok []
  | p :: ps => (targetOf P p).bind fun t => (targetsOf ps).map (t :: ·)

/-- A node without a numeric value is a sample of bad quality. -/
def sampleOf (variableId : String) (value : Option Variant) : Sdk.Sample :=
  match value.bind variantToF64 with
  | some x => ⟨variableId, x, none, 0⟩
  | none => ⟨variableId, .fin 0, none, 1⟩

def read (conn : Option Session) (ans : UaAnswers) (req : Sdk.ReadRequest) :
    Served (List Sdk.Sample) :=
  onSession ans.server conn req (targetsOf P req.allPoints) fun conn session targets =>
    let nodes := targets.map Prod.snd
    let calls := [(session, ServiceCall.read nodes)]
    match ans.readAll session nodes with
    | .error status => ⟨none, calls, .error ("OPC-UA read failed: " ++ status)⟩
    | .ok values =>
      if values.length < targets.length then
        ⟨none, calls, .error ("OPC-UA read returned " ++ values.length.repr ++ " of " ++
          targets.length.repr ++ " values")⟩
      else ⟨conn, calls, .ok (List.zipWith (fun t v => sampleOf t.1 v) targets values)⟩

/-! ### Writing -/

/-- The node and the value of a write. -/
def writeOf (req : Sdk.ReadRequest) : Except String (NodeId × Variant) :=
  match req.target.getStr "node_id" with
  | none => .error "target.node_id is required (e.g. \"ns=2;s=Setpoint\")"
  | some n =>
    match P.fromStr n with
    | none => .error ("invalid node_id " ++ n.quote)
    | some node =>
      match req.writeValue with
      | none => .error "write_value is required"
      | some value =>
        .ok (node, variantOf ((req.target.getStr "datatype").getD "double") (rawOf req.target value))

def write (conn : Option Session) (ans : UaAnswers) (req : Sdk.ReadRequest) : Served (Option F64) :=
  onSession ans.server conn req (writeOf P req) fun conn session (node, variant) =>
    let calls := [(session, ServiceCall.write node variant)]
    match ans.server.write session node variant with
    | .error status => ⟨none, calls, .error ("OPC-UA write failed: " ++ status)⟩
    | .ok statuses =>
      match statuses.head? with
      | some (some status) => ⟨none, calls, .error ("OPC-UA write rejected: " ++ status)⟩
      | _ =>
        if !req.readback then ⟨conn, calls, .ok none⟩
        else
          let calls := calls ++ [(session, .read [node])]
          match ans.server.read session node with
          | .error s => ⟨conn, calls, .error ("OPC-UA read-back failed: " ++ s)⟩
          | .ok values =>
            ⟨conn, calls, .ok ((values.head?.join.bind variantToF64).map fun r =>
              (r.mul (Target.scale req.target)).add (Target.offset req.target))⟩

/-- The writes among the calls. -/
def deviceWrites (calls : List (Session × ServiceCall)) : List DeviceWrite :=
  calls.filterMap fun
    | (s, .write node v) => some (.node s.endpoint node v)
    | _ => none

/-- The write of the allow-list's model. -/
theorem write_eq (conn : Option Session) (ans : UaAnswers) (req : Sdk.ReadRequest) :
    Control.OpcUa.write ans.server P conn req.forWrite =
      ((write P conn ans req).conn, deviceWrites (write P conn ans req).calls,
        (write P conn ans req).result) := by
  obtain ⟨_, _, _, _, config, _, _, _, _, _, target, value, readback⟩ := req
  unfold Control.OpcUa.write write onSession writeOf identityOf
  simp only [Sdk.ReadRequest.forWrite]
  cases config.getStr "endpoint_url" with
  | none => rfl
  | some endpoint =>
    cases target.getStr "node_id" with
    | none => rfl
    | some n =>
      cases hnode : P.fromStr n with
      | none => simp [hnode, deviceWrites]
      | some node =>
        cases value with
        | none => simp [hnode, deviceWrites]
        | some value =>
          simp only [hnode]
          generalize sessionFor ans.server conn endpoint _ = opened
          obtain ⟨conn', e | session⟩ := opened
          · rfl
          · generalize variantOf _ _ = v
            dsimp only
            cases ans.server.write session node v with
            | error status => rfl
            | ok statuses =>
              dsimp only
              cases readback
              · rcases statuses.head? with _ | _ | status <;> rfl
              · rcases statuses.head? with _ | _ | status
                · cases ans.server.read session node <;> rfl
                · cases ans.server.read session node <;> rfl
                · rfl

/-! ### Browsing -/

def maxDepth : ℕ := 1

def maxNodes : ℕ := 1000

/-- The pages after the first, with `left` more of them to ask for: the calls
made so far and the references gathered. -/
def morePages (answer : ℕ → Except String (Option Page)) (budget : ℕ) :
    ℕ → List ServiceCall → List Reference → Bool → List ServiceCall × List Reference
  | 0, calls, refs, _ => (calls, refs)
  | left + 1, calls, refs, more =>
    if !more || budget ≤ refs.length then (calls, refs)
    else
      match answer calls.length with
      | .ok (some page) =>
        morePages answer budget left (calls ++ [.browseNext]) (refs ++ page.refs) page.more
      | _ => (calls ++ [.browseNext], refs)

/-- One node for each reference while the budget lasts; `children` browses what
is no variable. -/
def visit (children : NodeId → ℕ → List ServiceCall → List Sdk.Node × ℕ × List ServiceCall) :
    List Reference → ℕ → List ServiceCall → List Sdk.Node × ℕ × List ServiceCall
  | [], budget, calls => ([], budget, calls)
  | r :: rs, budget, calls =>
    if budget = 0 then ([], budget, calls)
    else if r.isVariable then
      let (nodes, budget, calls) := visit children rs (budget - 1) calls
      (.node r.idText r.label "variable" [] .null :: nodes, budget, calls)
    else
      let (kids, budget, calls) := children r.id (budget - 1) calls
      let (nodes, budget, calls) := visit children rs budget calls
      (.node r.idText r.label "folder" kids .null :: nodes, budget, calls)

def browseNode (answer : ℕ → Except String (Option Page)) :
    ℕ → NodeId → ℕ → List ServiceCall → List Sdk.Node × ℕ × List ServiceCall
  | 0, _, budget, calls => ([], budget, calls)
  | depth + 1, node, budget, calls =>
    if budget = 0 then ([], budget, calls)
    else
      match answer calls.length with
      | .error _ => ([], budget, calls ++ [.browse node])
      | .ok none => ([], budget, calls ++ [.browse node])
      | .ok (some page) =>
        let (calls, refs) := morePages answer budget 64 (calls ++ [.browse node]) page.refs page.more
        visit (browseNode answer depth) refs budget calls

/-- The node to start from: that of the selection, or the objects folder. -/
def rootOf (req : Sdk.ReadRequest) : Except String NodeId :=
  match req.selection.getStr "node_id" with
  | none => .ok ⟨0, .numeric 85⟩
  | some n =>
    match P.fromStr n with
    | none => .error ("invalid node_id " ++ n.quote)
    | some node => .ok node

def discover (conn : Option Session) (ans : UaAnswers) (req : Sdk.ReadRequest) :
    Served Sdk.Discovery :=
  onSession ans.server conn req (rootOf P req) fun conn session root =>
    let (nodes, _, calls) := browseNode (ans.browse session) maxDepth root maxNodes []
    ⟨conn, calls.map fun c => (session, c), .ok ⟨"opcua_nodes", nodes⟩⟩

/-! ### Subscribing -/

def subscribed (req : Sdk.ReadRequest) : Except String NodeId :=
  match req.selection.getStr "node_id" with
  | none => .error "selection.node_id is required"
  | some n =>
    match P.fromStr n with
    | none => .error ("invalid node_id " ++ n.quote)
    | some node => .ok node

/-- The batches it emits: one for each pushed value that is a number. -/
def subscribe (conn : Option Session) (ans : UaAnswers) (req : Sdk.ReadRequest) :
    Served (List (List Sdk.Sample)) :=
  onSession ans.server conn req (subscribed P req) fun conn session node =>
    let variableId := (req.naming.getStr "variable_id").getD "opcua.value"
    match ans.createSubscription session with
    | .error e => ⟨conn, [(session, .createSubscription)], .error ("create_subscription: " ++ e)⟩
    | .ok _ =>
      let calls := [(session, ServiceCall.createSubscription), (session, .createMonitoredItems node)]
      match ans.createMonitoredItems session node with
      | .error e => ⟨conn, calls, .error ("create_monitored_items: " ++ e)⟩
      | .ok _ => ⟨conn, calls, .ok ((ans.pushed.filterMap variantToF64).map fun x =>
          [⟨variableId, x, none, 0⟩])⟩

/-! ### Requests -/

/-- An operation after the calls made so far. -/
def Served.after {α : Type} (calls : List (Session × ServiceCall)) (r : Served α) :
    (Option Session × List (Session × ServiceCall)) × Except String α :=
  ((r.conn, calls ++ r.calls), r.result)

/-- The connector as the SDK sees it: it keeps the session, and here also the
calls made. -/
def collector (ans : UaAnswers) : Sdk.Collector (Option Session × List (Session × ServiceCall)) where
  read s req := (read P s.1 ans req).after s.2
  query := Sdk.queryOfRead fun s req => (read P s.1 ans req).after s.2
  write s req := (write P s.1 ans req).after s.2
  discover s req := (discover P s.1 ans req).after s.2

/-- The lines of a subscription that ended. -/
def streamed (r : Except String (List (List Sdk.Sample))) : List Json :=
  (r.toOption.getD []).map Sdk.batchLine ++ [Sdk.statusLine (r.map fun _ => ())]

/-- One request: the session cached after it, the calls it made and the lines it
is answered with. -/
def handle (conn : Option Session) (ans : UaAnswers) (req : Sdk.ReadRequest) :
    (Option Session × List (Session × ServiceCall)) × List Json :=
  if req.op = "subscribe" then
    let r := subscribe P conn ans req
    ((r.conn, r.calls), streamed r.result)
  else
    let (s, line) := Sdk.dispatch (collector P ans) (conn, []) req
    (s, [line])

/-- The session cached after a sequence of requests. -/
def cached (conn : Option Session) (reqs : List (UaAnswers × Sdk.ReadRequest)) : Option Session :=
  reqs.foldl (fun conn r => (handle P conn r.1 r.2).1.1) conn

/-- The calls run on a session opened for the request's endpoint with the
request's identity. -/
def OwnCalls (req : Sdk.ReadRequest) (calls : List (Session × ServiceCall)) : Prop :=
  ∀ x ∈ calls, req.config.getStr "endpoint_url" = some x.1.endpoint ∧ x.1.identity = identityOf req

/-- The server lets the request in under its own identity. -/
def Admitted (ans : UaAnswers) (req : Sdk.ReadRequest) : Prop :=
  ∀ url, req.config.getStr "endpoint_url" = some url →
    ans.server.connect url (identityOf req) = .ok ()

/-- The request is served on its own: its calls run on its own session, and if
the server lets it in, it comes to what it would without the earlier requests. -/
def ServedAlone (conn : Option Session) (ans : UaAnswers) (req : Sdk.ReadRequest) : Prop :=
  OwnCalls req (handle P conn ans req).1.2 ∧
    (Admitted ans req → (handle P conn ans req).1.2 = (handle P none ans req).1.2 ∧
      (handle P conn ans req).2 = (handle P none ans req).2)

/-- The request passes the checks before the session. -/
def Checked (req : Sdk.ReadRequest) : Prop :=
  match req.op with
  | "read" | "query" | "test" | "history" => ∃ targets, targetsOf P req.allPoints = .ok targets
  | "discover" => ∃ root, rootOf P req = .ok root
  | "write" => ∃ w, writeOf P req = .ok w
  | "subscribe" => ∃ node, subscribed P req = .ok node
  | _ => False

/-- A cached session for the request's endpoint has the request's identity, if
the request comes to need a session. -/
def Matches (conn : Option Session) (req : Sdk.ReadRequest) : Prop :=
  Checked P req → ∀ s ∈ conn, req.config.getStr "endpoint_url" = some s.endpoint →
    s.identity = identityOf req

/-! ### The frame of an operation -/

section

variable {α β : Type} {srv : UaServer} {conn : Option Session} {req : Sdk.ReadRequest}
  {checked : Except String β} {body : Option Session → Session → β → Served α}

/-- The body of an operation makes its calls on the session it is given, at least
one, and keeps the cached session or drops it. -/
def OnIts (body : Option Session → Session → β → Served α) : Prop :=
  ∀ conn s b, (body conn s b).calls ≠ [] ∧ (∀ x ∈ (body conn s b).calls, x.1 = s) ∧
    ((body conn s b).conn = conn ∨ (body conn s b).conn = none)

/-- What connecting comes to. -/
def opened (srv : UaServer) (url : String) (i : Identity) : Option Session × Except String Session :=
  match srv.connect url i with
  | .error e => (none, .error e)
  | .ok _ => (some ⟨url, i⟩, .ok ⟨url, i⟩)

/-- `session_for` gives the cached session of the endpoint, or opens one with the
identity. -/
theorem sessionFor_cases (srv : UaServer) (conn : Option Session) (url : String) (i : Identity) :
    (∃ s, conn = some s ∧ s.endpoint = url ∧ sessionFor srv conn url i = (some s, .ok s)) ∨
      ((∀ s ∈ conn, s.endpoint ≠ url) ∧ sessionFor srv conn url i = opened srv url i) := by
  cases conn with
  | none => exact Or.inr ⟨fun _ h => (Option.not_mem_none _ h).elim, rfl⟩
  | some s =>
    by_cases hs : s.endpoint = url
    · exact Or.inl ⟨s, rfl, hs, by simp [sessionFor, hs]⟩
    · refine Or.inr ⟨fun t ht => Option.some.inj ht ▸ hs, ?_⟩
      simp only [sessionFor, if_pos hs]
      rfl

/-- The body on what `session_for` gave. -/
def proceed (body : Option Session → Session → β → Served α) (b : β) :
    Option Session × Except String Session → Served α
  | (conn, .error e) => ⟨conn, [], .error e⟩
  | (conn, .ok session) => body conn session b

/-- An operation on a request that passes its checks. -/
theorem onSession_ok {url : String} (hurl : req.config.getStr "endpoint_url" = some url) (b : β)
    {r : Option Session × Except String Session}
    (hr : sessionFor srv conn url (identityOf req) = r) :
    onSession srv conn req (.ok b) body = proceed body b r := by
  simp only [onSession, hurl, hr]
  rfl

/-- The calls of an operation run on a session of its own exactly when no cached
session of its endpoint has another identity. -/
theorem ownCalls_onSession (hbody : OnIts body) :
    OwnCalls req (onSession srv conn req checked body).calls ↔
      ((∃ b, checked = .ok b) → ∀ s ∈ conn, req.config.getStr "endpoint_url" = some s.endpoint →
        s.identity = identityOf req) := by
  cases hurl : req.config.getStr "endpoint_url" with
  | none => simp [OwnCalls, onSession, hurl]
  | some url =>
    cases checked with
    | error e => simp [OwnCalls, onSession, hurl]
    | ok b =>
      rcases sessionFor_cases srv conn url (identityOf req) with ⟨s, rfl, hs, h⟩ | ⟨hne, h⟩
      · obtain ⟨hcalls, hall, -⟩ := hbody (some s) s b
        rw [onSession_ok hurl b h]
        constructor
        · intro hown _ t ht _
          obtain rfl := Option.some.inj ht
          obtain ⟨x, hx⟩ := List.exists_mem_of_ne_nil _ hcalls
          rw [← hall x hx]
          exact (hown x hx).2
        · intro hid x hx
          rw [hall x hx, hurl, hs]
          exact ⟨rfl, hid ⟨b, rfl⟩ s rfl (by rw [hs])⟩
      · refine iff_of_true ?_ fun _ s hs he => absurd (Option.some.inj he).symm (hne s hs)
        rw [onSession_ok hurl b h, opened]
        cases srv.connect url (identityOf req) with
        | error e => exact fun x hx => absurd hx List.not_mem_nil
        | ok _ =>
          intro x hx
          rw [(hbody _ _ b).2.1 x hx]
          exact ⟨hurl, rfl⟩

/-- On a session of its own an operation comes to what it comes to on a session
just opened. -/
theorem onSession_alone (hid : (∃ b, checked = .ok b) → ∀ s ∈ conn,
      req.config.getStr "endpoint_url" = some s.endpoint → s.identity = identityOf req)
    (hin : ∀ url, req.config.getStr "endpoint_url" = some url →
      srv.connect url (identityOf req) = .ok ()) :
    (onSession srv conn req checked body).calls = (onSession srv none req checked body).calls ∧
      (onSession srv conn req checked body).result = (onSession srv none req checked body).result := by
  cases hurl : req.config.getStr "endpoint_url" with
  | none => simp [onSession, hurl]
  | some url =>
    cases checked with
    | error e => simp [onSession, hurl]
    | ok b =>
      have hnone : sessionFor srv none url (identityOf req) = opened srv url (identityOf req) := rfl
      suffices h : sessionFor srv conn url (identityOf req) = opened srv url (identityOf req) by
        rw [onSession_ok hurl b h, onSession_ok hurl b hnone]
        exact ⟨rfl, rfl⟩
      rcases sessionFor_cases srv conn url (identityOf req) with ⟨s, rfl, hs, h⟩ | ⟨-, h⟩
      · have hown : s = ⟨url, identityOf req⟩ := by
          rw [← hs, ← hid ⟨b, rfl⟩ s rfl (by rw [hurl, hs])]
        rw [h, hown, opened, hin url hurl]
      · exact h

/-- What is cached after an operation was cached before it, or was opened by it. -/
theorem conn_onSession (hbody : OnIts body) {s : Session}
    (hs : (onSession srv conn req checked body).conn = some s) :
    conn = some s ∨ req.config.getStr "endpoint_url" = some s.endpoint ∧ s.identity = identityOf req := by
  have hkeep : ∀ conn' session b, (body conn' session b).conn = some s → conn' = some s := by
    intro conn' session b h
    rcases (hbody conn' session b).2.2 with h' | h'
    · exact h' ▸ h
    · rw [h'] at h
      cases h
  cases hurl : req.config.getStr "endpoint_url" with
  | none => exact Or.inl (by simpa [onSession, hurl] using hs)
  | some url =>
    cases checked with
    | error e => exact Or.inl (by simpa [onSession, hurl] using hs)
    | ok b =>
      rcases sessionFor_cases srv conn url (identityOf req) with ⟨t, rfl, ht, h⟩ | ⟨-, h⟩
      · rw [onSession_ok hurl b h] at hs
        exact Or.inl (hkeep _ _ b hs)
      · rw [onSession_ok hurl b h, opened] at hs
        cases hc : srv.connect url (identityOf req) with
        | error e =>
          rw [hc] at hs
          cases hs
        | ok _ =>
          rw [hc] at hs
          obtain rfl := Option.some.inj (hkeep _ _ b hs)
          exact Or.inr ⟨rfl, rfl⟩

end

/-! ### What each request does -/

section

variable {P : NodeIdText}

/-- Browsing adds to the calls. -/
theorem prefix_morePages (answer : ℕ → Except String (Option Page)) (budget : ℕ) :
    ∀ (left : ℕ) (calls : List ServiceCall) (refs : List Reference) (more : Bool),
      calls <+: (morePages answer budget left calls refs more).1
  | 0, _, _, _ => List.prefix_rfl
  | left + 1, calls, refs, more => by
    unfold morePages
    split
    · exact List.prefix_rfl
    · split
      · exact (List.prefix_append _ _).trans (prefix_morePages answer budget left _ _ _)
      · exact List.prefix_append _ _

theorem prefix_visit {children : NodeId → ℕ → List ServiceCall → List Sdk.Node × ℕ × List ServiceCall}
    (hc : ∀ n b calls, calls <+: (children n b calls).2.2) :
    ∀ (refs : List Reference) (budget : ℕ) (calls : List ServiceCall),
      calls <+: (visit children refs budget calls).2.2
  | [], _, _ => List.prefix_rfl
  | r :: rs, budget, calls => by
    unfold visit
    split
    · exact List.prefix_rfl
    · split
      · exact prefix_visit hc rs _ _
      · exact (hc r.id _ _).trans (prefix_visit hc rs _ _)

/-- With budget left, browsing a node starts with a call for it. -/
theorem browseNode_starts {answer : ℕ → Except String (Option Page)} {depth : ℕ}
    (hc : ∀ n b calls, calls <+: (browseNode answer depth n b calls).2.2) (node : NodeId) {budget : ℕ}
    (hb : budget ≠ 0) (calls : List ServiceCall) :
    calls ++ [.browse node] <+: (browseNode answer (depth + 1) node budget calls).2.2 := by
  unfold browseNode
  rw [if_neg hb]
  split
  · exact List.prefix_rfl
  · exact List.prefix_rfl
  · rename_i page _
    have hpages := prefix_morePages answer budget 64 (calls ++ [.browse node]) page.refs page.more
    generalize morePages answer budget 64 (calls ++ [.browse node]) page.refs page.more = m at hpages ⊢
    obtain ⟨calls', refs⟩ := m
    exact hpages.trans (prefix_visit hc refs budget calls')

theorem prefix_browseNode (answer : ℕ → Except String (Option Page)) :
    ∀ (depth : ℕ) (node : NodeId) (budget : ℕ) (calls : List ServiceCall),
      calls <+: (browseNode answer depth node budget calls).2.2
  | 0, _, _, _ => List.prefix_rfl
  | depth + 1, node, budget, calls => by
    by_cases hb : budget = 0
    · simp [browseNode, hb]
    · exact (List.prefix_append _ _).trans
        (browseNode_starts (prefix_browseNode answer depth) node hb calls)

/-- An operation is its check and a body whose calls run on the session it
takes. -/
def Framed {α β : Type} (ans : UaAnswers) (req : Sdk.ReadRequest) (checked : Except String β)
    (op : Option Session → Served α) : Prop :=
  ∃ body, OnIts body ∧ ∀ conn, op conn = onSession ans.server conn req checked body

variable (ans : UaAnswers) (req : Sdk.ReadRequest)

theorem framed_read : Framed ans req (targetsOf P req.allPoints) fun conn => read P conn ans req := by
  refine ⟨_, ?_, fun _ => rfl⟩
  intro conn s targets
  dsimp only
  split
  · exact ⟨List.cons_ne_nil _ _, by simp, Or.inr rfl⟩
  · split
    · exact ⟨List.cons_ne_nil _ _, by simp, Or.inr rfl⟩
    · exact ⟨List.cons_ne_nil _ _, by simp, Or.inl rfl⟩

theorem framed_write : Framed ans req (writeOf P req) fun conn => write P conn ans req := by
  refine ⟨_, ?_, fun _ => rfl⟩
  rintro conn s ⟨node, variant⟩
  dsimp only
  split
  · exact ⟨List.cons_ne_nil _ _, by simp, Or.inr rfl⟩
  · split
    · exact ⟨List.cons_ne_nil _ _, by simp, Or.inr rfl⟩
    · split
      · exact ⟨List.cons_ne_nil _ _, by simp, Or.inl rfl⟩
      · split
        · exact ⟨List.cons_ne_nil _ _, by simp, Or.inl rfl⟩
        · exact ⟨List.cons_ne_nil _ _, by simp, Or.inl rfl⟩

theorem framed_discover : Framed ans req (rootOf P req) fun conn => discover P conn ans req := by
  refine ⟨_, ?_, fun _ => rfl⟩
  intro conn s root
  have hbudget : maxNodes ≠ 0 := by decide
  have hfirst := browseNode_starts (prefix_browseNode (ans.browse s) 0) root hbudget []
  refine ⟨fun h => ?_, ?_, Or.inl rfl⟩
  · have hnil := List.map_eq_nil_iff.mp h
    exact absurd (hnil ▸ hfirst) (by simp)
  · intro x hx
    obtain ⟨c, -, rfl⟩ := List.mem_map.mp hx
    rfl

theorem framed_subscribe : Framed ans req (subscribed P req) fun conn => subscribe P conn ans req := by
  refine ⟨_, ?_, fun _ => rfl⟩
  intro conn s node
  dsimp only
  split
  · exact ⟨List.cons_ne_nil _ _, by simp, Or.inl rfl⟩
  · split
    · exact ⟨List.cons_ne_nil _ _, by simp, Or.inl rfl⟩
    · exact ⟨List.cons_ne_nil _ _, by simp, Or.inl rfl⟩

/-- What a request does: nothing if its operation is unknown, or one operation.
Its check and its answer do not look at the cached session. -/
inductive Shape (P : NodeIdText) (ans : UaAnswers) (req : Sdk.ReadRequest) : Prop
  | idle (lines : List Json) (hc : ¬ Checked P req)
    (h : ∀ conn, handle P conn ans req = ((conn, []), lines))
  | op {α β : Type} {checked : Except String β} {op : Option Session → Served α}
    (lines : Except String α → List Json) (hop : Framed ans req checked op)
    (hc : Checked P req ↔ ∃ b, checked = .ok b)
    (h : ∀ conn, handle P conn ans req = (((op conn).conn, (op conn).calls), lines (op conn).result))

theorem handle_shape (P : NodeIdText) (ans : UaAnswers) (req : Sdk.ReadRequest) : Shape P ans req := by
  by_cases hsub : req.op = "subscribe"
  · refine .op streamed (framed_subscribe (P := P) ans req) ?_ fun conn => ?_
    · simp only [Checked, hsub]
    · simp only [handle, hsub, if_true]
  have hdispatch : ∀ conn, handle P conn ans req =
      ((Sdk.dispatch (collector P ans) (conn, []) req).1,
        [(Sdk.dispatch (collector P ans) (conn, []) req).2]) := fun conn => if_neg hsub
  by_cases hw : req.op = "write"
  · refine .op (fun r => [Sdk.respond r Sdk.readbackLine]) (framed_write (P := P) ans req) ?_ fun conn => ?_
    · simp only [Checked, hw]
    · rw [hdispatch, Sdk.dispatch, hw]
      rfl
  by_cases hd : req.op = "discover"
  · refine .op (fun r => [Sdk.respond r Sdk.treeLine]) (framed_discover (P := P) ans req) ?_ fun conn => ?_
    · simp only [Checked, hd]
    · rw [hdispatch, Sdk.dispatch, hd]
      rfl
  by_cases hr : req.op = "read"
  · refine .op (fun r => [Sdk.respond r Sdk.batchLine]) (framed_read (P := P) ans req) ?_ fun conn => ?_
    · simp only [Checked, hr]
    · rw [hdispatch, Sdk.dispatch, hr]
      rfl
  by_cases hq : req.op = "query" ∨ req.op = "test" ∨ req.op = "history"
  · refine .op (fun r => [Sdk.respond (r.map Sdk.shaped) (Sdk.okLine "result")])
      (framed_read (P := P) ans req) ?_ fun conn => ?_
    · rcases hq with hq | hq | hq <;> simp only [Checked, hq]
    · rcases hq with hq | hq | hq <;> rw [hdispatch, Sdk.dispatch, hq] <;> rfl
  · push Not at hq
    refine .idle [.obj [("ok", .bool true)]] ?_ fun conn => ?_
    · unfold Checked
      split <;> simp_all
    · rw [hdispatch]
      unfold Sdk.dispatch
      split <;> simp_all

/-! ### Sessions across requests -/

/-- A request is served on its own exactly when the cached session fits. -/
theorem servedAlone_iff (P : NodeIdText) (conn : Option Session) (ans : UaAnswers)
    (req : Sdk.ReadRequest) : ServedAlone P conn ans req ↔ Matches P conn req := by
  cases handle_shape P ans req with
  | idle lines hc h =>
    refine iff_of_true ⟨?_, fun _ => ?_⟩ fun hck => absurd hck hc
    · rw [h conn]
      exact fun x hx => absurd hx List.not_mem_nil
    · rw [h conn, h none]
      exact ⟨rfl, rfl⟩
  | op lines hop hc h =>
    obtain ⟨body, hbody, hop⟩ := hop
    simp only [ServedAlone, Matches, hc, h, hop, ownCalls_onSession hbody]
    refine ⟨And.left, fun hid => ⟨hid, fun hin => ?_⟩⟩
    obtain ⟨hcalls, hresult⟩ := onSession_alone hid hin
    rw [hcalls, hresult]
    exact ⟨rfl, rfl⟩

/-- What is cached after a request was cached before it, or was opened for it. -/
theorem conn_handle {conn : Option Session} {ans : UaAnswers} {req : Sdk.ReadRequest} {s : Session}
    (hs : (handle P conn ans req).1.1 = some s) :
    conn = some s ∨ req.config.getStr "endpoint_url" = some s.endpoint ∧ s.identity = identityOf req := by
  cases handle_shape P ans req with
  | idle lines hc h =>
    rw [h conn] at hs
    exact Or.inl hs
  | op lines hop hc h =>
    obtain ⟨body, hbody, hop⟩ := hop
    rw [h conn, hop] at hs
    exact conn_onSession hbody hs

/-- The cached session was opened for an earlier request. -/
theorem cached_from {reqs : List (UaAnswers × Sdk.ReadRequest)} {s : Session}
    (h : cached P none reqs = some s) :
    ∃ r ∈ reqs, r.2.config.getStr "endpoint_url" = some s.endpoint ∧ s.identity = identityOf r.2 := by
  induction reqs using List.reverseRecOn with
  | nil => cases h
  | append_singleton reqs r ih =>
    rw [cached, List.foldl_append] at h
    rcases conn_handle h with hc | hr
    · obtain ⟨r', hr', hs⟩ := ih hc
      exact ⟨r', List.mem_append_left _ hr', hs⟩
    · exact ⟨r, by simp, hr⟩

/-- If the requests to each endpoint come with one identity, every one of them is
served on its own. -/
theorem servedAlone_of_identity {pre : List (UaAnswers × Sdk.ReadRequest)} (ans : UaAnswers)
    {req : Sdk.ReadRequest} (hone : ∀ r ∈ pre, ∀ url, r.2.config.getStr "endpoint_url" = some url →
      req.config.getStr "endpoint_url" = some url → identityOf r.2 = identityOf req) :
    ServedAlone P (cached P none pre) ans req := by
  refine (servedAlone_iff P _ ans req).mpr fun _ s hs hurl => ?_
  obtain ⟨r, hr, hrurl, hid⟩ := cached_from hs
  rw [hid]
  exact hone r hr s.endpoint hrurl hurl

/-- **Sessions cross identities exactly when the cached one is another's.** In a
sequence of requests to one connector, each request's calls run on a session
opened for its endpoint with its identity, and its outcome is that of the request
alone, if and only if each request that passes its checks finds no session of
its endpoint opened with another identity. -/
theorem own_sessions_iff (P : NodeIdText) (reqs : List (UaAnswers × Sdk.ReadRequest)) :
    (∀ pre ans req post, reqs = pre ++ (ans, req) :: post →
      ServedAlone P (cached P none pre) ans req) ↔
    ∀ pre ans req post, reqs = pre ++ (ans, req) :: post → Matches P (cached P none pre) req := by
  constructor
  · intro h pre ans req post hsplit
    exact (servedAlone_iff P _ ans req).mp (h pre ans req post hsplit)
  · intro h pre ans req post hsplit
    exact (servedAlone_iff P _ ans req).mpr (h pre ans req post hsplit)

end

/-! ### Two users of one server -/

/-- A server that lets everyone in and has a value for every node. -/
def openServer : UaAnswers where
  server := acceptingServer
  readAll _ nodes := .ok (nodes.map fun _ => some (.double (.fin 7)))
  browse _ _ := .ok none
  createSubscription _ := .ok ()
  createMonitoredItems _ _ := .ok ()
  pushed := []

/-- A read of one node under a user's name. -/
def readAs (user password : String) : Sdk.ReadRequest where
  v := 1
  op := "read"
  connectorId := user
  dsType := "opcua"
  config := .obj [("endpoint_url", .str "opc.tcp://10.0.0.5:4840"), ("user", .str user)]
  secrets := .obj [("password", .str password)]
  selection := .obj [("node_id", .str "ns=2;s=Temp")]
  args := .null
  naming := .null
  points := []
  target := .null
  writeValue := none
  readback := false

/-- The second user's read runs on the session of the first. -/
theorem session_of_another :
    (handle plainNodes (cached plainNodes none [(openServer, readAs "admin" "secret")]) openServer
      (readAs "viewer" "guest")).1.2 =
        [(⟨"opc.tcp://10.0.0.5:4840", .userName "admin" "secret"⟩, .read [⟨2, .string "Temp"⟩])] ∧
    ¬ ∀ pre ans req post,
      [(openServer, readAs "admin" "secret"), (openServer, readAs "viewer" "guest")] =
        pre ++ (ans, req) :: post → ServedAlone plainNodes (cached plainNodes none pre) ans req := by
  have hcalls : (handle plainNodes (cached plainNodes none [(openServer, readAs "admin" "secret")])
      openServer (readAs "viewer" "guest")).1.2 =
        [(⟨"opc.tcp://10.0.0.5:4840", .userName "admin" "secret"⟩, .read [⟨2, .string "Temp"⟩])] := by
    rfl
  refine ⟨hcalls, fun h => ?_⟩
  have hown := (h [(openServer, readAs "admin" "secret")] _ _ [] rfl).1
  rw [hcalls] at hown
  exact absurd (hown _ (List.mem_singleton_self _)).2 (by decide)

end UaConnector
end LymonAgent
