/-
# What is written to an OPC-UA server

Which Write calls reach a server from `crates/plugin-opcua/src/main.rs`. The plugin is
asked for polls, batched reads, queries of the cloud and writes, and the operation of a query
is the cloud's, "write" included. Only a write of the agent names a target, and the connector
writes nothing without one: over any sequence of requests the Write calls are those of the
writes, in their order and once at most (`writes_asked`).

Key definitions: `opcuaCalls`, `Request.wanted`.
Key theorems: `deviceWrites_handle`, `writes_asked`.
-/
import LymonAgent.Plugin.OpcUa
import LymonAgent.Plugin.Remote

namespace LymonAgent
namespace Plugin

open Control UaConnector

/-! ### Requests in sequence -/

/-- The OPC-UA plugin on a request of the agent: the session cached after it, and the
service calls it made. -/
def opcuaServes (P : NodeIdText) (conn : Option Session) (ans : UaAnswers) (req : Request) :
    Option Session × List (Session × ServiceCall) :=
  match (Sdk.ReadRequest.ofJson req.line).map Sdk.ReadRequest.mirrored with
  | none => (conn, [])
  | some r => (handle P conn ans r).1

/-- The service calls of a sequence of requests. -/
def opcuaCalls (P : NodeIdText) : Option Session → List (UaAnswers × Request) → List (Session × ServiceCall)
  | _, [] => []
  | conn, (ans, req) :: reqs =>
    let (conn, calls) := opcuaServes P conn ans req
    calls ++ opcuaCalls P conn reqs

/-- The Write call that a request asks for. -/
def Request.wanted (P : NodeIdText) : Request → Option DeviceWrite
  | .write c r =>
    match c.config.getStr "endpoint_url", (r.target.getStr "node_id").bind P.fromStr with
    | some url, some node =>
      if r.value.isFinite then
        some (.node url node (variantOf ((r.target.getStr "datatype").getD "double") (rawOf r.target r.value)))
      else none
    | _, _ => none
  | _ => none

/-! ### Calls that are no Write -/

theorem deviceWrites_append (l m : List (Session × ServiceCall)) :
    deviceWrites (l ++ m) = deviceWrites l ++ deviceWrites m :=
  List.filterMap_append

/-- No Write among the calls. -/
def WriteFree (calls : List ServiceCall) : Prop := ∀ node v, .write node v ∉ calls

theorem WriteFree.concat {calls : List ServiceCall} {c : ServiceCall} (h : WriteFree calls)
    (hc : ∀ node v, c ≠ .write node v) : WriteFree (calls ++ [c]) := by
  intro node v hmem
  rcases List.mem_append.mp hmem with hmem | hmem
  · exact h node v hmem
  · exact hc node v (List.mem_singleton.mp hmem).symm

theorem writeFree_morePages (answer : ℕ → Except String (Option Page)) (budget : ℕ) :
    ∀ (left : ℕ) (calls : List ServiceCall) (refs : List Reference) (more : Bool), WriteFree calls →
      WriteFree (morePages answer budget left calls refs more).1
  | 0, _, _, _, h => h
  | left + 1, calls, refs, more, h => by
    have hnext : WriteFree (calls ++ [.browseNext]) := h.concat fun _ _ => ServiceCall.noConfusion
    unfold morePages
    split
    · exact h
    · split
      · exact writeFree_morePages answer budget left _ _ _ hnext
      · exact hnext

theorem writeFree_visit {children : NodeId → ℕ → List ServiceCall → List Sdk.Node × ℕ × List ServiceCall}
    (hc : ∀ n b calls, WriteFree calls → WriteFree (children n b calls).2.2) :
    ∀ (refs : List Reference) (budget : ℕ) (calls : List ServiceCall), WriteFree calls →
      WriteFree (visit children refs budget calls).2.2
  | [], _, _, h => h
  | r :: rs, budget, calls, h => by
    unfold visit
    split
    · exact h
    · split
      · exact writeFree_visit hc rs _ _ h
      · exact writeFree_visit hc rs _ _ (hc r.id _ _ h)

theorem writeFree_browseNode (answer : ℕ → Except String (Option Page)) :
    ∀ (depth : ℕ) (node : NodeId) (budget : ℕ) (calls : List ServiceCall), WriteFree calls →
      WriteFree (browseNode answer depth node budget calls).2.2
  | 0, _, _, _, h => h
  | depth + 1, node, budget, calls, h => by
    have hfirst : WriteFree (calls ++ [.browse node]) := h.concat fun _ _ => ServiceCall.noConfusion
    unfold browseNode
    split
    · exact h
    · split
      · exact hfirst
      · exact hfirst
      · rename_i page _
        exact writeFree_visit (writeFree_browseNode answer depth) _ _ _
          (writeFree_morePages answer budget 64 _ _ _ hfirst)

theorem deviceWrites_map {calls : List ServiceCall} (h : WriteFree calls) (s : Session) :
    deviceWrites (calls.map fun c => (s, c)) = [] := by
  refine List.filterMap_eq_nil_iff.mpr fun x hx => ?_
  obtain ⟨c, hc, rfl⟩ := List.mem_map.mp hx
  cases c with
  | write node v => exact absurd hc (h node v)
  | _ => rfl

variable {P : NodeIdText} {conn : Option Session} {ans : UaAnswers} {r : Sdk.ReadRequest}

theorem deviceWrites_onSession {α β : Type} {srv : UaServer} {checked : Except String β}
    {body : Option Session → Session → β → Served α} (h : ∀ conn s b, deviceWrites (body conn s b).calls = []) :
    deviceWrites (onSession srv conn r checked body).calls = [] := by
  unfold onSession
  split
  · rfl
  · split
    · rfl
    · split
      · rfl
      · exact h _ _ _

theorem deviceWrites_read : deviceWrites (read P conn ans r).calls = [] := by
  refine deviceWrites_onSession fun conn s targets => ?_
  dsimp only
  split
  · rfl
  · split <;> rfl

theorem deviceWrites_discover : deviceWrites (UaConnector.discover P conn ans r).calls = [] :=
  deviceWrites_onSession fun _ s root =>
    deviceWrites_map (writeFree_browseNode (ans.browse s) maxDepth root maxNodes []
      fun _ _ => List.not_mem_nil) s

theorem deviceWrites_subscribe : deviceWrites (subscribe P conn ans r).calls = [] := by
  refine deviceWrites_onSession fun conn s node => ?_
  dsimp only
  split
  · rfl
  · split <;> rfl

/-- Only the operation of a write makes Write calls, and they are its own. -/
theorem deviceWrites_handle :
    deviceWrites (handle P conn ans r).1.2 =
      if r.op = "write" then deviceWrites (write P conn ans r).calls else [] := by
  by_cases hsub : r.op = "subscribe"
  · rw [handle, if_pos hsub, if_neg (by rw [hsub]; decide)]
    exact deviceWrites_subscribe
  · have hdispatch : (handle P conn ans r).1.2 = (Sdk.dispatch (collector P ans) (conn, []) r).1.2 := by
      rw [handle, if_neg hsub]
    rw [hdispatch]
    unfold Sdk.dispatch
    split
    · rename_i hop
      rw [hop]
      exact deviceWrites_read
    · rename_i hop
      rw [hop]
      exact deviceWrites_discover
    · rename_i hop
      rw [hop]
      exact deviceWrites_read
    · rename_i hop
      rw [hop]
      exact deviceWrites_read
    · rename_i hop
      rw [hop]
      exact deviceWrites_read
    · rename_i hop
      rw [hop]
      rfl
    · rename_i hop
      rw [if_neg hop]
      rfl

/-! ### The Write call of a request -/

theorem endpoint_sessionFor {srv : UaServer} {url : String} {i : Identity} {conn' : Option Session}
    {s : Session} (h : Control.OpcUa.sessionFor srv conn url i = (conn', .ok s)) : s.endpoint = url := by
  rcases sessionFor_cases srv conn url i with ⟨t, -, ht, heq⟩ | ⟨-, heq⟩
  · obtain ⟨-, hs⟩ := Prod.mk.inj (heq.symm.trans h)
    obtain rfl := Except.ok.inj hs
    exact ht
  · rw [heq, opened] at h
    split at h
    · cases (Prod.mk.inj h).2
    · obtain rfl := Except.ok.inj (Prod.mk.inj h).2
      rfl

/-- A write makes no Write call, or one, at its endpoint, of its node and value. -/
theorem deviceWrites_write (P : NodeIdText) (conn : Option Session) (ans : UaAnswers) (r : Sdk.ReadRequest) :
    deviceWrites (write P conn ans r).calls = [] ∨
    ∃ url node v, r.config.getStr "endpoint_url" = some url ∧ writeOf P r = .ok (node, v) ∧
      deviceWrites (write P conn ans r).calls = [.node url node v] := by
  unfold write onSession
  cases hurl : r.config.getStr "endpoint_url" with
  | none => exact Or.inl rfl
  | some url =>
    cases hw : writeOf P r with
    | error e => exact Or.inl rfl
    | ok w =>
      obtain ⟨node, v⟩ := w
      dsimp only
      split
      · exact Or.inl rfl
      · rename_i conn' s hs
        refine Or.inr ⟨url, node, v, rfl, rfl, ?_⟩
        rw [← endpoint_sessionFor hs]
        split
        · rfl
        · split
          · rfl
          · split
            · rfl
            · split <;> rfl

/-- The node and the value that the connector makes of a write are those wanted. -/
theorem wanted_of_writeOf {c : Conn} {w : WriteRequest} {r : Sdk.ReadRequest} {url : String} {node : NodeId}
    {v : Variant} (hr : (Request.write c w).asked = some r) (hurl : r.config.getStr "endpoint_url" = some url)
    (h : writeOf P r = .ok (node, v)) : (Request.write c w).wanted P = some (.node url node v) := by
  obtain rfl := Option.some.inj hr
  unfold writeOf at h
  dsimp only at h hurl
  split at h
  · cases h
  · rename_i n hn
    split at h
    · cases h
    · rename_i node' hnode
      cases hfin : w.value.isFinite with
      | false => simp [hfin] at h
      | true =>
        simp only [hfin, if_true] at h
        obtain ⟨rfl, rfl⟩ := Prod.mk.inj (Except.ok.inj h)
        simp [Request.wanted, hurl, hn, hnode, hfin]

/-- The Write calls of one request are those it asks for. -/
theorem writes_opcuaServes (conn : Option Session) (ans : UaAnswers) (req : Request) :
    (deviceWrites (opcuaServes P conn ans req).2).Sublist (req.wanted P).toList := by
  unfold opcuaServes
  rw [ofJson_line]
  cases hasked : req.asked with
  | none => exact List.nil_sublist _
  | some r =>
    dsimp only
    rw [deviceWrites_handle]
    split
    · rcases deviceWrites_write P conn ans r with h | ⟨url, node, v, hurl, hw, h⟩
      · rw [h]
        exact List.nil_sublist _
      · rw [h]
        -- a request that is no write has no target
        have hnone : r.target = .null → writeOf P r ≠ .ok (node, v) := by
          intro ht
          simp [writeOf, ht, Json.getStr, Json.get]
        cases req with
        | write c w =>
          obtain rfl := Option.some.inj hasked
          rw [wanted_of_writeOf rfl hurl hw]
          exact List.Sublist.refl _
        | read c ing =>
          obtain rfl := Option.some.inj hasked
          exact absurd hw (hnone rfl)
        | query op dsType config secrets args =>
          obtain rfl := Option.some.inj hasked
          exact absurd hw (hnone rfl)
        | readPoints dsType config secrets points =>
          obtain ⟨l, -, rfl⟩ := Option.map_eq_some_iff.mp hasked
          exact absurd hw (hnone rfl)
    · exact List.nil_sublist _

/-- **An OPC-UA server is written what was asked.** For every sequence of requests of the
agent to the OPC-UA plugin, whatever session it has cached and whatever the servers answer:
the Write calls made are among those that the writes ask for, each at its own endpoint, of
its own node and value, in their order and once at most. Polls, batched reads, tests and
queries of the cloud, also one whose operation is "write", make none. -/
theorem writes_asked (P : NodeIdText) : ∀ (conn : Option Session) (reqs : List (UaAnswers × Request)),
    (deviceWrites (opcuaCalls P conn reqs)).Sublist (reqs.filterMap fun x => x.2.wanted P)
  | _, [] => .slnil
  | conn, (ans, req) :: reqs => by
    have hrest := writes_asked P (opcuaServes P conn ans req).1 reqs
    have hboth := (writes_opcuaServes (P := P) conn ans req).append hrest
    rw [← deviceWrites_append] at hboth
    cases hw : req.wanted P <;> simpa [opcuaCalls, hw] using hboth

end Plugin
end LymonAgent
