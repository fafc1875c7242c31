/-
# One cycle of an ingest

What a poll task of `src/collector.rs` does between two sleeps, and with it the
Modbus client of `src/modbus.rs`. `run_ingest` streams, oversamples or polls
(`mode`); `collect_once` reads by the adapter of the connector's type, with a Modbus
connection that stays open between the reads of a task until one fails; and a cycle
ends with at most one call of `enqueue_with_origin`, under the connector's id
(`Cycle.call`).

What the control channel wrote to a register is what the collector records of it
(`poll_after_write`). Values are exact here, as they are in `Window`; in doubles they are
the same where nothing is rounded (`applyScale_unrounded`, `collectPss_unrounded`).

Left out: the deadlines as times, and the log lines.

Key definitions: `ModbusClient`, `collectOnce`, `mode`, `Cycle.call`.
Key theorems: `registers_collected`, `poll_after_write`.
-/
import LymonAgent.Collect.Window
import LymonAgent.Control.Confirm
import LymonAgent.Plugin.Boundary
import LymonAgent.Plugin.Route
import LymonAgent.Pss.Values

namespace LymonAgent
namespace Collect

open Control Plugin
open LymonAgent.Ingest (Sample)

/-! ### The Modbus client -/

/-- A connected device's answer to a read: registers, a Modbus exception, or an error of
the transport. -/
inductive ReadReply where
  | words (regs : List UInt16)
  | exception (e : String)
  | transport (e : String)

/-- The network at one call: connecting to a host and port within a number of
milliseconds, and a read of input or holding registers there. -/
structure ModbusNet where
  connect : String → UInt16 → ℕ → Except String Unit
  read : String → UInt16 → Bool → UInt16 → UInt16 → ReadReply

/-- `connected` is whether `ctx` is there. -/
structure ModbusClient where
  host : String
  port : UInt16
  ioTimeoutMs : ℕ
  connected : Bool

def ModbusClient.new (host : String) (port : UInt16) (pollIntervalMs : ℕ) : ModbusClient :=
  ⟨host, port, min 30000 (max 5000 (pollIntervalMs * 3)), false⟩

/-- `ModbusClient::read`, from the connection on. -/
def ModbusClient.readConnected (net : ModbusNet) (c : ModbusClient) (start count : UInt16) (input : Bool) :
    ModbusClient × Except String (List UInt16) :=
  match net.read c.host c.port input start count with
  | .words regs => ({ c with connected := true }, .ok regs)
  | .exception e => ({ c with connected := false }, .error ("Modbus exception: " ++ e))
  | .transport e => ({ c with connected := false }, .error e)

def ModbusClient.read (net : ModbusNet) (c : ModbusClient) (start count : UInt16) (input : Bool) :
    ModbusClient × Except String (List UInt16) :=
  if c.connected then c.readConnected net start count input
  else
    match net.connect c.host c.port c.ioTimeoutMs with
    | .error e => (c, .error e)
    | .ok _ => c.readConnected net start count input

/-! ### One reading -/

/-- The environment of one `collect_once`: the clock, the Modbus network, what `pss::run`
returns, and the line a plugin answers with. -/
structure CollectEnv where
  nowMs : ℤ
  net : ModbusNet
  pss : Except String Json
  plugin : Except String Line

def variableId (ing : Ingest) : String := (ing.naming.getStr "variable_id").getD ing.ingestId

/-- A register of a read of `n`, as a sample. -/
def registerSample (ing : Ingest) (tsMs : ℤ) (n i : ℕ) (raw : UInt16) : Sample where
  pointId := if n = 1 then variableId ing else variableId ing ++ "/" ++ i.repr
  tsMs := tsMs
  value := applyScale ing.transform (.fin raw.toNat)
  quality := 0
  attrs := []

def registerSamples (ing : Ingest) (tsMs : ℤ) (regs : List UInt16) : List Sample :=
  regs.mapIdx fun i raw => registerSample ing tsMs regs.length i raw

/-- The Modbus client of a task before a read of it. -/
def clientOf (conn : Conn) (ing : Ingest) (host : String) (modbus : Option ModbusClient) : ModbusClient :=
  modbus.getD (.new host (portOf conn.config) (max ing.intervalS.toNat 1 * 1000))

def collectModbus (conn : Conn) (ing : Ingest) (modbus : Option ModbusClient) (env : CollectEnv) :
    Option ModbusClient × Except String (List Sample) :=
  match conn.config.getStr "host" with
  | none => (modbus, .error "modbus connector config.host missing")
  | some host =>
    match ing.selection.getU64 "register" with
    | none => (modbus, .error "modbus ingest selection.register missing")
    | some register =>
      let count := ((ing.selection.getU64 "count").getD 1).toUInt16
      let input := decide (ing.selection.getStr "type" = some "input")
      let (client, regs) := (clientOf conn ing host modbus).read env.net register.toUInt16 count input
      (some client, regs.map (registerSamples ing env.nowMs))

def collectPss (ing : Ingest) (env : CollectEnv) : Except String (List Sample) :=
  env.pss.bind fun result =>
    match Pss.scalarValue result with
    | none => .error ("pss query for " ++ variableId ing ++ " returned no scalar value")
    | some value => .ok [⟨variableId ing, env.nowMs, applyScale ing.transform value, 0, []⟩]

def collectOnce (host : PluginHost) (conn : Conn) (ing : Ingest) (modbus : Option ModbusClient)
    (env : CollectEnv) : Option ModbusClient × Except String (List Sample) :=
  match conn.dsType with
  | "modbus" => collectModbus conn ing modbus env
  | "pss" => (modbus, collectPss ing env)
  | other =>
    match host.forType other with
    | some _ => (modbus, collectPlugin ing (env.plugin.bind (pluginRead env.nowMs)))
    | none => (modbus, .error ("agent cannot collect connector type '" ++ other ++
        "' (no built-in adapter or plugin)"))

/-! ### Scaling in doubles -/

/-- Scaling the value rounds nothing: the scale and the offset are doubles, and so are the
product and the sum. -/
structure Unrounded (transform : Json) (x : F64) : Prop where
  scale : F64.double ((transform.getF64 "scale").getD (.fin 1)) = (transform.getF64 "scale").getD (.fin 1)
  offset : F64.double ((transform.getF64 "offset").getD (.fin 0)) = (transform.getF64 "offset").getD (.fin 0)
  product : F64.double (x.mul ((transform.getF64 "scale").getD (.fin 1))) =
    x.mul ((transform.getF64 "scale").getD (.fin 1))
  sum : F64.double ((x.mul ((transform.getF64 "scale").getD (.fin 1))).add
      ((transform.getF64 "offset").getD (.fin 0))) =
    (x.mul ((transform.getF64 "scale").getD (.fin 1))).add ((transform.getF64 "offset").getD (.fin 0))

theorem nearest_of_double {q : ℚ} (h : F64.double (.fin q) = .fin q) : F64.nearest q = q := by
  by_cases hlt : |q| < F64.overflowBound
  · rw [F64.double_of_lt hlt] at h
    exact F64.fin.inj h
  · rw [F64.double_of_le (le_of_not_gt hlt)] at h
    cases h

/-- A number of JSON is a number. -/
theorem exists_getF64 (v : Json) (k : String) (q : ℚ) : ∃ r, (v.getF64 k).getD (.fin q) = .fin r := by
  unfold Json.getF64
  cases v.get k with
  | none => exact ⟨q, rfl⟩
  | some x =>
    unfold Json.asF64
    cases x with
    | num n =>
      cases n <;> exact ⟨_, rfl⟩
    | _ => exact ⟨q, rfl⟩

theorem fin_factor {transform : Json} {key : String} {d : ℚ}
    (h : F64.double ((transform.getF64 key).getD (.fin d)) = (transform.getF64 key).getD (.fin d)) :
    .fin (Pss.factor transform key d) = (transform.getF64 key).getD (.fin d) := by
  obtain ⟨r, hr⟩ := exists_getF64 transform key d
  unfold Pss.factor
  cases hkey : transform.getF64 key with
  | none => rfl
  | some x =>
    rw [hkey, Option.getD_some] at h hr
    rw [hr] at h
    rw [hr, Option.getD_some]
    exact congrArg F64.fin (nearest_of_double h)

/-- `apply_scale` in doubles is the exact one where nothing is rounded. -/
theorem applyScale_unrounded {transform : Json} {x : F64} (h : Unrounded transform x) :
    Pss.applyScale transform x = applyScale transform x := by
  unfold Pss.applyScale applyScale
  rw [fin_factor h.scale, fin_factor h.offset, h.product, h.sum]

/-- The two readings of a PSS variable are one where nothing is rounded. -/
theorem collectPss_unrounded {ing : Ingest} {env : CollectEnv} {rows : List Pss.VarRow}
    (hpss : env.pss = (Pss.requireVars ing.selection).map fun vars => Pss.query vars.val rows)
    (h : ∀ result x, env.pss = .ok result → Pss.scalarValue result = some x → Unrounded ing.transform x) :
    collectPss ing env = Pss.collectOnce ing.selection ing.transform (variableId ing) env.nowMs rows := by
  unfold collectPss Pss.collectOnce
  cases hvars : Pss.requireVars ing.selection with
  | error e =>
    rw [hpss, hvars]
    rfl
  | ok vars =>
    rw [hvars, Except.map] at hpss
    rw [hpss]
    simp only [Except.bind, bind]
    cases hx : Pss.scalarValue (Pss.query vars.val rows) with
    | none => rfl
    | some x =>
      dsimp only
      rw [applyScale_unrounded (h _ x hpss hx)]
      rfl

/-! ### A cycle -/

inductive Mode where
  | poll
  | window
  | stream
  deriving DecidableEq

/-- The record interval, in milliseconds. -/
def recordMs (ing : Ingest) : ℕ := max ing.intervalS.toNat 1 * 1000

/-- The sample interval is there and finer than the record interval. -/
def oversample (ing : Ingest) : Bool :=
  match ing.transform.getU64 "sample_interval_ms" with
  | none => false
  | some m => 1 ≤ m.toNat && m.toNat < recordMs ing

/-- What `run_ingest` decides before its loop. -/
def mode (host : PluginHost) (conn : Conn) (ing : Ingest) : Mode :=
  if subscribeMode ing && (host.forType conn.dsType).isSome then .stream
  else if oversample ing then .window
  else .poll

/-- A cycle of the loop: one reading; the readings of a window, which are one at least,
and its end; or a line of a stream and when it came. -/
inductive Cycle where
  | poll (env : CollectEnv)
  | window (first : CollectEnv) (rest : List CollectEnv) (tsMs : ℤ)
  | stream (nowMs : ℤ) (line : Line)

def Cycle.mode : Cycle → Mode
  | .poll _ => .poll
  | .window _ _ _ => .window
  | .stream _ _ => .stream

/-- The readings of a window, on one Modbus client. -/
def readAll (host : PluginHost) (conn : Conn) (ing : Ingest) :
    Option ModbusClient → List CollectEnv → Option ModbusClient × List (Except String (List Sample))
  | modbus, [] => (modbus, [])
  | modbus, env :: envs =>
    let (modbus, r) := collectOnce host conn ing modbus env
    let (modbus, rs) := readAll host conn ing modbus envs
    (modbus, r :: rs)

/-- The Modbus client after the cycle, and the call of `enqueue_with_origin` it ends
with, if it makes one. -/
def Cycle.call (host : PluginHost) (conn : Conn) (ing : Ingest) (modbus : Option ModbusClient) :
    Cycle → Option ModbusClient × Option (Option String × List Sample)
  | .poll env =>
    match collectOnce host conn ing modbus env with
    | (modbus, .ok []) => (modbus, none)
    | (modbus, .ok samples) => (modbus, some (some ing.connectorId, samples))
    | (modbus, .error _) => (modbus, none)
  | .window first rest tsMs =>
    let (modbus, results) := readAll host conn ing modbus (first :: rest)
    (modbus, runWindow ing results tsMs)
  | .stream nowMs line =>
    match line.pushed nowMs with
    | some (.ok samples) => (modbus, some (some ing.connectorId,
        samples.map fun s => { s with value := applyScale ing.transform s.value }))
    | _ => (modbus, none)

/-! ### The client of a task -/

variable {host : PluginHost} {conn : Conn} {ing : Ingest} {modbus : Option ModbusClient}

/-- The Modbus client of a task after some cycles; it starts without one. -/
def clientAfter (host : PluginHost) (conn : Conn) (ing : Ingest) (cycles : List Cycle) :
    Option ModbusClient :=
  cycles.foldl (fun modbus c => (c.call host conn ing modbus).1) none

/-- A client is that of the connector. -/
def Serves (conn : Conn) (modbus : Option ModbusClient) : Prop :=
  ∀ client ∈ modbus, conn.config.getStr "host" = some client.host ∧ client.port = portOf conn.config

theorem address_read (net : ModbusNet) (c : ModbusClient) (start count : UInt16) (input : Bool) :
    (c.read net start count input).1.host = c.host ∧ (c.read net start count input).1.port = c.port := by
  have hread : (c.readConnected net start count input).1.host = c.host ∧
      (c.readConnected net start count input).1.port = c.port := by
    unfold ModbusClient.readConnected
    split <;> exact ⟨rfl, rfl⟩
  unfold ModbusClient.read
  split
  · exact hread
  · split
    · exact ⟨rfl, rfl⟩
    · exact hread

theorem address_clientOf (ing : Ingest) {chost : String} (hs : Serves conn modbus)
    (hhost : conn.config.getStr "host" = some chost) :
    (clientOf conn ing chost modbus).host = chost ∧
      (clientOf conn ing chost modbus).port = portOf conn.config := by
  cases modbus with
  | none => exact ⟨rfl, rfl⟩
  | some client =>
    obtain ⟨h, hport⟩ := hs client rfl
    exact ⟨Option.some.inj (h.symm.trans hhost), hport⟩

theorem serves_collectModbus {env : CollectEnv} (hs : Serves conn modbus) :
    Serves conn (collectModbus conn ing modbus env).1 := by
  unfold collectModbus
  cases hhost : conn.config.getStr "host" with
  | none => exact hs
  | some chost =>
    cases hreg : ing.selection.getU64 "register" with
    | none => exact hs
    | some register =>
      intro client hclient
      obtain rfl := Option.some.inj hclient
      obtain ⟨hh, hp⟩ := address_clientOf ing hs hhost
      obtain ⟨hh', hp'⟩ := address_read env.net (clientOf conn ing chost modbus) register.toUInt16
        ((ing.selection.getU64 "count").getD 1).toUInt16
        (decide (ing.selection.getStr "type" = some "input"))
      exact ⟨by rw [hhost, hh', hh], hp'.trans hp⟩

theorem serves_collectOnce {env : CollectEnv} (hs : Serves conn modbus) :
    Serves conn (collectOnce host conn ing modbus env).1 := by
  unfold collectOnce
  split
  · exact serves_collectModbus hs
  · exact hs
  · split
    · exact hs
    · exact hs

theorem serves_readAll {envs : List CollectEnv} (hs : Serves conn modbus) :
    Serves conn (readAll host conn ing modbus envs).1 := by
  induction envs generalizing modbus with
  | nil => exact hs
  | cons env envs ih => exact ih (serves_collectOnce hs)

theorem serves_call {cycle : Cycle} (hs : Serves conn modbus) :
    Serves conn (cycle.call host conn ing modbus).1 := by
  cases cycle with
  | poll env =>
    have h : Serves conn (collectOnce host conn ing modbus env).1 := serves_collectOnce hs
    simp only [Cycle.call]
    generalize collectOnce host conn ing modbus env = read at h ⊢
    split <;> exact h
  | window first rest tsMs =>
    have h : Serves conn (readAll host conn ing modbus (first :: rest)).1 := serves_readAll hs
    exact h
  | stream nowMs line =>
    simp only [Cycle.call]
    split <;> exact hs

/-- The client of a task stays on the host and the port of its connector. -/
theorem serves_clientAfter (cycles : List Cycle) : Serves conn (clientAfter host conn ing cycles) := by
  unfold clientAfter
  have hnone : Serves conn none := fun _ h => by cases h
  generalize (none : Option ModbusClient) = modbus at hnone ⊢
  induction cycles generalizing modbus with
  | nil => exact hnone
  | cons c cycles ih => exact ih _ (serves_call hnone)

/-! ### What a cycle hands over -/

theorem attrs_resp {now : ℤ} {invalid failed : String} {line : Line} {samples : List Sample}
    (h : line.resp now invalid failed = .ok samples) : ∀ s ∈ samples, s.attrs = [] := by
  unfold Line.resp at h
  split at h
  · split at h
    · cases h
    · split at h
      · obtain rfl := Except.ok.inj h
        intro s hs
        obtain ⟨x, -, rfl⟩ := List.mem_map.mp hs
        rfl
      · cases h
  · cases h

theorem attrs_pushed {now : ℤ} {line : Line} {samples : List Sample}
    (h : line.pushed now = some (.ok samples)) : ∀ s ∈ samples, s.attrs = [] := by
  unfold Line.pushed at h
  split at h
  · cases h
  · split at h
    · cases h
    · exact attrs_resp (Option.some.inj h)

theorem attrs_map_scale {transform : Json} {samples : List Sample} (h : ∀ s ∈ samples, s.attrs = []) :
    ∀ s ∈ samples.map (fun s => { s with value := applyScale transform s.value }), s.attrs = [] := by
  intro s hs
  obtain ⟨x, hx, rfl⟩ := List.mem_map.mp hs
  exact h x hx

theorem attrs_collectModbus {env : CollectEnv} {samples : List Sample}
    (h : (collectModbus conn ing modbus env).2 = .ok samples) : ∀ s ∈ samples, s.attrs = [] := by
  unfold collectModbus at h
  split at h
  · cases h
  · split at h
    · cases h
    · simp only [Except.map] at h
      split at h
      · cases h
      · obtain rfl := Except.ok.inj h
        intro s hs
        obtain ⟨i, hi, rfl⟩ := List.mem_mapIdx.mp hs
        rfl

theorem attrs_collectPss {env : CollectEnv} {samples : List Sample} (h : collectPss ing env = .ok samples) :
    ∀ s ∈ samples, s.attrs = [] := by
  unfold collectPss at h
  cases hpss : env.pss with
  | error e => simp [hpss, Except.bind] at h
  | ok result =>
    simp only [hpss, Except.bind] at h
    split at h
    · cases h
    · obtain rfl := Except.ok.inj h
      intro s hs
      obtain rfl := List.mem_singleton.mp hs
      rfl

theorem attrs_collectOnce {env : CollectEnv} {samples : List Sample}
    (h : (collectOnce host conn ing modbus env).2 = .ok samples) : ∀ s ∈ samples, s.attrs = [] := by
  unfold collectOnce at h
  split at h
  · exact attrs_collectModbus h
  · exact attrs_collectPss h
  · split at h
    · cases hline : env.plugin with
      | error e => simp [hline, collectPlugin, Except.bind, Except.map] at h
      | ok line =>
        simp only [hline, collectPlugin, Except.bind, Except.map] at h
        split at h
        · cases h
        · rename_i read hread
          obtain rfl := Except.ok.inj h
          exact attrs_map_scale (attrs_resp hread)
    · cases h

/-- A call is made for the ingest's connector, with samples that have no attributes. -/
theorem of_call {cycle : Cycle} {o : Option String} {samples : List Sample}
    (h : (cycle.call host conn ing modbus).2 = some (o, samples)) :
    o = some ing.connectorId ∧ ∀ s ∈ samples, s.attrs = [] := by
  cases cycle with
  | poll env =>
    have hattrs : ∀ {samples}, (collectOnce host conn ing modbus env).2 = .ok samples → ∀ s ∈ samples, s.attrs = [] :=
      attrs_collectOnce
    simp only [Cycle.call] at h
    generalize collectOnce host conn ing modbus env = read at h hattrs
    split at h
    · cases h
    · obtain ⟨rfl, rfl⟩ := Prod.mk.inj (Option.some.inj h)
      exact ⟨rfl, hattrs rfl⟩
    · cases h
  | window first rest tsMs =>
    simp only [Cycle.call, runWindow] at h
    split at h
    · cases h
    · obtain ⟨rfl, rfl⟩ := Prod.mk.inj (Option.some.inj h)
      refine ⟨rfl, fun s hs => ?_⟩
      obtain ⟨x, -, rfl⟩ := List.mem_map.mp hs
      rfl
  | stream nowMs line =>
    simp only [Cycle.call] at h
    split at h
    · rename_i pushed hpushed
      obtain ⟨rfl, rfl⟩ := Prod.mk.inj (Option.some.inj h)
      exact ⟨rfl, attrs_map_scale (attrs_pushed hpushed)⟩
    · cases h

/-! ### What a register is recorded as -/

theorem read_eq_ok {net : ModbusNet} {c : ModbusClient} {start count : UInt16} {input : Bool}
    {regs : List UInt16} (h : (c.read net start count input).2 = .ok regs) :
    net.read c.host c.port input start count = .words regs := by
  have hread : (c.readConnected net start count input).2 = .ok regs →
      net.read c.host c.port input start count = .words regs := by
    intro h
    unfold ModbusClient.readConnected at h
    split at h
    · rename_i regs' hregs
      rw [hregs, Except.ok.inj h]
    · cases h
    · cases h
  unfold ModbusClient.read at h
  split at h
  · exact hread h
  · split at h
    · cases h
    · exact hread h

/-- A reading of a Modbus ingest that went through: the samples are the registers
that the connector's device gave. -/
theorem registers_collected {env : CollectEnv} {samples : List Sample} (hs : Serves conn modbus)
    (h : (collectModbus conn ing modbus env).2 = .ok samples) :
    ∃ chost register regs, conn.config.getStr "host" = some chost ∧
      ing.selection.getU64 "register" = some register ∧
      env.net.read chost (portOf conn.config) (decide (ing.selection.getStr "type" = some "input"))
        register.toUInt16 ((ing.selection.getU64 "count").getD 1).toUInt16 = .words regs ∧
      samples = registerSamples ing env.nowMs regs := by
  unfold collectModbus at h
  cases hhost : conn.config.getStr "host" with
  | none => simp [hhost] at h
  | some chost =>
    cases hreg : ing.selection.getU64 "register" with
    | none => simp [hhost, hreg] at h
    | some register =>
      simp only [hhost, hreg] at h
      obtain ⟨hh, hp⟩ := address_clientOf ing hs hhost
      cases hread : ((clientOf conn ing chost modbus).read env.net register.toUInt16
          ((ing.selection.getU64 "count").getD 1).toUInt16
          (decide (ing.selection.getStr "type" = some "input"))).2 with
      | error e => simp [hread, Except.map] at h
      | ok regs =>
        simp only [hread, Except.map] at h
        have hwords := read_eq_ok hread
        rw [hh, hp] at hwords
        exact ⟨chost, register, regs, rfl, rfl, hwords, (Except.ok.inj h).symm⟩

/-- A datatype of one register puts the low 16 bits of the integer there. -/
theorem toNat_of_encodeWords {datatype wordOrder : String} {lo hi : ℤ} {q : ℚ} {ws : List UInt16}
    (hr : intRange datatype = some (lo, hi)) (hone : width datatype = some 1)
    (h : encodeWords datatype (.fin q) wordOrder = .ok ws) :
    ∃ w, ws = [w] ∧ (w.toNat : ℤ) = clamp lo hi (F64.roundHalfAway q) % 65536 := by
  have hword (n : ℤ) : ((UInt16.ofInt n).toNat : ℤ) = n % 65536 := by
    simp only [UInt16.ofInt, UInt16.toNat_ofNat']
    omega
  unfold intRange at hr
  split at hr
  · cases hr
    obtain rfl := Except.ok.inj h
    exact ⟨_, rfl, by rw [hword, clamp_toI64 (by decide) (by decide) (by decide)]⟩
  · cases hr
    obtain rfl := Except.ok.inj h
    exact ⟨_, rfl, by rw [hword, clamp_toI64 (by decide) (by decide) (by decide)]⟩
  · cases hone
  · cases hone
  · cases hr

/-! ### What was written, collected -/

variable {V : Ed25519} {F : FloatText} {env : Env} {connectors : ConnStore}
  {pubkey : Option (List UInt8)} {req : Json}

/-- A write that was acknowledged went to the address of its target. -/
theorem address_of_acked {c : Conn} (hc : connectors (WriteRequest.ofJson req).connectorId = some c)
    (hmodbus : c.dsType = "modbus") (hfn : Target.fnclass (WriteRequest.ofJson req).target ≠ "coil")
    (hack : Acked (writeAck V F env connectors pubkey req)) :
    ∃ a, (WriteRequest.ofJson req).target.getU64 "address" = some a := by
  obtain ⟨readback, hok⟩ := acked_ackOf.mp hack
  have heq := handleWrite_of_ok hc hmodbus hok
  obtain ⟨-, a, -, ha, -⟩ := writeModbus_eq_ok hfn (heq ▸ hok)
  exact ⟨a, ha⟩

/-- One register makes one sample, under the variable's own id. -/
theorem registerSamples_singleton (ing : Ingest) (tsMs : ℤ) (w : UInt16) :
    registerSamples ing tsMs [w] = [⟨variableId ing, tsMs, applyScale ing.transform (.fin w.toNat), 0, []⟩] :=
  rfl

theorem applyScale_fin {transform : Json} {scale offset : ℚ} (hexpr : transform.getStr "expression" = none)
    (hs : Target.scale transform = .fin scale) (ho : Target.offset transform = .fin offset) (x : ℚ) :
    applyScale transform (.fin x) = .fin (x * scale + offset) := by
  unfold Target.scale at hs
  unfold Target.offset at ho
  simp [applyScale, hexpr, hs, ho, F64.mul, F64.add]

/-- The ends of a datatype of one register. -/
theorem ends_of_word {datatype : String} {lo hi : ℤ} (hr : intRange datatype = some (lo, hi))
    (hone : width datatype = some 1) : -32768 ≤ lo ∧ lo ≤ hi ∧ hi ≤ 65535 := by
  unfold intRange at hr
  split at hr
  · cases hr
    decide
  · cases hr
    decide
  · cases hone
  · cases hone
  · cases hr

/-- **What is written is what is collected, but for the sign.** A write to a register
of a Modbus connector, of a datatype of one register, was acknowledged, and an ingest
polls the register as a holding register, with the scale and the offset of the write
and no expression. Whatever the task of the ingest did before, a reading of the
registers as the write left them is one sample, of the ingest's variable. Its value is
the integer written, modulo 2^16, in engineering units. Where the integer is not
negative, that is within half a scale step of the value requested if the rounded raw
value fits the datatype; a negative integer of an `int16` is recorded 65536 scale steps
too high, since the collector takes registers without a sign. -/
theorem poll_after_write {m : Registers} {c : Conn} {lo hi : ℤ} {value offset scale : ℚ}
    {before : List Cycle} {renv : CollectEnv} {samples : List Sample}
    (hdev : StoresWords env.plc m)
    (hc : connectors (WriteRequest.ofJson req).connectorId = some c) (hmodbus : c.dsType = "modbus")
    (hfn : Target.fnclass (WriteRequest.ofJson req).target ≠ "coil")
    (hrange : intRange (Target.datatype (WriteRequest.ofJson req).target) = some (lo, hi))
    (hone : width (Target.datatype (WriteRequest.ofJson req).target) = some 1)
    (hv : (WriteRequest.ofJson req).value = .fin value)
    (ho : Target.offset (WriteRequest.ofJson req).target = .fin offset)
    (hs : Target.scale (WriteRequest.ofJson req).target = .fin scale) (hscale : scale ≠ 0)
    (hack : Acked (writeAck V F env connectors pubkey req))
    (hreg : ing.selection.getU64 "register" = (WriteRequest.ofJson req).target.getU64 "address")
    (hcount : ((ing.selection.getU64 "count").getD 1).toUInt16 = 1)
    (htype : ing.selection.getStr "type" ≠ some "input")
    (hexpr : ing.transform.getStr "expression" = none)
    (hscale' : Target.scale ing.transform = .fin scale) (hoff : Target.offset ing.transform = .fin offset)
    (hnet : ∀ chost, c.config.getStr "host" = some chost → ∀ a n regs,
      renv.net.read chost (portOf c.config) false a n = .words regs →
        regs = ((handleWrite V F env connectors pubkey req).writes.foldl Registers.after m).read a.toNat n.toNat)
    (h : (collectOnce host c ing (clientAfter host c ing before) renv).2 = .ok samples) :
    let held := written lo hi value offset scale
    let recorded : ℚ := (held % 65536 : ℤ) * scale + offset
    samples = [⟨variableId ing, renv.nowMs, .fin recorded, 0, []⟩] ∧
      (0 ≤ held → recorded = held * scale + offset) ∧
      (held < 0 → recorded = held * scale + offset + 65536 * scale) ∧
      (0 ≤ held → lo ≤ F64.roundHalfAway ((value - offset) / scale) →
        F64.roundHalfAway ((value - offset) / scale) ≤ hi → |recorded - value| ≤ |scale| / 2) := by
  intro held recorded
  obtain ⟨hends, hle, hends'⟩ := ends_of_word hrange hone
  have hlo : lo ≤ held := le_clamp
  have hhi : held ≤ hi := clamp_le hle
  have hpos : 0 ≤ held → recorded = held * scale + offset := fun h0 => by
    have hmod : held % 65536 = held := by omega
    simp only [recorded, hmod]
  have hneg : held < 0 → recorded = held * scale + offset + 65536 * scale := fun h0 => by
    have hmod : held % 65536 = held + 65536 := by omega
    simp only [recorded, hmod]
    push_cast
    ring
  refine ⟨?_, hpos, hneg, fun h0 hfit hfit' => by
    rw [hpos h0]
    exact abs_written_sub_le hscale hfit hfit'⟩
  obtain ⟨words, hw, hstored, -⟩ := stored_of_acked hdev hc hmodbus hfn hack
  obtain ⟨a, ha⟩ := address_of_acked hc hmodbus hfn hack
  rw [hv, rawOf_eq ho hs, if_neg hscale] at hw
  obtain ⟨w, rfl, hword⟩ := toNat_of_encodeWords hrange hone hw
  have hcollect : (collectModbus c ing (clientAfter host c ing before) renv).2 = .ok samples := by
    simpa only [collectOnce, hmodbus] using h
  obtain ⟨chost, register, regs, hhost, hregister, hread, rfl⟩ :=
    registers_collected (serves_clientAfter before) hcollect
  obtain rfl := Option.some.inj (hregister.symm.trans (hreg.trans ha))
  rw [decide_eq_false htype, hcount] at hread
  have hregs : regs = [w] := by
    rw [hnet chost hhost _ _ _ hread, ← hstored, stored, ha, hone]
    rfl
  have hheld : held = clamp lo hi (F64.roundHalfAway ((value - offset) / scale)) := by
    simp only [held, written, if_neg hscale]
  rw [hregs, registerSamples_singleton, applyScale_fin hexpr hscale' hoff]
  simp only [recorded, hheld, ← hword, Int.cast_natCast]

/-- A network with one device, whose registers are these. -/
def serving (m : Registers) : ModbusNet where
  connect _ _ _ := .ok ()
  read _ _ _ start count := .words (m.read start.toNat count.toNat)

/-- An ingest of register 10 with a scale. -/
def scaledIngest (scale : ℚ) : Ingest where
  ingestId := "level"
  connectorId := "plc"
  selection := .obj [("register", .num (.posInt 10))]
  intervalS := 60
  naming := .null
  transform := .obj [("scale", .num (.float scale))]

/-- A reading at a time, of the registers as a scaled write leaves them. -/
def readingAfter (value scale : ℚ) (nowMs : ℤ) : CollectEnv where
  nowMs
  net := serving ((scaledWrite value scale).writes.foldl Registers.after fun _ => 0)
  pss := .error ""
  plugin := .error ""

/-- The connector of the frame, as the store has it. -/
def plcConn : Conn := ⟨"modbus", .obj [("host", .str "10.0.0.9")], .null, ["holding:10"]⟩

/-- 50 with the scale 1/10 was written and acknowledged; the first poll of the register
records 50. -/
theorem poll_after_write_fifty :
    Acked (scaledAck 50 (1 / 10)) ∧
    (collectOnce ⟨[]⟩ plcConn (scaledIngest (1 / 10)) none (readingAfter 50 (1 / 10) 7)).2 =
      .ok [⟨"level", 7, .fin 50, 0, []⟩] := by
  have hack : Acked (scaledAck 50 (1 / 10)) := by decide +kernel
  obtain ⟨samples, h⟩ : ∃ samples, (collectOnce ⟨[]⟩ plcConn (scaledIngest (1 / 10))
      (clientAfter ⟨[]⟩ plcConn (scaledIngest (1 / 10)) []) (readingAfter 50 (1 / 10) 7)).2 = .ok samples :=
    ⟨_, rfl⟩
  obtain ⟨hsamples, -⟩ := @poll_after_write ⟨[]⟩ (scaledIngest (1 / 10)) signedOnce plainFloat
    ⟨storing, fun _ => none⟩ (storeOf (parseConnectors plainFloat (plcFrame [registerTen]))) none
    (scaledRequest 50 (1 / 10)) (fun _ => 0) plcConn 0 65535 50 0 (1 / 10) [] (readingAfter 50 (1 / 10) 7)
    samples storesWords_storing rfl rfl (by decide) rfl rfl rfl rfl rfl (by norm_num) hack
    rfl rfl (by decide) rfl rfl rfl (fun _ _ a n regs hregs => by
      exact (ReadReply.words.inj hregs).symm) h
  refine ⟨hack, h.trans ?_⟩
  rw [hsamples]
  decide +kernel

end Collect
end LymonAgent
