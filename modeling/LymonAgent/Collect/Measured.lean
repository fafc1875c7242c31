/-
# From the memory of a CPU to the server

The connector of `crates/plugin-s7/src/main.rs` at the end of the whole agent: its polls
go through the plugin's process (`Plugin::read` of `src/plugins.rs`, the SDK), their
samples through `collect_once` and `run_window` of `src/collector.rs`, the buffer and the
wire. What the server applied of an S7 ingest is what the ingest's selection stands for
in the memory of a CPU that answered a poll of it, scaled, or the mean of such readings
(`applied_was_measured`). Where the CPU had no value the placeholder is scaled instead.

That a poll of the plugin is answered by the reply to it is `own_answers` and
`calls_in_order`; here it is what `Cycle.FromS7` says. Values are exact, as in `Window`.

Key definitions: `measured`, `IsReading`, `Measured`, `Cycle.FromS7`.
Key theorems: `reading_of_answer`, `measured_of_call`, `applied_was_measured`.
-/
import LymonAgent.Collect.Pipeline
import LymonAgent.Plugin.Remote
import LymonAgent.S7.Directory

namespace LymonAgent
namespace Collect

open Control Plugin Runs
open LymonAgent.Ingest (Sample StreamerConfig plainStreamer)

/-! ### What is measured -/

/-- The variable the S7 connector gives a point. -/
def s7Variable (ing : Ingest) : String := (ing.naming.getStr "variable_id").getD "s7.value"

/-- What is recorded of a selection in a memory, at a time. -/
def measured (ing : Ingest) (sel : S7.Selection) (m : S7.Memory) (now : ℤ) : Sample :=
  let s := received now (S7.sampleIn (s7Variable ing, sel) m)
  { s with value := applyScale ing.transform s.value }

/-- The request of a poll. -/
def pollRequest (conn : Conn) (ing : Ingest) : Sdk.ReadRequest :=
  ⟨1, "read", ing.connectorId, conn.dsType, conn.config, conn.secrets, ing.selection, .null, ing.naming, [],
    .null, none, false⟩

/-- A process of the plugin came to the poll and its result, in a run of its own. -/
def Polled (x : S7.Poll × Except String (List S7.Reading)) : Prop :=
  ∃ asks u, Each S7.askStep S7.Ask.Served ⟨none, [], []⟩ asks ∧
    run S7.askStep ⟨none, [], []⟩ asks = some u ∧ x ∈ u.polls

/-- A memory of a CPU that answered a poll of the ingest. -/
def ReadFrom (conn : Conn) (ing : Ingest) (m : S7.Memory) : Prop :=
  ∃ x, Polled x ∧ x.1.req = pollRequest conn ing ∧ m ∈ x.1.memories

/-- A reading of the ingest's selection in such a memory, a number. -/
def IsReading (conn : Conn) (ing : Ingest) (s : Sample) : Prop :=
  ∃ sel m now, S7.parseSelection ing.selection = .ok sel ∧ ReadFrom conn ing m ∧
    (S7.sampleIn (s7Variable ing, sel) m).value.isFinite = true ∧ s = measured ing sel m now

/-- A reading, or what a window makes of some. -/
def Measured (conn : Conn) (ing : Ingest) (s : Sample) : Prop :=
  IsReading conn ing s ∨ ∃ tsMs l, l ≠ [] ∧ (∀ r ∈ l, IsReading conn ing r) ∧
    s = sampleFor tsMs (s7Variable ing) l

/-! ### What the plugin answers -/

/-- What an exchange with the plugin gives a poll of the ingest: an error of its own, or
the line that the SDK makes of what the connector's `read` returned. -/
def Answered (conn : Conn) (ing : Ingest) (env : CollectEnv) : Prop :=
  (∃ e, env.plugin = .error e) ∨
    ∃ x, Polled x ∧ x.1.req = pollRequest conn ing ∧
      ∃ (c : Sdk.Collector (Option S7.Conn)) (s : Option S7.Conn),
        (c.read s x.1.req).2 = x.2.map (·.map S7.Reading.sample) ∧
        env.plugin = .ok (.json (Sdk.dispatch c s x.1.req).2)

/-- The same for a cycle. The connector has no subscriptions, so the SDK answers one with
an error. -/
def Cycle.FromS7 (conn : Conn) (ing : Ingest) : Cycle → Prop
  | .poll env => Answered conn ing env
  | .window first rest _ => ∀ env ∈ first :: rest, Answered conn ing env
  | .stream _ line =>
    line = .json (Sdk.statusLine (.error "subscribe (push) not supported by this plugin"))

/-- In the step, a task on an S7 connector gets what its plugin answers. -/
def FromS7 (p : Plant) : PlantEvent → Prop
  | .cycle n cycle => ∀ t, (n, t) ∈ p.agent.collector.tasks.running → t.conn.dsType = "s7" →
      cycle.FromS7 t.conn t.ing
  | _ => True

variable {conn : Conn} {ing : Ingest} {env : CollectEnv} {samples : List Sample}

/-- A poll that was answered reads the memory. -/
theorem Polled.onMemory {x : S7.Poll × Except String (List S7.Reading)} (h : Polled x) : x.1.OnMemory x.2 := by
  obtain ⟨asks, u, hserved, hrun, hx⟩ := h
  exact (S7.askedOnCpu_run hserved hrun).polls x hx

/-- The one point of a poll, in the memories it was read from. -/
theorem sampleIn_of_poll {p : S7.Poll} {readings : List S7.Reading} (hp : p.OnMemory (.ok readings))
    (hreq : p.req = pollRequest conn ing) :
    ∃ sel m, S7.parseSelection ing.selection = .ok sel ∧ m ∈ p.memories ∧
      readings.map S7.Reading.sample = [S7.sampleIn (s7Variable ing, sel) m] := by
  obtain ⟨targets, htargets, hlength, hsamples⟩ := hp readings rfl
  have hpoints : p.req.allPoints = [⟨ing.selection, ing.naming⟩] := by
    rw [hreq]
    rfl
  rw [hpoints] at htargets hlength
  obtain ⟨sel, hsel, hmap⟩ := S7.bind_eq_ok htargets
  obtain ⟨rest, hrest, rfl⟩ := S7.map_eq_ok hmap
  obtain rfl : [] = rest := Except.ok.inj hrest
  have hone : (readings.map S7.Reading.sample).length = 1 := by
    rw [List.length_map]
    exact hlength
  cases hmem : p.memories with
  | nil =>
    rw [hsamples, hmem] at hone
    simp at hone
  | cons m memories =>
    refine ⟨sel, m, hsel, List.mem_cons_self, ?_⟩
    rw [hsamples, hmem]
    rfl

theorem pointId_measured (sel : S7.Selection) (m : S7.Memory) (now : ℤ) :
    (measured ing sel m now).pointId = s7Variable ing := by
  unfold measured S7.sampleIn S7.sampleOf
  cases sel.inMemory m <;> rfl

/-- **A reading is what the memory has.** What `collect_once` makes of the plugin's
answer is one sample, a reading. -/
theorem reading_of_answer (h : Answered conn ing env)
    (hs : collectPlugin ing (env.plugin.bind (pluginRead env.nowMs)) = .ok samples) :
    ∃ s, samples = [s] ∧ s.pointId = s7Variable ing ∧ IsReading conn ing s := by
  obtain ⟨l, hl, rfl⟩ := S7.map_eq_ok hs
  rcases h with ⟨e, he⟩ | ⟨x, hx, hreq, c, s, hread, hline⟩
  · rw [he] at hl
    cases hl
  · have hasked : (Request.read conn ing).asked = some x.1.req := by
      rw [hreq]
      rfl
    have hcall : (pluginRead env.nowMs (.json (Sdk.dispatch c s x.1.req).2)).map Answer.samples =
        (x.2.map (·.map S7.Reading.sample)).bind (polled env.nowMs) := by
      have hremote := congrArg Prod.snd (remote_eq c s env.nowMs (Request.read conn ing) hasked)
      rw [← hread]
      exact hremote
    rw [hline] at hl
    rw [show pluginRead env.nowMs (.json (Sdk.dispatch c s x.1.req).2) = .ok l from hl] at hcall
    obtain ⟨sdk, hsdk, hpolled⟩ := S7.bind_eq_ok hcall.symm
    obtain ⟨readings, hreadings, rfl⟩ := S7.map_eq_ok hsdk
    have honMemory := hx.onMemory
    rw [hreadings] at honMemory
    obtain ⟨sel, m, hsel, hm, hone⟩ := sampleIn_of_poll honMemory hreq
    rw [hone] at hpolled
    unfold polled at hpolled
    split at hpolled
    · rename_i hfinite
      obtain rfl := Answer.samples.inj (Except.ok.inj hpolled)
      have hvalue : (S7.sampleIn (s7Variable ing, sel) m).value.isFinite = true := by
        simpa using hfinite
      exact ⟨measured ing sel m env.nowMs, rfl, pointId_measured sel m _, sel, m, env.nowMs, hsel,
        ⟨x, hx, hreq, hm⟩, hvalue, rfl⟩
    · cases hpolled

/-! ### Cycles -/

section

variable {host : PluginHost} {modbus : Option ModbusClient}

theorem reading_of_collectOnce (hs7 : conn.dsType = "s7") (h : Answered conn ing env)
    (hs : (collectOnce host conn ing modbus env).2 = .ok samples) :
    ∃ s, samples = [s] ∧ s.pointId = s7Variable ing ∧ IsReading conn ing s := by
  cases hhost : host.forType "s7" with
  | none =>
    simp [collectOnce, hs7, hhost] at hs
  | some manifest =>
    have hcollect : (collectOnce host conn ing modbus env).2 =
        collectPlugin ing (env.plugin.bind (pluginRead env.nowMs)) := by
      simp [collectOnce, hs7, hhost]
    rw [hcollect] at hs
    exact reading_of_answer h hs

/-- The samples of the reads of a window. -/
theorem readings_readAll (hs7 : conn.dsType = "s7") : ∀ {envs : List CollectEnv} {modbus : Option ModbusClient},
    (∀ env ∈ envs, Answered conn ing env) → ∀ s ∈ readings (readAll host conn ing modbus envs).2,
      s.pointId = s7Variable ing ∧ IsReading conn ing s := by
  intro envs
  induction envs with
  | nil =>
    intro modbus _ s hs
    cases hs
  | cons env envs ih =>
    intro modbus hanswered s hs
    obtain ⟨hfirst, hrest⟩ := List.forall_mem_cons.mp hanswered
    have hsplit : readings (readAll host conn ing modbus (env :: envs)).2 =
        readings [(collectOnce host conn ing modbus env).2] ++
          readings (readAll host conn ing (collectOnce host conn ing modbus env).1 envs).2 := by
      simp [readAll, readings]
    rw [hsplit] at hs
    rcases List.mem_append.mp hs with hs | hs
    · cases hr : (collectOnce host conn ing modbus env).2 with
      | error e =>
        rw [hr] at hs
        simp [readings] at hs
      | ok samples =>
        obtain ⟨s', rfl, hreading⟩ := reading_of_collectOnce hs7 hfirst hr
        rw [hr] at hs
        have heq : s = s' := by simpa [readings] using hs
        exact heq ▸ hreading
    · exact ih hrest s hs

theorem exists_applyScale (transform : Json) (q : ℚ) : ∃ r, applyScale transform (.fin q) = .fin r := by
  obtain ⟨scale, hscale⟩ := exists_getF64 transform "scale" 1
  obtain ⟨offset, hoffset⟩ := exists_getF64 transform "offset" 0
  unfold applyScale
  by_cases hexpr : (transform.getStr "expression").isSome = true
  · rw [if_pos hexpr]
    exact ⟨q, rfl⟩
  · rw [if_neg hexpr, hscale, hoffset]
    exact ⟨q * scale + offset, rfl⟩

theorem IsReading.exists_fin {s : Sample} (h : IsReading conn ing s) : ∃ q, s.value = .fin q := by
  obtain ⟨sel, m, now, -, -, hfinite, rfl⟩ := h
  obtain ⟨q, hq⟩ := F64.exists_fin_of_isFinite hfinite
  obtain ⟨r, hr⟩ := exists_applyScale ing.transform q
  refine ⟨r, ?_⟩
  rw [← hr, ← hq]
  rfl

/-- A cycle of a task on an S7 connector hands over what was measured. -/
theorem measured_of_call {cycle : Cycle} {o : Option String} (hs7 : conn.dsType = "s7")
    (h : cycle.FromS7 conn ing) (hcall : (cycle.call host conn ing modbus).2 = some (o, samples)) :
    ∀ s ∈ samples, Measured conn ing s := by
  cases cycle with
  | poll env =>
    have hreading : ∀ {samples}, (collectOnce host conn ing modbus env).2 = .ok samples →
        ∃ s, samples = [s] ∧ s.pointId = s7Variable ing ∧ IsReading conn ing s :=
      reading_of_collectOnce hs7 h
    simp only [Cycle.call] at hcall
    generalize collectOnce host conn ing modbus env = read at hcall hreading
    split at hcall
    · cases hcall
    · obtain ⟨-, rfl⟩ := Prod.mk.inj (Option.some.inj hcall)
      obtain ⟨s, rfl, -, hs⟩ := hreading rfl
      exact List.forall_mem_singleton.mpr (Or.inl hs)
    · cases hcall
  | window first rest tsMs =>
    have hreadings : ∀ s ∈ readings (readAll host conn ing modbus (first :: rest)).2,
        s.pointId = s7Variable ing ∧ IsReading conn ing s := readings_readAll hs7 h
    simp only [Cycle.call, runWindow] at hcall
    split at hcall
    · cases hcall
    · obtain ⟨-, rfl⟩ := Prod.mk.inj (Option.some.inj hcall)
      intro s hs
      generalize hall : (readAll host conn ing modbus (first :: rest)).2 = results at hs hreadings
      have hfin : Finite (readings results) := fun r hr => (hreadings r hr).2.exists_fin
      obtain ⟨id, hne, rfl⟩ := (mem_windowSamples hfin).mp hs
      -- all readings are of the one variable
      have hid : id = s7Variable ing := by
        obtain ⟨r, hr⟩ := List.exists_mem_of_ne_nil _ hne
        obtain ⟨hmem, hpoint⟩ := List.mem_filter.mp hr
        rw [← of_decide_eq_true hpoint]
        exact (hreadings r hmem).1
      refine Or.inr ⟨tsMs, ofPoint id (readings results), hne, fun r hr => ?_, by rw [hid]⟩
      exact (hreadings r (List.mem_of_mem_filter hr)).2
  | stream nowMs line =>
    obtain rfl : line = _ := h
    simp only [Cycle.call] at hcall
    split at hcall
    · rename_i pushed hpushed
      have herror : (Line.json (Sdk.statusLine (.error "subscribe (push) not supported by this plugin"))).pushed
          nowMs = some (.error "subscribe (push) not supported by this plugin") := rfl
      rw [herror] at hpushed
      cases hpushed
    · cases hcall

end

/-! ### Up to the server -/

variable {c : StreamerConfig} {F : FloatText} {host : PluginHost} {es : List PlantEvent} {p : Plant}

/-- **What the server applies was in the memory.** In every run of the whole agent and the
server, whatever is provisioned when, lost, resent or refused and wherever the process
crashes, in which the polls of S7 connectors are answered by plugin processes whose CPUs
serve their memories, in any order and over any sessions: a sample in a batch the server
applied is filed under the connector of an ingest that a provision frame had; and if that
is an S7 connector, the sample is what the selection of the ingest stands for in the
memory of a CPU that answered a poll of it, scaled, or the mean of such readings. -/
theorem applied_was_measured (hs7 : Each (plantStep c F host) FromS7 plantStart es)
    (h : run (plantStep c F host) plantStart es = some p) {m : Ingest.Sent} (hm : m ∈ p.sys.applied)
    {y : Sample} (hy : y ∈ m.batch.samples) :
    ∃ t, Provisioned F es t ∧ t.ing.connectorId = m.batch.datasourceId ∧
      (t.conn.dsType = "s7" → Measured t.conn t.ing y) := by
  have hp := plantInv_run h
  have hcollected := hp.sent m (hp.sys.live m (Or.inr hm)) y hy
  obtain ⟨pre, n, cycle, p', q, t, samples, htook, ht, hprovisioned, hid, hcall, hmem⟩ := hcollected
  have hall : Provisioned F es t := by
    obtain ⟨post, rfl⟩ := htook.split
    exact hprovisioned.mono
  refine ⟨t, hall, hid, fun htype => ?_⟩
  have hfrom : cycle.FromS7 t.conn t.ing := hs7.took htook t ht htype
  exact measured_of_call htype hfrom hcall y hmem

/-- A frame with an S7 connector and an ingest of the second word of its data block 1. -/
def wordFrame : Json :=
  .obj [("connectors", .arr [.obj [("config", .obj [("host", .str "10.0.0.5")]), ("connector_id", .str "plc"),
      ("type", .str "s7")]]),
    ("ingests", .arr [.obj [("connector_id", .str "plc"), ("ingest_id", .str "level"),
      ("naming", .obj [("variable_id", .str "level")]),
      ("selection", .obj [("byte", .num (.posInt 2)), ("db", .num (.posInt 1)), ("type", .str "word")]),
      ("transform", .obj [("scale", .num (.float (1 / 10)))])]]),
    ("kind", .str "provision")]

def wordTask : PollTask where
  conn := ⟨"s7", .obj [("host", .str "10.0.0.5")], .null, []⟩
  ing :=
    { ingestId := "level"
      connectorId := "plc"
      selection := .obj [("byte", .num (.posInt 2)), ("db", .num (.posInt 1)), ("type", .str "word")]
      intervalS := 60
      naming := .obj [("variable_id", .str "level")]
      transform := .obj [("scale", .num (.float (1 / 10)))] }

/-- A poll of it, of the CPU whose second word is 7. -/
def levelPoll : S7.Poll :=
  ⟨pollRequest wordTask.conn wordTask.ing, S7.handshake, [[S7.wordReply 0 7 27 20]], [S7.twoWordsBlock]⟩

theorem levelPoll_served : levelPoll.Served ⟨none, []⟩ := by
  have hread : ∃ y ∈ S7.read none levelPoll.req levelPoll.handshake levelPoll.answers, ∃ rs ∈ y.2.toOption,
      rs.map (fun rd => rd.exchanges.map S7.Exchange.telegram) = [[S7.readTelegram 0x84 1 0x02 2 2]] := by
    decide +kernel
  refine .of_telegrams rfl (by decide) (by decide +kernel) hread fun readings htelegrams => ?_
  obtain ⟨first, rest, rfl, hfirst, hrest⟩ := List.map_eq_cons_iff.mp htelegrams
  obtain rfl := List.map_eq_nil_iff.mp hrest
  exact ⟨S7.servedBy_word hfirst (by rw [S7.serve_readBytes _ _ _ _ _ (by decide)]; rfl), rfl⟩

/-- The connector while the CPU answers so. -/
def wordConnector : Sdk.Collector (Option S7.Conn) where
  read conn req := ((S7.read conn req levelPoll.handshake levelPoll.answers).map fun x =>
    (x.1, x.2.map (·.map S7.Reading.sample))).getD (conn, .error "no answer")
  query conn _ := (conn, .error "not asked")
  write conn _ := (conn, .error "write not supported by this connector")
  discover conn _ := (conn, .error "not asked")

/-- What a poll of the task gets. -/
def wordEnv : CollectEnv where
  nowMs := 7
  net := ⟨fun _ _ _ => .error "", fun _ _ _ _ _ => .transport ""⟩
  pss := .error ""
  plugin := .ok (.json (Sdk.dispatch wordConnector none levelPoll.req).2)

theorem answered_word : Answered wordTask.conn wordTask.ing wordEnv := by
  obtain ⟨⟨conn, r⟩, hread⟩ : ∃ y, S7.read none levelPoll.req levelPoll.handshake levelPoll.answers = some y := by
    rw [← Option.isSome_iff_exists]
    decide +kernel
  have hrun : run S7.askStep ⟨none, [], []⟩ [.poll levelPoll] = some ⟨conn, [(levelPoll, r)], []⟩ := by
    simp [run, S7.askStep, hread]
  have hserved : Each S7.askStep S7.Ask.Served ⟨none, [], []⟩ [.poll levelPoll] :=
    ⟨levelPoll_served, fun _ _ => trivial⟩
  have hpolled : Polled (levelPoll, r) := ⟨_, _, hserved, hrun, List.mem_singleton_self _⟩
  refine Or.inr ⟨(levelPoll, r), hpolled, rfl, wordConnector, none, ?_, rfl⟩
  simp [wordConnector, hread]

/-- The agent has a plugin for S7. -/
def s7Host : PluginHost := ⟨[("s7", ⟨"s7", ["s7"], "lymon-plugin-s7", [], 1⟩)]⟩

/-- The word 7 is recorded as 7/10, and applied. -/
def wordEvents : List PlantEvent := [.provision wordFrame, .cycle 0 (.poll wordEnv)] ++ sendOne

theorem fromS7_word : Each (plantStep (plainStreamer 10) plainFloat s7Host) FromS7 plantStart wordEvents := by
  refine ⟨trivial, fun p hp => ⟨fun t ht _ => ?_, fun _ _ => each_of_mem fun ev hev _ => ?_⟩⟩
  · have hrunning : p.agent.collector.tasks.running = [(0, wordTask)] := by
      rw [← Option.some.inj hp]
      rfl
    rw [hrunning] at ht
    obtain ⟨-, rfl⟩ := Prod.mk.inj (List.mem_singleton.mp ht)
    exact answered_word
  · -- no cycle comes after it
    cases ev with
    | cycle n cycle => simp [sendOne, Ingest.sendBatch] at hev
    | _ => trivial

theorem applied_was_measured_word : ∃ p m,
    run (plantStep (plainStreamer 10) plainFloat s7Host) plantStart wordEvents = some p ∧
    m ∈ p.sys.applied ∧ (⟨"level", 7, .fin (7 / 10), 0, []⟩ : Sample) ∈ m.batch.samples ∧
    Measured wordTask.conn wordTask.ing ⟨"level", 7, .fin (7 / 10), 0, []⟩ := by
  have hsome : (run (plantStep (plainStreamer 10) plainFloat s7Host) plantStart wordEvents).map
      (fun p => p.sys.applied.map fun m => (m.batch.datasourceId, m.batch.samples)) =
        some [("plc", [⟨"level", 7, .fin (7 / 10), 0, []⟩])] := by decide +kernel
  obtain ⟨p, hp, happlied⟩ := Option.map_eq_some_iff.mp hsome
  obtain ⟨m, hm, hpair⟩ := List.map_eq_singleton_iff.mp happlied
  obtain ⟨-, hsamples⟩ := Prod.mk.inj hpair
  have hmem : m ∈ p.sys.applied := hm ▸ List.mem_singleton_self m
  have hsample : (⟨"level", 7, .fin (7 / 10), 0, []⟩ : Sample) ∈ m.batch.samples :=
    hsamples ▸ List.mem_singleton_self _
  obtain ⟨t, ⟨v, hv, hing, hconn⟩, -, hmeasured⟩ := applied_was_measured fromS7_word hp hmem hsample
  -- the one frame has the one task
  have hframe : v = wordFrame := by simpa [wordEvents, sendOne, Ingest.sendBatch] using hv
  subst hframe
  have hings : parseIngests wordFrame = [wordTask.ing] := rfl
  have hstore : storeOf (parseConnectors plainFloat wordFrame) wordTask.ing.connectorId = some wordTask.conn := rfl
  rw [hings] at hing
  rw [List.mem_singleton.mp hing] at hconn hmeasured
  rw [← Option.some.inj (hstore.symm.trans hconn)] at hmeasured
  exact ⟨p, m, hp, hmem, hsample, hmeasured rfl⟩

end Collect
end LymonAgent
