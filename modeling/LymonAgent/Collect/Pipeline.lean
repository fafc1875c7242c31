/-
# From the device to the server

The whole agent: the collector and its poll tasks (`Reconfigure`, `Cycle`), the buffer
they put their samples into, the streamer, the wire and the server (`Server`). Provision
frames come, tasks go through cycles, calls of `enqueue_with_origin` are made, batches go
out, and the process crashes and starts again without a collector's tasks, in any order.
A call is under way until it reaches the buffer; of a task that was aborted it may be
given up, or reach the buffer all the same.

Whatever the server applied was collected, under the connector it is filed under
(`applied_was_collected`), and whatever a call stored is there, applied, rejected by the
server, or dropped as the oldest (`reading_kept`).

Key definitions: `Plant`, `plantStep`, `Provisioned`, `Collected`, `PlantInv`.
Key theorems: `plantInv_run`, `applied_was_collected`, `reading_kept`.
-/
import LymonAgent.Collect.Cycle
import LymonAgent.Collect.Provision
import LymonAgent.Ingest.Deliver

namespace LymonAgent
namespace Collect

open Control Plugin Runs
open LymonAgent.Ingest

/-- A call of `enqueue_with_origin` under way, with the number of its task. -/
structure Underway where
  task : ℕ
  origin : Option String
  samples : List Sample

/-- The agent's process, with the Modbus client of each task, and what it talks to. -/
structure Plant where
  agent : Agent
  clients : ℕ → Option ModbusClient
  calls : List Underway
  sys : System

inductive PlantEvent where
  | provision (v : Json)
  | cycle (n : ℕ) (c : Cycle)
  | enqueue (i : ℕ) (fault : Option Stmt)
  | giveUp (i : ℕ)
  | sys (ev : SysEvent)

/-- A process just started. -/
def Agent.new : Agent := ⟨none, fun _ => none, .new⟩

def plantStart : Plant := ⟨.new, fun _ => none, [], sysStart⟩

section

variable (c : StreamerConfig) (F : FloatText) (host : PluginHost)

def plantStep (p : Plant) : PlantEvent → Option Plant
  | .provision v => some { p with agent := provision F p.agent v }
  | .cycle n cycle =>
    match p.agent.collector.tasks.running.lookup n with
    | none => none
    | some t =>
      -- a task awaits its call before the next cycle
      if cycle.mode = mode host t.conn t.ing ∧ ∀ x ∈ p.calls, x.task ≠ n then
        let (client, call) := cycle.call host t.conn t.ing (p.clients n)
        some { p with
          clients := fun k => if k = n then client else p.clients k
          calls := p.calls ++ (call.map fun x => ⟨n, x.1, x.2⟩).toList }
      else none
  | .enqueue i fault =>
    match p.calls[i]? with
    | none => none
    | some x =>
      if h : x.samples.length < 2 ^ 63 then
        (sysStep c p.sys (.agent (.enqueue x.origin ⟨x.samples, h⟩ fault))).map fun sys =>
          { p with sys, calls := p.calls.eraseIdx i }
      else none
  | .giveUp i =>
    match p.calls[i]? with
    | none => none
    | some x =>
      if (p.agent.collector.tasks.running.lookup x.task).isSome then none
      else some { p with calls := p.calls.eraseIdx i }
  | .sys (.agent (.enqueue _ _ _)) => none
  | .sys (.agent .crash) =>
    (sysStep c p.sys (.agent .crash)).map fun sys => { plantStart with sys }
  | .sys ev => (sysStep c p.sys ev).map fun sys => { p with sys }

/-- A frame of the run had the ingest of the task, and its connector. -/
def Provisioned (es : List PlantEvent) (t : PollTask) : Prop :=
  ∃ v, .provision v ∈ es ∧ t.ing ∈ parseIngests v ∧
    storeOf (parseConnectors F v) t.ing.connectorId = some t.conn

/-- A cycle of the run handed over the sample for the connector `id`: a cycle of a
running task, provisioned before, for that connector. -/
def Collected (es : List PlantEvent) (id : String) (s : Sample) : Prop :=
  ∃ pre n cycle p q t samples, Took (plantStep c F host) plantStart es pre p (.cycle n cycle) q ∧
    (n, t) ∈ p.agent.collector.tasks.running ∧ Provisioned F pre t ∧ t.ing.connectorId = id ∧
    (cycle.call host t.conn t.ing (p.clients n)).2 = some (some id, samples) ∧ s ∈ samples

/-- What a run keeps: tasks come from frames, and the samples of calls, rows and messages
from cycles, each with the connector it is filed under. -/
structure PlantInv (es : List PlantEvent) (p : Plant) : Prop where
  tasks : ∀ t ∈ p.agent.collector.tasks.running, Provisioned F es t.2
  calls : ∀ x ∈ p.calls, ∃ id, x.origin = some id ∧
    ∀ s ∈ x.samples, s.attrs = [] ∧ Collected c F host es id s
  sys : SysInv c p.sys
  rows : ∀ x ∈ p.sys.agent.rows, ∃ id s, (rowOf c.toBufferConfig (some id) s).Same x.2 ∧ s.attrs = [] ∧
    Collected c F host es id s
  sent : ∀ m ∈ p.sys.agent.sent, ∀ s ∈ m.batch.samples, Collected c F host es m.batch.datasourceId s

end

variable {c : StreamerConfig} {F : FloatText} {host : PluginHost} {es fs : List PlantEvent} {p q : Plant}
  {ev : PlantEvent}

/-! ### Tasks -/

theorem Provisioned.mono {t : PollTask} (h : Provisioned F es t) : Provisioned F (es ++ fs) t := by
  obtain ⟨v, hv, h⟩ := h
  exact ⟨v, List.mem_append_left _ hv, h⟩

theorem Collected.mono {id : String} {s : Sample} (h : Collected c F host es id s) :
    Collected c F host (es ++ fs) id s := by
  obtain ⟨pre, n, cycle, p, q, t, samples, htook, h⟩ := h
  exact ⟨pre, n, cycle, p, q, t, samples, htook.mono, h⟩

theorem mem_of_lookup {α : Type} {n : ℕ} {x : α} {l : List (ℕ × α)} (h : l.lookup n = some x) : (n, x) ∈ l := by
  obtain ⟨l₁, l₂, rfl, -⟩ := List.lookup_eq_some_iff.mp h
  simp

theorem ing_of_mem_spawned {conns : ConnStore} {n : ℕ} {ings : List Ingest} {t : ℕ × PollTask}
    (h : t ∈ spawned conns n ings) : t.2.ing ∈ ings := by
  have hmem : t.2.ing ∈ (spawned conns n ings).map fun t => t.2.ing := List.mem_map_of_mem h
  rw [ingests_spawned] at hmem
  exact List.mem_of_mem_filter hmem

/-- The tasks after a frame: those that ran before, and those of the frame. -/
theorem provisioned_provision {a : Agent} {v : Json}
    (h : ∀ t ∈ a.collector.tasks.running, Provisioned F es t.2) :
    ∀ t ∈ (provision F a v).collector.tasks.running, Provisioned F (es ++ [.provision v]) t.2 := by
  intro t ht
  unfold provision at ht
  simp only at ht
  split at ht
  · rw [running_reconfigure] at ht
    rcases List.mem_append.mp ht with ht | ht
    · exact (h t (Handles.mem_running_drain.mp ht).1).mono
    · exact ⟨v, List.mem_append_right _ (List.mem_singleton.mpr rfl), ing_of_mem_spawned ht,
        (of_mem_spawned ht).2⟩
  · exact (h t ht).mono

/-! ### What a step can be -/

section

variable (c F host)

/-- Every way the plant moves. -/
inductive PlantMoves (p : Plant) : PlantEvent → Plant → Prop
  | provision (v : Json) : PlantMoves p (.provision v) { p with agent := provision F p.agent v }
  | cycle {n : ℕ} {cycle : Cycle} {t : PollTask} {clients : ℕ → Option ModbusClient} :
      (n, t) ∈ p.agent.collector.tasks.running →
      PlantMoves p (.cycle n cycle) { p with
        clients
        calls := p.calls ++ ((cycle.call host t.conn t.ing (p.clients n)).2.map
          fun x => ⟨n, x.1, x.2⟩).toList }
  | enqueue {i : ℕ} {fault : Option Stmt} {x : Underway} {samples : Vec Sample} {sys : System} :
      p.calls[i]? = some x → samples.1 = x.samples →
      sysStep c p.sys (.agent (.enqueue x.origin samples fault)) = some sys →
      PlantMoves p (.enqueue i fault) { p with sys, calls := p.calls.eraseIdx i }
  | giveUp {i : ℕ} : PlantMoves p (.giveUp i) { p with calls := p.calls.eraseIdx i }
  | crash {sys : System} : sysStep c p.sys (.agent .crash) = some sys →
      PlantMoves p (.sys (.agent .crash)) { plantStart with sys }
  | sys {e : SysEvent} {sys : System} : sysStep c p.sys e = some sys →
      (∀ o ss f, e ≠ .agent (.enqueue o ss f)) → PlantMoves p (.sys e) { p with sys }

end

theorem plantStep_moves (h : plantStep c F host p ev = some q) : PlantMoves c F host p ev q := by
  cases ev with
  | provision v =>
    obtain rfl := Option.some.inj h
    exact .provision v
  | cycle n cycle =>
    simp only [plantStep] at h
    split at h
    · cases h
    · rename_i t ht
      split at h
      · obtain rfl := Option.some.inj h
        exact .cycle (mem_of_lookup ht)
      · cases h
  | enqueue i fault =>
    simp only [plantStep] at h
    split at h
    · cases h
    · rename_i x hx
      split at h
      · obtain ⟨sys, hsys, rfl⟩ := Option.map_eq_some_iff.mp h
        exact .enqueue hx rfl hsys
      · cases h
  | giveUp i =>
    simp only [plantStep] at h
    split at h
    · cases h
    · split at h
      · cases h
      · obtain rfl := Option.some.inj h
        exact .giveUp
  | sys e =>
    have hother : (∀ o ss f, e ≠ .agent (.enqueue o ss f)) →
        (sysStep c p.sys e).map (fun sys => { p with sys }) = some q → PlantMoves c F host p (.sys e) q := by
      intro he h
      obtain ⟨sys, hsys, rfl⟩ := Option.map_eq_some_iff.mp h
      exact .sys hsys he
    cases e with
    | agent e =>
      cases e with
      | enqueue o ss f => cases h
      | crash =>
        simp only [plantStep] at h
        obtain ⟨sys, hsys, rfl⟩ := Option.map_eq_some_iff.mp h
        exact .crash hsys
      | _ => exact hother (fun _ _ _ he => by cases he) h
    | _ => exact hother (fun _ _ _ he => by cases he) h

/-- The buffer, the streamer and the server move by a step of their own, or not at all. -/
theorem sys_step (h : plantStep c F host p ev = some q) :
    q.sys = p.sys ∨ ∃ e, sysStep c p.sys e = some q.sys ∧
      ∀ o ss f, e = .agent (.enqueue o ss f) → ∃ i, ev = .enqueue i f := by
  cases plantStep_moves h with
  | provision _ => exact Or.inl rfl
  | cycle _ => exact Or.inl rfl
  | enqueue _ _ hsys =>
    refine Or.inr ⟨_, hsys, fun o ss f he => ?_⟩
    obtain ⟨-, -, rfl⟩ := Event.enqueue.inj (SysEvent.agent.inj he)
    exact ⟨_, rfl⟩
  | giveUp => exact Or.inl rfl
  | crash hsys => exact Or.inr ⟨_, hsys, fun o ss f he => by cases he⟩
  | sys hsys he => exact Or.inr ⟨_, hsys, fun o ss f heq => absurd heq (he o ss f)⟩

theorem sysInv_plant (hs : SysInv c p.sys) (h : plantStep c F host p ev = some q) : SysInv c q.sys := by
  rcases sys_step h with hsame | ⟨e, he, -⟩
  · exact hsame ▸ hs
  · exact sysInv_step hs he

/-! ### Rows and messages -/

variable {s t : System} {e : SysEvent}

/-- A sample without attributes reads back from its row. -/
theorem sampleOf_rowOf_plain {b : BufferConfig} {o : Option String} {x : Sample} (h : x.attrs = []) :
    sampleOf b (rowOf b o x) = x := by
  have hq : UInt32.ofInt (x.quality.toNat : ℤ) = x.quality := by
    have hlt := x.quality.toNat_lt
    have hmod : ((x.quality.toNat : ℤ) % 2 ^ 32).toNat = x.quality.toNat := by omega
    rw [UInt32.ofInt, hmod, UInt32.ofNat_toNat]
  cases x with
  | mk pointId tsMs value quality attrs => simp_all [sampleOf, rowOf]

theorem rows_sysStep (h : sysStep c s e = some t) {x : ℕ × Row} (hx : x ∈ t.agent.rows) :
    (∃ r, (x.1, r) ∈ s.agent.rows ∧ r.Same x.2) ∨
      ∃ o ss f, e = .agent (.enqueue o ss f) ∧ ∃ y ∈ ss.1, x.2 = rowOf c.toBufferConfig o y := by
  rcases agent_step h with hsame | ⟨d, hd, hev⟩
  · exact Or.inl ⟨x.2, hsame ▸ hx, .refl _⟩
  · rcases step_does hd with hb | ⟨op, hdoes, heff⟩
    · refine Or.inl ⟨x.2, ?_, .refl _⟩
      rw [Ingest.Agent.rows, ← hb]
      exact hx
    · have hx' : (x.1, x.2) ∈ t.agent.buf.db.pendingSamples.rows := hx
      rcases heff.stored hx' with hold | ⟨o, ss, f, rfl, hy⟩
      · exact Or.inl hold
      · cases hdoes
        rcases hev with rfl | ⟨ack, hack⟩
        · exact Or.inr ⟨o, ss, f, rfl, hy⟩
        · cases hack

/-- A sample of a new message reads from a row with the message's source. -/
theorem sent_sysStep (hs : SysInv c s) (h : sysStep c s e = some t) {m : Sent} (hm : m ∈ t.agent.sent)
    {y : Sample} (hy : y ∈ m.batch.samples) :
    m ∈ s.agent.sent ∨ ∃ x ∈ s.agent.rows, y = sampleOf c.toBufferConfig x.2 ∧
      m.batch.datasourceId = x.2.origin.getD c.datasourceId := by
  rcases agent_step h with hsame | ⟨d, hd, -⟩
  · exact Or.inl (hsame ▸ hm)
  · rcases sent_step hd with hsent | ⟨k, src, n, -, hk, hsent⟩
    · exact Or.inl (hsent ▸ hm)
    · rw [hsent] at hm
      rcases List.mem_append.mp hm with hm | hm
      · exact Or.inl hm
      · obtain rfl := List.mem_singleton.mp hm
        obtain ⟨-, -, hcarries⟩ := hs.agent.carries_message hk n
        rw [hcarries.samples] at hy
        obtain ⟨x, hx, rfl⟩ := List.mem_map.mp hy
        exact Or.inr ⟨x, (mem_batchRows.mp hx).1, rfl, by rw [hcarries.source, hcarries.origin x hx]⟩

/-! ### The invariant -/

theorem plantInv_start : PlantInv c F host [] plantStart where
  tasks := fun _ ht => by cases ht
  calls := fun _ hx => by cases hx
  sys := sysInv_start
  rows := fun _ hx => by cases hx
  sent := fun _ hm => by cases hm

/-- A step of the buffer, the streamer and the server keeps what rows and messages have,
where what it enqueues was collected. -/
theorem collected_sysStep (hp : PlantInv c F host es p) (h : sysStep c p.sys e = some t)
    (hcalls : ∀ o ss f, e = .agent (.enqueue o ss f) → ∃ id, o = some id ∧
      ∀ y ∈ ss.1, y.attrs = [] ∧ Collected c F host es id y) :
    (∀ x ∈ t.agent.rows, ∃ id y, (rowOf c.toBufferConfig (some id) y).Same x.2 ∧ y.attrs = [] ∧
      Collected c F host es id y) ∧
    ∀ m ∈ t.agent.sent, ∀ y ∈ m.batch.samples, Collected c F host es m.batch.datasourceId y := by
  refine ⟨fun x hx => ?_, fun m hm y hy => ?_⟩
  · rcases rows_sysStep h hx with ⟨r, hr, hsame⟩ | ⟨o, ss, f, he, y, hy, hxy⟩
    · obtain ⟨id, y, hy, hrest⟩ := hp.rows _ hr
      exact ⟨id, y, hy.trans hsame, hrest⟩
    · obtain ⟨id, rfl, hall⟩ := hcalls o ss f he
      exact ⟨id, y, hxy ▸ .refl _, hall y hy⟩
  · rcases sent_sysStep hp.sys h hm hy with hold | ⟨x, hx, rfl, hsource⟩
    · exact hp.sent m hold y hy
    · obtain ⟨id, y, hsame, hattrs, hcollected⟩ := hp.rows x hx
      rw [hsource, ← hsame.origin, ← hsame.sampleOf_eq, sampleOf_rowOf_plain hattrs]
      exact hcollected

theorem PlantInv.snoc (hp : PlantInv c F host es p) (ev : PlantEvent) : PlantInv c F host (es ++ [ev]) p where
  tasks := fun t ht => (hp.tasks t ht).mono
  calls := fun x hx => by
    obtain ⟨id, ho, hall⟩ := hp.calls x hx
    exact ⟨id, ho, fun y hy => ⟨(hall y hy).1, (hall y hy).2.mono⟩⟩
  sys := hp.sys
  rows := fun x hx => by
    obtain ⟨id, y, hsame, hattrs, hcollected⟩ := hp.rows x hx
    exact ⟨id, y, hsame, hattrs, hcollected.mono⟩
  sent := fun m hm y hy => (hp.sent m hm y hy).mono

/-- What a step keeps. -/
theorem plantInv_step (hrun : run (plantStep c F host) plantStart es = some p) (hp : PlantInv c F host es p)
    (h : plantStep c F host p ev = some q) : PlantInv c F host (es ++ [ev]) q := by
  have hnext := hp.snoc ev
  have hsys := sysInv_plant hp.sys h
  have hback : ∀ i, ∀ x ∈ p.calls.eraseIdx i, x ∈ p.calls := fun i x hx =>
    (List.eraseIdx_sublist _ _).subset hx
  cases plantStep_moves h with
  | provision v => exact { hnext with tasks := provisioned_provision hp.tasks }
  | @cycle n cycle t clients ht =>
    refine { hnext with calls := fun x hx => ?_ }
    rcases List.mem_append.mp hx with hx | hx
    · exact hnext.calls x hx
    · -- the call of this cycle
      rw [Option.mem_toList] at hx
      obtain ⟨⟨o, samples⟩, hcall, rfl⟩ := Option.map_eq_some_iff.mp hx
      obtain ⟨rfl, hattrs⟩ := of_call hcall
      exact ⟨_, rfl, fun y hy => ⟨hattrs y hy, es, n, cycle, p, _, t, samples, ⟨⟨[], rfl⟩, hrun, h⟩, ht,
        hp.tasks _ ht, rfl, hcall, hy⟩⟩
  | @enqueue i fault x samples sys hx hsamples hstep =>
    obtain ⟨hrows, hsent⟩ := collected_sysStep hnext hstep fun o ss f he => by
      obtain ⟨rfl, rfl, -⟩ := Event.enqueue.inj (SysEvent.agent.inj he)
      rw [hsamples]
      exact hnext.calls x (List.mem_of_getElem? hx)
    exact ⟨hnext.tasks, fun x hx => hnext.calls x (hback _ x hx), hsys, hrows, hsent⟩
  | giveUp => exact { hnext with calls := fun x hx => hnext.calls x (hback _ x hx) }
  | crash hstep =>
    obtain ⟨hrows, hsent⟩ := collected_sysStep hnext hstep fun o ss f he => by cases he
    exact ⟨fun _ ht => absurd ht List.not_mem_nil, fun _ hx => absurd hx List.not_mem_nil, hsys, hrows, hsent⟩
  | sys hstep he =>
    obtain ⟨hrows, hsent⟩ := collected_sysStep hnext hstep fun o ss f heq => absurd heq (he o ss f)
    exact ⟨hnext.tasks, hnext.calls, hsys, hrows, hsent⟩

theorem plantInv_run (h : run (plantStep c F host) plantStart es = some p) : PlantInv c F host es p :=
  hist_run (P := PlantInv c F host) plantInv_start (fun _ _ _ _ hrun hp h => plantInv_step hrun hp h) h

/-- **What the server applies was collected.** In every run of the whole agent and the
server, whatever is provisioned when, whatever the devices and plugins answer, whatever is
lost, resent or refused and wherever the process crashes: a sample in a batch the server
applied was handed over by a cycle of a poll task, of an ingest that a provision frame had
given before, on a connector that the same frame had, and it is filed under the id of that
connector. -/
theorem applied_was_collected (h : run (plantStep c F host) plantStart es = some p) {m : Sent}
    (hm : m ∈ p.sys.applied) {y : Sample} (hy : y ∈ m.batch.samples) :
    Collected c F host es m.batch.datasourceId y := by
  have hp := plantInv_run h
  exact hp.sent m (hp.sys.live m (Or.inr hm)) y hy

/-- A frame with the connector `plc` and an ingest of its register 10. -/
def levelFrame : Json :=
  .obj [("connectors", .arr [plcConnector [registerTen]]),
    ("ingests", .arr [.obj [("connector_id", .str "plc"), ("ingest_id", .str "level"),
      ("selection", .obj [("register", .num (.posInt 10))]),
      ("transform", .obj [("scale", .num (.float (1 / 10)))])]]),
    ("kind", .str "provision")]

/-- One poll of the register, which reads 500, and its call. -/
def pollOne : List PlantEvent := [.provision levelFrame, .cycle 0 (.poll (readingAfter 50 (1 / 10) 7))]

/-- The call goes through, and the batch goes to the server. -/
def sendOne : List PlantEvent :=
  [.enqueue 0 none, .sys (.agent .connect), .sys (.agent (.recover false))] ++
    (sendBatch "01A").map .sys ++ [.sys (.accept 0)]

/-- What the register is recorded as. -/
def levelSample : Sample := ⟨"level", 7, .fin 50, 0, []⟩

theorem applied_was_collected_level : ∃ p m,
    run (plantStep (plainStreamer 10) plainFloat ⟨[]⟩) plantStart (pollOne ++ sendOne) = some p ∧
    m ∈ p.sys.applied ∧ m.batch.datasourceId = "plc" ∧ levelSample ∈ m.batch.samples ∧
    Collected (plainStreamer 10) plainFloat ⟨[]⟩ (pollOne ++ sendOne) "plc" levelSample := by
  have hsome : (run (plantStep (plainStreamer 10) plainFloat ⟨[]⟩) plantStart (pollOne ++ sendOne)).map
      (fun p => p.sys.applied.map fun m => (m.batch.datasourceId, m.batch.samples)) =
        some [("plc", [levelSample])] := by decide +kernel
  obtain ⟨p, hp, happlied⟩ := Option.map_eq_some_iff.mp hsome
  obtain ⟨m, hm, hpair⟩ := List.mem_map.mp (happlied ▸ List.mem_singleton_self ("plc", [levelSample]))
  obtain ⟨hsource, hsamples⟩ := Prod.mk.inj hpair
  have hmem : levelSample ∈ m.batch.samples := hsamples ▸ List.mem_singleton_self _
  exact ⟨p, m, hp, hm, hsource, hmem, hsource ▸ applied_was_collected hp hm hmem⟩

/-! ### What becomes of a stored reading -/

theorem getElem?_newRows {b : BufferConfig} {o : Option String} : ∀ {ss : List Sample} {n k : ℕ} {y : Sample},
    ss[k]? = some y → (newRows b o n ss)[k]? = some (n + k + 1, rowOf b o y)
  | [], _, _, _, h => by cases h
  | x :: ss, n, 0, y, h => by
    obtain rfl : x = y := Option.some.inj h
    rfl
  | x :: ss, n, k + 1, y, h => by
    have ih := getElem?_newRows (b := b) (o := o) (n := n + 1) (show ss[k]? = some y from h)
    rw [show n + (k + 1) + 1 = n + 1 + k + 1 by omega, ← ih]
    rfl

/-- A call that went through put each of its samples into the table, under the next ids. -/
theorem mem_rows_enqueued {b : BufferConfig} {db : BufferDb} {o : Option String} {samples : Vec Sample}
    {fault : Option Stmt} {k : ℕ} {y : Sample}
    (hok : (enqueueWithOrigin b db o samples fault).2 = .ok ()) (hy : samples.1[k]? = some y) :
    (db.db.pendingSamples.seq + k + 1, rowOf b o y) ∈
      (enqueueWithOrigin b db o samples fault).1.db.pendingSamples.rows := by
  have hcases := enqueueWithOrigin_cases (c := b) db o samples fault
  generalize enqueueWithOrigin b db o samples fault = res at hok hcases
  cases hcases with
  | empty hnil =>
    rw [hnil] at hy
    cases hy
  | early _ _ => cases hok
  | late _ _ _ => cases hok
  | done _ _ _ hrows _ =>
    rw [hrows]
    exact List.mem_append_right _ (List.mem_of_getElem? (getElem?_newRows hy))

/-- What every step of the agent keeps, a run of the plant keeps. -/
theorem agent_run {P : Ingest.Agent → Prop}
    (hstep : ∀ a e a', Inv c a → step c a e = some a' → P a → P a') (hs : SysInv c p.sys)
    (h : run (plantStep c F host) p es = some q) (hP : P p.sys.agent) : P q.sys.agent := by
  refine (inv_run (P := fun p => SysInv c p.sys ∧ P p.sys.agent) (fun v ev w hv hw => ?_) ⟨hs, hP⟩ h).2
  refine ⟨sysInv_plant hv.1 hw, ?_⟩
  rcases sys_step hw with hsame | ⟨e, he, -⟩
  · exact hsame ▸ hv.2
  · rcases agent_step he with hsame | ⟨d, hd, -⟩
    · exact hsame ▸ hv.2
    · exact hstep _ _ _ hv.1.agent hd hv.2

/-- A call that reached the buffer was made of it. -/
theorem enqueue_eq {i : ℕ} {fault : Option Stmt} {x : Underway} {samples : Vec Sample}
    (h : plantStep c F host p (.enqueue i fault) = some q) (hx : p.calls[i]? = some x)
    (hsamples : samples.1 = x.samples) :
    q.sys.agent =
      { p.sys.agent with
        buf := (enqueueWithOrigin c.toBufferConfig p.sys.agent.buf x.origin samples fault).1 } := by
  cases plantStep_moves h with
  | @enqueue _ _ x' samples' sys hx' hsamples' hsys =>
    obtain rfl := Option.some.inj (hx.symm.trans hx')
    obtain rfl : samples' = samples := Subtype.ext (hsamples'.trans hsamples.symm)
    simp only [sysStep, agentStep, Ingest.step, Option.map_some, Option.some.injEq] at hsys
    exact hsys ▸ rfl

/-- In the step, a call dropped the row `i` as one of the oldest pending. -/
def DropsRow (i : ℕ) (p : Plant) (ev : PlantEvent) (q : Plant) : Prop :=
  (∃ k f, ev = .enqueue k f) ∧ (∃ r, (i, r) ∈ p.sys.agent.rows ∧ r.batchId = none) ∧
    ∀ r, (i, r) ∉ q.sys.agent.rows

theorem row_plant (hs : SysInv c p.sys) (h : plantStep c F host p ev = some q) {i : ℕ} {r : Row}
    (hr : (∃ r', (i, r') ∈ p.sys.agent.rows ∧ r.Same r') ∨ DecidedRow p.sys i) :
    ((∃ r', (i, r') ∈ q.sys.agent.rows ∧ r.Same r') ∨ DecidedRow q.sys i) ∨ DropsRow i p ev q := by
  rcases sys_step h with hsame | ⟨e, he, hev⟩
  · exact Or.inl (hsame ▸ hr)
  · rcases hr with hrow | hdecided
    · rcases row_step hs he hrow with hstay | hdecided | ⟨⟨o, ss, f, rfl⟩, hpending, hgone⟩
      · exact Or.inl (Or.inl hstay)
      · exact Or.inl (Or.inr hdecided)
      · obtain ⟨k, rfl⟩ := hev o ss f rfl
        exact Or.inr ⟨⟨k, f, rfl⟩, hpending, hgone⟩
    · exact Or.inl (Or.inr (decidedRow_step he hdecided))

/-- The copy has the sample, as the row, and is filed under the connector. -/
def Carried (m : Sent) (id : String) (row : ℕ) (y : Sample) : Prop :=
  m.batch.datasourceId = id ∧ ∃ n : ℕ, m.rows[n]? = some row ∧ m.batch.samples[n]? = some y

theorem carried_of_pinned {m : Sent} {id : String} {row : ℕ} {y : Sample} (hattrs : y.attrs = [])
    (hp : Pinned c row (rowOf c.toBufferConfig (some id) y) p.sys.agent) (hm : m ∈ p.sys.agent.sent)
    (hrow : row ∈ m.rows) : Carried m id row y := by
  obtain ⟨n, hn⟩ := List.mem_iff_getElem?.mp hrow
  obtain ⟨hsample, hsource⟩ := hp.sent m hm n hn
  rw [sampleOf_rowOf_plain hattrs] at hsample
  exact ⟨hsource, n, hn, hsample⟩

/-- **A stored reading stays, is applied or rejected, or is dropped as the oldest.** A call
of a poll task reached the buffer and went through. Then, in every run from there, for
each of its samples: its row is in the table, and reads back as the sample, of the
connector; or the server applied a batch filed under the connector that has the sample;
or it rejected such a batch, which the streamer then deletes; or another call dropped the
row while it was pending. -/
theorem reading_kept {pre post : List PlantEvent} {u : Plant} {i k : ℕ} {fault : Option Stmt} {x : Underway}
    {samples : Vec Sample} {y : Sample} (h : run (plantStep c F host) plantStart pre = some p)
    (hx : p.calls[i]? = some x) (hsamples : samples.1 = x.samples)
    (hok : (enqueueWithOrigin c.toBufferConfig p.sys.agent.buf x.origin samples fault).2 = .ok ())
    (hu : run (plantStep c F host) p (.enqueue i fault :: post) = some u) (hy : x.samples[k]? = some y) :
    let row := p.sys.agent.seq + k + 1
    ∃ id, x.origin = some id ∧
      ((∃ r, (row, r) ∈ u.sys.agent.rows ∧ sampleOf c.toBufferConfig r = y ∧ r.origin = some id) ∨
      (∃ m ∈ u.sys.applied, Carried m id row y) ∨ (∃ m ∈ u.sys.rejected, Carried m id row y) ∨
      ∃ mid v ev w, Took (plantStep c F host) plantStart (pre ++ .enqueue i fault :: post)
        (pre ++ .enqueue i fault :: mid) v ev w ∧ DropsRow row v ev w) := by
  intro row
  have hp := plantInv_run h
  obtain ⟨id, ho, hall⟩ := hp.calls x (List.mem_of_getElem? hx)
  have hattrs : y.attrs = [] := (hall y (List.mem_of_getElem? hy)).1
  obtain ⟨q, hq, hpost⟩ := run_cons.mp hu
  have hsysq := sysInv_plant hp.sys hq
  -- the row of the sample, as the call inserted it
  have hagent := enqueue_eq hq hx hsamples
  have hrow : (row, rowOf c.toBufferConfig x.origin y) ∈ q.sys.agent.rows := by
    rw [hagent]
    exact mem_rows_enqueued hok (hsamples ▸ hy)
  have hused : SentUsed p.sys.agent :=
    agent_run (P := SentUsed) (fun _ _ _ _ hd ha => sentUsed_step ha hd) sysInv_start h fun _ hm => by cases hm
  have hpinned : Pinned c row (rowOf c.toBufferConfig x.origin y) q.sys.agent := by
    refine pinned_of_new (e := .enqueue x.origin samples fault) hused ?_ (by omega) hrow
    rw [hagent]
    rfl
  have hpinnedu := agent_run (fun _ _ _ ha hd hpin => pinned_step ha hpin hd) hsysq hpost hpinned
  have hsysu : SysInv c u.sys := inv_run (fun _ _ _ hv hw => sysInv_plant hv hw) hsysq hpost
  have hpre : run (plantStep c F host) plantStart (pre ++ [.enqueue i fault]) = some q :=
    run_snoc.mpr ⟨p, h, hq⟩
  refine ⟨id, ho, ?_⟩
  rcases unless_run (fun _ _ _ hv hw => sysInv_plant hv hw) (fun _ _ _ hv hw hr => row_plant hv hw hr) hsysq
      hpre (Or.inl ⟨_, hrow, .refl _⟩) hpost with
    (⟨r, hr, hsame⟩ | happlied | hrejected) | ⟨mid, v, ev, w, htook, -, -, hdrops⟩
  · refine Or.inl ⟨r, hr, ?_, hsame.origin.symm.trans ho⟩
    rw [← hsame.sampleOf_eq, sampleOf_rowOf_plain hattrs]
  · obtain ⟨m, hm, hmem⟩ := List.mem_flatMap.mp happlied
    exact Or.inr (Or.inl ⟨m, hm, carried_of_pinned hattrs (ho ▸ hpinnedu) (hsysu.live m (Or.inr hm)) hmem⟩)
  · obtain ⟨m, hm, hmem⟩ := List.mem_flatMap.mp hrejected
    exact Or.inr (Or.inr (Or.inl ⟨m, hm, carried_of_pinned hattrs (ho ▸ hpinnedu) (hsysu.rejected m hm) hmem⟩))
  · simp only [List.append_assoc, List.singleton_append] at htook
    exact Or.inr (Or.inr (Or.inr ⟨mid, v, ev, w, htook, hdrops⟩))

theorem reading_kept_level : ∃ p u x,
    run (plantStep (plainStreamer 10) plainFloat ⟨[]⟩) plantStart pollOne = some p ∧
    p.calls = [x] ∧ x.origin = some "plc" ∧ x.samples = [levelSample] ∧
    run (plantStep (plainStreamer 10) plainFloat ⟨[]⟩) p sendOne = some u ∧
    ((∃ r, (1, r) ∈ u.sys.agent.rows ∧ sampleOf (plainStreamer 10).toBufferConfig r = levelSample) ∨
      ∃ m ∈ u.sys.applied, m.batch.datasourceId = "plc" ∧ levelSample ∈ m.batch.samples) := by
  obtain ⟨u, hu⟩ : ∃ u, run (plantStep (plainStreamer 10) plainFloat ⟨[]⟩) plantStart (pollOne ++ sendOne) =
      some u := Option.isSome_iff_exists.mp (by decide +kernel)
  obtain ⟨p, hp, hpu⟩ := run_append.mp hu
  have hcalls : (run (plantStep (plainStreamer 10) plainFloat ⟨[]⟩) plantStart pollOne).map
      (fun p => p.calls.map fun x => (x.origin, x.samples)) = some [(some "plc", [levelSample])] := by
    decide +kernel
  have hsys : (run (plantStep (plainStreamer 10) plainFloat ⟨[]⟩) plantStart pollOne).map Plant.sys =
      some sysStart := rfl
  rw [hp, Option.map_some, Option.some.injEq] at hcalls hsys
  obtain ⟨x, hx, hpair⟩ := List.map_eq_singleton_iff.mp hcalls
  obtain ⟨ho, hsamples⟩ := Prod.mk.inj hpair
  have hok : (enqueueWithOrigin (plainStreamer 10).toBufferConfig p.sys.agent.buf x.origin
      ⟨[levelSample], by decide⟩ none).2 = .ok () := by
    rw [hsys, ho]
    rfl
  obtain ⟨id, hid, hkept⟩ := reading_kept (k := 0) (y := levelSample) hp (i := 0) (by rw [hx]; rfl) hsamples.symm
    hok hpu (by rw [hsamples]; rfl)
  obtain rfl : "plc" = id := Option.some.inj (ho.symm.trans hid)
  rw [show p.sys.agent.seq + 0 + 1 = 1 by rw [hsys]; rfl] at hkept
  refine ⟨p, u, x, hp, hx, ho, hsamples, hpu, ?_⟩
  have hrejected : u.sys.rejected = [] := by
    obtain rfl := Option.some.inj hu
    rfl
  rcases hkept with
    ⟨r, hr, hread, -⟩ | ⟨m, hm, hsource, n, -, hn⟩ | ⟨m, hm, -⟩ | ⟨mid, v, ev, w, htook, ⟨k, f, rfl⟩, -⟩
  · exact Or.inl ⟨r, hr, hread⟩
  · exact Or.inr ⟨m, hm, hsource, List.mem_of_getElem? hn⟩
  · rw [hrejected] at hm
    cases hm
  · -- no other call reached the buffer
    obtain ⟨post, hpost⟩ := htook.split
    have hmem : PlantEvent.enqueue k f ∈ mid ++ .enqueue k f :: post := by simp
    simp [pollOne, sendBatch] at hpost
    simp [← hpost] at hmem

end Collect
end LymonAgent
