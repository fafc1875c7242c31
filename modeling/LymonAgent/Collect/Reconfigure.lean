/-
# Reconfiguration

`Collector::reconfigure` of `src/collector.rs`: the connector store is replaced,
every poll task in the task map is aborted, and each ingest of the new list
whose connector is known gets a task of its own, whose handle goes into the map
under the ingest id. A task runs until it is aborted: `run_ingest` loops.

Two ingests of one id in a list leave one entry and two tasks. The task whose
handle was dropped runs on through every later call (`escaped_run`). Where the
ids are distinct in every call, the running tasks are those of the latest call
(`converges_iff`).

Key definitions: `Ingest`, `Collector`, `reconfigure`, `Converged`.
-/
import LymonAgent.Control.Write
import LymonAgent.Handles
import Mathlib.Data.List.Nodup

namespace LymonAgent
namespace Collect

open Control Handles

/-- A provisioned collect job over a connector. -/
structure Ingest where
  ingestId : String
  connectorId : String
  selection : Json
  intervalS : UInt64
  naming : Json
  transform : Json

/-- `run_ingest` with the values it was spawned with. -/
structure PollTask where
  conn : Conn
  ing : Ingest

structure Collector where
  connectors : ConnStore
  tasks : Pool String PollTask

/-- `Collector::new`. -/
def Collector.new : Collector := ⟨fun _ => none, .empty⟩

/-- Spawn the poll task of an ingest and keep its handle; an ingest of an unknown
connector is skipped. -/
def spawnIngest (conns : ConnStore) (p : Pool String PollTask) (ing : Ingest) :
    Pool String PollTask :=
  match conns ing.connectorId with
  | none => p
  | some conn => (p.spawn ⟨conn, ing⟩).insert ing.ingestId [p.next]

/-- The lists of one call. -/
structure Config where
  connectors : List (String × Conn)
  ingests : List Ingest

def reconfigure (c : Collector) (cfg : Config) : Collector :=
  let conns := storeOf cfg.connectors
  ⟨conns, cfg.ingests.foldl (spawnIngest conns) c.tasks.drain⟩

/-- The collector after a sequence of calls. -/
def Collector.after (c : Collector) (calls : List Config) : Collector := calls.foldl reconfigure c

/-- The ingests of a call whose connector is in its list. -/
def Config.known (cfg : Config) : List Ingest :=
  cfg.ingests.filter fun ing => (storeOf cfg.connectors ing.connectorId).isSome

/-- After a call that found the collector at `before`: the running tasks are the
entries of the map, one for each id of a known ingest, each with the connector
of the store, and spawned by this call. -/
structure Converged (before : Collector) (cfg : Config) (c : Collector) : Prop where
  entries : (c.tasks.running.map fun t => (t.2.ing.ingestId, [t.1])).Perm c.tasks.held
  one : ∀ id, (c.tasks.running.filter fun t => t.2.ing.ingestId = id).length =
    if id ∈ cfg.known.map Ingest.ingestId then 1 else 0
  current : ∀ t ∈ c.tasks.running,
    t.2.ing ∈ cfg.known ∧ c.connectors t.2.ing.connectorId = some t.2.conn
  fresh : ∀ t ∈ c.tasks.running, before.tasks.next ≤ t.1

/-- The known ingests have different ids. -/
def Config.DistinctIds (cfg : Config) : Prop := (cfg.known.map Ingest.ingestId).Nodup

/-! ### The tasks of one call -/

/-- The tasks a list of ingests gets, numbered from `n`. -/
def spawned (conns : ConnStore) (n : ℕ) : List Ingest → List (ℕ × PollTask)
  | [] => []
  | ing :: ings =>
    match conns ing.connectorId with
    | none => spawned conns n ings
    | some conn => (n, ⟨conn, ing⟩) :: spawned conns (n + 1) ings

variable {conns : ConnStore} {p : Pool String PollTask} {cfg : Config} {c : Collector}

theorem running_foldl (ings : List Ingest) :
    (ings.foldl (spawnIngest conns) p).running = p.running ++ spawned conns p.next ings := by
  induction ings generalizing p with
  | nil => simp [spawned]
  | cons ing ings ih =>
    rw [List.foldl_cons, ih, spawned]
    unfold spawnIngest
    cases conns ing.connectorId with
    | none => rfl
    | some conn => simp [Pool.insert, Pool.spawn]

theorem ingests_spawned (n : ℕ) (ings : List Ingest) :
    (spawned conns n ings).map (fun t => t.2.ing) =
      ings.filter fun ing => (conns ing.connectorId).isSome := by
  induction ings generalizing n with
  | nil => rfl
  | cons ing ings ih =>
    rw [spawned, List.filter_cons]
    cases conns ing.connectorId with
    | none => simpa using ih n
    | some conn => simpa using ih (n + 1)

theorem of_mem_spawned {n : ℕ} {ings : List Ingest} {t : ℕ × PollTask}
    (h : t ∈ spawned conns n ings) : n ≤ t.1 ∧ conns t.2.ing.connectorId = some t.2.conn := by
  induction ings generalizing n with
  | nil => cases h
  | cons ing ings ih =>
    rw [spawned] at h
    split at h
    · exact ih h
    · rename_i conn hconn
      rcases List.mem_cons.mp h with rfl | h
      · exact ⟨le_refl n, hconn⟩
      · obtain ⟨hn, hc⟩ := ih h
        exact ⟨by omega, hc⟩

/-- Different ids leave one entry for each task. -/
theorem held_foldl {ings : List Ingest}
    (hids : (((ings.filter fun ing => (conns ing.connectorId).isSome)).map Ingest.ingestId).Nodup)
    (hkeys : ∀ e ∈ p.held, ∀ ing ∈ ings, (conns ing.connectorId).isSome = true → e.1 ≠ ing.ingestId) :
    (ings.foldl (spawnIngest conns) p).held =
      ((spawned conns p.next ings).map fun t => (t.2.ing.ingestId, [t.1])).reverse ++ p.held := by
  induction ings generalizing p with
  | nil => simp [spawned]
  | cons ing ings ih =>
    rw [List.foldl_cons, spawned]
    cases hc : conns ing.connectorId with
    | none =>
      have hskip : spawnIngest conns p ing = p := by simp [spawnIngest, hc]
      rw [hskip]
      refine ih ?_ fun e he i hi => hkeys e he i (List.mem_cons_of_mem _ hi)
      simpa [List.filter_cons, hc] using hids
    | some conn =>
      simp only [List.filter_cons, hc, Option.isSome_some, if_true, List.map_cons,
        List.nodup_cons] at hids
      -- no entry has the new key, so the insertion drops nothing
      have hkeep : (p.held.filter fun e => e.1 ≠ ing.ingestId) = p.held :=
        List.filter_eq_self.mpr fun e he => by
          simpa using hkeys e he ing List.mem_cons_self (by simp [hc])
      have hnew : spawnIngest conns p ing =
          ⟨p.running ++ [(p.next, ⟨conn, ing⟩)], p.next + 1, (ing.ingestId, [p.next]) :: p.held⟩ := by
        simp only [spawnIngest, hc, Pool.insert, Pool.spawn, hkeep]
      rw [hnew, ih hids.2]
      · simp
      · intro e he i hi hki
        rcases List.mem_cons.mp he with rfl | he
        · intro heq
          exact hids.1 (List.mem_map.mpr ⟨i, List.mem_filter.mpr ⟨hi, hki⟩, heq.symm⟩)
        · exact hkeys e he i (List.mem_cons_of_mem _ hi) hki

/-! ### One call -/

theorem running_reconfigure :
    (reconfigure c cfg).tasks.running =
      c.tasks.drain.running ++ spawned (storeOf cfg.connectors) c.tasks.next cfg.ingests :=
  running_foldl cfg.ingests

theorem ids_spawned (n : ℕ) :
    (spawned (storeOf cfg.connectors) n cfg.ingests).map (fun t => t.2.ing.ingestId) =
      cfg.known.map Ingest.ingestId := by
  rw [Config.known, ← ingests_spawned n, List.map_map]
  rfl

/-- Nothing is out of reach. -/
def Tracked (c : Collector) : Prop := ∀ t, ¬ Escaped c.tasks t

/-- A call with different ids, where nothing was out of reach: the running tasks
are its own. -/
theorem running_of_tracked (h : Tracked c) :
    (reconfigure c cfg).tasks.running =
      spawned (storeOf cfg.connectors) c.tasks.next cfg.ingests := by
  have hnil : c.tasks.drain.running = [] :=
    List.eq_nil_iff_forall_not_mem.mpr fun t ht => h t (mem_running_drain.mp ht)
  rw [running_reconfigure, hnil, List.nil_append]

theorem held_of_distinct (hids : cfg.DistinctIds) :
    (reconfigure c cfg).tasks.held =
      ((spawned (storeOf cfg.connectors) c.tasks.next cfg.ingests).map
        fun t => (t.2.ing.ingestId, [t.1])).reverse := by
  have h := held_foldl (p := c.tasks.drain) hids (by simp [Pool.drain])
  rw [show c.tasks.drain.held = [] from rfl, List.append_nil] at h
  exact h

theorem tracked_reconfigure (h : Tracked c) (hids : cfg.DistinctIds) :
    Tracked (reconfigure c cfg) := by
  rintro t ⟨ht, hheld⟩
  rw [running_of_tracked h] at ht
  refine hheld ⟨(t.2.ing.ingestId, [t.1]), ?_, List.mem_singleton_self _⟩
  rw [held_of_distinct hids, List.mem_reverse]
  exact List.mem_map.mpr ⟨t, ht, rfl⟩

/-- How many tasks run for an id. -/
theorem count_running {l : List (ℕ × PollTask)} (id : String) :
    (l.filter fun t => t.2.ing.ingestId = id).length =
      (l.map fun t => t.2.ing.ingestId).count id := by
  rw [← List.countP_eq_length_filter, List.count, List.countP_map]
  rfl

theorem converged_reconfigure (h : Tracked c) (hids : cfg.DistinctIds) :
    Converged c cfg (reconfigure c cfg) where
  entries := by
    rw [running_of_tracked h, held_of_distinct hids]
    exact (List.reverse_perm _).symm
  one id := by
    rw [count_running, running_of_tracked h, ids_spawned]
    split
    · rename_i hmem
      exact List.count_eq_one_of_mem hids hmem
    · rename_i hmem
      exact List.count_eq_zero.mpr hmem
  current t ht := by
    rw [running_of_tracked h] at ht
    refine ⟨?_, (of_mem_spawned ht).2⟩
    rw [Config.known, ← ingests_spawned c.tasks.next]
    exact List.mem_map.mpr ⟨t, ht, rfl⟩
  fresh t ht := by
    rw [running_of_tracked h] at ht
    exact (of_mem_spawned ht).1

/-- Two known ingests of one id get two tasks. -/
theorem Converged.distinct (h : Converged c cfg (reconfigure c cfg)) : cfg.DistinctIds := by
  refine List.nodup_iff_count_le_one.mpr fun id => ?_
  have hone := h.one id
  rw [count_running, running_reconfigure, List.map_append, List.count_append, ids_spawned] at hone
  split at hone <;> omega

/-! ### Every sequence of calls -/

theorem after_snoc (calls : List Config) (cfg : Config) :
    c.after (calls ++ [cfg]) = reconfigure (c.after calls) cfg := by
  simp [Collector.after]

theorem tracked_after {calls : List Config} (h : Tracked c)
    (hids : ∀ cfg ∈ calls, cfg.DistinctIds) : Tracked (c.after calls) := by
  induction calls generalizing c with
  | nil => exact h
  | cons cfg calls ih =>
    exact ih (tracked_reconfigure h (hids cfg List.mem_cons_self))
      fun cfg' h' => hids cfg' (List.mem_cons_of_mem _ h')

theorem tracked_new : Tracked Collector.new := fun _ h => by cases h.1

/-- **Reconfiguration converges exactly where no list repeats the id of a known
ingest.** For every sequence of calls: after each of them the running tasks are
the entries of the task map, one for each id of an ingest whose connector is
listed, with the connector of the store and from this call, if and only if in
every call the ingests with a listed connector have different ids. -/
theorem converges_iff (calls : List Config) :
    (∀ pre cfg post, calls = pre ++ cfg :: post →
      Converged (Collector.new.after pre) cfg (Collector.new.after (pre ++ [cfg]))) ↔
    ∀ cfg ∈ calls, cfg.DistinctIds := by
  constructor
  · intro h cfg hcfg
    obtain ⟨pre, post, rfl⟩ := List.append_of_mem hcfg
    have hconv := h pre cfg post rfl
    rw [after_snoc] at hconv
    exact hconv.distinct
  · rintro h pre cfg post rfl
    have hpre : Tracked (Collector.new.after pre) :=
      tracked_after tracked_new fun cfg' h' => h cfg' (List.mem_append_left _ h')
    rw [after_snoc]
    exact converged_reconfigure hpre (h cfg (by simp))

/-- An ingest of the connector `id`. -/
def plainIngest (ingestId id : String) : Ingest := ⟨ingestId, id, .null, 60, .null, .null⟩

/-- One connector, and two ingests of one id on it. -/
def twice : Config :=
  ⟨[("plc", ⟨"modbus", .null, .null, []⟩)], [plainIngest "i" "plc", plainIngest "i" "plc"]⟩

/-- Two tasks poll for the id `i`, the map has one of them, and a call with empty
lists leaves the other running. -/
theorem twice_not_converged :
    ((reconfigure .new twice).tasks.running.map Prod.fst = [0, 1] ∧
      (reconfigure .new twice).tasks.held = [("i", [1])]) ∧
    ((Collector.new.after [twice, ⟨[], []⟩]).tasks.running.map Prod.fst = [0]) ∧
    ¬ Converged .new twice (reconfigure .new twice) := by
  refine ⟨by decide, by decide, fun h => ?_⟩
  have hlen := h.entries.length_eq
  exact absurd hlen (by decide)

/-! ### A task out of reach -/

theorem next_le_foldl (ings : List Ingest) : p.next ≤ (ings.foldl (spawnIngest conns) p).next := by
  induction ings generalizing p with
  | nil => exact le_refl _
  | cons ing ings ih =>
    refine le_trans ?_ ih
    unfold spawnIngest
    split
    · exact le_refl _
    · exact Nat.le_succ _

/-- New entries hold new numbers. -/
theorem held_foldl_cases {ings : List Ingest} {n : ℕ}
    (h : (ings.foldl (spawnIngest conns) p).Held n) : p.Held n ∨ p.next ≤ n := by
  induction ings generalizing p with
  | nil => exact Or.inl h
  | cons ing ings ih =>
    rcases ih h with h | h
    · unfold spawnIngest at h
      split at h
      · exact Or.inl h
      · obtain ⟨e, he, hn⟩ := h
        rcases List.mem_cons.mp he with rfl | he
        · exact Or.inr (List.mem_singleton.mp hn).ge
        · exact Or.inl ⟨e, List.mem_of_mem_filter he, hn⟩
    · exact Or.inr ((next_le_foldl [ing]).trans h)

theorem escaped_reconfigure {t : ℕ × PollTask} (h : Escaped c.tasks t) (hn : t.1 < c.tasks.next) :
    Escaped (reconfigure c cfg).tasks t ∧ t.1 < (reconfigure c cfg).tasks.next := by
  refine ⟨⟨?_, fun hheld => ?_⟩, lt_of_lt_of_le hn (next_le_foldl (p := c.tasks.drain) _)⟩
  · rw [running_reconfigure]
    exact List.mem_append_left _ (mem_running_drain.mpr h)
  · rcases held_foldl_cases hheld with ⟨e, he, -⟩ | hle
    · cases he
    · exact absurd hn (not_lt.mpr hle)

/-- A poll task out of reach runs through every later call. -/
theorem escaped_run {t : ℕ × PollTask} (h : Escaped c.tasks t) (hn : t.1 < c.tasks.next)
    (calls : List Config) : t ∈ (c.after calls).tasks.running := by
  induction calls generalizing c with
  | nil => exact h.1
  | cons cfg calls ih =>
    obtain ⟨h', hn'⟩ : Escaped (reconfigure c cfg).tasks t ∧ t.1 < (reconfigure c cfg).tasks.next :=
      escaped_reconfigure h hn
    exact ih h' hn'

end Collect
end LymonAgent
