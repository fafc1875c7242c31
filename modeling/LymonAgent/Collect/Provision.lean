/-
# Provision frames

What `read_loop` of `src/control.rs` does with a provision frame: it sets the
control key, updates the datasource store from a `datasources` array, and
reconfigures the collector when the frame has a `connectors` or an `ingests`
key. The collector takes both lists at once, and the list of an absent key is
empty, so a frame with one of the keys also empties the other dimension.
`frame_iff` says where that does not show.

Key definitions: `Agent`, `parseIngests`, `provision`, `TouchesOnlyKeys`.
-/
import LymonAgent.Collect.Reconfigure
import LymonAgent.Control.Channel

namespace LymonAgent
namespace Collect

open Control Handles

/-- A provisioned datasource. -/
structure ProvisionedDs where
  dsType : String
  config : Json
  secrets : Json

abbrev DsStore : Type := String → Option ProvisionedDs

/-- What a provision frame can change. -/
structure Agent where
  pubkey : Option (List UInt8)
  store : DsStore
  collector : Collector

def ingestOf (i : Json) : Option Ingest :=
  match i.getStr "ingest_id", i.getStr "connector_id" with
  | some ingestId, some connectorId => some {
      ingestId, connectorId
      selection := (i.get "selection").getD .null
      intervalS := (i.getU64 "interval_s").getD 60
      naming := (i.get "naming").getD .null
      transform := (i.get "transform").getD .null }
  | _, _ => none

def parseIngests (v : Json) : List Ingest := ((v.getArray "ingests").getD []).filterMap ingestOf

/-- A datasource of the frame goes into the store; one without an id does not. -/
def storeDs (s : DsStore) (d : Json) : DsStore :=
  match d.getStr "datasource_id" with
  | none => s
  | some id => fun k =>
    if k = id then some {
      dsType := (d.getStr "type").getD ""
      config := (d.get "config").getD .null
      secrets := (d.get "secrets").getD .null }
    else s k

/-- The store after a frame: a partial frame adds to it, any other replaces it. -/
def provisionDs (s : DsStore) (v : Json) : DsStore :=
  match v.getArray "datasources" with
  | none => s
  | some list => list.foldl storeDs (if (v.getBool "partial").getD false then s else fun _ => none)

def provision (F : FloatText) (a : Agent) (v : Json) : Agent where
  pubkey := frameKey v
  store := provisionDs a.store v
  collector :=
    if (v.get "connectors").isSome || (v.get "ingests").isSome then
      reconfigure a.collector ⟨parseConnectors F v, parseIngests v⟩
    else a.collector

/-- The ingest has a running task. -/
def Collector.Runs (c : Collector) (ing : Ingest) : Prop := ∃ t ∈ c.tasks.running, t.2.ing = ing

/-- The frame changes the datasources only with a `datasources` array, the
connectors only with a `connectors` key and the running ingests only with an
`ingests` key. -/
structure TouchesOnlyKeys (F : FloatText) (a : Agent) (v : Json) : Prop where
  datasources : v.getArray "datasources" = none → (provision F a v).store = a.store
  connectors : v.get "connectors" = none →
    (provision F a v).collector.connectors = a.collector.connectors
  ingests : v.get "ingests" = none →
    ∀ ing, (provision F a v).collector.Runs ing ↔ a.collector.Runs ing

/-- Every ingest that runs also runs in a task out of reach. -/
def OnlyEscaped (c : Collector) : Prop :=
  ∀ t ∈ c.tasks.running, ∃ u, Escaped c.tasks u ∧ u.2.ing = t.2.ing

variable {F : FloatText} {a : Agent} {v : Json}

/-- The control channel takes the frame to the same key and connectors. -/
theorem channel_provision {V : Ed25519} {s : Channel} (hs : s.reconf = none)
    (hconn : s.connectors = a.collector.connectors) (hk : v.getStr "kind" = some "provision") :
    ∃ es t, Runs.run (chanStep V F) s es = some t ∧ t.reconf = none ∧
      t.pubkey = (provision F a v).pubkey ∧
      t.connectors = (provision F a v).collector.connectors := by
  by_cases hkeys : (v.get "connectors").isSome ∨ (v.get "ingests").isSome
  · refine ⟨[.frame v, .reconfigure], _, by simp [Runs.run, chanStep, hs, hk, hkeys]; rfl, ?_⟩
    simp [provision, reconfigure, hkeys]
  · refine ⟨[.frame v], _, by simp [Runs.run, chanStep, hs, hk, hkeys]; rfl, ?_⟩
    simp [provision, hkeys, hconn]

/-! ### What a frame with one key does -/

theorem parseConnectors_of_absent (h : v.get "connectors" = none) : parseConnectors F v = [] := by
  simp [parseConnectors, Json.getArray, h]

theorem parseIngests_of_absent (h : v.get "ingests" = none) : parseIngests v = [] := by
  simp [parseIngests, Json.getArray, h]

theorem collector_of_ingests_only (hi : (v.get "ingests").isSome = true)
    (hc : v.get "connectors" = none) :
    (provision F a v).collector = reconfigure a.collector ⟨[], parseIngests v⟩ := by
  simp [provision, hi, parseConnectors_of_absent hc]

theorem collector_of_connectors_only (hc : (v.get "connectors").isSome = true)
    (hi : v.get "ingests" = none) :
    (provision F a v).collector = reconfigure a.collector ⟨parseConnectors F v, []⟩ := by
  simp [provision, hc, parseIngests_of_absent hi]

theorem collector_of_neither (hc : v.get "connectors" = none) (hi : v.get "ingests" = none) :
    (provision F a v).collector = a.collector := by
  simp [provision, hc, hi]

/-- Without ingests a call only stops tasks, and reaches those in the map. -/
theorem runs_drain {c : Collector} {connectors : List (String × Conn)} {ing : Ingest} :
    (reconfigure c ⟨connectors, []⟩).Runs ing ↔ ∃ u, Escaped c.tasks u ∧ u.2.ing = ing := by
  simp only [Collector.Runs, reconfigure, List.foldl_nil, mem_running_drain]

/-- **A frame touches only its own dimensions exactly where the other one is
empty.** For every agent state and provision frame: the datasources change only
with a `datasources` array, the connectors only with a `connectors` key and the
running ingests only with an `ingests` key, if and only if a frame with
`ingests` and no `connectors` finds no connector in the store, and a frame with
`connectors` and no `ingests` finds no ingest running but in tasks out of
reach. -/
theorem frame_iff :
    TouchesOnlyKeys F a v ↔
      ((v.get "ingests").isSome = true → v.get "connectors" = none →
        ∀ id, a.collector.connectors id = none) ∧
      ((v.get "connectors").isSome = true → v.get "ingests" = none → OnlyEscaped a.collector) := by
  constructor
  · intro h
    constructor
    · intro hi hc id
      have hstore := h.connectors hc
      rw [collector_of_ingests_only hi hc] at hstore
      rw [← hstore]
      rfl
    · intro hc hi t ht
      have hruns := (h.ingests hi t.2.ing).mpr ⟨t, ht, rfl⟩
      rw [collector_of_connectors_only hc hi] at hruns
      exact runs_drain.mp hruns
  · rintro ⟨hconn, hing⟩
    refine ⟨fun hd => ?_, fun hc => ?_, fun hi ing => ?_⟩
    · simp [provision, provisionDs, hd]
    · cases hi : v.get "ingests" with
      | none => rw [collector_of_neither hc hi]
      | some _ =>
        rw [collector_of_ingests_only (by simp [hi]) hc]
        funext id
        exact (hconn (by simp [hi]) hc id).symm
    · cases hc : v.get "connectors" with
      | none => rw [collector_of_neither hc hi]
      | some _ =>
        rw [collector_of_connectors_only (by simp [hc]) hi, runs_drain]
        constructor
        · rintro ⟨u, hu, rfl⟩
          exact ⟨u, hu.1, rfl⟩
        · rintro ⟨t, ht, rfl⟩
          exact hing (by simp [hc]) hi t ht

/-- An agent that knows one connector and polls one ingest on it. -/
def polling : Agent :=
  ⟨none, fun _ => none,
    reconfigure .new ⟨[("plc", ⟨"modbus", .null, .null, []⟩)], [plainIngest "i" "plc"]⟩⟩

/-- A frame with no ingests stops the ingest that runs; one with no connectors
empties the store. -/
theorem one_key_touches_both :
    ((provision plainFloat polling (plcFrame [])).collector.tasks.running.length = 0 ∧
      ¬ TouchesOnlyKeys plainFloat polling (plcFrame [])) ∧
    (((provision plainFloat polling (.obj [("ingests", .arr [])])).collector.connectors "plc").isSome =
        false ∧
      ¬ TouchesOnlyKeys plainFloat polling (.obj [("ingests", .arr [])])) := by
  have hstop : (provision plainFloat polling (plcFrame [])).collector.tasks.running.length = 0 := by
    decide +kernel
  have hempty : ((provision plainFloat polling
      (.obj [("ingests", .arr [])])).collector.connectors "plc").isSome = false := by
    decide +kernel
  refine ⟨⟨hstop, fun h => ?_⟩, ⟨hempty, fun h => ?_⟩⟩
  · obtain ⟨t, ht, -⟩ := (h.ingests rfl (plainIngest "i" "plc")).mpr ⟨_, List.mem_singleton_self _, rfl⟩
    rw [List.length_eq_zero_iff.mp hstop] at ht
    cases ht
  · rw [h.connectors rfl] at hempty
    exact absurd hempty (by decide)

end Collect
end LymonAgent
