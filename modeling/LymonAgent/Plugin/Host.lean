/-
# The plugin host

`PluginHost` of `src/plugins.rs`: third parties ship connectors as executables
with a manifest that declares the types they serve, and the host indexes the
plugins by type. A manifest that does not parse, is not on the allow-list or has
another protocol is skipped, and the first plugin to declare a type keeps it.
`discover` does not look at which types the agent has adapters for itself.

The second half is the request lines the host writes to a plugin process.

Left out: how the executable is found and started.

Key definitions: `Manifest`, `discover`, `PluginHost.forType`, `Serves`.
Key theorems: `forType_isSome`.
-/
import LymonAgent.Collect.Reconfigure
import LymonAgent.Plugin.Sdk

namespace LymonAgent
namespace Plugin

open Control Collect

/-! ### Manifests -/

structure Manifest where
  name : String
  types : List String
  exec : String
  args : List String
  protocol : ℕ
  deriving DecidableEq

def asStrings (v : Json) : Option (List String) := v.asArray.bind fun l => l.mapM Json.asStr

def Manifest.ofJson (v : Json) : Option Manifest :=
  match v.getStr "name", defaulted asStrings [] (v.get "types"), v.getStr "exec",
      defaulted asStrings [] (v.get "args"), defaulted Sdk.asU32 0 (v.get "protocol") with
  | some name, some types, some exec, some args, some protocol =>
    some { name, types, exec, args, protocol }
  | _, _, _, _, _ => none

/-- The version of the protocol the host speaks. -/
def protocol : ℕ := 1

/-- The manifest is on the allow-list, if there is one, and has a protocol the
host speaks. -/
def Loads (allow : List String) (m : Manifest) : Prop :=
  (allow = [] ∨ m.name ∈ allow) ∧ (m.protocol = 0 ∨ m.protocol = protocol)

instance (allow : List String) (m : Manifest) : Decidable (Loads allow m) :=
  inferInstanceAs (Decidable (_ ∧ _))

structure PluginHost where
  byType : List (String × Manifest)

def PluginHost.forType (h : PluginHost) (dsType : String) : Option Manifest := h.byType.lookup dsType

/-- A type another plugin has is skipped. -/
def serveType (m : Manifest) (byType : List (String × Manifest)) (t : String) :
    List (String × Manifest) :=
  if (byType.lookup t).isSome then byType else byType ++ [(t, m)]

def register (allow : List String) (byType : List (String × Manifest)) (entry : Option Json) :
    List (String × Manifest) :=
  match entry.bind Manifest.ofJson with
  | none => byType
  | some m => if Loads allow m then m.types.foldl (serveType m) byType else byType

/-- Scan the entries of the plugin directory. An entry is the value of its
manifest file, and `none` where it is no directory or has no manifest that
reads as JSON. -/
def discover (allow : List String) (entries : List (Option Json)) : PluginHost :=
  ⟨entries.foldl (register allow) []⟩

/-- A manifest that loads declares the type. -/
def Serves (allow : List String) (entries : List (Option Json)) (dsType : String) : Prop :=
  ∃ v m, some v ∈ entries ∧ Manifest.ofJson v = some m ∧ Loads allow m ∧ dsType ∈ m.types

theorem lookup_serveType (m : Manifest) (byType : List (String × Manifest)) (t u : String) :
    ((serveType m byType t).lookup u).isSome = true ↔ (byType.lookup u).isSome = true ∨ u = t := by
  unfold serveType
  split
  · rename_i h
    constructor
    · exact Or.inl
    · rintro (h' | rfl)
      · exact h'
      · exact h
  · rename_i h
    rw [List.lookup_append]
    by_cases hu : u = t
    · subst hu
      simp
    · simp [List.lookup_cons, hu, beq_eq_false_iff_ne.mpr hu]

theorem lookup_serveTypes (m : Manifest) (types : List String) (byType : List (String × Manifest))
    (u : String) : ((types.foldl (serveType m) byType).lookup u).isSome = true ↔
      (byType.lookup u).isSome = true ∨ u ∈ types := by
  induction types generalizing byType with
  | nil => simp
  | cons t types ih => rw [List.foldl_cons, ih, lookup_serveType, List.mem_cons, or_assoc]

theorem lookup_register {allow : List String} (entry : Option Json)
    (byType : List (String × Manifest)) (u : String) :
    ((register allow byType entry).lookup u).isSome = true ↔
      (byType.lookup u).isSome = true ∨ Serves allow [entry] u := by
  unfold register Serves
  cases hm : entry.bind Manifest.ofJson with
  | none =>
    constructor
    · exact Or.inl
    · rintro (h | ⟨v, m, hv, hj, -⟩)
      · exact h
      · rw [← List.mem_singleton.mp hv, Option.bind_some, hj] at hm
        cases hm
  | some m =>
    obtain ⟨v, rfl, hj⟩ := Option.bind_eq_some_iff.mp hm
    have hserves : (∃ w n, some w ∈ [some v] ∧ Manifest.ofJson w = some n ∧ Loads allow n ∧
        u ∈ n.types) ↔ Loads allow m ∧ u ∈ m.types := by
      simp [hj]
    rw [hserves]
    simp only
    split
    · rename_i hl
      rw [lookup_serveTypes]
      simp [hl]
    · rename_i hl
      simp [hl]

/-- A type has a plugin where a manifest that loads declares it. -/
theorem forType_isSome {allow : List String} {entries : List (Option Json)} {dsType : String} :
    ((discover allow entries).forType dsType).isSome = true ↔ Serves allow entries dsType := by
  have hfold : ∀ byType : List (String × Manifest),
      ((entries.foldl (register allow) byType).lookup dsType).isSome = true ↔
        (byType.lookup dsType).isSome = true ∨ Serves allow entries dsType := by
    induction entries with
    | nil => simp [Serves]
    | cons entry entries ih =>
      intro byType
      rw [List.foldl_cons, ih, lookup_register, or_assoc]
      have hcons : Serves allow (entry :: entries) dsType ↔
          Serves allow [entry] dsType ∨ Serves allow entries dsType := by
        simp only [Serves, List.mem_cons, List.not_mem_nil, or_false, or_and_right, exists_or]
      rw [hcons]
  simpa [discover, PluginHost.forType] using hfold []

theorem forType_eq_none {allow : List String} {entries : List (Option Json)} {dsType : String} :
    (discover allow entries).forType dsType = none ↔ ¬ Serves allow entries dsType := by
  rw [← forType_isSome, Bool.not_eq_true, Option.isSome_eq_false_iff, Option.isNone_iff_eq_none]

/-! ### Request lines -/

/-- The line of `Plugin::read` and `Plugin::open_stream`. -/
def ingestLine (op : String) (c : Conn) (ing : Ingest) : Json :=
  .obj [("config", c.config), ("connector_id", .str ing.connectorId), ("naming", ing.naming),
    ("op", .str op), ("secrets", c.secrets), ("selection", ing.selection), ("type", .str c.dsType),
    ("v", .num (.posInt 1))]

def readLine : Conn → Ingest → Json := ingestLine "read"

def subscribeLine : Conn → Ingest → Json := ingestLine "subscribe"

/-- The line of `Plugin::query`. -/
def queryLine (op dsType : String) (config secrets args : Json) : Json :=
  .obj [("args", args), ("config", config), ("op", .str op), ("secrets", secrets),
    ("type", .str dsType), ("v", .num (.posInt 1))]

/-- The line of `Plugin::read_points`. -/
def readPointsLine (dsType : String) (config secrets points : Json) : Json :=
  .obj [("config", config), ("op", .str "read"), ("points", points), ("secrets", secrets),
    ("type", .str dsType), ("v", .num (.posInt 1))]

end Plugin
end LymonAgent
