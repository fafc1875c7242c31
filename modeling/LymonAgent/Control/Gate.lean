/-
# The Modbus allow-list

A target key holds a function and an address as the JSON has them, and nothing
of the datatype. The driver takes the datatype from the request, so a listed
register opens its successor too; it narrows the address to 16 bits, so a
listed address opens the one it is congruent to; and it defaults the function
to `holding`, so a listed node opens every holding register.

`writes_within_iff` says for which lists this matters: all writes stay inside
the spans of the listed targets exactly when the connector has no host, or
every cell these three ways open is itself listed (`GateTight`).

Key definitions: `DeviceWrite.cells`, `span`, `GateTight`.
-/
import LymonAgent.Control.Write

namespace LymonAgent
namespace Control

open Text

/-- A coil or a holding register, by its index. -/
inductive Cell where
  | coil (i : ℕ)
  | holding (i : ℕ)
  deriving DecidableEq

/-- The cells a write to a Modbus device changes. -/
def DeviceWrite.cells : DeviceWrite → List Cell
  | .coil _ _ address _ => [.coil address.toNat]
  | .holding _ _ address words => (List.range words.length).map fun i => .holding (address.toNat + i)
  | .node _ _ _ => []

/-- The cells a target stands for: its coil, or the registers its own datatype
takes from its address on. -/
def span (t : Json) : List Cell :=
  match t.getU64 "address" with
  | none => []
  | some a =>
    if t.getStr "fn" = some "coil" then [.coil a.toNat]
    else (List.range ((width (Target.datatype t)).getD 1)).map fun i => .holding (a.toNat + i)

def Covered (targets : List Json) (x : Cell) : Prop := ∃ t ∈ targets, x ∈ span t

/-- What a listed target opens is listed. -/
structure GateTight (F : FloatText) (targets : List Json) : Prop where
  /-- A coil: the coil its address is narrowed to. -/
  coil : ∀ t ∈ targets, ∀ a, t.getStr "fn" = some "coil" → t.getU64 "address" = some a →
    Covered targets (.coil (a.toNat % 2 ^ 16))
  /-- Another function and address: two registers from the narrowed address. -/
  holding : ∀ t ∈ targets, ∀ f a, t.getStr "fn" = some f → f ≠ "coil" →
    t.getU64 "address" = some a → ∀ i < 2, Covered targets (.holding (a.toNat % 2 ^ 16 + i))
  /-- A key that reads as a node: every register. -/
  node : ∀ t ∈ targets, ∀ n, targetKey F t = "node:" ++ n →
    ∀ i ≤ 65536, Covered targets (.holding i)
  /-- A target listed as text: its registers from the narrowed address. -/
  text : ∀ t ∈ targets, ∀ a n, t.getStr "fn" = none → t.getStr "node_id" = none →
    t.getU64 "address" = some a → width (Target.datatype t) = some n →
    ∀ i < n, Covered targets (.holding (a.toNat % 2 ^ 16 + i))

variable {F : FloatText}

theorem toNat_toUInt16 (a : UInt64) : a.toUInt16.toNat = a.toNat % 2 ^ 16 := rfl

/-! ### Tight is enough -/

theorem mem_cells_holding {host : String} {port address : UInt16} {words : List UInt16} {x : Cell} :
    x ∈ (DeviceWrite.holding host port address words).cells ↔
      ∃ i < words.length, x = .holding (address.toNat + i) := by
  simp only [DeviceWrite.cells, List.mem_map, List.mem_range]
  exact ⟨fun ⟨i, hi, hx⟩ => ⟨i, hi, hx.symm⟩, fun ⟨i, hi, hx⟩ => ⟨i, hi, hx.symm⟩⟩

theorem covered_of_tight {targets : List Json} (ht : GateTight F targets) {r : WriteRequest}
    {plc : Plc} {config : Json} {w : DeviceWrite} (hw : w ∈ (writeModbus plc config r).writes)
    {t : Json} (hmem : t ∈ targets) (hkey : targetKey F r.target = targetKey F t) :
    ∀ x ∈ w.cells, Covered targets x := by
  obtain ⟨host, a, -, ha, hw⟩ := mem_writes_writeModbus hw
  rcases hw with ⟨hcoil, rfl⟩ | ⟨hcoil, words, henc, rfl⟩
  · -- a coil: its key names it, as no node and no text does
    have hf := Target.fnclass_eq_coil.mp hcoil
    intro x hx
    obtain rfl := List.mem_singleton.mp hx
    rw [toNat_toUInt16]
    rcases same_key_cases hkey with ⟨f, a', hf', ha', htf, hta⟩ | ⟨n, hn⟩ | ⟨-, -, hshape⟩
    · obtain rfl : "coil" = f := Option.some.inj (hf.symm.trans hf')
      obtain rfl : a = a' := Option.some.inj (ha.symm.trans ha')
      exact ht.coil t hmem a htf hta
    · have hk : targetKey F r.target = keyed "coil" a.toNat := targetKey_of_keyed hf ha
      exact absurd (hk.symm.trans hn) (keyed_coil_ne_node _ _)
    · rcases hshape with h | h
      · rw [hf] at h; cases h
      · rw [ha] at h; cases h
  · have hwidth := width_of_encodeWords henc
    intro x hx
    obtain ⟨i, hi, rfl⟩ := mem_cells_holding.mp hx
    rw [toNat_toUInt16]
    rcases same_key_cases hkey with ⟨f, a', hf', ha', htf, hta⟩ | ⟨n, hn⟩ | ⟨rfl, hnode, hshape⟩
    · obtain rfl : a = a' := Option.some.inj (ha.symm.trans ha')
      have hne : f ≠ "coil" := by
        rintro rfl
        exact hcoil (Target.fnclass_eq_coil.mpr hf')
      exact ht.holding t hmem f a htf hne hta i (Nat.lt_of_lt_of_le hi (width_le hwidth))
    · refine ht.node t hmem n (hkey ▸ hn) _ ?_
      have := width_le hwidth
      omega
    · rcases hshape with h | h
      · exact ht.text _ hmem a _ h hnode ha hwidth i hi
      · rw [ha] at h; cases h

/-! ### Tight is needed -/

/-- A function and an address, with a datatype. -/
def keyedTarget (f : String) (a : UInt64) (datatype : String) : Json :=
  .obj [("address", .num (.posInt a)), ("datatype", .str datatype), ("fn", .str f)]

/-- A node and an address, with a datatype of two registers. -/
def nodeTarget (n : String) (a : UInt64) : Json :=
  .obj [("address", .num (.posInt a)), ("datatype", .str "uint32"), ("node_id", .str n)]

theorem sorted_keyedTarget (f : String) (a : UInt64) (datatype : String) :
    (keyedTarget f a datatype).Sorted := by
  simp +decide [keyedTarget, Json.Sorted, Json.Sorted.Members]

theorem sorted_nodeTarget (n : String) (a : UInt64) : (nodeTarget n a).Sorted := by
  simp +decide [nodeTarget, Json.Sorted, Json.Sorted.Members]

theorem targetKey_keyedTarget (f : String) (a : UInt64) (datatype : String) :
    targetKey F (keyedTarget f a datatype) = keyed f a.toNat := rfl

theorem targetKey_nodeTarget (n : String) (a : UInt64) :
    targetKey F (nodeTarget n a) = "node:" ++ n := rfl

variable {config : Json} {host : String} {r : WriteRequest} {a : UInt64}

theorem writes_coil (hh : config.getStr "host" = some host) (ha : r.target.getU64 "address" = some a)
    (hf : Target.fnclass r.target = "coil") :
    ∃ on, DeviceWrite.coil host (portOf config) a.toUInt16 on ∈ (writeModbus accepting config r).writes := by
  simp [writeModbus, hh, ha, hf, accepting]

theorem writes_holding (hh : config.getStr "host" = some host)
    (ha : r.target.getU64 "address" = some a) (hf : Target.fnclass r.target ≠ "coil") {n : ℕ}
    (hw : width (Target.datatype r.target) = some n) :
    ∃ words, words.length = n ∧
      DeviceWrite.holding host (portOf config) a.toUInt16 words ∈
        (writeModbus accepting config r).writes := by
  obtain ⟨words, henc⟩ := exists_encodeWords hw (rawOf r.target r.value) (Target.wordOrder r.target)
  have hlen : words.length = n := by
    have := width_of_encodeWords henc
    rw [hw] at this
    exact (Option.some.inj this).symm
  refine ⟨words, hlen, ?_⟩
  simp only [writeModbus, hh, ha, hf, henc, accepting, if_false]
  split <;> exact List.mem_singleton_self _

/-- Every write of every request to the connector stays inside the spans. -/
def WritesWithin (F : FloatText) (connectors : ConnStore) (id : String) (targets : List Json) : Prop :=
  ∀ req : Json, req.Sorted → (WriteRequest.ofJson req).connectorId = id →
    ∀ env, ∀ w ∈ (doWrite F env connectors (WriteRequest.ofJson req)).writes,
      ∀ x ∈ w.cells, Covered targets x

variable {connectors : ConnStore} {id : String} {c : Json}

/-- What an accepting device gets from a request with a listed key. -/
theorem covered_of_within (hty : c.getStr "type" = some "modbus")
    (hs : connectors id = some (connOf F c))
    (hin : WritesWithin F connectors id (writableTargets c)) {g t : Json} (hg : g.Sorted)
    (ht : t ∈ writableTargets c) (hk : targetKey F g = targetKey F t) {w : DeviceWrite}
    (hw : w ∈ (writeModbus accepting (connOf F c).config ⟨"", id, .fin 1, g, false, 5000⟩).writes) :
    ∀ x ∈ w.cells, Covered (writableTargets c) x := by
  refine hin (requestTo id g) (sorted_requestTo id hg) rfl ⟨accepting, fun _ => none⟩ w ?_
  have hmem : targetKey F g ∈ (connOf F c).writable := List.mem_map.mpr ⟨t, ht, hk.symm⟩
  have hmodbus : (connOf F c).dsType = "modbus" := by simp [connOf, hty]
  rw [ofJson_requestTo, doWrite_of_listed hs rfl hmem, if_pos hmodbus]
  exact hw

theorem tight_of_within (hc : c.Sorted) (hty : c.getStr "type" = some "modbus")
    (hs : connectors id = some (connOf F c)) (hh : (connOf F c).config.getStr "host" = some host)
    (hin : WritesWithin F connectors id (writableTargets c)) : GateTight F (writableTargets c) where
  coil t ht a hf ha := by
    obtain ⟨on, hw⟩ := writes_coil (r := ⟨"", id, .fin 1, keyedTarget "coil" a "uint32", false, 5000⟩)
      (a := a) hh rfl rfl
    have hk : targetKey F (keyedTarget "coil" a "uint32") = targetKey F t := by
      rw [targetKey_keyedTarget, targetKey_of_keyed hf ha]
    exact covered_of_within hty hs hin (sorted_keyedTarget _ _ _) ht hk hw _ (List.mem_singleton_self _)
  holding t ht f a hf hne ha i hi := by
    obtain ⟨words, hlen, hw⟩ := writes_holding
      (r := ⟨"", id, .fin 1, keyedTarget f a "uint32", false, 5000⟩) (a := a) (n := 2) hh rfl hne rfl
    have hk : targetKey F (keyedTarget f a "uint32") = targetKey F t := by
      rw [targetKey_keyedTarget, targetKey_of_keyed hf ha]
    exact covered_of_within hty hs hin (sorted_keyedTarget _ _ _) ht hk hw _
      (mem_cells_holding.mpr ⟨i, hlen ▸ hi, rfl⟩)
  node t ht n hn i hi := by
    -- the last register is the second one from the last address
    have hreg : ∀ (a : UInt64) (j : ℕ), j < 2 →
        Covered (writableTargets c) (.holding (a.toNat % 2 ^ 16 + j)) := by
      intro a j hj
      obtain ⟨words, hlen, hw⟩ := writes_holding
        (r := ⟨"", id, .fin 1, nodeTarget n a, false, 5000⟩) (a := a) (n := 2) hh rfl
        (show "holding" ≠ "coil" by decide) rfl
      exact covered_of_within hty hs hin (sorted_nodeTarget _ _) ht
        ((targetKey_nodeTarget n a).trans hn.symm) hw _ (mem_cells_holding.mpr ⟨j, hlen ▸ hj, rfl⟩)
    by_cases hlt : i < 2 ^ 16
    · have hi64 : (UInt64.ofNat i).toNat = i := UInt64.toNat_ofNat_of_lt' (hlt.trans (by decide))
      have h := hreg (.ofNat i) 0 (by omega)
      rwa [hi64, Nat.mod_eq_of_lt hlt, Nat.add_zero] at h
    · obtain rfl : i = 65536 := by omega
      exact hreg 65535 1 (by omega)
  text t ht a n hf hn ha hw i hi := by
    have hsorted := sorted_of_writable hc ht
    obtain ⟨words, hlen, hw⟩ := writes_holding
      (r := ⟨"", id, .fin 1, t, false, 5000⟩) hh ha (by simp [Target.fnclass, hf]) hw
    exact covered_of_within hty hs hin hsorted ht rfl hw _ (mem_cells_holding.mpr ⟨i, hlen ▸ hi, rfl⟩)

/-- **Writes stay inside the allow-list exactly when it is tight.** For a
Modbus connector of a provision frame: every coil and register index that any
write request makes `do_write` write is in the span of a listed target, if and
only if the connector has no host or what its listed targets open is listed. -/
theorem writes_within_iff (hc : c.Sorted) (hty : c.getStr "type" = some "modbus")
    (hs : connectors id = some (connOf F c)) :
    WritesWithin F connectors id (writableTargets c) ↔
      ((connOf F c).config.getStr "host" = none ∨ GateTight F (writableTargets c)) := by
  constructor
  · intro hin
    cases hh : (connOf F c).config.getStr "host" with
    | none => exact Or.inl rfl
    | some host => exact Or.inr (tight_of_within hc hty hs hh hin)
  · intro hor req _ hid env w hw
    obtain ⟨conn, hconn, -, hkey, hw⟩ := mem_writes_doWrite hw
    rw [hid, hs] at hconn
    obtain rfl := Option.some.inj hconn
    have hmodbus : (connOf F c).dsType = "modbus" := by simp [connOf, hty]
    rcases hw with ⟨-, hw⟩ | ⟨hne, -⟩
    · rcases hor with hnone | htight
      · obtain ⟨host, -, hhost, -⟩ := mem_writes_writeModbus hw
        rw [hnone] at hhost
        cases hhost
      · obtain ⟨t, ht, hk⟩ := List.mem_map.mp hkey
        exact covered_of_tight htight hw ht hk.symm
    · exact absurd hmodbus hne

/-- A provision frame with the Modbus connector `plc`. -/
def plcConnector (targets : List Json) : Json :=
  .obj [("config", .obj [("host", .str "10.0.0.9")]), ("connector_id", .str "plc"),
    ("type", .str "modbus"), ("writable_targets", .arr targets)]

def plcFrame (targets : List Json) : Json :=
  .obj [("connectors", .arr [plcConnector targets]), ("kind", .str "provision")]

/-- The coil 5. -/
def coilFive : Json := .obj [("address", .num (.posInt 5)), ("fn", .str "coil")]

theorem writes_within_coil :
    WritesWithin plainFloat (storeOf (parseConnectors plainFloat (plcFrame [coilFive]))) "plc" [coilFive] := by
  have hsorted : (plcConnector [coilFive]).Sorted := by
    simp +decide [plcConnector, coilFive, Json.Sorted, Json.Sorted.Members, Json.Sorted.All]
  refine (writes_within_iff (c := plcConnector [coilFive]) hsorted rfl rfl).mpr (Or.inr ?_)
  have hmem : ∀ t ∈ writableTargets (plcConnector [coilFive]), t = coilFive := fun t ht =>
    List.mem_singleton.mp ht
  constructor
  · intro t ht a _ ha
    obtain rfl := hmem t ht
    obtain rfl : 5 = a := Option.some.inj ha
    exact ⟨coilFive, List.mem_singleton_self _, List.mem_singleton_self _⟩
  · intro t ht f a hf hne
    obtain rfl := hmem t ht
    exact absurd (Option.some.inj hf).symm hne
  · intro t ht n hn
    obtain rfl := hmem t ht
    exact absurd hn (keyed_coil_ne_node 5 n)
  · intro t ht a n hf
    obtain rfl := hmem t ht
    cases hf

/-- The holding register 10. -/
def registerTen : Json :=
  .obj [("address", .num (.posInt 10)), ("datatype", .str "uint16"), ("fn", .str "holding")]

/-- The register 11 is written through the listed register 10. -/
theorem writes_outside :
    targetKey plainFloat registerTen = "holding:10" ∧
    (doWrite plainFloat ⟨accepting, fun _ => none⟩
      (storeOf (parseConnectors plainFloat (plcFrame [registerTen])))
      (WriteRequest.ofJson (requestTo "plc" (keyedTarget "holding" 10 "uint32")))).writes =
        [.holding "10.0.0.9" 502 10 [0, 1]] ∧
    span registerTen = [.holding 10] ∧
    ¬ WritesWithin plainFloat (storeOf (parseConnectors plainFloat (plcFrame [registerTen]))) "plc"
      [registerTen] := by
  have hw : (doWrite plainFloat ⟨accepting, fun _ => none⟩
      (storeOf (parseConnectors plainFloat (plcFrame [registerTen])))
      (WriteRequest.ofJson (requestTo "plc" (keyedTarget "holding" 10 "uint32")))).writes =
        [.holding "10.0.0.9" 502 10 [0, 1]] := by decide +kernel
  refine ⟨rfl, hw, rfl, fun hin => ?_⟩
  have hsorted := sorted_requestTo "plc" (sorted_keyedTarget "holding" 10 "uint32")
  obtain ⟨t, ht, hx⟩ := hin _ hsorted rfl ⟨accepting, fun _ => none⟩ _
    (hw ▸ List.mem_singleton_self _) (.holding 11) (by decide)
  obtain rfl := List.mem_singleton.mp ht
  revert hx
  decide

end Control
end LymonAgent
