/-
# The durable buffer

`src/buffer.rs`: a sample waits in the SQLite table `pending_samples` until the
streamer has it acknowledged. A row is pending while its `batch_id` is NULL and
in flight once `claim_batch` tagged it; `ack_ok` deletes the rows of a batch,
`ack_retry` makes them pending again, and `enqueue_with_origin` first trims the
oldest pending rows when the table would pass `max_rows`.

Every operation is one transaction. `fault` says where it fails, if it does:
then the transaction is rolled back and the call returns the error. What a
transaction of `enqueue_with_origin` does to the counter `dropped_total` is not
rolled back with it.

Left out: the throttled warning and the clock that throttles it, which no
result depends on.

Key definitions: `BufferDb`, `enqueueWithOrigin`, `claimBatch`, `ackOk`,
`ackRetry`, `recoverInFlight`, and the system they form, `opStep`.
Key theorem: `op_cases`, what one operation can do to the tables.
-/
import LymonAgent.Rowid
import LymonAgent.F64
import LymonAgent.Runs
import Mathlib.Data.List.Sort

namespace LymonAgent
namespace Ingest

open Rowid

/-- A Rust `Vec`: its length is an `isize`. -/
abbrev Vec (α : Type) : Type := { l : List α // l.length < 2 ^ 63 }

/-- The protobuf `Sample`. -/
structure Sample where
  pointId : String
  tsMs : ℤ
  value : F64
  quality : UInt32
  attrs : List (String × String)
  deriving DecidableEq

/-- The columns of `pending_samples` besides the id. -/
structure Row where
  variableId : String
  tsMs : ℤ
  value : F64
  quality : ℤ
  attrsJson : Option String
  batchId : Option String
  origin : Option String
  deriving DecidableEq

/-- The two tables; an entry of `in_flight_batches` is its `batch_id` and
`sent_at_ms`. -/
structure Db where
  pendingSamples : Table Row
  inFlightBatches : List (String × ℤ)

/-- The open buffer. `ulids` is not in the source: the ULIDs `Ulid::new` has
returned so far, kept to say that it never returns one twice. -/
structure BufferDb where
  db : Db
  droppedTotal : ℕ
  ulids : List String

structure ClaimedBatch where
  batchId : String
  samples : List Sample
  origin : Option String
  deriving DecidableEq

/-- `serde_json` on a map of strings. -/
structure AttrsText where
  toString : List (String × String) → String
  fromStr : String → Option (List (String × String))

structure BufferConfig where
  maxRows : UInt64
  attrs : AttrsText

inductive DbError where
  | io
  | notNull
  | full
  | unique
  deriving DecidableEq

/-- The statements of the `enqueue_with_origin` transaction. -/
inductive Stmt where
  | start
  | count
  | delete
  | insert (i : ℕ)
  | commit
  deriving DecidableEq

/-- `n as i64` of a `u64`. -/
def asI64 (n : ℕ) : ℤ := if n < 2 ^ 63 then n else (n : ℤ) - 2 ^ 64

def Row.isPending (r : Row) : Bool := r.batchId.isNone

def Row.inBatch (id : String) (r : Row) : Bool := r.batchId == some id

section

variable (c : BufferConfig)

/-! ### Enqueue -/

/-- How many of the oldest pending rows to delete before `n` samples go into a
table of `total` rows: at least the overshoot, rounded up to 1% of the limit. -/
def toDrop (maxRows : UInt64) (total n : ℕ) : Option ℕ :=
  let projected := (total + n) % 2 ^ 64
  if maxRows.toNat < projected then
    some (max (projected - maxRows.toNat) (max (maxRows.toNat / 100) 1))
  else none

def dropOldest (maxRows : UInt64) (n : ℕ) (t : Table Row) : Table Row :=
  match toDrop maxRows t.rows.length n with
  | none => t
  | some d =>
    let ids := (limit (asI64 d) (t.select Row.isPending)).map Prod.fst
    t.delete fun x => decide (x.1 ∈ ids)

/-- The row of a sample: an empty `attrs` is stored as NULL, and so is
`batch_id`. -/
def rowOf (origin : Option String) (s : Sample) : Row where
  variableId := s.pointId
  tsMs := s.tsMs
  value := s.value
  quality := s.quality.toNat
  attrsJson := if s.attrs.isEmpty then none else some (c.attrs.toString s.attrs)
  batchId := none
  origin := origin

/-- SQLite binds NaN as NULL, and the column `value` is NOT NULL. -/
def insertSample (origin : Option String) (s : Sample) (t : Table Row) :
    Except DbError (Table Row) :=
  if s.value = .nan then .error .notNull
  else
    match t.insert (rowOf c origin s) with
    | none => .error .full
    | some u => .ok u

def insertSamples (origin : Option String) (fault : Option Stmt) :
    ℕ → List Sample → Table Row → Except DbError (Table Row)
  | _, [], t => .ok t
  | i, s :: ss, t =>
    if fault = some (.insert i) then .error .io
    else
      match insertSample c origin s t with
      | .error e => .error e
      | .ok u => insertSamples origin fault (i + 1) ss u

def enqueueWithOrigin (b : BufferDb) (origin : Option String) (samples : Vec Sample)
    (fault : Option Stmt) : BufferDb × Except DbError Unit :=
  if samples.1.isEmpty then (b, .ok ())
  else if fault = some .start ∨ fault = some .count then (b, .error .io)
  else
    let t := b.db.pendingSamples
    let n := samples.1.length
    if (toDrop c.maxRows t.rows.length n).isSome ∧ fault = some .delete then (b, .error .io)
    else
      let trimmed := dropOldest c.maxRows n t
      -- `fetch_add` comes before the inserts and the commit
      let b := { b with droppedTotal := b.droppedTotal + (t.rows.length - trimmed.rows.length) }
      match insertSamples c origin fault 0 samples.1 trimmed with
      | .error e => (b, .error e)
      | .ok u =>
        if fault = some .commit then (b, .error .io)
        else ({ b with db := { b.db with pendingSamples := u } }, .ok ())

/-! ### Claim, acknowledge, recover -/

def sampleOf (r : Row) : Sample where
  pointId := r.variableId
  tsMs := r.tsMs
  value := r.value
  quality := .ofInt r.quality
  attrs :=
    match r.attrsJson with
    | some s => (c.attrs.fromStr s).getD []
    | none => []

def loadSamplesForBatch (t : Table Row) (id : String) : List Sample :=
  (t.select (Row.inBatch id)).map fun x => sampleOf c x.2

/-- The ids `claim_batch` takes: the first `max_size` pending rows of the origin
of the oldest pending row. -/
def claimIds (t : Table Row) (maxSize : UInt64) : List ℕ :=
  match (t.select Row.isPending).head? with
  | none => []
  | some x =>
    (limit (asI64 maxSize.toNat)
      (t.select fun r => r.isPending && decide (r.origin = x.2.origin))).map Prod.fst

/-- `UPDATE pending_samples SET batch_id = ?1`. -/
def Row.setBatch (id : Option String) (r : Row) : Row := { r with batchId := id }

def claimBatch (b : BufferDb) (maxSize : UInt64) (ulid : String) (nowMs : ℤ) (fault : Bool) :
    BufferDb × Except DbError (Option ClaimedBatch) :=
  let t := b.db.pendingSamples
  match (t.select Row.isPending).head? with
  | none => (b, if fault then .error .io else .ok none)
  | some x =>
    if claimIds t maxSize = [] then (b, if fault then .error .io else .ok none)
    else
      let b := { b with ulids := b.ulids ++ [ulid] }
      if fault then (b, .error .io)
      else if ulid ∈ b.db.inFlightBatches.map Prod.fst then (b, .error .unique)
      else
        let u := t.setAll (claimIds t maxSize) (Row.setBatch (some ulid))
        ({ b with db := ⟨u, b.db.inFlightBatches ++ [(ulid, nowMs)]⟩ },
          .ok (some ⟨ulid, loadSamplesForBatch c u ulid, x.2.origin⟩))

/-- `DELETE FROM in_flight_batches WHERE batch_id = ?1`. -/
def settled (id : String) (l : List (String × ℤ)) : List (String × ℤ) :=
  l.filter fun x => decide (x.1 ≠ id)

def ackOk (b : BufferDb) (id : String) (fault : Bool) : BufferDb × Except DbError Unit :=
  if fault then (b, .error .io)
  else
    ({ b with db :=
      ⟨b.db.pendingSamples.delete fun x => x.2.inBatch id, settled id b.db.inFlightBatches⟩ }, .ok ())

def ackRetry (b : BufferDb) (id : String) (fault : Bool) : BufferDb × Except DbError Unit :=
  if fault then (b, .error .io)
  else
    ({ b with db :=
      ⟨b.db.pendingSamples.update (fun x => x.2.inBatch id) (Row.setBatch none),
        settled id b.db.inFlightBatches⟩ }, .ok ())

/-- The origin of a batch, read from one of its rows. -/
def originOf (t : Table Row) (id : String) : Option String :=
  ((t.select (Row.inBatch id)).head?.map fun x => x.2.origin).getD none

/-- `SELECT batch_id FROM in_flight_batches ORDER BY sent_at_ms`. -/
def inFlightIds (d : Db) : List String :=
  (d.inFlightBatches.insertionSort fun x y => x.2 ≤ y.2).map Prod.fst

def recoverInFlight (b : BufferDb) : List ClaimedBatch :=
  (inFlightIds b.db).map fun id =>
    ⟨id, loadSamplesForBatch c b.db.pendingSamples id, originOf b.db.pendingSamples id⟩

/-- `BufferDb::open` on the file a stopped process left: the tables are as
committed, the counter starts again. -/
def reopen (b : BufferDb) : BufferDb := { b with droppedTotal := 0 }

/-- `BufferDb::open` on a new file. -/
def openNew : BufferDb := ⟨⟨Table.empty, []⟩, 0, []⟩

/-! ### The buffer as a system -/

inductive Op where
  | enqueue (origin : Option String) (samples : Vec Sample) (fault : Option Stmt)
  | claim (maxSize : UInt64) (ulid : String) (nowMs : ℤ) (fault : Bool)
  | ackOk (id : String) (fault : Bool)
  | ackRetry (id : String) (fault : Bool)
  | recover
  | reopen

/-- One operation. A claim draws a ULID that was never drawn before. -/
def opStep (b : BufferDb) : Op → Option BufferDb
  | .enqueue origin samples fault => some (enqueueWithOrigin c b origin samples fault).1
  | .claim maxSize ulid nowMs fault =>
    if ulid ∈ b.ulids then none else some (claimBatch c b maxSize ulid nowMs fault).1
  | .ackOk id fault => some (ackOk b id fault).1
  | .ackRetry id fault => some (ackRetry b id fault).1
  | .recover => some b
  | .reopen => some (reopen b)

/-! ### What an operation can do to the tables -/

/-- The rows an insert of `ss` adds after the id `n`. -/
def newRows (origin : Option String) : ℕ → List Sample → List (ℕ × Row)
  | _, [] => []
  | n, s :: ss => (n + 1, rowOf c origin s) :: newRows origin (n + 1) ss

/-- The tables after an operation, by what the transaction did: nothing, when
it failed or had nothing to do, or the operation's own change. -/
inductive Effect (b b' : BufferDb) : Op → Prop
  | same {op : Op} : b'.db = b.db → b.ulids ⊆ b'.ulids → Effect b b' op
  | enqueue {origin : Option String} {samples : Vec Sample} {fault : Option Stmt} :
      b'.db.pendingSamples.rows =
        (dropOldest c.maxRows samples.1.length b.db.pendingSamples).rows ++
          newRows c origin b.db.pendingSamples.seq samples.1 →
      b'.db.pendingSamples.seq = b.db.pendingSamples.seq + samples.1.length →
      b'.db.inFlightBatches = b.db.inFlightBatches → b'.ulids = b.ulids →
      Effect b b' (.enqueue origin samples fault)
  | claim {maxSize : UInt64} {ulid : String} {nowMs : ℤ} {fault : Bool} {x : ℕ × Row} :
      ulid ∉ b.ulids → (b.db.pendingSamples.select Row.isPending).head? = some x →
      claimIds b.db.pendingSamples maxSize ≠ [] →
      b'.db.pendingSamples.rows = b.db.pendingSamples.rows.map (fun y =>
        if y.1 ∈ claimIds b.db.pendingSamples maxSize then (y.1, y.2.setBatch (some ulid)) else y) →
      b'.db.pendingSamples.seq = b.db.pendingSamples.seq →
      b'.db.inFlightBatches = b.db.inFlightBatches ++ [(ulid, nowMs)] →
      b'.ulids = b.ulids ++ [ulid] →
      Effect b b' (.claim maxSize ulid nowMs fault)
  | ackOk {id : String} {fault : Bool} :
      b'.db.pendingSamples = b.db.pendingSamples.delete (fun x => x.2.inBatch id) →
      b'.db.inFlightBatches = settled id b.db.inFlightBatches → b'.ulids = b.ulids →
      Effect b b' (.ackOk id fault)
  | ackRetry {id : String} {fault : Bool} :
      b'.db.pendingSamples =
        b.db.pendingSamples.update (fun x => x.2.inBatch id) (Row.setBatch none) →
      b'.db.inFlightBatches = settled id b.db.inFlightBatches → b'.ulids = b.ulids →
      Effect b b' (.ackRetry id fault)

variable {c}

theorem insertSamples_ok {origin : Option String} {fault : Option Stmt} :
    ∀ {i : ℕ} {ss : List Sample} {t u : Table Row}, insertSamples c origin fault i ss t = .ok u →
      u.rows = t.rows ++ newRows c origin t.seq ss ∧ u.seq = t.seq + ss.length
  | _, [], t, u, h => by
    obtain rfl : t = u := Except.ok.inj h
    simp [newRows]
  | i, s :: ss, t, u, h => by
    unfold insertSamples insertSample at h
    split at h
    · cases h
    · split at h
      · cases h
      · rename_i v hv
        split at hv
        · cases hv
        · split at hv
          · cases hv
          · rename_i w hw
            obtain rfl : w = v := Except.ok.inj hv
            obtain ⟨hr, hs⟩ := Table.insert_eq_some hw
            obtain ⟨hr', hs'⟩ := insertSamples_ok h
            rw [hr', hs', hr, hs]
            exact ⟨by simp [newRows], by simp; omega⟩

theorem seq_dropOldest (maxRows : UInt64) (n : ℕ) (t : Table Row) :
    (dropOldest maxRows n t).seq = t.seq := by
  unfold dropOldest
  split <;> rfl

theorem enqueue_effect (b : BufferDb) (origin : Option String) (samples : Vec Sample)
    (fault : Option Stmt) :
    Effect c b (enqueueWithOrigin c b origin samples fault).1 (.enqueue origin samples fault) := by
  have hsub : b.ulids ⊆ b.ulids := List.Subset.refl _
  unfold enqueueWithOrigin
  simp only
  split
  · exact .same rfl hsub
  · split
    · exact .same rfl hsub
    · split
      · exact .same rfl hsub
      · split
        · exact .same rfl hsub
        · rename_i u hu
          split
          · exact .same rfl hsub
          · obtain ⟨hr, hs⟩ := insertSamples_ok hu
            rw [seq_dropOldest] at hr hs
            exact .enqueue hr hs rfl rfl

/-- A claim finds nothing to claim, fails, or claims. -/
theorem claimBatch_cases (c : BufferConfig) (b : BufferDb) (maxSize : UInt64) (ulid : String)
    (nowMs : ℤ) (fault : Bool) :
    (fault = false ∧ claimBatch c b maxSize ulid nowMs fault = (b, .ok none)) ∨
    (∃ us e, us ⊆ [ulid] ∧ claimBatch c b maxSize ulid nowMs fault =
      ({ b with ulids := b.ulids ++ us }, .error e)) ∨
    (∃ x u, (b.db.pendingSamples.select Row.isPending).head? = some x ∧
      claimIds b.db.pendingSamples maxSize ≠ [] ∧ fault = false ∧
      u = b.db.pendingSamples.setAll (claimIds b.db.pendingSamples maxSize)
        (Row.setBatch (some ulid)) ∧
      claimBatch c b maxSize ulid nowMs fault =
        (⟨⟨u, b.db.inFlightBatches ++ [(ulid, nowMs)]⟩, b.droppedTotal, b.ulids ++ [ulid]⟩,
          .ok (some ⟨ulid, loadSamplesForBatch c u ulid, x.2.origin⟩))) := by
  have hnil : ∀ e : DbError, ∃ us e', us ⊆ [ulid] ∧
      ((b, .error e) : BufferDb × Except DbError (Option ClaimedBatch)) =
        ({ b with ulids := b.ulids ++ us }, .error e') := fun e =>
    ⟨[], e, List.nil_subset _, by simp⟩
  unfold claimBatch
  simp only
  split
  · cases fault with
    | false => exact Or.inl ⟨rfl, rfl⟩
    | true => exact Or.inr (Or.inl (hnil _))
  · rename_i x hx
    split
    · cases fault with
      | false => exact Or.inl ⟨rfl, rfl⟩
      | true => exact Or.inr (Or.inl (hnil _))
    · rename_i h1
      split
      · exact Or.inr (Or.inl ⟨[ulid], _, List.Subset.refl _, rfl⟩)
      · rename_i h2
        split
        · exact Or.inr (Or.inl ⟨[ulid], _, List.Subset.refl _, rfl⟩)
        · exact Or.inr (Or.inr ⟨x, _, hx, h1, by simpa using h2, rfl, rfl⟩)

theorem rows_setAll_setBatch (is : List ℕ) (id : Option String) (t : Table Row) :
    (t.setAll is (Row.setBatch id)).rows =
      t.rows.map fun x => if x.1 ∈ is then (x.1, x.2.setBatch id) else x := by
  have hidem : ∀ r : Row, (r.setBatch id).setBatch id = r.setBatch id := fun _ => rfl
  exact Table.rows_setAll hidem is t

theorem claim_effect {b : BufferDb} (maxSize : UInt64) {ulid : String} (nowMs : ℤ) (fault : Bool)
    (hu : ulid ∉ b.ulids) :
    Effect c b (claimBatch c b maxSize ulid nowMs fault).1 (.claim maxSize ulid nowMs fault) := by
  rcases claimBatch_cases c b maxSize ulid nowMs fault with
    ⟨-, h⟩ | ⟨us, e, -, h⟩ | ⟨x, u, hx, h1, -, hset, h⟩
  · rw [h]; exact .same rfl (List.Subset.refl _)
  · rw [h]; exact .same rfl (List.subset_append_left _ _)
  · rw [h]
    exact .claim hu hx h1 (hset ▸ rows_setAll_setBatch _ _ _) (hset ▸ Table.seq_setAll _ _) rfl rfl

/-- Every operation has one of the effects. -/
theorem op_cases {b b' : BufferDb} {op : Op} (h : opStep c b op = some b') : Effect c b b' op := by
  cases op with
  | enqueue origin samples fault =>
    obtain rfl := Option.some.inj h
    exact enqueue_effect b origin samples fault
  | claim maxSize ulid nowMs fault =>
    simp only [opStep] at h
    split at h
    · cases h
    · rename_i hu
      obtain rfl := Option.some.inj h
      exact claim_effect maxSize nowMs fault hu
  | ackOk id fault =>
    obtain rfl := Option.some.inj h
    unfold ackOk
    split
    · exact .same rfl (List.Subset.refl _)
    · exact .ackOk rfl rfl rfl
  | ackRetry id fault =>
    obtain rfl := Option.some.inj h
    unfold ackRetry
    split
    · exact .same rfl (List.Subset.refl _)
    · exact .ackRetry rfl rfl rfl
  | recover =>
    obtain rfl := Option.some.inj h
    exact .same rfl (List.Subset.refl _)
  | reopen =>
    obtain rfl := Option.some.inj h
    exact .same rfl (List.Subset.refl _)

/-! ### The statements, one by one -/

theorem mem_dropOldest {maxRows : UInt64} {n : ℕ} {t : Table Row} {x : ℕ × Row}
    (h : x ∈ (dropOldest maxRows n t).rows) : x ∈ t.rows := by
  unfold dropOldest at h
  split at h
  · exact h
  · exact List.mem_of_mem_filter h

/-- Drop-oldest deletes pending rows only. -/
theorem isPending_of_dropped {maxRows : UInt64} {n : ℕ} {t : Table Row} {x : ℕ × Row}
    (h : x ∈ t.rows) (hx : x ∉ (dropOldest maxRows n t).rows) : x.2.isPending = true := by
  unfold dropOldest at hx
  split at hx
  · exact absurd h hx
  · rename_i d _
    simp only [Table.rows_delete, List.mem_filter, not_and, Bool.not_eq_true, Bool.not_eq_false',
      decide_eq_true_eq] at hx
    obtain ⟨y, hy, hyx⟩ := List.mem_map.mp (hx h)
    obtain ⟨hy1, hy2⟩ := Table.mem_select.mp (mem_of_mem_limit hy)
    obtain ⟨i, r⟩ := x
    obtain ⟨j, q⟩ := y
    simp only at hyx
    subst hyx
    exact t.eq_of_mem h hy1 ▸ hy2

theorem not_inBatch_of_isPending {r : Row} {id : String} (h : r.isPending = true) :
    r.inBatch id = false := by
  unfold Row.isPending at h
  unfold Row.inBatch
  rw [Option.isNone_iff_eq_none.mp h]
  rfl

theorem select_dropOldest (maxRows : UInt64) (n : ℕ) (t : Table Row) (id : String) :
    (dropOldest maxRows n t).select (Row.inBatch id) = t.select (Row.inBatch id) := by
  have hkeep : ∀ x ∈ t.rows, x.2.inBatch id = true → x ∈ (dropOldest maxRows n t).rows := by
    intro x hx hb
    by_contra hn
    rw [not_inBatch_of_isPending (isPending_of_dropped hx hn)] at hb
    cases hb
  unfold dropOldest at hkeep ⊢
  split
  · rfl
  · rename_i d hd
    simp only [hd, Table.rows_delete, List.mem_filter] at hkeep
    simp only [Table.select, Table.rows_delete, List.filter_filter]
    refine List.filter_congr fun x hx => ?_
    cases hb : x.2.inBatch id with
    | false => rfl
    | true => exact (hkeep x hx hb).2

/-- A limit cast from a `u64` bounds what it should: where the cast is negative
the limit is more than the rows there can be. -/
theorem length_limit_asI64 {β : Type*} {d : ℕ} {l : List β} (hl : l.length < 2 ^ 63) :
    (limit (asI64 d) l).length = min d l.length ∨ 2 ^ 64 ≤ d := by
  unfold asI64
  by_cases h : d < 2 ^ 63
  · rw [if_pos h, length_limit (Int.natCast_nonneg _)]
    exact Or.inl rfl
  · by_cases h' : d < 2 ^ 64
    · have hneg : (d : ℤ) - 2 ^ 64 < 0 := by omega
      rw [if_neg h, limit, if_pos hneg]
      exact Or.inl (by omega)
    · exact Or.inr (Nat.not_lt.mp h')

theorem toDrop_lt {maxRows : UInt64} {total n d : ℕ} (h : toDrop maxRows total n = some d) :
    d < 2 ^ 64 := by
  simp only [toDrop] at h
  split at h
  · have := maxRows.toNat_lt
    obtain rfl := Option.some.inj h
    omega
  · cases h

theorem length_select_add (t : Table Row) :
    (t.select Row.isPending).length + (t.select fun r => !r.isPending).length = t.rows.length :=
  (List.length_eq_length_filter_add _).symm

/-- Drop-oldest deletes as many pending rows as it was asked to, or all. -/
theorem length_dropOldest (maxRows : UInt64) (n : ℕ) (t : Table Row) :
    (dropOldest maxRows n t).rows.length +
      min ((toDrop maxRows t.rows.length n).getD 0) (t.select Row.isPending).length =
        t.rows.length := by
  have hp : (t.select Row.isPending).length ≤ t.rows.length := List.length_filter_le _ _
  unfold dropOldest
  cases hd : toDrop maxRows t.rows.length n with
  | none => simp
  | some d =>
    have hlim := (length_limit_asI64 (d := d) (Nat.lt_of_le_of_lt hp t.length_lt)).resolve_right
      (Nat.not_le.mpr (toDrop_lt hd))
    have hsub : ((limit (asI64 d) (t.select Row.isPending)).map Prod.fst).Sublist
        (t.rows.map Prod.fst) := ((limit_sublist _ _).trans List.filter_sublist).map _
    have hdel := t.length_delete_ids (t.nodup_ids.sublist hsub) hsub.subset
    rw [List.length_map, hlim] at hdel
    exact hdel

/-- After the trim and the insert the table is within the limit, or holds the
rows in flight and the new ones only. -/
theorem length_dropOldest_add_le (maxRows : UInt64) {n : ℕ} (hn : n < 2 ^ 63) (t : Table Row) :
    (dropOldest maxRows n t).rows.length + n ≤
      max maxRows.toNat ((t.select fun r => !r.isPending).length + n) := by
  have hlen := length_dropOldest maxRows n t
  have hadd := length_select_add t
  have hmax := t.length_lt
  have hproj : (t.rows.length + n) % 2 ^ 64 = t.rows.length + n := Nat.mod_eq_of_lt (by omega)
  unfold toDrop at hlen
  simp only [hproj] at hlen
  split at hlen
  · simp only [Option.getD_some] at hlen
    omega
  · simp only [Option.getD_none] at hlen
    omega

theorem mem_newRows {origin : Option String} :
    ∀ {n : ℕ} {ss : List Sample} {x : ℕ × Row}, x ∈ newRows c origin n ss →
      n < x.1 ∧ x.1 ≤ n + ss.length ∧ x.2.batchId = none ∧ x.2.origin = origin
  | n, s :: ss, x, h => by
    rcases List.mem_cons.mp h with rfl | h
    · simp only [List.length_cons]
      exact ⟨by omega, by omega, rfl, rfl⟩
    · obtain ⟨h1, h2, h3⟩ := mem_newRows h
      simp only [List.length_cons]
      exact ⟨by omega, by omega, h3⟩

theorem length_newRows {origin : Option String} :
    ∀ (n : ℕ) (ss : List Sample), (newRows c origin n ss).length = ss.length
  | _, [] => rfl
  | n, _ :: ss => by simp [newRows, length_newRows (n + 1) ss]

/-- A claimed row was pending and of the claim's origin. -/
theorem mem_claimIds {t : Table Row} {maxSize : UInt64} {x : ℕ × Row}
    (hx : (t.select Row.isPending).head? = some x) {i : ℕ} (h : i ∈ claimIds t maxSize) :
    ∃ r, (i, r) ∈ t.rows ∧ r.batchId = none ∧ r.origin = x.2.origin := by
  unfold claimIds at h
  rw [hx] at h
  obtain ⟨y, hy, rfl⟩ := List.mem_map.mp h
  obtain ⟨hy1, hy2⟩ := Table.mem_select.mp (mem_of_mem_limit hy)
  simp only [Row.isPending, Bool.and_eq_true, Option.isNone_iff_eq_none, decide_eq_true_eq] at hy2
  exact ⟨y.2, hy1, hy2.1, hy2.2⟩

/-- `max_size` bounds the claim, also when its cast to `i64` is negative and
`LIMIT` bounds nothing: there are fewer rows than ids. -/
theorem length_claimIds (t : Table Row) (maxSize : UInt64) :
    (claimIds t maxSize).length ≤ maxSize.toNat := by
  unfold claimIds
  split
  · exact Nat.zero_le _
  · rename_i x _
    rw [List.length_map]
    by_cases h : maxSize.toNat < 2 ^ 63
    · rw [asI64, if_pos h, length_limit (Int.natCast_nonneg _)]
      exact Nat.min_le_left _ _
    · have h1 := ((limit_sublist (asI64 maxSize.toNat) (t.select fun r =>
        r.isPending && decide (r.origin = x.2.origin))).trans List.filter_sublist).length_le
      have h2 := t.length_lt
      omega

/-- The claimed rows are older than the pending rows of their origin that the
claim leaves. -/
theorem lt_of_mem_claimIds {t : Table Row} {maxSize : UInt64} {x y : ℕ × Row}
    (hx : (t.select Row.isPending).head? = some x) {i : ℕ} (h : i ∈ claimIds t maxSize)
    (hy : y ∈ t.rows) (hp : y.2.batchId = none) (ho : y.2.origin = x.2.origin)
    (hn : y.1 ∉ claimIds t maxSize) : i < y.1 := by
  unfold claimIds at h hn
  rw [hx] at h hn
  obtain ⟨z, hz, rfl⟩ := List.mem_map.mp h
  refine lt_of_mem_limit (t.sorted_select _) hz ?_ fun hm => hn (List.mem_map.mpr ⟨y, hm, rfl⟩)
  exact Table.mem_select.mpr ⟨hy, by simp [Row.isPending, hp, ho]⟩

/-! ### The rows of a batch -/

def batchRows (b : BufferDb) (id : String) : List (ℕ × Row) :=
  b.db.pendingSamples.select (Row.inBatch id)

theorem mem_batchRows {b : BufferDb} {id : String} {x : ℕ × Row} :
    x ∈ batchRows b id ↔ x ∈ b.db.pendingSamples.rows ∧ x.2.batchId = some id := by
  simp [batchRows, Table.mem_select, Row.inBatch]

/-- The operations that name a batch. -/
def Op.names (id : String) : Op → Prop
  | .claim _ ulid _ _ => ulid = id
  | .ackOk i _ => i = id
  | .ackRetry i _ => i = id
  | _ => False

/-- An operation leaves the rows of a batch it does not name as they are. -/
theorem Effect.batchRows_eq {b b' : BufferDb} {op : Op} (h : Effect c b b' op) {id : String}
    (hn : ¬ op.names id) : batchRows b' id = batchRows b id := by
  unfold batchRows
  cases h with
  | same hdb _ => rw [hdb]
  | enqueue hr _ _ _ =>
    have hnew : ∀ {o : Option String} {n : ℕ} {ss : List Sample},
        (newRows c o n ss).filter (fun x => x.2.inBatch id) = [] := by
      intro o n ss
      rw [List.filter_eq_nil_iff]
      intro x hx
      simp [Row.inBatch, (mem_newRows hx).2.2.1]
    unfold Table.select
    rw [hr, List.filter_append, hnew, List.append_nil]
    exact select_dropOldest _ _ _ _
  | @claim maxSize ulid _ _ x _ hx _ hr _ _ _ =>
    simp only [Op.names] at hn
    unfold Table.select
    rw [hr]
    refine filter_changed fun y hy hclaimed => ?_
    obtain ⟨r, hr1, hr2, -⟩ := mem_claimIds hx hclaimed
    have hyr : y.2 = r := b.db.pendingSamples.eq_of_mem hy hr1
    simp [Row.inBatch, Row.setBatch, hn, hyr, hr2]
  | ackOk hp _ _ =>
    simp only [Op.names] at hn
    rw [hp]
    simp only [Table.select, Table.rows_delete, List.filter_filter]
    refine List.filter_congr fun x _ => ?_
    by_cases hx : x.2.batchId = some id <;> simp [Row.inBatch, hx, Ne.symm hn]
  | ackRetry hp _ _ =>
    simp only [Op.names] at hn
    rw [hp]
    unfold Table.select
    rw [Table.rows_update]
    refine filter_changed fun y _ hy => ?_
    rw [Row.inBatch, beq_iff_eq] at hy
    simp [Row.inBatch, Row.setBatch, hy, hn]

end

end Ingest
end LymonAgent
