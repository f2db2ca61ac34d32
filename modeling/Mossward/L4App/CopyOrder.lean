import Mathlib.Data.String.Basic
import Mossward.Core.Layers

/-!
# In which order tables are copied

Before data is copied from SQLite to PostgreSQL, the tables of both are ordered by
their foreign keys: `internal/datamigration/preflight.go:93-177` and
`destination_schema.go:93-134`. Go iterates over maps in any order: the iterations
of one call are a parameter, and list the tables.

Result: `copy_order_respects_keys`.
-/
namespace Mossward.L4.CopyOrder

open Layers
open Relation (TransGen)

inductive CopyError
  | missingTable (table dependency : String)
  | nilMap              -- a reference from a table that is not copied
  | cyclic
deriving DecidableEq

section
variable (iteration : Nat → List String)

/-- The loop that both functions end with. -/
def orderTables (required : String → List String) (tables : List String) : Except CopyError (List String) :=
  match rounds required tables.length iteration 1 [] with
  | some order => .ok order
  | none => .error .cyclic

def copied (tableNames excluded : List String) : List String := tableNames.filter (· ∉ excluded)

def sqliteRequired (excluded : List String) (foreignKeys : String → List String) (name : String) : List String :=
  (foreignKeys name).filter fun dependency => dependency ≠ name && dependency ∉ excluded

def sqliteCopyOrder (tableNames excluded : List String) (foreignKeys : String → List String) :
    Except CopyError (List String) :=
  match (iteration 0).findSome? fun name =>
    ((sqliteRequired excluded foreignKeys name).find? (· ∉ tableNames)).map (name, ·) with
  | some (name, dependency) => .error (.missingTable name dependency)
  | none => orderTables iteration (sqliteRequired excluded foreignKeys) (copied tableNames excluded)

/-- A row is a child and its parent. -/
def destinationRequired (rows : List (String × String)) (table : String) : List String :=
  (rows.filter fun r => r.1 = table && r.1 ≠ r.2).map Prod.snd

def destinationCopyOrder (tables : List String) (rows : List (String × String)) : Except CopyError (List String) :=
  if rows.any fun r => r.1 ≠ r.2 && r.1 ∉ tables then .error .nilMap
  else orderTables iteration (destinationRequired rows) tables

end

/-- The result is all tables, each behind those that it references, or fails for a
cycle. -/
structure Respects (tables : List String) (references : String → String → Prop)
    (result : Except CopyError (List String)) : Prop where
  ordered : ∀ order, result = .ok order → order.Perm tables ∧ ∀ x y, references x y → [y, x].Sublist order
  fails : (∃ error, result = .error error) ↔ ∃ x, TransGen references x x

section
variable {iteration iteration' : Nat → List String} {tables : List String} {required : String → List String}

theorem orderTables_respects (hn : tables.Nodup) (hc : ∀ x ∈ tables, ∀ y ∈ required x, y ∈ tables)
    (hi : ∀ i, (iteration i).Perm tables) :
    Respects tables (fun x y => x ∈ tables ∧ y ∈ required x) (orderTables iteration required tables) := by
  unfold orderTables
  rcases rounds_result hn hc hi 1 with ⟨order, hr, hp, ho, ha⟩ | ⟨hr, hcyc⟩
  · rw [hr]
    refine ⟨fun order' h => ?_, iff_of_false (by simp) ha⟩
    cases h
    exact ⟨hp, fun x y hxy => ho.behind x (hp.mem_iff.mpr hxy.1) y hxy.2⟩
  · rw [hr]
    exact ⟨fun order h => (by cases h), iff_of_true ⟨_, rfl⟩ hcyc⟩

theorem orderTables_congr (hi : ∀ i, (iteration i).Perm (iteration' i)) :
    orderTables iteration required tables = orderTables iteration' required tables := by
  unfold orderTables
  rw [rounds_congr _ hi]

variable {tableNames excluded : List String} {foreignKeys : String → List String} {rows : List (String × String)}

theorem mem_sqliteRequired {x y : String} :
    y ∈ sqliteRequired excluded foreignKeys x ↔ y ∈ foreignKeys x ∧ y ≠ x ∧ y ∉ excluded := by
  simp [sqliteRequired]

/-- No key leads out of the source, so the check before the rounds passes. -/
theorem sqliteCopyOrder_eq (hk : ∀ x ∈ copied tableNames excluded, ∀ y ∈ foreignKeys x, y ∈ tableNames)
    (hi : (iteration 0).Perm (copied tableNames excluded)) :
    sqliteCopyOrder iteration tableNames excluded foreignKeys =
      orderTables iteration (sqliteRequired excluded foreignKeys) (copied tableNames excluded) := by
  unfold sqliteCopyOrder
  rw [List.findSome?_eq_none_iff.mpr]
  intro name hname
  simp only [Option.map_eq_none_iff, List.find?_eq_none, decide_eq_true_eq, not_not]
  exact fun y hy => hk name (hi.mem_iff.mp hname) y (mem_sqliteRequired.mp hy).1

theorem destinationCopyOrder_eq (hk : ∀ r ∈ rows, r.1 ∈ tables ∧ r.2 ∈ tables) :
    destinationCopyOrder iteration tables rows = orderTables iteration (destinationRequired rows) tables :=
  if_neg (by simpa using fun x y h _ => (hk (x, y) h).1)

end

/-- **Copy orders respect foreign keys.** -/
theorem copy_order_respects_keys :
    (∀ (iteration : Nat → List String) (tableNames excluded : List String) (foreignKeys : String → List String),
      tableNames.Nodup → (∀ i, (iteration i).Perm (copied tableNames excluded)) →
      (∀ x ∈ copied tableNames excluded, ∀ y ∈ foreignKeys x, y ∈ tableNames) →
      Respects (copied tableNames excluded)
        (fun x y => x ∈ copied tableNames excluded ∧ y ∈ foreignKeys x ∧ y ≠ x ∧ y ∉ excluded)
        (sqliteCopyOrder iteration tableNames excluded foreignKeys) ∧
      ∀ iteration', (∀ i, (iteration' i).Perm (copied tableNames excluded)) →
        sqliteCopyOrder iteration' tableNames excluded foreignKeys =
          sqliteCopyOrder iteration tableNames excluded foreignKeys) ∧
    ∀ (iteration : Nat → List String) (tables : List String) (rows : List (String × String)),
      tables.Nodup → (∀ i, (iteration i).Perm tables) → (∀ r ∈ rows, r.1 ∈ tables ∧ r.2 ∈ tables) →
      Respects tables (fun x y => (x, y) ∈ rows ∧ x ≠ y) (destinationCopyOrder iteration tables rows) ∧
      ∀ iteration', (∀ i, (iteration' i).Perm tables) →
        destinationCopyOrder iteration' tables rows = destinationCopyOrder iteration tables rows := by
  constructor
  · intro iteration tableNames excluded foreignKeys hn hi hk
    rw [sqliteCopyOrder_eq hk (hi 0)]
    refine ⟨?_, fun iteration' hi' => ?_⟩
    · simp only [← mem_sqliteRequired]
      refine orderTables_respects (hn.filter _) (fun x hx y hy => ?_) hi
      obtain ⟨hy, -, he⟩ := mem_sqliteRequired.mp hy
      exact List.mem_filter.mpr ⟨hk x hx y hy, decide_eq_true he⟩
    · rw [sqliteCopyOrder_eq hk (hi' 0)]
      exact orderTables_congr fun i => (hi' i).trans (hi i).symm
  · intro iteration tables rows hn hi hk
    have hm : ∀ x y, ((x, y) ∈ rows ∧ x ≠ y) ↔ x ∈ tables ∧ y ∈ destinationRequired rows x := by
      intro x y
      have hx : (x, y) ∈ rows → x ∈ tables := fun h => (hk _ h).1
      simp [destinationRequired]
      tauto
    rw [destinationCopyOrder_eq hk]
    refine ⟨?_, fun iteration' hi' => ?_⟩
    · simp only [hm]
      exact orderTables_respects hn (fun x hx y hy => (hk _ ((hm x y).mpr ⟨hx, hy⟩).1).2) hi
    · rw [destinationCopyOrder_eq hk]
      exact orderTables_congr fun i => (hi' i).trans (hi i).symm

/-- A finding references its scan. -/
theorem copy_order_respects_keys_finding :
    Respects ["findings", "scans"] (fun x y => (x, y) ∈ [("findings", "scans")] ∧ x ≠ y)
      (destinationCopyOrder (fun _ => ["findings", "scans"]) ["findings", "scans"] [("findings", "scans")]) :=
  (copy_order_respects_keys.2 _ _ _ (by decide) (fun _ => .refl _) (by decide)).1

end Mossward.L4.CopyOrder
