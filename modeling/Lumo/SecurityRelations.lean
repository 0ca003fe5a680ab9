import Lumo.Builtins
import Lumo.Separators
import Mathlib.Data.Option.Basic
import Mathlib.Data.Set.Basic

/-! # Relation tuples

Tuples `namespace:object#relation@subject`, their keys, and the use cases that write and delete
one. Events, audit records and tenants are not modelled. -/
namespace Security

open SharedKernel Separators

structure RelationTupleProps where
  nameSpace : String
  object : String
  relation : String
  subject : String
  deriving DecidableEq

structure RelationTuple extends RelationTupleProps where
  id : String
  deriving DecidableEq

namespace RelationTupleProps

variable (tuple : RelationTupleProps)

/-- The stable key, by which the surrogate id is ignored. -/
def key : String :=
  tuple.nameSpace ++ ":" ++ tuple.object ++ "#" ++ tuple.relation ++ "@" ++ tuple.subject

end RelationTupleProps

/-- `RelationTuple.parseKey`, by the last `@`, the first `:` and the last `#`. -/
def parseKey (key : String) : Option RelationTupleProps := do
  let (left, subject) ← cutLast '@' key.toList
  guard (left ≠ [])
  let (nameSpace, rest) ← cutFirst ':' left
  guard (nameSpace ≠ [])
  let (object, relation) ← cutLast '#' rest
  guard (object ≠ [] ∧ relation ≠ [] ∧ subject ≠ [])
  return ⟨String.ofList nameSpace, String.ofList object, String.ofList relation,
    String.ofList subject⟩

/-! The repository: one row for each key, the first that was put. -/

def put (tuple : RelationTuple) (table : List RelationTuple) : List RelationTuple :=
  if table.any (·.key == tuple.key) then table else table ++ [tuple]

def remove (key : String) (table : List RelationTuple) : List RelationTuple × Bool :=
  (table.filter (·.key != key), table.any (·.key == key))

/-- `WriteRelationTuple.execute`, which checks nothing. -/
def writeRelationTuple (id : String) (input : RelationTupleProps) (table : List RelationTuple) :
    Except DomainError String × List RelationTuple :=
  (.ok input.key, put ⟨input, id⟩ table)

def deleteRelationTuple (input : RelationTupleProps) (table : List RelationTuple) :
    Except DomainError Bool × List RelationTuple :=
  let (after, removed) := remove input.key table
  (.ok removed, after)

/-- The key can be taken apart again. -/
structure RelationTupleProps.Readable (tuple : RelationTupleProps) : Prop where
  nameSpace : tuple.nameSpace ≠ "" ∧ ':' ∉ tuple.nameSpace.toList
  object : tuple.object ≠ ""
  relation : tuple.relation ≠ "" ∧ '#' ∉ tuple.relation.toList
  subject : tuple.subject ≠ "" ∧ '@' ∉ tuple.subject.toList

section Keys

variable {tuple other : RelationTupleProps}

theorem toList_key : tuple.key.toList = tuple.nameSpace.toList ++ ':' :: (tuple.object.toList ++
    '#' :: (tuple.relation.toList ++ '@' :: tuple.subject.toList)) := by
  simp [RelationTupleProps.key]

theorem toList_key_at : tuple.key.toList = (tuple.nameSpace.toList ++ ':' :: (tuple.object.toList ++
    '#' :: tuple.relation.toList)) ++ '@' :: tuple.subject.toList := by
  rw [toList_key]
  simp

theorem parseKey_key (h : tuple.Readable) : parseKey tuple.key = some tuple := by
  have hat : cutLast '@' tuple.key.toList = some (tuple.nameSpace.toList ++ ':' ::
      (tuple.object.toList ++ '#' :: tuple.relation.toList), tuple.subject.toList) :=
    cutLast_eq_some.mpr ⟨toList_key_at, h.subject.2⟩
  have hcolon : cutFirst ':' (tuple.nameSpace.toList ++ ':' :: (tuple.object.toList ++
      '#' :: tuple.relation.toList)) = some (tuple.nameSpace.toList, tuple.object.toList ++
      '#' :: tuple.relation.toList) := cutFirst_eq_some.mpr ⟨rfl, h.nameSpace.2⟩
  have hhash : cutLast '#' (tuple.object.toList ++ '#' :: tuple.relation.toList) =
      some (tuple.object.toList, tuple.relation.toList) := cutLast_eq_some.mpr ⟨rfl, h.relation.2⟩
  simp [parseKey, hat, hcolon, hhash, h.nameSpace.1, h.object, h.relation.1, h.subject.1]

theorem parseKey_some {key : String} (h : parseKey key = some tuple) :
    tuple.key = key ∧ tuple.Readable := by
  simp only [parseKey, Option.bind_eq_bind, Option.bind_eq_some_iff, Prod.exists,
    Option.guard_eq_some', Option.pure_def, Option.some.injEq, exists_and_left] at h
  obtain ⟨left, subject, hat, _, _, nameSpace, rest, hcolon, _, hnameSpace, object, relation,
    hhash, _, ⟨hobject, hrelation, hsubject⟩, rfl⟩ := h
  obtain ⟨hkey, hsubject'⟩ := cutLast_eq_some.mp hat
  obtain ⟨rfl, hnameSpace'⟩ := cutFirst_eq_some.mp hcolon
  obtain ⟨rfl, hrelation'⟩ := cutLast_eq_some.mp hhash
  refine ⟨String.toList_injective ?_, ?_⟩
  · rw [toList_key_at, hkey]
    simp
  · constructor <;> simp_all

theorem parseKey_key_iff : parseKey tuple.key = some tuple ↔ tuple.Readable :=
  ⟨fun h => (parseKey_some h).2, parseKey_key⟩

theorem key_injective (h : tuple.Readable) (h' : other.Readable) (hkey : tuple.key = other.key) :
    tuple = other := by
  have hread := parseKey_key h
  rw [hkey, parseKey_key h'] at hread
  exact (Option.some.inj hread).symm

end Keys

/-- A use case answers with a key whatever is stored. -/
def Accepted (input : RelationTupleProps) : Prop :=
  ∀ id table, ∃ key, (writeRelationTuple id input table).1 = .ok key

/-- Accepted tuples are read back of their keys and told apart by them. -/
structure KeysTell (inputs : Set RelationTupleProps) : Prop where
  readBack : ∀ tuple ∈ inputs, Accepted tuple → parseKey tuple.key = some tuple
  apart : ∀ tuple ∈ inputs, ∀ other ∈ inputs, Accepted tuple → Accepted other →
    tuple.key = other.key → tuple = other

theorem accepted (input : RelationTupleProps) : Accepted input := fun _ _ => ⟨_, rfl⟩

theorem keysTell_iff (inputs : Set RelationTupleProps) :
    KeysTell inputs ↔ ∀ tuple ∈ inputs, tuple.Readable := by
  constructor
  · intro h tuple htuple
    exact parseKey_key_iff.mp (h.readBack tuple htuple (accepted tuple))
  · intro h
    constructor
    · intro tuple htuple _
      exact parseKey_key (h tuple htuple)
    · intro tuple htuple other hother _ _ hkey
      exact key_injective (h tuple htuple) (h other hother) hkey

def addressed : RelationTupleProps := ⟨"permissions", "doc:1", "viewer", "alice@example.com"⟩

theorem addressed_misread : ¬ KeysTell {addressed} := by
  intro h
  have hread := h.readBack addressed rfl (accepted addressed)
  revert hread
  decide +kernel

inductive RelationCall where
  | write (id : String) (input : RelationTupleProps)
  | delete (input : RelationTupleProps)

def RelationCall.perform (table : List RelationTuple) : RelationCall → List RelationTuple
  | .write id input => (writeRelationTuple id input table).2
  | .delete input => (deleteRelationTuple input table).2

/-- The keys that hold: those written and not deleted since. -/
def RelationCall.hold (keys : Set String) : RelationCall → Set String
  | .write _ input => insert input.key keys
  | .delete input => keys \ {input.key}

/-- The table has one row for each key that holds, and a deletion says whether there was one. -/
structure Stores (table : List RelationTuple) (keys : Set String) : Prop where
  once : (table.map (·.key)).Nodup
  mem : ∀ key, (∃ tuple ∈ table, tuple.key = key) ↔ key ∈ keys
  deletes : ∀ input, (deleteRelationTuple input table).1 = .ok true ↔ input.key ∈ keys

theorem stores_of {table : List RelationTuple} {keys : Set String}
    (once : (table.map (·.key)).Nodup) (mem : ∀ key, (∃ tuple ∈ table, tuple.key = key) ↔ key ∈ keys) :
    Stores table keys := by
  refine ⟨once, mem, ?_⟩
  intro input
  simp [deleteRelationTuple, remove, ← mem]

theorem Stores.perform {table : List RelationTuple} {keys : Set String} (h : Stores table keys)
    (call : RelationCall) : Stores (call.perform table) (call.hold keys) := by
  cases call with
  | write id input =>
    rw [RelationCall.perform, RelationCall.hold, writeRelationTuple, put]
    by_cases hheld : input.key ∈ keys
    · rw [if_pos (by simpa [← h.mem] using hheld), Set.insert_eq_of_mem hheld]
      exact h
    · have hnew : ∀ tuple ∈ table, tuple.key ≠ input.key := by
        intro tuple htuple hkey
        exact hheld ((h.mem _).mp ⟨tuple, htuple, hkey⟩)
      rw [if_neg (by simpa using hnew)]
      apply stores_of
      · simpa [List.nodup_append, h.once] using hnew
      · intro key
        rw [Set.mem_insert_iff, ← h.mem]
        simp [or_and_right, exists_or, or_comm, eq_comm]
  | delete input =>
    apply stores_of
    · exact h.once.sublist (List.filter_sublist.map _)
    · intro key
      rw [RelationCall.hold, Set.mem_sdiff, ← h.mem]
      constructor
      · rintro ⟨tuple, htuple, rfl⟩
        obtain ⟨hmem, hne⟩ := List.mem_filter.mp htuple
        exact ⟨⟨tuple, hmem, rfl⟩, by simpa using hne⟩
      · rintro ⟨⟨tuple, htuple, rfl⟩, hne⟩
        exact ⟨tuple, List.mem_filter.mpr ⟨htuple, by simpa using hne⟩, rfl⟩

/-- Along every run of writes and deletions from an empty table. -/
theorem run_stores (calls : List RelationCall) :
    Stores (calls.foldl RelationCall.perform []) (calls.foldl RelationCall.hold ∅) := by
  have hrun : ∀ table keys, Stores table keys →
      Stores (calls.foldl RelationCall.perform table) (calls.foldl RelationCall.hold keys) := by
    induction calls with
    | nil => exact fun _ _ h => h
    | cons call later ih => exact fun _ _ h => ih _ _ (h.perform call)
  exact hrun _ _ (stores_of List.nodup_nil (by simp))

end Security
