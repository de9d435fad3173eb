import ServiceRegistry.Store.Lease
import ServiceRegistry.Text.Parts

/-!
# Keyspaces

The content of a store: values by key, some of them attached to a lease. The rows stand in strictly
increasing order of their keys, so a range of keys is read from its first key on and the reading
stops at the first key outside of it. `get?` is the view of a keyspace: `get?_insert` and
`get?_keep` say what a change does to it.
-/
namespace ServiceRegistry

/-- What is stored under a key. -/
structure Record where
  value : String
  lease : Option LeaseId
  deriving DecidableEq, Repr

/-- Values by key, in strictly increasing order of the keys. -/
structure Keyspace where
  rows : List (String × Record)
  increasing : rows.Pairwise (·.1 < ·.1)

namespace Keyspace

def empty : Keyspace := ⟨[], .nil⟩

instance : Inhabited Keyspace := ⟨empty⟩

def keys (ks : Keyspace) : List String := ks.rows.map (·.1)

/-- What is stored under `key`. -/
def get? (ks : Keyspace) (key : String) : Option Record := ks.rows.lookup key

/-- Puts a row into its place, where it replaces the one with the same key. -/
def insertRow (key : String) (record : Record) : List (String × Record) → List (String × Record)
  | [] => [(key, record)]
  | row :: rows =>
    if key < row.1 then (key, record) :: row :: rows
    else if key = row.1 then (key, record) :: rows
    else row :: insertRow key record rows

theorem fst_of_mem_insertRow {key : String} {record : Record} {rows : List (String × Record)}
    {row : String × Record} (h : row ∈ insertRow key record rows) : row.1 = key ∨ row ∈ rows := by
  induction rows with
  | nil => simp_all [insertRow]
  | cons first rows ih =>
    simp only [insertRow] at h
    split at h
    · rcases List.mem_cons.1 h with rfl | h
      · exact .inl rfl
      · exact .inr h
    · split at h
      · rcases List.mem_cons.1 h with rfl | h
        · exact .inl rfl
        · exact .inr (List.mem_cons_of_mem _ h)
      · rcases List.mem_cons.1 h with rfl | h
        · exact .inr List.mem_cons_self
        · exact (ih h).imp_right (List.mem_cons_of_mem _)

theorem pairwise_insertRow {key : String} {record : Record} {rows : List (String × Record)}
    (h : rows.Pairwise (·.1 < ·.1)) : (insertRow key record rows).Pairwise (·.1 < ·.1) := by
  induction rows with
  | nil => simp [insertRow]
  | cons first rows ih =>
    obtain ⟨hfirst, hrows⟩ := List.pairwise_cons.1 h
    simp only [insertRow]
    split
    · rename_i hlt
      refine List.pairwise_cons.2 ⟨fun row hmem => ?_, h⟩
      rcases List.mem_cons.1 hmem with rfl | hmem
      · exact hlt
      · exact String.lt_trans hlt (hfirst row hmem)
    · split
      · rename_i heq
        exact List.pairwise_cons.2 ⟨fun row hmem => heq ▸ hfirst row hmem, hrows⟩
      · rename_i hlt hne
        refine List.pairwise_cons.2 ⟨fun row hmem => ?_, ih hrows⟩
        rcases fst_of_mem_insertRow hmem with heq | hmem
        · exact heq ▸ String.not_le.1 fun hle =>
            hne (String.le_antisymm hle (String.not_lt.1 hlt))
        · exact hfirst row hmem

/-- Stores a record under a key, in place of the one that was there. -/
def insert (ks : Keyspace) (key : String) (record : Record) : Keyspace :=
  ⟨insertRow key record ks.rows, pairwise_insertRow ks.increasing⟩

/-- Keeps the rows for which `p` holds. -/
def keep (ks : Keyspace) (p : String → Record → Bool) : Keyspace :=
  ⟨ks.rows.filter fun row => p row.1 row.2, ks.increasing.filter _⟩

/-- Takes a key away. -/
def erase (ks : Keyspace) (key : String) : Keyspace := ks.keep fun other _ => other ≠ key

/-- The rows whose keys start with `directory`: from the first key that is not before it, as long as
keys start with it. -/
def under (ks : Keyspace) (directory : String) : List (String × Record) :=
  (ks.rows.dropWhile fun row => row.1 < directory).takeWhile fun row => Text.startsWith directory row.1

theorem lookup_cons_row {key : String} {row : String × Record} {rows : List (String × Record)} :
    (row :: rows).lookup key = if key = row.1 then some row.2 else rows.lookup key := by
  obtain ⟨other, record⟩ := row
  rw [List.lookup_cons]
  by_cases h : key = other
  · rw [if_pos h, beq_iff_eq.2 h]
  · rw [if_neg h, beq_eq_false_iff_ne.2 h]

theorem lookup_insertRow {key other : String} {record : Record} {rows : List (String × Record)} :
    (insertRow key record rows).lookup other =
      if other = key then some record else rows.lookup other := by
  induction rows with
  | nil => simp [insertRow, lookup_cons_row]
  | cons first rows ih =>
    simp only [insertRow]
    split
    · rw [lookup_cons_row]
    · split
      · rename_i heq
        simp only [lookup_cons_row, heq]
        split <;> rfl
      · rename_i hne
        rw [lookup_cons_row, lookup_cons_row, ih]
        split
        · rename_i heq
          rw [if_neg (heq ▸ Ne.symm hne)]
        · rfl

@[simp] theorem get?_empty (key : String) : empty.get? key = none := rfl

/-- Storing a record changes what stands under its key and nothing else. -/
theorem get?_insert (ks : Keyspace) (key other : String) (record : Record) :
    (ks.insert key record).get? other = if other = key then some record else ks.get? other :=
  lookup_insertRow

theorem lookup_filter {p : String → Record → Bool} {key : String} {rows : List (String × Record)}
    (h : rows.Pairwise (·.1 < ·.1)) :
    (rows.filter fun row => p row.1 row.2).lookup key = (rows.lookup key).filter (p key) := by
  induction rows with
  | nil => rfl
  | cons first rows ih =>
    obtain ⟨hfirst, hrows⟩ := List.pairwise_cons.1 h
    by_cases hk : key = first.1
    · subst hk
      have hnone : rows.lookup first.1 = none :=
        List.lookup_eq_none_iff.2 fun row hmem => by
          simpa using fun heq : first.1 = row.1 => String.lt_irrefl _ (heq ▸ hfirst row hmem)
      cases hp : p first.1 first.2 with
      | true => simp [lookup_cons_row, hp, Option.filter]
      | false => simp [lookup_cons_row, hp, ih hrows, hnone, Option.filter]
    · cases hp : p first.1 first.2 <;> simp [lookup_cons_row, hp, hk, ih hrows]

/-- Of what stands under a key, the kept keyspace holds what passes the test. -/
theorem get?_keep (ks : Keyspace) (p : String → Record → Bool) (key : String) :
    (ks.keep p).get? key = (ks.get? key).filter (p key) := lookup_filter ks.increasing

/-- Taking a key away changes what stands under it and nothing else. -/
theorem get?_erase (ks : Keyspace) (key other : String) :
    (ks.erase key).get? other = if other = key then none else ks.get? other := by
  rw [erase, get?_keep]
  cases ks.get? other <;> by_cases h : other = key <;> simp [Option.filter, h]

/-- A key is listed just if something is stored under it. -/
theorem mem_keys_iff {ks : Keyspace} {key : String} : key ∈ ks.keys ↔ (ks.get? key).isSome := by
  rw [Option.isSome_iff_ne_none, ne_eq, get?, List.lookup_eq_none_iff, keys, List.mem_map]
  constructor
  · rintro ⟨row, hmem, rfl⟩ h
    simpa using h row hmem
  · intro h
    obtain ⟨row, hrow⟩ := Classical.not_forall.1 h
    obtain ⟨hmem, hkey⟩ := Classical.not_imp.1 hrow
    exact ⟨row, hmem, (by simpa using hkey : key = row.1).symm⟩

theorem mem_of_get? {ks : Keyspace} {key : String} {record : Record} (h : ks.get? key = some record) :
    (key, record) ∈ ks.rows := by
  obtain ⟨front, back, hrows, -⟩ := List.lookup_eq_some_iff.1 h
  rw [hrows]
  exact List.mem_append_right _ List.mem_cons_self

/-- No two rows have the same key. -/
theorem get?_of_mem {ks : Keyspace} {row : String × Record} (h : row ∈ ks.rows) :
    ks.get? row.1 = some row.2 := by
  obtain ⟨rows, hrows⟩ := ks
  change row ∈ rows at h
  change rows.lookup row.1 = some row.2
  induction rows with
  | nil => cases h
  | cons first rows ih =>
    obtain ⟨hfirst, hrest⟩ := List.pairwise_cons.1 hrows
    rw [lookup_cons_row]
    rcases List.mem_cons.1 h with rfl | h
    · rw [if_pos rfl]
    · have hne : row.1 ≠ first.1 := fun he => String.lt_irrefl _ (he ▸ hfirst row h)
      rw [if_neg hne, ih hrest h]

end Keyspace

end ServiceRegistry
