import ServiceRegistry.Error
import ServiceRegistry.Text.Parts

/-!
# Service keys

A service is known by the root it lives under and its name. Its key in the store is `root/name`, and
the keys of its instances lie in the directory `root/name/`. A name is neither empty nor holds a
slash, so `text_inj` gets root and name back from the key. Services are ordered by their keys.
-/
namespace ServiceRegistry

/-- The identity of a named service under a root. -/
structure ServiceKey where
  root : String
  name : String
  name_ne_empty : name ≠ ""
  slash_not_mem_name : '/' ∉ name.toList
  deriving DecidableEq

namespace ServiceKey

/-- The key of the service `name` under `root`, if the name is one. -/
def make (root name : String) : Except Error ServiceKey :=
  if h : name ≠ "" ∧ '/' ∉ name.toList then .ok ⟨root, name, h.1, h.2⟩
  else .error (.invalidServiceName name)

/-- The key as it stands in the store. -/
def text (key : ServiceKey) : String := key.root ++ "/" ++ key.name

/-- What the keys of all instances of the service start with. -/
def directory (key : ServiceKey) : String := key.text ++ "/"

instance : Hashable ServiceKey := ⟨fun key => hash key.text⟩

/-- A key is made of a name just if the name is neither empty nor holds a slash. -/
theorem make_eq_ok_iff {root name : String} {key : ServiceKey} :
    make root name = .ok key ↔ key.root = root ∧ key.name = name := by
  rcases key with ⟨root', name', hne, hslash⟩
  simp only [make]
  split
  · simp only [Except.ok.injEq, mk.injEq, eq_comm]
  · rename_i h
    simp only [reduceCtorEq, false_iff, not_and]
    rintro rfl rfl
    exact h ⟨hne, hslash⟩

theorem toList_text (key : ServiceKey) : key.text.toList = key.root.toList ++ '/' :: key.name.toList := by
  simp [text, String.toList_append]

/-- The key of a service determines its root and its name. -/
theorem text_inj {a b : ServiceKey} : a.text = b.text ↔ a = b := by
  constructor
  · intro h
    have hl := congrArg String.toList h
    rw [toList_text, toList_text] at hl
    have ha := Text.cutLast_append a.root.toList a.slash_not_mem_name
    rw [hl, Text.cutLast_append b.root.toList b.slash_not_mem_name] at ha
    simp only [Option.some.injEq, Prod.mk.injEq, String.toList_inj] at ha
    cases a; cases b
    simp_all
  · rintro rfl
    rfl

/-- The order of services is that of their keys, character by character. -/
def order (a b : ServiceKey) : Ordering := compareOfLessAndEq a.text b.text

/-- Puts a service into its place in a strictly increasing list, unless it is there already. -/
def insertSorted (key : ServiceKey) : List ServiceKey → List ServiceKey
  | [] => [key]
  | other :: rest =>
    if key.text < other.text then key :: other :: rest
    else if key = other then other :: rest
    else other :: insertSorted key rest

/-- The distinct services of a list in increasing order. -/
def sorted (keys : List ServiceKey) : List ServiceKey := keys.foldr insertSorted []

theorem mem_insertSorted {key other : ServiceKey} {keys : List ServiceKey} :
    other ∈ insertSorted key keys ↔ other = key ∨ other ∈ keys := by
  induction keys with
  | nil => simp [insertSorted]
  | cons first rest ih =>
    simp only [insertSorted]
    split
    · simp
    · split
      · rename_i h
        subst h
        simp
      · simp only [List.mem_cons, ih]
        exact or_left_comm

theorem mem_sorted {key : ServiceKey} {keys : List ServiceKey} : key ∈ sorted keys ↔ key ∈ keys := by
  induction keys with
  | nil => simp [sorted]
  | cons first rest ih =>
    rw [sorted, List.foldr_cons, mem_insertSorted, List.mem_cons, ← ih]
    rfl

theorem pairwise_insertSorted {key : ServiceKey} {keys : List ServiceKey}
    (h : keys.Pairwise (·.text < ·.text)) : (insertSorted key keys).Pairwise (·.text < ·.text) := by
  induction keys with
  | nil => simp [insertSorted]
  | cons first rest ih =>
    obtain ⟨hfirst, hrest⟩ := List.pairwise_cons.1 h
    simp only [insertSorted]
    split
    · rename_i hlt
      refine List.pairwise_cons.2 ⟨fun other hmem => ?_, h⟩
      rcases List.mem_cons.1 hmem with rfl | hmem
      · exact hlt
      · exact String.lt_trans hlt (hfirst other hmem)
    · split
      · exact h
      · rename_i hlt hne
        refine List.pairwise_cons.2 ⟨fun other hmem => ?_, ih hrest⟩
        rcases mem_insertSorted.1 hmem with rfl | hmem
        · exact String.not_le.1 fun hle =>
            hne (text_inj.1 (String.le_antisymm hle (String.not_lt.1 hlt)))
        · exact hfirst other hmem

/-- The services come in strictly increasing order. -/
theorem pairwise_sorted (keys : List ServiceKey) : (sorted keys).Pairwise (·.text < ·.text) := by
  induction keys with
  | nil => simp [sorted]
  | cons first rest ih => exact pairwise_insertSorted ih

end ServiceKey

end ServiceRegistry
