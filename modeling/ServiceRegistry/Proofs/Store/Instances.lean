import ServiceRegistry.Dialing
import ServiceRegistry.Proofs.Store.Evolution
import Mathlib.Data.String.Basic

/-!
# Instances in a store

The instances of a service are the keys of the store that can be read under the root and belong to
the service. They all lie in the directory of the service and in that of the root, so a reading of
either directory finds the same ones in the same order. And they are the same in two stores in which
the same keys of the service stand.
-/
namespace ServiceRegistry

/-! ## Directories are ranges of keys -/

namespace Text

/-- Between a text and one that continues it stand only texts that continue it. -/
theorem prefix_of_between {start between text : List Char} (hstart : start <+: text)
    (hfirst : ¬ between < start) (hlast : between < text) : start <+: between := by
  induction start generalizing between text with
  | nil => exact List.nil_prefix
  | cons c start ih =>
    obtain ⟨rest, rfl⟩ := hstart
    cases between with
    | nil => exact absurd (List.nil_lt_cons c start) hfirst
    | cons d between =>
      rw [List.cons_append, List.cons_lt_cons_iff] at hlast
      rw [List.cons_lt_cons_iff, not_or] at hfirst
      obtain ⟨hfirst, htail⟩ := hfirst
      rcases hlast with hlt | ⟨rfl, hlt⟩
      · exact absurd hlt hfirst
      · have hne : ¬ between < start := fun h => htail ⟨rfl, h⟩
        exact (List.cons_prefix_cons).2 ⟨rfl, ih (List.prefix_append _ _) hne hlt⟩

theorem not_lt_of_startsWith {start text : String} (h : startsWith start text = true) :
    ¬ text < start := by
  rw [String.lt_iff]
  exact List.not_lt.2 (startsWith_iff.1 h).le

end Text

namespace Keyspace

theorem takeWhile_eq_filter {directory : String} {rows : List (String × Record)}
    (hrows : rows.Pairwise (·.1 < ·.1)) (hfirst : ∀ row ∈ rows, ¬ row.1 < directory) :
    (rows.takeWhile fun row => Text.startsWith directory row.1) =
      rows.filter fun row => Text.startsWith directory row.1 := by
  induction rows with
  | nil => rfl
  | cons row rows ih =>
    obtain ⟨hrow, hrows⟩ := List.pairwise_cons.1 hrows
    by_cases hstarts : Text.startsWith directory row.1 = true
    · simp only [List.takeWhile_cons, List.filter_cons, hstarts, if_true]
      rw [ih hrows fun other hmem => hfirst other (List.mem_cons_of_mem _ hmem)]
    · simp only [List.takeWhile_cons, List.filter_cons, hstarts, if_false, Bool.false_eq_true]
      rw [eq_comm, List.filter_eq_nil_iff]
      intro other hmem hother
      have hbetween := Text.prefix_of_between (Text.startsWith_iff.1 hother)
        (hfirst row List.mem_cons_self) (hrow other hmem)
      exact hstarts (Text.startsWith_iff.2 hbetween)

/-- What is read of a directory are the rows whose keys start with it. -/
theorem under_eq_filter (ks : Keyspace) (directory : String) :
    ks.under directory = ks.rows.filter fun row => Text.startsWith directory row.1 := by
  unfold under
  have hrows := ks.increasing
  generalize ks.rows = rows at hrows
  induction rows with
  | nil => rfl
  | cons row rows ih =>
    obtain ⟨hrow, hrest⟩ := List.pairwise_cons.1 hrows
    by_cases hlt : row.1 < directory
    · have hnot : ¬ Text.startsWith directory row.1 = true :=
        fun h => Text.not_lt_of_startsWith h hlt
      rw [List.dropWhile_cons_of_pos (by simpa using hlt), ih hrest]
      simp only [List.filter_cons, hnot, if_false, Bool.false_eq_true]
    · rw [List.dropWhile_cons_of_neg (by simpa using hlt)]
      refine takeWhile_eq_filter hrows fun other hmem hother => ?_
      rcases List.mem_cons.1 hmem with rfl | hmem
      · exact hlt hother
      · exact hlt (String.lt_trans (hrow other hmem) hother)

end Keyspace

/-! ## Keys of instances -/

namespace EndpointKey

/-- A key that can be read lies under the root, in the directory of its service. -/
theorem text_of_parse {root text : String} {key : EndpointKey} (h : parse root text = .ok key) :
    key.service.root = root ∧ text.toList = key.service.directory.toList ++ key.address.toList := by
  unfold parse at h
  split at h
  · cases h
  · rename_i service address hcut
    split at h
    · rename_i name hservice
      split at h
      · cases h
        refine ⟨rfl, ?_⟩
        have hroot := List.append_eq_of_isPrefixOf?_eq_some hservice
        have htext := (Text.eq_of_cutLast hcut).1
        rw [← hroot] at htext
        simp [htext, ServiceKey.directory, ServiceKey.text, String.toList_append]
      · cases h
    · cases h

theorem startsWith_root_of_parse {root text : String} {key : EndpointKey}
    (h : parse root text = .ok key) : Text.startsWith (root ++ "/") text = true := by
  obtain ⟨rfl, htext⟩ := text_of_parse h
  rw [Text.startsWith_iff, htext]
  exact ⟨key.service.name.toList ++ '/' :: key.address.toList,
    by simp [ServiceKey.directory, ServiceKey.text, String.toList_append]⟩

theorem startsWith_directory_of_parse {root text : String} {key : EndpointKey}
    (h : parse root text = .ok key) : Text.startsWith key.service.directory text = true := by
  rw [Text.startsWith_iff, (text_of_parse h).2]
  exact List.prefix_append _ _

end EndpointKey

/-! ## Instances of a service -/

theorem ServiceKey.instances_instances (service : ServiceKey) (keys : List EndpointKey) :
    service.instances (service.instances keys) = service.instances keys := by
  unfold ServiceKey.instances
  rw [List.filter_filter]
  simp

namespace Store

/-- The instances of a service whose keys stand in the store, in the order of the keys. -/
def instances (store : Store) (root : String) (service : ServiceKey) : List EndpointKey :=
  service.instances (store.keys.filterMap fun key => (EndpointKey.parse root key).toOption)

theorem eq_of_toOption {α β : Type} {x : Except α β} {b : β} (h : x.toOption = some b) :
    x = .ok b := by
  cases x with
  | error a => cases h
  | ok other =>
    cases h
    rfl

/-- A directory in which all keys of the service lie shows all of its instances. -/
theorem instances_rows (store : Store) {root directory : String} {service : ServiceKey}
    (h : ∀ text key, EndpointKey.parse root text = .ok key → key.service = service →
      Text.startsWith directory text = true) :
    service.instances (EndpointKey.ofRows root (store.rows directory)) =
      store.instances root service := by
  unfold instances EndpointKey.ofRows rows keys Keyspace.keys
  rw [Keyspace.under_eq_filter, List.filterMap_map, List.filterMap_map]
  simp only [ServiceKey.instances, Function.comp_def]
  induction store.content.rows with
  | nil => rfl
  | cons row rest ih =>
    by_cases hstarts : Text.startsWith directory row.1 = true
    · simp only [List.filter_cons, hstarts, if_true, List.filterMap_cons]
      cases (EndpointKey.parse root row.1).toOption with
      | none => exact ih
      | some key => simp only [List.filter_cons, ih]
    · simp only [List.filter_cons, hstarts, if_false, Bool.false_eq_true, List.filterMap_cons, ih]
      cases hkey : (EndpointKey.parse root row.1).toOption with
      | none => rfl
      | some key =>
        have hother : key.service ≠ service := by
          intro hservice
          exact hstarts (h row.1 key (eq_of_toOption hkey) hservice)
        simp only [List.filter_cons, hother, decide_false, Bool.false_eq_true, if_false]

/-- Two stores in which the same keys of a service stand have the same instances of it. -/
theorem instances_eq {before after : Store} {root : String} {service : ServiceKey}
    (h : ∀ text key, EndpointKey.parse root text = .ok key → key.service = service →
      (text ∈ after.keys ↔ text ∈ before.keys)) :
    after.instances root service = before.instances root service := by
  -- The keys that belong to the service are the same, in the same order.
  let belongs : String → Bool := fun text =>
    ((EndpointKey.parse root text).toOption.map (·.service)) = some service
  have hcut : ∀ keys : List String,
      service.instances (keys.filterMap fun key => (EndpointKey.parse root key).toOption) =
        (keys.filter belongs).filterMap fun key => (EndpointKey.parse root key).toOption := by
    intro keys
    unfold ServiceKey.instances
    induction keys with
    | nil => rfl
    | cons text keys ih =>
      cases hkey : (EndpointKey.parse root text).toOption with
      | none => simp [belongs, hkey, ih]
      | some key =>
        by_cases hservice : key.service = service
        · simp [belongs, hkey, hservice, ih]
        · simp [belongs, hkey, hservice, ih]
  have hsorted : ∀ store : Store, (store.keys.filter belongs).Pairwise (· < ·) := fun store =>
    (List.pairwise_map.2 store.content.increasing).filter _
  have hkeys : after.keys.filter belongs = before.keys.filter belongs := by
    refine List.Pairwise.eq_of_mem_iff (hsorted after) (hsorted before) fun text => ?_
    rw [List.mem_filter, List.mem_filter]
    refine and_congr_left fun hbelongs => ?_
    obtain ⟨key, hkey, hservice⟩ := Option.map_eq_some_iff.1 (of_decide_eq_true hbelongs)
    exact h text key (eq_of_toOption hkey) hservice
  unfold instances
  rw [hcut, hcut, hkeys]

end Store

end ServiceRegistry
