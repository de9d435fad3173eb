import ServiceRegistry.Proofs.Store.Instances
import ServiceRegistry.Proofs.Text.Bytes

/-!
# Reading a directory

A directory is any text, also the empty one or one that ends in the middle of a name. It is read from
the first key that is not before it up to the first key that does not continue it. The keys are ordered
by their bytes, in which those that continue a text stand together behind it, so this finds all of them.
-/
namespace ServiceRegistry

namespace Keyspace

theorem startsWith_eq_isPrefixOf_bytes (directory key : String) :
    Text.startsWith directory key = (Text.bytes directory).isPrefixOf (Text.bytes key) := by
  rw [Bool.eq_iff_iff, Text.startsWith_iff, List.isPrefixOf_iff_prefix, Text.bytes_prefix_bytes_iff]

/-- What is read of a directory, with keys that are compared and cut as bytes. -/
theorem under_eq_bytes (ks : Keyspace) (directory : String) :
    ks.under directory =
      (ks.rows.dropWhile fun row => Text.bytes row.1 < Text.bytes directory).takeWhile
        fun row => (Text.bytes directory).isPrefixOf (Text.bytes row.1) := by
  simp only [under, startsWith_eq_isPrefixOf_bytes, Text.bytes_lt_bytes_iff]

end Keyspace

namespace Store

variable (store : Store) (directory : String)

theorem mem_rows_iff {row : Row} : row ∈ store.rows directory ↔
    Text.startsWith directory row.key = true ∧
      (store.content.get? row.key).map (·.value) = some row.value := by
  unfold rows
  rw [Keyspace.under_eq_filter, List.mem_map]
  constructor
  · rintro ⟨⟨key, record⟩, hmem, rfl⟩
    obtain ⟨hmem, hstarts⟩ := List.mem_filter.1 hmem
    exact ⟨hstarts, by rw [Keyspace.get?_of_mem hmem]; rfl⟩
  · rintro ⟨hstarts, hvalue⟩
    obtain ⟨record, hrecord, hvalue⟩ := Option.map_eq_some_iff.1 hvalue
    refine ⟨(row.key, record), List.mem_filter.2 ⟨Keyspace.mem_of_get? hrecord, hstarts⟩, ?_⟩
    rw [hvalue]

theorem rows_increasing : (store.rows directory).Pairwise (·.key < ·.key) := by
  rw [rows, Keyspace.under_eq_filter, List.pairwise_map]
  exact store.content.increasing.filter _

/-- A store that answers lists of a directory just the keys whose bytes continue it, with the values that
are read for them one by one, in strictly increasing order of their bytes. To start at the directory and
to stop at the first key that does not continue it is to test all keys. -/
theorem directory_read_exactly (hanswers : store.check = .ok ()) :
    ∃ rows, store.getPrefix directory = .ok (rows, { store with scans := store.scans + 1 }) ∧
      (∀ row, row ∈ rows ↔
        Text.bytes directory <+: Text.bytes row.key ∧ store.get row.key = .ok (some row)) ∧
      rows.Pairwise (fun first second => Text.bytes first.key < Text.bytes second.key) ∧
      ((store.content.rows.dropWhile fun row => Text.bytes row.1 < Text.bytes directory).takeWhile
          fun row => (Text.bytes directory).isPrefixOf (Text.bytes row.1)) =
        (store.content.rows.filter
          fun row => (Text.bytes directory).isPrefixOf (Text.bytes row.1)) ∧
      rows = (store.content.rows.filter
        fun row => (Text.bytes directory).isPrefixOf (Text.bytes row.1)).map
          fun row => ⟨row.1, row.2.value⟩ := by
  have hfilter : store.content.under directory = store.content.rows.filter
      fun row => (Text.bytes directory).isPrefixOf (Text.bytes row.1) := by
    simp only [Keyspace.under_eq_filter, Keyspace.startsWith_eq_isPrefixOf_bytes]
  refine ⟨store.rows directory, ?_, fun row => ?_, ?_, ?_, ?_⟩
  · simp only [getPrefix, hanswers]
    rfl
  · have hget : store.get row.key = .ok (some row) ↔
        (store.content.get? row.key).map (·.value) = some row.value := by
      have hanswer : store.get row.key =
          .ok ((store.content.get? row.key).map fun record => ⟨row.key, record.value⟩) := by
        simp only [get, hanswers]
        rfl
      rw [hanswer, Except.ok.injEq]
      cases store.content.get? row.key with
      | none => simp
      | some record =>
        obtain ⟨key, value⟩ := row
        simp
    rw [mem_rows_iff, Text.startsWith_iff, hget, Text.bytes_prefix_bytes_iff]
  · exact (store.rows_increasing directory).imp Text.bytes_lt_bytes_iff.2
  · rw [← Keyspace.under_eq_bytes, hfilter]
  · rw [rows, hfilter]

/-- Texts beyond ASCII are no exception, also those that other encodings put into another order. -/
theorem directory_read_exactly_beyond_ascii :
    let content := (((Keyspace.empty.insert "café😀" ⟨"a", none⟩).insert "caféｎ" ⟨"b", none⟩).insert
      "cafê" ⟨"c", none⟩).insert "café" ⟨"d", none⟩
    let store : Store := { Store.empty with content }
    store.check = .ok () ∧ store.keys = ["café", "caféｎ", "café😀", "cafê"] ∧
      ∃ rows, store.getPrefix "café" = .ok (rows, { store with scans := 1 }) ∧
        rows = [⟨"café", "d"⟩, ⟨"caféｎ", "b"⟩, ⟨"café😀", "a"⟩] ∧
        ∀ row, row ∈ rows ↔
          Text.bytes "café" <+: Text.bytes row.key ∧ store.get row.key = .ok (some row) := by
  intro content store
  have hrows : store.rows "café" = [⟨"café", "d"⟩, ⟨"caféｎ", "b"⟩, ⟨"café😀", "a"⟩] := by decide +kernel
  obtain ⟨rows, hread, hmem, -⟩ := directory_read_exactly store "café" rfl
  have hlisted : rows = store.rows "café" := by
    cases hread
    rfl
  exact ⟨rfl, by decide +kernel, rows, hread, hlisted.trans hrows, hmem⟩

end Store

end ServiceRegistry
