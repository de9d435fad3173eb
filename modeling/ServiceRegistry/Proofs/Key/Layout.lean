import ServiceRegistry.Proofs.Store.Addresses

/-!
# The layout of endpoint keys

A key of the store is that of an instance under a root if behind the root and a slash it has two segments
with a slash between them. The last of them is cut off from the right and the root from the left, and
since no segment holds a slash both cuts fall where the key was put together. So a key is read under one
root at most, and the instances that are read are told apart by their keys. Only the name of a service is
checked when a key is made: the key of a host with a slash is made all the same, and not read back.
-/
namespace ServiceRegistry

namespace Text

/-- The text is one step of a path. -/
def IsSegment (text : String) : Prop := text ≠ "" ∧ '/' ∉ text.toList

instance (text : String) : Decidable (IsSegment text) := inferInstanceAs (Decidable (_ ∧ _))

end Text

theorem ServiceKey.isSegment_name (key : ServiceKey) : Text.IsSegment key.name :=
  ⟨key.name_ne_empty, key.slash_not_mem_name⟩

namespace EndpointKey

/-- The key lies two steps below the root. -/
def LiesAt (root name address key : String) : Prop :=
  Text.IsSegment name ∧ Text.IsSegment address ∧ key = root ++ "/" ++ name ++ "/" ++ address

instance (root name address key : String) : Decidable (LiesAt root name address key) :=
  inferInstanceAs (Decidable (_ ∧ _ ∧ _))

/-- Keys whose addresses hold no slash are told apart by their texts. -/
theorem text_inj {a b : EndpointKey} (ha : '/' ∉ a.address.toList) (hb : '/' ∉ b.address.toList) :
    a.text = b.text ↔ a = b := by
  constructor
  · intro h
    have hcut := Text.cutLast_append a.service.text.toList ha
    rw [← toList_text, h, toList_text, Text.cutLast_append _ hb] at hcut
    simp only [Option.some.injEq, Prod.mk.injEq, String.toList_inj] at hcut
    obtain ⟨hservice, haddress⟩ := hcut
    cases a
    cases b
    simp_all [ServiceKey.text_inj]
  · rintro rfl
    rfl

theorem address_ne_empty_of_parse {root text : String} {key : EndpointKey}
    (h : parse root text = .ok key) : key.address ≠ "" := by
  unfold parse at h
  split at h
  · cases h
  · split at h
    · split at h
      · rename_i hparts
        cases h
        simpa using hparts.2.2
      · cases h
    · cases h

/-- An instance is read just from its own key, under its own root, and if its address is a segment. -/
theorem parse_eq_ok_iff {root text : String} {key : EndpointKey} : parse root text = .ok key ↔
    key.service.root = root ∧ text = key.text ∧ Text.IsSegment key.address := by
  constructor
  · intro h
    obtain ⟨htext, hslash⟩ := eq_text_of_parse h
    exact ⟨(text_of_parse h).1, htext, address_ne_empty_of_parse h, hslash⟩
  · rintro ⟨rfl, rfl, hempty, hslash⟩
    exact parse_text hslash hempty

/-- A key that is read as no instance is reported. -/
theorem parse_eq_error_iff {root text : String} :
    parse root text = .error (.malformedKey text) ↔ ∀ key, parse root text ≠ .ok key := by
  cases h : parse root text with
  | ok key => simp
  | error e => simp [parse_eq_error h]

theorem liesAt_of_parse {root text : String} {key : EndpointKey} (h : parse root text = .ok key) :
    LiesAt root key.service.name key.address text := by
  obtain ⟨rfl, rfl, haddress⟩ := parse_eq_ok_iff.1 h
  exact ⟨key.service.isSegment_name, haddress, rfl⟩

theorem LiesAt.parse {root name address text : String} (h : LiesAt root name address text) :
    ∃ key, EndpointKey.parse root text = .ok key ∧ key.service.text = root ++ "/" ++ name ∧
      key.address = address ∧ key.text = text := by
  obtain ⟨hname, haddress, rfl⟩ := h
  exact ⟨⟨⟨root, name, hname.1, hname.2⟩, address⟩, parse_eq_ok_iff.2 ⟨rfl, rfl, haddress⟩, rfl, rfl, rfl⟩

-- a root that ends in a slash has keys with two slashes behind one another
example : LiesAt "a/" "b" "c" "a//b/c" := by decide

/-- What is read from two keys is the same just if the keys are. -/
theorem eq_iff_of_parse {root other text further : String} {a b : EndpointKey}
    (ha : parse root text = .ok a) (hb : parse other further = .ok b) : a = b ↔ a.text = b.text :=
  (text_inj (eq_text_of_parse ha).2 (eq_text_of_parse hb).2).symm

/-- A key is read under one root at most. -/
theorem root_eq_of_parse {root other text : String} {a b : EndpointKey}
    (ha : parse root text = .ok a) (hb : parse other text = .ok b) : other = root := by
  obtain ⟨rfl, htext, -⟩ := parse_eq_ok_iff.1 ha
  obtain ⟨rfl, hsame, -⟩ := parse_eq_ok_iff.1 hb
  rw [(eq_iff_of_parse ha hb).2 (htext.symm.trans hsame)]

/-- Behind its root a key that is read as an instance has one slash, so no key is read if its address holds
another. -/
theorem slash_not_mem_of_parse {key found : EndpointKey}
    (h : parse key.service.root key.text = .ok found) : '/' ∉ key.address.toList := by
  obtain ⟨hroot, htext, -, hfound⟩ := parse_eq_ok_iff.1 h
  have hlist := congrArg String.toList htext
  rw [toList_text, toList_text, ServiceKey.toList_text, ServiceKey.toList_text, hroot, List.append_assoc,
    List.append_assoc, List.append_cancel_left_eq] at hlist
  have hcount := congrArg (List.count '/') hlist
  simp only [List.cons_append, List.count_cons_self, List.count_append,
    List.count_eq_zero.2 key.service.slash_not_mem_name,
    List.count_eq_zero.2 found.service.slash_not_mem_name, List.count_eq_zero.2 hfound] at hcount
  exact List.count_eq_zero.1 (by omega)

/-- Rows with a key that is read as no instance contribute nothing to a scan. -/
theorem ofRows_filter {root text : String} (h : ∀ key, parse root text ≠ .ok key) (rows : List Row) :
    ofRows root (rows.filter fun row => row.key ≠ text) = ofRows root rows := by
  have hnone : (parse root text).toOption = none := by
    rw [parse_eq_error_iff.2 h]
    rfl
  unfold ofRows
  rw [List.filterMap_filter]
  refine List.filterMap_congr fun row _ => ?_
  by_cases hrow : row.key = text
  · simp [hrow, hnone]
  · simp [hrow]

end EndpointKey

/-- Under a root just those keys are read that lie two steps below it. What is read has the service and the
address of the two steps and is written as the key again, and every other key is reported. No key is read
under two roots, and what is read from any two keys, under whatever roots, is the same just if it is written
in the same way, which is so just if the services are written in the same way and the addresses are the
same. -/
theorem parse_accepts_layout (root key : String) :
    ((∃ endpoint, EndpointKey.parse root key = .ok endpoint) ↔
      ∃ name address, EndpointKey.LiesAt root name address key) ∧
    (∀ name address, EndpointKey.LiesAt root name address key →
      ∃ endpoint, EndpointKey.parse root key = .ok endpoint ∧
        endpoint.service.text = root ++ "/" ++ name ∧ endpoint.address = address ∧
        endpoint.text = key) ∧
    ((¬ ∃ name address, EndpointKey.LiesAt root name address key) →
      EndpointKey.parse root key = .error (.malformedKey key)) ∧
    (∀ other a b, EndpointKey.parse root key = .ok a → EndpointKey.parse other key = .ok b →
      other = root) ∧
    ∀ other text a b, EndpointKey.parse root key = .ok a → EndpointKey.parse other text = .ok b →
      (a = b ↔ a.text = b.text) ∧
      (a.service.text = b.service.text ∧ a.address = b.address ↔ a.text = b.text) := by
  refine ⟨⟨?_, ?_⟩, fun name address hlies => hlies.parse, ?_, fun other a b => EndpointKey.root_eq_of_parse,
    fun other text a b ha hb => ⟨EndpointKey.eq_iff_of_parse ha hb, ?_, ?_⟩⟩
  · rintro ⟨endpoint, hparse⟩
    exact ⟨_, _, EndpointKey.liesAt_of_parse hparse⟩
  · rintro ⟨name, address, hlies⟩
    obtain ⟨endpoint, hparse, -⟩ := hlies.parse
    exact ⟨endpoint, hparse⟩
  · intro hnone
    refine EndpointKey.parse_eq_error_iff.2 fun endpoint hparse => hnone ?_
    exact ⟨_, _, EndpointKey.liesAt_of_parse hparse⟩
  · rintro ⟨hservice, haddress⟩
    rw [EndpointKey.text, EndpointKey.text, hservice, haddress]
  · intro htext
    obtain rfl := (EndpointKey.eq_iff_of_parse ha hb).2 htext
    exact ⟨rfl, rfl⟩

/-- The key of a host that could be made is read as it was written just if the host holds no slash, and then
under no other root. The key of a host with a slash is reported under its root, and no scan finds an
instance in it. -/
theorem parse_undoes_make {root service host : String} {port : Nat} {key : EndpointKey}
    (hkey : EndpointKey.make root service host port = .ok key) :
    (EndpointKey.parse root key.text = .ok key ↔ '/' ∉ host.toList) ∧
    ('/' ∉ host.toList → ∀ other, other ≠ root →
      EndpointKey.parse other key.text = .error (.malformedKey key.text)) ∧
    ('/' ∈ host.toList → EndpointKey.parse root key.text = .error (.malformedKey key.text) ∧
      ∀ rows, EndpointKey.ofRows root (rows.filter fun row => row.key ≠ key.text) =
        EndpointKey.ofRows root rows) := by
  have hread := EndpointKey.parse_text_iff hkey
  refine ⟨hread, fun hslash other hother => ?_, fun hslash => ?_⟩
  · refine EndpointKey.parse_eq_error_iff.2 fun found hfound => hother ?_
    exact EndpointKey.root_eq_of_parse (hread.2 hslash) hfound
  · obtain ⟨name, hname, rfl⟩ := of_map_ok hkey
    obtain rfl : name.root = root := (ServiceKey.make_eq_ok_iff.1 hname).1
    have hunread : ∀ found, EndpointKey.parse name.root
        (EndpointKey.text ⟨name, EndpointKey.addressOf host port⟩) ≠ .ok found :=
      fun found hfound => EndpointKey.slash_not_mem_of_parse hfound (EndpointKey.slash_mem_addressOf.2 hslash)
    exact ⟨EndpointKey.parse_eq_error_iff.2 hunread, EndpointKey.ofRows_filter hunread⟩

/-- A host with a slash makes a key that is reported under its root. It lies under another root, as an
instance of another service. -/
theorem parse_undoes_make_slashed :
    EndpointKey.make "svc" "chat" "a/b" 1 =
        .ok ⟨⟨"svc", "chat", by decide, by decide⟩, "a/b:1"⟩ ∧
      EndpointKey.parse "svc" "svc/chat/a/b:1" = .error (.malformedKey "svc/chat/a/b:1") ∧
      EndpointKey.parse "svc/chat" "svc/chat/a/b:1" =
        .ok ⟨⟨"svc/chat", "a", by decide, by decide⟩, "b:1"⟩ := by
  have hmade : EndpointKey.make "svc" "chat" "a/b" 1 =
      .ok ⟨⟨"svc", "chat", by decide, by decide⟩, "a/b:1"⟩ := by decide +kernel
  exact ⟨hmade, ((parse_undoes_make hmade).2.2 (by decide)).1, by decide +kernel⟩

end ServiceRegistry
