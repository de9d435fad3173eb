import ServiceRegistry.Proofs.Store.Instances

/-!
# Instances by address

A key of the store is read back by cutting it at its last slash, so a key whose address holds a slash is
read as that of no instance or of another one. All others are read as they were written: an instance
stands in the list of its service once, if its key stands in the store, and no other instance of the
service has its address. What is found in the store can still be no address to connect to.
-/
namespace ServiceRegistry

namespace Text.Decimal

theorem isDigit_of_value? {acc n : Nat} {cs : List Char} (h : value? acc cs = some n) :
    ∀ c ∈ cs, c.isDigit = true := by
  induction cs generalizing acc with
  | nil => simp
  | cons first cs ih =>
    by_cases hfirst : first.isDigit = true
    · rw [value?, if_pos hfirst] at h
      exact List.forall_mem_cons.2 ⟨hfirst, ih h⟩
    · rw [value?, if_neg hfirst] at h
      cases h

end Text.Decimal

namespace EndpointKey

/-- Whether readers of the store can connect to the port of a host: the key of the instance can be read
back, and its address can be dialed. -/
def isUsable (host : String) (port : Nat) : Bool :=
  !host.toList.contains '/' && (Uri.ofAddress (addressOf host port)).toOption.isSome

theorem isUsable_iff {host : String} {port : Nat} : isUsable host port = true ↔
    '/' ∉ host.toList ∧ (Uri.ofAddress (addressOf host port)).toOption.isSome = true := by
  simp [isUsable]

theorem slash_mem_addressOf {host : String} {port : Nat} :
    '/' ∈ (addressOf host port).toList ↔ '/' ∈ host.toList := by
  have hdigits : '/' ∉ Text.Decimal.digits port := fun hmem =>
    absurd (Text.Decimal.isDigit_of_value? (Text.Decimal.value?_digits port) _ hmem) (by decide)
  simp [addressOf, String.toList_append, hdigits]

theorem addressOf_ne_empty (host : String) (port : Nat) : addressOf host port ≠ "" := by
  intro h
  have hlist := congrArg String.toList h
  simp [addressOf, String.toList_append] at hlist

theorem toList_text (key : EndpointKey) :
    key.text.toList = key.service.text.toList ++ '/' :: key.address.toList := by
  simp [text, String.toList_append]

/-- A key whose address holds no slash is read as it was written. -/
theorem parse_text {key : EndpointKey} (hslash : '/' ∉ key.address.toList) (hempty : key.address ≠ "") :
    parse key.service.root key.text = .ok key := by
  have hroot : key.service.root.toList.isPrefixOf? key.service.text.toList =
      some ('/' :: key.service.name.toList) := by
    rw [ServiceKey.toList_text]
    exact List.isPrefixOf?_eq_some_iff_append_eq.2 rfl
  have hname : key.service.name.toList ≠ [] ∧ '/' ∉ key.service.name.toList ∧ key.address.toList ≠ [] :=
    ⟨by simpa using key.service.name_ne_empty, key.service.slash_not_mem_name, by simpa using hempty⟩
  unfold parse
  rw [toList_text, Text.cutLast_append _ hslash]
  simp only [hroot, hname, ne_eq, not_false_eq_true, and_self, dif_pos, String.ofList_toList]

/-- What is read was written, and its address holds no slash. -/
theorem eq_text_of_parse {root text : String} {key : EndpointKey} (h : parse root text = .ok key) :
    text = key.text ∧ '/' ∉ key.address.toList := by
  constructor
  · have htext := (text_of_parse h).2
    rw [← String.toList_inj, htext, toList_text, ServiceKey.directory, String.toList_append]
    simp
  · unfold parse at h
    split at h
    · cases h
    · rename_i service address hcut
      split at h
      · split at h
        · cases h
          simpa using (Text.eq_of_cutLast hcut).2
        · cases h
      · cases h

/-- Just the key of a host without a slash is read as it was written. -/
theorem parse_text_iff {root service host : String} {port : Nat} {key : EndpointKey}
    (hkey : make root service host port = .ok key) :
    parse root key.text = .ok key ↔ '/' ∉ host.toList := by
  obtain ⟨name, hname, rfl⟩ := of_map_ok hkey
  obtain rfl : name.root = root := (ServiceKey.make_eq_ok_iff.1 hname).1
  rw [← @slash_mem_addressOf host port]
  exact ⟨fun hparse => (eq_text_of_parse hparse).2, fun hslash =>
    parse_text hslash (addressOf_ne_empty host port)⟩

end EndpointKey

namespace Store

variable (store : Store)

/-- An instance is found if its key stands in the store and can be read back. -/
theorem mem_instances_iff {key : EndpointKey} :
    key ∈ store.instances key.service.root key.service ↔
      (store.content.get? key.text).isSome = true ∧
        EndpointKey.parse key.service.root key.text = .ok key := by
  have hread : ∀ text, EndpointKey.parse key.service.root text = .ok key ↔
      text = key.text ∧ EndpointKey.parse key.service.root key.text = .ok key := by
    refine fun text => ⟨fun h => ?_, fun h => h.1 ▸ h.2⟩
    obtain ⟨rfl, -⟩ := EndpointKey.eq_text_of_parse h
    exact ⟨rfl, h⟩
  have hoption : ∀ text, (EndpointKey.parse key.service.root text).toOption = some key ↔
      EndpointKey.parse key.service.root text = .ok key :=
    fun text => ⟨eq_of_toOption, fun h => by rw [h]; rfl⟩
  simp only [instances, ServiceKey.instances, List.mem_filter, List.mem_filterMap, decide_true,
    and_true, hoption, Store.keys, Keyspace.mem_keys_iff]
  constructor
  · rintro ⟨text, hmem, hparse⟩
    obtain ⟨rfl, hparse⟩ := (hread text).1 hparse
    exact ⟨hmem, hparse⟩
  · rintro ⟨hmem, hparse⟩
    exact ⟨key.text, hmem, hparse⟩

/-- No instance is listed twice. -/
theorem nodup_instances (root : String) (service : ServiceKey) :
    (store.instances root service).Nodup := by
  have hkeys : store.keys.Nodup :=
    (List.pairwise_map.2 store.content.increasing).imp fun hlt => ne_of_lt hlt
  refine List.Nodup.filter _ (List.Nodup.filterMap (fun first second key hfirst hsecond => ?_) hkeys)
  have hfirst := (EndpointKey.eq_text_of_parse (eq_of_toOption hfirst)).1
  have hsecond := (EndpointKey.eq_text_of_parse (eq_of_toOption hsecond)).1
  exact hfirst.trans hsecond.symm

/-- Of the instances of a service none but the one itself has its address. -/
theorem count_address_instances (key : EndpointKey) (p : EndpointKey → Bool) :
    (((store.instances key.service.root key.service).filter p).map (·.address)).count key.address =
      if p key = true ∧ key ∈ store.instances key.service.root key.service then 1 else 0 := by
  have hservice : ∀ other ∈ (store.instances key.service.root key.service).filter p,
      other.address = key.address → other = key := by
    intro other hmem haddress
    have hsame : other.service = key.service := by
      simpa using (List.mem_filter.1 (List.mem_filter.1 hmem).1).2
    cases other
    cases key
    simp_all
  have hcount : (((store.instances key.service.root key.service).filter p).map (·.address)).count
      key.address = ((store.instances key.service.root key.service).filter p).count key := by
    rw [List.count, List.countP_map, List.count]
    refine List.countP_congr fun other hmem => ?_
    simp only [Function.comp_apply, beq_iff_eq]
    exact ⟨hservice other hmem, congrArg _⟩
  rw [hcount, ((nodup_instances store _ _).filter p).count]
  exact if_congr (List.mem_filter.trans and_comm) rfl rfl

end Store

end ServiceRegistry
