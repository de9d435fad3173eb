import ServiceRegistry.Proofs.Key.Layout

/-!
# Distinct instances have distinct keys

A key is put together of texts with separators between them, and a root and a host may hold separators of
their own. What was put together can be told all the same, from the side on which a part holds none: a port
holds no colon and so stands behind the last one, a name holds no slash and so ends at the first one behind
the root. Where the root is not known it has to be cut off from the right, which goes well just if the host
holds no slash.
-/
namespace ServiceRegistry

namespace Text

/-- A part without the separator is told from what stands behind it. -/
theorem append_cons_inj {sep : Char} {front other back rest : List Char} (hfront : sep ∉ front)
    (hother : sep ∉ other) :
    front ++ sep :: back = other ++ sep :: rest ↔ front = other ∧ back = rest := by
  constructor
  · intro h
    rcases List.append_eq_append_iff.1 h with ⟨mid, rfl, hmid⟩ | ⟨mid, rfl, hmid⟩
    · cases mid with
      | nil => simpa using hmid
      | cons c mid => simp_all
    · cases mid with
      | nil => simpa [eq_comm] using hmid
      | cons c mid => simp_all
  · rintro ⟨rfl, rfl⟩
    rfl

namespace Decimal

/-- A number is told by its digits. -/
theorem digits_inj {m n : Nat} : digits m = digits n ↔ m = n := by
  constructor
  · intro h
    have hm := value?_digits m
    rw [h, value?_digits] at hm
    exact (Option.some.inj hm).symm
  · rintro rfl
    rfl

theorem colon_not_mem_digits (n : Nat) : ':' ∉ digits n := by
  intro hmem
  have hdigit := isDigit_of_value? (value?_digits n) ':' hmem
  simp at hdigit

end Decimal

end Text

theorem ServiceKey.toList_directory (key : ServiceKey) :
    key.directory.toList = key.root.toList ++ '/' :: (key.name.toList ++ ['/']) := by
  simp [directory, text, String.toList_append]

namespace EndpointKey

/-- An address tells its host and its port, whatever colons the host holds. -/
theorem addressOf_inj {host other : String} {port further : Nat} :
    addressOf host port = addressOf other further ↔ host = other ∧ port = further := by
  constructor
  · intro h
    have hlist := congrArg String.toList h
    simp only [addressOf, String.toList_append, String.toList_ofList, List.append_assoc] at hlist
    have hcut := Text.cutLast_append host.toList (Text.Decimal.colon_not_mem_digits port)
    have hsame := Text.cutLast_append other.toList (Text.Decimal.colon_not_mem_digits further)
    change host.toList ++ ':' :: Text.Decimal.digits port =
      other.toList ++ ':' :: Text.Decimal.digits further at hlist
    rw [hlist, hsame] at hcut
    simpa [String.toList_inj, Text.Decimal.digits_inj, eq_comm] using hcut
  · rintro ⟨rfl, rfl⟩
    rfl

/-- Under a root that is known a key tells its service and its address, whatever slashes the address
holds. -/
theorem text_inj_of_root {a b : EndpointKey} (hroot : a.service.root = b.service.root) :
    a.text = b.text ↔ a = b := by
  constructor
  · intro h
    have hlist := congrArg String.toList h
    rw [toList_text, toList_text, ServiceKey.toList_text, ServiceKey.toList_text, hroot,
      List.append_assoc, List.append_assoc, List.append_cancel_left_eq] at hlist
    simp only [List.cons_append, List.cons.injEq, true_and] at hlist
    obtain ⟨hname, haddress⟩ := (Text.append_cons_inj a.service.slash_not_mem_name
      b.service.slash_not_mem_name).1 hlist
    obtain ⟨⟨root, name, hne, hslash⟩, address⟩ := a
    obtain ⟨⟨other, further, hne', hslash'⟩, rest⟩ := b
    simp_all [String.toList_inj]
  · rintro rfl
    rfl

/-- What is made of a service, a host and a port has just these parts. -/
theorem of_make {root service host : String} {port : Nat} {key : EndpointKey}
    (h : make root service host port = .ok key) :
    key.service.root = root ∧ key.service.name = service ∧ key.address = addressOf host port := by
  obtain ⟨name, hname, rfl⟩ := of_map_ok h
  obtain ⟨hroot, hservice⟩ := ServiceKey.make_eq_ok_iff.1 hname
  exact ⟨hroot, hservice, rfl⟩

/-- Keys that are made are the same just if they are made of the same parts. -/
theorem eq_iff_of_make {root other service further host guest : String} {port dock : Nat}
    {a b : EndpointKey} (ha : make root service host port = .ok a)
    (hb : make other further guest dock = .ok b) :
    a = b ↔ root = other ∧ service = further ∧ host = guest ∧ port = dock := by
  obtain ⟨rfl, rfl, haddress⟩ := of_make ha
  obtain ⟨rfl, rfl, haddress'⟩ := of_make hb
  rw [← addressOf_inj, ← haddress, ← haddress']
  obtain ⟨⟨root, name, hne, hslash⟩, address⟩ := a
  obtain ⟨⟨other, further, hne', hslash'⟩, rest⟩ := b
  simp [and_assoc]

/-- A key that is read lies in the directory of its own service and of no other under its root. -/
theorem startsWith_directory_iff_of_parse {root text : String} {found : EndpointKey} {service : ServiceKey}
    (h : parse root text = .ok found) (hroot : service.root = root) :
    Text.startsWith service.directory text = true ↔ found.service = service := by
  constructor
  · intro hstarts
    obtain ⟨hfound, htext⟩ := text_of_parse h
    obtain ⟨rest, hrest⟩ := Text.startsWith_iff.1 hstarts
    rw [htext, ServiceKey.toList_directory, ServiceKey.toList_directory, hroot, hfound,
      List.append_assoc, List.append_assoc, List.append_cancel_left_eq] at hrest
    simp only [List.cons_append, List.append_assoc, List.nil_append, List.cons.injEq, true_and] at hrest
    have hname := ((Text.append_cons_inj service.slash_not_mem_name
      found.service.slash_not_mem_name).1 hrest).1
    apply ServiceKey.text_inj.1
    rw [ServiceKey.text, ServiceKey.text, hfound, hroot, String.toList_inj.1 hname]
  · rintro rfl
    exact startsWith_directory_of_parse h

end EndpointKey

/-- Keys that are made under one root are written in the same way just if service, host and port are the
same. Under whatever roots they are made, they are written in the same way just if the roots are the same as
well, provided that the hosts hold no slash. The keys of two services are the same just if root and name are.
And a key that is read under a root lies in the directory of a service of this root just if the service is
its own. -/
theorem keys_tell_instances_apart :
    (∀ (root service further host guest : String) (port dock : Nat) (a b : EndpointKey),
      EndpointKey.make root service host port = .ok a → EndpointKey.make root further guest dock = .ok b →
        (a.text = b.text ↔ service = further ∧ host = guest ∧ port = dock)) ∧
    (∀ (root other service further host guest : String) (port dock : Nat) (a b : EndpointKey),
      '/' ∉ host.toList → '/' ∉ guest.toList →
      EndpointKey.make root service host port = .ok a → EndpointKey.make other further guest dock = .ok b →
        (a.text = b.text ↔ root = other ∧ service = further ∧ host = guest ∧ port = dock)) ∧
    (∀ (root other name further : String) (a b : ServiceKey),
      ServiceKey.make root name = .ok a → ServiceKey.make other further = .ok b →
        (a.text = b.text ↔ root = other ∧ name = further)) ∧
    ∀ (root name text : String) (service : ServiceKey) (found : EndpointKey),
      ServiceKey.make root name = .ok service → EndpointKey.parse root text = .ok found →
        (Text.startsWith service.directory text = true ↔ found.service.text = service.text) := by
  refine ⟨?_, ?_, ?_, ?_⟩
  · intro root service further host guest port dock a b ha hb
    have hroot : a.service.root = b.service.root :=
      (EndpointKey.of_make ha).1.trans (EndpointKey.of_make hb).1.symm
    rw [EndpointKey.text_inj_of_root hroot, EndpointKey.eq_iff_of_make ha hb]
    simp
  · intro root other service further host guest port dock a b hhost hguest ha hb
    have hslash : '/' ∉ a.address.toList := by
      rw [(EndpointKey.of_make ha).2.2, EndpointKey.slash_mem_addressOf]
      exact hhost
    have hslash' : '/' ∉ b.address.toList := by
      rw [(EndpointKey.of_make hb).2.2, EndpointKey.slash_mem_addressOf]
      exact hguest
    rw [EndpointKey.text_inj hslash hslash', EndpointKey.eq_iff_of_make ha hb]
  · intro root other name further a b ha hb
    obtain ⟨rfl, rfl⟩ := ServiceKey.make_eq_ok_iff.1 ha
    obtain ⟨rfl, rfl⟩ := ServiceKey.make_eq_ok_iff.1 hb
    rw [ServiceKey.text_inj]
    obtain ⟨root, name, hne, hslash⟩ := a
    obtain ⟨other, further, hne', hslash'⟩ := b
    simp
  · intro root name text service found hservice hfound
    rw [EndpointKey.startsWith_directory_iff_of_parse hfound (ServiceKey.make_eq_ok_iff.1 hservice).1,
      ServiceKey.text_inj]

/-- Hosts with slashes and colons that differ in where the port begins have different keys, which lie in the
directory of their service and not in that of one whose name continues its name. Under another root the key
of the second of them can be made of a host without a slash. -/
theorem keys_tell_instances_apart_slashed :
    let service : ServiceKey := ⟨"svc", "chat", by decide, by decide⟩
    let longer : ServiceKey := ⟨"svc", "chats", by decide, by decide⟩
    let nested : ServiceKey := ⟨"svc/chat", "a", by decide, by decide⟩
    EndpointKey.make "svc" "chat" "a/b:1" 2 = .ok ⟨service, "a/b:1:2"⟩ ∧
      EndpointKey.make "svc" "chat" "a/b" 12 = .ok ⟨service, "a/b:12"⟩ ∧
      EndpointKey.text ⟨service, "a/b:1:2"⟩ ≠ EndpointKey.text ⟨service, "a/b:12"⟩ ∧
      EndpointKey.make "svc/chat" "a" "b" 12 = .ok ⟨nested, "b:12"⟩ ∧
      EndpointKey.text ⟨nested, "b:12"⟩ = EndpointKey.text ⟨service, "a/b:12"⟩ ∧
      EndpointKey.parse "svc/chat" "svc/chat/a/b:12" = .ok ⟨nested, "b:12"⟩ ∧
      Text.startsWith nested.directory "svc/chat/a/b:12" = true ∧
      EndpointKey.parse "svc" "svc/chats/b:12" = .ok ⟨longer, "b:12"⟩ ∧
      Text.startsWith service.directory "svc/chats/b:12" = false := by
  intro service longer nested
  obtain ⟨hkeys, -, -, hdirectory⟩ := keys_tell_instances_apart
  have hfirst : EndpointKey.make "svc" "chat" "a/b:1" 2 = .ok ⟨service, "a/b:1:2"⟩ := by decide +kernel
  have hsecond : EndpointKey.make "svc" "chat" "a/b" 12 = .ok ⟨service, "a/b:12"⟩ := by decide +kernel
  have hnested : EndpointKey.make "svc/chat" "a" "b" 12 = .ok ⟨nested, "b:12"⟩ := by decide +kernel
  have hfound : EndpointKey.parse "svc/chat" "svc/chat/a/b:12" = .ok ⟨nested, "b:12"⟩ := by decide +kernel
  have hother : EndpointKey.parse "svc" "svc/chats/b:12" = .ok ⟨longer, "b:12"⟩ := by decide +kernel
  have hservice : ServiceKey.make "svc" "chat" = .ok service := by decide +kernel
  have hroot : ServiceKey.make "svc/chat" "a" = .ok nested := by decide +kernel
  refine ⟨hfirst, hsecond, fun hsame => ?_, hnested, by decide +kernel, hfound,
    (hdirectory _ _ _ _ _ hroot hfound).2 rfl, hother, ?_⟩
  · have hparts := (hkeys _ _ _ _ _ _ _ _ _ hfirst hsecond).1 hsame
    simp at hparts
  · have hapart : ¬ Text.startsWith service.directory "svc/chats/b:12" = true := by
      rw [hdirectory _ _ _ _ _ hservice hother]
      decide
    simpa using hapart

end ServiceRegistry
