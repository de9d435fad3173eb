import ServiceRegistry.Proofs.Registry.Requests
import ServiceRegistry.Text.Json

/-!
# Descriptors tell addresses

A descriptor is a text of the JSON format that spells one object, and the address in it is that of its
instance whatever characters it is made of: each of them is read back before anything behind it is looked
at. So instances with different addresses have different descriptors, and what a registry stores under the
key of an instance is its descriptor.
-/
namespace ServiceRegistry

namespace Text.JsonString

/-! ## Escapes are read back -/

theorem unit?_twoDigits : ∀ n < 32,
    unit? '0' '0' (Nat.digitChar (n / 16)) (Nat.digitChar (n % 16)) = some n := by decide

theorem scalar?_toNat (c : Char) : scalar? c.toNat = some c := by
  have hvalid : c.toNat.isValidChar := c.valid
  rw [scalar?, if_pos hvalid, Char.ofNat_toNat]

theorem unescapeChar_plain {c : Char} (hcontrol : ¬ c.toNat < 32) (hquote : c ≠ '"')
    (hbackslash : c ≠ '\\') (rest : List Char) : unescapeChar (c :: rest) = some (c, rest) := by
  rw [unescapeChar]
  · rw [if_neg]
    simp [hcontrol, hquote, hbackslash]
  · exact fun _ hc => absurd hc hbackslash
  · exact fun _ _ hc => absurd hc hbackslash

/-- A character is read back, whatever stands behind it. -/
theorem unescapeChar_escapeChar (c : Char) (rest : List Char) :
    unescapeChar (escapeChar c ++ rest) = some (c, rest) := by
  unfold escapeChar
  split
  case h_8 hquote hbackslash _ _ _ _ _ =>
    split
    · rename_i hcontrol
      simp only [twoDigits, List.cons_append, List.nil_append, unescapeChar, unescapeNumber,
        unit?_twoDigits _ hcontrol, scalar?_toNat, Option.bind_eq_bind, Option.bind_some]
    · rename_i hcontrol
      exact unescapeChar_plain hcontrol hquote hbackslash rest
  all_goals rfl

/-- The text is read back up to the quote behind it. -/
theorem unescapeUpTo_escape {cs : List Char} {fuel : Nat} (hfuel : cs.length ≤ fuel) (rest : List Char) :
    unescapeUpTo fuel (escape cs ++ '"' :: rest) = some (cs, rest) := by
  induction cs generalizing fuel with
  | nil => rw [unescapeUpTo.eq_def]; rfl
  | cons c cs ih =>
    obtain ⟨fuel, rfl⟩ : ∃ smaller, fuel = smaller + 1 := ⟨fuel - 1, by simp at hfuel; omega⟩
    have hread : unescapeChar (escape (c :: cs) ++ '"' :: rest) = some (c, escape cs ++ '"' :: rest) := by
      rw [escape, List.flatMap_cons, List.append_assoc, unescapeChar_escapeChar, escape]
    rw [unescapeUpTo]
    · rw [hread]
      simp [ih (Nat.le_of_succ_le_succ hfuel)]
    · intro later hquote
      rw [hquote] at hread
      cases hread

theorem unescape_escape (cs rest : List Char) :
    unescape (escape cs ++ '"' :: rest) = some (cs, rest) := by
  refine unescapeUpTo_escape ?_ rest
  have hlength := length_escape_le cs
  simp only [List.length_append]
  omega

end Text.JsonString

namespace Descriptor

/-- The reader for descriptors gets the address back. -/
theorem decode?_encode (address : String) : decode? (encode address) = some address := by
  have hopening : opening.isPrefixOf? (encode address).toList =
      some (Text.JsonString.escape address.toList ++ '"' :: closing) := by
    rw [encode, String.toList_ofList]
    exact List.isPrefixOf?_eq_some_iff_append_eq.2 rfl
  simp [decode?, hopening, Text.JsonString.unescape_escape]

theorem encode_inj {address other : String} : encode address = encode other ↔ address = other := by
  constructor
  · intro h
    have hread := decode?_encode address
    rw [h, decode?_encode] at hread
    exact (Option.some.inj hread).symm
  · exact congrArg encode

/-- A descriptor spells the object that holds the address and no metadata, and nothing else. -/
theorem spells_encode_iff {address : String} {json : Text.Json} :
    Text.Json.Spells (encode address) json ↔
      json = .object [("Addr", .string address), ("Metadata", .null)] := by
  have hspells : Text.Json.Spells (encode address)
      (.object [("Addr", .string address), ("Metadata", .null)]) := by
    refine ⟨[], ?_, rfl⟩
    have haddr := Text.JsonString.unescape_escape "Addr".toList
      (':' :: '"' :: (Text.JsonString.escape address.toList ++ '"' :: closing))
    have haddress := Text.JsonString.unescape_escape address.toList closing
    have hmetadata := Text.JsonString.unescape_escape "Metadata".toList ":null\x7d".toList
    have hvalue := Text.Json.Value.string haddress
    rw [String.ofList_toList] at hvalue
    rw [encode, String.toList_ofList]
    exact .object (.more (.mk haddr rfl hvalue) rfl (.last (.mk hmetadata rfl (.null _)) rfl))
  constructor
  · exact fun h => Text.Json.spells_unique h hspells
  · rintro rfl
    exact hspells

end Descriptor

/-- Whatever a registry stores is the descriptor of an instance, under the key of that instance. Every
descriptor, whatever the host of the instance is made of, spells one value only, the object with the address
of the instance and no metadata, and instances have the same descriptor just if they have the same address.
-/
theorem descriptors_tell_addresses {store : Store} {config : Config} {dialer : Dialer}
    {faults : Faults} {moves : List Move} {final : Site}
    (hrun : (Site.start store config dialer faults).run moves = some final) :
    (∀ name value lease, .request (.put name value lease) ∈ final.client.log →
      ∃ key, config.Names key ∧ name = key.text ∧ value = key.descriptor) ∧
    (∀ key : EndpointKey, Descriptor.decode? key.descriptor = some key.address ∧
      ∀ json, Text.Json.Spells key.descriptor json ↔
        json = .object [("Addr", .string key.address), ("Metadata", .null)]) ∧
    ∀ key other : EndpointKey, key.descriptor = other.descriptor ↔ key.address = other.address := by
  refine ⟨fun name value lease hmem => ?_,
    fun key => ⟨Descriptor.decode?_encode key.address, fun json => Descriptor.spells_encode_iff⟩,
    fun key other => Descriptor.encode_inj⟩
  cases Site.asks_of_run hrun hmem with
  | attach lease hnamed => exact ⟨_, hnamed, rfl, rfl⟩

/-- An instance whose host holds a quote, a backslash, a control character and one beyond ASCII. -/
def oddKey : EndpointKey := ⟨⟨"svc", "push", by decide, by decide⟩, "a\"b\\\x01é:9000"⟩

/-- The registration of the instance, up to where it is attached to a lease. -/
def registersOddKey : List Move :=
  [.call (.register "push" "a\"b\\\x01é" 9000), .step 1, .step 1, .step 1]

def storesOddKey : Site := (Site.sample.run registersOddKey).get rfl

theorem descriptors_tell_addresses_escaped :
    Site.sample.run registersOddKey = some storesOddKey ∧
      .request (.put oddKey.text oddKey.descriptor (some ⟨1⟩)) ∈ storesOddKey.client.log ∧
      oddKey.descriptor =
        "\x7b\"Addr\":\"a\\\"b\\\\\\u0001é:9000\",\"Metadata\":null\x7d" ∧
      (∃ key, (Config.make "svc" []).Names key ∧ oddKey.text = key.text ∧
        oddKey.descriptor = key.descriptor) ∧
      ∀ json, Text.Json.Spells oddKey.descriptor json ↔
        json = .object [("Addr", .string "a\"b\\\x01é:9000"), ("Metadata", .null)] := by
  have hrun : Site.sample.run registersOddKey = some storesOddKey := (Option.some_get _).symm
  have hmem : .request (.put oddKey.text oddKey.descriptor (some ⟨1⟩)) ∈ storesOddKey.client.log :=
    List.mem_cons_self
  obtain ⟨hstored, hspells, -⟩ := descriptors_tell_addresses hrun
  exact ⟨hrun, hmem, by decide +kernel, hstored _ _ _ hmem, (hspells oddKey).2⟩

end ServiceRegistry
