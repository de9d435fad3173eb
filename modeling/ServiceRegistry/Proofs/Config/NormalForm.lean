import ServiceRegistry.Config.Environment
import ServiceRegistry.Proofs.Text.Pieces
import Mathlib.Data.String.Basic
import Mathlib.Data.List.Forall2

/-!
# The normal form of a configuration

What an environment asks for is brought into a normal form: a root without a slash at its end, addresses that
are neither empty nor hold a comma or a blank at either end, a time-to-live that lasts a second. Whatever has
this form is written to an environment and read from it unchanged (`Config.ofEnvironment_toEnvironment`), so
reading an environment, writing down what was read and reading that again gives what was read first.
-/
namespace ServiceRegistry

namespace Duration

theorem millis_ofMillis (n : Nat) : (ofMillis n).millis = n := by
  simp [millis, ofMillis, perMilli]

theorem secs_ofSecs (n : Nat) : (ofSecs n).secs = n := by
  simp [secs, ofSecs, perSecond]

end Duration

/-! ## The variables -/

theorem fromUTF8?_eq_some_iff {bytes : ByteArray} {text : String} :
    String.fromUTF8? bytes = some text ↔ bytes = text.toUTF8 := by
  unfold String.fromUTF8?
  split
  · rename_i hvalid
    constructor
    · intro h
      rw [← Option.some.inj h]
      rfl
    · rintro rfl
      rfl
  · rename_i hinvalid
    simp only [reduceCtorEq, false_iff]
    rintro rfl
    exact hinvalid text.isValidUTF8

namespace Environment

/-- A variable has a text just if its bytes are those of the text. -/
theorem text?_eq_some_iff {bytes? : Option ByteArray} {text : String} :
    bytes?.bind String.fromUTF8? = some text ↔ bytes? = some text.toUTF8 := by
  cases bytes? with
  | none => simp
  | some bytes => simp [fromUTF8?_eq_some_iff]

/-- An environment is read from its bytes as it is. -/
theorem ofBytes_toBytes (env : Environment) : ofBytes env.toBytes = env := by
  have hread : ∀ text? : Option String, (text?.map String.toUTF8).bind String.fromUTF8? = text? := by
    intro text?
    cases text? with
    | none => rfl
    | some text => exact text?_eq_some_iff.2 rfl
  have hroot : env.toBytes rootName = env.root.map String.toUTF8 := rfl
  have hendpoints : env.toBytes endpointsName = env.endpoints.map String.toUTF8 := by
    simp [toBytes, rootName, endpointsName]
  have hdial : env.toBytes dialTimeoutName = env.dialTimeoutMillis.map String.toUTF8 := by
    simp [toBytes, rootName, endpointsName, dialTimeoutName]
  have hlease : env.toBytes leaseTtlName = env.leaseTtlSecs.map String.toUTF8 := by
    simp [toBytes, rootName, endpointsName, dialTimeoutName, leaseTtlName]
  simp only [ofBytes, hroot, hendpoints, hdial, hlease, hread]

/-- The variable spells a number of 64 bits. -/
def Spells (value : Option String) (n : Nat) : Prop :=
  ∃ text, value = some text ∧ Text.Decimal.Spells Word.count text.toList n

theorem number?_eq_some_iff {value : Option String} {n : Nat} :
    number? value = some n ↔ Spells value n := by
  simp only [number?, Option.bind_eq_some_iff, Text.Decimal.read?_eq_some_iff, Spells]

theorem number?_eq_none_iff {value : Option String} :
    number? value = none ↔ ∀ n, ¬ Spells value n := by
  simp only [← number?_eq_some_iff, Option.eq_none_iff_forall_ne_some]

theorem number?_digits {n : Nat} (h : n < Word.count) :
    number? (some (String.ofList (Text.Decimal.digits n))) = some n := by
  simp [number?, Text.Decimal.read?_digits h]

/-! ## The addresses -/

/-- A list of addresses names those of its pieces that are not blank, without the blanks around them. -/
def Lists (list : String) (addresses : List String) : Prop :=
  ∃ parts cores, (parts ≠ [] ∧ [','].intercalate parts = list.toList ∧ ∀ part ∈ parts, ',' ∉ part) ∧
    List.Forall₂ Text.IsTrimmed parts cores ∧
    addresses.map String.toList = cores.filter fun core => core ≠ []

/-- An address that can stand in a list as it is. -/
def IsListed (address : String) : Prop :=
  address ≠ "" ∧ ',' ∉ address.toList ∧ Text.trim address.toList = address.toList

theorem lists_iff {list : String} {names : List String} :
    Lists list names ↔ names = addresses list := by
  constructor
  · rintro ⟨parts, cores, hparts, hcores, hnames⟩
    obtain rfl := Text.eq_pieces_iff.2 hparts
    have htrim : cores = (Text.pieces ',' list.toList).map Text.trim := by
      rw [← List.forall₂_eq_eq_eq, List.forall₂_map_right_iff]
      exact hcores.flip.imp fun core part hcore => Text.isTrimmed_iff.1 hcore
    rw [addresses, ← htrim, ← hnames]
    simp
  · rintro rfl
    refine ⟨Text.pieces ',' list.toList, (Text.pieces ',' list.toList).map Text.trim,
      Text.eq_pieces_iff.1 rfl, ?_, ?_⟩
    · rw [List.forall₂_map_right_iff, List.forall₂_same]
      exact fun part _ => Text.isTrimmed_trim part
    · simp [addresses]

theorem isListed_of_mem_addresses {list address : String} (h : address ∈ addresses list) :
    IsListed address := by
  obtain ⟨core, hcore, rfl⟩ := List.mem_map.1 h
  obtain ⟨hmem, hne⟩ := List.mem_filter.1 hcore
  obtain ⟨part, hpart, rfl⟩ := List.mem_map.1 hmem
  obtain ⟨_, _, _, _, hends⟩ := Text.isTrimmed_trim part
  have hcomma : ',' ∉ Text.trim part := fun hin =>
    Text.not_mem_of_mem_pieces hpart (Text.subset_of_isTrimmed (Text.isTrimmed_trim part) hin)
  refine ⟨by simpa using hne, by simpa using hcomma, ?_⟩
  rw [String.toList_ofList, Text.trim_eq_self hends]

/-- Addresses that can stand in a list are read from it as they are, also if there is none. -/
theorem addresses_intercalate {names : List String} (h : ∀ name ∈ names, IsListed name) :
    addresses (String.intercalate "," names) = names := by
  by_cases hnone : names = []
  · subst hnone
    simp [addresses, Text.pieces, Text.trim_eq_nil]
  · have hpieces : Text.pieces ',' (String.intercalate "," names).toList = names.map String.toList := by
      refine (Text.eq_pieces_iff.2 ⟨by simpa using hnone, ?_, ?_⟩).symm
      · rw [String.toList_intercalate]
        rfl
      · simpa using fun name hname => (h name hname).2.1
    have htrim : (names.map String.toList).map Text.trim = names.map String.toList := by
      simpa using fun name hname => (h name hname).2.2
    have hfilter : (names.map String.toList).filter (fun core => core ≠ []) = names.map String.toList := by
      simpa using fun name hname => (h name hname).1
    rw [addresses, hpieces, htrim, hfilter]
    simp

end Environment

namespace Config

theorem rootOf_idem (text : String) : rootOf (rootOf text) = rootOf text := by
  simp only [rootOf, String.toList_ofList]
  rw [Text.dropTrailing_eq_self fun c hc => Text.not_of_mem_getLast?_dropTrailing hc]

theorem dialTimeoutMillis_toEnvironment {config : Config} {limit : Duration}
    (h : config.dialTimeout = some limit) : config.toEnvironment.dialTimeoutMillis =
      some (String.ofList (Text.Decimal.digits limit.millis)) := by
  rw [toEnvironment, h, Option.map_some]

theorem leaseTtlSecs_toEnvironment (config : Config) : config.toEnvironment.leaseTtlSecs =
    some (String.ofList (Text.Decimal.digits config.leaseTtl.secs)) := by
  rw [toEnvironment]

/-! ## Configurations in normal form -/

/-- The configuration is one that an environment can ask for. -/
structure IsNormal (config : Config) : Prop where
  root_eq : rootOf config.root = config.root
  listed : ∀ address ∈ config.endpoints, Environment.IsListed address
  dialTimeout_eq : ∃ millis, millis < Word.count ∧ config.dialTimeout = some (Duration.ofMillis millis)
  leaseTtl_eq : ∃ secs, 1 ≤ secs ∧ secs < Word.count ∧ config.leaseTtl = Duration.ofSecs secs
  connectTimeout_eq : config.connectTimeout = none

theorem longer_shortestLeaseTtl (secs : Nat) :
    (Duration.ofSecs secs).longer shortestLeaseTtl = Duration.ofSecs (max 1 secs) := by
  by_cases h : secs ≤ 1
  · have hle : (Duration.ofSecs secs).nanos ≤ shortestLeaseTtl.nanos := Nat.mul_le_mul_right _ h
    rw [Duration.longer, if_pos hle, max_eq_left h, shortestLeaseTtl]
  · have hlt : ¬ (Duration.ofSecs secs).nanos ≤ shortestLeaseTtl.nanos := by
      simp only [shortestLeaseTtl, Duration.ofSecs, Duration.perSecond]
      omega
    rw [Duration.longer, if_neg hlt, max_eq_right (by omega)]

section
variable (env : Environment)

theorem root_ofEnvironment :
    (ofEnvironment env).root = rootOf (env.root.getD Environment.defaultRoot) := by
  unfold ofEnvironment
  split <;> split <;> rfl

theorem endpoints_ofEnvironment : (ofEnvironment env).endpoints =
    Environment.addresses (env.endpoints.getD Environment.defaultEndpoints) := by
  unfold ofEnvironment
  split <;> split <;> rfl

theorem dialTimeout_ofEnvironment : (ofEnvironment env).dialTimeout =
    some (((Environment.number? env.dialTimeoutMillis).map Duration.ofMillis).getD
      defaultDialTimeout) := by
  unfold ofEnvironment
  split <;> split <;> simp_all [withDialTimeout, withLeaseTtl, make]

theorem leaseTtl_ofEnvironment : (ofEnvironment env).leaseTtl =
    ((Environment.number? env.leaseTtlSecs).map fun secs => Duration.ofSecs (max 1 secs)).getD
      defaultLeaseTtl := by
  unfold ofEnvironment
  split <;> split <;> simp_all [withDialTimeout, withLeaseTtl, make, longer_shortestLeaseTtl]

theorem connectTimeout_ofEnvironment : (ofEnvironment env).connectTimeout = none := by
  unfold ofEnvironment
  split <;> split <;> rfl

/-- What an environment asks for is in normal form. -/
theorem isNormal_ofEnvironment : (ofEnvironment env).IsNormal where
  root_eq := by rw [root_ofEnvironment, rootOf_idem]
  listed := by
    rw [endpoints_ofEnvironment]
    exact fun address => Environment.isListed_of_mem_addresses
  dialTimeout_eq := by
    rw [dialTimeout_ofEnvironment]
    cases hnumber : Environment.number? env.dialTimeoutMillis with
    | none => exact ⟨5000, by simp [Word.count], by simp [defaultDialTimeout, Duration.ofSecs,
        Duration.ofMillis, Duration.perSecond, Duration.perMilli]⟩
    | some millis =>
      obtain ⟨text, -, ds, -, -, -, -, hlt⟩ := Environment.number?_eq_some_iff.1 hnumber
      exact ⟨millis, hlt, rfl⟩
  leaseTtl_eq := by
    rw [leaseTtl_ofEnvironment]
    cases hnumber : Environment.number? env.leaseTtlSecs with
    | none => exact ⟨30, by simp, by simp [Word.count], rfl⟩
    | some secs =>
      obtain ⟨text, -, ds, -, -, -, -, hlt⟩ := Environment.number?_eq_some_iff.1 hnumber
      have hone : 1 < Word.count := by simp [Word.count]
      exact ⟨max 1 secs, by omega, by omega, rfl⟩
  connectTimeout_eq := connectTimeout_ofEnvironment env

end

/-- A configuration in normal form is what its environment asks for. -/
theorem ofEnvironment_toEnvironment {config : Config} (h : config.IsNormal) :
    ofEnvironment config.toEnvironment = config := by
  obtain ⟨millis, hmillis, hdial⟩ := h.dialTimeout_eq
  obtain ⟨secs, hone, hsecs, hlease⟩ := h.leaseTtl_eq
  have hroot : (ofEnvironment config.toEnvironment).root = config.root := by
    rw [root_ofEnvironment, toEnvironment, Option.getD_some, h.root_eq]
  have hendpoints : (ofEnvironment config.toEnvironment).endpoints = config.endpoints := by
    rw [endpoints_ofEnvironment, toEnvironment, Option.getD_some,
      Environment.addresses_intercalate h.listed]
  have hdial' : (ofEnvironment config.toEnvironment).dialTimeout = config.dialTimeout := by
    rw [dialTimeout_ofEnvironment, dialTimeoutMillis_toEnvironment hdial, Duration.millis_ofMillis,
      Environment.number?_digits hmillis, hdial, Option.map_some, Option.getD_some]
  have hlease' : (ofEnvironment config.toEnvironment).leaseTtl = config.leaseTtl := by
    rw [leaseTtl_ofEnvironment, leaseTtlSecs_toEnvironment, hlease, Duration.secs_ofSecs,
      Environment.number?_digits hsecs, Option.map_some, Option.getD_some, max_eq_right hone]
  have hconnect := (connectTimeout_ofEnvironment config.toEnvironment).trans h.connectTimeout_eq.symm
  generalize ofEnvironment config.toEnvironment = found at *
  cases found
  cases config
  simp_all

end Config

/-- A variable counts as set just if its bytes are those of a text. The root is the longest beginning of the
given one that does not end in a slash; the addresses are the pieces of the given list between its commas,
without the blanks around them and in their order, as far as they are not empty; a number that is not spelled
in digits or needs more than 64 bits counts as unset; and the lease lives for a second at least. What is
written down of the configuration is read as the same configuration. -/
theorem environment_normal_form (value? : String → Option ByteArray) :
    let env := Environment.ofBytes value?
    let config := Config.ofEnvironment env
    (∀ text : String,
      (env.root = some text ↔ value? "REGISTRY_ROOT" = some text.toUTF8) ∧
      (env.endpoints = some text ↔ value? "ETCD_ENDPOINTS" = some text.toUTF8) ∧
      (env.dialTimeoutMillis = some text ↔ value? "REGISTRY_DIAL_TIMEOUT_MS" = some text.toUTF8) ∧
      (env.leaseTtlSecs = some text ↔ value? "REGISTRY_LEASE_TTL_SECS" = some text.toUTF8)) ∧
    Text.IsLongestStart (· = '/') (env.root.getD "registry").toList config.root.toList ∧
    Environment.Lists (env.endpoints.getD "127.0.0.1:2379") config.endpoints ∧
    (∀ millis, Environment.Spells env.dialTimeoutMillis millis →
      config.dialTimeout = some (Duration.ofMillis millis)) ∧
    ((∀ millis, ¬ Environment.Spells env.dialTimeoutMillis millis) →
      config.dialTimeout = some (Duration.ofSecs 5)) ∧
    (∀ secs, Environment.Spells env.leaseTtlSecs secs →
      config.leaseTtl = Duration.ofSecs (max 1 secs)) ∧
    ((∀ secs, ¬ Environment.Spells env.leaseTtlSecs secs) → config.leaseTtl = Duration.ofSecs 30) ∧
    (Duration.ofSecs 1).nanos ≤ config.leaseTtl.nanos ∧ config.connectTimeout = none ∧
    Config.ofEnvironment (Environment.ofBytes config.toEnvironment.toBytes) = config := by
  intro env config
  have hnormal : config.IsNormal := Config.isNormal_ofEnvironment env
  refine ⟨fun text => ⟨?_, ?_, ?_, ?_⟩, ?_, ?_, fun millis hspells => ?_, fun hnone => ?_,
    fun secs hspells => ?_, fun hnone => ?_, ?_, hnormal.connectTimeout_eq, ?_⟩
  · exact Environment.text?_eq_some_iff
  · exact Environment.text?_eq_some_iff
  · exact Environment.text?_eq_some_iff
  · exact Environment.text?_eq_some_iff
  · rw [Text.isLongestStart_iff, Config.root_ofEnvironment, Config.rootOf, String.toList_ofList]
    rfl
  · rw [Environment.lists_iff, Config.endpoints_ofEnvironment]
    rfl
  · rw [Config.dialTimeout_ofEnvironment, Environment.number?_eq_some_iff.2 hspells]
    rfl
  · rw [Config.dialTimeout_ofEnvironment, Environment.number?_eq_none_iff.2 hnone]
    rfl
  · rw [Config.leaseTtl_ofEnvironment, Environment.number?_eq_some_iff.2 hspells]
    rfl
  · rw [Config.leaseTtl_ofEnvironment, Environment.number?_eq_none_iff.2 hnone]
    rfl
  · obtain ⟨secs, hone, -, hlease⟩ := hnormal.leaseTtl_eq
    rw [hlease]
    exact Nat.mul_le_mul_right _ hone
  · rw [Environment.ofBytes_toBytes, Config.ofEnvironment_toEnvironment hnormal]

example : (Config.ofEnvironment ⟨some "svc//", some " a:1 ,,b:2,", some "+007", some "0"⟩).toEnvironment =
    ⟨some "svc", some "a:1,b:2", some "7", some "1"⟩ := by decide +kernel

end ServiceRegistry
