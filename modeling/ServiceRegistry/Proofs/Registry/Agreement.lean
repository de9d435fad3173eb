import ServiceRegistry.Proofs.Registry.Attendance
import ServiceRegistry.Proofs.Store.Addresses
import ServiceRegistry.Proofs.Store.Prefixes

/-!
# Readings agree

The watcher renews the entry of one service from the directory of that service; a caller who fills the
cache, and the watcher when it renews all entries, read the directory of the root and file what they find
by service. `Fetch` follows one reading from its stamp to its place in the cache, while others go on.
What it leaves for a service depends on nothing but the keys that belong to that service, whatever was
read along with them (`Fetch.entry`), so two readings agree on a service as soon as the stores that they
have seen do.
-/
namespace ServiceRegistry

/-! ## Instances in the order of their bytes -/

/-- Of two instances of a service, the one whose key comes first has the first address. -/
theorem EndpointKey.address_lt_of_text_lt {first second : EndpointKey}
    (hservice : first.service = second.service) (h : first.text < second.text) :
    first.address < second.address := by
  rcases lt_trichotomy first.address second.address with hlt | heq | hlt
  · exact hlt
  · rw [text, text, hservice, heq] at h
    exact absurd h (String.lt_irrefl _)
  · have hback : second.text < first.text := by
      rw [String.lt_iff, toList_text, toList_text, hservice]
      exact List.append_left_lt (List.cons_lt_cons_iff.2 (.inr ⟨rfl, String.lt_iff.1 hlt⟩))
    exact absurd h (String.lt_asymm hback)

/-- The instances of a service stand in strictly increasing order of their addresses. -/
theorem Store.increasing_instances (store : Store) (root : String) (service : ServiceKey) :
    (store.instances root service).Pairwise (·.address < ·.address) := by
  have htexts : (store.keys.filterMap fun key => (EndpointKey.parse root key).toOption).Pairwise
      (·.text < ·.text) := by
    refine List.Pairwise.filterMap _ (fun text text' hlt key hkey key' hkey' => ?_)
      (List.pairwise_map.2 store.content.increasing)
    rw [← (EndpointKey.eq_text_of_parse (eq_of_toOption hkey)).1,
      ← (EndpointKey.eq_text_of_parse (eq_of_toOption hkey')).1]
    exact hlt
  refine (htexts.filter _).imp_of_mem fun hfirst hsecond hlt => ?_
  have hfirst := of_decide_eq_true (List.mem_filter.1 hfirst).2
  have hsecond := of_decide_eq_true (List.mem_filter.1 hsecond).2
  exact EndpointKey.address_lt_of_text_lt (hfirst.trans hsecond.symm) hlt

namespace Dialing

/-- Dials that are made alike and answered alike come to the same. -/
theorem connect?_congr (dialing other : Dialing) (htimeout : other.connectTimeout = dialing.connectTimeout)
    (hoptions : other.options = dialing.options) (haccepts : ∀ endpoint,
      other.dialer.accepts other.time endpoint = dialing.dialer.accepts dialing.time endpoint) :
    other.connect? = dialing.connect? := by
  funext key
  simp only [connect?, endpoint?, htimeout, hoptions, haccepts]

variable (dialing : Dialing)

/-- What the connections to the instances of a service that stand in a store are. -/
theorem mem_connections {store : Store} {root : String} {service : ServiceKey}
    {connection : Connection} :
    connection ∈ (store.instances root service).filterMap dialing.connect? ↔
      ∃ text key endpoint, text ∈ store.keys ∧ EndpointKey.parse root text = .ok key ∧
        key.service = service ∧
        Endpoint.build key.address dialing.connectTimeout dialing.options = .ok endpoint ∧
        dialing.dialer.accepts dialing.time endpoint = true ∧ connection = ⟨key.address, [endpoint]⟩ := by
  have hread : ∀ {text key}, (EndpointKey.parse root text).toOption = some key ↔
      EndpointKey.parse root text = .ok key :=
    ⟨Store.eq_of_toOption, fun h => by rw [h]; rfl⟩
  simp only [Store.instances, ServiceKey.instances, List.mem_filterMap, List.mem_filter,
    decide_eq_true_eq, hread, connect?_eq_some_iff]
  constructor
  · rintro ⟨key, ⟨⟨text, hstored, hparse⟩, hservice⟩, endpoint, hbuild, haccepts, hconnection⟩
    exact ⟨text, key, endpoint, hstored, hparse, hservice, hbuild, haccepts, hconnection⟩
  · rintro ⟨text, key, endpoint, hstored, hparse, hservice, hbuild, haccepts, hconnection⟩
    exact ⟨key, ⟨⟨text, hstored, hparse⟩, hservice⟩, endpoint, hbuild, haccepts, hconnection⟩

/-- The connections to the instances of a service stand in strictly increasing order of what they were
made for, byte by byte. -/
theorem increasing_connections (store : Store) (root : String) (service : ServiceKey) :
    ((store.instances root service).filterMap dialing.connect?).Pairwise
      fun first second => Text.bytes first.target < Text.bytes second.target := by
  refine List.Pairwise.filterMap _ (fun key key' hlt connection hdial connection' hdial' => ?_)
    (store.increasing_instances root service)
  obtain ⟨endpoint, -, -, rfl⟩ := connect?_eq_some_iff.1 hdial
  obtain ⟨endpoint', -, -, rfl⟩ := connect?_eq_some_iff.1 hdial'
  exact Text.bytes_lt_bytes_iff.2 hlt

end Dialing

namespace Cache

/-- The connections that the cache has for a service, none without an entry. -/
def connections (cache : Cache) (key : ServiceKey) : List Connection :=
  ((cache.entries.lookup key).map (·.connections)).getD []

theorem lookup_noted (reading : Reading) (entries : List (ServiceKey × List Connection))
    (key : ServiceKey) :
    (entries.map fun entry => (entry.1, (⟨reading, entry.2⟩ : Listing))).lookup key =
      (entries.lookup key).map fun connections => ⟨reading, connections⟩ := by
  induction entries with
  | nil => rfl
  | cons entry entries ih =>
    obtain ⟨other, connections⟩ := entry
    simp only [List.map_cons, List.lookup_cons, ih]
    cases key == other <;> rfl

/-- A reading of the root that is put in while its generation lasts brings all of its entries. -/
theorem connections_of_install {cache : Cache} {reading : Reading}
    {entries : List (ServiceKey × List Connection)} (hopen : cache.closed = false)
    (hcurrent : cache.generation = reading.generation) :
    ∃ after, cache.install reading entries = .ok after ∧
      ∀ key, after.connections key = Dialing.listed entries key := by
  refine ⟨_, by rw [install, if_neg (by simp [hopen]), if_neg (not_not.2 hcurrent)], fun key => ?_⟩
  simp only [connections, Dialing.listed, lookup_noted]
  cases entries.lookup key <;> rfl

/-- A reading of one service that is put in while its generation lasts brings the entry of the service. -/
theorem lookup_of_replace {cache : Cache} {key : ServiceKey} {listing : Listing}
    (hopen : cache.closed = false) (hcurrent : cache.generation = listing.reading.generation) :
    ∃ after, cache.replace key listing = .ok after ∧ after.entries.lookup key = some listing := by
  refine ⟨_, by rw [replace, if_neg (by simp [hopen]), if_neg (not_not.2 hcurrent)], ?_⟩
  exact List.lookup_cons_self

end Cache

/-- Whether the reading is one of the root, for all services. -/
def Errand.isOfRoot : Errand → Bool
  | .resolve _ | .rebuild _ => true
  | .refresh _ _ _ => false

namespace Site

/-! ## One activity among others -/

/-- An activity takes its step at a site and none from there to a later one, where it has not been asked to
end. Others go on meanwhile. -/
structure StepsTo (site : Site) (who : Nat) (later : Site) : Prop where
  run : ∃ moves, site.run (.step who :: moves) = some later ∧ Move.step who ∉ moves
  going : later.registry.activities[who]?.map (·.cancelled) = some false

namespace StepsTo

variable {site later : Site} {who : Nat}

theorem precedes (h : site.StepsTo who later) : site.Precedes later := by
  obtain ⟨moves, hrun, -⟩ := h.run
  exact precedes_of_run hrun

/-- The activity is found where its step has taken it. -/
theorem activity (h : site.StepsTo who later) {progress : Progress}
    (hactivity : site.registry.activities[who]? = some ⟨progress, false⟩) :
    later.registry.activities[who]? = some ⟨(site.stepFrom who progress).1, false⟩ := by
  obtain ⟨moves, hrun, hothers⟩ := h.run
  rw [run_cons] at hrun
  obtain ⟨next, hnext, hrest⟩ := Option.bind_eq_some_iff.1 hrun
  obtain ⟨-, rfl⟩ := of_after_step hnext
  have hprogress := progress?_of_run hrest hothers (progress?_step hactivity)
  obtain ⟨⟨point, cancelled⟩, hgoing, hkept⟩ := Option.map_eq_some_iff.1 h.going
  obtain rfl : cancelled = false := hkept
  rw [progress?_of_activity hgoing] at hprogress
  obtain rfl : point = (site.stepFrom who progress).1 := Option.some.inj hprogress
  exact hgoing

/-- A step that is taken at once, before anything else happens. -/
theorem at_once (hready : site.canStep who = true)
    (hgoing : (site.step who).registry.activities[who]?.map (·.cancelled) = some false) :
    site.StepsTo who (site.step who) :=
  ⟨⟨[], run_step hready, List.not_mem_nil⟩, hgoing⟩

end StepsTo

/-! ## A reading from its stamp to the cache -/

/-- A store that answers answers a request for a directory with its rows. -/
theorem receive_rows {site : Site} {flight : Flight .getPrefix} {directory : String}
    (hplain : flight.treatment = .plain) (hrequest : flight.request = .getPrefix directory)
    (hanswers : site.store.check = .ok ()) :
    ∃ mid, site.receive flight = (.ok (site.store.rows directory), mid) ∧
      mid.registry = site.registry := by
  obtain ⟨rows, mid, hreceive, -⟩ := receive_of_plain hplain hanswers
  have hgenuine : flight.Genuine := fun answer hcanned => by
    rw [hplain] at hcanned
    cases hcanned
  have hserve := serve_of_receive hgenuine hreceive
  rw [hrequest] at hserve
  exact ⟨mid, (Store.of_getPrefix hserve).1 ▸ hreceive, registry_of_receive hreceive⟩

/-- A reading from its stamp at a first site to its place in the cache at a last one: the cache is open at
both, and the store is asked and answers with what stands in it at the site of the scan. -/
structure Fetch (who : Nat) (errand : Errand) (first scan last : Site) : Prop where
  begins : first.registry.activities[who]? = some ⟨.building errand .stamping, false⟩
  opened : first.registry.cache.closed = false
  asks : (first.send (.getPrefix (first.directoryOf errand))).1.treatment = .plain
  waits : first.StepsTo who scan
  answers : scan.store.check = .ok ()
  dials : scan.StepsTo who last
  ready : last.canStep who = true
  stays : last.registry.cache.closed = false

namespace Fetch

variable {who : Nat} {errand : Errand} {first scan last : Site}

/-- What is noted of the reading in the lists that it brings. -/
def noted (first scan : Site) : Reading :=
  scan.reading ⟨first.registry.cache.generation, first.registry.cache.options⟩

/-- The dials are made at the scan. -/
theorem time_noted (first scan : Site) : (noted first scan).time = scan.clock := rfl

/-- Where the store answers, its answer is awaited. -/
theorem scanning (h : Fetch who errand first scan last) : ∃ flight,
    scan.registry.activities[who]? = some ⟨.building errand (.scanning
      ⟨first.registry.cache.generation, first.registry.cache.options⟩ flight), false⟩ ∧
    flight.treatment = .plain ∧ flight.request = .getPrefix (scan.directoryOf errand) := by
  have hstamp : first.registry.cache.stamp =
      .ok ⟨first.registry.cache.generation, first.registry.cache.options⟩ := by
    simp only [Cache.stamp, h.opened, Bool.false_eq_true, if_false]
  refine ⟨(first.send (.getPrefix (first.directoryOf errand))).1, ?_, h.asks, ?_⟩
  · rw [h.waits.activity h.begins]
    simp only [stepFrom, stepBuild, hstamp]
  · rw [directoryOf_eq h.waits.precedes]
    exact Link.request_send _ _

/-- Where the reading is put in, it has found the instances that stood in the store. -/
theorem dialing (h : Fetch who errand first scan last) : ∃ keys due,
    last.registry.activities[who]? = some ⟨.building errand (.dialing
      ⟨first.registry.cache.generation, first.registry.cache.options⟩ (noted first scan) keys due),
        false⟩ ∧
    ∀ key, errand.Covers key →
      (last.registry.dialing first.registry.cache.options scan.clock).connections keys key =
        first.connectionsOf scan.store scan.clock key := by
  obtain ⟨flight, hactivity, hplain, hrequest⟩ := h.scanning
  obtain ⟨mid, hreceive, hregistry⟩ := receive_rows hplain hrequest h.answers
  have hpoint := h.dials.activity hactivity
  have hkeys : ∃ due, (scan.stepFrom who (.building errand (.scanning
      ⟨first.registry.cache.generation, first.registry.cache.options⟩ flight))).1 =
        .building errand (.dialing ⟨first.registry.cache.generation, first.registry.cache.options⟩
          (noted first scan) (errand.instances (EndpointKey.ofRows scan.registry.config.root
            (scan.store.rows (scan.directoryOf errand)))) due) := by
    simp only [stepFrom, stepBuild, hreceive, hregistry]
    cases errand <;> exact ⟨_, rfl⟩
  obtain ⟨due, hkeys⟩ := hkeys
  refine ⟨_, due, hkeys ▸ hpoint, fun key hcovers => ?_⟩
  have hwhole := h.waits.precedes.trans h.dials.precedes
  rw [Dialing.connections, scan.instances_of_errand hcovers, connectionsOf, Registry.dialing,
    Registry.dialing, hwhole.dialer, hwhole.config, h.waits.precedes.config]

/-- A reading of one service leaves its entry, if its generation lasts. -/
theorem entry {key : ServiceKey} {rest : List ServiceKey} {changes : Changes}
    (h : Fetch who (.refresh key rest changes) first scan last)
    (hcurrent : last.registry.cache.generation = first.registry.cache.generation) :
    (last.step who).registry.cache.entries.lookup key =
      some ⟨noted first scan, first.connectionsOf scan.store scan.clock key⟩ := by
  obtain ⟨keys, due, hactivity, hfound⟩ := h.dialing
  obtain ⟨cache, hreplace, hlookup⟩ := @Cache.lookup_of_replace last.registry.cache key
    ⟨noted first scan, first.connectionsOf scan.store scan.clock key⟩ h.stays hcurrent
  rw [step_of_activity hactivity, cache_settle]
  simp only [stepFrom, stepBuild, install, time_noted, hfound key rfl, hreplace, Except.map,
    cache_conclude]
  exact hlookup

/-- A reading of the root leaves the entries of all services, if its generation lasts. -/
theorem entries (h : Fetch who errand first scan last) (hroot : errand.isOfRoot = true)
    (hcurrent : last.registry.cache.generation = first.registry.cache.generation) (key : ServiceKey) :
    (last.step who).registry.cache.connections key =
      first.connectionsOf scan.store scan.clock key := by
  obtain ⟨keys, due, hactivity, hfound⟩ := h.dialing
  obtain ⟨cache, hinstall, hconnections⟩ := @Cache.connections_of_install last.registry.cache
    (noted first scan)
    ((last.registry.dialing first.registry.cache.options scan.clock).byService keys) h.stays hcurrent
  have hcache : (last.step who).registry.cache = cache := by
    rw [step_of_activity hactivity, cache_settle]
    cases errand with
    | refresh => cases hroot
    | resolve | rebuild =>
      simp only [stepFrom, stepBuild, install, time_noted, hinstall, Except.map, cache_conclude]
      rfl
  rw [hcache, hconnections, Dialing.listed_byService]
  refine hfound key ?_
  cases errand with
  | refresh => cases hroot
  | resolve | rebuild => trivial

/-- A caller is handed the list of the service that it has asked for, also if the generation of its reading
has passed. -/
theorem handed {key : ServiceKey} (h : Fetch who (.resolve key) first scan last) :
    (last.step who).progress? who = some (.finished (.ok
      (.connections ⟨noted first scan, first.connectionsOf scan.store scan.clock key⟩))) := by
  obtain ⟨keys, due, hactivity, hfound⟩ := h.dialing
  obtain ⟨cache, hinstall⟩ : ∃ cache, last.registry.cache.install (noted first scan)
      ((last.registry.dialing first.registry.cache.options scan.clock).byService keys) = .ok cache := by
    rw [Cache.install, if_neg (by simp [h.stays])]
    split <;> exact ⟨_, rfl⟩
  have hprogress := progress?_step hactivity
  simp only [stepFrom, stepBuild, install, time_noted, hinstall, Dialing.listed_byService,
    hfound key trivial, Except.map] at hprogress
  exact hprogress

end Fetch

/-- A reading of one service and a reading of the root that dial alike leave the same list for the service,
if the same keys that belong to it stood in the stores when they were read, whatever else stood there, and
the dials of the two are answered alike. The list has a connection for each of these keys whose own endpoint
can be built and is not refused, in strictly increasing order of the addresses. -/
theorem refresh_agrees_with_scan {who other : Nat} {key : ServiceKey} {rest : List ServiceKey}
    {changes : Changes} {errand : Errand} {first scan last first' scan' last' : Site}
    (hrefresh : Fetch who (.refresh key rest changes) first scan last)
    (hscan : Fetch other errand first' scan' last') (hwhole : errand.isOfRoot = true)
    (hlasts : last.registry.cache.generation = first.registry.cache.generation)
    (hlasts' : last'.registry.cache.generation = first'.registry.cache.generation)
    (hroot : first'.registry.config.root = first.registry.config.root)
    (hdialing : first'.registry.dialing first'.registry.cache.options =
      first.registry.dialing first.registry.cache.options)
    (haccepts : ∀ endpoint, first.registry.dialer.accepts scan'.clock endpoint =
      first.registry.dialer.accepts scan.clock endpoint)
    (hkeys : ∀ text found, EndpointKey.parse first.registry.config.root text = .ok found →
      found.service = key → (text ∈ scan'.store.keys ↔ text ∈ scan.store.keys)) :
    ∃ reading connections,
      (last.step who).registry.cache.entries.lookup key = some ⟨reading, connections⟩ ∧
      (last'.step other).registry.cache.connections key = connections ∧
      (errand = .resolve key → ∃ noted, (last'.step other).progress? other =
        some (.finished (.ok (.connections ⟨noted, connections⟩)))) ∧
      (∀ connection, connection ∈ connections ↔ ∃ text found endpoint, text ∈ scan.store.keys ∧
        EndpointKey.parse first.registry.config.root text = .ok found ∧ found.service = key ∧
        Endpoint.build found.address first.registry.config.connectTimeout
          first.registry.cache.options = .ok endpoint ∧
        first.registry.dialer.accepts scan.clock endpoint = true ∧
        connection = ⟨found.address, [endpoint]⟩) ∧
      connections.Pairwise fun one next => Text.bytes one.target < Text.bytes next.target := by
  have hsame : first'.connectionsOf scan'.store scan'.clock key =
      first.connectionsOf scan.store scan.clock key := by
    rw [connectionsOf, connectionsOf, hdialing, hroot, Store.instances_eq hkeys,
      Dialing.connect?_congr (first.registry.dialing first.registry.cache.options scan.clock)
        (first.registry.dialing first.registry.cache.options scan'.clock) rfl rfl haccepts]
  refine ⟨Fetch.noted first scan, first.connectionsOf scan.store scan.clock key, hrefresh.entry hlasts,
    (hscan.entries hwhole hlasts' key).trans hsame, fun hcaller => ?_, fun connection => ?_, ?_⟩
  · subst hcaller
    exact ⟨Fetch.noted first' scan', hsame ▸ hscan.handed⟩
  · exact Dialing.mem_connections _
  · exact Dialing.increasing_connections _ _ _ _

/-- An instance of a service stands among others that cannot be connected to or are refused, a deeper key
and an instance of a service whose name begins alike. -/
def crowd : Store := { Store.empty with
  content := ⟨[("svc/chat/a:1", ⟨"", none⟩), ("svc/chat/b c", ⟨"", none⟩), ("svc/chat/d:4", ⟨"", none⟩),
    ("svc/chat/e/f:5", ⟨"", none⟩), ("svc/chatty/g:6", ⟨"", none⟩)], by decide⟩ }

def crowded : Site := start crowd (Config.make "svc" []) (Dialer.onFirstUse.refusingAll ["d:4"]) .none

/-- A caller is about to read the root. -/
def beforeScan : List Move :=
  [.step 0, .step 0, .call (.getConnections "chat"), .step 1, .step 1, .step 1]

/-- The caller has filled the cache, the instance is stored once more, and the watcher is about to read the
directory of its service. -/
def beforeRefresh : List Move :=
  beforeScan ++ [.step 1, .step 1, .step 1, .request (.put "svc/chat/a:1" "" none), .step 0, .step 0,
    .step 0]

def aboutToScan : Site := (crowded.run beforeScan).get rfl

def aboutToRefresh : Site := (crowded.run beforeRefresh).get rfl

theorem refresh_agrees_with_scan_in_crowd :
    let chat : ServiceKey := ⟨"svc", "chat", by decide, by decide⟩
    ∃ changes reading connections,
      Fetch 0 (.refresh chat [] changes) aboutToRefresh (aboutToRefresh.step 0)
        ((aboutToRefresh.step 0).step 0) ∧
      Fetch 1 (.resolve chat) aboutToScan (aboutToScan.step 1) ((aboutToScan.step 1).step 1) ∧
      (((aboutToRefresh.step 0).step 0).step 0).registry.cache.entries.lookup chat =
        some ⟨reading, connections⟩ ∧
      (((aboutToScan.step 1).step 1).step 1).registry.cache.connections chat = connections ∧
      connections.map (·.target) = ["a:1"] := by
  intro chat
  have hscan : Fetch 1 (.resolve chat) aboutToScan (aboutToScan.step 1) ((aboutToScan.step 1).step 1) :=
    ⟨rfl, rfl, rfl, .at_once rfl rfl, rfl, .at_once rfl rfl, rfl, rfl⟩
  have hrefresh : Fetch 0 (.refresh chat [] (.live ⟨"svc/", 1⟩)) aboutToRefresh (aboutToRefresh.step 0)
      ((aboutToRefresh.step 0).step 0) :=
    ⟨rfl, rfl, rfl, .at_once rfl rfl, rfl, .at_once rfl rfl, rfl, rfl⟩
  have hkeys : (aboutToScan.step 1).store.keys = (aboutToRefresh.step 0).store.keys := rfl
  obtain ⟨reading, connections, hentry, hlisted, -⟩ := refresh_agrees_with_scan hrefresh hscan rfl rfl rfl rfl
    rfl (fun _ => rfl) fun text found hparse hservice => by rw [hkeys]
  have hfound : ((((aboutToRefresh.step 0).step 0).step 0).registry.cache.entries.lookup chat).map
      (fun listing => listing.connections.map (·.target)) = some ["a:1"] := rfl
  rw [hentry] at hfound
  exact ⟨_, reading, connections, hrefresh, hscan, hentry, hlisted, Option.some.inj hfound⟩

end Site

end ServiceRegistry
