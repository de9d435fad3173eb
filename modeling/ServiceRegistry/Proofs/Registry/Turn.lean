import ServiceRegistry.Proofs.Registry.Frame

/-!
# What a step does to the cache

Of all that a step can do, only a few things concern the cache and the gate in front of it: a list
is found in the cache, the gate is entered or left, a reading takes its stamp, its answer or its
place in the cache, the watcher takes or hands on a batch, a new generation begins. `Turn` has one
rule for each, with all that the step has found when it was taken, and one rule for the steps that
concern neither. `turn_of_stepFrom` says that there are no others, so no later proof opens a step.
-/
namespace ServiceRegistry

namespace Progress

/-- Whether the activity neither reads the store into the cache nor follows the changes. -/
def isApart : Progress → Bool
  | .building _ _ | .starting | .subscribing _ | .listening _ | .discarding _ _ => false
  | _ => true

/-- Whether the activity reads the store into the cache, or waits at the gate to do so. -/
def isBuilding : Progress → Bool
  | .building _ _ => true
  | _ => false

/-- The list that the activity has come to, if it has ended with one. -/
def listing? : Progress → Option Listing
  | .finished (.ok (.connections listing)) => some listing
  | _ => none

end Progress

/-- The stream with which the watcher goes on after a reading, `none` for the reading of a caller.
-/
def Errand.changes? : Errand → Option Changes
  | .resolve _ => none
  | .refresh _ _ changes | .rebuild changes => some changes

/-- The instances that a reading keeps of those that it finds. -/
def Errand.instances (errand : Errand) (decoded : List EndpointKey) : List EndpointKey :=
  match errand with
  | .refresh key _ _ => key.instances decoded
  | .resolve _ | .rebuild _ => decoded

namespace Site

/-- The watcher goes on with the first of some services, or waits for the next batch. -/
inductive GoesOn (site : Site) (who : Nat) (changes : Changes) :
    List ServiceKey → Progress → Site → Prop
  | listen : site.GoesOn who changes [] (.listening (changes.ask site.clock)) site
  | refresh {key : ServiceKey} {rest : List ServiceKey} :
      site.GoesOn who changes (key :: rest) (.building (.refresh key rest changes) .queued)
        (site.enterGate who)

theorem goesOn_refreshNext (site : Site) (who : Nat) (changes : Changes) (keys : List ServiceKey) :
    site.GoesOn who changes keys (site.refreshNext who changes keys).1
      (site.refreshNext who changes keys).2 := by
  cases keys with
  | nil => exact .listen
  | cons key rest => exact .refresh

/-- How a reading comes through the gate and goes on behind it. -/
inductive Advances (site : Site) (errand : Errand) : Build → Build → Site → Prop
  | enter (hlookup : ∀ key, errand = .resolve key → site.registry.cache.lookup key = .ok none) :
      site.Advances errand .queued .stamping site
  | stamp {stamp : Stamp} {flight : Flight .getPrefix} {after : Site}
      (hstamp : site.registry.cache.stamp = .ok stamp)
      (hsend : site.send (.getPrefix (site.directoryOf errand)) = (flight, after)) :
      site.Advances errand .stamping (.scanning stamp flight) after
  | scan {stamp : Stamp} {flight : Flight .getPrefix} {rows : List Row} {mid after : Site}
      {due : Nat} (hreceive : site.receive flight = (.ok rows, mid))
      (hregistry : after.registry = site.registry) (hstore : after.store = mid.store) :
      site.Advances errand (.scanning stamp flight)
        (.dialing stamp ⟨stamp.generation, site.store.scans, site.store.revision, site.clock⟩
          (errand.instances (EndpointKey.ofRows site.registry.config.root rows)) due) after

theorem Advances.registry {site after : Site} {errand : Errand} {former build : Build}
    (h : site.Advances errand former build after) : after.registry = site.registry := by
  cases h with
  | enter => rfl
  | stamp hstamp hsend => exact registry_of_send hsend
  | scan hreceive hregistry => exact hregistry

/-- Steps of an activity by what they have to do with the cache: the activity before, the point that
it comes to, and the site before it is moved there. -/
inductive Turn (site : Site) (who : Nat) : Activity → Progress → Site → Prop
  /-- The cache is left alone, and so is the gate, unless it is left. -/
  | quiet {activity : Activity} {next : Progress} {after : Site} (hnext : next.isApart = true)
      (hlisting : next.listing? = none)
      (hcache : after.registry.cache = site.registry.cache)
      (hgate : after.registry.gate = site.registry.gate ∧ activity.progress.isBuilding = false ∨
        (∃ errand build, activity = ⟨.building errand build, false⟩) ∧
          after.registry.gate = site.registry.gate.release ∨
        after.registry.gate = site.registry.gate.leave who) : site.Turn who activity next after
  | invalidate : site.Turn who ⟨.calling .invalidate, false⟩ (.finished (.ok .done))
      (site.withCache site.registry.cache.invalidate)
  | addOptions {options : List DialOption} :
      site.Turn who ⟨.calling (.addOptions options), false⟩ (.finished (.ok .done))
        (site.withCache (site.registry.cache.addOptions options))
  | close {after : Site} (hcache : after.registry.cache = site.registry.cache.close)
      (hgate : after.registry.gate = site.registry.gate) :
      site.Turn who ⟨.sealing, false⟩ (.finished (.ok .done)) after
  /-- The cache has the list that the caller wants. -/
  | hit {key : ServiceKey} {listing : Listing}
      (hlookup : site.registry.cache.lookup key = .ok (some listing)) :
      site.Turn who ⟨.looking key, false⟩ (.finished (.ok (.connections listing))) site
  | miss {key : ServiceKey} (hlookup : site.registry.cache.lookup key = .ok none) :
      site.Turn who ⟨.looking key, false⟩ (.building (.resolve key) .queued) (site.enterGate who)
  /-- Another one has filled the cache while the caller waited at the gate. -/
  | found {key : ServiceKey} {listing : Listing}
      (hlookup : site.registry.cache.lookup key = .ok (some listing)) :
      site.Turn who ⟨.building (.resolve key) .queued, false⟩
        (.finished (.ok (.connections listing))) site.releaseGate
  | advance {errand : Errand} {former build : Build} {after : Site}
      (hadvance : site.Advances errand former build after) :
      site.Turn who ⟨.building errand former, false⟩ (.building errand build) after
  /-- The store has failed the watcher, which goes on with the next batch. -/
  | fail {errand : Errand} {stamp : Stamp} {flight : Flight .getPrefix} {e : Error} {mid : Site}
      {changes : Changes} (hreceive : site.receive flight = (.error e, mid))
      (hchanges : errand.changes? = some changes) :
      site.Turn who ⟨.building errand (.scanning stamp flight), false⟩
        (.listening (changes.ask mid.clock)) mid.releaseGate
  | resolve {key : ServiceKey} {stamp : Stamp} {reading : Reading} {keys : List EndpointKey}
      {due : Nat} {listing : Listing} {mid : Site}
      (hinstall : site.install (.resolve key) stamp reading keys = .ok (listing, mid)) :
      site.Turn who ⟨.building (.resolve key) (.dialing stamp reading keys due), false⟩
        (.finished (.ok (.connections listing))) mid.releaseGate
  | refresh {key : ServiceKey} {rest : List ServiceKey} {changes : Changes} {stamp : Stamp}
      {reading : Reading} {keys : List EndpointKey} {due : Nat} {listing : Listing}
      {mid after : Site} {next : Progress}
      (hinstall : site.install (.refresh key rest changes) stamp reading keys = .ok (listing, mid))
      (hnext : mid.releaseGate.GoesOn who changes rest next after) :
      site.Turn who ⟨.building (.refresh key rest changes) (.dialing stamp reading keys due), false⟩
        next after
  | rebuild {changes : Changes} {stamp : Stamp} {reading : Reading} {keys : List EndpointKey}
      {due : Nat} {listing : Listing} {mid : Site}
      (hinstall : site.install (.rebuild changes) stamp reading keys = .ok (listing, mid)) :
      site.Turn who ⟨.building (.rebuild changes) (.dialing stamp reading keys due), false⟩
        (.listening (changes.ask mid.clock)) mid.releaseGate
  | start {flight : Flight .watch} {after : Site}
      (hsend : site.send (.watch site.registry.config.directory) = (flight, after)) :
      site.Turn who ⟨.starting, false⟩ (.subscribing flight) after
  | subscribe {flight : Flight .watch} {changes : Changes} {after : Site}
      (hreceive : site.receive flight = (.ok changes, after)) :
      site.Turn who ⟨.subscribing flight, false⟩ (.listening (changes.ask after.clock)) after
  /-- The watcher finds nothing, or something that does not concern it. -/
  | pass {changes rest : Changes} (hpull : changes.pull site.store site.clock = .waiting ∧
        rest = changes ∨ changes.pull site.store site.clock = .skipped rest) :
      site.Turn who ⟨.listening changes, false⟩ (.listening rest) site
  | take {changes rest : Changes} {item : Except Error (List Event)}
      (hpull : changes.pull site.store site.clock = .item item rest) :
      site.Turn who ⟨.listening changes, false⟩
        (.discarding rest (Attribution.ofItem site.registry.config.root item)) site
  | discard {changes : Changes} {concern : Attribution} {cache : Cache}
      (hdiscard : site.registry.cache.discardPending = some cache) :
      site.Turn who ⟨.discarding changes concern, false⟩ (.listening (changes.ask site.clock))
        (site.withCache cache)
  | relay {changes : Changes} {keys : List ServiceKey} {next : Progress} {after : Site}
      (hfilled : site.registry.cache.filled.isSome = true)
      (hnext : site.GoesOn who changes keys next after) :
      site.Turn who ⟨.discarding changes (.services keys), false⟩ next after
  | relayAll {changes : Changes} (hfilled : site.registry.cache.filled.isSome = true) :
      site.Turn who ⟨.discarding changes .everything, false⟩ (.building (.rebuild changes) .queued)
        (site.enterGate who)

/-! ## Steps that concern neither the cache nor the gate -/

/-- The parts of a site that `Turn.quiet` is about. -/
def SameCache (before after : Site) : Prop :=
  after.registry.cache = before.registry.cache ∧ after.registry.gate = before.registry.gate

theorem Turn.of_same {site after : Site} {who : Nat} {activity : Activity} {next : Progress}
    (hformer : activity.progress.isBuilding = false) (hnext : next.isApart = true)
    (hlisting : next.listing? = none) (h : site.SameCache after) :
    site.Turn who activity next after :=
  .quiet hnext hlisting h.1 (.inl ⟨h.2, hformer⟩)

theorem sameCache_receive {site after : Site} {m : Method} {flight : Flight m}
    {answer : Except Error (Answer m)} (h : site.receive flight = (answer, after)) :
    site.SameCache after := by
  have hregistry := registry_of_receive h
  exact ⟨congrArg Registry.cache hregistry, congrArg Registry.gate hregistry⟩

variable (site : Site) (who : Nat)

theorem turn_stepRegistering (key : EndpointKey) (stage : Registering) :
    site.Turn who ⟨.registering key stage, false⟩ (site.stepRegistering key stage).1
      (site.stepRegistering key stage).2 := by
  cases stage with
  | queued =>
    simp only [stepRegistering]
    split
    · exact .of_same rfl rfl rfl ⟨rfl, rfl⟩
    · split
      · exact .of_same rfl rfl rfl ⟨rfl, rfl⟩
      · exact .of_same rfl rfl rfl ⟨rfl, rfl⟩
  | replacing flight => exact .of_same rfl rfl rfl ⟨rfl, rfl⟩
  | granting flight =>
    simp only [stepRegistering]
    split
    · rename_i hreceive
      have hsame := sameCache_receive hreceive
      exact .of_same rfl rfl rfl ⟨hsame.1, hsame.2⟩
    · rename_i hreceive
      have hsame := sameCache_receive hreceive
      exact .of_same rfl rfl rfl ⟨hsame.1, hsame.2⟩
  | attaching lease flight =>
    simp only [stepRegistering]
    split
    · rename_i hreceive
      have hsame := sameCache_receive hreceive
      exact .of_same rfl rfl rfl ⟨hsame.1, hsame.2⟩
    · rename_i hreceive
      have hsame := sameCache_receive hreceive
      exact .of_same rfl rfl rfl ⟨hsame.1, hsame.2⟩
  | opening lease flight =>
    simp only [stepRegistering]
    split
    · rename_i hreceive
      have hsame := sameCache_receive hreceive
      exact .of_same rfl rfl rfl ⟨hsame.1, hsame.2⟩
    · rename_i hreceive
      have hsame := sameCache_receive hreceive
      exact .of_same rfl rfl rfl ⟨hsame.1, hsame.2⟩
  | abandoning cause flight => exact .of_same rfl rfl rfl ⟨rfl, rfl⟩
  | leaving outcome =>
    cases outcome <;> exact .of_same rfl rfl rfl ⟨rfl, rfl⟩

theorem turn_stepUnregistering (closing : Bool) (stage : Unregistering) :
    site.Turn who ⟨.unregistering closing stage, false⟩ (site.stepUnregistering closing stage).1
      (site.stepUnregistering closing stage).2 := by
  cases stage with
  | queued =>
    simp only [stepUnregistering]
    split <;> exact .of_same rfl rfl rfl ⟨rfl, rfl⟩
  | deleting lease flight => exact .of_same rfl rfl rfl ⟨rfl, rfl⟩
  | revoking deleted flight => exact .of_same rfl rfl rfl ⟨rfl, rfl⟩
  | leaving outcome =>
    cases closing <;> cases outcome <;> exact .of_same rfl rfl rfl ⟨rfl, rfl⟩

theorem turn_stepRenewing (key : EndpointKey) (lease : LeaseId) (renewals : Renewals) :
    site.Turn who ⟨.renewing key lease renewals, false⟩ (site.stepRenewing key lease renewals).1
      (site.stepRenewing key lease renewals).2 := by
  unfold stepRenewing
  split
  · exact .of_same rfl rfl rfl ⟨rfl, rfl⟩
  · exact .of_same rfl rfl rfl ⟨rfl, rfl⟩
  · split <;> exact .of_same rfl rfl rfl ⟨rfl, rfl⟩
  · exact .of_same rfl rfl rfl ⟨rfl, rfl⟩
  · exact .of_same rfl rfl rfl ⟨rfl, rfl⟩

theorem listing?_connection (result : Except Error Connection) :
    (Progress.finished (result.map .connection)).listing? = none := by
  cases result <;> rfl

theorem turn_stepLocating (key : ServiceKey) (options : List DialOption)
    (flight : Flight .getPrefix) :
    site.Turn who ⟨.locating key options flight, false⟩ (site.stepLocating key options flight).1
      (site.stepLocating key options flight).2 := by
  simp only [stepLocating]
  split
  · rename_i rows after hreceive
    have hsame := sameCache_receive hreceive
    exact .of_same rfl rfl (listing?_connection _) ⟨hsame.1, hsame.2⟩
  · rename_i hreceive
    exact .of_same rfl rfl rfl (sameCache_receive hreceive)

/-! ## Calls and readings -/

theorem turn_stepCalling (call : Call) :
    site.Turn who ⟨.calling call, false⟩ (site.stepCalling who call).1
      (site.stepCalling who call).2 := by
  cases call with
  | register service host port =>
    simp only [stepCalling]
    split <;> exact .of_same rfl rfl rfl ⟨rfl, rfl⟩
  | unregister =>
    simp only [stepCalling]
    split <;> exact .of_same rfl rfl rfl ⟨rfl, rfl⟩
  | getConnections service =>
    simp only [stepCalling]
    split <;> exact .of_same rfl rfl rfl ⟨rfl, rfl⟩
  | getConnection service options =>
    simp only [stepCalling]
    split <;> exact .of_same rfl rfl rfl ⟨rfl, rfl⟩
  | addOptions options => exact .addOptions
  | invalidate => exact .invalidate
  | close =>
    simp only [stepCalling]
    split <;> exact .of_same rfl rfl rfl ⟨rfl, rfl⟩

theorem turn_stepLooking (key : ServiceKey) :
    site.Turn who ⟨.looking key, false⟩ (site.stepLooking who key).1
      (site.stepLooking who key).2 := by
  simp only [stepLooking]
  split
  · rename_i hlookup
    exact .hit hlookup
  · rename_i hlookup
    exact .miss hlookup
  · exact .of_same rfl rfl rfl ⟨rfl, rfl⟩

/-- A reading that the cache does not let go on. -/
theorem turn_shut (errand : Errand) (build : Build) :
    site.Turn who ⟨.building errand build, false⟩ (site.conclude who errand (.error .closed)).1
      (site.conclude who errand (.error .closed)).2 := by
  cases errand <;> exact .quiet rfl rfl rfl (.inr (.inl ⟨⟨_, _, rfl⟩, rfl⟩))

theorem eq_closed_of_lookup {cache : Cache} {key : ServiceKey} {e : Error}
    (h : cache.lookup key = .error e) : e = .closed := by
  unfold Cache.lookup at h
  split at h <;> cases h
  rfl

theorem eq_closed_of_stamp {cache : Cache} {e : Error} (h : cache.stamp = .error e) :
    e = .closed := by
  unfold Cache.stamp at h
  split at h <;> cases h
  rfl

theorem eq_closed_of_install {cache : Cache} {reading : Reading}
    {entries : List (ServiceKey × List Connection)} {e : Error}
    (h : cache.install reading entries = .error e) : e = .closed := by
  unfold Cache.install at h
  split at h
  · cases h
    rfl
  · split at h <;> cases h

theorem eq_closed_of_replace {cache : Cache} {key : ServiceKey} {listing : Listing} {e : Error}
    (h : cache.replace key listing = .error e) : e = .closed := by
  unfold Cache.replace at h
  split at h
  · cases h
    rfl
  · split at h <;> cases h

theorem of_map_error {α β : Type} {x : Except Error α} {f : α → β} {e : Error}
    (h : x.map f = .error e) : x = .error e := by
  cases x <;> cases h
  rfl

theorem eq_closed_of_site_install {site : Site} {errand : Errand} {stamp : Stamp}
    {reading : Reading} {keys : List EndpointKey} {e : Error}
    (h : site.install errand stamp reading keys = .error e) : e = .closed := by
  cases errand with
  | resolve key => exact eq_closed_of_install (of_map_error h)
  | refresh key rest changes => exact eq_closed_of_replace (of_map_error h)
  | rebuild changes => exact eq_closed_of_install (of_map_error h)

theorem turn_fail {errand : Errand} {stamp : Stamp} {flight : Flight .getPrefix} {e : Error}
    {mid : Site} (hreceive : site.receive flight = (.error e, mid)) :
    site.Turn who ⟨.building errand (.scanning stamp flight), false⟩
      (mid.conclude who errand (.error e)).1 (mid.conclude who errand (.error e)).2 := by
  have hsame := sameCache_receive hreceive
  have hgate : mid.releaseGate.registry.gate = site.registry.gate.release :=
    congrArg Lock.release hsame.2
  cases errand with
  | resolve key => exact .quiet rfl rfl hsame.1 (.inr (.inl ⟨⟨_, _, rfl⟩, hgate⟩))
  | refresh key rest changes =>
    simp only [conclude, listenAfter]
    split
    · exact .quiet rfl rfl hsame.1 (.inr (.inl ⟨⟨_, _, rfl⟩, hgate⟩))
    · exact .fail hreceive rfl
  | rebuild changes =>
    simp only [conclude, listenAfter]
    split
    · exact .quiet rfl rfl hsame.1 (.inr (.inl ⟨⟨_, _, rfl⟩, hgate⟩))
    · exact .fail hreceive rfl

theorem turn_stepBuild (errand : Errand) (build : Build) :
    site.Turn who ⟨.building errand build, false⟩ (site.stepBuild who errand build).1
      (site.stepBuild who errand build).2 := by
  cases build with
  | queued =>
    cases errand with
    | resolve key =>
      simp only [stepBuild]
      split
      · rename_i hlookup
        refine .advance (.enter fun other hother => ?_)
        cases hother
        exact hlookup
      · rename_i hlookup
        exact .found hlookup
      · rename_i e hlookup
        rw [eq_closed_of_lookup hlookup]
        exact site.turn_shut who _ _
    | refresh key rest changes =>
      refine .advance (.enter fun other hother => ?_)
      cases hother
    | rebuild changes =>
      refine .advance (.enter fun other hother => ?_)
      cases hother
  | stamping =>
    simp only [stepBuild]
    split
    · rename_i stamp hstamp
      exact .advance (.stamp hstamp rfl)
    · rename_i e hstamp
      rw [eq_closed_of_stamp hstamp]
      exact site.turn_shut who _ _
  | scanning stamp flight =>
    simp only [stepBuild]
    split
    · rename_i rows mid hreceive
      have hregistry := registry_of_receive hreceive
      rw [hregistry]
      exact .advance (.scan hreceive hregistry rfl)
    · rename_i e mid hreceive
      exact site.turn_fail who hreceive
  | dialing stamp reading keys due =>
    simp only [stepBuild]
    split
    · rename_i listing mid hinstall
      cases errand with
      | resolve key => exact .resolve hinstall
      | refresh key rest changes => exact .refresh hinstall (goesOn_refreshNext _ _ _ _)
      | rebuild changes => exact .rebuild hinstall
    · rename_i e hinstall
      rw [eq_closed_of_site_install hinstall]
      exact site.turn_shut who _ _

/-! ## The watcher -/

theorem turn_stepListening (changes : Changes) :
    site.Turn who ⟨.listening changes, false⟩ (site.stepListening changes).1
      (site.stepListening changes).2 := by
  unfold stepListening
  split
  · rename_i hpull
    exact .pass (.inl ⟨hpull, rfl⟩)
  · rename_i hpull
    exact .pass (.inr hpull)
  · rename_i hpull
    exact .take hpull
  · exact .of_same rfl rfl rfl ⟨rfl, rfl⟩

theorem turn_stepDiscarding (changes : Changes) (concern : Attribution) :
    site.Turn who ⟨.discarding changes concern, false⟩ (site.stepDiscarding who changes concern).1
      (site.stepDiscarding who changes concern).2 := by
  simp only [stepDiscarding]
  split
  · rename_i hdiscard
    exact .discard hdiscard
  · rename_i hdiscard
    have hfilled : site.registry.cache.filled.isSome = true := by
      unfold Cache.discardPending at hdiscard
      split at hdiscard
      · assumption
      · cases hdiscard
    cases concern with
    | everything => exact .relayAll hfilled
    | services keys => exact .relay hfilled (goesOn_refreshNext _ _ _ _)

/-- Every step of an activity that has not ended is a turn. -/
theorem turn_of_stepFrom {progress : Progress} (h : ∀ outcome, progress ≠ .finished outcome) :
    site.Turn who ⟨progress, false⟩ (site.stepFrom who progress).1
      (site.stepFrom who progress).2 := by
  cases progress with
  | calling call => exact site.turn_stepCalling who call
  | looking key => exact site.turn_stepLooking who key
  | building errand build => exact site.turn_stepBuild who errand build
  | locating key options flight => exact site.turn_stepLocating who key options flight
  | registering key stage => exact site.turn_stepRegistering who key stage
  | unregistering closing stage => exact site.turn_stepUnregistering who closing stage
  | sealing => exact .close rfl rfl
  | starting => exact .start rfl
  | subscribing flight =>
    simp only [stepFrom]
    split
    · rename_i hreceive
      exact .subscribe hreceive
    · rename_i hreceive
      have hsame := sameCache_receive hreceive
      exact .of_same rfl rfl rfl ⟨hsame.1, hsame.2⟩
  | listening changes => exact site.turn_stepListening who changes
  | discarding changes concern => exact site.turn_stepDiscarding who changes concern
  | renewing key lease renewals => exact site.turn_stepRenewing who key lease renewals
  | finished outcome => exact absurd rfl (h outcome)

end Site

end ServiceRegistry
