import ServiceRegistry.Proofs.Registry.Debts
import ServiceRegistry.Proofs.Registry.Generation

/-!
# Coherence at rest

A site is at rest when its watcher waits for a batch and the subscription has none. What the cache
shows for a service is then what the store held at the scan from which it is shown, and nothing has
been published about the service since, unless the watcher gave the service up or the scan was made
before the subscription was open. So the cache shows what the store holds as long as no scan fails
and the watcher comes first. A failed scan is not made up for by later batches about other services.
-/
namespace ServiceRegistry

namespace Dialing

/-- Whether the endpoint of an instance can be built and is not refused. -/
def reaches (dialing : Dialing) (key : EndpointKey) : Bool :=
  match Endpoint.build key.address dialing.connectTimeout dialing.options with
  | .ok endpoint => dialing.dialer.accepts dialing.time endpoint
  | .error _ => false

/-- The connections go to the addresses of the instances that can be reached, in their order. -/
theorem map_target_connections (dialing : Dialing) (keys : List EndpointKey) :
    (keys.filterMap dialing.connect?).map (·.target) =
      (keys.filter dialing.reaches).map (·.address) := by
  induction keys with
  | nil => rfl
  | cons key keys ih =>
    cases hbuild : Endpoint.build key.address dialing.connectTimeout dialing.options with
    | error e => simp [connect?, endpoint?, reaches, hbuild, Except.toOption, ih]
    | ok endpoint =>
      by_cases haccepts : dialing.dialer.accepts dialing.time endpoint = true
      · simp [connect?, endpoint?, reaches, hbuild, Except.toOption, haccepts, ih]
      · simp [connect?, endpoint?, reaches, hbuild, Except.toOption, haccepts, ih]

end Dialing

/-- A subscription that has nothing left to deliver has come to the end of what was published. -/
theorem Changes.revision_le_of_due {sub : Subscription} {store : Store}
    (h : (Changes.live sub).due store = none) : store.revision ≤ sub.next := by
  have hnews : ¬ store.feed.isNews sub = true := by
    intro hnews
    simp [due, hnews] at h
  simp only [Feed.isNews, Bool.or_eq_true, decide_eq_true_eq, not_or] at hnews
  exact not_lt.1 hnews.2

namespace Site

/-- The connections that dials of a time, made with the options of now, give for the instances that stood
in a store. -/
def connectionsOf (site : Site) (store : Store) (time : Nat) (key : ServiceKey) : List Connection :=
  (store.instances site.registry.config.root key).filterMap
    (site.registry.dialing site.registry.cache.options time).connect?

/-- The watcher waits for a batch, and nothing is left that its subscription could deliver. -/
def Rests (site : Site) : Prop :=
  ∃ changes, site.registry.activities[Registry.watcher]? = some ⟨.listening changes, false⟩ ∧
    changes.due site.store = none

/-! ## Calls of an open registry -/

/-- A registry has a watcher, and asks it to end when it closes. -/
structure Tended (site : Site) : Prop where
  started : site.registry.activities ≠ []
  closing : site.registry.closed = true → ∃ progress,
    site.registry.activities[Registry.watcher]? = some ⟨progress, true⟩

theorem Frame.tended {before after : Site} (h : before.Frame after) (hbefore : before.Tended) :
    after.Tended := by
  have hpos := List.length_pos_of_ne_nil hbefore.started
  refine ⟨List.ne_nil_of_length_pos (hpos.trans_le h.length_le), fun hclosed => ?_⟩
  rcases h.closed with hsame | hasked
  · obtain ⟨progress, hwatcher⟩ := hbefore.closing (hsame ▸ hclosed)
    obtain ⟨cancelled, hafter, hcancelled⟩ := h.kept _ _ hwatcher
    exact ⟨progress, hcancelled rfl ▸ hafter⟩
  · exact hasked hbefore.started

theorem Tended.settle {site : Site} (h : site.Tended) (who : Nat) (next : Progress) :
    (site.settle who next).Tended := by
  constructor
  · have hpos := List.length_pos_of_ne_nil h.started
    refine List.ne_nil_of_length_pos ?_
    simpa [Site.settle, mapRegistry, Registry.move] using hpos
  · intro hclosed
    obtain ⟨progress, hwatcher⟩ := h.closing hclosed
    by_cases hwho : who = Registry.watcher
    · exact ⟨next, by simp [Site.settle, mapRegistry, Registry.move, hwatcher, hwho]⟩
    · exact ⟨progress, by simp [Site.settle, mapRegistry, Registry.move, hwatcher, hwho]⟩

theorem tended_of_run {store : Store} {config : Config} {dialer : Dialer} {faults : Faults}
    {moves : List Move} {site : Site}
    (hrun : (start store config dialer faults).run moves = some site) : site.Tended := by
  refine run_induction (P := Tended) ⟨List.cons_ne_nil _ _, Bool.noConfusion⟩ ?_ hrun
  intro s t move h hmove
  cases moved_of_after hmove with
  | turn hactivity hready hturn hframe => exact (hframe.tended h).settle _ _
  | calm hother hcache hgate hframe => exact hframe.tended h

/-- A caller of an open registry with a filled cache is handed what the cache shows. -/
theorem run_getConnections {site : Site} (hopen : site.registry.closed = false)
    (hcache : site.registry.cache.closed = false)
    (hfilled : site.registry.cache.filled.isSome = true) {service : String} {key : ServiceKey}
    (hservice : ServiceKey.make site.registry.config.root service = .ok key) :
    ∃ answered listing, site.run [.call (.getConnections service),
          .step site.registry.activities.length, .step site.registry.activities.length] =
        some answered ∧
      answered.progress? site.registry.activities.length =
        some (.finished (.ok (.connections listing))) ∧
      site.registry.cache.Shows key listing := by
  obtain ⟨listing, hlookup⟩ := Cache.lookup_of_filled hcache hfilled key
  -- The caller is the last of the activities from the call on.
  let called : Site := site.mapRegistry fun registry =>
    registry.begin (.calling (.getConnections service))
  let looked : Site := called.settle site.registry.activities.length (.looking key)
  let answered : Site := looked.settle site.registry.activities.length
    (.finished (.ok (.connections listing)))
  have hcalled : called.registry.activities[site.registry.activities.length]? =
      some ⟨.calling (.getConnections service), false⟩ := by
    simp [called, mapRegistry, Registry.begin, Activity.begin]
  have hlooked : looked.registry.activities[site.registry.activities.length]? =
      some ⟨.looking key, false⟩ := by
    simp [looked, Site.settle, mapRegistry, Registry.move, hcalled]
  have hfirst : called.after (.step site.registry.activities.length) = some looked := by
    have hready : called.canStep site.registry.activities.length = true := by
      simp [canStep, Site.due, hcalled, Activity.isDropped, dueFrom]
    have hensure : called.registry.ensureOpen = .ok () := by
      simp [Registry.ensureOpen, called, mapRegistry, Registry.begin, hopen]
    have hmake : ServiceKey.make called.registry.config.root service = .ok key := hservice
    simp only [Site.after, hready, if_true, step, hcalled, Activity.isDropped, Bool.false_and,
      Bool.false_eq_true, if_false, stepFrom, stepCalling, hensure, hmake]
    rfl
  have hsecond : looked.after (.step site.registry.activities.length) = some answered := by
    have hready : looked.canStep site.registry.activities.length = true := by
      simp [canStep, Site.due, hlooked, Activity.isDropped, dueFrom]
    have hfound : looked.registry.cache.lookup key = .ok (some listing) := hlookup
    simp only [Site.after, hready, if_true, step, hlooked, Activity.isDropped, Bool.false_and,
      Bool.false_eq_true, if_false, stepFrom, stepLooking, hfound]
    rfl
  refine ⟨answered, listing, ?_, ?_, Cache.shows_of_lookup hlookup⟩
  · rw [run_cons, Site.after, Option.bind_some, run_cons, hfirst, Option.bind_some, run_cons,
      hsecond]
    rfl
  · simp [answered, progress?, Site.settle, mapRegistry, Registry.move, hlooked]

/-! ## What is shown -/

/-- The instances that a reading for a service keeps are those that stood in the store. -/
theorem instances_of_errand (site : Site) {errand : Errand} {key : ServiceKey}
    (hcovers : errand.Covers key) :
    key.instances (errand.instances (EndpointKey.ofRows site.registry.config.root
      (site.store.rows (site.directoryOf errand)))) =
        site.store.instances site.registry.config.root key := by
  cases errand with
  | refresh other rest changes =>
    obtain rfl : key = other := hcovers
    rw [Errand.instances, ServiceKey.instances_instances]
    refine Store.instances_rows _ fun text other hparse hservice => ?_
    exact hservice ▸ EndpointKey.startsWith_directory_of_parse hparse
  | resolve | rebuild =>
    exact Store.instances_rows _ fun text other hparse _ =>
      EndpointKey.startsWith_root_of_parse hparse

section
variable {store : Store} {config : Config} {dialer : Dialer} {faults : Faults} {moves : List Move}
  {final : Site}

/-- What is shown was found by a scan of the run, and was dialed with the options of now. -/
theorem scan_of_shows (hrows : faults.Genuine .getPrefix)
    (hrun : (start store config dialer faults).run moves = some final) {key : ServiceKey}
    {listing : Listing} (hshows : final.registry.cache.Shows key listing) :
    ∃ early who errand stamp rows,
      (early, .step who) ∈ (start store config dialer faults).history moves ∧
        early.Scans who errand stamp rows ∧ listing.reading = early.reading stamp ∧
        listing.connections = final.connectionsOf early.store listing.reading.time key := by
  obtain ⟨hcurrent, stamp, errand, keys, hreads, hcovers, hconnections⟩ :=
    (Provenance.of_run hrun).shown key listing hshows
  have hoptions := (options_of_reads hrun hreads).2.2 (hreads.generation_eq.symm.trans hcurrent)
  obtain ⟨early, who, rows, hmem, hscans, hreading, rfl⟩ := hreads.scanned
  obtain ⟨flight, mid, hactivity, hreceive⟩ := id hscans
  obtain ⟨before, after, -, hearly⟩ := split_of_mem_history hmem
  obtain ⟨rfl, -⟩ := (asksRows_of_run hrows hearly).scans (progress?_of_activity hactivity) hreceive
  obtain ⟨-, next, hnext, hfuture⟩ := precedes_of_mem_history hrun hmem
  have hconfig := ((precedes_of_after hnext).trans hfuture).config
  refine ⟨early, who, errand, stamp, _, hmem, hscans, hreading, ?_⟩
  rw [hconnections, connectionsOf, Dialing.connections, early.instances_of_errand hcovers,
    Registry.dialing, hconfig, hoptions]

/-- At rest the store has been silent since the account of a reading began, unless the service was given
up. -/
theorem Rests.silent (hrests : final.Rests) (hrows : faults.Genuine .getPrefix)
    (hwatch : faults.Genuine .watch)
    (hrun : (start store config dialer faults).run moves = some final) {key : ServiceKey}
    {reading : Reading} (hholds : final.Holds key reading) :
    (∃ first, reading.BeginsAt ((start store config dialer faults).history moves) first ∧
        final.store.Silent final.registry.config.root key first final.store.revision) ∨
      GivenUp ((start store config dialer faults).history moves) key reading := by
  obtain ⟨changes, hactivity, hdrained⟩ := hrests
  have hprogress := progress?_of_activity hactivity
  obtain ⟨sub, rfl, -, hplace⟩ := (follows_of_run hwatch hrun).live _ _ changes hprogress rfl
  have hend : final.store.revision ≤ sub.next := Changes.revision_le_of_due hdrained
  have hnext := Nat.le_antisymm hplace hend
  cases accounts_of_run hrows hwatch hrun _ sub hprogress rfl key reading hholds with
  | silent hfirst hsilent => exact .inl ⟨_, hfirst, hnext ▸ hsilent⟩
  | owed howes => exact howes.elim
  | givenUp hgiven => exact .inr hgiven

/-- What has happened since the reading of a list that is shown at rest. -/
theorem Rests.accounted (hrests : final.Rests) (hrows : faults.Genuine .getPrefix)
    (hwatch : faults.Genuine .watch)
    (hrun : (start store config dialer faults).run moves = some final) {key : ServiceKey}
    {reading : Reading} (hholds : final.Holds key reading) :
    final.store.Silent final.registry.config.root key reading.revision final.store.revision ∨
      GivenUp ((start store config dialer faults).history moves) key reading ∨
      Unwatched ((start store config dialer faults).history moves) reading := by
  rcases hrests.silent hrows hwatch hrun hholds with ⟨first, hfirst, hsilent⟩ | hgiven
  · rcases hfirst.eq_or_unwatched with rfl | hunwatched
    · exact .inl hsilent
    · exact .inr (.inr hunwatched)
  · exact .inr (.inl hgiven)

/-- A store about whose instances nothing was published since a site of the run has the instances
that it had there. -/
theorem connectionsOf_eq (hrun : (start store config dialer faults).run moves = some final)
    {early : Site} {move : Move}
    (hmem : (early, move) ∈ (start store config dialer faults).history moves) {key : ServiceKey}
    (hsilent : final.store.Silent final.registry.config.root key early.store.revision
      final.store.revision) (time : Nat) :
    final.connectionsOf early.store time key = final.connectionsOf final.store time key := by
  obtain ⟨-, next, hnext, hfuture⟩ := precedes_of_mem_history hrun hmem
  have hevolves := ((precedes_of_after hnext).trans hfuture).store
  rw [connectionsOf, connectionsOf, hsilent.instances_eq hevolves]

/-- Two sites of a run at which the store had one revision have the same instances in it. -/
theorem connectionsOf_eq_of_revision
    (hrun : (start store config dialer faults).run moves = some final) {first second : Site × Move}
    (hfirst : first ∈ (start store config dialer faults).history moves)
    (hsecond : second ∈ (start store config dialer faults).history moves)
    (hrevision : first.1.store.revision = second.1.store.revision) (time : Nat) (key : ServiceKey) :
    final.connectionsOf first.1.store time key = final.connectionsOf second.1.store time key := by
  have heq : ∀ {before after : Site}, before.store.Evolves after.store →
      before.store.revision = after.store.revision →
        final.connectionsOf after.store time key = final.connectionsOf before.store time key := by
    intro before after hevolves hsame
    have hsilent : after.store.Silent final.registry.config.root key before.store.revision
        after.store.revision := Store.silent_of_le hsame.ge
    rw [connectionsOf, connectionsOf, hsilent.instances_eq hevolves]
  rcases precedes_total hrun hfirst hsecond with hbefore | ⟨next, hnext, hafter⟩
  · exact heq hbefore.store hrevision.symm
  · exact (heq ((precedes_of_after hnext).trans hafter).store hrevision).symm

/-- A list that is shown at rest is right unless its service was given up after its reading or was
read before the subscription was open. -/
theorem Rests.connections_eq (hrests : final.Rests) (hrows : faults.Genuine .getPrefix)
    (hwatch : faults.Genuine .watch)
    (hrun : (start store config dialer faults).run moves = some final) {key : ServiceKey}
    {listing : Listing} (hshows : final.registry.cache.Shows key listing) :
    listing.connections = final.connectionsOf final.store listing.reading.time key ∨
      GivenUp ((start store config dialer faults).history moves) key listing.reading ∨
      Unwatched ((start store config dialer faults).history moves) listing.reading := by
  obtain ⟨early, who, errand, stamp, rows, hmem, -, hreading, hconnections⟩ :=
    scan_of_shows hrows hrun hshows
  refine (hrests.accounted hrows hwatch hrun (.inl ⟨listing, hshows, rfl⟩)).imp_left ?_
  intro hsilent
  rw [hreading] at hsilent
  rw [hconnections]
  exact connectionsOf_eq hrun hmem hsilent _

/-- A list that is shown was scanned after the opening of the subscription if nothing was scanned
before. -/
theorem not_unwatched {before later : List Move} {opening : Site}
    (hrows : faults.Genuine .getPrefix)
    (hrun : (start store config dialer faults).run moves = some final)
    (hmoves : moves = before ++ .step Registry.watcher :: later)
    (hbefore : (start store config dialer faults).run before = some opening)
    (hopens : opening.Opens)
    (hunread : ∀ early who errand stamp rows,
      (early, .step who) ∈ (start store config dialer faults).history before →
        ¬ early.Scans who errand stamp rows)
    {key : ServiceKey} {listing : Listing} (hshows : final.registry.cache.Shows key listing) :
    ¬ Unwatched ((start store config dialer faults).history moves) listing.reading := by
  subst hmoves
  obtain ⟨hstep, -⟩ := hopens.listening
  have hlater : (opening.step Registry.watcher).run later = some final := by
    rw [run_append, hbefore, Option.bind_some, run_cons, hstep] at hrun
    exact hrun
  obtain ⟨early, who, errand, stamp, rows, hmem, hscans, hreading, -⟩ :=
    scan_of_shows hrows hrun hshows
  have hfrom : opening.store.scans ≤ early.store.scans := by
    rw [history_append hbefore] at hmem
    rcases List.mem_append.1 hmem with hunwatched | hwatched
    · exact absurd hscans (hunread early who errand stamp rows hunwatched)
    · have hopened : opening.run (.step Registry.watcher :: later) = some final := by
        rw [run_cons, hstep]
        exact hlater
      exact (precedes_of_mem_history hopened hwatched).1.store.scans_le
  rintro ⟨other, hother, hagain, hscan⟩
  have hupto : other.store.scans ≤ opening.store.scans := by
    rw [history_append hbefore, history_cons hstep] at hother
    rcases List.mem_append.1 hother with hfront | hback
    · obtain ⟨-, next, hnext, hfuture⟩ := precedes_of_mem_history hbefore hfront
      exact ((precedes_of_after hnext).trans hfuture).store.scans_le
    · rcases List.mem_cons.1 hback with he | hback
      · cases he
        exact le_rfl
      · obtain ⟨front, back, -, hrest⟩ := split_of_mem_history hback
        exact absurd hagain (hopens.not_opens_later hrest)
  have hsame : listing.reading.scan = early.store.scans := by rw [hreading]; rfl
  omega

end

end Site

/-- If the subscription was opened before the first scan and no scan of the watcher has failed, then
a caller who comes at rest to a filled cache is handed the connections to the instances that the
store holds, in the order of their keys. They were dialed when the list was read. -/
theorem coherent_at_rest {store : Store} {config : Config} {dialer : Dialer} {faults : Faults}
    (hrows : faults.Genuine .getPrefix) (hwatch : faults.Genuine .watch)
    {moves before later : List Move} {opening final : Site}
    (hrun : (Site.start store config dialer faults).run moves = some final)
    (hmoves : moves = before ++ .step Registry.watcher :: later)
    (hbefore : (Site.start store config dialer faults).run before = some opening)
    (hopens : opening.Opens)
    (hunread : ∀ early who errand stamp rows,
      (early, .step who) ∈ (Site.start store config dialer faults).history before →
        ¬ early.Scans who errand stamp rows)
    (hanswered : ∀ early errand,
      (early, .step Registry.watcher) ∈ (Site.start store config dialer faults).history moves →
        ¬ early.Fails Registry.watcher errand)
    (hrests : final.Rests) (hfilled : final.registry.cache.filled.isSome = true)
    {service : String} {key : ServiceKey} (hservice : ServiceKey.make config.root service = .ok key) :
    ∃ answered listing, final.run [.call (.getConnections service),
          .step final.registry.activities.length, .step final.registry.activities.length] =
        some answered ∧
      answered.progress? final.registry.activities.length =
        some (.finished (.ok (.connections listing))) ∧
      listing.connections = final.connectionsOf final.store listing.reading.time key ∧
      listing.connections.map (·.target) =
        ((final.store.instances config.root key).filter (final.registry.dialing
          final.registry.cache.options listing.reading.time).reaches).map (·.address) := by
  have hconfig : final.registry.config = config := (Site.precedes_of_run hrun).config
  have hopen : final.registry.closed = false := by
    obtain ⟨changes, hactivity, -⟩ := hrests
    by_contra hclosed
    obtain ⟨progress, hasked⟩ := (Site.tended_of_run hrun).closing (by simpa using hclosed)
    rw [hactivity] at hasked
    cases hasked
  have hcache : final.registry.cache.closed = false := by
    by_contra hclosed
    rw [(Site.orderly_of_run hrun).closed (by simpa using hclosed)] at hfilled
    cases hfilled
  obtain ⟨answered, listing, hanswer, hlisting, hshows⟩ :=
    Site.run_getConnections hopen hcache hfilled (hconfig ▸ hservice)
  have hconnections : listing.connections = final.connectionsOf final.store listing.reading.time key := by
    rcases hrests.connections_eq hrows hwatch hrun hshows with hright | hgiven | hunwatched
    · exact hright
    · obtain ⟨early, errand, hmem, hfails, -⟩ := hgiven
      exact absurd hfails (hanswered early errand hmem)
    · exact absurd hunwatched
        (Site.not_unwatched hrows hrun hmoves hbefore hopens hunread hshows)
  refine ⟨answered, listing, hanswer, hlisting, hconnections, ?_⟩
  rw [hconnections, Site.connectionsOf, Dialing.map_target_connections, hconfig]

/-- Two instances of a service appear, one before and one after a caller reads the root for it. The
watcher hears of both. -/
def busyMoves : List Move :=
  [.request (.put "svc/chat/10.0.0.1:9000" "" none), .call (.getConnections "chat"), .step 1, .step 1,
    .step 1, .step 1, .step 1, .request (.put "svc/chat/10.0.0.2:9000" "" none), .step 1] ++
    List.replicate 12 (.step Registry.watcher)

theorem coherent_at_rest_busy :
    ∃ final answered listing,
      Site.sample.run ([.step Registry.watcher] ++ .step Registry.watcher :: busyMoves) = some final ∧
      final.run [.call (.getConnections "chat"), .step 2, .step 2] = some answered ∧
      answered.progress? 2 = some (.finished (.ok (.connections listing))) ∧
      listing.connections.map (·.target) = ["10.0.0.1:9000", "10.0.0.2:9000"] := by
  let moves : List Move := [.step Registry.watcher] ++ .step Registry.watcher :: busyMoves
  let chat : ServiceKey := ⟨"svc", "chat", by decide, by decide⟩
  obtain ⟨final, hfinal⟩ : ∃ final, Site.sample.run moves = some final :=
    Option.isSome_iff_exists.1 rfl
  have hwatcher : (Site.sample.run moves).bind (fun site => site.registry.activities[0]?) =
      some ⟨.listening (.live ⟨"svc/", 2⟩), false⟩ := rfl
  have hdrained : (Site.sample.run moves).map
      (fun site => (Changes.live ⟨"svc/", 2⟩).due site.store) = some none := rfl
  have hfilled : (Site.sample.run moves).map (fun site => site.registry.cache.filled.isSome) =
      some true := rfl
  have hlength : (Site.sample.run moves).map (fun site => site.registry.activities.length) =
      some 2 := rfl
  have hreached : ∀ time, (Site.sample.run moves).map (fun site =>
      ((site.store.instances "svc" chat).filter
        (site.registry.dialing site.registry.cache.options time).reaches).map (·.address)) =
          some ["10.0.0.1:9000", "10.0.0.2:9000"] := fun _ => rfl
  have hunread : ∀ early who errand stamp rows,
      (early, .step who) ∈ Site.sample.history [.step Registry.watcher] →
        ¬ early.Scans who errand stamp rows := by
    rintro early who errand stamp rows hmem ⟨flight, mid, hactivity, -⟩
    rcases List.mem_cons.1 hmem with he | hmem
    · cases he
      cases hactivity
    · cases hmem
  have hanswered : ∀ early errand, (early, .step Registry.watcher) ∈ Site.sample.history moves →
      ¬ early.Fails Registry.watcher errand := by
    intro early errand hmem hfails
    have hall : ((Site.sample.history moves).all fun entry =>
      !entry.1.isFailed Registry.watcher) = true := rfl
    have hgood := List.all_eq_true.1 hall _ hmem
    rw [hfails.isFailed] at hgood
    cases hgood
  rw [hfinal] at hwatcher hdrained hfilled hlength hreached
  obtain ⟨answered, listing, hanswer, hlisting, -, htargets⟩ :=
    coherent_at_rest (Faults.genuine_none _) (Faults.genuine_none _) hfinal rfl
      (show Site.sample.run [.step Registry.watcher] = some (Site.sample.step 0) from rfl)
      ⟨_, _, _, rfl, rfl, rfl⟩ hunread hanswered ⟨_, hwatcher, Option.some.inj hdrained⟩
      (Option.some.inj hfilled)
      (show ServiceKey.make "svc" "chat" = .ok chat from rfl)
  have hlength : final.registry.activities.length = 2 := Option.some.inj hlength
  rw [hlength] at hanswer hlisting
  exact ⟨final, answered, listing, hfinal, hanswer, hlisting,
    htargets.trans (Option.some.inj (hreached _))⟩

/-! ## After a failed scan -/

/-- At rest all lists are right just if every service that was given up after its reading, or was
read before the subscription was open, has the connections that it had at the reading. -/
theorem coherent_iff_given_up_unchanged {store : Store} {config : Config} {dialer : Dialer}
    {faults : Faults} (hrows : faults.Genuine .getPrefix) (hwatch : faults.Genuine .watch)
    {moves : List Move} {final : Site}
    (hrun : (Site.start store config dialer faults).run moves = some final) (hrests : final.Rests) :
    (∀ key listing, final.registry.cache.Shows key listing →
        listing.connections = final.connectionsOf final.store listing.reading.time key) ↔
      ∀ key listing, final.registry.cache.Shows key listing →
        GivenUp ((Site.start store config dialer faults).history moves) key listing.reading ∨
            Unwatched ((Site.start store config dialer faults).history moves) listing.reading →
          ∀ early move, (early, move) ∈ (Site.start store config dialer faults).history moves →
            early.store.revision = listing.reading.revision →
              final.connectionsOf early.store listing.reading.time key =
                final.connectionsOf final.store listing.reading.time key := by
  constructor
  · intro hright key listing hshows _ early move hmem hrevision
    obtain ⟨past, who, errand, stamp, rows, hpast, -, hreading, hconnections⟩ :=
      Site.scan_of_shows hrows hrun hshows
    have hsame : early.store.revision = past.store.revision := by
      rw [hrevision, hreading]
      rfl
    rw [← hright key listing hshows, hconnections]
    exact Site.connectionsOf_eq_of_revision hrun hmem hpast hsame _ key
  · intro hkept key listing hshows
    obtain ⟨past, who, errand, stamp, rows, hpast, -, hreading, hconnections⟩ :=
      Site.scan_of_shows hrows hrun hshows
    rcases hrests.connections_eq hrows hwatch hrun hshows with hright | hlost
    · exact hright
    · rw [hconnections]
      refine hkept key listing hshows hlost past _ hpast ?_
      rw [hreading]
      rfl

/-- The second reading of the store fails. -/
def secondFails : Faults :=
  (Faults.none.add (⟨0, .plain, some 1⟩ : Fault .getPrefix)).add
    (⟨0, .refused (.store "boom"), some 1⟩ : Fault .getPrefix)

theorem genuine_secondFails (m : Method) : secondFails.Genuine m := by
  refine .add (.add (Faults.genuine_none m) ?_) ?_
  · exact nofun
  · exact nofun

def failing : Site := .start .empty (Config.make "svc" []) .onFirstUse secondFails

/-- The only instance of a service is shown and is deleted then, and the watcher is about to hear
that it cannot be told so. -/
def beforeFailure : List Move :=
  [.step Registry.watcher, .step Registry.watcher, .request (.put "svc/chat/10.0.0.1:9000" "" none),
    .step Registry.watcher, .step Registry.watcher, .call (.getConnections "chat"), .step 1, .step 1,
    .step 1, .step 1, .step 1, .step 1, .request (.delete "svc/chat/10.0.0.1:9000")] ++
    List.replicate 4 (.step Registry.watcher)

/-- The watcher goes on after the failure, and applies a batch about another service. -/
def afterFailure : List Move :=
  .request (.put "svc/push/10.0.0.2:9100" "" none) :: List.replicate 6 (.step Registry.watcher)

/-- The run comes to rest with what the cache had for the service before the failure. -/
theorem rests_after_failure :
    ∃ final chat stale,
      failing.run (beforeFailure ++ .step Registry.watcher :: afterFailure) = some final ∧
      final.Rests ∧ final.registry.cache.Shows chat stale ∧
      stale.connections.map (·.target) = ["10.0.0.1:9000"] ∧
      final.connectionsOf final.store stale.reading.time chat = [] := by
  refine ⟨(failing.run (beforeFailure ++ .step Registry.watcher :: afterFailure)).get rfl,
    ⟨"svc", "chat", by decide, by decide⟩,
    ⟨⟨1, 0, 1, 0⟩, [⟨"10.0.0.1:9000", [⟨⟨"10.0.0.1:9000", "", none⟩, none, []⟩]⟩]⟩,
    (Option.some_get _).symm, ⟨.live ⟨"svc/", 3⟩, rfl, rfl⟩, Cache.shows_of_lookup rfl, rfl, rfl⟩

/-- A service was given up in that run, and its connections are not those of its reading. -/
theorem given_up_changed_after_failure :
    ∃ final key listing early move,
      failing.run (beforeFailure ++ .step Registry.watcher :: afterFailure) = some final ∧
      final.Rests ∧ final.registry.cache.Shows key listing ∧
      (GivenUp (failing.history (beforeFailure ++ .step Registry.watcher :: afterFailure)) key
          listing.reading ∨
        Unwatched (failing.history (beforeFailure ++ .step Registry.watcher :: afterFailure))
          listing.reading) ∧
      (early, move) ∈ failing.history (beforeFailure ++ .step Registry.watcher :: afterFailure) ∧
      early.store.revision = listing.reading.revision ∧
      final.connectionsOf early.store listing.reading.time key ≠
        final.connectionsOf final.store listing.reading.time key := by
  obtain ⟨final, chat, stale, hfinal, hrests, hshows, htargets, hnone⟩ := rests_after_failure
  have hwrong : ¬ ∀ key listing, final.registry.cache.Shows key listing →
      listing.connections = final.connectionsOf final.store listing.reading.time key := by
    intro hright
    rw [hright chat stale hshows, hnone] at htargets
    cases htargets
  have hchanged := mt (coherent_iff_given_up_unchanged (genuine_secondFails _)
    (genuine_secondFails _) hfinal hrests).2 hwrong
  push Not at hchanged
  obtain ⟨key, listing, hlisting, hlost, early, move, hmem, hrevision, hne⟩ := hchanged
  exact ⟨final, key, listing, early, move, hfinal, hrests, hlisting, hlost, hmem, hrevision, hne⟩

/-- The batch about the other service has been applied, and the service that was given up is still
shown with the instance that was deleted. -/
theorem given_up_stays_stale :
    ∃ early final errand push pushed chat stale,
      failing.run beforeFailure = some early ∧ early.Fails Registry.watcher errand ∧
      failing.run (beforeFailure ++ .step Registry.watcher :: afterFailure) = some final ∧
      final.Rests ∧ final.registry.cache.Shows push pushed ∧
      pushed.reading.revision = final.store.revision ∧
      final.registry.cache.Shows chat stale ∧
      stale.connections.map (·.target) = ["10.0.0.1:9000"] ∧
      final.store.keys = ["svc/push/10.0.0.2:9100"] := by
  refine ⟨(failing.run beforeFailure).get rfl,
    (failing.run (beforeFailure ++ .step Registry.watcher :: afterFailure)).get rfl, _,
    ⟨"svc", "push", by decide, by decide⟩,
    ⟨⟨1, 1, 3, 0⟩, [⟨"10.0.0.2:9100", [⟨⟨"10.0.0.2:9100", "", none⟩, none, []⟩]⟩]⟩,
    ⟨"svc", "chat", by decide, by decide⟩,
    ⟨⟨1, 0, 1, 0⟩, [⟨"10.0.0.1:9000", [⟨⟨"10.0.0.1:9000", "", none⟩, none, []⟩]⟩]⟩,
    (Option.some_get _).symm, ⟨_, _, _, _, rfl, rfl⟩, (Option.some_get _).symm,
    ⟨.live ⟨"svc/", 3⟩, rfl, rfl⟩, Cache.shows_of_lookup rfl, rfl, Cache.shows_of_lookup rfl, rfl,
    rfl⟩

end ServiceRegistry
