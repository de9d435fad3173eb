import ServiceRegistry.Proofs.Registry.Calls
import ServiceRegistry.Proofs.Registry.Provenance
import ServiceRegistry.Proofs.Store.Instances

/-!
# Readings in the order of time

A list that a caller is handed is what one scan of the store has found of the service, dialed with the
options of one stamp. Scans are dated by their places among the moves of the run. What the cache shows
of a service was scanned no later than whatever is being dialed for it, and a list that was handed out
without being put into the cache leaves a cache that is to be filled behind. So the lists of a service
are handed out in the order of their scans, and no caller is sent back to an earlier one.
-/
namespace ServiceRegistry

/-- The `n`-th move of a run is a scan, and the list of the service is what the scan has found of it,
dialed with the options of the stamp that the reader had taken from the cache before. -/
def FoundAt (past : List (Site × Move)) (n : Nat) (stamp : Stamp) (key : ServiceKey)
    (listing : Listing) : Prop :=
  ∃ site who errand rows,
    past[n]? = some (site, .step who) ∧ site.Scans who errand stamp rows ∧ errand.Covers key ∧
    (∃ m early, m < n ∧ past[m]? = some (early, .step who) ∧ early.Stamps who errand stamp) ∧
    listing.reading = site.reading stamp ∧
    listing.connections = (site.registry.dialing stamp.options site.clock).connections
      (EndpointKey.ofRows site.registry.config.root rows) key

/-- All that a site has of a service, in the cache or on the way to it, was scanned by the `n`-th move
of the run or later. -/
structure Since (past : List (Site × Move)) (n : Nat) (key : ServiceKey) (site : Site) : Prop where
  shown : ∀ listing, site.registry.cache.Shows key listing →
    ∃ m stamp, n ≤ m ∧ FoundAt past m stamp key listing
  dialed : ∀ who errand stamp reading keys due,
    site.progress? who = some (.building errand (.dialing stamp reading keys due)) →
      errand.Covers key → ∃ m, n ≤ m ∧ FoundAt past m stamp key
        ⟨reading, (site.registry.dialing stamp.options reading.time).connections keys key⟩

/-- The dates of all that a site has read. -/
structure Dated (past : List (Site × Move)) (site : Site) : Prop where
  stamped : ∀ who errand build stamp, site.progress? who = some (.building errand build) →
    build.stamp? = some stamp →
      ∃ (m : Nat) (early : Site), past[m]? = some (early, .step who) ∧ early.Stamps who errand stamp
  /-- What is being dialed is no older than what is shown. -/
  latest : ∀ key, ∃ n, n ≤ past.length ∧ Since past n key site ∧
    ∀ listing, site.registry.cache.Shows key listing → ∃ stamp, FoundAt past n stamp key listing

/-- A reading of one service keeps all that it finds of that service. -/
theorem Dialing.connections_of_covers (dialing : Dialing) {errand : Errand} {key : ServiceKey}
    (h : errand.Covers key) (decoded : List EndpointKey) :
    dialing.connections (errand.instances decoded) key = dialing.connections decoded key := by
  cases errand with
  | refresh other rest changes =>
    obtain rfl : key = other := h
    simp only [Dialing.connections, Errand.instances, ServiceKey.instances_instances]
  | resolve other => rfl
  | rebuild changes => rfl

theorem lt_length_of_getElem? {α : Type} {xs : List α} {n : Nat} {x : α} (h : xs[n]? = some x) :
    n < xs.length :=
  (List.getElem?_eq_some_iff.1 h).1

theorem getElem?_append_of_some {α : Type} {xs : List α} {n : Nat} {x : α} (h : xs[n]? = some x)
    (ys : List α) : (xs ++ ys)[n]? = some x := by
  rw [List.getElem?_append_left (lt_length_of_getElem? h), h]

namespace FoundAt

variable {past : List (Site × Move)} {n : Nat} {stamp : Stamp} {key : ServiceKey} {listing : Listing}

theorem lt_length (h : FoundAt past n stamp key listing) : n < past.length := by
  obtain ⟨site, who, errand, rows, hn, -⟩ := h
  exact lt_length_of_getElem? hn

theorem append (h : FoundAt past n stamp key listing) (later : List (Site × Move)) :
    FoundAt (past ++ later) n stamp key listing := by
  obtain ⟨site, who, errand, rows, hn, hscans, hcovers, ⟨m, early, hlt, hm, hstamps⟩, hrest⟩ := h
  exact ⟨site, who, errand, rows, getElem?_append_of_some hn later, hscans, hcovers,
    ⟨m, early, hlt, getElem?_append_of_some hm later, hstamps⟩, hrest⟩

end FoundAt

namespace Site

theorem Precedes.dialing_eq {before after : Site} (h : before.Precedes after)
    (options : List DialOption) (time : Nat) :
    after.registry.dialing options time = before.registry.dialing options time := by
  simp only [Registry.dialing, h.config, h.dialer]

/-- Of two moves of a run the one with the smaller number was made first. -/
theorem precedes_of_getElem? {site final : Site} {moves : List Move}
    (hrun : site.run moves = some final) {m n : Nat} (hle : m ≤ n) {first second : Site × Move}
    (hfirst : (site.history moves)[m]? = some first)
    (hsecond : (site.history moves)[n]? = some second) : first.1.Precedes second.1 := by
  induction moves generalizing site m n with
  | nil => simp [history] at hfirst
  | cons move moves ih =>
    obtain ⟨next, hnext, hrest⟩ := Option.bind_eq_some_iff.1 ((run_cons _ _ _).symm.trans hrun)
    cases m with
    | zero =>
      have hstart : first.1 = site := by
        rw [history] at hfirst
        exact congrArg Prod.fst (Option.some.inj hfirst).symm
      rw [hstart]
      exact (precedes_of_mem_history hrun (List.mem_of_getElem? hsecond)).1
    | succ m =>
      obtain ⟨n, rfl⟩ : ∃ k, n = k + 1 := ⟨n - 1, by omega⟩
      rw [history_cons hnext] at hfirst hsecond
      exact ih hrest (by omega) hfirst hsecond

end Site

section
variable {past : List (Site × Move)} {site after : Site} {move : Move}

/-- A scan is dated by the move that makes it. -/
theorem foundAt_scan {who : Nat} {errand : Errand} {stamp : Stamp} {rows : List Row} {m : Nat}
    {early : Site} {key : ServiceKey} (hscans : site.Scans who errand stamp rows)
    (hstamped : past[m]? = some (early, .step who)) (hstamps : early.Stamps who errand stamp)
    (hcovers : errand.Covers key) :
    FoundAt (past ++ [(site, .step who)]) past.length stamp key ⟨site.reading stamp,
      (site.registry.dialing stamp.options site.clock).connections
        (errand.instances (EndpointKey.ofRows site.registry.config.root rows)) key⟩ := by
  refine ⟨site, who, errand, rows, by simp, hscans, hcovers,
    ⟨m, early, lt_length_of_getElem? hstamped, getElem?_append_of_some hstamped _, hstamps⟩, rfl, ?_⟩
  exact Dialing.connections_of_covers _ hcovers _

/-- A move brings nothing to a site that is older than what the site has. -/
theorem Since.moved {n : Nat} {key : ServiceKey} (h : Since past n key site) (hpast : Dated past site)
    (hn : n ≤ past.length) (hmove : site.after move = some after) :
    Since (past ++ [(site, move)]) n key after := by
  have hmoved := Site.moved_of_after hmove
  have hprecedes := Site.precedes_of_after hmove
  constructor
  · intro listing hshows
    obtain ⟨-, hbefore | ⟨who, errand, stamp, reading, keys, due, hactivity, -, hcovers, rfl⟩⟩ :=
      hmoved.shows_cases hshows
    · obtain ⟨m, stamp, hle, hfound⟩ := h.shown listing hbefore
      exact ⟨m, stamp, hle, hfound.append _⟩
    · obtain ⟨m, hle, hfound⟩ :=
        h.dialed who errand stamp reading keys due (Site.progress?_of_activity hactivity) hcovers
      exact ⟨m, stamp, hle, hfound.append _⟩
  · intro who errand stamp reading keys due hdialing hcovers
    rw [hprecedes.dialing_eq]
    rcases hmoved.dialing_cases hdialing with hbefore | ⟨rfl, rows, hscans, rfl, rfl⟩
    · obtain ⟨m, hle, hfound⟩ := h.dialed who errand stamp reading keys due hbefore hcovers
      exact ⟨m, hle, hfound.append _⟩
    · obtain ⟨flight, hscanning⟩ := hscans.progress
      obtain ⟨m, early, hm, hstamps⟩ := hpast.stamped who errand _ stamp hscanning rfl
      exact ⟨past.length, hn, foundAt_scan hscans hm hstamps hcovers⟩

/-- A reading that has been dialed is the only thing that a site has of a service, unless the cache
shows something else of it: the reader came through the gate, and nobody else did. -/
theorem Since.of_dialed (horderly : site.Orderly) {who : Nat} {errand : Errand} {stamp : Stamp}
    {reading : Reading} {keys : List EndpointKey} {due n : Nat} {key : ServiceKey}
    (hmove : site.after (.step who) = some after)
    (hdialing : site.progress? who = some (.building errand (.dialing stamp reading keys due)))
    (hfound : FoundAt past n stamp key
      ⟨reading, (site.registry.dialing stamp.options reading.time).connections keys key⟩)
    (hshown : ∀ listing, after.registry.cache.Shows key listing →
      listing = ⟨reading, (site.registry.dialing stamp.options reading.time).connections keys key⟩) :
    Since (past ++ [(site, .step who)]) n key after := by
  constructor
  · intro listing hshows
    rw [hshown listing hshows]
    exact ⟨n, stamp, le_rfl, hfound.append _⟩
  · intro other otherErrand taken read found time hother
    rcases (Site.moved_of_after hmove).inside_cases hother rfl with
      ⟨hne, hbefore⟩ | ⟨former, mid, hstep, -, hactivity, hadvance, -⟩
    · obtain ⟨rfl, -, -⟩ := horderly.unique hbefore rfl hdialing rfl
      exact absurd rfl hne
    · cases hstep
      rw [Site.progress?_of_activity hactivity] at hdialing
      cases hdialing
      cases hadvance

theorem Dated.start {store : Store} {config : Config} {dialer : Dialer} {faults : Faults} :
    Dated [] (Site.start store config dialer faults) := by
  constructor
  · intro who errand build stamp h
    cases (Site.progress?_start h).2
  · intro key
    refine ⟨0, le_rfl, ⟨?_, ?_⟩, ?_⟩
    · intro listing h
      exact absurd h (Cache.not_shows_of_filled rfl)
    · intro who errand stamp reading keys due h
      cases (Site.progress?_start h).2
    · intro listing h
      exact absurd h (Cache.not_shows_of_filled rfl)

/-- A stamp that is held after a move was taken before, or is taken by the move. -/
theorem Dated.stamped_moved (h : Dated past site) (hmove : site.after move = some after) {who : Nat}
    {errand : Errand} {build : Build} {stamp : Stamp}
    (hbuild : after.progress? who = some (.building errand build)) (hstamp : build.stamp? = some stamp) :
    ∃ (m : Nat) (early : Site), (past ++ [(site, move)])[m]? = some (early, .step who) ∧
      early.Stamps who errand stamp := by
  rcases (Site.moved_of_after hmove).stamped_cases hbuild hstamp with
    ⟨former, hbefore, hheld⟩ | ⟨rfl, hstamps⟩
  · obtain ⟨m, early, hm, hstamps⟩ := h.stamped who errand former stamp hbefore hheld
    exact ⟨m, early, getElem?_append_of_some hm _, hstamps⟩
  · exact ⟨past.length, site, by simp, hstamps⟩

/-- The dates of what is shown are kept, or what is shown has the date of the reading that was put in. -/
theorem Dated.moved (h : Dated past site) (horderly : site.Orderly)
    (hmove : site.after move = some after) : Dated (past ++ [(site, move)]) after := by
  refine ⟨fun who errand build stamp => h.stamped_moved hmove, fun key => ?_⟩
  have hlength : past.length ≤ (past ++ [(site, move)]).length := by simp
  obtain ⟨n, hn, hsince, hshown⟩ := h.latest key
  have hkept : (∀ listing, after.registry.cache.Shows key listing →
      site.registry.cache.Shows key listing) → ∃ n, n ≤ (past ++ [(site, move)]).length ∧
        Since (past ++ [(site, move)]) n key after ∧ ∀ listing,
          after.registry.cache.Shows key listing →
            ∃ stamp, FoundAt (past ++ [(site, move)]) n stamp key listing := by
    intro hbefore
    refine ⟨n, hn.trans hlength, hsince.moved h hn hmove, fun listing hshows => ?_⟩
    obtain ⟨stamp, hfound⟩ := hshown listing (hbefore listing hshows)
    exact ⟨stamp, hfound.append _⟩
  rcases (Site.moved_of_after hmove).cache_cases with
    hsame | ⟨-, hfilled⟩ | ⟨who, errand, stamp, reading, keys, due, rfl, hactivity, hplaced⟩
  · exact hkept fun _ hshows => hsame ▸ hshows
  · exact hkept fun _ hshows => absurd hshows (Cache.not_shows_of_filled hfilled)
  · by_cases hcovers : errand.Covers key
    · have hprogress := Site.progress?_of_activity hactivity
      obtain ⟨m, -, hfound⟩ := hsince.dialed who errand stamp reading keys due hprogress hcovers
      have hnew : ∀ listing, after.registry.cache.Shows key listing →
          listing = ⟨reading,
            (site.registry.dialing stamp.options reading.time).connections keys key⟩ := by
        intro listing hshows
        rcases hplaced.shows key listing hshows with ⟨-, hlisting⟩ | ⟨hother, -⟩
        · exact hlisting
        · exact absurd hcovers hother
      refine ⟨m, hfound.lt_length.le.trans hlength,
        .of_dialed horderly hmove hprogress hfound hnew, fun listing hshows => ⟨stamp, ?_⟩⟩
      rw [hnew listing hshows]
      exact hfound.append _
    · refine hkept fun listing hshows => ?_
      rcases hplaced.shows key listing hshows with ⟨hcovered, -⟩ | ⟨-, hbefore⟩
      · exact absurd hcovered hcovers
      · exact hbefore

end

/-! ## What callers are handed -/

namespace Progress

/-- Where a call for the connections of a service can be met: it has not begun, or is after the
service, or has ended. -/
def Serves (progress : Progress) (root service : String) : Prop :=
  progress = .calling (.getConnections service) ∨
    (∃ key, ServiceKey.make root service = .ok key ∧ progress.sought? = some key) ∨
    ∃ outcome, progress = .finished outcome

theorem Serves.stepFrom {progress : Progress} {service : String} {site : Site}
    (h : progress.Serves site.registry.config.root service) (who : Nat) :
    (site.stepFrom who progress).1.Serves site.registry.config.root service := by
  rcases h with rfl | ⟨key, hkey, hsought⟩ | ⟨outcome, rfl⟩
  · simp only [Site.stepFrom, Site.stepCalling]
    split
    · exact .inr (.inr ⟨_, rfl⟩)
    · exact .inr (.inr ⟨_, rfl⟩)
    · rename_i key _ hkey
      exact .inr (.inl ⟨key, hkey, rfl⟩)
  · cases progress with
    | looking other =>
      simp only [Site.stepFrom, Site.stepLooking]
      split
      · exact .inr (.inr ⟨_, rfl⟩)
      · exact .inr (.inl ⟨key, hkey, hsought⟩)
      · exact .inr (.inr ⟨_, rfl⟩)
    | building errand build =>
      cases errand with
      | resolve other =>
        cases build with
        | queued =>
          simp only [Site.stepFrom, Site.stepBuild]
          split
          · exact .inr (.inl ⟨key, hkey, hsought⟩)
          · exact .inr (.inr ⟨_, rfl⟩)
          · exact .inr (.inr ⟨_, rfl⟩)
        | stamping =>
          simp only [Site.stepFrom, Site.stepBuild]
          split
          · exact .inr (.inl ⟨key, hkey, hsought⟩)
          · exact .inr (.inr ⟨_, rfl⟩)
        | scanning stamp flight =>
          simp only [Site.stepFrom, Site.stepBuild]
          split
          · exact .inr (.inl ⟨key, hkey, hsought⟩)
          · exact .inr (.inr ⟨_, rfl⟩)
        | dialing stamp reading keys due =>
          simp only [Site.stepFrom, Site.stepBuild]
          split <;> exact .inr (.inr ⟨_, rfl⟩)
      | refresh | rebuild => cases hsought
    | _ => cases hsought
  · exact .inr (.inr ⟨outcome, rfl⟩)

end Progress

section
variable {store : Store} {config : Config} {dialer : Dialer} {faults : Faults} {moves : List Move}
  {site : Site} {service : String} {who : Nat}

/-- A caller that is about to be handed a list is after the service that it has called for. -/
theorem Calls.sought (hrun : (Site.start store config dialer faults).run moves = some site)
    (hcall : Calls ((Site.start store config dialer faults).history moves) who
      (.getConnections service))
    {progress : Progress} {key : ServiceKey} (hprogress : site.progress? who = some progress)
    (hsought : progress.sought? = some key) : ServiceKey.make config.root service = .ok key := by
  obtain ⟨met, hmet, hserves⟩ := Calls.progress
    (P := fun progress => progress.Serves config.root service) (.inl rfl) (.inr (.inr ⟨_, rfl⟩))
    (fun site progress hconfig h => hconfig ▸ Progress.Serves.stepFrom (hconfig ▸ h) who) hrun hcall
  rw [hprogress] at hmet
  cases hmet
  rcases hserves with rfl | ⟨other, hother, hsame⟩ | ⟨outcome, rfl⟩
  · cases hsought
  · rw [hsought] at hsame
    cases hsame
    exact hother
  · cases hsought

/-- A caller that has a list after a move had it before, or has just been handed a list of the service that
it has called for. -/
theorem Calls.handed_cases {past : List (Site × Move)} {move : Move} {after : Site} {listing : Listing}
    (hrun : (Site.start store config dialer faults).run moves = some site)
    (hsub : past ⊆ (Site.start store config dialer faults).history moves)
    (hmove : site.after move = some after)
    (hcall : Calls (past ++ [(site, move)]) who (.getConnections service))
    (hlisting : after.progress? who = some (.finished (.ok (.connections listing)))) :
    Calls past who (.getConnections service) ∧
      (site.progress? who = some (.finished (.ok (.connections listing))) ∨
        ∃ activity mid key, move = .step who ∧ site.registry.activities[who]? = some activity ∧
          site.Turn who activity (.finished (.ok (.connections listing))) mid ∧
          activity.progress.sought? = some key ∧ ServiceKey.make config.root service = .ok key) := by
  have hmade : Calls past who (.getConnections service) := by
    rcases hcall.of_append with hmade | ⟨rfl, rfl⟩
    · exact hmade
    · rw [Site.progress?_call hmove] at hlisting
      cases hlisting
  refine ⟨hmade, ?_⟩
  rcases (Site.moved_of_after hmove).progress_cases hlisting with
    ⟨-, hkept | hbegins⟩ | ⟨activity, mid, hstep, -, hactivity, hturn, -⟩
  · exact .inl hkept
  · cases hbegins
  · obtain ⟨key, hsought, -⟩ := hturn.handed
    exact .inr ⟨activity, mid, key, hstep, hactivity, hturn, hsought,
      (hmade.mono hsub).sought hrun (Site.progress?_of_activity hactivity) hsought⟩

end

section
variable {past : List (Site × Move)} {site after : Site} {who n : Nat} {key : ServiceKey}
  {listing : Listing}

/-- A caller is handed nothing older than what its site has of the service. -/
theorem Since.handed (h : Since past n key site) {activity : Activity} {mid : Site}
    (hactivity : site.registry.activities[who]? = some activity)
    (hturn : site.Turn who activity (.finished (.ok (.connections listing))) mid)
    (hsought : activity.progress.sought? = some key) :
    ∃ m stamp, n ≤ m ∧ FoundAt past m stamp key listing := by
  obtain ⟨other, hother, hshown | ⟨stamp, reading, keys, due, rfl, rfl⟩⟩ := hturn.handed
  · rw [hsought] at hother
    cases hother
    exact h.shown listing hshown
  · cases hsought
    obtain ⟨m, hle, hfound⟩ := h.dialed who _ stamp reading keys due
      (Site.progress?_of_activity hactivity) trivial
    exact ⟨m, stamp, hle, hfound⟩

/-- Once a caller has been handed a list, its site has nothing older. -/
theorem Dated.handed (h : Dated past site) (horderly : site.Orderly)
    (hmove : site.after (.step who) = some after) {activity : Activity} {mid : Site}
    (hactivity : site.registry.activities[who]? = some activity)
    (hturn : site.Turn who activity (.finished (.ok (.connections listing))) mid)
    (hsought : activity.progress.sought? = some key) :
    ∃ m stamp, FoundAt (past ++ [(site, .step who)]) m stamp key listing ∧
      Since (past ++ [(site, .step who)]) m key after := by
  obtain ⟨m, hm, hsince, hlatest⟩ := h.latest key
  obtain ⟨other, hother, hshown | ⟨stamp, reading, keys, due, rfl, rfl⟩⟩ := hturn.handed
  · rw [hsought] at hother
    cases hother
    obtain ⟨stamp, hfound⟩ := hlatest listing hshown
    exact ⟨m, stamp, hfound.append _, hsince.moved h hm hmove⟩
  · cases hsought
    have hdialing := Site.progress?_of_activity hactivity
    obtain ⟨m, -, hfound⟩ := hsince.dialed who _ stamp reading keys due hdialing trivial
    refine ⟨m, stamp, hfound.append _, .of_dialed horderly hmove hdialing hfound ?_⟩
    -- the cache was to be filled, so that it shows this list or none
    intro listing hshows
    obtain ⟨-, hbefore | ⟨reader, errand, taken, read, found, time, hreader, -, -, rfl⟩⟩ :=
      (Site.moved_of_after hmove).shows_cases hshows
    · exact absurd hbefore
        (Cache.not_shows_of_filled (horderly.resolving who key _ hdialing rfl))
    · obtain ⟨rfl, -, hsame⟩ :=
        horderly.unique (Site.progress?_of_activity hreader) rfl hdialing rfl
      cases hsame
      rfl

end

section
variable {store : Store} {config : Config} {dialer : Dialer} {faults : Faults}

/-- All that a run has read is dated, and what it has handed out is the oldest that it can hand out
from then on. -/
structure Ordered (config : Config) (past : List (Site × Move)) (site : Site) : Prop where
  dated : Dated past site
  returned : ∀ who service listing, Calls past who (.getConnections service) →
    site.progress? who = some (.finished (.ok (.connections listing))) →
      ∃ key n stamp, ServiceKey.make config.root service = .ok key ∧
        FoundAt past n stamp key listing ∧ Since past n key site

theorem Ordered.of_run {moves : List Move} {site : Site}
    (hrun : (Site.start store config dialer faults).run moves = some site) :
    Ordered config ((Site.start store config dialer faults).history moves) site := by
  refine Site.history_induction ⟨.start, ?_⟩ ?_ hrun
  · rintro who service listing ⟨early, hmem, -⟩
    cases hmem
  · intro before site move after hbefore h hmove
    have horderly := Site.orderly_of_run hbefore
    refine ⟨h.dated.moved horderly hmove, ?_⟩
    intro who service listing hcall hlisting
    obtain ⟨hmade, hkept | ⟨activity, mid, key, rfl, hactivity, hturn, hsought, hkey⟩⟩ :=
      Calls.handed_cases hbefore (List.Subset.refl _) hmove hcall hlisting
    · obtain ⟨key, n, stamp, hkey, hfound, hsince⟩ := h.returned who service listing hmade hkept
      exact ⟨key, n, stamp, hkey, hfound.append _,
        hsince.moved h.dated hfound.lt_length.le hmove⟩
    · obtain ⟨n, stamp, hfound, hsince⟩ :=
        h.dated.handed horderly hmove hactivity hturn hsought
      exact ⟨key, n, stamp, hkey, hfound, hsince⟩

/-- What a call comes to after a point of the run is no older than what the site had at that point. -/
theorem Since.returned {earlier later : List Move} {past final : Site} {n : Nat} {key : ServiceKey}
    {service : String} (hearlier : (Site.start store config dialer faults).run earlier = some past)
    (hlater : past.run later = some final) (hkey : ServiceKey.make config.root service = .ok key)
    (hn : n ≤ ((Site.start store config dialer faults).history earlier).length)
    (hsince : Since ((Site.start store config dialer faults).history earlier) n key past)
    {who : Nat} {listing : Listing}
    (hcall : Calls ((Site.start store config dialer faults).history (earlier ++ later)) who
      (.getConnections service))
    (hopen : ∀ outcome, past.progress? who ≠ some (.finished outcome))
    (hlisting : final.progress? who = some (.finished (.ok (.connections listing)))) :
    ∃ m stamp, n ≤ m ∧
      FoundAt ((Site.start store config dialer faults).history (earlier ++ later)) m stamp key
        listing := by
  rw [Site.history_append hearlier] at hcall ⊢
  generalize hbase : (Site.start store config dialer faults).history earlier = base at *
  refine (Site.history_induction (P := fun moves site => Since (base ++ moves) n key site ∧
    (Calls (base ++ moves) who (.getConnections service) →
      site.progress? who = some (.finished (.ok (.connections listing))) →
        ∃ m stamp, n ≤ m ∧ FoundAt (base ++ moves) m stamp key listing)) ?_ ?_ hlater).2 hcall hlisting
  · exact ⟨by simpa using hsince, fun _ hended => absurd hended (hopen _)⟩
  · rintro before site move after hbefore ⟨hsite, hreturned⟩ hmove
    have hrun : (Site.start store config dialer faults).run (earlier ++ before) = some site := by
      rw [Site.run_append, hearlier, Option.bind_some, hbefore]
    have hdated := (Ordered.of_run hrun).dated
    rw [Site.history_append hearlier, hbase] at hdated
    have hlength : n ≤ (base ++ past.history before).length := by
      rw [List.length_append]
      omega
    have hsub : base ++ past.history before ⊆
        (Site.start store config dialer faults).history (earlier ++ before) := by
      rw [Site.history_append hearlier, hbase]
      exact List.Subset.refl _
    rw [← List.append_assoc]
    refine ⟨hsite.moved hdated hlength hmove, fun hcall hlisting => ?_⟩
    obtain ⟨hmade, hkept | ⟨activity, mid, other, rfl, hactivity, hturn, hsought, hother⟩⟩ :=
      Calls.handed_cases hrun hsub hmove hcall hlisting
    · obtain ⟨m, stamp, hle, hfound⟩ := hreturned hmade hkept
      exact ⟨m, stamp, hle, hfound.append _⟩
    · rw [hkey] at hother
      cases hother
      obtain ⟨m, stamp, hle, hfound⟩ := hsite.handed hactivity hturn hsought
      exact ⟨m, stamp, hle, hfound.append _⟩

/-- A scan that was made no later than another one has the smaller numbers. -/
theorem FoundAt.reading_le {moves : List Move} {final : Site}
    (hrun : (Site.start store config dialer faults).run moves = some final) {m n : Nat} (hle : m ≤ n)
    {first second : Stamp} {key other : ServiceKey} {earlier later : Listing}
    (hearlier : FoundAt ((Site.start store config dialer faults).history moves) m first key earlier)
    (hlater : FoundAt ((Site.start store config dialer faults).history moves) n second other later) :
    earlier.reading.scan ≤ later.reading.scan ∧ earlier.reading.revision ≤ later.reading.revision := by
  obtain ⟨past, _, _, _, hpast, -, -, -, hfirst, -⟩ := hearlier
  obtain ⟨site, _, _, _, hsite, -, -, -, hsecond, -⟩ := hlater
  have hprecedes : past.Precedes site := Site.precedes_of_getElem? hrun hle hpast hsite
  rw [hfirst, hsecond]
  exact ⟨hprecedes.store.scans_le, hprecedes.store.revision_le⟩

/-- What a scan of the run has found has its origin in the run. -/
theorem FoundAt.origin {moves : List Move} {final : Site}
    (hrun : (Site.start store config dialer faults).run moves = some final) {n : Nat} {stamp : Stamp}
    {key : ServiceKey} {listing : Listing}
    (h : FoundAt ((Site.start store config dialer faults).history moves) n stamp key listing) :
    Origin ((Site.start store config dialer faults).history moves) dialer config.connectTimeout stamp
      key listing := by
  obtain ⟨site, who, errand, rows, hsite, hscans, hcovers, ⟨_, early, -, hearly, hstamps⟩, hreading,
    hconnections⟩ := h
  have hscanned := List.mem_of_getElem? hsite
  have hprecedes := (Site.precedes_of_mem_history hrun hscanned).1
  have htime : listing.reading.time = site.clock := congrArg Reading.time hreading
  refine ⟨errand, errand.instances (EndpointKey.ofRows site.registry.config.root rows),
    ⟨⟨early, who, List.mem_of_getElem? hearly, hstamps⟩,
      ⟨site, who, rows, hscanned, hscans, hreading, rfl⟩⟩, hcovers, ?_⟩
  rw [Dialing.connections_of_covers _ hcovers, hconnections, htime, Registry.dialing, hprecedes.dialer,
    hprecedes.config]
  rfl

end

/-- Every list that a caller of a service is handed is what one scan of the run has found of that
service, dialed with the options of one stamp, whatever else goes on. And a caller that has not ended
when another one has its list is handed a list of the same scan or of a later one. -/
theorem lists_whole_and_in_order {store : Store} {config : Config} {dialer : Dialer} {faults : Faults}
    {moves : List Move} {final : Site}
    (hrun : (Site.start store config dialer faults).run moves = some final) :
    (∀ who service listing,
      Calls ((Site.start store config dialer faults).history moves) who (.getConnections service) →
        final.progress? who = some (.finished (.ok (.connections listing))) →
          ∃ key n stamp, ServiceKey.make config.root service = .ok key ∧
            FoundAt ((Site.start store config dialer faults).history moves) n stamp key listing) ∧
    ∀ earlier later past service first second firstList secondList,
      moves = earlier ++ later → (Site.start store config dialer faults).run earlier = some past →
        Calls ((Site.start store config dialer faults).history earlier) first
          (.getConnections service) →
        past.progress? first = some (.finished (.ok (.connections firstList))) →
        Calls ((Site.start store config dialer faults).history moves) second
          (.getConnections service) →
        (∀ outcome, past.progress? second ≠ some (.finished outcome)) →
        final.progress? second = some (.finished (.ok (.connections secondList))) →
          ∃ key m n firstStamp secondStamp, m ≤ n ∧
            FoundAt ((Site.start store config dialer faults).history moves) m firstStamp key
              firstList ∧
            FoundAt ((Site.start store config dialer faults).history moves) n secondStamp key
              secondList ∧
            firstList.reading.scan ≤ secondList.reading.scan ∧
            firstList.reading.revision ≤ secondList.reading.revision := by
  constructor
  · intro who service listing hcall hlisting
    obtain ⟨key, n, stamp, hkey, hfound, -⟩ :=
      (Ordered.of_run hrun).returned who service listing hcall hlisting
    exact ⟨key, n, stamp, hkey, hfound⟩
  · rintro earlier later past service first second firstList secondList rfl hearlier hfirstCall
      hfirst hsecondCall hopen hsecond
    obtain ⟨key, m, firstStamp, hkey, hfound, hsince⟩ :=
      (Ordered.of_run hearlier).returned first service firstList hfirstCall hfirst
    have hlater : past.run later = some final := by
      rwa [Site.run_append, hearlier, Option.bind_some] at hrun
    obtain ⟨n, secondStamp, hle, hnext⟩ :=
      hsince.returned hearlier hlater hkey hfound.lt_length.le hsecondCall hopen hsecond
    have hfound : FoundAt ((Site.start store config dialer faults).history (earlier ++ later)) m
        firstStamp key firstList := by
      rw [Site.history_append hearlier]
      exact hfound.append _
    exact ⟨key, m, n, firstStamp, secondStamp, hle, hfound, hnext, hfound.reading_le hrun hle hnext⟩

/-- A caller reads the root, and an invalidation comes in between, so that it alone has its list. -/
def handedOut : List Move :=
  [.request (.put "svc/chat/10.0.0.1:9000" "" none), .call (.getConnections "chat"), .step 1, .step 1,
    .step 1, .step 1, .step 1, .call .invalidate, .step 2, .step 1]

/-- An instance is added, and another caller comes. -/
def askedAgain : List Move :=
  [.request (.put "svc/chat/10.0.0.2:9000" "" none), .call (.getConnections "chat"), .step 3, .step 3,
    .step 3, .step 3, .step 3, .step 3]

theorem lists_in_order_uninstalled :
    ∃ past final firstList secondList, Site.sample.run handedOut = some past ∧
      past.registry.cache.filled = none ∧
      Site.sample.run (handedOut ++ askedAgain) = some final ∧
      past.progress? 1 = some (.finished (.ok (.connections firstList))) ∧
      final.progress? 3 = some (.finished (.ok (.connections secondList))) ∧
      firstList.connections.length = 1 ∧ secondList.connections.length = 2 ∧
      ∃ key m n firstStamp secondStamp, m ≤ n ∧
        FoundAt (Site.sample.history (handedOut ++ askedAgain)) m firstStamp key firstList ∧
        FoundAt (Site.sample.history (handedOut ++ askedAgain)) n secondStamp key secondList ∧
        firstList.reading.scan ≤ secondList.reading.scan ∧
        firstList.reading.revision ≤ secondList.reading.revision := by
  obtain ⟨past, hpast⟩ : ∃ past, Site.sample.run handedOut = some past :=
    Option.isSome_iff_exists.1 rfl
  obtain ⟨final, hfinal⟩ : ∃ final, Site.sample.run (handedOut ++ askedAgain) = some final :=
    Option.isSome_iff_exists.1 rfl
  have hfilled : (Site.sample.run handedOut).bind (fun site => site.registry.cache.filled) = none := rfl
  have hopen : (Site.sample.run handedOut).bind (fun site => site.progress? 3) = none := rfl
  have hfirst : (Site.sample.run handedOut).bind (fun site => site.progress? 1) =
      some (.finished (.ok (.connections
        ⟨⟨0, 0, 1, 0⟩, [⟨"10.0.0.1:9000", [⟨⟨"10.0.0.1:9000", "", none⟩, none, []⟩]⟩]⟩))) := rfl
  have hsecond : (Site.sample.run (handedOut ++ askedAgain)).bind (fun site => site.progress? 3) =
      some (.finished (.ok (.connections
        ⟨⟨1, 1, 2, 0⟩, [⟨"10.0.0.1:9000", [⟨⟨"10.0.0.1:9000", "", none⟩, none, []⟩]⟩,
          ⟨"10.0.0.2:9000", [⟨⟨"10.0.0.2:9000", "", none⟩, none, []⟩]⟩]⟩))) := rfl
  rw [hpast] at hfilled hopen hfirst
  rw [hfinal] at hsecond
  have hcalls : Calls (Site.sample.history handedOut) 1 (.getConnections "chat") :=
    ⟨_, .tail _ (.head _), rfl⟩
  have hasks : Calls (Site.sample.history (handedOut ++ askedAgain)) 3 (.getConnections "chat") := by
    obtain ⟨mid, hmid⟩ : ∃ mid, Site.sample.run (handedOut ++ askedAgain.take 1) = some mid :=
      Option.isSome_iff_exists.1 rfl
    have hlength : (Site.sample.run (handedOut ++ askedAgain.take 1)).map
        (fun site => site.registry.activities.length) = some 3 := rfl
    rw [hmid] at hlength
    exact Option.some.inj hlength ▸ Calls.of_split hmid (askedAgain.drop 2)
  refine ⟨past, final, _, _, hpast, hfilled, hfinal, hfirst, hsecond, rfl, rfl, ?_⟩
  refine (lists_whole_and_in_order hfinal).2 handedOut askedAgain past "chat" 1 3 _ _ rfl hpast
    hcalls hfirst hasks ?_ hsecond
  · intro outcome hended
    have hopen : past.progress? 3 = none := hopen
    rw [hopen] at hended
    cases hended

end ServiceRegistry
