import ServiceRegistry.Proofs.Registry.Opening
import ServiceRegistry.Proofs.Registry.Watcher

/-!
# What the watcher owes

Between the reading that a service is shown from and the place of the watcher in the feed there may
be batches about the service. The watcher has taken them and owes the service a reading: it has the
service on its way to the store, or among those that come next. A scan that fails makes it give up
what it owes. So a reading that is held is accounted for: the feed is silent about its service up to
the place of the watcher, or the watcher owes the service, or it gave the service up after the
reading. What was published before the subscription was open is lost on the watcher, so the account of
a reading that was made before begins with the subscription. Every move keeps the accounts.
-/
namespace ServiceRegistry

/-- The services that the watcher reads for the errand and after it. -/
def Errand.Owes (errand : Errand) (service : ServiceKey) : Prop :=
  match errand with
  | .resolve _ => False
  | .refresh key rest _ => service = key ∨ service ∈ rest
  | .rebuild _ => True

/-- The services that the watcher has still to read before it takes the next batch. -/
def Progress.Owes (progress : Progress) (service : ServiceKey) : Prop :=
  match progress with
  | .discarding _ concern => concern.Concerns service
  | .building errand _ => errand.Owes service
  | _ => False

/-- The store fails an activity that reads it. -/
def Site.Fails (site : Site) (who : Nat) (errand : Errand) : Prop :=
  ∃ stamp flight e mid,
    site.registry.activities[who]? = some ⟨.building errand (.scanning stamp flight), false⟩ ∧
      site.receive flight = (.error e, mid)

/-- Whether an activity is about to take an answer and the store fails it. -/
def Site.isFailed (site : Site) (who : Nat) : Bool :=
  match site.registry.activities[who]? with
  | some ⟨.building _ (.scanning _ flight), false⟩ => (site.receive flight).1.toOption.isNone
  | _ => false

theorem Site.Fails.isFailed {site : Site} {who : Nat} {errand : Errand} (h : site.Fails who errand) :
    site.isFailed who = true := by
  obtain ⟨stamp, flight, e, mid, hactivity, hreceive⟩ := h
  simp only [Site.isFailed, hactivity, hreceive]
  rfl

/-- The watcher gave up the service after the reading, because a scan of it failed. -/
def GivenUp (past : List (Site × Move)) (service : ServiceKey) (reading : Reading) : Prop :=
  ∃ early errand, (early, .step Registry.watcher) ∈ past ∧ early.Fails Registry.watcher errand ∧
    errand.Owes service ∧ reading.scan < early.store.scans

/-- The reading was made before the watcher had its subscription. -/
def Unwatched (past : List (Site × Move)) (reading : Reading) : Prop :=
  ∃ early, (early, .step Registry.watcher) ∈ past ∧ early.Opens ∧ reading.scan < early.store.scans

/-- The account of a reading begins with a revision: its own, or that at which the subscription was
opened if the reading was made before. -/
def Reading.BeginsAt (reading : Reading) (past : List (Site × Move)) (first : Nat) : Prop :=
  first = reading.revision ∨ ∃ early, (early, .step Registry.watcher) ∈ past ∧ early.Opens ∧
    reading.scan < early.store.scans ∧ first = early.store.revision

/-- What is known of a reading that is held for a service while the watcher stands at a point, with
a place in the feed. -/
inductive Accounted (past : List (Site × Move)) (site : Site) (progress : Progress) (place : Nat)
    (service : ServiceKey) (reading : Reading) : Prop
  | silent {first : Nat} (hfirst : reading.BeginsAt past first)
      (h : site.store.Silent site.registry.config.root service first place)
  | owed (h : progress.Owes service)
  | givenUp (h : GivenUp past service reading)

theorem GivenUp.mono {past later : List (Site × Move)} {service : ServiceKey} {reading : Reading}
    (h : GivenUp past service reading) (hsub : past ⊆ later) : GivenUp later service reading := by
  obtain ⟨early, errand, hmem, hrest⟩ := h
  exact ⟨early, errand, hsub hmem, hrest⟩

theorem Reading.BeginsAt.mono {past later : List (Site × Move)} {reading : Reading} {first : Nat}
    (h : reading.BeginsAt past first) (hsub : past ⊆ later) : reading.BeginsAt later first := by
  rcases h with hown | ⟨early, hmem, hrest⟩
  · exact .inl hown
  · exact .inr ⟨early, hsub hmem, hrest⟩

/-- The account of a reading that was made after the opening of the subscription begins with it. -/
theorem Reading.BeginsAt.eq_or_unwatched {past : List (Site × Move)} {reading : Reading} {first : Nat}
    (h : reading.BeginsAt past first) : first = reading.revision ∨ Unwatched past reading :=
  h.imp_right fun ⟨early, hmem, hopens, hscan, _⟩ => ⟨early, hmem, hopens, hscan⟩

namespace Accounted

variable {past later : List (Site × Move)} {site after : Site} {progress next : Progress}
  {place : Nat} {service : ServiceKey} {reading : Reading}

/-- A reading that is as new as the place of the watcher lacks nothing. -/
theorem of_le (h : place ≤ reading.revision) :
    Accounted past site progress place service reading :=
  .silent (.inl rfl) (Store.silent_of_le h)

theorem mono (h : Accounted past site progress place service reading) (hsub : past ⊆ later)
    (hprecedes : site.Precedes after) (hplace : place ≤ site.store.revision) :
    Accounted later after progress place service reading := by
  cases h with
  | silent hfirst hsilent =>
    refine .silent (hfirst.mono hsub) ?_
    rw [hprecedes.config]
    exact hsilent.of_evolves hprecedes.store hplace
  | owed howes => exact .owed howes
  | givenUp hgiven => exact .givenUp (hgiven.mono hsub)

/-- When the watcher goes on to another point and place, only the first two accounts have to be
settled anew. -/
theorem goOn {former : Nat} (h : Accounted past site progress former service reading)
    (hsub : past ⊆ later)
    (hsilent : ∀ first, reading.BeginsAt later first →
      site.store.Silent site.registry.config.root service first former →
        Accounted later site next place service reading)
    (howed : progress.Owes service → Accounted later site next place service reading) :
    Accounted later site next place service reading := by
  cases h with
  | silent hfirst h => exact hsilent _ (hfirst.mono hsub) h
  | owed h => exact howed h
  | givenUp h => exact .givenUp (h.mono hsub)

end Accounted

/-- At a point apart nothing is followed. -/
theorem Progress.changes?_of_isApart {next : Progress} (h : next.isApart = true) :
    next.changes? = none := by
  cases next with
  | building | listening | discarding => cases h
  | _ => rfl

namespace Site

/-! ## Turns of the watcher that change what is held -/

/-- Nothing is held when a generation begins with a cache that is to be filled. -/
theorem Orderly.not_holds_of_renewed {site after : Site} {move : Move} (h : site.Orderly)
    (hmove : site.after move = some after)
    (hgeneration : site.registry.cache.generation < after.registry.cache.generation)
    (hfilled : after.registry.cache.filled = none) (key : ServiceKey) (reading : Reading) :
    ¬ after.Holds key reading := by
  rintro (⟨listing, hshows, -⟩ | ⟨who, errand, stamp, keys, due, hactivity, hcurrent⟩)
  · exact Cache.not_shows_of_filled hfilled hshows
  · have hle : stamp.generation ≤ site.registry.cache.generation := by
      rcases (moved_of_after hmove).active_cases hactivity rfl with
        hbefore | ⟨former, mid, -, hformer, hadvance, -⟩
      · exact (h.stamped who errand _ stamp (progress?_of_activity hbefore) rfl).1
      · cases hadvance with
        | scan hreceive => exact (h.stamped who errand _ stamp (progress?_of_activity hformer) rfl).1
    omega

section
variable {site after mid : Site} {who : Nat} {errand : Errand} {stamp : Stamp} {reading : Reading}
  {keys : List EndpointKey} {due : Nat} {listing : Listing} {next : Progress}

/-- After a reading was put in, it is held for the services that it covers, and for the others what
was shown before. -/
theorem Orderly.holds_installed (h : site.Orderly) (hmove : site.after (.step who) = some after)
    (hactivity : site.registry.activities[who]? =
      some ⟨.building errand (.dialing stamp reading keys due), false⟩)
    (hinstall : site.install errand stamp reading keys = .ok (listing, mid))
    (hcache : after.registry.cache = mid.registry.cache)
    (hnext : after.progress? who = some next)
    (hleaves : ∀ errand build, next = .building errand build → build.isInside = false)
    {key : ServiceKey} {other : Reading} (hholds : after.Holds key other) :
    errand.Covers key ∧ other = reading ∨
      ¬ errand.Covers key ∧ ∃ shown, site.registry.cache.Shows key shown ∧ shown.reading = other := by
  have hprogress := progress?_of_activity hactivity
  rcases hholds with ⟨shown, hshows, rfl⟩ | ⟨dialer, job, taken, found, time, hdialing, -⟩
  · obtain ⟨cache, rfl, -, -, ⟨hpassed, rfl⟩ | hplaced⟩ := of_install hinstall
    · -- A reading that has passed belongs to a cache that is to be filled, which shows nothing.
      rw [h.dialing who errand stamp reading keys due hprogress] at hpassed
      have hfilled := (h.stamped who errand _ stamp hprogress rfl).2.2 hpassed
      rw [hcache] at hshows
      exact absurd hshows (Cache.not_shows_of_filled hfilled)
    · rw [hcache] at hshows
      rcases hplaced.shows key shown hshows with ⟨hcovers, rfl⟩ | ⟨hcovers, hbefore⟩
      · exact .inl ⟨hcovers, rfl⟩
      · exact .inr ⟨hcovers, shown, hbefore, rfl⟩
  · -- Nobody else can be dialing, for the gate was held.
    exfalso
    rcases (moved_of_after hmove).inside_cases (progress?_of_activity hdialing) rfl with
      ⟨hother, hbefore⟩ | ⟨former, turned, he, -, -, -, -⟩
    · obtain ⟨rfl, -, -⟩ := h.unique hbefore rfl hprogress rfl
      exact hother rfl
    · cases he
      have hsame := Option.some.inj (hnext.symm.trans (progress?_of_activity hdialing))
      exact absurd (hleaves job _ hsame) Bool.noConfusion

end

/-! ## The accounts -/

section
variable {site after : Site} {who : Nat} {changes : Changes} {keys : List ServiceKey}
  {next : Progress}

theorem GoesOn.changes_eq (h : site.GoesOn who changes keys next after) {sub : Subscription}
    (hnext : next.changes? = some (.live sub)) : changes = .live sub := by
  cases h with
  | listen => exact Changes.ask_eq_live.1 (Option.some.inj hnext)
  | refresh => exact Option.some.inj hnext

/-- The watcher owes all the services with which it goes on. -/
theorem GoesOn.owes (h : site.GoesOn who changes keys next after) {service : ServiceKey}
    (hmem : service ∈ keys) : next.Owes service := by
  cases h with
  | listen => cases hmem
  | refresh => exact List.mem_cons.1 hmem

theorem GoesOn.isInside_eq (h : site.GoesOn who changes keys next after) {errand : Errand}
    {build : Build} (hnext : next = .building errand build) : build.isInside = false := by
  cases h with
  | listen => cases hnext
  | refresh =>
    cases hnext
    rfl

end

section
variable {past : List (Site × Move)} {site after mid : Site} {activity : Activity} {next : Progress}
  {sub : Subscription} {service : ServiceKey} {reading : Reading}

variable (horderly : site.Orderly) (hfollows : site.Follows)
  (hmove : site.after (.step Registry.watcher) = some (mid.settle Registry.watcher next))
  (hactivity : site.registry.activities[Registry.watcher]? = some activity)
  (hnext : (mid.settle Registry.watcher next).progress? Registry.watcher = some next)
  (hscan : reading.scan < site.store.scans)
  (hbefore : ∀ former, activity.progress.changes? = some (.live former) →
    Accounted past site activity.progress former.next service reading)
  (hchanges : next.changes? = some (.live sub))
  (hholds : (mid.settle Registry.watcher next).Holds service reading)

include horderly hfollows hmove hnext hholds in
/-- A reading that the watcher has put in is as new as its place. For a service that it does not cover, the
account goes on. -/
theorem accounted_of_install {errand : Errand} {stamp : Stamp} {found : Reading}
    {keys : List EndpointKey} {due : Nat} {listing : Listing} {installed : Site}
    (hdialing : site.registry.activities[Registry.watcher]? =
      some ⟨.building errand (.dialing stamp found keys due), false⟩)
    (hinstall : site.install errand stamp found keys = .ok (listing, installed))
    (hcache : mid.registry.cache = installed.registry.cache)
    (hleaves : ∀ errand build, next = .building errand build → build.isInside = false)
    (hlive : errand.changes? = some (.live sub))
    (haccounted : Accounted past site (.building errand (.dialing stamp found keys due)) sub.next
      service reading)
    (howes : ¬ errand.Covers service →
      (Progress.building errand (.dialing stamp found keys due)).Owes service → next.Owes service) :
    Accounted (past ++ [(site, .step Registry.watcher)]) site next sub.next service reading := by
  rcases horderly.holds_installed hmove hdialing hinstall hcache hnext hleaves hholds with
    ⟨-, rfl⟩ | ⟨hcovers, -⟩
  · exact .of_le (hfollows.dialing _ _ _ _ _ _ sub (progress?_of_activity hdialing) hlive)
  · exact haccounted.goOn (List.subset_append_left _ _) (fun _ => .silent)
      fun hdebt => .owed (howes hcovers hdebt)

include horderly hfollows hmove hnext hscan hholds in
/-- The account of a reading goes on while the watcher reads itself. If its scan fails, the services that it
owes are given up. -/
theorem Turn.accounted_building {errand : Errand} {build : Build} {asked : Bool}
    (hturn : site.Turn Registry.watcher ⟨.building errand build, asked⟩ next mid)
    (hactivity : site.registry.activities[Registry.watcher]? = some ⟨.building errand build, asked⟩)
    (hbefore : ∀ former, errand.changes? = some (.live former) →
      Accounted past site (.building errand build) former.next service reading)
    (hchanges : next.changes? = some (.live sub)) :
    Accounted (past ++ [(site, .step Registry.watcher)]) site next sub.next service reading := by
  have hsub : past ⊆ past ++ [(site, .step Registry.watcher)] := List.subset_append_left _ _
  cases hturn with
  | quiet happart =>
    rw [Progress.changes?_of_isApart happart] at hchanges
    cases hchanges
  | advance hadvance =>
    exact (hbefore sub hchanges).goOn hsub (fun _ => .silent) fun howes => .owed howes
  | @fail _ stamp flight e received changes hreceive hformer =>
    have hlive := Changes.ask_eq_live.1 (Option.some.inj hchanges)
    refine (hbefore sub (hlive ▸ hformer)).goOn hsub (fun _ => .silent) fun howes => .givenUp ?_
    exact ⟨site, errand, by simp, ⟨stamp, flight, e, received, hactivity, hreceive⟩, howes, hscan⟩
  | @refresh key rest changes stamp found keys due listing installed _ _ hinstall hgoes =>
    obtain rfl := hgoes.changes_eq hchanges
    refine accounted_of_install horderly hfollows hmove hnext hholds hactivity hinstall hgoes.cache
      (fun _ _ => hgoes.isInside_eq) rfl (hbefore sub rfl) fun hcovers howes => ?_
    rcases howes with rfl | hrest
    · exact absurd rfl hcovers
    · exact hgoes.owes hrest
  | @rebuild changes stamp found keys due listing installed hinstall =>
    obtain rfl := Changes.ask_eq_live.1 (Option.some.inj hchanges)
    exact accounted_of_install horderly hfollows hmove hnext hholds hactivity hinstall rfl
      (fun _ _ hbuilding => by cases hbuilding) rfl (hbefore sub rfl) fun hcovers => absurd trivial hcovers
  | _ => cases hchanges

include hfollows in
/-- A batch that the watcher passes over is silent about every service, and one that it takes is silent about
a service or concerns it. -/
theorem Turn.accounted_listening {changes : Changes} {asked : Bool}
    (hturn : site.Turn Registry.watcher ⟨.listening changes, asked⟩ next mid)
    (hactivity : site.registry.activities[Registry.watcher]? = some ⟨.listening changes, asked⟩)
    (hbefore : ∀ former, changes = .live former →
      Accounted past site (.listening changes) former.next service reading)
    (hchanges : next.changes? = some (.live sub)) :
    Accounted (past ++ [(site, .step Registry.watcher)]) site next sub.next service reading := by
  have hsub : past ⊆ past ++ [(site, .step Registry.watcher)] := List.subset_append_left _ _
  have hprogress := progress?_of_activity hactivity
  cases hturn with
  | quiet happart =>
    rw [Progress.changes?_of_isApart happart] at hchanges
    cases hchanges
  | @pass _ rest hpull =>
    cases hchanges
    rcases hpull with ⟨-, rfl⟩ | hpull
    · exact (hbefore sub rfl).goOn hsub (fun _ => .silent) False.elim
    · obtain ⟨place, rfl, hdirectory, -⟩ := hfollows.live _ _ changes hprogress rfl
      obtain ⟨later, hlater, hskipped⟩ := Changes.of_pull_skipped hpull
      cases hlater
      refine (hbefore place rfl).goOn hsub (fun first hfirst hsilent => .silent hfirst ?_) False.elim
      exact hsilent.trans (Store.silent_of_skipped service hdirectory hskipped)
  | @take _ rest item hpull =>
    cases hchanges
    obtain ⟨place, rfl, hdirectory, -⟩ := hfollows.live _ _ changes hprogress rfl
    obtain ⟨later, hlater, hitem⟩ := Changes.of_pull_item hpull
    cases hlater
    refine (hbefore place rfl).goOn hsub (fun first hfirst hsilent => ?_) False.elim
    rcases Store.silent_or_concerns service hdirectory hitem with hquiet | hconcerns
    · exact .silent hfirst (hsilent.trans hquiet)
    · exact .owed hconcerns

include horderly hmove hholds in
/-- What a batch concerns the watcher owes from then on, unless the cache is to be filled and nothing is held
any more. -/
theorem Turn.accounted_discarding {changes : Changes} {concern : Attribution} {asked : Bool}
    (hturn : site.Turn Registry.watcher ⟨.discarding changes concern, asked⟩ next mid)
    (hbefore : ∀ former, changes = .live former →
      Accounted past site (.discarding changes concern) former.next service reading)
    (hchanges : next.changes? = some (.live sub)) :
    Accounted (past ++ [(site, .step Registry.watcher)]) site next sub.next service reading := by
  cases hturn with
  | quiet happart =>
    rw [Progress.changes?_of_isApart happart] at hchanges
    cases hchanges
  | discard hdiscard =>
    obtain ⟨hfilled, rfl⟩ := Cache.of_discardPending hdiscard
    exact absurd hholds
      (horderly.not_holds_of_renewed hmove (Nat.lt_succ_self _) hfilled service reading)
  | @relay _ keys _ _ hfilled hgoes =>
    obtain rfl := hgoes.changes_eq hchanges
    exact (hbefore sub rfl).goOn (List.subset_append_left _ _) (fun _ => .silent)
      fun howes => .owed (hgoes.owes howes)
  | relayAll hfilled => exact .owed trivial

include horderly hfollows hmove hactivity hnext hscan hbefore hchanges hholds in
/-- In a turn of its own the watcher keeps the account of every reading that was held before and is
held afterwards. -/
theorem Turn.accounted (hturn : site.Turn Registry.watcher activity next mid)
    (hasks : site.AsksChanges) (hready : site.canStep Registry.watcher = true) :
    Accounted (past ++ [(site, .step Registry.watcher)]) site next sub.next service reading := by
  obtain ⟨progress, asked⟩ := activity
  cases progress with
  | building errand build =>
    exact hturn.accounted_building horderly hfollows hmove hnext hscan hholds hactivity hbefore hchanges
  | listening changes =>
    exact hturn.accounted_listening hfollows hactivity (fun former he => hbefore former (congrArg some he))
      hchanges
  | discarding changes concern =>
    exact hturn.accounted_discarding horderly hmove hholds
      (fun former he => hbefore former (congrArg some he)) hchanges
  | subscribing flight =>
    cases hturn with
    | quiet happart =>
      rw [Progress.changes?_of_isApart happart] at hchanges
      cases hchanges
    | @subscribe _ changes _ hreceive =>
      have hopens : site.Opens := ⟨flight, changes, mid, hactivity, hready, hreceive⟩
      obtain ⟨hlive, -⟩ := hasks.subscribes (progress?_of_activity hactivity) hreceive
      rw [hlive] at hchanges
      cases hchanges
      exact .silent (.inr ⟨site, by simp, hopens, hscan, rfl⟩) (Store.silent_of_le le_rfl)
  | _ =>
    cases hturn with
    | quiet happart =>
      rw [Progress.changes?_of_isApart happart] at hchanges
      cases hchanges
    | _ => cases hchanges

end

/-- All readings that are held are accounted for. -/
def Accounts (past : List (Site × Move)) (site : Site) : Prop :=
  ∀ progress sub, site.progress? Registry.watcher = some progress →
    progress.changes? = some (.live sub) → ∀ service reading, site.Holds service reading →
      Accounted past site progress sub.next service reading

/-- Every move keeps the accounts. -/
theorem Accounts.moved {past : List (Site × Move)} {site after : Site} {move : Move}
    (h : Accounts past site) (horderly : site.Orderly) (hfollows : site.Follows)
    (hasks : site.AsksChanges)
    (hscans : ∀ service reading, site.Holds service reading → reading.scan < site.store.scans)
    (hmove : site.after move = some after) : Accounts (past ++ [(site, move)]) after := by
  intro progress sub hprogress hchanges service reading hholds
  have hprecedes := precedes_of_after hmove
  rcases (moved_of_after hmove).progress_cases hprogress with
    ⟨-, hbefore | hbegins⟩ | ⟨activity, mid, rfl, hready, hactivity, hturn, rfl⟩
  · obtain ⟨place, hlive, -, hplace⟩ := hfollows.live _ _ _ hbefore hchanges
    cases hlive
    rcases horderly.holds_cases hmove hholds with
      hheld | ⟨who, errand, stamp, flight, rows, mid, -, -, -, -, rfl⟩
    · exact (h progress sub hbefore hchanges service reading hheld).mono
        (List.subset_append_left _ _) hprecedes hplace
    · exact .of_le hplace
  · cases progress with
    | calling | renewing => cases hchanges
    | _ => cases hbegins
  · have hfollow : Changes.Follow (.live sub) site := by
      refine hturn.follow hasks hactivity (fun former hformer => ?_) hchanges
      exact hfollows.live _ _ former (progress?_of_activity hactivity) hformer
    obtain ⟨place, hlive, -, hplace⟩ := hfollow
    cases hlive
    rcases horderly.holds_cases hmove hholds with
      hheld | ⟨who, errand, stamp, flight, rows, mid, -, -, -, -, rfl⟩
    · have hbefore : ∀ former, activity.progress.changes? = some (.live former) →
          Accounted past site activity.progress former.next service reading := by
        intro former hformer
        exact h _ former (progress?_of_activity hactivity) hformer service reading hheld
      have haccounted := hturn.accounted horderly hfollows hmove hactivity hprogress
        (hscans service reading hheld) hbefore hchanges hholds hasks hready
      exact haccounted.mono (List.Subset.refl _) hprecedes hplace
    · exact .of_le hplace

/-- Whatever is held is accounted for after every run. -/
theorem accounts_of_run {store : Store} {config : Config} {dialer : Dialer} {faults : Faults}
    (hrows : faults.Genuine .getPrefix) (hwatch : faults.Genuine .watch) {moves : List Move}
    {site : Site} (hrun : (start store config dialer faults).run moves = some site) :
    Accounts ((start store config dialer faults).history moves) site := by
  refine history_induction (P := Accounts) ?_ ?_ hrun
  · intro progress sub hprogress hchanges
    rw [(progress?_start hprogress).2] at hchanges
    cases hchanges
  · intro before s move t hbefore h hmove
    exact h.moved (orderly_of_run hbefore) (follows_of_run hwatch hbefore)
      (asksChanges_of_run hwatch hbefore)
      (fun service reading => scan_lt_of_holds hrows hbefore) hmove

end Site

end ServiceRegistry
