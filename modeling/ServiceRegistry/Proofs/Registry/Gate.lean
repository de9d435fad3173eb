import ServiceRegistry.Proofs.Lock
import ServiceRegistry.Proofs.Registry.History

/-!
# Order at the gate

At most one activity at a time is on its way from the cache to the store and back, namely the one
that holds the gate. So the cache that it has found to be filled by nobody is filled by nobody until
it comes back, and a stamp that has passed is the stamp of a cache that is to be filled. `Orderly`
collects what the gate gives for the activities of one site; every move keeps it.
-/
namespace ServiceRegistry

namespace Build

/-- Whether the reading has come through the gate. -/
def isInside : Build → Bool
  | queued => false
  | _ => true

/-- What was taken from the cache for the reading. -/
def stamp? : Build → Option Stamp
  | queued | stamping => none
  | scanning stamp _ | dialing stamp _ _ _ => some stamp

theorem isInside_of_stamp? {build : Build} {stamp : Stamp} (h : build.stamp? = some stamp) :
    build.isInside = true := by
  cases build with
  | queued => cases h
  | _ => rfl

end Build

/-- Whether an activity that stands here is the watcher. -/
def Progress.isWatching : Progress → Bool
  | .building errand _ => errand.changes?.isSome
  | .starting | .subscribing _ | .listening _ | .discarding _ _ => true
  | _ => false

namespace Site

/-- Behind the gate a reading is met only when it has advanced. -/
theorem Turn.advances {site mid : Site} {who : Nat} {activity : Activity} {errand : Errand}
    {build : Build} (h : site.Turn who activity (.building errand build) mid)
    (hinside : build.isInside = true) :
    ∃ former, activity = ⟨.building errand former, false⟩ ∧ site.Advances errand former build mid := by
  cases h with
  | quiet hnext => cases hnext
  | miss | relayAll => cases hinside
  | advance hadvance => exact ⟨_, rfl, hadvance⟩
  | refresh hinstall hnext =>
    cases hnext
    cases hinside
  | relay hfilled hnext =>
    cases hnext
    cases hinside

/-- A reading that is met behind the gate was met there before or has just advanced. -/
theorem Moved.inside_cases {site after : Site} {move : Move} (h : site.Moved move after) {who : Nat}
    {errand : Errand} {build : Build} (hbuild : after.progress? who = some (.building errand build))
    (hinside : build.isInside = true) :
    move ≠ .step who ∧ site.progress? who = some (.building errand build) ∨
      ∃ former mid, move = .step who ∧ site.canStep who = true ∧
        site.registry.activities[who]? = some ⟨.building errand former, false⟩ ∧
        site.Advances errand former build mid ∧
        after = mid.settle who (.building errand build) := by
  rcases h.progress_cases hbuild with
    ⟨hother, hbefore | hbegins⟩ | ⟨activity, mid, hmove, hready, hactivity, hturn, hafter⟩
  · exact .inl ⟨hother, hbefore⟩
  · cases hbegins
  · obtain ⟨former, rfl, hadvance⟩ := hturn.advances hinside
    exact .inr ⟨former, mid, hmove, hready, hactivity, hadvance, hafter⟩

/-- Only the holder of the gate can take it from itself. -/
theorem Turn.holder? {site mid : Site} {who other : Nat} {activity : Activity} {next : Progress}
    (h : site.Turn who activity next mid)
    (hwho : ∀ errand build, activity = ⟨.building errand build, false⟩ →
      site.registry.gate.holder? = some who)
    (hholder : site.registry.gate.holder? = some other) (hne : other ≠ who) :
    mid.registry.gate.holder? = some other := by
  have hoff : ∀ errand build, activity ≠ ⟨.building errand build, false⟩ := by
    intro errand build hactivity
    rw [hwho errand build hactivity] at hholder
    exact hne (Option.some.inj hholder).symm
  cases h with
  | quiet hnext hlisting hcache hgate =>
    rcases hgate with ⟨hgate, -⟩ | ⟨⟨errand, build, hactivity⟩, -⟩ | hgate
    · rw [hgate]
      exact hholder
    · exact absurd hactivity (hoff errand build)
    · rw [hgate]
      exact Lock.holder?_leave hholder hne
  | close hcache hgate =>
    rw [hgate]
    exact hholder
  | miss => exact Lock.holder?_enter hholder
  | found | advance | fail | resolve | refresh | rebuild => exact absurd rfl (hoff _ _)
  | start hsend =>
    rw [registry_of_send hsend]
    exact hholder
  | subscribe hreceive =>
    rw [registry_of_receive hreceive]
    exact hholder
  | relay hfilled hnext =>
    cases hnext with
    | listen => exact hholder
    | refresh => exact Lock.holder?_enter hholder
  | relayAll => exact Lock.holder?_enter hholder
  | invalidate | addOptions | hit | pass | take | discard => exact hholder

/-- Nobody but the watcher takes up its work. -/
theorem Turn.isWatching {site mid : Site} {who : Nat} {activity : Activity} {next : Progress}
    (h : site.Turn who activity next mid) (hnext : next.isWatching = true) :
    activity.progress.isWatching = true := by
  cases h with
  | quiet happart =>
    cases next with
    | building | starting | subscribing | listening | discarding => cases happart
    | _ => cases hnext
  | advance => exact hnext
  | fail hreceive hchanges =>
    simp only [Progress.isWatching, hchanges]
    rfl
  | refresh | rebuild | start | subscribe | pass | take | discard | relay | relayAll => rfl
  | _ => cases hnext

/-- What the gate gives for the activities of a site. -/
structure Orderly (site : Site) : Prop where
  exclusive : ∀ who errand build, site.progress? who = some (.building errand build) →
    build.isInside = true → site.registry.gate.holder? = some who
  watching : ∀ who progress, site.progress? who = some progress → progress.isWatching = true →
    who = Registry.watcher
  /-- A stamp is that of the cache, or has passed and the cache is to be filled. -/
  stamped : ∀ who errand build stamp, site.progress? who = some (.building errand build) →
    build.stamp? = some stamp → stamp.generation ≤ site.registry.cache.generation ∧
      (stamp.generation = site.registry.cache.generation → site.registry.cache.closed = false) ∧
      (stamp.generation ≠ site.registry.cache.generation → site.registry.cache.filled = none)
  resolving : ∀ who key build, site.progress? who = some (.building (.resolve key) build) →
    build.isInside = true → site.registry.cache.filled = none
  dialing : ∀ who errand stamp reading keys due,
    site.progress? who = some (.building errand (.dialing stamp reading keys due)) →
      reading.generation = stamp.generation
  closed : site.registry.cache.closed = true → site.registry.cache.filled = none

section
variable {store : Store} {config : Config} {dialer : Dialer} {faults : Faults}

/-- A registry begins with its watcher. -/
theorem progress?_start {who : Nat} {progress : Progress}
    (h : (start store config dialer faults).progress? who = some progress) :
    who = Registry.watcher ∧ progress = .starting := by
  cases who with
  | zero =>
    cases h
    exact ⟨rfl, rfl⟩
  | succ who => cases h

theorem orderly_start : (start store config dialer faults).Orderly := by
  constructor
  · intro who errand build h
    cases (progress?_start h).2
  · intro who progress h _
    exact (progress?_start h).1
  · intro who errand build stamp h
    cases (progress?_start h).2
  · intro who key build h
    cases (progress?_start h).2
  · intro who errand stamp reading keys due h
    cases (progress?_start h).2
  · exact fun _ => rfl

end

/-- One reading at most is behind the gate. -/
theorem Orderly.unique {site : Site} (h : site.Orderly) {first second : Nat} {errand other : Errand}
    {build reach : Build} (hfirst : site.progress? first = some (.building errand build))
    (hinside : build.isInside = true) (hsecond : site.progress? second = some (.building other reach))
    (hreached : reach.isInside = true) : first = second ∧ errand = other ∧ build = reach := by
  have hholder := h.exclusive first errand build hfirst hinside
  rw [h.exclusive second other reach hsecond hreached] at hholder
  cases hholder
  rw [hfirst] at hsecond
  cases hsecond
  exact ⟨rfl, rfl, rfl⟩

/-- Whoever has come to the gate, or through it, holds it. -/
theorem Orderly.holder? {site : Site} (h : site.Orderly) {who : Nat} {errand : Errand} {build : Build}
    (hready : site.canStep who = true)
    (hactivity : site.registry.activities[who]? = some ⟨.building errand build, false⟩) :
    site.registry.gate.holder? = some who := by
  cases build with
  | queued => exact holder_of_canStep hready hactivity
  | _ => exact h.exclusive who errand _ (progress?_of_activity hactivity) rfl

section
variable {site after : Site} {move : Move} {other : Nat} (h : site.Orderly)
  (hmoved : site.Moved move after) (hother : move ≠ .step other)
include h hmoved hother

/-- Who holds the gate keeps it as long as others move. -/
theorem Orderly.holder?_moved (hholder : site.registry.gate.holder? = some other) :
    after.registry.gate.holder? = some other := by
  cases hmoved with
  | @turn who activity next mid hactivity hready hturn hframe =>
    have hne : other ≠ who := fun he => hother (he ▸ rfl)
    refine hturn.holder? ?_ hholder hne
    intro errand build he
    exact h.holder? hready (he ▸ hactivity)
  | calm hmove hcache hgate hframe => exact hgate ▸ hholder

/-- While one activity is behind the gate, no other one puts anything into the cache. -/
theorem Orderly.cache_moved {errand : Errand} {build : Build}
    (hbuild : site.progress? other = some (.building errand build))
    (hinside : build.isInside = true) :
    after.registry.cache = site.registry.cache ∨
      site.registry.cache.generation < after.registry.cache.generation ∧
        after.registry.cache.filled = none := by
  cases hmoved with
  | @turn who activity next mid hactivity hready hturn hframe =>
    rw [cache_settle]
    have heffect := hturn.effect
    generalize mid.registry.cache = cache at heffect
    cases heffect with
    | same => exact .inl rfl
    | renewed hgeneration hoptions hfilled => exact .inr ⟨hgeneration, hfilled⟩
    | placed hdialing hplaced =>
      have hwho := h.holder? hready (hdialing ▸ hactivity)
      rw [h.exclusive other errand build hbuild hinside] at hwho
      exact absurd (Option.some.inj hwho ▸ rfl) hother
  | calm hmove hcache hgate hframe => exact .inl hcache

end

/-- Nobody but the watcher is met at its work. -/
theorem Orderly.watching_moved {site after : Site} {move : Move} (h : site.Orderly)
    (hmoved : site.Moved move after) {who : Nat} {progress : Progress}
    (hprogress : after.progress? who = some progress) (hwatching : progress.isWatching = true) :
    who = Registry.watcher := by
  rcases hmoved.progress_cases hprogress with
    ⟨-, hbefore | hbegins⟩ | ⟨activity, mid, -, -, hactivity, hturn, -⟩
  · exact h.watching who progress hbefore hwatching
  · cases progress with
    | calling | renewing => cases hwatching
    | _ => cases hbegins
  · exact h.watching who _ (progress?_of_activity hactivity) (hturn.isWatching hwatching)

theorem Orderly.closed_moved {site after : Site} {move : Move} (h : site.Orderly)
    (hmoved : site.Moved move after) (hclosed : after.registry.cache.closed = true) :
    after.registry.cache.filled = none := by
  cases hmoved with
  | @turn who activity next mid hactivity hready hturn hframe =>
    rw [cache_settle] at hclosed ⊢
    have heffect := hturn.effect
    generalize mid.registry.cache = cache at heffect hclosed
    cases heffect with
    | same => exact h.closed hclosed
    | renewed hgeneration hoptions hfilled => exact hfilled
    | placed hdialing hplaced => exact absurd hplaced.open_eq (by simp [hclosed])
  | calm hmove hcache hgate hframe =>
    rw [hcache] at hclosed ⊢
    exact h.closed hclosed

/-- Every move keeps the order at the gate. -/
theorem Orderly.moved {site after : Site} {move : Move} (h : site.Orderly)
    (hmoved : site.Moved move after) : after.Orderly := by
  constructor
  · intro who errand build hbuild hinside
    rcases hmoved.inside_cases hbuild hinside with
      ⟨hother, hbefore⟩ | ⟨former, mid, -, hready, hactivity, hadvance, rfl⟩
    · exact h.holder?_moved hmoved hother (h.exclusive who errand build hbefore hinside)
    · rw [gate_settle, hadvance.registry]
      exact h.holder? hready hactivity
  · exact fun who progress => h.watching_moved hmoved
  · intro who errand build stamp hbuild hstamp
    have hinside := Build.isInside_of_stamp? hstamp
    rcases hmoved.inside_cases hbuild hinside with
      ⟨hother, hbefore⟩ | ⟨former, mid, -, -, hactivity, hadvance, rfl⟩
    · have hold := h.stamped who errand build stamp hbefore hstamp
      rcases h.cache_moved hmoved hother hbefore hinside with hsame | ⟨hgeneration, hfilled⟩
      · exact hsame ▸ hold
      · have hlt := hold.1.trans_lt hgeneration
        exact ⟨hlt.le, fun he => absurd he hlt.ne, fun _ => hfilled⟩
    · rw [cache_settle, hadvance.registry]
      cases hadvance with
      | enter => cases hstamp
      | stamp htaken hsend =>
        cases hstamp
        obtain ⟨hopen, rfl⟩ := Cache.of_stamp htaken
        exact ⟨le_rfl, fun _ => hopen, fun hne => absurd rfl hne⟩
      | scan hreceive hregistry hstore =>
        cases hstamp
        exact h.stamped who errand _ _ (progress?_of_activity hactivity) rfl
  · intro who key build hbuild hinside
    rcases hmoved.inside_cases hbuild hinside with
      ⟨hother, hbefore⟩ | ⟨former, mid, -, -, hactivity, hadvance, rfl⟩
    · rcases h.cache_moved hmoved hother hbefore hinside with hsame | ⟨-, hfilled⟩
      · exact hsame ▸ h.resolving who key build hbefore hinside
      · exact hfilled
    · have hprogress := progress?_of_activity hactivity
      rw [cache_settle, hadvance.registry]
      cases hadvance with
      | enter hlookup => exact Cache.filled_of_lookup (hlookup key rfl)
      | stamp htaken hsend => exact h.resolving who key _ hprogress rfl
      | scan hreceive hregistry hstore => exact h.resolving who key _ hprogress rfl
  · intro who errand stamp reading keys due hbuild
    rcases hmoved.inside_cases hbuild rfl with ⟨-, hbefore⟩ | ⟨former, mid, -, -, -, hadvance, -⟩
    · exact h.dialing who errand stamp reading keys due hbefore
    · cases hadvance
      rfl
  · exact h.closed_moved hmoved

/-- The gate is in order after every run. -/
theorem orderly_of_run {store : Store} {config : Config} {dialer : Dialer} {faults : Faults}
    {moves : List Move} {site : Site}
    (hrun : (start store config dialer faults).run moves = some site) : site.Orderly :=
  run_induction orderly_start (fun _ _ _ h hmove => h.moved (moved_of_after hmove)) hrun

end Site

end ServiceRegistry
