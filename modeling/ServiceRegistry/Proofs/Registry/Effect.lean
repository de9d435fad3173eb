import ServiceRegistry.Proofs.Cache.Views
import ServiceRegistry.Proofs.Registry.Moves

/-!
# What a turn does to the cache

A turn leaves the cache as it is, begins a new generation with a cache that is to be filled, or puts
in a reading of the current generation. `Effect` has one rule for each of the three, and
`Turn.effect` finds the rule of every turn. So an invariant of the cache has three cases, and only
the last of them is about what the cache shows.
-/
namespace ServiceRegistry

/-- Whether a reading for the errand is about a service. -/
def Errand.Covers (errand : Errand) (key : ServiceKey) : Prop :=
  match errand with
  | .refresh other _ _ => key = other
  | .resolve _ | .rebuild _ => True

namespace Site

/-- The cache after a reading of its generation was put in. -/
structure Placed (site : Site) (errand : Errand) (stamp : Stamp) (reading : Reading)
    (keys : List EndpointKey) (after : Cache) : Prop where
  current : reading.generation = site.registry.cache.generation
  generation_eq : after.generation = site.registry.cache.generation
  options_eq : after.options = site.registry.cache.options
  open_eq : after.closed = false
  shows : ∀ key listing, after.Shows key listing →
    errand.Covers key ∧
        listing = ⟨reading, (site.registry.dialing stamp.options reading.time).connections keys key⟩ ∨
      ¬ errand.Covers key ∧ site.registry.cache.Shows key listing

/-- What becomes of the cache in the turn of an activity. -/
inductive Effect (site : Site) (activity : Activity) : Cache → Prop
  | same : site.Effect activity site.registry.cache
  | renewed {after : Cache} (hgeneration : site.registry.cache.generation < after.generation)
      (hoptions : after.options = site.registry.cache.options ∨ ∃ options,
        activity = ⟨.calling (.addOptions options), false⟩ ∧
          after.options = site.registry.cache.options ++ options)
      (hfilled : after.filled = none) : site.Effect activity after
  | placed {errand : Errand} {stamp : Stamp} {reading : Reading} {keys : List EndpointKey}
      {due : Nat} {after : Cache}
      (hactivity : activity = ⟨.building errand (.dialing stamp reading keys due), false⟩)
      (hplaced : site.Placed errand stamp reading keys after) : site.Effect activity after

theorem placed_of_install {site : Site} {errand : Errand} {stamp : Stamp} {reading : Reading}
    {keys : List EndpointKey} {cache : Cache}
    (hcovers : ∀ key, errand.Covers key)
    (h : site.registry.cache.install reading
      ((site.registry.dialing stamp.options reading.time).byService keys) = .ok cache) :
    reading.generation ≠ site.registry.cache.generation ∧ cache = site.registry.cache ∨
      site.Placed errand stamp reading keys cache := by
  obtain ⟨hopen, ⟨hpassed, rfl⟩ | ⟨hcurrent, rfl⟩⟩ := Cache.of_install h
  · exact .inl ⟨hpassed, rfl⟩
  · exact .inr ⟨hcurrent, rfl, rfl, hopen,
      fun key listing hshows => .inl ⟨hcovers key, Cache.shows_installed hshows⟩⟩

/-- A reading whose generation has passed is dropped, any other one is put in. The reader has its
list in either case. -/
theorem of_install {site mid : Site} {errand : Errand} {stamp : Stamp} {reading : Reading}
    {keys : List EndpointKey} {listing : Listing}
    (h : site.install errand stamp reading keys = .ok (listing, mid)) :
    ∃ cache, mid = site.withCache cache ∧ listing.reading = reading ∧
      (∀ key, errand = .resolve key →
        listing.connections = (site.registry.dialing stamp.options reading.time).connections keys key) ∧
      (reading.generation ≠ site.registry.cache.generation ∧ cache = site.registry.cache ∨
        site.Placed errand stamp reading keys cache) := by
  cases errand with
  | resolve key =>
    obtain ⟨cache, hcache, he⟩ := of_map_ok h
    cases he
    refine ⟨cache, rfl, rfl, fun other hother => ?_, placed_of_install (fun _ => trivial) hcache⟩
    cases hother
    exact Dialing.listed_byService _ keys key
  | refresh key rest changes =>
    obtain ⟨cache, hcache, he⟩ := of_map_ok h
    cases he
    refine ⟨cache, rfl, rfl, nofun, ?_⟩
    obtain ⟨hopen, ⟨hpassed, rfl⟩ | ⟨hcurrent, rfl⟩⟩ := Cache.of_replace hcache
    · exact .inl ⟨hpassed, rfl⟩
    · refine .inr ⟨hcurrent, rfl, rfl, hopen, fun other shown hshown => ?_⟩
      rcases Cache.shows_replaced hshown with ⟨hother, hnew⟩ | ⟨hother, hbefore⟩
      · exact .inl ⟨hother, hother ▸ hnew⟩
      · exact .inr ⟨hother, hbefore⟩
  | rebuild changes =>
    obtain ⟨cache, hcache, he⟩ := of_map_ok h
    cases he
    exact ⟨cache, rfl, rfl, nofun, placed_of_install (fun _ => trivial) hcache⟩

theorem effect_of_install {site mid : Site} {errand : Errand} {stamp : Stamp} {reading : Reading}
    {keys : List EndpointKey} {due : Nat} {listing : Listing}
    (h : site.install errand stamp reading keys = .ok (listing, mid)) :
    site.Effect ⟨.building errand (.dialing stamp reading keys due), false⟩
      mid.registry.cache := by
  obtain ⟨cache, rfl, -, -, ⟨-, rfl⟩ | hplaced⟩ := of_install h
  · exact .same
  · exact .placed rfl hplaced

@[simp] theorem cache_releaseGate (site : Site) :
    site.releaseGate.registry.cache = site.registry.cache := rfl

theorem GoesOn.cache {site after : Site} {who : Nat} {changes : Changes} {keys : List ServiceKey}
    {next : Progress} (h : site.GoesOn who changes keys next after) :
    after.registry.cache = site.registry.cache := by
  cases h <;> rfl

@[simp] theorem cache_conclude (site : Site) (who : Nat) (errand : Errand)
    (result : Except Error Listing) :
    (site.conclude who errand result).2.registry.cache = site.registry.cache := by
  unfold conclude
  split
  · rfl
  · exact (goesOn_refreshNext _ _ _ _).cache
  · rfl
  · simp only [listenAfter]
    split <;> rfl
  · simp only [listenAfter]
    split <;> rfl

theorem Effect.of_eq {site : Site} {activity : Activity} {cache : Cache}
    (h : cache = site.registry.cache) : site.Effect activity cache :=
  h ▸ .same

/-- What a turn does to the cache is one of three things. -/
theorem Turn.effect {site mid : Site} {who : Nat} {activity : Activity} {next : Progress}
    (h : site.Turn who activity next mid) : site.Effect activity mid.registry.cache := by
  cases h with
  | quiet hnext hlisting hcache hgate => exact .of_eq hcache
  | invalidate => exact .renewed (Nat.lt_succ_self _) (.inl rfl) rfl
  | addOptions => exact .renewed (Nat.lt_succ_self _) (.inr ⟨_, rfl, rfl⟩) rfl
  | close hcache hgate =>
    rw [hcache]
    exact .renewed (Nat.lt_succ_self _) (.inl rfl) rfl
  | hit hlookup => exact .same
  | miss hlookup => exact .same
  | found hlookup => exact .same
  | advance hadvance => exact .of_eq (congrArg _ hadvance.registry)
  | @fail errand stamp flight e mid changes hreceive hchanges =>
    have hcache : mid.registry.cache = site.registry.cache := by rw [registry_of_receive hreceive]
    exact .of_eq hcache
  | resolve hinstall =>
    rw [cache_releaseGate]
    exact effect_of_install hinstall
  | refresh hinstall hnext =>
    rw [hnext.cache, cache_releaseGate]
    exact effect_of_install hinstall
  | rebuild hinstall =>
    rw [cache_releaseGate]
    exact effect_of_install hinstall
  | start hsend => exact .of_eq (congrArg _ (registry_of_send hsend))
  | subscribe hreceive => exact .of_eq (congrArg _ (registry_of_receive hreceive))
  | pass hpull => exact .same
  | take hpull => exact .same
  | discard hdiscard =>
    obtain ⟨hfilled, rfl⟩ := Cache.of_discardPending hdiscard
    exact .renewed (Nat.lt_succ_self _) (.inl rfl) hfilled
  | relay hfilled hnext => exact .of_eq hnext.cache
  | relayAll hfilled => exact .same

theorem Effect.drifts {site : Site} {activity : Activity} {cache : Cache}
    (h : site.Effect activity cache) : site.registry.cache.Drifts cache := by
  cases h with
  | same => exact .refl _
  | renewed hgeneration hoptions hfilled =>
    refine ⟨hgeneration.le, ?_, fun heq => absurd heq hgeneration.ne'⟩
    rcases hoptions with hsame | ⟨options, -, hadded⟩
    · exact hsame ▸ List.prefix_rfl
    · exact hadded ▸ List.prefix_append _ _
  | placed hactivity hplaced =>
    exact ⟨hplaced.generation_eq.ge, hplaced.options_eq ▸ List.prefix_rfl,
      fun _ => hplaced.options_eq⟩

/-- What a move does to the cache is one of three things. -/
theorem Moved.cache_cases {site after : Site} {move : Move} (h : site.Moved move after) :
    after.registry.cache = site.registry.cache ∨
      site.registry.cache.generation < after.registry.cache.generation ∧
        after.registry.cache.filled = none ∨
      ∃ (who : Nat) (errand : Errand) (stamp : Stamp) (reading : Reading) (keys : List EndpointKey)
          (due : Nat), move = .step who ∧
        site.registry.activities[who]? =
          some ⟨.building errand (.dialing stamp reading keys due), false⟩ ∧
        site.Placed errand stamp reading keys after.registry.cache := by
  cases h with
  | @turn who activity next mid hactivity hready hturn hframe =>
    rw [cache_settle]
    have heffect := hturn.effect
    generalize mid.registry.cache = cache at heffect
    cases heffect with
    | same => exact .inl rfl
    | renewed hgeneration hoptions hfilled => exact .inr (.inl ⟨hgeneration, hfilled⟩)
    | placed hdialing hplaced =>
      exact .inr (.inr ⟨who, _, _, _, _, _, rfl, hdialing ▸ hactivity, hplaced⟩)
  | calm hmove hcache hgate hframe => exact .inl hcache

end Site

end ServiceRegistry
