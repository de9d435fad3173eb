import ServiceRegistry.Proofs.Registry.Held
import ServiceRegistry.Proofs.Store.Silence

/-!
# The watcher and its subscription

From the moment its subscription is open, the watcher follows the feed of the store: whatever it
does, it keeps a place in the history that has been published, and it goes on from there. While it
reads the store it takes nothing from the feed, so each of its readings is at least as new as its
place.
-/
namespace ServiceRegistry

/-- The stream with which the watcher goes on from here. -/
def Progress.changes? : Progress → Option Changes
  | .listening changes | .discarding changes _ => some changes
  | .building errand _ => errand.changes?
  | _ => none

/-- The stream is a subscription to the root that has a place in what was published. -/
def Changes.Follow (changes : Changes) (site : Site) : Prop :=
  ∃ sub, changes = .live sub ∧ sub.directory = site.registry.config.directory ∧
    sub.next ≤ site.store.revision

namespace Changes

theorem ask_eq_live {changes : Changes} {clock : Nat} {sub : Subscription} :
    changes.ask clock = .live sub ↔ changes = .live sub := by
  cases changes with
  | live other => rfl
  | scripted script => exact ⟨nofun, nofun⟩

theorem Follow.ask {changes : Changes} {site : Site} (h : changes.Follow site) (clock : Nat) :
    (changes.ask clock).Follow site := by
  obtain ⟨sub, rfl, hsub⟩ := h
  exact ⟨sub, rfl, hsub⟩

theorem Follow.mono {changes : Changes} {before after : Site} (h : changes.Follow before)
    (hprecedes : before.Precedes after) : changes.Follow after := by
  obtain ⟨sub, rfl, hdirectory, hnext⟩ := h
  exact ⟨sub, rfl, by rw [hprecedes.config, hdirectory],
    hnext.trans hprecedes.store.revision_le⟩

/-- What a look at a subscription finds is found by a look at the feed. -/
theorem of_pull_item {sub : Subscription} {store : Store} {clock : Nat} {rest : Changes}
    {item : Except Error (List Event)} (h : (live sub).pull store clock = .item item rest) :
    ∃ later, rest = .live later ∧ store.feed.pull sub = .item item later := by
  simp only [pull] at h
  cases hpull : store.feed.pull sub with
  | item found later =>
    rw [hpull] at h
    cases h
    exact ⟨later, rfl, rfl⟩
  | _ =>
    rw [hpull] at h
    cases h

theorem of_pull_skipped {sub : Subscription} {store : Store} {clock : Nat} {rest : Changes}
    (h : (live sub).pull store clock = .skipped rest) :
    ∃ later, rest = .live later ∧ store.feed.pull sub = .skipped later := by
  simp only [pull] at h
  cases hpull : store.feed.pull sub with
  | skipped later =>
    rw [hpull] at h
    cases h
    exact ⟨later, rfl, rfl⟩
  | _ =>
    rw [hpull] at h
    cases h

end Changes

namespace Site

/-- The watcher follows the feed, and its readings are as new as its place. -/
structure Follows (site : Site) : Prop where
  live : ∀ who progress changes, site.progress? who = some progress →
    progress.changes? = some changes → changes.Follow site
  dialing : ∀ who errand stamp reading keys due sub,
    site.progress? who = some (.building errand (.dialing stamp reading keys due)) →
      errand.changes? = some (.live sub) → sub.next ≤ reading.revision

/-- The watcher goes on with the stream that it had, or with what is left of it. -/
theorem Turn.follow {site mid : Site} {who : Nat} {activity : Activity} {next : Progress}
    (h : site.Turn who activity next mid) (hasks : site.AsksChanges)
    (hactivity : site.registry.activities[who]? = some activity)
    (hbefore : ∀ changes, activity.progress.changes? = some changes → changes.Follow site)
    {changes : Changes} (hchanges : next.changes? = some changes) : changes.Follow site := by
  cases h with
  | quiet happart =>
    cases next with
    | building | listening | discarding => cases happart
    | _ => cases hchanges
  | advance hadvance => exact hbefore changes hchanges
  | fail hreceive hformer =>
    cases hchanges
    exact (hbefore _ hformer).ask _
  | refresh hinstall hnext =>
    cases hnext with
    | listen =>
      cases hchanges
      exact (hbefore _ rfl).ask _
    | refresh => exact hbefore changes hchanges
  | rebuild hinstall =>
    cases hchanges
    exact (hbefore _ rfl).ask _
  | subscribe hreceive =>
    cases hchanges
    obtain ⟨rfl, -⟩ := hasks.subscribes (progress?_of_activity hactivity) hreceive
    exact ⟨_, rfl, rfl, le_rfl⟩
  | @pass former rest hpull =>
    cases hchanges
    obtain ⟨sub, rfl, hdirectory, hnext⟩ := hbefore former rfl
    rcases hpull with ⟨-, rfl⟩ | hpull
    · exact ⟨sub, rfl, hdirectory, hnext⟩
    · obtain ⟨later, rfl, hskipped⟩ := Changes.of_pull_skipped hpull
      have hplace := (Feed.next_lt_of_pull (.inl hskipped)).2
      obtain ⟨rfl, -⟩ := Feed.of_pull_skipped hskipped
      exact ⟨_, rfl, hdirectory, hplace⟩
  | @take former rest item hpull =>
    cases hchanges
    obtain ⟨sub, rfl, hdirectory, -⟩ := hbefore former rfl
    obtain ⟨later, rfl, hitem⟩ := Changes.of_pull_item hpull
    have hplace := (Feed.next_lt_of_pull (.inr ⟨item, hitem⟩)).2
    exact ⟨later, rfl, (Feed.directory_of_pull hitem).trans hdirectory, hplace⟩
  | discard hdiscard =>
    cases hchanges
    exact (hbefore _ rfl).ask _
  | relay hfilled hnext =>
    cases hnext with
    | listen =>
      cases hchanges
      exact (hbefore _ rfl).ask _
    | refresh => exact hbefore changes hchanges
  | relayAll => exact hbefore changes hchanges
  | _ => cases hchanges

theorem Follows.moved {site after : Site} {move : Move} (h : site.Follows) (hasks : site.AsksChanges)
    (hmove : site.after move = some after) : after.Follows := by
  have hmoved := moved_of_after hmove
  have hprecedes := precedes_of_after hmove
  constructor
  · intro who progress changes hprogress hchanges
    refine Changes.Follow.mono ?_ hprecedes
    rcases hmoved.progress_cases hprogress with
      ⟨-, hbefore | hbegins⟩ | ⟨activity, mid, -, -, hactivity, hturn, -⟩
    · exact h.live who progress changes hbefore hchanges
    · cases progress with
      | calling | renewing => cases hchanges
      | _ => cases hbegins
    · refine hturn.follow hasks hactivity (fun former hformer => ?_) hchanges
      exact h.live who _ former (progress?_of_activity hactivity) hformer
  · intro who errand stamp reading keys due sub hdialing hchanges
    rcases hmoved.inside_cases hdialing rfl with
      ⟨-, hbefore⟩ | ⟨former, mid, -, -, hactivity, hadvance, -⟩
    · exact h.dialing who errand stamp reading keys due sub hbefore hchanges
    · cases hadvance with
      | scan hreceive hregistry hstore =>
        obtain ⟨place, hlive, -, hnext⟩ :=
          h.live who _ (.live sub) (progress?_of_activity hactivity) hchanges
        cases hlive
        exact hnext

theorem follows_of_run {store : Store} {config : Config} {dialer : Dialer} {faults : Faults}
    (hgenuine : faults.Genuine .watch) {moves : List Move} {site : Site}
    (hrun : (start store config dialer faults).run moves = some site) : site.Follows := by
  have hinduction : site.AsksChanges ∧ site.Follows := by
    refine run_induction (P := fun site => site.AsksChanges ∧ site.Follows) ?_ ?_ hrun
    · refine ⟨asksChanges_of_run hgenuine (run_nil _), ?_, ?_⟩
      · intro who progress changes hprogress hchanges
        obtain ⟨-, rfl⟩ := progress?_start hprogress
        cases hchanges
      · intro who errand stamp reading keys due sub hdialing
        cases (progress?_start hdialing).2
    · rintro site next move ⟨hasks, hfollows⟩ hmove
      exact ⟨hasks.moved hmove, hfollows.moved hasks hmove⟩
  exact hinduction.2

end Site

end ServiceRegistry
