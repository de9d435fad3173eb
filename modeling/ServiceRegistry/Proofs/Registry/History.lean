import ServiceRegistry.Proofs.Registry.Effect

/-!
# History of a run

A run is remembered as the list of its moves, each with the site at which it was made. Two sites of
a run are ordered by time, and `Precedes` says what the earlier one settles for the later one: the
configuration stays, the store evolves and the cache drifts. `history_induction` is the way to show
what holds of a site together with the moves that led to it.
-/
namespace ServiceRegistry

namespace Site

/-- What relates a site to a later one. -/
structure Precedes (before after : Site) : Prop where
  config : after.registry.config = before.registry.config
  dialer : after.registry.dialer = before.registry.dialer
  store : before.store.Evolves after.store
  faults : before.client.faults.Leaves after.client.faults
  length_le : before.registry.activities.length ≤ after.registry.activities.length
  cache : before.registry.cache.Drifts after.registry.cache

namespace Precedes

theorem refl (site : Site) : site.Precedes site :=
  ⟨rfl, rfl, Store.Evolves.refl _, .refl _, le_rfl, Cache.Drifts.refl _⟩

theorem trans {first second third : Site} (h : first.Precedes second)
    (h' : second.Precedes third) : first.Precedes third :=
  ⟨h'.config.trans h.config, h'.dialer.trans h.dialer, h.store.trans h'.store,
    h.faults.trans h'.faults, h.length_le.trans h'.length_le,
    h.cache.trans h'.cache⟩

theorem of_frame {before after : Site} (h : before.Frame after)
    (hcache : before.registry.cache.Drifts after.registry.cache) : before.Precedes after :=
  ⟨h.config, h.dialer, h.store, h.faults, h.length_le, hcache⟩

theorem genuine {before after : Site} (h : before.Precedes after) (m : Method)
    (hgenuine : before.client.faults.Genuine m) : after.client.faults.Genuine m :=
  hgenuine.of_leaves h.faults

end Precedes

theorem precedes_of_after {site next : Site} {move : Move} (h : site.after move = some next) :
    site.Precedes next := by
  cases moved_of_after h with
  | @turn who activity progress mid hactivity hready hturn hframe =>
    have hmid : site.Precedes mid := .of_frame hframe hturn.effect.drifts
    refine hmid.trans ⟨rfl, rfl, Store.Evolves.refl _, .refl _, ?_, Cache.Drifts.refl _⟩
    simp [settle, mapRegistry, Registry.move]
  | calm hmove hcache hgate hframe =>
    exact .of_frame hframe (hcache ▸ Cache.Drifts.refl _)

theorem precedes_of_run {site final : Site} {moves : List Move} (h : site.run moves = some final) :
    site.Precedes final := by
  refine run_induction (Precedes.refl site) ?_ h
  intro mid next move hmid hnext
  exact hmid.trans (precedes_of_after hnext)

/-! ## The moves of a run and the sites at which they were made -/

/-- The moves of a run, each with the site at which it was made. -/
def history : Site → List Move → List (Site × Move)
  | _, [] => []
  | site, move :: moves =>
    (site, move) :: match site.after move with
      | some next => next.history moves
      | none => []

theorem history_cons {site next : Site} {move : Move} (h : site.after move = some next)
    (moves : List Move) : site.history (move :: moves) = (site, move) :: next.history moves := by
  rw [history, h]

theorem history_append {site mid : Site} {moves : List Move} (h : site.run moves = some mid)
    (later : List Move) :
    site.history (moves ++ later) = site.history moves ++ mid.history later := by
  induction moves generalizing site with
  | nil =>
    cases h
    rfl
  | cons move moves ih =>
    rw [run_cons] at h
    obtain ⟨next, hnext, hrest⟩ := Option.bind_eq_some_iff.1 h
    rw [List.cons_append, history_cons hnext, history_cons hnext, ih hrest, List.cons_append]

theorem history_concat {site mid next : Site} {moves : List Move} {move : Move}
    (h : site.run moves = some mid) (hmove : mid.after move = some next) :
    site.history (moves ++ [move]) = site.history moves ++ [(mid, move)] := by
  rw [history_append h, history_cons hmove]
  rfl

theorem history_subset {site mid : Site} {moves : List Move} (h : site.run moves = some mid)
    (later : List Move) : site.history moves ⊆ site.history (moves ++ later) := by
  rw [history_append h]
  exact List.subset_append_left _ _

/-- What holds at the start, with nothing behind it, and is kept by every move of a run, holds at
the end of the run with all its moves behind it. -/
theorem history_induction {P : List (Site × Move) → Site → Prop} {site final : Site}
    {moves : List Move} (hsite : P [] site)
    (hkept : ∀ before s move t, site.run before = some s → P (site.history before) s →
      s.after move = some t → P (site.history before ++ [(s, move)]) t)
    (hrun : site.run moves = some final) : P (site.history moves) final := by
  induction moves using List.reverseRecOn generalizing final with
  | nil =>
    cases hrun
    exact hsite
  | append_singleton before move ih =>
    rw [run_append] at hrun
    obtain ⟨mid, hmid, hlast⟩ := Option.bind_eq_some_iff.1 hrun
    rw [run_cons] at hlast
    obtain ⟨next, hnext, hend⟩ := Option.bind_eq_some_iff.1 hlast
    cases hend
    rw [history_concat hmid hnext]
    exact hkept before mid move final hmid (ih hmid) hnext

/-- A move of a history was made where the moves before it have led. -/
theorem split_of_mem_history {site past : Site} {moves : List Move} {move : Move}
    (hmem : (past, move) ∈ site.history moves) :
    ∃ before after, moves = before ++ move :: after ∧ site.run before = some past := by
  induction moves generalizing site with
  | nil => cases hmem
  | cons first moves ih =>
    rw [history] at hmem
    rcases List.mem_cons.1 hmem with he | hmem
    · cases he
      exact ⟨[], moves, rfl, rfl⟩
    · cases hnext : site.after first with
      | none => simp [hnext] at hmem
      | some next =>
        rw [hnext] at hmem
        obtain ⟨before, after, rfl, hrun⟩ := ih hmem
        exact ⟨first :: before, after, rfl, by rw [run_cons, hnext]; exact hrun⟩

/-- A history tells of no other moves than those of the run. -/
theorem mem_of_mem_history {site past : Site} {moves : List Move} {move : Move}
    (hmem : (past, move) ∈ site.history moves) : move ∈ moves := by
  obtain ⟨before, after, rfl, -⟩ := split_of_mem_history hmem
  exact List.mem_append_right _ List.mem_cons_self

/-- A move that goes on where the moves before it have led is a move of the history. -/
theorem mem_history_of_run {site mid : Site} {before : List Move} (hrun : site.run before = some mid)
    (move : Move) (later : List Move) : (mid, move) ∈ site.history (before ++ move :: later) := by
  rw [history_append hrun]
  exact List.mem_append_right _ List.mem_cons_self

/-- Each site of a history has led to the end of the run. -/
theorem precedes_of_mem_history {site final past : Site} {moves : List Move} {move : Move}
    (hrun : site.run moves = some final) (hmem : (past, move) ∈ site.history moves) :
    site.Precedes past ∧ ∃ next, past.after move = some next ∧ next.Precedes final := by
  obtain ⟨before, after, rfl, hbefore⟩ := split_of_mem_history hmem
  rw [run_append, hbefore] at hrun
  obtain ⟨next, hnext, hrest⟩ := Option.bind_eq_some_iff.1 ((run_cons _ _ _).symm.trans hrun)
  exact ⟨precedes_of_run hbefore, next, hnext, precedes_of_run hrest⟩

/-- Of two moves of a run the one with the smaller number has led to the other. -/
theorem run_of_getElem? {site final : Site} {moves : List Move} (hrun : site.run moves = some final)
    {m n : Nat} (hlt : m < n) {first second : Site × Move}
    (hfirst : (site.history moves)[m]? = some first) (hsecond : (site.history moves)[n]? = some second) :
    ∃ next between, first.1.after first.2 = some next ∧ next.run between = some second.1 := by
  induction moves generalizing site m n with
  | nil => simp [history] at hfirst
  | cons move moves ih =>
    obtain ⟨next, hnext, hrest⟩ := Option.bind_eq_some_iff.1 ((run_cons _ _ _).symm.trans hrun)
    obtain ⟨n, rfl⟩ : ∃ k, n = k + 1 := ⟨n - 1, by omega⟩
    rw [history_cons hnext] at hfirst hsecond
    cases m with
    | zero =>
      cases hfirst
      obtain ⟨before, after, -, hbefore⟩ := split_of_mem_history (List.mem_of_getElem? hsecond)
      exact ⟨next, before, hnext, hbefore⟩
    | succ m => exact ih hrest (by omega) hfirst hsecond

/-- Of two moves of a run the second was made no later than the first, or after it. -/
theorem precedes_total {site final : Site} {moves : List Move} (hrun : site.run moves = some final)
    {first second : Site × Move} (hfirst : first ∈ site.history moves)
    (hsecond : second ∈ site.history moves) :
    second.1.Precedes first.1 ∨
      ∃ next, first.1.after first.2 = some next ∧ next.Precedes second.1 := by
  induction moves generalizing site with
  | nil => cases hfirst
  | cons move moves ih =>
    rw [run_cons] at hrun
    obtain ⟨next, hnext, hrest⟩ := Option.bind_eq_some_iff.1 hrun
    rw [history_cons hnext] at hfirst hsecond
    rcases List.mem_cons.1 hsecond with rfl | hsecond
    · left
      rcases List.mem_cons.1 hfirst with rfl | hfirst
      · exact .refl site
      · exact (precedes_of_after hnext).trans (precedes_of_mem_history hrest hfirst).1
    · rcases List.mem_cons.1 hfirst with rfl | hfirst
      · exact .inr ⟨next, hnext, (precedes_of_mem_history hrest hsecond).1⟩
      · exact ih hrest hfirst hsecond

/-- A registry that has just begun at an empty store, on which runs are tried out. -/
def sample : Site := start .empty (Config.make "svc" []) .onFirstUse .none

end Site

end ServiceRegistry
