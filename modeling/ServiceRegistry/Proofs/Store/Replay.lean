import ServiceRegistry.Proofs.Store.Silence
import Mathlib.Data.Finset.Basic

/-!
# Replaying what a watch delivers

An operation on a store publishes its net effect on the keys: what has been published between two
states of a store, applied to the keys of the earlier one, gives the keys of the later one (`Recorded`).
A stream that watches the store leads its reader over the published batches one look after another, and
each look tells of the one batch it passes or of the number of batches that were lost (`Look.Tells`). The
looks follow each other without a gap and without an overlap (`Covers`), so a reader that has not lagged
has been handed just the events that concern it, and their replay brings its keys up to date.
-/
namespace ServiceRegistry

/-! ## Events as changes of a set of keys -/

/-- What an event does to a set of keys. -/
def Event.apply (keys : Finset String) (event : Event) : Finset String :=
  match event.kind with
  | .put => insert event.key keys
  | .delete => keys.erase event.key

/-- A set of keys after a list of events. -/
def replay (events : List Event) (keys : Finset String) : Finset String :=
  events.foldl Event.apply keys

theorem replay_append (events later : List Event) (keys : Finset String) :
    replay (events ++ later) keys = replay later (replay events keys) := List.foldl_append

/-- A set that is cut down to the keys with a property follows the events that concern them. -/
theorem filter_replay (p : String → Bool) (events : List Event) (keys : Finset String) :
    (replay events keys).filter (p ·) =
      replay (events.filter fun event => p event.key) (keys.filter (p ·)) := by
  induction events generalizing keys with
  | nil => rfl
  | cons event events ih =>
    have happly : (Event.apply keys event).filter (p ·) =
        if p event.key then Event.apply (keys.filter (p ·)) event else keys.filter (p ·) := by
      unfold Event.apply
      cases event.kind with
      | put => exact Finset.filter_insert ..
      | delete =>
        rw [Finset.filter_erase]
        split
        · rfl
        · rename_i hp
          exact Finset.erase_eq_of_notMem fun hmem => hp (Finset.mem_filter.1 hmem).2
    have hstep : replay (event :: events) keys = replay events (Event.apply keys event) := rfl
    rw [hstep, ih, happly, List.filter_cons]
    split <;> rfl

/-- A list of deletions takes its keys away. -/
theorem mem_replay_deletes {gone : List String} {keys : Finset String} {key : String} :
    key ∈ replay (gone.map fun key => ⟨.delete, key⟩) keys ↔ key ∈ keys ∧ key ∉ gone := by
  induction gone generalizing keys with
  | nil => simp [replay]
  | cons first gone ih =>
    have hstep : replay ((first :: gone).map fun key => (⟨.delete, key⟩ : Event)) keys =
        replay (gone.map fun key => ⟨.delete, key⟩) (keys.erase first) := rfl
    rw [hstep, ih, Finset.mem_erase, List.mem_cons]
    grind

/-! ## The net effect of an operation -/

namespace Store

/-- The keys of a store as a set. -/
def keySet (store : Store) : Finset String := store.keys.toFinset

/-- The keys of a store that start with a directory. -/
def keysUnder (store : Store) (directory : String) : Finset String :=
  store.keySet.filter (Text.startsWith directory ·)

theorem mem_keySet {store : Store} {key : String} :
    key ∈ store.keySet ↔ (store.content.get? key).isSome := by
  rw [keySet, List.mem_toFinset]
  exact Keyspace.mem_keys_iff

/-- What was published between two states of a store turns the keys of the first into those of the
second. -/
def Recorded (before after : Store) : Prop :=
  ∃ batches, after.feed.published = before.feed.published ++ batches ∧
    after.keySet = replay batches.flatten before.keySet

theorem recorded_of_eq {before after : Store} (hcontent : after.content = before.content)
    (hfeed : after.feed.published = before.feed.published) : before.Recorded after :=
  ⟨[], by rw [hfeed, List.append_nil], by simp only [keySet, keys, hcontent]; rfl⟩

theorem Recorded.refl (store : Store) : store.Recorded store := recorded_of_eq rfl rfl

theorem Recorded.trans {first second third : Store} (h : first.Recorded second)
    (h' : second.Recorded third) : first.Recorded third := by
  obtain ⟨batches, hpublished, hkeys⟩ := h
  obtain ⟨later, hpublished', hkeys'⟩ := h'
  refine ⟨batches ++ later, ?_, ?_⟩
  · rw [hpublished', hpublished, List.append_assoc]
  · rw [hkeys', hkeys, List.flatten_append, replay_append]

/-- A change that publishes its net effect. -/
theorem recorded_of_publish {before after : Store} {batch : List Event}
    (hopen : before.feed.closed = false) (hfeed : after.feed = before.feed.publish batch)
    (hkeys : ∀ key, (after.content.get? key).isSome ↔ key ∈ replay batch before.keySet) :
    before.Recorded after := by
  have hset : after.keySet = replay batch before.keySet := by
    ext key
    rw [mem_keySet]
    exact hkeys key
  by_cases hbatch : batch = []
  · exact ⟨[], by simp [hfeed, Feed.publish, hbatch], by rw [hset, hbatch]; rfl⟩
  · exact ⟨[batch], by simp [hfeed, Feed.publish, hbatch, hopen], by simpa using hset⟩

theorem recorded_put {store after : Store} {key value : String} {lease : Option LeaseId}
    (h : store.put key value lease = .ok after) : store.Recorded after := by
  obtain ⟨hopen, -, rfl⟩ := of_put h
  refine recorded_of_publish hopen rfl fun other => ?_
  have hinsert : replay [⟨.put, key⟩] store.keySet = insert key store.keySet := rfl
  rw [Keyspace.get?_insert, hinsert, Finset.mem_insert, mem_keySet]
  by_cases hother : other = key <;> simp [hother]

/-- The deletion of a key that is not there publishes nothing and changes nothing. -/
theorem recorded_delete {store after : Store} {key : String} (h : store.delete key = .ok after) :
    store.Recorded after := by
  obtain ⟨hopen, rfl⟩ := of_delete h
  split
  · refine recorded_of_publish hopen rfl fun other => ?_
    have herase : replay [⟨.delete, key⟩] store.keySet = store.keySet.erase key := rfl
    rw [Keyspace.get?_erase, herase, Finset.mem_erase, mem_keySet]
    by_cases hother : other = key <;> simp [hother]
  · exact .refl _

/-- A revocation takes just the keys away that are attached to its lease. -/
theorem isSome_keep_iff {store : Store} {lease : LeaseId} {key : String} :
    ((store.content.keep fun _ record => record.lease ≠ some lease).get? key).isSome ↔
      key ∈ store.keySet ∧ key ∉ store.attached lease := by
  rw [mem_keySet]
  constructor
  · intro h
    rw [Keyspace.get?_keep] at h
    obtain ⟨record, hrecord⟩ := Option.isSome_iff_exists.1 h
    obtain ⟨hget, hkept⟩ := Option.filter_eq_some_iff.1 hrecord
    refine ⟨Option.isSome_iff_exists.2 ⟨record, hget⟩, fun hattached => ?_⟩
    obtain ⟨row, hrow, rfl⟩ := List.mem_map.1 hattached
    obtain ⟨hmem, hlease⟩ := List.mem_filter.1 hrow
    rw [Keyspace.get?_of_mem hmem] at hget
    cases hget
    exact of_decide_eq_true hkept (of_decide_eq_true hlease)
  · rintro ⟨hsome, hnot⟩
    rw [get?_keep_of_not_attached hnot]
    exact hsome

/-- A revocation publishes the keys of its lease in one batch. -/
theorem recorded_revoke {store after : Store} {lease : LeaseId}
    (h : store.revoke lease = .ok after) : store.Recorded after := by
  obtain ⟨hopen, -, rfl⟩ := of_revoke h
  refine recorded_of_publish hopen rfl fun key => ?_
  rw [mem_replay_deletes]
  exact isSome_keep_iff

/-- Every request that is carried out publishes its net effect. -/
theorem recorded_serve {store after : Store} {clock : Nat} {m : Method} {request : Request m}
    {answer : Answer m} (h : store.serve clock request = .ok (answer, after)) :
    store.Recorded after := by
  cases request with
  | get key =>
    obtain ⟨row, -, hrow⟩ := of_map_ok h
    cases hrow
    exact .refl _
  | getPrefix directory =>
    obtain ⟨-, rfl⟩ := of_getPrefix h
    exact recorded_of_eq rfl rfl
  | put key value lease =>
    obtain ⟨later, hput, hlater⟩ := of_map_ok h
    cases hlater
    exact recorded_put hput
  | delete key =>
    obtain ⟨later, hdelete, hlater⟩ := of_map_ok h
    cases hlater
    exact recorded_delete hdelete
  | grant ttl =>
    obtain ⟨-, rfl⟩ := of_grant h
    exact recorded_of_eq rfl rfl
  | revoke lease =>
    obtain ⟨later, hrevoke, hlater⟩ := of_map_ok h
    cases hlater
    exact recorded_revoke hrevoke
  | keepAlive lease interval =>
    obtain ⟨renewal, -, hrenewal⟩ := of_map_ok h
    cases hrenewal
    exact .refl _
  | watch directory =>
    obtain ⟨sub, -, hsub⟩ := of_map_ok h
    cases hsub
    exact .refl _

end Store

/-! ## Runs of a store that is watched -/

/-- Something that happens at a store or to a stream that watches it. -/
inductive Happening where
  | request (clock : Nat) {m : Method} (request : Request m)
  | outage (unavailable : Bool)
  | close
  /-- The reader of the stream looks at it. -/
  | look

/-- A look that has found something: what it has passed and what it has handed out. -/
structure Look where
  /-- How many batches lay behind the reader before the look. -/
  first : Nat
  /-- How many batches lay behind the reader after the look. -/
  last : Nat
  /-- What was handed out, if anything. -/
  item? : Option (Except Error (List Event))
  /-- How many batches had been published by the time of the look. -/
  published : Nat

/-- The events that a look has handed out. -/
def Look.events (look : Look) : List Event :=
  match look.item? with
  | some (.ok events) => events
  | _ => []

/-- Whether a look has told that batches were lost. -/
def Look.isLag (look : Look) : Bool :=
  match look.item? with
  | some (.error _) => true
  | _ => false

/-- A store and a stream that watches it, with the looks at the stream that have found something. -/
structure Watch where
  store : Store
  sub : Subscription
  looks : List Look

namespace Watch

def start (store : Store) (sub : Subscription) : Watch := ⟨store, sub, []⟩

/-- The reader goes on to `rest`. -/
def pass (watch : Watch) (item? : Option (Except Error (List Event))) (rest : Subscription) : Watch :=
  { watch with
    sub := rest
    looks := watch.looks ++ [⟨watch.sub.next, rest.next, item?, watch.store.revision⟩] }

def after (watch : Watch) : Happening → Watch
  | .request clock request =>
    match watch.store.serve clock request with
    | .ok (_, store) => { watch with store := store }
    | .error _ => watch
  | .outage unavailable => { watch with store := { watch.store with unavailable := unavailable } }
  | .close => { watch with store := watch.store.close }
  | .look =>
    match watch.store.feed.pull watch.sub with
    | .skipped rest => watch.pass none rest
    | .item item rest => watch.pass (some item) rest
    | .waiting | .finished => watch

def run (watch : Watch) (happenings : List Happening) : Watch := happenings.foldl after watch

/-- What the reader was handed, oldest first. -/
def items (watch : Watch) : List (Except Error (List Event)) := watch.looks.filterMap (·.item?)

/-- The events that the reader was handed, oldest first. -/
def events (watch : Watch) : List Event := watch.looks.flatMap Look.events

/-- Whether the reader has been told that it has lost batches. -/
def hasLagged (watch : Watch) : Bool := watch.looks.any Look.isLag

theorem run_cons (watch : Watch) (happening : Happening) (happenings : List Happening) :
    watch.run (happening :: happenings) = (watch.after happening).run happenings := rfl

@[simp] theorem items_pass (watch : Watch) (item? : Option (Except Error (List Event)))
    (rest : Subscription) : (watch.pass item? rest).items = watch.items ++ item?.toList := by
  cases item? <;> simp [items, pass]

@[simp] theorem store_pass (watch : Watch) (item? : Option (Except Error (List Event)))
    (rest : Subscription) : (watch.pass item? rest).store = watch.store := rfl

@[simp] theorem sub_pass (watch : Watch) (item? : Option (Except Error (List Event)))
    (rest : Subscription) : (watch.pass item? rest).sub = rest := rfl

end Watch

/-! ## What a look tells -/

/-- A look tells of the batch that it passes, or that batches were lost: all that stood behind the reader's
place and before the newest ones that are kept. -/
inductive Look.Tells (feed : Feed) (directory : String) : Look → Prop
  | delivered {n published : Nat} {batch events : List Event} (hbatch : feed.published[n]? = some batch)
      (hevents : events = batch.filter fun event => Text.startsWith directory event.key)
      (hsome : events ≠ []) : Tells feed directory ⟨n, n + 1, some (.ok events), published⟩
  | dropped {n published : Nat} {batch : List Event} (hbatch : feed.published[n]? = some batch)
      (hnone : ∀ event ∈ batch, Text.startsWith directory event.key = false) :
      Tells feed directory ⟨n, n + 1, none, published⟩
  | lagged {n published lost : Nat} (hpublished : published ≤ feed.published.length)
      (hlost : n + lost + Feed.capacity = published) (hpos : 0 < lost) :
      Tells feed directory ⟨n, n + lost, some (.error (.watchLagged lost)), published⟩

/-- What was told stays true as batches are added. -/
theorem Look.Tells.mono {feed later : Feed} {directory : String} {look : Look}
    (h : look.Tells feed directory) (hlater : feed.published <+: later.published) :
    look.Tells later directory := by
  have hkept {n : Nat} {batch : List Event} (hbatch : feed.published[n]? = some batch) :
      later.published[n]? = some batch := by
    obtain ⟨batches, hbatches⟩ := hlater
    have hn := (List.getElem?_eq_some_iff.1 hbatch).1
    rw [← hbatches, List.getElem?_append_left hn, hbatch]
  cases h with
  | delivered hbatch hevents hsome => exact .delivered (hkept hbatch) hevents hsome
  | dropped hbatch hnone => exact .dropped (hkept hbatch) hnone
  | lagged hpublished hlost hpos => exact .lagged (hpublished.trans hlater.length_le) hlost hpos

theorem Look.Tells.first_lt_last {feed : Feed} {directory : String} {look : Look}
    (h : look.Tells feed directory) : look.first < look.last := by
  cases h with
  | delivered => exact Nat.lt_succ_self _
  | dropped => exact Nat.lt_succ_self _
  | lagged hpublished hlost hpos => exact Nat.lt_add_of_pos_right hpos

/-- A look that is handed an error has found that the reader has lost batches. -/
theorem Feed.of_pull_error {feed : Feed} {sub rest : Subscription} {e : Error}
    (h : feed.pull sub = .item (.error e) rest) :
    0 < feed.lost sub ∧ e = .watchLagged (feed.lost sub) ∧
      rest = { sub with next := sub.next + feed.lost sub } := by
  unfold pull at h
  split at h
  · rename_i hlost
    cases h
    exact ⟨hlost, rfl, rfl⟩
  · split at h
    · split at h <;> cases h
    · split at h <;> cases h

/-- What is handed out without an error is some event. -/
theorem Feed.ne_nil_of_pull {feed : Feed} {sub rest : Subscription} {events : List Event}
    (h : feed.pull sub = .item (.ok events) rest) : events ≠ [] := by
  unfold pull at h
  split at h
  · cases h
  · split at h
    · split at h
      · cases h
      · rename_i hsome
        cases h
        exact hsome
    · split at h <;> cases h

/-- A look that finds nothing finds the reader behind all batches. -/
theorem Feed.length_le_of_isDrained {feed : Feed} {sub : Subscription}
    (h : feed.isDrained sub = true) : feed.published.length ≤ sub.next := by
  by_contra hlt
  obtain ⟨batch, hbatch⟩ : ∃ batch, feed.published[sub.next]? = some batch :=
    ⟨_, List.getElem?_eq_getElem (Nat.lt_of_not_le hlt)⟩
  by_cases hlost : 0 < feed.lost sub
  · simp [isDrained, pull, hlost] at h
  · by_cases hnone : relevant sub batch = [] <;> simp [isDrained, pull, hlost, hbatch, hnone] at h

/-! ## The looks at a stream follow each other -/

/-- The looks lead from one place in the feed to another, each going on where the one before has ended. -/
def Covers (first last : Nat) : List Look → Prop
  | [] => first = last
  | look :: looks => look.first = first ∧ first < look.last ∧ Covers look.last last looks

namespace Covers

variable {first last n : Nat} {looks : List Look} {look : Look}

theorem le (h : Covers first last looks) : first ≤ last := by
  induction looks generalizing first with
  | nil => exact Nat.le_of_eq h
  | cons look looks ih => exact h.2.1.le.trans (ih h.2.2)

theorem concat (h : Covers first last looks) (hfirst : look.first = last) (hlast : last < look.last) :
    Covers first look.last (looks ++ [look]) := by
  induction looks generalizing first with
  | nil =>
    obtain rfl : first = last := h
    exact ⟨hfirst, hlast, rfl⟩
  | cons other looks ih => exact ⟨h.1, h.2.1, ih h.2.2⟩

theorem first_le (h : Covers first last looks) (hmem : look ∈ looks) : first ≤ look.first := by
  induction looks generalizing first with
  | nil => cases hmem
  | cons other looks ih =>
    rcases List.mem_cons.1 hmem with rfl | hmem
    · exact h.1.ge
    · exact h.2.1.le.trans (ih h.2.2 hmem)

theorem pairwise (h : Covers first last looks) :
    looks.Pairwise fun earlier later => earlier.last ≤ later.first := by
  induction looks generalizing first with
  | nil => exact .nil
  | cons other looks ih =>
    have hlater : ∀ look ∈ looks, other.last ≤ look.first := fun _ hmem => h.2.2.first_le hmem
    exact .cons hlater (ih h.2.2)

/-- Each place on the way lies on just one of the looks. -/
theorem existsUnique (h : Covers first last looks) (hfirst : first ≤ n) (hlast : n < last) :
    ∃! i : Nat, ∃ look, looks[i]? = some look ∧ look.first ≤ n ∧ n < look.last := by
  induction looks generalizing first with
  | nil =>
    obtain rfl : first = last := h
    omega
  | cons other looks ih =>
    obtain ⟨rfl, hother, hrest⟩ := h
    by_cases hn : n < other.last
    · refine ⟨0, ⟨other, rfl, hfirst, hn⟩, fun i hi => ?_⟩
      obtain ⟨look, hlook, hle, -⟩ := hi
      cases i with
      | zero => rfl
      | succ i =>
        have := hrest.first_le (List.mem_of_getElem? hlook)
        omega
    · obtain ⟨i, hi, hunique⟩ := ih hrest (Nat.le_of_not_lt hn)
      refine ⟨i + 1, hi, fun j hj => ?_⟩
      obtain ⟨look, hlook, hle, hlt⟩ := hj
      cases j with
      | zero =>
        cases hlook
        exact absurd hlt hn
      | succ j => exact congrArg (· + 1) (hunique j ⟨look, hlook, hle, hlt⟩)

end Covers

/-! ## What holds after every run -/

namespace Watch

/-- How a watch stands to the store it was opened at. -/
structure Faithful (opened : Store) (directory : String) (watch : Watch) : Prop where
  directory_eq : watch.sub.directory = directory
  recorded : opened.Recorded watch.store
  next_le : watch.sub.next ≤ watch.store.revision
  covers : Covers opened.revision watch.sub.next watch.looks
  tells : ∀ look ∈ watch.looks, look.Tells watch.store.feed directory

variable {opened : Store} {directory : String} {watch : Watch}

theorem faithful_start {sub : Subscription} (h : opened.watch directory = .ok sub) :
    Faithful opened directory (start opened sub) := by
  obtain ⟨-, -, h⟩ := Store.of_check_bind h
  cases h
  exact ⟨rfl, .refl _, le_rfl, rfl, fun look hmem => nomatch hmem⟩

/-- The store goes on, the reader waits. -/
theorem Faithful.store {store : Store} (h : watch.Faithful opened directory)
    (hrecorded : watch.store.Recorded store) :
    Faithful opened directory { watch with store := store } := by
  have hprefix : watch.store.feed.published <+: store.feed.published := by
    obtain ⟨batches, hpublished, -⟩ := hrecorded
    exact ⟨batches, hpublished.symm⟩
  refine ⟨h.directory_eq, h.recorded.trans hrecorded, h.next_le.trans hprefix.length_le, h.covers, ?_⟩
  intro look hmem
  exact (h.tells look hmem).mono hprefix

/-- The reader goes on by a look that tells of what it passes. -/
theorem Faithful.pass (h : watch.Faithful opened directory)
    {item? : Option (Except Error (List Event))} {next : Nat} (hle : next ≤ watch.store.revision)
    (htells : Look.Tells watch.store.feed directory
      ⟨watch.sub.next, next, item?, watch.store.revision⟩) :
    (watch.pass item? { watch.sub with next := next }).Faithful opened directory := by
  refine ⟨h.directory_eq, h.recorded, hle, ?_, ?_⟩
  · exact h.covers.concat rfl htells.first_lt_last
  · intro look hmem
    rcases List.mem_append.1 hmem with hmem | hmem
    · exact h.tells look hmem
    · rw [List.mem_singleton.1 hmem]
      exact htells

theorem Faithful.look (h : watch.Faithful opened directory) :
    (watch.after .look).Faithful opened directory := by
  obtain rfl := h.directory_eq
  cases hpull : watch.store.feed.pull watch.sub with
  | waiting => simpa only [after, hpull] using h
  | finished => simpa only [after, hpull] using h
  | skipped rest =>
    have hle := (Feed.next_lt_of_pull (.inl hpull)).2
    obtain ⟨rfl, batch, hbatch, hnone⟩ := Feed.of_pull_skipped hpull
    have hnone' : ∀ event ∈ batch, Text.startsWith watch.sub.directory event.key = false :=
      fun event hmem => by simpa using List.filter_eq_nil_iff.1 hnone event hmem
    simpa only [after, hpull] using h.pass hle (.dropped hbatch hnone')
  | item item rest =>
    have hle := (Feed.next_lt_of_pull (.inr ⟨item, hpull⟩)).2
    cases item with
    | ok events =>
      have hsome := Feed.ne_nil_of_pull hpull
      obtain ⟨rfl, batch, hbatch, hevents⟩ := Feed.of_pull_item hpull
      simpa only [after, hpull] using h.pass hle (.delivered hbatch hevents hsome)
    | error e =>
      obtain ⟨hlost, rfl, rfl⟩ := Feed.of_pull_error hpull
      have hkept : watch.sub.next + watch.store.feed.lost watch.sub + Feed.capacity =
          watch.store.revision := by
        simp only [Feed.lost, Store.revision] at hlost ⊢
        omega
      simpa only [after, hpull] using h.pass hle (.lagged le_rfl hkept hlost)

/-- Whatever happens, the reader is told of each batch that it passes. -/
theorem Faithful.after (h : watch.Faithful opened directory) (happening : Happening) :
    (watch.after happening).Faithful opened directory := by
  cases happening with
  | request clock request =>
    cases hserve : watch.store.serve clock request with
    | ok answer =>
      simpa only [Watch.after, hserve] using h.store (Store.recorded_serve hserve)
    | error e => simpa only [Watch.after, hserve] using h
  | outage unavailable => exact h.store (Store.recorded_of_eq rfl rfl)
  | close => exact h.store (Store.recorded_of_eq rfl rfl)
  | look => exact h.look

theorem Faithful.run (h : watch.Faithful opened directory) (happenings : List Happening) :
    (watch.run happenings).Faithful opened directory := by
  induction happenings generalizing watch with
  | nil => exact h
  | cons happening happenings ih => exact ih (h.after happening)

/-- A reader that has lost nothing was handed all that concerns it of the batches it has passed. -/
theorem flatMap_events {feed : Feed} {looks : List Look} {first last : Nat}
    (hcovers : Covers first last looks) (hlast : last ≤ feed.published.length)
    (htells : ∀ look ∈ looks, look.Tells feed directory)
    (hnone : looks.any Look.isLag = false) :
    looks.flatMap Look.events =
      ((feed.published.take last).drop first).flatten.filter
        fun event => Text.startsWith directory event.key := by
  induction looks generalizing first with
  | nil =>
    obtain rfl : first = last := hcovers
    simp
  | cons look looks ih =>
    obtain ⟨rfl, -, hrest⟩ := hcovers
    rw [List.any_cons, Bool.or_eq_false_iff] at hnone
    have hlater := ih hrest (fun other hmem => htells other (List.mem_cons_of_mem _ hmem)) hnone.2
    have hstep {n : Nat} {batch : List Event} (hbatch : feed.published[n]? = some batch)
        (hn : n + 1 ≤ last) : (feed.published.take last).drop n =
          batch :: (feed.published.take last).drop (n + 1) := by
      have htake : (feed.published.take last)[n]? = some batch := by
        rw [List.getElem?_take_of_lt hn, hbatch]
      obtain ⟨hlt, rfl⟩ := List.getElem?_eq_some_iff.1 htake
      exact List.drop_eq_getElem_cons hlt
    cases htells look List.mem_cons_self with
    | delivered hbatch hevents =>
      rw [hstep hbatch hrest.le, List.flatten_cons, List.filter_append, ← hevents,
        List.flatMap_cons, hlater]
      rfl
    | dropped hbatch hnothing =>
      have hfilter := List.filter_eq_nil_iff.2 fun event hmem => by simpa using hnothing event hmem
      rw [hstep hbatch hrest.le, List.flatten_cons, List.filter_append, hfilter,
        List.flatMap_cons, hlater]
      rfl
    | lagged => cases hnone.1

/-- Every batch that is published after a watch has been opened is told of by just one look, in the order
of publication: what concerns the reader is handed out, a batch of which nothing concerns it is passed
over, and batches that were lost before the newest ones are counted. A reader that has drained the stream
has been told of all of them, and unless it has lagged, the events it was handed turn the keys of its
directory at the opening into those of now. -/
theorem watch_replays {store : Store} {directory : String} {sub : Subscription}
    (hwatch : store.watch directory = .ok sub) (happenings : List Happening) :
    let watch := (start store sub).run happenings
    (∀ n, store.revision ≤ n → n < watch.sub.next →
        ∃! i : Nat, ∃ look, watch.looks[i]? = some look ∧ look.first ≤ n ∧ n < look.last) ∧
      (watch.looks.Pairwise fun earlier later => earlier.last ≤ later.first) ∧
      (∀ look ∈ watch.looks, store.revision ≤ look.first ∧ look.Tells watch.store.feed directory) ∧
      (watch.store.feed.isDrained watch.sub = true →
        watch.sub.next = watch.store.revision ∧
          (watch.hasLagged = false →
            replay watch.events (store.keysUnder directory) = watch.store.keysUnder directory)) := by
  intro watch
  have hfaithful : watch.Faithful store directory := (faithful_start hwatch).run happenings
  refine ⟨fun n => hfaithful.covers.existsUnique, hfaithful.covers.pairwise,
    fun look hmem => ⟨hfaithful.covers.first_le hmem, hfaithful.tells look hmem⟩, fun hdrained => ?_⟩
  have hend : watch.sub.next = watch.store.revision :=
    Nat.le_antisymm hfaithful.next_le (Feed.length_le_of_isDrained hdrained)
  refine ⟨hend, fun hlag => ?_⟩
  obtain ⟨batches, hpublished, hkeys⟩ := hfaithful.recorded
  have hevents : watch.events =
      batches.flatten.filter fun event => Text.startsWith directory event.key := by
    have hall := flatMap_events hfaithful.covers hfaithful.next_le hfaithful.tells hlag
    rw [hend] at hall
    unfold Store.revision at hall
    rw [List.take_length, hpublished, List.drop_left] at hall
    exact hall
  rw [hevents, Store.keysUnder, Store.keysUnder, ← filter_replay, hkeys]

/-- A watch of `svc/` through a takeover of a key, a revocation and the close of the store. -/
theorem watch_replays_until_close :
    let happenings : List Happening :=
      [.request 0 (.put "svc/chat/a:1" "" none), .request 0 (.grant 30),
        .request 0 (.put "svc/chat/a:1" "" (some ⟨1⟩)), .look, .request 0 (.put "other" "" none),
        .request 0 (.put "svc/chat/b:1" "" (some ⟨1⟩)), .request 0 (.put "svc/push/c:1" "" none),
        .request 0 (.revoke ⟨1⟩), .request 0 (.delete "svc/chat/a:1"), .close,
        .look, .look, .look, .look, .look]
    let watch := (start Store.empty (Store.empty.feed.subscribe "svc/")).run happenings
    Store.empty.watch "svc/" = .ok (Store.empty.feed.subscribe "svc/") ∧
      watch.store.feed.isDrained watch.sub = true ∧ watch.hasLagged = false ∧
      watch.events.length = 6 ∧
      replay watch.events (Store.empty.keysUnder "svc/") = watch.store.keysUnder "svc/" := by
  refine ⟨rfl, by decide +kernel, by decide +kernel, by decide +kernel, ?_⟩
  exact ((watch_replays rfl _).2.2.2 (by decide +kernel)).2 (by decide +kernel)

/-- Of 257 batches that nobody has looked at the first is lost. -/
example :
    ((start Store.empty (Store.empty.feed.subscribe "svc/")).run
      (List.replicate 257 (.request 0 (.put "svc/chat/a:1" "" none)) ++ [.look])).items =
        [.error (.watchLagged 1)] := by
  decide +kernel

end Watch

end ServiceRegistry
