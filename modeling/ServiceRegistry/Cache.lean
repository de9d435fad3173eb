import ServiceRegistry.Endpoint

/-!
# The connection cache

The cache holds, for each service, the connections to its instances as a whole list. It is filled from
one reading of the root and kept current by readings of single services. Each invalidation begins a
new generation; a list that was read in an earlier generation is never put into the cache. A closed
cache holds nothing and takes nothing.

Each list carries its reading: the generation in which the reader began, the place of its scan among
the scans of the store, the revision of the store that it saw and the time of its dials. Every reading
dials anew, so two connections are one and the same just if they stand in lists of the same reading and
have the same target.
-/
namespace ServiceRegistry

/-- Where a list of connections comes from. -/
structure Reading where
  /-- The generation of the cache when the reader began. -/
  generation : Nat
  /-- How many scans the store had served before. -/
  scan : Nat
  /-- The revision of the store that was read. -/
  revision : Nat
  /-- When the instances were dialed, all at once. -/
  time : Nat
  deriving DecidableEq, Repr

/-- The connections to the instances of a service, as one reading found them. -/
structure Listing where
  reading : Reading
  connections : List Connection
  deriving DecidableEq, Repr

/-- What a reader takes from the cache before it begins. -/
structure Stamp where
  generation : Nat
  options : List DialOption

/-- The connections of a registry. -/
structure Cache where
  entries : List (ServiceKey × Listing)
  /-- The reading of the root from which the cache was filled, `none` if it is to be filled. -/
  filled : Option Reading
  /-- How often the cache was invalidated. -/
  generation : Nat
  /-- The options for every dial, in the order in which they were added. -/
  options : List DialOption
  closed : Bool

namespace Cache

def empty : Cache := ⟨[], none, 0, [], false⟩

/-- The list of a service, `none` if the cache is to be filled first. A service without an entry has no
instances. -/
def lookup (cache : Cache) (key : ServiceKey) : Except Error (Option Listing) :=
  if cache.closed then .error .closed
  else .ok (cache.filled.map fun reading => (cache.entries.lookup key).getD ⟨reading, []⟩)

def stamp (cache : Cache) : Except Error Stamp :=
  if cache.closed then .error .closed else .ok ⟨cache.generation, cache.options⟩

/-- Puts a reading of the root in the place of all entries, unless its generation has passed. -/
def install (cache : Cache) (reading : Reading) (entries : List (ServiceKey × List Connection)) :
    Except Error Cache :=
  if cache.closed then .error .closed
  else if cache.generation ≠ reading.generation then .ok cache
  else .ok { cache with
    entries := entries.map fun entry => (entry.1, ⟨reading, entry.2⟩)
    filled := some reading }

/-- Puts a reading of one service in the place of its entry, unless its generation has passed. -/
def replace (cache : Cache) (key : ServiceKey) (listing : Listing) : Except Error Cache :=
  if cache.closed then .error .closed
  else if cache.generation ≠ listing.reading.generation then .ok cache
  else .ok { cache with entries := (key, listing) :: cache.entries.filter fun entry => entry.1 ≠ key }

/-- Drops all entries and begins a new generation. -/
def invalidate (cache : Cache) : Cache :=
  { cache with entries := [], filled := none, generation := cache.generation + 1 }

/-- Begins a new generation if the cache is to be filled, so that no reading under way fills it. -/
def discardPending (cache : Cache) : Option Cache :=
  if cache.filled.isSome then none else some { cache with generation := cache.generation + 1 }

/-- Adds options for all dials to come, and drops the connections that were dialed without them. -/
def addOptions (cache : Cache) (options : List DialOption) : Cache :=
  { cache with options := cache.options ++ options }.invalidate

/-- Drops all entries for good. -/
def close (cache : Cache) : Cache := { cache.invalidate with closed := true }

end Cache

end ServiceRegistry
