import TableSteward.Fault
import TableSteward.Text.Blank
import TableSteward.Value.Integer

/-!
# A cache of metrics

Values are kept under keys until they expire.  An expired entry counts as absent, and the next `set` sweeps
it out.  When the cache is full, a new key takes the place of the entry that was read least recently; among
equals, of the one stored first.  A `set` of a key counts as a reading of it.
-/
set_option autoImplicit false

namespace TableSteward

structure CacheEntry (τ : Type) where
  value : Value
  expiresAt : τ
  lastAccess : τ

structure MetricsCache (τ : Type) where
  capacity : Int := 100
  entries : Entries (CacheEntry τ) := []
  hits : Nat := 0
  misses : Nat := 0

namespace MetricsCache

variable {τ : Type} [LT τ] [DecidableLT τ]

def isExpired (now : τ) (e : CacheEntry τ) : Bool := e.expiresAt < now

def get (c : MetricsCache τ) (now : τ) (key : String) : Option Value × MetricsCache τ :=
  match c.entries.get? key with
  | none => (none, { c with misses := c.misses + 1 })
  | some e =>
      if isExpired now e then (none, { c with entries := c.entries.erase key, misses := c.misses + 1 })
      else
        (some e.value,
         { c with entries := c.entries.put key { e with lastAccess := now }, hits := c.hits + 1 })

def sweep (now : τ) (es : Entries (CacheEntry τ)) : Entries (CacheEntry τ) :=
  es.filter fun e => !isExpired now e.2

/-- The key that was read least recently: `key`, read at `time`, or one of some others read before it. -/
def leastRecent (key : String) (time : τ) : Entries (CacheEntry τ) → String
  | [] => key
  | (other, e) :: rest =>
      if e.lastAccess < time then leastRecent other e.lastAccess rest else leastRecent key time rest

def evict : Entries (CacheEntry τ) → Entries (CacheEntry τ)
  | [] => []
  | (key, e) :: rest => Entries.erase ((key, e) :: rest) (leastRecent key e.lastAccess rest)

def makeRoom (c : MetricsCache τ) (now : τ) (key : String) : MetricsCache τ :=
  let fresh := sweep now c.entries
  { c with entries := if !fresh.has key && c.capacity ≤ (fresh.length : Int) then evict fresh else fresh }

def set (c : MetricsCache τ) (now expiresAt : τ) (key : String) (v : Value) : MetricsCache τ :=
  let c := c.makeRoom now key
  { c with entries := c.entries.put key ⟨v, expiresAt, now⟩ }

def contains (c : MetricsCache τ) (now : τ) (key : String) : Bool :=
  match c.entries.get? key with
  | some e => !isExpired now e
  | none => false

/-- Stores a value for a number of seconds.  Room is made before the time of expiry is known to exist. -/
def setFor (c : MetricsCache Number) (now : Number) (key : String) (v ttl : Value) :
    Result Unit × MetricsCache Number :=
  match ttl.toNumber? with
  | none => (.error .notANumber, c.makeRoom now key)
  | some seconds =>
      match now.add seconds with
      | .ok expiresAt => (.ok (), c.set now expiresAt key v)
      | .error f => (.error (.ofArithmetic f), c.makeRoom now key)

omit [LT τ] [DecidableLT τ] in
def invalidate (c : MetricsCache τ) (pattern : Option String) : Nat × MetricsCache τ :=
  match pattern with
  | none => (c.entries.length, { c with entries := [] })
  | some p =>
      let kept := c.entries.filter fun e => !Text.containsText e.1 p
      (c.entries.length - kept.length, { c with entries := kept })

omit [LT τ] [DecidableLT τ] in
def hitRate (c : MetricsCache τ) : Binary64 :=
  if c.hits + c.misses = 0 then .zero
  else (Binary64.ofRatio false c.hits (c.hits + c.misses)).roundPlaces 3

omit [LT τ] [DecidableLT τ] in
def stats (c : MetricsCache τ) : Value :=
  .dict [("entries", .int c.entries.length), ("capacity", .int c.capacity),
    ("keys", .texts c.entries.keys), ("hits", .int c.hits), ("misses", .int c.misses),
    ("hit_rate", .real c.hitRate)]

end MetricsCache

/-! ## Periods of a dashboard

The key under which a dashboard is cached, and how long: an hour while its period is still running and a
week when it is over.
-/

namespace Period

def types : List String := ["weekly", "monthly"]

def sortTexts (ss : List String) : List String := ss.mergeSort fun a b => a ≤ b

/-- The key of a dashboard.  The order of the zones does not matter. -/
def cacheKey (kind database periodType periodId : String) (zones : List String) : String :=
  let zonesPart := if zones.isEmpty then "all" else ",".intercalate (sortTexts zones)
  ":".intercalate [kind, database, periodType, if periodId.isEmpty then "all" else periodId, zonesPart]

def weekLength : Nat := 7

/-- Whether the period that begins on `start` is still running: a month until it ends, any other period
for seven days. -/
def isCurrent (start : Date) (periodType : String) (today : Date) : Result Bool :=
  if periodType == "monthly" then .ok (start.year == today.year && start.month == today.month)
  else
    match today.back? weekLength with
    | some limit => .ok (limit.dayNumber ≤ start.dayNumber)
    | none => .error .overflow

def lifetime (current : Bool) : Int := if current then 60 * 60 else 7 * 24 * 60 * 60

end Period

end TableSteward
