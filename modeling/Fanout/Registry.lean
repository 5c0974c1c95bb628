import Fanout.Collation

/-!
# The registry

Collations are found again by the identifier of their request. The registry
bounds how many are held at once. A collation leaves it in one of two ways: the
first look-up that finds it complete takes it out, and if nobody looks, it goes
once it has been complete and untouched for the retention time.

A collation lives on after it has left, since the calls of its request may still
be under way and callers may keep it. All collations ever made therefore stay
in one list, and a handle is a place in that list.
-/

namespace Fanout

/-- The bounds of a registry. -/
structure RegistryConfig where
  /-- How many collations are held at most. -/
  limit : Nat := 100
  /-- How long a complete collation is kept for nobody. -/
  retention : Span := Span.ofSeconds 30
  /-- How often the registry is swept. -/
  sweepInterval : Span := Span.ofSeconds 5
  deriving DecidableEq, Repr

namespace RegistryConfig

/-- The period of the sweep, which a timer needs to be at least a
millisecond. -/
def sweepPeriod (c : RegistryConfig) : Span :=
  ⟨max c.sweepInterval.nanos (Span.ofMillis 1).nanos⟩

end RegistryConfig

/-- The place of a collation among all that were made. -/
abbrev Handle := Nat

/-- A collation that is held, and when it was last touched. -/
structure Entry where
  id : String
  handle : Handle
  touched : Instant
  deriving DecidableEq, Repr

structure Registry where
  config : RegistryConfig := {}
  collations : List Collation := []
  entries : List Entry := []

namespace Registry

def size (r : Registry) : Nat := r.entries.length

def entry? (id : String) (r : Registry) : Option Entry :=
  r.entries.find? fun e => e.id == id

def contains (id : String) (r : Registry) : Bool :=
  (r.entry? id).isSome

def collation? (h : Handle) (r : Registry) : Option Collation :=
  r.collations[h]?

/-- Changes one collation. -/
def update (h : Handle) (change : Collation → Collation)
    (r : Registry) : Registry :=
  { r with collations := r.collations.modify h change }

/-- Adds a collation that is not held. -/
def make (c : Collation) (r : Registry) : Registry :=
  { r with collations := r.collations ++ [c] }

/-! ## Expiry -/

/-- Brings every held collation up to date. -/
def settleHeld (now : Instant) (r : Registry) : Registry :=
  r.entries.foldl (fun r e => r.update e.handle (Collation.settle now)) r

/-- Whether a collation has been complete, and its entry untouched, for the
retention time. -/
def isExpired (now : Instant) (retention : Span) (e : Entry)
    (c : Collation) : Bool :=
  match c.completedAt with
  | some completed => retention.nanos ≤ now - max completed e.touched
  | none => false

def expired (now : Instant) (r : Registry) (e : Entry) : Bool :=
  (r.collation? e.handle).any (isExpired now r.config.retention e)

/-- Takes out what has expired. -/
def purge (now : Instant) (r : Registry) : Registry :=
  let r := r.settleHeld now
  { r with entries := r.entries.filter fun e => !r.expired now e }

/-- How many entries a purge takes out. -/
def purgeCount (now : Instant) (r : Registry) : Nat :=
  r.size - (r.purge now).size

/-! ## Registering and looking up -/

/-- The registry in which a new collation looks for room: a full one is purged
first. -/
def withRoom (now : Instant) (r : Registry) : Registry :=
  if r.config.limit ≤ r.size then r.purge now else r

/-- Why the collation that was just made cannot be held under an identifier. -/
def refusal? (id : String) (r : Registry) : Option Fault :=
  if r.config.limit ≤ r.size then some (.tooManyRequests r.config.limit)
  else if r.contains id then
    some (.illegalArgument ("request " ++ id ++ " is already registered"))
  else none

/-- Holds a collation under its identifier, if there is room and the identifier
is free. It can be reached by the handle in either case. -/
def register (now : Instant) (c : Collation) (r : Registry) :
    Registry × Except Fault Handle :=
  let h := r.collations.length
  let r := (r.make c).withRoom now
  match r.refusal? c.id with
  | some fault => (r, .error fault)
  | none => ({ r with entries := r.entries ++ [⟨c.id, h, now⟩] }, .ok h)

/-- Marks an entry as touched. -/
def touch (now : Instant) (id : String) (r : Registry) : Registry :=
  { r with
    entries := r.entries.map fun e =>
      if e.id == id then { e with touched := now } else e }

/-- Looks a collation up; one that is found complete is taken out. -/
def get (now : Instant) (id : String) (r : Registry) :
    Registry × Option Handle :=
  match r.entry? id with
  | none => (r, none)
  | some e =>
    let r := (r.touch now id).update e.handle (Collation.settle now)
    if (r.collation? e.handle).any Collation.isComplete then
      ({ r with entries := r.entries.filter fun e => !(e.id == id) },
        some e.handle)
    else (r, some e.handle)

/-- Lets go of everything. -/
def stop (r : Registry) : Registry :=
  { r with entries := [] }

/-- The registry as it is shown for inspection: its bounds and how much it
holds. -/
def display (r : Registry) : String :=
  "ResponseRegistry \x7b config: ResponseRegistryConfig \x7b " ++
    "max_outstanding: " ++ toString r.config.limit ++
    ", retention: " ++ r.config.retention.text ++
    ", sweep_interval: " ++ r.config.sweepInterval.text ++
    " \x7d, entries: " ++ toString r.size ++ " \x7d"

/-! ## What is told -/

def settleHeldNotices (now : Instant) (r : Registry) : Journal :=
  (r.entries.filterMap fun e => r.collation? e.handle).flatMap
    (Collation.settleNotices now)

def purgeNotices (now : Instant) (r : Registry) : Journal :=
  let gone := r.entries.filter fun e => (r.settleHeld now).expired now e
  r.settleHeldNotices now ++ gone.map (fun e => .purging e.id) ++
    if gone.isEmpty then [] else [.purged gone.length r.config.retention]

def registerNotices (now : Instant) (c : Collation) (r : Registry) : Journal :=
  let purging := if r.config.limit ≤ r.size then r.purgeNotices now else []
  match (r.register now c).2 with
  | .ok _ => purging ++ [.registered c.id]
  | .error _ => purging

def getNotices (now : Instant) (id : String) (r : Registry) : Journal :=
  match r.entry? id with
  | none => []
  | some e =>
    ((r.collation? e.handle).map (Collation.settleNotices now)).getD [] ++
      if ((r.get now id).1).contains id then [] else [.evicted id]

def stopNotices (r : Registry) : Journal :=
  [.registryStopped r.size]

end Registry

end Fanout
