/-
The registry keeps managers by name and counts the handles on each. The
first to ask for a name brings the factory that makes its manager; later
ones share it, whatever factory they bring. With the last handle the
entry goes and the manager is closed, so that the name can be used again
by a new manager, of which old handles know nothing.

The registry also holds the world that the sinks of its managers act on.
Managers are numbered as they are made; a manager without an entry stays
where it is, for those who still look at it.
-/
import LogPipeline.Output.Manager
import LogPipeline.Status

namespace LogPipeline

/-- A manager with the sink behind it. -/
structure Outlet (W : Type) where
  manager : Manager
  sink : Sink W

/-- What the registry knows of a name in use. -/
structure RegistryEntry where
  refCount : Nat
  outlet : Nat
  deriving DecidableEq, Inhabited

/-- One counted reference to a manager. -/
structure ManagerHandle where
  outlet : Nat
  deriving DecidableEq, Inhabited

structure Registry (W : Type) where
  outlets : Array (Outlet W)
  entries : Dict RegistryEntry
  world : W

/-- How the manager for a name is made. -/
abbrev ManagerFactory (W : Type) := String → W → Except LogError (Outlet W) × W

namespace Registry

variable {W : Type}

def component : String := "ManagerRegistry"

/-- A registry without managers. -/
def empty (w : W) : Registry W := ⟨#[], .empty, w⟩

-- ============================================================ looking

def contains (r : Registry W) (name : String) : Bool := r.entries.contains name

def refCount? (r : Registry W) (name : String) : Option Nat :=
  (r.entries.get? name).map (·.refCount)

/-- The manager of a name, without a reference to it. -/
def get? (r : Registry W) (name : String) : Option ManagerHandle :=
  (r.entries.get? name).map fun e => ⟨e.outlet⟩

def names (r : Registry W) : List String := r.entries.keys

def outlet? (r : Registry W) (h : ManagerHandle) : Option (Outlet W) := r.outlets[h.outlet]?

def manager? (r : Registry W) (h : ManagerHandle) : Option Manager :=
  (r.outlet? h).map (·.manager)

-- ======================================================= using managers

/-- Run an operation of a manager where it stands. -/
def withOutlet (r : Registry W) (h : ManagerHandle)
    (op : Sink W → Manager → W → Manager.Step W) : Except LogError Unit × Registry W :=
  match r.outlet? h with
  | none => (.ok (), r)
  | some o =>
    let (result, m, w) := op o.sink o.manager r.world
    (result, { r with outlets := r.outlets.setIfInBounds h.outlet { o with manager := m },
                      world := w })

def write (r : Registry W) (h : ManagerHandle) (bytes : ByteArray) (endOfBatch : Bool) :
    Except LogError Unit × Registry W :=
  r.withOutlet h fun k => Manager.write k bytes endOfBatch

def flush (r : Registry W) (h : ManagerHandle) : Except LogError Unit × Registry W :=
  r.withOutlet h Manager.flush

def close (r : Registry W) (h : ManagerHandle) : Except LogError Unit × Registry W :=
  r.withOutlet h Manager.close

-- ==================================================== handles by name

/-- A handle on the manager of a name, which the factory makes if there
is none yet. A factory that fails is reported, and leaves no entry. -/
def acquire (r : Registry W) (name : String) (factory : ManagerFactory W) :
    Except LogError ManagerHandle × List StatusEntry × Registry W :=
  match r.entries.get? name with
  | some e =>
    (.ok ⟨e.outlet⟩, [],
      { r with entries := r.entries.insert name { e with refCount := e.refCount + 1 } })
  | none =>
    match factory name r.world with
    | (.error e, w) =>
      (.error (.managerCreation name e.message),
        [⟨.error, component, "unable to create manager '" ++ name ++ "': " ++ e.message⟩],
        { r with world := w })
    | (.ok o, w) =>
      (.ok ⟨r.outlets.size⟩, [],
        { outlets := r.outlets.push o
          entries := r.entries.insert name ⟨1, r.outlets.size⟩
          world := w })

/-- Take one reference off the entry of a manager; whether it was the last.
An entry that another manager has taken over is left alone. -/
def dropReference (r : Registry W) (name : String) (h : ManagerHandle) : Bool × Registry W :=
  match r.entries.get? name with
  | none => (false, r)
  | some e =>
    if e.outlet = h.outlet then
      if e.refCount ≤ 1 then (true, { r with entries := r.entries.erase name })
      else (false,
        { r with entries := r.entries.insert name { e with refCount := e.refCount - 1 } })
    else (false, r)

/-- Give a handle back. The last one closes the manager. -/
def release (r : Registry W) (h : ManagerHandle) : List StatusEntry × Registry W :=
  match r.manager? h with
  | none => ([], r)
  | some m =>
    let (isLast, r) := r.dropReference m.name h
    if isLast then
      match r.close h with
      | (.ok (), r) => ([], r)
      | (.error e, r) =>
        ([⟨.error, component, "error closing manager '" ++ m.name ++ "': " ++ e.message⟩], r)
    else ([], r)

/-- The name that a manager goes by in reports. -/
def nameOf (r : Registry W) (h : ManagerHandle) : String :=
  (r.manager? h).elim "" Manager.name

/-- Flush one manager and report a failure. -/
def flushReported (h : ManagerHandle) (r : Registry W) : List StatusEntry × Registry W :=
  match r.flush h with
  | (.ok (), r) => ([], r)
  | (.error e, r) =>
    ([⟨.error, component, "error flushing manager '" ++ r.nameOf h ++ "': " ++ e.message⟩], r)

/-- Flush some managers, one after another. -/
def flushEach : List ManagerHandle → Registry W → List StatusEntry × Registry W
  | [], r => ([], r)
  | h :: rest, r =>
    let (reports, r) := flushReported h r
    let (others, r) := flushEach rest r
    (reports ++ others, r)

/-- Flush every manager in use. -/
def flushAll (r : Registry W) : List StatusEntry × Registry W :=
  flushEach (r.entries.values.map fun e => ⟨e.outlet⟩) r

end Registry

end LogPipeline
