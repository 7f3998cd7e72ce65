/-
A registry on the bench, with handles held by name. Each acquisition
brings a faulty record of its own, used or not.
-/
import LogPipeline.Output.Registry
import LogPipeline.Rehearsal.Held
import LogPipeline.Rehearsal.Script
import LogPipeline.Rehearsal.Sinks

namespace LogPipeline.Rehearsal

/-- What the manager's maker is given. -/
structure ManagerPlan where
  capacity : Nat
  immediateFlush : Bool
  attributes : Dict String
  sinkKind : SinkKind
  sinkFormat : Dict String
  /-- The script that the maker acts by. -/
  script : String

structure RegistryBench where
  registry : Registry (Array FaultyRecord)
  /-- Handles that are counted. -/
  handles : Held ManagerHandle
  /-- Managers that are only looked at. -/
  kept : Held ManagerHandle
  /-- The record that came with each acquisition that succeeded. -/
  records : Held Nat

namespace RegistryBench

def empty : RegistryBench := ⟨.empty #[], [], [], []⟩

/-- Make a manager over the record of this number. -/
def factory (p : ManagerPlan) (record : Nat) : ManagerFactory (Array FaultyRecord) :=
  fun name w =>
    match (outcome p.script).error? with
    | some e => (.error e, w)
    | none =>
      (.ok ⟨.new name p.capacity p.immediateFlush p.attributes,
        sink p.sinkKind p.sinkFormat record⟩, w)

/-- What an acquisition tells: whether a manager was made, and the names
of the handles already held on the manager. -/
structure Acquired where
  created : Bool
  handle : ManagerHandle
  shares : List String

/-- Acquire a handle and hold it; a handle already held by that name is
released after it. -/
def acquire (id name : String) (p : ManagerPlan) (b : RegistryBench) :
    Except LogError Acquired × List StatusEntry × RegistryBench :=
  let r := b.registry
  let n := r.world.size
  match Registry.acquire { r with world := r.world.push default } name (factory p n) with
  | (.error e, reports, r) => (.error e, reports, { b with registry := r })
  | (.ok h, reports, after) =>
    let (old, after) := (b.handles.lookup id).elim ([], after) after.release
    (.ok ⟨!r.contains name, h, b.handles.namesOf (· == h)⟩, reports ++ old,
      { b with registry := after, handles := b.handles.put id h, records := b.records.put id n })

/-- Give a held handle back. -/
def release (id : String) (b : RegistryBench) : Bool × List StatusEntry × RegistryBench :=
  match b.handles.lookup id with
  | none => (false, [], b)
  | some h =>
    let (reports, r) := b.registry.release h
    (true, reports, { b with registry := r, handles := b.handles.without id })

/-- Run an operation of the registry on a manager. -/
def onManager (h : ManagerHandle)
    (op : Registry (Array FaultyRecord) → ManagerHandle →
      Except LogError Unit × Registry (Array FaultyRecord))
    (b : RegistryBench) : Except LogError Unit × RegistryBench :=
  let (result, r) := op b.registry h
  (result, { b with registry := r })

/-- Look at the manager of a name from now on, if there is one. -/
def keep (id name : String) (b : RegistryBench) : Option ManagerHandle × RegistryBench :=
  match b.registry.get? name with
  | none => (none, b)
  | some h => (some h, { b with kept := b.kept.put id h })

def record? (id : String) (b : RegistryBench) : Option MemoryRecord :=
  (b.records.lookup id).map fun n => (b.registry.world.getD n default).record

def setFault (id : String) (fault : Fault) (on : Bool) (b : RegistryBench) : RegistryBench :=
  match b.records.lookup id with
  | none => b
  | some n =>
    let world := b.registry.world.modify n (·.set fault on)
    { b with registry := { b.registry with world } }

end RegistryBench

end LogPipeline.Rehearsal
