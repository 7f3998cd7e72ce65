/-
Appenders on the bench: a registry, devices, the stage of the scripted
appenders, and a silent status log that is read step by step. Memory
records are known by name.
-/
import LogPipeline.Appender.Mixed
import LogPipeline.Logger.Basic
import LogPipeline.Rehearsal.Held
import LogPipeline.Rehearsal.Plan

namespace LogPipeline.Rehearsal

/-- An appender of the library, or a scripted one. -/
abbrev BenchAppender := MixedAppender ScriptedAppender

abbrev BenchSite := Site (Host Stage)

/-- Library and scripted appenders as one kind. -/
def benchOps : AppenderOps BenchAppender (Host Stage) := MixedAppender.ops ScriptedAppender.ops

structure OutputBench where
  site : BenchSite
  records : Held Nat
  /-- What the first panic said, if there was one. -/
  panic : Option String

namespace OutputBench

/-- The subscriber who reads the status log. -/
def reader : Nat := StatusLog.silent.subscribe.1

def initial : OutputBench :=
  ⟨⟨StatusLog.silent.subscribe.2, .empty .initial, .initial⟩, [], none⟩

def registry (b : OutputBench) : Registry Devices := b.site.world.registry

def devices (b : OutputBench) : Devices := b.registry.world

def withRegistry (r : Registry Devices) (b : OutputBench) : OutputBench :=
  { b with site := { b.site with world := { b.site.world with registry := r } } }

def withDevices (d : Devices) (b : OutputBench) : OutputBench :=
  b.withRegistry { b.registry with world := d }

def onStage (f : Stage → Stage) (b : OutputBench) : OutputBench :=
  { b with site := { b.site with world :=
    { b.site.world with extension := f b.site.world.extension } } }

def report (entries : List StatusEntry) (b : OutputBench) : OutputBench :=
  { b with site := b.site.report entries }

/-- What has been noted and reported since this was last asked. -/
def collect (b : OutputBench) :
    List (ScriptedAppender × AppenderCall) × List StatusEntry × OutputBench :=
  let notes := b.site.world.extension.notes
  let (entries, status) := b.site.status.receive reader
  (notes, entries,
    { b with site := { b.site with status } }.onStage fun s => { s with notes := [] })

/-- What a call that has failed is answered with. A panic is the end of the
play, and is remembered. -/
def failed (f : Failure) (b : OutputBench) : LogError × OutputBench :=
  match f with
  | .told e => (e, b)
  | .panicked message => (.other message, { b with panic := b.panic.or (some message) })

-- =========================================================== appenders

/-- Know the record of an appender by a name, if it has one. -/
def nameRecord (name : String) (a : Appender) (b : OutputBench) : OutputBench :=
  match a.record? with
  | none => b
  | some n => { b with records := b.records.put name n }

/-- The record known by a name; a name that is not known gets a new one. -/
def provideRecord (name : String) (b : OutputBench) : Nat × OutputBench :=
  match b.records.lookup name with
  | some n => (n, b)
  | none =>
    let (n, d) := b.devices.newRecord
    (n, { b.withDevices d with records := b.records.put name n })

/-- Put a memory destination on the record known by a name, if one is given. -/
def share (shared : Option String) (d : Destination) (b : OutputBench) :
    Destination × OutputBench :=
  match d, shared with
  | .memory manager _, some name =>
    let (n, b) := b.provideRecord name
    (.memory manager (some n), b)
  | d, _ => (d, b)

def build (p : AppenderPlan) (b : OutputBench) : Except LogError BenchAppender × OutputBench :=
  match p with
  | .scripted a => (.ok (.custom a), b)
  | .managed name shared d o =>
    let (d, b) := b.share shared d
    match Appender.build d o b.registry with
    | (.error f, reports, r) =>
      let (e, b) := ((b.withRegistry r).report reports).failed f
      (.error e, b)
    | (.ok a, reports, r) =>
      (.ok (.managed a), ((b.withRegistry r).report reports).nameRecord name a)

/-- Build what was read as a plan, unless it could not be read. -/
def buildRead (p : Except LogError AppenderPlan) (b : OutputBench) :
    Except LogError BenchAppender × OutputBench :=
  match p with
  | .error e => (.error e, b)
  | .ok p => b.build p

/-- Build appenders in order: those that could be built, and the errors of
the others. -/
def buildEach : List (Except LogError AppenderPlan) → OutputBench →
    List BenchAppender × List LogError × OutputBench
  | [], b => ([], [], b)
  | p :: rest, b =>
    let (result, b) := b.buildRead p
    let (built, errors, b) := buildEach rest b
    match result with
    | .ok a => (a :: built, errors, b)
    | .error e => (built, e :: errors, b)

/-- Build appenders in order. On an error those built before it are dropped. -/
def buildAll : List (Except LogError AppenderPlan) → (built : List BenchAppender) →
    OutputBench → Except LogError (List BenchAppender) × OutputBench
  | [], built, b => (.ok built, b)
  | p :: rest, built, b =>
    match b.buildRead p with
    | (.ok a, b) => buildAll rest (built ++ [a]) b
    | (.error e, b) =>
      let (reports, world) := AppenderSet.dropUnused benchOps built b.site.world
      (.error e, { b with site := { b.site with world } }.report reports)

/-- Make a call on an appender. -/
def call (c : AppenderCall) (a : BenchAppender) (b : OutputBench) : Outcome × OutputBench :=
  let (o, world) := benchOps.call c a b.site.world
  (o, { b with site := { b.site with world } })

def drop (a : BenchAppender) (b : OutputBench) : OutputBench :=
  let (reports, world) := benchOps.drop a b.site.world
  { b with site := { b.site with world } }.report reports

/-- Run an errand on a set. -/
def run (errand : Errand) (set : AppenderSet BenchAppender) (b : OutputBench) :
    Except LogError Unit × OutputBench :=
  let r := set.run benchOps errand b.site.world
  (r.result, { b with site := b.site.absorb r })

-- ================================================ records and managers

def record? (name : String) (b : OutputBench) : Option MemoryRecord :=
  (b.records.lookup name).map (b.devices.record ·)

def changeRecord (name : String) (f : MemoryRecord → MemoryRecord) (b : OutputBench) :
    OutputBench :=
  match b.records.lookup name with
  | none => b
  | some n => b.withDevices (b.devices.onRecord n fun r => ((), f r)).2

def manager? (name : String) (b : OutputBench) : Option Manager :=
  (b.registry.get? name).bind b.registry.manager?

/-- Close the manager of a name, if there is one. -/
def closeManager (name : String) (b : OutputBench) : Option (Except LogError Unit) × OutputBench :=
  match b.registry.get? name with
  | none => (none, b)
  | some h =>
    let (result, r) := b.registry.close h
    (some result, b.withRegistry r)

def flushManagers (b : OutputBench) : OutputBench :=
  let (reports, r) := b.registry.flushAll
  (b.withRegistry r).report reports

end OutputBench

end LogPipeline.Rehearsal
