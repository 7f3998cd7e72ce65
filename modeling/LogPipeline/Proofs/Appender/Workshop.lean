/-
Appenders of the library on one registry: they are built, called and
dropped, in any order and by anybody (`Workshop`). Each worker remembers
what was asked for and the registry that it was built at (`Origin`), so
that it can be said later whether it found a manager or had one made.

# What a step can do

Building shares the manager of the name, makes one, or fails, with an error
or a panic, and only then is there no worker (`Building`). A step is a
build, a call, a drop, or nothing (`Moved`). No step takes an outlet away
or gives it another sink or name (`Registry.Grows`).

# What holds throughout

The live workers hold the handles that are out beside those of before, and
each of them is on a manager of the name that it asked for (`Inv`). So
live workers share a manager just if they asked for the same name
(`Inv.handle_eq_iff`). A manager that was not there at the beginning was
made for one of the workers (`Inv.founded`).
-/
import LogPipeline.Proofs.Appender.Lending
import LogPipeline.Proofs.Logger.Undoing
import LogPipeline.Proofs.Output.Conservation

namespace LogPipeline

open Registry (Borrowed)

-- ======================================================= what stays

namespace Registry

variable {W : Type} {r r' r'' : Registry W}

/-- The outlets that there were are there, with their sinks and their names. -/
def Grows (r r' : Registry W) : Prop :=
  ∀ (i : Nat) (o : Outlet W), r.outlets[i]? = some o →
    ∃ o', r'.outlets[i]? = some o' ∧ o'.sink = o.sink ∧ o'.manager.name = o.manager.name

theorem Grows.refl (r : Registry W) : r.Grows r := fun _ o ho => ⟨o, ho, rfl, rfl⟩

theorem Grows.trans (h : r.Grows r') (h' : r'.Grows r'') : r.Grows r'' := by
  intro i o ho
  obtain ⟨o', ho', hsink, hname⟩ := h i o ho
  obtain ⟨o'', ho'', hsink', hname'⟩ := h' i o' ho'
  exact ⟨o'', ho'', hsink'.trans hsink, hname'.trans hname⟩

/-- A manager that has a name keeps it. -/
theorem Grows.nameAt (h : r.Grows r') {i : Nat} {name : String} (hname : r.nameAt i = some name) :
    r'.nameAt i = some name := by
  obtain ⟨o, ho, rfl⟩ := Option.map_eq_some_iff.1 hname
  obtain ⟨o', ho', -, hname'⟩ := h i o ho
  unfold Registry.nameAt
  rw [ho', Option.map_some, hname']

/-- Whatever is done to the entries and the world, the outlets are there. -/
theorem grows_of_outlets (h : r'.outlets = r.outlets) : r.Grows r' := by
  intro i o ho
  exact ⟨o, h ▸ ho, rfl, rfl⟩

/-- A new outlet comes behind those that there are. -/
theorem grows_push {o : Outlet W} (h : r'.outlets = r.outlets.push o) : r.Grows r' := by
  intro i p hp
  refine ⟨p, ?_, rfl, rfl⟩
  have hlt : i < r.outlets.size := (Array.getElem?_eq_some_iff.1 hp).1
  rw [h, Array.getElem?_push, if_neg (Nat.ne_of_lt hlt), hp]

/-- An operation on a manager changes neither its sink nor its name. -/
theorem grows_withOutlet {op : Sink W → Manager → W → Manager.Step W}
    (hop : ∀ k m w, (op k m w).2.1.name = m.name) (r : Registry W) (h : ManagerHandle) :
    r.Grows (r.withOutlet h op).2 := by
  intro i o ho
  rw [getElem?_withOutlet, ho]
  split
  · exact ⟨_, rfl, rfl, hop _ _ _⟩
  · exact ⟨o, rfl, rfl, rfl⟩

end Registry

-- ============================================================= calls

/-- Whatever a manager answers, it is still called the same. -/
theorem Manager.name_answer {W : Type} (k : Sink W) (c : ManagerCall) (m : Manager) (w : W) :
    (answer k c m w).2.1.name = m.name := by
  cases c with
  | write bytes endOfBatch => exact name_write k bytes endOfBatch m w
  | flush => exact name_flush k m w
  | close => exact name_close k m w

namespace Registry

variable {W : Type} {r r' : Registry W} {h : ManagerHandle}

/-- Let the manager of a handle answer a call. -/
def answer (r : Registry W) (h : ManagerHandle) (c : ManagerCall) :
    Except LogError Unit × Registry W :=
  r.withOutlet h fun k => Manager.answer k c

/-- Whatever has become of the entries, the manager of the handle was called
at most once. -/
inductive Used (h : ManagerHandle) (r : Registry W) : Registry W → Prop
  | spared (entries : Dict RegistryEntry) : Used h r { r with entries := entries }
  | called (entries : Dict RegistryEntry) (c : ManagerCall) :
      Used h r (answer { r with entries := entries } h c).2

/-- Using a manager takes no outlet away. -/
theorem Used.grows (hu : Used h r r') : r.Grows r' := by
  cases hu with
  | spared entries => exact grows_of_outlets rfl
  | called entries c =>
      have hentries : r.Grows { r with entries := entries } := grows_of_outlets rfl
      exact hentries.trans (grows_withOutlet (fun k => Manager.name_answer k c) _ h)

/-- Using a manager makes no outlet. -/
theorem Used.size_eq (hu : Used h r r') : r'.outlets.size = r.outlets.size := by
  cases hu with
  | spared entries => rfl
  | called entries c => exact (entries_withOutlet { r with entries := entries } h _).2

/-- Giving back a handle closes its manager with the last one, and else only
counts. -/
theorem used_release (r : Registry W) (h : ManagerHandle) : Used h r (r.release h).2 := by
  cases ho : r.outlets[h.outlet]? with
  | none =>
      rw [release_none ho]
      exact .spared r.entries
  | some o =>
      cases hlast : (dropFrom r.entries o.manager.name h).1 with
      | false =>
          rw [release_kept ho hlast]
          exact .spared _
      | true =>
          rw [release_last ho hlast]
          exact .called _ .close

end Registry

namespace ManagedOutput

variable {W : Type}

/-- What an append has written if it went well. -/
def delivered (o : ManagedOutput) (c : AppenderCall) (outcome : Outcome) :
    List ByteArray :=
  match c, outcome with
  | .append e endOfBatch, .done => (o.formatter.bytes e endOfBatch).toOption.toList
  | _, _ => []

/-- A call comes to nothing, or to a write or a flush of the manager, and
what that brought is delivered just if it was not refused. -/
theorem finish_cases (c : AppenderCall) (o : ManagedOutput) (r : Registry W) :
    ((ops.finish c o r).2 = r ∧ o.delivered c (ops.finish c o r).1 = [])
      ∨ ∃ mc : ManagerCall, mc ≠ .close ∧ (ops.finish c o r).2 = (r.answer o.handle mc).2
        ∧ ((r.answer o.handle mc).1 = .ok () ∧ o.delivered c (ops.finish c o r).1 = mc.chunks
          ∨ (∃ e, (r.answer o.handle mc).1 = .error e)
            ∧ o.delivered c (ops.finish c o r).1 = []) := by
  -- a flush brings nothing, and it is nothing that is delivered
  have hflush : (r.answer o.handle .flush).1 = .ok () ∧ ([] : List ByteArray) = []
      ∨ (∃ e, (r.answer o.handle .flush).1 = .error e) ∧ ([] : List ByteArray) = [] := by
    cases (r.answer o.handle .flush).1 with
    | ok u => exact .inl ⟨rfl, rfl⟩
    | error e => exact .inr ⟨⟨e, rfl⟩, rfl⟩
  cases c with
  | append e endOfBatch =>
      cases hbytes : o.formatter.bytes e endOfBatch with
      | ok bytes =>
          have hdone : ops.finish (.append e endOfBatch) o r
              = (.ofExcept (r.write o.handle bytes endOfBatch).1,
                (r.write o.handle bytes endOfBatch).2) := by
            show (Outcome.ofExcept (o.append e endOfBatch r).1, (o.append e endOfBatch r).2) = _
            unfold append
            rw [hbytes]
          refine .inr ⟨.write bytes endOfBatch, nofun, congrArg Prod.snd hdone, ?_⟩
          rw [hdone]
          cases hresult : (r.write o.handle bytes endOfBatch).1 with
          | error err => exact .inr ⟨⟨err, hresult⟩, rfl⟩
          | ok u =>
              refine .inl ⟨hresult, ?_⟩
              show (o.formatter.bytes e endOfBatch).toOption.toList = [bytes]
              rw [hbytes]
              rfl
      | error err =>
          have hnone : ∀ outcome, o.delivered (.append e endOfBatch) outcome = [] := by
            intro outcome
            cases outcome <;> simp [delivered, hbytes, Except.toOption]
          cases endOfBatch with
          | true =>
              refine .inr ⟨.flush, nofun, ?_, ?_⟩
              · show (o.append e true r).2 = (r.flush o.handle).2
                unfold append
                rw [hbytes]
                rfl
              · rw [hnone]
                exact hflush
          | false =>
              refine .inl ⟨?_, hnone _⟩
              show (o.append e false r).2 = r
              unfold append
              rw [hbytes]
              rfl
  | flush => exact .inr ⟨.flush, nofun, rfl, hflush⟩
  | stop => exact .inr ⟨.flush, nofun, rfl, hflush⟩

/-- A call of an appender uses no manager but its own. -/
theorem used_finish (c : AppenderCall) (o : ManagedOutput) (r : Registry W) :
    Registry.Used o.handle r (ops.finish c o r).2 := by
  rcases finish_cases c o r with ⟨hsame, -⟩ | ⟨mc, -, hdone, -⟩
  · exact hsame.symm ▸ .spared r.entries
  · exact hdone.symm ▸ .called r.entries mc

end ManagedOutput

-- ========================================================= building

namespace Destination

/-- The destination with the record that it is given, if it brings none. -/
def given (d : Destination) (w : Devices) : Destination :=
  match d with
  | memory manager none => memory manager (some w.records.size)
  | d => d

/-- The devices with the record that is made for the destination. -/
def recorded (d : Destination) (w : Devices) : Devices :=
  match d with
  | memory _ none => w.newRecord.2
  | _ => w

/-- A memory destination brings its record or is given the next one. -/
theorem withRecord_eq (d : Destination) (r : Registry Devices) :
    d.withRecord r = (d.given r.world, { r with world := d.recorded r.world }) := by
  rcases d with ⟨manager, _ | n⟩ | _ | _ | _ <;> rfl

/-- The record has no part in the manager's name. -/
theorem managerName_given (d : Destination) (w : Devices) :
    (d.given w).managerName = d.managerName := by
  rcases d with ⟨manager, _ | n⟩ | _ | _ | _ <;> rfl

theorem capacity_given (d : Destination) (w : Devices) : (d.given w).capacity = d.capacity := by
  rcases d with ⟨manager, _ | n⟩ | _ | _ | _ <;> rfl

/-- The manager that is made for the destination, in front of a sink. -/
def outlet (d : Destination) (o : OutputOptions) (k : Sink Devices) : Outlet Devices :=
  ⟨.new d.managerName (o.capacity.getD d.capacity) (o.immediateFlush.getD d.immediateFlush)
    d.attributes, k⟩

theorem outlet_given (d : Destination) (o : OutputOptions) (k : Sink Devices) (w : Devices) :
    (d.given w).outlet o k = d.outlet o k := by
  rcases d with ⟨manager, _ | n⟩ | _ | _ | _ <;> rfl

/-- The factory opens the destination and puts its manager in front of the
sink. -/
theorem factory_eq (d : Destination) (o : OutputOptions) (w : Devices) :
    d.factory o d.managerName w
      = match d.openSink w with
        | (.error e, w) => (.error e, w)
        | (.ok k, w) => (.ok (d.outlet o k), w) := rfl

end Destination

namespace Appender

/-- All that building an appender can come to. -/
inductive Building (d : Destination) (o : OutputOptions) (r : Registry Devices) :
    Except Failure Appender → Registry Devices → Prop
  /-- A file without a path is refused before anything else. -/
  | pathless {manager uri : Option String} {append : Bool} (hd : d = .file "" manager append uri) :
      Building d o r
        (.error (.told (.invalidConfiguration "FileAppender" "path must not be empty"))) r
  | shared {e : RegistryEntry} (he : r.entries.get? d.managerName = some e) :
      Building d o r (.ok (on (d.given r.world) o ⟨e.outlet⟩))
        ⟨r.outlets, r.entries.insert d.managerName { e with refCount := e.refCount + 1 },
          d.recorded r.world⟩
  | made {k : Sink Devices} {w : Devices} (hnone : r.entries.get? d.managerName = none)
      (hopen : (d.given r.world).openSink (d.recorded r.world) = (.ok k, w))
      (hfits : ¬ Manager.maxCapacity < o.capacity.getD d.capacity) :
      Building d o r (.ok (on (d.given r.world) o ⟨r.outlets.size⟩))
        ⟨r.outlets.push (d.outlet o k), r.entries.insert d.managerName ⟨1, r.outlets.size⟩, w⟩
  | refused {e : LogError} {w : Devices} (hnone : r.entries.get? d.managerName = none)
      (hopen : (d.given r.world).openSink (d.recorded r.world) = (.error e, w)) :
      Building d o r (.error (.told (.managerCreation d.managerName e.message)))
        { r with world := w }
  /-- The destination has been opened, and then the buffer is too large to be made. -/
  | panicked {k : Sink Devices} {w : Devices} (hnone : r.entries.get? d.managerName = none)
      (hopen : (d.given r.world).openSink (d.recorded r.world) = (.ok k, w))
      (hlarge : Manager.maxCapacity < o.capacity.getD d.capacity) :
      Building d o r (.error (.panicked Manager.overflow)) { r with world := w }

/-- Building does one of the things that are listed, and nothing else. -/
theorem building (d : Destination) (o : OutputOptions) (r : Registry Devices) :
    Building d o r (build d o r).1 (build d o r).2.2 := by
  unfold build
  split
  · exact .pathless rfl
  · rw [Destination.withRecord_eq]
    dsimp only
    obtain ⟨r₁, hr₁⟩ : ∃ r₁, r₁ = { r with world := d.recorded r.world } := ⟨_, rfl⟩
    rw [← hr₁]
    -- what is asked for is asked once the record is there
    by_cases hover : (d.given r.world).overflows o r₁ = true
    · rw [if_pos hover]
      obtain ⟨hnone, ⟨k, w, hopen⟩, hlarge⟩ := Destination.overflows_iff.1 hover
      rw [Destination.managerName_given] at hnone
      rw [Destination.capacity_given] at hlarge
      rw [hr₁] at hnone hopen
      rw [hopen]
      exact .panicked hnone hopen hlarge
    rw [if_neg hover, Destination.managerName_given]
    rcases r₁.acquire_cases d.managerName ((d.given r.world).factory o)
      with ⟨e, he, hgot⟩ | ⟨hnone, p, w, hmade, hgot⟩ | ⟨hnone, e, w, hmade, hgot⟩
    · rw [hgot, hr₁]
      rw [hr₁] at he
      exact .shared he
    · rw [hgot, hr₁]
      rw [hr₁] at hnone hmade
      rw [← d.managerName_given r.world, Destination.factory_eq] at hmade
      split at hmade
      · cases hmade
      · next k w' hopen =>
        cases hmade
        rw [Destination.outlet_given]
        refine .made hnone hopen fun hlarge => hover (Destination.overflows_iff.2 ?_)
        rw [Destination.managerName_given, Destination.capacity_given, hr₁]
        exact ⟨hnone, ⟨k, w, hopen⟩, hlarge⟩
    · rw [hgot, hr₁]
      rw [hr₁] at hnone hmade
      rw [← d.managerName_given r.world, Destination.factory_eq] at hmade
      split at hmade
      · next e' w' hopen =>
        cases hmade
        exact .refused hnone hopen
      · cases hmade

variable {d : Destination} {o : OutputOptions} {r r' : Registry Devices}
  {result : Except Failure Appender}

/-- An appender that was built shares a manager that was found, or one was made for it. -/
theorem Building.ok_cases {a : Appender} (h : Building d o r (.ok a) r') :
    (∃ e, r.entries.get? d.managerName = some e ∧ a = on (d.given r.world) o ⟨e.outlet⟩
        ∧ r' = ⟨r.outlets, r.entries.insert d.managerName { e with refCount := e.refCount + 1 },
          d.recorded r.world⟩)
      ∨ (r.entries.get? d.managerName = none ∧ ∃ k w,
        (d.given r.world).openSink (d.recorded r.world) = (.ok k, w)
        ∧ a = on (d.given r.world) o ⟨r.outlets.size⟩
        ∧ r' = ⟨r.outlets.push (d.outlet o k), r.entries.insert d.managerName ⟨1, r.outlets.size⟩,
          w⟩) := by
  cases h with
  | shared he => exact .inl ⟨_, he, rfl, rfl⟩
  | made hnone hopen hfits => exact .inr ⟨hnone, _, _, hopen, rfl, rfl⟩

/-- Whatever building comes to, the outlets that there were are there. -/
theorem Building.grows (h : Building d o r result r') : r.Grows r' := by
  cases h with
  | pathless hd => exact .refl r
  | made hnone hopen hfits => exact Registry.grows_push rfl
  | _ => exact Registry.grows_of_outlets rfl

end Appender

-- ======================================================= vocabulary

/-- How an appender has come about. -/
structure Origin where
  asked : Destination
  options : OutputOptions
  /-- The registry that it was built at. -/
  before : Registry Devices
  appender : Appender

namespace Origin

def handle (g : Origin) : ManagerHandle := g.appender.output.handle

/-- The registry once the appender was built. -/
def after (g : Origin) : Registry Devices := (Appender.build g.asked g.options g.before).2.2

/-- There was no manager of the name, and one was made. -/
def founder (g : Origin) : Bool := !g.before.contains g.asked.managerName

end Origin

/-- An appender, and what has become of it. -/
structure Worker extends Origin where
  /-- It was not dropped yet. -/
  live : Bool
  /-- The chunks that it has written, in order; of appends that failed there are none. -/
  written : List ByteArray

namespace Worker

def call (c : AppenderCall) (w : Worker) (r : Registry Devices) : Worker × Registry Devices :=
  let (outcome, r) := Appender.ops.call c w.appender r
  ({ w with written := w.written ++ w.appender.output.delivered c outcome }, r)

def drop (w : Worker) (r : Registry Devices) : Worker × Registry Devices :=
  let (_, r) := Appender.ops.drop w.appender r
  ({ w with live := false }, r)

end Worker

/-- A record that a destination brings along is there. -/
def Destination.isSupplied (d : Destination) (w : Devices) : Bool :=
  match d with
  | memory _ (some n) => decide (n < w.records.size)
  | _ => true

/-- A registry, and the appenders that were built at it. -/
structure Workshop where
  registry : Registry Devices
  workers : List Worker

/-- What is done in a workshop; workers go by their numbers. -/
inductive WorkshopOp where
  | build (d : Destination) (o : OutputOptions)
  | call (i : Nat) (c : AppenderCall)
  | drop (i : Nat)

namespace Workshop

def start (r : Registry Devices) : Workshop := ⟨r, []⟩

def build (d : Destination) (o : OutputOptions) (s : Workshop) : Workshop :=
  if d.isSupplied s.registry.world then
    let (result, _, r) := Appender.build d o s.registry
    match result with
    | .ok a => ⟨r, s.workers ++ [⟨⟨d, o, s.registry, a⟩, true, []⟩]⟩
    | .error _ => { s with registry := r }
  else s

/-- Let a worker that is still there do something. -/
def onLive (i : Nat) (act : Worker → Registry Devices → Worker × Registry Devices)
    (s : Workshop) : Workshop :=
  match s.workers[i]? with
  | none => s
  | some w =>
    if w.live then
      let (w, r) := act w s.registry
      ⟨r, s.workers.set i w⟩
    else s

def step (s : Workshop) : WorkshopOp → Workshop
  | .build d o => s.build d o
  | .call i c => s.onLive i (Worker.call c)
  | .drop i => s.onLive i Worker.drop

def run (s : Workshop) (ops : List WorkshopOp) : Workshop := ops.foldl step s

-- ============================================================== steps

/-- All that a step can do. -/
inductive Moved (s : Workshop) : Workshop → Prop
  | idle : Moved s s
  | refused {d : Destination} {o : OutputOptions} {f : Failure} {r : Registry Devices}
      (hsupplied : d.isSupplied s.registry.world = true)
      (hbuilding : Appender.Building d o s.registry (.error f) r) : Moved s { s with registry := r }
  | built {d : Destination} {o : OutputOptions} {a : Appender}
      (hsupplied : d.isSupplied s.registry.world = true)
      (hok : (Appender.build d o s.registry).1 = .ok a) :
      Moved s ⟨(Appender.build d o s.registry).2.2,
        s.workers ++ [⟨⟨d, o, s.registry, a⟩, true, []⟩]⟩
  | called {left right : List Worker} {w : Worker} (c : AppenderCall)
      (hw : s.workers = left ++ w :: right) (hlive : w.live = true) :
      Moved s ⟨(w.call c s.registry).2, left ++ (w.call c s.registry).1 :: right⟩
  | dropped {left right : List Worker} {w : Worker} (hw : s.workers = left ++ w :: right)
      (hlive : w.live = true) :
      Moved s ⟨(w.drop s.registry).2, left ++ (w.drop s.registry).1 :: right⟩

/-- The worker of a number, unless it was dropped. -/
def live? (s : Workshop) (i : Nat) : Option Worker := s.workers[i]?.filter (·.live)

/-- Either there is no such worker any more, or it is the only one that changes. -/
theorem onLive_cases (i : Nat) (act : Worker → Registry Devices → Worker × Registry Devices)
    (s : Workshop) :
    (s.live? i = none ∧ s.onLive i act = s)
      ∨ ∃ left w right, s.live? i = some w ∧ s.workers = left ++ w :: right ∧ w.live = true
        ∧ s.onLive i act = ⟨(act w s.registry).2, left ++ (act w s.registry).1 :: right⟩ := by
  unfold onLive live?
  cases hw : s.workers[i]? with
  | none => exact .inl ⟨rfl, rfl⟩
  | some w =>
      dsimp only
      by_cases hlive : w.live = true
      · obtain ⟨hlt, hget⟩ := List.getElem?_eq_some_iff.1 hw
        obtain ⟨left, right, hsplit, -, hset⟩ :
            ∃ left right, s.workers = left ++ s.workers[i] :: right ∧ left.length = i
              ∧ s.workers.set i (act w s.registry).1 = left ++ (act w s.registry).1 :: right :=
          List.exists_of_set hlt
        rw [if_pos hlive, hset, Option.filter_some_pos hlive]
        exact .inr ⟨left, w, right, rfl, hget ▸ hsplit, hlive, rfl⟩
      · rw [if_neg hlive, Option.filter_some_neg (Bool.eq_false_iff.2 hlive)]
        exact .inl ⟨rfl, rfl⟩

/-- A step does one of the things that are listed. -/
theorem moved_step (s : Workshop) (op : WorkshopOp) : Moved s (s.step op) := by
  cases op with
  | build d o =>
      show Moved s (s.build d o)
      unfold build
      split
      · next hsupplied =>
        have hbuilding := Appender.building d o s.registry
        rcases hresult : Appender.build d o s.registry with ⟨f | a, reports, r⟩
        · rw [hresult] at hbuilding
          exact .refused hsupplied hbuilding
        · have hbuilt : Moved s ⟨(Appender.build d o s.registry).2.2,
              s.workers ++ [⟨⟨d, o, s.registry, a⟩, true, []⟩]⟩ :=
            .built hsupplied (congrArg Prod.fst hresult)
          rw [hresult] at hbuilt
          exact hbuilt
      · exact .idle
  | call i c =>
      show Moved s (s.onLive i (Worker.call c))
      rcases onLive_cases i (Worker.call c) s
        with ⟨-, hsame⟩ | ⟨left, w, right, -, hw, hlive, hdone⟩
      · rw [hsame]
        exact .idle
      · rw [hdone]
        exact .called c hw hlive
  | drop i =>
      show Moved s (s.onLive i Worker.drop)
      rcases onLive_cases i Worker.drop s
        with ⟨-, hsame⟩ | ⟨left, w, right, -, hw, hlive, hdone⟩
      · rw [hsame]
        exact .idle
      · rw [hdone]
        exact .dropped hw hlive

variable {s s' : Workshop}

/-- Outlets are only ever added in a workshop. -/
theorem Moved.grows (h : Moved s s') : s.registry.Grows s'.registry := by
  cases h with
  | idle => exact .refl _
  | refused hsupplied hbuilding => exact hbuilding.grows
  | built hsupplied hok => exact (Appender.building ..).grows
  | called c hw hlive => exact (ManagedOutput.used_finish c _ s.registry).grows
  | dropped hw hlive => exact (Registry.used_release s.registry _).grows

-- ========================================================== invariant

/-- The handles of those that were not dropped. -/
def handles (s : Workshop) : List ManagerHandle := (s.workers.filter (·.live)).map (·.handle)

/-- What calls and drops do not change of the workers. -/
def origins (s : Workshop) : List Origin := s.workers.map Worker.toOrigin

end Workshop

/-- How an appender stands in a later registry. -/
structure Origin.Placed (g : Origin) (r : Registry Devices) : Prop where
  sound : g.before.Sound
  built : (Appender.build g.asked g.options g.before).1 = .ok g.appender
  stays : g.after.Grows r

/-- An appender that is placed was built on a manager that it found, or on one
made for it. -/
theorem Origin.Placed.cases {g : Origin} {r : Registry Devices} (h : g.Placed r) :
    (∃ e, g.before.entries.get? g.asked.managerName = some e
        ∧ g.appender = .on (g.asked.given g.before.world) g.options ⟨e.outlet⟩
        ∧ g.after = ⟨g.before.outlets,
          g.before.entries.insert g.asked.managerName { e with refCount := e.refCount + 1 },
          g.asked.recorded g.before.world⟩)
      ∨ (g.before.entries.get? g.asked.managerName = none ∧ ∃ k w,
        (g.asked.given g.before.world).openSink (g.asked.recorded g.before.world) = (.ok k, w)
        ∧ g.appender = .on (g.asked.given g.before.world) g.options ⟨g.before.outlets.size⟩
        ∧ g.after = ⟨g.before.outlets.push (g.asked.outlet g.options k),
          g.before.entries.insert g.asked.managerName ⟨1, g.before.outlets.size⟩, w⟩) := by
  have hbuilding := Appender.building g.asked g.options g.before
  rw [h.built] at hbuilding
  exact hbuilding.ok_cases

/-- Its manager has the name that was asked for. -/
theorem Origin.Placed.named {g : Origin} {r : Registry Devices} (h : g.Placed r) :
    r.nameAt g.handle.outlet = some g.asked.managerName := by
  refine h.stays.nameAt ?_
  unfold Origin.handle
  rcases h.cases with ⟨e, he, happender, hafter⟩ | ⟨-, k, w, -, happender, hafter⟩
  · rw [happender, hafter]
    exact (h.sound _ e he).2
  · rw [happender, hafter]
    show (g.before.outlets.push (g.asked.outlet g.options k))[g.before.outlets.size]?.map _ = _
    rw [Array.getElem?_push_size]
    rfl

/-- Where a manager was made for the appender, the sink that was opened for it
is still behind that. -/
theorem Origin.Placed.made {g : Origin} {r : Registry Devices} (h : g.Placed r)
    (hfounder : g.founder = true) :
    ∃ k o, (g.asked.given g.before.world).openSink (g.asked.recorded g.before.world)
        = (.ok k, g.after.world)
      ∧ r.outlets[g.handle.outlet]? = some o ∧ o.sink = k := by
  rcases h.cases with ⟨e, he, -⟩ | ⟨-, k, w, hopen, happender, hafter⟩
  · exact absurd hfounder (by simp [Origin.founder, Registry.contains, Dict.contains, he])
  · have hlast : g.after.outlets[g.handle.outlet]? = some (g.asked.outlet g.options k) := by
      unfold Origin.handle
      rw [hafter, happender]
      exact Array.getElem?_push_size
    obtain ⟨o, ho, hsink, -⟩ := h.stays _ _ hlast
    exact ⟨k, o, by rw [hopen, hafter], ho, hsink⟩

namespace Workshop

variable {s s' : Workshop} {r₀ : Registry Devices}

/-- What holds at any time in a workshop that was opened with the registry `r₀`. -/
structure Inv (r₀ : Registry Devices) (s : Workshop) : Prop where
  borrowed : Borrowed r₀ s.handles s.registry
  placed : ∀ g ∈ s.origins, g.Placed s.registry
  /-- A manager that was not there at the beginning was made for one of the workers. -/
  founded : ∀ i, r₀.outlets.size ≤ i → i < s.registry.outlets.size →
    ∃ g ∈ s.origins, g.founder = true ∧ g.handle = ⟨i⟩

theorem inv_start (hs : r₀.Sound) : Inv r₀ (start r₀) where
  borrowed := Registry.borrowed_start hs
  placed _ hg := nomatch hg
  founded _ hi hlt := absurd hlt (Nat.not_lt.2 hi)

/-- The handle of a live worker can be counted first. -/
theorem handles_split {left right : List Worker} {w : Worker}
    (hw : s.workers = left ++ w :: right) (hlive : w.live = true) :
    s.handles.Perm (w.handle :: handles ⟨s.registry, left ++ right⟩) := by
  unfold handles
  rw [hw, List.filter_append, List.filter_cons_of_pos hlive, List.filter_append, List.map_append,
    List.map_append, List.map_cons]
  exact List.perm_middle

/-- The handles that are out are those of the live workers, before a step and
after it. -/
theorem Moved.borrowed (h : Moved s s') (hb : Borrowed r₀ s.handles s.registry) :
    Borrowed r₀ s'.handles s'.registry := by
  cases h with
  | idle => exact hb
  | refused hsupplied hbuilding =>
      cases hbuilding with
      | pathless hd => exact hb
      | refused hnone hopen => exact hb.in_world _
      | panicked hnone hopen hlarge => exact hb.in_world _
  | @built d o a hsupplied hok =>
      have hhandles : (a.output.handle :: s.handles).Perm
          (handles ⟨(Appender.build d o s.registry).2.2,
            s.workers ++ [⟨⟨d, o, s.registry, a⟩, true, []⟩]⟩) := by
        unfold handles
        rw [List.filter_append, List.map_append]
        exact (List.perm_append_singleton ..).symm
      refine Borrowed.perm ?_ hhandles
      have hbuilding := Appender.building d o s.registry
      rw [hok] at hbuilding
      -- a shared manager counts one more, a new one counts one
      rcases hbuilding.ok_cases with ⟨e, he, rfl, hr⟩ | ⟨hnone, k, w, -, rfl, hr⟩
      · rw [hr]
        exact (hb.in_world (d.recorded s.registry.world)).share he
      · rw [hr]
        exact (hb.make (o := d.outlet o k) hnone rfl).in_world w
  | @called left right w c hw hlive =>
      have hhandles : s.handles
          = handles ⟨s.registry, left ++ (w.call c s.registry).1 :: right⟩ := by
        unfold handles
        rw [hw, List.filter_append, List.filter_append, List.filter_cons_of_pos hlive,
          List.filter_cons_of_pos (by exact hlive), List.map_append, List.map_append]
        rfl
      rw [hhandles] at hb
      exact ManagedOutput.borrowed_answer hb c w.appender.output
  | @dropped left right w hw hlive =>
      have hhandles : handles ⟨s.registry, left ++ right⟩
          = handles ⟨s.registry, left ++ (w.drop s.registry).1 :: right⟩ := by
        unfold handles
        rw [List.filter_append, List.filter_append,
          List.filter_cons_of_neg (a := (w.drop s.registry).1) (by exact Bool.false_ne_true)]
      have hreleased := (hb.perm (handles_split hw hlive)).release
      rw [hhandles] at hreleased
      exact hreleased

/-- A step hires one worker, or it leaves the workers and the outlets that there are. -/
theorem Moved.hired (h : Moved s s') :
    (s'.origins = s.origins ∧ s'.registry.outlets.size = s.registry.outlets.size)
      ∨ ∃ g : Origin, s'.origins = s.origins ++ [g] ∧ g.before = s.registry
        ∧ g.after = s'.registry
        ∧ (Appender.build g.asked g.options g.before).1 = .ok g.appender := by
  cases h with
  | idle => exact .inl ⟨rfl, rfl⟩
  | refused hsupplied hbuilding => cases hbuilding <;> exact .inl ⟨rfl, rfl⟩
  | @built d o a hsupplied hok =>
      refine .inr ⟨⟨d, o, s.registry, a⟩, ?_, rfl, rfl, hok⟩
      exact List.map_append
  | called c hw hlive =>
      refine .inl ⟨?_, (ManagedOutput.used_finish c _ s.registry).size_eq⟩
      unfold origins
      rw [hw, List.map_append, List.map_append]
      rfl
  | dropped hw hlive =>
      refine .inl ⟨?_, (Registry.used_release s.registry _).size_eq⟩
      unfold origins
      rw [hw, List.map_append, List.map_append]
      rfl

/-- What a step can do keeps the invariant; only the build of an appender adds
to what is said. -/
theorem inv_moved (hinv : Inv r₀ s) (h : Moved s s') : Inv r₀ s' := by
  have hkept : ∀ g ∈ s.origins, g.Placed s'.registry := fun g hg =>
    { hinv.placed g hg with stays := (hinv.placed g hg).stays.trans h.grows }
  rcases h.hired with ⟨hsame, hsize⟩ | ⟨g, hmore, hbefore, hafter, hbuilt⟩
  · exact {
      borrowed := h.borrowed hinv.borrowed
      placed := fun g hg => hkept g (hsame ▸ hg)
      founded := fun i hi hlt => hsame ▸ hinv.founded i hi (hsize ▸ hlt) }
  · have hplaced : g.Placed s'.registry := {
      sound := hbefore ▸ hinv.borrowed.sound
      built := hbuilt
      stays := hafter ▸ .refl _ }
    refine {
      borrowed := h.borrowed hinv.borrowed
      placed := ?_
      founded := ?_ }
    · intro g' hg'
      rw [hmore] at hg'
      rcases List.mem_append.1 hg' with hg' | hg'
      · exact hkept g' hg'
      · exact List.mem_singleton.1 hg' ▸ hplaced
    · intro i hi hlt
      rw [hmore]
      by_cases hold : i < s.registry.outlets.size
      · obtain ⟨g', hg', hfounder⟩ := hinv.founded i hi hold
        exact ⟨g', List.mem_append_left _ hg', hfounder⟩
      · -- there is one outlet more, and the new worker is on it
        refine ⟨g, List.mem_append_right _ List.mem_cons_self, ?_⟩
        rw [← hafter] at hlt
        rw [← hbefore] at hold
        unfold Origin.founder Origin.handle
        rcases hplaced.cases with ⟨e, he, -, hr⟩ | ⟨hnone, k, w, -, happender, hr⟩
        · rw [hr] at hlt
          exact absurd hlt hold
        · rw [hr, Array.size_push] at hlt
          rw [happender, show i = g.before.outlets.size by omega]
          exact ⟨by simp [Registry.contains, Dict.contains, hnone], rfl⟩

/-- The invariant holds after every run. -/
theorem inv_run (ops : List WorkshopOp) (h : Inv r₀ s) : Inv r₀ (s.run ops) := by
  induction ops generalizing s with
  | nil => exact h
  | cons op rest ih => exact ih (inv_moved h (moved_step s op))

variable {v w : Worker}

/-- The name that a live worker asked for leads to its manager. -/
theorem Inv.entry (h : Inv r₀ s) (hw : w ∈ s.workers) (hlive : w.live = true) :
    ∃ e, s.registry.entries.get? w.asked.managerName = some e ∧ w.handle = ⟨e.outlet⟩ := by
  have htaken : w.handle ∈ s.handles :=
    List.mem_map_of_mem (List.mem_filter.2 ⟨hw, hlive⟩)
  have hpos : 0 < s.registry.refsAt w.handle.outlet := by
    rw [h.borrowed.refs]
    exact Nat.add_pos_right _ (List.count_pos_iff.2 htaken)
  obtain ⟨name, hname, he⟩ := Registry.entry_of_refsAt hpos
  rw [(h.placed _ (List.mem_map_of_mem hw)).named] at hname
  cases hname
  exact ⟨_, he, rfl⟩

/-- Live workers are on one manager just if they asked for one name. -/
theorem Inv.handle_eq_iff (h : Inv r₀ s) (hv : v ∈ s.workers) (hw : w ∈ s.workers)
    (hvlive : v.live = true) (hwlive : w.live = true) :
    v.handle = w.handle ↔ v.asked.managerName = w.asked.managerName := by
  constructor
  · intro hsame
    have hvname := (h.placed _ (List.mem_map_of_mem hv)).named
    have hwname := (h.placed _ (List.mem_map_of_mem hw)).named
    have hsame' : Origin.handle v.toOrigin = w.handle := hsame
    rw [hsame', hwname] at hvname
    exact (Option.some.inj hvname).symm
  · intro hsame
    obtain ⟨e, he, hvhandle⟩ := h.entry hv hvlive
    obtain ⟨e', he', hwhandle⟩ := h.entry hw hwlive
    rw [hsame] at he
    rw [hvhandle, hwhandle, Registry.outlet_unique he he']

end Workshop

end LogPipeline
