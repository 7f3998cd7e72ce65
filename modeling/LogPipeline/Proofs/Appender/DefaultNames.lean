/-
Appenders that name no manager. The name comes from the destination then:
a console or a peer puts its kind in front of it, and a file goes by its
path as it stands. So two of them have one name just if they are for the
same place, or one is a file whose path spells the name of the other
(`managerName_eq_iff`), and live appenders share a manager just if their
names are the same (`default_names`).

What is written goes to the place of the appender that the manager was
made for.
-/
import LogPipeline.Proofs.Appender.Workshop
import LogPipeline.Proofs.Samples

namespace LogPipeline

-- =============================================================== places

/-- What a destination leads to, whatever else is said of it. -/
inductive Place where
  | file (path : String)
  | console (target : ConsoleTarget)
  | socket (address : String)
  deriving DecidableEq

/-- The place of a file, a console or a peer that is reached by its default name. -/
def Destination.place? : Destination → Option Place
  | file path none _ _ => some (.file path)
  | console target => some (.console target)
  | socket address _ => some (.socket address)
  | memory .. | file _ (some _) .. => none

/-- The record that a memory destination is given does not change its
place. -/
theorem Destination.place?_given (d : Destination) (w : Devices) :
    (d.given w).place? = d.place? := by
  rcases d with ⟨manager, _ | n⟩ | _ | _ | _ <;> rfl

namespace Place

/-- The destination at the place, with no more said of it than necessary. -/
def destination : Place → Destination
  | file path => .file path none true none
  | console target => .console target
  | socket address => .socket address 0

def managerName (p : Place) : String := p.destination.managerName

/-- A file whose path is what the manager of another place is called. -/
inductive Clashes : Place → Place → Prop
  | console (target : ConsoleTarget) :
      Clashes (file (managerName (console target))) (console target)
  | socket (address : String) : Clashes (file (managerName (socket address))) (socket address)

/-- A destination asks for the manager that is named after its place. -/
theorem managerName_of_place {d : Destination} {p : Place} (h : d.place? = some p) :
    d.managerName = p.managerName := by
  rcases d with _ | ⟨path, _ | manager, append, uri⟩ | target | _ <;> cases h <;> rfl

/-- A console's manager never has the name of a socket's. -/
theorem console_ne_socket (target : ConsoleTarget) (address : String) :
    (console target).managerName ≠ (socket address).managerName := by
  intro h
  have hchars := congrArg String.toList h
  cases target <;> simp [managerName, destination, Destination.managerName] at hchars

/-- Two places have managers of one name just if they are the same, or a
path spells a name. -/
theorem managerName_eq_iff {p q : Place} :
    p.managerName = q.managerName ↔ p = q ∨ p.Clashes q ∨ q.Clashes p := by
  constructor
  · intro h
    cases p with
    | file path =>
        cases q with
        | file path' => exact .inl (congrArg file h)
        | console target => exact .inr (.inl ((show path = _ from h) ▸ .console target))
        | socket address => exact .inr (.inl ((show path = _ from h) ▸ .socket address))
    | console target =>
        cases q with
        | file path => exact .inr (.inr ((show path = _ from h.symm) ▸ .console target))
        | console target' =>
            cases target <;> cases target' <;>
              first | exact .inl rfl | exact absurd h (by decide)
        | socket address => exact absurd h (console_ne_socket target address)
    | socket address =>
        cases q with
        | file path => exact .inr (.inr ((show path = _ from h.symm) ▸ .socket address))
        | console target => exact absurd h.symm (console_ne_socket target address)
        | socket address' =>
            refine .inl (congrArg socket (String.toList_inj.1 ?_))
            simpa [managerName, destination, Destination.managerName] using congrArg String.toList h
  · rintro (rfl | h | h)
    · rfl
    · cases h <;> rfl
    · cases h <;> rfl

/-- The place is what the sink was opened for. -/
def Behind (p : Place) (k : Sink Devices) (d : Devices) : Prop :=
  match p with
  | file path => ∃ id f, k = Devices.fileSink id ∧ d.files[id]? = some f ∧ f.path = path
  | console target => k = Devices.consoleSink target
  | socket address => ∃ id c, k = Devices.connectionSink id ∧ d.connections[id]? = some c
      ∧ c.address = address

/-- A sink that a destination opens leads to its place. -/
theorem behind_of_openSink {d : Destination} {p : Place} {w w' : Devices} {k : Sink Devices}
    (hp : d.place? = some p) (hopen : d.openSink w = (.ok k, w')) : p.Behind k w' := by
  rcases d with _ | ⟨path, _ | manager, append, uri⟩ | target | ⟨address, timeout⟩ <;> cases hp
  · unfold Destination.openSink at hopen
    dsimp only at hopen
    split at hopen
    · next id w₁ hfile =>
      cases hopen
      unfold Devices.openFile at hfile
      split at hfile
      · cases hfile
      · cases hfile
        exact ⟨_, _, rfl, Array.getElem?_push_size, rfl⟩
    · cases hopen
  · cases hopen
    rfl
  · unfold Destination.openSink at hopen
    dsimp only at hopen
    split at hopen
    · cases hopen
    · next id w₁ hconnect =>
      split at hopen
      · cases hopen
      · cases hopen
        unfold Devices.connect at hconnect
        split at hconnect
        · cases hconnect
          exact ⟨_, _, rfl, Array.getElem?_push_size, rfl⟩
        · cases hconnect

end Place

-- ============================================================= sharing

namespace Workshop

variable {r₀ : Registry Devices}

/-- Whatever appenders are built, called and dropped on a registry: those
that are live at one time and go by default names are on one manager just
if they are for the same place or the path of one of them is the other's
name. A manager that was made for a default name has the place of the
appender behind it that it was made for. -/
theorem default_names (hs : r₀.Sound) (ops : List WorkshopOp) :
    let s := (start r₀).run ops
    (∀ v ∈ s.workers, ∀ w ∈ s.workers, v.live = true → w.live = true →
      ∀ p q, v.asked.place? = some p → w.asked.place? = some q →
        (v.handle = w.handle ↔ p = q ∨ p.Clashes q ∨ q.Clashes p))
      ∧ ∀ w ∈ s.workers, ∀ p, w.asked.place? = some p → r₀.outlets.size ≤ w.handle.outlet →
        ∃ f ∈ s.workers, f.founder = true ∧ f.handle = w.handle
          ∧ ∀ q, f.asked.place? = some q → (p = q ∨ p.Clashes q ∨ q.Clashes p)
            ∧ ∃ o, s.registry.outlets[w.handle.outlet]? = some o
              ∧ q.Behind o.sink f.after.world := by
  intro s
  have hinv : Inv r₀ s := inv_run ops (inv_start hs)
  have hnames : ∀ {d d' : Destination} {p q : Place}, d.place? = some p → d'.place? = some q →
      (d.managerName = d'.managerName ↔ p = q ∨ p.Clashes q ∨ q.Clashes p) := by
    intro d d' p q hp hq
    rw [Place.managerName_of_place hp, Place.managerName_of_place hq, Place.managerName_eq_iff]
  constructor
  · intro v hv w hw hvlive hwlive p q hp hq
    rw [hinv.handle_eq_iff hv hw hvlive hwlive, hnames hp hq]
  · intro w hw p hp hnew
    have hnamed := (hinv.placed _ (List.mem_map_of_mem hw)).named
    obtain ⟨g, hg, hfounder, hhandle⟩ :=
      hinv.founded _ hnew (Registry.lt_of_nameAt hnamed)
    obtain ⟨f, hf, rfl⟩ := List.mem_map.1 hg
    refine ⟨f, hf, hfounder, hhandle, fun q hq => ?_⟩
    have hplaced := hinv.placed _ hg
    have hnamed' := hplaced.named
    rw [hhandle, hnamed] at hnamed'
    obtain ⟨k, o, hopen, ho, hsink⟩ := hplaced.made hfounder
    refine ⟨(hnames hp hq).1 (Option.some.inj hnamed'), o, ?_, ?_⟩
    · rw [hhandle] at ho
      exact ho
    · rw [hsink]
      exact Place.behind_of_openSink ((Destination.place?_given ..).trans hq) hopen

namespace Sample

open Samples (asWritten)

/-- Two loggers of one file, and a console. -/
def apart : List WorkshopOp :=
  [.build (.file "app.log" none true none) asWritten, .build (.console .stdout) asWritten,
    .build (.file "app.log" none false none) asWritten]

/-- A console, and a file in the directory that is called like its manager. -/
def mistaken : List WorkshopOp :=
  [.build (.console .stdout) asWritten, .build (.file "console.stdout" none true none) asWritten,
    .call 1 (.append (.ofText "m") true)]

end Sample

open LogPipeline.Workshop.Sample in
theorem default_names_sample : (Registry.empty Devices.initial).Sound
    ∧ ∃ u v w, ((start (.empty .initial)).run apart).workers = [u, v, w]
      ∧ u.handle = w.handle ∧ u.handle ≠ v.handle
      ∧ ∃ f ∈ [u, v, w], f.founder = true ∧ f.handle = w.handle := by
  have hsound := Registry.sound_empty Devices.initial
  obtain ⟨hshared, hbehind⟩ := default_names hsound apart
  obtain ⟨u, v, w, hworkers, ⟨hulive, hu⟩, ⟨hvlive, hv⟩, ⟨hwlive, hw⟩⟩ :
      ∃ u v w, ((start (.empty .initial)).run apart).workers = [u, v, w]
        ∧ (u.live = true ∧ u.asked.place? = some (.file "app.log"))
        ∧ (v.live = true ∧ v.asked.place? = some (.console .stdout))
        ∧ (w.live = true ∧ w.asked.place? = some (.file "app.log")) :=
    ⟨_, _, _, rfl, ⟨rfl, rfl⟩, ⟨rfl, rfl⟩, rfl, rfl⟩
  rw [hworkers] at hshared hbehind
  have humem : u ∈ [u, v, w] := .head _
  have hvmem : v ∈ [u, v, w] := .tail _ (.head _)
  have hwmem : w ∈ [u, v, w] := .tail _ (.tail _ (.head _))
  refine ⟨hsound, u, v, w, hworkers, ?_, fun h => ?_, ?_⟩
  · exact (hshared u humem w hwmem hulive hwlive _ _ hu hw).2 (.inl rfl)
  · have hnames := (hshared u humem v hvmem hulive hvlive _ _ hu hv).1 h
    exact absurd (Place.managerName_eq_iff.2 hnames) (by decide)
  · obtain ⟨f, hf, hfounder, hhandle, -⟩ := hbehind w hwmem _ hw (Nat.zero_le _)
    exact ⟨f, hf, hfounder, hhandle⟩

open LogPipeline.Workshop.Sample in
/-- What is written to a file goes to the console, because of the file's name. -/
theorem mistaken_place :
    let s := (start (.empty .initial)).run mistaken
    ∃ v w, s.workers = [v, w] ∧ v.live = true ∧ w.live = true
      ∧ v.asked.place? = some (.console .stdout) ∧ w.asked.place? = some (.file "console.stdout")
      ∧ v.handle = w.handle ∧ w.written = ["m".toUTF8]
      ∧ s.registry.world.stdout = "m".toUTF8 ∧ s.registry.world.files.size = 0 :=
  ⟨_, _, rfl, rfl, rfl, rfl, rfl, rfl, rfl, rfl, rfl⟩

end Workshop

end LogPipeline
