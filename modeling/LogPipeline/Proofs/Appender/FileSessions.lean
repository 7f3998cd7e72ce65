/-
Sessions on a log file, one after another on one registry. A session begins
when an appender has the file opened, others may join it under the name of
its manager, and it ends when all of them are gone (`FileSession.Held`).

While a session lasts, everybody in it is on the one manager that was made
for the first appender, and in that manager and the file behind it is all
that was appended (`Writing`). A join finds the manager by its name, so it
opens nothing. When the last appender is dropped the manager is closed, and
if that is not reported to have failed, the file has everything.

# Where the next session begins

The entries are then those of before, so the name is free again. The next
session opens the file anew, and keeps it or replaces it as its own first
appender says (`file_keeps_records`).
-/
import LogPipeline.Proofs.Appender.Workshop
import LogPipeline.Proofs.Device.Files
import LogPipeline.Proofs.Samples

namespace LogPipeline

open Devices (fileSink)

-- ============================================================= joining

namespace Appender

variable {d : Destination} {o : OutputOptions} {r r' : Registry Devices}
  {result : Except Failure Appender}

/-- Whoever asks for the name of a manager that is there opens nothing. -/
theorem Building.joins (h : Building d o r result r') {e : RegistryEntry}
    (he : r.entries.get? d.managerName = some e) :
    r'.outlets = r.outlets ∧ r'.world.tree = r.world.tree ∧ r'.world.files = r.world.files
      ∧ ∀ a, result = .ok a → a.output.handle = ⟨e.outlet⟩ := by
  have hrecorded : (d.recorded r.world).tree = r.world.tree
      ∧ (d.recorded r.world).files = r.world.files := by
    rcases d with ⟨manager, _ | n⟩ | _ | _ | _ <;> exact ⟨rfl, rfl⟩
  cases h with
  | pathless hd => exact ⟨rfl, rfl, rfl, fun a ha => by cases ha⟩
  | shared he' =>
      refine ⟨rfl, hrecorded.1, hrecorded.2, ?_⟩
      rintro a ⟨rfl⟩
      rw [he] at he'
      cases he'
      rfl
  | made hnone hopen hfits | refused hnone hopen | panicked hnone hopen hlarge =>
      rw [he] at hnone
      cases hnone

end Appender

-- =========================================================== sessions

namespace Workshop

/-- What a step reports. -/
def reports (s : Workshop) : WorkshopOp → List StatusEntry
  | .build d o => if d.isSupplied s.registry.world then (Appender.build d o s.registry).2.1 else []
  | .call .. => []
  | .drop i => (s.live? i).elim [] fun w => (Appender.ops.drop w.appender s.registry).1

/-- The record of the event that a step appends, if the append succeeds. -/
def appended (s : Workshop) : WorkshopOp → List ByteArray
  | .call i c => (s.live? i).elim [] fun w =>
    w.appender.output.delivered c (Appender.ops.call c w.appender s.registry).1
  | _ => []

/-- The records of the events that are appended one after another. -/
def appendedIn : List WorkshopOp → Workshop → List ByteArray
  | [], _ => []
  | op :: rest, s => s.appended op ++ appendedIn rest (s.step op)

/-- Whoever is built joins those that there are. -/
def Joins (name : String) (s : Workshop) : WorkshopOp → Prop
  | .build d _ => d.managerName = name ∧ s.handles ≠ []
  | _ => True

/-- Steps in the course of a session: there is always somebody to join, and
nothing is reported. -/
def GoesOn (name : String) : List WorkshopOp → Workshop → Prop
  | [], _ => True
  | op :: rest, s => s.Joins name op ∧ s.reports op = [] ∧ GoesOn name rest (s.step op)

end Workshop

/-- A session on a file: how its first appender is built, and what is done then. -/
structure FileSession where
  manager : Option String
  append : Bool
  advertisedUri : Option String
  options : OutputOptions
  work : List WorkshopOp

namespace FileSession

variable (x : FileSession) (path : String) (r : Registry Devices)

def destination : Destination := .file path x.manager x.append x.advertisedUri

/-- The session once the first appender is built. -/
def opened : Workshop := (Workshop.start r).step (.build (x.destination path) x.options)

/-- The session when all is done. -/
def ended : Workshop := (x.opened path r).run x.work

/-- The session goes well from the first appender to the last. -/
structure Held : Prop where
  opens : ∃ a, (Appender.build (x.destination path) x.options r).1 = .ok a
  goesOn : Workshop.GoesOn (x.destination path).managerName x.work (x.opened path r)
  /-- Everybody is dropped. -/
  left : (x.ended path r).handles = []

/-- The records of the events that are appended in the session. -/
def records : List ByteArray := Workshop.appendedIn x.work (x.opened path r)

/-- What of the file the session keeps. -/
def kept : ByteArray := if x.append then Devices.found path r.world.tree else .empty

/-- Sessions, one after another. -/
def runAll (path : String) : List FileSession → Registry Devices → Registry Devices
  | [], r => r
  | x :: rest, r => runAll path rest (x.ended path r).registry

def AllHeld (path : String) : List FileSession → Registry Devices → Prop
  | [], _ => True
  | x :: rest, r => x.Held path r ∧ AllHeld path rest (x.ended path r).registry

end FileSession

namespace Workshop

/-- An appender that is built has a worker, who is the last of all. -/
theorem build_ok {s : Workshop} {d : Destination} {o : OutputOptions} {a : Appender}
    (hsupplied : d.isSupplied s.registry.world = true)
    (hok : (Appender.build d o s.registry).1 = .ok a) :
    s.build d o = ⟨(Appender.build d o s.registry).2.2,
      s.workers ++ [⟨⟨d, o, s.registry, a⟩, true, []⟩]⟩ := by
  unfold build
  rw [if_pos hsupplied]
  rcases hresult : Appender.build d o s.registry with ⟨e | a', reports, r⟩
  · rw [hresult] at hok
    cases hok
  · rw [hresult] at hok
    cases hok
    rfl

end Workshop

-- ======================================================== the manager

namespace Registry

variable {r : Registry Devices} {i : Nat} {path : String} {fid : Nat}
  {target : FileTree.FileTarget} {kept : ByteArray} {records : List ByteArray}

/-- The manager of the number stands in front of a log file. -/
def FeedsAt (r : Registry Devices) (i : Nat) (path : String) (fid : Nat)
    (target : FileTree.FileTarget) (kept : ByteArray) (records : List ByteArray) : Prop :=
  ∃ o, r.outlets[i]? = some o ∧ o.sink = fileSink fid
    ∧ o.manager.Fed path fid target kept records r.world

/-- As long as the outlet is open its manager feeds the file. -/
theorem FeedsAt.open_outlet (h : r.FeedsAt i path fid target kept records)
    (hopen : r.openAt i = true) :
    ∃ p, r.outlets[i]? = some p ∧ p.sink = fileSink fid ∧ p.manager.closed = false
      ∧ p.manager.Fed path fid target kept records r.world := by
  obtain ⟨p, hp, hsink, hfed⟩ := h
  obtain ⟨p', hp', hclosed⟩ := openAt_iff.1 hopen
  rw [hp] at hp'
  cases hp'
  exact ⟨p, hp, hsink, hclosed, hfed⟩

/-- What an operation tells is what the file's sink makes of it. -/
theorem result_withOutlet {p : Outlet Devices} (hp : r.outlets[i]? = some p)
    (hsink : p.sink = fileSink fid)
    (op : Sink Devices → Manager → Devices → Manager.Step Devices) :
    (r.withOutlet ⟨i⟩ op).1 = (op (fileSink fid) p.manager r.world).1 := by
  rw [withOutlet_some (h := ⟨i⟩) hp, hsink]

/-- An operation that goes on feeding the file can be done at the outlet. -/
theorem feedsAt_withOutlet {p : Outlet Devices} (hp : r.outlets[i]? = some p)
    (hsink : p.sink = fileSink fid)
    {op : Sink Devices → Manager → Devices → Manager.Step Devices}
    (hfed : Manager.Fed path fid target kept records (op (fileSink fid) p.manager r.world).2.1
      (op (fileSink fid) p.manager r.world).2.2) :
    (r.withOutlet ⟨i⟩ op).2.FeedsAt i path fid target kept records := by
  rw [← hsink] at hfed
  have hget := getElem?_withOutlet r ⟨i⟩ op i
  rw [if_pos rfl, hp, withOutlet_some (h := ⟨i⟩) hp] at hget
  rw [withOutlet_some (h := ⟨i⟩) hp]
  exact ⟨_, hget, hsink, hfed⟩

/-- An appender on the manager brings the record that it delivers. -/
theorem FeedsAt.finish (h : r.FeedsAt i path fid target kept records) {o : ManagedOutput}
    (ho : o.handle = ⟨i⟩) (hopen : r.openAt i = true) (c : AppenderCall) :
    (ManagedOutput.ops.finish c o r).2.FeedsAt i path fid target kept
      (records ++ o.delivered c (ManagedOutput.ops.finish c o r).1) := by
  obtain ⟨p, hp, hsink, hclosed, hfed⟩ := h.open_outlet hopen
  rcases ManagedOutput.finish_cases c o r with ⟨hsame, hnothing⟩ | ⟨mc, hmc, hanswer, hdelivered⟩
  · rw [hsame, hnothing, List.append_nil]
    exact ⟨p, hp, hsink, hfed⟩
  · rw [hanswer, ho]
    rw [ho] at hdelivered
    have hresult : (r.answer ⟨i⟩ mc).1 = (Manager.answer (fileSink fid) mc p.manager r.world).1 :=
      result_withOutlet hp hsink fun k => Manager.answer k mc
    refine feedsAt_withOutlet hp hsink (hfed.answer hclosed hmc fun hok => ?_)
    rcases hdelivered with ⟨-, hchunks⟩ | ⟨⟨e, he⟩, -⟩
    · exact hchunks
    · rw [hresult, hok] at he
      cases he

/-- A handle of the manager is given back, and if it was the last one, the
manager is closed without an error. -/
theorem FeedsAt.release (h : r.FeedsAt i path fid target kept records) (hopen : r.openAt i = true)
    (hsilent : (r.release ⟨i⟩).1 = []) :
    (r.release ⟨i⟩).2.FeedsAt i path fid target kept records := by
  obtain ⟨p, hp, hsink, hclosed, hfed⟩ := h.open_outlet hopen
  cases hlast : (dropFrom r.entries p.manager.name ⟨i⟩).1 with
  | false =>
      rw [release_kept (h := ⟨i⟩) hp hlast]
      exact ⟨p, hp, hsink, hfed⟩
  | true =>
      rw [release_last (h := ⟨i⟩) hp hlast] at hsilent ⊢
      have hresult : ((r.dropped ⟨i⟩ p.manager).close ⟨i⟩).1
          = (Manager.close (fileSink fid) p.manager r.world).1 :=
        result_withOutlet (r := r.dropped ⟨i⟩ p.manager) hp hsink Manager.close
      refine feedsAt_withOutlet (r := r.dropped ⟨i⟩ p.manager) hp hsink (hfed.close hclosed ?_)
      rw [hresult] at hsilent
      cases hended : (Manager.close (fileSink fid) p.manager r.world).1 with
      | ok u => rfl
      | error e =>
          rw [hended] at hsilent
          cases hsilent

end Registry

-- ====================================================== a step further

namespace Workshop

variable {r₀ : Registry Devices} {s s' : Workshop} {path name : String} {fid : Nat}
  {target : FileTree.FileTarget} {kept : ByteArray} {records : List ByteArray}

/-- A session on the file that was opened for the first appender. Everybody
is on the manager that was made then. -/
structure Writing (r₀ : Registry Devices) (path name : String) (fid : Nat)
    (target : FileTree.FileTarget) (kept : ByteArray) (records : List ByteArray) (s : Workshop) :
    Prop where
  inv : Inv r₀ s
  together : ∀ g ∈ s.origins, g.handle = ⟨r₀.outlets.size⟩ ∧ g.asked.managerName = name
  outlet : s.registry.FeedsAt r₀.outlets.size path fid target kept records

/-- As long as somebody is there, the manager is open. -/
theorem Writing.isOpen (h : Writing r₀ path name fid target kept records s)
    (hlive : s.handles ≠ []) : s.registry.openAt r₀.outlets.size = true := by
  obtain ⟨x, hx⟩ := List.exists_mem_of_ne_nil _ hlive
  obtain ⟨w, hw, rfl⟩ := List.mem_map.1 hx
  have hhandle := (h.together _ (List.mem_map_of_mem (List.mem_filter.1 hw).1)).1
  have hout : w.handle.outlet = r₀.outlets.size := congrArg ManagerHandle.outlet hhandle
  exact hout ▸ h.inv.borrowed.held _ hx (Nat.le_of_eq hout.symm)

/-- The name leads to the manager. -/
theorem Writing.entry (h : Writing r₀ path name fid target kept records s)
    (hlive : s.handles ≠ []) :
    ∃ e, s.registry.entries.get? name = some e ∧ e.outlet = r₀.outlets.size := by
  obtain ⟨x, hx⟩ := List.exists_mem_of_ne_nil _ hlive
  obtain ⟨w, hw, -⟩ := List.mem_map.1 hx
  obtain ⟨hmem, hwlive⟩ := List.mem_filter.1 hw
  obtain ⟨hhandle, hname⟩ := h.together _ (List.mem_map_of_mem hmem)
  obtain ⟨e, he, hentry⟩ := h.inv.entry hmem hwlive
  rw [hname] at he
  refine ⟨e, he, ?_⟩
  have hsame : Origin.handle w.toOrigin = ⟨e.outlet⟩ := hentry
  rw [hhandle] at hsame
  exact (congrArg ManagerHandle.outlet hsame).symm

/-- With a live worker there is a handle that is held. -/
theorem handles_ne_nil {left right : List Worker} {w : Worker}
    (hw : s.workers = left ++ w :: right) (hlive : w.live = true) : s.handles ≠ [] := by
  have hmem : w.handle ∈ s.handles :=
    List.mem_map_of_mem (List.mem_filter.2
      ⟨hw ▸ List.mem_append_right _ List.mem_cons_self, hlive⟩)
  exact List.ne_nil_of_mem hmem

theorem mem_origins {left right : List Worker} {w : Worker}
    (hw : s.workers = left ++ w :: right) : w.toOrigin ∈ s.origins :=
  List.mem_map_of_mem (hw ▸ List.mem_append_right _ List.mem_cons_self)

/-- What a worker does to the registry is done to the manager of all. -/
theorem Writing.changed (h : Writing r₀ path name fid target kept records s)
    {left right : List Worker} {w w' : Worker} {r' : Registry Devices} {new : List ByteArray}
    (hw : s.workers = left ++ w :: right) (hsame : w'.toOrigin = w.toOrigin)
    (hinv : Inv r₀ ⟨r', left ++ w' :: right⟩)
    (houtlet : r'.FeedsAt r₀.outlets.size path fid target kept new) :
    Writing r₀ path name fid target kept new ⟨r', left ++ w' :: right⟩ where
  inv := hinv
  together := by
    have horigins : origins ⟨r', left ++ w' :: right⟩ = s.origins := by
      unfold origins
      rw [hw, List.map_append, List.map_append, List.map_cons, List.map_cons, hsame]
    rw [horigins]
    exact h.together
  outlet := houtlet

/-- A join changes nothing but who is there. -/
theorem Writing.join (h : Writing r₀ path name fid target kept records s) {d : Destination}
    {o : OutputOptions} (hjoins : s.Joins name (.build d o)) :
    Writing r₀ path name fid target kept records (s.step (.build d o))
      ∧ (s.step (.build d o)).registry.world.tree = s.registry.world.tree := by
  obtain ⟨rfl, hlive⟩ := hjoins
  obtain ⟨e, he, hout⟩ := h.entry hlive
  obtain ⟨p, hp, hsink, hfed⟩ := h.outlet
  obtain ⟨houtlets, htree, hfiles, hhandle⟩ := (Appender.building d o s.registry).joins he
  have hinv := inv_moved h.inv (moved_step s (.build d o))
  have hstep : s.step (.build d o) = s.build d o := rfl
  rw [hstep] at hinv ⊢
  unfold build at hinv ⊢
  split
  · next hsupplied =>
    rw [if_pos hsupplied] at hinv
    have hfed' := hfed.elsewhere htree hfiles
    rcases hbuilt : Appender.build d o s.registry with ⟨e' | a, reports, r'⟩
    · rw [hbuilt] at houtlets htree hinv hfed'
      exact ⟨⟨hinv, h.together, p, houtlets ▸ hp, hsink, hfed'⟩, htree⟩
    · rw [hbuilt] at houtlets htree hinv hfed' hhandle
      refine ⟨⟨hinv, ?_, p, houtlets ▸ hp, hsink, hfed'⟩, htree⟩
      intro g hg
      unfold origins at hg
      rw [List.map_append] at hg
      rcases List.mem_append.1 hg with hg | hg
      · exact h.together g hg
      · rw [List.mem_singleton.1 hg]
        exact ⟨(hhandle a rfl).trans (hout ▸ rfl), rfl⟩
  · exact ⟨h, rfl⟩

/-- A call brings the record that it appends. -/
theorem Writing.call (h : Writing r₀ path name fid target kept records s) (i : Nat)
    (c : AppenderCall) :
    Writing r₀ path name fid target kept (records ++ s.appended (.call i c))
      (s.step (.call i c)) := by
  have hinv := inv_moved h.inv (moved_step s (.call i c))
  have hstep : s.step (.call i c) = s.onLive i (Worker.call c) := rfl
  have happended : s.appended (.call i c) = (s.live? i).elim [] fun w =>
    w.appender.output.delivered c (Appender.ops.call c w.appender s.registry).1 := rfl
  rw [hstep] at hinv ⊢
  rw [happended]
  rcases onLive_cases i (Worker.call c) s
    with ⟨hnone, hidle⟩ | ⟨left, w, right, hsome, hw, hlive, hdone⟩
  · rw [hnone, hidle]
    simpa using h
  · rw [hdone] at hinv ⊢
    rw [hsome]
    obtain ⟨hhandle, -⟩ := h.together w.toOrigin (mem_origins hw)
    exact h.changed hw rfl hinv (h.outlet.finish hhandle (h.isOpen (handles_ne_nil hw hlive)) c)

/-- Dropping brings nothing, and if the manager is closed then without an error. -/
theorem Writing.drop (h : Writing r₀ path name fid target kept records s) (i : Nat)
    (hsilent : s.reports (.drop i) = []) :
    Writing r₀ path name fid target kept records (s.step (.drop i)) := by
  have hinv := inv_moved h.inv (moved_step s (.drop i))
  have hstep : s.step (.drop i) = s.onLive i Worker.drop := rfl
  have hreports : s.reports (.drop i) = (s.live? i).elim [] fun w =>
    (Appender.ops.drop w.appender s.registry).1 := rfl
  rw [hstep] at hinv ⊢
  rw [hreports] at hsilent
  rcases onLive_cases i Worker.drop s
    with ⟨hnone, hidle⟩ | ⟨left, w, right, hsome, hw, hlive, hdone⟩
  · rw [hidle]
    exact h
  · rw [hdone] at hinv ⊢
    rw [hsome] at hsilent
    obtain ⟨hhandle, -⟩ := h.together w.toOrigin (mem_origins hw)
    have hreleased : (Worker.drop w s.registry).2 = (s.registry.release ⟨r₀.outlets.size⟩).2 :=
      congrArg (fun x => (s.registry.release x).2) hhandle
    rw [hreleased] at hinv ⊢
    refine h.changed hw rfl hinv (h.outlet.release (h.isOpen (handles_ne_nil hw hlive)) ?_)
    exact hhandle ▸ hsilent

/-- A step that reports nothing brings the records that it appends to the
file. -/
theorem Writing.step (h : Writing r₀ path name fid target kept records s) {op : WorkshopOp}
    (hjoins : s.Joins name op) (hsilent : s.reports op = []) :
    Writing r₀ path name fid target kept (records ++ s.appended op) (s.step op) := by
  cases op with
  | build d o =>
      have hnothing : s.appended (.build d o) = [] := rfl
      rw [hnothing, List.append_nil]
      exact (h.join hjoins).1
  | call i c => exact h.call i c
  | drop i =>
      have hnothing : s.appended (.drop i) = [] := rfl
      rw [hnothing, List.append_nil]
      exact h.drop i hsilent

/-- So does a whole run of them. -/
theorem Writing.run (h : Writing r₀ path name fid target kept records s) (ops : List WorkshopOp)
    (hgoes : GoesOn name ops s) :
    Writing r₀ path name fid target kept (records ++ appendedIn ops s) (s.run ops) := by
  induction ops generalizing s records with
  | nil =>
      rw [show appendedIn [] s = [] from rfl, List.append_nil]
      exact h
  | cons op rest ih =>
      obtain ⟨hjoins, hsilent, hrest⟩ := hgoes
      have hran := ih (h.step hjoins hsilent) hrest
      rw [List.append_assoc] at hran
      exact hran

/-- A run goes on as far as it is cut. -/
theorem goesOn_append {before rest : List WorkshopOp} (h : GoesOn name (before ++ rest) s) :
    GoesOn name before s ∧ GoesOn name rest (s.run before) := by
  induction before generalizing s with
  | nil => exact ⟨trivial, h⟩
  | cons op more ih =>
      obtain ⟨hjoins, hsilent, hmore⟩ := h
      obtain ⟨hbefore, hrest⟩ := ih hmore
      exact ⟨⟨hjoins, hsilent, hbefore⟩, hrest⟩

/-- When everybody has gone, the file has everything, and the registry is as before. -/
theorem Writing.left (h : Writing r₀ path name fid target kept records s) (hs : r₀.Sound)
    (hleft : s.handles = []) :
    s.registry.Sound ∧ s.registry.entries = r₀.entries
      ∧ ∃ cid, target = .contents cid ∧ s.registry.world.tree.Sound
        ∧ s.registry.world.tree.read path = .ok (kept ++ joinBytes records) := by
  have hborrowed := h.inv.borrowed
  rw [hleft] at hborrowed
  obtain ⟨hentries, hfinished, -⟩ := hborrowed.returned hs
  obtain ⟨p, hp, -, hfed⟩ := h.outlet
  obtain ⟨cid, htarget, hsound, hshows⟩ :=
    hfed.closed (hfinished _ p (Nat.le_refl _) hp).closed_eq
  exact ⟨hborrowed.sound, hentries, cid, htarget, hsound, hshows.read_eq⟩

end Workshop

-- ====================================================== whole sessions

namespace FileSession

open Workshop

variable {x : FileSession} {path : String} {r : Registry Devices}

/-- A session that opens starts with what the file is to keep, and no
records. -/
theorem writing_opened (hs : r.Sound) (ht : r.world.tree.Sound)
    (hfree : r.entries.get? (x.destination path).managerName = none)
    (hopens : ∃ a, (Appender.build (x.destination path) x.options r).1 = .ok a) :
    ∃ fid target, Writing r path (x.destination path).managerName fid target (x.kept path r) []
      (x.opened path r) := by
  obtain ⟨a, ha⟩ := hopens
  have hinv : Inv r (x.opened path r) := inv_moved (inv_start hs) (moved_step _ _)
  have hopened : x.opened path r = ⟨(Appender.build (x.destination path) x.options r).2.2,
      [⟨⟨x.destination path, x.options, r, a⟩, true, []⟩]⟩ := build_ok (s := start r) rfl ha
  have hbuilding := Appender.building (x.destination path) x.options r
  rw [ha] at hbuilding
  rcases hbuilding.ok_cases with ⟨e, he, -⟩ | ⟨-, k, w, hopen, happender, hr⟩
  · rw [hfree] at he
    cases he
  · have hopen' : (x.destination path).openSink r.world = (.ok k, w) := hopen
    obtain ⟨fid, hfile, rfl⟩ : ∃ fid, r.world.openFile path x.append = (.ok fid, w)
        ∧ k = fileSink fid := by
      unfold destination Destination.openSink at hopen'
      dsimp only at hopen'
      split at hopen'
      · next fid w' hfile =>
        cases hopen'
        exact ⟨fid, hfile, rfl⟩
      · cases hopen'
    obtain ⟨target, hfed⟩ := Manager.fed_open
      (m := ((x.destination path).outlet x.options (fileSink fid)).manager) ht hfile rfl rfl
    refine ⟨fid, target, hinv, ?_, ?_⟩
    · rw [hopened]
      intro g hg
      rw [List.mem_singleton.1 hg]
      exact ⟨congrArg (·.output.handle) happender, rfl⟩
    · rw [hopened]
      show Registry.FeedsAt (Appender.build (x.destination path) x.options r).2.2 _ _ _ _ _ _
      rw [hr]
      exact ⟨_, Array.getElem?_push_size, rfl, hfed⟩

end FileSession

/-- What the file comes to in a session that found the registry `r`. -/
structure FileSession.Shown (x : FileSession) (path : String) (r : Registry Devices) : Prop where
  /-- In the end there is what was kept, and behind it the record of everything
  that was appended, in order. -/
  all : (x.ended path r).registry.world.tree.read path
    = .ok (x.kept path r ++ joinBytes (x.records path r))
  /-- What could be read before is kept or removed, as the first appender says. -/
  kept_eq : ∀ bytes, r.world.tree.read path = .ok bytes →
    x.kept path r = if x.append then bytes else .empty
  /-- At any time there is what was kept, and the first of the records so far. -/
  sofar : ∀ before rest, x.work = before ++ rest → ∃ written buffered,
    Workshop.appendedIn before (x.opened path r) = written ++ buffered
      ∧ ((x.opened path r).run before).registry.world.tree.read path
        = .ok (x.kept path r ++ joinBytes written)
  /-- Whoever joins changes nothing about any file. -/
  joined : ∀ before d o rest, x.work = before ++ .build d o :: rest →
    (((x.opened path r).run before).step (.build d o)).registry.world.tree
      = ((x.opened path r).run before).registry.world.tree

namespace FileSession

open Workshop

variable {x : FileSession} {path : String} {r : Registry Devices}

/-- A session that is held from its opening to its end shows its records in
the file, and leaves a sound registry behind. -/
theorem shown_of_held (hs : r.Sound) (ht : r.world.tree.Sound)
    (hfree : r.entries.get? (x.destination path).managerName = none) (hheld : x.Held path r) :
    x.Shown path r ∧ (x.ended path r).registry.Sound
      ∧ (x.ended path r).registry.world.tree.Sound
      ∧ (x.ended path r).registry.entries = r.entries := by
  obtain ⟨fid, target, hopened⟩ := writing_opened hs ht hfree hheld.opens
  have hended := hopened.run x.work hheld.goesOn
  rw [List.nil_append] at hended
  obtain ⟨hs', hentries, cid, rfl, ht', hread⟩ := hended.left hs hheld.left
  have hmid : ∀ before rest, x.work = before ++ rest →
      Writing r path (x.destination path).managerName fid (.contents cid) (x.kept path r)
        (appendedIn before (x.opened path r)) ((x.opened path r).run before)
      ∧ GoesOn (x.destination path).managerName rest ((x.opened path r).run before) := by
    intro before rest hwork
    have hgoes := hheld.goesOn
    rw [hwork] at hgoes
    obtain ⟨hbefore, hrest⟩ := goesOn_append hgoes
    exact ⟨hopened.run before hbefore, hrest⟩
  refine ⟨⟨hread, fun bytes hbytes => ?_, fun before rest hwork => ?_,
    fun before d o rest hwork => ?_⟩, hs', ht', hentries⟩
  · unfold kept
    rw [Devices.found_of_read hbytes]
  · obtain ⟨p, hp, -, hfed⟩ := (hmid before rest hwork).1.outlet
    exact hfed.read
  · obtain ⟨hwriting, hjoins, -⟩ := hmid before _ hwork
    exact (hwriting.join hjoins).2

/-- Take any path and any sessions on it, one after another, that go well. In
the end of each, the file has what the session kept of it and behind that all
records that were appended, in order. What it kept is what there was before,
if the first appender was built to append, and otherwise nothing; who joins
later has no say in that. -/
theorem file_keeps_records {sessions : List FileSession}
    {r₀ : Registry Devices} (hs : r₀.Sound) (ht : r₀.world.tree.Sound)
    (hfree : ∀ x ∈ sessions, r₀.entries.get? (x.destination path).managerName = none)
    (hheld : AllHeld path sessions r₀) {earlier later : List FileSession}
    (hsplit : sessions = earlier ++ x :: later) : x.Shown path (runAll path earlier r₀) := by
  induction earlier generalizing r₀ sessions with
  | nil =>
      subst hsplit
      exact (shown_of_held hs ht (hfree x List.mem_cons_self) hheld.1).1
  | cons y earlier ih =>
      subst hsplit
      -- the names are free again after the first session
      obtain ⟨-, hs', ht', hentries⟩ :=
        shown_of_held hs ht (hfree y List.mem_cons_self) hheld.1
      refine ih hs' ht' (fun z hz => ?_) hheld.2 rfl
      rw [hentries]
      exact hfree z (List.mem_cons_of_mem _ hz)

namespace Sample

open Samples (buffered)

/-- Somebody joins who would have had the file replaced, and stays longer. -/
def first : FileSession :=
  ⟨none, true, none, buffered,
    [.call 0 (.append (.ofText "a") false),
      .build (.file "log" none false none) buffered,
      .call 1 (.append (.ofText "b") false), .drop 0, .drop 1]⟩

def second : FileSession :=
  ⟨some "again", true, none, buffered,
    [.call 0 (.append (.ofText "c") false), .drop 0]⟩

theorem held_first : first.Held "log" (.empty .initial) where
  opens := ⟨_, rfl⟩
  goesOn := ⟨trivial, rfl, ⟨rfl, List.cons_ne_nil _ _⟩, rfl, trivial, rfl, trivial, rfl, trivial,
    rfl, trivial⟩
  left := rfl

theorem held_second : second.Held "log" (runAll "log" [first] (.empty .initial)) where
  opens := ⟨_, rfl⟩
  goesOn := ⟨trivial, rfl, trivial, rfl, trivial⟩
  left := rfl

end Sample

open LogPipeline.FileSession.Sample in
theorem file_keeps_records_sample :
    (Registry.empty Devices.initial).Sound ∧ FileTree.initial.Sound
      ∧ (∀ x ∈ [first, second],
        (Registry.empty Devices.initial).entries.get? (x.destination "log").managerName = none)
      ∧ AllHeld "log" [first, second] (.empty .initial)
      ∧ second.Shown "log" (runAll "log" [first] (.empty .initial))
      ∧ second.kept "log" (runAll "log" [first] (.empty .initial)) = "ab".toUTF8
      ∧ second.records "log" (runAll "log" [first] (.empty .initial)) = ["c".toUTF8] := by
  have hs : (Registry.empty Devices.initial).Sound := Registry.sound_empty _
  have hfree : ∀ x ∈ [first, second],
      (Registry.empty Devices.initial).entries.get? (x.destination "log").managerName = none :=
    fun _ _ => rfl
  have hheld : AllHeld "log" [first, second] (.empty .initial) :=
    ⟨held_first, held_second, trivial⟩
  have hsplit : [first, second] = [first] ++ second :: [] := rfl
  exact ⟨hs, FileTree.sound_initial, hfree, hheld,
    file_keeps_records hs FileTree.sound_initial hfree hheld hsplit, rfl, rfl⟩

end FileSession

end LogPipeline
