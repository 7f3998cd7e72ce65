/-
A manager in front of a log file. As long as the file is open, whatever is
called, all that the manager was given is in the file or still buffered
behind it, in order (`Feeding`), and no call fails. Closing sends the rest
and brings it to storage, which only a file has: if the sink is on a device,
closing tells an error (`Fed.close`).

The calls of an open file never fail, but only as long as it is open. So
its sink is compared with one whose world cannot be anything else
(`opened`), and that one is steady.
-/
import LogPipeline.Proofs.Device.Trees
import LogPipeline.Proofs.Output.Conservation
import LogPipeline.Proofs.Output.Streams

namespace LogPipeline

open FileTree (FileTarget)

namespace Devices

variable {d d' : Devices} {fid cid : Nat} {target : FileTarget}

/-- What the numbered file is open on. -/
def target? (fid : Nat) (d : Devices) : Option FileTarget := (d.files.getD fid default).target

/-- Bytes are added to the contents of a number. -/
def appended (cid : Nat) (bytes : ByteArray) (d : Devices) : Devices :=
  { d with tree := (d.tree.append bytes (.contents cid)).2 }

/-- What is written to a file with contents is appended to them. -/
theorem writeFile_contents (h : d.target? fid = some (.contents cid)) (bytes : ByteArray) :
    writeFile fid bytes d = (.ok (), d.appended cid bytes) := by
  have h' : (d.files.getD fid default).target = some (.contents cid) := h
  unfold writeFile
  dsimp only
  rw [h']
  rfl

/-- There is nothing to flush in an open file. -/
theorem flushFile_open (h : d.target? fid = some target) : flushFile fid d = (.ok (), d) := by
  have h' : (d.files.getD fid default).target = some target := h
  unfold flushFile
  dsimp only
  rw [h']

/-- Only contents can be brought to storage. -/
theorem closeFile_ok (h : d.target? fid = some target)
    (hok : (closeFile fid d).1 = .ok ()) : ∃ cid, target = .contents cid := by
  have h' : (d.files.getD fid default).target = some target := h
  unfold closeFile at hok
  dsimp only at hok
  rw [h'] at hok
  cases target with
  | contents cid => exact ⟨cid, rfl⟩
  | device device => cases hok

theorem tree_closeFile (fid : Nat) (d : Devices) : (closeFile fid d).2.tree = d.tree := by
  unfold closeFile
  dsimp only
  split
  · rfl
  · split <;> rfl

/-- An open file leads to what its path was opened as. -/
theorem target_openFile {path : String} {append : Bool}
    (h : d.openFile path append = (.ok fid, d')) :
    ∃ target, d'.target? fid = some target
      ∧ openTree path append d.tree = (.ok target, d'.tree) := by
  unfold openFile at h
  split at h
  · cases h
  · next target tree hopen =>
    cases h
    refine ⟨target, ?_, hopen⟩
    unfold target?
    rw [Array.getD_eq_getD_getElem?, Array.getElem?_push_size]
    rfl

-- ============================================================== sinks

/-- The sink of a file, but closing it leaves the file open. -/
def stayingSink (fid : Nat) : Sink Devices := { fileSink fid with close := fun d => (.ok (), d) }

/-- Writing to a file does not make it lead elsewhere. -/
theorem keeps_target (fid : Nat) (target : Option FileTarget) :
    (stayingSink fid).Keeps fun d => d.target? fid = target where
  write bytes d h := by
    show (writeFile fid bytes d).2.target? fid = target
    unfold writeFile
    dsimp only
    split
    · exact h
    · split <;> exact h
  flush d h := by
    show (flushFile fid d).2.target? fid = target
    unfold flushFile
    dsimp only
    split <;> exact h
  close _ h := h

/-- The sink of a file in a world in which it is open on contents. -/
def opened (fid cid : Nat) : Sink { d : Devices // d.target? fid = some (.contents cid) } where
  write bytes d := (.ok (), ⟨d.1.appended cid bytes, d.2⟩)
  flush d := (.ok (), d)
  close d := (.ok (), d)
  contentFormat := .empty

theorem mirrors_opened (fid cid : Nat) : (opened fid cid).Mirrors Subtype.val (stayingSink fid) :=
  ⟨fun bytes d => writeFile_contents d.2 bytes, fun d => flushFile_open d.2, fun _ => rfl⟩

end Devices

-- ============================================================ managers

namespace Manager

open Devices (stayingSink fileSink opened)

/-- What the manager was given is in the file, behind what was kept, or is buffered. -/
structure Feeding (path : String) (fid cid : Nat) (kept : ByteArray) (records : List ByteArray)
    (m : Manager) (d : Devices) : Prop where
  target : d.target? fid = some (.contents cid)
  sound : d.tree.Sound
  split : ∃ done held, records = done ++ held ∧ m.buffer = joinBytes held
    ∧ d.tree.Shows path cid (kept ++ joinBytes done)

variable {path : String} {fid cid : Nat} {kept : ByteArray} {records : List ByteArray}
  {m : Manager} {d : Devices}

/-- What the sink of an open file was seen to be handed has come into it. -/
theorem keeps_shows (path : String) (fid cid : Nat) (before : ByteArray) :
    (opened fid cid).watched.Keeps fun v => v.world.1.tree.Sound
      ∧ v.world.1.tree.Shows path cid (before ++ takenBytes v.attempts) where
  write bytes v h := by
    have htaken : takenBytes ((opened fid cid).watched.write bytes v).2.attempts
        = takenBytes v.attempts ++ bytes := by
      show takenBytes (v.attempts ++ [⟨bytes, true⟩]) = _
      rw [takenBytes_append]
      simp [takenBytes]
    rw [htaken, ← ByteArray.append_assoc]
    exact ⟨h.1.append bytes, h.2.append bytes⟩
  flush _ h := h
  close _ h := h

/-- As long as the file is open, calls succeed, and their chunks come behind
those that were given. -/
theorem Feeding.answer (h : Feeding path fid cid kept records m d) (hopen : m.closed = false)
    (c : ManagerCall) :
    (answer (stayingSink fid) c m d).1 = .ok ()
      ∧ Feeding path fid cid kept (records ++ c.chunks)
        (answer (stayingSink fid) c m d).2.1 (answer (stayingSink fid) c m d).2.2 := by
  obtain ⟨done, held, rfl, hbuffer, hshows⟩ := h.split
  obtain ⟨parcels, left, hmoves⟩ :=
    moves_answer (opened fid cid).logs_watched c ⟨⟨d, h.target⟩, []⟩ hopen hbuffer
  have hsteady : (opened fid cid).watched.Steady :=
    ⟨fun _ _ => rfl, fun _ => rfl, fun _ => rfl⟩
  have hkept := keeps_answer (keeps_shows path fid cid (kept ++ joinBytes done)) c m
    (w := ⟨⟨d, h.target⟩, []⟩) ⟨h.sound, by simpa using hshows⟩
  have hlogged : (Manager.answer (opened fid cid).watched c m ⟨⟨d, h.target⟩, []⟩).2.2.attempts
      = parcels.map Parcel.attempt := by
    simpa using hmoves.logged
  rw [hlogged, Parcel.takenBytes_attempts,
    Parcel.takenChunks_eq (hmoves.whole hsteady.write)] at hkept
  have hsame : Manager.answer (stayingSink fid) c m d
      = ((Manager.answer (opened fid cid).watched c m ⟨⟨d, h.target⟩, []⟩).through
        Watched.world).through Subtype.val := by
    rw [answer_mirrored (opened fid cid).mirrors_watched,
      answer_mirrored (Devices.mirrors_opened fid cid)]
  rw [hsame]
  refine ⟨hmoves.quiet hsteady, ?_, hkept.1, ?_⟩
  · exact (Manager.answer (opened fid cid).watched c m ⟨⟨d, h.target⟩, []⟩).2.2.world.2
  · refine ⟨done ++ parcels.flatMap (·.chunks), left, ?_, hmoves.buffer, ?_⟩
    · rw [List.append_assoc, hmoves.chunks, List.append_assoc]
    · rw [joinBytes_append, ← ByteArray.append_assoc]
      exact hkept.2

/-- Where a manager stands in the life of a log file that it was made for:
the file is open, or it has all records and what was kept. -/
structure Fed (path : String) (fid : Nat) (target : FileTarget) (kept : ByteArray)
    (records : List ByteArray) (m : Manager) (d : Devices) : Prop where
  opened : m.closed = false → d.target? fid = some target
    ∧ ∀ cid, target = .contents cid → Feeding path fid cid kept records m d
  /-- It was no device, since it was closed without an error. -/
  closed : m.closed = true → ∃ cid, target = .contents cid ∧ d.tree.Sound
    ∧ d.tree.Shows path cid (kept ++ joinBytes records)

variable {target : FileTarget} {new : List ByteArray}

/-- A file that was opened shows what it is to keep, and no records yet. -/
theorem fed_open {append : Bool} {d' : Devices} (hs : d.tree.Sound)
    (h : d.openFile path append = (.ok fid, d')) (hopen : m.closed = false)
    (hbuffer : m.buffer = .empty) :
    ∃ target, Fed path fid target (if append then Devices.found path d.tree else .empty) [] m
      d' := by
  obtain ⟨target, htarget, htree⟩ := Devices.target_openFile h
  refine ⟨target, fun _ => ⟨htarget, ?_⟩, fun hclosed => ?_⟩
  · rintro cid rfl
    obtain ⟨hs', hshows⟩ := Devices.shows_openTree hs htree
    exact ⟨htarget, hs', [], [], rfl, hbuffer, by simpa using hshows⟩
  · rw [hopen] at hclosed
    cases hclosed

/-- Nothing else about the devices matters. -/
theorem Fed.elsewhere {d' : Devices} (h : Fed path fid target kept records m d)
    (htree : d'.tree = d.tree) (hfiles : d'.files = d.files) :
    Fed path fid target kept records m d' := by
  have htarget : d'.target? fid = d.target? fid := by
    unfold Devices.target?
    rw [hfiles]
  refine ⟨fun hopen => ?_, fun hclosed => htree ▸ h.closed hclosed⟩
  rw [htarget]
  refine ⟨(h.opened hopen).1, fun cid hcid => ?_⟩
  have hfeeding := (h.opened hopen).2 cid hcid
  exact ⟨htarget.trans hfeeding.target, htree ▸ hfeeding.sound, htree ▸ hfeeding.split⟩

/-- At any time, the file has the first of the records. -/
theorem Fed.read (h : Fed path fid (.contents cid) kept records m d) :
    ∃ done held, records = done ++ held ∧ d.tree.read path = .ok (kept ++ joinBytes done) := by
  cases hm : m.closed with
  | false =>
      obtain ⟨done, held, hsplit, -, hshows⟩ := ((h.opened hm).2 cid rfl).split
      exact ⟨done, held, hsplit, hshows.read_eq⟩
  | true =>
      obtain ⟨cid', -, -, hshows⟩ := h.closed hm
      exact ⟨records, [], by simp, hshows.read_eq⟩

/-- Calls that do not close bring their chunks, if they succeed. -/
theorem Fed.answer (h : Fed path fid target kept records m d) (hopen : m.closed = false)
    {c : ManagerCall} (hc : c ≠ .close)
    (hnew : (answer (fileSink fid) c m d).1 = .ok () → new = c.chunks) :
    Fed path fid target kept (records ++ new) (answer (fileSink fid) c m d).2.1
      (answer (fileSink fid) c m d).2.2 := by
  have hstaying : Manager.answer (fileSink fid) c m d = Manager.answer (stayingSink fid) c m d := by
    cases c with
    | close => exact absurd rfl hc
    | _ => rfl
  have hclosed : (Manager.answer (stayingSink fid) c m d).2.1.closed = m.closed := by
    cases c with
    | write bytes endOfBatch => exact closed_write _ bytes endOfBatch m d
    | flush => exact closed_flush _ m d
    | close => exact absurd rfl hc
  rw [hstaying] at hnew ⊢
  refine ⟨fun _ => ⟨?_, ?_⟩, fun hc => ?_⟩
  · exact keeps_answer (Devices.keeps_target fid (some target)) c m (h.opened hopen).1
  · rintro cid rfl
    obtain ⟨hok, hfeeding⟩ := ((h.opened hopen).2 cid rfl).answer hopen c
    exact hnew hok ▸ hfeeding
  · rw [hclosed, hopen] at hc
    cases hc

/-- Closing does first what it would do if the file stayed open. -/
theorem close_fileSink (fid : Nat) (d : Devices) (hopen : m.closed = false) :
    let out := close (stayingSink fid) m d
    close (fileSink fid) m d
      = (firstError out.1 (Devices.closeFile fid out.2.2).1, out.2.1,
        (Devices.closeFile fid out.2.2).2) := by
  unfold close
  rw [hopen]
  dsimp only
  rcases hpushed : push (stayingSink fid) { m with closed := true } d with ⟨pushed, m', d'⟩
  have hpushed' : push (fileSink fid) { m with closed := true } d = (pushed, m', d') := hpushed
  rw [hpushed']
  cases pushed <;> rfl

/-- Closing without an error leaves the file with all that was given. -/
theorem Fed.close (h : Fed path fid target kept records m d) (hopen : m.closed = false)
    (hok : (close (fileSink fid) m d).1 = .ok ()) :
    Fed path fid target kept records (close (fileSink fid) m d).2.1
      (close (fileSink fid) m d).2.2 := by
  have hclosed : (Manager.close (fileSink fid) m d).2.1.closed = true := closed_close _ m d
  have hempty : (Manager.close (stayingSink fid) m d).2.1.buffer = .empty :=
    buffer_close _ d hopen
  have htarget : (Manager.close (stayingSink fid) m d).2.2.target? fid = some target :=
    keeps_close (Devices.keeps_target fid (some target)) m (h.opened hopen).1
  refine ⟨fun hc => ?_, fun _ => ?_⟩
  · rw [hclosed] at hc
    cases hc
  rw [close_fileSink fid d hopen] at hok ⊢
  obtain ⟨cid, rfl⟩ : ∃ cid, target = .contents cid := by
    refine Devices.closeFile_ok htarget ?_
    cases hpushed : (Manager.close (stayingSink fid) m d).1 with
    | ok u =>
        rw [hpushed] at hok
        exact hok
    | error e =>
        rw [hpushed] at hok
        cases hok
  obtain ⟨-, hfeeding⟩ := ((h.opened hopen).2 cid rfl).answer hopen .close
  obtain ⟨done, held, hsplit, hbuffer, hshows⟩ := hfeeding.split
  refine ⟨cid, rfl, ?_, ?_⟩
  · rw [Devices.tree_closeFile]
    exact hfeeding.sound
  · rw [Devices.tree_closeFile]
    -- nothing is held, since the buffer was pushed
    have hheld : joinBytes held = .empty := hbuffer.symm.trans hempty
    rw [show records = done ++ held by simpa [ManagerCall.chunks] using hsplit, joinBytes_append,
      hheld, ByteArray.append_empty]
    exact hshows

end Manager

end LogPipeline
