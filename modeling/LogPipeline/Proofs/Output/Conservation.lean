/-
Bytes are conserved: along every history of calls on a manager, whatever
its capacity and however its sink fails, what the sink has taken and what
is buffered are the chunks that were written, in order, each whole and
once; a chunk is missing only if a write of the sink that carried it
failed, and then the call that made the write told an error.

# Histories

A `Session` is a manager with its world and the log of the calls made on
it. The sink is watched, so that the log can say of every call what was
handed to the sink in its course; `run_unwatched` says that watching
changes nothing.

# The theorem

`Session.Balanced` is the invariant: the chunks that were admitted are
those of the parcels handed over, and behind them those that are held.
`balanced_answer` carries it over one call by `Manager.Moves`, and
`balanced_run` along a history.
-/
import LogPipeline.Proofs.Output.Watching

namespace LogPipeline

-- =============================================================== calls

/-- A call on a manager. -/
inductive ManagerCall where
  | write (bytes : ByteArray) (endOfBatch : Bool)
  | flush
  | close

namespace ManagerCall

/-- The chunk that the call brings. -/
def chunks : ManagerCall → List ByteArray
  | write bytes _ => [bytes]
  | flush | close => []

end ManagerCall

namespace Manager

variable {W : Type}

def answer (k : Sink W) (c : ManagerCall) (m : Manager) (w : W) : Step W :=
  match c with
  | .write bytes endOfBatch => m.write k bytes endOfBatch w
  | .flush => m.flush k w
  | .close => m.close k w

/-- Answer calls, one after another. -/
def answerAll (k : Sink W) :
    List ManagerCall → Manager → W → List (Except LogError Unit) × Manager × W
  | [], m, w => ([], m, w)
  | c :: rest, m, w =>
      let (result, m, w) := m.answer k c w
      let (results, m, w) := answerAll k rest m w
      (result :: results, m, w)

theorem answerAll_cons (k : Sink W) (c : ManagerCall) (rest : List ManagerCall)
    (m : Manager) (w : W) :
    answerAll k (c :: rest) m w
      = ((m.answer k c w).1 :: (answerAll k rest (m.answer k c w).2.1 (m.answer k c w).2.2).1,
        (answerAll k rest (m.answer k c w).2.1 (m.answer k c w).2.2).2) := rfl

/-- A sink in a larger world changes nothing about the calls. -/
theorem answer_mirrored {V : Type} {part : V → W} {k' : Sink V} {k : Sink W}
    (hk : k'.Mirrors part k) (c : ManagerCall) (m : Manager) (v : V) :
    (answer k' c m v).through part = answer k c m (part v) := by
  cases c with
  | write bytes endOfBatch => exact write_mirrored hk bytes endOfBatch m v
  | flush => exact flush_mirrored hk m v
  | close => exact close_mirrored hk m v

/-- An open manager books every call. -/
theorem moves_answer {k : Sink W} {log : W → List Attempt} (hk : k.Logs log)
    (c : ManagerCall) {m : Manager} (w : W) {held : List ByteArray}
    (hopen : m.closed = false) (hb : m.buffer = joinBytes held) :
    ∃ ps left, Moves k log m w held c.chunks (answer k c m w) ps left := by
  cases c with
  | write bytes endOfBatch => exact moves_write hk bytes endOfBatch w hopen hb
  | flush => exact moves_flush hk w hb
  | close => exact moves_close hk w hb

end Manager

-- ============================================================ sessions

/-- What is known of a call once it is answered. -/
structure CallRecord where
  call : ManagerCall
  /-- The manager was closed before. -/
  late : Bool
  /-- What the sink was handed in the course of the call. -/
  attempts : List Attempt
  result : Except LogError Unit

/-- The chunks that a call brought to a manager that was open. -/
def CallRecord.admitted (rec : CallRecord) : List ByteArray :=
  if rec.late then [] else rec.call.chunks

/-- A manager at work, and the log of the calls on it. -/
structure Session (W : Type) where
  manager : Manager
  world : W
  log : List CallRecord

namespace Session

variable {W : Type}

def start (m : Manager) (w : W) : Session W := ⟨m, w, []⟩

def step (k : Sink W) (s : Session W) (c : ManagerCall) : Session W :=
  let (result, m, w) := s.manager.answer k.watched c ⟨s.world, []⟩
  ⟨m, w.world, s.log ++ [⟨c, s.manager.closed, w.attempts, result⟩]⟩

/-- A history: calls, one after another. -/
def run (k : Sink W) (calls : List ManagerCall) (s : Session W) : Session W :=
  calls.foldl (step k) s

theorem log_step (k : Sink W) (s : Session W) (c : ManagerCall) :
    (s.step k c).log = s.log ++ [⟨c, s.manager.closed,
      (s.manager.answer k.watched c ⟨s.world, []⟩).2.2.attempts,
      (s.manager.answer k.watched c ⟨s.world, []⟩).1⟩] := rfl

/-- The chunks of the writes that were not refused, in order. -/
def admitted (s : Session W) : List ByteArray := s.log.flatMap CallRecord.admitted

/-- Everything that was handed to the sink, in order. -/
def attempts (s : Session W) : List Attempt := s.log.flatMap CallRecord.attempts

-- ====================================================== the invariant

/-- The books of a session that a manager like `m₀` began. -/
structure Balanced (k : Sink W) (m₀ : Manager) (s : Session W) (parcels : List Parcel)
    (held : List ByteArray) : Prop where
  chunks : s.admitted = parcels.flatMap (·.chunks) ++ held
  handed : s.attempts = parcels.map Parcel.attempt
  buffer : s.manager.buffer = joinBytes held
  fits : s.manager.buffer.size ≤ s.manager.capacity
  written : s.manager.bytesWritten = (takenBytes s.attempts).size
  settings : s.manager.settings = m₀.settings
  told : ∀ rec ∈ s.log, (∃ a ∈ rec.attempts, a.taken = false) →
    ∃ e, rec.result = .error e
  refused : ∀ rec ∈ s.log, rec.late = true → rec.attempts = []
    ∧ ∀ bytes endOfBatch, rec.call = .write bytes endOfBatch →
      rec.result = .error (.managerClosed m₀.name)
  emptied : s.manager.closed = true → s.manager.buffer = .empty
  whole : k.TakesAll → ∀ p ∈ parcels, p.taken = true

variable {k : Sink W} {m₀ : Manager} {s : Session W} {parcels : List Parcel}
  {held : List ByteArray}

theorem balanced_start (name : String) (capacity : Nat) (immediateFlush : Bool)
    (attributes : Dict String) (w : W) :
    Balanced k (.new name capacity immediateFlush attributes)
      (start (.new name capacity immediateFlush attributes) w) [] [] where
  chunks := rfl
  handed := rfl
  buffer := rfl
  fits := Nat.zero_le _
  written := rfl
  settings := rfl
  told := fun rec hr => by cases hr
  refused := fun rec hr => by cases hr
  emptied := fun _ => rfl
  whole := fun _ p hp => by cases hp

/-- A closed manager answers without its sink. -/
theorem answer_closed (k : Sink W) (c : ManagerCall) {m : Manager} (w : W)
    (h : m.closed = true) :
    m.answer k c w
      = (if c.chunks = [] then .ok () else .error (.managerClosed m.name), m, w) := by
  cases c <;> simp [Manager.answer, Manager.write, Manager.flush, Manager.close, h,
    ManagerCall.chunks]

/-- A closed manager has nothing buffered, and no call changes that. -/
theorem emptied_answer (k : Sink W) (c : ManagerCall) {m : Manager} (w : W)
    (h : m.closed = true → m.buffer = .empty) (hclosed : (m.answer k c w).2.1.closed = true) :
    (m.answer k c w).2.1.buffer = .empty := by
  cases hm : m.closed with
  | true =>
      rw [answer_closed k c w hm]
      exact h hm
  | false =>
      cases c with
      | write bytes endOfBatch =>
          rw [show (m.answer k (.write bytes endOfBatch) w).2.1.closed = false from
            (Manager.closed_write k bytes endOfBatch m w).trans hm] at hclosed
          cases hclosed
      | flush =>
          rw [show (m.answer k .flush w).2.1.closed = false from
            (Manager.closed_flush k m w).trans hm] at hclosed
          cases hclosed
      | close => exact Manager.buffer_close k w hm

/-- A call that comes late changes nothing but the log. -/
theorem balanced_late (h : Balanced k m₀ s parcels held) (c : ManagerCall)
    (hc : s.manager.closed = true) : Balanced k m₀ (s.step k c) parcels held := by
  have hname : s.manager.name = m₀.name := congrArg (·.1) h.settings
  have hstep : s.step k c = ⟨s.manager, s.world, s.log ++ [⟨c, true, [],
      if c.chunks = [] then .ok () else .error (.managerClosed s.manager.name)⟩]⟩ := by
    unfold step
    rw [answer_closed k.watched c _ hc, hc]
  have hadmitted : (s.step k c).admitted = s.admitted := by
    rw [hstep]
    simp [admitted, CallRecord.admitted]
  have hattempts : (s.step k c).attempts = s.attempts := by
    rw [hstep]
    simp [attempts]
  have hmanager : (s.step k c).manager = s.manager := by rw [hstep]
  refine ⟨hadmitted.trans h.chunks, hattempts.trans h.handed, ?_, ?_, ?_, ?_, ?_, ?_, ?_,
    h.whole⟩
  · exact hmanager ▸ h.buffer
  · exact hmanager ▸ h.fits
  · rw [hmanager, hattempts]
    exact h.written
  · exact hmanager ▸ h.settings
  · rw [hstep]
    intro rec hr ht
    rcases List.mem_append.1 hr with hr | hr
    · exact h.told rec hr ht
    · obtain ⟨a, ha, -⟩ := ht
      rw [List.mem_singleton.1 hr] at ha
      cases ha
  · rw [hstep]
    intro rec hr hl
    rcases List.mem_append.1 hr with hr | hr
    · exact h.refused rec hr hl
    · rw [List.mem_singleton.1 hr]
      refine ⟨rfl, fun bytes endOfBatch hcall => ?_⟩
      have hcall' : c = .write bytes endOfBatch := hcall
      rw [hcall', ← hname]
      rfl
  · exact hmanager ▸ h.emptied

/-- A call on an open manager: what it moves is booked. -/
theorem balanced_open (h : Balanced k m₀ s parcels held) (c : ManagerCall)
    (hopen : s.manager.closed = false) :
    ∃ ps left, Balanced k m₀ (s.step k c) (parcels ++ ps) left := by
  obtain ⟨ps, left, hm⟩ :=
    Manager.moves_answer k.logs_watched c ⟨s.world, []⟩ hopen h.buffer
  have hlog : (s.step k c).log = s.log ++ [⟨c, false, ps.map Parcel.attempt,
      (s.manager.answer k.watched c ⟨s.world, []⟩).1⟩] := by
    rw [log_step, hopen, hm.logged]
    rfl
  have hattempts : (s.step k c).attempts = s.attempts ++ ps.map Parcel.attempt := by
    unfold attempts
    rw [hlog]
    simp
  have hadmitted : (s.step k c).admitted = s.admitted ++ c.chunks := by
    unfold admitted
    rw [hlog]
    simp [CallRecord.admitted]
  refine ⟨ps, left, ?_, ?_, hm.buffer, hm.fits h.fits, ?_, hm.settings.trans h.settings,
    ?_, ?_, ?_, ?_⟩
  · rw [hadmitted, h.chunks, List.append_assoc, hm.chunks, ← List.append_assoc,
      ← List.flatMap_append]
  · rw [hattempts, h.handed, List.map_append]
  · rw [hattempts, takenBytes_append, ByteArray.size_append, ← h.written]
    exact hm.written
  · rw [hlog]
    intro rec hr ht
    -- old calls were told before, and this one by what it moved
    rcases List.mem_append.1 hr with hr | hr
    · exact h.told rec hr ht
    · rw [List.mem_singleton.1 hr] at ht ⊢
      obtain ⟨a, ha, hat⟩ := ht
      obtain ⟨p, hp, rfl⟩ := List.mem_map.1 ha
      exact hm.told ⟨p, hp, hat⟩
  · rw [hlog]
    intro rec hr hl
    rcases List.mem_append.1 hr with hr | hr
    · exact h.refused rec hr hl
    · rw [List.mem_singleton.1 hr] at hl
      cases hl
  · -- an open manager is closed by one call only, which pushes first
    intro hclosed
    cases c with
    | write bytes endOfBatch =>
        have := Manager.closed_write k.watched bytes endOfBatch s.manager ⟨s.world, []⟩
        rw [hopen] at this
        exact absurd hclosed (Bool.eq_false_iff.1 this)
    | flush =>
        have := Manager.closed_flush k.watched s.manager ⟨s.world, []⟩
        rw [hopen] at this
        exact absurd hclosed (Bool.eq_false_iff.1 this)
    | close => exact Manager.buffer_close k.watched _ hopen
  · intro hk p hp
    have hk' : k.watched.TakesAll := fun bytes w => hk bytes w.world
    rcases List.mem_append.1 hp with hp | hp
    · exact h.whole hk p hp
    · exact hm.whole hk' p hp

/-- Every call keeps the books balanced. -/
theorem balanced_answer (h : Balanced k m₀ s parcels held) (c : ManagerCall) :
    ∃ parcels' held', Balanced k m₀ (s.step k c) parcels' held' := by
  cases hc : s.manager.closed with
  | true => exact ⟨_, _, balanced_late h c hc⟩
  | false =>
      obtain ⟨ps, left, h'⟩ := balanced_open h c hc
      exact ⟨_, _, h'⟩

/-- Every history does. -/
theorem balanced_run (calls : List ManagerCall) (h : Balanced k m₀ s parcels held) :
    ∃ parcels' held', Balanced k m₀ (s.run k calls) parcels' held' := by
  induction calls generalizing s parcels held with
  | nil => exact ⟨_, _, h⟩
  | cons c rest ih =>
      obtain ⟨parcels', held', h'⟩ := balanced_answer h c
      exact ih h'

-- ======================================================= what it gives

/-- A session is what the calls come to on the sink that is not watched. -/
theorem run_unwatched (k : Sink W) (calls : List ManagerCall) (s : Session W) :
    ∃ results, (results, (s.run k calls).manager, (s.run k calls).world)
        = Manager.answerAll k calls s.manager s.world
      ∧ (s.run k calls).log.map (·.result) = s.log.map (·.result) ++ results
      ∧ (s.run k calls).log.map (·.call) = s.log.map (·.call) ++ calls := by
  induction calls generalizing s with
  | nil => exact ⟨[], rfl, by simp [run], by simp [run]⟩
  | cons c rest ih =>
      obtain ⟨results, hall, hresults, hcalls⟩ := ih (s.step k c)
      have hone := Manager.answer_mirrored k.mirrors_watched c s.manager ⟨s.world, []⟩
      refine ⟨(s.manager.answer k.watched c ⟨s.world, []⟩).1 :: results, ?_, ?_, ?_⟩
      · rw [Manager.answerAll_cons, ← hone]
        exact congrArg (fun o => (Prod.fst _ :: o.1, o.2)) hall
      · exact hresults.trans (by simp [step])
      · exact hcalls.trans (by simp [step])

/-- Only closing closes a manager, and nothing opens it again. -/
theorem closed_step (k : Sink W) (s : Session W) (c : ManagerCall) :
    (s.step k c).manager.closed = true ↔ s.manager.closed = true ∨ c = .close := by
  cases c with
  | write bytes endOfBatch =>
      have : (s.step k (.write bytes endOfBatch)).manager.closed = _ :=
        Manager.closed_write k.watched bytes endOfBatch s.manager ⟨s.world, []⟩
      simp [this]
  | flush =>
      have : (s.step k .flush).manager.closed = _ :=
        Manager.closed_flush k.watched s.manager ⟨s.world, []⟩
      simp [this]
  | close =>
      have : (s.step k .close).manager.closed = _ :=
        Manager.closed_close k.watched s.manager ⟨s.world, []⟩
      simp [this]

theorem closed_run (k : Sink W) (calls : List ManagerCall) (s : Session W) :
    (s.run k calls).manager.closed = true ↔ s.manager.closed = true ∨ .close ∈ calls := by
  induction calls generalizing s with
  | nil => simp [run]
  | cons c rest ih =>
      have hrest := ih (s.step k c)
      rw [closed_step, or_assoc] at hrest
      rw [List.mem_cons, eq_comm (a := ManagerCall.close)]
      exact hrest

/-- Along every history of calls, the bytes that the sink has taken and
then those in the buffer are a subsequence of the chunks written, each
whole. A chunk that is missing was in a parcel that the sink refused, in
the course of a call that told an error. The sink that takes all has all
that is not buffered, and once it is closed it has all. -/
theorem bytes_conserved (k : Sink W) (name : String) (capacity : Nat)
    (immediateFlush : Bool) (attributes : Dict String) (w : W) (calls : List ManagerCall) :
    let m₀ := Manager.new name capacity immediateFlush attributes
    let s := (start m₀ w).run k calls
    (∃ parcels held,
      s.admitted = parcels.flatMap (·.chunks) ++ held
        ∧ s.attempts = parcels.map Parcel.attempt
        ∧ s.manager.buffer = joinBytes held
        ∧ takenBytes s.attempts ++ s.manager.buffer
            = joinBytes (Parcel.takenChunks parcels ++ held)
        ∧ (Parcel.takenChunks parcels ++ held).Sublist s.admitted
        ∧ ∀ p ∈ parcels, p.taken = false →
            ∃ rec ∈ s.log, p.attempt ∈ rec.attempts ∧ ∃ e, rec.result = .error e)
      ∧ s.manager.bytesWritten = (takenBytes s.attempts).size
      ∧ s.manager.buffer.size ≤ capacity
      ∧ (∀ rec ∈ s.log, rec.late = true → rec.attempts = []
          ∧ ∀ bytes endOfBatch, rec.call = .write bytes endOfBatch →
            rec.result = .error (.managerClosed name))
      ∧ (k.TakesAll →
          takenBytes s.attempts ++ s.manager.buffer = joinBytes s.admitted
            ∧ (s.manager.closed = true → takenBytes s.attempts = joinBytes s.admitted))
      ∧ (s.manager.closed = true ↔ .close ∈ calls)
      ∧ s.log.map (·.call) = calls
      ∧ (s.log.map (·.result), s.manager, s.world) = Manager.answerAll k calls m₀ w := by
  intro m₀ s
  obtain ⟨parcels, held, h⟩ := balanced_run (k := k) calls
    (balanced_start name capacity immediateFlush attributes w)
  have hcap : s.manager.capacity = capacity := congrArg (·.2.1) h.settings
  have hall : takenBytes s.attempts ++ s.manager.buffer
      = joinBytes (Parcel.takenChunks parcels ++ held) := by
    rw [h.handed, Parcel.takenBytes_attempts, h.buffer, joinBytes_append]
  have hwhole : k.TakesAll →
      takenBytes s.attempts ++ s.manager.buffer = joinBytes s.admitted := by
    intro hk
    rw [hall, Parcel.takenChunks_eq (h.whole hk), h.chunks]
  refine ⟨⟨parcels, held, h.chunks, h.handed, h.buffer, hall, ?_, ?_⟩, h.written,
    hcap ▸ h.fits, h.refused, fun hk => ⟨hwhole hk, fun hc => ?_⟩, ?_, ?_⟩
  · rw [h.chunks]
    exact (Parcel.takenChunks_sublist parcels).append_right held
  · intro p hp ht
    -- the attempt is one of the session, hence one of some call
    have hmem : p.attempt ∈ s.attempts := h.handed ▸ List.mem_map_of_mem hp
    obtain ⟨rec, hrec, hin⟩ := List.mem_flatMap.1 hmem
    exact ⟨rec, hrec, hin, h.told rec hrec ⟨p.attempt, hin, ht⟩⟩
  · have := hwhole hk
    rw [h.emptied hc, ByteArray.append_empty] at this
    exact this
  · have := closed_run k calls (start m₀ w)
    rw [this]
    exact or_iff_right (by simp [start, m₀, Manager.new])
  · obtain ⟨results, hplain, hresults, hcalls⟩ := run_unwatched k calls (start m₀ w)
    refine ⟨hcalls, ?_⟩
    rw [← show results = s.log.map (·.result) from hresults.symm]
    exact hplain

end Session

end LogPipeline
