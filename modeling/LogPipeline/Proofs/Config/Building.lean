/-
What becomes of a description that has passed its check. The appenders are
gone through in order (`Lineup`): each is built, or its destination cannot
be opened, and then it is left out, reported, and nothing but the world
has changed. The logger has the appenders that were built.

Three things the check does not look at although nothing has to be opened
for them: whether a file has a path, whether a buffer is larger than any
can be, and whether a ring is too large. A missing path and a large ring
are told as errors. A large buffer is a panic, but only where one comes to
be made: not if somebody has the manager already, nor if the destination
cannot be opened (`AppenderConfig.Stops`). A checked description has no
logger just if it suffers from one of these (`Suffers`), and the first that
is come to is what it fails with; one without them (`Flawless`) becomes a
logger at any registry (`ofConfig_of_validate`).
-/
import LogPipeline.Logger.Build
import LogPipeline.Proofs.Output.Outlets
import LogPipeline.Proofs.Samples

namespace LogPipeline

open Registry (refusal)

-- ======================================================= the check

namespace PipelineConfig

theorem checkAppenders_eq_ok_iff : ∀ {cs : List AppenderConfig},
    checkAppenders cs = .ok ()
      ↔ ∀ c ∈ cs, ∃ filter, FilterConfig.buildOptional c.filters = .ok filter
  | [] => by simp [checkAppenders]
  | c :: rest => by
    unfold checkAppenders
    cases hfilter : FilterConfig.buildOptional c.filters with
    | error e => simp [hfilter]
    | ok filter => simp [hfilter, @checkAppenders_eq_ok_iff rest]

/-- A description passes its check just if all of its filters can be built
and its ring is to have a slot. -/
theorem validate_eq_ok_iff {c : PipelineConfig} :
    c.validate = .ok () ↔ (∃ filter, FilterConfig.buildChain c.filters = .ok filter)
      ∧ (∀ a ∈ c.appenders, ∃ filter, FilterConfig.buildOptional a.filters = .ok filter)
      ∧ c.async.ringBufferSize ≠ 0 := by
  rw [← checkAppenders_eq_ok_iff]
  unfold validate
  cases FilterConfig.buildChain c.filters with
  | error e => simp [bind, Except.bind]
  | ok filter =>
      cases checkAppenders c.appenders with
      | error e => simp [bind, Except.bind]
      | ok u =>
          by_cases hsize : c.async.ringBufferSize = 0 <;>
            simp [bind, Except.bind, hsize, throw, throwThe, MonadExceptOf.throw, pure,
              Except.pure]

end PipelineConfig

-- ============================================================ appenders

/-- A buffer is too large just where it comes to be made: nobody has the
manager, and the destination has been opened. -/
theorem Destination.overflows_iff {d : Destination} {o : OutputOptions} {r : Registry Devices} :
    d.overflows o r = true ↔ r.entries.get? d.managerName = none
      ∧ (∃ k w, d.openSink r.world = (.ok k, w))
      ∧ Manager.maxCapacity < o.capacity.getD d.capacity := by
  have hopen : (d.openSink r.world).1.isOk = true ↔ ∃ k w, d.openSink r.world = (.ok k, w) := by
    rcases d.openSink r.world with ⟨e | k, w⟩
    · exact ⟨nofun, fun ⟨_, _, h⟩ => nomatch h⟩
    · exact ⟨fun _ => ⟨k, w, rfl⟩, fun _ => rfl⟩
  have hnone : (!r.contains d.managerName) = true ↔ r.entries.get? d.managerName = none := by
    unfold Registry.contains
    unfold Dict.contains
    rw [Bool.not_eq_true', Option.isSome_eq_false_iff, Option.isNone_iff_eq_none]
  unfold overflows
  rw [Bool.and_eq_true, Bool.and_eq_true, hnone, hopen, decide_eq_true_eq, and_assoc]

/-- The appender for a destination, once there is a handle on its manager. -/
def Appender.on (d : Destination) (o : OutputOptions) (handle : ManagerHandle) : Appender :=
  ⟨⟨o.name.getD d.appenderName, handle, o.formatter.getD d.formatter,
    ManagedOutput.usable o.filter⟩, d⟩

namespace AppenderConfig

/-- The appender is to write to a file, and no path says to which. -/
def Pathless : AppenderConfig → Prop
  | file c => c.path = ""
  | _ => False

instance : DecidablePred Pathless
  | file c => inferInstanceAs (Decidable (c.path = ""))
  | console _ | socket _ => inferInstanceAs (Decidable False)

/-- What is told of an appender without a path. -/
def pathlessError : LogError := .invalidConfiguration "FileAppender" "path must not be empty"

/-- The buffer that the appender asks for, if it asks for one. -/
def bufferSize : AppenderConfig → Option Nat
  | file c => c.bufferSize
  | socket c => c.bufferSize
  | console _ => none

/-- The buffer is to be larger than any can be. -/
def Overlarge (c : AppenderConfig) : Prop := Manager.maxCapacity < c.bufferSize.getD 0

instance : DecidablePred Overlarge := fun _ => inferInstanceAs (Decidable (_ < _))

/-- What stops at an appender when it comes to its turn, and fails the whole. -/
inductive Stops (c : AppenderConfig) (r : Registry Devices) : Failure → Prop
  | pathless (hpath : c.Pathless) : Stops c r (.told pathlessError)
  /-- Nobody has its manager, and its destination is opened. -/
  | overflow {k : Sink Devices} {w : Devices} (hpath : ¬ c.Pathless) (hlarge : c.Overlarge)
      (hnone : r.entries.get? c.destination.managerName = none)
      (hopen : c.destination.openSink r.world = (.ok k, w)) :
      Stops c r (.panicked Manager.overflow)

variable {env : Environment} {c : AppenderConfig} {filter : Option FilterChain}

theorem build_of_pathless (hfilter : FilterConfig.buildOptional c.filters = .ok filter)
    (hpath : c.Pathless) (r : Registry Devices) :
    c.build env r = (.error (.told pathlessError), [], r) := by
  cases c with
  | file f =>
      have hpath : f.path = "" := hpath
      simp only [build, hfilter, destination, hpath]
      rfl
  | console _ | socket _ => exact hpath.elim

/-- An appender with a path is built as soon as it has a handle on its
manager, unless its buffer is too large when the manager is to be made. -/
theorem build_of_path (hfilter : FilterConfig.buildOptional c.filters = .ok filter)
    (hpath : ¬ c.Pathless) (r : Registry Devices) :
    c.build env r
      = if c.destination.overflows (c.options env filter) r then
          (.error (.panicked Manager.overflow), [],
            { r with world := (c.destination.openSink r.world).2 })
        else
          match r.acquire c.destination.managerName
            (c.destination.factory (c.options env filter)) with
          | (.error e, reports, r) => (.error (.told e), reports, r)
          | (.ok handle, reports, r) =>
            (.ok (.on c.destination (c.options env filter) handle), reports, r) := by
  cases c with
  | file f =>
      have hpath : f.path ≠ "" := hpath
      simp only [build, hfilter, destination, Appender.build]
      split
      · next heq => exact absurd (by injection heq) hpath
      · rfl
  | console _ | socket _ =>
      simp only [build, hfilter]
      rfl

/-- What a destination has by itself is never too large. -/
theorem maxCapacity_lt_iff :
    Manager.maxCapacity < (c.options env filter).capacity.getD c.destination.capacity
      ↔ c.Overlarge := by
  have hfile : ¬ Manager.maxCapacity < Manager.defaultCapacity := by decide
  have hsmall : ¬ Manager.maxCapacity < Destination.smallCapacity := by decide
  have hzero : ¬ Manager.maxCapacity < 0 := Nat.not_lt_zero _
  unfold Overlarge
  cases c with
  | file f =>
      show Manager.maxCapacity < f.bufferSize.getD Manager.defaultCapacity
        ↔ Manager.maxCapacity < f.bufferSize.getD 0
      cases f.bufferSize with
      | none => exact iff_of_false hfile hzero
      | some n => exact Iff.rfl
  | console f => exact iff_of_false hsmall hzero
  | socket f =>
      show Manager.maxCapacity < f.bufferSize.getD Destination.smallCapacity
        ↔ Manager.maxCapacity < f.bufferSize.getD 0
      cases f.bufferSize with
      | none => exact iff_of_false hsmall hzero
      | some n => exact Iff.rfl

/-- A factory fails just as its destination does. -/
theorem factory_eq_error_iff {d : Destination} {o : OutputOptions} {name : String}
    {w w' : Devices} {e : LogError} :
    d.factory o name w = (.error e, w') ↔ d.openSink w = (.error e, w') := by
  unfold Destination.factory
  rcases d.openSink w with ⟨e' | k, w''⟩
  · show (.error e', w'') = ((.error e, w') : Except LogError (Outlet Devices) × Devices)
      ↔ (.error e', w'') = ((.error e, w') : Except LogError (Sink Devices) × Devices)
    simp only [Prod.mk.injEq, Except.error.injEq]
  · exact ⟨nofun, nofun⟩

/-- An appender whose manager nobody has and whose destination cannot be
opened is told of, and nothing but the world is touched. -/
theorem build_leftOut {r : Registry Devices} {e : LogError} {w : Devices}
    (hfilter : FilterConfig.buildOptional c.filters = .ok filter) (hpath : ¬ c.Pathless)
    (hnone : r.entries.get? c.destination.managerName = none)
    (hopen : c.destination.openSink r.world = (.error e, w)) :
    c.build env r = (.error (.told (.managerCreation c.destination.managerName e.message)),
      [refusal c.destination.managerName e], { r with world := w }) := by
  have hover : ¬ c.destination.overflows (c.options env filter) r = true := by
    intro hover
    obtain ⟨-, ⟨k, w', hopen'⟩, -⟩ := Destination.overflows_iff.1 hover
    exact nomatch hopen.symm.trans hopen'
  rw [build_of_path hfilter hpath, if_neg hover]
  unfold Registry.acquire
  rw [hnone]
  dsimp only
  rw [factory_eq_error_iff.2 hopen]
  rfl

/-- Everything that can come of an appender: it is built; or nobody has its
manager and its destination cannot be opened; or it stops the whole. -/
theorem build_cases (env : Environment)
    (hfilter : FilterConfig.buildOptional c.filters = .ok filter) (r : Registry Devices) :
    (∃ a r', c.build env r = (.ok a, [], r'))
      ∨ (¬ c.Pathless ∧ r.entries.get? c.destination.managerName = none
        ∧ ∃ e w, c.destination.openSink r.world = (.error e, w))
      ∨ ∃ f, c.Stops r f := by
  by_cases hpath : c.Pathless
  · exact .inr (.inr ⟨_, .pathless hpath⟩)
  · rw [build_of_path hfilter hpath]
    by_cases hover : c.destination.overflows (c.options env filter) r = true
    · obtain ⟨hnone, ⟨k, w, hopen⟩, hlarge⟩ := Destination.overflows_iff.1 hover
      exact .inr (.inr ⟨_, .overflow hpath (maxCapacity_lt_iff.1 hlarge) hnone hopen⟩)
    · rw [if_neg hover]
      rcases r.acquire_cases c.destination.managerName
          (c.destination.factory (c.options env filter))
        with ⟨e, -, h⟩ | ⟨-, o, w, -, h⟩ | ⟨hnone, e, w, hmade, h⟩
      · exact .inl ⟨_, _, by rw [h]⟩
      · exact .inl ⟨_, _, by rw [h]⟩
      · exact .inr (.inl ⟨hpath, hnone, e, w, factory_eq_error_iff.1 hmade⟩)

/-- What stops at an appender is what its build fails with, and it is not
what would only leave the appender out. -/
theorem Stops.build_eq {r : Registry Devices} {f : Failure} (hstop : c.Stops r f)
    (hfilter : FilterConfig.buildOptional c.filters = .ok filter) (env : Environment) :
    (∃ r', c.build env r = (.error f, [], r'))
      ∧ ∀ name message, f ≠ .told (.managerCreation name message) := by
  cases hstop with
  | pathless hpath => exact ⟨⟨r, build_of_pathless hfilter hpath r⟩, nofun⟩
  | overflow hpath hlarge hnone hopen =>
      have hover : c.destination.overflows (c.options env filter) r = true :=
        Destination.overflows_iff.2 ⟨hnone, ⟨_, _, hopen⟩, maxCapacity_lt_iff.2 hlarge⟩
      refine ⟨⟨{ r with world := (c.destination.openSink r.world).2 }, ?_⟩, nofun⟩
      rw [build_of_path hfilter hpath, if_pos hover]

-- ============================================================== lineups

/-- How the appenders that are described are gone through: which of them
are built, what is reported of the others, and what registry is left. -/
inductive Lineup (env : Environment) : List AppenderConfig → Registry Devices →
    List Appender → List StatusEntry → Registry Devices → Prop
  | nil {r : Registry Devices} : Lineup env [] r [] [] r
  | built {c : AppenderConfig} {rest : List AppenderConfig} {r r₁ r₂ : Registry Devices}
      {a : Appender} {as : List Appender} {reports : List StatusEntry} :
      c.build env r = (.ok a, [], r₁) →
      Lineup env rest r₁ as reports r₂ →
      Lineup env (c :: rest) r (a :: as) reports r₂
  /-- It has a path, nobody has its manager, and its destination cannot be opened. -/
  | leftOut {c : AppenderConfig} {rest : List AppenderConfig} {r r₂ : Registry Devices}
      {e : LogError} {w : Devices} {as : List Appender} {reports : List StatusEntry} :
      ¬ c.Pathless →
      r.entries.get? c.destination.managerName = none →
      c.destination.openSink r.world = (.error e, w) →
      Lineup env rest { r with world := w } as reports r₂ →
      Lineup env (c :: rest) r as (refusal c.destination.managerName e
        :: c.leftOut (.managerCreation c.destination.managerName e.message) :: reports) r₂

/-- The filters of all these appenders can be built. -/
def Filtered (cs : List AppenderConfig) : Prop :=
  ∀ c ∈ cs, ∃ filter, FilterConfig.buildOptional c.filters = .ok filter

/-- Appenders that have been gone through only add to what was built. -/
theorem Lineup.buildAll_eq {before : List AppenderConfig} {r r' : Registry Devices}
    {as : List Appender} {reports : List StatusEntry} (hline : Lineup env before r as reports r')
    (hfilters : Filtered before) (rest : List AppenderConfig) : ∀ built : List Appender,
    buildAll env (before ++ rest) built r
      = ((buildAll env rest (built ++ as) r').1,
        reports ++ (buildAll env rest (built ++ as) r').2.1,
        (buildAll env rest (built ++ as) r').2.2) := by
  induction hline with
  | nil =>
      intro built
      rw [List.append_nil]
      rfl
  | @built c rest' r r₁ r₂ a as reports hbuild hline ih =>
      intro built
      rw [List.cons_append, buildAll, hbuild]
      dsimp only
      rw [ih fun c' hc' => hfilters c' (List.mem_cons_of_mem c hc'), List.append_assoc]
      rfl
  | @leftOut c rest' r r₂ e w as reports hpath hnone hopen hline ih =>
      intro built
      obtain ⟨filter, hfilter⟩ := hfilters c List.mem_cons_self
      rw [List.cons_append, buildAll, build_leftOut hfilter hpath hnone hopen]
      dsimp only
      rw [ih fun c' hc' => hfilters c' (List.mem_cons_of_mem c hc')]
      rfl

/-- What stops at an appender is what building them all fails with. -/
theorem Lineup.buildAll_stopped {before after : List AppenderConfig} {r r' : Registry Devices}
    {as : List Appender} {reports : List StatusEntry} {f : Failure}
    (hline : Lineup env before r as reports r') (hfilters : Filtered (before ++ c :: after))
    (hstop : c.Stops r' f) : (buildAll env (before ++ c :: after) [] r).1 = .error f := by
  obtain ⟨filter, hfilter⟩ := hfilters c (List.mem_append_right before List.mem_cons_self)
  obtain ⟨⟨r'', hbuild⟩, hother⟩ := hstop.build_eq hfilter env
  rw [hline.buildAll_eq fun c' hc' => hfilters c' (List.mem_append_left _ hc')]
  rw [buildAll, hbuild]
  split
  · next heq => cases heq
  · next heq =>
    cases heq
    exact absurd rfl (hother _ _)
  · next heq =>
    cases heq
    rfl

/-- All appenders are gone through, or one of them stops the whole. -/
theorem lineup_or_stops (env : Environment) : ∀ (cs : List AppenderConfig)
    (r : Registry Devices), Filtered cs →
    (∃ as reports r', Lineup env cs r as reports r')
      ∨ ∃ before c after as reports r' f, cs = before ++ c :: after
        ∧ Lineup env before r as reports r' ∧ c.Stops r' f
  | [], r, _ => .inl ⟨[], [], r, .nil⟩
  | c :: rest, r, hfilters => by
    obtain ⟨filter, hfilter⟩ := hfilters c List.mem_cons_self
    have hrest := fun r => lineup_or_stops env rest r
      fun c' hc' => hfilters c' (List.mem_cons_of_mem c hc')
    rcases build_cases env hfilter r
      with ⟨a, r₁, hbuild⟩ | ⟨hpath, hnone, e, w, hopen⟩ | ⟨f, hstop⟩
    · rcases hrest r₁
        with ⟨as, reports, r₂, hline⟩ | ⟨before, c', after, as, reports, r₂, f, rfl, hline, hstop⟩
      · exact .inl ⟨_, _, _, .built hbuild hline⟩
      · exact .inr ⟨c :: before, c', after, _, _, _, f, rfl, .built hbuild hline, hstop⟩
    · rcases hrest { r with world := w }
        with ⟨as, reports, r₂, hline⟩ | ⟨before, c', after, as, reports, r₂, f, rfl, hline, hstop⟩
      · exact .inl ⟨_, _, _, .leftOut hpath hnone hopen hline⟩
      · exact .inr ⟨c :: before, c', after, _, _, _, f, rfl, .leftOut hpath hnone hopen hline,
          hstop⟩
    · exact .inr ⟨[], c, rest, [], [], r, f, rfl, .nil, hstop⟩

end AppenderConfig

-- ============================================================== loggers

/-- The appenders that a logger has. -/
def Backend.members {α : Type} : Backend α → List α
  | sync none => []
  | sync (some (_, set)) => set.members
  | async _ set _ => set.members

namespace PipelineConfig

/-- A ring is to be made, and it is too large. -/
def Oversized (c : PipelineConfig) : Prop :=
  c.mode = .async ∧ Ring.maxSize < c.async.ringBufferSize

instance (c : PipelineConfig) : Decidable c.Oversized :=
  inferInstanceAs (Decidable (_ ∧ _))

/-- What is told of the ring that is too large. -/
def oversizedError (c : PipelineConfig) : LogError :=
  .invalidConfiguration "RingBuffer" ("size must be between 1 and " ++ Nat.repr Ring.maxSize
    ++ ", got " ++ Nat.repr c.async.ringBufferSize)

/-- What a description suffers from although it passes its check, and fails
with: what stops at one of its appenders, or a ring that is too large. -/
inductive Suffers (c : PipelineConfig) (env : Environment) (r₀ : Registry Devices) :
    Failure → Prop
  | stopped {before after : List AppenderConfig} {a : AppenderConfig} {as : List Appender}
      {reports : List StatusEntry} {r : Registry Devices} {f : Failure}
      (hall : c.appenders = before ++ a :: after)
      (hline : AppenderConfig.Lineup env before r₀ as reports r) (hstop : a.Stops r f) :
      Suffers c env r₀ f
  | oversized {as : List Appender} {reports : List StatusEntry} {r : Registry Devices}
      (hline : AppenderConfig.Lineup env c.appenders r₀ as reports r) (hlarge : c.Oversized) :
      Suffers c env r₀ (.told c.oversizedError)

/-- Files have paths, and no buffer is too large, nor is the ring. -/
structure Flawless (c : PipelineConfig) : Prop where
  path : ∀ a ∈ c.appenders, ¬ a.Pathless
  buffer : ∀ a ∈ c.appenders, ¬ a.Overlarge
  ring : ¬ c.Oversized

/-- A description without flaws suffers from nothing, whatever the registry. -/
theorem Flawless.not_suffers {c : PipelineConfig} (hc : c.Flawless) (env : Environment)
    (r : Registry Devices) (f : Failure) : ¬ c.Suffers env r f := by
  intro hf
  cases hf with
  | @stopped before after a _ _ _ _ hall hline hstop =>
      have ha : a ∈ c.appenders := hall ▸ List.mem_append_right before List.mem_cons_self
      cases hstop with
      | pathless hpath => exact hc.path a ha hpath
      | overflow hpath hlarge hnone hopen => exact hc.buffer a ha hlarge
  | oversized hline hlarge => exact hc.ring hlarge

end PipelineConfig

namespace Logger

variable {C K α : Type} {c : PipelineConfig} {env : Environment}

theorem startBackend_oversized (henv : env.vars.get? AsyncConfig.sizeVariable = none)
    (hlarge : c.Oversized) (filter : FilterChain) (as : List α) :
    startBackend env.vars (c.parts env filter as) = .error c.oversizedError := by
  unfold startBackend PipelineConfig.parts AsyncConfig.resolvedSize
  simp only [hlarge.1, henv, if_true]
  show (Ring.create c.async.ringBufferSize >>= _) = _
  unfold Ring.create
  rw [if_pos (.inr hlarge.2)]
  rfl

theorem startBackend_fitting (henv : env.vars.get? AsyncConfig.sizeVariable = none)
    (hsize : c.async.ringBufferSize ≠ 0) (hfits : ¬ c.Oversized) (filter : FilterChain)
    (as : List α) :
    ∃ backend, startBackend env.vars (c.parts env filter as) = .ok backend
      ∧ backend.members = as := by
  unfold startBackend PipelineConfig.parts AsyncConfig.resolvedSize
  cases hmode : c.mode with
  | sync => exact ⟨_, rfl, rfl⟩
  | async =>
      have hring : Ring.create c.async.ringBufferSize = .ok (.ofSize c.async.ringBufferSize) := by
        unfold Ring.create
        exact if_neg fun h => h.elim hsize fun hlarge => hfits ⟨hmode, hlarge⟩
      simp only [henv, if_true]
      refine ⟨.async (.onNewRing c.async.ringBufferSize) ⟨as⟩ none, ?_, rfl⟩
      show (Ring.create c.async.ringBufferSize >>= _) = _
      rw [hring]
      rfl

/-- A checked description whose appenders are stopped at fails with what
stops them. -/
theorem ofConfig_stopped (custom : AppenderOps C K) {site : Site (Host K)}
    (hc : c.validate = .ok ()) {f : Failure}
    (hall : (AppenderConfig.buildAll env c.appenders [] site.world.registry).1 = .error f) :
    (ofConfig custom env c site).1 = .error f := by
  obtain ⟨⟨filter, hfilter⟩, -, -⟩ := PipelineConfig.validate_eq_ok_iff.1 hc
  unfold ofConfig
  rw [hc]
  dsimp only
  rw [hfilter]
  dsimp only
  rw [hall]

/-- The appenders of a checked description have been gone through: the
logger has those that were built, unless its ring is too large. -/
theorem ofConfig_lineup (custom : AppenderOps C K) {site : Site (Host K)}
    (hc : c.validate = .ok ()) (henv : env.vars.get? AsyncConfig.sizeVariable = none)
    {as : List Appender} {reports : List StatusEntry} {r : Registry Devices}
    (hline : AppenderConfig.Lineup env c.appenders site.world.registry as reports r) :
    (c.Oversized ∧ (ofConfig custom env c site).1 = .error (.told c.oversizedError))
      ∨ ¬ c.Oversized ∧ ∃ settings backend,
        ofConfig custom env c site = (.ok (fresh settings backend),
          Site.report (unresolved (.expanding ⟨c.vars, env.vars⟩) c.properties)
            ⟨site.status.logAll reports, { site.world with registry := r }⟩)
        ∧ backend.members = as.map .managed := by
  obtain ⟨⟨filter, hfilter⟩, hfilters, hsize⟩ := PipelineConfig.validate_eq_ok_iff.1 hc
  have hrun : AppenderConfig.buildAll env c.appenders [] site.world.registry
      = (.ok as, reports, r) := by
    have hadded := hline.buildAll_eq hfilters [] []
    rwa [AppenderConfig.buildAll, List.append_nil, List.append_nil, List.nil_append] at hadded
  unfold ofConfig
  rw [hc]
  dsimp only
  rw [hfilter]
  dsimp only
  rw [hrun]
  dsimp only
  unfold build
  by_cases hlarge : c.Oversized
  · refine .inl ⟨hlarge, ?_⟩
    rw [startBackend_oversized henv hlarge]
    rfl
  · obtain ⟨backend, hstart, hmembers⟩ := startBackend_fitting henv hsize hlarge filter
      (as.map (MixedAppender.managed (C := C)))
    refine .inr ⟨hlarge,
      settingsOf env.vars (c.parts env filter (as.map (MixedAppender.managed (C := C)))),
      backend, ?_, hmembers⟩
    rw [hstart]
    rfl

/-- Without a size in the environment, a description that has passed its
check fails with what it suffers from and with nothing else; if it suffers
from nothing it becomes a logger, whose appenders are those whose managers
were there or could be opened, in order; and without flaws it suffers from
nothing. -/
theorem ofConfig_of_validate (custom : AppenderOps C K) (env : Environment) (c : PipelineConfig)
    (site : Site (Host K)) (hc : c.validate = .ok ())
    (henv : env.vars.get? AsyncConfig.sizeVariable = none) :
    (∀ f, (ofConfig custom env c site).1 = .error f ↔ c.Suffers env site.world.registry f)
      ∧ ((∀ f, ¬ c.Suffers env site.world.registry f) →
        ∃ settings backend as reports r,
          AppenderConfig.Lineup env c.appenders site.world.registry as reports r
            ∧ ofConfig custom env c site = (.ok (fresh settings backend),
              Site.report (unresolved (.expanding ⟨c.vars, env.vars⟩) c.properties)
                ⟨site.status.logAll reports, { site.world with registry := r }⟩)
            ∧ backend.members = as.map .managed)
      ∧ (c.Flawless → ∀ f, ¬ c.Suffers env site.world.registry f) := by
  have hfilters := (PipelineConfig.validate_eq_ok_iff.1 hc).2.1
  -- what it suffers from is what it fails with
  have hsuffers : ∀ f, c.Suffers env site.world.registry f →
      (ofConfig custom env c site).1 = .error f := by
    intro f hf
    cases hf with
    | stopped hall hline hstop =>
        apply ofConfig_stopped custom hc
        rw [hall] at hfilters ⊢
        exact hline.buildAll_stopped hfilters hstop
    | oversized hline hlarge =>
        rcases ofConfig_lineup custom hc henv hline with ⟨-, hfailed⟩ | ⟨hfits, -⟩
        · exact hfailed
        · exact absurd hlarge hfits
  rcases AppenderConfig.lineup_or_stops env c.appenders site.world.registry hfilters
    with ⟨as, reports, r, hline⟩ | ⟨before, a, after, as, reports, r, f, hall, hline, hstop⟩
  · rcases ofConfig_lineup custom hc henv hline
      with ⟨hlarge, hfailed⟩ | ⟨hfits, settings, backend, hbuilt, hmembers⟩
    · have hf := PipelineConfig.Suffers.oversized hline hlarge
      refine ⟨fun f => ⟨fun h => ?_, hsuffers f⟩, fun hnone => absurd hf (hnone _),
        fun hflawless => hflawless.not_suffers env _⟩
      cases hfailed.symm.trans h
      exact hf
    · refine ⟨fun f => ⟨fun h => ?_, hsuffers f⟩, fun _ => ⟨settings, backend, as, reports, r,
        hline, hbuilt, hmembers⟩, fun hflawless => hflawless.not_suffers env _⟩
      rw [hbuilt] at h
      cases h
  · have hf := PipelineConfig.Suffers.stopped hall hline hstop
    refine ⟨fun f' => ⟨fun h => ?_, hsuffers f'⟩, fun hnone => absurd hf (hnone _),
      fun hflawless => hflawless.not_suffers env _⟩
    cases (hsuffers _ hf).symm.trans h
    exact hf

namespace Sample

open Samples (onConsole onFile)

def bare : Environment := ⟨.empty, false⟩

def blank : Site (Host Unit) := ⟨.silent, .empty .initial, ()⟩

/-- Nobody listens at the address. -/
def onSocket : AppenderConfig :=
  .socket ⟨none, "127.0.0.1:9", none, none, none, .text, .iso8601, []⟩

def mixed : PipelineConfig :=
  { PipelineConfig.standard with
    appenders := [onConsole [.threshold (some "warn") none (some "deny")], onSocket,
      onFile "app.log" none] }

def pathless : PipelineConfig :=
  { PipelineConfig.standard with mode := .sync, appenders := [onFile "" none] }

def oversized : PipelineConfig :=
  { PipelineConfig.standard with async := { AsyncConfig.standard with ringBufferSize := 16777217 } }

/-- The buffer would be twice the largest. -/
def overlarge : PipelineConfig :=
  { PipelineConfig.standard with
    mode := .sync
    appenders := [onFile "x.log" (some 18446744073709551615)] }

end Sample

open LogPipeline.Logger.Sample in
theorem ofConfig_of_validate_sample : mixed.validate = .ok ()
    ∧ bare.vars.get? AsyncConfig.sizeVariable = none ∧ mixed.Flawless
    ∧ ∃ settings backend as reports r,
      AppenderConfig.Lineup bare mixed.appenders blank.world.registry as reports r
        ∧ ofConfig Samples.noAppenders bare mixed blank = (.ok (fresh settings backend),
          Site.report (unresolved (.expanding ⟨mixed.vars, bare.vars⟩) mixed.properties)
            ⟨blank.status.logAll reports, { blank.world with registry := r }⟩)
        ∧ backend.members = as.map .managed := by
  have hvalid : mixed.validate = .ok () := rfl
  have hvars : bare.vars.get? AsyncConfig.sizeVariable = none := rfl
  have hflawless : mixed.Flawless := ⟨by decide, by decide, by decide⟩
  obtain ⟨-, hlogger, hnone⟩ :=
    ofConfig_of_validate Samples.noAppenders bare mixed blank hvalid hvars
  exact ⟨hvalid, hvars, hflawless, hlogger (hnone hflawless)⟩

open LogPipeline.Logger.Sample in
/-- All three flaws pass the check, and each of them costs the whole logger. -/
theorem checked_and_refused :
    (pathless.validate = .ok ()
      ∧ (ofConfig Samples.noAppenders bare pathless blank).1
        = .error (.told (.invalidConfiguration "FileAppender" "path must not be empty")))
    ∧ (oversized.validate = .ok ()
      ∧ (ofConfig Samples.noAppenders bare oversized blank).1
        = .error (.told (.invalidConfiguration "RingBuffer"
          "size must be between 1 and 16777216, got 16777217")))
    ∧ overlarge.validate = .ok ()
      ∧ (ofConfig Samples.noAppenders bare overlarge blank).1
        = .error (.panicked "capacity overflow") :=
  ⟨⟨rfl, rfl⟩, ⟨rfl, rfl⟩, rfl, rfl⟩

end Logger

end LogPipeline
