/-
Asking before logging. A logger says whether it would record an event of
some level and marker, and a text can be left unmade if it would not. The
question put to the filters is then about a text without words and
without params, where a call puts its own; filters that come with the
library look at the level and the marker only (`admits_congr`), so the
answers agree (`filtered_make`).

A text that is not logged because nobody would record it is not counted
as filtered either. That is the whole difference between asking first and
calling (`mirrored_logIfEnabled`), and as nobody looks at that counter,
it remains the whole difference however long the run is (`guard_agrees`).
-/
import LogPipeline.Proofs.Filter.Verdicts
import LogPipeline.Proofs.Logger.Keeping
import LogPipeline.Proofs.Logger.Mirroring
import LogPipeline.Proofs.Samples

namespace LogPipeline

variable {α S : Type}

namespace LoggingCall

def level : LoggingCall → Level
  | message _ level _ _ _ | pattern _ level _ _ _ => level

def marker : LoggingCall → Option Marker
  | message _ _ marker _ _ | pattern _ _ marker _ _ => marker

end LoggingCall

namespace Logger

variable {ops : AppenderOps α S} {l : Logger α} {site : Site S}

-- ============================================================== admission

/-- Filters that come with the library look at the level and the marker only. -/
theorem admits_congr {s : LoggerSettings} (hfilter : Filter.BuiltinAll s.filter) {q q' : Query}
    (hlevel : q'.level = q.level) (hmarker : q'.marker = q.marker) :
    admits s q' = admits s q := by
  unfold admits FilterChain.ask
  rw [Filter.askAll_eq_verdictOf q' _ hfilter, Filter.askAll_eq_verdictOf q _ hfilter, hlevel,
    hmarker]

/-- A call asks about its own level and marker. -/
theorem make_query (ops : AppenderOps α S) (c : LoggingCall) (l : Logger α) (site : Site S) :
    ∃ q v, l.make ops c site = l.submit ops q v site
      ∧ q.level = c.level ∧ q.marker = c.marker := by
  cases c <;> exact ⟨_, _, rfl, rfl, rfl⟩

/-- What is admitted is not counted as filtered, whatever becomes of it. -/
theorem filtered_publish (v : EventValues) :
    (l.publish ops v site).1.metrics.filtered = l.metrics.filtered := by
  unfold publish
  split
  · rfl
  · split
    · unfold publishAsync
      split
      · rfl
      · split <;> rfl
    · rfl
    · unfold publishSync
      dsimp only
      cases Outcome.ofExcept (AppenderSet.deliver _ _ _ _ _).result <;> rfl

/-- A call is counted as filtered if its level and marker are not enabled. -/
theorem filtered_make (hfilter : Filter.BuiltinAll l.settings.filter) (c : LoggingCall) :
    (l.make ops c site).1.metrics.filtered
      = l.metrics.filtered + if l.isEnabled c.level c.marker then 0 else 1 := by
  obtain ⟨q, v, hmake, hlevel, hmarker⟩ := make_query ops c l site
  have hadmits : admits l.settings q = l.isEnabled c.level c.marker :=
    admits_congr hfilter hlevel hmarker
  rw [hmake]
  unfold submit
  rw [hadmits]
  split
  · exact filtered_publish v
  · rfl

/-- What is enabled stays enabled, as long as the settings are the same. -/
theorem isEnabled_congr {l' : Logger α} (h : l'.settings = l.settings) (level : Level)
    (marker : Option Marker) : l'.isEnabled level marker = l.isEnabled level marker := by
  unfold isEnabled
  rw [h]

-- ============================================================ side by side

theorem more_more (j k : Nat) (l : Logger α) : (l.more j).more k = l.more (j + k) := by
  unfold more Metrics.more
  dsimp only
  rw [Nat.add_assoc]

/-- On one kind of site, to be mirrored is to be the same but for a counter. -/
theorem mirrored_eq {k : Nat} {o o' : Logger α × Site S} :
    Mirrored Eq k o o' ↔ o' = (o.1.more k, o.2) := by
  constructor
  · rintro ⟨hlogger, hstatus, hworld⟩
    obtain ⟨l', status, world⟩ := o'
    obtain ⟨l, status', world'⟩ := o
    dsimp only at hlogger hstatus hworld ⊢
    rw [hlogger, hstatus, hworld]
  · rintro rfl
    exact ⟨rfl, rfl, rfl⟩

/-- Whether one asks first makes a difference to one counter. -/
theorem mirrored_logIfEnabled (ops : AppenderOps α S) (site : Site S)
    (hfilter : Filter.BuiltinAll l.settings.filter) (caller : Caller) (level : Level)
    (marker : Option Marker) (text : Unit → String) :
    l.log ops caller level marker (.simple (text ())) none site
      = ((l.logIfEnabled ops caller level marker text site).1.more
          (if l.isEnabled level marker then 0 else 1),
        (l.logIfEnabled ops caller level marker text site).2) := by
  have hadmits : admits l.settings (.message l.settings.name level marker (.simple (text ())) none)
      = l.isEnabled level marker := admits_congr hfilter rfl rfl
  unfold logIfEnabled
  cases henabled : l.isEnabled level marker with
  | true => rfl
  | false =>
      unfold log submit
      rw [hadmits, henabled]
      rfl

end Logger

/-- What happens to a logger, where some texts are only made if their level
is enabled. -/
inductive TextMove (S : Type) where
  | text (caller : Caller) (level : Level) (marker : Option Marker) (words : Unit → String)
  | other (move : LoggerMove S)

namespace TextMove

/-- The same, where texts are made and logged without asking. -/
def called : TextMove S → LoggerMove S
  | text caller level marker words =>
      .log (.message caller level marker (.simple (words ())) none)
  | other move => move

/-- A text that nobody would record. -/
def isIdle (l : Logger α) : TextMove S → Bool
  | text _ level marker _ => !l.isEnabled level marker
  | other _ => false

end TextMove

namespace Logger

variable {l : Logger α}

def actText (ops : AppenderOps α S) (move : TextMove S) (l : Logger α) (site : Site S) :
    Logger α × Site S :=
  match move with
  | .text caller level marker text => l.logIfEnabled ops caller level marker text site
  | .other move => l.act ops move site

/-- Moves, one after another. -/
def actTexts (ops : AppenderOps α S) :
    List (TextMove S) → Logger α → Site S → Logger α × Site S
  | [], l, site => (l, site)
  | move :: rest, l, site =>
      let (l, site) := l.actText ops move site
      actTexts ops rest l site

theorem settings_actText (ops : AppenderOps α S) (move : TextMove S) (site : Site S) :
    (l.actText ops move site).1.settings = l.settings := by
  cases move with
  | text caller level marker text =>
      show (l.logIfEnabled ops caller level marker text site).1.settings = l.settings
      unfold logIfEnabled
      split
      · exact settings_act ops (.log (.message caller level marker (.simple (text ())) none)) l site
      · rfl
  | other move => exact settings_act ops move l site

/-- A move made without asking first, beside more events counted as filtered. -/
theorem act_called (ops : AppenderOps α S) (hfilter : Filter.BuiltinAll l.settings.filter)
    (j : Nat) (move : TextMove S) (site : Site S) :
    (l.more j).act ops move.called site
      = ((l.actText ops move site).1.more (j + if move.isIdle l then 1 else 0),
        (l.actText ops move site).2) := by
  have hsame : ∀ move : LoggerMove S,
      (l.more j).act ops move site = ((l.act ops move site).1.more j, (l.act ops move site).2) := by
    intro move
    have hsite : site.Mirrored Eq site := ⟨rfl, rfl⟩
    have hmirror := mirrored_act (k := j) (R := Eq) (g := id) (AppenderOps.Mirror.refl ops)
      (fun f site site' hs => by
        obtain ⟨status, world⟩ := site
        obtain ⟨status', world'⟩ := site'
        obtain ⟨rfl, rfl⟩ : status' = status ∧ world = world' := ⟨hs.status_eq, hs.world⟩
        exact ⟨rfl, rfl⟩) move l hsite
    rw [show move.onSite id = move by cases move <;> rfl] at hmirror
    exact mirrored_eq.1 hmirror
  cases move with
  | other move => exact hsame move
  | text caller level marker text =>
      rw [hsame]
      have hlog := mirrored_logIfEnabled ops site hfilter caller level marker text
      obtain ⟨o, ho⟩ : ∃ o, o = l.logIfEnabled ops caller level marker text site := ⟨_, rfl⟩
      have hidle :
          (if TextMove.isIdle l (.text caller level marker text : TextMove S) then 1 else 0)
            = if l.isEnabled level marker then 0 else 1 := by
        show (if !l.isEnabled level marker then 1 else 0) = _
        cases l.isEnabled level marker <;> rfl
      show ((l.log ops caller level marker (.simple (text ())) none site).1.more j,
        (l.log ops caller level marker (.simple (text ())) none site).2) = _
      rw [hidle, hlog, more_more, Nat.add_comm]
      rfl

theorem actAll_called (ops : AppenderOps α S) (moves : List (TextMove S)) {l₀ : Logger α}
    (hfilter : Filter.BuiltinAll l₀.settings.filter) (hsettings : l.settings = l₀.settings)
    (j : Nat) (site : Site S) :
    (l.more j).actAll ops (moves.map TextMove.called) site
      = ((l.actTexts ops moves site).1.more (j + moves.countP (TextMove.isIdle l₀)),
        (l.actTexts ops moves site).2) := by
  induction moves generalizing l j site with
  | nil => rfl
  | cons move rest ih =>
      have hmove := act_called ops (l := l) (hsettings ▸ hfilter) j move site
      have hidle : move.isIdle l = move.isIdle l₀ := by
        cases move with
        | text caller level marker text =>
            exact congrArg (!·) (isEnabled_congr hsettings level marker)
        | other move => rfl
      rw [hidle] at hmove
      show (((l.more j).act ops move.called site).1.actAll ops (rest.map TextMove.called)
        ((l.more j).act ops move.called site).2) = _
      rw [hmove, ih ((settings_actText ops move site).trans hsettings), List.countP_cons,
        Nat.add_right_comm, Nat.add_assoc]
      rfl

/-- Where all filters come with the library, a call is counted as filtered
just if its level and marker are not enabled, whether it logs a message, an
error or a pattern. So it makes no difference whether texts are logged if
they are enabled or without asking, however the calls lie among all else
that happens: everything comes to the same but for the texts that are
counted as filtered, and both runs answer alike. -/
theorem guard_agrees (ops : AppenderOps α S) (l : Logger α) (site : Site S)
    (hfilter : Filter.BuiltinAll l.settings.filter) :
    (∀ c : LoggingCall,
      (l.isEnabled c.level c.marker = true
        ↔ (l.make ops c site).1.metrics.filtered = l.metrics.filtered)
      ∧ (l.isEnabled c.level c.marker = false
        ↔ (l.make ops c site).1.metrics.filtered = l.metrics.filtered + 1))
    ∧ ∀ moves : List (TextMove S),
      let asked := l.actTexts ops moves site
      let called := l.actAll ops (moves.map TextMove.called) site
      called = (asked.1.more (moves.countP (TextMove.isIdle l)), asked.2)
        ∧ (called.1.flush ops called.2).1 = (asked.1.flush ops asked.2).1
        ∧ ∀ timeout, (called.1.shutdown ops timeout called.2).1
          = (asked.1.shutdown ops timeout asked.2).1 := by
  constructor
  · intro c
    rw [filtered_make hfilter c]
    cases l.isEnabled c.level c.marker <;> simp
  · intro moves asked called
    have hcalled : called = (asked.1.more (moves.countP (TextMove.isIdle l)), asked.2) := by
      have hall := actAll_called ops moves hfilter rfl 0 site
      rw [Nat.zero_add] at hall
      exact hall
    have hsite : Site.Mirrored Eq asked.2 asked.2 := ⟨rfl, rfl⟩
    refine ⟨hcalled, ?_, fun timeout => ?_⟩
    · rw [hcalled]
      exact (answered_flush (.refl ops) asked.1 hsite).answer_eq
    · rw [hcalled]
      exact (answered_shutdown (.refl ops) timeout asked.1 hsite).answer_eq

namespace Audited

open Samples (audits caller)

/-- An appender that keeps what it is shown. -/
def keeper : AppenderOps Unit (List EventSlot) := Samples.appender "keeper" fun c kept =>
  (.done, match c with
    | .append e _ => kept ++ [e]
    | .flush | .stop => kept)

theorem builtin_audits : Filter.BuiltinAll audits :=
  ⟨⟨trivial, trivial⟩, trivial, trivial⟩

def logger : Logger Unit := Samples.asynchronous audits [()]

def site : Site (List EventSlot) := Samples.site []

/-- Two texts of which the filters take one, and a shutdown. -/
def moves : List (TextMove (List EventSlot)) :=
  [.text caller .info none fun _ => "all is well", .text caller .error none fun _ => "disk full",
    .other (.shutdown 0)]

end Audited

open Audited in
theorem guard_agrees_sample :
    let asked := logger.actTexts keeper moves site
    let called := logger.actAll keeper (moves.map TextMove.called) site
    let c := LoggingCall.pattern Samples.caller .info (some Samples.login) "user {}" ["root"]
    Filter.BuiltinAll logger.settings.filter
      ∧ (logger.isEnabled c.level c.marker = true
        ↔ (logger.make keeper c site).1.metrics.filtered = logger.metrics.filtered)
      ∧ called = (asked.1.more 1, asked.2)
      ∧ called.2.world.length = 1 := by
  intro asked called c
  obtain ⟨hcounted, hruns⟩ := guard_agrees keeper logger site builtin_audits
  have hidle : moves.countP (TextMove.isIdle logger) = 1 := by decide +kernel
  obtain ⟨hcalled, -⟩ := hruns moves
  rw [hidle] at hcalled
  exact ⟨builtin_audits, (hcounted c).1, hcalled, by decide +kernel⟩

end Logger

end LogPipeline
