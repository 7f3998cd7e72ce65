/-
How admission goes with severity. Answers are ordered by how much they
speak for an event: deny, neutral, accept (`FilterResult.favor`). A
threshold filter is `Graded` if what matches it is not answered worse than
what does not, and a chain is if its members are, however deep.

In general a chain does not keep such an order, as the first decisive
answer wins whatever comes after it. Here it does (`favor_first`): a
member that denies the severer event has denied the other one before, and
one that passes on the severer event has not accepted the other. So the
induction over the tree goes through (`favor_ask`). A neutral policy keeps
the order as well (`decide_of_favor`), and what a logger admits it admits
of any severer level (`severer_admitted`).
-/
import LogPipeline.Proofs.Logger.Guarding

namespace LogPipeline

/-- The same event, of another level. -/
def Query.withLevel (level : Level) : Query → Query
  | text logger _ marker raw params => text logger level marker raw params
  | object logger _ marker shown thrown => object logger level marker shown thrown
  | message logger _ marker msg thrown => message logger level marker msg thrown
  | event slot => event { slot with level }

@[simp] theorem Query.level_withLevel (level : Level) (q : Query) :
    (q.withLevel level).level = level := by
  cases q <;> rfl

@[simp] theorem Query.marker_withLevel (level : Level) (q : Query) :
    (q.withLevel level).marker = q.marker := by
  cases q <;> rfl

/-- The same call, with another level. -/
def LoggingCall.withLevel (level : Level) : LoggingCall → LoggingCall
  | message caller _ marker msg thrown => message caller level marker msg thrown
  | pattern caller _ marker text params => pattern caller level marker text params

@[simp] theorem LoggingCall.level_withLevel (level : Level) (c : LoggingCall) :
    (c.withLevel level).level = level := by
  cases c <;> rfl

@[simp] theorem LoggingCall.marker_withLevel (level : Level) (c : LoggingCall) :
    (c.withLevel level).marker = c.marker := by
  cases c <;> rfl

-- ============================================================= answers

namespace FilterResult

/-- How much an answer speaks for recording the event. -/
def favor : FilterResult → Nat
  | deny => 0
  | neutral => 1
  | accept => 2

/-- No answer is more favourable than to accept. -/
theorem favor_le_accept (r : FilterResult) : r.favor ≤ accept.favor := by
  cases r <;> decide

/-- Of two answers the first decisive one, where both may get better. -/
theorem favor_first {r r' s s' : FilterResult} (hr : r.favor ≤ r'.favor)
    (hs : s.favor ≤ s'.favor) :
    (if r.isDecisive then r else s).favor ≤ (if r'.isDecisive then r' else s').favor := by
  cases r with
  | deny => exact Nat.zero_le _
  | neutral =>
      cases r' with
      | deny => exact absurd hr (by decide)
      | neutral => exact hs
      | accept => exact favor_le_accept s
  | accept =>
      cases r' with
      | deny => exact absurd hr (by decide)
      | neutral => exact absurd hr (by decide)
      | accept => exact Nat.le_refl _

end FilterResult

/-- If a match is answered no worse than a mismatch, whoever matches more is
answered no worse. -/
theorem Answers.favor_pick {a : Answers} (ha : a.onMismatch.favor ≤ a.onMatch.favor)
    {matched matched' : Bool} (h : matched = true → matched' = true) :
    (a.pick matched).favor ≤ (a.pick matched').favor := by
  cases matched with
  | true => exact Nat.le_of_eq (congrArg (fun b => (a.pick b).favor) (h rfl).symm)
  | false =>
      cases matched' with
      | true => exact ha
      | false => exact Nat.le_refl _

-- ============================================================== levels

namespace Level

variable {a b c : Level}

/-- Being at least as severe carries over from one level to the next. -/
theorem isAtLeastAsSpecificAs_trans (hab : a.isAtLeastAsSpecificAs b = true)
    (hbc : b.isAtLeastAsSpecificAs c = true) : a.isAtLeastAsSpecificAs c = true :=
  decide_eq_true (Nat.le_trans (of_decide_eq_true hab) (of_decide_eq_true hbc))

end Level

/-- A policy does not refuse the severer one of two events that are answered
in order. -/
theorem NeutralPolicy.decide_of_favor {p : NeutralPolicy} {r r' : FilterResult} {a b : Level}
    (hab : a.isAtLeastAsSpecificAs b = true) (hr : r.favor ≤ r'.favor)
    (hb : p.decide r b = true) : p.decide r' a = true := by
  cases r' with
  | accept => rfl
  | deny =>
      cases r with
      | deny => exact hb
      | neutral => exact absurd hr (by decide)
      | accept => exact absurd hr (by decide)
  | neutral =>
      cases r with
      | deny => cases hb
      | accept => exact absurd hr (by decide)
      | neutral =>
          cases p with
          | record => rfl
          | discard => exact hb
          | atLeast threshold => exact Level.isAtLeastAsSpecificAs_trans hab hb

-- ============================================================= filters

namespace Filter

mutual

/-- The tree has threshold filters only, and none of them answers what
matches it worse than what does not. -/
def Graded : Filter → Prop
  | threshold _ a => a.onMismatch.favor ≤ a.onMatch.favor
  | marker .. => False
  | chain members => GradedAll members

def GradedMember : FilterMember → Prop
  | .builtin f => Graded f
  | .custom _ => False

def GradedAll : List FilterMember → Prop
  | [] => True
  | f :: fs => GradedMember f ∧ GradedAll fs

end

/-- A threshold with the default answers is graded, whatever its level. -/
theorem graded_default (level : Level) : Graded (.threshold level defaultAnswers) :=
  Nat.zero_le _

mutual

/-- Only filters that come with the library can be graded. -/
theorem Graded.builtin : ∀ {f : Filter}, f.Graded → f.Builtin
  | threshold .., _ => trivial
  | marker .., h => h.elim
  | chain _, h => GradedAll.builtin h

theorem GradedMember.builtin : ∀ {f : FilterMember}, GradedMember f → BuiltinMember f
  | .builtin _, h => Graded.builtin h
  | .custom _, h => h.elim

/-- Graded members are all built in. -/
theorem GradedAll.builtin : ∀ {fs : List FilterMember}, GradedAll fs → BuiltinAll fs
  | [], _ => trivial
  | _ :: _, h => ⟨GradedMember.builtin h.1, GradedAll.builtin h.2⟩

end

section

variable {q q' : Query}

mutual

/-- The severer of two events is not answered worse. -/
theorem favor_ask (hlevel : q'.level.isAtLeastAsSpecificAs q.level = true) :
    ∀ f : Filter, f.Graded → (f.ask q).favor ≤ (f.ask q').favor
  | threshold _ _, h =>
    Answers.favor_pick h fun hmatch => Level.isAtLeastAsSpecificAs_trans hlevel hmatch
  | marker .., h => h.elim
  | chain members, h => favor_askAll hlevel members h

/-- The more severe an event is, the more a graded member favours it. -/
theorem favor_askMember (hlevel : q'.level.isAtLeastAsSpecificAs q.level = true) :
    ∀ f : FilterMember, GradedMember f → (askMember q f).favor ≤ (askMember q' f).favor
  | .builtin f, h => favor_ask hlevel f h
  | .custom _, h => h.elim

/-- A chain is answered at its first decisive member; at the severer level
none before it has become less favourable. -/
theorem favor_askAll (hlevel : q'.level.isAtLeastAsSpecificAs q.level = true) :
    ∀ fs : List FilterMember, GradedAll fs → (askAll q fs).favor ≤ (askAll q' fs).favor
  | [], _ => Nat.le_refl _
  | f :: fs, h => by
    unfold askAll
    exact FilterResult.favor_first (favor_askMember hlevel f h.1) (favor_askAll hlevel fs h.2)

end

end

end Filter

-- ============================================================= loggers

namespace Logger

variable {α S : Type} {a b : Level}

/-- A logger that takes an event at a level takes it at a severer one. Where
the filters are neutral the policy decides, and it is graded as well. -/
theorem admits_severer {s : LoggerSettings} (hgraded : Filter.GradedAll s.filter)
    (hab : a.isAtLeastAsSpecificAs b = true) (q : Query)
    (hb : admits s (q.withLevel b) = true) : admits s (q.withLevel a) = true := by
  have hlevel : (q.withLevel a).level.isAtLeastAsSpecificAs (q.withLevel b).level = true := by
    rw [Query.level_withLevel, Query.level_withLevel]
    exact hab
  exact NeutralPolicy.decide_of_favor hlevel (Filter.favor_askAll hlevel s.filter hgraded) hb

/-- A logger whose filters are graded threshold filters, chained to any
depth, admits of a severer level what it admits of another, whatever its
neutral policy: in whatever shape the filters are asked, when it is only
asked whether a level is enabled, and when the call is made, which is not
counted as filtered then. Filters with the answers that they have if none
are given are graded. -/
theorem severer_admitted (ops : AppenderOps α S) (l : Logger α) (site : Site S)
    (hgraded : Filter.GradedAll l.settings.filter) (hab : a.isAtLeastAsSpecificAs b = true) :
    (∀ q : Query, admits l.settings (q.withLevel b) = true →
        admits l.settings (q.withLevel a) = true)
      ∧ (∀ marker, l.isEnabled b marker = true → l.isEnabled a marker = true)
      ∧ (∀ c : LoggingCall,
          (l.make ops (c.withLevel b) site).1.metrics.filtered = l.metrics.filtered →
          (l.make ops (c.withLevel a) site).1.metrics.filtered = l.metrics.filtered)
      ∧ ∀ level, Filter.Graded (.threshold level Filter.defaultAnswers) := by
  have henabled : ∀ marker, l.isEnabled b marker = true → l.isEnabled a marker = true :=
    fun marker => admits_severer hgraded hab (.text l.settings.name b marker "" [])
  refine ⟨admits_severer hgraded hab, henabled, fun c hb => ?_, Filter.graded_default⟩
  have hbuiltin := Filter.GradedAll.builtin hgraded
  rw [filtered_make hbuiltin, LoggingCall.level_withLevel, LoggingCall.marker_withLevel] at hb ⊢
  cases hcounted : l.isEnabled b c.marker with
  | true => rw [henabled c.marker hcounted, if_pos rfl, Nat.add_zero]
  | false =>
      rw [hcounted] at hb
      exact absurd hb (Nat.succ_ne_self _)

namespace Graded

/-- Takes what is severer than an error, and passes on warnings. -/
def filter : FilterChain :=
  [.builtin (.chain [.builtin (.threshold .error ⟨.accept, .neutral⟩)]),
    .builtin (.threshold .warn Filter.defaultAnswers)]

/-- Of what the filters are neutral about, information is recorded. -/
def logger : Logger Unit :=
  { Audited.logger with settings := { Audited.logger.settings with
      filter, neutralPolicy := .atLeast .info } }

/-- The inner threshold accepts and the outer one denies; both are graded. -/
theorem graded_filter : Filter.GradedAll filter :=
  ⟨⟨Nat.le_succ 1, trivial⟩, Filter.graded_default .warn, trivial⟩

end Graded

open LogPipeline.Logger.Graded in
theorem severer_admitted_sample :
    Filter.GradedAll logger.settings.filter
      ∧ Level.isAtLeastAsSpecificAs .fatal .warn = true
      ∧ admits logger.settings (.event { EventSlot.fresh with level := .warn }) = true
      ∧ admits logger.settings (.event { EventSlot.fresh with level := .fatal }) = true
      ∧ logger.isEnabled .info none = false := by
  obtain ⟨hadmits, -⟩ := severer_admitted (a := .fatal) (b := .warn) Audited.keeper logger
    Audited.site Graded.graded_filter rfl
  have hwarn : admits logger.settings (.event { EventSlot.fresh with level := .warn }) = true := by
    decide +kernel
  exact ⟨Graded.graded_filter, rfl, hwarn, hadmits (.event EventSlot.fresh) hwarn,
    by decide +kernel⟩

end Logger

end LogPipeline
