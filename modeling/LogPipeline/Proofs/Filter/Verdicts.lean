/-
A filter tree is its leaves. However chains are nested, the answer to a
question is the first decisive one among the answers of the leaves, read
from left to right (`ask_eq_verdict`). The induction is over the tree; a
member that is a chain with nothing decisive in it is passed over like a
neutral leaf, so the leaves of a chain are those of its members, one
after another (`verdictOf_append`).

A leaf looks at the level or at the marker and at nothing else, and both
are the same in each of the four shapes a question can have. So it makes
no difference in which shape a filter is asked about an event
(`ask_shapes`). Members that an application brings may look at all of a
question, and are left out (`Builtin`).
-/
import LogPipeline.Filter
import LogPipeline.Proofs.Samples

namespace LogPipeline

-- ============================================================= markers

namespace Marker

/-- The name stands somewhere in the tree of the marker and its ancestors. -/
inductive Carries (key : String) : Marker → Prop
  | self {parents : List Marker} : Carries key (mk key parents)
  | ancestor {name : String} {parents : List Marker} {p : Marker} :
      p ∈ parents → Carries key p → Carries key (mk name parents)

/-- The search through the parents finds only markers that carry the name. -/
theorem carries_of_isInstanceOf {key : String} :
    ∀ {m : Marker}, m.isInstanceOf key = true → m.Carries key
  | mk name parents, h => by
    rw [isInstanceOf, Bool.or_eq_true, beq_iff_eq, List.any_eq_true] at h
    rcases h with rfl | ⟨⟨p, hp⟩, -, h⟩
    · exact .self
    · exact .ancestor hp (carries_of_isInstanceOf h)

/-- The search misses none of them, by induction on how the name is
carried. -/
theorem isInstanceOf_of_carries {key : String} {m : Marker} (h : m.Carries key) :
    m.isInstanceOf key = true := by
  induction h with
  | self => rw [isInstanceOf, beq_self_eq_true, Bool.true_or]
  | ancestor hp _ ih =>
    rw [isInstanceOf, Bool.or_eq_true, List.any_eq_true]
    exact .inr ⟨⟨_, hp⟩, List.mem_attach _ _, ih⟩

/-- The search through parents and their parents decides whether a marker
carries a name. -/
theorem isInstanceOf_iff {key : String} {m : Marker} :
    m.isInstanceOf key = true ↔ m.Carries key :=
  ⟨carries_of_isInstanceOf, isInstanceOf_of_carries⟩

end Marker

-- ============================================================== leaves

/-- A filter without members. -/
inductive Leaf where
  | threshold (level : Level) (answers : Answers)
  | marker (name : String) (answers : Answers)
  deriving DecidableEq

namespace Leaf

def answers : Leaf → Answers
  | threshold _ a | marker _ a => a

/-- The leaf matches an event of this level and marker. -/
def Matches (level : Level) (m : Option Marker) : Leaf → Prop
  | threshold l _ => level.severity ≤ l.severity
  | marker name _ => ∃ a ∈ m, a.Carries name

instance (level : Level) (m : Option Marker) : (l : Leaf) → Decidable (l.Matches level m)
  | threshold l _ => inferInstanceAs (Decidable (level.severity ≤ l.severity))
  | marker name _ =>
    decidable_of_iff (m.any (·.isInstanceOf name) = true) <| by
      simp only [Option.any_eq_true, Marker.isInstanceOf_iff]
      rfl

def answer (level : Level) (m : Option Marker) (l : Leaf) : FilterResult :=
  if l.Matches level m then l.answers.onMatch else l.answers.onMismatch

end Leaf

namespace Filter

mutual

/-- The leaves of the tree, from left to right. -/
def leaves : Filter → List Leaf
  | threshold level answers => [.threshold level answers]
  | marker name answers => [.marker name answers]
  | chain members => leavesAll members

def leavesMember : FilterMember → List Leaf
  | .builtin f => leaves f
  | .custom _ => []

def leavesAll : List FilterMember → List Leaf
  | [] => []
  | f :: fs => leavesMember f ++ leavesAll fs

end

mutual

/-- Nothing in the tree was brought by an application. -/
def Builtin : Filter → Prop
  | threshold .. | marker .. => True
  | chain members => BuiltinAll members

def BuiltinMember : FilterMember → Prop
  | .builtin f => Builtin f
  | .custom _ => False

def BuiltinAll : List FilterMember → Prop
  | [] => True
  | f :: fs => BuiltinMember f ∧ BuiltinAll fs

end

-- ============================================================ verdicts

/-- The first decisive answer of some leaves, if there is one. -/
def verdictOf (level : Level) (m : Option Marker) (leaves : List Leaf) : FilterResult :=
  ((leaves.map (Leaf.answer level m)).find? (·.isDecisive)).getD .neutral

/-- The first decisive answer of the leaves of the tree. -/
def verdict (level : Level) (m : Option Marker) (f : Filter) : FilterResult :=
  verdictOf level m f.leaves

/-- The first decisive answer of one leaf is its answer, neutral if it is not
decisive. -/
theorem verdictOf_singleton (level : Level) (m : Option Marker) (l : Leaf) :
    verdictOf level m [l] = l.answer level m := by
  unfold verdictOf
  cases h : l.answer level m <;> simp [h, FilterResult.isDecisive]

/-- The leaves in front decide, unless they are neutral. -/
theorem verdictOf_append (level : Level) (m : Option Marker) (ls ls' : List Leaf) :
    verdictOf level m (ls ++ ls')
      = if (verdictOf level m ls).isDecisive then verdictOf level m ls
        else verdictOf level m ls' := by
  unfold verdictOf
  rw [List.map_append, List.find?_append]
  cases h : (ls.map (Leaf.answer level m)).find? (·.isDecisive) with
  | none => simp [FilterResult.isDecisive]
  | some r => simp [List.find?_some h]

/-- A threshold answers by the level alone, in whatever shape it is asked. -/
theorem threshold_answer (q : Query) (level : Level) (a : Answers) :
    ask q (.threshold level a) = Leaf.answer q.level q.marker (.threshold level a) := by
  simp only [ask, Answers.pick, Level.isAtLeastAsSpecificAs, decide_eq_true_eq]
  rfl

/-- A marker filter answers by the marker alone, in whatever shape it is
asked. -/
theorem marker_answer (q : Query) (name : String) (a : Answers) :
    ask q (.marker name a) = Leaf.answer q.level q.marker (.marker name a) := by
  have hmatch : q.marker.any (·.isInstanceOf name) = true
      ↔ (Leaf.marker name a).Matches q.level q.marker := by
    simp only [Option.any_eq_true, Marker.isInstanceOf_iff]
    rfl
  simp only [ask, Answers.pick, Leaf.answer, hmatch]
  rfl

mutual

/-- A filter answers by level and marker with its first decisive leaf. The
induction goes through the members of chains beside the filters. -/
theorem ask_eq_verdict (q : Query) : ∀ f : Filter, f.Builtin →
    f.ask q = f.verdict q.level q.marker
  | threshold level a, _ => by
    rw [threshold_answer]
    exact (verdictOf_singleton _ _ _).symm
  | marker name a, _ => by
    rw [marker_answer]
    exact (verdictOf_singleton _ _ _).symm
  | chain members, h => askAll_eq_verdictOf q members h

theorem askMember_eq_verdictOf (q : Query) : ∀ f : FilterMember, BuiltinMember f →
    askMember q f = verdictOf q.level q.marker (leavesMember f)
  | .builtin f, h => ask_eq_verdict q f h
  | .custom _, h => h.elim

/-- A chain stops at its first decisive member, as its leaves do. -/
theorem askAll_eq_verdictOf (q : Query) : ∀ fs : List FilterMember, BuiltinAll fs →
    askAll q fs = verdictOf q.level q.marker (leavesAll fs)
  | [], _ => rfl
  | f :: fs, h => by
    unfold askAll leavesAll
    rw [verdictOf_append, askMember_eq_verdictOf q f h.1, askAll_eq_verdictOf q fs h.2]

end

/-- In whatever shape a filter is asked about an event, its answer is the
first decisive one of its leaves, and neutral if there is none. -/
theorem ask_shapes (f : Filter) (hf : f.Builtin) (e : EventSlot) (logger raw shown : String)
    (params : List String) (msg : Message) (thrown : Option Thrown) :
    f.ask (.text logger e.level e.marker raw params) = f.verdict e.level e.marker
      ∧ f.ask (.object logger e.level e.marker shown thrown) = f.verdict e.level e.marker
      ∧ f.ask (.message logger e.level e.marker msg thrown) = f.verdict e.level e.marker
      ∧ f.ask (.event e) = f.verdict e.level e.marker :=
  ⟨ask_eq_verdict _ f hf, ask_eq_verdict _ f hf, ask_eq_verdict _ f hf, ask_eq_verdict _ f hf⟩

namespace Sample

open Samples (audits login)

/-- The chain for audits among other filters. -/
def nested : Filter :=
  .chain [.builtin (.chain []), .builtin (.chain audits),
    .builtin (.marker "NOISE" ⟨.deny, .accept⟩)]

def audited : EventSlot := { EventSlot.fresh with level := .debug, marker := some login }

theorem nested_builtin : nested.Builtin :=
  ⟨trivial, ⟨⟨trivial, trivial⟩, trivial, trivial⟩, trivial, trivial⟩

/-- The marker decides before the level is looked at. -/
theorem verdict_nested : nested.verdict .debug (some login) = .accept := by
  have hcarries : login.Carries "AUDIT" :=
    .ancestor (.tail _ (.head _)) (.ancestor (.head _) .self)
  have hmatches : (Leaf.marker "AUDIT" ⟨.accept, .neutral⟩).Matches .debug (some login) :=
    ⟨login, rfl, hcarries⟩
  simp [verdict, verdictOf, nested, audits, leaves, leavesAll, leavesMember, Leaf.answer, hmatches,
    Leaf.answers, FilterResult.isDecisive]

end Sample

theorem ask_shapes_sample :
    Sample.nested.Builtin
      ∧ Sample.nested.verdict .debug (some Samples.login) = .accept
      ∧ Sample.nested.ask
          (.text "app" .debug (some Samples.login) "user {}" ["root"]) = .accept
      ∧ Sample.nested.ask
          (.object "app" .debug (some Samples.login) "root" none) = .accept
      ∧ Sample.nested.ask
          (.message "app" .debug (some Samples.login) (.simple "root") none) = .accept
      ∧ Sample.nested.ask (.event Sample.audited) = .accept := by
  obtain ⟨htext, hobject, hmessage, hevent⟩ :=
    ask_shapes Sample.nested Sample.nested_builtin Sample.audited "app" "user {}" "root"
      ["root"] (.simple "root") none
  have hverdict := Sample.verdict_nested
  exact ⟨Sample.nested_builtin, hverdict, htext.trans hverdict, hobject.trans hverdict,
    hmessage.trans hverdict, hevent.trans hverdict⟩

end Filter

end LogPipeline
