/-
A record of what happens to appenders. `AppenderOps.recorded` is a kind
of appenders with every call that begins, every call that ends and every
drop written down; the appenders behave as before (`mirror_recorded`), so
the record is there to be looked at and nobody acts on it.

With what came of the calls forgotten, the record of an errand is known
beforehand: `Errand.actsOn` says what an errand does on one member, and
an errand does this on each member in turn, whatever the calls come to
(`acts_visitAll`). A round that is held up has done a part of it, and
`Crew.Progress.owed` is the rest (`acts_advance`).
-/
import LogPipeline.Proofs.Appender.Crews

namespace LogPipeline

variable {α S T : Type}

-- ============================================================= mirrors

/-- Two kinds of appenders behave alike in each half of a call, and are
held up alike. -/
structure AppenderOps.Mirror (ops : AppenderOps α S) (ops' : AppenderOps α T)
    (R : S → T → Prop) : Prop where
  name : ∀ a, ops'.name a = ops.name a
  filter : ∀ a, ops'.filter a = ops.filter a
  enter : ∀ c a s t, R s t → R (ops.enter c a s) (ops'.enter c a t)
  isHeld : ∀ c a s t, R s t → ops'.isHeld c a t = ops.isHeld c a s
  finish : ∀ c a s t, R s t →
    (ops'.finish c a t).1 = (ops.finish c a s).1 ∧ R (ops.finish c a s).2 (ops'.finish c a t).2
  drop : ∀ a s t, R s t →
    (ops'.drop a t).1 = (ops.drop a s).1 ∧ R (ops.drop a s).2 (ops'.drop a t).2

namespace AppenderOps.Mirror

variable {ops : AppenderOps α S} {ops' : AppenderOps α T} {R : S → T → Prop} {s : S} {t : T}

theorem agree (h : ops.Mirror ops' R) : ops.Agree ops' R where
  name := h.name
  filter := h.filter
  call c a s t hR := h.finish c a _ _ (h.enter c a s t hR)
  drop := h.drop

theorem refl (ops : AppenderOps α S) : ops.Mirror ops Eq where
  name _ := rfl
  filter _ := rfl
  enter _ _ _ _ hR := by rw [hR]
  isHeld _ _ _ _ hR := by rw [hR]
  finish _ _ _ _ hR := by rw [hR]; exact ⟨rfl, rfl⟩
  drop _ _ _ hR := by rw [hR]; exact ⟨rfl, rfl⟩

/-- What follows a call that began is mirrored. -/
theorem conclude (h : ops.Mirror ops' R) (errand : Errand) (c : AppenderCall) (a : α)
    (tally : Tally) (hR : R s t) :
    (errand.conclude ops' c a tally t).1 = (errand.conclude ops c a tally s).1
      ∧ (errand.conclude ops' c a tally t).2.1 = (errand.conclude ops c a tally s).2.1
      ∧ R (errand.conclude ops c a tally s).2.2 (errand.conclude ops' c a tally t).2.2 := by
  obtain ⟨houtcome, hR'⟩ := h.finish c a s t hR
  obtain ⟨hreports, hR''⟩ := h.agree.dismiss errand a hR'
  unfold Errand.conclude
  dsimp only
  rw [houtcome, hreports, h.name]
  exact ⟨rfl, rfl, hR''⟩

/-- Rounds come equally far. -/
theorem advance (h : ops.Mirror ops' R) (errand : Errand) (size : Nat) (members : List α)
    (tally : Tally) (hR : R s t) :
    let x := Crew.advance ops errand size members tally s
    let x' := Crew.advance ops' errand size members tally t
    x'.1 = x.1 ∧ x'.2.1 = x.2.1 ∧ R x.2.2 x'.2.2 := by
  induction members generalizing tally s t with
  | nil => exact ⟨rfl, rfl, hR⟩
  | cons a rest ih =>
      unfold Crew.advance
      rw [h.agree.callOn errand a]
      cases errand.callOn ops a with
      | none => exact ih tally hR
      | some c =>
          have hentered := h.enter c a s t hR
          dsimp only
          rw [h.isHeld c a _ _ hentered]
          split
          · exact ⟨rfl, rfl, hentered⟩
          · obtain ⟨htally, hreports, hR'⟩ := h.conclude errand c a tally hentered
            rw [htally, hreports]
            obtain ⟨hprogress, hothers, hR''⟩ := ih _ hR'
            exact ⟨hprogress, congrArg _ hothers, hR''⟩

end AppenderOps.Mirror

-- =============================================================== deeds

/-- What happens to an appender. -/
inductive Deed (α : Type) where
  | begun (a : α) (c : AppenderCall)
  | ended (a : α) (c : AppenderCall) (o : Outcome)
  | dropped (a : α) (reports : List StatusEntry)

/-- What is done to an appender, whatever comes of it. -/
inductive Act where
  | begun (c : AppenderCall)
  | ended (c : AppenderCall)
  | dropped
  deriving DecidableEq

namespace Deed

/-- What is done, and to whom. -/
def act : Deed α → α × Act
  | begun a c => (a, .begun c)
  | ended a c _ => (a, .ended c)
  | dropped a _ => (a, .dropped)

/-- The call that an appender did not answer well, and with what error. -/
def failure? : Deed α → Option (α × LogError)
  | ended a _ o => o.error?.map (a, ·)
  | _ => none

/-- The calls that were not answered well, in order. -/
def failures (deeds : List (Deed α)) : List (α × LogError) := deeds.filterMap failure?

end Deed

/-- A state beside the record of what was done. -/
structure Recorded (α S : Type) where
  state : S
  deeds : List (Deed α)

namespace Recorded

/-- The record, with what came of the deeds forgotten. -/
def acts (r : Recorded α S) : List (α × Act) := r.deeds.map Deed.act

/-- One more deed. -/
def write (d : Deed α) (r : Recorded α S) : Recorded α S := { r with deeds := r.deeds ++ [d] }

@[simp]
theorem acts_write (d : Deed α) (r : Recorded α S) : (r.write d).acts = r.acts ++ [d.act] :=
  List.map_append

end Recorded

/-- The appenders, with a record of what happens to them. -/
def AppenderOps.recorded (ops : AppenderOps α S) : AppenderOps α (Recorded α S) where
  name := ops.name
  filter := ops.filter
  enter c a r := { r with state := ops.enter c a r.state }.write (.begun a c)
  isHeld c a r := ops.isHeld c a r.state
  finish c a r :=
    let (o, s) := ops.finish c a r.state
    (o, { r with state := s }.write (.ended a c o))
  drop a r :=
    let (reports, s) := ops.drop a r.state
    (reports, { r with state := s }.write (.dropped a reports))

/-- Whether a record is kept makes no difference to the appenders. -/
theorem AppenderOps.mirror_recorded (ops : AppenderOps α S) :
    ops.Mirror ops.recorded fun s r => r.state = s where
  name _ := rfl
  filter _ := rfl
  enter c a s r hR := by rw [← hR]; rfl
  isHeld c a s r hR := by rw [← hR]; rfl
  finish c a s r hR := by rw [← hR]; exact ⟨rfl, rfl⟩
  drop a s r hR := by rw [← hR]; exact ⟨rfl, rfl⟩

-- ============================================ what is done in an errand

namespace Errand

variable {ops : AppenderOps α S}

/-- How the call on a member ends: with the drop of the member if the set
is stopped. -/
def actsAfter (errand : Errand) (c : AppenderCall) (a : α) : List (α × Act) :=
  (a, .ended c) :: match errand with
    | stop => [(a, .dropped)]
    | _ => []

/-- What the errand does on a member. -/
def actsOn (ops : AppenderOps α S) (errand : Errand) (a : α) : List (α × Act) :=
  match errand.callOn ops a with
  | none => []
  | some c => (a, .begun c) :: errand.actsAfter c a

/-- A call that ends is written down, and the drop behind a stop. -/
theorem acts_conclude (errand : Errand) (c : AppenderCall) (a : α) (t : Tally)
    (r : Recorded α S) :
    (errand.conclude ops.recorded c a t r).2.2.acts = r.acts ++ errand.actsAfter c a := by
  cases errand with
  | deliver e endOfBatch | flush => exact Recorded.acts_write _ _
  | stop =>
      show Recorded.acts (Recorded.write _ (Recorded.write _ _)) = _
      rw [Recorded.acts_write, Recorded.acts_write, List.append_assoc]
      rfl

/-- A visit is written down as what the errand does on that member. -/
theorem acts_visit (errand : Errand) (a : α) (t : Tally) (r : Recorded α S) :
    (errand.visit ops.recorded a t r).2.2.acts = r.acts ++ errand.actsOn ops a := by
  unfold visit actsOn
  rw [ops.mirror_recorded.agree.callOn errand a]
  cases errand.callOn ops a with
  | none => exact (List.append_nil _).symm
  | some c =>
      refine (acts_conclude errand c a t _).trans ?_
      show Recorded.acts (Recorded.write _ _) ++ _ = _
      rw [Recorded.acts_write, List.append_assoc]
      rfl

/-- An errand does what it owes each member, in order, whatever the calls
come to. -/
theorem acts_visitAll (errand : Errand) (members : List α) (t : Tally) (r : Recorded α S) :
    (errand.visitAll ops.recorded members t r).2.2.acts
      = r.acts ++ members.flatMap (errand.actsOn ops) := by
  induction members generalizing t r with
  | nil => exact (List.append_nil _).symm
  | cons a rest ih =>
      rw [visitAll_cons, List.flatMap_cons, ← List.append_assoc, ← acts_visit errand a t r]
      exact ih _ _

end Errand

-- ============================================== rounds that are held up

namespace Crew

variable {ops : AppenderOps α S}

/-- What a round that is held up has still to do. -/
def owedBy (ops : AppenderOps α S) (r : Round α) : List (α × Act) :=
  r.errand.actsAfter r.call r.member ++ r.rest.flatMap (r.errand.actsOn ops)

/-- What is left of an errand. -/
def Progress.owed (ops : AppenderOps α S) : Progress α → List (α × Act)
  | .ended _ => []
  | .held r => owedBy ops r

/-- What was done and what is left make up the errand. -/
theorem acts_advance (errand : Errand) (size : Nat) (members : List α) (t : Tally)
    (r : Recorded α S) :
    let x := advance ops.recorded errand size members t r
    x.2.2.acts ++ x.1.owed ops = r.acts ++ members.flatMap (errand.actsOn ops) := by
  induction members generalizing t r with
  | nil => rfl
  | cons a rest ih =>
      obtain ⟨acts, hacts⟩ : ∃ acts, acts = errand.actsOn ops a := ⟨_, rfl⟩
      rw [List.flatMap_cons, ← hacts]
      unfold advance
      rw [ops.mirror_recorded.agree.callOn errand a]
      unfold Errand.actsOn at hacts
      cases hc : errand.callOn ops a with
      | none =>
          rw [hc] at hacts
          rw [hacts]
          exact ih t r
      | some c =>
          rw [hc] at hacts
          have hentered : (ops.recorded.enter c a r).acts = r.acts ++ [(a, .begun c)] :=
            Recorded.acts_write _ _
          dsimp only
          split
          · -- the call has begun, and all that comes after is left
            dsimp only
            rw [hentered, hacts, List.append_assoc]
            rfl
          · have hrest := ih (errand.conclude ops.recorded c a t (ops.recorded.enter c a r)).1
              (errand.conclude ops.recorded c a t (ops.recorded.enter c a r)).2.2
            dsimp only at hrest ⊢
            rw [hrest, Errand.acts_conclude, hentered, hacts]
            simp only [List.append_assoc, List.cons_append, List.nil_append]

end Crew

end LogPipeline
