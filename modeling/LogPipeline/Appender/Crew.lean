/-
A set of appenders as the handler of a dispatcher. A member may be held
up in the middle of a call; the round then stops at that member, and goes
on from there once the member can. Where nothing is held up, a round does
what `AppenderSet.run` does.
-/
import LogPipeline.Appender.Set
import LogPipeline.Dispatcher

namespace LogPipeline

/-- An errand that has come to a member that is held up in a call. -/
structure Round (α : Type) where
  errand : Errand
  /-- The members of the set when the errand began. -/
  size : Nat
  member : α
  call : AppenderCall
  rest : List α
  tally : Tally

/-- A set at work: its members, the round that is held up, if any, and the
state that the appenders act on. -/
structure Crew (α S : Type) where
  set : AppenderSet α
  round : Option (Round α)
  world : S

namespace Crew

variable {α S : Type}

/-- How far an errand has come. -/
inductive Progress (α : Type) where
  | ended (t : Tally)
  | held (r : Round α)

/-- Visit members until one is held up. -/
def advance (ops : AppenderOps α S) (errand : Errand) (size : Nat) :
    List α → Tally → S → Progress α × List StatusEntry × S
  | [], t, s => (.ended t, [], s)
  | a :: rest, t, s =>
    match errand.callOn ops a with
    | none => advance ops errand size rest t s
    | some c =>
      let s := ops.enter c a s
      if ops.isHeld c a s then (.held ⟨errand, size, a, c, rest, t⟩, [], s)
      else
        let (t, reports, s) := errand.conclude ops c a t s
        let (p, others, s) := advance ops errand size rest t s
        (p, reports ++ others, s)

/-- What a dispatcher is told of an errand that has come this far. -/
def told (errand : Errand) (size : Nat) (set : AppenderSet α) :
    Progress α × List StatusEntry × S → Call (Crew α S)
  | (.ended t, reports, s) =>
    ⟨some (.ofExcept (errand.result size t)), reports, ⟨set, none, s⟩⟩
  | (.held r, reports, s) => ⟨none, reports, ⟨set, some r, s⟩⟩

/-- Begin an errand, after which the set is `after`. -/
def begin (ops : AppenderOps α S) (errand : Errand) (after : AppenderSet α) (c : Crew α S) :
    Call (Crew α S) :=
  told errand c.set.size after (advance ops errand c.set.size c.set.members .clean c.world)

/-- Go on with the round that is held up, unless its member still is. -/
def resume (ops : AppenderOps α S) (c : Crew α S) : Option (Call (Crew α S)) :=
  match c.round with
  | none => none
  | some r =>
    if ops.isHeld r.call r.member c.world then none
    else
      let (t, reports, s) := r.errand.conclude ops r.call r.member r.tally c.world
      let (p, others, s) := advance ops r.errand r.size r.rest t s
      some (told r.errand r.size c.set (p, reports ++ others, s))

/-- A set as a dispatcher's handler. -/
def handler (ops : AppenderOps α S) : Handler (Crew α S) where
  onEvent e endOfBatch c := begin ops (.deliver e endOfBatch) c.set c
  onFlush c := begin ops .flush c.set c
  onShutdown c := begin ops .stop ⟨[]⟩ c
  resume := resume ops

end Crew

end LogPipeline
