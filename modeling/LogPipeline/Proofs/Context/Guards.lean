/-
What a thread's context is when a guard was dropped.

# Keys

A key guard takes its key out of the map, whatever the map held for it
before. So when scopes are left in the reverse order of entering them, the
map is the one from before without the keys of the scopes, and a value
that was set outside is lost if a scope used its key (`map_during`,
`outer_value_lost`).

# Labels

A label guard cuts the stack back to the depth below its label. While the
stack stays at least as deep as it was before the guard, nothing can get at
the labels below: every operation either adds on top or takes from the top
(`stack_step`). So these labels are what the guard leaves, and guards that
were made later have nothing left to cut (`label_unwound`).
-/
import LogPipeline.Context

namespace LogPipeline

-- ================================================================= keys

/-- A piece of work that holds keys in its context, each while a part of
the work is done, so that the last guard made is the first one dropped. -/
inductive KeyScopes where
  | done
  /-- Labels come and go, which leaves the map alone. -/
  | relabel (labels : List String) (rest : KeyScopes)
  | scope (key value : String) (body rest : KeyScopes)

/-- Do some work while a key is set, and drop the guard. -/
def ThreadContext.during (c : ThreadContext) (key value : String)
    (work : ThreadContext → ThreadContext) : ThreadContext :=
  let (guard, inside) := c.putScoped key value
  (work inside).release guard

namespace KeyScopes

def run : KeyScopes → ThreadContext → ThreadContext
  | done, c => c
  | relabel labels rest, c => rest.run { c with stack := labels }
  | scope key value body rest, c => rest.run (c.during key value body.run)

/-- The keys that are held at some time. -/
def keys : KeyScopes → List String
  | done => []
  | relabel _ rest => rest.keys
  | scope key _ body rest => key :: (body.keys ++ rest.keys)

end KeyScopes

namespace ThreadContext

/-- Afterwards the key is gone, and the other entries are as the work left
them. -/
theorem get?_during (c : ThreadContext) (key value k : String)
    (work : ThreadContext → ThreadContext) :
    (c.during key value work).map.get? k
      = if key = k then none else (work (c.put key value)).map.get? k :=
  Dict.get?_erase ..

/-- What a map is left with: all but the keys that were held. -/
theorem get?_run (u : KeyScopes) (c : ThreadContext) (k : String) :
    (u.run c).map.get? k = if k ∈ u.keys then none else c.map.get? k := by
  induction u generalizing c with
  | done => rfl
  | relabel labels rest ih => exact ih _
  | scope key value body rest ihBody ihRest =>
      have hput : (c.put key value).map.get? k = if key = k then some value else c.map.get? k :=
        Dict.get?_insert ..
      rw [KeyScopes.run, ihRest, get?_during, ihBody, hput]
      simp only [KeyScopes.keys, List.mem_cons, List.mem_append]
      grind

/-- When a key guard is dropped, after any properly nested use of others
while it was held, the map is the one from just before it was made without
its key and theirs. So it is that map just if none of these keys was in it. -/
theorem map_during (c : ThreadContext) (key value : String) (body : KeyScopes) :
    (∀ k, (c.during key value body.run).map.get? k
        = if k = key ∨ k ∈ body.keys then none else c.map.get? k)
      ∧ ((c.during key value body.run).map = c.map
          ↔ ∀ k, k = key ∨ k ∈ body.keys → c.map.get? k = none) := by
  have hleft : ∀ k, (c.during key value body.run).map.get? k
      = if k = key ∨ k ∈ body.keys then none else c.map.get? k := by
    intro k
    have hrun := get?_run (.scope key value body .done) c k
    simpa [KeyScopes.run, KeyScopes.keys] using hrun
  refine ⟨hleft, fun h k hk => ?_, fun h => ?_⟩
  · rw [← h, hleft, if_pos hk]
  · refine Dict.eq_of_get? fun k => ?_
    rw [hleft]
    split
    · next hk => exact (h k hk).symm
    · rfl

/-- A value that was set outside a scope of its key. -/
theorem outer_value_lost :
    let c := empty.put "user" "alice"
    (c.during "user" "bob" KeyScopes.done.run).map ≠ c.map
      ∧ (c.during "user" "bob" KeyScopes.done.run).map = .empty := by
  decide

end ThreadContext

-- =============================================================== labels

/-- A context with the guards that were made on it, by number. The place of
a guard that was dropped is empty. -/
structure GuardedContext where
  context : ThreadContext
  guards : List (Option ContextGuard)

/-- What a thread does to its context. -/
inductive ContextOp where
  | put (key value : String)
  | remove (key : String)
  | putScoped (key value : String)
  | push (label : String)
  | pop
  | pushScoped (label : String)
  /-- Drop the guard with this number, unless it was dropped already. -/
  | drop (guard : Nat)
  deriving DecidableEq

namespace GuardedContext

/-- Keep a guard that was made. -/
def keep (s : GuardedContext) (made : ContextGuard × ThreadContext) : GuardedContext :=
  ⟨made.2, s.guards ++ [some made.1]⟩

def step (s : GuardedContext) : ContextOp → GuardedContext
  | .put key value => { s with context := s.context.put key value }
  | .remove key => { s with context := s.context.remove key }
  | .putScoped key value => s.keep (s.context.putScoped key value)
  | .push label => { s with context := s.context.push label }
  | .pop => { s with context := s.context.pop.2 }
  | .pushScoped label => s.keep (s.context.pushScoped label)
  | .drop n =>
    match s.guards[n]? with
    | some (some guard) => ⟨s.context.release guard, s.guards.set n none⟩
    | _ => s

def run (s : GuardedContext) (ops : List ContextOp) : GuardedContext := ops.foldl step s

/-- The guard with this number is still there. -/
def Holds (s : GuardedContext) (n : Nat) (guard : ContextGuard) : Prop :=
  s.guards[n]? = some (some guard)

variable {s : GuardedContext} {op : ContextOp} {guard : ContextGuard} {base : List String}
  {n i : Nat}

theorem run_append (s : GuardedContext) (a b : List ContextOp) :
    s.run (a ++ b) = (s.run a).run b :=
  List.foldl_append

/-- Dropping a guard that is there releases it, and any other does nothing. -/
theorem drop_cases (s : GuardedContext) (n : Nat) :
    s.step (.drop n) = s ∨ ∃ guard, s.Holds n guard
      ∧ s.step (.drop n) = ⟨s.context.release guard, s.guards.set n none⟩ := by
  unfold step Holds
  dsimp only
  split
  · next guard h => exact .inr ⟨guard, h, rfl⟩
  · exact .inl rfl

/-- Dropping a guard releases what it holds, and the guard is gone. -/
theorem drop_held (h : s.Holds n guard) :
    s.step (.drop n) = ⟨s.context.release guard, s.guards.set n none⟩ := by
  unfold Holds at h
  simp only [step, h]

/-- The guards that are left after a drop were held before. -/
theorem holds_of_drop (h : (s.step (.drop n)).Holds i guard) : s.Holds i guard := by
  rcases drop_cases s n with heq | ⟨g, -, heq⟩
  · exact heq ▸ h
  · rw [heq] at h
    unfold Holds at h
    rw [List.getElem?_set] at h
    split at h
    · split at h <;> cases h
    · exact h

/-- An operation adds labels on top, or takes labels from the top. -/
theorem stack_step (s : GuardedContext) (op : ContextOp) :
    s.context.stack <+: (s.step op).context.stack
      ∨ (s.step op).context.stack <+: s.context.stack := by
  cases op with
  | put key value => exact .inl (List.prefix_refl _)
  | remove key => exact .inl (List.prefix_refl _)
  | putScoped key value => exact .inl (List.prefix_refl _)
  | push label => exact .inl (List.prefix_append _ _)
  | pop => exact .inr (List.dropLast_prefix _)
  | pushScoped label => exact .inl (List.prefix_append _ _)
  | drop n =>
      rcases drop_cases s n with h | ⟨guard, -, h⟩
      · rw [h]
        exact .inl (List.prefix_refl _)
      · rw [h]
        cases guard with
        | key key => exact .inl (List.prefix_refl _)
        | label depth => exact .inr (List.take_prefix _ _)

/-- An operation makes a guard, with the next number, or it makes none. A
label guard knows how deep the stack is with its label on. -/
theorem step_cases (s : GuardedContext) (op : ContextOp) :
    (s.step op).guards = s.guards
      ∨ (∃ n, op = .drop n)
      ∨ ∃ made, (s.step op).guards = s.guards ++ [some made]
          ∧ ∀ depth, made = .label depth → depth = s.context.depth + 1 := by
  cases op with
  | put key value => exact .inl rfl
  | remove key => exact .inl rfl
  | putScoped key value => exact .inr (.inr ⟨.key key, rfl, fun _ h => by cases h⟩)
  | push label => exact .inl rfl
  | pop => exact .inl rfl
  | pushScoped label =>
      refine .inr (.inr ⟨_, rfl, fun depth h => ?_⟩)
      cases h
      simp [ThreadContext.push, ThreadContext.depth]
  | drop n => exact .inr (.inl ⟨n, rfl⟩)

/-- A guard that is there after an operation was there before, or is the
one that the operation made. -/
theorem holds_step (h : (s.step op).Holds i guard) :
    s.Holds i guard ∨ ∀ depth, guard = .label depth → depth = s.context.depth + 1 := by
  rcases step_cases s op with hsame | ⟨n, rfl⟩ | ⟨made, hmade, hdepth⟩
  · exact .inl ((congrArg (·[i]?) hsame).symm.trans h)
  · exact .inl (holds_of_drop h)
  · unfold Holds at h
    rw [hmade, List.getElem?_append] at h
    split at h
    · exact .inl h
    · obtain ⟨hzero, heq⟩ := List.getElem?_eq_some_iff.1 h
      rw [List.getElem_singleton, Option.some.injEq] at heq
      exact .inr (heq ▸ hdepth)

/-- Only dropping a guard takes it away. -/
theorem holds_of_step (h : s.Holds n guard) (hop : op ≠ .drop n) : (s.step op).Holds n guard := by
  rcases step_cases s op with hsame | ⟨m, rfl⟩ | ⟨made, hmade, -⟩
  · exact (congrArg (·[n]?) hsame).trans h
  · have hm : m ≠ n := fun hmn => hop (hmn ▸ rfl)
    rcases drop_cases s m with heq | ⟨g, -, heq⟩
    · rw [heq]
      exact h
    · rw [heq]
      exact (List.getElem?_set_ne hm).trans h
  · unfold Holds
    rw [hmade, List.getElem?_append_left (List.getElem?_eq_some_iff.1 h).1]
    exact h

/-- The guard with number `n` holds a label above `base`: the labels of
`base` are below it, and no guard that was made later reaches down to them. -/
structure Above (base : List String) (n : Nat) (s : GuardedContext) : Prop where
  floor : base <+: s.context.stack
  held : s.Holds n (.label (base.length + 1))
  later : ∀ i depth, n < i → s.Holds i (.label depth) → base.length < depth

/-- A label that is pushed is above what was there. -/
theorem above_pushScoped (s : GuardedContext) (label : String) :
    Above s.context.stack s.guards.length (s.step (.pushScoped label)) where
  floor := List.prefix_append _ _
  held := by simp [Holds, step, keep, ThreadContext.pushScoped, ThreadContext.push,
    ThreadContext.depth]
  later i depth hi h := by
    have hlt := (List.getElem?_eq_some_iff.1 h).1
    simp only [step, keep, List.length_append, List.length_singleton] at hlt
    omega

theorem above_step (h : Above base n s) (hop : op ≠ .drop n)
    (hdeep : base.length ≤ (s.step op).context.depth) : Above base n (s.step op) where
  floor := by
    rcases stack_step s op with hadd | htake
    · exact h.floor.trans hadd
    · exact List.prefix_of_prefix_length_le h.floor htake hdeep
  held := holds_of_step h.held hop
  later i depth hi hguard := by
    rcases holds_step hguard with hbefore | hnew
    · exact h.later i depth hi hbefore
    · rw [hnew depth rfl]
      exact Nat.lt_succ_of_le h.floor.length_le

/-- Whatever is done while the guard is there, and the stack is never less
deep than `base`, the labels of `base` stay. -/
theorem above_run (ops : List ContextOp) (h : Above base n s) (hops : .drop n ∉ ops)
    (hdeep : ∀ k ≤ ops.length, base.length ≤ (s.run (ops.take k)).context.depth) :
    Above base n (s.run ops) := by
  induction ops generalizing s with
  | nil => exact h
  | cons op ops ih =>
      have hstep : Above base n (s.step op) :=
        above_step h (fun heq => hops (heq ▸ List.mem_cons_self)) (hdeep 1 (by simp))
      refine ih hstep (fun hmem => hops (List.mem_cons_of_mem _ hmem)) fun k hk => ?_
      exact hdeep (k + 1) (by simpa using hk)

/-- A guard that does not reach below the top of the stack cuts nothing. -/
theorem stack_drop_later (h : ∀ depth, s.Holds i (.label depth) → s.context.depth < depth) :
    (s.step (.drop i)).context.stack = s.context.stack
      ∧ ((∀ key, ¬ s.Holds i (.key key)) → (s.step (.drop i)).context = s.context) := by
  rcases drop_cases s i with heq | ⟨guard, hguard, heq⟩
  · simp [heq]
  · rw [heq]
    cases guard with
    | key key => exact ⟨rfl, fun hkey => absurd hguard (hkey key)⟩
    | label depth =>
        have hcut : s.context.stack.take (depth - 1) = s.context.stack :=
          List.take_of_length_le (Nat.le_sub_one_of_lt (h depth hguard))
        refine ⟨hcut, fun _ => ?_⟩
        show { s.context with stack := s.context.stack.take (depth - 1) } = s.context
        rw [hcut]

/-- Guards of labels that are gone can be dropped at any time and in any
order. -/
theorem run_drops (later : List Nat)
    (h : ∀ i ∈ later, ∀ depth, s.Holds i (.label depth) → s.context.depth < depth) :
    (s.run (later.map .drop)).context.stack = s.context.stack
      ∧ ((∀ i ∈ later, ∀ key, ¬ s.Holds i (.key key)) →
          (s.run (later.map .drop)).context = s.context) := by
  induction later generalizing s with
  | nil => exact ⟨rfl, fun _ => rfl⟩
  | cons i later ih =>
      obtain ⟨hstack, hcontext⟩ := stack_drop_later (h i List.mem_cons_self)
      obtain ⟨hstacks, hcontexts⟩ := ih (s := s.step (.drop i)) fun j hj depth hguard => by
        show (s.step (.drop i)).context.stack.length < depth
        rw [hstack]
        exact h j (List.mem_cons_of_mem _ hj) depth (holds_of_drop hguard)
      refine ⟨hstacks.trans hstack, fun hkeys => ?_⟩
      have hlater : ∀ j ∈ later, ∀ key, ¬ (s.step (.drop i)).Holds j (.key key) :=
        fun j hj key hguard => hkeys j (List.mem_cons_of_mem _ hj) key (holds_of_drop hguard)
      exact (hcontexts hlater).trans (hcontext (hkeys i List.mem_cons_self))

/-- A label guard that was held while all kinds of things were done to the
context, which never made the stack less deep than it was before the label,
leaves the stack from before the label. Dropping guards that were made
meanwhile, in any order, does nothing to that stack any more, and nothing
at all if they are guards of labels. -/
theorem label_unwound (s : GuardedContext) (label : String) (body : List ContextOp)
    (hheld : .drop s.guards.length ∉ body)
    (hdeep : ∀ k ≤ body.length,
      s.context.depth ≤ ((s.step (.pushScoped label)).run (body.take k)).context.depth) :
    let left := ((s.step (.pushScoped label)).run body).step (.drop s.guards.length)
    left.context.stack = s.context.stack
      ∧ ∀ later : List Nat, (∀ i ∈ later, s.guards.length < i) →
        (left.run (later.map .drop)).context.stack = s.context.stack
          ∧ ((∀ i ∈ later, ∀ key, ¬ left.Holds i (.key key)) →
              (left.run (later.map .drop)).context = left.context) := by
  intro left
  have habove := above_run body (above_pushScoped s label) hheld hdeep
  have hleft : left.context.stack = s.context.stack := by
    show (GuardedContext.step _ _).context.stack = _
    rw [drop_held habove.held]
    exact (List.prefix_iff_eq_take.1 habove.floor).symm
  refine ⟨hleft, fun later hlater => ?_⟩
  obtain ⟨hstack, hcontext⟩ := run_drops (s := left) later fun i hi depth hguard => by
    show left.context.stack.length < depth
    rw [hleft]
    exact habove.later i depth (hlater i hi) (holds_of_drop hguard)
  exact ⟨hstack.trans hleft, hcontext⟩

namespace Sample

/-- A request whose own label is popped, and which leaves guards behind. -/
def request : List ContextOp :=
  [.push "parse", .pushScoped "query", .pop, .pop, .pop, .push "retry", .pushScoped "query",
    .putScoped "user" "alice", .drop 2, .pushScoped "answer"]

end Sample

theorem label_unwound_sample :
    let s : GuardedContext := GuardedContext.step ⟨.empty, []⟩ (.pushScoped "base")
    let left := ((s.step (.pushScoped "request")).run Sample.request).step (.drop 1)
    .drop 1 ∉ Sample.request
      ∧ (∀ k ≤ Sample.request.length, s.context.depth
          ≤ ((s.step (.pushScoped "request")).run (Sample.request.take k)).context.depth)
      ∧ left.context.stack = ["base"]
      ∧ (left.run (List.map .drop [5, 3])).context = left.context := by
  intro s left
  have hheld : .drop 1 ∉ Sample.request := by decide
  have hdeep : ∀ k ≤ Sample.request.length, s.context.depth
      ≤ ((s.step (.pushScoped "request")).run (Sample.request.take k)).context.depth := by decide
  obtain ⟨hstack, hlater⟩ := label_unwound s "request" Sample.request hheld hdeep
  have hquery : left.Holds 3 (.label 3) := rfl
  have hanswer : left.Holds 5 (.label 4) := rfl
  refine ⟨hheld, hdeep, hstack, (hlater [5, 3] (by decide)).2 fun i hi key hkey => ?_⟩
  rcases List.mem_cons.1 hi with rfl | hi
  · cases hanswer.symm.trans hkey
  · rw [List.mem_singleton.1 hi] at hkey
    cases hquery.symm.trans hkey

end GuardedContext

end LogPipeline
