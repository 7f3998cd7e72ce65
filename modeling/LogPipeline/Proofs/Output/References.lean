/-
References to managers, counted by outlet. The entries of a registry count
them by name, but a name may be given up and taken again, and then stands
for another manager. The two ways of counting say the same as long as every
entry is on a manager of its name (`Sound`): the references tell the
entries (`entries_eq_of_refsAt`).

Every registry is sound whose managers have the names that were asked for,
whatever was done at it (`sound_plainRun`).
-/
import LogPipeline.Proofs.Output.Sharing

namespace LogPipeline

-- ============================================================= managers

namespace Manager

variable {W : Type}

/-- Emitting leaves the name alone, and so does everything that is made of
it. -/
theorem name_emit (k : Sink W) (bytes : ByteArray) (m : Manager) (w : W) :
    (emit k bytes m w).2.1.name = m.name := by
  unfold emit
  split <;> rfl

theorem name_drainBuffer (k : Sink W) (m : Manager) (w : W) :
    (drainBuffer k m w).2.1.name = m.name := by
  unfold drainBuffer
  split
  · rfl
  · exact name_emit k _ _ w

theorem name_push (k : Sink W) (m : Manager) (w : W) : (push k m w).2.1.name = m.name :=
  name_drainBuffer k m w

/-- A write in any of its cases keeps the manager's name. -/
theorem name_write (k : Sink W) (bytes : ByteArray) (endOfBatch : Bool) (m : Manager) (w : W) :
    (write k bytes endOfBatch m w).2.1.name = m.name := by
  have hroom : (makeRoom k bytes m w).2.1.name = m.name := by
    unfold makeRoom
    split
    · exact name_drainBuffer k m w
    · rfl
  have haccept : ∀ (m : Manager) (w : W), (accept k bytes m w).2.1.name = m.name := by
    intro m w
    unfold accept
    split
    · exact name_emit k bytes m w
    · rfl
  unfold write
  split
  · rfl
  · dsimp only
    split
    · rw [name_push, haccept, hroom]
    · rw [haccept, hroom]

theorem name_flush (k : Sink W) (m : Manager) (w : W) : (flush k m w).2.1.name = m.name := by
  unfold flush
  split
  · rfl
  · exact name_push k m w

/-- A closed manager still has its name; the last handle is given back under
it. -/
theorem name_close (k : Sink W) (m : Manager) (w : W) : (close k m w).2.1.name = m.name := by
  unfold close
  split
  · rfl
  · exact name_push k _ w

end Manager

-- =========================================================== registries

namespace Registry

variable {W : Type} {r r' : Registry W} {name : String} {e : RegistryEntry} {i j n : Nat}

def nameAt (r : Registry W) (i : Nat) : Option String := r.outlets[i]?.map (·.manager.name)

/-- How many references are counted on an outlet. -/
def refsAt (r : Registry W) (i : Nat) : Nat :=
  match (r.nameAt i).bind r.entries.get? with
  | some e => if e.outlet = i then e.refCount else 0
  | none => 0

/-- Each entry counts references, on a manager that goes by its name. -/
def Sound (r : Registry W) : Prop :=
  ∀ name e, r.entries.get? name = some e → 0 < e.refCount ∧ r.nameAt e.outlet = some name

/-- Without entries there is nothing to be unsound. -/
theorem sound_empty (w : W) : (empty w).Sound := fun _ _ he => nomatch he

/-- Only outlets that are there have a name. -/
theorem lt_of_nameAt (h : r.nameAt i = some name) : i < r.outlets.size := by
  obtain ⟨o, ho, -⟩ := Option.map_eq_some_iff.1 h
  exact (Array.getElem?_eq_some_iff.1 ho).1

/-- In a sound registry an entry counts the references to its outlet. -/
theorem refsAt_of_entry (hs : r.Sound) (he : r.entries.get? name = some e) :
    r.refsAt e.outlet = e.refCount := by
  unfold refsAt
  rw [(hs name e he).2, Option.bind_some, he]
  exact if_pos rfl

/-- An outlet with references has the entry of its name. -/
theorem entry_of_refsAt (h : 0 < r.refsAt i) :
    ∃ name, r.nameAt i = some name ∧ r.entries.get? name = some ⟨r.refsAt i, i⟩ := by
  cases hname : r.nameAt i with
  | none => simp [refsAt, hname] at h
  | some name =>
      cases he : r.entries.get? name with
      | none => simp [refsAt, hname, he] at h
      | some e =>
          have hrefs : r.refsAt i = if e.outlet = i then e.refCount else 0 := by
            simp [refsAt, hname, he]
          split at hrefs
          · next hi => exact ⟨name, rfl, by rw [he, hrefs, ← hi]⟩
          · omega

/-- Nobody refers to an outlet that is yet to come. -/
theorem refsAt_eq_zero (h : r.outlets.size ≤ i) : r.refsAt i = 0 := by
  simp [refsAt, nameAt, Array.getElem?_eq_none h]

/-- Whatever becomes of the entry of a name, it counts for the outlets only
that it is on. -/
theorem refsAt_elsewhere (name : String) (hname : r'.nameAt i = r.nameAt i)
    (hothers : ∀ key ≠ name, r'.entries.get? key = r.entries.get? key)
    (hold : ∀ e, r.entries.get? name = some e → e.outlet ≠ i)
    (hnew : ∀ e, r'.entries.get? name = some e → e.outlet ≠ i) :
    r'.refsAt i = r.refsAt i := by
  unfold refsAt
  rw [hname]
  cases r.nameAt i with
  | none => rfl
  | some key =>
      rw [Option.bind_some, Option.bind_some]
      by_cases hkey : key = name
      · rw [hkey]
        cases hr : r.entries.get? name with
        | none =>
            cases hr' : r'.entries.get? name with
            | none => rfl
            | some e' => exact if_neg (hnew e' hr')
        | some e =>
            cases hr' : r'.entries.get? name with
            | none => exact (if_neg (hold e hr)).symm
            | some e' => exact (if_neg (hnew e' hr')).trans (if_neg (hold e hr)).symm
      · rw [hothers key hkey]

theorem outlet_unique {e' : RegistryEntry} (he : r.entries.get? name = some e)
    (he' : r.entries.get? name = some e') : e'.outlet = e.outlet := by
  rw [he] at he'
  cases he'
  rfl

/-- A new count for a name is the count of its outlet, and of no other. -/
theorem refsAt_insert (hname : r.nameAt j = some name)
    (hentry : ∀ e, r.entries.get? name = some e → e.outlet = j) :
    Registry.refsAt { r with entries := r.entries.insert name ⟨n, j⟩ } i
      = if i = j then n else r.refsAt i := by
  have hget : ∀ key, (r.entries.insert name ⟨n, j⟩).get? key
      = if name = key then some ⟨n, j⟩ else r.entries.get? key :=
    fun key => Dict.get?_insert _ name key _
  split
  · next hi =>
    have hname' : nameAt { r with entries := r.entries.insert name ⟨n, j⟩ } i = some name := by
      rw [hi]
      exact hname
    unfold refsAt
    rw [hname', Option.bind_some, hget, if_pos rfl]
    exact if_pos hi.symm
  · next hi =>
    refine refsAt_elsewhere name rfl (fun key hkey => ?_) (fun e he => ?_) fun e he => ?_
    · rw [hget, if_neg (Ne.symm hkey)]
    · exact fun hc => hi (hc ▸ hentry e he)
    · rw [hget, if_pos rfl] at he
      cases he
      exact Ne.symm hi

/-- Without its entry an outlet has no references; the others have theirs. -/
theorem refsAt_erase (hs : r.Sound) (he : r.entries.get? name = some e) :
    Registry.refsAt { r with entries := r.entries.erase name } i
      = if i = e.outlet then 0 else r.refsAt i := by
  have hget : ∀ key, (r.entries.erase name).get? key
      = if name = key then none else r.entries.get? key := fun key => Dict.get?_erase _ name key
  split
  · next hi =>
    unfold refsAt
    rw [show nameAt { r with entries := r.entries.erase name } i = some name from
      hi ▸ (hs name e he).2, Option.bind_some, hget, if_pos rfl]
  · next hi =>
    refine refsAt_elsewhere name rfl (fun key hkey => ?_) (fun e' he' => ?_)
      fun e' he' => ?_
    · rw [hget, if_neg (Ne.symm hkey)]
    · rw [outlet_unique he he']
      exact Ne.symm hi
    · rw [hget, if_pos rfl] at he'
      cases he'

/-- The entries can be told from the references. -/
theorem entries_eq_of_refsAt (hs : r.Sound) (hs' : r'.Sound)
    (hrefs : ∀ i, r'.refsAt i = r.refsAt i)
    (hnames : ∀ i name, r.nameAt i = some name → r'.nameAt i = some name) :
    r'.entries = r.entries := by
  refine Dict.eq_of_get? fun name => Option.ext fun e => ⟨fun he => ?_, fun he => ?_⟩
  · have hpos : 0 < r.refsAt e.outlet := by
      rw [← hrefs, refsAt_of_entry hs' he]
      exact (hs' name e he).1
    obtain ⟨key, hkey, hentry⟩ := entry_of_refsAt hpos
    have hname : key = name :=
      Option.some.inj ((hnames _ key hkey).symm.trans (hs' name e he).2)
    rw [← hrefs, refsAt_of_entry hs' he, hname] at hentry
    exact hentry
  · have hpos : 0 < r'.refsAt e.outlet := by
      rw [hrefs, refsAt_of_entry hs he]
      exact (hs name e he).1
    obtain ⟨key, hkey, hentry⟩ := entry_of_refsAt hpos
    have hname : key = name :=
      Option.some.inj (hkey.symm.trans (hnames _ name (hs name e he).2))
    rw [hrefs, refsAt_of_entry hs he, hname] at hentry
    exact hentry

-- ========================================================== soundness

/-- An entry on a manager of its name, with at least one reference, may be put
in. -/
theorem sound_insert (hs : r.Sound) (hname : r.nameAt j = some name) (hn : 0 < n) :
    Sound { r with entries := r.entries.insert name ⟨n, j⟩ } := by
  intro key e he
  rw [Dict.get?_insert] at he
  split at he
  · next hkey =>
    cases he
    exact ⟨hn, hkey ▸ hname⟩
  · exact hs key e he

/-- Entries may be taken out. -/
theorem sound_erase (hs : r.Sound) (name : String) :
    Sound { r with entries := r.entries.erase name } := by
  intro key e he
  rw [Dict.get?_erase] at he
  split at he
  · cases he
  · exact hs key e he

/-- The registry with another outlet, that no entry is on. -/
def added (r : Registry W) (o : Outlet W) : Registry W :=
  { r with outlets := r.outlets.push o }

section

variable (o : Outlet W)

/-- The new outlet comes behind the others. -/
theorem getElem?_added (r : Registry W) (i : Nat) :
    (r.added o).outlets[i]? = if i = r.outlets.size then some o else r.outlets[i]? :=
  Array.getElem?_push

theorem nameAt_added (r : Registry W) (i : Nat) :
    (r.added o).nameAt i
      = if i = r.outlets.size then some o.manager.name else r.nameAt i := by
  unfold nameAt
  rw [getElem?_added]
  split <;> rfl

/-- The outlets that there were are as open as before. -/
theorem openAt_added (hi : i ≠ r.outlets.size) : (r.added o).openAt i = r.openAt i := by
  unfold openAt
  rw [getElem?_added, if_neg hi]

/-- A new outlet whose name is free has no references, and takes none from
others. -/
theorem refsAt_added (hnone : r.entries.get? o.manager.name = none) (i : Nat) :
    (r.added o).refsAt i = r.refsAt i := by
  by_cases hi : i = r.outlets.size
  · rw [refsAt_eq_zero (Nat.le_of_eq hi.symm)]
    unfold refsAt
    rw [nameAt_added, if_pos hi, Option.bind_some]
    show (match r.entries.get? o.manager.name with
      | some e => if e.outlet = i then e.refCount else 0
      | none => 0) = 0
    rw [hnone]
  · unfold refsAt
    rw [nameAt_added, if_neg hi]
    rfl

/-- An outlet that nobody refers to yet makes no entry unsound. -/
theorem sound_added (hs : r.Sound) : (r.added o).Sound := by
  intro key e he
  obtain ⟨hpos, hname⟩ := hs key e he
  refine ⟨hpos, ?_⟩
  rw [nameAt_added, if_neg (Nat.ne_of_lt (lt_of_nameAt hname))]
  exact hname

end

section

variable {h : ManagerHandle} {op : Sink W → Manager → W → Manager.Step W}

/-- An operation that keeps names at every manager keeps them in the
registry. -/
theorem nameAt_withOutlet (hop : ∀ k m w, (op k m w).2.1.name = m.name) (i : Nat) :
    (r.withOutlet h op).2.nameAt i = r.nameAt i := by
  unfold nameAt
  rw [getElem?_withOutlet]
  split
  · simp [Option.map_map, Function.comp_def, hop]
  · rfl

/-- Operations on managers touch no entry, so they keep soundness with the
names. -/
theorem sound_withOutlet (hop : ∀ k m w, (op k m w).2.1.name = m.name) (hs : r.Sound) :
    (r.withOutlet h op).2.Sound := by
  intro key e he
  rw [(entries_withOutlet r h op).1] at he
  rw [nameAt_withOutlet hop]
  exact hs key e he

theorem refsAt_withOutlet (hop : ∀ k m w, (op k m w).2.1.name = m.name) (i : Nat) :
    (r.withOutlet h op).2.refsAt i = r.refsAt i := by
  unfold refsAt
  rw [nameAt_withOutlet hop, (entries_withOutlet r h op).1]

end

end Registry

-- ================================================================ runs

namespace Desk

variable {W : Type}

/-- Whatever is done at a registry, it is sound, as long as factories make
managers of the names that they are asked for. -/
theorem sound_plainRun (w : W) {ops : List (RegistryOp W)} (hops : ∀ op ∈ ops, op.Honest) :
    ((start w).plainRun ops).registry.Sound := by
  have hinv := inv_run (inv_start w) hops
  have hmirrors := (mirrors_run ops (mirrors_start w)).registry
  intro name e he
  rw [← hmirrors.entries_eq] at he
  obtain ⟨l, hl, rfl, hout⟩ := hinv.lease_of_entry he
  obtain ⟨o, ho, hname⟩ := hinv.named l hl
  refine ⟨(hinv.counted _ e he).1, ?_⟩
  obtain ⟨o', ho', hmanager, -⟩ := hmirrors.outlet ho
  unfold Registry.nameAt
  rw [← hout, ho', Option.map_some, ← hmanager, hname]

end Desk

end LogPipeline
