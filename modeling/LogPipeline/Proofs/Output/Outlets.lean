/-
What the operations of a registry do to its outlets. Using a manager
touches one outlet and the world (`getElem?_withOutlet`). Asking for a
handle finds an entry, makes a manager, or is refused, and then only the
world can have changed (`acquire_cases`). Giving a handle back takes a
reference off an entry, and does nothing to the outlets but to close the
manager with the last handle (`release_none`, `release_kept`,
`release_last`).
-/
import LogPipeline.Output.Registry

namespace LogPipeline.Registry

variable {W : Type}

-- ============================================================= looking

/-- What an outlet has buffered. -/
def bufferAt (r : Registry W) (i : Nat) : Option ByteArray :=
  r.outlets[i]?.map (·.manager.buffer)

/-- The outlet is there and takes writes. -/
def openAt (r : Registry W) (i : Nat) : Bool := r.outlets[i]?.any (!·.manager.closed)

theorem openAt_iff {r : Registry W} {i : Nat} :
    r.openAt i = true ↔ ∃ o, r.outlets[i]? = some o ∧ o.manager.closed = false := by
  unfold openAt
  rw [Option.any_eq_true]
  simp only [Bool.not_eq_true']

-- =============================================================== using

variable {r : Registry W} {h : ManagerHandle} {o : Outlet W}
  {op : Sink W → Manager → W → Manager.Step W}

theorem withOutlet_none (ho : r.outlets[h.outlet]? = none) :
    r.withOutlet h op = (.ok (), r) := by
  unfold withOutlet outlet?
  rw [ho]

/-- An operation takes the manager of its outlet and the world further. -/
theorem withOutlet_some (ho : r.outlets[h.outlet]? = some o) :
    r.withOutlet h op = ((op o.sink o.manager r.world).1,
      { r with
        outlets := r.outlets.setIfInBounds h.outlet
          { o with manager := (op o.sink o.manager r.world).2.1 }
        world := (op o.sink o.manager r.world).2.2 }) := by
  unfold withOutlet outlet?
  rw [ho]

/-- An operation changes the manager of its own outlet, and nothing else
about the outlets. -/
theorem getElem?_withOutlet (r : Registry W) (h : ManagerHandle)
    (op : Sink W → Manager → W → Manager.Step W) (i : Nat) :
    (r.withOutlet h op).2.outlets[i]?
      = if i = h.outlet then r.outlets[i]?.map fun o =>
          { o with manager := (op o.sink o.manager r.world).2.1 }
        else r.outlets[i]? := by
  cases ho : r.outlets[h.outlet]? with
  | none =>
      rw [withOutlet_none ho]
      split
      · next hi => rw [hi, ho, Option.map_none]
      · rfl
  | some o =>
      rw [withOutlet_some ho, Array.getElem?_setIfInBounds]
      split
      · next hi =>
        have hlt : h.outlet < r.outlets.size := (Array.getElem?_eq_some_iff.1 ho).1
        rw [if_pos hlt, if_pos hi.symm, ← hi, ho]
        rfl
      · next hi => rw [if_neg (Ne.symm hi)]

/-- Using a manager leaves the names alone, and makes no outlet. -/
theorem entries_withOutlet (r : Registry W) (h : ManagerHandle)
    (op : Sink W → Manager → W → Manager.Step W) :
    (r.withOutlet h op).2.entries = r.entries
      ∧ (r.withOutlet h op).2.outlets.size = r.outlets.size := by
  cases ho : r.outlets[h.outlet]? with
  | none =>
      rw [withOutlet_none ho]
      exact ⟨rfl, rfl⟩
  | some o =>
      rw [withOutlet_some ho]
      exact ⟨rfl, Array.size_setIfInBounds⟩

-- =========================================================== acquiring

/-- What is reported of a manager that could not be made. -/
def refusal (name : String) (e : LogError) : StatusEntry :=
  ⟨.error, component, "unable to create manager '" ++ name ++ "': " ++ e.message⟩

/-- All that asking for a handle can come to: the name is there and counts one
more, or a manager is made for it, or it could not be made. -/
theorem acquire_cases (r : Registry W) (name : String) (f : ManagerFactory W) :
    (∃ e, r.entries.get? name = some e
        ∧ r.acquire name f = (.ok ⟨e.outlet⟩, [],
          { r with entries := r.entries.insert name { e with refCount := e.refCount + 1 } }))
      ∨ (r.entries.get? name = none ∧ ∃ o w, f name r.world = (.ok o, w)
        ∧ r.acquire name f = (.ok ⟨r.outlets.size⟩, [],
          ⟨r.outlets.push o, r.entries.insert name ⟨1, r.outlets.size⟩, w⟩))
      ∨ (r.entries.get? name = none ∧ ∃ e w, f name r.world = (.error e, w)
        ∧ r.acquire name f = (.error (.managerCreation name e.message), [refusal name e],
          { r with world := w })) := by
  unfold acquire
  cases hentry : r.entries.get? name with
  | some e => exact .inl ⟨e, rfl, rfl⟩
  | none =>
      rcases hmade : f name r.world with ⟨e | o, w⟩
      · exact .inr (.inr ⟨rfl, e, w, rfl, rfl⟩)
      · exact .inr (.inl ⟨rfl, o, w, rfl, rfl⟩)

-- =========================================================== releasing

/-- Take one reference off an entry, and tell whether it was the last. -/
def dropFrom (entries : Dict RegistryEntry) (name : String) (h : ManagerHandle) :
    Bool × Dict RegistryEntry :=
  let (isLast, r) := (⟨#[], entries, ()⟩ : Registry Unit).dropReference name h
  (isLast, r.entries)

/-- The name goes with its last reference. -/
theorem dropFrom_eq {entries : Dict RegistryEntry} {name : String} {e : RegistryEntry}
    {h : ManagerHandle} (he : entries.get? name = some e) (hout : e.outlet = h.outlet) :
    dropFrom entries name h
      = if e.refCount ≤ 1 then (true, entries.erase name)
        else (false, entries.insert name { e with refCount := e.refCount - 1 }) := by
  unfold dropFrom dropReference
  rw [he]
  dsimp only
  rw [if_pos hout]
  split <;> rfl

/-- Only the names matter to a reference that is given back. -/
theorem dropReference_eq (r : Registry W) (name : String) (h : ManagerHandle) :
    r.dropReference name h
      = ((dropFrom r.entries name h).1,
        { r with entries := (dropFrom r.entries name h).2 }) := by
  unfold dropFrom dropReference
  cases r.entries.get? name with
  | none => rfl
  | some e =>
      dsimp only
      split
      · split <;> rfl
      · rfl

/-- The registry once a handle of the manager was given back, which may
have been the last one. -/
def dropped (r : Registry W) (h : ManagerHandle) (m : Manager) : Registry W :=
  { r with entries := (dropFrom r.entries m.name h).2 }

/-- What is reported of closing a manager with its last handle. -/
def closeReport (name : String) : Except LogError Unit → List StatusEntry
  | .ok () => []
  | .error e => [⟨.error, component, "error closing manager '" ++ name ++ "': " ++ e.message⟩]

theorem release_none (ho : r.outlets[h.outlet]? = none) : r.release h = ([], r) := by
  have hmanager : r.manager? h = r.outlets[h.outlet]?.map (·.manager) := rfl
  unfold release
  rw [hmanager, ho]
  rfl

/-- A handle that is not the last only counts less. -/
theorem release_kept (ho : r.outlets[h.outlet]? = some o)
    (hkept : (dropFrom r.entries o.manager.name h).1 = false) :
    r.release h = ([], r.dropped h o.manager) := by
  have hmanager : r.manager? h = r.outlets[h.outlet]?.map (·.manager) := rfl
  unfold release
  rw [hmanager, ho]
  simp only [Option.map_some]
  rw [dropReference_eq, hkept]
  rfl

/-- The last handle closes the manager. -/
theorem release_last (ho : r.outlets[h.outlet]? = some o)
    (hlast : (dropFrom r.entries o.manager.name h).1 = true) :
    r.release h = (closeReport o.manager.name ((r.dropped h o.manager).close h).1,
      ((r.dropped h o.manager).close h).2) := by
  have hmanager : r.manager? h = r.outlets[h.outlet]?.map (·.manager) := rfl
  unfold release
  rw [hmanager, ho]
  simp only [Option.map_some]
  rw [dropReference_eq, hlast]
  obtain ⟨r₁, hr₁⟩ : ∃ r₁, r₁ = r.dropped h o.manager := ⟨_, rfl⟩
  rw [show { r with entries := (dropFrom r.entries o.manager.name h).2 } = r₁ from hr₁.symm,
    ← hr₁]
  simp only [if_true]
  rcases r₁.close h with ⟨_ | _, r'⟩ <;> rfl

end LogPipeline.Registry
