/-
Handles that are taken for a while and given back, on a registry that
others use as well (`Borrowed`). While they are out, every manager has the
references that it had before and one for each handle that was taken on it
(`refs`). So it does not matter in which order the handles come back: with
the last of them the entries are those that there were at first, what was
made in between is closed, and what was open is still open (`returned`).
-/
import LogPipeline.Proofs.Output.References
import Mathlib.Data.List.Perm.Basic

namespace LogPipeline

namespace Manager

variable {W : Type} {m : Manager}

/-- The manager was flushed and closed, and nothing is left in it. -/
structure Finished (m : Manager) : Prop where
  closed_eq : m.closed = true
  buffer_eq : m.buffer = .empty
  flushed : 0 < m.flushes

/-- An open manager that is closed has finished. -/
theorem finished_close (k : Sink W) (w : W) (hopen : m.closed = false) :
    (close k m w).2.1.Finished where
  closed_eq := closed_close k m w
  buffer_eq := buffer_close k w hopen
  flushed := by
    unfold close
    rw [hopen]
    exact Nat.succ_pos _

end Manager

namespace Registry

variable {W : Type} {r : Registry W} {name : String} {e : RegistryEntry} {i : Nat}

-- ========================================================== borrowing

/-- What a registry has come to since it was `r₀`, while the handles `taken`
are out beside those that were out then. -/
structure Borrowed (r₀ : Registry W) (taken : List ManagerHandle) (r : Registry W) : Prop where
  sound : r.Sound
  size_le : r₀.outlets.size ≤ r.outlets.size
  /-- Every manager has the references it had, and those that were taken. -/
  refs : ∀ i, r.refsAt i = r₀.refsAt i + taken.count ⟨i⟩
  /-- What was taken of the managers that were there was in use. -/
  shared : ∀ h ∈ taken, h.outlet < r₀.outlets.size → 0 < r₀.refsAt h.outlet
  kept : ∀ i < r₀.outlets.size, r.nameAt i = r₀.nameAt i ∧ r.openAt i = r₀.openAt i
  /-- A new manager is open as long as there is a handle on it. -/
  held : ∀ h ∈ taken, r₀.outlets.size ≤ h.outlet → r.openAt h.outlet = true
  finished : ∀ (i : Nat) (o : Outlet W), r₀.outlets.size ≤ i → r.outlets[i]? = some o →
    ⟨i⟩ ∉ taken → o.manager.Finished

variable {r₀ : Registry W} {taken : List ManagerHandle} {h : ManagerHandle}

/-- At first nothing has been taken. -/
theorem borrowed_start (hs : r₀.Sound) : Borrowed r₀ [] r₀ where
  sound := hs
  size_le := Nat.le_refl _
  refs _ := rfl
  shared _ hh := by cases hh
  kept _ _ := ⟨rfl, rfl⟩
  held _ hh := by cases hh
  finished i o hi ho _ := by
    rw [Array.getElem?_eq_none hi] at ho
    cases ho

/-- It does not matter in which order handles are counted. -/
theorem Borrowed.perm (hb : Borrowed r₀ taken r) {taken' : List ManagerHandle}
    (hp : taken.Perm taken') : Borrowed r₀ taken' r where
  sound := hb.sound
  size_le := hb.size_le
  refs i := hp.count_eq _ ▸ hb.refs i
  shared h hh := hb.shared h (hp.mem_iff.2 hh)
  kept := hb.kept
  held h hh := hb.held h (hp.mem_iff.2 hh)
  finished i o hi ho hh := hb.finished i o hi ho fun hc => hh (hp.mem_iff.1 hc)

theorem Borrowed.in_world (hb : Borrowed r₀ taken r) (w : W) :
    Borrowed r₀ taken { r with world := w } :=
  ⟨hb.sound, hb.size_le, hb.refs, hb.shared, hb.kept, hb.held, hb.finished⟩

theorem count_cons_outlet (h : ManagerHandle) (taken : List ManagerHandle) (i : Nat) :
    (h :: taken).count ⟨i⟩ = taken.count ⟨i⟩ + if i = h.outlet then 1 else 0 := by
  rw [List.count_cons]
  congr 1
  by_cases hi : i = h.outlet
  · rw [if_pos hi, hi]
    exact if_pos (beq_self_eq_true h)
  · rw [if_neg hi]
    exact if_neg fun hc => hi (congrArg ManagerHandle.outlet (beq_iff_eq.1 hc)).symm

/-- A new manager that somebody has a reference to is one that was taken. -/
theorem Borrowed.mem_of_refs (hb : Borrowed r₀ taken r) (hnew : r₀.outlets.size ≤ i)
    (hpos : 0 < r.refsAt i) : ⟨i⟩ ∈ taken := by
  rw [hb.refs, refsAt_eq_zero hnew, Nat.zero_add] at hpos
  exact List.count_pos_iff.1 hpos

/-- Another handle on a manager that has an entry. -/
theorem Borrowed.share (hb : Borrowed r₀ taken r) (he : r.entries.get? name = some e) :
    Borrowed r₀ (⟨e.outlet⟩ :: taken)
      { r with entries := r.entries.insert name { e with refCount := e.refCount + 1 } } := by
  obtain ⟨hpos, hname⟩ := hb.sound name e he
  have hrefs : r.refsAt e.outlet = e.refCount := refsAt_of_entry hb.sound he
  have hin : 0 < r.refsAt e.outlet := hrefs ▸ hpos
  exact {
    sound := sound_insert hb.sound hname (Nat.succ_pos _)
    size_le := hb.size_le
    refs := by
      intro i
      rw [refsAt_insert hname fun _ => outlet_unique he, count_cons_outlet, ← Nat.add_assoc,
        ← hb.refs]
      split
      · next hi => rw [hi, hrefs]
      · rfl
    shared := by
      intro h hh hold
      rcases List.mem_cons.1 hh with rfl | hh
      · by_cases htaken : ⟨e.outlet⟩ ∈ taken
        · exact hb.shared _ htaken hold
        · rw [hb.refs, List.count_eq_zero.2 htaken] at hin
          exact hin
      · exact hb.shared h hh hold
    kept := hb.kept
    held := by
      intro h hh hnew
      rcases List.mem_cons.1 hh with rfl | hh
      · exact hb.held _ (hb.mem_of_refs hnew hin) hnew
      · exact hb.held h hh hnew
    finished := fun i o hi ho hh =>
      hb.finished i o hi ho fun hc => hh (List.mem_cons_of_mem _ hc) }

/-- A handle on a manager that was made for it. -/
theorem Borrowed.make (hb : Borrowed r₀ taken r) {o : Outlet W}
    (hnone : r.entries.get? o.manager.name = none) (hopen : o.manager.closed = false) :
    Borrowed r₀ (⟨r.outlets.size⟩ :: taken)
      { r.added o with entries := r.entries.insert o.manager.name ⟨1, r.outlets.size⟩ } := by
  have hself : (r.added o).nameAt r.outlets.size = some o.manager.name := by
    rw [nameAt_added, if_pos rfl]
  -- those that were there before have other numbers
  have hold : ∀ i < r₀.outlets.size, i ≠ r.outlets.size := fun i hi =>
    Nat.ne_of_lt (Nat.lt_of_lt_of_le hi hb.size_le)
  exact {
    sound := sound_insert (sound_added o hb.sound) hself Nat.one_pos
    size_le := by
      show r₀.outlets.size ≤ (r.outlets.push o).size
      rw [Array.size_push]
      exact Nat.le_succ_of_le hb.size_le
    refs := by
      intro i
      refine (refsAt_insert hself fun e he => ?_).trans ?_
      · rw [show (r.added o).entries = r.entries from rfl, hnone] at he
        cases he
      · rw [count_cons_outlet, ← Nat.add_assoc, ← hb.refs, refsAt_added o hnone]
        split
        · next hi => rw [refsAt_eq_zero (Nat.le_of_eq hi.symm)]
        · rfl
    shared := by
      intro h hh hlt
      rcases List.mem_cons.1 hh with rfl | hh
      · exact absurd rfl (hold _ hlt)
      · exact hb.shared h hh hlt
    kept := fun i hi =>
      ⟨((nameAt_added o r i).trans (if_neg (hold i hi))).trans (hb.kept i hi).1,
        (openAt_added o (hold i hi)).trans (hb.kept i hi).2⟩
    held := by
      intro h hh hnew
      by_cases hlast : h.outlet = r.outlets.size
      · exact openAt_iff.2 ⟨o, (getElem?_added o r _).trans (if_pos hlast), hopen⟩
      · refine (openAt_added o hlast).trans ?_
        rcases List.mem_cons.1 hh with rfl | hh
        · exact absurd rfl hlast
        · exact hb.held h hh hnew
    finished := by
      intro i p hi hp hh
      have hi' : i ≠ r.outlets.size := fun hc => hh (hc ▸ List.mem_cons_self)
      have hp' : (r.added o).outlets[i]? = some p := hp
      rw [getElem?_added, if_neg hi'] at hp'
      exact hb.finished i p hi hp' fun hc => hh (List.mem_cons_of_mem _ hc) }

/-- What is out once something was tried: what its result holds, or `taken`
if it failed, however it failed. -/
def Tried {ε α : Type} (r₀ : Registry W) (held : α → List ManagerHandle)
    (taken : List ManagerHandle) : Except ε α → Registry W → Prop
  | .ok a, r => Borrowed r₀ (held a) r
  | .error _, r => Borrowed r₀ taken r

/-- Whoever asks for a handle has it, or nothing has happened but in the world. -/
theorem Borrowed.acquire (hb : Borrowed r₀ taken r) {f : ManagerFactory W}
    (hf : RegistryOp.Honest (.acquire name f)) :
    Tried r₀ (· :: taken) taken (r.acquire name f).1 (r.acquire name f).2.2 := by
  rcases r.acquire_cases name f
    with ⟨e, he, hgot⟩ | ⟨hnone, o, w, hmade, hgot⟩ | ⟨-, e, w, -, hgot⟩
  · rw [hgot]
    exact hb.share he
  · rw [hgot]
    obtain ⟨rfl, hopen⟩ := hf r.world o (by rw [hmade])
    exact (hb.make hnone hopen).in_world w
  · rw [hgot]
    exact hb.in_world w

/-- What is done with a manager takes no part in who holds what, as long as
the manager keeps its name and is not closed by it. -/
theorem Borrowed.withOutlet (hb : Borrowed r₀ taken r) (h : ManagerHandle)
    {op : Sink W → Manager → W → Manager.Step W}
    (hname : ∀ k m w, (op k m w).2.1.name = m.name)
    (hclosed : ∀ k m w, (op k m w).2.1.closed = m.closed)
    (hdone : ∀ k m w, m.closed = true → (op k m w).2.1 = m) :
    Borrowed r₀ taken (r.withOutlet h op).2 := by
  have hopenAt : ∀ i, (r.withOutlet h op).2.openAt i = r.openAt i :=
    openAt_withOutlet r h hclosed
  exact {
    sound := sound_withOutlet hname hb.sound
    size_le := (entries_withOutlet r h op).2 ▸ hb.size_le
    refs := fun i => (refsAt_withOutlet hname i).trans (hb.refs i)
    shared := hb.shared
    kept := fun i hi => ⟨(nameAt_withOutlet hname i).trans (hb.kept i hi).1,
      (hopenAt i).trans (hb.kept i hi).2⟩
    held := fun h' hh hnew => (hopenAt _).trans (hb.held h' hh hnew)
    finished := by
      intro i o hi ho hh
      rw [getElem?_withOutlet] at ho
      split at ho
      · obtain ⟨p, hp, rfl⟩ := Option.map_eq_some_iff.1 ho
        have hfinished := hb.finished i p hi hp hh
        show (op p.sink p.manager r.world).2.1.Finished
        rw [hdone _ _ _ hfinished.closed_eq]
        exact hfinished
      · exact hb.finished i o hi ho hh }

/-- To flush a manager takes no handle and gives none back. -/
theorem Borrowed.flush (hb : Borrowed r₀ taken r) (h : ManagerHandle) :
    Borrowed r₀ taken (r.flush h).2 := by
  refine hb.withOutlet h Manager.name_flush Manager.closed_flush fun k m w hclosed => ?_
  unfold Manager.flush
  rw [hclosed]
  rfl

theorem Borrowed.write (hb : Borrowed r₀ taken r) (h : ManagerHandle) (bytes : ByteArray)
    (endOfBatch : Bool) : Borrowed r₀ taken (r.write h bytes endOfBatch).2 := by
  refine hb.withOutlet h (fun k => Manager.name_write k bytes endOfBatch)
    (fun k => Manager.closed_write k bytes endOfBatch) fun k m w hclosed => ?_
  unfold Manager.write
  rw [hclosed]
  rfl

/-- A handle that is out counts for its own outlet. -/
theorem Borrowed.refs_cons (hb : Borrowed r₀ (h :: taken) r) (i : Nat) :
    r.refsAt i = r₀.refsAt i + taken.count ⟨i⟩ + if i = h.outlet then 1 else 0 := by
  rw [hb.refs, count_cons_outlet, Nat.add_assoc]

theorem not_mem_cons_of_ne (hi : i ≠ h.outlet) (hh : ⟨i⟩ ∉ taken) : ⟨i⟩ ∉ h :: taken := by
  intro hc
  rcases List.mem_cons.1 hc with rfl | hc
  · exact hi rfl
  · exact hh hc

/-- A handle that is not the last one counts no more. -/
theorem Borrowed.uncount (hb : Borrowed r₀ (h :: taken) r) (hname : r.nameAt h.outlet = some name)
    (he : r.entries.get? name = some ⟨r.refsAt h.outlet, h.outlet⟩)
    (hmore : 1 < r.refsAt h.outlet) :
    Borrowed r₀ taken
      { r with entries := r.entries.insert name ⟨r.refsAt h.outlet - 1, h.outlet⟩ } := by
  exact {
    sound := sound_insert hb.sound hname (Nat.sub_pos_of_lt hmore)
    size_le := hb.size_le
    refs := by
      intro i
      have hrefs := hb.refs_cons i
      rw [refsAt_insert hname fun _ => outlet_unique he]
      split
      · next hi =>
        rw [if_pos hi, hi] at hrefs
        rw [hi]
        omega
      · next hi => rw [hrefs, if_neg hi, Nat.add_zero]
    shared := fun h' hh => hb.shared h' (List.mem_cons_of_mem _ hh)
    kept := hb.kept
    held := fun h' hh => hb.held h' (List.mem_cons_of_mem _ hh)
    finished := by
      intro i p hi hp hh
      refine hb.finished i p hi hp (not_mem_cons_of_ne (fun hc => ?_) hh)
      -- then the handle would have been the only one on a new manager
      have hrefs := hb.refs_cons i
      rw [refsAt_eq_zero hi, List.count_eq_zero.2 hh, if_pos hc, hc] at hrefs
      omega }

/-- The last handle on a manager that was made in between. The manager is
closed. -/
theorem Borrowed.close_last (hb : Borrowed r₀ (h :: taken) r)
    (he : r.entries.get? name = some ⟨r.refsAt h.outlet, h.outlet⟩)
    (hlast : r.refsAt h.outlet ≤ 1) :
    Borrowed r₀ taken
      (Registry.close { r with entries := r.entries.erase name } h).2 := by
  have hself := hb.refs_cons h.outlet
  rw [if_pos rfl] at hself
  -- this handle was the only one, so none of those before was on the outlet
  have hfree : r₀.refsAt h.outlet = 0 ∧ taken.count ⟨h.outlet⟩ = 0 := by omega
  have hnew : r₀.outlets.size ≤ h.outlet := by
    refine Nat.le_of_not_lt fun hlt => ?_
    exact Nat.ne_of_gt (hb.shared h List.mem_cons_self hlt) hfree.1
  obtain ⟨r₁, hr₁⟩ : ∃ r₁ : Registry W, r₁ = { r with entries := r.entries.erase name } :=
    ⟨_, rfl⟩
  rw [← hr₁]
  have hsound : r₁.Sound := hr₁ ▸ sound_erase hb.sound name
  have houtlets : r₁.outlets = r.outlets := by rw [hr₁]
  -- closing touches one outlet
  have hget : ∀ i, (r₁.close h).2.outlets[i]? = if i = h.outlet
      then r.outlets[i]?.map fun o =>
        { o with manager := (Manager.close o.sink o.manager r₁.world).2.1 }
      else r.outlets[i]? := by
    rw [← houtlets]
    exact getElem?_withOutlet r₁ h Manager.close
  have hopenAt : ∀ i, i ≠ h.outlet → (r₁.close h).2.openAt i = r.openAt i := by
    intro i hi
    unfold openAt
    rw [hget, if_neg hi]
  exact {
    sound := sound_withOutlet Manager.name_close hsound
    size_le := by
      rw [show (r₁.close h).2.outlets.size = r₁.outlets.size from
        (entries_withOutlet r₁ h Manager.close).2, houtlets]
      exact hb.size_le
    refs := by
      intro i
      refine (refsAt_withOutlet Manager.name_close i).trans ?_
      rw [hr₁, refsAt_erase hb.sound he]
      split
      · next hi => rw [hi, hfree.1, hfree.2]
      · next hi => rw [hb.refs_cons, if_neg hi, Nat.add_zero]
    shared := fun h' hh => hb.shared h' (List.mem_cons_of_mem _ hh)
    kept := by
      intro i hi
      refine ⟨(nameAt_withOutlet Manager.name_close i).trans ?_, ?_⟩
      · unfold nameAt
        rw [houtlets]
        exact (hb.kept i hi).1
      · rw [hopenAt i (Nat.ne_of_lt (Nat.lt_of_lt_of_le hi hnew))]
        exact (hb.kept i hi).2
    held := by
      intro h' hh hnew'
      have hother : h'.outlet ≠ h.outlet := fun hc =>
        Nat.ne_of_gt (List.count_pos_iff.2 (hc ▸ hh)) hfree.2
      rw [hopenAt _ hother]
      exact hb.held h' (List.mem_cons_of_mem _ hh) hnew'
    finished := by
      intro i p hi hp hh
      rw [hget] at hp
      split at hp
      · next hself' =>
        obtain ⟨o, ho, rfl⟩ := Option.map_eq_some_iff.1 hp
        obtain ⟨o', ho', hopen⟩ := openAt_iff.1 (hb.held h List.mem_cons_self hnew)
        rw [← hself', ho] at ho'
        cases ho'
        exact Manager.finished_close o.sink r₁.world hopen
      · next hother => exact hb.finished i p hi hp (not_mem_cons_of_ne hother hh) }

/-- A handle that was taken is given back. -/
theorem Borrowed.release (hb : Borrowed r₀ (h :: taken) r) :
    Borrowed r₀ taken (r.release h).2 := by
  have hrefs := hb.refs_cons h.outlet
  rw [if_pos rfl] at hrefs
  obtain ⟨name, hname, he⟩ := entry_of_refsAt (r := r) (i := h.outlet) (by omega)
  obtain ⟨o, ho, rfl⟩ := Option.map_eq_some_iff.1 hname
  have hdrop := dropFrom_eq (h := h) he rfl
  by_cases hlast : r.refsAt h.outlet ≤ 1
  · rw [if_pos hlast] at hdrop
    rw [release_last ho (by rw [hdrop])]
    unfold dropped
    rw [hdrop]
    exact hb.close_last he hlast
  · rw [if_neg hlast] at hdrop
    rw [release_kept ho (by rw [hdrop])]
    unfold dropped
    rw [hdrop]
    exact hb.uncount hname he (Nat.lt_of_not_le hlast)

/-- With every handle given back, the entries are those of before, what was
/-- With everything given back the names are as they were, new managers have
finished, and those that were there are as open as before. -/
open is still open, and what was made is closed. -/
theorem Borrowed.returned (hb : Borrowed r₀ [] r) (hs : r₀.Sound) :
    r.entries = r₀.entries
      ∧ (∀ (i : Nat) (o : Outlet W), r₀.outlets.size ≤ i → r.outlets[i]? = some o →
        o.manager.Finished)
      ∧ ∀ i < r₀.outlets.size, r.nameAt i = r₀.nameAt i ∧ r.openAt i = r₀.openAt i := by
  refine ⟨entries_eq_of_refsAt hs hb.sound hb.refs fun i name hname => ?_,
    fun i o hi ho => hb.finished i o hi ho List.not_mem_nil, hb.kept⟩
  exact (hb.kept i (lt_of_nameAt hname)).1.trans hname

end Registry

end LogPipeline
