/-
Handles that are given back, and what holds of every run of a registry
(`leases_kept`).

Using a manager touches one outlet and what is noted under one number
(`inv_using`); closing is one way of using (`inv_shut`). Letting a handle
go touches entries and leases alone (`inv_letGo`). Giving back at once is
the one and, for the last handle, the other after it (`release_eq`), so
that whatever holds between the two halves holds of it as well.
-/
import LogPipeline.Proofs.Output.Leases

namespace LogPipeline.Desk

variable {W : Type} {d : Desk (Traced W)}

-- ==================================================== using managers

section

variable {handle : ManagerHandle}
  {op : Sink (Traced W) → Manager → Traced W → Manager.Step (Traced W)}

/-- What is noted when a manager is used is noted under the number of the
acquisition that made it. -/
theorem world_withOutlet (h : d.Inv) (handle : ManagerHandle) (hop : Manager.Orderly op) :
    (d.registry.withOutlet handle op).2.world.asked = d.registry.world.asked
      ∧ ∀ n, d.founders[handle.outlet]? ≠ some n →
        (d.registry.withOutlet handle op).2.world.calls n = d.registry.world.calls n := by
  cases ho : d.registry.outlets[handle.outlet]? with
  | none =>
      rw [Registry.withOutlet_none ho]
      exact ⟨rfl, fun _ _ => rfl⟩
  | some o =>
      obtain ⟨n₀, k, hn₀, hk⟩ := h.founded _ o ho
      rw [Registry.withOutlet_some ho, hk]
      have hquiet : ∀ n ≠ n₀,
          (op (k.traced n₀) o.manager d.registry.world).2.2.asked = d.registry.world.asked
            ∧ (op (k.traced n₀) o.manager d.registry.world).2.2.calls n
              = d.registry.world.calls n := fun n hn =>
        hop.keeps (k.quiet_traced n₀ hn _ _) o.manager ⟨rfl, rfl⟩
      refine ⟨(hquiet (n₀ + 1) (Nat.succ_ne_self n₀)).1, fun n hn => (hquiet n fun heq => ?_).2⟩
      exact hn (heq ▸ hn₀)

/-- A manager is used, and its sink notes what is told of it. -/
theorem inv_using (h : d.Inv) (hop : Manager.Orderly op) (closing : List ManagerHandle)
    (htold : ∀ (o : Outlet (Traced W)) (n : Nat) (k : Sink W),
      d.registry.outlets[handle.outlet]? = some o → o.sink = Sink.traced n k →
      Told o.manager (d.registry.world.calls n) →
      Told (op (k.traced n) o.manager d.registry.world).2.1
        ((op (k.traced n) o.manager d.registry.world).2.2.calls n))
    (hheld : ∀ i, (d.registry.withOutlet handle op).2.openAt i = true
      ↔ Held { d with closing := closing } i)
    (hnodup : closing.Nodup) (hapart : ∀ l ∈ d.leases, l.handle ∉ closing) :
    Inv { d with registry := (d.registry.withOutlet handle op).2, closing := closing } := by
  obtain ⟨hentries, hsize⟩ := Registry.entries_withOutlet d.registry handle op
  obtain ⟨hasked, hquiet⟩ := world_withOutlet h handle hop
  have hget := Registry.getElem?_withOutlet d.registry handle op
  exact {
    counted := by
      show ∀ name e, (d.registry.withOutlet handle op).2.entries.get? name = some e → _
      rw [hentries]
      exact h.counted
    leased := by
      show ∀ l ∈ d.leases,
        ∃ e, (d.registry.withOutlet handle op).2.entries.get? l.name = some e ∧ _
      rw [hentries]
      exact h.leased
    named := by
      intro l hl
      obtain ⟨o, ho, hname⟩ := h.named l hl
      show ∃ p, (d.registry.withOutlet handle op).2.outlets[l.handle.outlet]? = some p ∧ _
      rw [hget, ho]
      split
      · exact ⟨_, rfl, (hop.name_eq _ _ _).trans hname⟩
      · exact ⟨o, rfl, hname⟩
    held := hheld
    due_nodup := hnodup
    due_apart := hapart
    founded := by
      intro i p hp
      have hp' : (d.registry.withOutlet handle op).2.outlets[i]? = some p := hp
      rw [hget] at hp'
      split at hp'
      · obtain ⟨o, ho, rfl⟩ := Option.map_eq_some_iff.1 hp'
        exact h.founded i o ho
      · exact h.founded i p hp'
    length_eq := h.length_eq.trans hsize.symm
    sublist := h.sublist
    ordered := h.ordered
    served := h.served
    asked_eq := hasked.trans h.asked_eq
    -- who has not founded an outlet is not heard of
    fresh := by
      intro n hn
      refine (hquiet n fun hfounder => ?_).trans (h.fresh n hn)
      exact Nat.lt_irrefl _ (Nat.lt_of_lt_of_le (h.founder_lt hfounder) hn)
    told := by
      intro i p n hp hn
      have hp' : (d.registry.withOutlet handle op).2.outlets[i]? = some p := hp
      show Told p.manager ((d.registry.withOutlet handle op).2.world.calls n)
      rw [hget] at hp'
      split at hp'
      · next hi =>
        obtain ⟨o, ho, rfl⟩ := Option.map_eq_some_iff.1 hp'
        obtain ⟨n', k, hn', hk⟩ := h.founded i o ho
        have hsame : n = n' := Option.some.inj (hn.symm.trans hn')
        rw [hi] at ho
        rw [Registry.withOutlet_some ho, hk, hsame]
        exact htold o n' k ho hk (h.told _ o n' ho (hi ▸ hn'))
      -- a sink belongs to one founder, so the call was to another one
      · next hi =>
        rw [hquiet n fun hfounder => hi (h.founder_inj hn hfounder)]
        exact h.told i p n hp' hn }

/-- Writing and flushing, on whatever manager. -/
theorem inv_gentle (h : d.Inv) (hop : Manager.Orderly op) (hgentle : Manager.Gentle op)
    (hclosed : ∀ k m t, (op k m t).2.1.closed = m.closed) :
    (d.withRegistry (d.registry.withOutlet handle op).2).Inv := by
  refine inv_using h hop d.closing (fun o n k _ _ htold => ?_) (fun i => ?_)
    h.due_nodup h.due_apart
  · unfold Told at htold ⊢
    rw [hclosed]
    cases hc : o.manager.closed with
    | true =>
        rw [hop.idle _ _ hc]
        rw [hc] at htold
        exact htold
    | false =>
        rw [hc] at htold
        exact hgentle n k o.manager _ htold
  · rw [Registry.openAt_withOutlet d.registry handle hclosed i]
    exact h.held i

end

theorem inv_flush (h : d.Inv) (handle : ManagerHandle) :
    (d.withRegistry (d.registry.flush handle).2).Inv :=
  inv_gentle h Manager.orderly_flush Manager.gentle_flush Manager.closed_flush

theorem inv_flushEach (h : d.Inv) (hs : List ManagerHandle) :
    (d.withRegistry (d.registry.flushEach hs).2).Inv := by
  induction hs generalizing d with
  | nil => exact h
  | cons handle rest ih =>
      have hreported : (d.registry.flushReported handle).2 = (d.registry.flush handle).2 := by
        unfold Registry.flushReported
        rcases d.registry.flush handle with ⟨_ | _, _⟩ <;> rfl
      have hfirst := inv_flush h handle
      rw [← hreported] at hfirst
      exact ih hfirst

-- ====================================================== giving back

variable {l : Lease}

theorem countOf_erase (hl : l ∈ d.leases) (name : String) :
    d.countOf name = countOf { d with leases := d.leases.erase l } name
      + if l.name = name then 1 else 0 := by
  unfold countOf
  rw [(List.perm_cons_erase hl).countP_eq, List.countP_cons]
  simp only [beq_iff_eq]

/-- The entry that a live handle is counted by. -/
theorem Inv.entry (h : d.Inv) (hl : l ∈ d.leases) :
    d.registry.entries.get? l.name = some ⟨d.countOf l.name, l.handle.outlet⟩
      ∧ 0 < d.countOf l.name := by
  obtain ⟨⟨count, i⟩, he, houtlet⟩ := h.leased l hl
  obtain ⟨hpos, hcount⟩ := h.counted l.name _ he
  have hcount' : count = d.countOf l.name := hcount
  have houtlet' : i = l.handle.outlet := houtlet
  rw [he, hcount', houtlet']
  exact ⟨rfl, hcount' ▸ hpos⟩

/-- Taking a live handle off its entry; with the last one the entry goes. -/
theorem Inv.dropReference_eq (h : d.Inv) (hl : l ∈ d.leases) :
    d.registry.dropReference l.name l.handle = (d.countOf l.name == 1,
      { d.registry with
        entries :=
          if d.countOf l.name = 1 then d.registry.entries.erase l.name
          else d.registry.entries.insert l.name ⟨d.countOf l.name - 1, l.handle.outlet⟩ }) := by
  obtain ⟨he, hpos⟩ := h.entry hl
  unfold Registry.dropReference
  rw [he]
  dsimp only
  rw [if_pos rfl]
  by_cases hlast : d.countOf l.name = 1
  · rw [if_pos (Nat.le_of_eq hlast), if_pos hlast, beq_iff_eq.2 hlast]
  · rw [if_neg (by omega), if_neg hlast, beq_eq_false_iff_ne.2 hlast]

/-- A handle that is let go counts no more; the last one leaves the manager
to be closed. -/
theorem letGo_eq (h : d.Inv) (hl : l ∈ d.leases) :
    d.letGo l = { d with
      registry := { d.registry with
        entries :=
          if d.countOf l.name = 1 then d.registry.entries.erase l.name
          else d.registry.entries.insert l.name ⟨d.countOf l.name - 1, l.handle.outlet⟩ }
      leases := d.leases.erase l
      closing := if d.countOf l.name = 1 then l.handle :: d.closing else d.closing } := by
  unfold letGo
  rw [if_pos hl, h.nameOf_eq hl, h.dropReference_eq hl]
  dsimp only
  simp only [beq_iff_eq]

/-- Another live handle on the manager is there just if the name is counted
more than once. -/
theorem Inv.shared_iff (h : d.Inv) (hl : l ∈ d.leases) :
    (∃ l' ∈ d.leases.erase l, l'.handle.outlet = l.handle.outlet) ↔ d.countOf l.name ≠ 1 := by
  have hcount := countOf_erase hl l.name
  rw [if_pos rfl] at hcount
  have hrest : countOf { d with leases := d.leases.erase l } l.name ≠ 0
      ↔ ∃ l' ∈ d.leases.erase l, l'.name = l.name := by
    unfold countOf
    rw [Ne, List.countP_eq_zero]
    simp
  have hsame : ∀ l' ∈ d.leases, l'.handle.outlet = l.handle.outlet ↔ l'.name = l.name := by
    intro l' hl'
    rw [h.same_manager hl' hl]
    exact ⟨ManagerHandle.ext_outlet, congrArg ManagerHandle.outlet⟩
  constructor
  · rintro ⟨l', hl', houtlet⟩
    have := hrest.2 ⟨l', hl', (hsame l' (List.mem_of_mem_erase hl')).1 houtlet⟩
    omega
  · intro hne
    obtain ⟨l', hl', hname⟩ := hrest.1 (by omega)
    exact ⟨l', hl', (hsame l' (List.mem_of_mem_erase hl')).2 hname⟩

/-- The outlets that are leased, one lease taken aside. -/
theorem leasedAt_erase (hl : l ∈ d.leases) (i : Nat) :
    (∃ l' ∈ d.leases, l'.handle.outlet = i)
      ↔ l.handle.outlet = i ∨ ∃ l' ∈ d.leases.erase l, l'.handle.outlet = i := by
  constructor
  · rintro ⟨l', hl', houtlet⟩
    rcases List.mem_cons.1 ((List.perm_cons_erase hl).mem_iff.1 hl') with rfl | hl'
    · exact .inl houtlet
    · exact .inr ⟨l', hl', houtlet⟩
  · rintro (houtlet | ⟨l', hl', houtlet⟩)
    · exact ⟨l, hl, houtlet⟩
    · exact ⟨l', List.mem_of_mem_erase hl', houtlet⟩

/-- Letting a handle go that is not the last: others are left, and the
manager stays theirs. -/
theorem inv_letGo_kept (h : d.Inv) (hl : l ∈ d.leases) (hmore : d.countOf l.name ≠ 1) :
    (d.letGo l).Inv := by
  obtain ⟨he, hpos⟩ := h.entry hl
  have herase : ∀ l' ∈ d.leases.erase l, l' ∈ d.leases := fun l' hl' =>
    List.mem_of_mem_erase hl'
  rw [letGo_eq h hl, if_neg hmore, if_neg hmore]
  exact { h with
    counted := by
      intro name e hget
      have hget' : (d.registry.entries.insert l.name _).get? name = some e := hget
      rw [Dict.get?_insert] at hget'
      have hcount := countOf_erase hl name
      show 0 < e.refCount ∧ e.refCount = countOf { d with leases := d.leases.erase l } name
      split at hget'
      · next hname =>
        cases hget'
        rw [if_pos hname, ← hname] at hcount
        rw [← hname]
        dsimp only
        omega
      · next hname =>
        rw [if_neg hname] at hcount
        have := h.counted name e hget'
        rw [hcount] at this
        exact this
    leased := by
      intro l' hl'
      show ∃ e, (d.registry.entries.insert l.name _).get? l'.name = some e ∧ _
      rw [Dict.get?_insert]
      split
      · next hname =>
        have hhandle := (h.same_manager hl (herase l' hl')).1 hname
        exact ⟨_, rfl, congrArg ManagerHandle.outlet hhandle⟩
      · exact h.leased l' (herase l' hl')
    named := fun l' hl' => h.named l' (herase l' hl')
    held := by
      intro i
      refine (h.held i).trans (or_congr_left ((leasedAt_erase hl i).trans ⟨fun hi => ?_, .inr⟩))
      exact hi.elim (fun houtlet => houtlet ▸ (h.shared_iff hl).2 hmore) id
    due_apart := fun l' hl' => h.due_apart l' (herase l' hl') }

/-- Letting the last handle go: the entry goes with it, and the manager is
to be closed. -/
theorem inv_letGo_last (h : d.Inv) (hl : l ∈ d.leases) (hlast : d.countOf l.name = 1) :
    (d.letGo l).Inv := by
  -- nobody else has a lease on this manager
  have hnone : ¬ ∃ l' ∈ d.leases.erase l, l'.handle.outlet = l.handle.outlet := fun hc =>
    (h.shared_iff hl).1 hc hlast
  have herase : ∀ l' ∈ d.leases.erase l, l' ∈ d.leases := fun l' hl' =>
    List.mem_of_mem_erase hl'
  rw [letGo_eq h hl, if_pos hlast, if_pos hlast]
  exact { h with
    counted := by
      intro name e hget
      have hget' : (d.registry.entries.erase l.name).get? name = some e := hget
      rw [Dict.get?_erase] at hget'
      split at hget'
      · cases hget'
      · next hname =>
        have hcount := countOf_erase hl name
        rw [if_neg hname] at hcount
        have := h.counted name e hget'
        rw [hcount] at this
        exact this
    leased := by
      intro l' hl'
      show ∃ e, (d.registry.entries.erase l.name).get? l'.name = some e ∧ _
      rw [Dict.get?_erase, if_neg]
      · exact h.leased l' (herase l' hl')
      · intro hname
        have hhandle := (h.same_manager (herase l' hl') hl).1 hname.symm
        exact hnone ⟨l', hl', congrArg ManagerHandle.outlet hhandle⟩
    named := fun l' hl' => h.named l' (herase l' hl')
    held := by
      intro i
      have hdue : (⟨i⟩ : ManagerHandle) ∈ l.handle :: d.closing
          ↔ l.handle.outlet = i ∨ ⟨i⟩ ∈ d.closing := by
        rw [List.mem_cons]
        refine or_congr_left ⟨fun heq => (congrArg ManagerHandle.outlet heq).symm, fun heq => ?_⟩
        exact (ManagerHandle.ext_outlet heq).symm
      refine (h.held i).trans ?_
      -- the handle is no longer leased, and is to be closed instead
      show (∃ l' ∈ d.leases, _) ∨ _ ↔ (∃ l' ∈ d.leases.erase l, _) ∨ _
      rw [leasedAt_erase hl i, hdue, or_assoc]
      exact or_left_comm
    due_nodup := List.nodup_cons.2 ⟨h.due_apart l hl, h.due_nodup⟩
    due_apart := by
      intro l' hl' hmem
      rcases List.mem_cons.1 hmem with heq | hmem
      · exact hnone ⟨l', hl', congrArg ManagerHandle.outlet heq⟩
      · exact h.due_apart l' (herase l' hl') hmem }

theorem inv_letGo (h : d.Inv) (l : Lease) : (d.letGo l).Inv := by
  by_cases hl : l ∈ d.leases
  · by_cases hlast : d.countOf l.name = 1
    · exact inv_letGo_last h hl hlast
    · exact inv_letGo_kept h hl hlast
  · unfold letGo
    rw [if_neg hl]
    exact h

/-- A manager that is closed takes no writes, and the others are as they were. -/
theorem openAt_close (r : Registry (Traced W)) (handle : ManagerHandle) (i : Nat) :
    (r.close handle).2.openAt i = true ↔ i ≠ handle.outlet ∧ r.openAt i = true := by
  unfold Registry.openAt Registry.close
  rw [Registry.getElem?_withOutlet]
  split
  · next hi =>
    rw [Option.any_map]
    simp only [Manager.closed_close]
    simp [hi]
  · next hi => exact ⟨fun h => ⟨hi, h⟩, And.right⟩

/-- With a closing that was due done, its manager is held no more. -/
theorem Inv.held_erase (h : d.Inv) {handle : ManagerHandle} (hdue : handle ∈ d.closing)
    (i : Nat) :
    Held { d with closing := d.closing.erase handle } i ↔ i ≠ handle.outlet ∧ d.Held i := by
  unfold Held
  dsimp only
  rw [h.due_nodup.mem_erase_iff, and_or_left]
  refine or_congr (iff_and_self.2 ?_) (and_congr_left fun _ => not_congr ?_)
  · rintro ⟨l, hl, houtlet⟩ hi
    have hhandle : l.handle = handle := ManagerHandle.ext_outlet (houtlet.trans hi)
    exact h.due_apart l hl (hhandle ▸ hdue)
  · exact ⟨congrArg ManagerHandle.outlet, ManagerHandle.ext_outlet⟩

/-- To close a manager is to tell its sink of what is buffered, and then to
flush and close it. -/
theorem told_close {m : Manager} {t : Traced W} {n : Nat} (hopen : m.closed = false)
    (htold : Told m (t.calls n)) (k : Sink W) :
    Told (Manager.close (k.traced n) m t).2.1 ((Manager.close (k.traced n) m t).2.2.calls n) := by
  unfold Told at htold ⊢
  rw [hopen] at htold
  rw [Manager.closed_close, if_pos rfl]
  refine ⟨Manager.buffer_close _ _ hopen, t.calls n ++ m.pending, ?_, ?_⟩
  · rw [Manager.calls_close hopen, List.append_assoc]
  · exact fun hclose => (List.mem_append.1 hclose).elim htold (Manager.not_mem_pending m)

/-- Closing a manager that is due. -/
theorem inv_shut (h : d.Inv) (handle : ManagerHandle) : (d.shut handle).Inv := by
  unfold shut
  split
  · next hdue =>
    have hinv : Inv { d with
        registry := (d.registry.close handle).2
        closing := d.closing.erase handle } := by
      refine inv_using h Manager.orderly_close (d.closing.erase handle)
        (fun o n k ho _ htold => ?_) (fun i => ?_) (h.due_nodup.erase _)
        fun l hl hmem => h.due_apart l hl (List.mem_of_mem_erase hmem)
      · obtain ⟨o', ho', hopen⟩ := Registry.openAt_iff.1 ((h.held handle.outlet).2 (.inr hdue))
        rw [ho'] at ho
        cases ho
        exact told_close hopen htold k
      · refine (openAt_close d.registry handle i).trans ?_
        rw [h.held_erase hdue, h.held]
    exact { hinv with }
  · exact h

/-- Giving back at once: the handle is let go, and the manager closed if it
was the last. -/
theorem release_eq (h : d.Inv) (hl : l ∈ d.leases) :
    d.release l
      = if d.countOf l.name = 1 then (d.letGo l).shut l.handle else d.letGo l := by
  obtain ⟨o, ho, hname⟩ := h.named l hl
  have hmanager : d.registry.manager? l.handle = some o.manager :=
    congrArg (Option.map Outlet.manager) ho
  have hletGo := letGo_eq h hl
  unfold release Registry.release
  rw [if_pos hl, hmanager]
  dsimp only
  rw [hname, h.dropReference_eq hl]
  by_cases hlast : d.countOf l.name = 1
  · rw [hletGo, if_pos hlast, if_pos hlast, if_pos hlast, beq_iff_eq.2 hlast]
    obtain ⟨r, hr⟩ : ∃ r, r = { d.registry with entries := d.registry.entries.erase l.name } :=
      ⟨_, rfl⟩
    have hnameOf : r.nameOf l.handle = l.name := hr ▸ h.nameOf_eq hl
    unfold shut
    rw [← hr, if_pos List.mem_cons_self]
    simp only [if_true]
    rw [hnameOf, List.erase_cons_head]
    rcases r.close l.handle with ⟨_ | _, r'⟩ <;> rfl
  · rw [hletGo, if_neg hlast, if_neg hlast, if_neg hlast, beq_eq_false_iff_ne.2 hlast]
    simp

theorem inv_release (h : d.Inv) (l : Lease) : (d.release l).Inv := by
  by_cases hl : l ∈ d.leases
  · rw [release_eq h hl]
    split
    · exact inv_shut (inv_letGo h l) l.handle
    · exact inv_letGo h l
  · unfold release
    rw [if_neg hl]
    exact h

-- ================================================================ runs

theorem inv_step (h : d.Inv) {op : RegistryOp W} (hop : op.Honest) :
    (d.step ManagerFactory.traced op).Inv := by
  cases op with
  | acquire name f => exact inv_acquire h hop
  | release l => exact inv_release h l
  | letGo l => exact inv_letGo h l
  | shut handle => exact inv_shut h handle
  | write handle bytes endOfBatch =>
      exact inv_gentle h (Manager.orderly_write bytes endOfBatch)
        (Manager.gentle_write bytes endOfBatch) (Manager.closed_write · bytes endOfBatch)
  | flush handle => exact inv_flush h handle
  | flushAll =>
      have hflushed := inv_flushEach h (d.registry.entries.values.map fun e => ⟨e.outlet⟩)
      exact { hflushed with }

theorem inv_run (h : d.Inv) {ops : List (RegistryOp W)} (hops : ∀ op ∈ ops, op.Honest) :
    (d.tracedRun ops).Inv := by
  induction ops generalizing d with
  | nil => exact h
  | cons op rest ih =>
      exact ih (inv_step h (hops op List.mem_cons_self)) fun op' hop' =>
        hops op' (List.mem_cons_of_mem _ hop')

end LogPipeline.Desk
