/-
What comes of sharing managers by name, over every run of a registry
(`leases_kept`).

At the end of a run, and so after each of its operations, the entries
count the live handles and the managers are those of the entries, the
ones that are still to be closed, and closed ones (`Accounted`). From
there the next operation does what is expected of it: handles that are
given back change nothing for others, the last one closes its manager,
and a factory that fails is reported and changes nothing (`Behaves`).
-/
import LogPipeline.Proofs.Output.Releases
import LogPipeline.Proofs.Samples

namespace LogPipeline.Desk

variable {W : Type}

-- ========================================================== vocabulary

/-- What holds of entries, handles and managers. -/
structure Accounted (d : Desk (Traced W)) : Prop where
  /-- A name has an entry just if a handle that was acquired for it is live. -/
  contains_iff : ∀ name, d.registry.contains name = true ↔ ∃ l ∈ d.leases, l.name = name
  /-- An entry counts these handles, and so never counts none. -/
  refCount_eq : ∀ name, d.registry.refCount? name
    = if d.countOf name = 0 then none else some (d.countOf name)
  /-- The live handles of a name are on the manager that is found under it. -/
  shared : ∀ l ∈ d.leases, d.registry.get? l.name = some l.handle
    ∧ ∃ o, d.registry.outlets[l.handle.outlet]? = some o ∧ o.manager.name = l.name
  /-- A manager was made by the factory of an acquisition that found no entry,
  each by another; once it is closed, its sink was closed, once, after what
  was buffered had gone out, and before, its sink was not closed. -/
  made : ∀ (i : Nat) (o : Outlet (Traced W)), d.registry.outlets[i]? = some o →
    ∃ n k, d.founders[i]? = some n ∧ o.sink = Sink.traced n k
      ∧ Told o.manager (d.registry.world.calls n)
  founders_nodup : d.founders.Nodup
  founders_sublist : d.founders.Sublist d.openers
  /-- No other factory was asked for a manager. -/
  asked_eq : d.registry.world.asked = d.openers
  /-- A manager is open as long as it has a live handle, and after that only
  while its closing is due. -/
  open_iff : ∀ i, d.registry.openAt i = true ↔ d.Held i
  due_apart : ∀ l ∈ d.leases, l.handle ∉ d.closing

/-- Other managers than that of the handle, and what was called of their
sinks, are in the registry `r` as they were. -/
structure Spares (d : Desk (Traced W)) (handle : ManagerHandle) (r : Registry (Traced W)) :
    Prop where
  outlets : ∀ i ≠ handle.outlet, r.outlets[i]? = d.registry.outlets[i]?
  calls : ∀ i n, i ≠ handle.outlet → d.founders[i]? = some n →
    r.world.calls n = d.registry.world.calls n
  asked_eq : r.world.asked = d.registry.world.asked

/-- The manager of the handle was open and is closed in the registry `r`:
what was buffered was handed to its sink, which was flushed and closed. -/
structure Closes (d : Desk (Traced W)) (handle : ManagerHandle) (r : Registry (Traced W)) :
    Prop where
  calls : ∃ o n, d.registry.outlets[handle.outlet]? = some o ∧ o.manager.closed = false
    ∧ d.founders[handle.outlet]? = some n
    ∧ r.world.calls n
      = d.registry.world.calls n ++ (o.manager.pending ++ [.flush, .close])
  closed : r.openAt handle.outlet = false
  spares : d.Spares handle r

/-- What the next operation comes to. -/
structure Behaves (d : Desk (Traced W)) : Prop where
  /-- Until the last handle of a name is given back the manager is left alone. -/
  release_shared : ∀ l ∈ d.leases, d.countOf l.name ≠ 1 →
    (d.release l).registry.outlets = d.registry.outlets
      ∧ (d.release l).registry.world = d.registry.world
      ∧ (d.release l).registry.refCount? l.name = some (d.countOf l.name - 1)
  /-- The last one closes it, and the name is free. -/
  release_last : ∀ l ∈ d.leases, d.countOf l.name = 1 →
    d.Closes l.handle (d.release l).registry
      ∧ (d.release l).registry.contains l.name = false
  /-- Other names and other handles are not affected. -/
  release_others : ∀ l ∈ d.leases, (d.release l).leases = d.leases.erase l
    ∧ ∀ name ≠ l.name, (d.release l).registry.entries.get? name = d.registry.entries.get? name
  /-- Without its closing, giving back affects no manager at all. -/
  letGo : ∀ l ∈ d.leases, (d.letGo l).registry.outlets = d.registry.outlets
    ∧ (d.letGo l).registry.world = d.registry.world
    ∧ ∀ name ≠ l.name, (d.letGo l).registry.entries.get? name = d.registry.entries.get? name
  /-- Closing that was due affects no entry, later ones of the name included. -/
  shut : ∀ handle ∈ d.closing, d.Closes handle (d.shut handle).registry
    ∧ (d.shut handle).registry.entries = d.registry.entries
    ∧ (d.shut handle).leases = d.leases
  /-- A manager is used without effect on others, be it in use or given up. -/
  write : ∀ handle bytes endOfBatch,
    d.Spares handle (d.registry.write handle bytes endOfBatch).2
      ∧ (d.registry.write handle bytes endOfBatch).2.entries = d.registry.entries
  /-- A factory that fails leaves all as it is but for one report. -/
  acquire_failed : ∀ (name : String) (f : ManagerFactory W) (e : LogError) (w : W),
    d.registry.contains name = false → f name d.registry.world.world = (.error e, w) →
    ∃ d', d' = d.acquire name (f.traced d.served)
      ∧ d'.registry.entries = d.registry.entries ∧ d'.registry.outlets = d.registry.outlets
      ∧ d'.registry.world.calls = d.registry.world.calls
      ∧ d'.leases = d.leases ∧ d'.closing = d.closing
      ∧ d'.reports = d.reports ++ [⟨.error, Registry.component,
          "unable to create manager '" ++ name ++ "': " ++ e.message⟩]

-- ====================================================== what holds

variable {d : Desk (Traced W)}

/-- A name is counted just if there is a live lease of it. -/
theorem countOf_pos {name : String} : 0 < d.countOf name ↔ ∃ l ∈ d.leases, l.name = name := by
  unfold countOf
  rw [List.countP_pos_iff]
  simp only [beq_iff_eq]

/-- A name without an entry is a name without leases. -/
theorem Inv.get?_eq_none (h : d.Inv) {name : String} :
    d.registry.entries.get? name = none ↔ d.countOf name = 0 := by
  constructor
  · intro hnone
    refine Nat.eq_zero_of_not_pos fun hpos => ?_
    obtain ⟨l, hl, hname⟩ := countOf_pos.1 hpos
    obtain ⟨e, he, -⟩ := h.leased l hl
    rw [hname, hnone] at he
    cases he
  · intro hzero
    cases he : d.registry.entries.get? name with
    | none => rfl
    | some e =>
        obtain ⟨hpos, hcount⟩ := h.counted name e he
        omega

/-- The entries are as many as the names in use, and count their leases. -/
theorem Inv.accounted (h : d.Inv) : d.Accounted where
  contains_iff := by
    intro name
    rw [← countOf_pos, Nat.pos_iff_ne_zero, Ne, ← h.get?_eq_none, ← Ne,
      ← Option.isSome_iff_ne_none]
    rfl
  refCount_eq := by
    intro name
    unfold Registry.refCount?
    cases he : d.registry.entries.get? name with
    | none => rw [if_pos (h.get?_eq_none.1 he)]; rfl
    | some e =>
        obtain ⟨hpos, hcount⟩ := h.counted name e he
        rw [if_neg (by omega), ← hcount]
        rfl
  shared := by
    intro l hl
    refine ⟨?_, h.named l hl⟩
    unfold Registry.get?
    rw [(h.entry hl).1]
    rfl
  made := by
    intro i o ho
    obtain ⟨n, k, hn, hk⟩ := h.founded i o ho
    exact ⟨n, k, hn, hk, h.told i o n ho hn⟩
  founders_nodup := (h.ordered.sublist h.sublist).imp Nat.ne_of_lt
  founders_sublist := h.sublist
  asked_eq := h.asked_eq
  open_iff := h.held
  due_apart := h.due_apart

-- ================================================= the next operation

/-- An operation on one manager leaves the others, the entries and the leases
alone. -/
theorem spares_withOutlet (h : d.Inv) (handle : ManagerHandle)
    {op : Sink (Traced W) → Manager → Traced W → Manager.Step (Traced W)}
    (hop : Manager.Orderly op) : d.Spares handle (d.registry.withOutlet handle op).2 where
  outlets i hi := by
    rw [Registry.getElem?_withOutlet, if_neg hi]
  calls i n hi hn := by
    refine (world_withOutlet h handle hop).2 n fun hfounder => hi ?_
    exact h.founder_inj hn hfounder
  asked_eq := (world_withOutlet h handle hop).1

/-- Closing an open manager calls its sink once, and no other sink. -/
theorem closes_close (h : d.Inv) {handle : ManagerHandle}
    (hopen : d.registry.openAt handle.outlet = true) :
    d.Closes handle (d.registry.close handle).2 := by
  obtain ⟨o, ho, hc⟩ := Registry.openAt_iff.1 hopen
  obtain ⟨n, k, hn, hk⟩ := h.founded _ o ho
  refine ⟨⟨o, n, ho, hc, hn, ?_⟩, ?_, spares_withOutlet h handle Manager.orderly_close⟩
  · unfold Registry.close
    rw [Registry.withOutlet_some ho, hk]
    exact Manager.calls_close hc _
  · refine Bool.eq_false_iff.2 fun hstill => ?_
    exact ((openAt_close d.registry handle handle.outlet).1 hstill).1 rfl

/-- The second half of giving back closes the manager and takes nothing from
anybody. -/
theorem closes_shut (h : d.Inv) {handle : ManagerHandle} (hdue : handle ∈ d.closing) :
    d.Closes handle (d.shut handle).registry
      ∧ (d.shut handle).registry.entries = d.registry.entries
      ∧ (d.shut handle).leases = d.leases := by
  unfold shut
  rw [if_pos hdue]
  exact ⟨closes_close h ((h.held _).2 (.inr hdue)),
    (Registry.entries_withOutlet d.registry handle Manager.close).1, rfl⟩

variable {l : Lease}

/-- Letting go takes a handle away, and changes no entry of another name and
no manager. -/
theorem letGo_keeps (h : d.Inv) (hl : l ∈ d.leases) :
    (d.letGo l).registry.outlets = d.registry.outlets
      ∧ (d.letGo l).registry.world = d.registry.world
      ∧ (d.letGo l).leases = d.leases.erase l
      ∧ ∀ name ≠ l.name,
        (d.letGo l).registry.entries.get? name = d.registry.entries.get? name := by
  rw [letGo_eq h hl]
  refine ⟨rfl, rfl, rfl, fun name hname => ?_⟩
  dsimp only
  split
  · rw [Dict.get?_erase, if_neg hname.symm]
  · rw [Dict.get?_insert, if_neg hname.symm]

/-- The last lease of a name takes its entry away and closes its manager. -/
theorem release_last (h : d.Inv) (hl : l ∈ d.leases) (hlast : d.countOf l.name = 1) :
    d.Closes l.handle (d.release l).registry
      ∧ (d.release l).registry.entries = d.registry.entries.erase l.name
      ∧ (d.release l).leases = d.leases.erase l := by
  have hdue : l.handle ∈ (d.letGo l).closing := by
    rw [letGo_eq h hl, if_pos hlast, if_pos hlast]
    exact List.mem_cons_self
  obtain ⟨hcloses, hentries, hleases⟩ := closes_shut (inv_letGo h l) hdue
  rw [release_eq h hl, if_pos hlast, hentries, hleases]
  -- closing is told of the desk without the handle, whose managers are those of `d`
  obtain ⟨d', hd'⟩ : ∃ d', d' = (d.letGo l).shut l.handle := ⟨_, rfl⟩
  rw [← hd'] at hcloses ⊢
  rw [letGo_eq h hl, if_pos hlast, if_pos hlast] at hcloses ⊢
  obtain ⟨hcalls, hclosed, houtlets, hothers, hasked⟩ := hcloses
  exact ⟨⟨hcalls, hclosed, houtlets, hothers, hasked⟩, rfl, rfl⟩

/-- The operations at a desk do what they promise, wherever the run has got
to. -/
theorem Inv.behaves (h : d.Inv) : d.Behaves where
  release_shared := by
    intro l hl hmore
    rw [release_eq h hl, if_neg hmore, letGo_eq h hl, if_neg hmore]
    refine ⟨rfl, rfl, ?_⟩
    unfold Registry.refCount?
    dsimp only
    rw [Dict.get?_insert, if_pos rfl]
    rfl
  release_last := by
    intro l hl hlast
    obtain ⟨hcloses, hentries, -⟩ := release_last h hl hlast
    refine ⟨hcloses, ?_⟩
    unfold Registry.contains Dict.contains
    rw [hentries, Dict.get?_erase, if_pos rfl]
    rfl
  release_others := by
    intro l hl
    -- a release is the first half of it alone, or both
    by_cases hlast : d.countOf l.name = 1
    · obtain ⟨-, hentries, hleases⟩ := release_last h hl hlast
      refine ⟨hleases, fun name hname => ?_⟩
      rw [hentries, Dict.get?_erase, if_neg hname.symm]
    · rw [release_eq h hl, if_neg hlast]
      exact (letGo_keeps h hl).2.2
  letGo := by
    intro l hl
    obtain ⟨houtlets, hworld, -, hothers⟩ := letGo_keeps h hl
    exact ⟨houtlets, hworld, hothers⟩
  shut _ hdue := closes_shut h hdue
  write handle bytes endOfBatch := by
    refine ⟨spares_withOutlet h handle (Manager.orderly_write bytes endOfBatch), ?_⟩
    exact (Registry.entries_withOutlet d.registry handle _).1
  acquire_failed := by
    intro name f e w hnone hf
    have hget : d.registry.entries.get? name = none := Option.not_isSome_iff_eq_none.1
      (Bool.eq_false_iff.1 hnone)
    refine ⟨_, rfl, ?_⟩
    rw [acquire_failed hget hf]
    exact ⟨rfl, rfl, rfl, rfl, rfl, rfl⟩

/-- Whatever is done at a registry whose factories make open managers of the
names they are asked for: the entries count the live handles, the handles
of a name share the manager that the factory of the first of them made,
and the last of them closes it, once and with all that was buffered. The
next operation keeps to its own name and manager, and a factory that fails
is reported. That the run is traced changes nothing about it. -/
theorem leases_kept (w : W) (ops : List (RegistryOp W)) (hops : ∀ op ∈ ops, op.Honest) :
    ((start (Traced.start w)).tracedRun ops).Mirrors ((start w).plainRun ops)
      ∧ ((start (Traced.start w)).tracedRun ops).Accounted
      ∧ ((start (Traced.start w)).tracedRun ops).Behaves := by
  have hinv := inv_run (inv_start w) hops
  exact ⟨mirrors_run ops (mirrors_start w), hinv.accounted, hinv.behaves⟩

namespace Sample

/-- A sink that counts what is written. -/
def counting : Sink Nat := Samples.sink (.ok ()) (· + 1)

def makes (capacity : Nat) : ManagerFactory Nat := fun name w =>
  (.ok ⟨.new name capacity false, counting⟩, w)

def fails : ManagerFactory Nat := fun _ w => (.error (.writer "no space"), w)

/-- A manager is shared, written to and given up; before it is closed there
is another one of its name. -/
def ops : List (RegistryOp Nat) :=
  [.acquire "a" (makes 8), .acquire "a" (makes 0), .write ⟨0⟩ ⟨#[1, 2]⟩ false,
    .acquire "b" fails, .release ⟨"a", ⟨0⟩⟩, .letGo ⟨"a", ⟨0⟩⟩, .acquire "a" (makes 4),
    .shut ⟨0⟩]

theorem honest : ∀ op ∈ ops, op.Honest := by
  have hmakes : ∀ (name : String) (capacity : Nat),
      RegistryOp.Honest (.acquire name (makes capacity)) := by
    intro name capacity w o ho
    cases ho
    exact ⟨rfl, rfl⟩
  have hfails : RegistryOp.Honest (.acquire "b" fails) := fun w o ho => nomatch ho
  intro op hop
  simp only [ops, List.mem_cons, List.not_mem_nil, or_false] at hop
  rcases hop with rfl | rfl | rfl | rfl | rfl | rfl | rfl | rfl
  · exact hmakes "a" 8
  · exact hmakes "a" 0
  · trivial
  · exact hfails
  · trivial
  · trivial
  · exact hmakes "a" 4
  · trivial

end Sample

open LogPipeline.Desk.Sample in
theorem leases_kept_sample : ((start (Traced.start 0)).tracedRun ops).founders = [0, 3]
    ∧ ((start (Traced.start 0)).tracedRun ops).leases = [⟨"a", ⟨1⟩⟩]
    ∧ ((start (Traced.start 0)).tracedRun ops).Mirrors ((start 0).plainRun ops)
    ∧ ((start (Traced.start 0)).tracedRun ops).Accounted
    ∧ ((start (Traced.start 0)).tracedRun ops).Behaves :=
  ⟨by decide, by decide, leases_kept 0 ops honest⟩

end LogPipeline.Desk
