/-
Handles on shared managers: what ties the entries to the live handles and
the managers to both (`Desk.Inv`), and that acquiring keeps it.

A manager takes writes as long as there is a lease on it, or its closing
is due (`Held`). What is noted of a sink is tied to its manager: it was
closed once, at the end, if the manager is closed, and else not at all
(`Told`). Founders tell which acquisition made a manager: outlets are
numbered as they are made, so the founder of outlet `i` is the `i`-th.

An acquisition finds an entry (`acquire_found`), or its factory is asked
and fails (`acquire_failed`) or makes a manager (`acquire_made`). Each of
the three says what the desk is then.
-/
import LogPipeline.Proofs.Output.Desks

namespace LogPipeline.Desk

variable {W : Type}

-- ======================================================= the invariant

/-- A manager with these calls of its sink: once it is closed nothing is
buffered, and its sink was flushed and closed, once, at the end; before,
its sink was not closed. -/
def Told (m : Manager) (calls : List SinkCall) : Prop :=
  if m.closed then m.buffer = .empty
    ∧ ∃ before, calls = before ++ [.flush, .close] ∧ SinkCall.close ∉ before
  else SinkCall.close ∉ calls

/-- There is a live handle on the outlet, or its closing is due. -/
def Held (d : Desk (Traced W)) (i : Nat) : Prop :=
  (∃ l ∈ d.leases, l.handle.outlet = i) ∨ ⟨i⟩ ∈ d.closing

structure Inv (d : Desk (Traced W)) : Prop where
  counted : ∀ name e, d.registry.entries.get? name = some e →
    0 < e.refCount ∧ e.refCount = d.countOf name
  leased : ∀ l ∈ d.leases, ∃ e, d.registry.entries.get? l.name = some e
    ∧ e.outlet = l.handle.outlet
  named : ∀ l ∈ d.leases, ∃ o, d.registry.outlets[l.handle.outlet]? = some o
    ∧ o.manager.name = l.name
  held : ∀ i, d.registry.openAt i = true ↔ d.Held i
  due_nodup : d.closing.Nodup
  due_apart : ∀ l ∈ d.leases, l.handle ∉ d.closing
  founded : ∀ (i : Nat) (o : Outlet (Traced W)), d.registry.outlets[i]? = some o →
    ∃ n k, d.founders[i]? = some n ∧ o.sink = Sink.traced n k
  length_eq : d.founders.length = d.registry.outlets.size
  sublist : d.founders.Sublist d.openers
  ordered : d.openers.Pairwise (· < ·)
  served : ∀ n ∈ d.openers, n < d.served
  asked_eq : d.registry.world.asked = d.openers
  /-- Nothing is noted under a number that nobody has had yet. -/
  fresh : ∀ n, d.served ≤ n → d.registry.world.calls n = []
  told : ∀ (i : Nat) (o : Outlet (Traced W)) (n : Nat),
    d.registry.outlets[i]? = some o → d.founders[i]? = some n →
    Told o.manager (d.registry.world.calls n)

/-- A registry with no managers and no leases is in order. -/
theorem inv_start (w : W) : (start (Traced.start w)).Inv where
  counted name e he := by cases he
  leased l hl := by cases hl
  named l hl := by cases hl
  held i := by simp [start, Registry.empty, Registry.openAt, Held]
  due_nodup := List.nodup_nil
  due_apart l hl := by cases hl
  founded i o ho := by simp [start, Registry.empty] at ho
  length_eq := rfl
  sublist := List.Sublist.refl _
  ordered := List.Pairwise.nil
  served n hn := by cases hn
  asked_eq := rfl
  fresh _ _ := rfl
  told i o n ho := by simp [start, Registry.empty] at ho

variable {d : Desk (Traced W)}

namespace Inv

/-- No two outlets were founded by the same acquisition. -/
theorem founder_inj (h : d.Inv) {i j n : Nat} (hi : d.founders[i]? = some n)
    (hj : d.founders[j]? = some n) : i = j := by
  have hnodup : d.founders.Nodup :=
    (h.ordered.sublist h.sublist).imp Nat.ne_of_lt
  have hlt := (List.getElem?_eq_some_iff.1 hi).1
  exact (List.getElem?_inj hlt hnodup).1 (hi.trans hj.symm)

theorem founder_lt (h : d.Inv) {i n : Nat} (hi : d.founders[i]? = some n) : n < d.served :=
  h.served n (h.sublist.subset (List.mem_of_getElem? hi))

/-- A name that is counted is leased. -/
theorem lease_of_entry (h : d.Inv) {name : String} {e : RegistryEntry}
    (he : d.registry.entries.get? name = some e) :
    ∃ l ∈ d.leases, l.name = name ∧ l.handle.outlet = e.outlet := by
  obtain ⟨hpos, hcount⟩ := h.counted name e he
  obtain ⟨l, hl, hname⟩ := List.countP_pos_iff.1 (hcount ▸ hpos)
  have hname' : l.name = name := beq_iff_eq.1 hname
  obtain ⟨e', he', houtlet⟩ := h.leased l hl
  rw [hname', he] at he'
  exact ⟨l, hl, hname', (Option.some.inj he') ▸ houtlet.symm⟩

/-- Two live handles of one name are on one manager, and two on one manager
are of one name. -/
theorem same_manager (h : d.Inv) {a b : Lease} (ha : a ∈ d.leases) (hb : b ∈ d.leases) :
    a.name = b.name ↔ a.handle = b.handle := by
  obtain ⟨e, he, houtlet⟩ := h.leased a ha
  obtain ⟨e', he', houtlet'⟩ := h.leased b hb
  obtain ⟨o, ho, hname⟩ := h.named a ha
  obtain ⟨o', ho', hname'⟩ := h.named b hb
  constructor
  · intro heq
    rw [heq, he'] at he
    refine ManagerHandle.ext_outlet ?_
    rw [← houtlet, ← houtlet', Option.some.inj he]
  · intro heq
    rw [heq, ho'] at ho
    rw [← hname, ← hname', Option.some.inj ho]

/-- A lease is on the manager of its name. -/
theorem nameOf_eq (h : d.Inv) {l : Lease} (hl : l ∈ d.leases) :
    d.registry.nameOf l.handle = l.name := by
  obtain ⟨o, ho, hname⟩ := h.named l hl
  unfold Registry.nameOf
  rw [show d.registry.manager? l.handle
    = d.registry.outlets[l.handle.outlet]?.map (·.manager) from rfl, ho]
  exact hname

end Inv

-- ========================================================= acquiring

variable {name : String} {n : Nat} {f : ManagerFactory W}

/-- Another lease counts for its own name. -/
theorem countOf_cons (d : Desk (Traced W)) (l : Lease) (name : String) :
    countOf { d with leases := l :: d.leases } name
      = d.countOf name + if l.name = name then 1 else 0 := by
  unfold countOf
  rw [List.countP_cons]
  simp only [beq_iff_eq]

/-- With the count of the entry that is put under a name, every count is of
the leases, one of which is new. -/
theorem counted_cons (h : d.Inv) {e : RegistryEntry} (he : e.refCount = d.countOf name + 1)
    (handle : ManagerHandle) (nm : String) (e' : RegistryEntry)
    (hget : (d.registry.entries.insert name e).get? nm = some e') :
    0 < e'.refCount
      ∧ e'.refCount = countOf { d with leases := ⟨name, handle⟩ :: d.leases } nm := by
  rw [Dict.get?_insert] at hget
  rw [countOf_cons]
  split at hget
  · next hnm =>
    cases hget
    rw [if_pos hnm, ← hnm, he]
    exact ⟨Nat.succ_pos _, rfl⟩
  · next hnm =>
    rw [if_neg hnm]
    exact h.counted nm e' hget

/-- The entry that is put under a name is for its new lease and for those
that were there. -/
theorem leased_cons (h : d.Inv) {e : RegistryEntry}
    (hkept : ∀ l ∈ d.leases, l.name = name → e.outlet = l.handle.outlet) :
    ∀ l ∈ (⟨name, ⟨e.outlet⟩⟩ :: d.leases : List Lease),
      ∃ e', (d.registry.entries.insert name e).get? l.name = some e'
        ∧ e'.outlet = l.handle.outlet := by
  intro l hl
  rw [Dict.get?_insert]
  rcases List.mem_cons.1 hl with rfl | hl
  · exact ⟨e, if_pos rfl, rfl⟩
  · split
    · next hnm => exact ⟨e, rfl, hkept l hl hnm.symm⟩
    · exact h.leased l hl

/-- A new lease holds its outlet, and nothing else changes. -/
theorem held_cons (d : Desk (Traced W)) (l : Lease) (i : Nat) :
    Held { d with leases := l :: d.leases } i ↔ l.handle.outlet = i ∨ d.Held i := by
  unfold Held
  dsimp only
  rw [← or_assoc]
  simp only [List.mem_cons, exists_eq_or_imp]

/-- What is found is shared, and no factory is asked. -/
theorem acquire_found {e : RegistryEntry} (he : d.registry.entries.get? name = some e)
    (f : ManagerFactory (Traced W)) :
    d.acquire name f = { d with
      registry := { d.registry with
        entries := d.registry.entries.insert name { e with refCount := e.refCount + 1 } }
      served := d.served + 1
      leases := ⟨name, ⟨e.outlet⟩⟩ :: d.leases } := by
  have hcontains : d.registry.contains name = true := congrArg Option.isSome he
  unfold acquire Registry.acquire
  rw [he, hcontains]
  simp

/-- A lease on a manager that is there keeps all in order. -/
theorem inv_acquire_found (h : d.Inv) {e : RegistryEntry}
    (he : d.registry.entries.get? name = some e) (f : ManagerFactory (Traced W)) :
    (d.acquire name f).Inv := by
  -- a lease of the same name stands for the new one
  obtain ⟨l₀, hl₀, hname₀, houtlet₀⟩ := h.lease_of_entry he
  have hhandle₀ : l₀.handle = ⟨e.outlet⟩ := ManagerHandle.ext_outlet houtlet₀
  rw [acquire_found he]
  exact {
    counted := counted_cons h (congrArg (· + 1) (h.counted name e he).2) ⟨e.outlet⟩
    leased := by
      refine leased_cons (e := { e with refCount := e.refCount + 1 }) h fun l hl hname => ?_
      obtain ⟨e', he', houtlet⟩ := h.leased l hl
      rw [hname, he] at he'
      exact (Option.some.inj he') ▸ houtlet
    named := by
      intro l hl
      rcases List.mem_cons.1 hl with rfl | hl
      · obtain ⟨o, ho, hname⟩ := h.named l₀ hl₀
        rw [hhandle₀] at ho
        exact ⟨o, ho, hname.trans hname₀⟩
      · exact h.named l hl
    held := by
      intro i
      refine Iff.trans ?_ (held_cons d _ i).symm
      refine (h.held i).trans ⟨.inr, fun hi => hi.elim (fun houtlet => ?_) id⟩
      exact .inl ⟨l₀, hl₀, houtlet₀.trans houtlet⟩
    due_nodup := h.due_nodup
    due_apart := by
      intro l hl
      rcases List.mem_cons.1 hl with rfl | hl
      · rw [← hhandle₀]
        exact h.due_apart l₀ hl₀
      · exact h.due_apart l hl
    founded := h.founded
    length_eq := h.length_eq
    sublist := h.sublist
    ordered := h.ordered
    served := fun n hn => Nat.lt_succ_of_lt (h.served n hn)
    asked_eq := h.asked_eq
    fresh := fun n hn => h.fresh n (Nat.le_of_succ_le hn)
    told := h.told }

/-- Once the factory of the next acquisition is asked, that is noted. -/
theorem ordered_concat (h : d.Inv) : (d.openers ++ [d.served]).Pairwise (· < ·) := by
  refine List.pairwise_append.2 ⟨h.ordered, List.pairwise_singleton _ _, fun n hn m hm => ?_⟩
  rw [List.mem_singleton.1 hm]
  exact h.served n hn

theorem served_concat (h : d.Inv) : ∀ n ∈ d.openers ++ [d.served], n < d.served + 1 := by
  intro n hn
  rcases List.mem_append.1 hn with hn | hn
  · exact Nat.lt_succ_of_lt (h.served n hn)
  · rw [List.mem_singleton.1 hn]
    exact Nat.lt_succ_self _

/-- A factory that fails leaves entries, managers and handles as they are,
and is reported once. -/
theorem acquire_failed {e : LogError} {w : W} (hnone : d.registry.entries.get? name = none)
    (hf : f name d.registry.world.world = (.error e, w)) :
    d.acquire name (f.traced d.served) = { d with
      registry := { d.registry with
        world := { d.registry.world with
          world := w, asked := d.registry.world.asked ++ [d.served] } }
      served := d.served + 1
      openers := d.openers ++ [d.served]
      reports := d.reports ++ [⟨.error, Registry.component,
        "unable to create manager '" ++ name ++ "': " ++ e.message⟩] } := by
  have hcontains : d.registry.contains name = false := congrArg Option.isSome hnone
  unfold acquire Registry.acquire ManagerFactory.traced
  rw [hnone, hcontains]
  dsimp only
  rw [hf]
  rfl

theorem inv_acquire_failed {e : LogError} {w : W} (h : d.Inv)
    (hnone : d.registry.entries.get? name = none)
    (hf : f name d.registry.world.world = (.error e, w)) :
    (d.acquire name (f.traced d.served)).Inv := by
  rw [acquire_failed hnone hf]
  exact { h with
    sublist := h.sublist.trans (List.sublist_append_left _ _)
    ordered := ordered_concat h
    served := served_concat h
    asked_eq := congrArg (· ++ [d.served]) h.asked_eq
    fresh := fun n hn => h.fresh n (Nat.le_of_succ_le hn) }

/-- A manager is made by the factory of an acquisition that found none. -/
theorem acquire_made {o : Outlet W} {w : W} (hnone : d.registry.entries.get? name = none)
    (hf : f name d.registry.world.world = (.ok o, w)) :
    d.acquire name (f.traced d.served) = { d with
      registry := {
        outlets := d.registry.outlets.push ⟨o.manager, o.sink.traced d.served⟩
        entries := d.registry.entries.insert name ⟨1, d.registry.outlets.size⟩
        world := { d.registry.world with
          world := w, asked := d.registry.world.asked ++ [d.served] } }
      served := d.served + 1
      openers := d.openers ++ [d.served]
      founders := d.founders ++ [d.served]
      leases := ⟨name, ⟨d.registry.outlets.size⟩⟩ :: d.leases } := by
  have hcontains : d.registry.contains name = false := congrArg Option.isSome hnone
  unfold acquire Registry.acquire ManagerFactory.traced
  rw [hnone, hcontains]
  dsimp only
  rw [hf]
  simp [Except.map]

theorem Inv.held_lt (h : d.Inv) {i : Nat} (hi : d.Held i) : i < d.registry.outlets.size := by
  obtain ⟨o, ho, -⟩ := Registry.openAt_iff.1 ((h.held i).2 hi)
  exact (Array.getElem?_eq_some_iff.1 ho).1

/-- Nobody has a lease of a name that is not registered. -/
theorem Inv.unleased (h : d.Inv) (hnone : d.registry.entries.get? name = none) :
    ∀ l ∈ d.leases, l.name ≠ name := by
  intro l hl heq
  obtain ⟨e, he, -⟩ := h.leased l hl
  rw [heq, hnone] at he
  cases he

/-- The new outlet and its founder stand in the same place. -/
theorem Inv.founders_concat (h : d.Inv) (i : Nat) :
    (d.founders ++ [d.served])[i]?
      = if i = d.registry.outlets.size then some d.served else d.founders[i]? := by
  rw [← h.length_eq]
  split
  · next hi =>
    rw [hi]
    exact List.getElem?_concat_length
  · next hi =>
    rcases Nat.lt_or_gt_of_ne hi with hlt | hgt
    · exact List.getElem?_append_left hlt
    · have hlength : (d.founders ++ [d.served]).length ≤ i := by
        rw [List.length_append]
        exact hgt
      rw [List.getElem?_eq_none hlength, List.getElem?_eq_none (Nat.le_of_lt hgt)]

/-- So does one that was made, if its factory is honest. -/
theorem inv_acquire_made {o : Outlet W} {w : W} (h : d.Inv)
    (hnone : d.registry.entries.get? name = none)
    (hf : f name d.registry.world.world = (.ok o, w))
    (hname : o.manager.name = name) (hopen : o.manager.closed = false) :
    (d.acquire name (f.traced d.served)).Inv := by
  obtain ⟨o', ho'⟩ : ∃ o', o' = (⟨o.manager, o.sink.traced d.served⟩ : Outlet (Traced W)) :=
    ⟨_, rfl⟩
  have hnew : ∀ i : Nat, (d.registry.outlets.push o')[i]?
      = if i = d.registry.outlets.size then some o' else d.registry.outlets[i]? :=
    fun i => Array.getElem?_push
  -- nobody has a lease of the name, so the new one is the first to count
  have hunleased := h.unleased hnone
  rw [acquire_made hnone hf, ← ho']
  exact {
    counted := by
      have hzero : d.countOf name = 0 :=
        List.countP_eq_zero.2 fun l hl => by simpa using hunleased l hl
      exact counted_cons h (congrArg (· + 1) hzero.symm) ⟨d.registry.outlets.size⟩
    leased := leased_cons (e := ⟨1, d.registry.outlets.size⟩) h
      fun l hl heq => absurd heq (hunleased l hl)
    named := by
      intro l hl
      show ∃ p, (d.registry.outlets.push o')[l.handle.outlet]? = some p ∧ _
      rw [hnew]
      rcases List.mem_cons.1 hl with rfl | hl
      · exact ⟨o', if_pos rfl, by rw [ho']; exact hname⟩
      · rw [if_neg (Nat.ne_of_lt (h.held_lt (.inl ⟨l, hl, rfl⟩)))]
        exact h.named l hl
    held := by
      -- an outlet is held just if it is the new one or was held before
      intro i
      refine Iff.trans ?_ (held_cons d _ i).symm
      show (d.registry.outlets.push o')[i]?.any _ = true ↔ d.registry.outlets.size = i ∨ _
      rw [hnew]
      split
      · next hi =>
        refine ⟨fun _ => .inl hi.symm, fun _ => ?_⟩
        rw [ho']
        show (!o.manager.closed) = true
        rw [hopen]
        rfl
      · next hi =>
        exact (h.held i).trans ⟨.inr, fun hheld => hheld.resolve_left (Ne.symm hi)⟩
    due_nodup := h.due_nodup
    due_apart := by
      intro l hl hdue
      -- the new outlet is not among those that are to be closed
      rcases List.mem_cons.1 hl with rfl | hl
      · exact Nat.lt_irrefl _ (h.held_lt (i := d.registry.outlets.size) (.inr hdue))
      · exact h.due_apart l hl hdue
    founded := by
      intro i p hp
      have hp' : (d.registry.outlets.push o')[i]? = some p := hp
      show ∃ n k, (d.founders ++ [d.served])[i]? = some n ∧ _
      rw [hnew] at hp'
      rw [h.founders_concat]
      split at hp'
      · next hi =>
        cases hp'
        exact ⟨d.served, o.sink, if_pos hi, by rw [ho']⟩
      · next hi =>
        rw [if_neg hi]
        exact h.founded i p hp'
    length_eq := by
      show (d.founders ++ [d.served]).length = (d.registry.outlets.push o').size
      rw [List.length_append, Array.size_push, h.length_eq]
      rfl
    sublist := h.sublist.append (List.Sublist.refl _)
    ordered := ordered_concat h
    served := served_concat h
    asked_eq := congrArg (· ++ [d.served]) h.asked_eq
    fresh := fun n hn => h.fresh n (Nat.le_of_succ_le hn)
    told := by
      intro i p n hp hn
      have hp' : (d.registry.outlets.push o')[i]? = some p := hp
      have hn' : (d.founders ++ [d.served])[i]? = some n := hn
      show Told p.manager (d.registry.world.calls n)
      rw [hnew] at hp'
      rw [h.founders_concat] at hn'
      split at hp'
      · next hi =>
        rw [if_pos hi] at hn'
        cases hp'
        cases hn'
        rw [h.fresh d.served (Nat.le_refl _), ho']
        unfold Told
        rw [hopen]
        exact List.not_mem_nil
      · next hi =>
        rw [if_neg hi] at hn'
        exact h.told i p n hp' hn' }

/-- Whatever comes of asking for a lease, all stays in order. -/
theorem inv_acquire (h : d.Inv) (hf : RegistryOp.Honest (.acquire name f)) :
    (d.acquire name (f.traced d.served)).Inv := by
  cases he : d.registry.entries.get? name with
  | some e => exact inv_acquire_found h he _
  | none =>
      rcases hmade : f name d.registry.world.world with ⟨e | o, w⟩
      · exact inv_acquire_failed h he hmade
      · obtain ⟨hname, hopen⟩ := hf d.registry.world.world o (by rw [hmade])
        exact inv_acquire_made h he hmade hname hopen

end LogPipeline.Desk
