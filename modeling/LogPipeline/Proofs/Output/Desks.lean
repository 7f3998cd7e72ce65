/-
Runs of a registry. A `Desk` is a registry with the handles that are out
on it. A handle is given back at once (`release`), or in the two halves
that giving back is made of: first a reference less, and then, if it was
the last, closing the manager. Between the two anything may happen, a new
manager under the same name included. Managers are used through any
handle, old ones too. A failed operation is an operation: its error and
its reports are the caller's concern, and the run goes on.

Factories are put to use as they are (`plainRun`), or traced
(`tracedRun`), which comes to the same (`mirrors_run`).
-/
import LogPipeline.Proofs.Output.Tracing

namespace LogPipeline

-- =============================================================== desks

/-- A live handle, and the name that it was acquired for. -/
structure Lease where
  name : String
  handle : ManagerHandle
  deriving DecidableEq

/-- A handle is the outlet that it is on. -/
theorem ManagerHandle.ext_outlet {a b : ManagerHandle} (h : a.outlet = b.outlet) : a = b := by
  cases a
  cases b
  exact congrArg mk h

/-- What is done at a registry. -/
inductive RegistryOp (W : Type) where
  | acquire (name : String) (factory : ManagerFactory W)
  /-- A live handle is given back, or dropped. -/
  | release (l : Lease)
  /-- The first half of giving back: the handle counts no more. -/
  | letGo (l : Lease)
  /-- The second half, for the last handle: the manager is closed. -/
  | shut (h : ManagerHandle)
  | write (h : ManagerHandle) (bytes : ByteArray) (endOfBatch : Bool)
  | flush (h : ManagerHandle)
  | flushAll

/-- Factories that make an open manager of the name they are asked for. -/
def RegistryOp.Honest {W : Type} : RegistryOp W → Prop
  | acquire name f => ∀ (w : W) (o : Outlet W), (f name w).1 = .ok o →
      o.manager.name = name ∧ o.manager.closed = false
  | _ => True

/-- A registry and the handles that are out on it. -/
structure Desk (V : Type) where
  registry : Registry V
  /-- How many acquisitions there were. -/
  served : Nat
  /-- The acquisitions that found no entry, in order. -/
  openers : List Nat
  /-- Those of them that made a manager, by the number of its outlet. -/
  founders : List Nat
  /-- The live handles. -/
  leases : List Lease
  /-- Managers whose last handle counts no more and whose closing is due. -/
  closing : List ManagerHandle
  reports : List StatusEntry

namespace Desk

variable {V W : Type}

def start (v : V) : Desk V := ⟨.empty v, 0, [], [], [], [], []⟩

/-- How many live handles were acquired for the name. -/
def countOf (d : Desk V) (name : String) : Nat := d.leases.countP (·.name == name)

def acquire (name : String) (f : ManagerFactory V) (d : Desk V) : Desk V :=
  let (result, reports, r) := d.registry.acquire name f
  let found := d.registry.contains name
  let opened := if found then d.openers else d.openers ++ [d.served]
  match result with
  | .error _ =>
    { d with registry := r, served := d.served + 1, openers := opened,
             reports := d.reports ++ reports }
  | .ok h =>
    { d with registry := r, served := d.served + 1, openers := opened,
             founders := if found then d.founders else d.founders ++ [d.served],
             leases := ⟨name, h⟩ :: d.leases, reports := d.reports ++ reports }

def release (l : Lease) (d : Desk V) : Desk V :=
  if l ∈ d.leases then
    let (reports, r) := d.registry.release l.handle
    { d with registry := r, leases := d.leases.erase l, reports := d.reports ++ reports }
  else d

def letGo (l : Lease) (d : Desk V) : Desk V :=
  if l ∈ d.leases then
    let (isLast, r) := d.registry.dropReference (d.registry.nameOf l.handle) l.handle
    { d with registry := r, leases := d.leases.erase l,
             closing := if isLast then l.handle :: d.closing else d.closing }
  else d

def shut (h : ManagerHandle) (d : Desk V) : Desk V :=
  if h ∈ d.closing then
    let (result, r) := d.registry.close h
    { d with registry := r, closing := d.closing.erase h,
             reports := d.reports ++ Registry.closeReport (d.registry.nameOf h) result }
  else d

def withRegistry (r : Registry V) (d : Desk V) : Desk V := { d with registry := r }

/-- One operation. Factories are put to use as `wrap` says. -/
def step (wrap : Nat → ManagerFactory W → ManagerFactory V) (d : Desk V) :
    RegistryOp W → Desk V
  | .acquire name f => d.acquire name (wrap d.served f)
  | .release l => d.release l
  | .letGo l => d.letGo l
  | .shut h => d.shut h
  | .write h bytes endOfBatch => d.withRegistry (d.registry.write h bytes endOfBatch).2
  | .flush h => d.withRegistry (d.registry.flush h).2
  | .flushAll =>
    let (reports, r) := d.registry.flushAll
    { d with registry := r, reports := d.reports ++ reports }

/-- A run: operations, one after another. -/
def run (wrap : Nat → ManagerFactory W → ManagerFactory V) (ops : List (RegistryOp W))
    (d : Desk V) : Desk V := ops.foldl (step wrap) d

/-- A run with the factories as they are. -/
def plainRun (ops : List (RegistryOp W)) (d : Desk W) : Desk W := d.run (fun _ f => f) ops

/-- A run with traced factories. -/
def tracedRun (ops : List (RegistryOp W)) (d : Desk (Traced W)) : Desk (Traced W) :=
  d.run ManagerFactory.traced ops

-- ============================================================= tracing

/-- The two desks do the same, in a world and in a part of it. -/
structure Mirrors (d' : Desk (Traced W)) (d : Desk W) : Prop where
  registry : d'.registry.Mirrors Traced.world d.registry
  served_eq : d'.served = d.served
  leases_eq : d'.leases = d.leases
  closing_eq : d'.closing = d.closing
  reports_eq : d'.reports = d.reports

end Desk

namespace Registry.Mirrors

variable {V W : Type} {part : V → W} {r' : Registry V} {r : Registry W}

/-- A handle has the same name in the mirror. -/
theorem nameOf_eq (hr : r'.Mirrors part r) (h : ManagerHandle) : r'.nameOf h = r.nameOf h :=
  congrArg (·.elim "" Manager.name) (hr.managers h.outlet)

/-- A flush in the mirror gives the same result. -/
theorem flush (hr : r'.Mirrors part r) (h : ManagerHandle) :
    (r'.flush h).1 = (r.flush h).1 ∧ (r'.flush h).2.Mirrors part (r.flush h).2 :=
  hr.withOutlet h fun _ _ hk m v => Manager.flush_mirrored hk m v

theorem flushReported (hr : r'.Mirrors part r) (h : ManagerHandle) :
    (r'.flushReported h).1 = (r.flushReported h).1
      ∧ (r'.flushReported h).2.Mirrors part (r.flushReported h).2 := by
  obtain ⟨hresult, hflushed⟩ := hr.flush h
  unfold Registry.flushReported
  rcases hf' : r'.flush h with ⟨result', r₁'⟩
  rcases hf : r.flush h with ⟨result, r₁⟩
  rw [hf', hf] at hresult hflushed
  obtain rfl : result' = result := hresult
  have hflushed' : r₁'.Mirrors part r₁ := hflushed
  cases result' with
  | ok _ => exact ⟨rfl, hflushed'⟩
  | error e => exact ⟨by dsimp only; rw [hflushed'.nameOf_eq], hflushed'⟩

theorem flushEach (hs : List ManagerHandle) (hr : r'.Mirrors part r) :
    (r'.flushEach hs).1 = (r.flushEach hs).1
      ∧ (r'.flushEach hs).2.Mirrors part (r.flushEach hs).2 := by
  induction hs generalizing r' r with
  | nil => exact ⟨rfl, hr⟩
  | cons h rest ih =>
      obtain ⟨hreports, hflushed⟩ := hr.flushReported h
      obtain ⟨hothers, hrest⟩ := ih hflushed
      exact ⟨congr (congrArg HAppend.hAppend hreports) hothers, hrest⟩

/-- Taking a reference off, in the larger world. -/
theorem dropReference (hr : r'.Mirrors part r) (name : String) (h : ManagerHandle) :
    (r'.dropReference name h).1 = (r.dropReference name h).1
      ∧ (r'.dropReference name h).2.Mirrors part (r.dropReference name h).2 := by
  rw [dropReference_eq, dropReference_eq, hr.entries_eq]
  exact ⟨rfl, hr.managers, hr.sinks, rfl, hr.world_eq⟩

end Registry.Mirrors

namespace Desk

variable {W : Type} {d' : Desk (Traced W)} {d : Desk W}

/-- What is acquired with a traced factory mirrors what is acquired with the
factory itself. -/
theorem mirrors_acquire (h : d'.Mirrors d) (name : String) (f : ManagerFactory W) :
    (d'.acquire name (f.traced d'.served)).Mirrors (d.acquire name f) := by
  obtain ⟨hresult, hreports, hregistry⟩ := h.registry.acquire name d'.served f
  unfold acquire
  rcases ha' : d'.registry.acquire name (f.traced d'.served) with ⟨result', reports', r'⟩
  rcases ha : d.registry.acquire name f with ⟨result, reports, r⟩
  rw [ha', ha] at hresult hreports hregistry
  obtain rfl : result' = result := hresult
  obtain rfl : reports' = reports := hreports
  cases result' with
  | error e =>
      exact ⟨hregistry, congrArg (· + 1) h.served_eq, h.leases_eq, h.closing_eq,
        congrArg (· ++ reports') h.reports_eq⟩
  | ok handle =>
      exact ⟨hregistry, congrArg (· + 1) h.served_eq, congrArg (⟨name, handle⟩ :: ·) h.leases_eq,
        h.closing_eq, congrArg (· ++ reports') h.reports_eq⟩

/-- Giving a lease back is mirrored. -/
theorem mirrors_release (h : d'.Mirrors d) (l : Lease) :
    (d'.release l).Mirrors (d.release l) := by
  obtain ⟨hreports, hregistry⟩ := h.registry.release l.handle
  unfold release
  rw [h.leases_eq]
  split
  · exact ⟨hregistry, h.served_eq, rfl, h.closing_eq,
      congr (congrArg HAppend.hAppend h.reports_eq) hreports⟩
  · exact h

theorem mirrors_letGo (h : d'.Mirrors d) (l : Lease) : (d'.letGo l).Mirrors (d.letGo l) := by
  obtain ⟨hlast, hregistry⟩ := h.registry.dropReference (d.registry.nameOf l.handle) l.handle
  unfold letGo
  rw [h.leases_eq, h.registry.nameOf_eq]
  split
  · refine ⟨hregistry, h.served_eq, rfl, ?_, h.reports_eq⟩
    dsimp only
    rw [hlast, h.closing_eq]
  · exact h

/-- and the second, closing the manager. -/
theorem mirrors_shut (h : d'.Mirrors d) (handle : ManagerHandle) :
    (d'.shut handle).Mirrors (d.shut handle) := by
  obtain ⟨hresult, hregistry⟩ := h.registry.withOutlet handle fun k' k hk m v =>
    Manager.close_mirrored hk m v
  have hresult' : (d'.registry.close handle).1 = (d.registry.close handle).1 := hresult
  unfold shut
  rw [h.closing_eq, h.registry.nameOf_eq]
  split
  · refine ⟨hregistry, h.served_eq, h.leases_eq, rfl, ?_⟩
    dsimp only
    rw [hresult', h.reports_eq]
  · exact h

/-- Tracing changes nothing about an operation. -/
theorem mirrors_step (h : d'.Mirrors d) (op : RegistryOp W) :
    (d'.step ManagerFactory.traced op).Mirrors (d.step (fun _ f => f) op) := by
  cases op with
  | acquire name f => exact mirrors_acquire h name f
  | release l => exact mirrors_release h l
  | letGo l => exact mirrors_letGo h l
  | shut handle => exact mirrors_shut h handle
  | write handle bytes endOfBatch =>
      exact { h with
        registry := (h.registry.withOutlet handle fun _ _ hk m v =>
          Manager.write_mirrored hk bytes endOfBatch m v).2 }
  | flush handle => exact { h with registry := (h.registry.flush handle).2 }
  | flushAll =>
      have hflushed := h.registry.flushEach
        (d.registry.entries.values.map fun e => ⟨e.outlet⟩)
      rw [← h.registry.entries_eq] at hflushed
      obtain ⟨hreports, hregistry⟩ := hflushed
      refine ⟨?_, h.served_eq, h.leases_eq, h.closing_eq, ?_⟩
      · show d'.registry.flushAll.2.Mirrors Traced.world d.registry.flushAll.2
        unfold Registry.flushAll
        rw [← h.registry.entries_eq]
        exact hregistry
      · show d'.reports ++ d'.registry.flushAll.1 = d.reports ++ d.registry.flushAll.1
        unfold Registry.flushAll
        rw [← h.registry.entries_eq, h.reports_eq, hreports]

/-- Tracing changes nothing about a run. -/
theorem mirrors_run (ops : List (RegistryOp W)) (h : d'.Mirrors d) :
    (d'.tracedRun ops).Mirrors (d.plainRun ops) := by
  induction ops generalizing d' d with
  | nil => exact h
  | cons op rest ih => exact ih (mirrors_step h op)

theorem mirrors_start (w : W) : (start (Traced.start w)).Mirrors (start w) :=
  ⟨⟨fun _ => rfl, fun i o' _ ho' _ => by simp [start, Registry.empty] at ho', rfl, rfl⟩,
    rfl, rfl, rfl, rfl⟩

end Desk

end LogPipeline
