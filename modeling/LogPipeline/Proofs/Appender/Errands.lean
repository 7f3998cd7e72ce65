/-
Errands of a set of appenders, one member after another. What a set does
is made of the calls on its members, so two kinds of appenders that agree
call by call agree errand by errand (`AppenderOps.Agree`), and what no
call disturbs no errand disturbs (`visitAll_keeps`).

`AppenderSet.serve` is a set at work: deliveries and flushes in any order,
as they come from a logger or a dispatcher; `serveOut` is the same with
the stop at the end.
-/
import LogPipeline.Appender.Set

namespace LogPipeline

variable {α S T : Type}

-- ============================================================== visits

namespace Errand

variable {ops : AppenderOps α S} {errand : Errand} {a : α}

/-- A member that the errand does not concern is passed over. -/
theorem visit_none (hc : errand.callOn ops a = none) (t : Tally) (s : S) :
    errand.visit ops a t s = (t, [], s) := by
  unfold visit
  rw [hc]

/-- A visit is a call, and its member is dropped if the set is stopped. -/
theorem visit_some {c : AppenderCall} (hc : errand.callOn ops a = some c) (t : Tally) (s : S) :
    errand.visit ops a t s
      = (t.add (ops.call c a s).1,
        errand.complaint (ops.name a) c (ops.call c a s).1
          ++ (errand.dismiss ops a (ops.call c a s).2).1,
        (errand.dismiss ops a (ops.call c a s).2).2) := by
  unfold visit
  rw [hc]
  rfl

theorem visitAll_cons (ops : AppenderOps α S) (errand : Errand) (a : α) (rest : List α)
    (t : Tally) (s : S) :
    errand.visitAll ops (a :: rest) t s
      = let first := errand.visit ops a t s
        let others := errand.visitAll ops rest first.1 first.2.2
        (others.1, first.2.1 ++ others.2.1, others.2.2) := rfl

/-- What no visit of a member disturbs, the errand does not disturb. -/
theorem visitAll_keeps {P : S → Prop} {members : List α}
    (h : ∀ a ∈ members, ∀ t s, P s → P (errand.visit ops a t s).2.2) (t : Tally) {s : S}
    (hs : P s) : P (errand.visitAll ops members t s).2.2 := by
  induction members generalizing t s with
  | nil => exact hs
  | cons a rest ih =>
      rw [visitAll_cons]
      exact ih (fun b hb => h b (List.mem_cons_of_mem _ hb)) _
        (h a List.mem_cons_self t s hs)

end Errand

-- ========================================================= at work

/-- The event without the mark that says whether it ends a batch. -/
def EventSlot.unflagged (e : EventSlot) : EventSlot := { e with endOfBatch := false }

/-- What is asked of a set at work. -/
inductive SetCall where
  | deliver (e : EventSlot) (endOfBatch : Bool)
  | flush

namespace SetCall

def errand : SetCall → Errand
  | deliver e endOfBatch => .deliver e endOfBatch
  | flush => .flush

/-- The event that is delivered. -/
def event? : SetCall → Option EventSlot
  | deliver e _ => some e.unflagged
  | flush => none

/-- The events that are delivered, in order. -/
def events (calls : List SetCall) : List EventSlot := calls.filterMap event?

/-- What is told of the results: those of deliveries. -/
def told (result : Except LogError Unit) : SetCall → List (Except LogError Unit)
  | deliver .. => [result]
  | flush => []

end SetCall

/-- What a set's work has come to: the results, the reports, and the state. -/
structure Served (S : Type) where
  results : List (Except LogError Unit)
  reports : List StatusEntry
  state : S

namespace AppenderSet

/-- Answer calls, one after another. -/
def serve (ops : AppenderOps α S) (set : AppenderSet α) : List SetCall → S → Served S
  | [], s => ⟨[], [], s⟩
  | c :: rest, s =>
      let done := set.run ops c.errand s
      let served := serve ops set rest done.state
      ⟨c.told done.result ++ served.results, done.reports ++ served.reports, served.state⟩

theorem serve_cons (ops : AppenderOps α S) (set : AppenderSet α) (c : SetCall)
    (rest : List SetCall) (s : S) :
    set.serve ops (c :: rest) s
      = let done := set.run ops c.errand s
        let served := set.serve ops rest done.state
        ⟨c.told done.result ++ served.results, done.reports ++ served.reports,
          served.state⟩ := rfl

/-- Answer calls, one after another, and stop; the last result is that of
stopping. -/
def serveOut (ops : AppenderOps α S) (set : AppenderSet α) (calls : List SetCall) (s : S) :
    Served S :=
  let served := set.serve ops calls s
  let (stopped, _) := set.stop ops served.state
  ⟨served.results ++ [stopped.result], served.reports ++ stopped.reports, stopped.state⟩

end AppenderSet

-- =========================================================== agreement

/-- Two kinds of appenders answer alike, and keep their states related. -/
structure AppenderOps.Agree (ops : AppenderOps α S) (ops' : AppenderOps α T)
    (R : S → T → Prop) : Prop where
  name : ∀ a, ops'.name a = ops.name a
  filter : ∀ a, ops'.filter a = ops.filter a
  call : ∀ c a s t, R s t →
    (ops'.call c a t).1 = (ops.call c a s).1 ∧ R (ops.call c a s).2 (ops'.call c a t).2
  drop : ∀ a s t, R s t →
    (ops'.drop a t).1 = (ops.drop a s).1 ∧ R (ops.drop a s).2 (ops'.drop a t).2

namespace AppenderOps.Agree

variable {ops : AppenderOps α S} {ops' : AppenderOps α T} {R : S → T → Prop}
  {s : S} {t : T}

/-- Appenders that agree are concerned by the same errands. -/
theorem callOn (h : ops.Agree ops' R) (errand : Errand) (a : α) :
    errand.callOn ops' a = errand.callOn ops a := by
  have hdenies : ∀ e, ops'.denies a e = ops.denies a e := by
    intro e
    unfold AppenderOps.denies
    rw [h.filter]
  cases errand with
  | deliver e endOfBatch => simp only [Errand.callOn, hdenies]
  | flush | stop => rfl

theorem dismiss (h : ops.Agree ops' R) (errand : Errand) (a : α) (hR : R s t) :
    (errand.dismiss ops' a t).1 = (errand.dismiss ops a s).1
      ∧ R (errand.dismiss ops a s).2 (errand.dismiss ops' a t).2 := by
  cases errand with
  | stop => exact h.drop a s t hR
  | deliver e endOfBatch => exact ⟨rfl, hR⟩
  | flush => exact ⟨rfl, hR⟩

/-- A visit of one is a visit of the other: the same tally, the same
reports. -/
theorem visit (h : ops.Agree ops' R) (errand : Errand) (a : α) (tally : Tally) (hR : R s t) :
    (errand.visit ops' a tally t).1 = (errand.visit ops a tally s).1
      ∧ (errand.visit ops' a tally t).2.1 = (errand.visit ops a tally s).2.1
      ∧ R (errand.visit ops a tally s).2.2 (errand.visit ops' a tally t).2.2 := by
  cases hc : errand.callOn ops a with
  | none =>
      rw [Errand.visit_none hc, Errand.visit_none ((h.callOn errand a).trans hc)]
      exact ⟨rfl, rfl, hR⟩
  | some c =>
      rw [Errand.visit_some hc, Errand.visit_some ((h.callOn errand a).trans hc)]
      obtain ⟨houtcome, hR'⟩ := h.call c a s t hR
      obtain ⟨hreports, hR''⟩ := h.dismiss errand a hR'
      dsimp only
      rw [houtcome, hreports, h.name]
      exact ⟨rfl, rfl, hR''⟩

/-- And so is an errand through a whole list of members. -/
theorem visitAll (h : ops.Agree ops' R) (errand : Errand) (members : List α) (tally : Tally)
    (hR : R s t) :
    (errand.visitAll ops' members tally t).1 = (errand.visitAll ops members tally s).1
      ∧ (errand.visitAll ops' members tally t).2.1
        = (errand.visitAll ops members tally s).2.1
      ∧ R (errand.visitAll ops members tally s).2.2
        (errand.visitAll ops' members tally t).2.2 := by
  induction members generalizing tally s t with
  | nil => exact ⟨rfl, rfl, hR⟩
  | cons a rest ih =>
      obtain ⟨htally, hreports, hR'⟩ := h.visit errand a tally hR
      rw [Errand.visitAll_cons, Errand.visitAll_cons]
      dsimp only
      rw [htally, hreports]
      obtain ⟨htally', hothers, hR''⟩ := ih _ hR'
      exact ⟨htally', congrArg _ hothers, hR''⟩

/-- What agrees call by call agrees errand by errand. -/
theorem run (h : ops.Agree ops' R) (errand : Errand) (set : AppenderSet α) (hR : R s t) :
    (set.run ops' errand t).result = (set.run ops errand s).result
      ∧ (set.run ops' errand t).reports = (set.run ops errand s).reports
      ∧ R (set.run ops errand s).state (set.run ops' errand t).state := by
  obtain ⟨htally, hreports, hR'⟩ := h.visitAll errand set.members .clean hR
  exact ⟨congrArg (errand.result set.size) htally, hreports, hR'⟩

/-- Sets of appenders that agree give the same results and the same reports,
whatever they are asked. -/
theorem serve (h : ops.Agree ops' R) (set : AppenderSet α) (calls : List SetCall)
    (hR : R s t) :
    (set.serve ops' calls t).results = (set.serve ops calls s).results
      ∧ (set.serve ops' calls t).reports = (set.serve ops calls s).reports
      ∧ R (set.serve ops calls s).state (set.serve ops' calls t).state := by
  induction calls generalizing s t with
  | nil => exact ⟨rfl, rfl, hR⟩
  | cons c rest ih =>
      obtain ⟨hresult, hreports, hR'⟩ := h.run c.errand set hR
      obtain ⟨hresults, hothers, hR''⟩ := ih hR'
      rw [AppenderSet.serve_cons, AppenderSet.serve_cons]
      dsimp only
      rw [hresult, hreports, hresults, hothers]
      exact ⟨rfl, rfl, hR''⟩

/-- The stop at the end does not tell them apart either. -/
theorem serveOut (h : ops.Agree ops' R) (set : AppenderSet α) (calls : List SetCall)
    (hR : R s t) :
    (set.serveOut ops' calls t).results = (set.serveOut ops calls s).results
      ∧ (set.serveOut ops' calls t).reports = (set.serveOut ops calls s).reports
      ∧ R (set.serveOut ops calls s).state (set.serveOut ops' calls t).state := by
  obtain ⟨hresults, hreports, hR'⟩ := h.serve set calls hR
  obtain ⟨hresult, hothers, hR''⟩ := h.run .stop set hR'
  refine ⟨?_, ?_, hR''⟩
  · show _ ++ [(set.run ops' .stop _).result] = _ ++ [(set.run ops .stop _).result]
    rw [hresults, hresult]
  · show _ ++ (set.run ops' .stop _).reports = _ ++ (set.run ops .stop _).reports
    rw [hreports, hothers]

end AppenderOps.Agree

end LogPipeline
