/-
Appenders are kept apart from each other. With a record of what is done
(`AppenderOps.recorded`), it shows that an errand does to each member
what that member's own filter has it do, in the order of the list, and
that what comes of a call shows up in three places only: in the tally and
so in the errand's result (`tally_visitAll`), and in the status log, as
one error under the name of the appender (`labels_visitAll`).
-/
import LogPipeline.Proofs.Appender.Recording

namespace LogPipeline

variable {α S : Type} {ops : AppenderOps α S}

/-- Who reports, and how severely. -/
def StatusEntry.label (e : StatusEntry) : Level × String := (e.level, e.component)

-- ============================================================= the tally

/-- The tally of these failures. -/
def Tally.of (failures : List (α × LogError)) : Tally :=
  ⟨failures.length, failures.head?.map Prod.snd⟩

/-- Outcomes are added at the end. -/
theorem Tally.of_concat (deeds : List (Deed α)) (a : α) (c : AppenderCall) (o : Outcome) :
    Tally.of (Deed.failures (deeds ++ [.ended a c o]))
      = (Tally.of (Deed.failures deeds)).add o := by
  unfold Deed.failures Tally.of Tally.add
  rw [List.filterMap_append]
  cases ho : o.error? with
  | none => simp [Deed.failure?, ho]
  | some e => cases deeds.filterMap Deed.failure? <;> simp [Deed.failure?, ho]

/-- Deeds that are no answers do not count. -/
theorem Deed.failures_append (deeds : List (Deed α)) {others : List (Deed α)}
    (h : ∀ d ∈ others, d.failure? = none) :
    failures (deeds ++ others) = failures deeds := by
  unfold failures
  rw [List.filterMap_append, List.filterMap_eq_nil_iff.2 h, List.append_nil]

-- =========================================================== the reports

/-- What the status log has of a deed: an error under the appender's name
if a call was not answered well, and what the appender itself reports when
it is dropped. -/
def Deed.labels (name : α → String) : Deed α → List (Level × String)
  | begun .. => []
  | ended a _ o => if o.isDone then [] else [(.error, name a)]
  | dropped _ reports => reports.map StatusEntry.label

theorem Errand.labels_complaint (errand : Errand) (name : String) (c : AppenderCall)
    (o : Outcome) :
    (errand.complaint name c o).map StatusEntry.label
      = if o.isDone then [] else [(.error, name)] := by
  cases o <;> rfl

/-- Where nobody is dropped, the failures are all there is to report. -/
theorem Deed.labels_of_failures (name : α → String) {deeds : List (Deed α)}
    (h : ∀ d ∈ deeds, d.act.2 ≠ .dropped) :
    deeds.flatMap (labels name) = (failures deeds).map fun f => (.error, name f.1) := by
  induction deeds with
  | nil => rfl
  | cons d rest ih =>
      have hrest := ih fun d hd => h d (List.mem_cons_of_mem _ hd)
      unfold failures at hrest ⊢
      rw [List.flatMap_cons, hrest, List.filterMap_cons]
      cases d with
      | begun a c => rfl
      | ended a c o => cases o <;> rfl
      | dropped a reports => exact absurd rfl (h _ List.mem_cons_self)

-- =========================================================== each member

namespace Errand

/-- What a visit writes down: a call that begins and ends, and then perhaps
a drop. -/
theorem deeds_visit (errand : Errand) {a : α} {c : AppenderCall}
    (hc : errand.callOn ops a = some c) (t : Tally) (r : Recorded α S) :
    ∃ o dropped, (errand.visit ops.recorded a t r).1 = t.add o
      ∧ (errand.visit ops.recorded a t r).2.2.deeds
        = r.deeds ++ [.begun a c] ++ [.ended a c o] ++ dropped
      ∧ (errand.visit ops.recorded a t r).2.1.map StatusEntry.label
        = (if o.isDone then [] else [(.error, ops.name a)])
          ++ dropped.flatMap (Deed.labels ops.name)
      ∧ ∀ d ∈ dropped, d.failure? = none := by
  rw [visit_some ((ops.mirror_recorded.agree.callOn errand a).trans hc)]
  obtain ⟨o, ho⟩ : ∃ o, o = (ops.call c a r.state).1 := ⟨_, rfl⟩
  have houtcome : (ops.recorded.call c a r).1 = o := ho.symm
  have hdeeds : (ops.recorded.call c a r).2.deeds = r.deeds ++ [.begun a c] ++ [.ended a c o] := by
    rw [ho]
    rfl
  rw [houtcome]
  dsimp only
  rw [List.map_append, labels_complaint]
  cases errand with
  | deliver e endOfBatch | flush =>
      exact ⟨o, [], rfl, hdeeds.trans (List.append_nil _).symm, rfl, fun d hd => by cases hd⟩
  | stop =>
      refine ⟨o, [.dropped a (ops.drop a (ops.recorded.call c a r).2.state).1], rfl, ?_, ?_, ?_⟩
      · rw [← hdeeds]
        rfl
      · rw [List.flatMap_singleton]
        rfl
      · intro d hd
        rw [List.mem_singleton.1 hd]
        rfl

/-- The tally is that of the failures on record. -/
theorem tally_visitAll (errand : Errand) (members : List α) {t : Tally} {r : Recorded α S}
    (ht : t = .of (Deed.failures r.deeds)) :
    (errand.visitAll ops.recorded members t r).1
      = .of (Deed.failures (errand.visitAll ops.recorded members t r).2.2.deeds) := by
  induction members generalizing t r with
  | nil => exact ht
  | cons a rest ih =>
      rw [visitAll_cons]
      refine ih ?_
      cases hc : errand.callOn ops a with
      | none =>
          rw [visit_none ((ops.mirror_recorded.agree.callOn errand a).trans hc)]
          exact ht
      | some c =>
          obtain ⟨o, dropped, htally, hdeeds, -, hdropped⟩ := deeds_visit errand hc t r
          have hbegun : Deed.failures (r.deeds ++ [.begun a c]) = Deed.failures r.deeds :=
            Deed.failures_append r.deeds fun d hd => by rw [List.mem_singleton.1 hd]; rfl
          rw [htally, hdeeds, Deed.failures_append _ hdropped, Tally.of_concat, hbegun, ← ht]

/-- The reports are those of the deeds, one after another. -/
theorem labels_visitAll (errand : Errand) (members : List α) (t : Tally) (r : Recorded α S) :
    (errand.visitAll ops.recorded members t r).2.2.deeds.flatMap (Deed.labels ops.name)
      = r.deeds.flatMap (Deed.labels ops.name)
        ++ (errand.visitAll ops.recorded members t r).2.1.map StatusEntry.label := by
  induction members generalizing t r with
  | nil => exact (List.append_nil _).symm
  | cons a rest ih =>
      rw [visitAll_cons]
      dsimp only
      rw [ih, List.map_append, ← List.append_assoc]
      refine congrArg (· ++ _) ?_
      cases hc : errand.callOn ops a with
      | none =>
          rw [visit_none ((ops.mirror_recorded.agree.callOn errand a).trans hc)]
          exact (List.append_nil _).symm
      | some c =>
          obtain ⟨o, dropped, -, hdeeds, hreports, -⟩ := deeds_visit errand hc t r
          rw [hdeeds, hreports]
          simp only [List.flatMap_append, List.flatMap_singleton, List.append_assoc]
          rfl

end Errand

-- ================================================================= sets

/-- The call that a delivery owes an appender with this filter: the event
unless it is denied, and else a flush at the end of a batch. -/
def AppenderCall.due (filter : Option FilterChain) (e : EventSlot) (endOfBatch : Bool) :
    Option AppenderCall :=
  match filter with
  | none => some (.append e endOfBatch)
  | some chain =>
    match chain.ask (.event e) with
    | .deny => if endOfBatch then some .flush else none
    | .accept | .neutral => some (.append e endOfBatch)

theorem Errand.callOn_deliver (e : EventSlot) (endOfBatch : Bool) (a : α) :
    (Errand.deliver e endOfBatch).callOn ops a = AppenderCall.due (ops.filter a) e endOfBatch := by
  unfold callOn AppenderOps.denies AppenderCall.due
  cases ops.filter a with
  | none => rfl
  | some chain =>
      cases h : chain.ask (.event e) <;> simp [h]

namespace AppenderSet

/-- An errand writes down that it did what it owes each member. Its tally is
that of the failures, and its reports are those of the deeds. -/
theorem run_recorded (ops : AppenderOps α S) (errand : Errand) (set : AppenderSet α) (s : S) :
    let o := set.run ops.recorded errand ⟨s, []⟩
    o.state.acts = set.members.flatMap (errand.actsOn ops)
      ∧ o.result = errand.result set.members.length (.of (Deed.failures o.state.deeds))
      ∧ o.reports.map StatusEntry.label = o.state.deeds.flatMap (Deed.labels ops.name) := by
  refine ⟨?_, ?_, ?_⟩
  · exact (Errand.acts_visitAll errand set.members .clean ⟨s, []⟩).trans (List.nil_append _)
  · exact congrArg (errand.result set.members.length)
      (Errand.tally_visitAll errand set.members (r := ⟨s, []⟩) rfl)
  · exact (Errand.labels_visitAll errand set.members .clean ⟨s, []⟩).symm

/-- Without drops on record, each failure is an error under the name of its
appender, and there is nothing else to report. -/
theorem labels_run {errand : Errand} (hstop : errand ≠ .stop) (set : AppenderSet α) (s : S) :
    let o := set.run ops.recorded errand ⟨s, []⟩
    o.reports.map StatusEntry.label
      = (Deed.failures o.state.deeds).map fun f => (.error, ops.name f.1) := by
  intro o
  obtain ⟨hacts, -, hlabels⟩ := run_recorded ops errand set s
  refine hlabels.trans (Deed.labels_of_failures ops.name fun d hd hdropped => ?_)
  have hd' : d.act ∈ o.state.acts := List.mem_map_of_mem hd
  rw [hacts] at hd'
  obtain ⟨a, -, ha⟩ := List.mem_flatMap.1 hd'
  unfold Errand.actsOn Errand.actsAfter at ha
  cases hc : errand.callOn ops a with
  | none =>
      rw [hc] at ha
      cases ha
  | some c =>
      rw [hc] at ha
      -- what is done is to begin a call and to end it
      have hlive : d.act = (a, .begun c) ∨ d.act = (a, .ended c) := by
        cases errand with
        | deliver e endOfBatch | flush => simpa using ha
        | stop => exact absurd rfl hstop
      rcases hlive with h | h <;> (rw [h] at hdropped; cases hdropped)

/-- Whatever comes of the calls, a delivery makes the one call on each
member that the member's own filter asks for, in the order of the list,
and counts and reports each call that fails or panics. So do a flush and a
stop, which call every member and end with the first failure; members
that are stopped are dropped next. To look at what is done changes
nothing. -/
theorem members_isolated (ops : AppenderOps α S) (set : AppenderSet α) (s : S) :
    (∀ errand : Errand,
      let o := set.run ops.recorded errand ⟨s, []⟩
      o.result = (set.run ops errand s).result ∧ o.reports = (set.run ops errand s).reports
        ∧ o.state.state = (set.run ops errand s).state)
    ∧ (∀ (e : EventSlot) (endOfBatch : Bool),
      let o := set.deliver ops.recorded e endOfBatch ⟨s, []⟩
      let failures := Deed.failures o.state.deeds
      o.state.acts = set.members.flatMap (fun a =>
          match AppenderCall.due (ops.filter a) e endOfBatch with
          | none => []
          | some c => [(a, .begun c), (a, .ended c)])
        ∧ o.result = (if failures.length = 0 then .ok () else .error (.writer
          (Nat.repr failures.length ++ " of " ++ Nat.repr set.members.length
            ++ " appenders failed")))
        ∧ o.reports.map StatusEntry.label = failures.map fun f => (.error, ops.name f.1))
    ∧ (let o := set.flush ops.recorded ⟨s, []⟩
      let failures := Deed.failures o.state.deeds
      o.state.acts = set.members.flatMap (fun a => [(a, .begun .flush), (a, .ended .flush)])
        ∧ o.result = failures.head?.elim (.ok ()) (fun f => .error f.2)
        ∧ o.reports.map StatusEntry.label = failures.map fun f => (.error, ops.name f.1))
    ∧ (let o := (set.stop ops.recorded ⟨s, []⟩).1
      let failures := Deed.failures o.state.deeds
      o.state.acts = set.members.flatMap
          (fun a => [(a, .begun .stop), (a, .ended .stop), (a, .dropped)])
        ∧ o.result = failures.head?.elim (.ok ()) (fun f => .error f.2)
        ∧ o.reports.map StatusEntry.label = o.state.deeds.flatMap (Deed.labels ops.name)) := by
  have hfirst : ∀ {errand : Errand} (size : Nat) (failures : List (α × LogError)),
      errand = .flush ∨ errand = .stop →
      errand.result size (.of failures) = failures.head?.elim (.ok ()) (fun f => .error f.2) := by
    rintro errand size failures (rfl | rfl) <;> cases failures <;> rfl
  refine ⟨fun errand => ops.mirror_recorded.agree.run errand set rfl, fun e endOfBatch => ?_,
    ?_, ?_⟩
  · obtain ⟨hacts, hresult, -⟩ := run_recorded ops (.deliver e endOfBatch) set s
    refine ⟨hacts.trans ?_, hresult, labels_run (fun h => by cases h) set s⟩
    refine congrArg set.members.flatMap (funext fun a => ?_)
    unfold Errand.actsOn
    rw [Errand.callOn_deliver]
    rfl
  · obtain ⟨hacts, hresult, -⟩ := run_recorded ops .flush set s
    exact ⟨hacts, hresult.trans (hfirst _ _ (.inl rfl)), labels_run (fun h => by cases h) set s⟩
  · obtain ⟨hacts, hresult, hlabels⟩ := run_recorded ops .stop set s
    exact ⟨hacts, hresult.trans (hfirst _ _ (.inr rfl)), hlabels⟩

/-- The second appender fails and the third one panics. -/
example :
    let ops : AppenderOps Nat Unit :=
      { name := fun a => "appender " ++ Nat.repr a, filter := fun _ => none,
        enter := fun _ _ s => s, isHeld := fun _ _ _ => false, drop := fun _ s => ([], s),
        finish := fun _ a s =>
          ([.done, .failed .stopped, .panicked "boom"].getD (a - 1) .done, s) }
    let o := (AppenderSet.mk [1, 2, 3]).deliver ops .fresh true ()
    o.result = .error (.writer "2 of 3 appenders failed")
      ∧ o.reports.map StatusEntry.label
        = [(.error, "appender 2"), (.error, "appender 3")] := ⟨rfl, rfl⟩

end AppenderSet

end LogPipeline
