/-
What memory appenders leave in records. A memory appender keeps the number
of the record that it was given, or of a new one, but it writes to
whatever stands behind the manager of its name: if there was a manager
already, that is the record of the one it was made for
(`records_of_makers`).

Between an appender and an accepting record, the chunks that it has written
are in the record or still in the buffer, in order and with others in
between (`Registry.Holds`). Whatever is done to the manager, and through
other managers to the record, that is kept (`Used.holds`), and a flush
leaves nothing in the buffer.
-/
import LogPipeline.Proofs.Appender.Workshop
import LogPipeline.Proofs.Device.Records
import LogPipeline.Proofs.Samples

namespace LogPipeline

-- ========================================================= one manager

namespace Manager

/-- A flushed manager has nothing buffered. -/
theorem emptied_flush {W : Type} (k : Sink W) {m : Manager} (w : W)
    (h : m.closed = true → m.buffer = .empty) : (flush k m w).2.1.buffer = .empty := by
  cases hm : m.closed with
  | true =>
      show (answer k .flush m w).2.1.buffer = .empty
      rw [Session.answer_closed k .flush w hm]
      exact h hm
  | false => exact buffer_flush k w hm

/-- All that the sink was seen to be handed has come into the record. -/
structure Recorded (n : Nat) (before : ByteArray) (v : Watched Devices) : Prop where
  there : n < v.world.records.size
  accepting : (v.world.record n).refusing = false
  contents : (v.world.record n).contents = before ++ takenBytes v.attempts
  taken : ∀ a ∈ v.attempts, a.taken = true

/-- What hands nothing over leaves all as it was. -/
theorem Recorded.untouched {n : Nat} {before : ByteArray} {v : Watched Devices} {α : Type}
    (hv : Recorded n before v) (op : MemoryRecord → α × MemoryRecord)
    (hop : ∀ r, (op r).2.refusing = r.refusing ∧ (op r).2.contents = r.contents) :
    Recorded n before { v with world := (Devices.onRecord n op v.world).2 } := by
  obtain ⟨hrefusing, hcontents⟩ := hop (v.world.record n)
  have hrecord : ((Devices.onRecord n op v.world).2.record n) = (op (v.world.record n)).2 :=
    (Devices.record_onRecord op n n v.world).trans (if_pos ⟨rfl, hv.there⟩)
  exact {
    there := (Devices.size_onRecord op n v.world).symm ▸ hv.there
    accepting := by rw [hrecord, hrefusing, hv.accepting]
    contents := by rw [hrecord, hcontents, hv.contents]
    taken := hv.taken }

/-- As long as the record accepts, all that the sink is handed comes into
it. -/
theorem keeps_recorded (n : Nat) (before : ByteArray) :
    (Devices.recordSink n).watched.Keeps (Recorded n before) where
  write bytes v hv := by
    obtain ⟨htold, haccepting, hcontents⟩ := MemoryRecord.write_accepting bytes hv.accepting
    have hrecord : (((Devices.recordSink n).watched.write bytes v).2.world.record n)
        = (MemoryRecord.write bytes (v.world.record n)).2 :=
      (Devices.record_onRecord (MemoryRecord.write bytes) n n v.world).trans
        (if_pos ⟨rfl, hv.there⟩)
    have htaken : ((Devices.recordSink n).watched.write bytes v).2.attempts
        = v.attempts ++ [⟨bytes, true⟩] := by
      show v.attempts ++ [⟨bytes, (MemoryRecord.write bytes (v.world.record n)).1.isOk⟩] = _
      rw [htold]
      rfl
    exact {
      there := (Devices.size_onRecord (MemoryRecord.write bytes) n v.world).symm ▸ hv.there
      accepting := hrecord.symm ▸ haccepting
      contents := by
        rw [hrecord, hcontents, htaken, hv.contents, takenBytes_append, ByteArray.append_assoc]
        simp [takenBytes]
      taken := by
        intro a ha
        rw [htaken] at ha
        rcases List.mem_append.1 ha with ha | ha
        · exact hv.taken a ha
        · rw [List.mem_singleton.1 ha] }
  flush _ hv := hv.untouched MemoryRecord.flush fun _ => ⟨rfl, rfl⟩
  close _ hv := hv.untouched MemoryRecord.close fun _ => ⟨rfl, rfl⟩

/-- Of what is held and what comes in, all that goes over is in the record. -/
theorem recorded_answer {n : Nat} {m : Manager} {d : Devices} {held : List ByteArray}
    (c : ManagerCall) (hn : n < d.records.size) (haccepting : (d.record n).refusing = false)
    (hopen : m.closed = false) (hb : m.buffer = joinBytes held) :
    ∃ done left, held ++ c.chunks = done ++ left
      ∧ ((answer (Devices.recordSink n) c m d).2.2.record n).contents
        = (d.record n).contents ++ joinBytes done
      ∧ (answer (Devices.recordSink n) c m d).2.1.buffer = joinBytes left := by
  obtain ⟨parcels, left, hmoves⟩ :=
    moves_answer (Devices.recordSink n).logs_watched c ⟨d, []⟩ hopen hb
  have hrecorded : Recorded n (d.record n).contents
      (answer (Devices.recordSink n).watched c m ⟨d, []⟩).2.2 :=
    keeps_answer (keeps_recorded n _) c m ⟨hn, haccepting, by simp, fun _ ha => nomatch ha⟩
  have hsame : (answer (Devices.recordSink n).watched c m ⟨d, []⟩).through Watched.world
      = answer (Devices.recordSink n) c m d :=
    answer_mirrored (Devices.recordSink n).mirrors_watched ..
  have hlogged : (answer (Devices.recordSink n).watched c m ⟨d, []⟩).2.2.attempts
      = parcels.map Parcel.attempt := by
    simpa using hmoves.logged
  have hall : ∀ p ∈ parcels, p.taken = true := by
    intro p hp
    refine hrecorded.taken p.attempt ?_
    rw [hlogged]
    exact List.mem_map_of_mem hp
  refine ⟨parcels.flatMap (·.chunks), left, hmoves.chunks, ?_, ?_⟩
  · rw [← hsame]
    show ((answer (Devices.recordSink n).watched c m ⟨d, []⟩).2.2.world.record n).contents = _
    rw [hrecorded.contents, hlogged, Parcel.takenBytes_attempts, Parcel.takenChunks_eq hall]
  · rw [← hsame]
    exact hmoves.buffer

end Manager

-- ======================================================= the registry

/-- The sink of the outlet is of those that the library has, and nothing is
stuck in its manager. -/
structure Outlet.InOrder (o : Outlet Devices) (d : Devices) : Prop where
  lasting : o.sink.Lasting
  /-- A record that it writes to is there. -/
  there : ∀ n, o.sink = Devices.recordSink n → n < d.records.size
  emptied : o.manager.closed = true → o.manager.buffer = .empty

theorem Outlet.InOrder.extends {o : Outlet Devices} {d d' : Devices} (h : o.InOrder d)
    (he : d.Extends d') : o.InOrder d' :=
  { h with there := fun n hn => Nat.lt_of_lt_of_le (h.there n hn) he.size_le }

namespace Registry

variable {r r' : Registry Devices} {x y : ManagerHandle} {n : Nat} {written : List ByteArray}

def InOrder (r : Registry Devices) : Prop :=
  ∀ (i : Nat) (o : Outlet Devices), r.outlets[i]? = some o → o.InOrder r.world

/-- The manager of the handle writes to the record of the number. -/
def RecordsTo (r : Registry Devices) (h : ManagerHandle) (n : Nat) : Prop :=
  ∃ o, r.outlets[h.outlet]? = some o ∧ o.sink = Devices.recordSink n

/-- What was written is in the record, or still buffered in front of it. -/
def Holds (r : Registry Devices) (h : ManagerHandle) (n : Nat) (written : List ByteArray) :
    Prop :=
  ∃ done held, (r.world.record n).contents = joinBytes done
    ∧ r.bufferAt h.outlet = some (joinBytes held) ∧ written.Sublist (done ++ held)

/-- The record of a manager in order is there. -/
theorem InOrder.recordsTo_lt (hr : r.InOrder) (hto : r.RecordsTo x n) :
    n < r.world.records.size := by
  obtain ⟨o, ho, hsink⟩ := hto
  exact (hr _ o ho).there n hsink

/-- A manager writes where it did before. -/
theorem Grows.recordsTo_iff (hg : r.Grows r') (hx : x.outlet < r.outlets.size) (n : Nat) :
    r'.RecordsTo x n ↔ r.RecordsTo x n := by
  obtain ⟨o', ho', hsink, -⟩ := hg _ _ (Array.getElem?_eq_getElem hx)
  unfold RecordsTo
  rw [ho', Array.getElem?_eq_getElem hx]
  simp [hsink]

/-- A call leaves every outlet in order, and makes records only longer. -/
theorem inOrder_answer (hr : r.InOrder) (h : ManagerHandle) (c : ManagerCall) :
    (r.answer h c).2.InOrder ∧ r.world.Extends (r.answer h c).2.world := by
  unfold answer
  cases ho : r.outlets[h.outlet]? with
  | none =>
      rw [withOutlet_none ho]
      exact ⟨hr, .refl _⟩
  | some o =>
      have hextends : r.world.Extends (Manager.answer o.sink c o.manager r.world).2.2 :=
        Manager.keeps_answer ((hr _ o ho).lasting r.world) c o.manager (.refl _)
      have hget := getElem?_withOutlet r h fun k => Manager.answer k c
      rw [withOutlet_some ho] at hget ⊢
      refine ⟨fun i p hp => ?_, hextends⟩
      rw [hget] at hp
      split at hp
      · next hi =>
        obtain ⟨p', hp', rfl⟩ := Option.map_eq_some_iff.1 hp
        have hp'' := (hr i p' hp').extends hextends
        exact { hp'' with
          emptied := Session.emptied_answer p'.sink c r.world hp''.emptied }
      · exact (hr i p hp).extends hextends

theorem Used.inOrder (hu : Used x r r') (hr : r.InOrder) :
    r'.InOrder ∧ r.world.Extends r'.world := by
  cases hu with
  | spared entries => exact ⟨hr, .refl _⟩
  | called entries c => exact inOrder_answer (r := { r with entries := entries }) hr x c

/-- Of nothing written, nothing is missing. -/
theorem holds_nothing {o : Outlet Devices} (ho : r.outlets[x.outlet]? = some o) (n : Nat) :
    r.Holds x n [] := by
  refine ⟨[(r.world.record n).contents], [o.manager.buffer], by simp, ?_, List.nil_sublist _⟩
  unfold bufferAt
  rw [ho]
  simp

/-- What grows the record and leaves the buffer alone loses nothing of what is
held. -/
theorem Holds.elsewhere (hheld : r.Holds x n written)
    (hbuffer : r'.bufferAt x.outlet = r.bufferAt x.outlet)
    (hextends : (r.world.record n).Extends (r'.world.record n)) : r'.Holds x n written := by
  obtain ⟨done, held, hdone, hbuffered, hsublist⟩ := hheld
  obtain ⟨more, hmore⟩ := hextends.contents
  refine ⟨done ++ [more], held, ?_, hbuffer.trans hbuffered, hsublist.trans ?_⟩
  · rw [hmore, hdone]
    simp
  · exact (List.sublist_append_left done [more]).append_right held

/-- After a call the outlet buffers what the call left in its manager. -/
theorem bufferAt_answer {h : ManagerHandle} {o : Outlet Devices}
    (ho : r.outlets[h.outlet]? = some o) (c : ManagerCall) :
    (r.answer h c).2.bufferAt h.outlet
      = some (Manager.answer o.sink c o.manager r.world).2.1.buffer := by
  unfold bufferAt answer
  rw [getElem?_withOutlet, if_pos rfl, ho]
  rfl

/-- A call brings its chunks to what is held, if it is not refused. -/
theorem Holds.answer (hheld : r.Holds x n written) (hr : r.InOrder) (hto : r.RecordsTo x n)
    (haccepting : (r.world.record n).refusing = false) (c : ManagerCall) {new : List ByteArray}
    (hnew : new = [] ∨ new = c.chunks ∧ (r.answer x c).1 = .ok ()) :
    (r.answer x c).2.Holds x n (written ++ new) := by
  obtain ⟨o, ho, hsink⟩ := hto
  obtain ⟨done, held, hdone, hbuffered, hsublist⟩ := hheld
  have hbuffer := bufferAt_answer ho c
  have hanswer : r.answer x c = ((Manager.answer o.sink c o.manager r.world).1, _) :=
    withOutlet_some ho
  have hworld : (r.answer x c).2.world = (Manager.answer o.sink c o.manager r.world).2.2 :=
    congrArg (·.2.world) hanswer
  have hheld : o.manager.buffer = joinBytes held := by
    unfold bufferAt at hbuffered
    rw [ho] at hbuffered
    exact Option.some.inj hbuffered
  cases hm : o.manager.closed with
  | true =>
      rw [hanswer, Session.answer_closed o.sink c r.world hm] at hnew
      rw [Session.answer_closed o.sink c r.world hm] at hbuffer hworld
      -- a closed manager refuses whatever has chunks
      have hnone : new = [] := by
        rcases hnew with hnone | ⟨hchunks, hok⟩
        · exact hnone
        · by_cases hc : c.chunks = []
          · exact hchunks.trans hc
          · rw [if_neg hc] at hok
            cases hok
      rw [hnone, List.append_nil]
      exact ⟨done, held, hworld.symm ▸ hdone, hbuffer.trans (congrArg some hheld), hsublist⟩
  | false =>
      obtain ⟨more, left, hchunks, hcontents, hleft⟩ :=
        Manager.recorded_answer c ((hr _ o ho).there n hsink) haccepting hm hheld
      rw [← hsink] at hcontents hleft
      -- what was held and is new has come into the record, or is held now
      refine ⟨done ++ more, left, ?_, hbuffer.trans (congrArg some hleft), ?_⟩
      · rw [hworld, hcontents, hdone, joinBytes_append]
      · rw [List.append_assoc, ← hchunks, ← List.append_assoc]
        refine hsublist.append ?_
        rcases hnew with rfl | ⟨rfl, -⟩
        · exact List.nil_sublist _
        · exact .refl _

/-- Whatever becomes of a handle, what others have written is not lost. -/
theorem Used.holds (hu : Used y r r') (hr : r.InOrder) (hto : r.RecordsTo x n)
    (haccepting : (r.world.record n).refusing = false) (hheld : r.Holds x n written) :
    r'.Holds x n written := by
  cases hu with
  | spared entries => exact hheld
  | called entries c =>
      obtain ⟨r₁, hr₁⟩ : ∃ r₁, r₁ = { r with entries := entries } := ⟨_, rfl⟩
      have hr' : r₁.InOrder := hr₁ ▸ hr
      have hto' : r₁.RecordsTo x n := hr₁ ▸ hto
      have hheld' : r₁.Holds x n written := hr₁ ▸ hheld
      have haccepting' : (r₁.world.record n).refusing = false := hr₁ ▸ haccepting
      rw [← hr₁]
      by_cases hxy : x.outlet = y.outlet
      · obtain rfl : x = y := by
          cases x
          cases y
          exact congrArg ManagerHandle.mk hxy
        simpa using hheld'.answer hr' hto' haccepting' c (.inl rfl)
      · refine hheld'.elsewhere ?_ ((inOrder_answer hr' y c).2.record n (hr'.recordsTo_lt hto'))
        unfold bufferAt answer
        rw [getElem?_withOutlet, if_neg hxy]

end Registry

-- ========================================================== building

namespace Destination

/-- The number of the record that a memory destination is built with. -/
def own? (d : Destination) (w : Devices) : Option Nat :=
  match d with
  | memory _ record => some (record.getD w.records.size)
  | _ => none

variable {d : Destination} {w : Devices} {n : Nat}

/-- A destination brings at most a new record. -/
theorem extends_recorded (d : Destination) (w : Devices) : w.Extends (d.recorded w) := by
  rcases d with ⟨manager, _ | n⟩ | _ | _ | _
  · exact Devices.extends_newRecord w
  all_goals exact .refl w

/-- The record that a memory destination is built with is there. -/
theorem own_lt (hsupplied : d.isSupplied w = true) (hown : d.own? w = some n) :
    n < (d.recorded w).records.size := by
  rcases d with ⟨manager, _ | m⟩ | _ | _ | _
  · cases hown
    exact Nat.lt_of_lt_of_eq (Nat.lt_succ_self _) (Array.size_push ..).symm
  · cases hown
    exact of_decide_eq_true hsupplied
  all_goals cases hown

theorem own?_of_given {manager : String} {record : Option Nat}
    (h : d.given w = .memory manager record) : d.own? w = some (record.getD 0) := by
  rcases d with ⟨manager, _ | m⟩ | _ | _ | _ <;> cases h <;> rfl

/-- A memory destination opens a sink on its own record, which changes
nothing. -/
theorem openSink_given (hown : d.own? w = some n) (w' : Devices) :
    (d.given w).openSink w' = (.ok (Devices.recordSink n), w') := by
  rcases d with ⟨manager, _ | m⟩ | _ | _ | _ <;> cases hown <;> rfl

/-- An appender reports the record that its destination was built with,
whatever its manager writes to. -/
theorem record?_on (d : Destination) (w : Devices) (o : OutputOptions) (h : ManagerHandle) :
    (Appender.on (d.given w) o h).record? = d.own? w := by
  rcases d with ⟨manager, _ | m⟩ | _ | _ | _ <;> rfl

end Destination

namespace Appender

variable {d : Destination} {o : OutputOptions} {r r' : Registry Devices}
  {result : Except Failure Appender}

/-- Building an appender loses no record. -/
theorem Building.extends (h : Building d o r result r') : r.world.Extends r'.world := by
  have hopened : r.world.Extends
      ((d.given r.world).openSink (d.recorded r.world)).2 :=
    (d.extends_recorded r.world).trans
      (Devices.extends_of_records (Destination.records_openSink _ _))
  cases h with
  | pathless hd => exact .refl _
  | shared he => exact d.extends_recorded r.world
  | made hnone hopen hfits | refused hnone hopen | panicked hnone hopen hlarge =>
      rw [hopen] at hopened
      exact hopened

theorem Building.bufferAt_eq (h : Building d o r result r') {i : Nat}
    (hi : i < r.outlets.size) : r'.bufferAt i = r.bufferAt i := by
  cases h with
  | made hnone hopen hfits =>
      unfold Registry.bufferAt
      rw [Array.getElem?_push, if_neg (Nat.ne_of_lt hi)]
  | _ => rfl

/-- Building leaves all outlets in order, with one more if it made a
manager. -/
theorem Building.inOrder (h : Building d o r result r') (hr : r.InOrder)
    (hsupplied : d.isSupplied r.world = true) : r'.InOrder := by
  have hextends := h.extends
  have hold : ∀ (i : Nat) (p : Outlet Devices), r.outlets[i]? = some p → p.InOrder r'.world :=
    fun i p hp => (hr i p hp).extends hextends
  cases h with
  | made hnone hopen hfits =>
      intro i p hp
      rw [Array.getElem?_push] at hp
      split at hp
      · cases hp
        obtain ⟨hlasting, hmemory⟩ := Destination.openSink_cases hopen
        refine ⟨hlasting, fun n hn => ?_, nofun⟩
        obtain ⟨manager, record, hgiven, rfl⟩ := hmemory n hn
        have hlt := Destination.own_lt hsupplied (Destination.own?_of_given hgiven)
        rw [← Destination.records_openSink (d.given r.world), hopen] at hlt
        exact hlt
      · exact hold i p hp
  | _ => exact hold

end Appender

-- ====================================================== the workshop

namespace Workshop

variable {r₀ : Registry Devices} {s s' : Workshop}

/-- Nothing that a worker has written is lost on its way to a record. -/
structure Recording (s : Workshop) : Prop where
  inOrder : s.registry.InOrder
  holds : ∀ w ∈ s.workers, ∀ n, s.registry.RecordsTo w.handle n →
    (s.registry.world.record n).refusing = false → s.registry.Holds w.handle n w.written

/-- A worker's handle leads to an outlet. -/
theorem Inv.handle_lt {w : Worker} (hinv : Inv r₀ s) (hw : w ∈ s.workers) :
    w.handle.outlet < s.registry.outlets.size :=
  Registry.lt_of_nameAt (hinv.placed _ (List.mem_map_of_mem hw)).named

/-- The record that a worker's manager writes to was there before, and it was
no other. -/
theorem Inv.recordsTo_before (hinv : Inv r₀ s) (hr : s.registry.InOrder)
    {r' : Registry Devices} (hgrows : s.registry.Grows r')
    (hextends : s.registry.world.Extends r'.world) {w : Worker} (hw : w ∈ s.workers) {n : Nat}
    (hto : r'.RecordsTo w.handle n) (haccepting : (r'.world.record n).refusing = false) :
    s.registry.RecordsTo w.handle n ∧ (s.registry.world.record n).refusing = false
      ∧ (s.registry.world.record n).Extends (r'.world.record n) := by
  have hto' := (hgrows.recordsTo_iff (hinv.handle_lt hw) n).1 hto
  have hrecord := hextends.record n (hr.recordsTo_lt hto')
  exact ⟨hto', hrecord.refusing_eq.symm.trans haccepting, hrecord⟩

/-- A worker's chunks are not lost when another appender is built. -/
theorem holds_building (hinv : Inv r₀ s) (hrec : Recording s) {d : Destination}
    {o : OutputOptions} {result : Except Failure Appender} {r' : Registry Devices}
    (hbuilding : Appender.Building d o s.registry result r') {w : Worker} (hw : w ∈ s.workers)
    {n : Nat} (hto : r'.RecordsTo w.handle n)
    (haccepting : (r'.world.record n).refusing = false) : r'.Holds w.handle n w.written := by
  obtain ⟨hto', haccepting', hrecord⟩ :=
    hinv.recordsTo_before hrec.inOrder hbuilding.grows hbuilding.extends hw hto haccepting
  exact (hrec.holds w hw n hto' haccepting').elsewhere
    (hbuilding.bufferAt_eq (hinv.handle_lt hw)) hrecord

theorem holds_used (hinv : Inv r₀ s) (hrec : Recording s) {h : ManagerHandle}
    {r' : Registry Devices} (hused : Registry.Used h s.registry r') {w : Worker}
    (hw : w ∈ s.workers) {n : Nat} (hto : r'.RecordsTo w.handle n)
    (haccepting : (r'.world.record n).refusing = false) : r'.Holds w.handle n w.written := by
  obtain ⟨hto', haccepting', -⟩ := hinv.recordsTo_before hrec.inOrder hused.grows
    (hused.inOrder hrec.inOrder).2 hw hto haccepting
  exact hused.holds hrec.inOrder hto' haccepting' (hrec.holds w hw n hto' haccepting')

/-- What a worker writes comes to what it has written. -/
theorem holds_call (hinv : Inv r₀ s) (hrec : Recording s) {w : Worker} (hw : w ∈ s.workers)
    (c : AppenderCall) {n : Nat} (hto : (w.call c s.registry).2.RecordsTo w.handle n)
    (haccepting : ((w.call c s.registry).2.world.record n).refusing = false) :
    (w.call c s.registry).2.Holds w.handle n (w.call c s.registry).1.written := by
  have hused : Registry.Used w.handle s.registry (w.call c s.registry).2 :=
    ManagedOutput.used_finish c w.appender.output s.registry
  obtain ⟨hto', haccepting', -⟩ := hinv.recordsTo_before hrec.inOrder hused.grows
    (hused.inOrder hrec.inOrder).2 hw hto haccepting
  have hheld := hrec.holds w hw n hto' haccepting'
  show (ManagedOutput.ops.finish c w.appender.output s.registry).2.Holds w.handle n
    (w.written ++ w.appender.output.delivered c
      (ManagedOutput.ops.finish c w.appender.output s.registry).1)
  rcases ManagedOutput.finish_cases c w.appender.output s.registry
    with ⟨hsame, hnone⟩ | ⟨mc, -, hdone, ⟨hok, hchunks⟩ | ⟨-, hnone⟩⟩
  · rw [hsame, hnone, List.append_nil]
    exact hheld
  · rw [hdone]
    exact hheld.answer hrec.inOrder hto' haccepting' mc (.inr ⟨hchunks, hok⟩)
  · rw [hdone]
    exact hheld.answer hrec.inOrder hto' haccepting' mc (.inl hnone)

/-- One worker has changed, or it is one of those that there were. -/
theorem mem_of_changed {left right : List Worker} {v w w' : Worker}
    (hw : s.workers = left ++ w :: right) (hv : v ∈ left ++ w' :: right) :
    v = w' ∨ v ∈ s.workers := by
  rw [hw]
  rcases List.mem_append.1 hv with hv | hv
  · exact .inr (List.mem_append_left _ hv)
  · rcases List.mem_cons.1 hv with hv | hv
    · exact .inl hv
    · exact .inr (List.mem_append_right _ (List.mem_cons_of_mem _ hv))

/-- One step of the workshop loses nothing that a worker has written. -/
theorem recording_moved (hinv : Inv r₀ s) (hrec : Recording s) (h : Moved s s') :
    Recording s' := by
  cases h with
  | idle => exact hrec
  | refused hsupplied hbuilding =>
      exact ⟨hbuilding.inOrder hrec.inOrder hsupplied, fun w hw n hto haccepting =>
        holds_building hinv hrec hbuilding hw hto haccepting⟩
  | @built d o a hsupplied hok =>
      have hbuilding := Appender.building d o s.registry
      refine ⟨hbuilding.inOrder hrec.inOrder hsupplied, fun w hw n hto haccepting => ?_⟩
      rcases List.mem_append.1 hw with hw | hw
      · exact holds_building hinv hrec hbuilding hw hto haccepting
      · -- whoever has written nothing has lost nothing
        rw [List.mem_singleton.1 hw] at hto ⊢
        obtain ⟨p, hp, -⟩ := hto
        exact Registry.holds_nothing hp n
  | @called left right w c hw hlive =>
      have hused : Registry.Used w.handle s.registry (w.call c s.registry).2 :=
        ManagedOutput.used_finish c w.appender.output s.registry
      have hmem : w ∈ s.workers := hw ▸ List.mem_append_right _ List.mem_cons_self
      refine ⟨(hused.inOrder hrec.inOrder).1, fun v hv n hto haccepting => ?_⟩
      rcases mem_of_changed hw hv with rfl | hv
      · exact holds_call hinv hrec hmem c hto haccepting
      · exact holds_used hinv hrec hused hv hto haccepting
  | @dropped left right w hw hlive =>
      have hused : Registry.Used w.handle s.registry (w.drop s.registry).2 :=
        Registry.used_release s.registry w.handle
      have hmem : w ∈ s.workers := hw ▸ List.mem_append_right _ List.mem_cons_self
      refine ⟨(hused.inOrder hrec.inOrder).1, fun v hv n hto haccepting => ?_⟩
      rcases mem_of_changed hw hv with rfl | hv
      · exact holds_used hinv hrec hused hmem hto haccepting
      · exact holds_used hinv hrec hused hv hto haccepting

/-- So no run of it does. -/
theorem recording_run (ops : List WorkshopOp) (hinv : Inv r₀ s) (hrec : Recording s) :
    Recording (s.run ops) := by
  induction ops generalizing s with
  | nil => exact hrec
  | cons op rest ih =>
      have hmoved := moved_step s op
      exact ih (inv_moved hinv hmoved) (recording_moved hinv hrec hmoved)

-- ============================================================ flushes

theorem step_call {i : Nat} {w : Worker} (hw : s.workers[i]? = some w) (hlive : w.live = true)
    (c : AppenderCall) : (s.step (.call i c)).registry = (w.call c s.registry).2 := by
  show (s.onLive i (Worker.call c)).registry = _
  unfold onLive
  rw [hw]
  dsimp only
  rw [if_pos hlive]

end Workshop

/-- The number of the record that the appender was built with. -/
def Origin.own? (g : Origin) : Option Nat := g.asked.own? g.before.world

/-- What the worker has written is in the record, in order. -/
def Worker.ShownIn (w : Worker) (n : Nat) (d : Devices) : Prop :=
  ∃ pieces, (d.record n).contents = joinBytes pieces ∧ w.written.Sublist pieces

namespace Workshop

variable {r₀ : Registry Devices} {s : Workshop}

/-- What was written can be read where the manager writes to, once it is flushed. -/
theorem shown_of_flush (hinv : Inv r₀ s) (hrec : Recording s) {i : Nat} {w : Worker} {n : Nat}
    (hw : s.workers[i]? = some w) (hlive : w.live = true) (hto : s.registry.RecordsTo w.handle n)
    (haccepting : (s.registry.world.record n).refusing = false) :
    w.ShownIn n (s.step (.call i .flush)).registry.world := by
  rw [step_call hw hlive]
  have hmem : w ∈ s.workers := List.mem_of_getElem? hw
  have hused : Registry.Used w.handle s.registry (w.call .flush s.registry).2 :=
    ManagedOutput.used_finish .flush w.appender.output s.registry
  have hextends := (hused.inOrder hrec.inOrder).2.record n (hrec.inOrder.recordsTo_lt hto)
  obtain ⟨done, held, hdone, hbuffered, hsublist⟩ := holds_used hinv hrec hused hmem
    ((hused.grows.recordsTo_iff (hinv.handle_lt hmem) n).2 hto)
    (hextends.refusing_eq.trans haccepting)
  refine ⟨done ++ held, ?_, hsublist⟩
  obtain ⟨o, ho, -⟩ := hto
  have hempty : (w.call .flush s.registry).2.bufferAt w.handle.outlet = some .empty :=
    (Registry.bufferAt_answer ho .flush).trans
      (congrArg some (Manager.emptied_flush o.sink _ (hrec.inOrder _ o ho).emptied))
  have hheld : joinBytes held = .empty := Option.some.inj (hbuffered.symm.trans hempty)
  rw [joinBytes_append, hheld, hdone]
  simp

/-- What is to be said of the `i`-th worker, which was built with the record `n`. -/
structure Reports (r₀ : Registry Devices) (s : Workshop) (i : Nat) (w : Worker) (n : Nat) :
    Prop where
  /-- It tells of the record that it was built with. -/
  record_eq : w.appender.record? = some n
  /-- A manager that was made for it writes to that record. -/
  made : w.founder = true → s.registry.RecordsTo w.handle n
  /-- A manager that it found writes where it did before. -/
  found : ∀ e, w.before.entries.get? w.asked.managerName = some e → w.handle = ⟨e.outlet⟩
    ∧ ∀ n', s.registry.RecordsTo w.handle n' ↔ w.before.RecordsTo w.handle n'
  /-- A manager that is not one of the first was made for one of the workers. -/
  maker : r₀.outlets.size ≤ w.handle.outlet →
    ∃ f ∈ s.workers, f.founder = true ∧ f.handle = w.handle
  /-- Where the manager writes to, all is found that the worker has written,
  once it was flushed. -/
  shown : w.live = true → ∀ n', s.registry.RecordsTo w.handle n' →
    (s.registry.world.record n').refusing = false →
      w.ShownIn n' (s.step (.call i .flush)).registry.world

/-- Whatever appenders are built, called and dropped on a registry: a memory
appender tells of the record that it was built with, and writes to the
record of the one that its manager was made for. There is after a flush
what it has written, and in its own record if that is the same. -/
theorem records_of_makers (hs : r₀.Sound) (hr : r₀.InOrder) (ops : List WorkshopOp) {i : Nat}
    {w : Worker} {n : Nat} (hw : ((start r₀).run ops).workers[i]? = some w)
    (hown : w.own? = some n) : Reports r₀ ((start r₀).run ops) i w n := by
  have hinv : Inv r₀ ((start r₀).run ops) := inv_run ops (inv_start hs)
  have hrec : Recording ((start r₀).run ops) :=
    recording_run ops (inv_start hs) ⟨hr, fun _ hw => nomatch hw⟩
  have hmem := List.mem_of_getElem? hw
  have hplaced := hinv.placed _ (List.mem_map_of_mem hmem)
  have hgrows : w.before.Grows ((start r₀).run ops).registry :=
    (Appender.building w.asked w.options w.before).grows.trans hplaced.stays
  exact {
    record_eq := by
      rcases hplaced.cases with ⟨e, -, happender, -⟩ | ⟨-, k, d, -, happender, -⟩ <;>
        exact (congrArg Appender.record? happender).trans
          ((Destination.record?_on ..).trans hown)
    made := by
      intro hfounder
      obtain ⟨k, o, hopen, ho, hsink⟩ := hplaced.made hfounder
      -- the sink of a founder's manager is on the founder's own record
      rw [Destination.openSink_given hown] at hopen
      exact ⟨o, ho, hsink.trans (Except.ok.inj (congrArg Prod.fst hopen)).symm⟩
    found := by
      intro e he
      rcases hplaced.cases with ⟨e', he', happender, -⟩ | ⟨hnone, -⟩
      -- a name leads to one outlet, so this is the one that was found
      · have hhandle : w.handle = ⟨e.outlet⟩ := by
          unfold Origin.handle
          rw [happender, Registry.outlet_unique he he']
          rfl
        refine ⟨hhandle, hgrows.recordsTo_iff ?_⟩
        rw [hhandle]
        exact Registry.lt_of_nameAt (hplaced.sound _ e he).2
      · rw [hnone] at he
        cases he
    maker := by
      intro hnew
      obtain ⟨g, hg, hfounder, hhandle⟩ := hinv.founded _ hnew (hinv.handle_lt hmem)
      obtain ⟨f, hf, rfl⟩ := List.mem_map.1 hg
      exact ⟨f, hf, hfounder, hhandle⟩
    shown := fun hlive n' hto haccepting =>
      shown_of_flush hinv hrec hw hlive hto haccepting }

namespace Sample

open Samples (asWritten)

/-- Somebody records already. -/
def recording : Registry Devices :=
  Samples.inUse "audit" (.memory "audit" (some 0)) (Devices.withRecords 1)

/-- Two appenders on one manager; the second one writes. -/
def pair (manager : String) : List WorkshopOp :=
  [.build (.memory manager none) asWritten, .build (.memory manager none) asWritten,
    .call 1 (.append (.ofText "m") true)]

theorem sound_recording : recording.Sound := Samples.sound_inUse _ _ _

theorem inOrder_recording : recording.InOrder := by
  intro i o ho
  have hone : recording.outlets = #[(Destination.memory "audit" (some 0)).outlet
      Samples.buffered (Devices.recordSink 0)] := rfl
  rw [hone] at ho
  rw [List.mem_singleton.1 (Array.mem_toList_iff.2 (Array.mem_of_getElem? ho))]
  exact ⟨Devices.lasting_recordSink 0, fun n hn => Devices.recordSink_inj hn ▸ Nat.one_pos, nofun⟩

end Sample

open LogPipeline.Workshop.Sample in
theorem records_of_makers_sample : recording.Sound ∧ recording.InOrder
    ∧ ∃ v w, ((start recording).run (pair "audit")).workers = [v, w]
      ∧ v.own? = some 1 ∧ Reports recording ((start recording).run (pair "audit")) 0 v 1
      ∧ w.own? = some 2 ∧ Reports recording ((start recording).run (pair "audit")) 1 w 2
      ∧ w.live = true ∧ w.written = ["m".toUTF8] := by
  have hrecord := @records_of_makers recording sound_recording inOrder_recording (pair "audit")
  exact ⟨sound_recording, inOrder_recording, _, _, rfl, rfl, hrecord rfl rfl, rfl,
    hrecord rfl rfl, rfl, rfl⟩

theorem size_le_joinBytes {chunk : ByteArray} : ∀ {chunks : List ByteArray},
    chunk ∈ chunks → chunk.size ≤ (joinBytes chunks).size
  | first :: rest, h => by
    rw [joinBytes_cons, ByteArray.size_append]
    rcases List.mem_cons.1 h with rfl | h
    · exact Nat.le_add_right _ _
    · exact Nat.le_trans (size_le_joinBytes h) (Nat.le_add_left _ _)

open LogPipeline.Workshop.Sample in
/-- An appender that shares a manager and has flushed what it wrote tells of
a record in which there is nothing. -/
theorem unseen_record :
    let s := (start (.empty .initial)).run (pair "m" ++ [.call 1 .flush])
    ∃ v w, s.workers = [v, w] ∧ v.handle = w.handle ∧ v.appender.record? = some 0
      ∧ w.appender.record? = some 1 ∧ w.written = ["m".toUTF8]
      ∧ ¬ w.ShownIn 1 s.registry.world ∧ w.ShownIn 0 s.registry.world := by
  refine ⟨_, _, rfl, rfl, rfl, rfl, rfl, ?_, ["m".toUTF8], rfl, .refl _⟩
  rintro ⟨pieces, hcontents, hsublist⟩
  have hempty : joinBytes pieces = .empty := hcontents.symm.trans rfl
  have hle := size_le_joinBytes (hsublist.mem List.mem_cons_self)
  rw [hempty] at hle
  exact absurd hle (by decide)

end Workshop

end LogPipeline
