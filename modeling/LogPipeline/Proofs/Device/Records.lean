/-
What sinks do to memory records. A record only grows: no sink of the
library takes anything out of any record, and what is new comes behind
what was there (`Devices.Extends`, `Sink.Lasting`). A sink that is on a
record is on no other (`recordSink_inj`), and only the sinks of memory
destinations are on records (`openSink_cases`).
-/
import LogPipeline.Appender.Build
import LogPipeline.Proofs.Output.Streams

namespace LogPipeline

-- ============================================================ one record

namespace MemoryRecord

/-- The record has what it had, and maybe more behind it. -/
structure Extends (r r' : MemoryRecord) : Prop where
  refusing_eq : r'.refusing = r.refusing
  contents : ∃ more, r'.contents = r.contents ++ more

variable {r r' r'' : MemoryRecord}

/-- A record extends itself: nothing was added. -/
theorem Extends.refl (r : MemoryRecord) : r.Extends r := ⟨rfl, .empty, by simp⟩

/-- What was added and what was added then are added one after the other. -/
theorem Extends.trans (h : r.Extends r') (h' : r'.Extends r'') : r.Extends r'' := by
  obtain ⟨more, hmore⟩ := h.contents
  obtain ⟨more', hmore'⟩ := h'.contents
  refine ⟨h'.refusing_eq.trans h.refusing_eq, more ++ more', ?_⟩
  rw [hmore', hmore, ByteArray.append_assoc]

/-- A record that accepts takes all bytes, at its end. -/
theorem write_accepting (bytes : ByteArray) (h : r.refusing = false) :
    (write bytes r).1 = .ok () ∧ (write bytes r).2.refusing = false
      ∧ (write bytes r).2.contents = r.contents ++ bytes := by
  unfold write
  rw [if_neg (by simp [h])]
  refine ⟨rfl, h, ?_⟩
  unfold contents
  exact Array.foldl_push ..

/-- A record that refuses stays as it is. -/
theorem write_refusing (bytes : ByteArray) (h : r.refusing = true) : (write bytes r).2 = r := by
  unfold write
  rw [if_pos h]

/-- In either case nothing is taken away. -/
theorem extends_write (bytes : ByteArray) (r : MemoryRecord) : r.Extends (write bytes r).2 := by
  cases h : r.refusing with
  | true => exact (write_refusing bytes h).symm ▸ .refl r
  | false =>
      obtain ⟨-, hrefusing, hcontents⟩ := write_accepting bytes h
      exact ⟨hrefusing.trans h.symm, bytes, hcontents⟩

end MemoryRecord

-- ============================================================ the devices

namespace Devices

/-- All records are there, with what they had. -/
structure Extends (d d' : Devices) : Prop where
  size_le : d.records.size ≤ d'.records.size
  record : ∀ n < d.records.size, (d.record n).Extends (d'.record n)

variable {d d' d'' : Devices}

/-- Devices whose records are as they were are extended by nothing. -/
theorem Extends.refl (d : Devices) : d.Extends d := ⟨Nat.le_refl _, fun _ _ => .refl _⟩

theorem Extends.trans (h : d.Extends d') (h' : d'.Extends d'') : d.Extends d'' :=
  ⟨Nat.le_trans h.size_le h'.size_le, fun n hn =>
    (h.record n hn).trans (h'.record n (Nat.lt_of_lt_of_le hn h.size_le))⟩

/-- Whatever leaves the records alone extends the devices. -/
theorem extends_of_records (h : d'.records = d.records) : d.Extends d' := by
  refine ⟨Nat.le_of_eq (congrArg Array.size h.symm), fun n _ => ?_⟩
  unfold Devices.record
  rw [h]
  exact .refl _

/-- A new record comes behind all the others. -/
theorem extends_newRecord (d : Devices) : d.Extends d.newRecord.2 := by
  refine ⟨Nat.le_of_lt (by simp [newRecord]), fun n hn => ?_⟩
  have hsame : d.newRecord.2.record n = d.record n := by
    simp [newRecord, Devices.record, Array.getElem?_push, Nat.ne_of_lt hn]
  exact hsame ▸ .refl _

section

variable {α : Type} (op : MemoryRecord → α × MemoryRecord)

theorem size_onRecord (id : Nat) (d : Devices) :
    (onRecord id op d).2.records.size = d.records.size := Array.size_setIfInBounds

/-- An operation on one record changes that record alone, if it is there. -/
theorem record_onRecord (id n : Nat) (d : Devices) :
    (onRecord id op d).2.record n
      = if id = n ∧ id < d.records.size then (op (d.record n)).2 else d.record n := by
  show (d.records.setIfInBounds id (op (d.record id)).2).getD n default = _
  unfold Devices.record
  rw [Array.getD_eq_getD_getElem?, Array.getElem?_setIfInBounds]
  by_cases hid : id = n
  · rw [hid, if_pos rfl]
    by_cases hlt : n < d.records.size
    · rw [if_pos hlt, if_pos ⟨rfl, hlt⟩]
      rfl
    · rw [if_neg hlt, if_neg fun h => hlt h.2, Array.getD_eq_getD_getElem?,
        Array.getElem?_eq_none (Nat.le_of_not_lt hlt)]
  · rw [if_neg hid, if_neg fun h => hid h.1, Array.getD_eq_getD_getElem?]

/-- An operation that extends each record extends the devices. -/
theorem extends_onRecord (hop : ∀ r : MemoryRecord, r.Extends (op r).2) (id : Nat)
    (d : Devices) : d.Extends (onRecord id op d).2 := by
  refine ⟨Nat.le_of_eq (size_onRecord op id d).symm, fun n hn => ?_⟩
  rw [record_onRecord]
  split
  · exact hop _
  · exact .refl _

end

/-- Only a record that is not there can be flushed without a trace. -/
theorem flush_recordSink_iff (n : Nat) (d : Devices) :
    ((recordSink n).flush d).2 = d ↔ d.records.size ≤ n := by
  have hrecord : ((recordSink n).flush d).2.record n
      = if n = n ∧ n < d.records.size then (MemoryRecord.flush (d.record n)).2 else d.record n :=
    record_onRecord MemoryRecord.flush n n d
  constructor
  · intro hsame
    refine Nat.le_of_not_lt fun hlt => ?_
    rw [hsame, if_pos ⟨rfl, hlt⟩] at hrecord
    exact Nat.ne_of_lt (Nat.lt_succ_self _) (congrArg MemoryRecord.flushes hrecord)
  · intro hle
    show { d with records := d.records.setIfInBounds n _ } = d
    rw [Array.setIfInBounds_eq_of_size_le hle]

/-- Records that are as many as wanted. -/
def withRecords (size : Nat) : Devices :=
  { initial with records := Array.replicate size .empty }

/-- The sinks of two records can be told apart: some devices have the one
record and not the other. -/
theorem recordSink_inj {n n' : Nat} (h : recordSink n = recordSink n') : n = n' := by
  have hle : ∀ size, size ≤ n ↔ size ≤ n' := by
    intro size
    have hn := flush_recordSink_iff n (withRecords size)
    have hn' := flush_recordSink_iff n' (withRecords size)
    rw [h] at hn
    simpa [withRecords] using hn.symm.trans hn'
  exact Nat.le_antisymm ((hle n).1 (Nat.le_refl n)) ((hle n').2 (Nat.le_refl n'))

/-- What does nothing to flush is not on a record. -/
theorem ne_recordSink {k : Sink Devices} (h : ∀ d, (k.flush d).2 = d) (n : Nat) :
    k ≠ recordSink n := by
  rintro rfl
  have hle := (flush_recordSink_iff n (withRecords (n + 1))).1 (h _)
  simp only [withRecords, Array.size_replicate] at hle
  exact Nat.not_succ_le_self n hle

end Devices

-- ============================================================= sinks

/-- The calls of the sink take nothing out of any record. -/
def Sink.Lasting (k : Sink Devices) : Prop := ∀ d : Devices, k.Keeps d.Extends

namespace Devices

/-- A sink that leaves the records alone is lasting; so are all sinks but
those of records. -/
theorem lasting_of_records {k : Sink Devices}
    (hwrite : ∀ bytes d, (k.write bytes d).2.records = d.records)
    (hflush : ∀ d, (k.flush d).2.records = d.records)
    (hclose : ∀ d, (k.close d).2.records = d.records) : k.Lasting := fun _ =>
  ⟨fun bytes w h => h.trans (extends_of_records (hwrite bytes w)),
    fun w h => h.trans (extends_of_records (hflush w)),
    fun w h => h.trans (extends_of_records (hclose w))⟩

/-- The sink of a record only adds to it. -/
theorem lasting_recordSink (n : Nat) : (recordSink n).Lasting := fun _ =>
  ⟨fun bytes w h => h.trans (extends_onRecord _ (MemoryRecord.extends_write bytes) n w),
    fun w h => h.trans (extends_onRecord MemoryRecord.flush (fun r => ⟨rfl, .empty, by
      simp [MemoryRecord.flush, MemoryRecord.contents]⟩) n w),
    fun w h => h.trans (extends_onRecord MemoryRecord.close (fun r => ⟨rfl, .empty, by
      simp [MemoryRecord.close, MemoryRecord.contents]⟩) n w)⟩

/-- Writing to files does nothing to records. -/
theorem lasting_fileSink (id : Nat) : (fileSink id).Lasting := by
  refine lasting_of_records (fun bytes d => ?_) (fun d => ?_) fun d => ?_
  · show (writeFile id bytes d).2.records = d.records
    unfold writeFile
    dsimp only
    split
    · rfl
    · split <;> rfl
  · show (flushFile id d).2.records = d.records
    unfold flushFile
    dsimp only
    split <;> rfl
  · show (closeFile id d).2.records = d.records
    unfold closeFile
    dsimp only
    split
    · rfl
    · split <;> rfl

theorem lasting_consoleSink (t : ConsoleTarget) : (consoleSink t).Lasting :=
  lasting_of_records (fun _ _ => by cases t <;> rfl) (fun _ => rfl) fun _ => rfl

/-- Writing to a peer does nothing to records. -/
theorem lasting_connectionSink (id : Nat) : (connectionSink id).Lasting := by
  refine lasting_of_records (fun bytes d => ?_) (fun _ => rfl) fun _ => rfl
  show (send id bytes d).2.records = d.records
  unfold send
  dsimp only
  split
  · rfl
  · split <;> rfl

end Devices

namespace Destination

/-- Opening a destination does nothing to records, not even where the
destination is one. -/
theorem records_openSink (d : Destination) (w : Devices) :
    (d.openSink w).2.records = w.records := by
  cases d with
  | memory manager record => rfl
  | file path manager append uri =>
      have hopen : (w.openFile path append).2.records = w.records := by
        unfold Devices.openFile
        split <;> rfl
      unfold openSink
      dsimp only
      split
      · next heq =>
        rw [heq] at hopen
        exact hopen
      · next heq =>
        rw [heq] at hopen
        exact hopen
  | console t => rfl
  | socket address timeout =>
      have hconnect : (w.connect address).2.records = w.records := by
        unfold Devices.connect
        split <;> rfl
      unfold openSink
      dsimp only
      split
      · next heq =>
        rw [heq] at hconnect
        exact hconnect
      · next heq =>
        rw [heq] at hconnect
        split <;> exact hconnect

/-- A sink that was opened leaves what is in records, and only a memory
destination has a sink on a record. -/
theorem openSink_cases {d : Destination} {w w' : Devices} {k : Sink Devices}
    (h : d.openSink w = (.ok k, w')) :
    k.Lasting ∧ ∀ n, k = Devices.recordSink n →
      ∃ manager record, d = .memory manager record ∧ n = record.getD 0 := by
  have hidle : ∀ {k : Sink Devices}, (∀ d, (k.flush d).2 = d) → ∀ n, k = Devices.recordSink n →
      ∃ manager record, d = .memory manager record ∧ n = record.getD 0 :=
    fun hflush n hn => absurd hn (Devices.ne_recordSink hflush n)
  unfold openSink at h
  split at h
  · next manager record =>
    cases h
    exact ⟨Devices.lasting_recordSink _, fun n hn =>
      ⟨manager, record, rfl, (Devices.recordSink_inj hn).symm⟩⟩
  · split at h
    · next id w₁ hopen =>
      cases h
      refine ⟨Devices.lasting_fileSink id, hidle fun d => ?_⟩
      show (Devices.flushFile id d).2 = d
      unfold Devices.flushFile
      dsimp only
      split <;> rfl
    · cases h
  · next t =>
    cases h
    exact ⟨Devices.lasting_consoleSink t, hidle fun _ => rfl⟩
  · split at h
    · cases h
    · next id w₁ hconnect =>
      split at h
      · cases h
      · cases h
        exact ⟨Devices.lasting_connectionSink id, hidle fun _ => rfl⟩

end Destination

end LogPipeline
