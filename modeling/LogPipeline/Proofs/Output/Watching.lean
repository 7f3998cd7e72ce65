/-
Watching what sinks are handed. What a sink does is told by its effect on
a world, so it can be put into a larger world in which more is noted.
`Sink.Mirrors` says that nothing else has changed, and then no manager
can tell the difference (`write_mirrored`, `flush_mirrored`,
`close_mirrored`), nor can a registry (`Registry.Mirrors`).

There are two ways to watch: one sink with a log of its own (`Watched`),
and all sinks of a registry, with a log for each (`Overseen`).
-/
import LogPipeline.Proofs.Output.Outlets
import LogPipeline.Proofs.Output.Parcels

namespace LogPipeline

variable {V W : Type}

/-- The sink does in a part of its world what `k` does. -/
structure Sink.Mirrors (part : V → W) (k' : Sink V) (k : Sink W) : Prop where
  write : ∀ bytes v, k.write bytes (part v) = ((k'.write bytes v).1, part (k'.write bytes v).2)
  flush : ∀ v, k.flush (part v) = ((k'.flush v).1, part (k'.flush v).2)
  close : ∀ v, k.close (part v) = ((k'.close v).1, part (k'.close v).2)

-- ============================================================ managers

namespace Manager

/-- What a step has come to in a part of the world. -/
def Step.through (part : V → W) (o : Step V) : Step W := (o.1, o.2.1, part o.2.2)

variable {part : V → W} {k' : Sink V} {k : Sink W}

/-- Emitting on a sink that mirrors another does to its part what it does on
the other. -/
theorem emit_mirrored (hk : k'.Mirrors part k) (bytes : ByteArray) (m : Manager) (v : V) :
    (emit k' bytes m v).through part = emit k bytes m (part v) := by
  unfold emit
  rw [hk.write]
  rcases k'.write bytes v with ⟨_ | _, _⟩ <;> rfl

/-- The same goes for draining the buffer, by what emitting does. -/
theorem drainBuffer_mirrored (hk : k'.Mirrors part k) (m : Manager) (v : V) :
    (drainBuffer k' m v).through part = drainBuffer k m (part v) := by
  unfold drainBuffer
  split
  · rfl
  · exact emit_mirrored hk _ _ v

theorem push_mirrored (hk : k'.Mirrors part k) (m : Manager) (v : V) :
    (push k' m v).through part = push k m (part v) := by
  unfold push
  rcases hdrained : drainBuffer k' m v with ⟨r₁, m₁, v₁⟩
  have hdrained' : drainBuffer k m (part v) = (r₁, m₁, part v₁) := by
    rw [← drainBuffer_mirrored hk, hdrained]
    rfl
  rw [hdrained']
  simp only [hk.flush, Step.through]

/-- Whether room has to be made depends on the manager alone. -/
theorem makeRoom_mirrored (hk : k'.Mirrors part k) (bytes : ByteArray) (m : Manager) (v : V) :
    (makeRoom k' bytes m v).through part = makeRoom k bytes m (part v) := by
  unfold makeRoom
  split
  · exact drainBuffer_mirrored hk m v
  · rfl

/-- Bytes that fit are buffered on both sides, and others handed on by
both. -/
theorem accept_mirrored (hk : k'.Mirrors part k) (bytes : ByteArray) (m : Manager) (v : V) :
    (accept k' bytes m v).through part = accept k bytes m (part v) := by
  unfold accept
  split
  · exact emit_mirrored hk bytes m v
  · rfl

/-- A manager does the same in the larger world. -/
theorem write_mirrored (hk : k'.Mirrors part k) (bytes : ByteArray) (endOfBatch : Bool)
    (m : Manager) (v : V) :
    (write k' bytes endOfBatch m v).through part = write k bytes endOfBatch m (part v) := by
  unfold write
  split
  · rfl
  · rcases hmade : makeRoom k' bytes m v with ⟨r₁, m₁, v₁⟩
    have hmade' : makeRoom k bytes m (part v) = (r₁, m₁, part v₁) := by
      rw [← makeRoom_mirrored hk, hmade]
      rfl
    rw [hmade']
    dsimp only
    rcases haccepted : accept k' bytes m₁ v₁ with ⟨r₂, m₂, v₂⟩
    have haccepted' : accept k bytes m₁ (part v₁) = (r₂, m₂, part v₂) := by
      rw [← accept_mirrored hk, haccepted]
      rfl
    rw [haccepted']
    dsimp only
    by_cases hpush : (m₂.immediateFlush || endOfBatch) = true
    · rw [if_pos hpush, if_pos hpush, ← push_mirrored hk]
      rfl
    · rw [if_neg hpush, if_neg hpush]
      rfl

/-- A closed manager does nothing on either side. -/
theorem flush_mirrored (hk : k'.Mirrors part k) (m : Manager) (v : V) :
    (flush k' m v).through part = flush k m (part v) := by
  unfold flush
  split
  · rfl
  · exact push_mirrored hk m v

/-- A manager that was closed before is not closed again on either side. -/
theorem close_mirrored (hk : k'.Mirrors part k) (m : Manager) (v : V) :
    (close k' m v).through part = close k m (part v) := by
  unfold close
  split
  · rfl
  · rcases hpushed : push k' { m with closed := true } v with ⟨r₁, m₁, v₁⟩
    have hpushed' : push k { m with closed := true } (part v) = (r₁, m₁, part v₁) := by
      rw [← push_mirrored hk, hpushed]
      rfl
    rw [hpushed']
    simp only [hk.close, Step.through]

end Manager

-- ========================================================== registries

namespace Registry

/-- The registry does in a part of its world what `r` does. -/
structure Mirrors (part : V → W) (r' : Registry V) (r : Registry W) : Prop where
  managers : ∀ i : Nat, r'.outlets[i]?.map (·.manager) = r.outlets[i]?.map (·.manager)
  sinks : ∀ (i : Nat) (o' : Outlet V) (o : Outlet W), r'.outlets[i]? = some o' →
    r.outlets[i]? = some o → o'.sink.Mirrors part o.sink
  entries_eq : r'.entries = r.entries
  world_eq : part r'.world = r.world

variable {part : V → W} {r' : Registry V} {r : Registry W}

/-- An outlet of one is an outlet of the other. -/
theorem Mirrors.outlet (hr : r'.Mirrors part r) {i : Nat} {o' : Outlet V}
    (ho' : r'.outlets[i]? = some o') :
    ∃ o, r.outlets[i]? = some o ∧ o'.manager = o.manager ∧ o'.sink.Mirrors part o.sink := by
  have hmanagers := hr.managers i
  rw [ho'] at hmanagers
  obtain ⟨o, ho, heq⟩ := Option.map_eq_some_iff.1 hmanagers.symm
  exact ⟨o, ho, heq.symm, hr.sinks i o' o ho' ho⟩

/-- An outlet that is missing in the mirror is missing. -/
theorem Mirrors.no_outlet (hr : r'.Mirrors part r) {i : Nat}
    (ho' : r'.outlets[i]? = none) : r.outlets[i]? = none := by
  have hmanagers := hr.managers i
  rw [ho'] at hmanagers
  exact Option.map_eq_none_iff.1 hmanagers.symm

/-- An operation that is mirrored at each manager is mirrored in the registry,
its result included. -/
theorem Mirrors.withOutlet (hr : r'.Mirrors part r) (h : ManagerHandle)
    {op' : Sink V → Manager → V → Manager.Step V} {op : Sink W → Manager → W → Manager.Step W}
    (hop : ∀ k' k, Sink.Mirrors part k' k → ∀ m v,
      (op' k' m v).through part = op k m (part v)) :
    (r'.withOutlet h op').1 = (r.withOutlet h op).1
      ∧ (r'.withOutlet h op').2.Mirrors part (r.withOutlet h op).2 := by
  cases ho' : r'.outlets[h.outlet]? with
  | none =>
      rw [withOutlet_none ho', withOutlet_none (hr.no_outlet ho')]
      exact ⟨rfl, hr⟩
  | some o' =>
      obtain ⟨o, ho, hmanager, hsink⟩ := hr.outlet ho'
      have hstep := hop o'.sink o.sink hsink o'.manager r'.world
      rw [hr.world_eq] at hstep
      -- the managers are the same, so the operation does the same to both
      have hmanager' : (op' o'.sink o'.manager r'.world).2.1
          = (op o.sink o.manager r.world).2.1 := by
        rw [← hmanager, ← hstep]
        rfl
      have hget' := getElem?_withOutlet r' h op'
      have hget := getElem?_withOutlet r h op
      rw [withOutlet_some ho'] at hget' ⊢
      rw [withOutlet_some ho] at hget ⊢
      refine ⟨?_, fun i => ?_, fun i o₁' o₁ ho₁' ho₁ => ?_, hr.entries_eq, ?_⟩
      · rw [← hmanager, ← hstep]
        rfl
      · rw [hget', hget]
        split
        · next hi =>
          rw [hi, ho', ho]
          exact congrArg some hmanager'
        · exact hr.managers i
      · rw [hget'] at ho₁'
        rw [hget] at ho₁
        split at ho₁'
        · next hi =>
          rw [if_pos hi] at ho₁
          obtain ⟨p', hp', rfl⟩ := Option.map_eq_some_iff.1 ho₁'
          obtain ⟨p, hp, rfl⟩ := Option.map_eq_some_iff.1 ho₁
          exact hr.sinks i p' p hp' hp
        · next hi =>
          rw [if_neg hi] at ho₁
          exact hr.sinks i o₁' o₁ ho₁' ho₁
      · show part (op' o'.sink o'.manager r'.world).2.2 = (op o.sink o.manager r.world).2.2
        rw [← hmanager, ← hstep]
        rfl

/-- Giving a handle back comes to the same. -/
theorem Mirrors.release (hr : r'.Mirrors part r) (h : ManagerHandle) :
    (r'.release h).1 = (r.release h).1 ∧ (r'.release h).2.Mirrors part (r.release h).2 := by
  cases ho' : r'.outlets[h.outlet]? with
  | none =>
      rw [release_none ho', release_none (hr.no_outlet ho')]
      exact ⟨rfl, hr⟩
  | some o' =>
      obtain ⟨o, ho, hmanager, -⟩ := hr.outlet ho'
      have hdropped : (r'.dropped h o'.manager).Mirrors part (r.dropped h o.manager) :=
        ⟨hr.managers, hr.sinks, by rw [dropped, dropped, hr.entries_eq, hmanager], hr.world_eq⟩
      have hfrom : dropFrom r'.entries o'.manager.name h
          = dropFrom r.entries o.manager.name h := by rw [hr.entries_eq, hmanager]
      cases hlast : (dropFrom r.entries o.manager.name h).1 with
      | false =>
          rw [release_kept ho' (hfrom ▸ hlast), release_kept ho hlast]
          exact ⟨rfl, hdropped⟩
      | true =>
          obtain ⟨hresult, hclosed⟩ := hdropped.withOutlet h fun k' k hk m v =>
            Manager.close_mirrored hk m v
          rw [release_last ho' (hfrom ▸ hlast), release_last ho hlast]
          refine ⟨?_, hclosed⟩
          have hresult' : ((r'.dropped h o'.manager).close h).1
              = ((r.dropped h o.manager).close h).1 := hresult
          show closeReport o'.manager.name ((r'.dropped h o'.manager).close h).1 = _
          rw [hresult', hmanager]

end Registry

-- ============================================================ one sink

/-- A world, and what was handed to a sink in it. -/
structure Watched (W : Type) where
  world : W
  attempts : List Attempt

/-- The sink, with a note of every write in the world. -/
def Sink.watched (k : Sink W) : Sink (Watched W) where
  write bytes w :=
    let (result, world) := k.write bytes w.world
    (result, ⟨world, w.attempts ++ [⟨bytes, result.isOk⟩]⟩)
  flush w :=
    let (result, world) := k.flush w.world
    (result, { w with world := world })
  close w :=
    let (result, world) := k.close w.world
    (result, { w with world := world })
  contentFormat := k.contentFormat

/-- A watched sink writes down every attempt. -/
theorem Sink.logs_watched (k : Sink W) : k.watched.Logs Watched.attempts :=
  ⟨fun _ _ => rfl, fun _ => rfl, fun _ => rfl⟩

/-- Being watched changes nothing of what a sink does. -/
theorem Sink.mirrors_watched (k : Sink W) : k.watched.Mirrors Watched.world k :=
  ⟨fun _ _ => rfl, fun _ => rfl, fun _ => rfl⟩

-- ====================================================== many sinks

/-- A world, and what was handed to each of the sinks in it. -/
structure Overseen (W : Type) where
  world : W
  attempts : Nat → List Attempt

/-- The sink of one outlet, with a note of every write in the world. -/
def Sink.overseen (i : Nat) (k : Sink W) : Sink (Overseen W) where
  write bytes w :=
    let (result, world) := k.write bytes w.world
    (result, ⟨world, fun j =>
      if j = i then w.attempts j ++ [⟨bytes, result.isOk⟩] else w.attempts j⟩)
  flush w :=
    let (result, world) := k.flush w.world
    (result, { w with world := world })
  close w :=
    let (result, world) := k.close w.world
    (result, { w with world := world })
  contentFormat := k.contentFormat

theorem Sink.mirrors_overseen (i : Nat) (k : Sink W) :
    (k.overseen i).Mirrors Overseen.world k :=
  ⟨fun _ _ => rfl, fun _ => rfl, fun _ => rfl⟩

/-- The registry, with a note of every write of a sink in the world. -/
def Registry.overseen (r : Registry W) : Registry (Overseen W) where
  outlets := r.outlets.mapIdx fun i o => ⟨o.manager, o.sink.overseen i⟩
  entries := r.entries
  world := ⟨r.world, fun _ => []⟩

theorem Registry.mirrors_overseen (r : Registry W) :
    r.overseen.Mirrors Overseen.world r where
  managers i := by simp [overseen, Option.map_map, Function.comp_def]
  sinks i o' o ho' ho := by
    have ho'' : (r.outlets.mapIdx fun i o =>
        (⟨o.manager, o.sink.overseen i⟩ : Outlet (Overseen W)))[i]? = some o' := ho'
    rw [Array.getElem?_mapIdx, ho] at ho''
    rw [← Option.some.inj ho'']
    exact o.sink.mirrors_overseen i
  entries_eq := rfl
  world_eq := rfl

end LogPipeline
