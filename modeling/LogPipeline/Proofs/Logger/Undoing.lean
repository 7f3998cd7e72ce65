/-
A logger that cannot be built gives back what was taken for it. Between
the first appender and the last, the handles that are out are those of the
appenders that were built so far (`borrowed_build`). Whoever gives up owns
them and lets go of all: the list of appenders when one of them cannot be
built (`borrowed_dropUnused`), the set they have become when there is no
ring (`borrowed_visitAll`). Whatever it was that failed, an error that is told
or a panic that goes through, the registry's entries are as before, what
was made for the logger is flushed and closed, and what was open is still
open (`ofConfig_failed`). That asks for a sound registry, which is what
every run of acquiring, using and giving back leads to
(`Desk.sound_plainRun`).
-/
import LogPipeline.Proofs.Appender.Errands
import LogPipeline.Proofs.Config.Building
import LogPipeline.Proofs.Output.Borrowing
import LogPipeline.Proofs.Samples

namespace LogPipeline

open Registry (Borrowed Tried)

variable {r₀ r : Registry Devices} {taken : List ManagerHandle}

/-- The handles that appenders hold. -/
def handlesOf (as : List Appender) : List ManagerHandle := as.map (·.output.handle)

-- ============================================================= building

/-- The library makes open managers of the names they are asked for. -/
theorem Destination.honest_factory (d : Destination) (o : OutputOptions) (name : String) :
    RegistryOp.Honest (.acquire name (d.factory o)) := by
  intro w outlet hmade
  unfold Destination.factory at hmade
  split at hmade
  · cases hmade
  · cases hmade
    exact ⟨rfl, rfl⟩

/-- One operation leads to such a registry. -/
theorem Samples.sound_inUse (name : String) (d : Destination) (w : Devices) :
    (inUse name d w).Sound := by
  have hsound : ((Desk.start w).plainRun [.acquire name (d.factory buffered)]).registry.Sound := by
    apply Desk.sound_plainRun
    intro op hop
    rw [List.mem_singleton.1 hop]
    exact d.honest_factory buffered name
  have hregistry : ((Desk.start w).acquire name (d.factory buffered)).registry
      = inUse name d w := by
    unfold Desk.acquire inUse
    show Desk.registry _ = ((Desk.start w).registry.acquire name (d.factory buffered)).2.2
    rcases (Desk.start w).registry.acquire name (d.factory buffered)
      with ⟨e | h, reports, r⟩ <;> rfl
  exact hregistry ▸ hsound

namespace AppenderConfig

/-- An appender that is built has taken one handle, one that is not none. -/
theorem borrowed_build (env : Environment) (c : AppenderConfig) (hb : Borrowed r₀ taken r) :
    Tried r₀ (·.output.handle :: taken) taken (c.build env r).1 (c.build env r).2.2 := by
  cases hfilter : FilterConfig.buildOptional c.filters with
  | error e =>
      unfold build
      rw [hfilter]
      exact hb
  | ok filter =>
      by_cases hpath : c.Pathless
      · rw [build_of_pathless hfilter hpath]
        exact hb
      · rw [build_of_path hfilter hpath]
        by_cases hover : c.destination.overflows (c.options env filter) r = true
        · rw [if_pos hover]
          exact hb.in_world _
        · rw [if_neg hover]
          have hacquired := hb.acquire
            (c.destination.honest_factory (c.options env filter) c.destination.managerName)
          revert hacquired
          rcases r.acquire c.destination.managerName (c.destination.factory (c.options env filter))
            with ⟨e | handle, reports, r'⟩ <;> exact id

/-- Appenders that are dropped give back their handles. -/
theorem borrowed_dropUnused : ∀ (as : List Appender) {r : Registry Devices},
    Borrowed r₀ (handlesOf as) r → Borrowed r₀ [] (AppenderSet.dropUnused Appender.ops as r).2
  | [], _, hb => hb
  | _ :: rest, _, hb => borrowed_dropUnused rest hb.release

/-- All appenders are built and hold their handles, or none holds any. -/
theorem borrowed_buildAll (env : Environment) : ∀ (cs : List AppenderConfig)
    (built : List Appender) {r : Registry Devices}, Borrowed r₀ (handlesOf built) r →
    Tried r₀ handlesOf [] (buildAll env cs built r).1 (buildAll env cs built r).2.2
  | [], built, r, hb => hb
  | c :: rest, built, r, hb => by
    have hbuild := borrowed_build env c hb
    unfold buildAll
    rcases hresult : c.build env r with ⟨f | a, reports, r'⟩
    · rw [hresult] at hbuild
      cases f with
      | told e =>
          cases e with
          | managerCreation name message => exact borrowed_buildAll env rest built hbuild
          | _ => exact borrowed_dropUnused built hbuild
      | panicked message => exact borrowed_dropUnused built hbuild
    · rw [hresult] at hbuild
      refine borrowed_buildAll env rest (built ++ [a]) (Borrowed.perm hbuild ?_)
      rw [show handlesOf (built ++ [a]) = handlesOf built ++ [a.output.handle] from
        List.map_append]
      exact (List.perm_append_singleton ..).symm

end AppenderConfig

-- ============================================================ stopping

variable {C K : Type}

/-- Appenders of the library that are stopped are flushed, and give back
their handles. -/
theorem borrowed_visitAll (custom : AppenderOps C K) : ∀ (as : List Appender) (t : Tally)
    {host : Host K}, Borrowed r₀ (handlesOf as) host.registry →
    Borrowed r₀ [] (Errand.stop.visitAll (MixedAppender.ops custom)
      (as.map .managed) t host).2.2.registry
  | [], _, _, hb => hb
  | a :: rest, t, host, hb => by
    rw [List.map_cons, Errand.visitAll_cons]
    exact borrowed_visitAll custom rest _ (hb.flush a.output.handle).release

namespace Logger

/-- If no logger comes of a description, it is as if nobody had tried to
build one: the registry has the entries it had, with their counts; each
manager that was made is flushed and closed; and the managers that were
there are the same and as open as before. Registries that are come to by
their operations are sound (`Desk.sound_plainRun`). -/
theorem ofConfig_failed (custom : AppenderOps C K) (env : Environment) (c : PipelineConfig)
    (site : Site (Host K)) (hs : site.world.registry.Sound) (f : Failure)
    (hfailed : (ofConfig custom env c site).1 = .error f) :
    let r₀ := site.world.registry
    let r := (ofConfig custom env c site).2.world.registry
    r.entries = r₀.entries
      ∧ (∀ (i : Nat) (o : Outlet Devices), r₀.outlets.size ≤ i → r.outlets[i]? = some o →
        o.manager.Finished)
      ∧ ∀ i < r₀.outlets.size, r.nameAt i = r₀.nameAt i ∧ r.openAt i = r₀.openAt i := by
  have hstart := Registry.borrowed_start hs
  suffices hb : Borrowed site.world.registry [] (ofConfig custom env c site).2.world.registry from
    hb.returned hs
  revert hfailed
  unfold ofConfig
  split
  · exact fun _ => hstart
  · split
    · exact fun _ => hstart
    · next filter _ =>
      have hbuilt := AppenderConfig.borrowed_buildAll env c.appenders [] hstart
      rcases hall : AppenderConfig.buildAll env c.appenders [] site.world.registry
        with ⟨f' | as, reports, r⟩
      · rw [hall] at hbuilt
        exact fun _ => hbuilt
      · rw [hall] at hbuilt
        dsimp only
        unfold build
        dsimp only
        split
        · exact nofun
        · exact fun _ => borrowed_visitAll custom as .clean hbuilt

namespace Sample

/-- The log file's manager is in use already. -/
def shared : Site (Host Unit) :=
  ⟨.silent, ⟨Samples.inUse "app.log" (.console .stderr) .initial, ()⟩⟩

/-- The log file is shared and the console is new, and then there is no ring. -/
def ringless : PipelineConfig :=
  { oversized with appenders := [Samples.onFile "app.log" none, Samples.onConsole []] }

end Sample

open LogPipeline.Logger.Sample in
theorem ofConfig_failed_sample : shared.world.registry.Sound
    ∧ (ofConfig Samples.noAppenders bare ringless shared).1
      = .error (.told ringless.oversizedError)
    ∧ let r := (ofConfig Samples.noAppenders bare ringless shared).2.world.registry
      r.outlets.size = 2
        ∧ r.entries = shared.world.registry.entries
        ∧ (∀ (i : Nat) (o : Outlet Devices), 1 ≤ i → r.outlets[i]? = some o →
          o.manager.Finished)
        ∧ ∀ i < 1, r.nameAt i = shared.world.registry.nameAt i
          ∧ r.openAt i = shared.world.registry.openAt i := by
  have hfailed : (ofConfig Samples.noAppenders bare ringless shared).1
      = .error (.told ringless.oversizedError) := rfl
  have hsound : shared.world.registry.Sound := Samples.sound_inUse _ _ _
  exact ⟨hsound, hfailed, rfl,
    ofConfig_failed Samples.noAppenders bare ringless shared hsound _ hfailed⟩

end Logger

end LogPipeline
