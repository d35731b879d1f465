import Se7enService.Generations
import Se7enService.ServiceState
set_option autoImplicit false

/-! What a save that succeeds wrote is what the registry's own load accepts and reads. -/

namespace Se7en
open Faulty

section Writing

variable {A : Event Empty → Prop} {errors : SaveErrors} {bytes : Bytes}

/-- Only a fault keeps a save from going on after a step that nothing stands in the way of. -/
theorem meets_unless_failed {st : Step ServiceFile MaintenanceError Unit} {s t : ServiceFile}
    {Q : Unit → ServiceFile → Prop} (he : st.effect s = .ok ((), t)) (hq : Q () t) :
    st.Meets A Q (fun _ _ => ∃ cut, A (.fail cut)) (fun _ => True) s where
  ok a u h := by
    cases he.symm.trans h
    exact hq
  refused e h := by cases he.symm.trans h
  failed cut h := ⟨cut, h⟩
  crashed _ _ := trivial

theorem commitRegistry_written {path backup : Option Bytes} :
    Wp A (commitRegistry errors) (fun _ t => t = ⟨some bytes, none, none⟩)
      (fun _ _ => ∃ cut, A (.fail cut)) (fun _ => True) ⟨path, some bytes, backup⟩ := by
  unfold commitRegistry
  refine Wp.bind (Wp.attempt (Wp.step_alone
    (.of_ok_or_fail .plain (t := ⟨some bytes, none, backup⟩) rfl ?_ ?_ trivial trivial)))
  · refine Wp.bind (Wp.look ?_)
    cases backup with
    | none => exact Wp.step_alone (meets_unless_failed rfl rfl)
    | some b =>
      refine Wp.bind (Wp.step_alone (meets_unless_failed (t := ⟨some bytes, none, none⟩) rfl ?_))
      exact Wp.step_alone (meets_unless_failed rfl rfl)
  · intro hfail
    refine Wp.bind (Wp.look ?_)
    cases backup with
    | none => exact Wp.throw hfail
    | some b =>
      refine Wp.bind (Wp.attempt (Wp.step_alone
        (.of_ok .plain (t := ⟨some b, some bytes, none⟩) rfl ?_ ?_ trivial trivial)))
      · exact Wp.throw hfail
      · exact Wp.throw hfail

/-- A save ends well only with the document at the path and nothing beside it. -/
theorem writeRegistry_written {file : ServiceFile} :
    Wp A (writeRegistry errors bytes) (fun _ t => t = ⟨some bytes, none, none⟩)
      (fun _ _ => ∃ cut, A (.fail cut)) (fun _ => True) file := by
  obtain ⟨path, temporary, backup⟩ := file
  unfold writeRegistry
  refine Wp.bind (Wp.step_alone (meets_unless_failed rfl ?_))
  refine Wp.bind (Wp.step_alone (meets_unless_failed rfl ?_))
  refine Wp.bind (Wp.step_alone (meets_unless_failed rfl ?_))
  refine Wp.bind (Wp.step_alone (meets_unless_failed rfl ?_))
  refine Wp.bind (Wp.look ?_)
  cases path with
  | none => exact commitRegistry_written
  | some p =>
    refine Wp.bind (Wp.look ?_)
    cases backup with
    | none => exact Wp.bind (Wp.step_alone (meets_unless_failed rfl commitRegistry_written))
    | some b =>
      refine Wp.bind (Wp.step_alone (meets_unless_failed (t := ⟨some p, some bytes, none⟩) rfl ?_))
      exact Wp.bind (Wp.step_alone (meets_unless_failed rfl commitRegistry_written))

end Writing

/-- After a save that succeeded, only a failing step keeps a load from returning the registry,
or a second save from writing the same bytes. -/
def RoundTrips {R : Type} (save : R → FileProg Unit) (load : FileProg R) (registry : R) : Prop :=
  ∀ file sch saved rest, save registry file sch = (.ok (), saved, rest) → ∀ A : Event Empty → Prop,
    Wp A load (fun loaded t => loaded = registry ∧ t = saved)
      (fun _ _ => ∃ cut, A (.fail cut)) (fun _ => True) saved ∧
    Wp A (save registry) (fun _ t => t = saved)
      (fun _ _ => ∃ cut, A (.fail cut)) (fun _ => True) saved

theorem StoredRegistry.save_ok {R : Type} {S : StoredRegistry R} {registry : R}
    {file saved : ServiceFile} {sch rest : Schedule Empty}
    (h : S.save registry file sch = (.ok (), saved, rest)) :
    ∃ bytes, S.encode registry = .ok bytes ∧ saved = ⟨some bytes, none, none⟩ := by
  cases hencode : S.encode registry with
  | error e =>
    simp only [StoredRegistry.save, hencode, run_bind, run_lift_error] at h
    cases h
  | ok bytes =>
    rw [save_eq hencode] at h
    have hwritten : saved = ⟨some bytes, none, none⟩ :=
      writeRegistry_written.result (fun _ _ => (trivial : Anything _)) h
    exact ⟨bytes, rfl, hwritten⟩

theorem StoredRegistry.Lawful.roundTrips {R : Type} {S : StoredRegistry R} (hS : S.Lawful)
    (registry : R) : RoundTrips S.save (look S.load >>= lift) registry := by
  intro file sch saved rest hsave A
  obtain ⟨bytes, hencode, rfl⟩ := S.save_ok hsave
  have hread : readBounded (some bytes) S.maximum = some bytes := by
    simp [readBounded, hS.bounded registry bytes hencode]
  have hload : S.load ⟨some bytes, none, none⟩ = .ok registry := by
    simp [StoredRegistry.load, hread, hS.decode_encode registry bytes hencode]
  constructor
  · refine Wp.bind (Wp.look ?_)
    rw [hload]
    exact Wp.pure ⟨rfl, rfl⟩
  · unfold StoredRegistry.save
    rw [hencode]
    exact Wp.bind (Wp.pure writeRegistry_written)

section Generations

variable [Deserialize GenerationRegistryDocument] [LawfulDeserialize GenerationRegistryDocument]

omit [Deserialize GenerationRegistryDocument] [LawfulDeserialize GenerationRegistryDocument] in
theorem GenerationRegistry.save_ok {registry : GenerationRegistry} {file saved : ServiceFile}
    {sch rest : Schedule Empty} (h : registry.save file sch = (.ok (), saved, rest)) :
    ∃ bytes, registry.encode = .ok bytes ∧ saved = ⟨some bytes, none, none⟩ := by
  cases hencode : registry.encode with
  | error e =>
    simp only [save, hencode, run_bind, run_lift_error] at h
    cases h
  | ok bytes =>
    have hreplace : replaceServiceFile bytes file sch = (.ok (), saved, rest) := by
      simpa only [save, hencode, run_bind, run_lift_ok] using h
    cases hstale : file.stale with
    | true =>
      exact ((replace_stale hstale).result (fun _ _ => (trivial : Anything _)) hreplace).elim
    | false =>
      rw [ServiceFile.eq_clean hstale] at hreplace
      have hwritten : saved = ⟨some bytes, none, none⟩ :=
        replace_meets.result (fun _ _ => (trivial : Anything _)) hreplace
      exact ⟨bytes, rfl, hwritten⟩

theorem GenerationRegistry.roundTrips (registry : GenerationRegistry) :
    RoundTrips GenerationRegistry.save GenerationRegistry.load registry := by
  intro file sch saved rest hsave A
  obtain ⟨bytes, hencode, rfl⟩ := save_ok hsave
  constructor
  · have hread : readBounded (some bytes) maxGenerationRegistryBytes = some bytes := by
      simp [readBounded, (bounded_of_encode hencode).2]
    unfold load recoverServiceFileReplacement
    refine Wp.bind (Wp.bind (Wp.look (Wp.pure ?_)))
    refine Wp.bind (Wp.look (Wp.bind (Wp.look ?_)))
    simp only [hread, decode_encode hencode]
    exact Wp.pure ⟨rfl, rfl⟩
  · unfold save
    rw [hencode]
    exact Wp.bind (Wp.pure (replace_meets.mono (fun _ _ h => h) (fun _ _ h => h.1)
      fun _ _ => trivial))

end Generations

/-- The values of the three types are what their operations can build: their fields hold the
identifiers, paths, subkeys, allowlists, digests and counts that `load` checks again. -/
theorem registries_round_trip [Unicode] [Deserialize RootRegistryDocument]
    [LawfulDeserialize RootRegistryDocument] [Deserialize RegistryScopeRegistryDocument]
    [LawfulDeserialize RegistryScopeRegistryDocument] [Deserialize GenerationRegistryDocument]
    [LawfulDeserialize GenerationRegistryDocument] :
    (∀ registry, RoundTrips RootRegistry.save (look RootRegistry.load >>= lift) registry) ∧
    (∀ registry, RoundTrips RegistryScopeRegistry.save
      (look RegistryScopeRegistry.load >>= lift) registry) ∧
    (∀ registry, RoundTrips GenerationRegistry.save GenerationRegistry.load registry) :=
  ⟨RootRegistry.stored_lawful.roundTrips, RegistryScopeRegistry.stored_lawful.roundTrips,
    GenerationRegistry.roundTrips⟩

/-- One root saved where an older save had left a `.new` file. -/
theorem registries_round_trip_sample :
    ∃ (_ : Deserialize RootRegistryDocument) (saved : ServiceFile),
      sampleRoots.save ⟨none, some [1], none⟩ [] = (.ok (), saved, []) ∧
        RootRegistry.load saved = .ok sampleRoots := by
  let unicode : Unicode := ⟨fun s => s.map Char.toLower⟩
  let decoder := Deserialize.canonical RootRegistryDocument
  let scopeDecoder := Deserialize.canonical RegistryScopeRegistryDocument
  let generationDecoder := Deserialize.canonical GenerationRegistryDocument
  have hlawful := Deserialize.canonical_lawful RootRegistryDocument
  have hscopes := Deserialize.canonical_lawful RegistryScopeRegistryDocument
  have hgenerations := Deserialize.canonical_lawful GenerationRegistryDocument
  obtain ⟨bytes, hencode⟩ := sampleRoots_encode
  have hsave : sampleRoots.save ⟨none, some [1], none⟩ [] =
      (.ok (), ⟨some bytes, none, none⟩, []) :=
    StoredRegistry.save_eq (S := RootRegistry.stored) hencode _ _
  refine ⟨decoder, _, hsave, ?_⟩
  have hload := (registries_round_trip.1 sampleRoots _ _ _ _ hsave fun _ => False).1 [] nofun
  cases hread : RootRegistry.load ⟨some bytes, none, none⟩ with
  | error e =>
    rw [run_bind, run_look, hread] at hload
    obtain ⟨cut, hcut⟩ := hload.2
    exact hcut.elim
  | ok loaded =>
    rw [run_bind, run_look, hread] at hload
    exact congrArg _ hload.2.1

end Se7en
