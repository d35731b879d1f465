import Se7enService.RegistryScopes
set_option autoImplicit false

/-! The registries of `recover_service_state` across crashes and restarts. -/

namespace Se7en
open Faulty

/-- Both registries: while every restart finds the file or only the empty registry is at
stake, nothing is lost, and a restart loads the right one exactly when it starts so. -/
theorem registries_load_iff_starts [Unicode]
    [Deserialize RootRegistryDocument] [LawfulDeserialize RootRegistryDocument]
    [Deserialize RegistryScopeRegistryDocument]
    [LawfulDeserialize RegistryScopeRegistryDocument] :
    (∀ l, RootRegistry.stored.Run (RegistryLedger.Starts RootRegistry.stored) l →
      l.Remains RootRegistry.stored ∧
        (l.Loads RootRegistry.stored ↔ l.Starts RootRegistry.stored)) ∧
    (∀ l, RegistryScopeRegistry.stored.Run (RegistryLedger.Starts RegistryScopeRegistry.stored) l →
      l.Remains RegistryScopeRegistry.stored ∧
        (l.Loads RegistryScopeRegistry.stored ↔ l.Starts RegistryScopeRegistry.stored)) :=
  ⟨fun _ h => h.loads_iff RootRegistry.stored_lawful,
    fun _ h => h.loads_iff RegistryScopeRegistry.stored_lawful⟩

def sampleRoots : RootRegistry where
  roots := ⟨[sampleRoot], by simp⟩
  valid := by simp only [List.mem_singleton, forall_eq]; decide
  bounded := by decide

theorem sampleRoots_encode : ∃ bytes, sampleRoots.encode = .ok bytes := by
  have hlength : (utf8 (toValue sampleRoots.document).text).length ≤ maxRootRegistryBytes := by
    decide +kernel
  exact ⟨_, encode_of_length hlength⟩

theorem newScopes_encode [Unicode] : ∃ bytes, RegistryScopeRegistry.new.encode = .ok bytes := by
  have hlength : (utf8 (toValue RegistryScopeRegistry.new.document).text).length ≤
      maxRegistryScopeRegistryBytes := by
    change (utf8 (toValue (⟨registryScopeRegistryKind, registryScopeRegistrySchema, []⟩ :
      RegistryScopeRegistryDocument)).text).length ≤ _
    decide +kernel
  exact ⟨_, encode_of_length hlength⟩

/-- A save cut off after `roots-v1.json` was renamed to its backup: the next start is
empty although the backup holds the registry. -/
theorem start_loses_roots :
    ¬ ∀ [Deserialize RootRegistryDocument] [LawfulDeserialize RootRegistryDocument]
      (l : RegistryLedger RootRegistry), RootRegistry.stored.Run (fun _ => True) l →
        l.Loads RootRegistry.stored := by
  intro h
  let decoder := Deserialize.canonical RootRegistryDocument
  have hlawful := Deserialize.canonical_lawful RootRegistryDocument
  obtain ⟨bytes, hencode⟩ := sampleRoots_encode
  obtain ⟨l, hrun, hlost⟩ := StoredRegistry.exists_run_not_loads (S := RootRegistry.stored)
    hencode (by decide)
  exact hlost (h l hrun)

/-- Two finished saves of the roots and a first save of the scopes that was cut off. -/
theorem registries_load_after_crash :
    ∃ (_ : Unicode) (_ : Deserialize RootRegistryDocument)
      (_ : Deserialize RegistryScopeRegistryDocument),
    (∃ l : RegistryLedger RootRegistry, l.held = sampleRoots ∧ l.Remains RootRegistry.stored ∧
      (l.Loads RootRegistry.stored ↔ l.Starts RootRegistry.stored)) ∧
    (∃ l : RegistryLedger RegistryScopeRegistry, l.crashed = true ∧
      l.Remains RegistryScopeRegistry.stored ∧
      (l.Loads RegistryScopeRegistry.stored ↔ l.Starts RegistryScopeRegistry.stored)) := by
  let unicode : Unicode := ⟨fun s => s.map Char.toLower⟩
  let decoder := Deserialize.canonical RootRegistryDocument
  let scopeDecoder := Deserialize.canonical RegistryScopeRegistryDocument
  have hlawful := Deserialize.canonical_lawful RootRegistryDocument
  have hscopes := Deserialize.canonical_lawful RegistryScopeRegistryDocument
  refine ⟨unicode, decoder, scopeDecoder, ?_, ?_⟩
  · obtain ⟨bytes, hencode⟩ := sampleRoots_encode
    have hsave := StoredRegistry.save_eq (S := RootRegistry.stored) hencode
    have hfresh : RootRegistry.stored.Run (RegistryLedger.Starts RootRegistry.stored) _ := .fresh
    have hrun := hfresh.save sampleRoots [] rfl (by simp)
    rw [hsave] at hrun
    exact ⟨_, rfl, registries_load_iff_starts.1 _ hrun⟩
  · obtain ⟨bytes, hencode⟩ := newScopes_encode
    have hsave := StoredRegistry.save_eq (S := RegistryScopeRegistry.stored) hencode
    have hfresh : RegistryScopeRegistry.stored.Run
        (RegistryLedger.Starts RegistryScopeRegistry.stored) _ := .fresh
    have hrun := hfresh.save RegistryScopeRegistry.new [.go, .crash .after] rfl (by simp [Unfailing])
    rw [hsave] at hrun
    exact ⟨_, rfl, registries_load_iff_starts.2 _ hrun⟩

end Se7en
