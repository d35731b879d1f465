import Se7enService.RegistryAtomicity
set_option autoImplicit false

/-! The accepted generation of a scope beside the values of its key, after a restart. -/

namespace Se7en
open Faulty

section Restart

variable [RegistryNames] [Unicode] [Deserialize RegistryTransactionJournal]
  [Deserialize GenerationRegistryDocument] {A : Event Empty → Prop}

/-- The part of `recover_service_state` that loads the registry generations and recovers
the registry transaction. -/
def recoverRegistryState (scopes : RegistryScopeRegistry) : StoreProg Unit := do
  let registry ← generationFile.run GenerationRegistry.load
  assign ({ · with accepted := registry })
  recoverRegistryTransaction scopes

/-- `u` is where a completed start ends, after any number of others that were cut off,
failed or completed. -/
def RegistryStore.Restarts (scopes : RegistryScopeRegistry) (s u : RegistryStore) : Prop :=
  ∃ t, Rounds Anything (recoverRegistryState scopes) s t ∧
    ∃ sch rest, recoverRegistryState scopes t sch = (.ok (), u, rest)

def RegistryStore.SameGenerations (s t : RegistryStore) : Prop :=
  t.generations = s.generations ∧ t.accepted = s.accepted

variable {scopes : RegistryScopeRegistry} {s t u : RegistryStore}

omit [Unicode] [Deserialize RegistryTransactionJournal] [Deserialize GenerationRegistryDocument] in
theorem sameGenerations_restoreReversed (key : RegistryKey)
    (values : List RegistryTransactionValue) :
    Keeps A s.SameGenerations (restoreReversed key values) := by
  intro t ht
  have hpartly : ∀ u, t.Partly key (recordedItems values) u → s.SameGenerations u := by
    rintro u ⟨k, rfl⟩
    exact ht
  refine (wp_restoreReversed values t).mono ?_ (fun _ u h => hpartly u h.2) hpartly
  rintro _ u rfl
  exact ht

omit [Deserialize GenerationRegistryDocument] in
/-- The recovery of a transaction leaves the generations alone. -/
theorem sameGenerations_recover (scopes : RegistryScopeRegistry) :
    Keeps A s.SameGenerations (recoverRegistryTransaction scopes) := by
  have hfile : Keeps A (fun _ => True) recoverServiceFileReplacement := fun file _ =>
    (recover_settled file).mono (fun _ _ _ => trivial) (fun _ _ _ => trivial) (fun _ _ => trivial)
  have hremove : Keeps A s.SameGenerations removeRegistryTransaction := by
    refine Keeps.part (J := fun _ => True) (fun file _ => ?_) (fun _ _ => trivial)
      (fun _ _ h _ => h)
    exact remove_spec.mono (fun _ _ _ => trivial) (fun _ _ _ => trivial) (fun _ _ => trivial)
  refine Keeps.bind (Keeps.part hfile (fun _ _ => trivial) (fun _ _ h _ => h)) fun _ => ?_
  refine Keeps.bind (Keeps.look _) fun absent => ?_
  cases absent
  case true => exact Keeps.pure _
  refine Keeps.bind (Keeps.look _) fun content => ?_
  cases content with
  | none => exact Keeps.throw _
  | some bytes =>
    refine Keeps.bind (Keeps.lift _) fun journal => Keeps.bind (Keeps.lift _) fun scope => ?_
    by_cases hphase : journal.phase = .prepared
    · simp only [hphase, if_true]
      have hopen : Keeps A s.SameGenerations (openRegistryScopeKey scope).run := fun t ht =>
        Wp.step_alone (.of_ok .plain (t := t) (a := scope.key) rfl ht ht ht ht)
      exact Keeps.bind hopen fun _ => Keeps.bind (sameGenerations_restoreReversed _ _)
        fun _ => hremove
    · simp only [hphase, if_false]
      exact hremove

/-- A start that does not complete leaves what the next one makes of the registry and of the
generations as it is. -/
theorem wp_recoverRegistryState (scopes : RegistryScopeRegistry) (s : RegistryStore) :
    Wp A (recoverRegistryState scopes)
      (fun _ t => (s.outcome scopes = some t.hive ∧ t.outcome scopes = some t.hive) ∧
        GenerationRegistry.found s.generations = some t.accepted ∧
        GenerationRegistry.found t.generations = some t.accepted ∧
        t.transaction = ⟨none, none, none⟩)
      (fun _ t => ((∃ c, A (.fail c)) ∨ s.outcome scopes = none ∨
          GenerationRegistry.found s.generations = none) ∧
        t.outcome scopes = s.outcome scopes ∧
        GenerationRegistry.found t.generations = GenerationRegistry.found s.generations)
      (fun t => t.outcome scopes = s.outcome scopes ∧
        GenerationRegistry.found t.generations = GenerationRegistry.found s.generations) s := by
  have houtcome : ∀ (file : ServiceFile) (registry : GenerationRegistry),
      RegistryStore.outcome scopes { s with generations := file, accepted := registry }
        = s.outcome scopes := fun _ _ => rfl
  refine Wp.bind (Wp.part ((GenerationRegistry.wp_load s.generations).mono ?_ ?_ ?_))
  · rintro registry file ⟨hfound, hfile⟩
    refine Wp.bind (Wp.assign ?_)
    refine ((wp_recoverRegistryTransaction scopes _).and
      (sameGenerations_recover scopes _ ⟨rfl, rfl⟩)).mono ?_ ?_ ?_
    · rintro _ t ⟨⟨hhive, htransaction⟩, hgenerations, haccepted⟩
      refine ⟨⟨hhive, RegistryStore.outcome_none (by rw [htransaction]; rfl)⟩, ?_, ?_,
        htransaction⟩
      · rw [haccepted]
        exact hfound
      · rw [hgenerations, haccepted]
        exact hfile
    · rintro e t ⟨⟨hfail, hhive⟩, hgenerations, -⟩
      refine ⟨hfail.imp_right .inl, hhive, ?_⟩
      rw [hgenerations]
      exact hfile.trans hfound.symm
    · rintro t ⟨hhive, hgenerations, -⟩
      refine ⟨hhive, ?_⟩
      rw [hgenerations]
      exact hfile.trans hfound.symm
  · rintro e file ⟨hfail, hfile⟩
    exact ⟨hfail.imp_right .inr, houtcome file s.accepted, hfile⟩
  · rintro file hfile
    exact ⟨houtcome file s.accepted, hfile⟩

/-- What every start, completed or not, leaves for the next one to find. -/
def RegistryStore.Leads (scopes : RegistryScopeRegistry) (s t : RegistryStore) : Prop :=
  t.outcome scopes = s.outcome scopes ∧
    GenerationRegistry.found t.generations = GenerationRegistry.found s.generations

theorem keeps_leads (scopes : RegistryScopeRegistry) :
    Keeps Anything (RegistryStore.Leads scopes s) (recoverRegistryState scopes) := by
  rintro t ⟨hhive, hfound⟩
  refine (wp_recoverRegistryState scopes t).mono ?_ ?_ ?_
  · rintro _ u ⟨⟨hu, hu'⟩, hg, hg', -⟩
    exact ⟨hu'.trans (hu.symm.trans hhive), hg'.trans (hg.symm.trans hfound)⟩
  · exact fun _ u h => ⟨h.2.1.trans hhive, h.2.2.trans hfound⟩
  · exact fun u h => ⟨h.1.trans hhive, h.2.trans hfound⟩

theorem RegistryStore.Restarts.leads (h : Restarts scopes s u) :
    s.outcome scopes = some u.hive ∧ GenerationRegistry.found s.generations = some u.accepted ∧
      GenerationRegistry.found u.generations = some u.accepted := by
  obtain ⟨t, hrounds, sch, rest, hrun⟩ := h
  obtain ⟨hhive, hfound⟩ := (keeps_leads scopes).rounds (s := s) ⟨rfl, rfl⟩ hrounds
  obtain ⟨hu, hg⟩ := (wp_recoverRegistryState (A := Anything) scopes t).result
    (fun _ _ => trivial) hrun
  exact ⟨hhive.symm.trans hu.1, hfound.symm.trans hg.1, hg.2.1⟩

theorem RegistryStore.exists_restarts {hive : Hive} {registry : GenerationRegistry}
    (hhive : s.outcome scopes = some hive)
    (hfound : GenerationRegistry.found s.generations = some registry) :
    ∃ u, Restarts scopes s u ∧ u.hive = hive ∧ u.accepted = registry := by
  have hcalm : Calm (recoverRegistryState scopes) :=
    Calm.bind (Calm.part GenerationRegistry.calm_load) fun registry =>
      Calm.bind (fun _ => Wp.assign trivial) fun _ => calm_recoverRegistryTransaction scopes
  have hsmooth : Wp Smooth (recoverRegistryState scopes)
      (fun _ t => s.outcome scopes = some t.hive ∧
        GenerationRegistry.found s.generations = some t.accepted)
      (fun _ _ => False) (fun _ => False) s := by
    refine ((wp_recoverRegistryState scopes s).and (hcalm s)).mono
      (fun _ _ h => ⟨h.1.1.1, h.1.2.1⟩) ?_ (fun _ h => h.2)
    rintro _ t ⟨⟨⟨c, hc⟩ | hnone | hnone, -⟩, -⟩
    · cases hc
    · cases hnone.symm.trans hhive
    · cases hnone.symm.trans hfound
  obtain ⟨_, u, rest, hrun, hu, hg⟩ := hsmooth.run_nil
  exact ⟨u, ⟨s, .refl, [], rest, hrun⟩, Option.some.inj (hu.symm.trans hhive),
    Option.some.inj (hg.symm.trans hfound)⟩

end Restart

/-! ### Values and generation -/

section Agreement

variable [RegistryNames] [Base64] [Unicode]

/-- The values and the generation are both those of the set, or both those from before. -/
def RegistryStore.Agree (scope : RegisteredRegistryScope) (manifest : VerifiedRegistrySet)
    (s : RegistryStore) (hive : Hive) (registry : GenerationRegistry) : Prop :=
  (Hive.Written scope.key manifest.registrySet.values hive ∧
      registry.previous scope.scopeId = .ok (some manifest.record)) ∨
    (Hive.Prior scope.key manifest.registrySet.values s.hive hive ∧
      registry.previous scope.scopeId = s.accepted.previous scope.scopeId)

variable {scope : RegisteredRegistryScope} {manifest : VerifiedRegistrySet}
  {s t u : RegistryStore} {hive : Hive} {registry : GenerationRegistry}

/-- Where the set makes a difference, the new generation goes with the new values and the
one from before with the values from before. -/
theorem RegistryStore.Agree.exactly (h : s.Agree scope manifest hive registry)
    (hgeneration : s.accepted.previous scope.scopeId ≠ .ok (some manifest.record))
    (hvalues : ¬ Hive.Written scope.key manifest.registrySet.values s.hive) :
    (registry.previous scope.scopeId = .ok (some manifest.record) ↔
      Hive.Written scope.key manifest.registrySet.values hive) ∧
    (registry.previous scope.scopeId = s.accepted.previous scope.scopeId ↔
      Hive.Prior scope.key manifest.registrySet.values s.hive hive) := by
  have hdiffer : ¬ (Hive.Written scope.key manifest.registrySet.values hive ∧
      Hive.Prior scope.key manifest.registrySet.values s.hive hive) := by
    rintro ⟨hwritten, hprior⟩
    refine hvalues fun value hvalue => ?_
    obtain ⟨stored, hstored, hget⟩ := hwritten value hvalue
    exact ⟨stored, hstored, (hprior value hvalue).symm.trans hget⟩
  rcases h with ⟨hwritten, hnew⟩ | ⟨hprior, hold⟩
  · refine ⟨iff_of_true hnew hwritten, iff_of_false ?_ fun hprior => hdiffer ⟨hwritten, hprior⟩⟩
    exact fun hold => hgeneration (hold.symm.trans hnew)
  · refine ⟨iff_of_false ?_ fun hwritten => hdiffer ⟨hwritten, hprior⟩, iff_of_true hold hprior⟩
    exact fun hnew => hgeneration (hold.symm.trans hnew)

variable [Deserialize RegistryTransactionJournal] [Deserialize GenerationRegistryDocument]

/-- What the journal decides the values to be goes with the stored generation. -/
def RegistryStore.Consistent (scope : RegisteredRegistryScope) (manifest : VerifiedRegistrySet)
    (s t : RegistryStore) : Prop :=
  ∀ registry ∈ GenerationRegistry.found t.generations,
    ((∃ journal ∈ t.transaction.pending, journal.phase = .prepared) →
      s.Agree scope manifest s.hive registry) ∧
    ((t.transaction.settled = none ∨
        ∃ journal ∈ t.transaction.pending, journal.phase = .committed) →
      s.Agree scope manifest t.hive registry)

/-- The new generation is stored and the journal is still Prepared. -/
def RegistryStore.Overtaken (scope : RegisteredRegistryScope) (manifest : VerifiedRegistrySet)
    (s t : RegistryStore) : Prop :=
  (∃ journal ∈ t.transaction.pending, journal.phase = .prepared) ∧
    ∃ registry ∈ GenerationRegistry.found t.generations, ¬ s.Agree scope manifest s.hive registry

variable {scopes : RegistryScopeRegistry} {A : Event Empty → Prop}

omit [Deserialize RegistryTransactionJournal] [Deserialize GenerationRegistryDocument] in
theorem RegistryStore.agree_before (hprior : hive = s.hive)
    (hregistry : registry = s.accepted) : s.Agree scope manifest hive registry := by
  rw [hprior, hregistry]
  exact .inr ⟨fun _ _ => rfl, rfl⟩

omit [RegistryNames] [Base64] [Unicode] [Deserialize RegistryTransactionJournal] in
theorem RegistryStore.GenerationBefore.found [LawfulDeserialize GenerationRegistryDocument]
    (h : s.GenerationBefore t)
    (hstored : GenerationRegistry.found s.generations = some s.accepted) :
    GenerationRegistry.found t.generations = some s.accepted := by
  rcases h with halike | ⟨bytes, hbytes, ht⟩ | ⟨e, he⟩
  · exact (GenerationRegistry.found_alike halike).trans hstored
  · rw [ht]
    exact GenerationRegistry.found_whole hbytes
  · obtain ⟨bytes, hbytes⟩ := GenerationRegistry.encode_of_found hstored
    cases he.symm.trans hbytes

theorem RegistryStore.Applying.consistent_iff [LawfulDeserialize GenerationRegistryDocument]
    (h : s.Applying scope manifest t Unfailing) (hdistinct : NamesDistinct manifest.registrySet.values)
    (hstored : GenerationRegistry.found s.generations = some s.accepted) :
    s.Consistent scope manifest t ↔ ¬ s.Overtaken scope manifest t := by
  have hdata := (validateRegistrySet_sound manifest.valid).2.2.2.2.2.2.data
  constructor
  · rintro hconsistent ⟨hprepared, registry, hregistry, hdisagree⟩
    exact hdisagree ((hconsistent registry hregistry).1 hprepared)
  · intro hovertaken registry hregistry
    refine ⟨fun hprepared => ?_, fun hended => ?_⟩
    · by_contra hdisagree
      exact hovertaken ⟨hprepared, registry, hregistry, hdisagree⟩
    · rcases h.journal with ⟨hsame, -, hgenerations⟩ | hprepared | ⟨-, hfail | hback | happlied⟩
      · rw [hgenerations, hstored] at hregistry
        exact agree_before hsame (Option.some.inj hregistry).symm
      · rcases hended with hnone | ⟨journal, hpending, hphase⟩
        · obtain ⟨-, bytes, n, -, hsettled⟩ := hprepared
          cases hsettled.symm.trans hnone
        · obtain rfl := hprepared.pending hpending
          cases hphase
      · obtain ⟨c, hc⟩ := hfail
        exact absurd rfl (hc c)
      · rw [hback.generation.found hstored] at hregistry
        exact agree_before hback.hive (Option.some.inj hregistry).symm
      · obtain ⟨accepted, bytes, haccepts, hbytes, hgenerations⟩ := happlied.generation
        rw [hgenerations, GenerationRegistry.found_whole hbytes] at hregistry
        obtain rfl := Option.some.inj hregistry
        refine .inl ⟨?_, GenerationRegistry.previous_accept haccepts⟩
        rw [happlied.hive]
        exact Hive.written_store hdistinct hdata

/-- After a restart the values of a set and the generation of its scope agree exactly where
the stored generation goes with what the journal decides; without a failing step this is
everywhere but between the generation and the marker. -/
theorem registry_generation_agrees_iff [LawfulDeserialize RegistryTransactionJournal]
    [LawfulDeserialize GenerationRegistryDocument] (scopes : RegistryScopeRegistry)
    (scope : RegisteredRegistryScope) (manifest : VerifiedRegistrySet) (s : RegistryStore)
    (hregistered : scopes.resolveRegistered scope.scopeId = .ok scope)
    (hallowed : manifest.acceptance.allowedValues = scope.allowedValues)
    (hs : s.Rested scopes)
    (hstored : GenerationRegistry.found s.generations = some s.accepted) :
    (∀ sch t rest, applyRegistrySetTransaction scope manifest s sch = (.crashed, t, rest) →
      ((∀ u, RegistryStore.Restarts scopes t u →
          GenerationRegistry.found u.generations = some u.accepted ∧
            s.Agree scope manifest u.hive u.accepted) ↔
        s.Consistent scope manifest t)) ∧
    (NamesDistinct manifest.registrySet.values → ∀ sch t rest, (∀ e ∈ sch, Unfailing e) →
      applyRegistrySetTransaction scope manifest s sch = (.crashed, t, rest) →
      (s.Consistent scope manifest t ↔ ¬ s.Overtaken scope manifest t)) := by
  refine ⟨?_, ?_⟩
  · intro sch t rest hrun
    have hend : s.Applying scope manifest t fun _ => True :=
      (wp_applyRegistrySetTransaction (s := s)).result (fun _ _ => trivial) hrun
    constructor
    · intro hall registry hregistry
      rcases hend.decided hregistered hallowed with ⟨hsame, -, hgenerations⟩ | hdecided
      · rw [hgenerations, hstored] at hregistry
        have haccepted := (Option.some.inj hregistry).symm
        exact ⟨fun _ => RegistryStore.agree_before rfl haccepted,
          fun _ => RegistryStore.agree_before hsame haccepted⟩
      · constructor
        · rintro ⟨journal, hpending, hphase⟩
          have houtcome := hdecided.1 journal hpending hphase
          obtain ⟨u, hu, hhive, haccepted⟩ := RegistryStore.exists_restarts houtcome hregistry
          have hagree := (hall u hu).2
          rwa [hhive, haccepted] at hagree
        · intro hended
          have houtcome := hdecided.2 hended
          obtain ⟨u, hu, hhive, haccepted⟩ := RegistryStore.exists_restarts houtcome hregistry
          have hagree := (hall u hu).2
          rwa [hhive, haccepted] at hagree
    · intro hconsistent u hu
      obtain ⟨hhive, hfound, hfound'⟩ := hu.leads
      refine ⟨hfound', ?_⟩
      have hdecision := hconsistent u.accepted hfound
      rcases RegistryStore.mem_outcome hhive with ⟨hnone, hsame⟩ | ⟨journal, hpending, found, -, hrestored⟩
      · rw [hsame]
        exact hdecision.2 (.inl hnone)
      · cases hphase : journal.phase with
        | committed =>
          have hsame : u.hive = t.hive := by
            simpa [RegistryTransactionJournal.restored, hphase] using hrestored
          rw [hsame]
          exact hdecision.2 (.inr ⟨journal, hpending, hphase⟩)
        | prepared =>
          have hagree := hdecision.1 ⟨journal, hpending, hphase⟩
          rcases hend.outcome hs hhive with hsame | ⟨-, hnone | ⟨other, hother, hcommitted⟩⟩
          · rwa [hsame]
          · simp [ServiceFile.pending, hnone] at hpending
          · obtain rfl := Option.some.inj (hother.symm.trans hpending)
            cases hphase.symm.trans hcommitted
  · intro hdistinct sch t rest hsch hrun
    have hend : s.Applying scope manifest t Unfailing :=
      (wp_applyRegistrySetTransaction (s := s)).result hsch hrun
    exact hend.consistent_iff hdistinct hstored

end Agreement

/-! ### A set cut off before its marker -/

@[reducible] noncomputable def plainGenerations : Deserialize GenerationRegistryDocument :=
  .canonical _

attribute [local instance] plainNames plainBase64 plainUnicode plainJournals plainGenerations

/-- The values are written and the generation is saved. -/
def beforeMarker : Schedule Empty := List.replicate 12 .go ++ [.crash .after]

def overtakenStore : RegistryStore :=
  (applyRegistrySetTransaction gameScope gameManifest emptyStore beforeMarker).2.1

theorem emptyStore_found :
    GenerationRegistry.found emptyStore.generations = some emptyStore.accepted := by
  simp [GenerationRegistry.found, emptyStore, ServiceFile.Ambiguous, ServiceFile.settled]

/-- The values are restored, the generation stays. -/
theorem restart_keeps_new_generation :
    ¬ ∀ [RegistryNames] [Base64] [Unicode] [Deserialize RegistryTransactionJournal]
      [LawfulDeserialize RegistryTransactionJournal] [Deserialize GenerationRegistryDocument]
      [LawfulDeserialize GenerationRegistryDocument] (scopes : RegistryScopeRegistry)
      (scope : RegisteredRegistryScope) (manifest : VerifiedRegistrySet) (s : RegistryStore),
      scopes.resolveRegistered scope.scopeId = .ok scope →
      manifest.acceptance.allowedValues = scope.allowedValues → s.Rested scopes →
      GenerationRegistry.found s.generations = some s.accepted →
      ∀ sch t rest, (∀ e ∈ sch, Unfailing e) →
        applyRegistrySetTransaction scope manifest s sch = (.crashed, t, rest) →
        ∀ u, RegistryStore.Restarts scopes t u → s.Agree scope manifest u.hive u.accepted := by
  intro h
  have hjournals := Deserialize.canonical_lawful RegistryTransactionJournal
  have hgenerations := Deserialize.canonical_lawful GenerationRegistryDocument
  have hrun := eq_of_crashed (r := applyRegistrySetTransaction gameScope gameManifest emptyStore
    beforeMarker) (by decide +kernel)
  have hpending : gameScope.journal gameSet.values emptyStore.hive ∈
      overtakenStore.transaction.pending := by
    have hencode : (gameScope.journal gameSet.values emptyStore.hive).encode
        = .ok (overtakenStore.transaction.settled.getD []) := by decide +kernel
    have hsettled : overtakenStore.transaction.settled
        = some (overtakenStore.transaction.settled.getD []) := by decide +kernel
    obtain ⟨hjson, hbound⟩ := bounded_of_encode hencode
    rw [ServiceFile.pending, hsettled]
    simp [parseCanonical_canonicalJson hjson hbound, Except.toOption]
  obtain ⟨registry, haccepts, hfound⟩ : ∃ registry,
      gameManifest.Accepts gameScope emptyStore.accepted registry ∧
        GenerationRegistry.found overtakenStore.generations = some registry := by
    have hencode : (emptyStore.accepted.accept gameScope.scopeId gameManifest.record >>=
        GenerationRegistry.encode) = .ok (overtakenStore.generations.settled.getD []) := by
      decide +kernel
    have hfile : overtakenStore.generations
        = ⟨some (overtakenStore.generations.settled.getD []), none, none⟩ := by decide +kernel
    obtain ⟨registry, haccepts, hbytes⟩ := Result.bind_eq_ok.mp hencode
    rw [hfile]
    exact ⟨registry, haccepts, GenerationRegistry.found_whole hbytes⟩
  have hend : emptyStore.Applying gameScope gameManifest overtakenStore Unfailing :=
    wp_applyRegistrySetTransaction.result (by simp [beforeMarker, Unfailing]) hrun
  have hlevel : overtakenStore.hive.get gameScope.key "Level" ≠
      emptyStore.hive.get gameScope.key "Level" := by decide +kernel
  have houtcome : overtakenStore.outcome gameScopes = some emptyStore.hive := by
    have hregistered : gameScopes.resolveRegistered gameScope.scopeId = .ok gameScope := by
      decide +kernel
    rcases hend.decided hregistered rfl with ⟨hsame, -⟩ | hdecided
    · rw [hsame] at hlevel
      exact absurd rfl hlevel
    · exact hdecided.1 _ hpending rfl
  obtain ⟨u, hu, hhive, haccepted⟩ := RegistryStore.exists_restarts houtcome hfound
  have hagree := h gameScopes gameScope gameManifest emptyStore (by decide +kernel) rfl
    emptyStore_rested emptyStore_found beforeMarker _ _ (by simp [beforeMarker, Unfailing]) hrun u hu
  rw [hhive, haccepted] at hagree
  have hnew := GenerationRegistry.previous_accept haccepts
  rcases hagree with ⟨hwritten, -⟩ | ⟨-, hold⟩
  · obtain ⟨stored, -, hstored⟩ := hwritten (.dword "Level" 1) (by decide)
    cases hstored
  · rw [hnew] at hold
    exact absurd hold (by decide +kernel)

/-- A call cut off before the generation was saved. -/
theorem registry_generation_agrees_restored :
    ∃ (_ : RegistryNames) (_ : Base64) (_ : Unicode) (_ : Deserialize RegistryTransactionJournal)
      (_ : Deserialize GenerationRegistryDocument) (scopes : RegistryScopeRegistry)
      (scope : RegisteredRegistryScope) (manifest : VerifiedRegistrySet) (s t : RegistryStore),
      t.hive.get scope.key "Level" ≠ s.hive.get scope.key "Level" ∧
      s.Consistent scope manifest t ∧ ∀ u, RegistryStore.Restarts scopes t u →
        GenerationRegistry.found u.generations = some u.accepted ∧
          s.Agree scope manifest u.hive u.accepted := by
  have hjournals := Deserialize.canonical_lawful RegistryTransactionJournal
  have hgenerations := Deserialize.canonical_lawful GenerationRegistryDocument
  have hagrees := registry_generation_agrees_iff gameScopes gameScope gameManifest emptyStore
    (by decide +kernel) rfl emptyStore_rested emptyStore_found
  have hrun := eq_of_crashed (r := applyRegistrySetTransaction gameScope gameManifest emptyStore
    (List.replicate 8 .go ++ [.crash .before])) (by decide +kernel)
  have hconsistent := (hagrees.2 gameSet_distinct _ _ _ (by simp [Unfailing]) hrun).mpr (by
    rintro ⟨-, registry, hregistry, hdisagree⟩
    have hempty : (applyRegistrySetTransaction gameScope gameManifest emptyStore
        (List.replicate 8 .go ++ [.crash .before])).2.1.generations = emptyStore.generations := by
      decide +kernel
    rw [hempty, emptyStore_found] at hregistry
    exact hdisagree (RegistryStore.agree_before rfl (Option.some.inj hregistry).symm))
  exact ⟨_, _, _, _, _, gameScopes, gameScope, gameManifest, emptyStore, _, by decide +kernel,
    hconsistent, (hagrees.1 _ _ _ hrun).mpr hconsistent⟩

end Se7en
