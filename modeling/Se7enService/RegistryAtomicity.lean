import Se7enService.RegistryApply
set_option autoImplicit false

/-! Registry sets are applied as a whole or not at all, as long as the journal outlives what
it can undo. -/

namespace Se7en
open Faulty

section Definitions

variable [RegistryNames] [Base64]

def Hive.Prior (key : RegistryKey) (values : List RegistryValue) (before after : Hive) : Prop :=
  ∀ value ∈ values, after.get key value.name = before.get key value.name

def Hive.Written (key : RegistryKey) (values : List RegistryValue) (hive : Hive) : Prop :=
  ∀ value ∈ values, ∃ stored, encodedRegistryValue value = .ok stored ∧
    hive.get key value.name = some stored

/-- Every named value is as before or every one is as the set has it; no other one differs. -/
structure Hive.AllOrNothing (key : RegistryKey) (values : List RegistryValue)
    (before after : Hive) : Prop where
  apart : Hive.Apart key (values.map (·.name)) before after
  whole : Hive.Prior key values before after ∨ Hive.Written key values after

variable {key : RegistryKey} {values : List RegistryValue} {before : Hive}

theorem Hive.AllOrNothing.refl : Hive.AllOrNothing key values before before :=
  ⟨.refl, .inl fun _ _ => rfl⟩

/-- The names of the set are different ones to the registry. -/
def NamesDistinct (values : List RegistryValue) : Prop :=
  values.Pairwise fun a b => RegistryNames.fold a.name ≠ RegistryNames.fold b.name

theorem Hive.written_store (hdistinct : NamesDistinct values)
    (hdata : ∀ value ∈ values, validateRegistryData value = .ok ()) :
    Hive.Written key values (Hive.store key (values.map encodedItem) before) := by
  intro value hvalue
  obtain ⟨stored, hstored⟩ := encodedRegistryValue_of_valid (hdata value hvalue)
  have hpairs : (values.map encodedItem).Pairwise fun a b =>
      RegistryNames.fold a.1 ≠ RegistryNames.fold b.1 := List.pairwise_map.mpr hdistinct
  have hget : (Hive.store key (values.map encodedItem) before).get key (encodedItem value).1 =
      (encodedItem value).2 := Hive.get_store hpairs _ (List.mem_map_of_mem hvalue)
  exact ⟨stored, hstored, by simpa [encodedItem, hstored, Except.toOption] using hget⟩

end Definitions

/-! ### What a recovery finds -/

section Outcome

variable [RegistryNames] [Base64] [Unicode] [Deserialize RegistryTransactionJournal]
  {scope : RegisteredRegistryScope} {manifest : VerifiedRegistrySet} {s t : RegistryStore}
  {scopes : RegistryScopeRegistry} {journal journal' : RegistryTransactionJournal}
  {file : ServiceFile} {A : Event Empty → Prop} {hive : Hive}

omit [RegistryNames] [Base64] [Unicode] in
theorem RegistryTransactionJournal.Writes.pending (h : journal.Writes file)
    (hpending : journal' ∈ file.pending) : journal' = journal := by
  obtain ⟨-, bytes, n, hbytes, hsettled⟩ := h
  simp only [ServiceFile.pending, hsettled, Option.mem_def] at hpending
  cases hparse : parseCanonical (α := RegistryTransactionJournal) (bytes.take n)
      maxRegistryTransactionBytes with
  | error e => simp [hparse, Except.toOption] at hpending
  | ok found =>
    obtain rfl : found = journal' := by simpa [hparse, Except.toOption] using hpending
    exact (parseCanonical_take (fun _ => ⟨_, rfl⟩) (bounded_of_encode hbytes).1 hparse).1

omit [Base64] in
theorem RegistryStore.mem_outcome (h : hive ∈ s.outcome scopes) :
    (s.transaction.settled = none ∧ hive = s.hive) ∨ ∃ journal ∈ s.transaction.pending,
      ∃ scope, validateRegistryTransaction journal scopes = .ok scope ∧
        hive = journal.restored scope s.hive := by
  unfold outcome at h
  split at h
  · cases h
  · split at h
    · rename_i hsettled
      exact .inl ⟨hsettled, (Option.some.inj h).symm⟩
    · split at h
      · cases h
      · rename_i journal hjournal
        split at h
        · cases h
        · rename_i scope hscope
          exact .inr ⟨journal, hjournal, scope, hscope, (Option.some.inj h).symm⟩

omit [RegistryNames] [Base64] [Deserialize RegistryTransactionJournal] in
/-- A journal is only restored under the key it was written for. -/
theorem validateRegistryTransaction_scope (h : validateRegistryTransaction journal scopes = .ok scope) :
    scopes.resolveRegistered journal.scopeId = .ok scope ∧
      scope.subkey = journal.subkey ∧ scope.view = journal.view := by
  unfold validateRegistryTransaction at h
  obtain ⟨⟨⟩, -, h⟩ := Result.bind_eq_ok.mp h
  obtain ⟨⟨⟩, -, h⟩ := Result.bind_eq_ok.mp h
  obtain ⟨found, hfound, h⟩ := Result.bind_eq_ok.mp h
  obtain ⟨⟨⟩, hmatch, h⟩ := Result.bind_eq_ok.mp h
  obtain ⟨⟨⟩, -, h⟩ := Result.bind_eq_ok.mp h
  obtain rfl := Except.ok.inj h
  have hsame : found.subkey = journal.subkey ∧ found.view = journal.view := by
    simpa using rejectIf_eq_ok.mp hmatch
  exact ⟨hfound, hsame⟩

theorem RegistryTransactionJournal.Writes.outcome
    (h : (scope.journal manifest.registrySet.values s.hive).Writes t.transaction)
    (hapart : Hive.Apart scope.key manifest.names s.hive t.hive)
    (hhive : hive ∈ t.outcome scopes) : hive = s.hive := by
  rcases RegistryStore.mem_outcome hhive with ⟨hnone, -⟩ | ⟨journal, hjournal, found, hfound, rfl⟩
  · obtain ⟨-, bytes, n, -, hsettled⟩ := h
    cases hsettled.symm.trans hnone
  · obtain rfl := h.pending hjournal
    obtain ⟨-, hsubkey, hview⟩ := validateRegistryTransaction_scope hfound
    have hkey : found.key = scope.key := by
      simp only [RegisteredRegistryScope.key, hsubkey, hview]
      rfl
    have hrestored := restored_journal hapart
    simp only [RegistryTransactionJournal.restored, RegisteredRegistryScope.journal, if_true,
      hkey] at hrestored ⊢
    exact hrestored

omit [Base64] in
theorem RegistryTransactionJournal.Writes.committed_outcome (h : journal.commit.Writes t.transaction)
    (hhive : hive ∈ t.outcome scopes) : hive = t.hive := by
  rcases RegistryStore.mem_outcome hhive with ⟨-, rfl⟩ | ⟨found, hfound, _, -, rfl⟩
  · rfl
  · obtain rfl := h.pending hfound
    simp [RegistryTransactionJournal.restored, RegistryTransactionJournal.commit]

omit [Base64] in
theorem RegistryTransactionJournal.Writes.outcome_some (h : journal.Writes t.transaction)
    (hpending : journal' ∈ t.transaction.pending)
    (hvalid : validateRegistryTransaction journal scopes = .ok scope) :
    t.outcome scopes = some (journal.restored scope t.hive) := by
  have hfound := h.pending hpending
  obtain ⟨hclear, bytes, n, -, hsettled⟩ := h
  simp only [ServiceFile.pending, hsettled, Option.mem_def] at hpending
  cases hread : parseCanonical (α := RegistryTransactionJournal) (bytes.take n)
      maxRegistryTransactionBytes with
  | error e => simp [hread, Except.toOption] at hpending
  | ok found =>
    obtain rfl : found = journal' := by simpa [hread, Except.toOption] using hpending
    exact RegistryStore.outcome_some hsettled hclear (hfound ▸ hread) hvalid

/-- What a recovery makes of a call that was cut off. -/
theorem RegistryStore.Applying.outcome (h : s.Applying scope manifest t A)
    (hs : ∀ hive ∈ s.outcome scopes, hive = s.hive) (hhive : hive ∈ t.outcome scopes) :
    hive = s.hive ∨ hive = t.hive ∧ (t.transaction.settled = none ∨
      ∃ journal ∈ t.transaction.pending, journal.phase = .committed) := by
  rcases h.journal with ⟨hsame, halike, -⟩ | hprepared | ⟨hended, -⟩
  · rw [RegistryStore.outcome_congr halike hsame] at hhive
    exact .inl (hs hive hhive)
  · exact .inl (hprepared.outcome h.apart hhive)
  · rcases hended with hnone | hcommitted
    · rw [RegistryStore.outcome_none hnone] at hhive
      exact .inr ⟨(Option.some.inj hhive).symm, .inl hnone⟩
    · have hsame := hcommitted.committed_outcome hhive
      rcases RegistryStore.mem_outcome hhive with ⟨hnone, -⟩ | ⟨found, hfound, -⟩
      · exact .inr ⟨hsame, .inl hnone⟩
      · have hphase := congrArg RegistryTransactionJournal.phase (hcommitted.pending hfound)
        exact .inr ⟨hsame, .inr ⟨found, hfound, hphase⟩⟩

omit [RegistryNames] [Deserialize RegistryTransactionJournal] in
theorem allows_of_valid (hallowed : manifest.acceptance.allowedValues = scope.allowedValues) :
    scope.Allows manifest.registrySet.values := by
  have hvalues := (validateRegistrySet_sound manifest.valid).2.2.2.2.2.2
  intro value hvalue
  obtain ⟨candidate, hcandidate, hname, -⟩ := hvalues.allowed value hvalue
  exact List.any_eq_true.mpr ⟨candidate, hallowed ▸ hcandidate, hname⟩

omit [Deserialize RegistryTransactionJournal] in
/-- The journals of a call pass the checks of a recovery under the same scope. -/
theorem validateRegistryTransaction_journal {phase : RegistryTransactionPhase}
    (hregistered : scopes.resolveRegistered scope.scopeId = .ok scope)
    (hvalues : manifest.registrySet.values ≠ [] ∧
      manifest.registrySet.values.length ≤ maxRegistryEntries)
    (hchecked : checkSnapshots scope 0 (snapshots scope.key s.hive manifest.registrySet.values)
      = .ok ()) :
    validateRegistryTransaction
      { scope.journal manifest.registrySet.values s.hive with phase } scopes = .ok scope := by
  have hsubkey : validateRegistrySubkey scope.subkey = .ok () := by
    unfold RegistryScopeRegistry.resolveRegistered at hregistered
    split at hregistered
    · cases hregistered
    · rename_i found hfound
      obtain rfl := Except.ok.inj hregistered
      have hvalid := scopes.valid found (List.mem_of_find?_eq_some hfound)
      unfold RegisteredRegistryScope.validateStored at hvalid
      split at hvalid
      · cases hvalid
      · obtain ⟨⟨⟩, hsubkey, -⟩ := Result.bind_eq_ok.mp hvalid
        exact hsubkey
  have hlength : ¬ maxRegistryEntries < manifest.registrySet.values.length :=
    Nat.not_lt.mpr hvalues.2
  have hcount : (snapshots scope.key s.hive manifest.registrySet.values).isEmpty = false ∧
      (snapshots scope.key s.hive manifest.registrySet.values).length
        = manifest.registrySet.values.length := by
    simp [snapshots, hvalues.1]
  simp [validateRegistryTransaction, RegisteredRegistryScope.journal, rejectIf, hsubkey,
    hregistered, hchecked, hlength, hcount]

end Outcome

/-! ### Calls that fail or are cut off -/

section Calls

variable [RegistryNames] [Base64] [Unicode] [Deserialize RegistryTransactionJournal]

/-- A recovery would not change the registry: no unfinished journal is there. -/
def RegistryStore.Rested (scopes : RegistryScopeRegistry) (s : RegistryStore) : Prop :=
  ∀ hive ∈ s.outcome scopes, hive = s.hive

/-- Half of the set is in place, and no journal that could take it back. -/
def RegistryStore.Exposed (scope : RegisteredRegistryScope) (manifest : VerifiedRegistrySet)
    (s t : RegistryStore) : Prop :=
  ¬ Hive.AllOrNothing scope.key manifest.registrySet.values s.hive t.hive ∧
    (t.transaction.settled = none ∨
      ∃ journal ∈ t.transaction.pending, journal.phase = .committed)

variable {scope : RegisteredRegistryScope} {manifest : VerifiedRegistrySet} {s t : RegistryStore}
  {scopes : RegistryScopeRegistry} {A : Event Empty → Prop}

/-- A recovery of a call that was cut off under a Prepared journal gives the registry from
before back; with the journal gone or Committed it leaves the registry alone. -/
theorem RegistryStore.Applying.decided [LawfulDeserialize RegistryTransactionJournal]
    (h : s.Applying scope manifest t A)
    (hregistered : scopes.resolveRegistered scope.scopeId = .ok scope)
    (hallowed : manifest.acceptance.allowedValues = scope.allowedValues) :
    (t.hive = s.hive ∧ s.transaction.Alike t.transaction ∧ t.generations = s.generations) ∨
    ((∀ journal ∈ t.transaction.pending, journal.phase = .prepared →
        t.outcome scopes = some s.hive) ∧
      ((t.transaction.settled = none ∨
          ∃ journal ∈ t.transaction.pending, journal.phase = .committed) →
        t.outcome scopes = some t.hive)) := by
  rcases h.checked with hsame | hchecked
  · exact .inl hsame
  have hchecked := hchecked scope (allows_of_valid hallowed)
  have hvalues := (validateRegistrySet_sound manifest.valid).2.2.2.2
  have hvalid : ∀ phase, validateRegistryTransaction
      { scope.journal manifest.registrySet.values s.hive with phase } scopes = .ok scope :=
    fun phase => validateRegistryTransaction_journal hregistered ⟨hvalues.1, hvalues.2.1⟩ hchecked
  rcases h.journal with hsame | hprepared | ⟨hended, -⟩
  · exact .inl hsame
  · refine .inr ⟨fun journal hpending _ => ?_, ?_⟩
    · rw [hprepared.outcome_some hpending (hvalid .prepared), restored_journal h.apart]
    · rintro (hnone | ⟨journal, hpending, hphase⟩)
      · obtain ⟨-, bytes, n, -, hsettled⟩ := hprepared
        cases hsettled.symm.trans hnone
      · obtain rfl := hprepared.pending hpending
        cases hphase
  · refine .inr ⟨fun journal hpending hphase => ?_, ?_⟩
    · rcases hended with hnone | hcommitted
      · simp [ServiceFile.pending, hnone] at hpending
      · obtain rfl := hcommitted.pending hpending
        cases hphase
    · rintro (hnone | ⟨journal, hpending, hphase⟩)
      · exact RegistryStore.outcome_none hnone
      · rcases hended with hnone | hcommitted
        · exact RegistryStore.outcome_none hnone
        · have houtcome := hcommitted.outcome_some hpending (hvalid .committed)
          simpa [RegistryTransactionJournal.restored, RegistryTransactionJournal.commit]
            using houtcome

/-- The values of a set are all written or all as before after an error that does not ask for
a recovery; a recovery after a crash restores this exactly where half of the set has not lost
its journal, which only a failing step can bring about. -/
theorem registry_set_atomic_iff [LawfulDeserialize RegistryTransactionJournal]
    (scopes : RegistryScopeRegistry) (scope : RegisteredRegistryScope)
    (manifest : VerifiedRegistrySet) (s : RegistryStore)
    (hregistered : scopes.resolveRegistered scope.scopeId = .ok scope)
    (hallowed : manifest.acceptance.allowedValues = scope.allowedValues)
    (hs : s.Rested scopes) :
    (∀ sch e t rest, applyRegistrySetTransaction scope manifest s sch = (.error e, t, rest) →
      e.code ≠ .recoveryIncomplete →
      Hive.AllOrNothing scope.key manifest.registrySet.values s.hive t.hive) ∧
    (∀ sch t rest, applyRegistrySetTransaction scope manifest s sch = (.crashed, t, rest) →
      ((∀ u, RegistryStore.Recovers scopes t u →
          Hive.AllOrNothing scope.key manifest.registrySet.values s.hive u.hive) ↔
        ¬ s.Exposed scope manifest t)) ∧
    (NamesDistinct manifest.registrySet.values → ∀ sch t rest, (∀ e ∈ sch, Unfailing e) →
      applyRegistrySetTransaction scope manifest s sch = (.crashed, t, rest) →
      ¬ s.Exposed scope manifest t) ∧
    ∀ hive (n : Nat), Hive.Apart scope.key manifest.names s.hive hive →
      ((scope.journal manifest.registrySet.values s.hive).restored scope)^[n + 1] hive = s.hive := by
  refine ⟨?_, ?_, ?_, ?_⟩
  · intro sch e t rest hrun hcode
    have hend := (wp_applyRegistrySetTransaction (A := fun _ => True) (s := s)).result
      (fun _ _ => trivial) hrun
    rw [hend.2 hcode]
    exact .refl
  · intro sch t rest hrun
    have hend : s.Applying scope manifest t fun _ => True :=
      (wp_applyRegistrySetTransaction (s := s)).result (fun _ _ => trivial) hrun
    constructor
    · intro hall hexposed
      obtain ⟨hmixed, hjournal⟩ := hexposed
      have houtcome : t.outcome scopes = some t.hive := by
        rcases hend.decided hregistered hallowed with ⟨hsame, -⟩ | ⟨-, hdecided⟩
        · rw [hsame] at hmixed
          exact absurd .refl hmixed
        · exact hdecided hjournal
      obtain ⟨u, hu, hhive⟩ := RegistryStore.exists_recovers houtcome
      have hwhole := hall u hu
      rw [hhive] at hwhole
      exact hmixed hwhole
    · intro hexposed u hu
      rcases hend.outcome hs hu.outcome with hsame | ⟨hsame, hjournal⟩
      · rw [hsame]
        exact .refl
      · rw [hsame]
        exact Classical.not_not.mp fun hmixed => hexposed ⟨hmixed, hjournal⟩
  · intro hdistinct sch t rest hsch hrun hexposed
    have hend : s.Applying scope manifest t Unfailing :=
      (wp_applyRegistrySetTransaction (s := s)).result hsch hrun
    obtain ⟨hmixed, hjournal⟩ := hexposed
    have hdata := (validateRegistrySet_sound manifest.valid).2.2.2.2.2.2.data
    rcases hend.journal with ⟨hsame, -⟩ | hprepared | ⟨-, hfail | hback | happlied⟩
    · rw [hsame] at hmixed
      exact hmixed .refl
    · rcases hjournal with hnone | ⟨journal, hpending, hphase⟩
      · obtain ⟨-, bytes, n, -, hsettled⟩ := hprepared
        cases hsettled.symm.trans hnone
      · obtain rfl := hprepared.pending hpending
        cases hphase
    · obtain ⟨c, hc⟩ := hfail
      exact hc c rfl
    · rw [hback.hive] at hmixed
      exact hmixed .refl
    · rw [happlied.hive] at hmixed
      exact hmixed ⟨apart_items, .inr (Hive.written_store hdistinct hdata)⟩
  · intro hive n hapart
    induction n with
    | zero => exact restored_journal hapart
    | succ n ih =>
      rw [Function.iterate_succ_apply', ih]
      exact restored_journal .refl

end Calls

/-! ### A set of two values -/

@[reducible] def plainNames : RegistryNames := ⟨id⟩
@[reducible] def plainBase64 : Base64 := ⟨fun _ => none, fun _ => ""⟩
@[reducible] def plainUnicode : Unicode := ⟨id⟩
@[reducible] noncomputable def plainJournals : Deserialize RegistryTransactionJournal :=
  .canonical _

attribute [local instance] plainNames plainBase64 plainUnicode plainJournals

def gameScope : RegisteredRegistryScope where
  allowedValues := [⟨"Level", .dword⟩, ⟨"Lives", .dword⟩]
  ownerSid := "S-1-5-21-1"
  productId := "games"
  scopeId := "games"
  subkey := "SOFTWARE\\Publisher\\Game"
  view := .registry64

theorem gameScope_valid : gameScope.validateStored = .ok () := by decide +kernel

theorem gameScopes_bounded : [gameScope].length ≤ maxRegisteredRegistryScopes := by decide

def gameScopes : RegistryScopeRegistry where
  scopes := ⟨[gameScope], by simp⟩
  valid := List.forall_mem_singleton.mpr gameScope_valid
  bounded := gameScopes_bounded

def gameSet : RegistrySet where
  generation := 1
  keyId := "release"
  kind := registrySetKind
  productId := "games"
  schema := registrySetSchema
  scopeId := "games"
  signature := ""
  values := [.dword "Level" 1, .dword "Lives" 3]

def gameManifest : VerifiedRegistrySet where
  digest := Vector.replicate 32 0
  registrySet := gameSet
  acceptance := ⟨gameScope.allowedValues, "games", "games", none⟩
  valid := by decide +kernel

def emptyStore : RegistryStore where
  hive _ _ := none
  transaction := ⟨none, none, none⟩
  generations := ⟨none, none, none⟩
  accepted := .empty

theorem emptyStore_rested : emptyStore.Rested gameScopes := by
  intro hive hhive
  rw [RegistryStore.outcome_none rfl] at hhive
  exact (Option.some.inj hhive).symm

theorem gameSet_distinct : NamesDistinct gameManifest.registrySet.values := by
  unfold NamesDistinct
  decide +kernel

/-- The generation cannot be saved, one of the two values cannot be restored, and the
service ends after the journal has been removed. -/
def undoneHalfway : Schedule Empty :=
  List.replicate 9 .go ++ [.fail .before] ++ List.replicate 5 .go ++ [.fail .before, .crash .after]

theorem undo_removes_needed_journal :
    ¬ ∀ [RegistryNames] [Base64] [Unicode] [Deserialize RegistryTransactionJournal]
      [LawfulDeserialize RegistryTransactionJournal] (scopes : RegistryScopeRegistry)
      (scope : RegisteredRegistryScope) (manifest : VerifiedRegistrySet) (s : RegistryStore),
      scopes.resolveRegistered scope.scopeId = .ok scope →
      manifest.acceptance.allowedValues = scope.allowedValues → s.Rested scopes →
      ∀ sch t rest, applyRegistrySetTransaction scope manifest s sch = (.crashed, t, rest) →
        ∀ u, RegistryStore.Recovers scopes t u →
          Hive.AllOrNothing scope.key manifest.registrySet.values s.hive u.hive := by
  intro h
  have hlawful := Deserialize.canonical_lawful RegistryTransactionJournal
  have hrun := eq_of_crashed (r := applyRegistrySetTransaction gameScope gameManifest emptyStore
    undoneHalfway) (by decide +kernel)
  have hnone : (applyRegistrySetTransaction gameScope gameManifest emptyStore
      undoneHalfway).2.1.transaction.settled = none := by decide +kernel
  have houtcome : RegistryStore.outcome gameScopes _ = some _ := RegistryStore.outcome_none hnone
  obtain ⟨u, hu, hhive⟩ := RegistryStore.exists_recovers houtcome
  have hwhole := h gameScopes gameScope gameManifest emptyStore (by decide +kernel) rfl
    emptyStore_rested undoneHalfway _ _ hrun u hu
  have hlevel : u.hive.get gameScope.key "Level" = some ⟨[1, 0, 0, 0], regDword⟩ := by
    rw [hhive]
    decide +kernel
  have hlives : u.hive.get gameScope.key "Lives" = none := by
    rw [hhive]
    decide +kernel
  rcases hwhole.whole with hprior | hwritten
  · have hbefore := hprior (.dword "Level" 1) (by decide)
    rw [RegistryValue.name, hlevel] at hbefore
    cases hbefore
  · obtain ⟨stored, -, hstored⟩ := hwritten (.dword "Lives" 3) (by decide)
    rw [RegistryValue.name, hlives] at hstored
    cases hstored

/-- A call of which half of the values were written, cut off there. -/
theorem registry_set_atomic_half_written :
    ∃ (_ : RegistryNames) (_ : Base64) (_ : Unicode) (_ : Deserialize RegistryTransactionJournal)
      (scopes : RegistryScopeRegistry) (scope : RegisteredRegistryScope)
      (manifest : VerifiedRegistrySet) (s t : RegistryStore),
      t.hive.get scope.key "Level" ≠ s.hive.get scope.key "Level" ∧
      ¬ s.Exposed scope manifest t ∧ ∀ u, RegistryStore.Recovers scopes t u →
        Hive.AllOrNothing scope.key manifest.registrySet.values s.hive u.hive := by
  have hlawful := Deserialize.canonical_lawful RegistryTransactionJournal
  have hatomic := registry_set_atomic_iff gameScopes gameScope gameManifest emptyStore
    (by decide +kernel) rfl emptyStore_rested
  have hrun := eq_of_crashed (r := applyRegistrySetTransaction gameScope gameManifest emptyStore
    (List.replicate 7 .go ++ [.crash .after])) (by decide +kernel)
  have hsafe := hatomic.2.2.1 gameSet_distinct _ _ _ (by simp [Unfailing]) hrun
  exact ⟨_, _, _, _, gameScopes, gameScope, gameManifest, emptyStore, _, by decide +kernel, hsafe,
    (hatomic.2.1 _ _ _ hrun).mpr hsafe⟩

end Se7en
