import Se7enService.RegistryRecovery
set_option autoImplicit false

/-! What a call of `apply_registry_set_transaction` can leave behind, wherever it ends. -/

namespace Se7en
open Faulty

/-- Only a fault, a file beside the path or the bound stops a save, and the last two change
nothing. -/
theorem GenerationRegistry.wp_save {A : Event Empty → Prop} (registry : GenerationRegistry)
    (file : ServiceFile) :
    Wp A registry.save
      (fun _ t => ∃ bytes, registry.encode = .ok bytes ∧ t = ⟨some bytes, none, none⟩)
      (fun _ t => (t = file ∧ (file.stale = true ∨ ∃ e, registry.encode = .error e)) ∨
        (∃ c, A (.fail c)) ∧ ∃ bytes, registry.encode = .ok bytes ∧ file.Replaced bytes t)
      (fun t => ∃ bytes, registry.encode = .ok bytes ∧ file.Replaced bytes t) file := by
  refine Wp.bind (Wp.lift (fun bytes hbytes => ?_) (fun e he => .inl ⟨rfl, .inr ⟨e, he⟩⟩))
  refine (replace_replaced bytes file).mono ?_ ?_ ?_
  · exact fun _ t ht => ⟨bytes, hbytes, ht⟩
  · rintro _ t (⟨hfail, hreplaced⟩ | ⟨hstale, rfl⟩)
    · exact .inr ⟨hfail, bytes, hbytes, hreplaced⟩
    · exact .inl ⟨rfl, .inl hstale⟩
  · exact fun t ht => ⟨bytes, hbytes, ht⟩

/-! ### Snapshots -/

section Snapshots

variable [RegistryNames] {A : Event Empty → Prop}

/-- What a journal records of a registry. -/
def snapshots (key : RegistryKey) (hive : Hive) (values : List RegistryValue) :
    List RegistryTransactionValue :=
  values.map fun value => { name := value.name, previous := hive.get key value.name }

def RegisteredRegistryScope.journal (scope : RegisteredRegistryScope)
    (values : List RegistryValue) (hive : Hive) : RegistryTransactionJournal where
  kind := registryTransactionKind
  phase := .prepared
  schema := registryTransactionSchema
  scopeId := scope.scopeId
  subkey := scope.subkey
  values := snapshots scope.key hive values
  view := scope.view

def RegisteredRegistryScope.Allows (scope : RegisteredRegistryScope)
    (values : List RegistryValue) : Prop :=
  ∀ value ∈ values,
    (scope.allowedValues.any fun allowed => eqIgnoreAsciiCase allowed.name value.name) = true

/-- The bounds that are met while the snapshots are taken are those that a recovery checks. -/
theorem wp_snapshotRegistryValues (key : RegistryKey) (totalSize : Nat)
    (values : List RegistryValue) (s : RegistryStore) :
    Wp A (snapshotRegistryValues key totalSize values)
      (fun r t => t = s ∧ r = snapshots key s.hive values ∧
        ∀ scope : RegisteredRegistryScope, scope.Allows values →
          checkSnapshots scope totalSize r = .ok ())
      (fun _ t => t = s) (fun t => t = s) s := by
  induction values generalizing totalSize with
  | nil => exact Wp.pure ⟨rfl, rfl, fun _ _ => rfl⟩
  | cons value values ih =>
    have hsnapshot : Wp A (registryValueSnapshot key value.name).run
        (fun previous t => t = s ∧ previous = s.hive.get key value.name ∧
          (previous.map (·.data.length)).getD 0 ≤ maxRegistryValueBytes)
        (fun _ t => t = s) (fun t => t = s) s := by
      refine Wp.step_alone (Step.Meets.whole .plain (fun previous t he => ?_) (fun _ => rfl) rfl)
      simp only [registryValueSnapshot] at he
      split at he
      · rename_i hnone
        cases he
        exact ⟨⟨rfl, hnone.symm, Nat.zero_le _⟩, rfl⟩
      · rename_i stored hstored
        split at he
        · cases he
        · cases he
          exact ⟨⟨rfl, hstored.symm, Nat.le_of_not_lt ‹_›⟩, rfl⟩
    refine Wp.bind (hsnapshot.mono ?_ (fun _ _ h => h) (fun _ h => h))
    rintro previous t ⟨rfl, hprevious, hsize⟩
    refine Wp.bind (Wp.lift (fun _ htotal => ?_) (fun _ _ => rfl))
    refine Wp.bind ((ih _).mono ?_ (fun _ _ h => h) (fun _ h => h))
    rintro rest u ⟨rfl, hrest, hcheck⟩
    refine Wp.pure ⟨rfl, by simp [snapshots, hprevious, hrest], fun scope hallows => ?_⟩
    have hvalues := List.forall_mem_cons.mp hallows
    have hbounds : (previous.isSome && ((previous.map (·.data.length)).getD 0 > maxRegistryValueBytes
        || totalSize + (previous.map (·.data.length)).getD 0 > maxRegistrySnapshotBytes)) = false := by
      have hsize' := Nat.not_lt.mpr hsize
      simpa [hsize'] using rejectIf_eq_ok.mp htotal
    have hallowed := hvalues.1
    simp only [checkSnapshots, hallowed, hbounds, rejectIf, Bool.not_true, Bool.false_eq_true,
      if_false, Result.ok_bind]
    exact hcheck scope hvalues.2

theorem wp_createRegistryTransaction (scope : RegisteredRegistryScope)
    (values : List RegistryValue) (s : RegistryStore) :
    Wp A (createRegistryTransaction scope values)
      (fun r t => t = s ∧ r = (scope.key, scope.journal values s.hive) ∧
        ∀ scope' : RegisteredRegistryScope, scope'.Allows values →
          checkSnapshots scope' 0 r.2.values = .ok ())
      (fun _ t => t = s) (fun t => t = s) s := by
  refine Wp.bind (Wp.step_alone (.of_ok .plain (t := s) (a := scope.key) rfl ?_ rfl rfl rfl))
  refine Wp.bind ((wp_snapshotRegistryValues scope.key 0 values s).mono ?_ (fun _ _ h => h)
    (fun _ h => h))
  rintro rest t ⟨rfl, rfl, hcheck⟩
  exact Wp.pure ⟨rfl, rfl, hcheck⟩

variable {scope : RegisteredRegistryScope} {values : List RegistryValue} {hive hive' : Hive}

theorem recordedItems_snapshots (key : RegistryKey) :
    (recordedItems (snapshots key hive values).reverse).map Prod.fst
      = (values.map (·.name)).reverse := by
  simp [recordedItems, snapshots, Function.comp_def]

/-- Restoring what was recorded gives the recorded registry back. -/
theorem store_snapshots {key : RegistryKey}
    (h : Hive.Apart key (values.map (·.name)) hive hive') :
    Hive.store key (recordedItems (snapshots key hive values).reverse) hive' = hive := by
  refine Hive.store_recorded ?_ ?_
  · simp only [recordedItems, snapshots, ← List.map_reverse, List.map_map, List.forall_mem_map]
    exact fun _ _ => rfl
  · intro k n hn
    refine h k n fun hnamed => hn ?_
    obtain ⟨hk, name, hname, hfold⟩ := hnamed
    refine ⟨hk, name, ?_, hfold⟩
    rw [recordedItems_snapshots]
    simpa using hname

theorem apart_recorded {key : RegistryKey} (h : Hive.Apart key (values.map (·.name)) hive hive')
    (k : Nat) : Hive.Apart key (values.map (·.name)) hive (Hive.store key
      ((recordedItems (snapshots key hive values).reverse).take k) hive') := by
  refine h.store fun item hitem => ?_
  have hname := List.mem_map_of_mem (f := Prod.fst) (List.mem_of_mem_take hitem)
  rw [recordedItems_snapshots] at hname
  simpa using hname

theorem restored_journal (h : Hive.Apart scope.key (values.map (·.name)) hive hive') :
    (scope.journal values hive).restored scope hive' = hive := by
  simp only [RegistryTransactionJournal.restored, RegisteredRegistryScope.journal, if_true]
  exact store_snapshots h

end Snapshots

/-! ### The call -/

section Apply

variable [RegistryNames] [Base64]

def VerifiedRegistrySet.names [Unicode] (manifest : VerifiedRegistrySet) : List String :=
  manifest.registrySet.values.map (·.name)

def VerifiedRegistrySet.items [Unicode] (manifest : VerifiedRegistrySet) : List HiveItem :=
  manifest.registrySet.values.map encodedItem

omit [RegistryNames] [Base64] in
/-- A recovery of `file` finds the document that the journal is written as, or a part of it. -/
def RegistryTransactionJournal.Writes (journal : RegistryTransactionJournal)
    (file : ServiceFile) : Prop :=
  ¬ file.Ambiguous ∧ ∃ bytes n, journal.encode = .ok bytes ∧ file.settled = some (bytes.take n)

omit [RegistryNames] [Base64] in
def RegistryTransactionJournal.commit (journal : RegistryTransactionJournal) :
    RegistryTransactionJournal :=
  { journal with phase := .committed }

variable [Unicode]

/-- The accepted generations with the one that the set carries. -/
def VerifiedRegistrySet.Accepts (scope : RegisteredRegistryScope) (manifest : VerifiedRegistrySet)
    (registry registry' : GenerationRegistry) : Prop :=
  registry.accept scope.scopeId manifest.record = .ok registry'

section Ends

variable (scope : RegisteredRegistryScope) (manifest : VerifiedRegistrySet) (s t : RegistryStore)

def RegistryStore.GenerationBefore : Prop :=
  s.generations.Alike t.generations ∨
    (∃ bytes, s.accepted.encode = .ok bytes ∧ t.generations = ⟨some bytes, none, none⟩) ∨
    ∃ e, s.accepted.encode = .error e

structure RegistryStore.RolledBack : Prop where
  hive : t.hive = s.hive
  generation : s.GenerationBefore t

structure RegistryStore.Applied : Prop where
  hive : t.hive = Hive.store scope.key manifest.items s.hive
  generation : ∃ registry bytes, manifest.Accepts scope s.accepted registry ∧
    registry.encode = .ok bytes ∧ t.generations = ⟨some bytes, none, none⟩

/-- Where the generation file can be while it is written, and written back. -/
def RegistryStore.GenerationKept (file : ServiceFile) : Prop :=
  s.generations.Alike file ∨ s.accepted.Writes file ∨
    ∃ registry, manifest.Accepts scope s.accepted registry ∧ registry.Writes file

/-- Where a call that started in `s` can end; `A` are the events of its run. -/
structure RegistryStore.Applying (A : Event Empty → Prop) : Prop where
  checked : (t.hive = s.hive ∧ s.transaction.Alike t.transaction ∧ t.generations = s.generations) ∨
    ∀ scope' : RegisteredRegistryScope, scope'.Allows manifest.registrySet.values →
      checkSnapshots scope' 0 (snapshots scope.key s.hive manifest.registrySet.values) = .ok ()
  apart : Hive.Apart scope.key manifest.names s.hive t.hive
  generation : s.GenerationKept scope manifest t.generations
  journal :
    (t.hive = s.hive ∧ s.transaction.Alike t.transaction ∧ t.generations = s.generations) ∨
    (scope.journal manifest.registrySet.values s.hive).Writes t.transaction ∨
    ((t.transaction.settled = none ∨
        (scope.journal manifest.registrySet.values s.hive).commit.Writes t.transaction) ∧
      ((∃ c, A (.fail c)) ∨ s.RolledBack t ∨ s.Applied scope manifest t))

variable {scope manifest s t} {A : Event Empty → Prop}

theorem RegistryStore.Applying.start : s.Applying scope manifest s A where
  checked := .inl ⟨rfl, .refl, rfl⟩
  apart := .refl
  generation := .inl .refl
  journal := .inl ⟨rfl, .refl, rfl⟩

omit [RegistryNames] in
theorem RegistryStore.GenerationKept.replaced {registry : GenerationRegistry} {bytes : Bytes}
    {file file' : ServiceFile} (h : s.GenerationKept scope manifest file)
    (hregistry : registry = s.accepted ∨ manifest.Accepts scope s.accepted registry)
    (hbytes : registry.encode = .ok bytes) (hfile : file.Replaced bytes file') :
    s.GenerationKept scope manifest file' := by
  rcases hfile.settled with halike | ⟨hclear, n, hn⟩
  · rcases h with h | ⟨hclear, bytes', n, he, hs⟩ | ⟨r, hr, hclear, bytes', n, he, hs⟩
    · exact .inl ⟨halike.settled.trans h.settled, halike.ambiguous.trans h.ambiguous⟩
    · exact .inr (.inl ⟨mt halike.ambiguous.mp hclear, bytes', n, he, halike.settled.trans hs⟩)
    · exact .inr (.inr ⟨r, hr, mt halike.ambiguous.mp hclear, bytes', n, he,
        halike.settled.trans hs⟩)
  · rcases hregistry with rfl | haccepts
    · exact .inr (.inl ⟨hclear, bytes, n, hbytes, hn⟩)
    · exact .inr (.inr ⟨registry, haccepts, hclear, bytes, n, hbytes, hn⟩)

omit [RegistryNames] [Base64] [Unicode] in
/-- A save of the accepted generations; only a fault, a file beside the path or the bound
stops it, and the last two change nothing. -/
theorem wp_saveAccepted (u : RegistryStore) :
    Wp A saveAccepted
      (fun _ t => ∃ bytes, u.accepted.encode = .ok bytes ∧
        t = { u with generations := ⟨some bytes, none, none⟩ })
      (fun _ t => (t = u ∧ (u.generations.stale = true ∨ ∃ e, u.accepted.encode = .error e)) ∨
        (∃ c, A (.fail c)) ∧ ∃ bytes file, u.accepted.encode = .ok bytes ∧
          u.generations.Replaced bytes file ∧ t = { u with generations := file })
      (fun t => ∃ bytes file, u.accepted.encode = .ok bytes ∧
        u.generations.Replaced bytes file ∧ t = { u with generations := file }) u := by
  unfold saveAccepted
  refine Wp.bind (Wp.look (Wp.part ?_))
  refine (u.accepted.wp_save u.generations).mono ?_ ?_ ?_
  · rintro _ t ⟨bytes, hbytes, rfl⟩
    exact ⟨bytes, hbytes, rfl⟩
  · rintro _ t (⟨rfl, hstopped⟩ | ⟨hfail, bytes, hbytes, hreplaced⟩)
    · exact .inl ⟨rfl, hstopped⟩
    · exact .inr ⟨hfail, bytes, t, hbytes, hreplaced, rfl⟩
  · rintro t ⟨bytes, hbytes, hreplaced⟩
    exact ⟨bytes, t, hbytes, hreplaced, rfl⟩

variable (scope manifest s) in
/-- What an undo has found: the new values stored, and the journal of the call. -/
structure RegistryStore.Undoable (u : RegistryStore) (A : Event Empty → Prop) : Prop where
  checked : ∀ scope' : RegisteredRegistryScope, scope'.Allows manifest.registrySet.values →
    checkSnapshots scope' 0 (snapshots scope.key s.hive manifest.registrySet.values) = .ok ()
  hive : u.hive = Hive.store scope.key manifest.items s.hive
  generation : s.GenerationKept scope manifest u.generations
  clean : (∃ c, A (.fail c)) ∨ u.generations = s.generations ∨ u.generations.stale = false
  journal : (scope.journal manifest.registrySet.values s.hive).Writes u.transaction ∨
    ((∃ c, A (.fail c)) ∧
      (scope.journal manifest.registrySet.values s.hive).commit.Writes u.transaction)
  unlinked : ({ u.transaction with path := none } : ServiceFile).settled = none ∨
    (scope.journal manifest.registrySet.values s.hive).Writes { u.transaction with path := none } ∨
    ((∃ c, A (.fail c)) ∧ (scope.journal manifest.registrySet.values s.hive).commit.Writes
      { u.transaction with path := none })

theorem apart_items : Hive.Apart scope.key manifest.names s.hive
    (Hive.store scope.key manifest.items s.hive) := by
  refine Hive.Apart.refl.store ?_
  simp only [VerifiedRegistrySet.items, VerifiedRegistrySet.names, List.forall_mem_map]
  exact fun value hvalue => List.mem_map_of_mem hvalue

theorem RegistryStore.Undoable.applying {u v : RegistryStore}
    (h : s.Undoable scope manifest u A) (hv : Hive.Apart scope.key manifest.names s.hive v.hive)
    (hgeneration : s.GenerationKept scope manifest v.generations)
    (htransaction : v.transaction = u.transaction) : s.Applying scope manifest v A where
  checked := .inr h.checked
  apart := hv
  generation := hgeneration
  journal := by
    rw [htransaction]
    rcases h.journal with hwrites | ⟨hfail, hwrites⟩
    · exact .inr (.inl hwrites)
    · exact .inr (.inr ⟨.inr hwrites, .inl hfail⟩)

/-- Only a fault keeps an undo from giving the recorded values back. -/
theorem wp_undoRegistrySet {u : RegistryStore} (h : s.Undoable scope manifest u A) :
    Wp A (undoRegistrySet s.accepted scope.key (scope.journal manifest.registrySet.values s.hive))
      (fun undone t => s.Applying scope manifest t A ∧ (undone = true → t.hive = s.hive))
      (fun _ _ => False) (fun t => s.Applying scope manifest t A) u := by
  unfold undoRegistrySet
  refine Wp.bind (Wp.assign ?_)
  generalize hw : ({ u with accepted := s.accepted } : RegistryStore) = w
  have hwh : w.hive = u.hive := by rw [← hw]
  have hwg : w.generations = u.generations := by rw [← hw]
  have hwt : w.transaction = u.transaction := by rw [← hw]
  have hwa : w.accepted = s.accepted := by rw [← hw]
  have hwapart : Hive.Apart scope.key manifest.names s.hive w.hive := by
    rw [hwh, h.hive]
    exact apart_items
  have hkept : ∀ {bytes file}, w.accepted.encode = .ok bytes → w.generations.Replaced bytes file →
      s.GenerationKept scope manifest file := by
    intro bytes file hbytes hfile
    exact h.generation.replaced (.inl hwa) hbytes (hwg ▸ hfile)
  -- the values and the journal are handled alike after a saved and after a failed save
  have hrest : ∀ (saved : Except MaintenanceError Unit) (v : RegistryStore), v.hive = w.hive →
      v.transaction = w.transaction → s.GenerationKept scope manifest v.generations →
      ((∃ c, A (.fail c)) ∨ s.GenerationBefore v) →
      Wp A (do
        let values ← attempt (restoreRegistryValues scope.key
          (scope.journal manifest.registrySet.values s.hive).values)
        let removed ← attempt removeRegistryTransaction
        pure (saved.isOk && values.isOk && removed.isOk))
        (fun undone t => s.Applying scope manifest t A ∧ (undone = true → t.hive = s.hive))
        (fun _ _ => False) (fun t => s.Applying scope manifest t A) v := by
    intro saved v hvh hvt hvg hbefore
    have hrecorded : Hive.Apart scope.key manifest.names s.hive v.hive := by rwa [hvh]
    have hpartly : ∀ x, v.Partly scope.key (recordedItems (snapshots scope.key s.hive
        manifest.registrySet.values).reverse) x → s.Applying scope manifest x A := by
      intro x hx
      have htransaction := hx.transaction.trans (hvt.trans hwt)
      obtain ⟨k, rfl⟩ := hx
      exact h.applying (apart_recorded hrecorded k) hvg htransaction
    have hremove : ∀ (values : Except MaintenanceError Unit) (x : RegistryStore),
        x.transaction = u.transaction → s.Applying scope manifest x A →
        (values.isOk = true → x.hive = s.hive) →
        ((∃ c, A (.fail c)) ∨ s.RolledBack x) →
        Wp A (do
          let removed ← attempt removeRegistryTransaction
          pure (saved.isOk && values.isOk && removed.isOk))
          (fun undone t => s.Applying scope manifest t A ∧ (undone = true → t.hive = s.hive))
          (fun _ _ => False) (fun t => s.Applying scope manifest t A) x := by
      intro values x hxt hx hvalues hrolled
      have hunlinked : s.Applying scope manifest
          { x with transaction := { u.transaction with path := none } } A := by
        refine ⟨.inr h.checked, hx.apart, hx.generation, ?_⟩
        have hend : (∃ c, A (.fail c)) ∨ s.RolledBack
            { x with transaction := { u.transaction with path := none } } :=
          hrolled.imp_right fun hb => ⟨hb.hive, hb.generation⟩
        rcases h.unlinked with hnone | hwrites | ⟨hfail, hwrites⟩
        · exact .inr (.inr ⟨.inl hnone, hend.imp_right .inl⟩)
        · exact .inr (.inl hwrites)
        · exact .inr (.inr ⟨.inr hwrites, .inl hfail⟩)
      have hdone : ∀ removed : Except MaintenanceError Unit,
          (saved.isOk && values.isOk && removed.isOk) = true → x.hive = s.hive := by
        intro removed hall
        simp only [Bool.and_eq_true] at hall
        exact hvalues hall.1.2
      refine Wp.bind (Wp.attempt (Wp.part (remove_spec.mono ?_ ?_ ?_)))
      · rintro _ _ rfl
        refine Wp.pure ⟨?_, hdone _⟩
        simpa [transactionFile, hxt] using hunlinked
      · rintro _ _ ⟨-, rfl⟩
        exact Wp.pure ⟨hx, hdone _⟩
      · rintro _ (rfl | rfl)
        · exact hx
        · simpa [transactionFile, hxt] using hunlinked
    refine Wp.bind (Wp.attempt ((wp_restoreReversed _ v).mono ?_ ?_ hpartly))
    · rintro _ x rfl
      have hhive : (v.stored scope.key (recordedItems (snapshots scope.key s.hive
          manifest.registrySet.values).reverse)).hive = s.hive := store_snapshots hrecorded
      refine hremove (.ok ()) _ (hvt.trans hwt) (hpartly _ ?_) (fun _ => hhive)
        (hbefore.imp_right fun hb => ⟨hhive, hb⟩)
      exact ⟨(recordedItems (snapshots scope.key s.hive manifest.registrySet.values).reverse).length,
        by rw [List.take_length]; rfl⟩
    · rintro e x ⟨hfail, hx⟩
      exact hremove (.error e) x (hx.transaction.trans (hvt.trans hwt)) (hpartly x hx) (fun h => by cases h)
        (.inl hfail)
  refine Wp.bind (Wp.attempt ((wp_saveAccepted w).mono ?_ ?_ ?_))
  · rintro _ t ⟨bytes, hbytes, rfl⟩
    exact hrest (.ok ()) _ rfl rfl (hkept hbytes .of_whole)
      (.inr (.inr (.inl ⟨bytes, hwa ▸ hbytes, rfl⟩)))
  · rintro e t (⟨rfl, hrefused⟩ | ⟨hfail, bytes, file, hbytes, hfile, rfl⟩)
    · refine hrest (.error e) _ rfl rfl (hwg ▸ h.generation) ?_
      rcases hrefused with hstale | ⟨e, he⟩
      · rcases h.clean with hfail | hsame | hclean
        · exact .inl hfail
        · exact .inr (.inl (by rw [hwg, hsame]; exact .refl))
        · rw [hwg, hclean] at hstale
          cases hstale
      · exact .inr (.inr (.inr ⟨e, hwa ▸ he⟩))
    · exact hrest (.error e) _ rfl rfl (hkept hbytes hfile) (.inl hfail)
  · rintro t ⟨bytes, file, hbytes, hfile, rfl⟩
    exact h.applying hwapart (hkept hbytes hfile) hwt

omit [RegistryNames] [Base64] [Unicode] in
theorem wp_writeRegistryTransaction (journal : RegistryTransactionJournal) (u : RegistryStore) :
    Wp A (writeRegistryTransaction journal)
      (fun _ t => ∃ bytes, journal.encode = .ok bytes ∧
        t = { u with transaction := ⟨some bytes, none, none⟩ })
      (fun _ t => t = u ∨ (∃ c, A (.fail c)) ∧ ∃ bytes file, journal.encode = .ok bytes ∧
        u.transaction.Replaced bytes file ∧ t = { u with transaction := file })
      (fun t => ∃ bytes file, journal.encode = .ok bytes ∧
        u.transaction.Replaced bytes file ∧ t = { u with transaction := file }) u := by
  refine Wp.bind (Wp.lift (fun bytes hbytes => ?_) (fun _ _ => .inl rfl))
  refine Wp.part ((replace_replaced bytes u.transaction).mono ?_ ?_ ?_)
  · rintro _ t rfl
    exact ⟨bytes, hbytes, rfl⟩
  · rintro _ t (⟨hfail, hreplaced⟩ | ⟨-, rfl⟩)
    · exact .inr ⟨hfail, bytes, t, hbytes, hreplaced, rfl⟩
    · exact .inl rfl
  · exact fun t ht => ⟨bytes, t, hbytes, ht, rfl⟩

omit [RegistryNames] [Base64] [Unicode] in
theorem RegistryTransactionJournal.writes_whole {journal : RegistryTransactionJournal}
    {bytes : Bytes} {file : ServiceFile} (hbytes : journal.encode = .ok bytes)
    (hclear : ¬ file.Ambiguous) (hfile : file.settled = some bytes) : journal.Writes file :=
  ⟨hclear, bytes, bytes.length, hbytes, by rw [List.take_length, hfile]⟩

variable (scope manifest) in
omit [RegistryNames] in
theorem wp_acceptGeneration (v : RegistryStore) :
    Wp A (acceptGeneration scope.scopeId manifest.record)
      (fun _ x => ∃ registry bytes, manifest.Accepts scope v.accepted registry ∧
        registry.encode = .ok bytes ∧
        x = { v with accepted := registry, generations := ⟨some bytes, none, none⟩ })
      (fun _ x => x.hive = v.hive ∧ x.transaction = v.transaction ∧
        (x.generations = v.generations ∨ (∃ c, A (.fail c)) ∧ ∃ registry bytes,
          manifest.Accepts scope v.accepted registry ∧ registry.encode = .ok bytes ∧
          v.generations.Replaced bytes x.generations))
      (fun x => x.hive = v.hive ∧ x.transaction = v.transaction ∧ ∃ registry bytes,
        manifest.Accepts scope v.accepted registry ∧ registry.encode = .ok bytes ∧
        v.generations.Replaced bytes x.generations) v := by
  refine Wp.bind (Wp.look (Wp.bind (Wp.lift (fun registry haccepts => ?_)
    (fun _ _ => ⟨rfl, rfl, .inl rfl⟩))))
  refine Wp.bind (Wp.assign ((wp_saveAccepted _).mono ?_ ?_ ?_))
  · rintro _ x ⟨bytes, hbytes, rfl⟩
    exact ⟨registry, bytes, haccepts, hbytes, rfl⟩
  · rintro _ x (⟨rfl, -⟩ | ⟨hfail, bytes, file, hbytes, hfile, rfl⟩)
    · exact ⟨rfl, rfl, .inl rfl⟩
    · exact ⟨rfl, rfl, .inr ⟨hfail, registry, bytes, haccepts, hbytes, hfile⟩⟩
  · rintro x ⟨bytes, file, hbytes, hfile, rfl⟩
    exact ⟨rfl, rfl, registry, bytes, haccepts, hbytes, hfile⟩

theorem wp_applyRegistrySetTransaction :
    Wp A (applyRegistrySetTransaction scope manifest)
      (fun _ t => t.transaction = ⟨none, none, none⟩ ∧ s.Applied scope manifest t)
      (fun e t => s.Applying scope manifest t A ∧ (e.code ≠ .recoveryIncomplete → t.hive = s.hive))
      (fun t => s.Applying scope manifest t A) s := by
  have hdata := (validateRegistrySet_sound manifest.valid).2.2.2.2.2.2.data
  unfold applyRegistrySetTransaction
  refine Wp.bind ((wp_createRegistryTransaction scope manifest.registrySet.values s).mono ?_ ?_ ?_)
  case refine_2 =>
    rintro _ t rfl
    exact ⟨.start, fun _ => rfl⟩
  case refine_3 =>
    rintro t rfl
    exact .start
  rintro _ t ⟨rfl, rfl, hchecked⟩
  change ∀ scope' : RegisteredRegistryScope, scope'.Allows manifest.registrySet.values →
    checkSnapshots scope' 0 (snapshots scope.key t.hive manifest.registrySet.values) = .ok () at hchecked
  generalize hjournal : scope.journal manifest.registrySet.values t.hive = journal
  have hreplaced : ∀ {bytes file}, journal.encode = .ok bytes → t.transaction.Replaced bytes file →
      t.Applying scope manifest { t with transaction := file } A := by
    intro bytes file hbytes hfile
    refine ⟨.inr hchecked, .refl, .inl .refl, ?_⟩
    rcases hfile.settled with halike | ⟨hclear, n, hn⟩
    · exact .inl ⟨rfl, halike, rfl⟩
    · exact .inr (.inl ⟨hclear, bytes, n, hjournal ▸ hbytes, hn⟩)
  refine Wp.bind ((wp_writeRegistryTransaction journal t).mono ?_ ?_ ?_)
  case refine_2 =>
    rintro e u (rfl | ⟨-, bytes, file, hbytes, hfile, rfl⟩)
    · exact ⟨.start, fun _ => rfl⟩
    · exact ⟨hreplaced hbytes hfile, fun _ => rfl⟩
  case refine_3 =>
    rintro u ⟨bytes, file, hbytes, hfile, rfl⟩
    exact hreplaced hbytes hfile
  rintro _ u ⟨bytes, hbytes, rfl⟩
  generalize hu : ({ t with transaction := ⟨some bytes, none, none⟩ } : RegistryStore) = u
  have huhive : u.hive = t.hive := by rw [← hu]
  have hugenerations : u.generations = t.generations := by rw [← hu]
  have huaccepted : u.accepted = t.accepted := by rw [← hu]
  have hutransaction : u.transaction = ⟨some bytes, none, none⟩ := by rw [← hu]
  have hwrites : ∀ file : ServiceFile, ¬ file.Ambiguous → file.settled = some bytes →
      (scope.journal manifest.registrySet.values t.hive).Writes file :=
    fun file hclear hfile => hjournal ▸ RegistryTransactionJournal.writes_whole hbytes hclear hfile
  have hwritten : (scope.journal manifest.registrySet.values t.hive).Writes
      ⟨some bytes, none, none⟩ := hwrites _ (by simp [ServiceFile.Ambiguous]) rfl
  have hpartly : ∀ v : RegistryStore, Hive.Apart scope.key manifest.names t.hive v.hive →
      v.generations = t.generations → v.transaction = ⟨some bytes, none, none⟩ →
      t.Applying scope manifest v A := by
    intro v hv hgenerations htransaction
    exact ⟨.inr hchecked, hv, .inl (hgenerations ▸ .refl), .inr (.inl (htransaction ▸ hwritten))⟩
  have hset : ∀ v, u.Partly scope.key manifest.items v → t.Applying scope manifest v A := by
    intro v hv
    have hapart := hv.apart
    rw [huhive] at hapart
    have hnames : manifest.items.map Prod.fst = manifest.names := by
      simp [VerifiedRegistrySet.items, VerifiedRegistrySet.names, encodedItem, Function.comp_def]
    refine hpartly v (hnames ▸ hapart) ?_ (hv.transaction.trans hutransaction)
    obtain ⟨k, rfl⟩ := hv
    exact hugenerations
  refine Wp.bind (Wp.attempt ((wp_setRegistryValues manifest.registrySet.values u hdata).mono
    ?_ ?_ hset))
  case refine_2 =>
    rintro _ v ⟨rfl, hfail, hv⟩
    have hvapart := (hset v hv).apart
    have hvgenerations : v.generations = t.generations := by
      obtain ⟨k, rfl⟩ := hv
      exact hugenerations
    have hvtransaction := hv.transaction.trans hutransaction
    have hvalues : journal.values = snapshots scope.key t.hive manifest.registrySet.values := by
      rw [← hjournal]
      rfl
    have hrestoring : ∀ x, v.Partly scope.key (recordedItems journal.values.reverse) x →
        t.Applying scope manifest x A := by
      rintro x ⟨k, rfl⟩
      exact hpartly _ (hvalues ▸ apart_recorded hvapart k) hvgenerations hvtransaction
    refine Wp.bind (Wp.attempt (Wp.bind ((wp_restoreReversed _ v).mono ?_ ?_ ?_)))
    case refine_3 =>
      intro x hx
      exact hrestoring x hx
    case refine_2 =>
      rintro e x ⟨-, hx⟩
      exact Wp.throw ⟨hrestoring x hx, fun hcode => absurd rfl hcode⟩
    rintro _ x rfl
    have hhive : (v.stored scope.key (recordedItems journal.values.reverse)).hive = t.hive := by
      rw [hvalues]
      exact store_snapshots hvapart
    have hback : t.Applying scope manifest
        (v.stored scope.key (recordedItems journal.values.reverse)) A :=
      hpartly _ (hhive ▸ .refl) hvgenerations hvtransaction
    have hunlinked : t.Applying scope manifest { v.stored scope.key
        (recordedItems journal.values.reverse) with transaction := ⟨none, none, none⟩ } A := by
      refine ⟨.inr hchecked, hback.apart, hback.generation, .inr (.inr ⟨.inl rfl, .inr (.inl ⟨hhive, .inl ?_⟩)⟩)⟩
      exact hvgenerations ▸ .refl
    refine Wp.part (remove_spec.mono ?_ ?_ ?_)
    · rintro _ _ rfl
      refine Wp.throw ⟨?_, fun _ => hhive⟩
      simpa [transactionFile, RegistryStore.stored, hvtransaction] using hunlinked
    · rintro _ _ ⟨-, rfl⟩
      exact Wp.throw ⟨hback, fun hcode => absurd rfl hcode⟩
    · rintro _ (rfl | rfl)
      · exact hback
      · simpa [transactionFile, RegistryStore.stored, hvtransaction] using hunlinked
  rintro _ v rfl
  generalize hv : u.stored scope.key (manifest.registrySet.values.map encodedItem) = v
  have hvhive : v.hive = Hive.store scope.key manifest.items t.hive := by
    rw [← hv, ← huhive]
    rfl
  have hvgenerations : v.generations = t.generations := by rw [← hv, ← hugenerations]; rfl
  have hvaccepted : v.accepted = t.accepted := by rw [← hv, ← huaccepted]; rfl
  have hvtransaction : v.transaction = ⟨some bytes, none, none⟩ := by
    rw [← hv, ← hutransaction]
    rfl
  have hvapart : Hive.Apart scope.key manifest.names t.hive v.hive := hvhive ▸ apart_items
  have hvjournal : ∀ x : RegistryStore, x.hive = v.hive → x.transaction = v.transaction →
      t.GenerationKept scope manifest x.generations → t.Applying scope manifest x A := by
    intro x hxhive hxtransaction hxgenerations
    refine ⟨.inr hchecked, hxhive ▸ hvapart, hxgenerations, .inr (.inl ?_)⟩
    rw [hxtransaction, hvtransaction]
    exact hwritten
  have hundo : ∀ (x : RegistryStore) (error : MaintenanceError) (detail : String),
      t.Undoable scope manifest x A → Wp A (do
        if ← undoRegistrySet v.accepted scope.key journal then
          throw error
        throw (.new .recoveryIncomplete detail) : StoreProg AppliedRegistrySet)
        (fun _ t' => t'.transaction = ⟨none, none, none⟩ ∧ t.Applied scope manifest t')
        (fun e t' => t.Applying scope manifest t' A ∧ (e.code ≠ .recoveryIncomplete → t'.hive = t.hive))
        (fun t' => t.Applying scope manifest t' A) x := by
    intro x error detail hx
    rw [hvaccepted, ← hjournal]
    refine Wp.bind ((wp_undoRegistrySet hx).mono ?_ (fun _ _ h => h.elim) (fun _ h => h))
    rintro undone y ⟨hy, hundone⟩
    cases undone with
    | true => exact Wp.bind (Wp.throw ⟨hy, fun _ => hundone rfl⟩)
    | false => exact Wp.throw ⟨hy, fun hcode => absurd rfl hcode⟩
  refine Wp.bind (Wp.look (Wp.bind (Wp.attempt ?_)))
  refine Wp.mono (wp_acceptGeneration scope manifest v) ?_ ?_ ?_
  case refine_2 =>
    rintro error x ⟨hxhive, hxtransaction, hx⟩
    refine hundo x error _ ⟨hchecked, hxhive.trans hvhive, ?_, ?_, .inl ?_, .inl ?_⟩
    · rcases hx with hx | ⟨-, registry, bytes', haccepts, hbytes', hfile⟩
      · exact .inl ((hx.trans hvgenerations) ▸ .refl)
      · exact (RegistryStore.GenerationKept.replaced (.inl (hvgenerations ▸ .refl))
          (.inr (hvaccepted ▸ haccepts)) hbytes' hfile)
    · rcases hx with hx | ⟨hfail, -⟩
      · exact .inr (.inl (hx.trans hvgenerations))
      · exact .inl hfail
    · rw [hxtransaction, hvtransaction]
      exact hwritten
    · rw [hxtransaction, hvtransaction]
      rfl
  case refine_3 =>
    rintro x ⟨hxhive, hxtransaction, registry, bytes', haccepts, hbytes', hfile⟩
    exact hvjournal x hxhive hxtransaction (RegistryStore.GenerationKept.replaced
      (.inl (hvgenerations ▸ .refl)) (.inr (hvaccepted ▸ haccepts)) hbytes' hfile)
  rintro _ x ⟨registry, bytes', haccepts, hbytes', rfl⟩
  rw [hvaccepted] at haccepts
  generalize hx : ({ v with accepted := registry, generations := ⟨some bytes', none, none⟩ } :
    RegistryStore) = x
  have hxhive : x.hive = Hive.store scope.key manifest.items t.hive := by rw [← hx, ← hvhive]
  have hxgenerations : x.generations = ⟨some bytes', none, none⟩ := by rw [← hx]
  have hxtransaction : x.transaction = ⟨some bytes, none, none⟩ := by rw [← hx, ← hvtransaction]
  have hxkept : t.GenerationKept scope manifest x.generations := by
    rw [hxgenerations]
    exact .inr (.inr ⟨registry, haccepts, by simp [ServiceFile.Ambiguous], bytes', bytes'.length,
      hbytes', by rw [List.take_length]; rfl⟩)
  have happlied : ∀ file, t.Applied scope manifest { x with transaction := file } :=
    fun file => ⟨hxhive, registry, bytes', haccepts, hbytes', hxgenerations⟩
  have hmarker : ∀ file, file.settled = none ∨ journal.commit.Writes file →
      t.Applying scope manifest { x with transaction := file } A := by
    intro file hfile
    exact ⟨.inr hchecked, hxhive ▸ apart_items, hxkept,
      .inr (.inr ⟨hfile.imp_right (hjournal ▸ ·), .inr (.inr (happlied file))⟩)⟩
  have hxsettled : x.transaction.settled = some bytes := by
    rw [hxtransaction]
    rfl
  have hxclear : ¬ x.transaction.Ambiguous := by simp [hxtransaction, ServiceFile.Ambiguous]
  refine Wp.bind (Wp.attempt ((wp_writeRegistryTransaction journal.commit x).mono ?_ ?_ ?_))
  case refine_2 =>
    intro error y hy
    have hyhive : y.hive = x.hive ∧ y.generations = x.generations := by
      rcases hy with rfl | ⟨-, _, _, -, -, rfl⟩ <;> exact ⟨rfl, rfl⟩
    refine hundo y _ _ ⟨hchecked, hyhive.1.trans hxhive, hyhive.2 ▸ hxkept, .inr (.inr ?_), ?_, ?_⟩
    · rw [hyhive.2, hxgenerations]
      rfl
    · rcases hy with rfl | ⟨hfail, bytes'', file, hbytes'', hfile, rfl⟩
      · exact .inl (hwrites _ hxclear hxsettled)
      · rcases hfile.settled with halike | ⟨hclear, n, hn⟩
        · exact .inl (hwrites _ (mt halike.ambiguous.mp hxclear) (halike.settled.trans hxsettled))
        · exact .inr ⟨hfail, hclear, bytes'', n, hjournal ▸ hbytes'', hn⟩
    · rcases hy with rfl | ⟨hfail, bytes'', file, hbytes'', hfile, rfl⟩
      · exact .inl (by rw [hxtransaction]; rfl)
      · rcases hfile.unlinked with hnone | hsettled | ⟨n, hn⟩
        · exact .inl hnone
        · exact .inr (.inl (hwrites _ (by simp [ServiceFile.Ambiguous]) (hsettled.trans hxsettled)))
        · exact .inr (.inr ⟨hfail, by simp [ServiceFile.Ambiguous], bytes'', n, hjournal ▸ hbytes'',
            hn⟩)
  case refine_3 =>
    rintro y ⟨bytes'', file, hbytes'', hfile, rfl⟩
    rcases hfile.settled with halike | ⟨hclear, n, hn⟩
    · exact ⟨.inr hchecked, hxhive ▸ apart_items, hxkept, .inr (.inl
        (hwrites _ (mt halike.ambiguous.mp hxclear) (halike.settled.trans hxsettled)))⟩
    · exact hmarker file (.inr ⟨hclear, bytes'', n, hbytes'', hn⟩)
  rintro _ y ⟨bytes'', hbytes'', rfl⟩
  have hcommitted : RegistryTransactionJournal.Writes _ ⟨some bytes'', none, none⟩ :=
    RegistryTransactionJournal.writes_whole hbytes'' (by simp [ServiceFile.Ambiguous]) rfl
  refine Wp.bind (Wp.part ((remove_spec.and remove_fault).mono ?_ ?_ ?_))
  · rintro _ _ ⟨rfl, -⟩
    exact Wp.pure ⟨rfl, happlied _⟩
  · rintro _ _ ⟨⟨-, rfl⟩, rfl⟩
    exact ⟨hmarker _ (.inr hcommitted), fun hcode => absurd rfl hcode⟩
  · rintro _ ⟨rfl | rfl, -⟩
    · exact hmarker _ (.inr hcommitted)
    · exact hmarker _ (.inl rfl)

end Ends

end Apply

end Se7en
