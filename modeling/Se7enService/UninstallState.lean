import Se7enService.Installer
set_option autoImplicit false

/-! What an uninstall that fails or crashes behind its deletions leaves for the next install. -/

namespace Se7en.Installer
open Faulty Windows

/-- The step is followed to its success only. -/
theorem wp_step_ok {σ ε α : Type} {st : Step σ ε α} {Q : α → σ → Prop} {s : σ}
    (h : ∀ a t, st.effect s = .ok (a, t) → Q a t) :
    Wp Anything st.run Q (fun _ _ => True) (fun _ => True) s :=
  Wp.step_alone ⟨h, fun _ _ => trivial, fun _ _ => trivial, fun _ _ => trivial⟩

theorem wp_step_of {σ ε α : Type} {st : Step σ ε α} {Q : α → σ → Prop} {s t : σ} {a : α}
    (he : st.effect s = .ok (a, t)) (hq : Q a t) :
    Wp Anything st.run Q (fun _ _ => True) (fun _ => True) s := by
  refine wp_step_ok fun b u hu => ?_
  rw [he] at hu
  cases hu
  exact hq

/-! ### Loading -/

/-- What a load returns is decided by what a recovery of the file puts at its path. -/
theorem wp_loadDocument {α : Type} {A : Event Empty → Prop} (decode : Bytes → Result α)
    (file : ServiceFile) :
    Wp A (loadDocument decode)
      (fun r t => ¬ file.Ambiguous ∧ t = ⟨file.settled, none, none⟩ ∧
        ((file.settled = none ∧ r = none) ∨
          ∃ bytes document, file.settled = some bytes ∧ decode bytes = .ok document ∧
            r = some document))
      (fun _ t => file.Alike t) file.Alike file := by
  unfold loadDocument
  refine Wp.bind ((recover_settled file).mono ?_ (fun _ _ h => h.2) (fun _ h => h))
  rintro ⟨⟩ t ⟨hclear, rfl⟩
  have halike : file.Alike ⟨file.settled, none, none⟩ :=
    ⟨by cases file.settled <;> rfl, by simp [ServiceFile.Ambiguous] at hclear ⊢; exact hclear⟩
  refine Wp.bind (Wp.look ?_)
  cases hsettled : file.settled with
  | none =>
    simp only [Option.isNone_none, if_true]
    exact Wp.pure ⟨hclear, rfl, .inl ⟨trivial, rfl⟩⟩
  | some bytes =>
    rw [hsettled] at halike
    simp only [Option.isNone_some, Bool.false_eq_true, if_false]
    refine Wp.bind (Wp.look ?_)
    by_cases hbound : bytes.length ≤ maxIpcMessageBytes
    · simp only [readBounded, Option.filter_some, hbound, decide_true, if_true]
      refine Wp.bind (Wp.lift (fun document hdecode => Wp.pure ?_) fun _ _ => halike)
      exact ⟨hclear, rfl, .inr ⟨bytes, document, rfl, hdecode, rfl⟩⟩
    · simp only [readBounded, Option.filter_some, hbound, decide_false, Bool.false_eq_true,
        if_false]
      exact Wp.throw halike

section Uninstall

variable [Platform]

/-- The uninstall does not stop at the entry of the service control manager. -/
def Machine.Removable (m : Machine) : Prop :=
  ∀ service ∈ m.service, (imageFile service.imagePath).isSome

/-- The uninstall up to the deletion of the whole directory. -/
def uninstallDocuments : SetupProg (RemoveServiceResult × Bool) := do
  let result ← deleteSystemService
  removeInstalledFiles
  let deleted ← deleteServiceDocuments
  pure (result, deleted)

/-- The release record and the journal have been deleted, and the uninstall has ended
somewhere behind that. -/
def Uninstalled (m t : Machine) : Prop :=
  ∃ sch result u rest o rest', uninstallDocuments m sch = (.ok (result, true), u, rest) ∧
    removeDirAll.run u rest = ((o : Outcome MaintenanceError Unit), t, rest')

/-- Such an end is one of the whole uninstall. -/
theorem Uninstalled.endsIn {m t : Machine} (h : Uninstalled m t) :
    EndsIn Anything removeSystemService m t := by
  obtain ⟨sch, result, u, rest, o, rest', hdocuments, hremove⟩ := h
  have hwhole : removeSystemService = (do
      let (result, deleted) ← uninstallDocuments
      (if deleted then removeDirAll.run else pure () : SetupProg Unit)
      pure result) := by
    simp only [removeSystemService, removeComponentLeftovers, removeServiceState,
      uninstallDocuments, bind_assoc, pure_bind]
  have hrun : removeSystemService m sch = (match (o, t, rest') with
      | (.ok (), t, rest) => (.ok result, t, rest)
      | (.error e, t, rest) => (.error e, t, rest)
      | (.crashed, t, rest) => (.crashed, t, rest)) := by
    rw [hwhole, run_bind, hdocuments]
    simp only [if_true]
    rw [run_bind, hremove]
    cases o <;> rfl
  cases o <;> exact EndsIn.of_run hrun fun _ _ => trivial

omit [Platform] in
theorem wp_deleteManagedFile (file : ManagedFile) {Q : Machine → Prop} {m : Machine}
    (h : ∀ files, Q { m with files }) :
    Wp Anything (deleteManagedFile file) (fun _ => Q) (fun _ _ => True) (fun _ => True) m := by
  refine Wp.bind (wp_step_ok ?_)
  intro content t ht
  obtain ⟨rfl, rfl⟩ : m.files file = content ∧ m = t := by simpa [openRelativeFile] using ht
  cases m.files file with
  | none => exact Wp.pure (h m.files)
  | some _ =>
    refine wp_step_ok ?_
    rintro ⟨⟩ t ht
    obtain rfl : m.setFile file none = t := by simpa [deleteByHandle] using ht
    exact h _

theorem wp_deleteSystemService (m : Machine) :
    Wp Anything deleteSystemService
      (fun _ t => m.Removable ∧ t.service = none ∧ t.release = m.release ∧ t.journal = m.journal)
      (fun _ _ => True) (fun _ => True) m := by
  unfold deleteSystemService
  refine Wp.bind (wp_step_of rfl (Wp.bind (wp_step_of rfl ?_)))
  cases hservice : m.service with
  | none =>
    simp only [Option.isSome_none, Bool.false_eq_true, if_false]
    refine Wp.pure ⟨?_, rfl, rfl, rfl⟩
    simp [Machine.Removable, hservice]
  | some service =>
    simp only [Option.isSome_some, if_true]
    refine Wp.bind (Wp.bind (wp_step_ok fun current t ht => ?_))
    obtain ⟨rfl, rfl⟩ : service.imagePath = current ∧ { m with handle := true } = t := by
      simpa [queryServiceConfig, hservice] using ht
    cases hfile : imageFile service.imagePath with
    | none => exact Wp.throw trivial
    | some file =>
      refine Wp.pure (Wp.bind (wp_step_of rfl (Wp.bind (wp_step_of rfl (Wp.pure ?_)))))
      exact ⟨by simp [Machine.Removable, hservice, hfile], rfl, rfl, rfl⟩

omit [Platform] in
theorem wp_deleteServiceDocuments (m : Machine) :
    Wp Anything deleteServiceDocuments
      (fun deleted t => deleted = true → t = { m with
        release := { m.release with path := none }
        journal := { m.journal with path := none } })
      (fun _ _ => True) (fun _ => True) m := by
  unfold deleteServiceDocuments
  refine Wp.bind (Wp.attempt (Wp.step_alone (C := fun _ => True)
    (Step.Meets.of_ok .plain rfl ?_ ?_ trivial trivial)))
  · refine Wp.bind (Wp.part (remove_spec.mono ?_ (fun _ _ _ => trivial) (fun _ _ => trivial)))
    rintro ⟨⟩ release rfl
    refine Wp.bind (Wp.part (remove_spec.mono ?_ (fun _ _ _ => trivial) (fun _ _ => trivial)))
    rintro ⟨⟩ journal rfl
    exact Wp.pure fun _ => rfl
  · exact Wp.pure nofun

theorem wp_uninstallDocuments (m : Machine) :
    Wp Anything uninstallDocuments
      (fun r t => r.2 = true → m.Removable ∧ t.service = none ∧
        t.release = { m.release with path := none } ∧ t.journal = { m.journal with path := none })
      (fun _ _ => True) (fun _ => True) m := by
  unfold uninstallDocuments
  refine Wp.bind ((wp_deleteSystemService m).mono ?_ (fun _ _ _ => trivial) (fun _ _ => trivial))
  rintro result t ⟨hremovable, hservice, hrelease, hjournal⟩
  unfold removeInstalledFiles
  refine Wp.bind (Wp.bind (wp_step_of rfl (Wp.bind (wp_deleteManagedFile _ fun _ =>
    Wp.bind (wp_deleteManagedFile _ fun _ => wp_deleteManagedFile _ fun _ => ?_)))))
  refine Wp.bind ((wp_deleteServiceDocuments _).mono ?_ (fun _ _ _ => trivial)
    (fun _ _ => trivial))
  intro deleted u hu
  refine Wp.pure fun hdeleted => ?_
  obtain rfl := hu hdeleted
  exact ⟨hremovable, hservice, by simp only [hrelease], by simp only [hjournal]⟩

/-- The files that the directory still holds. -/
theorem Uninstalled.without {m t : Machine} (h : Uninstalled m t) :
    m.Removable ∧ t.service = none ∧ ∃ subset : Nat,
      t.release = dropFiles { m.release with path := none }
        (subset.testBit 0) (subset.testBit 1) (subset.testBit 2) ∧
      t.journal = dropFiles { m.journal with path := none }
        (subset.testBit 3) (subset.testBit 4) (subset.testBit 5) := by
  obtain ⟨sch, result, u, rest, o, rest', hdocuments, hremove⟩ := h
  obtain ⟨hremovable, hservice, hrelease, hjournal⟩ :=
    (wp_uninstallDocuments m).result (fun _ _ => trivial) hdocuments rfl
  obtain ⟨subset, hsubset⟩ : ∃ subset : Nat, t = u.without subset := by
    have hwp : Wp Anything removeDirAll.run (fun _ t => ∃ subset, t = u.without subset)
        (fun _ t => ∃ subset, t = u.without subset) (fun t => ∃ subset, t = u.without subset)
        u := by
      have hwhole : ∃ subset, u = u.without subset :=
        ⟨0, by simp [Machine.without, dropFiles]⟩
      refine Wp.step_alone ⟨?_, nofun, ?_, ?_⟩
      · rintro ⟨⟩ t ht
        cases ht
        exact ⟨_, rfl⟩
      · rintro (_ | n | _) -
        · exact hwhole
        · exact ⟨n, rfl⟩
        · exact ⟨_, rfl⟩
      · rintro (_ | n | _) -
        · exact hwhole
        · exact ⟨n, rfl⟩
        · exact ⟨_, rfl⟩
    have hend := hwp.result (fun _ _ => trivial) hremove
    cases o <;> exact hend
  subst hsubset
  refine ⟨hremovable, hservice, subset, ?_, ?_⟩
  · rw [← hrelease]
    rfl
  · rw [← hjournal]
    rfl

/-! ### The next install -/

omit [Platform] in
theorem passes_loadReleaseRecord [Deserialize ServiceReleaseRecord] {m : Machine}
    (h : m.release = ⟨none, none, none⟩) : Passes loadReleaseRecord m none m := by
  cases m
  obtain rfl := h
  exact ⟨0, fun _ => rfl⟩

omit [Platform] in
theorem passes_loadUpgradeJournal [Deserialize ServiceUpgradeJournal] {m : Machine}
    (h : m.journal = ⟨none, none, none⟩) : Passes loadUpgradeJournal m none m := by
  cases m
  obtain rfl := h
  exact ⟨0, fun _ => rfl⟩

variable [Unicode] [Ed25519] [Sha256] [Deserialize Keyring] [Deserialize FileSet]
  [Deserialize ServiceReleaseRecord] [Deserialize ServiceUpgradeJournal]

omit [Platform] [Unicode] [Ed25519] [Sha256] [Deserialize Keyring] [Deserialize FileSet]
  [Deserialize ServiceReleaseRecord] [Deserialize ServiceUpgradeJournal] in
theorem dropFiles_none {file : ServiceFile} (h : file.stale = false) (path temporary backup : Bool) :
    dropFiles { file with path := none } path temporary backup = ⟨none, none, none⟩ := by
  obtain ⟨p, _ | t, _ | b⟩ := file <;> simp [ServiceFile.stale, dropFiles] at h ⊢

/-- The next `ensure-service` finds no release and no journal, and whatever bundle it accepts is
installed. -/
structure Reinstalls (t : Machine) : Prop where
  record : ∃ u, Passes loadReleaseRecord t none u
  journal : ∃ u, Passes loadUpgradeJournal t none u
  install : ∀ bundle verified u,
    Passes (readServiceBundle bundle) { t with handle := false } verified u →
    decideServiceUpgrade verified.candidate none = .ok .install →
    ∃ plan v, Passes (planInstall bundle) t plan v ∧ plan.service = false ∧
      plan.installed = none ∧ plan.journal = none ∧ plan.decision = .install

omit [Platform] [Deserialize ServiceReleaseRecord] [Deserialize ServiceUpgradeJournal] in
/-- The checks of a bundle touch nothing but the keyring. -/
theorem keeps_readServiceBundle (bundle : Bundle) (m : Machine) :
    Keeps Anything (fun t => ∃ keyring : ServiceFile, t = { m with keyring := keyring })
      (readServiceBundle bundle) := by
  unfold readServiceBundle
  refine (Keeps.lift _).bind fun keyringBytes => Keeps.bind ?_ fun keyring => (Keeps.lift _).bind
    fun manifestBytes => (Keeps.lift _).bind fun manifest => (Keeps.lift _).bind fun entry =>
    (Keeps.lift _).bind fun candidate => Keeps.pure _
  refine Keeps.part (J := fun _ => True) (fun _ _ => Wp.any) (fun _ _ => trivial) ?_
  rintro _ file ⟨keyring, rfl⟩ -
  exact ⟨file, rfl⟩

omit [Platform] in
theorem reinstalls {t : Machine} (hservice : t.service = none)
    (hrelease : t.release = ⟨none, none, none⟩) (hjournal : t.journal = ⟨none, none, none⟩) :
    Reinstalls t := by
  refine ⟨⟨t, passes_loadReleaseRecord hrelease⟩, ⟨t, passes_loadUpgradeJournal hjournal⟩, ?_⟩
  intro bundle verified u hverified hdecision
  obtain ⟨keyring, rfl⟩ : ∃ keyring : ServiceFile,
      u = { t with handle := false, keyring := keyring } := by
    obtain ⟨k, hk⟩ := hverified
    exact (keeps_readServiceBundle bundle { t with handle := false } _ ⟨_, rfl⟩).result
      (fun _ _ => trivial) (hk [])
  have hopened : openSetupService.effect t = .ok (false, { t with handle := false }) := by
    simp [openSetupService, hservice]
  refine ⟨⟨false, none, verified, .install, none⟩,
    { t with handle := false, keyring := keyring }, ?_, rfl, rfl, rfl, rfl⟩
  unfold planInstall
  refine Passes.bind (Passes.step rfl) (Passes.bind (Passes.step hopened) ?_)
  refine Passes.bind (Passes.step rfl) ?_
  refine Passes.bind (passes_loadReleaseRecord (by exact hrelease)) ?_
  refine Passes.bind (Passes.lift rfl) (Passes.bind hverified ?_)
  refine Passes.bind (Passes.lift hdecision) ?_
  exact Passes.bind (passes_loadUpgradeJournal (by exact hjournal)) Passes.pure

/-! ### Leftovers -/

omit [Platform] [Unicode] [Ed25519] [Sha256] [Deserialize Keyring] [Deserialize FileSet]
  [Deserialize ServiceReleaseRecord] [Deserialize ServiceUpgradeJournal] in
/-- A load that finds nothing has had nothing to recover. -/
theorem not_stale_of_passes {α : Type} {decode : Bytes → Result α}
    (part : Part Machine ServiceFile) {t u : Machine} {file : ServiceFile}
    (hfile : part.get t = { file with path := none })
    (h : Passes (part.run (loadDocument decode)) t none u) : file.stale = false := by
  have hwp : Wp Anything (part.run (loadDocument decode))
      (fun r _ => r = none → (part.get t).settled = none) (fun _ _ => True) (fun _ => True) t := by
    refine Wp.part ((wp_loadDocument decode (part.get t)).mono ?_ (fun _ _ _ => trivial)
      (fun _ _ => trivial))
    rintro r v ⟨-, -, ⟨hnone, -⟩ | ⟨bytes, document, -, -, rfl⟩⟩ hr
    · exact hnone
    · cases hr
  obtain ⟨k, hk⟩ := h
  have hsettled := hwp.result (fun _ _ => trivial) (hk []) rfl
  rw [hfile] at hsettled
  obtain ⟨path, _ | temporary, _ | backup⟩ := file <;>
    simp [ServiceFile.settled, ServiceFile.stale] at hsettled ⊢

omit [Platform] [Unicode] [Ed25519] [Sha256] [Deserialize Keyring] [Deserialize FileSet]
  [Deserialize ServiceReleaseRecord] [Deserialize ServiceUpgradeJournal] in
theorem passes_deleteManagedFile (file : ManagedFile) (m : Machine) :
    ∃ files, Passes (deleteManagedFile file) m () { m with files } := by
  unfold deleteManagedFile
  cases hfile : m.files file with
  | none =>
    refine ⟨m.files, Passes.bind (b := none) (Passes.step ?_) Passes.pure⟩
    simp [openRelativeFile, hfile]
  | some content =>
    refine ⟨_, Passes.bind (b := some content) (Passes.step ?_) (Passes.step rfl)⟩
    simp [openRelativeFile, hfile]

omit [Platform] [Unicode] [Ed25519] [Sha256] [Deserialize Keyring] [Deserialize FileSet]
  [Deserialize ServiceReleaseRecord] [Deserialize ServiceUpgradeJournal] in
theorem passes_removeServiceFile (fault : MaintenanceError) (file : ServiceFile) :
    Passes (removeServiceFile fault) file () { file with path := none } := by
  unfold removeServiceFile
  refine Passes.bind (Passes.look _) ?_
  obtain ⟨_ | bytes, temporary, backup⟩ := file
  · exact Passes.pure
  · exact Passes.step rfl

omit [Unicode] [Ed25519] [Sha256] [Deserialize Keyring] [Deserialize FileSet]
  [Deserialize ServiceReleaseRecord] [Deserialize ServiceUpgradeJournal] in
theorem passes_deleteSystemService {m : Machine} (h : m.Removable) :
    ∃ result t, Passes deleteSystemService m result t ∧ t.release = m.release ∧
      t.journal = m.journal := by
  unfold deleteSystemService
  cases hservice : m.service with
  | none =>
    refine ⟨.absent, { m with handle := false }, ?_, rfl, rfl⟩
    refine Passes.bind (Passes.step rfl) (Passes.bind (b := false) (Passes.step ?_) Passes.pure)
    simp [openSetupService, hservice]
  | some service =>
    obtain ⟨file, hfile⟩ := Option.isSome_iff_exists.mp (h service hservice)
    let opened : Machine := { m with handle := true }
    have hopened : openSetupService.effect m = .ok (true, opened) := by
      simp [openSetupService, hservice, opened]
    have hconfig : queryServiceConfig.effect opened = .ok (service.imagePath, opened) := by
      simp [queryServiceConfig, hservice, opened]
    have hfound : Passes supportedPreviousBinaryRelativePath opened file opened := by
      refine Passes.bind (Passes.step hconfig) ?_
      rw [hfile]
      exact Passes.pure
    exact ⟨.removed, _, Passes.bind (Passes.step rfl) (Passes.bind (Passes.step hopened)
      (Passes.bind hfound (Passes.bind (Passes.step rfl) (Passes.bind (Passes.step rfl)
        Passes.pure)))), rfl, rfl⟩

omit [Unicode] [Ed25519] [Sha256] [Deserialize Keyring] [Deserialize FileSet]
  [Deserialize ServiceReleaseRecord] [Deserialize ServiceUpgradeJournal] in
theorem passes_uninstallDocuments {m : Machine} (h : m.Removable) :
    ∃ result t, Passes uninstallDocuments m (result, true) t ∧
      t.release = { m.release with path := none } ∧
      t.journal = { m.journal with path := none } := by
  obtain ⟨result, t, hservice, hrelease, hjournal⟩ := passes_deleteSystemService h
  obtain ⟨files, hfiles⟩ := passes_deleteManagedFile .service { t with uninstallEntry := false }
  obtain ⟨files', hfiles'⟩ := passes_deleteManagedFile .candidate
    { t with uninstallEntry := false, files := files }
  obtain ⟨files'', hfiles''⟩ := passes_deleteManagedFile .previous
    { t with uninstallEntry := false, files := files' }
  refine ⟨result, { t with
    files := files''
    release := { t.release with path := none }
    journal := { t.journal with path := none }
    uninstallEntry := false }, Passes.bind hservice (Passes.bind (Passes.bind (Passes.step rfl)
      (Passes.bind hfiles (Passes.bind hfiles' hfiles''))) (Passes.bind ?_ Passes.pure)), ?_, ?_⟩
  · unfold deleteServiceDocuments
    refine Passes.bind (Passes.attempt (Passes.step rfl)) ?_
    refine Passes.bind (Passes.part (passes_removeServiceFile _ _)) ?_
    exact Passes.bind (Passes.part (passes_removeServiceFile _ _)) Passes.pure
  · simp only [hrelease]
  · simp only [hjournal]

omit [Unicode] [Ed25519] [Sha256] [Deserialize Keyring] [Deserialize FileSet]
  [Deserialize ServiceReleaseRecord] [Deserialize ServiceUpgradeJournal] in
theorem exists_uninstalled {m : Machine} (h : m.Removable) :
    ∃ t, Uninstalled m t ∧ t.release = { m.release with path := none } ∧
      t.journal = { m.journal with path := none } := by
  obtain ⟨result, t, ⟨k, hk⟩, hrelease, hjournal⟩ := passes_uninstallDocuments h
  exact ⟨t, ⟨_, result, t, _, .crashed, [], hk [.crash .before], rfl⟩, hrelease, hjournal⟩

/-- The files beside the documents outlive an uninstall that crashes behind its deletions. -/
theorem not_stale_of_reinstalls {m : Machine} (hremovable : m.Removable)
    (h : ∀ t, Uninstalled m t → Reinstalls t) :
    m.release.stale = false ∧ m.journal.stale = false := by
  obtain ⟨t, ht, hrelease, hjournal⟩ := exists_uninstalled hremovable
  obtain ⟨⟨u, hrecord⟩, ⟨v, hactive⟩, -⟩ := h t ht
  exact ⟨not_stale_of_passes releaseFile hrelease hrecord,
    not_stale_of_passes journalFile hjournal hactive⟩

/-- Any number of `ensure-service` runs, each of which may fail or crash anywhere. -/
def SetupRuns : Machine → Machine → Prop :=
  Relation.ReflTransGen fun s t => ∃ bundle, EndsIn Anything (ensureSystemService bundle) s t

end Uninstall

/-! ### A first installation that crashes while it writes its release record -/

section Sample

def Machine.fresh : Machine where
  files _ := none
  service := none
  handle := false
  release := ⟨none, none, none⟩
  journal := ⟨none, none, none⟩
  keyring := ⟨none, none, none⟩
  uninstallEntry := false

def serviceFileSet : FileSet where
  files := [⟨"Se7enService.exe",
    "4bf5122f344554c53bde2ebb8cd2b7e3d1600ad631c385a5d7cce23c7785459a", 1⟩]
  generation := 1
  keyId := "release"
  kind := fileSetKind
  productId := serviceBundleProductId
  removeFiles := []
  schema := fileSetSchema
  signature := String.ofList (List.replicate 128 '3')

@[reducible] noncomputable def setupExternals : Externals := SampleDocuments.externals {
  keyrings := [releaseKeyring]
  fileSets := [serviceFileSet]
  digests := [
    (textOf releaseKeyring, [91, 205, 80, 160, 182, 78, 84, 254, 22, 8, 94, 29, 114, 31, 230, 99,
      184, 7, 13, 240, 24, 166, 60, 15, 107, 255, 248, 3, 65, 186, 86, 8]),
    (textOf serviceFileSet, [107, 120, 248, 143, 39, 62, 71, 237, 105, 159, 199, 39, 66, 9, 21, 86,
      103, 84, 93, 212, 133, 132, 73, 88, 231, 110, 158, 216, 251, 116, 183, 35]),
    ([1], [75, 245, 18, 47, 52, 69, 84, 197, 59, 222, 46, 187, 140, 210, 183, 227, 209, 96, 10, 214,
      49, 195, 133, 165, 215, 204, 226, 60, 119, 133, 69, 154])] }

def serviceRecord : ServiceReleaseRecord where
  digest := "6b78f88f273e47ed699fc7274209155667545dd485844958e76e9ed8fb74b723"
  generation := 1
  kind := releaseRecordKind
  schema := documentSchema
  serviceVersion := "1.0.0"

@[reducible] noncomputable def releaseRecords : Deserialize ServiceReleaseRecord :=
  .canonicalWith [serviceRecord]

@[reducible] noncomputable def upgradeJournals : Deserialize ServiceUpgradeJournal := .canonical _

/-- Every image starts, and is the service of version 1.0.0. -/
@[reducible] def samplePlatform : Platform where
  programFiles := "C:\\Program Files"
  verifyAuthenticodeSigner _ _ := .ok ()
  starts _ := true
  status _ := .ok {
    ok := some true
    serviceVersion := some "1.0.0"
    capabilities := some [some "file-set-v1", some "registry-set-v1"] }

attribute [local instance] setupExternals releaseRecords upgradeJournals samplePlatform

def serviceBundle : Bundle where
  serviceVersion := "1.0.0"
  absolute := true
  keyring := .ok (textOf releaseKeyring)
  manifest := .ok (textOf serviceFileSet)
  image := some [1]

/-- The crash comes before the new record is renamed to its place. -/
noncomputable def crashedSetup : Machine :=
  (ensureSystemService serviceBundle .fresh (List.replicate 53 .go ++ [.crash .before])).2.1

end Sample

end Se7en.Installer
