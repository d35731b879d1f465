import Se7enService.Installer
set_option autoImplicit false

/-! What the steps on executables and on the service leave alone. -/

namespace Se7en.Installer
open Faulty

variable {α β γ : Type}

/-- Every run of the program leaves this part of the machine as it was. -/
def Leaves (f : Machine → β) (p : SetupProg α) : Prop :=
  ∀ x, Keeps Anything (fun t => f t = x) p

section Rules

variable {f : Machine → β}

theorem Leaves.pure (a : α) : Leaves f (Pure.pure a : SetupProg α) := fun _ => Keeps.pure a

theorem Leaves.throw (e : MaintenanceError) : Leaves f (throw e : SetupProg α) :=
  fun _ => Keeps.throw e

theorem Leaves.look (g : Machine → α) : Leaves f (look g : SetupProg α) := fun _ => Keeps.look g

theorem Leaves.lift (x : Result α) : Leaves f (lift x : SetupProg α) := fun _ => Keeps.lift x

theorem Leaves.assign {g : Machine → Machine} (h : ∀ m, f (g m) = f m) :
    Leaves f (assign g : SetupProg Unit) :=
  fun _ => Keeps.assign fun m hm => (h m).trans hm

theorem Leaves.bind {p : SetupProg γ} {q : γ → SetupProg α} (hp : Leaves f p)
    (hq : ∀ a, Leaves f (q a)) : Leaves f (p >>= q) :=
  fun x => Keeps.bind (hp x) fun a => hq a x

theorem Leaves.attempt {p : SetupProg α} (hp : Leaves f p) : Leaves f (attempt p) :=
  fun x => Keeps.attempt (hp x)

theorem Leaves.part {part : Part Machine ServiceFile} (h : ∀ m file, f (part.set file m) = f m)
    (p : FileProg α) : Leaves f (part.run p) := by
  intro x
  refine Keeps.part (J := fun _ => True) (fun _ _ => Wp.any) (fun _ _ => trivial) ?_
  exact fun m file hm _ => (h m file).trans hm

theorem Leaves.step {st : Step Machine MaintenanceError α}
    (hdone : ∀ m a t, st.effect m = .ok (a, t) → f t = f m)
    (htorn : ∀ n m, f (st.torn n m) = f m) (hfailed : ∀ c m, f (st.failed c m) = f m) :
    Leaves f st.run := by
  intro x
  refine Keeps.step (fun m => nomatch m) ?_ (fun n t ht => (htorn n t).trans ht)
    (fun c t ht => (hfailed c t).trans ht)
  exact fun t ht => Step.done_of_ok (fun m a u hm hu => (hdone m a u hu).trans hm) ht

theorem Leaves.whole {st : Step Machine MaintenanceError α} (hwhole : st.Whole)
    (hdone : ∀ m a t, st.effect m = .ok (a, t) → f t = f m) : Leaves f st.run :=
  Leaves.step hdone (fun n m => congrArg f (hwhole.torn n m))
    (fun c m => congrArg f (hwhole.failed c m))

/-- A program that leaves a part alone keeps what is known of it. -/
theorem Leaves.keeps {p : SetupProg α} (h : Leaves f p) (I : β → Prop) :
    Keeps Anything (fun t => I (f t)) p :=
  fun s hs => (h (f s) s rfl).mono (fun _ _ ht => ht.symm ▸ hs) (fun _ _ ht => ht.symm ▸ hs)
    (fun _ ht => ht.symm ▸ hs)

end Rules

/-- The part has nothing of this executable in it. -/
def Spares (f : Machine → β) (file : ManagedFile) : Prop :=
  ∀ (m : Machine) content, f (m.setFile file content) = f m

/-- The part has nothing of the service in it. -/
structure OffService (f : Machine → β) : Prop where
  service : ∀ (m : Machine) service, f { m with service } = f m
  handle : ∀ (m : Machine) handle, f { m with handle } = f m

/-- The part has nothing of the executables and the service in it. -/
structure Outlying (f : Machine → β) : Prop extends OffService f where
  spares : ∀ file, Spares f file

theorem outlying_release : Outlying (·.release) where
  service _ _ := rfl
  handle _ _ := rfl
  spares _ _ _ := rfl

theorem outlying_journal : Outlying (·.journal) where
  service _ _ := rfl
  handle _ _ := rfl
  spares _ _ _ := rfl

theorem offService_files : OffService (·.files) := ⟨fun _ _ => rfl, fun _ _ => rfl⟩

theorem Leaves.inquire (f : Machine → β) (fault : MaintenanceError) :
    Leaves f (Step.run (inquire fault)) :=
  Leaves.whole .plain fun m _ t h => by cases h; rfl

section Executables

variable {f : Machine → β}

theorem leaves_openRelativeFile (f : Machine → β) (file : ManagedFile) :
    Leaves f (openRelativeFile file).run :=
  Leaves.whole .plain fun m _ t h => by cases h; rfl

theorem leaves_opened {file : ManagedFile} {k : Option Bytes → SetupProg α}
    (hnone : Leaves f (k none)) (hsome : ∀ content, Leaves f (k (some content))) :
    Leaves f ((openRelativeFile file).run >>= k) := by
  refine (leaves_openRelativeFile f file).bind fun content => ?_
  cases content with
  | none => exact hnone
  | some content => exact hsome content

theorem leaves_deleteManagedFile {file : ManagedFile} (hf : Spares f file) :
    Leaves f (deleteManagedFile file) :=
  leaves_opened (Leaves.pure ()) fun _ => Leaves.whole .plain fun m _ t h => by
    cases h
    exact hf m _

theorem leaves_createRelativeFile {file : ManagedFile} (hf : Spares f file) :
    Leaves f (createRelativeFile file).run := by
  refine Leaves.whole .plain fun m _ t h => ?_
  simp only [createRelativeFile] at h
  split at h
  · cases h
  · cases h
    exact hf m _

theorem leaves_renameHandleRelative {file destination : ManagedFile} (hf : Spares f file)
    (hd : Spares f destination) (fault : MaintenanceError) :
    Leaves f (renameHandleRelative file destination fault).run := by
  refine Leaves.whole .plain fun m _ t h => ?_
  simp only [renameHandleRelative] at h
  split at h
  · cases h
  · cases h
    exact (hf _ _).trans (hd m _)

theorem leaves_writeImage {file : ManagedFile} (hf : Spares f file) (image : Bytes) :
    Leaves f (writeImage file image).run := by
  refine Leaves.step (fun m _ t h => ?_) (fun n m => hf m _) ?_
  · cases h
    exact hf m _
  · rintro (_ | n | _) m
    · rfl
    · exact hf m _
    · exact hf m _

theorem leaves_activateStagedServiceBinary (hf : ∀ file, Spares f file)
    (previous : Option ManagedFile) : Leaves f (activateStagedServiceBinary previous) := by
  have hcandidate (fault : MaintenanceError) := leaves_renameHandleRelative
    (hf .candidate) (hf .service) fault
  refine (leaves_openRelativeFile f _).bind fun existing => ?_
  dsimp only
  split
  · refine leaves_opened ((Leaves.throw _).bind fun _ => ?_) fun _ =>
      (leaves_renameHandleRelative (hf _) (hf _) _).bind fun _ => ?_
    · exact leaves_opened (Leaves.throw _) fun _ => hcandidate _
    · exact leaves_opened (Leaves.throw _) fun _ => hcandidate _
  · exact (leaves_deleteManagedFile (hf _)).bind fun _ =>
      leaves_opened (Leaves.throw _) fun _ => hcandidate _

theorem leaves_restorePreviousServiceBinary (hf : ∀ file, Spares f file) :
    Leaves f restorePreviousServiceBinary :=
  (leaves_deleteManagedFile (hf _)).bind fun _ => leaves_opened (Leaves.throw _) fun _ =>
    leaves_renameHandleRelative (hf _) (hf _) _

end Executables

section ServiceManager

variable {f : Machine → β}

theorem leaves_openSetupService (hf : OffService f) : Leaves f openSetupService.run :=
  Leaves.whole .plain fun m _ t h => by cases h; exact hf.handle m _

theorem leaves_queryServiceConfig (f : Machine → β) : Leaves f queryServiceConfig.run := by
  refine Leaves.whole .plain fun m _ t h => ?_
  simp only [queryServiceConfig] at h
  split at h <;> cases h
  rfl

theorem leaves_changeServiceImagePath (hf : OffService f) (path : String) :
    Leaves f (changeServiceImagePath path).run :=
  Leaves.whole .plain fun m _ t h => by cases h; exact hf.service m _

theorem leaves_stopAndWait (hf : OffService f) : Leaves f stopAndWait.run :=
  Leaves.whole .plain fun m _ t h => by cases h; exact hf.service m _

theorem leaves_deleteService (hf : OffService f) (fault : MaintenanceError) :
    Leaves f (deleteService fault).run :=
  Leaves.whole .plain fun m _ t h => by cases h; exact hf.service m _

theorem leaves_requireService (f : Machine → β) : Leaves f requireService :=
  (Leaves.look _).bind fun _ => Leaves.lift _

theorem leaves_stopService (hf : OffService f) : Leaves f stopService := by
  refine (Leaves.look _).bind fun present => ?_
  cases present with
  | false => exact Leaves.pure ()
  | true => exact leaves_stopAndWait hf

theorem leaves_createSystemService (hf : OffService f) (executable : String) :
    Leaves f (createSystemService executable) := by
  refine Leaves.bind (Leaves.whole .plain fun m _ t h => ?_) fun _ =>
    (Leaves.inquire f _).bind fun _ => Leaves.inquire f _
  simp only [createService] at h
  split at h
  · cases h
  · cases h
    exact hf.service m _

variable [Platform]

theorem leaves_startAndWait (hf : OffService f) : Leaves f startAndWait.run := by
  refine Leaves.whole .plain fun m _ t h => ?_
  simp only [startAndWait] at h
  split at h
  · cases h
  · split at h <;> cases h
    exact hf.service m _

theorem leaves_verifyRunningService (f : Machine → β) (version : String) :
    Leaves f (verifyRunningService version) := by
  refine Leaves.bind (Leaves.whole .plain fun m _ t h => ?_) fun _ => Leaves.lift _
  simp only [callSharedService] at h
  split at h
  · cases h
  · obtain ⟨_, -, h⟩ := Result.bind_eq_ok.mp h
    cases h
    rfl

theorem leaves_supportedPreviousBinary (f : Machine → β) :
    Leaves f supportedPreviousBinaryRelativePath := by
  refine (leaves_queryServiceConfig f).bind fun current => ?_
  split
  · exact Leaves.pure _
  · exact Leaves.throw _

theorem leaves_activateCandidate (hf : Outlying f) (previous : Option ManagedFile)
    (journal : ServiceUpgradeJournal) : Leaves f (activateCandidate previous journal) := by
  have hconfigure : Leaves f (do
      configureSystemService.run
      provisionServiceDataDirectory.run : SetupProg Unit) :=
    (Leaves.inquire f _).bind fun _ => Leaves.inquire f _
  have hswitch : Leaves f (do
      requireService
      let current ← queryServiceConfig.run
      if current ≠ journal.candidateImagePath then
        (changeServiceImagePath journal.candidateImagePath).run
      configureSystemService.run
      provisionServiceDataDirectory.run : SetupProg Unit) := by
    refine (leaves_requireService f).bind fun _ => (leaves_queryServiceConfig f).bind
      fun current => ?_
    dsimp only
    split
    · exact (leaves_changeServiceImagePath hf.toOffService _).bind fun _ => hconfigure
    · exact hconfigure
  refine (Leaves.lift _).bind fun _ => (leaves_activateStagedServiceBinary hf.spares _).bind fun _ =>
    (Leaves.look _).bind fun absent => ?_
  cases absent with
  | false => exact hswitch
  | true =>
    exact (leaves_createSystemService hf.toOffService _).bind fun _ =>
      (leaves_openSetupService hf.toOffService).bind fun _ => hswitch

theorem leaves_verifyCandidateHealth (hf : OffService f) (journal : ServiceUpgradeJournal) :
    Leaves f (verifyCandidateHealth journal) := by
  have hstart : Leaves f (do
      configureSystemService.run
      startAndWait.run
      verifyRunningService journal.candidate.serviceVersion : SetupProg Unit) :=
    (Leaves.inquire f _).bind fun _ => (leaves_startAndWait hf).bind fun _ =>
      leaves_verifyRunningService f _
  refine (leaves_requireService f).bind fun _ => (leaves_queryServiceConfig f).bind fun current => ?_
  dsimp only
  split
  · exact (leaves_stopAndWait hf).bind fun _ => (leaves_changeServiceImagePath hf _).bind
      fun _ => hstart
  · exact hstart

theorem leaves_rollbackService (hf : Outlying f) (journal : ServiceUpgradeJournal) :
    Leaves f (rollbackService journal) := by
  have hservice := hf.toOffService
  refine (leaves_stopService hservice).bind fun _ => ?_
  cases journal.previous with
  | some previous =>
    exact (leaves_restorePreviousServiceBinary hf.spares).bind fun _ =>
      (leaves_requireService f).bind fun _ => (leaves_changeServiceImagePath hservice _).bind
      fun _ => (Leaves.inquire f _).bind fun _ => (leaves_startAndWait hservice).bind fun _ =>
      leaves_verifyRunningService f _
  | none =>
    exact (leaves_deleteManagedFile (hf.spares _)).bind fun _ =>
      (leaves_deleteManagedFile (hf.spares _)).bind fun _ => (Leaves.look _).bind fun _ =>
      (Leaves.assign fun m => hf.handle m _).bind fun _ => (Leaves.lift _).bind fun _ =>
      leaves_deleteService hservice _

theorem leaves_previousBinary (f : Machine → β) (service : Bool)
    (previous : Option ServiceReleaseRecord) (absent : MaintenanceError) :
    Leaves f (previousBinary service previous absent) := by
  cases previous with
  | none => exact Leaves.pure _
  | some _ =>
    exact (Leaves.lift _).bind fun _ => (leaves_supportedPreviousBinary f).bind fun _ =>
      Leaves.pure _

theorem leaves_stageCandidateBinary [Sha256] (hf : Spares f .candidate)
    (hnew : Spares f .candidateNew) (bundle : Bundle) (verified : VerifiedBundle) :
    Leaves f (stageCandidateBinary bundle verified) := by
  refine (Leaves.lift _).bind fun _ => (Leaves.inquire f _).bind fun _ => ?_
  cases bundle.image with
  | none => exact Leaves.throw _
  | some image =>
    refine (Leaves.lift _).bind fun _ => (leaves_openRelativeFile f _).bind fun existing => ?_
    cases existing with
    | some _ => exact Leaves.lift _
    | none =>
      exact (leaves_deleteManagedFile hnew).bind fun _ => (leaves_createRelativeFile hnew).bind
        fun _ => (leaves_writeImage hnew _).bind fun _ => (Leaves.lift _).bind fun _ =>
        leaves_renameHandleRelative hnew hf _

theorem leaves_verifyManagedBinary [Sha256] (f : Machine → β) (verified : VerifiedBundle) :
    Leaves f (verifyManagedBinary verified) := by
  refine (leaves_openRelativeFile f _).bind fun live => ?_
  cases live with
  | none => exact Leaves.throw _
  | some _ => exact Leaves.lift _

omit [Platform] in
theorem leaves_ensureExpectedServiceConfig (f : Machine → β) (expected : String) :
    Leaves f (ensureExpectedServiceConfig expected) :=
  (leaves_queryServiceConfig f).bind fun _ => Leaves.lift _

end ServiceManager

end Se7en.Installer
