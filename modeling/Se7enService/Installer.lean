import Se7enService.ServiceUpgrade
import Se7enService.KeyringFloor
set_option autoImplicit false

/-! `windows_upgrade.rs`: what an `ensure-service` and an `uninstall-service` do to the machine. -/

namespace Se7en
open Faulty

/-! ### Documents -/

def UpgradePhase.text : UpgradePhase → String
  | .staged => "staged"
  | .oldStopped => "oldStopped"
  | .configSwitched => "configSwitched"
  | .healthy => "healthy"

instance : Serialize ServiceReleaseRecord where
  toValue record := .object [
    ("digest", .string record.digest),
    ("generation", unsigned record.generation),
    ("kind", .string record.kind),
    ("schema", unsigned record.schema),
    ("serviceVersion", .string record.serviceVersion)]

instance : Serialize ServiceUpgradeJournal where
  toValue journal := .object [
    ("candidate", toValue journal.candidate),
    ("candidateImagePath", .string journal.candidateImagePath),
    ("kind", .string journal.kind),
    ("phase", .string journal.phase.text),
    ("previous", optional toValue journal.previous),
    ("schema", unsigned journal.schema)]

theorem UpgradePhase.text_injective {p p' : UpgradePhase} (h : p.text = p'.text) : p = p' := by
  cases p <;> cases p' <;> first | rfl | exact absurd h (by decide)

instance : LawfulSerialize ServiceReleaseRecord where
  regular record := ⟨⟨trivial, trivial, trivial, trivial, trivial, trivial⟩, sorted_of_keys
    ["digest", "generation", "kind", "schema", "serviceVersion"] rfl (by decide)⟩
  injective record record' h := by
    simp only [toValue, Value.object.injEq, List.cons.injEq, Prod.mk.injEq, true_and, and_true,
      Value.string.injEq, unsigned_inj] at h
    cases record; cases record'
    simpa only [ServiceReleaseRecord.mk.injEq] using h

instance : LawfulSerialize ServiceUpgradeJournal where
  regular journal := by
    refine ⟨⟨LawfulSerialize.regular journal.candidate, trivial, trivial, trivial, ?_, trivial,
      trivial⟩, sorted_of_keys
        ["candidate", "candidateImagePath", "kind", "phase", "previous", "schema"] rfl (by decide)⟩
    exact optional_regular LawfulSerialize.regular _
  injective journal journal' h := by
    have hfields := Value.object.inj h
    simp only [List.cons.injEq, Prod.mk.injEq, true_and, and_true, Value.string.injEq,
      unsigned_inj] at hfields
    obtain ⟨hcandidate, hpath, hkind, hphase, hprevious, hschema⟩ := hfields
    have hnull : ∀ record : ServiceReleaseRecord, toValue record ≠ .null :=
      fun record => Value.noConfusion
    cases journal; cases journal'
    simp only [ServiceUpgradeJournal.mk.injEq]
    exact ⟨LawfulSerialize.injective _ _ hcandidate, hpath, hkind,
      UpgradePhase.text_injective hphase,
      optional_injective LawfulSerialize.injective hnull hprevious, hschema⟩

def encodeReleaseRecord (record : ServiceReleaseRecord) : Result Bytes := do
  record.validate
  canonicalJson (toValue record)

def encodeUpgradeJournal (journal : ServiceUpgradeJournal) : Result Bytes := do
  journal.validate
  canonicalJson (toValue journal)

section Decoding

variable [Deserialize ServiceReleaseRecord] [Deserialize ServiceUpgradeJournal]

def decodeReleaseRecord (bytes : Bytes) : Result ServiceReleaseRecord := do
  let record : ServiceReleaseRecord ← parseCanonical bytes maxIpcMessageBytes
  record.validate
  pure record

def decodeUpgradeJournal (bytes : Bytes) : Result ServiceUpgradeJournal := do
  let journal : ServiceUpgradeJournal ← parseCanonical bytes maxIpcMessageBytes
  journal.validate
  pure journal

end Decoding

namespace Installer

/-! ### The machine -/

/-- The service executables below Program Files. -/
inductive ManagedFile where
  | service
  | candidate
  | candidateNew
  | previous
  | previousManaged
  deriving DecidableEq, Repr

def ManagedFile.relativePath : ManagedFile → String
  | .service => "7Launcher/Service/Se7enService.exe"
  | .candidate => "7Launcher/Service/Se7enService.candidate.exe"
  | .candidateNew => "7Launcher/Service/Se7enService.candidate.exe.new"
  | .previous => "7Launcher/Service/Se7enService.previous.exe"
  | .previousManaged => "7Launcher/Se7enService.exe"

/-- The entry of the service in the service control manager. -/
structure ScmService where
  imagePath : String
  running : Bool
  deriving DecidableEq, Repr

/-- `handle` tells whether the running installer has a handle of the service. -/
structure Machine where
  files : ManagedFile → Option Bytes
  service : Option ScmService
  handle : Bool
  release : ServiceFile
  journal : ServiceFile
  keyring : ServiceFile
  uninstallEntry : Bool

abbrev SetupProg (α : Type) := Prog Machine MaintenanceError Empty α

/-- The members of a status response that the health check reads. -/
structure StatusResponse where
  ok : Option Bool
  serviceVersion : Option String
  capabilities : Option (List (Option String))
  deriving DecidableEq, Repr

/-- What is not part of this program: Program Files, the check of signers, and what becomes of a
service that is started from an image. -/
class Platform where
  programFiles : String
  verifyAuthenticodeSigner : Bytes → List String → Result Unit
  starts : Bytes → Bool
  status : Bytes → Result StatusResponse

def releaseFile : Part Machine ServiceFile where
  get m := m.release
  set release m := { m with release }

def journalFile : Part Machine ServiceFile where
  get m := m.journal
  set journal m := { m with journal }

def keyringFile : Part Machine ServiceFile where
  get m := m.keyring
  set keyring m := { m with keyring }

def Machine.setFile (m : Machine) (file : ManagedFile) (content : Option Bytes) : Machine :=
  { m with files := Function.update m.files file content }

/-- An operation that may fail, and leaves nothing of what is modelled behind. -/
def inquire (fault : MaintenanceError) : Step Machine MaintenanceError Unit where
  effect m := .ok ((), m)
  fault := fault

/-! ### Files below Program Files -/

def openError : MaintenanceError :=
  .new .transactionIo "file handle cannot be opened under the locked root"

def openRelativeFile (file : ManagedFile) : Step Machine MaintenanceError (Option Bytes) where
  effect m := .ok (m.files file, m)
  fault := openError

def createRelativeFile (file : ManagedFile) : Step Machine MaintenanceError Unit where
  effect m := match m.files file with
    | some _ => .error openError
    | none => .ok ((), m.setFile file (some []))
  fault := openError

def deleteByHandle (file : ManagedFile) : Step Machine MaintenanceError Unit where
  effect m := .ok ((), m.setFile file none)
  fault := .new .transactionIo "handle-based file deletion failed"

/-- A file is never replaced by a rename. -/
def renameHandleRelative (file destination : ManagedFile) (fault : MaintenanceError) :
    Step Machine MaintenanceError Unit where
  effect m := match m.files destination with
    | some _ => .error fault
    | none => .ok ((), (m.setFile destination (m.files file)).setFile file none)
  fault := fault

def deleteManagedFile (file : ManagedFile) : SetupProg Unit := do
  match ← (openRelativeFile file).run with
  | none => pure ()
  | some _ => (deleteByHandle file).run

def serviceUpgradeIo : MaintenanceError :=
  .new .transactionIo "maintenance service upgrade file operation failed"

/-- A write that is cut short leaves a prefix. -/
def writeImage (file : ManagedFile) (image : Bytes) : Step Machine MaintenanceError Unit where
  effect m := .ok ((), m.setFile file (some image))
  fault := serviceUpgradeIo
  torn n m := m.setFile file (some (image.take n))
  failed
    | .before, m => m
    | .within n, m => m.setFile file (some (image.take n))
    | .after, m => m.setFile file (some image)

/-! ### The service control manager -/

section Setup

variable [Platform]

def serviceImagePath (binary : String) : String := "\"" ++ binary ++ "\" --service"

/-- `native_path_from_canonical_relative`. -/
def nativePath (relative : String) : String :=
  (split '/' relative.toList).foldl (fun path component => path ++ "\\" ++ String.ofList component)
    Platform.programFiles

def managedBinaryPath : String := nativePath ManagedFile.service.relativePath

/-- `Path::join`. -/
def joined (relative : String) : String := Platform.programFiles ++ "\\" ++ relative

def supportedPreviousRelativePathForImage
    (current expected knownMixedCurrent previousNative previousMixed : String) :
    Option ManagedFile :=
  if current = expected ∨ current = knownMixedCurrent then some .service
  else if current = previousNative ∨ current = previousMixed then some .previousManaged
  else none

/-- The executable that an entry of the service control manager names. -/
def imageFile (imagePath : String) : Option ManagedFile :=
  supportedPreviousRelativePathForImage imagePath
    (serviceImagePath managedBinaryPath)
    (serviceImagePath (joined ManagedFile.service.relativePath))
    (serviceImagePath (nativePath ManagedFile.previousManaged.relativePath))
    (serviceImagePath (joined ManagedFile.previousManaged.relativePath))

def Machine.image (m : Machine) : Option Bytes :=
  m.service.bind fun service => (imageFile service.imagePath).bind m.files

omit [Platform] in
def openSetupManager : Step Machine MaintenanceError Unit :=
  inquire (.new .rootUnauthorized "elevated installer cannot open the service control manager")

omit [Platform] in
/-- The handle is kept by the platform of the upgrade. -/
def openSetupService : Step Machine MaintenanceError Bool where
  effect m := .ok (m.service.isSome, { m with handle := m.service.isSome })
  fault := .new .rootUnauthorized "elevated installer cannot open the existing maintenance service"

omit [Platform] in
def queryServiceConfig : Step Machine MaintenanceError String where
  effect m := match m.service with
    | none =>
      .error (.new .recoveryIncomplete "maintenance service configuration has an invalid size")
    | some service => .ok (service.imagePath, m)
  fault := .new .recoveryIncomplete "maintenance service configuration cannot be queried"

omit [Platform] in
def changeServiceImagePath (imagePath : String) : Step Machine MaintenanceError Unit where
  effect m := .ok ((), { m with service := m.service.map ({ · with imagePath }) })
  fault := .new .recoveryIncomplete "maintenance service ImagePath could not be switched"

omit [Platform] in
def configureSystemService : Step Machine MaintenanceError Unit :=
  inquire (.new .rootUnauthorized "maintenance service DACL could not be configured")

omit [Platform] in
def provisionServiceDataDirectory : Step Machine MaintenanceError Unit :=
  inquire (.new .transactionIo "protected service directory cannot be provisioned")

omit [Platform] in
def openServiceDataDirectory : Step Machine MaintenanceError Unit :=
  inquire (.new .transactionIo "protected service directory cannot be opened")

omit [Platform] in
def createService (imagePath : String) : Step Machine MaintenanceError Unit where
  effect m := match m.service with
    | some _ =>
      .error (.new .transactionIo "shared maintenance service could not be created")
    | none => .ok ((), { m with service := some { imagePath, running := false } })
  fault := .new .transactionIo "shared maintenance service could not be created"

omit [Platform] in
def createSystemService (executable : String) : SetupProg Unit := do
  (createService (serviceImagePath executable)).run
  configureSystemService.run
  provisionServiceDataDirectory.run

omit [Platform] in
/-- The loop of `stop_and_wait` ends when the service has stopped. -/
def stopAndWait : Step Machine MaintenanceError Unit where
  effect m := .ok ((), { m with service := m.service.map ({ · with running := false }) })
  fault := .new .serviceBusy "maintenance service is still committing or rolling back"

def startAndWait : Step Machine MaintenanceError Unit where
  effect m := match m.image with
    | none => .error (.new .transactionIo "maintenance service could not be started")
    | some image =>
      if Platform.starts image then
        .ok ((), { m with service := m.service.map ({ · with running := true }) })
      else
        .error (.new .transactionIo "maintenance service did not reach the running state")
  fault := .new .transactionIo "maintenance service could not be started"

/-- `call_shared_service` with a status request. -/
def callSharedService : Step Machine MaintenanceError StatusResponse where
  effect m := match m.image with
    | none => .error (.new .protocolVersion "shared maintenance service is not installed")
    | some image => do
      let response ← Platform.status image
      pure (response, m)
  fault := .new .transactionIo "shared maintenance service could not be started"

omit [Platform] in
def checkStatus (expectedVersion : String) (response : StatusResponse) : Result Unit := do
  rejectIf (response.ok ≠ some true || response.serviceVersion ≠ some expectedVersion)
    (.new .protocolVersion "running maintenance service version failed health-check")
  match response.capabilities with
  | none => .error (.new .protocolVersion "running maintenance service omitted capabilities")
  | some capabilities =>
    rejectIf (!(["file-set-v1", "registry-set-v1"].all fun required =>
        capabilities.any (· = some required)))
      (.new .protocolVersion "running maintenance service lacks a required capability")

def verifyRunningService (expectedVersion : String) : SetupProg Unit := do
  let response ← callSharedService.run
  lift (checkStatus expectedVersion response)

def supportedPreviousBinaryRelativePath : SetupProg ManagedFile := do
  let current ← queryServiceConfig.run
  match imageFile current with
  | some file => pure file
  | none =>
    throw (.new .recoveryIncomplete
      "maintenance service ImagePath is outside the current and supported previous paths")

def ensureExpectedServiceConfig (expected : String) : SetupProg Unit := do
  let current ← queryServiceConfig.run
  lift (rejectIf (current ≠ expected) (.new .recoveryIncomplete
    "maintenance service ImagePath does not match its protected release record"))

/-! ### The steps of an upgrade -/

omit [Platform] in
def activateStagedServiceBinary (previousRelativePath : Option ManagedFile) : SetupProg Unit := do
  let previousExists := (← (openRelativeFile .previous).run).isSome
  match previousRelativePath.filter fun _ => !previousExists with
  | some file =>
    match ← (openRelativeFile file).run with
    | none =>
      throw (.new .recoveryIncomplete "installed service executable is absent before upgrade")
    | some _ =>
      (renameHandleRelative file .previous (.new .transactionIo
        "live service executable could not be retained for rollback")).run
  | none => deleteManagedFile .service
  match ← (openRelativeFile .candidate).run with
  | none =>
    throw (.new .recoveryIncomplete "staged service candidate disappeared before activation")
  | some _ =>
    (renameHandleRelative .candidate .service (.new .transactionIo
      "staged service executable could not be activated")).run

omit [Platform] in
def restorePreviousServiceBinary : SetupProg Unit := do
  deleteManagedFile .service
  match ← (openRelativeFile .previous).run with
  | none =>
    throw (.new .recoveryIncomplete "previous service executable is absent during rollback")
  | some _ =>
    (renameHandleRelative .previous .service (.new .recoveryIncomplete
      "previous service executable could not be restored")).run

omit [Platform] in
/-- `WindowsUpgradePlatform::service`. -/
def requireService : SetupProg Unit := do
  let present ← look (·.handle)
  lift (rejectIf (!present)
    (.new .recoveryIncomplete "SCM service handle is unavailable during upgrade"))

omit [Platform] in
def persistJournal (journal : ServiceUpgradeJournal) : SetupProg Unit := do
  journalFile.run recoverServiceFileReplacement
  let bytes ← lift (encodeUpgradeJournal journal)
  journalFile.run (replaceServiceFile bytes)

omit [Platform] in
def stopService : SetupProg Unit := do
  if ← look (·.handle) then
    stopAndWait.run

def activateCandidate (previousBinaryRelativePath : Option ManagedFile)
    (journal : ServiceUpgradeJournal) : SetupProg Unit := do
  lift (rejectIf (journal.previous.isSome ≠ previousBinaryRelativePath.isSome)
    (.new .transactionState "service upgrade source path does not match the protected journal"))
  activateStagedServiceBinary previousBinaryRelativePath
  if ← look (!·.handle) then
    createSystemService managedBinaryPath
    let _ ← openSetupService.run
  requireService
  let current ← queryServiceConfig.run
  if current ≠ journal.candidateImagePath then
    (changeServiceImagePath journal.candidateImagePath).run
  configureSystemService.run
  provisionServiceDataDirectory.run

def verifyCandidateHealth (journal : ServiceUpgradeJournal) : SetupProg Unit := do
  requireService
  let current ← queryServiceConfig.run
  if current ≠ journal.candidateImagePath then
    stopAndWait.run
    (changeServiceImagePath journal.candidateImagePath).run
  configureSystemService.run
  startAndWait.run
  verifyRunningService journal.candidate.serviceVersion

omit [Platform] in
/-- The handle is taken before the call, and closed behind it. -/
def deleteService (fault : MaintenanceError) : Step Machine MaintenanceError Unit where
  effect m := .ok ((), { m with service := none })
  fault := fault

def rollbackService (journal : ServiceUpgradeJournal) : SetupProg Unit := do
  stopService
  match journal.previous with
  | some previous => do
    restorePreviousServiceBinary
    requireService
    (changeServiceImagePath journal.candidateImagePath).run
    configureSystemService.run
    startAndWait.run
    verifyRunningService previous.serviceVersion
  | none => do
    deleteManagedFile .service
    deleteManagedFile .candidate
    let present ← look (·.handle)
    assign ({ · with handle := false })
    lift (rejectIf (!present)
      (.new .recoveryIncomplete "newly created service disappeared before rollback"))
    (deleteService (.new .recoveryIncomplete "failed initial service could not be deleted")).run

section Finalize

variable [Ed25519] [Sha256] [Deserialize Keyring]

omit [Platform] in
def finalizeUpgrade (keyringBytes : Bytes) (journal : ServiceUpgradeJournal) : SetupProg Unit := do
  keyringFile.run (installVerifiedKeyringBytes keyringBytes)
  releaseFile.run recoverServiceFileReplacement
  let bytes ← lift (encodeReleaseRecord journal.candidate)
  releaseFile.run (replaceServiceFile bytes)
  deleteManagedFile .previous
  deleteManagedFile .candidate

omit [Platform] in
def clearJournal : SetupProg Unit := do
  journalFile.run recoverServiceFileReplacement
  journalFile.run (removeServiceFile
    (.new .recoveryIncomplete "completed service upgrade journal could not be removed"))

def windowsUpgradePlatform (previousBinaryRelativePath : Option ManagedFile)
    (keyringBytes : Bytes) : ServiceUpgradePlatform Machine Empty where
  persistJournal := persistJournal
  stopService := stopService
  activateCandidate := activateCandidate previousBinaryRelativePath
  verifyCandidateHealth := verifyCandidateHealth
  rollbackService := rollbackService
  finalizeUpgrade := finalizeUpgrade keyringBytes
  clearJournal := clearJournal

end Finalize

end Setup

/-! ### Installing -/

/-- What an installer brings along; `serviceVersion` is the version of its package. -/
structure Bundle where
  serviceVersion : String
  absolute : Bool
  keyring : Result Bytes
  manifest : Result Bytes
  image : Option Bytes

inductive EnsureServiceResult where
  | installed
  | upgraded
  | current
  deriving DecidableEq, Repr

def mapUpgradeOutcome : EnsureServiceOutcome → EnsureServiceResult
  | .installed => .installed
  | .upgraded => .upgraded

section Documents

variable [Deserialize ServiceReleaseRecord] [Deserialize ServiceUpgradeJournal]

def unreadable : MaintenanceError :=
  .new .manifestTooLarge "protected service trust file exceeds the bound"

/-- `load_release_record` and `load_upgrade_journal`. -/
def loadDocument {α : Type} (decode : Bytes → Result α) : FileProg (Option α) := do
  recoverServiceFileReplacement
  if ← look (·.path.isNone) then
    return none
  match ← look (readBounded ·.path maxIpcMessageBytes) with
  | none => throw unreadable
  | some bytes => do
    let document ← lift (decode bytes)
    pure (some document)

omit [Deserialize ServiceUpgradeJournal] in
def loadReleaseRecord : SetupProg (Option ServiceReleaseRecord) :=
  releaseFile.run (loadDocument decodeReleaseRecord)

omit [Deserialize ServiceReleaseRecord] in
def loadUpgradeJournal : SetupProg (Option ServiceUpgradeJournal) :=
  journalFile.run (loadDocument decodeUpgradeJournal)

end Documents

/-- What the checks of a bundle have found. -/
structure VerifiedBundle where
  keyringBytes : Bytes
  keyring : VerifiedKeyring
  entry : FileEntry
  candidate : ServiceReleaseRecord

/-- What an installer has found before it changes anything. -/
structure InstallPlan where
  service : Bool
  installed : Option ServiceReleaseRecord
  bundle : VerifiedBundle
  decision : UpgradeDecision
  journal : Option ServiceUpgradeJournal

section Install

variable [Platform] [Unicode] [Ed25519] [Sha256] [Deserialize Keyring] [Deserialize FileSet]
  [Deserialize ServiceReleaseRecord] [Deserialize ServiceUpgradeJournal]

omit [Platform] [Ed25519] [Sha256] [Deserialize Keyring] [Deserialize FileSet]
  [Deserialize ServiceReleaseRecord] [Deserialize ServiceUpgradeJournal] in
def validateServiceBundle (manifest : VerifiedFileSet) : Result FileEntry :=
  match manifest.fileSet.files, manifest.fileSet.removeFiles with
  | [entry], [] =>
    if entry.path ≠ "Se7enService.exe" then
      .error (.new .productMismatch
        "service bundle must contain only the fixed maintenance service executable")
    else .ok entry
  | _, _ =>
    .error (.new .productMismatch
      "service bundle must contain only the fixed maintenance service executable")

omit [Platform] [Deserialize ServiceReleaseRecord] [Deserialize ServiceUpgradeJournal] in
/-- The checks of `install_system_service` up to the candidate. -/
def readServiceBundle (bundle : Bundle) : SetupProg VerifiedBundle := do
  let keyringBytes ← lift bundle.keyring
  let keyring ← keyringFile.run (verifyCandidateKeyringBytes keyringBytes)
  let manifestBytes ← lift bundle.manifest
  let manifest ← lift (verifyFileSet manifestBytes keyring {
    expectedProductId := serviceBundleProductId
    previous := none })
  let entry ← lift (validateServiceBundle manifest)
  let candidate ← lift (ServiceReleaseRecord.new bundle.serviceVersion
    manifest.fileSet.generation manifest.digest)
  pure { keyringBytes, keyring, entry, candidate }

omit [Platform] in
/-- `install_system_service` up to the journal. -/
def planInstall (bundle : Bundle) : SetupProg InstallPlan := do
  openSetupManager.run
  let service ← openSetupService.run
  if service then
    openServiceDataDirectory.run
  else
    provisionServiceDataDirectory.run
  let installed ← loadReleaseRecord
  lift (rejectIf (service && installed.isNone) (.new .recoveryIncomplete
    "pre-release service without a protected release record must be removed manually"))
  let verified ← readServiceBundle bundle
  let decision ← lift (decideServiceUpgrade verified.candidate installed)
  let journal ← loadUpgradeJournal
  pure { service, installed, bundle := verified, decision, journal }

omit [Unicode] [Ed25519] [Deserialize Keyring] [Deserialize FileSet]
  [Deserialize ServiceReleaseRecord] [Deserialize ServiceUpgradeJournal] in
def verifyBundleFile (image : Bytes) (bundle : VerifiedBundle) : Result Unit := do
  rejectIf (UInt64.ofNat image.length ≠ bundle.entry.size)
    (.new .fileSetHash "service bundle executable size does not match FileSet v1")
  let expected ← decodeLowerHex 32 bundle.entry.sha256 .fileSetHash
  rejectIf ((sha256 image).toList ≠ expected)
    (.new .fileSetHash "service bundle executable SHA-256 does not match FileSet v1")
  Platform.verifyAuthenticodeSigner image bundle.keyring.keyring.authenticodeSignerThumbprints

omit [Unicode] [Ed25519] [Deserialize Keyring] [Deserialize FileSet]
  [Deserialize ServiceReleaseRecord] [Deserialize ServiceUpgradeJournal] in
def stageCandidateBinary (bundle : Bundle) (verified : VerifiedBundle) : SetupProg Unit := do
  lift (rejectIf (!bundle.absolute)
    (.new .stagingInvalid "service bundle root must be absolute"))
  (inquire openError).run
  match bundle.image with
  | none => throw (.new .stagingInvalid "signed service bundle executable is absent")
  | some image => do
    lift (verifyBundleFile image verified)
    match ← (openRelativeFile .candidate).run with
    | some existing => lift (verifyBundleFile existing verified)
    | none => do
      deleteManagedFile .candidateNew
      (createRelativeFile .candidateNew).run
      (writeImage .candidateNew image).run
      lift (verifyBundleFile image verified)
      (renameHandleRelative .candidateNew .candidate
        (.new .transactionIo "handle-based atomic rename failed")).run

omit [Unicode] [Ed25519] [Deserialize Keyring] [Deserialize FileSet]
  [Deserialize ServiceReleaseRecord] [Deserialize ServiceUpgradeJournal] in
def verifyManagedBinary (verified : VerifiedBundle) : SetupProg Unit := do
  match ← (openRelativeFile .service).run with
  | none => throw (.new .recoveryIncomplete "fixed managed service executable is absent")
  | some image => lift (verifyBundleFile image verified)

def candidateImagePath : String := serviceImagePath managedBinaryPath

omit [Unicode] [Deserialize FileSet] [Deserialize ServiceReleaseRecord]
  [Deserialize ServiceUpgradeJournal] in
/-- A new upgrade, or one whose journal was found. -/
def runUpgrade (bundle : Bundle) (verified : VerifiedBundle)
    (previousBinaryRelativePath : Option ManagedFile) (journal : Result ServiceUpgradeJournal) :
    SetupProg EnsureServiceResult := do
  stageCandidateBinary bundle verified
  let journal ← lift journal
  let outcome ← executeServiceUpgrade
    (windowsUpgradePlatform previousBinaryRelativePath verified.keyringBytes) journal
  pure (mapUpgradeOutcome outcome)

omit [Unicode] [Ed25519] [Sha256] [Deserialize Keyring] [Deserialize FileSet]
  [Deserialize ServiceReleaseRecord] [Deserialize ServiceUpgradeJournal] in
/-- The journal belongs to an upgrade to this candidate. -/
def checkJournal (plan : InstallPlan) (journal : ServiceUpgradeJournal) : Result Unit :=
  rejectIf (journal.candidate ≠ plan.bundle.candidate
      || (journal.previous ≠ plan.installed && plan.installed ≠ some plan.bundle.candidate)
      || journal.candidateImagePath ≠ candidateImagePath)
    (.new .transactionConflict "another maintenance service upgrade journal is active")

omit [Unicode] [Ed25519] [Sha256] [Deserialize Keyring] [Deserialize FileSet]
  [Deserialize ServiceReleaseRecord] [Deserialize ServiceUpgradeJournal] in
/-- Where the executable of the previous release is, if the upgrade has one. -/
def previousBinary (service : Bool) (previous : Option ServiceReleaseRecord)
    (absent : MaintenanceError) : SetupProg (Option ManagedFile) := do
  match previous with
  | none => pure none
  | some _ => do
    lift (rejectIf (!service) absent)
    let file ← supportedPreviousBinaryRelativePath
    pure (some file)

def installSystemService (bundle : Bundle) : SetupProg EnsureServiceResult := do
  let plan ← planInstall bundle
  match plan.journal with
  | some journal => do
    lift (checkJournal plan journal)
    let previous ← previousBinary plan.service journal.previous (.new .recoveryIncomplete
      "upgrade journal has a previous release but the SCM service is absent")
    runUpgrade bundle plan.bundle previous (.ok journal)
  | none =>
    match plan.decision with
    | .keepCompatible => do
      lift (rejectIf (!plan.service) (.new .recoveryIncomplete
        "service release record exists but the SCM service is absent; remove SE7EN Service from Programs and Features and retry"))
      verifyManagedBinary plan.bundle
      ensureExpectedServiceConfig candidateImagePath
      startAndWait.run
      verifyRunningService plan.bundle.candidate.serviceVersion
      keyringFile.run (installVerifiedKeyringBytes plan.bundle.keyringBytes)
      pure .current
    | .install =>
      runUpgrade bundle plan.bundle none
        (ServiceUpgradeJournal.new plan.bundle.candidate none candidateImagePath)
    | .upgrade => do
      let installed ← lift (match plan.installed with
        | some installed => .ok installed
        | none => .error (.new .recoveryIncomplete
          "upgrade decision lost the installed service record"))
      let previous ← previousBinary plan.service (some installed) (.new .recoveryIncomplete
        "installed maintenance service is absent from SCM; remove SE7EN Service from Programs and Features and retry")
      runUpgrade bundle plan.bundle previous
        (ServiceUpgradeJournal.new plan.bundle.candidate (some installed) candidateImagePath)

/-- `install_uninstall_manager` copies the manager, which is not modelled. -/
def ensureSystemService (bundle : Bundle) : SetupProg EnsureServiceResult := do
  let outcome ← installSystemService bundle
  (inquire (.new .transactionIo
    "the uninstall manager cannot be installed beside the service")).run
  let write : Step Machine MaintenanceError Unit := {
    effect := fun m => .ok ((), { m with uninstallEntry := true })
    fault := .new .registryIo "Programs and Features entry for the service cannot be written" }
  write.run
  pure outcome

end Install

/-! ### Removing -/

inductive RemoveServiceResult where
  | removed
  | absent
  deriving DecidableEq, Repr

/-- A document without those of its files that are named. -/
def dropFiles (file : ServiceFile) (path temporary backup : Bool) : ServiceFile where
  path := if path then none else file.path
  temporary := if temporary then none else file.temporary
  backup := if backup then none else file.backup

/-- The bits of `subset` tell which files of the protected directory are gone. -/
def Machine.without (m : Machine) (subset : Nat) : Machine :=
  { m with
    release := dropFiles m.release (subset.testBit 0) (subset.testBit 1) (subset.testBit 2)
    journal := dropFiles m.journal (subset.testBit 3) (subset.testBit 4) (subset.testBit 5)
    keyring := dropFiles m.keyring (subset.testBit 6) (subset.testBit 7) (subset.testBit 8) }

/-- `remove_dir_all`, which may stop behind any of the files. -/
def removeDirAll : Step Machine MaintenanceError Unit where
  effect m := .ok ((), m.without (2 ^ 9 - 1))
  fault := .new .transactionIo "protected service state could not be removed"
  torn n m := m.without n
  failed
    | .before, m => m
    | .within n, m => m.without n
    | .after, m => m.without (2 ^ 9 - 1)

def recordRemoval : MaintenanceError :=
  .new .transactionIo "service release record could not be removed"

/-- `remove_service_state` up to `remove_state_directory`; a directory that cannot be opened is
left alone. -/
def deleteServiceDocuments : SetupProg Bool := do
  match ← attempt openServiceDataDirectory.run with
  | .error _ => pure false
  | .ok () => do
    releaseFile.run (removeServiceFile recordRemoval)
    journalFile.run (removeServiceFile recordRemoval)
    pure true

def removeServiceState : SetupProg Unit := do
  if ← deleteServiceDocuments then
    removeDirAll.run

def deleteUninstallEntry : Step Machine MaintenanceError Unit where
  effect m := .ok ((), { m with uninstallEntry := false })
  fault := .new .registryIo "Programs and Features entry for the service cannot be written"

/-- `remove_installed_manager` cannot fail, and the manager is not modelled. -/
def removeInstalledFiles : SetupProg Unit := do
  deleteUninstallEntry.run
  deleteManagedFile .service
  deleteManagedFile .candidate
  deleteManagedFile .previous

def removeComponentLeftovers : SetupProg Unit := do
  removeInstalledFiles
  removeServiceState

/-- `remove_system_service` up to the leftovers. -/
def deleteSystemService [Platform] : SetupProg RemoveServiceResult := do
  openSetupManager.run
  if ← openSetupService.run then
    let _ ← supportedPreviousBinaryRelativePath
    stopAndWait.run
    (deleteService (.new .transactionIo "maintenance service could not be deleted")).run
    pure .removed
  else
    pure .absent

def removeSystemService [Platform] : SetupProg RemoveServiceResult := do
  let result ← deleteSystemService
  removeComponentLeftovers
  pure result

end Installer

end Se7en
