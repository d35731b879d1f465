import Se7enService.DirectUpdate
import Se7enService.ServiceFile
import Se7enService.Trust
set_option autoImplicit false

/-! The calls of the direct update helper: the signed documents, the receipt of the release
that was accepted last, and the job behind them. -/

namespace Se7en
open Faulty

/-- Other programs touch targets only. -/
instance : Outside Intrusion ServiceFile := ⟨fun _ s => s⟩

namespace Direct

def maxDirectManifest : Nat := 65536

/-- `document` is what opening and reading the file gives. -/
def readBoundedTo (document : Result Bytes) (maximum : Nat) : Result Bytes := do
  let bytes ← document
  if bytes.length > maximum then
    throw (.new .manifestTooLarge "signed launcher update document is too large")
  pure bytes

structure AcceptedRelease where
  keyring : Keyring
  fileSet : FileSet

instance : Serialize AcceptedRelease where
  toValue release := .object [("fileSet", toValue release.fileSet), ("keyring", toValue release.keyring)]

/-- The files of the launcher's root, and the receipt with its `.new` file. -/
structure UpdateState where
  disk : Disk
  receipt : ServiceFile

abbrev UpdateProg (α : Type) := Prog UpdateState MaintenanceError Intrusion α

def UpdateState.onDisk : Part UpdateState Disk where
  get s := s.disk
  set disk s := { s with disk }

def UpdateState.onReceipt : Part UpdateState ServiceFile where
  get s := s.receipt
  set receipt s := { s with receipt }

/-- What a call finds outside of the update directory; `thumbprints` is what WinVerifyTrust
tells of the signer of an opened file, and `staged` the files below the staging root. -/
structure Inputs where
  keyring : Result Bytes
  manifest : Result Bytes
  executable : Result Bytes
  stagingRoot : Result Unit
  staged : String → Result (Option (List Bytes))
  thumbprints : Bytes → Result (String × String)

/-- The handles that the platform reads the staging files from. -/
def Inputs.staging (inputs : Inputs) : Staging := fun path => do
  match ← inputs.staged path with
  | some chunks => pure chunks
  | none => throw (.new .stagingInvalid "staging payload was not pre-opened as the caller")

theorem readBoundedTo_eq_ok {document : Result Bytes} {maximum : Nat} {bytes : Bytes}
    (h : readBoundedTo document maximum = .ok bytes) : document = .ok bytes := by
  obtain ⟨read, hread, h⟩ := Result.bind_eq_ok.mp h
  by_cases hlength : read.length > maximum
  · simp [hlength] at h
  · simp only [hlength, if_false] at h
    rw [hread, Except.ok.inj h]

/-! ### The receipt -/

/-- `replace_document`; `move_atomic` replaces the old receipt. -/
def replaceDocument (bytes : Bytes) : Prog ServiceFile MaintenanceError Intrusion Unit := do
  if ← look (·.temporary.isSome) then
    (removeTemporary (ioError "handle-based file deletion failed")).run
  (createTemporary (ioError "file handle cannot be opened under the locked root")).run
  (writeTemporary bytes (ioError "update receipt cannot be written")).run
  (syncTemporary bytes (ioError "update receipt cannot be flushed")).run
  (renameTemporaryToPath (ioError "direct atomic rename failed")).run

/-- The receipt is the old one or the new one, and the new one when the call returns. -/
theorem wp_replaceDocument (bytes : Bytes) (s : ServiceFile) :
    Wp Quiet (replaceDocument bytes) (fun _ t => t = { s with path := some bytes, temporary := none })
      (fun _ t => t.path = s.path)
      (fun t => t.path = s.path ∨ t.path = some bytes) s := by
  have hwrite : ∀ t : ServiceFile, t.temporary = none → t.path = s.path → t.backup = s.backup →
      Wp Quiet (do
        (createTemporary (ioError "file handle cannot be opened under the locked root")).run
        (writeTemporary bytes (ioError "update receipt cannot be written")).run
        (syncTemporary bytes (ioError "update receipt cannot be flushed")).run
        (renameTemporaryToPath (ioError "direct atomic rename failed")).run :
          Prog ServiceFile MaintenanceError Intrusion Unit)
        (fun _ t => t = { s with path := some bytes, temporary := none }) (fun _ t => t.path = s.path)
        (fun t => t.path = s.path ∨ t.path = some bytes) t := by
    intro t htemporary hpath hbackup
    refine Wp.bind (Wp.step_quiet (.of_ok .plain (a := ()) (t := { t with temporary := some [] })
      (by simp [createTemporary, htemporary]) ?_ hpath (.inl hpath) (.inl hpath)))
    refine Wp.bind (Wp.step_quiet ⟨?_, fun _ heff => (by cases heff), fun c _ => ?_, fun c _ => ?_⟩)
    · intro _ _ heff
      cases heff
      refine Wp.bind (Wp.step_quiet ⟨?_, fun _ heff => (by cases heff), fun c _ => ?_, fun c _ => ?_⟩)
      · intro _ _ heff
        cases heff
        refine Wp.step_quiet (.of_ok .plain rfl ?_ hpath (.inl hpath) (.inr rfl))
        simp [hbackup]
      · cases c <;> exact hpath
      · cases c <;> exact .inl hpath
    · cases c <;> exact hpath
    · cases c <;> exact .inl hpath
  refine Wp.bind (Wp.look ?_)
  cases htemporary : s.temporary with
  | none => exact hwrite s htemporary rfl rfl
  | some old =>
    refine Wp.bind (Wp.step_quiet (.of_ok .plain (a := ()) (t := { s with temporary := none })
      (by simp [removeTemporary, htemporary]) ?_ rfl (.inl rfl) (.inl rfl)))
    exact hwrite _ rfl rfl rfl

namespace DirectContext

section Trust

variable [Unicode] [Sha256] [Ed25519] [Deserialize Keyring] [Deserialize FileSet]

/-- `verify_direct_launcher_plan`. -/
def verifyDirectLauncherPlan (context : DirectContext) (inputs : Inputs) : Result VerifiedFileSet := do
  let keyring ← verifyKeyring (← readBoundedTo inputs.keyring maxDirectManifest) {}
  let manifest ← verifyFileSet (← readBoundedTo inputs.manifest maxDirectManifest) keyring
    { expectedProductId := context.root.productId, previous := none }
  validatePlan manifest.fileSet context.launcher
  pure manifest

variable [Deserialize AcceptedRelease] (context : DirectContext)

def acceptedRelease (receipt : ServiceFile) : Result (Option (VerifiedKeyring × VerifiedFileSet)) :=
  match receipt.path with
  | none => .ok none
  | some document => do
    let bytes ← readBoundedTo (.ok document) (2 * maxDirectManifest)
    let cache : AcceptedRelease ← parseCanonical bytes (2 * maxDirectManifest)
    let keyring ← verifyKeyring (← canonicalJson (toValue cache.keyring)) {}
    let manifest ← verifyFileSet (← canonicalJson (toValue cache.fileSet)) keyring
      { expectedProductId := context.root.productId, previous := none }
    validatePlan manifest.fileSet context.launcher
    pure (some (keyring, manifest))

/-- What a keyring is held against. -/
def acceptance (accepted : Option (VerifiedKeyring × VerifiedFileSet)) : KeyringAcceptance :=
  match accepted with
  | some (old, _) => { minimumVersion := old.keyring.version, currentDigest := some old.digest }
  | none => {}

/-- What a manifest is held against. -/
def previous (accepted : Option (VerifiedKeyring × VerifiedFileSet)) : Option GenerationRecord :=
  accepted.map fun release => release.2.record

def trust (inputs : Inputs) (receipt : ServiceFile) : Result VerifiedKeyring := do
  let accepted ← context.acceptedRelease receipt
  let bytes ← readBoundedTo inputs.keyring maxDirectManifest
  let verified ← verifyKeyring bytes (acceptance accepted)
  let executable ← inputs.executable
  Windows.verifyAuthenticodeSigner inputs.thumbprints executable
    verified.keyring.authenticodeSignerThumbprints
  pure verified

theorem trust_eq_ok {context : DirectContext} {inputs : Inputs} {receipt : ServiceFile}
    {keyring : VerifiedKeyring} (h : context.trust inputs receipt = .ok keyring) :
    ∃ accepted bytes, context.acceptedRelease receipt = .ok accepted ∧ inputs.keyring = .ok bytes ∧
      verifyKeyring bytes (acceptance accepted) = .ok keyring := by
  obtain ⟨accepted, haccepted, h⟩ := Result.bind_eq_ok.mp h
  obtain ⟨bytes, hbytes, h⟩ := Result.bind_eq_ok.mp h
  obtain ⟨verified, hverified, h⟩ := Result.bind_eq_ok.mp h
  obtain ⟨executable, -, h⟩ := Result.bind_eq_ok.mp h
  obtain ⟨⟨⟩, -, h⟩ := Result.bind_eq_ok.mp h
  cases h
  exact ⟨accepted, bytes, haccepted, readBoundedTo_eq_ok hbytes, hverified⟩

end Trust

/-! ### The calls -/

variable [Unicode] [Sha256] (context : DirectContext)

omit [Unicode] [Sha256] in
/-- The installed launcher, opened for its signature. -/
def openLauncher (d : Disk) : Result Bytes :=
  match d.target context.root.canonicalPath (targetPath context.launcher) with
  | none => .error (.new .rootIdentity "installed launcher is absent")
  | some .directory =>
    .error (.new .transactionIo "file handle cannot be opened under the locked root")
  | some .reparse => .error Windows.reparseError
  | some (.file file) => if file.links ≠ 1 then .error unsafePayload else .ok file.content

omit [Unicode] [Sha256] in
/-- The loop over the staging files, which all have to be there. -/
def openStaged (inputs : Inputs) (allowedThumbprints : List String) : List FileEntry → Result Unit
  | [] => .ok ()
  | entry :: entries => do
    match ← inputs.staged entry.path with
    | none => throw (.new .stagingInvalid "launcher companion payload is absent")
    | some chunks =>
      if entry.path = context.launcher then
        Windows.verifyAuthenticodeSigner inputs.thumbprints chunks.flatten allowedThumbprints
      openStaged inputs allowedThumbprints entries

variable [Ed25519] [Deserialize Keyring] [Deserialize FileSet] [Deserialize AcceptedRelease]
  [Deserialize JournalHeader] [Deserialize JournalStateRecord]

def prepareDirectLauncherUpdate (inputs : Inputs) : UpdateProg PreparedJob := do
  let keyring ← lift (← look fun s => context.trust inputs s.receipt)
  UpdateState.onDisk.run context.recovery
  let accepted ← lift (← look fun s => context.acceptedRelease s.receipt)
  let manifestBytes ← lift (readBoundedTo inputs.manifest maxDirectManifest)
  let manifest ← lift (verifyFileSet manifestBytes keyring
    { expectedProductId := context.root.productId, previous := previous accepted })
  lift (validatePlan manifest.fileSet context.launcher)
  let signers := keyring.keyring.authenticodeSignerThumbprints
  let current ← lift (← look fun s => context.openLauncher s.disk)
  lift (Windows.verifyAuthenticodeSigner inputs.thumbprints current signers)
  lift inputs.stagingRoot
  lift (context.openStaged inputs signers manifest.fileSet.files)
  let prepared ← UpdateState.onDisk.run (context.toDirectPlatform.platform.prepareFileSet manifest
    context.root true inputs.staging context.policy)
  let release : AcceptedRelease := { keyring := keyring.keyring, fileSet := manifest.fileSet }
  let cache ← lift (canonicalJson (toValue release))
  match ← attempt (UpdateState.onReceipt.run (replaceDocument cache)) with
  | .ok () => pure prepared
  | .error e =>
    UpdateState.onDisk.run context.recovery
    throw e

def recoverDirectLauncherUpdate (inputs : Inputs) : UpdateProg Unit := do
  let _ ← lift (← look fun s => context.trust inputs s.receipt)
  UpdateState.onDisk.run context.recovery

/-! ### What a preparation accepts -/

/-- The documents that were given, held against the receipt. -/
def Accepts (inputs : Inputs) (receipt : ServiceFile) (keyring : VerifiedKeyring)
    (manifest : VerifiedFileSet) : Prop :=
  ∃ accepted keyringBytes manifestBytes, context.acceptedRelease receipt = .ok accepted ∧
    inputs.keyring = .ok keyringBytes ∧ inputs.manifest = .ok manifestBytes ∧
    verifyKeyring keyringBytes (acceptance accepted) = .ok keyring ∧
    verifyFileSet manifestBytes keyring
      { expectedProductId := context.root.productId, previous := previous accepted } = .ok manifest

end DirectContext

/-- This release is the one that the receipt tells of. -/
def Records [Unicode] (receipt : ServiceFile) (keyring : VerifiedKeyring)
    (manifest : VerifiedFileSet) : Prop :=
  ∃ document, canonicalJson (toValue (AcceptedRelease.mk keyring.keyring manifest.fileSet)) =
    .ok document ∧ receipt.path = some document

end Direct

end Se7en
