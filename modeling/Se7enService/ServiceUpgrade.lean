import Se7enService.Error
import Se7enService.Faulty
import Mathlib.Data.Prod.Lex
set_option autoImplicit false

/-! `service_upgrade.rs`: releases, the upgrade journal, and the steps of an upgrade. -/

namespace Se7en
open Faulty

/-! ### Versions -/

structure ServiceVersion where
  major : UInt64
  minor : UInt64
  patch : UInt64
  deriving DecidableEq, Repr

namespace ServiceVersion

def invalidVersion : MaintenanceError :=
  .new .protocolVersion "service version must contain exactly three canonical numeric components"

def parseVersionComponent (value : List Char) : Result UInt64 := do
  rejectIf (value.isEmpty || (value.length > 1 && value.head? = some '0')
    || !value.all Char.isDigit) invalidVersion
  match parseU64 value with
  | some component => .ok component
  | none => .error invalidVersion

def parse (value : String) : Result ServiceVersion :=
  match split '.' value.toList with
  | [majorText, minorText, patchText] => do
    let major ← parseVersionComponent majorText
    let minor ← parseVersionComponent minorText
    let patch ← parseVersionComponent patchText
    pure { major, minor, patch }
  | _ => .error invalidVersion

/-- `Display`. -/
def text (v : ServiceVersion) : String :=
  toString v.major.toNat ++ "." ++ toString v.minor.toNat ++ "." ++ toString v.patch.toNat

/-- The derived order compares the components from the left. -/
def order (v : ServiceVersion) : ℕ ×ₗ ℕ ×ₗ ℕ :=
  toLex (v.major.toNat, toLex (v.minor.toNat, v.patch.toNat))

end ServiceVersion

/-! ### Releases -/

def serviceBundleProductId : String := "7launcher-maintenance"
def releaseRecordKind : String := "7launcher-maintenance-service-release-v1"
def upgradeJournalKind : String := "7launcher-maintenance-service-upgrade-v1"
def documentSchema : UInt64 := 1
def maxImagePathBytes : Nat := 4096
def protocolMajor : UInt64 := 1

structure ServiceReleaseRecord where
  digest : String
  generation : UInt64
  kind : String
  schema : UInt64
  serviceVersion : String
  deriving DecidableEq, Repr

namespace ServiceReleaseRecord

def validate (record : ServiceReleaseRecord) : Result Unit := do
  rejectIf (record.kind ≠ releaseRecordKind || record.schema ≠ documentSchema
      || record.generation = 0)
    (.new .transactionState "service release record kind, schema, or generation is invalid")
  let _ ← ServiceVersion.parse record.serviceVersion
  let _ ← decodeLowerHex 32 record.digest .generationConflict
  pure ()

def new (serviceVersion : String) (generation : UInt64) (digest : Vector UInt8 32) :
    Result ServiceReleaseRecord := do
  let record : ServiceReleaseRecord := {
    digest := encodeHex digest.toList
    generation
    kind := releaseRecordKind
    schema := documentSchema
    serviceVersion }
  record.validate
  pure record

def version (record : ServiceReleaseRecord) : Result ServiceVersion :=
  ServiceVersion.parse record.serviceVersion

end ServiceReleaseRecord

inductive UpgradeDecision where
  | install
  | keepCompatible
  | upgrade
  deriving DecidableEq, Repr

inductive EnsureServiceOutcome where
  | installed
  | upgraded
  deriving DecidableEq, Repr

def decideServiceUpgrade (candidate : ServiceReleaseRecord)
    (installed : Option ServiceReleaseRecord) : Result UpgradeDecision := do
  candidate.validate
  let candidateVersion ← candidate.version
  rejectIf (candidateVersion.major ≠ protocolMajor)
    (.new .protocolVersion "candidate service major is incompatible with IPC v1")
  match installed with
  | none => pure .install
  | some installed => do
    installed.validate
    let installedVersion ← installed.version
    rejectIf (installedVersion.major ≠ candidateVersion.major)
      (.new .protocolVersion "cross-major maintenance service upgrade is forbidden")
    if candidateVersion.order < installedVersion.order then
      .error (.new .fileSetRollback
        "candidate maintenance service version is older than the installed version")
    else if candidateVersion = installedVersion then
      if candidate.digest = installed.digest then pure .keepCompatible
      else .error (.new .generationConflict
        "one service version cannot identify different service bytes")
    else pure .upgrade

/-! ### The journal -/

inductive UpgradePhase where
  | staged
  | oldStopped
  | configSwitched
  | healthy
  deriving DecidableEq, Repr

/-- The one phase that may follow. -/
def UpgradePhase.next : UpgradePhase → Option UpgradePhase
  | .staged => some .oldStopped
  | .oldStopped => some .configSwitched
  | .configSwitched => some .healthy
  | .healthy => none

structure ServiceUpgradeJournal where
  candidate : ServiceReleaseRecord
  candidateImagePath : String
  kind : String
  phase : UpgradePhase
  previous : Option ServiceReleaseRecord
  schema : UInt64
  deriving DecidableEq, Repr

def validateImagePath (path : String) : Result Unit :=
  rejectIf (path.isEmpty || byteLength path > maxImagePathBytes || path.toList.contains '\x00')
    (.new .transactionState "service ImagePath is empty, oversized, or contains NUL")

namespace ServiceUpgradeJournal

def validate (journal : ServiceUpgradeJournal) : Result Unit := do
  rejectIf (journal.kind ≠ upgradeJournalKind || journal.schema ≠ documentSchema)
    (.new .transactionState "service upgrade journal kind or schema is invalid")
  journal.candidate.validate
  match journal.previous with
  | some previous => previous.validate
  | none => pure ()
  validateImagePath journal.candidateImagePath

def new (candidate : ServiceReleaseRecord) (previous : Option ServiceReleaseRecord)
    (candidateImagePath : String) : Result ServiceUpgradeJournal := do
  let journal : ServiceUpgradeJournal := {
    candidate
    candidateImagePath
    kind := upgradeJournalKind
    phase := .staged
    previous
    schema := documentSchema }
  journal.validate
  pure journal

def advance (journal : ServiceUpgradeJournal) (next : UpgradePhase) :
    Result ServiceUpgradeJournal := do
  rejectIf (journal.phase.next ≠ some next)
    (.new .transactionState "service upgrade journal transition is invalid")
  pure { journal with phase := next }

theorem advance_of_next {journal : ServiceUpgradeJournal} {next : UpgradePhase}
    (h : journal.phase.next = some next) :
    journal.advance next = .ok { journal with phase := next } := by
  simp [advance, h, rejectIf]

end ServiceUpgradeJournal

/-! ### The steps of an upgrade -/

/-- What an upgrade asks of the machine. -/
structure ServiceUpgradePlatform (σ μ : Type) where
  persistJournal : ServiceUpgradeJournal → Prog σ MaintenanceError μ Unit
  stopService : Prog σ MaintenanceError μ Unit
  activateCandidate : ServiceUpgradeJournal → Prog σ MaintenanceError μ Unit
  verifyCandidateHealth : ServiceUpgradeJournal → Prog σ MaintenanceError μ Unit
  rollbackService : ServiceUpgradeJournal → Prog σ MaintenanceError μ Unit
  finalizeUpgrade : ServiceUpgradeJournal → Prog σ MaintenanceError μ Unit
  clearJournal : Prog σ MaintenanceError μ Unit

section Execute

variable {σ μ : Type} (platform : ServiceUpgradePlatform σ μ)

/-- The turn of the loop for each phase, and the turns behind it. -/
def upgradeHealthy (journal : ServiceUpgradeJournal) :
    Prog σ MaintenanceError μ EnsureServiceOutcome := do
  platform.finalizeUpgrade journal
  platform.clearJournal
  pure (if journal.previous.isSome then .upgraded else .installed)

def rollbackUpgrade (journal : ServiceUpgradeJournal) (healthError : MaintenanceError) :
    Prog σ MaintenanceError μ EnsureServiceOutcome := do
  match ← attempt (platform.rollbackService journal) with
  | .error _ =>
    throw (.new .recoveryIncomplete
      "candidate service failed health-check and rollback did not complete")
  | .ok () =>
    match ← attempt platform.clearJournal with
    | .error _ =>
      throw (.new .recoveryIncomplete "rolled-back service upgrade journal could not be cleared")
    | .ok () => throw healthError

def upgradeConfigSwitched (journal : ServiceUpgradeJournal) :
    Prog σ MaintenanceError μ EnsureServiceOutcome := do
  match ← attempt (platform.verifyCandidateHealth journal) with
  | .error healthError => rollbackUpgrade platform journal healthError
  | .ok () =>
    let journal ← lift (journal.advance .healthy)
    platform.persistJournal journal
    upgradeHealthy platform journal

def upgradeOldStopped (journal : ServiceUpgradeJournal) :
    Prog σ MaintenanceError μ EnsureServiceOutcome := do
  platform.activateCandidate journal
  let journal ← lift (journal.advance .configSwitched)
  platform.persistJournal journal
  upgradeConfigSwitched platform journal

def upgradeStaged (journal : ServiceUpgradeJournal) :
    Prog σ MaintenanceError μ EnsureServiceOutcome := do
  platform.stopService
  let journal ← lift (journal.advance .oldStopped)
  platform.persistJournal journal
  upgradeOldStopped platform journal

def executeServiceUpgrade (journal : ServiceUpgradeJournal) :
    Prog σ MaintenanceError μ EnsureServiceOutcome := do
  lift journal.validate
  platform.persistJournal journal
  match journal.phase with
  | .staged => upgradeStaged platform journal
  | .oldStopped => upgradeOldStopped platform journal
  | .configSwitched => upgradeConfigSwitched platform journal
  | .healthy => upgradeHealthy platform journal

end Execute

end Se7en
