import Se7enService.ReleaseOrder
set_option autoImplicit false

/-! The binary of the previous release, over any number of `ensure-service` runs. -/

namespace Se7en
open Faulty

/-- A part of an encoded journal is decoded only where it is all of it. -/
theorem decodeUpgradeJournal_take [Deserialize ServiceUpgradeJournal]
    {journal journal' : ServiceUpgradeJournal} {bytes : Bytes} {n : Nat}
    (hencode : encodeUpgradeJournal journal = .ok bytes)
    (hdecode : decodeUpgradeJournal (bytes.take n) = .ok journal') :
    journal' = journal ∧ bytes.take n = bytes := by
  obtain ⟨-, -, hjson⟩ := Result.bind_eq_ok.mp hencode
  obtain ⟨document, hparse, hdecode⟩ := Result.bind_eq_ok.mp hdecode
  obtain ⟨-, -, hdecode⟩ := Result.bind_eq_ok.mp hdecode
  cases hdecode
  exact parseCanonical_take (fun _ => ⟨_, rfl⟩) hjson hparse

theorem decideServiceUpgrade_ne_install {candidate record : ServiceReleaseRecord} :
    decideServiceUpgrade candidate (some record) ≠ .ok .install := by
  intro h
  obtain ⟨-, -, h⟩ := Result.bind_eq_ok.mp h
  obtain ⟨version', hversion', h⟩ := Result.bind_eq_ok.mp h
  obtain ⟨-, -, h⟩ := Result.bind_eq_ok.mp h
  obtain ⟨-, -, h⟩ := Result.bind_eq_ok.mp h
  obtain ⟨version, hversion, h⟩ := Result.bind_eq_ok.mp h
  obtain ⟨-, -, h⟩ := Result.bind_eq_ok.mp h
  split at h
  · cases h
  · split at h
    · split at h <;> cases h
    · cases h

theorem decideServiceUpgrade_upgrade_ne {candidate record : ServiceReleaseRecord}
    (h : decideServiceUpgrade candidate (some record) = .ok .upgrade) : candidate ≠ record := by
  rintro rfl
  obtain ⟨-, -, h⟩ := Result.bind_eq_ok.mp h
  obtain ⟨version', hversion', h⟩ := Result.bind_eq_ok.mp h
  obtain ⟨-, -, h⟩ := Result.bind_eq_ok.mp h
  obtain ⟨-, -, h⟩ := Result.bind_eq_ok.mp h
  obtain ⟨version, hversion, h⟩ := Result.bind_eq_ok.mp h
  obtain rfl := Except.ok.inj (hversion.symm.trans hversion')
  obtain ⟨-, -, h⟩ := Result.bind_eq_ok.mp h
  simp at h

/-- Where there was a document, a replacement leaves all of it or all of the new one. -/
theorem Replacing.settled_whole {old bytes : Bytes} {s : ServiceFile}
    (h : Replacing (some old) bytes s) : s.settled = some old ∨ s.settled = some bytes := by
  cases h with
  | writing => exact .inl rfl
  | moved => exact .inr rfl
  | activated => exact .inr rfl
  | finished => exact .inr rfl

/-- What a replacement of a recovered document leaves to the next recovery. -/
def ServiceFile.Renewed (old : Option Bytes) (bytes : Bytes) (s : ServiceFile) : Prop :=
  s.settled = old ∨ ∃ n, s.settled = some (bytes.take n) ∧ (old ≠ none → bytes.take n = bytes)

theorem Replacing.renewed {old : Option Bytes} {bytes : Bytes} {s : ServiceFile}
    (h : Replacing old bytes s) (hinitial : ∀ t ∈ s.temporary, t <+: bytes) :
    s.Renewed old bytes := by
  cases old with
  | none =>
    rcases h.settled hinitial with hsame | ⟨n, hn⟩
    · exact .inl hsame
    · exact .inr ⟨n, hn, fun hne => absurd rfl hne⟩
  | some old =>
    rcases h.settled_whole with hsame | hnew
    · exact .inl hsame
    · exact .inr ⟨bytes.length, by simpa using hnew, fun _ => by simp⟩

theorem replace_renewed {A : Event Empty → Prop} (bytes : Bytes) (old : Option Bytes) :
    Wp A (replaceServiceFile bytes) (fun _ t => t = ⟨some bytes, none, none⟩)
      (fun _ => ServiceFile.Renewed old bytes) (ServiceFile.Renewed old bytes)
      ⟨old, none, none⟩ := by
  refine (replace_spec.and (replace_initial bytes ⟨old, none, none⟩ (by simp))).mono ?_ ?_ ?_
  · exact fun _ _ h => h.1
  · exact fun _ _ h => h.1.1.renewed h.2
  · exact fun _ h => h.1.renewed h.2

namespace Installer

variable {α : Type}

/-! ### What a run finds -/

/-- The executables that an upgrade must not lose, and the documents as the next run reads
them. -/
structure Footing where
  files : ManagedFile → Option Bytes
  imagePath : Option String
  release : Option Bytes
  journal : Option Bytes

/-- The candidate is staged again by every run. -/
def Machine.footing (m : Machine) : Footing where
  files
    | .candidate | .candidateNew => none
    | file => m.files file
  imagePath := m.service.map (·.imagePath)
  release := m.release.settled
  journal := m.journal.settled

theorem spares_footing {file : ManagedFile} (h : file = .candidate ∨ file = .candidateNew) :
    Spares Machine.footing file := by
  intro m content
  simp only [Machine.footing, Machine.setFile, Footing.mk.injEq, and_true]
  funext other
  rcases h with rfl | rfl <;> cases other <;> simp [Function.update]

theorem files_of_footing {m : Machine} {file : ManagedFile} {content : Bytes}
    (h : m.footing.files file = some content) : m.files file = some content := by
  cases file <;> first | exact h | cases h

theorem leaves_footing_keyring (p : FileProg α) : Leaves Machine.footing (keyringFile.run p) :=
  Leaves.part (fun _ _ => rfl) p

theorem leaves_footing_stopAndWait : Leaves Machine.footing stopAndWait.run := by
  refine Leaves.whole .plain fun m _ t h => ?_
  cases h
  simp [Machine.footing, Function.comp_def]

theorem leaves_footing_openSetupService : Leaves Machine.footing openSetupService.run :=
  Leaves.whole .plain fun m _ t h => by cases h; rfl

theorem leaves_footing_startAndWait [Platform] : Leaves Machine.footing startAndWait.run := by
  refine Leaves.whole .plain fun m _ t h => ?_
  simp only [startAndWait] at h
  split at h
  · cases h
  · split at h <;> cases h
    simp [Machine.footing, Function.comp_def]

theorem leaves_footing_stopService : Leaves Machine.footing stopService := by
  refine (Leaves.look _).bind fun present => ?_
  cases present with
  | false => exact Leaves.pure ()
  | true => exact leaves_footing_stopAndWait

/-- What a load has returned, going by what a recovery of the file puts at its path. -/
def Loads (decode : Bytes → Result α) : Option Bytes → Option α → Prop
  | none, r => r = none
  | some bytes, r => ∃ document, decode bytes = .ok document ∧ r = some document

theorem wp_footing_load (part : Part Machine ServiceFile) {m : Machine}
    (hset : ∀ file : ServiceFile, file.settled = (part.get m).settled →
      (part.set file m).footing = m.footing) (decode : Bytes → Result α) :
    Wp Anything (part.run (loadDocument decode))
      (fun r t => t.footing = m.footing ∧ Loads decode (part.get m).settled r)
      (fun _ t => t.footing = m.footing) (fun t => t.footing = m.footing) m := by
  refine Wp.part ((wp_loadDocument decode (part.get m)).mono ?_ ?_ ?_)
  · rintro r file ⟨-, rfl, hloads⟩
    refine ⟨hset _ (by cases (part.get m).settled <;> rfl), ?_⟩
    rcases hloads with ⟨hnone, rfl⟩ | ⟨bytes, document, hsome, hdecode, rfl⟩
    · rw [hnone]
      rfl
    · rw [hsome]
      exact ⟨document, hdecode, rfl⟩
  · exact fun _ file h => hset file h.settled
  · exact fun file h => hset file h.settled

/-! ### The binary of the previous release -/

theorem imageFile_ne_previous [Platform] {path : String} : imageFile path ≠ some .previous := by
  simp only [imageFile, supportedPreviousRelativePathForImage]
  split
  · simp
  · split <;> simp

namespace Footing

variable {old : Bytes} {f : Footing}

/-- The binary stands at one of the paths that an upgrade moves it to. -/
def Kept (old : Bytes) (f : Footing) : Prop :=
  f.files .service = some old ∨ f.files .previous = some old ∨
    f.files .previousManaged = some old

section Upgrade

variable [Platform]

/-- The service is started from the binary. -/
def Runs (old : Bytes) (f : Footing) : Prop :=
  ∀ path ∈ f.imagePath, ∀ file ∈ imageFile path, f.files file = some old

omit [Platform] in
/-- The executable that is retained, unless one is retained already, is the binary. -/
def Locates (old : Bytes) (file : ManagedFile) (f : Footing) : Prop :=
  file ≠ .previous ∧ (f.files .previous = none → f.files file = some old)

/-- Where the binary stands as long as the journal is in a phase. -/
def Holds (old : Bytes) : UpgradePhase → Footing → Prop
  | .staged, f => f.files .previous = none ∧ f.Runs old ∧ f.Kept old
  | .oldStopped, f =>
    f.files .previous = some old ∨ (f.files .previous = none ∧ f.Runs old ∧ f.Kept old)
  | .configSwitched, f =>
    f.files .previous = some old ∨ (f.files .previous = none ∧ f.files .service = some old)
  | .healthy, _ => False

theorem Holds.kept {phase : UpgradePhase} (h : f.Holds old phase) : f.Kept old := by
  cases phase with
  | staged => exact h.2.2
  | oldStopped =>
    rcases h with h | ⟨-, -, h⟩
    · exact .inr (.inl h)
    · exact h
  | configSwitched =>
    rcases h with h | ⟨-, h⟩
    · exact .inr (.inl h)
    · exact .inl h
  | healthy => exact h.elim

theorem Holds.locates {phase : UpgradePhase} {path : String} {file : ManagedFile}
    (h : f.Holds old phase) (hretained : phase = .configSwitched → f.files .previous = some old)
    (hpath : f.imagePath = some path) (hfile : imageFile path = some file) :
    f.Locates old file := by
  refine ⟨fun hprevious => imageFile_ne_previous (hprevious ▸ hfile), fun habsent => ?_⟩
  cases phase with
  | staged => exact h.2.1 path hpath file hfile
  | oldStopped =>
    rcases h with h | ⟨-, h, -⟩
    · cases habsent.symm.trans h
    · exact h path hpath file hfile
  | configSwitched => cases habsent.symm.trans (hretained rfl)
  | healthy => exact h.elim

theorem holds_journal {phase : UpgradePhase} {journal : Option Bytes} :
    ({ f with journal } : Footing).Holds old phase ↔ f.Holds old phase := by
  cases phase <;> rfl

variable [Deserialize ServiceReleaseRecord]

/-- The release that is recorded. -/
def Records (record : ServiceReleaseRecord) (f : Footing) : Prop :=
  ∃ bytes, f.release = some bytes ∧ decodeReleaseRecord bytes = .ok record

/-- The upgrade is in the phase of this journal. -/
structure Reached (record : ServiceReleaseRecord) (old : Bytes) (journal : ServiceUpgradeJournal)
    (f : Footing) : Prop where
  recorded : f.Records record
  previous : journal.previous = some record
  candidate : journal.candidate ≠ record
  holds : f.Holds old journal.phase

/-- The release is installed, and no upgrade of it has begun. -/
structure Installed (record : ServiceReleaseRecord) (old : Bytes) (f : Footing) : Prop where
  journal : f.journal = none
  recorded : f.Records record
  holds : f.Holds old .staged

/-- No upgrade is under way, or the journal of one, or a part of its first one, is found. -/
def Upgrading (record : ServiceReleaseRecord) (old : Bytes) (f : Footing) : Prop :=
  f.Installed record old ∨
    ∃ journal bytes n, f.Reached record old journal ∧
      encodeUpgradeJournal journal = .ok bytes ∧ f.journal = some (bytes.take n)

omit [Platform] [Deserialize ServiceReleaseRecord] in
/-- The new release has been found healthy: its journal says so, or it is recorded. -/
def Accepted (record : ServiceReleaseRecord) (f : Footing) : Prop :=
  (∃ journal bytes, journal.previous = some record ∧ journal.phase = .healthy ∧
    encodeUpgradeJournal journal = .ok bytes ∧ f.journal = some bytes) ∨
  ∃ candidate bytes, candidate ≠ record ∧ encodeReleaseRecord candidate = .ok bytes ∧
    f.release = some bytes

omit [Platform] [Deserialize ServiceReleaseRecord] in
/-- The journal says that the candidate is live, and the binary has been restored over it. -/
def Exposed (f : Footing) : Prop :=
  ∃ journal bytes, encodeUpgradeJournal journal = .ok bytes ∧ f.journal = some bytes ∧
    journal.phase = .configSwitched ∧ f.files .previous = none

def Safe (record : ServiceReleaseRecord) (old : Bytes) (f : Footing) : Prop :=
  f.Upgrading record old ∨ f.Accepted record

variable {record : ServiceReleaseRecord}

theorem Upgrading.kept (h : f.Upgrading record old) : f.Kept old := by
  rcases h with ⟨-, -, h⟩ | ⟨_, _, _, h, -, -⟩
  · exact h.kept
  · exact h.holds.kept

theorem Reached.upgrading {journal : ServiceUpgradeJournal} {bytes : Bytes}
    (h : f.Reached record old journal) (hencode : encodeUpgradeJournal journal = .ok bytes)
    (hjournal : f.journal = some bytes) : f.Upgrading record old :=
  .inr ⟨journal, bytes, bytes.length, h, hencode, by simpa using hjournal⟩

/-- What is found where a journal is being persisted. -/
def Persists (journal : ServiceUpgradeJournal) (f g : Footing) : Prop :=
  g = f ∨ ∃ bytes n, encodeUpgradeJournal journal = .ok bytes ∧
    (f.journal ≠ none → bytes.take n = bytes) ∧ g = { f with journal := some (bytes.take n) }

omit [Platform] [Deserialize ServiceReleaseRecord] in
theorem Persists.refl {journal : ServiceUpgradeJournal} : f.Persists journal f := .inl rfl

end Upgrade

end Footing

section Steps

/-- A journal is persisted over the one that was found. -/
theorem wp_persistJournal (journal : ServiceUpgradeJournal) (m : Machine) :
    Wp Anything (persistJournal journal)
      (fun _ t => ∃ bytes, encodeUpgradeJournal journal = .ok bytes ∧
        t.footing = { m.footing with journal := some bytes })
      (fun _ t => m.footing.Persists journal t.footing)
      (fun t => m.footing.Persists journal t.footing) m := by
  have hsame : ∀ file : ServiceFile, file.settled = m.journal.settled →
      m.footing.Persists journal (journalFile.set file m).footing := by
    intro file h
    exact .inl (by simp [Machine.footing, journalFile, h])
  unfold persistJournal
  refine Wp.bind (Wp.part ((recover_settled m.journal).mono ?_ ?_ ?_))
  · rintro _ _ ⟨-, rfl⟩
    have hsettled : (⟨m.journal.settled, none, none⟩ : ServiceFile).settled = m.journal.settled := by
      cases m.journal.settled <;> rfl
    refine Wp.bind (Wp.lift (fun bytes hbytes => ?_) fun _ _ => hsame _ hsettled)
    have hpersists : ∀ file : ServiceFile, file.Renewed m.journal.settled bytes →
        m.footing.Persists journal (journalFile.set file m).footing := by
      rintro file (h | ⟨n, hn, hwhole⟩)
      · exact hsame file h
      · exact .inr ⟨bytes, n, hbytes, hwhole, by simp [Machine.footing, journalFile, hn]⟩
    refine Wp.part ((replace_renewed bytes m.journal.settled).mono ?_ ?_ ?_)
    · rintro _ _ rfl
      exact ⟨bytes, hbytes, rfl⟩
    · exact fun _ file h => hpersists file h
    · exact fun file h => hpersists file h
  · exact fun _ file h => hsame file h.2.settled
  · exact fun file h => hsame file h.settled

/-- The journal is found as it was, or it is gone. -/
theorem wp_clearJournal (m : Machine) :
    Wp Anything clearJournal (fun _ t => t.footing = { m.footing with journal := none })
      (fun _ t => t.footing = m.footing ∨ t.footing = { m.footing with journal := none })
      (fun t => t.footing = m.footing ∨ t.footing = { m.footing with journal := none }) m := by
  have hsame : ∀ file : ServiceFile, file.settled = m.journal.settled →
      (journalFile.set file m).footing = m.footing := by
    intro file h
    simp [Machine.footing, journalFile, h]
  have hsettled : (⟨m.journal.settled, none, none⟩ : ServiceFile).settled = m.journal.settled := by
    cases m.journal.settled <;> rfl
  unfold clearJournal
  refine Wp.bind (Wp.part ((recover_settled m.journal).mono ?_ ?_ ?_))
  · rintro _ _ ⟨-, rfl⟩
    refine Wp.part (remove_spec.mono ?_ ?_ ?_)
    · rintro _ _ rfl
      rfl
    · rintro _ _ ⟨-, rfl⟩
      exact .inl (hsame _ hsettled)
    · rintro _ (rfl | rfl)
      · exact .inl (hsame _ hsettled)
      · exact .inr rfl
  · exact fun _ file h => .inl (hsame file h.2.settled)
  · exact fun file h => .inl (hsame file h.settled)

/-- The retained binary, and the documents. -/
def Machine.retained (m : Machine) : Option Bytes × Option Bytes × Option Bytes :=
  (m.files .previous, m.release.settled, m.journal.settled)

theorem offService_retained : OffService Machine.retained := ⟨fun _ _ => rfl, fun _ _ => rfl⟩

theorem spares_retained {file : ManagedFile} (h : file ≠ .previous) :
    Spares Machine.retained file := by
  intro m content
  simp [Machine.retained, Machine.setFile, Function.update, h.symm]

theorem retained_of_footing {m t : Machine} (h : t.footing = m.footing) :
    t.retained = m.retained := by
  have hfiles : t.footing.files .previous = m.footing.files .previous := by rw [h]
  have hrelease : t.footing.release = m.footing.release := by rw [h]
  have hjournal : t.footing.journal = m.footing.journal := by rw [h]
  exact Prod.ext hfiles (Prod.ext hrelease hjournal)

section Activation

variable {old : Bytes} {file : ManagedFile} {m : Machine}

/-- The binary is where it was, or it is retained. -/
def Retains (old : Bytes) (m t : Machine) : Prop :=
  t.footing = m.footing ∨ t.retained = (some old, m.release.settled, m.journal.settled)

/-- Activation retains the binary that the service runs, unless it has done so before. -/
theorem wp_activateStagedServiceBinary (hfile : file ≠ .previous)
    (h : m.files .previous = some old ∨ m.files .previous = none ∧ m.files file = some old) :
    Wp Anything (activateStagedServiceBinary (some file))
      (fun _ t => t.retained = (some old, m.release.settled, m.journal.settled))
      (fun _ => Retains old m) (Retains old m) m := by
  have hmove (fault : MaintenanceError) := leaves_renameHandleRelative
    (spares_retained (by decide : ManagedFile.candidate ≠ .previous))
    (spares_retained (by decide : ManagedFile.service ≠ .previous)) fault
  have hrest : ∀ {k : Option Bytes → SetupProg Unit}, Leaves Machine.retained (k none) →
      (∀ content, Leaves Machine.retained (k (some content))) → ∀ t : Machine,
        t.retained = (some old, m.release.settled, m.journal.settled) →
        Wp Anything ((openRelativeFile .candidate).run >>= k)
          (fun _ t => t.retained = (some old, m.release.settled, m.journal.settled))
          (fun _ => Retains old m) (Retains old m) t :=
    fun hnone hsome t ht => (leaves_opened hnone hsome _ t ht).mono (fun _ _ h => h)
      (fun _ _ => .inr) fun _ => .inr
  unfold activateStagedServiceBinary
  refine Wp.bind (Wp.step_alone (.of_ok .plain (a := m.files .previous) (t := m) rfl ?_ (.inl rfl)
    (.inl rfl) (.inl rfl)))
  rcases h with h | ⟨habsent, hlive⟩
  · have hretained : m.retained = (some old, m.release.settled, m.journal.settled) := by
      rw [Machine.retained, h]
    rw [h]
    refine Wp.bind ((leaves_deleteManagedFile (spares_retained
      (by decide : ManagedFile.service ≠ .previous)) _ m hretained).mono ?_ (fun _ _ => .inr) fun _ => .inr)
    exact fun _ t ht => hrest (Leaves.throw _) (fun _ => hmove _) t ht
  · rw [habsent]
    refine Wp.bind (Wp.step_alone (.of_ok .plain (a := some old) (t := m) ?_ ?_ (.inl rfl)
      (.inl rfl) (.inl rfl)))
    · simp [openRelativeFile, hlive]
    · let t := (m.setFile .previous (some old)).setFile file none
      have ht : t.retained = (some old, m.release.settled, m.journal.settled) := by
        simp [t, Machine.retained, Machine.setFile, Function.update, hfile.symm]
      refine Wp.bind (Wp.step_alone (.of_ok .plain (a := ()) (t := t) ?_
        (hrest (Leaves.throw _) (fun _ => hmove _) t ht) (.inl rfl) (.inl rfl) (.inr ht)))
      simp [renameHandleRelative, habsent, hlive, t]

theorem wp_activateCandidate [Platform] {journal : ServiceUpgradeJournal}
    (hfile : file ≠ .previous)
    (h : m.files .previous = some old ∨ m.files .previous = none ∧ m.files file = some old) :
    Wp Anything (activateCandidate (some file) journal)
      (fun _ t => t.retained = (some old, m.release.settled, m.journal.settled))
      (fun _ => Retains old m) (Retains old m) m := by
  have hconfigure : Leaves Machine.retained (do
      configureSystemService.run
      provisionServiceDataDirectory.run : SetupProg Unit) :=
    (Leaves.inquire _ _).bind fun _ => Leaves.inquire _ _
  have hswitch : Leaves Machine.retained (do
      requireService
      let current ← queryServiceConfig.run
      if current ≠ journal.candidateImagePath then
        (changeServiceImagePath journal.candidateImagePath).run
      configureSystemService.run
      provisionServiceDataDirectory.run : SetupProg Unit) := by
    refine (leaves_requireService _).bind fun _ => (leaves_queryServiceConfig _).bind
      fun current => ?_
    dsimp only
    split
    · exact (leaves_changeServiceImagePath offService_retained _).bind fun _ => hconfigure
    · exact hconfigure
  have hrest : Leaves Machine.retained (do
      if ← look (!·.handle) then
        createSystemService managedBinaryPath
        let _ ← openSetupService.run
      requireService
      let current ← queryServiceConfig.run
      if current ≠ journal.candidateImagePath then
        (changeServiceImagePath journal.candidateImagePath).run
      configureSystemService.run
      provisionServiceDataDirectory.run : SetupProg Unit) := by
    refine (Leaves.look _).bind fun absent => ?_
    cases absent with
    | false => exact hswitch
    | true =>
      exact (leaves_createSystemService offService_retained _).bind fun _ =>
        (leaves_openSetupService offService_retained).bind fun _ => hswitch
  unfold activateCandidate
  refine Wp.bind (Wp.lift (fun _ _ => ?_) fun _ _ => .inl rfl)
  refine Wp.bind ((wp_activateStagedServiceBinary hfile h).mono ?_ (fun _ _ h => h) fun _ h => h)
  exact fun _ t ht => (hrest _ t ht).mono (fun _ _ h => h) (fun _ _ => .inr) fun _ => .inr

end Activation

section Undoing

variable {old : Bytes} {m : Machine}

/-- The live and the retained binary, and the documents. -/
def Machine.restored (m : Machine) : Option Bytes × Option Bytes × Option Bytes × Option Bytes :=
  (m.files .service, m.retained)

theorem offService_restored : OffService Machine.restored := ⟨fun _ _ => rfl, fun _ _ => rfl⟩

/-- The binary is retained, or it is live again. -/
def Undoes (old : Bytes) (m t : Machine) : Prop :=
  t.retained = (some old, m.release.settled, m.journal.settled) ∨
    t.restored = (some old, none, m.release.settled, m.journal.settled)

theorem wp_restorePreviousServiceBinary (h : m.files .previous = some old) :
    Wp Anything restorePreviousServiceBinary
      (fun _ t => t.restored = (some old, none, m.release.settled, m.journal.settled))
      (fun _ => Undoes old m) (Undoes old m) m := by
  have hretained : m.retained = (some old, m.release.settled, m.journal.settled) := by
    rw [Machine.retained, h]
  have hdeleted : Wp Anything (deleteManagedFile .service)
      (fun _ t => t.files .service = none ∧
        t.retained = (some old, m.release.settled, m.journal.settled))
      (fun _ => Undoes old m) (Undoes old m) m := by
    unfold deleteManagedFile
    refine Wp.bind (Wp.step_alone (.of_ok .plain (a := m.files .service) (t := m) rfl ?_ (.inl hretained)
      (.inl hretained) (.inl hretained)))
    cases hlive : m.files .service with
    | none => exact Wp.pure ⟨hlive, hretained⟩
    | some _ =>
      have ht : (m.setFile .service none).retained =
          (some old, m.release.settled, m.journal.settled) :=
        (spares_retained (by decide) m none).trans hretained
      exact Wp.step_alone (.of_ok .plain rfl ⟨by simp [Machine.setFile], ht⟩ (.inl hretained)
        (.inl hretained) (.inl ht))
  unfold restorePreviousServiceBinary
  refine Wp.bind (hdeleted.mono ?_ (fun _ _ h => h) fun _ h => h)
  rintro _ t ⟨hlive, ht⟩
  have hprevious : t.files .previous = some old := congrArg Prod.fst ht
  refine Wp.bind (Wp.step_alone (.of_ok .plain (a := some old) (t := t) ?_ ?_ (.inl ht) (.inl ht)
    (.inl ht)))
  · simp [openRelativeFile, hprevious]
  · let u := (t.setFile .service (some old)).setFile .previous none
    have hu : u.restored = (some old, none, m.release.settled, m.journal.settled) := by
      have hdocuments : (t.release.settled, t.journal.settled) =
          (m.release.settled, m.journal.settled) := congrArg Prod.snd ht
      simp [u, Machine.restored, Machine.retained, Machine.setFile, Function.update] at hdocuments ⊢
      exact hdocuments
    refine Wp.step_alone (.of_ok .plain (a := ()) (t := u) ?_ hu (.inl ht) (.inl ht) (.inr hu))
    simp [renameHandleRelative, hlive, hprevious, u]

variable [Platform]

theorem imageFile_candidateImagePath : imageFile candidateImagePath = some .service := by
  simp [imageFile, supportedPreviousRelativePathForImage, candidateImagePath]

/-- A rollback that goes through leaves a service that runs the binary. -/
theorem wp_rollbackService {journal : ServiceUpgradeJournal} {record : ServiceReleaseRecord}
    (hprevious : journal.previous = some record)
    (hpath : journal.candidateImagePath = candidateImagePath) (h : m.files .previous = some old) :
    Wp Anything (rollbackService journal)
      (fun _ t => t.restored = (some old, none, m.release.settled, m.journal.settled) ∧
        t.footing.Runs old) (fun _ => Undoes old m) (Undoes old m) m := by
  have hretained : m.retained = (some old, m.release.settled, m.journal.settled) := by
    rw [Machine.retained, h]
  have hstart : Leaves Machine.footing (do
      configureSystemService.run
      startAndWait.run
      verifyRunningService record.serviceVersion : SetupProg Unit) :=
    (Leaves.inquire _ _).bind fun _ => leaves_footing_startAndWait.bind fun _ =>
      leaves_verifyRunningService _ _
  unfold rollbackService
  refine Wp.bind ((leaves_footing_stopService _ m rfl).mono ?_ (fun _ t ht => .inl ((retained_of_footing ht).trans hretained))
    fun t ht => .inl ((retained_of_footing ht).trans hretained))
  rintro _ t ht
  have ht : t.retained = (some old, m.release.settled, m.journal.settled) :=
    (retained_of_footing ht).trans hretained
  obtain ⟨hkept, hrelease, hjournal⟩ : t.files .previous = some old ∧
      t.release.settled = m.release.settled ∧ t.journal.settled = m.journal.settled := by
    simpa [Machine.retained] using ht
  rw [hprevious]
  have hundoes : ∀ x, Undoes old t x → Undoes old m x := by
    simp only [Undoes, hrelease, hjournal, imp_self, implies_true]
  refine Wp.bind ((wp_restorePreviousServiceBinary hkept).mono ?_ (fun _ => hundoes) hundoes)
  intro _ u hu
  rw [hrelease, hjournal] at hu
  refine Wp.bind ((leaves_requireService Machine.restored _ u hu).mono ?_ (fun _ _ => .inr)
    fun _ => .inr)
  intro _ v hv
  let w : Machine :=
    { v with service := v.service.map ({ · with imagePath := journal.candidateImagePath }) }
  have hw : w.restored = (some old, none, m.release.settled, m.journal.settled) := hv
  refine Wp.bind (Wp.step_alone (.of_ok .plain (a := ()) (t := w) rfl ?_ (.inr hv) (.inr hv) (.inr hw)))
  have hruns : w.footing.Runs old := by
    intro path hsome file hfile
    have hcandidate : path = candidateImagePath := by
      cases hservice : v.service <;> simp [Machine.footing, w, hservice] at hsome
      exact hsome.symm.trans hpath
    rw [hcandidate, imageFile_candidateImagePath] at hfile
    cases hfile
    exact congrArg Prod.fst hw
  have hsame : ∀ x : Machine, x.footing = w.footing → x.restored = w.restored := fun x hx =>
    Prod.ext (congrFun (congrArg Footing.files hx) .service) (retained_of_footing hx)
  refine (hstart _ w rfl).mono ?_ (fun _ x hx => .inr ((hsame x hx).trans hw))
    fun x hx => .inr ((hsame x hx).trans hw)
  exact fun _ x hx => ⟨(hsame x hx).trans hw, hx ▸ hruns⟩

end Undoing

section Acceptance

variable [Ed25519] [Sha256] [Deserialize Keyring]

/-- The new release is recorded before the journal is cleared. -/
theorem wp_finalizeUpgrade (keyringBytes : Bytes) (journal : ServiceUpgradeJournal) (m : Machine) :
    Wp Anything (finalizeUpgrade keyringBytes journal)
      (fun _ t => ∃ bytes, encodeReleaseRecord journal.candidate = .ok bytes ∧
        t.release.settled = some bytes)
      (fun _ t => t.journal = m.journal) (fun t => t.journal = m.journal) m := by
  have hkeyring : ∀ p : FileProg Unit, Leaves (·.journal) (keyringFile.run p) :=
    fun p => Leaves.part (fun _ _ => rfl) p
  have hrecord : ∀ p : FileProg Unit, Leaves (·.journal) (releaseFile.run p) :=
    fun p => Leaves.part (fun _ _ => rfl) p
  unfold finalizeUpgrade
  refine Wp.bind ((hkeyring _ m.journal m rfl).mono ?_ (fun _ _ h => h) fun _ h => h)
  intro _ t ht
  refine Wp.bind ((hrecord _ m.journal t ht).mono ?_ (fun _ _ h => h) fun _ h => h)
  intro _ u hu
  refine Wp.bind (Wp.lift (fun bytes hbytes => ?_) fun _ _ => hu)
  have hsettled : Wp Anything (releaseFile.run (replaceServiceFile bytes))
      (fun _ t => t.release.settled = some bytes) (fun _ _ => True) (fun _ => True) u := by
    refine Wp.part ((replace_replaced bytes u.release).mono ?_ (fun _ _ _ => trivial)
      fun _ _ => trivial)
    rintro _ _ rfl
    rfl
  refine Wp.bind ((hsettled.and (hrecord _ m.journal u hu)).mono ?_ (fun _ _ h => h.2) fun _ h => h.2)
  rintro _ v ⟨hrelease, hjournal⟩
  have hspared : ∀ file, Leaves (fun m : Machine => (m.release, m.journal))
      (deleteManagedFile file) := fun file => leaves_deleteManagedFile fun _ _ => rfl
  have hdelete : ∀ file, Keeps Anything
      (fun t : Machine => t.release.settled = some bytes ∧ t.journal = m.journal)
      (deleteManagedFile file) := fun file =>
    (hspared file).keeps fun documents =>
      documents.1.settled = some bytes ∧ documents.2 = m.journal
  refine (((hdelete .previous).bind fun _ => hdelete .candidate) v ⟨hrelease, hjournal⟩).mono ?_
    (fun _ _ h => h.2) fun _ h => h.2
  exact fun _ x hx => ⟨bytes, hbytes, hx.1⟩

end Acceptance

end Steps

/-! ### One run -/

section Run

variable [Platform] [Ed25519] [Sha256] [Deserialize Keyring] [Deserialize ServiceReleaseRecord]

variable {record : ServiceReleaseRecord} {old : Bytes} {keyringBytes : Bytes}
  {previous : Option ManagedFile}

/-- Every end of the program is safe. -/
abbrev Protects (record : ServiceReleaseRecord) (old : Bytes) (p : SetupProg α) (m : Machine) :
    Prop :=
  Wp Anything p (fun _ t => t.footing.Safe record old) (fun _ t => t.footing.Safe record old)
    (fun t => t.footing.Safe record old) m

theorem protects_upgradeHealthy {journal : ServiceUpgradeJournal} {bytes : Bytes} {m : Machine}
    (hprevious : journal.previous = some record) (hphase : journal.phase = .healthy)
    (hcandidate : journal.candidate ≠ record)
    (hencode : encodeUpgradeJournal journal = .ok bytes) (hjournal : m.footing.journal = some bytes) :
    Protects record old (upgradeHealthy (windowsUpgradePlatform previous keyringBytes) journal)
      m := by
  have hhealthy : ∀ t : Machine, t.journal = m.journal → t.footing.Safe record old := by
    intro t ht
    refine .inr (.inl ⟨journal, bytes, hprevious, hphase, hencode, ?_⟩)
    rw [← hjournal]
    exact congrArg ServiceFile.settled ht
  refine Wp.bind ((wp_finalizeUpgrade keyringBytes journal m).mono ?_ (fun _ => hhealthy) hhealthy)
  rintro _ t ⟨recorded, hrecorded, hrelease⟩
  have hclear : Keeps Anything (fun t : Machine => t.release.settled = some recorded)
      clearJournal :=
    (Leaves.bind (Leaves.part (f := (·.release)) (fun _ _ => rfl) _) fun _ =>
      Leaves.part (fun _ _ => rfl) _).keeps fun file => file.settled = some recorded
  exact ((hclear.bind fun _ => Keeps.pure _) t hrelease).mono
    (fun _ t ht => .inr (.inr ⟨journal.candidate, recorded, hcandidate, hrecorded, ht⟩))
    (fun _ t ht => .inr (.inr ⟨journal.candidate, recorded, hcandidate, hrecorded, ht⟩))
    fun t ht => .inr (.inr ⟨journal.candidate, recorded, hcandidate, hrecorded, ht⟩)

/-- The journal of the upgrade is the one that is found. -/
structure Underway (record : ServiceReleaseRecord) (old : Bytes) (journal : ServiceUpgradeJournal)
    (f : Footing) : Prop where
  reached : f.Reached record old journal
  path : journal.candidateImagePath = candidateImagePath
  found : ∃ bytes, encodeUpgradeJournal journal = .ok bytes ∧ f.journal = some bytes

omit [Ed25519] [Sha256] [Deserialize Keyring] in
theorem Underway.safe {journal : ServiceUpgradeJournal} {f : Footing}
    (h : Underway record old journal f) : f.Safe record old := by
  obtain ⟨bytes, hencode, hjournal⟩ := h.found
  exact .inl (h.reached.upgrading hencode hjournal)

omit [Ed25519] [Sha256] [Deserialize Keyring] in
/-- The documents have not changed. -/
theorem Underway.retained {journal : ServiceUpgradeJournal} {m t : Machine} {binary : Option Bytes}
    (h : Underway record old journal m.footing)
    (ht : t.retained = (binary, m.release.settled, m.journal.settled))
    (hholds : t.footing.Holds old journal.phase) : Underway record old journal t.footing := by
  obtain ⟨hrelease, hjournal⟩ := Prod.mk.inj (Prod.mk.inj ht).2
  obtain ⟨recorded, hrecorded, hdecode⟩ := h.reached.recorded
  obtain ⟨bytes, hencode, hfound⟩ := h.found
  exact ⟨⟨⟨recorded, hrelease.trans hrecorded, hdecode⟩, h.reached.previous, h.reached.candidate,
    hholds⟩, h.path, bytes, hencode, hjournal.trans hfound⟩

omit [Ed25519] [Sha256] [Deserialize Keyring] in
/-- The journal moves on to a phase whose part of the invariant holds already. -/
theorem Underway.next {journal : ServiceUpgradeJournal} {f : Footing} {bytes : Bytes}
    (h : Underway record old journal f) {next : UpgradePhase} (hholds : f.Holds old next)
    (hencode : encodeUpgradeJournal { journal with phase := next } = .ok bytes) :
    Underway record old { journal with phase := next } { f with journal := some bytes } where
  reached := ⟨h.reached.recorded, h.reached.previous, h.reached.candidate,
    Footing.holds_journal.mpr hholds⟩
  path := h.path
  found := ⟨bytes, hencode, rfl⟩

omit [Ed25519] [Sha256] [Deserialize Keyring] in
theorem protects_next {journal : ServiceUpgradeJournal} {next : UpgradePhase} {m : Machine}
    {p : ServiceUpgradeJournal → SetupProg α} (h : Underway record old journal m.footing)
    (hsafe : ∀ bytes, encodeUpgradeJournal { journal with phase := next } = .ok bytes →
      ({ m.footing with journal := some bytes } : Footing).Safe record old)
    (hp : ∀ t bytes, encodeUpgradeJournal { journal with phase := next } = .ok bytes →
      t.footing = { m.footing with journal := some bytes } →
      Protects record old (p { journal with phase := next }) t) :
    Protects record old (do
      let journal ← lift (journal.advance next)
      persistJournal journal
      p journal) m := by
  refine Wp.bind (Wp.lift (fun advanced hadvanced => ?_) fun _ _ => h.safe)
  obtain ⟨⟨⟩, -, hok⟩ := Result.bind_eq_ok.mp hadvanced
  cases hok
  have hends : ∀ t : Machine,
      m.footing.Persists { journal with phase := next } t.footing → t.footing.Safe record old := by
    rintro t (hsame | ⟨bytes, n, hencode, hwhole, hnext⟩)
    · exact hsame ▸ h.safe
    · obtain ⟨_, -, hfound⟩ := h.found
      rw [hnext, hwhole (by simp [hfound])]
      exact hsafe bytes hencode
  refine Wp.bind ((wp_persistJournal _ m).mono ?_ (fun _ => hends) hends)
  rintro _ t ⟨bytes, hencode, ht⟩
  exact hp t bytes hencode ht

theorem protects_upgradeConfigSwitched {journal : ServiceUpgradeJournal} {m : Machine}
    (h : Underway record old journal m.footing) (hphase : journal.phase = .configSwitched)
    (hretained : m.footing.files .previous = some old) :
    Protects record old (upgradeConfigSwitched (windowsUpgradePlatform previous keyringBytes)
      journal) m := by
  have hreached : ∀ t : Machine,
      t.retained = (some old, m.release.settled, m.journal.settled) →
      Underway record old journal t.footing := by
    intro t ht
    exact h.retained ht (hphase ▸ .inl (congrArg Prod.fst ht))
  have hrestored : ∀ t : Machine,
      t.restored = (some old, none, m.release.settled, m.journal.settled) →
      Underway record old journal t.footing := by
    intro t ht
    obtain ⟨hlive, hdocuments⟩ := Prod.mk.inj ht
    exact h.retained hdocuments (hphase ▸ .inr ⟨congrArg Prod.fst hdocuments, hlive⟩)
  have hstart : m.retained = (some old, m.release.settled, m.journal.settled) := by
    rw [Machine.retained, show m.files .previous = some old from hretained]
  have hsafe : ∀ t : Machine,
      t.retained = (some old, m.release.settled, m.journal.settled) → t.footing.Safe record old :=
    fun t ht => (hreached t ht).safe
  refine Wp.bind (Wp.attempt ((leaves_verifyCandidateHealth offService_retained journal _ m
    hstart).mono ?_ ?_ hsafe))
  · intro _ t ht
    refine protects_next (hreached t ht) (fun bytes hencode => .inr (.inl
      ⟨{ journal with phase := .healthy }, bytes, h.reached.previous, rfl, hencode, rfl⟩)) fun u bytes hencode hu => ?_
    exact protects_upgradeHealthy h.reached.previous rfl h.reached.candidate hencode (by rw [hu])
  · intro healthError t ht
    obtain ⟨hkept, hrelease, hjournal⟩ := by simpa [Machine.retained] using ht
    have hundoes : ∀ u, Undoes old t u → u.footing.Safe record old := by
      rintro u (hu | hu)
      · exact hsafe u (by rw [hu, hrelease, hjournal])
      · exact (hrestored u (by rw [hu, hrelease, hjournal])).safe
    refine Wp.bind (Wp.attempt ((wp_rollbackService h.reached.previous h.path hkept).mono ?_
      (fun _ u hu => Wp.throw (hundoes u hu)) hundoes))
    rintro _ u ⟨hu, hruns⟩
    rw [hrelease, hjournal] at hu
    have hcleared : ∀ v : Machine, v.footing = u.footing ∨
        v.footing = { u.footing with journal := none } → v.footing.Safe record old := by
      rintro v (hv | hv)
      · rw [hv]
        exact (hrestored u hu).safe
      · obtain ⟨hlive, habsent, -, -⟩ := by simpa [Machine.restored, Machine.retained] using hu
        rw [hv]
        exact .inl (.inl ⟨rfl, (hrestored u hu).reached.recorded, habsent, hruns, .inl hlive⟩)
    exact Wp.bind (Wp.attempt ((wp_clearJournal u).mono
      (fun _ v hv => Wp.throw (hcleared v (.inr hv))) (fun _ v hv => Wp.throw (hcleared v hv))
      hcleared))

theorem protects_upgradeOldStopped {journal : ServiceUpgradeJournal} {file : ManagedFile}
    {m : Machine} (h : Underway record old journal m.footing) (hphase : journal.phase = .oldStopped)
    (hlive : m.footing.Locates old file) :
    Protects record old (upgradeOldStopped (windowsUpgradePlatform (some file) keyringBytes)
      journal) m := by
  have hholds : m.files .previous = some old ∨
      m.files .previous = none ∧ m.files file = some old := by
    have hholds := h.reached.holds
    rw [hphase] at hholds
    exact hholds.imp id fun hnot => ⟨hnot.1, files_of_footing (hlive.2 hnot.1)⟩
  have hreached : ∀ t : Machine,
      t.retained = (some old, m.release.settled, m.journal.settled) →
      Underway record old journal t.footing :=
    fun t ht => h.retained ht (hphase ▸ .inl (congrArg Prod.fst ht))
  have hretains : ∀ t, Retains old m t → t.footing.Safe record old := by
    rintro t (ht | ht)
    · exact ht ▸ h.safe
    · exact (hreached t ht).safe
  refine Wp.bind ((wp_activateCandidate hlive.1 hholds).mono ?_ (fun _ => hretains) hretains)
  intro _ t ht
  have hkept : t.footing.files .previous = some old := congrArg Prod.fst ht
  have hnext : t.footing.Holds old .configSwitched := .inl hkept
  refine protects_next (hreached t ht) (fun bytes hencode =>
    ((hreached t ht).next hnext hencode).safe) fun u bytes hencode hu => ?_
  refine protects_upgradeConfigSwitched (hu ▸ (hreached t ht).next hnext hencode) rfl ?_
  rw [hu]
  exact hkept

/-- An upgrade that begins, or whose journal was found. -/
theorem protects_executeServiceUpgrade {journal : ServiceUpgradeJournal} {file : ManagedFile}
    {m : Machine} (h : m.footing.Reached record old journal)
    (hpath : journal.candidateImagePath = candidateImagePath)
    (hfound : m.footing.journal = none ∧ journal.phase = .staged ∨
      ∃ bytes, encodeUpgradeJournal journal = .ok bytes ∧ m.footing.journal = some bytes)
    (hlive : m.footing.Locates old file) (hretained : journal.phase = .configSwitched → m.files .previous = some old) :
    Protects record old (executeServiceUpgrade (windowsUpgradePlatform (some file) keyringBytes)
      journal) m := by
  have hstart : m.footing.Safe record old := by
    rcases hfound with ⟨hnone, hstaged⟩ | ⟨bytes, hencode, hfound⟩
    · have hholds := h.holds
      rw [hstaged] at hholds
      exact .inl (.inl ⟨hnone, h.recorded, hholds⟩)
    · exact .inl (h.upgrading hencode hfound)
  have hpart : ∀ bytes n, encodeUpgradeJournal journal = .ok bytes →
      ({ m.footing with journal := some (bytes.take n) } : Footing).Safe record old := by
    intro bytes n hencode
    exact .inl (.inr ⟨journal, bytes, n, ⟨h.recorded, h.previous, h.candidate,
      Footing.holds_journal.mpr h.holds⟩, hencode, rfl⟩)
  have hends : ∀ t : Machine, m.footing.Persists journal t.footing → t.footing.Safe record old := by
    rintro t (hsame | ⟨bytes, n, hencode, -, hnext⟩)
    · exact hsame ▸ hstart
    · exact hnext ▸ hpart bytes n hencode
  refine Wp.bind (Wp.lift (fun _ _ => ?_) fun _ _ => hstart)
  refine Wp.bind ((wp_persistJournal journal m).mono ?_ (fun _ => hends) hends)
  rintro _ t ⟨bytes, hencode, ht⟩
  have hreached : Underway record old journal t.footing := by
    rw [ht]
    exact ⟨⟨h.recorded, h.previous, h.candidate, Footing.holds_journal.mpr h.holds⟩, hpath, bytes,
      hencode, rfl⟩
  have hlocates : t.footing.Locates old file := by
    rw [ht]
    exact hlive
  cases hphase : journal.phase with
  | staged =>
    have hsame : ∀ u : Machine, u.footing = t.footing → u.footing.Safe record old :=
      fun u hu => hu ▸ hreached.safe
    refine Wp.bind ((leaves_footing_stopService _ t rfl).mono ?_ (fun _ => hsame) hsame)
    intro _ u hu
    have hnext : u.footing.Holds old .oldStopped := by
      have hholds := hreached.reached.holds
      rw [hphase] at hholds
      exact .inr (hu ▸ hholds)
    have hreached : Underway record old journal u.footing := hu ▸ hreached
    refine protects_next hreached (fun bytes hencode => (hreached.next hnext hencode).safe)
      fun v bytes hencode hv => ?_
    refine protects_upgradeOldStopped (hv ▸ hreached.next hnext hencode) rfl ?_
    rw [hv, hu]
    exact hlocates
  | oldStopped => exact protects_upgradeOldStopped hreached hphase hlocates
  | configSwitched =>
    refine protects_upgradeConfigSwitched hreached hphase ?_
    rw [ht]
    exact hretained hphase
  | healthy =>
    have hholds := h.holds
    rw [hphase] at hholds
    exact hholds.elim

end Run

/-! ### A run of the installer -/

section Setup

variable [Platform] [Unicode] [Ed25519] [Sha256] [Deserialize Keyring] [Deserialize FileSet]
  [Deserialize ServiceReleaseRecord] [Deserialize ServiceUpgradeJournal]

/-- What the plan of an installer says of the machine. -/
structure InstallPlan.Finds (plan : InstallPlan) (f : Footing) : Prop where
  installed : Loads decodeReleaseRecord f.release plan.installed
  decision : decideServiceUpgrade plan.bundle.candidate plan.installed = .ok plan.decision
  journal : Loads decodeUpgradeJournal f.journal plan.journal

omit [Platform] in
theorem wp_footing_planInstall (bundle : Bundle) (m : Machine) :
    Wp Anything (planInstall bundle) (fun plan t => t.footing = m.footing ∧ plan.Finds m.footing)
      (fun _ t => t.footing = m.footing) (fun t => t.footing = m.footing) m := by
  have hkeyring : Leaves Machine.footing (readServiceBundle bundle) := by
    refine (Leaves.lift _).bind fun _ => (leaves_footing_keyring _).bind fun _ =>
      (Leaves.lift _).bind fun _ => (Leaves.lift _).bind fun _ => (Leaves.lift _).bind fun _ =>
      (Leaves.lift _).bind fun _ => Leaves.pure _
  have hdecide : ∀ (service : Bool) (t : Machine), t.footing = m.footing → Wp Anything (do
      let installed ← loadReleaseRecord
      lift (rejectIf (service && installed.isNone) (.new .recoveryIncomplete
        "pre-release service without a protected release record must be removed manually"))
      let verified ← readServiceBundle bundle
      let decision ← lift (decideServiceUpgrade verified.candidate installed)
      let journal ← loadUpgradeJournal
      pure { service, installed, bundle := verified, decision, journal } : SetupProg InstallPlan)
      (fun plan t => t.footing = m.footing ∧ plan.Finds m.footing)
      (fun _ t => t.footing = m.footing) (fun t => t.footing = m.footing) t := by
    intro service t ht
    have hrelease := wp_footing_load releaseFile (m := t)
      (fun file h => by simp only [Machine.footing, releaseFile] at h ⊢; rw [h]) decodeReleaseRecord
    refine Wp.bind (hrelease.mono ?_ (fun _ _ h => h.trans ht) fun _ h => h.trans ht)
    rintro installed u ⟨hu, hinstalled⟩
    refine Wp.bind (Wp.lift (fun _ _ => ?_) fun _ _ => hu.trans ht)
    refine Wp.bind ((hkeyring _ u (hu.trans ht)).mono ?_ (fun _ _ h => h) fun _ h => h)
    intro verified v hv
    refine Wp.bind (Wp.lift (fun decision hdecision => ?_) fun _ _ => hv)
    have hjournal := wp_footing_load journalFile (m := v)
      (fun file h => by simp only [Machine.footing, journalFile] at h ⊢; rw [h]) decodeUpgradeJournal
    refine Wp.bind (hjournal.mono ?_ (fun _ _ h => h.trans hv) fun _ h => h.trans hv)
    rintro journal w ⟨hw, hfound⟩
    refine Wp.pure ⟨hw.trans hv, ?_, hdecision, ?_⟩
    · rw [← ht]
      exact hinstalled
    · rw [← hv]
      exact hfound
  unfold planInstall
  refine Wp.bind ((Leaves.inquire Machine.footing _ _ m rfl).mono ?_ (fun _ _ h => h) fun _ h => h)
  intro _ t ht
  refine Wp.bind ((leaves_footing_openSetupService _ t ht).mono ?_ (fun _ _ h => h) fun _ h => h)
  intro service t ht
  cases service with
  | false =>
    refine Wp.bind ((Leaves.inquire Machine.footing _ _ t ht).mono ?_ (fun _ _ h => h) fun _ h => h)
    exact fun _ u hu => hdecide false u hu
  | true =>
    refine Wp.bind ((Leaves.inquire Machine.footing _ _ t ht).mono ?_ (fun _ _ h => h) fun _ h => h)
    exact fun _ u hu => hdecide true u hu

omit [Unicode] [Ed25519] [Sha256] [Deserialize Keyring] [Deserialize FileSet]
  [Deserialize ServiceReleaseRecord] [Deserialize ServiceUpgradeJournal] in
/-- The executable of the previous release is the one that the service is started from. -/
theorem wp_previousBinary (service : Bool) (record : ServiceReleaseRecord)
    (absent : MaintenanceError) (m : Machine) :
    Wp Anything (previousBinary service (some record) absent)
      (fun file t => t.footing = m.footing ∧ ∃ path found, file = some found ∧
        m.footing.imagePath = some path ∧ imageFile path = some found)
      (fun _ t => t.footing = m.footing) (fun t => t.footing = m.footing) m := by
  refine Wp.bind (Wp.lift (fun _ _ => ?_) fun _ _ => rfl)
  refine Wp.bind (Wp.bind (Wp.step_alone (Step.Meets.whole .plain ?_ (fun _ => rfl) rfl)))
  intro path t hquery
  simp only [queryServiceConfig] at hquery
  split at hquery
  · cases hquery
  · rename_i found hservice
    cases hquery
    refine ⟨?_, rfl⟩
    cases hfile : imageFile found.imagePath with
    | none => exact Wp.throw rfl
    | some file =>
      exact Wp.pure (Wp.pure ⟨rfl, found.imagePath, file, rfl, by simp [Machine.footing, hservice],
        hfile⟩)

variable {record : ServiceReleaseRecord} {old : Bytes}

omit [Unicode] [Deserialize FileSet] [Deserialize ServiceUpgradeJournal] in
theorem protects_runUpgrade (bundle : Bundle) (verified : VerifiedBundle) {file : ManagedFile}
    {journal : Result ServiceUpgradeJournal} {m : Machine} (hsafe : m.footing.Safe record old)
    (h : ∀ found, journal = .ok found → m.footing.Reached record old found ∧
      found.candidateImagePath = candidateImagePath ∧
      (m.footing.journal = none ∧ found.phase = .staged ∨
        ∃ bytes, encodeUpgradeJournal found = .ok bytes ∧ m.footing.journal = some bytes) ∧
      (found.phase = .configSwitched → m.footing.files .previous = some old))
    (hlive : m.footing.Locates old file) :
    Protects record old (runUpgrade bundle verified (some file) journal) m := by
  have hsame : ∀ t : Machine, t.footing = m.footing → t.footing.Safe record old :=
    fun t ht => ht ▸ hsafe
  refine Wp.bind ((leaves_stageCandidateBinary (spares_footing (.inl rfl))
    (spares_footing (.inr rfl)) bundle verified _ m rfl).mono ?_ (fun _ => hsame) hsame)
  intro _ t ht
  refine Wp.bind (Wp.lift (fun found hfound => ?_) fun _ _ => hsame t ht)
  obtain ⟨hreached, hpath, hjournal, hretained⟩ := h found hfound
  rw [← ht] at hreached hjournal hlive hretained
  exact Wp.bind ((protects_executeServiceUpgrade hreached hpath hjournal hlive
    fun hphase => files_of_footing (hretained hphase)).mono (fun _ _ h => Wp.pure h)
      (fun _ _ h => h) fun _ h => h)

theorem protects_installSystemService (bundle : Bundle) {m : Machine}
    (h : m.footing.Upgrading record old) (hexposed : ¬ m.footing.Exposed) :
    Protects record old (installSystemService bundle) m := by
  have hsame : ∀ t : Machine, t.footing = m.footing → t.footing.Safe record old :=
    fun t ht => ht ▸ .inl h
  have hrecorded : m.footing.Records record := by
    rcases h with ⟨-, h, -⟩ | ⟨_, _, _, h, -, -⟩
    · exact h
    · exact h.recorded
  refine Wp.bind ((wp_footing_planInstall bundle m).mono ?_ (fun _ => hsame) hsame)
  rintro ⟨service, installed, verified, decision, journal⟩ t ⟨ht, hinstalled, hdecision, hjournal⟩
  dsimp only at hinstalled hdecision hjournal
  obtain rfl : installed = some record := by
    obtain ⟨bytes, hbytes, hdecode⟩ := hrecorded
    rw [hbytes] at hinstalled
    obtain ⟨found, hfound, rfl⟩ := hinstalled
    exact congrArg some (Except.ok.inj (hfound.symm.trans hdecode))
  cases journal with
  | some journal =>
    obtain ⟨bytes, hencode, hfound, hreached⟩ : ∃ bytes, encodeUpgradeJournal journal = .ok bytes ∧
        m.footing.journal = some bytes ∧ m.footing.Reached record old journal := by
      rcases h with ⟨hnone, -, -⟩ | ⟨found, bytes, n, hreached, hencode, hfound⟩
      · rw [hnone] at hjournal
        cases hjournal
      · rw [hfound] at hjournal
        obtain ⟨document, hdecode, hsome⟩ := hjournal
        cases hsome
        obtain ⟨rfl, hwhole⟩ := decodeUpgradeJournal_take hencode hdecode
        exact ⟨bytes, hencode, hfound.trans (congrArg some hwhole), hreached⟩
    refine Wp.bind (Wp.lift (fun _ hcheck => ?_) fun _ _ => hsame t ht)
    have hpath : journal.candidateImagePath = candidateImagePath := by
      have hcheck := rejectIf_eq_ok.mp hcheck
      simp only [Bool.or_eq_false_iff, decide_eq_false_iff_not, ne_eq, not_not] at hcheck
      exact hcheck.2
    dsimp only
    rw [hreached.previous]
    refine Wp.bind ((wp_previousBinary service record _ t).mono ?_ (fun _ u hu => hsame u (hu.trans ht))
      fun u hu => hsame u (hu.trans ht))
    rintro _ u ⟨hu, path, file, rfl, hpathat, hfile⟩
    have hu : u.footing = m.footing := hu.trans ht
    rw [← hu] at hreached hfound
    have hretained : journal.phase = .configSwitched → u.footing.files .previous = some old := by
      intro hphase
      have hholds := hreached.holds
      rw [hphase] at hholds
      rcases hholds with hkept | ⟨habsent, -⟩
      · exact hkept
      · rw [hu] at hfound habsent
        exact absurd ⟨journal, bytes, hencode, hfound, hphase, habsent⟩ hexposed
    have hlocates := hreached.holds.locates hretained (hu ▸ ht ▸ hpathat) hfile
    refine protects_runUpgrade bundle verified (hsame u hu) ?_ hlocates
    rintro found hok
    cases hok
    exact ⟨hreached, hpath, .inr ⟨bytes, hencode, hfound⟩, hretained⟩
  | none =>
    have hstart : m.footing.Installed record old := by
      rcases h with h | ⟨_, _, _, -, -, hfound⟩
      · exact h
      · rw [hfound] at hjournal
        obtain ⟨_, -, hsome⟩ := hjournal
        cases hsome
    cases decision with
    | keepCompatible =>
      exact (((Leaves.lift _).bind fun _ => (leaves_verifyManagedBinary Machine.footing _).bind
        fun _ => (leaves_ensureExpectedServiceConfig Machine.footing _).bind fun _ =>
        leaves_footing_startAndWait.bind fun _ => (leaves_verifyRunningService _ _).bind fun _ =>
        (leaves_footing_keyring _).bind fun _ => Leaves.pure _) _ t ht).mono (fun _ => hsame)
        (fun _ => hsame) hsame
    | install => exact absurd hdecision decideServiceUpgrade_ne_install
    | upgrade =>
      refine Wp.bind (Wp.pure ?_)
      refine Wp.bind ((wp_previousBinary service record _ t).mono ?_
        (fun _ u hu => hsame u (hu.trans ht)) fun u hu => hsame u (hu.trans ht))
      rintro _ u ⟨hu, path, file, rfl, hpathat, hfile⟩
      have hu : u.footing = m.footing := hu.trans ht
      rw [← hu] at hstart
      have hlocates := hstart.holds.locates nofun (hu ▸ ht ▸ hpathat) hfile
      refine protects_runUpgrade bundle verified (hsame u hu) ?_ hlocates
      intro found hnew
      obtain ⟨⟨⟩, -, hok⟩ := Result.bind_eq_ok.mp hnew
      cases hok
      exact ⟨⟨hstart.recorded, rfl, decideServiceUpgrade_upgrade_ne hdecision, hstart.holds⟩, rfl,
        .inl ⟨hstart.journal, rfl⟩, nofun⟩

theorem protects_ensureSystemService (bundle : Bundle) {m : Machine}
    (h : m.footing.Upgrading record old) (hexposed : ¬ m.footing.Exposed) :
    Protects record old (ensureSystemService bundle) m := by
  have hentry : Leaves Machine.footing (Step.run {
      effect := fun m => .ok ((), { m with uninstallEntry := true })
      fault := .new .registryIo
        "Programs and Features entry for the service cannot be written" } : SetupProg Unit) :=
    Leaves.whole .plain fun _ _ _ h => by cases h; rfl
  refine Wp.bind ((protects_installSystemService bundle h hexposed).mono ?_ (fun _ _ h => h)
    fun _ h => h)
  intro outcome t ht
  exact (((Leaves.inquire Machine.footing _).keeps (Footing.Safe record old)).bind fun _ =>
    (hentry.keeps (Footing.Safe record old)).bind fun _ => Keeps.pure outcome) t ht

/-! ### Any number of runs -/

/-- The release is installed and runs the binary, and no upgrade of it has begun. -/
structure Machine.Serves (record : ServiceReleaseRecord) (old : Bytes) (m : Machine) : Prop where
  journal : m.journal.settled = none
  recorded : m.footing.Records record
  previous : m.files .previous = none
  image : m.image = some old

omit [Unicode] [Ed25519] [Sha256] [Deserialize Keyring] [Deserialize FileSet]
  [Deserialize ServiceUpgradeJournal] in
theorem Machine.Serves.installed {m : Machine} (h : m.Serves record old) :
    m.footing.Installed record old := by
  obtain ⟨service, hservice, hlive⟩ := Option.bind_eq_some_iff.mp h.image
  obtain ⟨file, hfile, hcontent⟩ := Option.bind_eq_some_iff.mp hlive
  have hknown : file = .service ∨ file = .previousManaged := by
    simp only [imageFile, supportedPreviousRelativePathForImage] at hfile
    split at hfile
    · exact .inl (Option.some.inj hfile).symm
    · split at hfile
      · exact .inr (Option.some.inj hfile).symm
      · cases hfile
  have hfooting : m.footing.files file = some old := by
    rcases hknown with rfl | rfl <;> exact hcontent
  refine ⟨h.journal, h.recorded, h.previous, ?_, ?_⟩
  · intro path hpath found hfound
    obtain rfl : service.imagePath = path := by simpa [Machine.footing, hservice] using hpath
    obtain rfl := Option.some.inj (hfile.symm.trans hfound)
    exact hfooting
  · rcases hknown with rfl | rfl
    · exact .inl hfooting
    · exact .inr (.inr hfooting)

/-- A run of the installer before the new release is found healthy, which does not start where
the old binary has been restored without its journal having been cleared. -/
def UpgradeRun (record : ServiceReleaseRecord) (s t : Machine) : Prop :=
  ¬ s.footing.Accepted record ∧ ¬ s.footing.Exposed ∧
    ∃ bundle, EndsIn Anything (ensureSystemService bundle) s t

theorem safe_of_runs {m t : Machine} (h : m.Serves record old)
    (hruns : Relation.ReflTransGen (UpgradeRun record) m t) : t.footing.Safe record old := by
  induction hruns with
  | refl => exact .inl (.inl h.installed)
  | tail _ hstep ih =>
    obtain ⟨hpending, hexposed, bundle, sch, o, rest, -, hrun⟩ := hstep
    have hend := (protects_ensureSystemService bundle (ih.resolve_right hpending)
      hexposed).result (fun _ _ => trivial) hrun
    cases o <;> exact hend

/-- As long as no run starts where the binary has been restored under a journal that goes on with
the rollback, the binary of the previous release is kept until the new one is healthy. -/
theorem previous_binary_kept {m t : Machine} (h : m.Serves record old)
    (hruns : Relation.ReflTransGen (UpgradeRun record) m t) :
    t.footing.Kept old ∨ t.footing.Accepted record :=
  (safe_of_runs h hruns).imp Footing.Upgrading.kept id

end Setup

/-! ### A rollback that is run twice -/

section Sample

open Windows

def upgradeFileSet : FileSet where
  files := [⟨"Se7enService.exe",
    "dbc1b4c900ffe48d575b5da5c638040125f65db0fe3e24494b76ea986457d986", 1⟩]
  generation := 2
  keyId := "release"
  kind := fileSetKind
  productId := serviceBundleProductId
  removeFiles := []
  schema := fileSetSchema
  signature := String.ofList (List.replicate 128 '3')

@[reducible] noncomputable def upgradeExternals : Externals := SampleDocuments.externals {
  keyrings := [releaseKeyring]
  fileSets := [upgradeFileSet]
  digests := [
    (textOf releaseKeyring, [91, 205, 80, 160, 182, 78, 84, 254, 22, 8, 94, 29, 114, 31, 230, 99,
      184, 7, 13, 240, 24, 166, 60, 15, 107, 255, 248, 3, 65, 186, 86, 8]),
    (textOf upgradeFileSet, [185, 38, 3, 112, 83, 99, 12, 90, 118, 255, 200, 75, 8, 166, 48, 45, 9,
      171, 193, 244, 154, 206, 19, 149, 52, 250, 172, 131, 92, 97, 54, 157]),
    ([2], [219, 193, 180, 201, 0, 255, 228, 141, 87, 91, 93, 165, 198, 56, 4, 1, 37, 246, 93, 176,
      254, 62, 36, 73, 75, 118, 234, 152, 100, 87, 217, 134])] }

attribute [local instance] upgradeExternals releaseRecords samplePlatform

def upgradeRecord : ServiceReleaseRecord where
  digest := "b926037053630c5a76ffc84b08a6302d09abc1f49ace139534faac835c61369d"
  generation := 2
  kind := releaseRecordKind
  schema := documentSchema
  serviceVersion := "1.0.1"

def failedUpgrade : ServiceUpgradeJournal where
  candidate := upgradeRecord
  candidateImagePath := candidateImagePath
  kind := upgradeJournalKind
  phase := .configSwitched
  previous := some serviceRecord
  schema := documentSchema

@[reducible] noncomputable def failedUpgrades : Deserialize ServiceUpgradeJournal :=
  .canonicalWith [failedUpgrade]

attribute [local instance] failedUpgrades

/-- Its service answers with the version of the old one. -/
def upgradeBundle : Bundle where
  serviceVersion := "1.0.1"
  absolute := true
  keyring := .ok (textOf releaseKeyring)
  manifest := .ok (textOf upgradeFileSet)
  image := some [2]

def Machine.served : Machine :=
  { Machine.fresh with
    files := fun file => if file = .service then some [1] else none
    service := some ⟨candidateImagePath, true⟩
    release := ⟨some (textOf serviceRecord), none, none⟩ }

theorem serves_served : Machine.served.Serves serviceRecord [1] where
  journal := rfl
  recorded := ⟨textOf serviceRecord, rfl, by decide +kernel⟩
  previous := rfl
  image := by decide +kernel

/-- The crash comes behind the rename that restores the old binary. -/
noncomputable def restoredSetup : Machine :=
  (ensureSystemService upgradeBundle .served (List.replicate 44 .go ++ [.crash .before])).2.1

noncomputable def rolledBackTwice : Machine := (ensureSystemService upgradeBundle restoredSetup []).2.1

theorem not_accepted {f : Footing}
    (hjournal : f.journal = none ∨ f.journal = some (textOf failedUpgrade))
    (hrelease : f.release = some (textOf serviceRecord)) : ¬ f.Accepted serviceRecord := by
  have hdecode : decodeUpgradeJournal (textOf failedUpgrade) = .ok failedUpgrade := by
    decide +kernel
  have hdecode' : decodeReleaseRecord (textOf serviceRecord) = .ok serviceRecord := by
    decide +kernel
  rintro (⟨journal, bytes, -, hphase, hencode, hfound⟩ | ⟨candidate, bytes, hne, hencode, hfound⟩)
  · rcases hjournal with hnone | hsome
    · cases hnone.symm.trans hfound
    · obtain rfl := Option.some.inj (hsome.symm.trans hfound)
      have hsame := decodeUpgradeJournal_take (n := (textOf failedUpgrade).length) hencode
        (by rw [List.take_length, hdecode])
      rw [← hsame.1] at hphase
      cases hphase
  · obtain rfl := Option.some.inj (hrelease.symm.trans hfound)
    exact hne (decodeReleaseRecord_take (n := (textOf serviceRecord).length) hencode
      (by rw [List.take_length, hdecode'])).symm

theorem previous_binary_lost :
    ¬ ∀ (bundle : Bundle) (record : ServiceReleaseRecord) (old : Bytes) (m t : Machine),
      m.Serves record old →
      Relation.ReflTransGen (fun s t => ¬ s.footing.Accepted record ∧
        EndsIn Anything (ensureSystemService bundle) s t) m t →
      t.footing.Kept old ∨ t.footing.Accepted record := by
  intro h
  obtain ⟨hjournal, hrelease, hjournal', hrelease', hservice, hprevious, hmanaged⟩ :
      restoredSetup.footing.journal = some (textOf failedUpgrade) ∧
      restoredSetup.footing.release = some (textOf serviceRecord) ∧
      rolledBackTwice.footing.journal = some (textOf failedUpgrade) ∧
      rolledBackTwice.footing.release = some (textOf serviceRecord) ∧
      rolledBackTwice.footing.files .service = none ∧
      rolledBackTwice.footing.files .previous = none ∧
      rolledBackTwice.footing.files .previousManaged = none := by decide +kernel
  have hruns : ∀ (m : Machine) (sch : Schedule Empty),
      EndsIn Anything (ensureSystemService upgradeBundle) m
        (ensureSystemService upgradeBundle m sch).2.1 :=
    fun m sch => EndsIn.of_run rfl fun _ _ => trivial
  have hfirst : Relation.ReflTransGen (fun s t => ¬ s.footing.Accepted serviceRecord ∧
      EndsIn Anything (ensureSystemService upgradeBundle) s t) .served restoredSetup :=
    .single ⟨not_accepted (.inl rfl) rfl, hruns _ _⟩
  rcases h upgradeBundle serviceRecord [1] .served rolledBackTwice serves_served
    (hfirst.tail ⟨not_accepted (.inr hjournal) hrelease, hruns _ _⟩) with hkept | haccepted
  · rcases hkept with hkept | hkept | hkept
    · cases hservice.symm.trans hkept
    · cases hprevious.symm.trans hkept
    · cases hmanaged.symm.trans hkept
  · exact not_accepted (.inr hjournal') hrelease' haccepted

/-- The first of the two runs keeps the binary. -/
theorem previous_binary_kept_restored :
    restoredSetup.footing.Kept [1] ∨ restoredSetup.footing.Accepted serviceRecord := by
  have hrun : UpgradeRun serviceRecord .served restoredSetup := by
    refine ⟨not_accepted (.inl rfl) rfl, ?_, upgradeBundle, EndsIn.of_run rfl fun _ _ => trivial⟩
    rintro ⟨journal, bytes, -, hfound, -⟩
    cases hfound
  exact previous_binary_kept serves_served (.single hrun)

end Sample

end Installer
end Se7en
