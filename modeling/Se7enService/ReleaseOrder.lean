import Se7enService.InstallerFrame
import Se7enService.UninstallState
set_option autoImplicit false

/-! The release record over any sequence of `ensure-service` runs. -/

namespace Se7en
open Faulty

/-! ### The decision -/

theorem ServiceVersion.order_injective : Function.Injective ServiceVersion.order := by
  intro v w h
  obtain ⟨hmajor, hrest⟩ := Prod.mk.inj (toLex.injective h)
  obtain ⟨hminor, hpatch⟩ := Prod.mk.inj (toLex.injective hrest)
  cases v; cases w
  simp only [ServiceVersion.mk.injEq]
  exact ⟨UInt64.toNat_inj.mp hmajor, UInt64.toNat_inj.mp hminor, UInt64.toNat_inj.mp hpatch⟩

/-- A release that may take the place of another: its version is greater, or it is the same. -/
def ServiceReleaseRecord.Precedes (record next : ServiceReleaseRecord) : Prop :=
  ∃ version version', record.version = .ok version ∧ next.version = .ok version' ∧
    version.order ≤ version'.order ∧
    (next.digest ≠ record.digest → version.order < version'.order)

namespace ServiceReleaseRecord.Precedes

variable {record next later : ServiceReleaseRecord}

theorem refl {version : ServiceVersion} (h : record.version = .ok version) :
    record.Precedes record :=
  ⟨version, version, h, h, le_rfl, fun hne => absurd rfl hne⟩

theorem trans (h : record.Precedes next) (h' : next.Precedes later) : record.Precedes later := by
  obtain ⟨v, w, hv, hw, hle, hlt⟩ := h
  obtain ⟨w', x, hw', hx, hle', hlt'⟩ := h'
  obtain rfl := Except.ok.inj (hw.symm.trans hw')
  refine ⟨v, x, hv, hx, hle.trans hle', fun hne => ?_⟩
  by_cases hsame : next.digest = record.digest
  · exact hle.trans_lt (hlt' (hsame ▸ hne))
  · exact (hlt hsame).trans_le hle'

end ServiceReleaseRecord.Precedes

theorem decideServiceUpgrade_major {candidate : ServiceReleaseRecord}
    {installed : Option ServiceReleaseRecord} {decision : UpgradeDecision}
    (h : decideServiceUpgrade candidate installed = .ok decision) :
    ∃ version, candidate.version = .ok version ∧ version.major = protocolMajor := by
  obtain ⟨-, -, h⟩ := Result.bind_eq_ok.mp h
  obtain ⟨version, hversion, h⟩ := Result.bind_eq_ok.mp h
  obtain ⟨⟨⟩, hmajor, -⟩ := Result.bind_eq_ok.mp h
  exact ⟨version, hversion, by simpa using rejectIf_eq_ok.mp hmajor⟩

theorem decideServiceUpgrade_precedes {candidate installed : ServiceReleaseRecord}
    {decision : UpgradeDecision}
    (h : decideServiceUpgrade candidate (some installed) = .ok decision) :
    installed.Precedes candidate := by
  obtain ⟨-, -, h⟩ := Result.bind_eq_ok.mp h
  obtain ⟨version', hversion', h⟩ := Result.bind_eq_ok.mp h
  obtain ⟨-, -, h⟩ := Result.bind_eq_ok.mp h
  obtain ⟨-, -, h⟩ := Result.bind_eq_ok.mp h
  obtain ⟨version, hversion, h⟩ := Result.bind_eq_ok.mp h
  obtain ⟨-, -, h⟩ := Result.bind_eq_ok.mp h
  by_cases hlt : version'.order < version.order
  · simp [hlt] at h
  · have hle : version.order ≤ version'.order := not_lt.mp hlt
    refine ⟨version, version', hversion, hversion', hle, fun hne => ?_⟩
    have hdiffer : version' ≠ version := by
      rintro rfl
      simp [hne] at h
    exact lt_of_le_of_ne hle fun heq => hdiffer (ServiceVersion.order_injective heq.symm)

/-! ### The record -/

section Records

variable [Deserialize ServiceReleaseRecord]

/-- What a load of the file returns, where it returns a record. -/
def ServiceFile.Records (file : ServiceFile) (record : ServiceReleaseRecord) : Prop :=
  ¬ file.Ambiguous ∧ ∃ bytes, file.settled = some bytes ∧ decodeReleaseRecord bytes = .ok record

theorem ServiceFile.Alike.records {file file' : ServiceFile} (h : file.Alike file')
    {record : ServiceReleaseRecord} : file'.Records record ↔ file.Records record := by
  simp only [ServiceFile.Records, h.settled, h.ambiguous]

omit [Deserialize ServiceReleaseRecord] in
theorem ServiceFile.Alike.trans {file file' file'' : ServiceFile} (h : file.Alike file')
    (h' : file'.Alike file'') : file.Alike file'' :=
  ⟨h'.settled.trans h.settled, h'.ambiguous.trans h.ambiguous⟩

/-- A part of an encoded record is decoded only where it is all of it. -/
theorem decodeReleaseRecord_take {record record' : ServiceReleaseRecord} {bytes : Bytes} {n : Nat}
    (hencode : encodeReleaseRecord record = .ok bytes)
    (hdecode : decodeReleaseRecord (bytes.take n) = .ok record') : record' = record := by
  obtain ⟨-, -, hjson⟩ := Result.bind_eq_ok.mp hencode
  obtain ⟨document, hparse, hdecode⟩ := Result.bind_eq_ok.mp hdecode
  obtain ⟨-, -, hdecode⟩ := Result.bind_eq_ok.mp hdecode
  cases hdecode
  exact (parseCanonical_take (fun _ => ⟨_, rfl⟩) hjson hparse).1

end Records

namespace Installer

section Runs

variable [Deserialize ServiceReleaseRecord]

/-- The candidates that a run which starts here may install. -/
def Machine.Accepts (m : Machine) (candidate : ServiceReleaseRecord) : Prop :=
  ∃ decision, (m.release.settled = none ∧ decideServiceUpgrade candidate none = .ok decision) ∨
    ∃ record, m.release.Records record ∧
      decideServiceUpgrade candidate (some record) = .ok decision

/-- The record is the old one, or a part of an accepted one, or all of it. -/
def Machine.Recorded (m : Machine) (file : ServiceFile) : Prop :=
  m.release.Alike file ∨ ∃ candidate bytes, m.Accepts candidate ∧
    encodeReleaseRecord candidate = .ok bytes ∧ ¬ file.Ambiguous ∧
    ∃ n, file.settled = some (bytes.take n)

theorem Machine.Recorded.alike {m : Machine} {file file' : ServiceFile} (h : m.Recorded file)
    (halike : file.Alike file') : m.Recorded file' := by
  rcases h with h | ⟨candidate, bytes, haccepts, hencode, hclear, n, hsettled⟩
  · exact .inl (h.trans halike)
  · exact .inr ⟨candidate, bytes, haccepts, hencode, fun ha => hclear (halike.ambiguous.mp ha), n,
      halike.settled.trans hsettled⟩

theorem Machine.Recorded.replaced {m : Machine} {file file' : ServiceFile} (h : m.Recorded file)
    {candidate : ServiceReleaseRecord} (haccepts : m.Accepts candidate) {bytes : Bytes}
    (hencode : encodeReleaseRecord candidate = .ok bytes) (hreplaced : file.Replaced bytes file') :
    m.Recorded file' := by
  rcases hreplaced.settled with halike | ⟨hclear, n, hsettled⟩
  · exact h.alike halike
  · exact .inr ⟨candidate, bytes, haccepts, hencode, hclear, n, hsettled⟩

/-! ### One run -/

omit [Deserialize ServiceReleaseRecord] in
/-- The steps of an upgrade are about one candidate. -/
theorem keeps_executeServiceUpgrade {σ μ : Type} {A : Event μ → Prop} {I : σ → Prop}
    {platform : ServiceUpgradePlatform σ μ} (candidate : ServiceReleaseRecord)
    (hpersist : ∀ journal, Keeps A I (platform.persistJournal journal))
    (hstop : Keeps A I platform.stopService)
    (hactivate : ∀ journal, Keeps A I (platform.activateCandidate journal))
    (hverify : ∀ journal, Keeps A I (platform.verifyCandidateHealth journal))
    (hrollback : ∀ journal, Keeps A I (platform.rollbackService journal))
    (hfinalize : ∀ journal : ServiceUpgradeJournal, journal.candidate = candidate →
      Keeps A I (platform.finalizeUpgrade journal))
    (hclear : Keeps A I platform.clearJournal) {journal : ServiceUpgradeJournal}
    (hcandidate : journal.candidate = candidate) :
    Keeps A I (executeServiceUpgrade platform journal) := by
  have hadvance : ∀ (journal : ServiceUpgradeJournal) (next : UpgradePhase)
      (p : ServiceUpgradeJournal → Prog σ MaintenanceError μ EnsureServiceOutcome),
      journal.candidate = candidate →
      (∀ journal : ServiceUpgradeJournal, journal.candidate = candidate → Keeps A I (p journal)) →
      Keeps A I (lift (journal.advance next) >>= p) := by
    intro journal next p hjournal hp s hs
    refine Wp.bind (Wp.lift (fun advanced hadvanced => ?_) fun _ _ => hs)
    obtain ⟨⟨⟩, -, hok⟩ := Result.bind_eq_ok.mp hadvanced
    cases hok
    exact hp { journal with phase := next } hjournal s hs
  have hhealthy : ∀ journal : ServiceUpgradeJournal, journal.candidate = candidate →
      Keeps A I (upgradeHealthy platform journal) :=
    fun journal hjournal => (hfinalize journal hjournal).bind fun _ => hclear.bind fun _ =>
      Keeps.pure _
  have hundo : ∀ journal healthError, Keeps A I (rollbackUpgrade platform journal healthError) := by
    intro journal healthError
    refine (Keeps.attempt (hrollback journal)).bind fun rolled => ?_
    cases rolled with
    | error _ => exact Keeps.throw _
    | ok =>
      refine (Keeps.attempt hclear).bind fun cleared => ?_
      cases cleared <;> exact Keeps.throw _
  have hswitched : ∀ journal : ServiceUpgradeJournal, journal.candidate = candidate →
      Keeps A I (upgradeConfigSwitched platform journal) := by
    intro journal hjournal
    refine (Keeps.attempt (hverify journal)).bind fun healthy => ?_
    cases healthy with
    | error e => exact hundo journal e
    | ok =>
      exact hadvance journal _ _ hjournal fun next hnext => (hpersist next).bind fun _ =>
        hhealthy next hnext
  have hstopped : ∀ journal : ServiceUpgradeJournal, journal.candidate = candidate →
      Keeps A I (upgradeOldStopped platform journal) :=
    fun journal hjournal => (hactivate journal).bind fun _ =>
      hadvance journal _ _ hjournal fun next hnext => (hpersist next).bind fun _ =>
        hswitched next hnext
  refine (Keeps.lift _).bind fun _ => (hpersist journal).bind fun _ => ?_
  cases journal.phase with
  | staged =>
    exact hstop.bind fun _ => hadvance journal _ _ hcandidate fun next hnext =>
      (hpersist next).bind fun _ => hstopped next hnext
  | oldStopped => exact hstopped journal hcandidate
  | configSwitched => exact hswitched journal hcandidate
  | healthy => exact hhealthy journal hcandidate

section Run

variable [Platform] [Unicode] [Ed25519] [Sha256] [Deserialize Keyring] [Deserialize FileSet]
  [Deserialize ServiceUpgradeJournal]

variable {m : Machine}

omit [Platform] [Unicode] [Deserialize FileSet] [Deserialize ServiceUpgradeJournal] in
theorem keeps_finalizeUpgrade (keyringBytes : Bytes) {journal : ServiceUpgradeJournal}
    (haccepts : m.Accepts journal.candidate) :
    Keeps Anything (fun t => m.Recorded t.release) (finalizeUpgrade keyringBytes journal) := by
  have hrecover : Keeps Anything (fun t => m.Recorded t.release)
      (releaseFile.run recoverServiceFileReplacement) := by
    intro s hs
    refine Wp.part ((recover_settled s.release).mono ?_ ?_ fun t ht => hs.alike ht)
    · rintro _ t ⟨hclear, rfl⟩
      refine hs.alike ⟨by cases s.release.settled <;> rfl, iff_of_false ?_ hclear⟩
      simp [ServiceFile.Ambiguous, releaseFile]
    · exact fun _ t ht => hs.alike ht.2
  refine Keeps.bind ((Leaves.part (fun _ _ => rfl) _).keeps m.Recorded) fun _ => hrecover.bind
    fun _ => ?_
  intro s hs
  refine Wp.bind (Wp.lift (fun bytes hbytes => ?_) fun _ _ => hs)
  have hreplace : Keeps Anything (fun t => m.Recorded t.release)
      (releaseFile.run (replaceServiceFile bytes)) := by
    intro s hs
    refine Wp.part ((replace_replaced bytes s.release).mono ?_ ?_ ?_)
    · rintro _ t rfl
      exact hs.replaced haccepts hbytes .of_whole
    · rintro _ t (⟨-, ht⟩ | ⟨-, rfl⟩)
      · exact hs.replaced haccepts hbytes ht
      · exact hs
    · exact fun t ht => hs.replaced haccepts hbytes ht
  exact (hreplace.bind fun _ => Keeps.bind
    ((leaves_deleteManagedFile (outlying_release.spares _)).keeps m.Recorded) fun _ =>
      (leaves_deleteManagedFile (outlying_release.spares _)).keeps m.Recorded) s hs

omit [Unicode] [Deserialize FileSet] [Deserialize ServiceUpgradeJournal] in
theorem keeps_runUpgrade (bundle : Bundle) (verified : VerifiedBundle)
    (previous : Option ManagedFile) {journal : Result ServiceUpgradeJournal}
    (haccepts : ∀ found, journal = .ok found → m.Accepts found.candidate) :
    Keeps Anything (fun t => m.Recorded t.release)
      (runUpgrade bundle verified previous journal) := by
  refine Keeps.bind ((leaves_stageCandidateBinary (outlying_release.spares _) (outlying_release.spares _) _ _).keeps m.Recorded) fun _ => ?_
  intro s hs
  refine Wp.bind (Wp.lift (fun found hfound => ?_) fun _ _ => hs)
  have hclear : Keeps Anything (fun t => m.Recorded t.release) clearJournal :=
    (Leaves.bind (Leaves.part (fun _ _ => rfl) _) fun _ => Leaves.part (fun _ _ => rfl) _).keeps
      m.Recorded
  have hpersist : ∀ journal, Keeps Anything (fun t => m.Recorded t.release)
      (persistJournal journal) := fun journal =>
    (Leaves.bind (Leaves.part (fun _ _ => rfl) _) fun _ => (Leaves.lift _).bind fun _ =>
      Leaves.part (fun _ _ => rfl) _).keeps m.Recorded
  refine (Keeps.bind (keeps_executeServiceUpgrade found.candidate hpersist
    ((leaves_stopService outlying_release.toOffService).keeps m.Recorded)
    (fun journal => (leaves_activateCandidate outlying_release _ journal).keeps m.Recorded)
    (fun journal => (leaves_verifyCandidateHealth outlying_release.toOffService journal).keeps m.Recorded)
    (fun journal => (leaves_rollbackService outlying_release journal).keeps m.Recorded)
    (fun journal hjournal => keeps_finalizeUpgrade _ (hjournal ▸ haccepts found hfound)) hclear rfl)
    fun _ => Keeps.pure _) s hs

omit [Platform] [Unicode] [Ed25519] [Sha256] [Deserialize Keyring] [Deserialize FileSet]
  [Deserialize ServiceUpgradeJournal] in
theorem wp_loadReleaseRecord {t : Machine} (ht : t.release = m.release) :
    Wp Anything loadReleaseRecord
      (fun installed u => m.Recorded u.release ∧
        ((installed = none ∧ m.release.settled = none) ∨
          ∃ record, installed = some record ∧ m.release.Records record))
      (fun _ u => m.Recorded u.release) (fun u => m.Recorded u.release) t := by
  refine Wp.part ((wp_loadDocument decodeReleaseRecord t.release).mono ?_ ?_ ?_)
  · rintro installed file ⟨hclear, rfl, hloaded⟩
    rw [ht] at hclear hloaded ⊢
    refine ⟨.inl ⟨by cases m.release.settled <;> rfl, iff_of_false ?_ hclear⟩, ?_⟩
    · simp [ServiceFile.Ambiguous, releaseFile]
    · rcases hloaded with ⟨hsettled, rfl⟩ | ⟨bytes, record, hsettled, hdecode, rfl⟩
      · exact .inl ⟨rfl, hsettled⟩
      · exact .inr ⟨record, rfl, hclear, bytes, hsettled, hdecode⟩
  · rintro _ file halike
    rw [ht] at halike
    exact .inl halike
  · rintro file halike
    rw [ht] at halike
    exact .inl halike

omit [Platform] in
/-- The decision is about the record that the same run has found. -/
theorem wp_planInstall (bundle : Bundle) (m : Machine) :
    Wp Anything (planInstall bundle)
      (fun plan t => m.Accepts plan.bundle.candidate ∧ m.Recorded t.release)
      (fun _ t => m.Recorded t.release) (fun t => m.Recorded t.release) m := by
  have hrelease := outlying_release.toOffService
  have hsame : ∀ t : Machine, t.release = m.release → m.Recorded t.release := by
    rintro t ht
    rw [ht]
    exact .inl ServiceFile.Alike.refl
  have hkeyring : Leaves (·.release) (readServiceBundle bundle) := by
    refine (Leaves.lift _).bind fun _ => (Leaves.part (fun _ _ => rfl) _).bind fun _ =>
      (Leaves.lift _).bind fun _ => (Leaves.lift _).bind fun _ => (Leaves.lift _).bind fun _ =>
      (Leaves.lift _).bind fun _ => Leaves.pure _
  have hjournal : Leaves (·.release) loadUpgradeJournal := Leaves.part (fun _ _ => rfl) _
  have hdecide : ∀ (service : Bool) (t : Machine), t.release = m.release → Wp Anything (do
      let installed ← loadReleaseRecord
      lift (rejectIf (service && installed.isNone) (.new .recoveryIncomplete
        "pre-release service without a protected release record must be removed manually"))
      let verified ← readServiceBundle bundle
      let decision ← lift (decideServiceUpgrade verified.candidate installed)
      let journal ← loadUpgradeJournal
      pure { service, installed, bundle := verified, decision, journal } : SetupProg InstallPlan)
      (fun plan t => m.Accepts plan.bundle.candidate ∧ m.Recorded t.release)
      (fun _ t => m.Recorded t.release) (fun t => m.Recorded t.release) t := by
    intro service t ht
    refine Wp.bind ((wp_loadReleaseRecord ht).mono ?_ (fun _ _ h => h) (fun _ h => h))
    rintro installed u ⟨hu, hinstalled⟩
    refine Wp.bind (Wp.lift (fun _ _ => ?_) fun _ _ => hu)
    refine Wp.bind ((hkeyring.keeps m.Recorded u hu).mono ?_ (fun _ _ h => h) (fun _ h => h))
    intro verified v hv
    refine Wp.bind (Wp.lift (fun decision hdecision => ?_) fun _ _ => hv)
    refine Wp.bind ((hjournal.keeps m.Recorded v hv).mono ?_ (fun _ _ h => h) (fun _ h => h))
    intro journal w hw
    refine Wp.pure ⟨⟨decision, ?_⟩, hw⟩
    rcases hinstalled with ⟨rfl, hsettled⟩ | ⟨record, rfl, hrecord⟩
    · exact .inl ⟨hsettled, hdecision⟩
    · exact .inr ⟨record, hrecord, hdecision⟩
  unfold planInstall
  refine Wp.bind ((Leaves.inquire (·.release) _ m.release m rfl).mono ?_ (fun _ => hsame) hsame)
  intro _ t ht
  refine Wp.bind ((leaves_openSetupService hrelease m.release t ht).mono ?_ (fun _ => hsame) hsame)
  intro service t ht
  cases service with
  | false =>
    refine Wp.bind ((Leaves.inquire (·.release) _ m.release t ht).mono ?_ (fun _ => hsame) hsame)
    exact fun _ u hu => hdecide false u hu
  | true =>
    refine Wp.bind ((Leaves.inquire (·.release) _ m.release t ht).mono ?_ (fun _ => hsame) hsame)
    exact fun _ u hu => hdecide true u hu

/-- One run of the installer, whatever it ends with. -/
theorem recorded_ensureSystemService (bundle : Bundle) (m : Machine) :
    Wp Anything (ensureSystemService bundle) (fun _ t => m.Recorded t.release)
      (fun _ t => m.Recorded t.release) (fun t => m.Recorded t.release) m := by
  have hfind : ∀ service previous absent, Keeps Anything (fun t => m.Recorded t.release)
      (previousBinary service previous absent) :=
    fun service previous absent => (leaves_previousBinary _ service previous absent).keeps m.Recorded
  have hnew : ∀ {candidate previous path} (found : ServiceUpgradeJournal), m.Accepts candidate →
      ServiceUpgradeJournal.new candidate previous path = .ok found → m.Accepts found.candidate := by
    intro candidate previous path found haccepts hfound
    obtain ⟨⟨⟩, -, hok⟩ := Result.bind_eq_ok.mp hfound
    cases hok
    exact haccepts
  have hinstall : Wp Anything (installSystemService bundle) (fun _ t => m.Recorded t.release)
      (fun _ t => m.Recorded t.release) (fun t => m.Recorded t.release) m := by
    refine Wp.bind ((wp_planInstall bundle m).mono ?_ (fun _ _ h => h) (fun _ h => h))
    rintro ⟨service, installed, verified, decision, journal⟩ t ⟨haccepts, ht⟩
    have haccepts : m.Accepts verified.candidate := haccepts
    cases journal with
    | some journal =>
      refine Wp.bind (Wp.lift (fun _ hcheck => ?_) fun _ _ => ht)
      have hcandidate : journal.candidate = verified.candidate := by
        have hcheck := rejectIf_eq_ok.mp hcheck
        simp only [Bool.or_eq_false_iff, decide_eq_false_iff_not, ne_eq, not_not] at hcheck
        exact hcheck.1.1
      refine (Keeps.bind (hfind _ _ _) fun previous => keeps_runUpgrade bundle _ previous ?_) t ht
      rintro found hfound
      cases hfound
      rwa [hcandidate]
    | none =>
      cases decision with
      | keepCompatible =>
        exact ((Keeps.lift _).bind fun _ =>
          ((leaves_verifyManagedBinary _ _).keeps m.Recorded).bind fun _ =>
          ((leaves_ensureExpectedServiceConfig _ _).keeps m.Recorded).bind fun _ =>
          ((leaves_startAndWait outlying_release.toOffService).keeps m.Recorded).bind fun _ =>
          ((leaves_verifyRunningService _ _).keeps m.Recorded).bind fun _ =>
          ((Leaves.part (fun _ _ => rfl) _).keeps m.Recorded).bind fun _ => Keeps.pure _) t ht
      | install => exact keeps_runUpgrade bundle _ none (fun found => hnew found haccepts) t ht
      | upgrade =>
        exact ((Keeps.lift _).bind fun _ => (hfind _ _ _).bind fun previous =>
          keeps_runUpgrade bundle _ previous fun found => hnew found haccepts) t ht
  refine Wp.bind (hinstall.mono ?_ (fun _ _ h => h) (fun _ h => h))
  intro outcome t ht
  have hentry : Leaves (·.release) (Step.run {
      effect := fun m => .ok ((), { m with uninstallEntry := true })
      fault := .new .registryIo
        "Programs and Features entry for the service cannot be written" } : SetupProg Unit) :=
    Leaves.whole .plain fun _ _ _ h => by cases h; rfl
  exact (((Leaves.inquire (·.release) _).keeps m.Recorded).bind fun _ =>
    (hentry.keeps m.Recorded).bind fun _ => Keeps.pure outcome) t ht

/-! ### Any number of runs -/

omit [Platform] [Unicode] [Ed25519] [Sha256] [Deserialize Keyring] [Deserialize FileSet]
  [Deserialize ServiceUpgradeJournal] in
theorem Machine.Recorded.records {file : ServiceFile} (h : m.Recorded file)
    {record : ServiceReleaseRecord} (hrecord : file.Records record) :
    m.release.Records record ∨ m.Accepts record := by
  rcases h with halike | ⟨candidate, bytes, haccepts, hencode, -, n, hsettled⟩
  · exact .inl (halike.records.mp hrecord)
  · obtain ⟨-, found, hfound, hdecode⟩ := hrecord
    obtain rfl := Option.some.inj (hsettled.symm.trans hfound)
    obtain rfl := decodeReleaseRecord_take hencode hdecode
    exact .inr haccepts

omit [Platform] [Unicode] [Ed25519] [Sha256] [Deserialize Keyring] [Deserialize FileSet]
  [Deserialize ServiceUpgradeJournal] in
theorem Machine.Accepts.major {record : ServiceReleaseRecord} (h : m.Accepts record) :
    ∃ version, record.version = .ok version ∧ version.major = protocolMajor := by
  obtain ⟨decision, ⟨-, hdecide⟩ | ⟨_, -, hdecide⟩⟩ := h
  · exact decideServiceUpgrade_major hdecide
  · exact decideServiceUpgrade_major hdecide

/-- All records that may be found are of the protocol's major version. -/
def Machine.Compatible (m : Machine) : Prop :=
  ∀ record, m.release.Records record →
    ∃ version, record.version = .ok version ∧ version.major = protocolMajor

/-- There is a record, and whatever record is found may follow this one. -/
def Machine.Follows (m : Machine) (record : ServiceReleaseRecord) : Prop :=
  m.release.settled ≠ none ∧ ∀ next, m.release.Records next → record.Precedes next

theorem recorded_of_step {t : Machine}
    (h : ∃ bundle, EndsIn Anything (ensureSystemService bundle) m t) : m.Recorded t.release := by
  obtain ⟨bundle, sch, o, rest, -, hrun⟩ := h
  have hend := (recorded_ensureSystemService bundle m).result (fun _ _ => trivial) hrun
  cases o <;> exact hend

theorem Machine.Compatible.runs {t : Machine} (h : m.Compatible) (hruns : SetupRuns m t) :
    t.Compatible := by
  induction hruns with
  | refl => exact h
  | tail _ hstep ih =>
    intro record hrecord
    rcases (recorded_of_step hstep).records hrecord with hsame | haccepts
    · exact ih record hsame
    · exact haccepts.major

theorem Machine.Follows.runs {t : Machine} {record : ServiceReleaseRecord} (h : m.Follows record)
    (hruns : SetupRuns m t) : t.Follows record := by
  induction hruns with
  | refl => exact h
  | tail _ hstep ih =>
    have hrecorded := recorded_of_step hstep
    refine ⟨?_, fun next hnext => ?_⟩
    · rcases hrecorded with halike | ⟨_, _, _, _, _, n, hsettled⟩
      · rw [halike.settled]
        exact ih.1
      · simp [hsettled]
    · rcases hrecorded.records hnext with hsame | ⟨decision, ⟨hnone, -⟩ | ⟨found, hfound, hdecide⟩⟩
      · exact ih.2 next hsame
      · exact absurd hnone ih.1
      · exact (ih.2 found hfound).trans (decideServiceUpgrade_precedes hdecide)

/-- Once a load has returned a record, every later one that returns anything returns a record of
the same major version which is the same release or a later one. -/
theorem releases_move_forward {m₀ m m' u u' : Machine} (hfresh : m₀.release = ⟨none, none, none⟩)
    (h : SetupRuns m₀ m) (h' : SetupRuns m m') {record : ServiceReleaseRecord}
    {found : Option ServiceReleaseRecord} {sch sch' rest rest' : Schedule Empty}
    (hload : loadReleaseRecord m sch = (.ok (some record), u, rest))
    (hload' : loadReleaseRecord m' sch' = (.ok found, u', rest')) :
    ∃ next version version', found = some next ∧
      record.version = .ok version ∧ next.version = .ok version' ∧
      version.major = protocolMajor ∧ version'.major = protocolMajor ∧
      version.order ≤ version'.order ∧
      (next.digest ≠ record.digest → version.order < version'.order) := by
  have hloaded : ∀ {t v : Machine} {installed : Option ServiceReleaseRecord}
      {sch rest : Schedule Empty}, loadReleaseRecord t sch = (.ok installed, v, rest) →
      (installed = none ∧ t.release.settled = none) ∨
        ∃ record, installed = some record ∧ t.release.Records record :=
    fun hload => ((wp_loadReleaseRecord rfl).result (fun _ _ => trivial) hload).2
  have hrecord : m.release.Records record := by
    rcases hloaded hload with ⟨hnone, -⟩ | ⟨_, hsome, hrecord⟩
    · cases hnone
    · cases hsome
      exact hrecord
  have hstart : m₀.Compatible := by
    rintro record ⟨-, bytes, hsettled, -⟩
    simp [hfresh, ServiceFile.settled] at hsettled
  obtain ⟨version, hversion, hmajor⟩ := hstart.runs h record hrecord
  have hfollows : m.Follows record := by
    refine ⟨?_, fun next hnext => ?_⟩
    · obtain ⟨-, bytes, hsettled, -⟩ := hrecord
      simp [hsettled]
    · obtain ⟨-, bytes, hsettled, hdecode⟩ := hrecord
      obtain ⟨-, bytes', hsettled', hdecode'⟩ := hnext
      obtain rfl := Option.some.inj (hsettled.symm.trans hsettled')
      obtain rfl := Except.ok.inj (hdecode.symm.trans hdecode')
      exact .refl hversion
  have hlater := hfollows.runs h'
  rcases hloaded hload' with ⟨-, hnone⟩ | ⟨next, rfl, hnext⟩
  · exact absurd hnone hlater.1
  · obtain ⟨v, v', hv, hv', hle, hlt⟩ := hlater.2 next hnext
    obtain rfl := Except.ok.inj (hversion.symm.trans hv)
    obtain ⟨w, hw, hmajor'⟩ := (hstart.runs h).runs h' next hnext
    obtain rfl := Except.ok.inj (hv'.symm.trans hw)
    exact ⟨next, version, v', rfl, hversion, hv', hmajor, hmajor', hle, hlt⟩

end Run

end Runs

section Sample

attribute [local instance] setupExternals releaseRecords upgradeJournals samplePlatform

/-- A second run, which crashes where it has recovered the record. -/
noncomputable def resumedSetup : Machine :=
  (ensureSystemService serviceBundle crashedSetup (List.replicate 3 .go ++ [.crash .after])).2.1

theorem releases_move_forward_resumed :
    ∃ record version, (loadReleaseRecord resumedSetup []).1 = .ok (some record) ∧
      record.version = .ok version ∧ version.major = protocolMajor := by
  have hruns : ∀ (m : Machine) (sch : Schedule Empty),
      SetupRuns m (ensureSystemService serviceBundle m sch).2.1 :=
    fun m sch => .single ⟨serviceBundle, EndsIn.of_run rfl fun _ _ => trivial⟩
  have hcrashed : SetupRuns .fresh crashedSetup := hruns .fresh _
  have hresumed : SetupRuns crashedSetup resumedSetup := hruns crashedSetup _
  obtain ⟨hfirst, hsome, hsecond⟩ : (loadReleaseRecord crashedSetup []).1.isOk = true ∧
      (loadReleaseRecord crashedSetup []).1 ≠ .ok none ∧
      (loadReleaseRecord resumedSetup []).1.isOk = true := by decide +kernel
  obtain ⟨found, hload⟩ := exists_ok hfirst
  obtain ⟨found', hload'⟩ := exists_ok hsecond
  cases found with
  | none => exact absurd (congrArg Prod.fst hload) hsome
  | some record =>
    obtain ⟨next, -, version, rfl, -, hversion, -, hmajor, -⟩ :=
      releases_move_forward rfl hcrashed hresumed hload hload'
    exact ⟨next, version, congrArg Prod.fst hload', hversion, hmajor⟩

end Sample

end Installer

end Se7en
