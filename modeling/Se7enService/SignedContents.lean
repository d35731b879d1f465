import Se7enService.CommitAnswer
set_option autoImplicit false

/-! A successful commit, and the two copies before it: what is installed is what was signed. -/

namespace Se7en
open Faulty

/-- The loop of `WindowsTransactionPlatform::prepare_target_payload`, which writes all it reads. -/
def copyPayload : List Bytes → Bytes → Bytes × Result Unit
  | [], written => (written, .ok ())
  | chunk :: chunks, written =>
    if UInt64.size ≤ (written ++ chunk).length then
      (written, .error (.new .transactionIo "prepared payload size overflowed"))
    else copyPayload chunks (written ++ chunk)

section Copies

variable [Sha256]

/-- `WindowsTransactionPlatform::prepare_target_payload` without its files: what is written, and
the verdict. -/
def prepareTargetPayload (source : List Bytes) (expected : FileEntry) : Bytes × Result Unit :=
  let (written, outcome) := copyPayload source []
  (written, do
    outcome
    checkPayload written expected
      (.new .fileSetHash "same-volume prepared payload failed signed hash verification"))

/-- A copy accepts the signed content only, and then is the content. -/
structure CopiesExactly (source : List Bytes) (expected : FileEntry) (copied : Bytes × Result Unit) :
    Prop where
  accepts : copied.2 = .ok () ↔ Matches expected source.flatten
  identical : copied.2 = .ok () → copied.1 = source.flatten

omit [Sha256] in
/-- The loop never writes more than the signed size, and gets through where no more is read. -/
theorem readVerified_spec (expected : FileEntry) (source : List Bytes) (written : Bytes)
    (h : written.length ≤ expected.size.toNat) :
    (readVerified expected source written).1.length ≤ expected.size.toNat ∧
    ((readVerified expected source written).2 = .ok () ↔
      (written ++ source.flatten).length ≤ expected.size.toNat) ∧
    ((readVerified expected source written).2 = .ok () →
      (readVerified expected source written).1 = written ++ source.flatten) := by
  induction source generalizing written with
  | nil => simp [readVerified, h]
  | cons chunk source ih =>
    have hsize : expected.size.toNat < UInt64.size := expected.size.toNat_lt
    simp only [readVerified, List.flatten_cons]
    by_cases hover : UInt64.size ≤ (written ++ chunk).length
    · simp only [hover, if_true, reduceCtorEq, false_iff, false_implies, and_true]
      simp only [List.length_append] at hover ⊢
      omega
    · by_cases hlarge : (written ++ chunk).length > expected.size.toNat
      · simp only [hover, hlarge, if_true, if_false, reduceCtorEq, false_iff, false_implies,
          and_true]
        simp only [List.length_append] at hlarge ⊢
        omega
      · simp only [hover, hlarge, if_false]
        have hnext := ih (written ++ chunk) (by omega)
        simpa only [List.append_assoc] using hnext

omit [Sha256] in
/-- This loop gets through unless the length overflows. -/
theorem copyPayload_spec (source : List Bytes) (written : Bytes) (h : written.length < UInt64.size) :
    ((copyPayload source written).2 = .ok () ↔
      (written ++ source.flatten).length < UInt64.size) ∧
    ((copyPayload source written).2 = .ok () →
      (copyPayload source written).1 = written ++ source.flatten) := by
  induction source generalizing written with
  | nil => simp [copyPayload, h]
  | cons chunk source ih =>
    simp only [copyPayload, List.flatten_cons]
    by_cases hover : UInt64.size ≤ (written ++ chunk).length
    · simp only [hover, if_true, reduceCtorEq, false_iff, false_implies, and_true]
      simp only [List.length_append] at hover ⊢
      omega
    · simp only [hover, if_false]
      have hnext := ih (written ++ chunk) (by omega)
      simpa only [List.append_assoc] using hnext

/-- A loop that lets the signed size through, and the check behind it. -/
theorem copiesExactly {source : List Bytes} {expected : FileEntry} {written : Bytes}
    {outcome : Result Unit} {mismatch : MaintenanceError}
    (hwhole : outcome = .ok () → written = source.flatten)
    (hthrough : source.flatten.length = expected.size.toNat → outcome = .ok ()) :
    CopiesExactly source expected
      (written, do outcome; checkPayload written expected mismatch) := by
  cases houtcome : outcome with
  | error e =>
    refine ⟨?_, by simp⟩
    simp only [Result.error_bind, reduceCtorEq, false_iff]
    intro hmatches
    exact absurd (hthrough hmatches.1) (by simp [houtcome])
  | ok =>
    have hwritten := hwhole houtcome
    subst hwritten
    exact ⟨checkPayload_eq_ok, fun _ => rfl⟩

theorem copiesExactly_copyReaderVerified (source : List Bytes) (expected : FileEntry) :
    CopiesExactly source expected (copyReaderVerified source expected) ∧
      (copyReaderVerified source expected).1.length ≤ expected.size.toNat := by
  obtain ⟨hbound, hthrough, hwhole⟩ := readVerified_spec expected source [] (Nat.zero_le _)
  simp only [List.nil_append] at hthrough hwhole
  exact ⟨copiesExactly hwhole fun hsize => hthrough.mpr hsize.le, hbound⟩

theorem copiesExactly_prepareTargetPayload (source : List Bytes) (expected : FileEntry) :
    CopiesExactly source expected (prepareTargetPayload source expected) := by
  obtain ⟨hthrough, hwhole⟩ := copyPayload_spec source [] (by decide)
  simp only [List.nil_append] at hthrough hwhole
  exact copiesExactly hwhole fun hsize => hthrough.mpr (hsize ▸ expected.size.toNat_lt)

end Copies

section Commit

variable [Unicode] [Sha256] [Deserialize JournalHeader] [Deserialize JournalStateRecord]
  [LawfulDeserialize JournalStateRecord]

/-- A preparation and a commit that report success leave the signed contents at the targets and
all other files as they were; and the two copies accept nothing else. -/
theorem signed_contents_installed :
    (∀ (policy : Policy), policy.usesAtomicReplacement = false →
      ∀ s : Service, Service.Reached policy (fun _ _ => True) s →
      ∀ (manifest : VerifiedFileSet) (root : RegisteredRoot),
      manifest.fileSet.paths.Pairwise Apart →
      ∀ (absolute : Bool) (staging : Staging) (stamp : Stamp) (preparing committing rest left :
        Schedule Intrusion) (job : PreparedJob) (d d₁ t : Disk) (result : CommitResult),
      (∀ e ∈ preparing, Quiet e) → (∀ e ∈ committing, Quiet e) →
      prepareFileSet manifest root absolute staging stamp policy s.disk preparing =
        (.ok job, d, rest) →
      Untouched root.canonicalPath job.header.jobId d d₁ →
      commitFileSet job d₁ committing = (.ok result, t, left) →
      manifest.fileSet.Installed root.canonicalPath t ∧
      ∀ p, (¬ ∃ path ∈ manifest.fileSet.paths, targetPath path = p) →
        t.target root.canonicalPath p = s.disk.target root.canonicalPath p ∨
          s.disk.target root.canonicalPath p = none ∧
            t.target root.canonicalPath p = some .directory) ∧
    ∀ (source : List Bytes) (expected : FileEntry),
      CopiesExactly source expected (copyReaderVerified source expected) ∧
      (copyReaderVerified source expected).1.length ≤ expected.size.toNat ∧
      CopiesExactly source expected (prepareTargetPayload source expected) := by
  refine ⟨?_, fun source expected => ?_⟩
  · intro policy hatomic s hs manifest root hpaths absolute staging stamp preparing committing rest
      left job d d₁ t result hpreparing hcommitting hprepare huntouched hcommit
    have htidy := (hs.sane hatomic).tidy
    have hprepared := ((wp_prepareFileSet_tidy htidy manifest root absolute staging stamp).result
      hpreparing hprepare).1
    have hjob := hprepared.job
    subst hjob
    have huntouched : Untouched hprepared.plan.path hprepared.plan.jobId d d₁ := huntouched
    have hready : ∀ entry ∈ hprepared.plan.entries,
        hprepared.plan.Ready entry (hprepared.plan.view entry d₁) := by
      intro entry he
      rw [huntouched.view]
      exact hprepared.ready he
    have hnew := (wp_commitFileSet_new (hprepared.sound hatomic hpaths) hready).result hcommitting
      hcommit
    refine ⟨hprepared.installed hnew, fun p hp => ?_⟩
    have hframe := (frame_commitFileSet hatomic).endsIn Frame.refl
      ⟨committing, _, left, hcommitting, hcommit⟩
    have hbefore : d₁.target root.canonicalPath p = s.disk.target root.canonicalPath p :=
      (huntouched.target p).trans (hprepared.target p)
    have hkept := hframe.target p (mt hprepared.targeted.mp hp)
    rw [← hbefore]
    exact hkept.imp id fun h => ⟨h.1, h.2.1⟩
  · have hverified := copiesExactly_copyReaderVerified source expected
    exact ⟨hverified.1, hverified.2, copiesExactly_prepareTargetPayload source expected⟩

end Commit

section Sample

attribute [local instance] sampleUnicode sampleSha256 sampleRecords sampleRecords_lawful
  sampleHeaders

def wholeCommit : Faulty.Result Disk MaintenanceError Intrusion CommitResult :=
  commitFileSet sampleJob samplePrepare.2.1 []

theorem signed_contents_installed_sample :
    sampleFileSet.Installed sampleRoot.canonicalPath wholeCommit.2.1 ∧
      (prepareTargetPayload [[], [1]] ⟨"a",
        "4bf5122f344554c53bde2ebb8cd2b7e3d1600ad631c385a5d7cce23c7785459a", 1⟩).1 = [1] := by
  have hreached : Service.Reached quietPolicy (fun _ _ => True) (.start (sampleDisk twoFiles)) :=
    sampleDisk_reached
  have hpaths : sampleManifest.fileSet.paths.Pairwise Apart := by decide
  obtain ⟨result, hcommit⟩ := exists_ok (r := wholeCommit) (by decide +kernel)
  obtain ⟨hinstalled, hcopies⟩ := signed_contents_installed
  refine ⟨(hinstalled quietPolicy rfl _ hreached sampleManifest sampleRoot hpaths _ _ _ [] [] _ _ _ _
    _ _ result (by simp) (by simp) samplePrepare_eq ⟨fun _ => rfl, rfl, rfl, rfl, rfl⟩ hcommit).1, ?_⟩
  exact (hcopies _ _).2.2.identical (by decide +kernel)

end Sample

end Se7en
