import Se7enService.DirectRuns
import Se7enService.KeyringFloor
set_option autoImplicit false

/-! The release that the receipt of a launcher's root tells of, over runs of its helpers. -/

namespace Se7en
open Faulty

/-! ### The text of a release -/

theorem ReleaseKey.toValue_regular (key : ReleaseKey) : key.toValue.Regular :=
  ⟨⟨trivial, trivial, trivial⟩, sorted_of_keys ["keyId", "publicKey"] rfl (by decide)⟩

theorem ReleaseKey.toValue_injective : Function.Injective ReleaseKey.toValue := by
  intro k k' h
  simp only [toValue, Value.object.injEq, List.cons.injEq, Prod.mk.injEq, true_and, and_true,
    Value.string.injEq] at h
  obtain ⟨hid, hpublic⟩ := h
  cases k; cases k'
  simp only [mk.injEq]
  exact ⟨hid, hpublic⟩

theorem FileEntry.toValue_regular (entry : FileEntry) : entry.toValue.Regular :=
  ⟨⟨trivial, trivial, trivial, trivial⟩, sorted_of_keys ["path", "sha256", "size"] rfl (by decide)⟩

theorem FileEntry.toValue_injective : Function.Injective FileEntry.toValue := by
  intro e e' h
  simp only [toValue, Value.object.injEq, List.cons.injEq, Prod.mk.injEq, true_and, and_true,
    Value.string.injEq, unsigned_inj] at h
  obtain ⟨hpath, hhash, hsize⟩ := h
  cases e; cases e'
  simp only [mk.injEq]
  exact ⟨hpath, hhash, hsize⟩

theorem regular_strings (texts : List String) : (Value.array (texts.map .string)).Regular := by
  rw [Value.Regular, regularItems_iff]
  simp only [List.forall_mem_map]
  exact fun _ _ => trivial

theorem string_injective : Function.Injective Value.string := fun _ _ => Value.string.inj

instance : LawfulSerialize Keyring where
  regular keyring := by
    refine ⟨⟨regular_strings _, trivial, ?_, trivial, trivial, trivial, trivial⟩,
      sorted_of_keys ["authenticodeSignerThumbprints", "kind", "releaseKeys", "schema", "signature",
        "version"] rfl (by decide)⟩
    rw [Value.Regular, regularItems_iff]
    simp only [List.forall_mem_map]
    exact fun key _ => key.toValue_regular
  injective keyring keyring' h := by
    simp only [toValue, Value.object.injEq, List.cons.injEq, Prod.mk.injEq, true_and, and_true,
      Value.string.injEq, Value.array.injEq, unsigned_inj] at h
    obtain ⟨hthumbprints, hkind, hkeys, hschema, hsignature, hversion⟩ := h
    cases keyring; cases keyring'
    simp only [Keyring.mk.injEq]
    exact ⟨List.map_injective_iff.mpr string_injective hthumbprints, hkind,
      List.map_injective_iff.mpr ReleaseKey.toValue_injective hkeys, hschema, hsignature, hversion⟩

instance : LawfulSerialize FileSet where
  regular fileSet := by
    refine ⟨⟨?_, trivial, trivial, trivial, trivial, regular_strings _, trivial, trivial, trivial⟩,
      sorted_of_keys ["files", "generation", "keyId", "kind", "productId", "removeFiles", "schema",
        "signature"] rfl (by decide)⟩
    rw [Value.Regular, regularItems_iff]
    simp only [List.forall_mem_map]
    exact fun entry _ => entry.toValue_regular
  injective fileSet fileSet' h := by
    simp only [toValue, Value.object.injEq, List.cons.injEq, Prod.mk.injEq, true_and, and_true,
      Value.string.injEq, Value.array.injEq, unsigned_inj] at h
    obtain ⟨hfiles, hgeneration, hkey, hkind, hproduct, hremovals, hschema, hsignature⟩ := h
    cases fileSet; cases fileSet'
    simp only [FileSet.mk.injEq]
    exact ⟨List.map_injective_iff.mpr FileEntry.toValue_injective hfiles, hgeneration, hkey, hkind,
      hproduct, List.map_injective_iff.mpr string_injective hremovals, hschema, hsignature⟩

namespace Direct

instance : LawfulSerialize AcceptedRelease where
  regular release := ⟨⟨LawfulSerialize.regular release.fileSet, LawfulSerialize.regular release.keyring,
    trivial⟩, sorted_of_keys ["fileSet", "keyring"] rfl (by decide)⟩
  injective release release' h := by
    have hvalues : toValue release.fileSet = toValue release'.fileSet ∧
        toValue release.keyring = toValue release'.keyring := by
      have hfields : [("fileSet", toValue release.fileSet), ("keyring", toValue release.keyring)] =
          [("fileSet", toValue release'.fileSet), ("keyring", toValue release'.keyring)] :=
        Value.object.inj h
      simp only [List.cons.injEq, Prod.mk.injEq, true_and, and_true] at hfields
      exact hfields
    cases release; cases release'
    simp only [AcceptedRelease.mk.injEq]
    exact ⟨LawfulSerialize.injective _ _ hvalues.2, LawfulSerialize.injective _ _ hvalues.1⟩

/-! ### One release after another -/

theorem conflicts_eq_false {previous record : GenerationRecord} :
    conflicts previous record = false ↔ previous.generation ≤ record.generation ∧
      (record.generation = previous.generation → record.digest = previous.digest) := by
  unfold conflicts
  by_cases hsame : record.generation = previous.generation
  · simp [hsame]
  · simp [hsame, UInt64.not_lt]

section Releases

variable [Unicode]

/-- A release that may be accepted after another. -/
structure Follows (current next : VerifiedKeyring × VerifiedFileSet) : Prop where
  keyring : current.1.Succeeds next.1
  generation : current.2.fileSet.generation ≤ next.2.fileSet.generation
  digest : current.2.fileSet.generation = next.2.fileSet.generation →
    current.2.digest = next.2.digest

variable {current next later : VerifiedKeyring × VerifiedFileSet}

theorem Follows.refl : Follows current current :=
  ⟨.refl, UInt64.le_refl _, fun _ => rfl⟩

theorem Follows.trans (h : Follows current next) (h' : Follows next later) :
    Follows current later where
  keyring := h.keyring.trans h'.keyring
  generation := UInt64.le_trans h.generation h'.generation
  digest hsame := by
    have hnext : current.2.fileSet.generation = next.2.fileSet.generation :=
      UInt64.le_antisymm h.generation (hsame ▸ h'.generation)
    exact (h.digest hnext).trans (h'.digest (hnext.symm.trans hsame))

section Receipt

variable [Sha256] [Ed25519] [Deserialize Keyring] [Deserialize FileSet]

omit [Unicode] [Deserialize FileSet] in
/-- What has been verified are the canonical bytes of the keyring. -/
theorem verifyKeyring_written {bytes : Bytes} {acceptance : KeyringAcceptance}
    {verified : VerifiedKeyring} (h : verifyKeyring bytes acceptance = .ok verified) :
    canonicalJson (toValue verified.keyring) = .ok bytes := by
  unfold verifyKeyring verifyKeyringWithRoot at h
  obtain ⟨keyring, hparse, h⟩ := Result.bind_eq_ok.mp h
  obtain ⟨⟨⟩, -, h⟩ := Result.bind_eq_ok.mp h
  obtain ⟨⟨⟩, -, h⟩ := Result.bind_eq_ok.mp h
  obtain ⟨⟨⟩, -, h⟩ := Result.bind_eq_ok.mp h
  obtain ⟨⟨⟩, -, h⟩ := Result.bind_eq_ok.mp h
  cases h
  exact (canonicalJson_of_parseCanonical hparse).1

omit [Unicode] [Sha256] [Deserialize Keyring] in
theorem readSignedFileSet_written {bytes : Bytes} {keyring : VerifiedKeyring} {fileSet : FileSet}
    (h : readSignedFileSet bytes keyring = .ok fileSet) :
    canonicalJson (toValue fileSet) = .ok bytes := by
  obtain ⟨read, hparse, h⟩ := Result.bind_eq_ok.mp h
  obtain ⟨⟨⟩, -, h⟩ := Result.bind_eq_ok.mp h
  obtain ⟨⟨⟩, -, h⟩ := Result.bind_eq_ok.mp h
  obtain ⟨⟨⟩, -, h⟩ := Result.bind_eq_ok.mp h
  cases h
  exact (canonicalJson_of_parseCanonical hparse).1

omit [Deserialize Keyring] in
/-- The verified manifest is a function of its bytes and of the keyring. -/
theorem verifyFileSet_read {bytes : Bytes} {keyring : VerifiedKeyring}
    {acceptance : FileSetAcceptance} {manifest : VerifiedFileSet}
    (h : verifyFileSet bytes keyring acceptance = .ok manifest) :
    readSignedFileSet bytes keyring = .ok manifest.fileSet ∧ manifest.digest = sha256 bytes := by
  unfold verifyFileSet at h
  obtain ⟨fileSet, hread, h⟩ := Result.bind_eq_ok.mp h
  split at h
  · cases h
  · obtain ⟨⟨⟩, -, h⟩ := Result.bind_eq_ok.mp h
    cases h
    exact ⟨hread, rfl⟩

variable [Deserialize AcceptedRelease] {context : DirectContext} {inputs : Inputs}
  {receipt : ServiceFile} {keyring : VerifiedKeyring} {manifest : VerifiedFileSet}

/-- The receipt of a release is read as that release. -/
theorem acceptedRelease_of_records (haccepts : context.Accepts inputs receipt keyring manifest)
    {after : ServiceFile} (hrecords : Records after keyring manifest)
    {accepted : Option (VerifiedKeyring × VerifiedFileSet)}
    (h : context.acceptedRelease after = .ok accepted) :
    ∃ read, accepted = some (keyring, read) ∧ read.fileSet = manifest.fileSet ∧
      read.digest = manifest.digest := by
  obtain ⟨earlier, keyringBytes, manifestBytes, -, -, -, hkeyring, hmanifest⟩ := haccepts
  obtain ⟨document, hdocument, hpath⟩ := hrecords
  unfold DirectContext.acceptedRelease at h
  rw [hpath] at h
  obtain ⟨bytes, hbytes, h⟩ := Result.bind_eq_ok.mp h
  obtain ⟨cache, hparse, h⟩ := Result.bind_eq_ok.mp h
  obtain ⟨keyringText, hkeyringText, h⟩ := Result.bind_eq_ok.mp h
  obtain ⟨verified, hverified, h⟩ := Result.bind_eq_ok.mp h
  obtain ⟨manifestText, hmanifestText, h⟩ := Result.bind_eq_ok.mp h
  obtain ⟨read, hread, h⟩ := Result.bind_eq_ok.mp h
  obtain ⟨⟨⟩, -, hpure⟩ := Result.bind_eq_ok.mp h
  have hbytes : document = bytes := Except.ok.inj (readBoundedTo_eq_ok hbytes)
  subst hbytes
  have hcache : cache = AcceptedRelease.mk keyring.keyring manifest.fileSet :=
    canonicalJson_toValue_injective (canonicalJson_of_parseCanonical hparse).1 hdocument
  subst hcache
  -- both documents have the bytes that the preparation had verified
  have hkeyringSame : keyringText = keyringBytes :=
    Except.ok.inj (hkeyringText.symm.trans (verifyKeyring_written hkeyring))
  subst hkeyringSame
  have hverifiedSame : verified = keyring :=
    Except.ok.inj (hverified.symm.trans (verifyKeyring_eq_ok hkeyring).1)
  subst hverifiedSame
  obtain ⟨hfileSet, hdigest⟩ := verifyFileSet_read hmanifest
  have hmanifestSame : manifestText = manifestBytes :=
    Except.ok.inj (hmanifestText.symm.trans (readSignedFileSet_written hfileSet))
  subst hmanifestSame
  obtain ⟨hreadFileSet, hreadDigest⟩ := verifyFileSet_read hread
  cases hpure
  exact ⟨read, rfl, Except.ok.inj (hreadFileSet.symm.trans hfileSet), hreadDigest.trans hdigest.symm⟩

/-- What is accepted beside a receipt follows the release of the receipt. -/
theorem DirectContext.Accepts.follows (h : context.Accepts inputs receipt keyring manifest)
    (hcurrent : context.acceptedRelease receipt = .ok (some current)) :
    Follows current (keyring, manifest) := by
  obtain ⟨accepted, keyringBytes, manifestBytes, haccepted, -, -, hkeyring, hmanifest⟩ := h
  cases haccepted.symm.trans hcurrent
  obtain ⟨-, -, -, hversion, hconflict⟩ := verifyKeyring_eq_ok hkeyring
  have hprevious : conflicts current.2.record manifest.record = false :=
    (verifyFileSet_sound hmanifest).2
  obtain ⟨hgeneration, hdigest⟩ := conflicts_eq_false.mp hprevious
  exact ⟨⟨hversion, fun hsame => hconflict hsame.symm _ rfl⟩, hgeneration,
    fun hsame => (hdigest hsame.symm).symm⟩

/-- Whatever release the receipt is read as follows this one. -/
def DirectContext.NeverBefore (context : DirectContext) (current : VerifiedKeyring × VerifiedFileSet)
    (receipt : ServiceFile) : Prop :=
  ∀ accepted, context.acceptedRelease receipt = .ok accepted →
    ∃ next, accepted = some next ∧ Follows current next

theorem DirectContext.NeverBefore.same {after : ServiceFile}
    (h : context.NeverBefore current receipt) (hpath : after.path = receipt.path) :
    context.NeverBefore current after := by
  intro accepted haccepted
  refine h accepted ?_
  unfold DirectContext.acceptedRelease at haccepted ⊢
  rwa [← hpath]

theorem DirectContext.NeverBefore.accepts (h : context.NeverBefore current receipt)
    (haccepts : context.Accepts inputs receipt keyring manifest) :
    Follows current (keyring, manifest) := by
  obtain ⟨accepted, -, -, haccepted, -⟩ := id haccepts
  obtain ⟨next, rfl, hnext⟩ := h accepted haccepted
  exact hnext.trans (haccepts.follows haccepted)

theorem DirectContext.NeverBefore.records {after : ServiceFile}
    (h : context.NeverBefore current receipt)
    (haccepts : context.Accepts inputs receipt keyring manifest)
    (hrecords : Records after keyring manifest) : context.NeverBefore current after := by
  intro accepted haccepted
  obtain ⟨read, rfl, hfileSet, hdigest⟩ := acceptedRelease_of_records haccepts hrecords haccepted
  have hfollows := h.accepts haccepts
  refine ⟨_, rfl, hfollows.keyring, ?_, fun hsame => ?_⟩
  · exact hfileSet ▸ hfollows.generation
  · rw [hdigest]
    exact hfollows.digest (hfileSet ▸ hsame)

end Receipt

/-! ### Over runs -/

section Runs

omit [Unicode] in
theorem onDisk_receipt {α : Type} {p : JobProg α} {s t : UpdateState} {sch rest : Schedule Intrusion}
    {outcome : Outcome MaintenanceError α} (h : UpdateState.onDisk.run p s sch = (outcome, t, rest)) :
    t.receipt = s.receipt := by
  unfold Part.run at h
  cases h
  rfl

variable [Sha256] [Ed25519] [Deserialize Keyring] [Deserialize FileSet]
  [Deserialize JournalHeader] [Deserialize JournalStateRecord] [LawfulDeserialize JournalStateRecord]
  [Deserialize AcceptedRelease] {context : DirectContext} {start : TargetPath → Option Node}

theorem Helper.Step.neverBefore (htears : context.medium.tears = false)
    (hpaths : ∀ manifest, context.Signed manifest → manifest.fileSet.paths.Pairwise Apart)
    {s t : Helper} (hs : s.Sane context start) (h : Helper.Step context s t)
    (hbefore : context.NeverBefore current s.files.receipt) :
    context.NeverBefore current t.files.receipt := by
  cases h with
  | prepare inputs hquiet hrun =>
    rename_i outcome
    cases hs with
    | free hs =>
      have hend := (wp_prepareDirectLauncherUpdate htears hpaths inputs hs).result hquiet hrun
      cases outcome with
      | ok job =>
        obtain ⟨keyring, manifest, -, haccepts, hrecords, -⟩ := hend
        exact hbefore.records haccepts hrecords
      | error e => exact hbefore.same hend.2
      | crashed =>
        obtain ⟨-, hsame | ⟨keyring, manifest, haccepts, hrecords⟩⟩ := hend
        · exact hbefore.same hsame
        · exact hbefore.records haccepts hrecords
  | recover inputs hquiet hrun =>
    rename_i outcome
    cases hs with
    | free hs =>
      have hend := (wp_recoverDirectLauncherUpdate htears inputs hs).result hquiet hrun
      cases outcome <;> exact hbefore.same (congrArg _ hend.2)
  | commit hquiet hrun => exact hbefore.same (congrArg _ (onDisk_receipt hrun))
  | cancel hquiet hrun => exact hbefore.same (congrArg _ (onDisk_receipt hrun))
  | exit => exact hbefore

end Runs

end Releases

/-! ### A receipt of one release -/

section Receipted

attribute [local instance] sampleUnicode sampleSha256 sampleRecords sampleRecords_lawful
  updateSignatures updateKeyrings updateFileSets updateHeaders

def updateRelease : AcceptedRelease := ⟨updateKeyring, updateFileSet⟩

@[reducible] def updateReleases : Deserialize AcceptedRelease where
  fromSlice bytes := if bytes = lineText updateRelease then some updateRelease else none

attribute [local instance] updateReleases

def receiptedStart : UpdateState := ⟨sampleDisk oldFiles, ⟨some (lineText updateRelease), none, none⟩⟩

theorem exists_accepted {α β : Type} {x : Result (Option α)} {f : α → β} {b : β}
    (h : x.toOption.join.map f = some b) : ∃ a, x = .ok (some a) ∧ f a = b := by
  rcases x with _ | _ | a
  · simp [Except.toOption] at h
  · simp [Except.toOption] at h
  · exact ⟨a, rfl, Option.some.inj h⟩

theorem receipted_release : ∃ current,
    updateContext.acceptedRelease receiptedStart.receipt = .ok (some current) ∧
      current.2.fileSet.generation = 1 := by
  have hread : (updateContext.acceptedRelease receiptedStart.receipt).toOption.join.map
      (·.2.fileSet.generation) = some 1 := by
    decide +kernel
  exact exists_accepted hread

theorem exists_recovered (s : UpdateState) : ∃ t, Helper.Step updateContext ⟨s, none⟩ ⟨t, none⟩ := by
  rcases hrun : updateContext.recoverDirectLauncherUpdate updateInputs s [] with ⟨outcome, t, rest⟩
  exact ⟨t, .recover updateInputs (by simp) hrun⟩

end Receipted

end Direct

end Se7en
