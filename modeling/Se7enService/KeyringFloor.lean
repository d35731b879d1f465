import Se7enService.OneTransaction
set_option autoImplicit false

/-! The keyring that is installed, over runs of `install_verified_keyring_bytes`. -/

namespace Se7en
open Faulty

section Install

variable [Ed25519] [Sha256] [Deserialize Keyring]

def installedKeyringAcceptance (bytes : Bytes) : Result KeyringAcceptance :=
  match verifyKeyring bytes {} with
  | .error e =>
    .error (.new e.code
      "installed keyring is invalid; repair or uninstall the service before retrying")
  | .ok current => .ok {
      minimumVersion := current.keyring.version
      currentDigest := some current.digest }

def verifyCandidateKeyringBytes (sourceBytes : Bytes) : FileProg VerifiedKeyring := do
  recoverServiceFileReplacement
  if ← look (·.path.isSome) then
    match ← look (readBounded ·.path maxManifestBytes) with
    | none => throw (.new .manifestTooLarge "protected service trust file exceeds the bound")
    | some currentBytes => do
      let acceptance ← lift (installedKeyringAcceptance currentBytes)
      lift (verifyKeyring sourceBytes acceptance)
  else lift (verifyKeyring sourceBytes {})

def installVerifiedKeyringBytes (sourceBytes : Bytes) : FileProg Unit := do
  let _ ← verifyCandidateKeyringBytes sourceBytes
  recoverServiceFileReplacement
  replaceServiceFile sourceBytes

/-- A recovery of the file puts this keyring at its path. -/
structure InstalledKeyring (file : ServiceFile) (bytes : Bytes) (verified : VerifiedKeyring) :
    Prop where
  clear : ¬ file.Ambiguous
  settled : file.settled = some bytes
  verified : verifyKeyring bytes {} = .ok verified

/-- A keyring that may be installed in place of another. -/
structure VerifiedKeyring.Succeeds (current next : VerifiedKeyring) : Prop where
  version : current.keyring.version ≤ next.keyring.version
  digest : current.keyring.version = next.keyring.version → current.digest = next.digest

variable {bytes : Bytes} {file : ServiceFile} {verified current next later : VerifiedKeyring}

omit [Ed25519] [Sha256] [Deserialize Keyring] in
theorem VerifiedKeyring.Succeeds.refl : current.Succeeds current := ⟨UInt64.le_refl _, fun _ => rfl⟩

omit [Ed25519] [Sha256] [Deserialize Keyring] in
theorem VerifiedKeyring.Succeeds.trans (h : current.Succeeds next) (h' : next.Succeeds later) :
    current.Succeeds later where
  version := UInt64.le_trans h.version h'.version
  digest hsame := by
    have hnext : current.keyring.version = next.keyring.version :=
      UInt64.le_antisymm h.version (hsame ▸ h'.version)
    exact (h.digest hnext).trans (h'.digest (hnext.symm.trans hsame))

/-- What is accepted beside an installed keyring is a keyring of its own, and succeeds it. -/
theorem verifyKeyring_eq_ok {acceptance : KeyringAcceptance}
    (h : verifyKeyring bytes acceptance = .ok verified) :
    verifyKeyring bytes {} = .ok verified ∧ verified.keyring.version ≠ 0 ∧
      verified.digest = sha256 bytes ∧
      acceptance.minimumVersion ≤ verified.keyring.version ∧
      (verified.keyring.version = acceptance.minimumVersion →
        ∀ digest, acceptance.currentDigest = some digest → digest = verified.digest) := by
  unfold verifyKeyring verifyKeyringWithRoot at h
  obtain ⟨keyring, hparse, h⟩ := Result.bind_eq_ok.mp h
  obtain ⟨⟨⟩, hshape, h⟩ := Result.bind_eq_ok.mp h
  obtain ⟨⟨⟩, hsignature, h⟩ := Result.bind_eq_ok.mp h
  obtain ⟨⟨⟩, hversion, h⟩ := Result.bind_eq_ok.mp h
  obtain ⟨⟨⟩, hdigest, h⟩ := Result.bind_eq_ok.mp h
  cases h
  have hnonzero : keyring.version ≠ 0 := by
    unfold validateKeyringShape at hshape
    obtain ⟨⟨⟩, hkind, -⟩ := Result.bind_eq_ok.mp hshape
    simp only [rejectIf_eq_ok, Bool.or_eq_false_iff, decide_eq_false_iff_not] at hkind
    exact hkind.2
  simp only [rejectIf_eq_ok, decide_eq_false_iff_not, UInt64.not_lt] at hversion
  refine ⟨?_, hnonzero, rfl, hversion, ?_⟩
  · simp only [verifyKeyring, verifyKeyringWithRoot, hparse, hshape, hsignature, Result.ok_bind]
    simp [rejectIf]
  · intro hsame digest hcurrent
    simp only at hsame
    have hminimum : acceptance.minimumVersion ≠ 0 := hsame ▸ hnonzero
    simpa [hsame, hminimum, hcurrent] using hdigest

theorem installedKeyringAcceptance_eq_ok {acceptance : KeyringAcceptance}
    (h : installedKeyringAcceptance bytes = .ok acceptance) :
    ∃ current, verifyKeyring bytes {} = .ok current ∧
      acceptance = ⟨current.keyring.version, some current.digest⟩ := by
  unfold installedKeyringAcceptance at h
  cases hverify : verifyKeyring bytes {} with
  | error e => simp [hverify] at h
  | ok current =>
    rw [hverify] at h
    exact ⟨current, rfl, (Except.ok.inj h).symm⟩

/-- What a candidate is held against when the settled content of the file is this. -/
def settledAcceptance : Option Bytes → Result KeyringAcceptance
  | none => .ok {}
  | some bytes => installedKeyringAcceptance bytes

theorem wp_verifyCandidateKeyringBytes (source : Bytes) (file : ServiceFile) :
    Wp Anything (verifyCandidateKeyringBytes source)
      (fun verified t => t = ⟨file.settled, none, none⟩ ∧ ¬ file.Ambiguous ∧
        ∃ acceptance, settledAcceptance file.settled = .ok acceptance ∧
          verifyKeyring source acceptance = .ok verified)
      (fun _ t => file.Alike t) file.Alike file := by
  unfold verifyCandidateKeyringBytes
  refine Wp.bind ((recover_settled file).mono ?_ (fun _ _ h => h.2) (fun _ h => h))
  rintro _ t ⟨hclear, rfl⟩
  have halike : file.Alike ⟨file.settled, none, none⟩ := by
    refine ⟨?_, iff_of_false (by simp [ServiceFile.Ambiguous]) hclear⟩
    cases file.settled <;> rfl
  refine Wp.bind (Wp.look ?_)
  cases hsettled : file.settled with
  | none =>
    rw [hsettled] at halike
    simp only [Option.isSome_none, Bool.false_eq_true, if_false]
    exact Wp.lift (fun verified hverify => ⟨rfl, hclear, {}, rfl, hverify⟩) (fun _ _ => halike)
  | some bytes =>
    rw [hsettled] at halike
    simp only [Option.isSome_some, if_true]
    refine Wp.bind (Wp.look ?_)
    by_cases hlength : bytes.length ≤ maxManifestBytes
    · simp only [readBounded, Option.filter, hlength, decide_true, if_true]
      refine Wp.bind (Wp.lift (fun acceptance haccept => ?_) (fun _ _ => halike))
      exact Wp.lift (fun verified hverify => ⟨rfl, hclear, acceptance, haccept, hverify⟩)
        (fun _ _ => halike)
    · simp only [readBounded, Option.filter, hlength, decide_false, Bool.false_eq_true, if_false]
      exact Wp.throw halike

omit [Ed25519] [Sha256] [Deserialize Keyring] in
/-- A document that is replaced is there until the new one is. -/
theorem Replacing.settled_of_some {old bytes : Bytes} {s : ServiceFile}
    (h : Replacing (some old) bytes s) : s.settled = some old ∨ s.settled = some bytes := by
  cases h with
  | writing temporary => exact .inl rfl
  | moved _ => exact .inr rfl
  | activated => exact .inr rfl
  | finished => exact .inr rfl

/-- What one call leaves behind: the keyring that was installed, or one that succeeds it. -/
def Keyring.Raised (source bytes : Bytes) (current : VerifiedKeyring) (t : ServiceFile) : Prop :=
  ∃ bytes' next, InstalledKeyring t bytes' next ∧ current.Succeeds next ∧
    (bytes' = bytes ∨ bytes' = source)

theorem InstalledKeyring.alike {t : ServiceFile} (h : InstalledKeyring file bytes current)
    (halike : file.Alike t) : InstalledKeyring t bytes current :=
  ⟨mt halike.ambiguous.mp h.clear, halike.settled.trans h.settled, h.verified⟩

/-- The step lemma: wherever a call ends, the installed keyring has been raised at most. -/
theorem wp_installVerifiedKeyringBytes (source : Bytes) (h : InstalledKeyring file bytes current) :
    Wp Anything (installVerifiedKeyringBytes source)
      (fun _ => Keyring.Raised source bytes current)
      (fun _ => Keyring.Raised source bytes current) (Keyring.Raised source bytes current) file := by
  have hkept : ∀ t, file.Alike t → Keyring.Raised source bytes current t :=
    fun t ht => ⟨bytes, current, h.alike ht, .refl, .inl rfl⟩
  refine Wp.bind ((wp_verifyCandidateKeyringBytes source file).mono ?_ (fun _ => hkept) hkept)
  rintro verified t ⟨rfl, hclear, acceptance, haccept, hverify⟩
  rw [h.settled] at haccept ⊢
  obtain ⟨found, hfound, rfl⟩ := installedKeyringAcceptance_eq_ok haccept
  obtain rfl := Except.ok.inj (h.verified.symm.trans hfound)
  obtain ⟨hsource, -, hdigest, hversion, hsame⟩ := verifyKeyring_eq_ok hverify
  have hsucceeds : current.Succeeds verified :=
    ⟨hversion, fun heq => hsame heq.symm _ rfl⟩
  have hrested : InstalledKeyring ⟨some bytes, none, none⟩ bytes current :=
    ⟨by simp [ServiceFile.Ambiguous], rfl, h.verified⟩
  have hsettled : ∀ t, InstalledKeyring t bytes current → Keyring.Raised source bytes current t :=
    fun t ht => ⟨bytes, current, ht, .refl, .inl rfl⟩
  have hreplaced : ∀ t, Replacing (some bytes) source t → Keyring.Raised source bytes current t := by
    intro t ht
    rcases ht.settled_of_some with hold | hnew
    · exact hsettled t ⟨ht.not_ambiguous, hold, h.verified⟩
    · exact ⟨source, verified, ⟨ht.not_ambiguous, hnew, hsource⟩, hsucceeds, .inr rfl⟩
  refine Wp.bind ((recover_settled _).mono ?_ (fun _ t ht => hsettled t (hrested.alike ht.2))
    (fun t ht => hsettled t (hrested.alike ht)))
  rintro _ t ⟨-, rfl⟩
  refine replace_spec.mono ?_ (fun _ t ht => hreplaced t ht.1) (fun t ht => hreplaced t ht)
  rintro _ t rfl
  exact hreplaced _ .finished

/-- The candidate is refused beside what the file holds. -/
def RejectedKeyring (source : Bytes) (file : ServiceFile) : Prop :=
  ∃ e, settledAcceptance file.settled >>= verifyKeyring source = .error e

theorem wp_installVerifiedKeyringBytes_rejected {source : Bytes} (h : RejectedKeyring source file) :
    Wp Anything (installVerifiedKeyringBytes source) (fun _ => file.Alike) (fun _ => file.Alike)
      file.Alike file := by
  refine Wp.bind ((wp_verifyCandidateKeyringBytes source file).mono ?_ (fun _ _ h => h)
    (fun _ h => h))
  rintro verified t ⟨-, -, acceptance, haccept, hverify⟩
  obtain ⟨e, he⟩ := h
  rw [haccept, Result.ok_bind, hverify] at he
  cases he

/-! ### Runs -/

/-- Calls with any documents, one after the other, each ending anywhere. -/
abbrev KeyringRuns : ServiceFile → ServiceFile → Prop :=
  Relation.ReflTransGen fun s t => ∃ source sch, t = (installVerifiedKeyringBytes source s sch).2.1

theorem KeyringRuns.raised {t : ServiceFile} (hruns : KeyringRuns file t)
    (h : InstalledKeyring file bytes current) :
    ∃ bytes' next, InstalledKeyring t bytes' next ∧ current.Succeeds next := by
  induction hruns with
  | refl => exact ⟨bytes, current, h, .refl⟩
  | tail _ last ih =>
    obtain ⟨source, sch, rfl⟩ := last
    obtain ⟨bytes', next, hinstalled, hsucceeds⟩ := ih
    obtain ⟨bytes'', later, hlater, hraised, -⟩ :=
      (wp_installVerifiedKeyringBytes source hinstalled).anyEnd sch
    exact ⟨bytes'', later, hlater, hsucceeds.trans hraised⟩

omit [Ed25519] [Deserialize Keyring] in
/-- Two documents that SHA-256 does not tell apart. -/
def Collide (bytes bytes' : Bytes) : Prop := bytes ≠ bytes' ∧ sha256 bytes = sha256 bytes'

theorem InstalledKeyring.unique {bytes' : Bytes} (h : InstalledKeyring file bytes current)
    (h' : InstalledKeyring file bytes' next) : bytes = bytes' ∧ current = next := by
  obtain rfl := Option.some.inj (h.settled.symm.trans h'.settled)
  exact ⟨rfl, Except.ok.inj (h.verified.symm.trans h'.verified)⟩

/-- An installed keyring stays installed until a later version is, and a candidate that is
rejected leaves it alone. -/
theorem keyring_floor {t : ServiceFile} (h : KeyringRuns file t)
    (hinstalled : InstalledKeyring file bytes current) :
    (∃ bytes' next, InstalledKeyring t bytes' next) ∧
      (∀ bytes' next, InstalledKeyring t bytes' next →
        current.keyring.version ≤ next.keyring.version ∧
          (current.keyring.version = next.keyring.version → ¬ Collide bytes bytes' →
            bytes = bytes')) ∧
      ∀ source sch, RejectedKeyring source t →
        t.Alike (installVerifiedKeyringBytes source t sch).2.1 := by
  obtain ⟨bytes', next, hnext, hsucceeds⟩ := h.raised hinstalled
  refine ⟨⟨bytes', next, hnext⟩, ?_, ?_⟩
  · intro bytes'' next' hnext'
    obtain ⟨rfl, rfl⟩ := hnext.unique hnext'
    refine ⟨hsucceeds.version, fun hsame hcollide => ?_⟩
    have hdigest := hsucceeds.digest hsame
    rw [(verifyKeyring_eq_ok hinstalled.verified).2.2.1,
      (verifyKeyring_eq_ok hnext.verified).2.2.1] at hdigest
    by_contra hne
    exact hcollide ⟨hne, hdigest⟩
  · exact fun source sch hrejected => (wp_installVerifiedKeyringBytes_rejected hrejected).anyEnd sch

end Install

/-! ### Two versions -/

section Versions

open Windows

def laterKeyring : Keyring := { releaseKeyring with version := 2 }

@[reducible] noncomputable def keyringExternals : Externals := SampleDocuments.externals {
  keyrings := [releaseKeyring, laterKeyring]
  digests := [
    (textOf releaseKeyring, [91, 205, 80, 160, 182, 78, 84, 254, 22, 8, 94, 29, 114, 31, 230, 99,
      184, 7, 13, 240, 24, 166, 60, 15, 107, 255, 248, 3, 65, 186, 86, 8]),
    (textOf laterKeyring, [185, 208, 190, 134, 64, 240, 65, 250, 47, 151, 209, 196, 154, 167, 142, 145, 50,
      166, 66, 49, 197, 90, 183, 116, 173, 126, 188, 135, 116, 130, 28, 106])] }

attribute [local instance] keyringExternals

/-- The first version is installed; the second one is cut off before it is at its path. -/
noncomputable def keyringInterrupted : ServiceFile :=
  (installVerifiedKeyringBytes (textOf laterKeyring) ⟨some (textOf releaseKeyring), none, none⟩
    [.go, .go, .go, .go, .crash .before]).2.1

theorem keyring_floor_interrupted :
    keyringInterrupted = ⟨none, some (textOf laterKeyring), some (textOf releaseKeyring)⟩ ∧
    ∃ current, verifyKeyring (textOf releaseKeyring) {} = .ok current ∧
      (∃ bytes' next, InstalledKeyring keyringInterrupted bytes' next) ∧
      (∀ bytes' next, InstalledKeyring keyringInterrupted bytes' next →
        current.keyring.version ≤ next.keyring.version ∧
          (current.keyring.version = next.keyring.version → ¬ Collide (textOf releaseKeyring) bytes' →
            textOf releaseKeyring = bytes')) ∧
      ∀ source sch, RejectedKeyring source keyringInterrupted →
        keyringInterrupted.Alike (installVerifiedKeyringBytes source keyringInterrupted sch).2.1 := by
  have hverified : (verifyKeyring (textOf releaseKeyring) {}).isOk = true := by decide +kernel
  obtain ⟨current, hcurrent⟩ : ∃ current, verifyKeyring (textOf releaseKeyring) {} = .ok current := by
    cases hverify : verifyKeyring (textOf releaseKeyring) {} with
    | error e => simp [hverify, Except.isOk, Except.toBool] at hverified
    | ok current => exact ⟨current, rfl⟩
  have hinstalled :
      InstalledKeyring ⟨some (textOf releaseKeyring), none, none⟩ (textOf releaseKeyring) current :=
    ⟨by simp [ServiceFile.Ambiguous], rfl, hcurrent⟩
  have hruns : KeyringRuns ⟨some (textOf releaseKeyring), none, none⟩ keyringInterrupted :=
    .single ⟨textOf laterKeyring, _, rfl⟩
  exact ⟨by decide +kernel, current, hcurrent, keyring_floor hruns hinstalled⟩

end Versions

end Se7en
