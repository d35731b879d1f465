import Se7enService.FileSet
import Se7enService.Generations
set_option autoImplicit false

/-! The signed documents of `trust.rs` and `file_set.rs`: keyrings and file sets. -/

namespace Se7en

/-- `verify_strict` of the `ed25519_dalek` crate, and the keys it accepts. -/
class Ed25519 where
  validKey : Bytes → Bool
  verifyStrict : Bytes → Bytes → Bytes → Bool

def keyringSigningDomain : Bytes := utf8 "7launcher-maintenance-keyring-v1".toList
def fileSetSigningDomain : Bytes := utf8 "7launcher-file-set-v1".toList

def offlineRootPublicKey : Bytes :=
  [0x07, 0x63, 0xa6, 0xdd, 0x11, 0x62, 0x94, 0x8b, 0xbf, 0xb9, 0x9b, 0x0b, 0x7b, 0x0f, 0xfd, 0x98,
    0xfe, 0xf3, 0x74, 0x0a, 0x75, 0xb5, 0x50, 0x00, 0xf1, 0x04, 0xbd, 0xf7, 0x1a, 0xde, 0xc8, 0xd6]

def signingMessage (domain canonicalPayload : Bytes) : Bytes := domain ++ 0 :: canonicalPayload

def sha256 [Sha256] (bytes : Bytes) : Vector UInt8 32 :=
  Vector.ofFn fun i => (Sha256.digest bytes).getD i 0

/-- The check that the three verifications share; the key is looked up once the payload and
the signature could be decoded. -/
def verifySignature [Ed25519] (verifyingKey : Result Bytes) (domain : Bytes) (payload : Value)
    (signature detail : String) : Result Unit := do
  let payloadBytes ← canonicalJson payload
  let signatureBytes ← decodeLowerHex 64 signature .trustSignature
  let key ← verifyingKey
  rejectIf (!Ed25519.verifyStrict key (signingMessage domain payloadBytes) signatureBytes)
    (.new .trustSignature detail)

/-! ### Keyrings -/

structure ReleaseKey where
  keyId : String
  publicKey : String
  deriving DecidableEq, Repr

structure Keyring where
  authenticodeSignerThumbprints : List String
  kind : String
  releaseKeys : List ReleaseKey
  schema : UInt64
  signature : String
  version : UInt64
  deriving DecidableEq, Repr

structure KeyringAcceptance where
  minimumVersion : UInt64 := 0
  currentDigest : Option (Vector UInt8 32) := none

structure VerifiedKeyring where
  keyring : Keyring
  digest : Vector UInt8 32

def keyringKind : String := "7launcher-maintenance-keyring-v1"
def keyringSchema : UInt64 := 1
def maxReleaseKeys : Nat := 64
def maxSignerThumbprints : Nat := 64

def ReleaseKey.toValue (key : ReleaseKey) : Value :=
  .object [("keyId", .string key.keyId), ("publicKey", .string key.publicKey)]

def Keyring.payload (keyring : Keyring) : Value :=
  .object [
    ("authenticodeSignerThumbprints", .array (keyring.authenticodeSignerThumbprints.map .string)),
    ("kind", .string keyring.kind),
    ("releaseKeys", .array (keyring.releaseKeys.map ReleaseKey.toValue)),
    ("schema", unsigned keyring.schema),
    ("version", unsigned keyring.version)]

instance : Serialize Keyring where
  toValue keyring := .object [
    ("authenticodeSignerThumbprints", .array (keyring.authenticodeSignerThumbprints.map .string)),
    ("kind", .string keyring.kind),
    ("releaseKeys", .array (keyring.releaseKeys.map ReleaseKey.toValue)),
    ("schema", unsigned keyring.schema),
    ("signature", .string keyring.signature),
    ("version", unsigned keyring.version)]

section Keyrings

variable [Ed25519]

def VerifiedKeyring.releaseVerifyingKey (verified : VerifiedKeyring) (keyId : String) :
    Result Bytes := do
  match verified.keyring.releaseKeys.find? (·.keyId = keyId) with
  | none => throw (.new .trustUnknownKey "file set references an unknown release key")
  | some releaseKey =>
    let bytes ← decodeLowerHex 32 releaseKey.publicKey .trustUnknownKey
    rejectIf (!Ed25519.validKey bytes) (.new .trustUnknownKey "release public key is invalid")
    pure bytes

def validateReleaseKeys (keyIds : List String) : List ReleaseKey → Result Unit
  | [] => .ok ()
  | releaseKey :: rest => do
    rejectIf (!validIdentifier releaseKey.keyId || keyIds.contains releaseKey.keyId)
      (.new .jsonInvalid "release key IDs must be valid and unique")
    let publicKey ← decodeLowerHex 32 releaseKey.publicKey .trustUnknownKey
    rejectIf (!Ed25519.validKey publicKey)
      (.new .trustUnknownKey "release public key is invalid")
    validateReleaseKeys (releaseKey.keyId :: keyIds) rest

omit [Ed25519] in
def validateThumbprints (seen : List String) : List String → Result Unit
  | [] => .ok ()
  | thumbprint :: rest => do
    rejectIf (!(List.contains [40, 64] (byteLength thumbprint))
        || !(utf8 thumbprint.toList).all (fun byte => isAsciiDigit byte || 97 ≤ byte && byte ≤ 102)
        || seen.contains thumbprint)
      (.new .jsonInvalid "signer thumbprints must be unique lowercase SHA-1 or SHA-256 hex")
    validateThumbprints (thumbprint :: seen) rest

def validateKeyringShape (keyring : Keyring) : Result Unit := do
  rejectIf (keyring.kind ≠ keyringKind || keyring.schema ≠ keyringSchema || keyring.version = 0)
    (.new .jsonInvalid "keyring kind, schema, or version is unsupported")
  rejectIf (keyring.releaseKeys.isEmpty || keyring.releaseKeys.length > maxReleaseKeys)
    (.new .fileSetLimit "keyring release-key count is outside the allowed range")
  rejectIf (keyring.authenticodeSignerThumbprints.length > maxSignerThumbprints)
    (.new .fileSetLimit "keyring signer-thumbprint count exceeds the bound")
  validateReleaseKeys [] keyring.releaseKeys
  validateThumbprints [] keyring.authenticodeSignerThumbprints

variable [Sha256] [Deserialize Keyring]

def verifyKeyringWithRoot (bytes : Bytes) (acceptance : KeyringAcceptance) (rootPublicKey : Bytes) :
    Result VerifiedKeyring := do
  let keyring : Keyring ← parseCanonical bytes maxManifestBytes
  validateKeyringShape keyring
  let rootKey : Result Bytes :=
    if Ed25519.validKey rootPublicKey then .ok rootPublicKey
    else .error (.new .trustSignature "root public key is invalid")
  verifySignature rootKey keyringSigningDomain keyring.payload keyring.signature
    "keyring signature is invalid"
  let digest := sha256 bytes
  rejectIf (keyring.version < acceptance.minimumVersion)
    (.new .keyringRollback "keyring version is older than the accepted version")
  rejectIf (keyring.version = acceptance.minimumVersion && acceptance.minimumVersion ≠ 0
      && acceptance.currentDigest.any (· ≠ digest))
    (.new .keyringConflict "accepted keyring version has a different digest")
  pure { keyring, digest }

def verifyKeyring (bytes : Bytes) (acceptance : KeyringAcceptance) : Result VerifiedKeyring :=
  verifyKeyringWithRoot bytes acceptance offlineRootPublicKey

end Keyrings

/-! ### File sets -/

structure FileSetAcceptance where
  expectedProductId : String
  previous : Option GenerationRecord

def fileSetKind : String := "7launcher-file-set-v1"
def fileSetSchema : UInt64 := 1

def FileEntry.toValue (entry : FileEntry) : Value :=
  .object [("path", .string entry.path), ("sha256", .string entry.sha256),
    ("size", unsigned entry.size)]

def FileSet.payload (fileSet : FileSet) : Value :=
  .object [
    ("files", .array (fileSet.files.map FileEntry.toValue)),
    ("generation", unsigned fileSet.generation),
    ("keyId", .string fileSet.keyId),
    ("kind", .string fileSet.kind),
    ("productId", .string fileSet.productId),
    ("removeFiles", .array (fileSet.removeFiles.map .string)),
    ("schema", unsigned fileSet.schema)]

instance : Serialize FileSet where
  toValue fileSet := .object [
    ("files", .array (fileSet.files.map FileEntry.toValue)),
    ("generation", unsigned fileSet.generation),
    ("keyId", .string fileSet.keyId),
    ("kind", .string fileSet.kind),
    ("productId", .string fileSet.productId),
    ("removeFiles", .array (fileSet.removeFiles.map .string)),
    ("schema", unsigned fileSet.schema),
    ("signature", .string fileSet.signature)]

/-- The two comparisons with the accepted generation; `rollback` is the error of the first. -/
def checkPrevious (previous : Option GenerationRecord) (record : GenerationRecord)
    (rollback conflict : MaintenanceError) : Result Unit :=
  match previous with
  | none => .ok ()
  | some previous =>
    if record.generation < previous.generation then .error rollback
    else if record.generation = previous.generation && record.digest ≠ previous.digest then
      .error conflict
    else .ok ()

section FileSets

variable [Unicode] [Sha256] [Ed25519]

omit [Sha256] [Ed25519] in
/-- The product of a valid file set is the expected one. -/
theorem validateFileSet_product {fileSet : FileSet} {expected : String}
    (h : validateFileSet fileSet expected = .ok ()) : fileSet.productId = expected := by
  by_contra hne
  by_cases hmetadata : (decide (fileSet.generation = 0) || !validIdentifier fileSet.productId) = true
  · simp only [validateFileSet, hmetadata, if_true, Result.throw_eq, Result.error_bind] at h
    cases h
  · simp only [validateFileSet, hmetadata, ne_eq, hne, not_false_eq_true, if_true,
      Result.throw_eq, Result.error_bind] at h
    cases h

variable [Deserialize FileSet]

omit [Unicode] [Sha256] in
/-- The part of `verify_file_set` that the acceptance does not enter. -/
def readSignedFileSet (bytes : Bytes) (keyring : VerifiedKeyring) : Result FileSet := do
  let fileSet : FileSet ← parseCanonical bytes maxManifestBytes
  rejectIf (fileSet.kind ≠ fileSetKind || fileSet.schema ≠ fileSetSchema)
    (.new .jsonInvalid "file-set kind or schema is unsupported")
  rejectIf (!validIdentifier fileSet.keyId) (.new .jsonInvalid "file-set key ID is invalid")
  verifySignature (keyring.releaseVerifyingKey fileSet.keyId) fileSetSigningDomain fileSet.payload
    fileSet.signature "file-set signature is invalid"
  pure fileSet

def verifyFileSet (bytes : Bytes) (keyring : VerifiedKeyring) (acceptance : FileSetAcceptance) :
    Result VerifiedFileSet := do
  let fileSet ← readSignedFileSet bytes keyring
  match hvalid : validateFileSet fileSet acceptance.expectedProductId with
  | .error e => throw e
  | .ok () =>
    let digest := sha256 bytes
    checkPrevious acceptance.previous { generation := fileSet.generation, digest }
      (.new .fileSetRollback "file-set generation is older than the accepted generation")
      (.new .generationConflict "file-set generation was reused with another digest")
    pure { fileSet, digest, valid := by rw [validateFileSet_product hvalid]; exact hvalid }

def VerifiedFileSet.record (manifest : VerifiedFileSet) : GenerationRecord where
  generation := manifest.fileSet.generation
  digest := manifest.digest

omit [Unicode] [Sha256] [Ed25519] [Deserialize FileSet] in
theorem checkPrevious_eq_ok {previous : Option GenerationRecord} {record : GenerationRecord}
    {rollback conflict : MaintenanceError} :
    checkPrevious previous record rollback conflict = .ok () ↔
      previous.any (conflicts · record) = false := by
  cases previous with
  | none => simp [checkPrevious]
  | some previous =>
    by_cases hlt : record.generation < previous.generation
    · simp [checkPrevious, conflicts, hlt]
    · simp [checkPrevious, conflicts, hlt]

/-- What a file set that has been verified for a root satisfies. -/
theorem verifyFileSet_sound {bytes : Bytes} {keyring : VerifiedKeyring}
    {acceptance : FileSetAcceptance} {manifest : VerifiedFileSet}
    (h : verifyFileSet bytes keyring acceptance = .ok manifest) :
    manifest.fileSet.productId = acceptance.expectedProductId ∧
      acceptance.previous.any (conflicts · manifest.record) = false := by
  unfold verifyFileSet at h
  obtain ⟨fileSet, -, h⟩ := Result.bind_eq_ok.mp h
  split at h
  · cases h
  · rename_i hvalid
    obtain ⟨⟨⟩, hprevious, h⟩ := Result.bind_eq_ok.mp h
    cases h
    exact ⟨validateFileSet_product hvalid, checkPrevious_eq_ok.mp hprevious⟩

end FileSets

end Se7en
