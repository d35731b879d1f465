import Se7enService.RegistryScopes
import Se7enService.Trust
set_option autoImplicit false

/-! The signed registry sets of `registry_set.rs` and the values they write. -/

namespace Se7en

def maxRegistrySetBytes : Nat := 64 * 1024
def maxRegistryStringBytes : Nat := 16 * 1024
def maxRegistryBinaryBytes : Nat := 16 * 1024

def registrySetSigningDomain : Bytes := utf8 "7launcher-registry-set-v1".toList
def registrySetKind : String := "7launcher-registry-set-v1"
def registrySetSchema : UInt64 := 1

inductive RegistryValue where
  | string : (name data : String) → RegistryValue
  | dword : (name : String) → (data : UInt32) → RegistryValue
  | binary : (name data : String) → RegistryValue
  deriving DecidableEq, Repr

def RegistryValue.name : RegistryValue → String
  | .string name _ | .dword name _ | .binary name _ => name

def RegistryValue.valueType : RegistryValue → RegistryValueKind
  | .string _ _ => .string
  | .dword _ _ => .dword
  | .binary _ _ => .binary

structure RegistrySet where
  generation : UInt64
  keyId : String
  kind : String
  productId : String
  schema : UInt64
  scopeId : String
  signature : String
  values : List RegistryValue
  deriving DecidableEq, Repr

structure RegistrySetAcceptance where
  allowedValues : List AllowedRegistryValue
  expectedProductId : String
  expectedScopeId : String
  previous : Option GenerationRecord

def RegistryValue.toValue : RegistryValue → Value
  | .string name data =>
    .object [("data", .string data), ("name", .string name), ("type", .string "string")]
  | .dword name data =>
    .object [("data", unsigned data.toUInt64), ("name", .string name), ("type", .string "dword")]
  | .binary name data =>
    .object [("data", .string data), ("name", .string name), ("type", .string "binary")]

def RegistrySet.payload (set : RegistrySet) : Value :=
  .object [
    ("generation", unsigned set.generation),
    ("keyId", .string set.keyId),
    ("kind", .string set.kind),
    ("productId", .string set.productId),
    ("schema", unsigned set.schema),
    ("scopeId", .string set.scopeId),
    ("values", .array (set.values.map RegistryValue.toValue))]

instance : Serialize RegistrySet where
  toValue set := .object [
    ("generation", unsigned set.generation),
    ("keyId", .string set.keyId),
    ("kind", .string set.kind),
    ("productId", .string set.productId),
    ("schema", unsigned set.schema),
    ("scopeId", .string set.scopeId),
    ("signature", .string set.signature),
    ("values", .array (set.values.map RegistryValue.toValue))]

/-- The standard alphabet of the `base64` crate. -/
class Base64 where
  decode : String → Option Bytes
  encode : Bytes → String

section Validation

variable [Base64]

def decodeRegistryBinary (data : String) : Result Bytes := do
  rejectIf
    (byteLength data > (maxRegistryBinaryBytes + 2) / 3 * 4 || data.toList.any (128 ≤ ·.toNat))
    (.new .registrySetLimit "registry binary data exceeds the encoded bound")
  match Base64.decode data with
  | none => throw (.new .jsonInvalid "registry binary data is not valid canonical base64")
  | some decoded =>
    rejectIf (decoded.length > maxRegistryBinaryBytes)
      (.new .registrySetLimit "registry binary data exceeds the decoded bound")
    rejectIf (Base64.encode decoded ≠ data)
      (.new .jsonInvalid "registry binary data is not canonical base64")
    pure decoded

def validateRegistryData : RegistryValue → Result Unit
  | .string _ data =>
    rejectIf (byteLength data > maxRegistryStringBytes || data.toList.any (·.toNat = 0))
      (.new .registrySetLimit "registry string data exceeds the bound or contains NUL")
  | .dword _ _ => .ok ()
  | .binary _ data => do
    let _ ← decodeRegistryBinary data
    pure ()

variable [Unicode]

/-- The loop of `validate_registry_set`; `names` is the set filled so far. -/
def checkRegistryValues (allowedValues : List AllowedRegistryValue) (names : List String) :
    List RegistryValue → Result Unit
  | [] => .ok ()
  | value :: values => do
    validateRegistryValueName value.name
    rejectIf (names.contains (Unicode.toLowercase value.name))
      (.new .registryValueInvalid "registry-set value names must be unique")
    validateRegistryData value
    rejectIf
      (!allowedValues.any fun candidate =>
        eqIgnoreAsciiCase candidate.name value.name && candidate.valueType = value.valueType)
      (.new .registryScopeUnauthorized "registry-set value is outside the registered allowlist")
    checkRegistryValues allowedValues (Unicode.toLowercase value.name :: names) values

def validateRegistrySet (set : RegistrySet) (acceptance : RegistrySetAcceptance) : Result Unit := do
  rejectIf (set.generation = 0 || !validIdentifier set.productId || !validIdentifier set.scopeId)
    (.new .jsonInvalid "registry-set generation, product ID, or scope ID is invalid")
  rejectIf (set.productId ≠ acceptance.expectedProductId)
    (.new .productMismatch "registry set does not belong to the registered product")
  rejectIf (set.scopeId ≠ acceptance.expectedScopeId)
    (.new .registryScopeInvalid "registry set does not belong to the registered scope")
  rejectIf (set.values.isEmpty || set.values.length > maxRegistryEntries)
    (.new .registrySetLimit "registry-set value count is outside the allowed range")
  checkRegistryValues acceptance.allowedValues [] set.values

/-- What the checks leave of the values: allowed, distinct and of encodable content. -/
structure RegistryValuesValid (allowedValues : List AllowedRegistryValue)
    (values : List RegistryValue) : Prop where
  distinct : values.Pairwise fun a b =>
    Unicode.toLowercase a.name ≠ Unicode.toLowercase b.name
  data : ∀ value ∈ values, validateRegistryData value = .ok ()
  allowed : ∀ value ∈ values, ∃ candidate ∈ allowedValues,
    eqIgnoreAsciiCase candidate.name value.name = true ∧ candidate.valueType = value.valueType

theorem checkRegistryValues_sound {allowedValues : List AllowedRegistryValue}
    {values : List RegistryValue} {names : List String}
    (h : checkRegistryValues allowedValues names values = .ok ()) :
    RegistryValuesValid allowedValues values ∧
      ∀ value ∈ values, Unicode.toLowercase value.name ∉ names := by
  induction values generalizing names with
  | nil => exact ⟨⟨.nil, nofun, nofun⟩, nofun⟩
  | cons value values ih =>
    unfold checkRegistryValues at h
    obtain ⟨⟨⟩, -, h⟩ := Result.bind_eq_ok.mp h
    obtain ⟨⟨⟩, hnames, h⟩ := Result.bind_eq_ok.mp h
    obtain ⟨⟨⟩, hdata, h⟩ := Result.bind_eq_ok.mp h
    obtain ⟨⟨⟩, hallowed, h⟩ := Result.bind_eq_ok.mp h
    simp only [rejectIf_eq_ok, Bool.not_eq_false', List.any_eq_true, Bool.and_eq_true,
      decide_eq_true_eq] at hallowed
    obtain ⟨hvalid, hrest⟩ := ih h
    refine ⟨⟨?_, ?_, ?_⟩, ?_⟩
    · refine List.pairwise_cons.mpr ⟨fun b hb hab => ?_, hvalid.distinct⟩
      exact hrest b hb (hab ▸ List.mem_cons_self)
    · exact List.forall_mem_cons.mpr ⟨hdata, hvalid.data⟩
    · exact List.forall_mem_cons.mpr ⟨hallowed, hvalid.allowed⟩
    · refine List.forall_mem_cons.mpr ⟨by simpa using hnames, fun b hb hmem => ?_⟩
      exact hrest b hb (List.mem_cons_of_mem _ hmem)

theorem validateRegistrySet_sound {set : RegistrySet} {acceptance : RegistrySetAcceptance}
    (h : validateRegistrySet set acceptance = .ok ()) :
    set.generation ≠ 0 ∧ validIdentifier set.scopeId = true ∧
      set.productId = acceptance.expectedProductId ∧ set.scopeId = acceptance.expectedScopeId ∧
      set.values ≠ [] ∧ set.values.length ≤ maxRegistryEntries ∧
      RegistryValuesValid acceptance.allowedValues set.values := by
  unfold validateRegistrySet at h
  obtain ⟨⟨⟩, hmetadata, h⟩ := Result.bind_eq_ok.mp h
  obtain ⟨⟨⟩, hproduct, h⟩ := Result.bind_eq_ok.mp h
  obtain ⟨⟨⟩, hscope, h⟩ := Result.bind_eq_ok.mp h
  obtain ⟨⟨⟩, hcount, h⟩ := Result.bind_eq_ok.mp h
  simp only [rejectIf_eq_ok, Bool.or_eq_false_iff, decide_eq_false_iff_not, Bool.not_eq_false',
    not_not, List.isEmpty_eq_false_iff, gt_iff_lt, not_lt] at hmetadata hproduct hscope hcount
  exact ⟨hmetadata.1.1, hmetadata.2, hproduct, hscope, hcount.1, hcount.2,
    (checkRegistryValues_sound h).1⟩

/-- A registry set whose signature and content have been checked. -/
structure VerifiedRegistrySet where
  digest : Vector UInt8 32
  registrySet : RegistrySet
  acceptance : RegistrySetAcceptance
  valid : validateRegistrySet registrySet acceptance = .ok ()

variable [Sha256] [Ed25519] [Deserialize RegistrySet]

omit [Base64] [Unicode] [Sha256] in
/-- The part of `verify_registry_set` that the acceptance does not enter. -/
def readSignedRegistrySet (bytes : Bytes) (keyring : VerifiedKeyring) : Result RegistrySet := do
  let registrySet : RegistrySet ← parseCanonical bytes maxRegistrySetBytes
  rejectIf (registrySet.kind ≠ registrySetKind || registrySet.schema ≠ registrySetSchema)
    (.new .jsonInvalid "registry-set kind or schema is unsupported")
  rejectIf (!validIdentifier registrySet.keyId)
    (.new .jsonInvalid "registry-set key ID is invalid")
  verifySignature (keyring.releaseVerifyingKey registrySet.keyId) registrySetSigningDomain
    registrySet.payload registrySet.signature "registry-set signature is invalid"
  pure registrySet

def verifyRegistrySet (bytes : Bytes) (keyring : VerifiedKeyring)
    (acceptance : RegistrySetAcceptance) : Result VerifiedRegistrySet := do
  let registrySet ← readSignedRegistrySet bytes keyring
  match hvalid : validateRegistrySet registrySet acceptance with
  | .error e => throw e
  | .ok () =>
    let digest := sha256 bytes
    checkPrevious acceptance.previous { generation := registrySet.generation, digest }
      (.new .registrySetRollback "registry-set generation is older than the accepted generation")
      (.new .generationConflict "registry-set generation was reused with another digest")
    pure { digest, registrySet, acceptance, valid := hvalid }

def VerifiedRegistrySet.record (manifest : VerifiedRegistrySet) :
    GenerationRecord where
  generation := manifest.registrySet.generation
  digest := manifest.digest

theorem verifyRegistrySet_sound {bytes : Bytes} {keyring : VerifiedKeyring}
    {acceptance : RegistrySetAcceptance} {manifest : VerifiedRegistrySet}
    (h : verifyRegistrySet bytes keyring acceptance = .ok manifest) :
    manifest.acceptance = acceptance ∧
      acceptance.previous.any (conflicts · manifest.record) = false := by
  unfold verifyRegistrySet at h
  obtain ⟨registrySet, -, h⟩ := Result.bind_eq_ok.mp h
  split at h
  · cases h
  · obtain ⟨⟨⟩, hprevious, h⟩ := Result.bind_eq_ok.mp h
    obtain rfl := Except.ok.inj h
    exact ⟨rfl, checkPrevious_eq_ok.mp hprevious⟩

end Validation

end Se7en
