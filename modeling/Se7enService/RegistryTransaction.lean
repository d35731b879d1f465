import Se7enService.RegistrySet
import Se7enService.Journal
import Se7enService.ServiceFile
set_option autoImplicit false

/-! The registry transactions of `windows.rs`: `apply_registry_set_transaction` and
`recover_registry_transaction` over the registry, the journal and the registry generations. -/

namespace Se7en
open Faulty

/-- How Windows tells registry names apart. -/
class RegistryNames where
  fold : String → String

/-- A value with its Win32 type. -/
structure StoredRegistryValue where
  data : Bytes
  valueType : UInt32
  deriving DecidableEq, Repr

structure RegistryTransactionValue where
  name : String
  previous : Option StoredRegistryValue
  deriving DecidableEq, Repr

inductive RegistryTransactionPhase where
  | prepared
  | committed
  deriving DecidableEq, Repr

structure RegistryTransactionJournal where
  kind : String
  phase : RegistryTransactionPhase
  schema : UInt64
  scopeId : String
  subkey : String
  values : List RegistryTransactionValue
  view : RegistryView
  deriving DecidableEq, Repr

def registryTransactionKind : String := "7launcher-registry-transaction-v1"
def registryTransactionSchema : UInt64 := 1
def maxRegistryValueBytes : Nat := 64 * 1024
def maxRegistrySnapshotBytes : Nat := 1024 * 1024
def maxRegistryTransactionBytes : Nat := 4 * 1024 * 1024

/-- A key of the machine's registry; `subkey` is folded. -/
structure RegistryKey where
  view : RegistryView
  subkey : String
  deriving DecidableEq, Repr

/-- The values of the registry, by their folded names. -/
abbrev Hive := RegistryKey → String → Option StoredRegistryValue

/-- The durable data of registry transactions, and the accepted generations that the
running service holds. -/
structure RegistryStore where
  hive : Hive
  transaction : ServiceFile
  generations : ServiceFile
  accepted : GenerationRegistry

abbrev StoreProg (α : Type) := Prog RegistryStore MaintenanceError Empty α

def transactionFile : Part RegistryStore ServiceFile where
  get s := s.transaction
  set transaction s := { s with transaction }

def generationFile : Part RegistryStore ServiceFile where
  get s := s.generations
  set generations s := { s with generations }

/-! ### Encoding -/

def RegistryTransactionPhase.text : RegistryTransactionPhase → String
  | .prepared => "prepared"
  | .committed => "committed"

def StoredRegistryValue.toValue (value : StoredRegistryValue) : Value :=
  .object [
    ("data", .array (value.data.map fun byte => unsigned byte.toUInt64)),
    ("valueType", unsigned value.valueType.toUInt64)]

def RegistryTransactionValue.toValue (value : RegistryTransactionValue) : Value :=
  .object [
    ("name", .string value.name),
    ("previous", optional StoredRegistryValue.toValue value.previous)]

instance : Serialize RegistryTransactionJournal where
  toValue journal := .object [
    ("kind", .string journal.kind),
    ("phase", .string journal.phase.text),
    ("schema", unsigned journal.schema),
    ("scopeId", .string journal.scopeId),
    ("subkey", .string journal.subkey),
    ("values", .array (journal.values.map RegistryTransactionValue.toValue)),
    ("view", .string journal.view.text)]

theorem RegistryTransactionPhase.text_injective {p p' : RegistryTransactionPhase}
    (h : p.text = p'.text) : p = p' := by
  cases p <;> cases p' <;> first | rfl | exact absurd h (by decide)

theorem byte_injective : Function.Injective fun byte : UInt8 => unsigned byte.toUInt64 := by
  intro a b hab
  have hnat := congrArg UInt64.toNat (unsigned_inj.mp hab)
  exact UInt8.toNat_inj.mp (by simpa using hnat)

theorem StoredRegistryValue.toValue_regular (value : StoredRegistryValue) :
    value.toValue.Regular := by
  refine ⟨⟨?_, trivial, trivial⟩, sorted_of_keys ["data", "valueType"] rfl (by decide)⟩
  rw [Value.Regular, regularItems_iff]
  simp only [List.forall_mem_map]
  exact fun _ _ => trivial

theorem StoredRegistryValue.toValue_injective : Function.Injective StoredRegistryValue.toValue := by
  intro v v' h
  simp only [toValue, Value.object.injEq, List.cons.injEq, Prod.mk.injEq, true_and, and_true,
    Value.array.injEq] at h
  cases v; cases v'
  simp only [mk.injEq]
  exact ⟨List.map_injective_iff.mpr byte_injective h.1, index_injective h.2⟩

theorem RegistryTransactionValue.toValue_regular (value : RegistryTransactionValue) :
    value.toValue.Regular :=
  ⟨⟨trivial, optional_regular StoredRegistryValue.toValue_regular _, trivial⟩,
    sorted_of_keys ["name", "previous"] rfl (by decide)⟩

theorem RegistryTransactionValue.toValue_injective :
    Function.Injective RegistryTransactionValue.toValue := by
  intro v v' h
  simp only [toValue, Value.object.injEq, List.cons.injEq, Prod.mk.injEq, true_and, and_true,
    Value.string.injEq] at h
  cases v; cases v'
  simp only [mk.injEq]
  exact ⟨h.1, optional_injective StoredRegistryValue.toValue_injective (fun _ => nofun) h.2⟩

instance : LawfulSerialize RegistryTransactionJournal where
  regular journal := by
    refine ⟨⟨trivial, trivial, trivial, trivial, trivial, ?_, trivial, trivial⟩, sorted_of_keys
      ["kind", "phase", "schema", "scopeId", "subkey", "values", "view"] rfl (by decide)⟩
    rw [Value.Regular, regularItems_iff]
    simp only [List.forall_mem_map]
    exact fun value _ => value.toValue_regular
  injective journal journal' h := by
    simp only [toValue, Value.object.injEq, List.cons.injEq, Prod.mk.injEq, true_and, and_true,
      Value.string.injEq, Value.array.injEq, unsigned_inj] at h
    obtain ⟨hkind, hphase, hschema, hscope, hsubkey, hvalues, hview⟩ := h
    cases journal; cases journal'
    simp only [RegistryTransactionJournal.mk.injEq]
    exact ⟨hkind, RegistryTransactionPhase.text_injective hphase, hschema, hscope, hsubkey,
      List.map_injective_iff.mpr RegistryTransactionValue.toValue_injective hvalues,
      RegistryView.text_injective hview⟩

/-! ### Values of the registry -/

/-- `char::encode_utf16`. -/
def encodeUtf16 (c : Char) : List UInt16 :=
  if c.toNat < 0x10000 then [UInt16.ofNat c.toNat]
  else
    [UInt16.ofNat (0xD800 + (c.toNat - 0x10000) / 0x400),
      UInt16.ofNat (0xDC00 + (c.toNat - 0x10000) % 0x400)]

def littleEndian (word : UInt16) : Bytes := [word.toUInt8, (word >>> 8).toUInt8]

/-- `u32::to_le_bytes`. -/
def toLeBytes (data : UInt32) : Bytes :=
  [data.toUInt8, (data >>> 8).toUInt8, (data >>> 16).toUInt8, (data >>> 24).toUInt8]

def regSz : UInt32 := 1
def regBinary : UInt32 := 3
def regDword : UInt32 := 4

def encodedRegistryValue [Base64] : RegistryValue → Result StoredRegistryValue
  | .string _ data =>
    .ok ⟨(data.toList.flatMap encodeUtf16 ++ [0]).flatMap littleEndian, regSz⟩
  | .dword _ data => .ok ⟨toLeBytes data, regDword⟩
  | .binary _ data => do pure ⟨← decodeRegistryBinary data, regBinary⟩

section Programs

variable [RegistryNames]

def RegisteredRegistryScope.key (scope : RegisteredRegistryScope) : RegistryKey where
  view := scope.view
  subkey := RegistryNames.fold scope.subkey

def Hive.get (hive : Hive) (key : RegistryKey) (name : String) : Option StoredRegistryValue :=
  hive key (RegistryNames.fold name)

def Hive.set (hive : Hive) (key : RegistryKey) (name : String)
    (value : Option StoredRegistryValue) : Hive := fun k n =>
  if k = key ∧ n = RegistryNames.fold name then value else hive k n

/-- The handle is opened with the rights that the service has; this may fail. -/
def openRegistryScopeKey (scope : RegisteredRegistryScope) :
    Step RegistryStore MaintenanceError RegistryKey where
  effect s := .ok (scope.key, s)
  fault := .new .registryScopeInvalid "registered HKLM scope cannot be opened by the service"

def registryValueSnapshot (key : RegistryKey) (name : String) :
    Step RegistryStore MaintenanceError (Option StoredRegistryValue) where
  effect s := match s.hive.get key name with
    | none => .ok (none, s)
    | some value =>
      if value.data.length > maxRegistryValueBytes then
        .error (.new .registrySetLimit "existing registry value exceeds the rollback bound")
      else .ok (some value, s)
  fault := .new .registryIo "registry value metadata cannot be queried"

/-- `RegSetValueExW` and `RegDeleteValueW`: one value changes as a whole, also when the call
reports an error. -/
def storeRegistryValue (key : RegistryKey) (name : String) (value : Option StoredRegistryValue)
    (fault : MaintenanceError) : Step RegistryStore MaintenanceError Unit where
  effect s := .ok ((), { s with hive := s.hive.set key name value })
  fault := fault
  failed
    | .before, s => s
    | _, s => { s with hive := s.hive.set key name value }

def setRegistryValue [Base64] (key : RegistryKey) (value : RegistryValue) : StoreProg Unit := do
  let stored ← lift (encodedRegistryValue value)
  (storeRegistryValue key value.name (some stored)
    (.new .registryIo "registry value cannot be written")).run

def setRegistryValues [Base64] (key : RegistryKey) : List RegistryValue → StoreProg Unit
  | [] => pure ()
  | value :: values => do
    setRegistryValue key value
    setRegistryValues key values

/-- An absent value is not deleted again. -/
def restoreRegistryValue (key : RegistryKey) (value : RegistryTransactionValue) :
    StoreProg Unit :=
  (storeRegistryValue key value.name value.previous
    (.new .recoveryIncomplete "registry transaction rollback did not complete")).run

def restoreReversed (key : RegistryKey) : List RegistryTransactionValue → StoreProg Unit
  | [] => pure ()
  | value :: values => do
    restoreRegistryValue key value
    restoreReversed key values

def restoreRegistryValues (key : RegistryKey) (values : List RegistryTransactionValue) :
    StoreProg Unit :=
  restoreReversed key values.reverse

/-! ### The journal -/

def snapshotError : MaintenanceError :=
  .new .registrySetLimit "registry rollback snapshots exceed the bound"

def snapshotRegistryValues (key : RegistryKey) (totalSize : Nat) :
    List RegistryValue → StoreProg (List RegistryTransactionValue)
  | [] => pure []
  | value :: values => do
    let previous ← (registryValueSnapshot key value.name).run
    let totalSize := totalSize + (previous.map (·.data.length)).getD 0
    lift (rejectIf (previous.isSome && totalSize > maxRegistrySnapshotBytes) snapshotError)
    let snapshots ← snapshotRegistryValues key totalSize values
    pure ({ name := value.name, previous } :: snapshots)

def createRegistryTransaction (scope : RegisteredRegistryScope) (values : List RegistryValue) :
    StoreProg (RegistryKey × RegistryTransactionJournal) := do
  let key ← (openRegistryScopeKey scope).run
  let snapshots ← snapshotRegistryValues key 0 values
  pure (key, {
    kind := registryTransactionKind
    phase := .prepared
    schema := registryTransactionSchema
    scopeId := scope.scopeId
    subkey := scope.subkey
    values := snapshots
    view := scope.view })

omit [RegistryNames] in
def RegistryTransactionJournal.encode (journal : RegistryTransactionJournal) : Result Bytes :=
  encodeBounded journal maxRegistryTransactionBytes
    (.new .registrySetLimit "registry transaction journal exceeds the bound")

omit [RegistryNames] in
def writeRegistryTransaction (journal : RegistryTransactionJournal) : StoreProg Unit := do
  let bytes ← lift journal.encode
  transactionFile.run (replaceServiceFile bytes)

omit [RegistryNames] in
def removeRegistryTransaction : StoreProg Unit :=
  transactionFile.run (removeServiceFile
    (.new .recoveryIncomplete "registry transaction journal cannot be removed"))

/-! ### Applying a registry set -/

omit [RegistryNames] in
def saveAccepted : StoreProg Unit := do
  let registry ← look (·.accepted)
  generationFile.run registry.save

omit [RegistryNames] in
def acceptGeneration (scopeId : String) (record : GenerationRecord) : StoreProg Unit := do
  let registry ← lift ((← look (·.accepted)).accept scopeId record)
  assign ({ · with accepted := registry })
  saveAccepted

/-- What is done after a failed save of the generation or of the marker; the answer tells
whether all of it succeeded. -/
def undoRegistrySet (previous : GenerationRegistry) (key : RegistryKey)
    (journal : RegistryTransactionJournal) : StoreProg Bool := do
  assign ({ · with accepted := previous })
  let generation ← attempt saveAccepted
  let values ← attempt (restoreRegistryValues key journal.values)
  let removed ← attempt removeRegistryTransaction
  pure (generation.isOk && values.isOk && removed.isOk)

structure AppliedRegistrySet where
  appliedValues : Nat
  generation : UInt64
  scopeId : String
  deriving DecidableEq, Repr

def applyRegistrySetTransaction [Base64] [Unicode] (scope : RegisteredRegistryScope)
    (manifest : VerifiedRegistrySet) : StoreProg AppliedRegistrySet := do
  let (key, journal) ← createRegistryTransaction scope manifest.registrySet.values
  writeRegistryTransaction journal
  match ← attempt (setRegistryValues key manifest.registrySet.values) with
  | .error error =>
    match ← attempt (do
      restoreRegistryValues key journal.values
      removeRegistryTransaction) with
    | .error _ =>
      throw (.new .recoveryIncomplete "failed registry mutation could not be rolled back")
    | .ok () => throw error
  | .ok () =>
    let previous ← look (·.accepted)
    match ← attempt (acceptGeneration scope.scopeId manifest.record) with
    | .error error =>
      if ← undoRegistrySet previous key journal then
        throw error
      throw (.new .recoveryIncomplete
        "registry generation persistence could not be rolled back")
    | .ok () =>
      match ← attempt (writeRegistryTransaction { journal with phase := .committed }) with
      | .error _ =>
        if ← undoRegistrySet previous key journal then
          throw (.new .registryIo "registry commit marker cannot be persisted")
        throw (.new .recoveryIncomplete "registry commit marker failure could not be rolled back")
      | .ok () =>
        removeRegistryTransaction
        pure {
          appliedValues := manifest.registrySet.values.length
          generation := manifest.registrySet.generation
          scopeId := scope.scopeId }

/-! ### Recovery -/

def RegistryScopeRegistry.resolveRegistered [Unicode] (registry : RegistryScopeRegistry)
    (scopeId : String) : Result RegisteredRegistryScope :=
  match registry.scopes.get? scopeId with
  | none => .error scopeNotFound
  | some scope => .ok scope

omit [RegistryNames] in
/-- The loop of `validate_registry_transaction` over the journaled values. -/
def checkSnapshots (scope : RegisteredRegistryScope) (totalSize : Nat) :
    List RegistryTransactionValue → Result Unit
  | [] => .ok ()
  | value :: values => do
    rejectIf (!scope.allowedValues.any fun allowed => eqIgnoreAsciiCase allowed.name value.name)
      (.new .recoveryIncomplete "registry transaction contains an unregistered value")
    let size := (value.previous.map (·.data.length)).getD 0
    rejectIf (value.previous.isSome
        && (size > maxRegistryValueBytes || totalSize + size > maxRegistrySnapshotBytes))
      snapshotError
    checkSnapshots scope (totalSize + size) values

omit [RegistryNames] in
def validateRegistryTransaction [Unicode] (journal : RegistryTransactionJournal)
    (scopes : RegistryScopeRegistry) : Result RegisteredRegistryScope := do
  rejectIf (journal.kind ≠ registryTransactionKind || journal.schema ≠ registryTransactionSchema
      || journal.values.isEmpty || journal.values.length > maxRegistryEntries)
    (.new .recoveryIncomplete "registry transaction journal schema or count is invalid")
  validateRegistrySubkey journal.subkey
  let scope ← scopes.resolveRegistered journal.scopeId
  rejectIf (scope.subkey ≠ journal.subkey || scope.view ≠ journal.view)
    (.new .recoveryIncomplete "registry transaction no longer matches its registered scope")
  checkSnapshots scope 0 journal.values
  pure scope

def recoverRegistryTransaction [Unicode] [Deserialize RegistryTransactionJournal]
    (scopes : RegistryScopeRegistry) : StoreProg Unit := do
  transactionFile.run recoverServiceFileReplacement
  if ← look (·.transaction.path.isNone) then
    return
  match ← look (readBounded ·.transaction.path maxRegistryTransactionBytes) with
  | none =>
    throw (.new .recoveryIncomplete "registry transaction journal cannot be read")
  | some bytes =>
    let journal : RegistryTransactionJournal ←
      lift (parseCanonical bytes maxRegistryTransactionBytes)
    let scope ← lift (validateRegistryTransaction journal scopes)
    if journal.phase = .prepared then
      let key ← (openRegistryScopeKey scope).run
      restoreRegistryValues key journal.values
    removeRegistryTransaction

end Programs

end Se7en
