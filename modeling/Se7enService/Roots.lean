import Se7enService.Json
import Se7enService.KeyedList
import Se7enService.RegistryFile
set_option autoImplicit false

/-! The root registry of `roots.rs`. -/

namespace Se7en

inductive RootKind where
  | launcher
  | game
  | library
  deriving DecidableEq, Repr

structure DirectoryIdentity where
  volumeSerial : UInt64
  fileId : Vector UInt8 16
  deriving DecidableEq, Repr

structure RegisteredRoot where
  rootId : String
  productId : String
  rootKind : RootKind
  canonicalPath : String
  identity : DirectoryIdentity
  ownerSid : String
  deriving DecidableEq, Repr

/-- A root that concrete runs are about. -/
def sampleRoot : RegisteredRoot where
  rootId := "games"
  productId := "launcher"
  rootKind := .launcher
  canonicalPath := "\\\\?\\C:\\Games"
  identity := ⟨1, Vector.replicate 16 0⟩
  ownerSid := "S-1-5-21-1000"

def maxRootRegistryBytes : Nat := 1024 * 1024
def maxRegisteredRoots : Nat := 256

def validOwnerSid (value : String) : Bool :=
  let bytes := utf8 value.toList
  (utf8 ['S', '-', '1', '-']).isPrefixOf bytes && bytes.length ≤ 184 &&
    bytes.all fun byte => isAsciiDigit byte || byte = 45 || byte = 83

def isSeparator (c : Char) : Bool := c = '\\' || c = '/'

/-- A server and a share after the two leading separators of a UNC path. -/
def hasServerAndShare (rest : List Char) : Bool :=
  let server := rest.takeWhile (!isSeparator ·)
  let share := (rest.drop (server.length + 1)).takeWhile (!isSeparator ·)
  !server.isEmpty && !share.isEmpty

/-- `Path::is_absolute` on Windows: verbatim, device, UNC and drive paths with a root. -/
def isAbsolute (path : List Char) : Bool :=
  match path with
  | '\\' :: '\\' :: '?' :: '\\' :: rest =>
    !(rest.take 4).contains '/' || hasServerAndShare ('?' :: '\\' :: rest)
  | first :: second :: rest =>
    if isSeparator first && isSeparator second then
      match rest with
      | '.' :: third :: tail => isSeparator third || hasServerAndShare ('.' :: third :: tail)
      | rest => hasServerAndShare rest
    else
      first.isAlpha && second = ':' && (rest.head?.map isSeparator).getD false
  | _ => false

def RegisteredRoot.validateStored (root : RegisteredRoot) : Result Unit :=
  if !validIdentifier root.rootId || !validIdentifier root.productId
      || !validOwnerSid root.ownerSid || !isAbsolute root.canonicalPath.toList then
    .error (.new .rootInvalid "stored root metadata is invalid")
  else .ok ()

def RegisteredRoot.fromCanonicalIdentity (rootId productId : String) (rootKind : RootKind)
    (canonicalPath : String) (identity : DirectoryIdentity) (ownerSid : String) :
    Result RegisteredRoot := do
  let root : RegisteredRoot := { rootId, productId, rootKind, canonicalPath, identity, ownerSid }
  root.validateStored
  pure root

structure RootRegistryDocument where
  kind : String
  roots : List RegisteredRoot
  schema : UInt64
  deriving DecidableEq, Repr

def rootRegistryKind : String := "7launcher-maintenance-roots-v1"
def rootRegistrySchema : UInt64 := 1

/-- The map of `RootRegistry` with what every operation on it keeps. -/
structure RootRegistry where
  roots : KeyedList RegisteredRoot String (·.rootId)
  valid : ∀ root ∈ roots.items, root.validateStored = .ok ()
  bounded : roots.items.length ≤ maxRegisteredRoots
  deriving DecidableEq

@[ext] theorem RootRegistry.ext {r r' : RootRegistry} (h : r.roots.items = r'.roots.items) :
    r = r' := by
  cases r; cases r'
  simp only [mk.injEq]
  exact KeyedList.ext h

def RootRegistry.new : RootRegistry := ⟨.empty, nofun, Nat.zero_le _⟩

def rootCountError : MaintenanceError := .new .rootInvalid "registered-root count exceeds the bound"

def RootRegistry.register (registry : RootRegistry) (root : RegisteredRoot) :
    Result RootRegistry :=
  match hvalid : root.validateStored with
  | .error e => .error e
  | .ok () =>
    if hcount : registry.roots.items.length ≥ maxRegisteredRoots then .error rootCountError
    else
      match hkey : registry.roots.containsKey root.rootId with
      | true => .error (.new .transactionConflict "root ID is already registered")
      | false => .ok {
          roots := registry.roots.insert root
          valid := KeyedList.forall_insert hvalid registry.valid
          bounded := KeyedList.length_insert_le hkey hcount }

def RootRegistry.resolveAccessible (registry : RootRegistry) (rootId callerSid : String) :
    Result RegisteredRoot := do
  match registry.roots.get? rootId with
  | none => throw (.new .rootNotFound "root ID is not registered")
  | some root =>
    if root.rootKind ≠ .library && root.ownerSid ≠ callerSid then
      throw (.new .rootUnauthorized "protected root belongs to another user SID")
    pure root

def RootRegistry.unregister (registry : RootRegistry) (rootId callerSid : String) :
    Result (RegisteredRoot × RootRegistry) := do
  let root ← registry.resolveAccessible rootId callerSid
  if registry.roots.containsKey rootId then
    pure (root, {
      roots := registry.roots.remove rootId
      valid := fun r hr => registry.valid r (List.mem_of_mem_filter hr)
      bounded := (registry.roots.length_remove_le rootId).trans registry.bounded })
  else throw (.new .rootNotFound "root ID is not registered")

def RootRegistry.resolveJob (registry : RootRegistry) (rootId callerSid productId : String) :
    Result RegisteredRoot := do
  let root ← registry.resolveAccessible rootId callerSid
  if root.productId ≠ productId then
    throw (.new .productMismatch "registered root belongs to another product")
  pure root

def RootRegistry.accessibleRootCount (registry : RootRegistry) (callerSid : String) : Nat :=
  (registry.roots.items.filter fun root =>
    root.rootKind = .library || root.ownerSid = callerSid).length

/-! ### What the operations do to the roots -/

theorem RootRegistry.register_eq_ok {registry registry' : RootRegistry} {root : RegisteredRoot}
    (h : registry.register root = .ok registry') :
    registry.roots.containsKey root.rootId = false ∧ registry'.roots = registry.roots.insert root := by
  unfold register at h
  split at h
  · cases h
  · split at h
    · cases h
    · split at h
      · cases h
      · rename_i hkey
        cases h
        exact ⟨hkey, rfl⟩

theorem RootRegistry.resolveAccessible_eq_ok {registry : RootRegistry} {rootId callerSid : String}
    {root : RegisteredRoot} (h : registry.resolveAccessible rootId callerSid = .ok root) :
    registry.roots.get? rootId = some root ∧
      (root.rootKind ≠ .library → callerSid = root.ownerSid) := by
  unfold resolveAccessible at h
  split at h
  · cases h
  · rename_i found hfound
    cases hforeign : (decide (found.rootKind ≠ .library) && decide (found.ownerSid ≠ callerSid)) with
    | true =>
      rw [hforeign] at h
      cases h
    | false =>
      rw [hforeign] at h
      cases h
      refine ⟨hfound, fun hkind => ?_⟩
      have howner : root.ownerSid = callerSid := by simpa [hkind] using hforeign
      exact howner.symm

theorem RootRegistry.unregister_eq_ok {registry registry' : RootRegistry}
    {rootId callerSid : String} {root : RegisteredRoot}
    (h : registry.unregister rootId callerSid = .ok (root, registry')) :
    registry.resolveAccessible rootId callerSid = .ok root ∧
      registry'.roots = registry.roots.remove rootId := by
  obtain ⟨found, hfound, h⟩ := Result.bind_eq_ok.mp h
  split at h
  · cases h
    exact ⟨hfound, rfl⟩
  · cases h

/-! ### The stored document -/

def RootKind.text : RootKind → String
  | .launcher => "launcher"
  | .game => "game"
  | .library => "library"

def DirectoryIdentity.toValue (identity : DirectoryIdentity) : Value :=
  .object [
    ("fileId", .array (identity.fileId.toList.map fun byte => unsigned byte.toUInt64)),
    ("volumeSerial", unsigned identity.volumeSerial)]

def RegisteredRoot.toValue (root : RegisteredRoot) : Value :=
  .object [
    ("canonicalPath", .string root.canonicalPath),
    ("identity", root.identity.toValue),
    ("ownerSid", .string root.ownerSid),
    ("productId", .string root.productId),
    ("rootId", .string root.rootId),
    ("rootKind", .string root.rootKind.text)]

instance : Serialize RootRegistryDocument where
  toValue document := .object [
    ("kind", .string document.kind),
    ("roots", .array (document.roots.map RegisteredRoot.toValue)),
    ("schema", unsigned document.schema)]

theorem RootKind.text_injective {k k' : RootKind} (h : k.text = k'.text) : k = k' := by
  cases k <;> cases k' <;> first | rfl | exact absurd h (by decide)

theorem DirectoryIdentity.toValue_regular (identity : DirectoryIdentity) :
    identity.toValue.Regular := by
  refine ⟨⟨?_, trivial, trivial⟩, sorted_of_keys ["fileId", "volumeSerial"] rfl (by decide)⟩
  rw [Value.Regular, regularItems_iff]
  simp only [List.forall_mem_map]
  exact fun _ _ => trivial

theorem DirectoryIdentity.toValue_injective {d d' : DirectoryIdentity}
    (h : d.toValue = d'.toValue) : d = d' := by
  simp only [toValue, Value.object.injEq, List.cons.injEq, Prod.mk.injEq, true_and,
    Value.array.injEq, and_true, unsigned_inj] at h
  obtain ⟨hid, hserial⟩ := h
  have hbyte : Function.Injective fun byte : UInt8 => unsigned byte.toUInt64 := by
    intro a b hab
    have hnat := congrArg UInt64.toNat (unsigned_inj.mp hab)
    exact UInt8.toNat_inj.mp (by simpa using hnat)
  have hlist := List.map_injective_iff.mpr hbyte hid
  cases d; cases d'
  simp only [mk.injEq]
  exact ⟨hserial, Vector.toList_inj.mp hlist⟩

theorem RegisteredRoot.toValue_regular (root : RegisteredRoot) : root.toValue.Regular :=
  ⟨⟨trivial, root.identity.toValue_regular, trivial, trivial, trivial, trivial, trivial⟩,
    sorted_of_keys ["canonicalPath", "identity", "ownerSid", "productId", "rootId", "rootKind"]
      rfl (by decide)⟩

theorem RegisteredRoot.toValue_injective : Function.Injective RegisteredRoot.toValue := by
  intro r r' h
  simp only [toValue, Value.object.injEq, List.cons.injEq, Prod.mk.injEq, true_and, and_true,
    Value.string.injEq] at h
  obtain ⟨hpath, hidentity, howner, hproduct, hid, hkind⟩ := h
  cases r; cases r'
  simp only [mk.injEq]
  exact ⟨hid, hproduct, RootKind.text_injective hkind, hpath,
    DirectoryIdentity.toValue_injective hidentity, howner⟩

instance : LawfulSerialize RootRegistryDocument where
  regular document := by
    refine ⟨⟨trivial, ?_, trivial, trivial⟩, sorted_of_keys ["kind", "roots", "schema"] rfl (by decide)⟩
    rw [Value.Regular, regularItems_iff]
    simp only [List.forall_mem_map]
    exact fun root _ => root.toValue_regular
  injective document document' h := by
    simp only [toValue, Value.object.injEq, List.cons.injEq, Prod.mk.injEq, true_and, and_true,
      Value.string.injEq, Value.array.injEq, unsigned_inj] at h
    obtain ⟨hkind, hroots, hschema⟩ := h
    cases document; cases document'
    simp only [RootRegistryDocument.mk.injEq]
    exact ⟨hkind, List.map_injective_iff.mpr RegisteredRoot.toValue_injective hroots, hschema⟩

/-! ### Loading and saving -/

def RootRegistry.document (registry : RootRegistry) : RootRegistryDocument where
  kind := rootRegistryKind
  roots := registry.roots.items
  schema := rootRegistrySchema

def RootRegistry.encode (registry : RootRegistry) : Result Bytes :=
  encodeBounded registry.document maxRootRegistryBytes
    (.new .rootInvalid "root registry exceeds the bound")

theorem RootRegistry.register_last {registry : RootRegistry} {root : RegisteredRoot}
    (hvalid : root.validateStored = .ok ())
    (hcount : registry.roots.items.length < maxRegisteredRoots)
    (hlast : ∀ r ∈ registry.roots.items, r.rootId < root.rootId) :
    ∃ registry', registry.register root = .ok registry' ∧
      registry'.roots.items = registry.roots.items ++ [root] := by
  obtain ⟨habsent, hitems⟩ := KeyedList.insert_last (m := registry.roots) hlast
  unfold register
  split
  · rename_i e he
    cases he.symm.trans hvalid
  · rw [dif_neg (by omega)]
    split
    · rename_i hkey
      cases hkey.symm.trans habsent
    · exact ⟨_, rfl, hitems⟩

section Storage

variable [Deserialize RootRegistryDocument]

def RootRegistry.decode (bytes : Bytes) : Result RootRegistry := do
  let document : RootRegistryDocument ← parseCanonical bytes maxRootRegistryBytes
  if document.kind ≠ rootRegistryKind || document.schema ≠ rootRegistrySchema then
    throw (.new .rootInvalid "root registry schema is unsupported")
  if document.roots.length > maxRegisteredRoots then
    throw rootCountError
  registerAll RootRegistry.register .new document.roots

def RootRegistry.stored : StoredRegistry RootRegistry where
  new := .new
  maximum := maxRootRegistryBytes
  encode := encode
  decode := decode
  unreadable := .new .rootInvalid "root registry and backup cannot be read"
  errors := {
    parentCreate := ioError "root registry parent cannot be made"
    temporaryOpen := ioError "root registry temp cannot open"
    temporaryWrite := ioError "root registry temp write failed"
    temporarySync := ioError "root registry temp sync failed"
    staleBackup := ioError "stale root registry backup cannot be removed"
    backupRename := ioError "root registry backup rename failed"
    commitRename := ioError "root registry commit rename failed"
    backupCleanup := ioError "root registry backup cleanup failed"
    finalSync := ioError "root registry sync failed" }

def RootRegistry.load (file : ServiceFile) : Result RootRegistry := stored.load file
def RootRegistry.save (registry : RootRegistry) : FileProg Unit := stored.save registry

theorem RootRegistry.stored_lawful [LawfulDeserialize RootRegistryDocument] :
    RootRegistry.stored.Lawful where
  bounded registry bytes h := (bounded_of_encode h).2
  decode_encode registry bytes h := by
    obtain ⟨hjson, hbound⟩ := bounded_of_encode h
    have hparse := parseCanonical_canonicalJson hjson hbound
    have hsorted : (new.roots.items ++ registry.roots.items).Pairwise
        (fun a b => a.rootId < b.rootId) := registry.roots.sorted
    obtain ⟨registry', hall, hitems⟩ := registerAll_sorted
      (fun r : RootRegistry => r.roots.items) (fun _ _ => register_last) hsorted registry.valid
      (by simpa [new, KeyedList.empty] using registry.bounded)
    have hcount : ¬ registry.document.roots.length > maxRegisteredRoots :=
      Nat.not_lt.mpr registry.bounded
    simp only [stored, decode, hparse, Result.ok_bind, hcount, if_false]
    rw [show registry' = registry from RootRegistry.ext hitems] at hall
    exact hall

end Storage

end Se7en
