import Se7enService.Json
import Se7enService.KeyedList
import Se7enService.RegistryFile
import Se7enService.Roots
set_option autoImplicit false

/-! The registry-scope registry of `registry_scopes.rs`, with the allowlist checks of
`registry_set.rs`. -/

namespace Se7en

inductive RegistryValueKind where
  | string
  | dword
  | binary
  deriving DecidableEq, Repr

structure AllowedRegistryValue where
  name : String
  valueType : RegistryValueKind
  deriving DecidableEq, Repr

inductive RegistryView where
  | registry32
  | registry64
  deriving DecidableEq, Repr

structure RegisteredRegistryScope where
  allowedValues : List AllowedRegistryValue
  ownerSid : String
  productId : String
  scopeId : String
  subkey : String
  view : RegistryView
  deriving DecidableEq, Repr

def maxRegistryScopeRegistryBytes : Nat := 1024 * 1024
def maxRegisteredRegistryScopes : Nat := 256
def maxRegistrySubkeyBytes : Nat := 1024

/-- `char::is_control`, the general category Cc. -/
def isControl (c : Char) : Bool := c.toNat < 32 || (127 ≤ c.toNat && c.toNat < 160)

def asciiLower (c : Char) : Char := c.toLower

def eqIgnoreAsciiCase (s t : String) : Bool := s.toList.map asciiLower = t.toList.map asciiLower

def validateRegistryValueName (value : String) : Result Unit :=
  if value.toList.isEmpty || byteLength value > maxRegistryValueNameBytes
      || value.toList.any (fun c => c.toNat = 0 || isControl c) then
    .error (.new .registryValueInvalid "registry value name is invalid")
  else .ok ()

def executingValueNames : List String :=
  ["AppInit_DLLs", "AutoRun", "Debugger", "GlobalFlag", "LoadAppInit_DLLs", "MonitorProcess",
    "Shell", "StubPath", "Taskman", "Userinit", "VerifierDlls"]

/-- The loop of `validate_allowed_registry_values`; `names` is the set filled so far. -/
def checkAllowedValues [Unicode] (names : List String) : List AllowedRegistryValue → Result Unit
  | [] => .ok ()
  | value :: values => do
    validateRegistryValueName value.name
    if executingValueNames.any (eqIgnoreAsciiCase value.name) then
      throw (.new .registryValueInvalid
        "registry value name is one that Windows uses to start programs")
    if names.contains (Unicode.toLowercase value.name) then
      throw (.new .registryValueInvalid "registry scope value names must be unique")
    checkAllowedValues (Unicode.toLowercase value.name :: names) values

def validateAllowedRegistryValues [Unicode] (values : List AllowedRegistryValue) : Result Unit :=
  if values.isEmpty || values.length > maxRegistryEntries then
    .error (.new .registrySetLimit "registry scope allowlist is outside the allowed range")
  else checkAllowedValues [] values

def productKeyIsAllowed (folded : List Char) : Bool :=
  match (split '\\' folded).map String.ofList with
  | "software" :: publisher :: product :: more =>
    match publisher with
    | "classes" | "clients" | "policies" | "registeredapplications" | "windows"
    | "wow6432node" => false
    | "microsoft" => product = "microsoft games" && 4 ≤ more.length + 3
    | "khronos" => false
    | "mozilla" => false
    | "google" => product ≠ "chrome"
    | _ => true
  | _ => false

def validateRegistrySubkey (value : String) : Result Unit :=
  if byteLength value > maxRegistrySubkeyBytes
      || !"SOFTWARE\\".toList.isPrefixOf value.toList
      || ['\\'].isSuffixOf value.toList
      || value.toList.contains '/'
      || value.toList.any (fun c => c.toNat = 0 || isControl c)
      || (split '\\' value.toList).any (fun c => c.isEmpty || c = ['.'] || c = ['.', '.']) then
    .error (.new .registryScopeInvalid "registry subkey is not a canonical HKLM SOFTWARE path")
  else if !productKeyIsAllowed (value.toList.map asciiLower) then
    .error (.new .registryScopeUnauthorized
      "registry scope must be a product key outside Windows and platform namespaces")
  else .ok ()

def RegisteredRegistryScope.validateStored [Unicode] (scope : RegisteredRegistryScope) :
    Result Unit := do
  if !validIdentifier scope.scopeId || !validIdentifier scope.productId
      || !validOwnerSid scope.ownerSid then
    throw (.new .registryScopeInvalid "registry scope identity is invalid")
  validateRegistrySubkey scope.subkey
  validateAllowedRegistryValues scope.allowedValues

def RegisteredRegistryScope.new [Unicode] (scopeId productId : String) (view : RegistryView)
    (subkey : String) (allowedValues : List AllowedRegistryValue) (ownerSid : String) :
    Result RegisteredRegistryScope := do
  let scope : RegisteredRegistryScope := { allowedValues, ownerSid, productId, scopeId, subkey, view }
  scope.validateStored
  pure scope

structure RegistryScopeRegistryDocument where
  kind : String
  schema : UInt64
  scopes : List RegisteredRegistryScope
  deriving DecidableEq, Repr

def registryScopeRegistryKind : String := "7launcher-maintenance-registry-scopes-v1"
def registryScopeRegistrySchema : UInt64 := 1

/-- The map of `RegistryScopeRegistry` with what every operation on it keeps. -/
structure RegistryScopeRegistry [Unicode] where
  scopes : KeyedList RegisteredRegistryScope String (·.scopeId)
  valid : ∀ scope ∈ scopes.items, scope.validateStored = .ok ()
  bounded : scopes.items.length ≤ maxRegisteredRegistryScopes
  deriving DecidableEq

section Registry

variable [Unicode]

@[ext] theorem RegistryScopeRegistry.ext {r r' : RegistryScopeRegistry}
    (h : r.scopes.items = r'.scopes.items) : r = r' := by
  cases r; cases r'
  simp only [mk.injEq]
  exact KeyedList.ext h

def RegistryScopeRegistry.new : RegistryScopeRegistry := ⟨.empty, nofun, Nat.zero_le _⟩

/-- Registering the same scope again changes nothing, also when the registry is full. -/
def RegistryScopeRegistry.register (registry : RegistryScopeRegistry)
    (scope : RegisteredRegistryScope) : Result RegistryScopeRegistry :=
  match hvalid : scope.validateStored with
  | .error e => .error e
  | .ok () =>
    match hkey : registry.scopes.containsKey scope.scopeId with
    | true =>
      if registry.scopes.get? scope.scopeId = some scope then .ok registry
      else .error (.new .transactionConflict
        "registry scope ID is already registered with another policy")
    | false =>
      if hcount : registry.scopes.items.length ≥ maxRegisteredRegistryScopes then
        .error (.new .registrySetLimit "registered registry-scope count exceeds the bound")
      else .ok {
        scopes := registry.scopes.insert scope
        valid := KeyedList.forall_insert hvalid registry.valid
        bounded := KeyedList.length_insert_le hkey hcount }

def scopeNotFound : MaintenanceError :=
  .new .registryScopeNotFound "registry scope is not registered"

def RegistryScopeRegistry.resolveOwned (registry : RegistryScopeRegistry)
    (scopeId ownerSid : String) : Result RegisteredRegistryScope := do
  match registry.scopes.get? scopeId with
  | none => throw scopeNotFound
  | some scope =>
    if scope.ownerSid ≠ ownerSid then
      throw (.new .registryScopeUnauthorized "registry scope belongs to another user SID")
    pure scope

def RegistryScopeRegistry.ownedScopeCount (registry : RegistryScopeRegistry)
    (ownerSid : String) : Nat :=
  (registry.scopes.items.filter (·.ownerSid = ownerSid)).length

def RegistryScopeRegistry.unregister (registry : RegistryScopeRegistry)
    (scopeId ownerSid : String) : Result (RegisteredRegistryScope × RegistryScopeRegistry) := do
  let scope ← registry.resolveOwned scopeId ownerSid
  if registry.scopes.containsKey scopeId then
    pure (scope, {
      scopes := registry.scopes.remove scopeId
      valid := fun s hs => registry.valid s (List.mem_of_mem_filter hs)
      bounded := (registry.scopes.length_remove_le scopeId).trans registry.bounded })
  else throw scopeNotFound

theorem RegistryScopeRegistry.register_eq_ok {registry registry' : RegistryScopeRegistry}
    {scope : RegisteredRegistryScope} (h : registry.register scope = .ok registry') :
    registry' = registry ∨
      registry.scopes.containsKey scope.scopeId = false ∧
        registry'.scopes = registry.scopes.insert scope := by
  unfold register at h
  split at h
  · cases h
  · split at h
    · split at h
      · cases h
        exact .inl rfl
      · cases h
    · rename_i hkey
      split at h
      · cases h
      · cases h
        exact .inr ⟨hkey, rfl⟩

theorem RegistryScopeRegistry.resolveOwned_eq_ok {registry : RegistryScopeRegistry}
    {scopeId ownerSid : String} {scope : RegisteredRegistryScope}
    (h : registry.resolveOwned scopeId ownerSid = .ok scope) :
    registry.scopes.get? scopeId = some scope ∧ ownerSid = scope.ownerSid := by
  unfold resolveOwned at h
  split at h
  · cases h
  · rename_i found hfound
    by_cases hforeign : found.ownerSid = ownerSid
    · simp only [hforeign, ne_eq, not_true_eq_false, if_false] at h
      cases h
      exact ⟨hfound, hforeign.symm⟩
    · simp [hforeign] at h

theorem RegistryScopeRegistry.unregister_eq_ok {registry registry' : RegistryScopeRegistry}
    {scopeId ownerSid : String} {scope : RegisteredRegistryScope}
    (h : registry.unregister scopeId ownerSid = .ok (scope, registry')) :
    registry.resolveOwned scopeId ownerSid = .ok scope ∧
      registry'.scopes = registry.scopes.remove scopeId := by
  obtain ⟨found, hfound, h⟩ := Result.bind_eq_ok.mp h
  split at h
  · cases h
    exact ⟨hfound, rfl⟩
  · cases h

end Registry

/-! ### The stored document -/

def RegistryValueKind.text : RegistryValueKind → String
  | .string => "string"
  | .dword => "dword"
  | .binary => "binary"

def RegistryView.text : RegistryView → String
  | .registry32 => "registry32"
  | .registry64 => "registry64"

def AllowedRegistryValue.toValue (value : AllowedRegistryValue) : Value :=
  .object [("name", .string value.name), ("type", .string value.valueType.text)]

def RegisteredRegistryScope.toValue (scope : RegisteredRegistryScope) : Value :=
  .object [
    ("allowedValues", .array (scope.allowedValues.map AllowedRegistryValue.toValue)),
    ("ownerSid", .string scope.ownerSid),
    ("productId", .string scope.productId),
    ("scopeId", .string scope.scopeId),
    ("subkey", .string scope.subkey),
    ("view", .string scope.view.text)]

instance : Serialize RegistryScopeRegistryDocument where
  toValue document := .object [
    ("kind", .string document.kind),
    ("schema", unsigned document.schema),
    ("scopes", .array (document.scopes.map RegisteredRegistryScope.toValue))]

theorem RegistryValueKind.text_injective {k k' : RegistryValueKind} (h : k.text = k'.text) :
    k = k' := by
  cases k <;> cases k' <;> first | rfl | exact absurd h (by decide)

theorem RegistryView.text_injective {v v' : RegistryView} (h : v.text = v'.text) : v = v' := by
  cases v <;> cases v' <;> first | rfl | exact absurd h (by decide)

theorem AllowedRegistryValue.toValue_injective : Function.Injective AllowedRegistryValue.toValue := by
  intro v v' h
  simp only [toValue, Value.object.injEq, List.cons.injEq, Prod.mk.injEq, true_and, and_true,
    Value.string.injEq] at h
  cases v; cases v'
  simp only [mk.injEq]
  exact ⟨h.1, RegistryValueKind.text_injective h.2⟩

theorem RegisteredRegistryScope.toValue_regular (scope : RegisteredRegistryScope) :
    scope.toValue.Regular := by
  refine ⟨⟨?_, trivial, trivial, trivial, trivial, trivial, trivial⟩, sorted_of_keys
    ["allowedValues", "ownerSid", "productId", "scopeId", "subkey", "view"] rfl (by decide)⟩
  rw [Value.Regular, regularItems_iff]
  simp only [List.forall_mem_map]
  exact fun _ _ => ⟨⟨trivial, trivial, trivial⟩, sorted_of_keys ["name", "type"] rfl (by decide)⟩

theorem RegisteredRegistryScope.toValue_injective :
    Function.Injective RegisteredRegistryScope.toValue := by
  intro s s' h
  simp only [toValue, Value.object.injEq, List.cons.injEq, Prod.mk.injEq, true_and, and_true,
    Value.string.injEq, Value.array.injEq] at h
  obtain ⟨hallowed, howner, hproduct, hid, hsubkey, hview⟩ := h
  cases s; cases s'
  simp only [mk.injEq]
  exact ⟨List.map_injective_iff.mpr AllowedRegistryValue.toValue_injective hallowed, howner,
    hproduct, hid, hsubkey, RegistryView.text_injective hview⟩

instance : LawfulSerialize RegistryScopeRegistryDocument where
  regular document := by
    refine ⟨⟨trivial, trivial, ?_, trivial⟩,
      sorted_of_keys ["kind", "schema", "scopes"] rfl (by decide)⟩
    rw [Value.Regular, regularItems_iff]
    simp only [List.forall_mem_map]
    exact fun scope _ => scope.toValue_regular
  injective document document' h := by
    simp only [toValue, Value.object.injEq, List.cons.injEq, Prod.mk.injEq, true_and, and_true,
      Value.string.injEq, Value.array.injEq, unsigned_inj] at h
    obtain ⟨hkind, hschema, hscopes⟩ := h
    cases document; cases document'
    simp only [RegistryScopeRegistryDocument.mk.injEq]
    exact ⟨hkind, hschema, List.map_injective_iff.mpr RegisteredRegistryScope.toValue_injective hscopes⟩

/-! ### Loading and saving -/

section Storage

variable [Unicode]

def RegistryScopeRegistry.document (registry : RegistryScopeRegistry) :
    RegistryScopeRegistryDocument where
  kind := registryScopeRegistryKind
  schema := registryScopeRegistrySchema
  scopes := registry.scopes.items

def RegistryScopeRegistry.encode (registry : RegistryScopeRegistry) : Result Bytes :=
  encodeBounded registry.document maxRegistryScopeRegistryBytes
    (.new .registrySetLimit "registry-scope registry exceeds the bound")

theorem RegistryScopeRegistry.register_last {registry : RegistryScopeRegistry}
    {scope : RegisteredRegistryScope} (hvalid : scope.validateStored = .ok ())
    (hcount : registry.scopes.items.length < maxRegisteredRegistryScopes)
    (hlast : ∀ s ∈ registry.scopes.items, s.scopeId < scope.scopeId) :
    ∃ registry', registry.register scope = .ok registry' ∧
      registry'.scopes.items = registry.scopes.items ++ [scope] := by
  obtain ⟨habsent, hitems⟩ := KeyedList.insert_last (m := registry.scopes) hlast
  unfold register
  split
  · rename_i e he
    cases he.symm.trans hvalid
  · split
    · rename_i hkey
      cases hkey.symm.trans habsent
    · rw [dif_neg (by omega)]
      exact ⟨_, rfl, hitems⟩

variable [Deserialize RegistryScopeRegistryDocument]

def RegistryScopeRegistry.decode (bytes : Bytes) : Result RegistryScopeRegistry := do
  let document : RegistryScopeRegistryDocument ←
    parseCanonical bytes maxRegistryScopeRegistryBytes
  if document.kind ≠ registryScopeRegistryKind || document.schema ≠ registryScopeRegistrySchema
      || document.scopes.length > maxRegisteredRegistryScopes then
    throw (.new .registryScopeInvalid "registry-scope registry schema or count is invalid")
  registerAll RegistryScopeRegistry.register .new document.scopes

def registryIo : MaintenanceError := .new .registryIo "registry-scope state I/O failed"

def RegistryScopeRegistry.stored : StoredRegistry RegistryScopeRegistry where
  new := .new
  maximum := maxRegistryScopeRegistryBytes
  encode := encode
  decode := decode
  unreadable := .new .registryScopeInvalid "registry-scope registry and backup cannot be read"
  errors := {
    parentCreate := registryIo
    temporaryOpen := registryIo
    temporaryWrite := registryIo
    temporarySync := registryIo
    staleBackup := registryIo
    backupRename := registryIo
    commitRename := registryIo
    backupCleanup := registryIo
    finalSync := registryIo }

def RegistryScopeRegistry.load (file : ServiceFile) : Result RegistryScopeRegistry :=
  stored.load file

def RegistryScopeRegistry.save (registry : RegistryScopeRegistry) : FileProg Unit :=
  stored.save registry

theorem RegistryScopeRegistry.stored_lawful [LawfulDeserialize RegistryScopeRegistryDocument] :
    RegistryScopeRegistry.stored.Lawful where
  bounded registry bytes h := (bounded_of_encode h).2
  decode_encode registry bytes h := by
    obtain ⟨hjson, hbound⟩ := bounded_of_encode h
    have hparse := parseCanonical_canonicalJson hjson hbound
    have hsorted : (new.scopes.items ++ registry.scopes.items).Pairwise
        (fun a b => a.scopeId < b.scopeId) := registry.scopes.sorted
    obtain ⟨registry', hall, hitems⟩ := registerAll_sorted
      (fun r : RegistryScopeRegistry => r.scopes.items) (fun _ _ => register_last) hsorted
      registry.valid
      (by simpa [new, KeyedList.empty] using registry.bounded)
    have hcount : ¬ registry.document.scopes.length > maxRegisteredRegistryScopes :=
      Nat.not_lt.mpr registry.bounded
    have hgate : ¬ maxRegisteredRegistryScopes < registry.scopes.items.length := hcount
    simp only [stored, decode, hparse, Result.ok_bind, document, hgate]
    rw [show registry' = registry from RegistryScopeRegistry.ext hitems] at hall
    exact hall

end Storage

end Se7en
