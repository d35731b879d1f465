import Se7enService.RequestEffects
import Se7enService.OneTransaction
import Se7enService.SaveFaults

set_option autoImplicit false

/-! What `RegisterRoot` and `RegisterRegistryScope` change besides the service: the DACL of the
named directory and the keys below `HKEY_LOCAL_MACHINE`. -/

namespace Se7en.Windows
open Faulty

/-! ### The directory -/

/-- An `EXPLICIT_ACCESS_W` entry in the mode `SET_ACCESS`. -/
structure AccessEntry where
  trustee : String
  permissions : UInt32
  inheritance : UInt32
  deriving DecidableEq, Repr

abbrev Dacl := List AccessEntry

/-- `SetEntriesInAclW` with one entry. -/
class AccessControl where
  setEntry : AccessEntry → Dacl → Dacl

def fileGenericRead : UInt32 := 0x120089
def fileGenericWrite : UInt32 := 0x120116
def fileGenericExecute : UInt32 := 0x1200a0
def deleteAccess : UInt32 := 0x10000

def rootModifyAccessMask : UInt32 :=
  fileGenericRead ||| fileGenericWrite ||| fileGenericExecute ||| deleteAccess

def builtinUsersSid : String := "S-1-5-32-545"

def subContainersAndObjectsInherit : UInt32 := 3

def rootModifyAccessEntry (sid : String) : AccessEntry where
  trustee := sid
  permissions := rootModifyAccessMask
  inheritance := subContainersAndObjectsInherit

def rootIsSharedLibrary (rootKind : RootKind) : Bool := rootKind = .library

/-- What the operating system answers about the directory that is registered. -/
structure DirectoryAnswers where
  opened : Result Unit
  safe : Result Unit
  granted : Result Unit
  finalPath : Result String
  identity : Result DirectoryIdentity

/-! ### The keys -/

/-- What the operating system answers about the components of a path. -/
structure PathAnswers where
  status : RegistryKey → Nat
  isLink : RegistryKey → Result Bool

def errorFileNotFound : Nat := 2

/-- A registration call; `creating` and `opening` are the two passes over the path. -/
structure SetupCall where
  call : Call
  directory : DirectoryAnswers
  creating : PathAnswers
  opening : PathAnswers
  reverted : Result Unit

/-- The service with the DACL of the named directory and the keys of the machine. -/
structure Setup [Externals] where
  service : ServiceState
  dacl : Dacl
  keys : List RegistryKey

section Programs

variable [Externals]

abbrev SetupProg (α : Type) := Prog Setup MaintenanceError Empty α

namespace Setup

def onService : Part Setup ServiceState where
  get m := m.service
  set service m := { m with service }

def withKey (m : Setup) (key : RegistryKey) : Setup :=
  { m with keys := if m.keys.contains key then m.keys else m.keys ++ [key] }

/-- The key that a component names below its parent. -/
def childKey (view : RegistryView) (parent : Option RegistryKey) (component : List Char) :
    RegistryKey where
  view := view
  subkey := match parent with
    | none => RegistryNames.fold (String.ofList component)
    | some key => key.subkey ++ "\\" ++ RegistryNames.fold (String.ofList component)

/-- The loop of `open_registry_path`; `refused` is what the caller makes of a status. -/
def openComponents (answers : PathAnswers) (refused : Nat → MaintenanceError) (view : RegistryView)
    (create : Bool) (parent : Option RegistryKey) : List (List Char) → SetupProg Unit
  | [] =>
    lift (rejectIf parent.isNone (.new .registryScopeInvalid "registry scope path is empty"))
  | component :: components => do
    let key := childKey view parent component
    let known ← look (·.keys.contains key)
    let status := if create || known then answers.status key else errorFileNotFound
    lift (rejectIf (status ≠ 0) (refused status))
    if create then
      assign (·.withKey key)
    let isLink ← lift (answers.isLink key)
    lift (rejectIf isLink
      (.new .registryScopeUnauthorized "registry scope path contains a symbolic link"))
    openComponents answers refused view create (some key) components

def registryPath (subkey : String) : List (List Char) := split '\\' subkey.toList

def createRefused (status : Nat) : MaintenanceError where
  code := .registryScopeUnauthorized
  detail := "LocalSystem cannot create or open a bounded HKLM registry-scope component"
  platformStatus := some status

def openRefused (status : Nat) : MaintenanceError where
  code := .registryScopeInvalid
  detail := "registered HKLM scope cannot be opened by the service"
  platformStatus := some status

def createRegistryScopeKey (answers : PathAnswers) (scope : RegisteredRegistryScope) :
    SetupProg Unit := do
  lift (rejectIf ((registryPath scope.subkey).head? ≠ some "SOFTWARE".toList
      || !scope.subkey.toList.contains '\\')
    (.new .registryScopeInvalid "registry scope is outside HKLM SOFTWARE"))
  openComponents answers createRefused scope.view true none (registryPath scope.subkey)

def openRegistryScopeKey (answers : PathAnswers) (scope : RegisteredRegistryScope) :
    SetupProg Unit :=
  openComponents answers openRefused scope.view false none (registryPath scope.subkey)

def registeredRegistryScopeAsCaller (call : SetupCall) (scopeId productId : String)
    (view : RegistryView) (subkey : String) (allowedValues : List AllowedRegistryValue) :
    SetupProg (CallerIdentity × RegisteredRegistryScope) := do
  let identity ← lift call.call.impersonated
  lift (rejectIf (!identity.elevatedAdministrator)
    (.new .registryScopeUnauthorized
      "registry-scope registration requires an elevated administrator token"))
  let scope ← lift
    (RegisteredRegistryScope.new scopeId productId view subkey allowedValues identity.sid)
  lift call.reverted
  createRegistryScopeKey call.creating scope
  openRegistryScopeKey call.opening scope
  pure (identity, scope)

def registerRegistryScope (call : SetupCall) (ownerSid scopeId productId : String)
    (view : RegistryView) (subkey : String) (allowedValues : List AllowedRegistryValue) :
    SetupProg Response := do
  let (verifiedCaller, scope) ←
    registeredRegistryScopeAsCaller call scopeId productId view subkey allowedValues
  lift (rejectIf (verifiedCaller.sid ≠ ownerSid)
    (.new .registryScopeUnauthorized "caller token changed during registry-scope registration"))
  let registryScopes ← lift ((← look (·.service.registryScopes)).register scope)
  onService.run do
    note (.registersScope verifiedCaller scope)
    registryScopeFile.run registryScopes.save
    assign ({ · with registryScopes })
  pure (.done scopeId)

/-! ### The passage over a path -/

/-- The passage where every key is there, or is created on the way. -/
def checkPath (answers : PathAnswers) (refused : Nat → MaintenanceError) (view : RegistryView)
    (parent : Option RegistryKey) : List (List Char) → Result Unit
  | [] => rejectIf parent.isNone (.new .registryScopeInvalid "registry scope path is empty")
  | component :: components => do
    let key := childKey view parent component
    rejectIf (answers.status key ≠ 0) (refused (answers.status key))
    rejectIf (← answers.isLink key)
      (.new .registryScopeUnauthorized "registry scope path contains a symbolic link")
    checkPath answers refused view (some key) components

/-- The keys of a path that `RegCreateKeyExW` returns handles for. -/
def reachedKeys (answers : PathAnswers) (view : RegistryView) (parent : Option RegistryKey) :
    List (List Char) → List RegistryKey
  | [] => []
  | component :: components =>
    let key := childKey view parent component
    if answers.status key ≠ 0 then []
    else
      match answers.isLink key with
      | .ok false => key :: reachedKeys answers view (some key) components
      | _ => [key]

def pathKeys (view : RegistryView) (parent : Option RegistryKey) :
    List (List Char) → List RegistryKey
  | [] => []
  | component :: components =>
    childKey view parent component ::
      pathKeys view (some (childKey view parent component)) components

def withKeys (m : Setup) (keys : List RegistryKey) : Setup := keys.foldl withKey m

@[simp] theorem withKey_service (m : Setup) (key : RegistryKey) :
    (m.withKey key).service = m.service := rfl

@[simp] theorem withKey_dacl (m : Setup) (key : RegistryKey) : (m.withKey key).dacl = m.dacl := rfl

theorem mem_withKey {m : Setup} {key other : RegistryKey} :
    other ∈ (m.withKey key).keys ↔ other = key ∨ other ∈ m.keys := by
  simp only [withKey]
  split
  · rename_i h
    have hmem : key ∈ m.keys := by simpa using h
    constructor
    · exact .inr
    · rintro (rfl | hother)
      · exact hmem
      · exact hother
  · simp [or_comm]

@[simp] theorem withKeys_service (m : Setup) (keys : List RegistryKey) :
    (m.withKeys keys).service = m.service := by
  induction keys generalizing m with
  | nil => rfl
  | cons key keys ih => exact ih (m.withKey key)

@[simp] theorem withKeys_dacl (m : Setup) (keys : List RegistryKey) :
    (m.withKeys keys).dacl = m.dacl := by
  induction keys generalizing m with
  | nil => rfl
  | cons key keys ih => exact ih (m.withKey key)

theorem withKeys_withService (m : Setup) (s : ServiceState) (keys : List RegistryKey) :
    withKeys { m with service := s } keys = { m.withKeys keys with service := s } := by
  induction keys generalizing m with
  | nil => rfl
  | cons key keys ih => exact ih (m.withKey key)

theorem mem_withKeys {m : Setup} {keys : List RegistryKey} {other : RegistryKey} :
    other ∈ (m.withKeys keys).keys ↔ other ∈ keys ∨ other ∈ m.keys := by
  induction keys generalizing m with
  | nil => simp [withKeys]
  | cons key keys ih =>
    have hrest := ih (m := m.withKey key)
    rw [mem_withKey] at hrest
    simp only [List.mem_cons]
    refine hrest.trans ?_
    tauto

theorem withKeys_keys_eq {m : Setup} {keys : List RegistryKey} :
    (m.withKeys keys).keys = m.keys ↔ ∀ key ∈ keys, key ∈ m.keys := by
  constructor
  · intro h key hkey
    rw [← h]
    exact mem_withKeys.mpr (.inl hkey)
  · intro h
    induction keys generalizing m with
    | nil => rfl
    | cons key keys ih =>
      have hkey : m.withKey key = m := by
        simp only [withKey, List.contains_iff_mem, h key List.mem_cons_self, if_true]
      have hrest := ih (m := m) fun other hother => h other (List.mem_cons_of_mem _ hother)
      simpa [withKeys, hkey] using hrest

theorem run_create (answers : PathAnswers) (refused : Nat → MaintenanceError)
    (view : RegistryView) (parent : Option RegistryKey) (components : List (List Char)) (m : Setup)
    (sch : Schedule Empty) :
    openComponents answers refused view true parent components m sch =
      (lift (checkPath answers refused view parent components) : SetupProg Unit)
        (m.withKeys (reachedKeys answers view parent components)) sch := by
  induction components generalizing parent m with
  | nil => rfl
  | cons component components ih =>
    simp only [openComponents, checkPath, reachedKeys, run_bind, run_look, Bool.true_or, if_true]
    by_cases hstatus : answers.status (childKey view parent component) = 0
    · cases hlink : answers.isLink (childKey view parent component) with
      | error e => simp [hstatus, run_lift_ok, run_lift_error, run_assign, rejectIf, withKeys]
      | ok isLink =>
        cases isLink with
        | true => simp [hstatus, run_lift_ok, run_lift_error, run_assign, rejectIf, withKeys]
        | false => simp [hstatus, run_lift_ok, run_assign, rejectIf, withKeys, ih]
    · simp [hstatus, run_lift_error, rejectIf, withKeys]

/-- A path that has been passed has all its keys. -/
theorem reachedKeys_of_ok {answers : PathAnswers} {refused : Nat → MaintenanceError}
    {view : RegistryView} {parent : Option RegistryKey} {components : List (List Char)}
    (h : checkPath answers refused view parent components = .ok ()) :
    reachedKeys answers view parent components = pathKeys view parent components := by
  induction components generalizing parent with
  | nil => rfl
  | cons component components ih =>
    simp only [checkPath, Result.bind_eq_ok] at h
    obtain ⟨_, hstatus, isLink, hlink, _, hfree, hrest⟩ := h
    obtain rfl := rejectIf_eq_ok.mp hfree
    have hstatus := rejectIf_eq_ok.mp hstatus
    simp only [reachedKeys, pathKeys, hlink, ih hrest]
    simpa using hstatus

theorem run_open {answers : PathAnswers} {refused : Nat → MaintenanceError} {view : RegistryView}
    {parent : Option RegistryKey} {components : List (List Char)} {m : Setup}
    (h : ∀ key ∈ pathKeys view parent components, key ∈ m.keys) (sch : Schedule Empty) :
    openComponents answers refused view false parent components m sch =
      (lift (checkPath answers refused view parent components) : SetupProg Unit) m sch := by
  induction components generalizing parent with
  | nil => rfl
  | cons component components ih =>
    have hkey : m.keys.contains (childKey view parent component) = true := by
      simpa using h _ List.mem_cons_self
    have hrest := ih fun key hmem => h key (List.mem_cons_of_mem _ hmem)
    simp only [openComponents, checkPath, run_bind, run_look, Bool.false_or, hkey, if_true]
    by_cases hstatus : answers.status (childKey view parent component) = 0
    · cases hlink : answers.isLink (childKey view parent component) with
      | error e => simp [hstatus, run_bind, run_lift_ok, run_lift_error, rejectIf]
      | ok isLink =>
        cases isLink with
        | true => simp [hstatus, run_bind, run_lift_ok, run_lift_error, rejectIf]
        | false => simp [hstatus, run_bind, run_lift_ok, rejectIf, hrest]
    · simp [hstatus, run_lift_error, rejectIf]

/-! ### A registration up to its save -/

/-- What a registration asks for. -/
inductive Registration where
  | root (rootId productId : String) (rootKind : RootKind) (path : String)
  | scope (scopeId productId : String) (view : RegistryView) (subkey : String)
      (allowedValues : List AllowedRegistryValue)

def Registration.request : Registration → Request
  | .root rootId productId rootKind path => .registerRoot rootId productId rootKind path
  | .scope scopeId productId view subkey allowedValues =>
    .registerRegistryScope scopeId productId view subkey allowedValues

/-- The caller whose registration `authorize_request` lets through. -/
def admittedCaller (call : Call) (preparing : Bool) : Option CallerIdentity :=
  match preparing, call.caller with
  | false, .ok caller => if caller.elevatedAdministrator then some caller else none
  | _, _ => none

/-- The checks of a scope before its key is created. -/
def namedScope (call : SetupCall) (scopeId productId : String) (view : RegistryView)
    (subkey : String) (allowedValues : List AllowedRegistryValue) :
    Result (CallerIdentity × RegisteredRegistryScope) := do
  let identity ← call.call.impersonated
  rejectIf (!identity.elevatedAdministrator)
    (.new .registryScopeUnauthorized
      "registry-scope registration requires an elevated administrator token")
  let scope ← RegisteredRegistryScope.new scopeId productId view subkey allowedValues identity.sid
  call.reverted
  rejectIf ((registryPath scope.subkey).head? ≠ some "SOFTWARE".toList
      || !scope.subkey.toList.contains '\\')
    (.new .registryScopeInvalid "registry scope is outside HKLM SOFTWARE")
  pure (identity, scope)

def checkedScope (call : SetupCall) (scopeId productId : String) (view : RegistryView)
    (subkey : String) (allowedValues : List AllowedRegistryValue) :
    Result (CallerIdentity × RegisteredRegistryScope) := do
  let (identity, scope) ← namedScope call scopeId productId view subkey allowedValues
  checkPath call.creating createRefused scope.view none (registryPath scope.subkey)
  checkPath call.opening openRefused scope.view none (registryPath scope.subkey)
  pure (identity, scope)

/-- The keys that exist after the path of a scope has been created as far as possible. -/
def scopeKeys (call : SetupCall) (scopeId productId : String) (view : RegistryView)
    (subkey : String) (allowedValues : List AllowedRegistryValue) : List RegistryKey :=
  match namedScope call scopeId productId view subkey allowedValues with
  | .ok (_, scope) => reachedKeys call.creating scope.view none (registryPath scope.subkey)
  | .error _ => []

/-- The document of the scopes that is saved. -/
def scopeDocument (m : Setup) (call : SetupCall) (ownerSid scopeId productId : String)
    (view : RegistryView) (subkey : String) (allowedValues : List AllowedRegistryValue) :
    Result Bytes := do
  let (verifiedCaller, scope) ← checkedScope call scopeId productId view subkey allowedValues
  rejectIf (verifiedCaller.sid ≠ ownerSid)
    (.new .registryScopeUnauthorized "caller token changed during registry-scope registration")
  (← m.service.registryScopes.register scope).encode

theorem registeredRegistryScopeAsCaller_eq (call : SetupCall) (scopeId productId : String)
    (view : RegistryView) (subkey : String) (allowedValues : List AllowedRegistryValue) :
    registeredRegistryScopeAsCaller call scopeId productId view subkey allowedValues = (do
      let named ← lift (namedScope call scopeId productId view subkey allowedValues)
      openComponents call.creating createRefused named.2.view true none
        (registryPath named.2.subkey)
      openComponents call.opening openRefused named.2.view false none (registryPath named.2.subkey)
      pure named) := by
  simp only [registeredRegistryScopeAsCaller, namedScope, createRegistryScopeKey,
    openRegistryScopeKey, lift_bind, lift_pure, bind_assoc, pure_bind]

theorem run_registeredRegistryScopeAsCaller (call : SetupCall) (scopeId productId : String)
    (view : RegistryView) (subkey : String) (allowedValues : List AllowedRegistryValue) (m : Setup)
    (sch : Schedule Empty) :
    registeredRegistryScopeAsCaller call scopeId productId view subkey allowedValues m sch =
      (lift (checkedScope call scopeId productId view subkey allowedValues) : SetupProg _)
        (m.withKeys (scopeKeys call scopeId productId view subkey allowedValues)) sch := by
  rw [registeredRegistryScopeAsCaller_eq]
  simp only [checkedScope, scopeKeys]
  cases namedScope call scopeId productId view subkey allowedValues with
  | error e => rfl
  | ok named =>
    obtain ⟨identity, scope⟩ := named
    simp only [run_bind, run_lift_ok, run_create, Result.ok_bind]
    cases hcreate : checkPath call.creating createRefused scope.view none
        (registryPath scope.subkey) with
    | error e => rfl
    | ok =>
      have hopen : ∀ key ∈ pathKeys scope.view none (registryPath scope.subkey),
          key ∈ (m.withKeys (reachedKeys call.creating scope.view none
            (registryPath scope.subkey))).keys := by
        intro key hkey
        rw [reachedKeys_of_ok hcreate]
        exact mem_withKeys.mpr (.inl hkey)
      simp only [run_lift_ok, run_open hopen, Result.ok_bind]
      cases checkPath call.opening openRefused scope.view none (registryPath scope.subkey) with
      | error e => rfl
      | ok => rfl

/-- The grant to the users is made. -/
def grants (call : SetupCall) (rootKind : RootKind) : Bool :=
  call.call.impersonated.toOption.any (·.elevatedAdministrator) && call.directory.opened.isOk
    && call.directory.safe.isOk && rootIsSharedLibrary rootKind && call.directory.granted.isOk

def checkedRoot (call : SetupCall) (rootId productId : String) (rootKind : RootKind) :
    Result (CallerIdentity × RegisteredRoot) := do
  let identity ← call.call.impersonated
  rejectIf (!identity.elevatedAdministrator)
    (.new .rootUnauthorized "root registration requires an elevated administrator token")
  call.directory.opened
  call.directory.safe
  if rootIsSharedLibrary rootKind then
    call.directory.granted
  let canonical ← call.directory.finalPath
  let directory ← call.directory.identity
  let root ← RegisteredRoot.fromCanonicalIdentity rootId productId rootKind canonical directory
    identity.sid
  call.reverted
  pure (identity, root)

def rootDocument (m : Setup) (call : SetupCall) (ownerSid rootId productId : String)
    (rootKind : RootKind) : Result Bytes := do
  let (verifiedCaller, root) ← checkedRoot call rootId productId rootKind
  rejectIf (verifiedCaller.sid ≠ ownerSid)
    (.new .rootUnauthorized "caller token changed during root registration")
  (← m.service.roots.register root).encode

/-! ### Registering a root -/

variable [AccessControl]

def withGrant (m : Setup) : Setup :=
  { m with dacl := AccessControl.setEntry (rootModifyAccessEntry builtinUsersSid) m.dacl }

def grantSharedLibraryUserAccess (answers : DirectoryAnswers) : SetupProg Unit := do
  lift answers.granted
  assign withGrant

def registeredRootAsCaller (call : SetupCall) (rootId productId : String) (rootKind : RootKind) :
    SetupProg (CallerIdentity × RegisteredRoot) := do
  let identity ← lift call.call.impersonated
  lift (rejectIf (!identity.elevatedAdministrator)
    (.new .rootUnauthorized "root registration requires an elevated administrator token"))
  lift call.directory.opened
  lift call.directory.safe
  if rootIsSharedLibrary rootKind then
    grantSharedLibraryUserAccess call.directory
  let canonical ← lift call.directory.finalPath
  let directory ← lift call.directory.identity
  let root ← lift (RegisteredRoot.fromCanonicalIdentity rootId productId rootKind canonical directory
    identity.sid)
  lift call.reverted
  pure (identity, root)

def registerRoot (call : SetupCall) (ownerSid rootId productId : String) (rootKind : RootKind) :
    SetupProg Response := do
  let (verifiedCaller, root) ← registeredRootAsCaller call rootId productId rootKind
  lift (rejectIf (verifiedCaller.sid ≠ ownerSid)
    (.new .rootUnauthorized "caller token changed during root registration"))
  let roots ← lift ((← look (·.service.roots)).register root)
  onService.run do
    note (.registersRoot verifiedCaller root)
    rootFile.run roots.save
    assign ({ · with roots })
  pure (.done rootId)

/-! ### The requests -/

/-- `process_request` up to the choice of the arm. -/
def admitRequest (call : Call) (request : Request) (preparing : Bool) :
    ServiceProg AuthorizedRequest := do
  lift (rejectIf (preparing && requestKind request = .mutation)
    (.new .serviceBusy "another maintenance job is being prepared"))
  assign refreshActiveJob
  let caller ← lift call.caller
  let s ← look id
  lift (authorizeRequest request caller s.roots s.registryScopes
    (s.activeJob.map fun job => (job.jobId, job.ownerSid)))

def processRequest (call : SetupCall) (request : Request) (preparing : Bool) :
    SetupProg Dispatch := do
  match request with
  | .registerRoot rootId productId rootKind _ =>
    match ← onService.run (admitRequest call.call request preparing) with
    | .registerRoot ownerSid =>
      pure (.respond (← registerRoot call ownerSid rootId productId rootKind))
    | _ => throw (.new .protocolInvalid "request and authorization decision did not match")
  | .registerRegistryScope scopeId productId view subkey allowedValues =>
    match ← onService.run (admitRequest call.call request preparing) with
    | .registerRegistryScope ownerSid =>
      pure (.respond
        (← registerRegistryScope call ownerSid scopeId productId view subkey allowedValues))
    | _ => throw (.new .protocolInvalid "request and authorization decision did not match")
  | _ => onService.run (Windows.processRequest call.call request preparing)

theorem run_registeredRootAsCaller (call : SetupCall) (rootId productId : String)
    (rootKind : RootKind) (m : Setup) (sch : Schedule Empty) :
    registeredRootAsCaller call rootId productId rootKind m sch =
      (lift (checkedRoot call rootId productId rootKind) : SetupProg _)
        (if grants call rootKind then m.withGrant else m) sch := by
  unfold registeredRootAsCaller checkedRoot grants grantSharedLibraryUserAccess
  rcases himpersonated : call.call.impersonated with e | identity
  · rfl
  rcases helevated : identity.elevatedAdministrator with _ | _
  · simp [run_bind, run_lift_ok, run_lift_error, rejectIf, helevated, Except.toOption]
  rcases hopened : call.directory.opened with e | _
  · simp [run_bind, run_lift_ok, run_lift_error, rejectIf, helevated, Except.isOk, Except.toBool]
  rcases hsafe : call.directory.safe with e | _
  · simp [run_bind, run_lift_ok, run_lift_error, rejectIf, helevated, Except.isOk, Except.toBool]
  rcases hkind : rootIsSharedLibrary rootKind with _ | _
  · simp [run_bind, run_lift_ok, run_pure, rejectIf, helevated, lift_bind, -bind_pure_comp]
  rcases hgranted : call.directory.granted with e | _
  · simp [run_bind, run_lift_ok, run_lift_error, rejectIf, helevated, Except.isOk, Except.toBool]
  · simp [run_bind, run_lift_ok, run_assign, run_pure, rejectIf, helevated, Except.isOk,
      Except.toBool, Except.toOption, lift_bind, -bind_pure_comp]

/-! ### What an error leaves behind -/

/-- The registries in memory and at their paths, the DACL and the keys are as before. -/
structure Unchanged (m t : Setup) : Prop where
  roots : t.service.roots = m.service.roots
  registryScopes : t.service.registryScopes = m.service.registryScopes
  rootFile : t.service.rootFile.path = m.service.rootFile.path
  registryScopeFile : t.service.registryScopeFile.path = m.service.registryScopeFile.path
  dacl : t.dacl = m.dacl
  keys : t.keys = m.keys

/-- What a registration has come to when it is about to save its document. -/
structure Progress where
  document : Result Bytes
  file : ServiceFile
  dacl : Dacl
  keys : List RegistryKey

def progress (m : Setup) (call : SetupCall) (caller : CallerIdentity) : Registration → Progress
  | .root rootId productId rootKind _ => {
      document := rootDocument m call caller.sid rootId productId rootKind
      file := m.service.rootFile
      dacl := (if grants call rootKind then m.withGrant else m).dacl
      keys := m.keys }
  | .scope scopeId productId view subkey allowedValues => {
      document := scopeDocument m call caller.sid scopeId productId view subkey allowedValues
      file := m.service.registryScopeFile
      dacl := m.dacl
      keys := (m.withKeys (scopeKeys call scopeId productId view subkey allowedValues)).keys }

/-- The DACL or the keys have changed only where nothing is left to go wrong, and a save that
fails keeps the document at the path. -/
structure Progress.Harmless (p : Progress) (m : Setup) (sch : Schedule Empty) : Prop where
  effects : p.dacl ≠ m.dacl ∨ p.keys ≠ m.keys →
    ∃ bytes, p.document = .ok bytes ∧ ∀ step rest, ¬ p.file.Reports sch step rest
  save : ∀ bytes, p.document = .ok bytes → ∀ step rest, p.file.Reports sch step rest →
    p.file.KeepsPath bytes step rest

/-- The end of a rejected registration, with the file that was to be saved. -/
structure Rejected (m : Setup) (p : Progress) (file : ServiceFile) (t : Setup) : Prop where
  roots : t.service.roots = m.service.roots
  registryScopes : t.service.registryScopes = m.service.registryScopes
  files : (t.service.rootFile.path = m.service.rootFile.path ∧
    t.service.registryScopeFile.path = m.service.registryScopeFile.path) ↔ file.path = p.file.path
  dacl : t.dacl = p.dacl
  keys : t.keys = p.keys

omit [AccessControl] in
theorem Rejected.unchanged_iff {m t : Setup} {p : Progress} {file : ServiceFile}
    (h : m.Rejected p file t) :
    m.Unchanged t ↔ (p.dacl = m.dacl ∧ p.keys = m.keys) ∧ file.path = p.file.path := by
  constructor
  · intro hunchanged
    exact ⟨⟨h.dacl.symm.trans hunchanged.dacl, h.keys.symm.trans hunchanged.keys⟩,
      h.files.mp ⟨hunchanged.rootFile, hunchanged.registryScopeFile⟩⟩
  · rintro ⟨⟨hdacl, hkeys⟩, hfile⟩
    obtain ⟨hroot, hscope⟩ := h.files.mpr hfile
    exact ⟨h.roots, h.registryScopes, hroot, hscope, h.dacl.trans hdacl, h.keys.trans hkeys⟩

/-- A registration whose checks have ended ends as its save does. -/
def Settled (m : Setup) (p : Progress) (sch : Schedule Empty)
    (run : Faulty.Result Setup MaintenanceError Empty Dispatch) : Prop :=
  match p.document with
  | .error e => ∃ t, run = (.error e, t, sch) ∧ m.Rejected p p.file t
  | .ok bytes => ∃ errors, match writeRegistry errors bytes p.file sch with
    | (.ok _, _, rest) => ∃ answer t, run = (.ok answer, t, rest)
    | (.error e, file, rest) => ∃ t, run = (.error e, t, rest) ∧ m.Rejected p file t
    | (.crashed, _, rest) => ∃ t, run = (.crashed, t, rest)

omit [AccessControl] in
theorem Settled.unchanged_iff {m : Setup} {p : Progress} {sch : Schedule Empty}
    {run : Faulty.Result Setup MaintenanceError Empty Dispatch} (h : m.Settled p sch run) :
    (∀ e t rest, run = (.error e, t, rest) → m.Unchanged t) ↔ p.Harmless m sch := by
  simp only [Settled] at h
  cases hdocument : p.document with
  | error e =>
    rw [hdocument] at h
    obtain ⟨t, rfl, hrejected⟩ := h
    constructor
    · intro hunchanged
      obtain ⟨⟨hdacl, hkeys⟩, -⟩ := hrejected.unchanged_iff.mp (hunchanged _ _ _ rfl)
      exact ⟨fun heffects => by simp [hdacl, hkeys] at heffects,
        fun bytes hbytes => by simp [hdocument] at hbytes⟩
    · rintro hharmless e' t' rest heq
      cases heq
      rw [hrejected.unchanged_iff]
      refine ⟨?_, rfl⟩
      by_contra hne
      obtain ⟨bytes, hbytes, -⟩ := hharmless.effects (by tauto)
      simp [hdocument] at hbytes
  | ok bytes =>
    rw [hdocument] at h
    obtain ⟨errors, h⟩ := h
    have hends := writeRegistry_ends errors bytes p.file sch
    revert h hends
    rcases writeRegistry errors bytes p.file sch with ⟨_ | e | _, file, rest⟩
    · rintro ⟨answer, t, rfl⟩ hends
      exact ⟨fun _ => ⟨fun _ => ⟨bytes, hdocument, hends⟩,
        fun _ _ step rest hreports => (hends step rest hreports).elim⟩, fun _ e t rest heq => by
          simp at heq⟩
    · rintro ⟨t, rfl, hrejected⟩ ⟨step, after, hreports, hpath⟩
      have hunique : ∀ step' after', p.file.Reports sch step' after' →
          step' = step ∧ after' = after := by
        rintro step' after' ⟨c', -, hsch', -⟩
        obtain ⟨c, -, hsch, -⟩ := hreports
        obtain ⟨hstep, -, hrest⟩ := first_fault (hsch'.symm.trans hsch) (by simp) (by simp)
        exact ⟨hstep, hrest⟩
      constructor
      · intro hunchanged
        obtain ⟨⟨hdacl, hkeys⟩, hfile⟩ := hrejected.unchanged_iff.mp (hunchanged _ _ _ rfl)
        refine ⟨fun heffects => by simp [hdacl, hkeys] at heffects, ?_⟩
        intro bytes' hbytes step' after' hreports'
        obtain ⟨rfl, rfl⟩ := hunique step' after' hreports'
        obtain rfl : bytes = bytes' := by simpa [hdocument] using hbytes
        exact hpath.eq_iff.mp hfile
      · rintro hharmless e' t' rest' heq
        cases heq
        rw [hrejected.unchanged_iff]
        refine ⟨?_, hpath.eq_iff.mpr (hharmless.save bytes hdocument step after hreports)⟩
        by_contra hne
        obtain ⟨bytes', -, hnone⟩ := hharmless.effects (by tauto)
        exact hnone step after hreports
    · rintro ⟨t, rfl⟩ hends
      exact ⟨fun _ => ⟨fun _ => ⟨bytes, hdocument, hends⟩,
        fun _ _ step rest hreports => (hends step rest hreports).elim⟩, fun _ e t rest heq => by
          simp at heq⟩

omit [Externals] [AccessControl] in
theorem admittedCaller_eq_some {call : Call} {preparing : Bool} {caller : CallerIdentity}
    (h : admittedCaller call preparing = some caller) :
    preparing = false ∧ call.caller = .ok caller ∧ caller.elevatedAdministrator = true := by
  unfold admittedCaller at h
  split at h
  · rename_i caller' hcaller
    split at h
    · rename_i helevated
      simp only [Option.some.injEq] at h
      subst h
      exact ⟨rfl, hcaller, helevated⟩
    · simp at h
  · simp at h

omit [AccessControl] in
theorem run_admitRequest {call : Call} {caller : CallerIdentity}
    (hcaller : admittedCaller call false = some caller) (registration : Registration)
    (s : ServiceState) (sch : Schedule Empty) :
    admitRequest call registration.request false s sch =
      (.ok (match registration with
        | .root _ _ _ _ => .registerRoot caller.sid
        | .scope _ _ _ _ _ => .registerRegistryScope caller.sid), refreshActiveJob s, sch) := by
  obtain ⟨-, hidentity, helevated⟩ := admittedCaller_eq_some hcaller
  cases registration <;>
    simp [admitRequest, Registration.request, rejectIf, run_bind, run_lift_ok, run_assign, run_look,
      hidentity, authorizeRequest, requireElevatedAdministrator, helevated]

theorem settled_root {m : Setup} {call : SetupCall} {caller : CallerIdentity}
    (hcaller : admittedCaller call.call false = some caller) (rootId productId : String)
    (rootKind : RootKind) (path : String) (sch : Schedule Empty) :
    m.Settled (m.progress call caller (.root rootId productId rootKind path)) sch
      (processRequest call (.registerRoot rootId productId rootKind path) false m sch) := by
  have hadmit := run_admitRequest hcaller (.root rootId productId rootKind path) m.service sch
  simp only [Registration.request] at hadmit
  have hrefresh := sameBut_refresh m.service
  simp only [Settled, progress, rootDocument, processRequest, run_bind, Part.run, onService, hadmit,
    registerRoot, run_registeredRootAsCaller]
  have hgrant : (if grants call rootKind then
      withGrant { m with service := refreshActiveJob m.service }
      else { m with service := refreshActiveJob m.service }) =
      { (if grants call rootKind then m.withGrant else m) with
        service := refreshActiveJob m.service } := by
    cases grants call rootKind <;> rfl
  have hkeys : (if grants call rootKind then m.withGrant else m).keys = m.keys := by
    cases grants call rootKind <;> rfl
  rw [hgrant]
  revert hkeys
  generalize (if grants call rootKind then m.withGrant else m) = n
  intro hkeys
  have hkept : ∀ document, m.Rejected ⟨document, m.service.rootFile, n.dacl, m.keys⟩
      m.service.rootFile { n with service := refreshActiveJob m.service } := by
    intro document
    exact {
      roots := hrefresh.roots
      registryScopes := hrefresh.registryScopes
      files := by simp [hrefresh.rootFile, hrefresh.registryScopeFile]
      dacl := rfl
      keys := hkeys }
  cases hchecked : checkedRoot call rootId productId rootKind with
  | error e => exact ⟨_, rfl, hkept _⟩
  | ok checked =>
    obtain ⟨verified, root⟩ := checked
    simp only [Result.ok_bind, run_lift_ok]
    cases hsid : rejectIf (verified.sid ≠ caller.sid)
        (.new .rootUnauthorized "caller token changed during root registration") with
    | error e => exact ⟨_, rfl, hkept _⟩
    | ok _ =>
      simp only [Result.ok_bind, run_lift_ok, run_look, hrefresh.roots]
      cases hregister : m.service.roots.register root with
      | error e => exact ⟨_, rfl, hkept _⟩
      | ok roots =>
        simp only [Result.ok_bind, run_lift_ok, RootRegistry.save, StoredRegistry.save, note,
          run_assign, rootFile]
        have hencoded : RootRegistry.stored.encode roots = roots.encode := rfl
        rw [hencoded]
        cases hencode : roots.encode with
        | error e =>
          simp only [run_bind, run_lift_error]
          refine ⟨_, rfl, ?_⟩
          exact {
            roots := hrefresh.roots
            registryScopes := hrefresh.registryScopes
            files := by simp [hrefresh.rootFile, hrefresh.registryScopeFile]
            dacl := rfl
            keys := hkeys }
        | ok bytes =>
          refine ⟨RootRegistry.stored.errors, ?_⟩
          simp only [run_bind, run_lift_ok, hrefresh.rootFile]
          cases writeRegistry RootRegistry.stored.errors bytes m.service.rootFile sch with
          | mk outcome rest =>
            obtain ⟨file, rest⟩ := rest
            cases outcome with
            | ok _ => exact ⟨_, _, rfl⟩
            | error e =>
              refine ⟨_, rfl, ?_⟩
              exact {
                roots := hrefresh.roots
                registryScopes := hrefresh.registryScopes
                files := by simp [hrefresh.registryScopeFile]
                dacl := rfl
                keys := hkeys }
            | crashed => exact ⟨_, rfl⟩

theorem settled_scope {m : Setup} {call : SetupCall} {caller : CallerIdentity}
    (hcaller : admittedCaller call.call false = some caller) (scopeId productId : String)
    (view : RegistryView) (subkey : String) (allowedValues : List AllowedRegistryValue)
    (sch : Schedule Empty) :
    m.Settled (m.progress call caller (.scope scopeId productId view subkey allowedValues)) sch
      (processRequest call (.registerRegistryScope scopeId productId view subkey allowedValues) false
        m sch) := by
  have hadmit := run_admitRequest hcaller
    (.scope scopeId productId view subkey allowedValues) m.service sch
  simp only [Registration.request] at hadmit
  have hrefresh := sameBut_refresh m.service
  simp only [Settled, progress, scopeDocument, processRequest, run_bind, Part.run, onService, hadmit,
    registerRegistryScope, run_registeredRegistryScopeAsCaller]
  rw [withKeys_withService]
  have hdacl := m.withKeys_dacl (scopeKeys call scopeId productId view subkey allowedValues)
  revert hdacl
  generalize m.withKeys (scopeKeys call scopeId productId view subkey allowedValues) = n
  intro hdacl
  have hkept : ∀ document, m.Rejected ⟨document, m.service.registryScopeFile, m.dacl, n.keys⟩
      m.service.registryScopeFile { n with service := refreshActiveJob m.service } := by
    intro document
    exact {
      roots := hrefresh.roots
      registryScopes := hrefresh.registryScopes
      files := by simp [hrefresh.rootFile, hrefresh.registryScopeFile]
      dacl := hdacl
      keys := rfl }
  cases hchecked : checkedScope call scopeId productId view subkey allowedValues with
  | error e => exact ⟨_, rfl, hkept _⟩
  | ok checked =>
    obtain ⟨verified, scope⟩ := checked
    simp only [Result.ok_bind, run_lift_ok]
    cases hsid : rejectIf (verified.sid ≠ caller.sid)
        (.new .registryScopeUnauthorized
          "caller token changed during registry-scope registration") with
    | error e => exact ⟨_, rfl, hkept _⟩
    | ok _ =>
      simp only [Result.ok_bind, run_lift_ok, run_look, hrefresh.registryScopes]
      cases hregister : m.service.registryScopes.register scope with
      | error e => exact ⟨_, rfl, hkept _⟩
      | ok registryScopes =>
        simp only [Result.ok_bind, run_lift_ok, RegistryScopeRegistry.save, StoredRegistry.save, note,
          run_assign, registryScopeFile]
        have hencoded : RegistryScopeRegistry.stored.encode registryScopes =
          registryScopes.encode := rfl
        rw [hencoded]
        cases hencode : registryScopes.encode with
        | error e =>
          simp only [run_bind, run_lift_error]
          refine ⟨_, rfl, ?_⟩
          exact {
            roots := hrefresh.roots
            registryScopes := hrefresh.registryScopes
            files := by simp [hrefresh.rootFile, hrefresh.registryScopeFile]
            dacl := hdacl
            keys := rfl }
        | ok bytes =>
          refine ⟨RegistryScopeRegistry.stored.errors, ?_⟩
          simp only [run_bind, run_lift_ok, hrefresh.registryScopeFile]
          cases writeRegistry RegistryScopeRegistry.stored.errors bytes
              m.service.registryScopeFile sch with
          | mk outcome rest =>
            obtain ⟨file, rest⟩ := rest
            cases outcome with
            | ok _ => exact ⟨_, _, rfl⟩
            | error e =>
              refine ⟨_, rfl, ?_⟩
              exact {
                roots := hrefresh.roots
                registryScopes := hrefresh.registryScopes
                files := by simp [hrefresh.rootFile]
                dacl := hdacl
                keys := rfl }
            | crashed => exact ⟨_, rfl⟩

omit [AccessControl] in
theorem admitRequest_refused {m : Setup} {call : Call} {preparing : Bool}
    (hcaller : admittedCaller call preparing = none) (registration : Registration)
    (sch : Schedule Empty) :
    ∃ e s, admitRequest call registration.request preparing m.service sch = (.error e, s, sch) ∧
      m.Unchanged { m with service := s } := by
  have hrefresh := sameBut_refresh m.service
  have hkept : m.Unchanged m := ⟨rfl, rfl, rfl, rfl, rfl, rfl⟩
  have hrefreshed : m.Unchanged { m with service := refreshActiveJob m.service } :=
    ⟨hrefresh.roots, hrefresh.registryScopes, by simp [hrefresh.rootFile],
      by simp [hrefresh.registryScopeFile], rfl, rfl⟩
  unfold admittedCaller at hcaller
  cases preparing with
  | true =>
    cases registration <;> exact ⟨_, _, rfl, hkept⟩
  | false =>
    cases hidentity : call.caller with
    | error e =>
      refine ⟨e, refreshActiveJob m.service, ?_, hrefreshed⟩
      simp [admitRequest, rejectIf, run_bind, run_lift_ok, run_lift_error, run_assign, hidentity]
    | ok caller =>
      rw [hidentity] at hcaller
      have helevated : caller.elevatedAdministrator = false := by simpa using hcaller
      refine ⟨.new .rootUnauthorized
        "setup operation requires an elevated administrator token", refreshActiveJob m.service, ?_,
        hrefreshed⟩
      cases registration <;>
        simp [admitRequest, Registration.request, rejectIf, run_bind, run_lift_ok, run_lift_error,
          run_assign, run_look, hidentity, authorizeRequest, requireElevatedAdministrator,
          helevated]

theorem run_refused {m : Setup} {call : SetupCall} {preparing : Bool}
    (hcaller : admittedCaller call.call preparing = none) (registration : Registration)
    (sch : Schedule Empty) :
    ∃ e t, processRequest call registration.request preparing m sch = (.error e, t, sch) ∧
      m.Unchanged t := by
  obtain ⟨e, s, hrun, hunchanged⟩ := admitRequest_refused hcaller registration (m := m) sch
  refine ⟨e, { m with service := s }, ?_, hunchanged⟩
  cases registration <;>
    simp only [Registration.request] at hrun ⊢ <;>
    simp only [processRequest, run_bind, Part.run, onService, hrun]

/-- A registration that is answered with an error has changed nothing exactly when it is harmless
at every point where it can still fail. -/
theorem registration_rejected_unchanged_iff (m : Setup) (call : SetupCall)
    (registration : Registration) (preparing : Bool) (sch : Schedule Empty) :
    (∀ e t rest, processRequest call registration.request preparing m sch = (.error e, t, rest) →
      m.Unchanged t) ↔
    ∀ caller, admittedCaller call.call preparing = some caller →
      (m.progress call caller registration).Harmless m sch := by
  cases hcaller : admittedCaller call.call preparing with
  | none =>
    obtain ⟨e, t, hrun, hunchanged⟩ := run_refused hcaller registration sch (m := m)
    rw [hrun]
    constructor
    · intro _ caller hnone
      simp at hnone
    · rintro - e' t' rest heq
      cases heq
      exact hunchanged
  | some caller =>
    have hpreparing : preparing = false := by
      cases preparing
      · rfl
      · simp [admittedCaller] at hcaller
    subst hpreparing
    simp only [Option.some.injEq, forall_eq']
    cases registration with
    | root rootId productId rootKind path =>
      exact (settled_root hcaller rootId productId rootKind path sch).unchanged_iff
    | scope scopeId productId view subkey allowedValues =>
      exact (settled_scope hcaller scopeId productId view subkey allowedValues sch).unchanged_iff

/-! ### The service's share of a registration -/

/-- The answers as `processRequest` takes them from the directory and the keys. -/
def serviceCall (call : SetupCall) : Registration → Call
  | .root rootId productId rootKind _ => { call.call with
      opened := (checkedRoot call rootId productId rootKind).map fun checked =>
        (checked.2.canonicalPath, checked.2.identity) }
  | .scope scopeId productId view subkey allowedValues => { call.call with
      keyOpened := (checkedScope call scopeId productId view subkey allowedValues).map fun _ => () }

omit [Externals] [AccessControl] in
theorem checkedRoot_eq_ok {call : SetupCall} {rootId productId : String} {rootKind : RootKind}
    {checked : CallerIdentity × RegisteredRoot}
    (h : checkedRoot call rootId productId rootKind = .ok checked) :
    call.call.impersonated = .ok checked.1 ∧ checked.1.elevatedAdministrator = true ∧
      RegisteredRoot.fromCanonicalIdentity rootId productId rootKind checked.2.canonicalPath
        checked.2.identity checked.1.sid = .ok checked.2 := by
  unfold checkedRoot at h
  obtain ⟨identity, himpersonated, h⟩ := Result.bind_eq_ok.mp h
  obtain ⟨_, helevated, h⟩ := Result.bind_eq_ok.mp h
  obtain ⟨_, -, h⟩ := Result.bind_eq_ok.mp h
  obtain ⟨_, -, h⟩ := Result.bind_eq_ok.mp h
  have helevated : identity.elevatedAdministrator = true := by
    simpa using rejectIf_eq_ok.mp helevated
  have hnamed : ∃ canonical directory root, RegisteredRoot.fromCanonicalIdentity rootId productId
      rootKind canonical directory identity.sid = .ok root ∧ checked = (identity, root) := by
    split at h
    · obtain ⟨_, -, h⟩ := Result.bind_eq_ok.mp h
      obtain ⟨canonical, -, h⟩ := Result.bind_eq_ok.mp h
      obtain ⟨directory, -, h⟩ := Result.bind_eq_ok.mp h
      obtain ⟨root, hroot, h⟩ := Result.bind_eq_ok.mp h
      obtain ⟨_, -, h⟩ := Result.bind_eq_ok.mp h
      cases h
      exact ⟨canonical, directory, root, hroot, rfl⟩
    · obtain ⟨canonical, -, h⟩ := Result.bind_eq_ok.mp h
      obtain ⟨directory, -, h⟩ := Result.bind_eq_ok.mp h
      obtain ⟨root, hroot, h⟩ := Result.bind_eq_ok.mp h
      obtain ⟨_, -, h⟩ := Result.bind_eq_ok.mp h
      cases h
      exact ⟨canonical, directory, root, hroot, rfl⟩
  obtain ⟨canonical, directory, root, hroot, rfl⟩ := hnamed
  refine ⟨himpersonated, helevated, ?_⟩
  have hsame : root.canonicalPath = canonical ∧ root.identity = directory := by
    obtain ⟨_, -, hroot⟩ := Result.bind_eq_ok.mp hroot
    cases hroot
    exact ⟨rfl, rfl⟩
  rw [hsame.1, hsame.2]
  exact hroot

omit [AccessControl] in
theorem registeredRootAsCaller_serviceCall (call : SetupCall) (rootId productId : String)
    (rootKind : RootKind) (path : String) :
    Windows.registeredRootAsCaller (serviceCall call (.root rootId productId rootKind path)) rootId
      productId rootKind = checkedRoot call rootId productId rootKind := by
  cases hchecked : checkedRoot call rootId productId rootKind with
  | error e =>
    simp only [Windows.registeredRootAsCaller, serviceCall, hchecked]
    unfold checkedRoot at hchecked
    cases himpersonated : call.call.impersonated with
    | error e' =>
      rw [himpersonated] at hchecked
      exact hchecked
    | ok identity =>
      rw [himpersonated] at hchecked
      cases helevated : identity.elevatedAdministrator with
      | false => simpa [rejectIf, helevated] using hchecked
      | true => simp [rejectIf, helevated, Except.map]
  | ok checked =>
    obtain ⟨himpersonated, helevated, hroot⟩ := checkedRoot_eq_ok hchecked
    simp [Windows.registeredRootAsCaller, serviceCall, hchecked, himpersonated, rejectIf,
      helevated, Except.map, hroot]

omit [AccessControl] in
theorem registeredRegistryScopeAsCaller_serviceCall (call : SetupCall) (scopeId productId : String)
    (view : RegistryView) (subkey : String) (allowedValues : List AllowedRegistryValue) :
    Windows.registeredRegistryScopeAsCaller
      (serviceCall call (.scope scopeId productId view subkey allowedValues)) scopeId productId view
      subkey allowedValues = checkedScope call scopeId productId view subkey allowedValues := by
  simp only [Windows.registeredRegistryScopeAsCaller, serviceCall]
  cases himpersonated : call.call.impersonated with
  | error e => simp only [checkedScope, namedScope, himpersonated, Result.error_bind]
  | ok identity =>
    cases helevated : identity.elevatedAdministrator with
    | false =>
      simp only [checkedScope, namedScope, himpersonated, Result.ok_bind, Result.error_bind,
        helevated, rejectIf, Bool.not_false, if_true]
    | true =>
      cases hscope : RegisteredRegistryScope.new scopeId productId view subkey allowedValues
          identity.sid with
      | error e =>
        simp only [checkedScope, namedScope, himpersonated, Result.ok_bind, Result.error_bind,
          helevated, rejectIf, Bool.not_true, Bool.false_eq_true, if_false, hscope]
      | ok scope =>
        cases hchecked : checkedScope call scopeId productId view subkey allowedValues with
        | error e => simp [helevated, hscope, rejectIf, Except.map]
        | ok checked =>
          have hsame : checked = (identity, scope) := by
            obtain ⟨named, hnamed, h⟩ := Result.bind_eq_ok.mp hchecked
            obtain ⟨_, -, h⟩ := Result.bind_eq_ok.mp h
            obtain ⟨_, -, h⟩ := Result.bind_eq_ok.mp h
            simp only [namedScope, himpersonated, helevated, hscope, rejectIf, Result.ok_bind,
              Bool.not_true, Bool.false_eq_true, if_false] at hnamed
            obtain ⟨_, -, hnamed⟩ := Result.bind_eq_ok.mp hnamed
            obtain ⟨_, -, hnamed⟩ := Result.bind_eq_ok.mp hnamed
            cases hnamed
            cases h
            rfl
          subst hsame
          simp [helevated, hscope, rejectIf, Except.map]

omit [AccessControl] in
theorem admitRequest_serviceCall (call : SetupCall) (registration : Registration) :
    admitRequest (serviceCall call registration) = admitRequest call.call := by
  cases registration <;> rfl

omit [AccessControl] in
/-- A request that is not admitted ends there. -/
theorem run_processRequest_of_refused {call : Call} {request : Request} {preparing : Bool}
    {s t : ServiceState} {sch rest : Schedule Empty} {e : MaintenanceError}
    (h : admitRequest call request preparing s sch = (.error e, t, rest)) :
    Windows.processRequest call request preparing s sch = (.error e, t, rest) := by
  revert h
  simp only [admitRequest, Windows.processRequest, run_bind]
  rcases rejectIf (preparing && decide (requestKind request = .mutation))
    (.new .serviceBusy "another maintenance job is being prepared") with e' | _
  · simp only [run_lift_error, Prod.mk.injEq, Outcome.error.injEq]
    exact id
  simp only [run_lift_ok, run_assign]
  rcases call.caller with e' | caller
  · simp only [run_lift_error, Prod.mk.injEq, Outcome.error.injEq]
    exact id
  simp only [run_lift_ok, run_look]
  rcases authorizeRequest request caller _ _ _ with e' | authorization
  · simp only [run_lift_error, Prod.mk.injEq, Outcome.error.injEq]
    exact id
  · intro h
    simp [run_lift_ok] at h

omit [AccessControl] in
theorem run_processRequest_root {call : Call} {caller : CallerIdentity}
    (hcaller : admittedCaller call false = some caller) (rootId productId : String)
    (rootKind : RootKind) (path : String) (s : ServiceState) (sch : Schedule Empty) :
    Windows.processRequest call (.registerRoot rootId productId rootKind path) false s sch =
      (do pure (.respond (← Windows.registerRoot call caller.sid rootId productId rootKind)) :
        ServiceProg Dispatch) (refreshActiveJob s) sch := by
  obtain ⟨-, hidentity, helevated⟩ := admittedCaller_eq_some hcaller
  simp [Windows.processRequest, rejectIf, run_bind, run_lift_ok, run_assign, run_look,
      hidentity, authorizeRequest, requireElevatedAdministrator, helevated, -bind_pure_comp]

omit [AccessControl] in
theorem run_processRequest_scope {call : Call} {caller : CallerIdentity}
    (hcaller : admittedCaller call false = some caller) (scopeId productId : String)
    (view : RegistryView) (subkey : String) (allowedValues : List AllowedRegistryValue)
    (s : ServiceState) (sch : Schedule Empty) :
    Windows.processRequest call
        (.registerRegistryScope scopeId productId view subkey allowedValues) false s sch =
      (do
        pure (.respond (← Windows.registerRegistryScope call caller.sid scopeId productId view subkey
          allowedValues)) : ServiceProg Dispatch) (refreshActiveJob s) sch := by
  obtain ⟨-, hidentity, helevated⟩ := admittedCaller_eq_some hcaller
  simp [Windows.processRequest, rejectIf, run_bind, run_lift_ok, run_assign, run_look,
    hidentity, authorizeRequest, requireElevatedAdministrator, helevated, -bind_pure_comp]

/-- What happens to the service is what `processRequest` does to it. -/
theorem processRequest_service (m : Setup) (call : SetupCall) (registration : Registration)
    (preparing : Bool) (sch : Schedule Empty) :
    Windows.processRequest (serviceCall call registration) registration.request preparing m.service
        sch =
      ((processRequest call registration.request preparing m sch).1,
        (processRequest call registration.request preparing m sch).2.1.service,
        (processRequest call registration.request preparing m sch).2.2) := by
  cases hcaller : admittedCaller call.call preparing with
  | none =>
    obtain ⟨e, s, hadmit, -⟩ := admitRequest_refused hcaller registration (m := m) sch
    have hservice : admitRequest (serviceCall call registration) registration.request preparing
        m.service sch = (.error e, s, sch) := by
      rw [admitRequest_serviceCall]
      exact hadmit
    rw [run_processRequest_of_refused hservice]
    cases registration <;>
      simp only [Registration.request] at hadmit ⊢ <;>
      simp only [processRequest, run_bind, Part.run, onService, hadmit]
  | some caller =>
    have hpreparing : preparing = false := (admittedCaller_eq_some hcaller).1
    subst hpreparing
    have hcall : admittedCaller (serviceCall call registration) false = some caller := by
      rw [← hcaller]
      cases registration <;> rfl
    have hadmit := run_admitRequest hcaller registration m.service sch
    cases registration with
    | root rootId productId rootKind path =>
      have hchecked := registeredRootAsCaller_serviceCall call rootId productId rootKind path
      simp only [Registration.request] at hadmit ⊢
      rw [run_processRequest_root hcall]
      simp only [processRequest, run_bind, Part.run, onService, hadmit, Windows.registerRoot,
        hchecked, registerRoot, run_registeredRootAsCaller]
      have hgranted : (if grants call rootKind then
          withGrant { m with service := refreshActiveJob m.service }
          else { m with service := refreshActiveJob m.service }) =
          { (if grants call rootKind then m.withGrant else m) with
            service := refreshActiveJob m.service } := by
        cases grants call rootKind <;> rfl
      rw [hgranted]
      rcases checkedRoot call rootId productId rootKind with e | ⟨verified, root⟩
      · rfl
      simp only [run_lift_ok]
      rcases rejectIf (verified.sid ≠ caller.sid)
        (.new .rootUnauthorized "caller token changed during root registration") with e | _
      · rfl
      simp only [run_lift_ok, run_look]
      rcases (refreshActiveJob m.service).roots.register root with e | roots
      · rfl
      simp only [run_lift_ok, note, run_assign]
      rcases RootRegistry.save roots _ sch with ⟨_ | e | _, file, rest⟩ <;> rfl
    | scope scopeId productId view subkey allowedValues =>
      have hchecked := registeredRegistryScopeAsCaller_serviceCall call scopeId productId view subkey
        allowedValues
      simp only [Registration.request] at hadmit ⊢
      rw [run_processRequest_scope hcall]
      simp only [processRequest, run_bind, Part.run, onService, hadmit,
        Windows.registerRegistryScope, hchecked, registerRegistryScope,
        run_registeredRegistryScopeAsCaller, withKeys_withService]
      rcases checkedScope call scopeId productId view subkey allowedValues with e | ⟨verified, scope⟩
      · rfl
      simp only [run_lift_ok]
      rcases rejectIf (verified.sid ≠ caller.sid)
        (.new .registryScopeUnauthorized
          "caller token changed during registry-scope registration") with e | _
      · rfl
      simp only [run_lift_ok, run_look]
      rcases (refreshActiveJob m.service).registryScopes.register scope with e | registryScopes
      · rfl
      simp only [run_lift_ok, note, run_assign]
      rcases RegistryScopeRegistry.save registryScopes _ sch with ⟨_ | e | _, file, rest⟩ <;> rfl

end Setup

end Programs

/-! ### A library under an id that is taken -/

section Taken

attribute [local instance] releaseExternals

@[reducible] def replacingEntries : AccessControl where
  setEntry entry dacl := entry :: dacl.filter fun other => other.trustee ≠ entry.trustee

attribute [local instance] replacingEntries

/-- Everything is answered well. -/
def libraryCall : SetupCall where
  call := releaseCall
  directory := {
    opened := .ok ()
    safe := .ok ()
    granted := .ok ()
    finalPath := .ok "\\\\?\\C:\\Library"
    identity := .ok ⟨1, Vector.replicate 16 3⟩ }
  creating := ⟨fun _ => 0, fun _ => .ok false⟩
  opening := ⟨fun _ => 0, fun _ => .ok false⟩
  reverted := .ok ()

def afterRegistration : List Action :=
  [.start [] (.ok ()) [] [],
    .request releaseCall (.registerRoot "games" "launcher" .launcher "") true []]

noncomputable def registered : Daemon := beforeRelease.after quietPolicy afterRegistration

/-- Nobody but its owner may write to the directory. -/
noncomputable def beforeLibrary : Setup where
  service := registered.service
  dacl := [⟨"S-1-5-21-1000", rootModifyAccessMask, subContainersAndObjectsInherit⟩]
  keys := []

noncomputable def takenLibrary : Faulty.Result Setup MaintenanceError Empty Dispatch :=
  Setup.processRequest libraryCall (.registerRoot "games" "launcher" .library "") false
    beforeLibrary []

theorem rejected_library_grants_access :
    ¬ ∀ (d t : Daemon), d.Fresh → Daemon.Runs quietPolicy (fun _ _ => True) d t →
      t.running = true → ∀ m : Setup, m.service = t.service → ∀ call registration sch e n rest,
        Setup.processRequest call (Setup.Registration.request registration) t.preparing.isSome m sch
          = (.error e, n, rest) → m.Unchanged n := by
  intro h
  have hfresh : beforeRelease.Fresh := Daemon.fresh_fresh rfl
  have hruns : Daemon.Runs quietPolicy (fun _ _ => True) beforeRelease registered :=
    Daemon.after_runs ⟨trivial, trivial, trivial⟩
  have hpreparing : registered.preparing.isSome = false := by decide +kernel
  have hrunning : registered.running = true := by decide +kernel
  have hrejected : takenLibrary.1.isError = true ∧ takenLibrary.2.1.dacl.length = 2 := by
    decide +kernel
  have hunchanged := h beforeRelease registered hfresh hruns hrunning beforeLibrary (by
    simp only [beforeLibrary]) libraryCall (.root "games" "launcher" .library "") []
  rw [hpreparing] at hunchanged
  obtain ⟨herror, hlength⟩ := hrejected
  change ∀ e n rest, takenLibrary = (.error e, n, rest) → _ at hunchanged
  rcases htaken : takenLibrary with ⟨_ | e | _, n, rest⟩
  · simp [htaken, Faulty.Outcome.isError] at herror
  · rw [htaken] at hlength
    have hdacl := (hunchanged e n rest htaken).dacl
    simp only [hdacl] at hlength
    simp [beforeLibrary] at hlength
  · simp [htaken, Faulty.Outcome.isError] at herror

end Taken

end Se7en.Windows
