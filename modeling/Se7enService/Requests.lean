import Se7enService.RegistryScopes
import Se7enService.Roots
set_option autoImplicit false

/-! The requests of the protocol and `authorize_request` of `windows.rs`. -/

namespace Se7en.Windows

/-- `CallerIdentity::new` takes no other texts. -/
structure CallerIdentity where
  sid : String
  elevatedAdministrator : Bool
  valid : validOwnerSid sid = true
  deriving DecidableEq, Repr

/-- A decoded request; the protocol version has been checked. -/
inductive Request where
  | getStatus
  | getRootStatus (rootId : String)
  | getRegistryScopeStatus (scopeId : String)
  | registerRoot (rootId productId : String) (rootKind : RootKind) (path : String)
  | unregisterRoot (rootId : String)
  | registerRegistryScope (scopeId productId : String) (view : RegistryView) (subkey : String)
      (allowedValues : List AllowedRegistryValue)
  | unregisterRegistryScope (scopeId : String)
  | applyRegistrySet (scopeId manifestPath : String)
  | prepareFileSet (rootId manifestPath stagingPath : String)
  | commitJob (jobId : String)
  | getJobStatus (jobId : String)
  deriving DecidableEq, Repr

inductive RequestKind where
  | query
  | mutation
  deriving DecidableEq, Repr

def requestKind : Request → RequestKind
  | .getStatus | .getRootStatus _ | .getRegistryScopeStatus _ | .getJobStatus _ => .query
  | .registerRoot _ _ _ _ | .unregisterRoot _ | .registerRegistryScope _ _ _ _ _
  | .unregisterRegistryScope _ | .applyRegistrySet _ _ | .prepareFileSet _ _ _ | .commitJob _ =>
    .mutation

inductive AuthorizedRequest where
  | getStatus
  | getRootStatus (root : RegisteredRoot)
  | getRegistryScopeStatus (scope : RegisteredRegistryScope)
  | registerRoot (ownerSid : String)
  | unregisterRoot (rootId : String)
  | registerRegistryScope (ownerSid : String)
  | unregisterRegistryScope (scopeId : String)
  | applyRegistrySet (scope : RegisteredRegistryScope)
  | prepareFileSet (root : RegisteredRoot)
  | commitJob (jobId : String)
  | getJobStatus (jobId : String)
  deriving DecidableEq, Repr

def requireElevatedAdministrator (caller : CallerIdentity) : Result Unit :=
  rejectIf (!caller.elevatedAdministrator)
    (.new .rootUnauthorized "setup operation requires an elevated administrator token")

/-- The active job is given by its id and its owner. -/
def authorizeOwnedJob (requestedJobId : String) (caller : CallerIdentity)
    (activeJob : Option (String × String)) : Result Unit :=
  rejectIf (activeJob ≠ some (requestedJobId, caller.sid))
    (.new .rootUnauthorized "job is absent or belongs to another caller")

def authorizeRequest [Unicode] (request : Request) (caller : CallerIdentity) (roots : RootRegistry)
    (registryScopes : RegistryScopeRegistry) (activeJob : Option (String × String)) :
    Result AuthorizedRequest :=
  match request with
  | .getStatus => pure .getStatus
  | .getRootStatus rootId => do pure (.getRootStatus (← roots.resolveAccessible rootId caller.sid))
  | .getRegistryScopeStatus scopeId => do
    pure (.getRegistryScopeStatus (← registryScopes.resolveOwned scopeId caller.sid))
  | .registerRoot _ _ _ _ => do
    requireElevatedAdministrator caller
    pure (.registerRoot caller.sid)
  | .unregisterRoot rootId => do
    requireElevatedAdministrator caller
    pure (.unregisterRoot rootId)
  | .registerRegistryScope _ _ _ _ _ => do
    requireElevatedAdministrator caller
    pure (.registerRegistryScope caller.sid)
  | .unregisterRegistryScope scopeId => do
    requireElevatedAdministrator caller
    pure (.unregisterRegistryScope scopeId)
  | .applyRegistrySet scopeId _ => do
    pure (.applyRegistrySet (← registryScopes.resolveOwned scopeId caller.sid))
  | .prepareFileSet rootId _ _ => do
    pure (.prepareFileSet (← roots.resolveAccessible rootId caller.sid))
  | .commitJob jobId => do
    authorizeOwnedJob jobId caller activeJob
    pure (.commitJob jobId)
  | .getJobStatus jobId => do
    authorizeOwnedJob jobId caller activeJob
    pure (.getJobStatus jobId)

section Authorized

variable [Unicode] {request : Request} {caller : CallerIdentity} {roots : RootRegistry}
  {registryScopes : RegistryScopeRegistry} {activeJob : Option (String × String)}

/-- What is known of a caller whose request has been let through. -/
def Authorized (caller : CallerIdentity) (roots : RootRegistry)
    (registryScopes : RegistryScopeRegistry) (activeJob : Option (String × String)) :
    Request → AuthorizedRequest → Prop
  | .getStatus, .getStatus => True
  | .getRootStatus rootId, .getRootStatus root =>
    roots.resolveAccessible rootId caller.sid = .ok root
  | .getRegistryScopeStatus scopeId, .getRegistryScopeStatus scope =>
    registryScopes.resolveOwned scopeId caller.sid = .ok scope
  | .registerRoot _ _ _ _, .registerRoot ownerSid =>
    caller.elevatedAdministrator = true ∧ ownerSid = caller.sid
  | .unregisterRoot rootId, .unregisterRoot rootId' =>
    caller.elevatedAdministrator = true ∧ rootId' = rootId
  | .registerRegistryScope _ _ _ _ _, .registerRegistryScope ownerSid =>
    caller.elevatedAdministrator = true ∧ ownerSid = caller.sid
  | .unregisterRegistryScope scopeId, .unregisterRegistryScope scopeId' =>
    caller.elevatedAdministrator = true ∧ scopeId' = scopeId
  | .applyRegistrySet scopeId _, .applyRegistrySet scope =>
    registryScopes.resolveOwned scopeId caller.sid = .ok scope
  | .prepareFileSet rootId _ _, .prepareFileSet root =>
    roots.resolveAccessible rootId caller.sid = .ok root
  | .commitJob jobId, .commitJob jobId' =>
    activeJob = some (jobId, caller.sid) ∧ jobId' = jobId
  | .getJobStatus jobId, .getJobStatus jobId' =>
    activeJob = some (jobId, caller.sid) ∧ jobId' = jobId
  | _, _ => False

theorem authorizeRequest_sound {authorization : AuthorizedRequest}
    (h : authorizeRequest request caller roots registryScopes activeJob = .ok authorization) :
    Authorized caller roots registryScopes activeJob request authorization := by
  cases request with
  | getStatus =>
    obtain rfl := Except.ok.inj h
    trivial
  | getRootStatus rootId =>
    obtain ⟨root, hroot, h⟩ := Result.bind_eq_ok.mp h
    obtain rfl := Except.ok.inj h
    exact hroot
  | getRegistryScopeStatus scopeId =>
    obtain ⟨scope, hscope, h⟩ := Result.bind_eq_ok.mp h
    obtain rfl := Except.ok.inj h
    exact hscope
  | registerRoot rootId productId rootKind path =>
    obtain ⟨⟨⟩, helevated, h⟩ := Result.bind_eq_ok.mp h
    obtain rfl := Except.ok.inj h
    exact ⟨by simpa using rejectIf_eq_ok.mp helevated, rfl⟩
  | unregisterRoot rootId =>
    obtain ⟨⟨⟩, helevated, h⟩ := Result.bind_eq_ok.mp h
    obtain rfl := Except.ok.inj h
    exact ⟨by simpa using rejectIf_eq_ok.mp helevated, rfl⟩
  | registerRegistryScope scopeId productId view subkey allowedValues =>
    obtain ⟨⟨⟩, helevated, h⟩ := Result.bind_eq_ok.mp h
    obtain rfl := Except.ok.inj h
    exact ⟨by simpa using rejectIf_eq_ok.mp helevated, rfl⟩
  | unregisterRegistryScope scopeId =>
    obtain ⟨⟨⟩, helevated, h⟩ := Result.bind_eq_ok.mp h
    obtain rfl := Except.ok.inj h
    exact ⟨by simpa using rejectIf_eq_ok.mp helevated, rfl⟩
  | applyRegistrySet scopeId manifestPath =>
    obtain ⟨scope, hscope, h⟩ := Result.bind_eq_ok.mp h
    obtain rfl := Except.ok.inj h
    exact hscope
  | prepareFileSet rootId manifestPath stagingPath =>
    obtain ⟨root, hroot, h⟩ := Result.bind_eq_ok.mp h
    obtain rfl := Except.ok.inj h
    exact hroot
  | commitJob jobId =>
    obtain ⟨⟨⟩, howned, h⟩ := Result.bind_eq_ok.mp h
    obtain rfl := Except.ok.inj h
    exact ⟨by simpa using rejectIf_eq_ok.mp howned, rfl⟩
  | getJobStatus jobId =>
    obtain ⟨⟨⟩, howned, h⟩ := Result.bind_eq_ok.mp h
    obtain rfl := Except.ok.inj h
    exact ⟨by simpa using rejectIf_eq_ok.mp howned, rfl⟩

end Authorized

end Se7en.Windows
