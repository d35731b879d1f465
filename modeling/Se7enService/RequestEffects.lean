import Se7enService.ProcessRequest
import Se7enService.RegistryApply
set_option autoImplicit false

/-! Where a request can leave the service. -/

namespace Se7en.Windows
open Faulty

section Effects

variable [Externals]

/-- The answer neither hands a file set to the prepare worker nor reports a started commit. -/
def Passive : Outcome MaintenanceError Dispatch → Prop
  | .ok (.prepare _) => False
  | .ok (.respond (.committing _)) => False
  | _ => True

/-- The manifest has been verified for the root, with a keyring that has been verified itself. -/
def VerifiedForRoot (root : RegisteredRoot) (previous : Option GenerationRecord)
    (manifest : VerifiedFileSet) : Prop :=
  ∃ keyringBytes keyring bytes, verifyKeyring keyringBytes {} = .ok keyring ∧
    verifyFileSet bytes keyring { expectedProductId := root.productId, previous } = .ok manifest

def VerifiedForScope (scope : RegisteredRegistryScope)
    (previous : Option GenerationRecord) (manifest : VerifiedRegistrySet) : Prop :=
  ∃ keyringBytes keyring bytes, verifyKeyring keyringBytes {} = .ok keyring ∧
    verifyRegistrySet bytes keyring {
      allowedValues := scope.allowedValues
      expectedProductId := scope.productId
      expectedScopeId := scope.scopeId
      previous } = .ok manifest

/-- The saved registry is held when, and only when, the save has gone through. -/
def Ended {R : Type} (id : String) (before saved : R) (outcome : Outcome MaintenanceError Dispatch)
    (held : R) : Prop :=
  (outcome = .ok (.respond (.done id)) ∧ held = saved) ∨ (outcome.isOk = false ∧ held = before)

/-- The ends of `process_request`, each with the checks that led to it. The flag tells whether a
prepare worker runs. -/
inductive Processed (call : Call) (s : ServiceState) :
    Bool → Request → Outcome MaintenanceError Dispatch → ServiceState → Prop where
  | kept {preparing : Bool} {request : Request} {outcome : Outcome MaintenanceError Dispatch}
      {t : ServiceState} :
      Passive outcome → t = s ∨ t = refreshActiveJob s ∨ t = dropCompleted (refreshActiveJob s) →
      Processed call s preparing request outcome t
  | registersRoot {rootId productId path : String} {rootKind : RootKind}
      {outcome : Outcome MaintenanceError Dispatch} (caller verified : CallerIdentity)
      (root : RegisteredRoot) (saved held : RootRegistry) (file : ServiceFile) :
      call.caller = .ok caller → caller.elevatedAdministrator = true →
      registeredRootAsCaller call rootId productId rootKind = .ok (verified, root) →
      verified.sid = caller.sid → s.roots.register root = .ok saved →
      RootRegistry.stored.Leaves saved s.rootFile file →
      Ended rootId s.roots saved outcome held →
      Processed call s false (.registerRoot rootId productId rootKind path) outcome
        { refreshActiveJob s with
          roots := held, rootFile := file, log := s.log ++ [.registersRoot verified root] }
  | unregistersRoot {rootId : String} {outcome : Outcome MaintenanceError Dispatch}
      (caller : CallerIdentity) (root : RegisteredRoot) (saved held : RootRegistry)
      (file : ServiceFile) :
      call.caller = .ok caller → caller.elevatedAdministrator = true →
      s.roots.unregister rootId caller.sid = .ok (root, saved) →
      RootRegistry.stored.Leaves saved s.rootFile file →
      Ended rootId s.roots saved outcome held →
      Processed call s false (.unregisterRoot rootId) outcome
        { refreshActiveJob s with roots := held, rootFile := file }
  | registersScope {scopeId productId subkey : String} {view : RegistryView}
      {allowedValues : List AllowedRegistryValue} {outcome : Outcome MaintenanceError Dispatch}
      (caller verified : CallerIdentity) (scope : RegisteredRegistryScope)
      (saved held : RegistryScopeRegistry) (file : ServiceFile) :
      call.caller = .ok caller → caller.elevatedAdministrator = true →
      registeredRegistryScopeAsCaller call scopeId productId view subkey allowedValues
        = .ok (verified, scope) →
      verified.sid = caller.sid → s.registryScopes.register scope = .ok saved →
      RegistryScopeRegistry.stored.Leaves saved s.registryScopeFile file →
      Ended scopeId s.registryScopes saved outcome held →
      Processed call s false (.registerRegistryScope scopeId productId view subkey allowedValues)
        outcome
        { refreshActiveJob s with
          registryScopes := held, registryScopeFile := file
          log := s.log ++ [.registersScope verified scope] }
  | unregistersScope {scopeId : String} {outcome : Outcome MaintenanceError Dispatch}
      (caller : CallerIdentity) (scope : RegisteredRegistryScope)
      (saved held : RegistryScopeRegistry) (file : ServiceFile) :
      call.caller = .ok caller → caller.elevatedAdministrator = true →
      s.registryScopes.unregister scopeId caller.sid = .ok (scope, saved) →
      RegistryScopeRegistry.stored.Leaves saved s.registryScopeFile file →
      Ended scopeId s.registryScopes saved outcome held →
      Processed call s false (.unregisterRegistryScope scopeId) outcome
        { refreshActiveJob s with registryScopes := held, registryScopeFile := file }
  | applies {scopeId manifestPath : String} {outcome : Outcome MaintenanceError Dispatch}
      (caller : CallerIdentity) (scope : RegisteredRegistryScope) (manifest : VerifiedRegistrySet)
      (previous : Option GenerationRecord) (registry : RegistryStore) :
      call.caller = .ok caller → s.registryScopes.resolveOwned scopeId caller.sid = .ok scope →
      (dropCompleted (refreshActiveJob s)).activeJob = none → call.stopRequested = false →
      s.registry.accepted.previous scope.scopeId = .ok previous →
      VerifiedForScope scope previous manifest → Passive outcome →
      (outcome.isOk = true → registry.transaction = ⟨none, none, none⟩ ∧
        s.registry.Applied scope manifest registry) →
      (outcome.isOk = false → s.registry.Applying scope manifest registry Anything) →
      Processed call s false (.applyRegistrySet scopeId manifestPath) outcome
        { dropCompleted (refreshActiveJob s) with
          registry, log := s.log ++ [.applies caller scope manifest] }
  | preparing {rootId manifestPath stagingPath : String} (caller : CallerIdentity)
      (root : RegisteredRoot) (manifest : VerifiedFileSet) (previous : Option GenerationRecord) :
      call.caller = .ok caller → s.roots.resolveAccessible rootId caller.sid = .ok root →
      (dropCompleted (refreshActiveJob s)).activeJob = none →
      s.generations.previous root.rootId = .ok previous → VerifiedForRoot root previous manifest →
      Processed call s false (.prepareFileSet rootId manifestPath stagingPath)
        (.ok (.prepare { manifest, root, stagingPath, ownerSid := caller.sid }))
        (dropCompleted (refreshActiveJob s))
  | committing {jobId : String} (caller : CallerIdentity) (active : ActiveJob)
      (prepared : PreparedJob) :
      call.caller = .ok caller → (refreshActiveJob s).activeJob = some active →
      active.state = .prepared prepared → active.jobId = jobId → active.ownerSid = caller.sid →
      call.stopRequested = false →
      Processed call s false (.commitJob jobId) (.ok (.respond (.committing jobId)))
        { refreshActiveJob s with
          activeJob := some { active with state := .committing s.commits.length }
          commits := s.commits ++ [{
            job := prepared
            serial := active.serial
            preparedBy := active.ownerSid
            committedBy := caller.sid
            channel := .empty }] }

/-! ### What refreshing and dropping leave alone -/

/-- Only the active job may differ. -/
structure SameBut (s t : ServiceState) : Prop where
  roots : t.roots = s.roots
  rootFile : t.rootFile = s.rootFile
  generations : t.generations = s.generations
  generationFile : t.generationFile = s.generationFile
  registryScopes : t.registryScopes = s.registryScopes
  registryScopeFile : t.registryScopeFile = s.registryScopeFile
  registry : t.registry = s.registry
  commits : t.commits = s.commits
  log : t.log = s.log

theorem SameBut.refl (s : ServiceState) : SameBut s s := ⟨rfl, rfl, rfl, rfl, rfl, rfl, rfl, rfl, rfl⟩

theorem SameBut.withJob {s t : ServiceState} (h : SameBut s t) (activeJob : Option ActiveJob) :
    SameBut s (t.withJob activeJob) :=
  ⟨h.roots, h.rootFile, h.generations, h.generationFile, h.registryScopes, h.registryScopeFile,
    h.registry, h.commits, h.log⟩

theorem sameBut_refresh (s : ServiceState) : SameBut s (refreshActiveJob s) := by
  unfold refreshActiveJob
  split
  · exact .refl s
  · split
    · exact .refl s
    · exact .refl s
    · split
      · exact .refl s
      · exact (SameBut.refl s).withJob _

theorem SameBut.drop {s t : ServiceState} (h : SameBut s t) : SameBut s (dropCompleted t) := by
  unfold dropCompleted
  split
  · exact h.withJob _
  · exact h

/-! ### Every end of a request -/

section Arms

variable {call : Call} {s : ServiceState} {preparing : Bool} {request : Request}
  {caller : CallerIdentity}

/-- What an arm has to guarantee of the answer it gives. -/
abbrev Answers (call : Call) (s : ServiceState) (preparing : Bool) (request : Request)
    (p : ServiceProg Response) (u : ServiceState) : Prop :=
  Wp Anything p (fun response t => Processed call s preparing request (.ok (.respond response)) t)
    (fun e t => Processed call s preparing request (.error e) t)
    (fun t => Processed call s preparing request .crashed t) u

theorem Processed.refused {e : MaintenanceError} :
    Processed call s preparing request (.error e) (refreshActiveJob s) :=
  .kept trivial (.inr (.inl rfl))

theorem Processed.refusedAfterDrop {e : MaintenanceError} :
    Processed call s preparing request (.error e) (dropCompleted (refreshActiveJob s)) :=
  .kept trivial (.inr (.inr rfl))

theorem wp_save_part {R : Type} {S : StoredRegistry R} {part : Part ServiceState ServiceFile}
    {registry : R} {Q : Unit → ServiceState → Prop} {E : MaintenanceError → ServiceState → Prop}
    {C : ServiceState → Prop}
    (hok : ∀ file, S.Leaves registry (part.get s) file → Q () (part.set file s))
    (herr : ∀ e file, S.Leaves registry (part.get s) file → E e (part.set file s))
    (hcrash : ∀ file, S.Leaves registry (part.get s) file → C (part.set file s)) :
    Wp Anything (part.run (S.save registry)) Q E C s :=
  Wp.part (StoredRegistry.wp_leaves.mono (fun _ file h => hok file h) (fun e file h => herr e file h)
    fun file h => hcrash file h)

theorem answers_registerRoot {rootId productId path : String} {rootKind : RootKind}
    (hcaller : call.caller = .ok caller) (helevated : caller.elevatedAdministrator = true) :
    Answers call s false (.registerRoot rootId productId rootKind path)
      (registerRoot call caller.sid rootId productId rootKind) (refreshActiveJob s) := by
  have hsame := sameBut_refresh s
  unfold registerRoot
  refine Wp.bind (Wp.lift ?_ fun e _ => .refused)
  rintro ⟨verified, root⟩ hverified
  refine Wp.bind (Wp.lift ?_ fun e _ => .refused)
  rintro ⟨⟩ hsid
  have hsid : verified.sid = caller.sid := by simpa using rejectIf_eq_ok.mp hsid
  refine Wp.bind (Wp.look (Wp.bind (Wp.lift ?_ fun e _ => .refused)))
  intro saved hsaved
  rw [hsame.roots] at hsaved
  have hend : ∀ {outcome held file}, RootRegistry.stored.Leaves saved s.rootFile file →
      Ended rootId s.roots saved outcome held →
      Processed call s false (.registerRoot rootId productId rootKind path) outcome
        { refreshActiveJob s with
          roots := held, rootFile := file
          log := (refreshActiveJob s).log ++ [.registersRoot verified root] } := by
    intro outcome held file hfile hended
    rw [hsame.log]
    exact .registersRoot caller verified root saved held file hcaller helevated hverified hsid
      hsaved hfile hended
  refine Wp.bind (Wp.assign (Wp.bind (wp_save_part ?_ ?_ ?_)))
  · intro file hfile
    exact Wp.bind (Wp.assign (Wp.pure (hend (hsame.rootFile ▸ hfile) (.inl ⟨rfl, rfl⟩))))
  · intro e file hfile
    exact hend (hsame.rootFile ▸ hfile) (.inr ⟨rfl, hsame.roots⟩)
  · intro file hfile
    exact hend (hsame.rootFile ▸ hfile) (.inr ⟨rfl, hsame.roots⟩)

theorem answers_unregisterRoot {rootId : String} (hcaller : call.caller = .ok caller)
    (helevated : caller.elevatedAdministrator = true) :
    Answers call s false (.unregisterRoot rootId) (unregisterRoot caller rootId rootId)
      (refreshActiveJob s) := by
  have hsame := sameBut_refresh s
  unfold unregisterRoot
  refine Wp.bind (Wp.lift ?_ fun e _ => .refused)
  rintro ⟨⟩ -
  refine Wp.bind (Wp.look (Wp.bind (Wp.lift ?_ fun e _ => .refused)))
  rintro ⟨root, saved⟩ hsaved
  rw [hsame.roots] at hsaved
  refine Wp.bind (wp_save_part ?_ ?_ ?_)
  · intro file hfile
    exact Wp.bind (Wp.assign (Wp.pure (.unregistersRoot caller root saved _ file hcaller helevated
      hsaved (hsame.rootFile ▸ hfile) (.inl ⟨rfl, rfl⟩))))
  · intro e file hfile
    exact .unregistersRoot caller root saved _ file hcaller helevated hsaved
      (hsame.rootFile ▸ hfile) (.inr ⟨rfl, hsame.roots⟩)
  · intro file hfile
    exact .unregistersRoot caller root saved _ file hcaller helevated hsaved
      (hsame.rootFile ▸ hfile) (.inr ⟨rfl, hsame.roots⟩)

theorem answers_registerRegistryScope {scopeId productId subkey : String} {view : RegistryView}
    {allowedValues : List AllowedRegistryValue} (hcaller : call.caller = .ok caller)
    (helevated : caller.elevatedAdministrator = true) :
    Answers call s false (.registerRegistryScope scopeId productId view subkey allowedValues)
      (registerRegistryScope call caller.sid scopeId productId view subkey allowedValues)
      (refreshActiveJob s) := by
  have hsame := sameBut_refresh s
  unfold registerRegistryScope
  refine Wp.bind (Wp.lift ?_ fun e _ => .refused)
  rintro ⟨verified, scope⟩ hverified
  refine Wp.bind (Wp.lift ?_ fun e _ => .refused)
  rintro ⟨⟩ hsid
  have hsid : verified.sid = caller.sid := by simpa using rejectIf_eq_ok.mp hsid
  refine Wp.bind (Wp.look (Wp.bind (Wp.lift ?_ fun e _ => .refused)))
  intro saved hsaved
  rw [hsame.registryScopes] at hsaved
  have hend : ∀ {outcome held file},
      RegistryScopeRegistry.stored.Leaves saved s.registryScopeFile file →
      Ended scopeId s.registryScopes saved outcome held →
      Processed call s false (.registerRegistryScope scopeId productId view subkey allowedValues)
        outcome
        { refreshActiveJob s with
          registryScopes := held, registryScopeFile := file
          log := (refreshActiveJob s).log ++ [.registersScope verified scope] } := by
    intro outcome held file hfile hended
    rw [hsame.log]
    exact .registersScope caller verified scope saved held file hcaller helevated hverified hsid
      hsaved hfile hended
  refine Wp.bind (Wp.assign (Wp.bind (wp_save_part ?_ ?_ ?_)))
  · intro file hfile
    exact Wp.bind (Wp.assign (Wp.pure (hend (hsame.registryScopeFile ▸ hfile) (.inl ⟨rfl, rfl⟩))))
  · intro e file hfile
    exact hend (hsame.registryScopeFile ▸ hfile) (.inr ⟨rfl, hsame.registryScopes⟩)
  · intro file hfile
    exact hend (hsame.registryScopeFile ▸ hfile) (.inr ⟨rfl, hsame.registryScopes⟩)

theorem answers_unregisterRegistryScope {scopeId : String} (hcaller : call.caller = .ok caller)
    (helevated : caller.elevatedAdministrator = true) :
    Answers call s false (.unregisterRegistryScope scopeId)
      (unregisterRegistryScope caller scopeId scopeId) (refreshActiveJob s) := by
  have hsame := sameBut_refresh s
  unfold unregisterRegistryScope
  refine Wp.bind (Wp.lift ?_ fun e _ => .refused)
  rintro ⟨⟩ -
  refine Wp.bind (Wp.look (Wp.bind (Wp.lift ?_ fun e _ => .refused)))
  rintro ⟨scope, saved⟩ hsaved
  rw [hsame.registryScopes] at hsaved
  refine Wp.bind (wp_save_part ?_ ?_ ?_)
  · intro file hfile
    exact Wp.bind (Wp.assign (Wp.pure (.unregistersScope caller scope saved _ file hcaller helevated
      hsaved (hsame.registryScopeFile ▸ hfile) (.inl ⟨rfl, rfl⟩))))
  · intro e file hfile
    exact .unregistersScope caller scope saved _ file hcaller helevated hsaved
      (hsame.registryScopeFile ▸ hfile) (.inr ⟨rfl, hsame.registryScopes⟩)
  · intro file hfile
    exact .unregistersScope caller scope saved _ file hcaller helevated hsaved
      (hsame.registryScopeFile ▸ hfile) (.inr ⟨rfl, hsame.registryScopes⟩)

theorem answers_applyRegistrySet {scopeId manifestPath : String} {scope : RegisteredRegistryScope}
    (hcaller : call.caller = .ok caller)
    (howned : s.registryScopes.resolveOwned scopeId caller.sid = .ok scope) :
    Answers call s false (.applyRegistrySet scopeId manifestPath) (applyRegistrySet call caller scope)
      (refreshActiveJob s) := by
  have hsame := (sameBut_refresh s).drop
  unfold applyRegistrySet
  refine Wp.bind (Wp.assign (Wp.bind (Wp.look (Wp.bind
    (Wp.lift ?_ fun e _ => .refusedAfterDrop)))))
  rintro ⟨⟩ hfree
  have hfree := rejectIf_eq_ok.mp hfree
  simp only [Bool.or_eq_false_iff, Option.isSome_eq_false_iff, Option.isNone_iff_eq_none] at hfree
  refine Wp.bind (Wp.lift ?_ fun e _ => .refusedAfterDrop)
  rintro ⟨manifestCaller, manifestBytes⟩ -
  refine Wp.bind (Wp.lift ?_ fun e _ => .refusedAfterDrop)
  rintro ⟨⟩ -
  refine Wp.bind (Wp.lift ?_ fun e _ => .refusedAfterDrop)
  intro keyringBytes _
  refine Wp.bind (Wp.lift ?_ fun e _ => .refusedAfterDrop)
  intro keyring hkeyring
  refine Wp.bind (Wp.look (Wp.bind (Wp.lift ?_ fun e _ => .refusedAfterDrop)))
  intro previous hprevious
  rw [hsame.registry] at hprevious
  refine Wp.bind (Wp.lift ?_ fun e _ => .refusedAfterDrop)
  intro manifest hmanifest
  have hverified : VerifiedForScope scope previous manifest :=
    ⟨keyringBytes, keyring, manifestBytes, hkeyring, hmanifest⟩
  -- the events of the log and the end of the transaction
  have hend : ∀ {outcome registry}, Passive outcome →
      (outcome.isOk = true → registry.transaction = ⟨none, none, none⟩ ∧
        s.registry.Applied scope manifest registry) →
      (outcome.isOk = false → s.registry.Applying scope manifest registry Anything) →
      Processed call s false (.applyRegistrySet scopeId manifestPath) outcome
        { dropCompleted (refreshActiveJob s) with
          registry
          log := (dropCompleted (refreshActiveJob s)).log ++ [.applies caller scope manifest] } := by
    intro outcome registry hpassive hok herr
    rw [hsame.log]
    exact .applies caller scope manifest previous registry hcaller howned hfree.1 hfree.2 hprevious
      hverified hpassive hok herr
  refine Wp.bind (Wp.assign (Wp.bind (Wp.part ?_)))
  refine (wp_applyRegistrySetTransaction (A := Anything)).mono ?_ ?_ ?_
  · rintro applied t ⟨hnone, happlied⟩
    exact Wp.pure (hend trivial (fun _ => ⟨hnone, hsame.registry ▸ happlied⟩) nofun)
  · rintro e t ⟨happlying, -⟩
    exact hend trivial nofun (fun _ => hsame.registry ▸ happlying)
  · intro t happlying
    exact hend trivial nofun (fun _ => hsame.registry ▸ happlying)

theorem wp_prepareRequest {rootId manifestPath stagingPath : String} {root : RegisteredRoot}
    (hcaller : call.caller = .ok caller)
    (haccessible : s.roots.resolveAccessible rootId caller.sid = .ok root) :
    Wp Anything (prepareRequest call caller root stagingPath)
      (fun work t => Processed call s false (.prepareFileSet rootId manifestPath stagingPath)
        (.ok (.prepare work)) t)
      (fun e t => Processed call s false (.prepareFileSet rootId manifestPath stagingPath) (.error e) t)
      (fun t => Processed call s false (.prepareFileSet rootId manifestPath stagingPath) .crashed t)
      (refreshActiveJob s) := by
  have hsame := (sameBut_refresh s).drop
  unfold prepareRequest
  refine Wp.bind (Wp.assign (Wp.bind (Wp.look (Wp.bind
    (Wp.lift ?_ fun e _ => .refusedAfterDrop)))))
  rintro ⟨⟩ hfree
  have hfree := rejectIf_eq_ok.mp hfree
  simp only [Option.isSome_eq_false_iff, Option.isNone_iff_eq_none] at hfree
  refine Wp.bind (Wp.lift ?_ fun e _ => .refusedAfterDrop)
  rintro ⟨manifestCaller, manifestBytes⟩ -
  refine Wp.bind (Wp.lift ?_ fun e _ => .refusedAfterDrop)
  rintro ⟨⟩ -
  refine Wp.bind (Wp.lift ?_ fun e _ => .refusedAfterDrop)
  intro keyringBytes _
  refine Wp.bind (Wp.lift ?_ fun e _ => .refusedAfterDrop)
  intro keyring hkeyring
  refine Wp.bind (Wp.look (Wp.bind (Wp.lift ?_ fun e _ => .refusedAfterDrop)))
  intro previous hprevious
  rw [hsame.generations] at hprevious
  refine Wp.bind (Wp.lift ?_ fun e _ => .refusedAfterDrop)
  intro manifest hmanifest
  exact Wp.pure (.preparing caller root manifest previous hcaller haccessible hfree hprevious
    ⟨keyringBytes, keyring, manifestBytes, hkeyring, hmanifest⟩)

theorem ServiceState.withJob_withJob {u : ServiceState} {active : ActiveJob}
    {placeholder : Option ActiveJob} (h : u.activeJob = some active) :
    (u.withJob placeholder).withJob (some active) = u := by
  cases u
  cases h
  rfl

theorem answers_commitJob {jobId : String} (hcaller : call.caller = .ok caller)
    (howned : (refreshActiveJob s).activeJob.map (fun job => (job.jobId, job.ownerSid))
      = some (jobId, caller.sid)) :
    Answers call s false (.commitJob jobId) (commitJob call caller jobId jobId) (refreshActiveJob s) := by
  obtain ⟨active, hactive, hjob⟩ := Option.map_eq_some_iff.mp howned
  simp only [Prod.mk.injEq] at hjob
  unfold commitJob
  refine Wp.bind (Wp.lift ?_ fun e _ => .refused)
  rintro ⟨⟩ hstop
  have hstop : call.stopRequested = false := by simpa using rejectIf_eq_ok.mp hstop
  refine Wp.bind (Wp.look ?_)
  rw [hactive]
  refine Wp.bind (Wp.assign ?_)
  -- whatever the state was, it is put back when no worker takes the job over
  have hback : ∀ {placeholder e}, Processed call s false (.commitJob jobId) (.error e)
      (((refreshActiveJob s).withJob placeholder).withJob (some active)) := by
    intro placeholder e
    rw [ServiceState.withJob_withJob hactive]
    exact .refused
  cases hstate : active.state with
  | prepared prepared =>
    cases hstarted : call.workerStarted with
    | true =>
      refine Wp.bind (Wp.look (Wp.bind (Wp.assign (Wp.bind (Wp.assign (Wp.pure ?_))))))
      have h := Processed.committing (s := s) caller active prepared hcaller hactive hstate hjob.1
        hjob.2 hstop
      rwa [← (sameBut_refresh s).commits] at h
    | false =>
      refine Wp.bind (Wp.assign (Wp.throw ?_))
      rw [← hstate]
      exact hback
  | committing worker =>
    refine Wp.bind (Wp.assign (Wp.throw ?_))
    rw [← hstate]
    exact hback
  | completed job =>
    refine Wp.bind (Wp.assign (Wp.throw ?_))
    rw [← hstate]
    exact hback

theorem refresh_refresh : refreshActiveJob (refreshActiveJob s) = refreshActiveJob s := by
  cases hactive : s.activeJob with
  | none => simp [refreshActiveJob, hactive]
  | some active =>
    cases hstate : active.state with
    | prepared prepared => simp [refreshActiveJob, hactive, hstate]
    | completed job => simp [refreshActiveJob, hactive, hstate]
    | committing worker =>
      cases hcompleted : completedJob (s.channel worker) with
      | none => simp [refreshActiveJob, hactive, hstate, hcompleted]
      | some job => simp [refreshActiveJob, hactive, hstate, hcompleted, ServiceState.withJob]

theorem answers_jobStatusResponse {jobId : String} :
    Answers call s preparing (.getJobStatus jobId) (jobStatusResponse jobId) (refreshActiveJob s) := by
  unfold jobStatusResponse
  refine Wp.bind (Wp.assign ?_)
  rw [refresh_refresh]
  refine Wp.bind (Wp.look ?_)
  cases (refreshActiveJob s).activeJob with
  | none => exact Wp.throw .refused
  | some active => exact Wp.pure (.kept trivial (.inr (.inl rfl)))

/-- The arms answer for the whole request. -/
theorem Answers.respond {p : ServiceProg Response} {u : ServiceState}
    (h : Answers call s preparing request p u) :
    Wp Anything (do pure (Dispatch.respond (← p)))
      (fun dispatch t => Processed call s preparing request (.ok dispatch) t)
      (fun e t => Processed call s preparing request (.error e) t)
      (fun t => Processed call s preparing request .crashed t) u :=
  Wp.bind (h.mono (fun _ _ ht => Wp.pure ht) (fun _ _ ht => ht) (fun _ ht => ht))

theorem wp_processRequest :
    Wp Anything (processRequest call request preparing)
      (fun dispatch t => Processed call s preparing request (.ok dispatch) t)
      (fun e t => Processed call s preparing request (.error e) t)
      (fun t => Processed call s preparing request .crashed t) s := by
  unfold processRequest
  refine Wp.bind (Wp.lift ?_ fun e _ => .kept trivial (.inl rfl))
  rintro ⟨⟩ hbusy
  have hbusy := rejectIf_eq_ok.mp hbusy
  refine Wp.bind (Wp.assign (Wp.bind (Wp.lift ?_ fun e _ => .refused)))
  intro caller hcaller
  refine Wp.bind (Wp.look (Wp.bind (Wp.lift ?_ fun e _ => .refused)))
  intro authorization hauthorized
  have hauthorized := authorizeRequest_sound hauthorized
  have hsame := sameBut_refresh s
  simp only [id, hsame.roots, hsame.registryScopes] at hauthorized
  cases request with
  | getStatus =>
    cases authorization <;> first | exact hauthorized.elim | skip
    exact Wp.pure (.kept trivial (.inr (.inl rfl)))
  | getRootStatus rootId =>
    cases authorization <;> first | exact hauthorized.elim | skip
    exact Wp.pure (.kept trivial (.inr (.inl rfl)))
  | getRegistryScopeStatus scopeId =>
    cases authorization <;> first | exact hauthorized.elim | skip
    exact Wp.pure (.kept trivial (.inr (.inl rfl)))
  | registerRoot rootId productId rootKind path =>
    obtain rfl : preparing = false := by simpa [requestKind] using hbusy
    cases authorization <;> first | exact hauthorized.elim | skip
    obtain ⟨helevated, rfl⟩ := hauthorized
    exact (answers_registerRoot hcaller helevated).respond
  | unregisterRoot rootId =>
    obtain rfl : preparing = false := by simpa [requestKind] using hbusy
    cases authorization <;> first | exact hauthorized.elim | skip
    obtain ⟨helevated, rfl⟩ := hauthorized
    exact (answers_unregisterRoot hcaller helevated).respond
  | registerRegistryScope scopeId productId view subkey allowedValues =>
    obtain rfl : preparing = false := by simpa [requestKind] using hbusy
    cases authorization <;> first | exact hauthorized.elim | skip
    obtain ⟨helevated, rfl⟩ := hauthorized
    exact (answers_registerRegistryScope hcaller helevated).respond
  | unregisterRegistryScope scopeId =>
    obtain rfl : preparing = false := by simpa [requestKind] using hbusy
    cases authorization <;> first | exact hauthorized.elim | skip
    obtain ⟨helevated, rfl⟩ := hauthorized
    exact (answers_unregisterRegistryScope hcaller helevated).respond
  | applyRegistrySet scopeId manifestPath =>
    obtain rfl : preparing = false := by simpa [requestKind] using hbusy
    cases authorization <;> first | exact hauthorized.elim | skip
    exact (answers_applyRegistrySet hcaller hauthorized).respond
  | prepareFileSet rootId manifestPath stagingPath =>
    obtain rfl : preparing = false := by simpa [requestKind] using hbusy
    cases authorization <;> first | exact hauthorized.elim | skip
    exact Wp.bind ((wp_prepareRequest hcaller hauthorized).mono (fun _ _ ht => Wp.pure ht)
      (fun _ _ ht => ht) (fun _ ht => ht))
  | commitJob jobId =>
    obtain rfl : preparing = false := by simpa [requestKind] using hbusy
    cases authorization <;> first | exact hauthorized.elim | skip
    obtain ⟨howned, rfl⟩ := hauthorized
    exact (answers_commitJob hcaller howned).respond
  | getJobStatus jobId =>
    cases authorization <;> first | exact hauthorized.elim | skip
    obtain ⟨-, rfl⟩ := hauthorized
    simp only [if_true]
    exact answers_jobStatusResponse.respond

end Arms

/-! ### Every end of a preparation -/

/-- The ends of `finish_prepare`. The accepted generation stays in memory when it cannot be
saved. -/
inductive Finished (outcome : PreparedOutcome) (s : ServiceState) :
    Outcome MaintenanceError Response → ServiceState → Prop where
  | refused {e : MaintenanceError} :
      s.generations.accept outcome.root.rootId outcome.manifest.record = .error e →
      Finished outcome s (.error e) s
  | unsaved {result : Outcome MaintenanceError Response} (generations : GenerationRegistry)
      (file : ServiceFile) :
      s.generations.accept outcome.root.rootId outcome.manifest.record = .ok generations →
      result.isOk = false →
      (file = s.generationFile ∨
        ∃ bytes, generations.encode = .ok bytes ∧ s.generationFile.Replaced bytes file) →
      Finished outcome s result { s with generations, generationFile := file }
  | prepared (generations : GenerationRegistry) (bytes : Bytes) :
      s.generations.accept outcome.root.rootId outcome.manifest.record = .ok generations →
      generations.encode = .ok bytes →
      Finished outcome s (.ok (.prepared outcome.prepared.header.jobId))
        { s with
          generations
          generationFile := ⟨some bytes, none, none⟩
          activeJob := some {
            jobId := outcome.prepared.header.jobId
            ownerSid := outcome.ownerSid
            serial := outcome.serial
            state := .prepared outcome.prepared }
          log := s.log ++ [.prepared outcome.serial outcome.ownerSid outcome.root outcome.manifest
            outcome.prepared] }

theorem wp_finishPrepare {outcome : PreparedOutcome} {s : ServiceState} :
    Wp Anything (finishPrepare outcome)
      (fun response t => Finished outcome s (.ok response) t)
      (fun e t => Finished outcome s (.error e) t) (fun t => Finished outcome s .crashed t) s := by
  unfold finishPrepare
  refine Wp.bind (Wp.look (Wp.bind (Wp.lift ?_ fun e he => .refused he)))
  intro generations hgenerations
  refine Wp.bind (Wp.assign (Wp.bind (Wp.part ?_)))
  refine (generations.wp_save s.generationFile).mono ?_ ?_ ?_
  · rintro _ file ⟨bytes, hbytes, rfl⟩
    exact Wp.bind (Wp.assign (Wp.bind (Wp.assign (Wp.pure (.prepared _ _ hgenerations hbytes)))))
  · rintro e file (⟨rfl, -⟩ | ⟨-, hreplaced⟩)
    · exact .unsaved generations _ hgenerations rfl (.inl rfl)
    · exact .unsaved generations file hgenerations rfl (.inr hreplaced)
  · intro file hreplaced
    exact .unsaved generations file hgenerations rfl (.inr hreplaced)

end Effects

end Se7en.Windows
