import Se7enService.DaemonSteps
import Se7enService.FileSetAtomicity
set_option autoImplicit false

/-! Who has prepared, committed and applied what, over whole runs of the service. -/

namespace Se7en.Windows
open Faulty

section Authorization

variable [Externals]

/-! ### What a caller is entitled to -/

/-- An elevated administrator with the SID of the owner has registered the root. -/
def RootRegistered (log : List Happened) (root : RegisteredRoot) : Prop :=
  ∃ caller, .registersRoot caller root ∈ log ∧ caller.elevatedAdministrator = true ∧
    caller.sid = root.ownerSid

def ScopeRegistered (log : List Happened) (scope : RegisteredRegistryScope) : Prop :=
  ∃ caller, .registersScope caller scope ∈ log ∧ caller.elevatedAdministrator = true ∧
    caller.sid = scope.ownerSid

/-- The file set may be prepared for the root by a caller with this SID. -/
structure Entitled (log : List Happened) (root : RegisteredRoot) (manifest : VerifiedFileSet)
    (sid : String) : Prop where
  registered : RootRegistered log root
  verified : ∃ previous, VerifiedForRoot root previous manifest
  owner : root.rootKind ≠ .library → sid = root.ownerSid

structure EntitledApply (log : List Happened) (caller : CallerIdentity)
    (scope : RegisteredRegistryScope) (manifest : VerifiedRegistrySet) : Prop where
  registered : ScopeRegistered log scope
  verified : ∃ previous, VerifiedForScope scope previous manifest
  owner : caller.sid = scope.ownerSid

/-- What happened was allowed. -/
structure Lawful (policy : Policy) (log : List Happened) : Prop where
  prepared : ∀ serial sid root manifest job, .prepared serial sid root manifest job ∈ log →
    Entitled log root manifest sid ∧ PreparedFor root manifest policy job
  applies : ∀ caller scope manifest, .applies caller scope manifest ∈ log →
    EntitledApply log caller scope manifest

/-- What the service holds, in memory and in its files, has been registered and prepared. -/
structure Held (log : List Happened) (s : ServiceState) : Prop where
  roots : ∀ root ∈ s.roots.roots.items, RootRegistered log root
  rootFile : s.rootFile.Holding fun bytes =>
    ∃ registry, RootRegistry.stored.encode registry = .ok bytes ∧
      ∀ root ∈ registry.roots.items, RootRegistered log root
  scopes : ∀ scope ∈ s.registryScopes.scopes.items, ScopeRegistered log scope
  scopeFile : s.registryScopeFile.Holding fun bytes =>
    ∃ registry, RegistryScopeRegistry.stored.encode registry = .ok bytes ∧
      ∀ scope ∈ registry.scopes.items, ScopeRegistered log scope
  activeJob : ∀ active job, s.activeJob = some active → active.state = .prepared job →
    ∃ root manifest, .prepared active.serial active.ownerSid root manifest job ∈ log
  commits : ∀ commit ∈ s.commits, commit.committedBy = commit.preparedBy ∧
    ∃ root manifest, .prepared commit.serial commit.preparedBy root manifest commit.job ∈ log

def HeldInFlight (policy : Policy) (log : List Happened) (preparing : Option PrepareInFlight) :
    Prop :=
  ∀ inFlight, preparing = some inFlight →
    Entitled log inFlight.work.root inFlight.work.manifest inFlight.work.ownerSid ∧
      ∀ outcome, inFlight.receiver = .sent (.ok outcome) →
        outcome.Of inFlight.work inFlight.serial policy

structure Daemon.Accounted (policy : Policy) (d : Daemon) : Prop where
  lawful : Lawful policy d.service.log
  held : Held d.service.log d.service
  inFlight : HeldInFlight policy d.service.log d.preparing

/-! ### The log grows -/

variable {policy : Policy} {log log' : List Happened}

theorem RootRegistered.mono {root : RegisteredRoot} (h : RootRegistered log root)
    (hlog : log ⊆ log') : RootRegistered log' root :=
  h.imp fun _ hc => ⟨hlog hc.1, hc.2⟩

theorem ScopeRegistered.mono {scope : RegisteredRegistryScope} (h : ScopeRegistered log scope)
    (hlog : log ⊆ log') : ScopeRegistered log' scope :=
  h.imp fun _ hc => ⟨hlog hc.1, hc.2⟩

theorem Entitled.mono {root : RegisteredRoot} {manifest : VerifiedFileSet} {sid : String}
    (h : Entitled log root manifest sid) (hlog : log ⊆ log') : Entitled log' root manifest sid :=
  ⟨h.registered.mono hlog, h.verified, h.owner⟩

theorem EntitledApply.mono {caller : CallerIdentity} {scope : RegisteredRegistryScope}
    {manifest : VerifiedRegistrySet} (h : EntitledApply log caller scope manifest)
    (hlog : log ⊆ log') : EntitledApply log' caller scope manifest :=
  ⟨h.registered.mono hlog, h.verified, h.owner⟩

theorem Held.mono {s : ServiceState} (h : Held log s) (hlog : log ⊆ log') : Held log' s where
  roots root hroot := (h.roots root hroot).mono hlog
  rootFile bytes hbytes := by
    obtain ⟨registry, hencode, hroots⟩ := h.rootFile bytes hbytes
    exact ⟨registry, hencode, fun root hroot => (hroots root hroot).mono hlog⟩
  scopes scope hscope := (h.scopes scope hscope).mono hlog
  scopeFile bytes hbytes := by
    obtain ⟨registry, hencode, hscopes⟩ := h.scopeFile bytes hbytes
    exact ⟨registry, hencode, fun scope hscope => (hscopes scope hscope).mono hlog⟩
  activeJob active job hactive hstate := by
    obtain ⟨root, manifest, hprepared⟩ := h.activeJob active job hactive hstate
    exact ⟨root, manifest, hlog hprepared⟩
  commits commit hcommit := by
    obtain ⟨hsame, root, manifest, hprepared⟩ := h.commits commit hcommit
    exact ⟨hsame, root, manifest, hlog hprepared⟩

theorem HeldInFlight.mono {preparing : Option PrepareInFlight}
    (h : HeldInFlight policy log preparing) (hlog : log ⊆ log') :
    HeldInFlight policy log' preparing :=
  fun inFlight hpreparing => ⟨(h inFlight hpreparing).1.mono hlog, (h inFlight hpreparing).2⟩

theorem HeldInFlight.none : HeldInFlight policy log none := by
  intro inFlight hpreparing
  cases hpreparing

/-- An event is allowed that prepares or applies only what its caller is entitled to. -/
theorem Lawful.append (h : Lawful policy log) {happened : Happened}
    (hprepared : ∀ serial sid root manifest job,
      happened = .prepared serial sid root manifest job →
        Entitled log root manifest sid ∧ PreparedFor root manifest policy job)
    (happlies : ∀ caller scope manifest, happened = .applies caller scope manifest →
      EntitledApply log caller scope manifest) :
    Lawful policy (log ++ [happened]) where
  prepared serial sid root manifest job hmem := by
    have hlog : log ⊆ log ++ [happened] := List.subset_append_left log [happened]
    rcases List.mem_append.mp hmem with hmem | hmem
    · obtain ⟨hentitled, hjob⟩ := h.prepared serial sid root manifest job hmem
      exact ⟨hentitled.mono hlog, hjob⟩
    · obtain ⟨hentitled, hjob⟩ :=
        hprepared serial sid root manifest job (List.mem_singleton.mp hmem).symm
      exact ⟨hentitled.mono hlog, hjob⟩
  applies caller scope manifest hmem := by
    have hlog : log ⊆ log ++ [happened] := List.subset_append_left log [happened]
    rcases List.mem_append.mp hmem with hmem | hmem
    · exact (h.applies caller scope manifest hmem).mono hlog
    · exact (happlies caller scope manifest (List.mem_singleton.mp hmem).symm).mono hlog

/-! ### Requests -/

theorem refresh_prepared {s : ServiceState} {active : ActiveJob} {job : PreparedJob}
    (hactive : (refreshActiveJob s).activeJob = some active) (hstate : active.state = .prepared job) :
    s.activeJob = some active := by
  unfold refreshActiveJob at hactive
  split at hactive
  · exact hactive
  · split at hactive
    · exact hactive
    · exact hactive
    · split at hactive
      · exact hactive
      · cases hactive
        cases hstate

theorem drop_prepared {s : ServiceState} {active : ActiveJob}
    (hactive : (dropCompleted s).activeJob = some active) : s.activeJob = some active := by
  unfold dropCompleted at hactive
  split at hactive
  · cases hactive
  · exact hactive

theorem Held.same {s t : ServiceState} (h : Held log s) (hsame : SameBut s t)
    (hactive : ∀ active job, t.activeJob = some active → active.state = .prepared job →
      s.activeJob = some active) : Held log t where
  roots := hsame.roots ▸ h.roots
  rootFile := hsame.rootFile ▸ h.rootFile
  scopes := hsame.registryScopes ▸ h.scopes
  scopeFile := hsame.registryScopeFile ▸ h.scopeFile
  activeJob active job hsome hstate := h.activeJob active job (hactive active job hsome hstate) hstate
  commits := hsame.commits ▸ h.commits

theorem Held.refresh {s : ServiceState} (h : Held log s) : Held log (refreshActiveJob s) :=
  h.same (sameBut_refresh s) fun _ _ => refresh_prepared

theorem Held.drop {s : ServiceState} (h : Held log s) : Held log (dropCompleted (refreshActiveJob s)) :=
  h.same (sameBut_refresh s).drop fun _ _ hactive => refresh_prepared (drop_prepared hactive)

omit [Externals] in
/-- A registered root belongs to the caller who was seen to register it. -/
theorem registeredRootAsCaller_sound {call : Call} {rootId productId : String} {rootKind : RootKind}
    {verified : CallerIdentity} {root : RegisteredRoot}
    (h : registeredRootAsCaller call rootId productId rootKind = .ok (verified, root)) :
    verified.elevatedAdministrator = true ∧ verified.sid = root.ownerSid := by
  unfold registeredRootAsCaller at h
  obtain ⟨identity, -, h⟩ := Result.bind_eq_ok.mp h
  obtain ⟨⟨⟩, helevated, h⟩ := Result.bind_eq_ok.mp h
  obtain ⟨⟨canonical, directory⟩, -, h⟩ := Result.bind_eq_ok.mp h
  obtain ⟨root', hroot, h⟩ := Result.bind_eq_ok.mp h
  cases h
  refine ⟨by simpa using rejectIf_eq_ok.mp helevated, ?_⟩
  unfold RegisteredRoot.fromCanonicalIdentity at hroot
  obtain ⟨⟨⟩, -, hroot⟩ := Result.bind_eq_ok.mp hroot
  cases hroot
  rfl

theorem registeredRegistryScopeAsCaller_sound {call : Call} {scopeId productId subkey : String}
    {view : RegistryView} {allowedValues : List AllowedRegistryValue} {verified : CallerIdentity}
    {scope : RegisteredRegistryScope}
    (h : registeredRegistryScopeAsCaller call scopeId productId view subkey allowedValues
      = .ok (verified, scope)) :
    verified.elevatedAdministrator = true ∧ verified.sid = scope.ownerSid := by
  unfold registeredRegistryScopeAsCaller at h
  obtain ⟨identity, -, h⟩ := Result.bind_eq_ok.mp h
  obtain ⟨⟨⟩, helevated, h⟩ := Result.bind_eq_ok.mp h
  obtain ⟨scope', hscope, h⟩ := Result.bind_eq_ok.mp h
  obtain ⟨⟨⟩, -, h⟩ := Result.bind_eq_ok.mp h
  cases h
  refine ⟨by simpa using rejectIf_eq_ok.mp helevated, ?_⟩
  unfold RegisteredRegistryScope.new at hscope
  obtain ⟨⟨⟩, -, hscope⟩ := Result.bind_eq_ok.mp hscope
  cases hscope
  rfl

theorem Held.withLog {s : ServiceState} (h : Held log s) (log' : List Happened) :
    Held log { s with log := log' } :=
  ⟨h.roots, h.rootFile, h.scopes, h.scopeFile, h.activeJob, h.commits⟩

theorem Held.withRoots {s : ServiceState} (h : Held log s) {id : String} {saved held : RootRegistry}
    {outcome : Outcome MaintenanceError Dispatch} {file : ServiceFile}
    (hsaved : ∀ root ∈ saved.roots.items, RootRegistered log root)
    (hended : Ended id s.roots saved outcome held)
    (hfile : RootRegistry.stored.Leaves saved s.rootFile file) :
    Held log { s with roots := held, rootFile := file } where
  roots := by
    rcases hended with ⟨-, rfl⟩ | ⟨-, rfl⟩
    · exact hsaved
    · exact h.roots
  rootFile := hfile.holding (fun bytes hencode => ⟨saved, hencode, hsaved⟩) h.rootFile
  scopes := h.scopes
  scopeFile := h.scopeFile
  activeJob := h.activeJob
  commits := h.commits

theorem Held.withScopes {s : ServiceState} (h : Held log s) {id : String}
    {saved held : RegistryScopeRegistry} {outcome : Outcome MaintenanceError Dispatch}
    {file : ServiceFile} (hsaved : ∀ scope ∈ saved.scopes.items, ScopeRegistered log scope)
    (hended : Ended id s.registryScopes saved outcome held)
    (hfile : RegistryScopeRegistry.stored.Leaves saved s.registryScopeFile file) :
    Held log { s with registryScopes := held, registryScopeFile := file } where
  roots := h.roots
  rootFile := h.rootFile
  scopes := by
    rcases hended with ⟨-, rfl⟩ | ⟨-, rfl⟩
    · exact hsaved
    · exact h.scopes
  scopeFile := hfile.holding (fun bytes hencode => ⟨saved, hencode, hsaved⟩) h.scopeFile
  activeJob := h.activeJob
  commits := h.commits

/-- Nothing is handed to the prepare worker where a registry is changed. -/
theorem Ended.not_prepare {R : Type} {id : String} {before saved held : R}
    {outcome : Outcome MaintenanceError Dispatch} (h : Ended id before saved outcome held)
    {work : PrepareWork} : outcome ≠ .ok (.prepare work) := by
  rintro rfl
  rcases h with ⟨hok, -⟩ | ⟨hok, -⟩ <;> cases hok

/-- A request leaves the service accounted for, and adds to the log what was allowed. -/
theorem Processed.accounted {call : Call} {s t : ServiceState} {preparing : Bool}
    {request : Request} {outcome : Outcome MaintenanceError Dispatch}
    (h : Processed call s preparing request outcome t) (hlawful : Lawful policy s.log)
    (hheld : Held s.log s) :
    s.log ⊆ t.log ∧ Lawful policy t.log ∧ Held t.log t ∧
      ∀ work, outcome = .ok (.prepare work) →
        Entitled t.log work.root work.manifest work.ownerSid := by
  have hsame := sameBut_refresh s
  have hrefresh := hheld.refresh
  cases h with
  | kept hpassive ht =>
    have hkept : t.log = s.log ∧ Held s.log t := by
      rcases ht with rfl | rfl | rfl
      · exact ⟨rfl, hheld⟩
      · exact ⟨hsame.log, hrefresh⟩
      · exact ⟨hsame.drop.log, hheld.drop⟩
    rw [hkept.1]
    refine ⟨List.Subset.refl _, hlawful, hkept.2, ?_⟩
    rintro work rfl
    exact hpassive.elim
  | registersRoot caller verified root saved held file _ _ hverified _ hsaved hfile hended =>
    have hlog := List.subset_append_left s.log [.registersRoot verified root]
    obtain ⟨helevated, hsid⟩ := registeredRootAsCaller_sound hverified
    have hroots : ∀ r ∈ saved.roots.items,
        RootRegistered (s.log ++ [.registersRoot verified root]) r := by
      intro r hr
      rw [(RootRegistry.register_eq_ok hsaved).2, KeyedList.mem_insert] at hr
      rcases hr with rfl | ⟨hr, -⟩
      · exact ⟨verified, by simp, helevated, hsid⟩
      · exact (hheld.roots r hr).mono hlog
    rw [← hsame.roots] at hended
    rw [← hsame.rootFile] at hfile
    refine ⟨hlog, hlawful.append nofun nofun, ?_, fun work h => (hended.not_prepare h).elim⟩
    exact ((hrefresh.mono hlog).withRoots hroots hended hfile).withLog _
  | unregistersRoot caller root saved held file _ _ hsaved hfile hended =>
    have hroots : ∀ r ∈ saved.roots.items, RootRegistered s.log r := by
      intro r hr
      rw [(RootRegistry.unregister_eq_ok hsaved).2] at hr
      exact hheld.roots r (List.mem_of_mem_filter hr)
    rw [← hsame.roots] at hended
    rw [← hsame.rootFile] at hfile
    simp only [hsame.log]
    refine ⟨List.Subset.refl _, hlawful, ?_, fun work h => (hended.not_prepare h).elim⟩
    exact (hrefresh.withRoots hroots hended hfile).withLog _
  | registersScope caller verified scope saved held file _ _ hverified _ hsaved hfile hended =>
    have hlog := List.subset_append_left s.log [.registersScope verified scope]
    obtain ⟨helevated, hsid⟩ := registeredRegistryScopeAsCaller_sound hverified
    have hscopes : ∀ r ∈ saved.scopes.items,
        ScopeRegistered (s.log ++ [.registersScope verified scope]) r := by
      intro r hr
      rcases RegistryScopeRegistry.register_eq_ok hsaved with rfl | ⟨-, hinsert⟩
      · exact (hheld.scopes r hr).mono hlog
      · rw [hinsert, KeyedList.mem_insert] at hr
        rcases hr with rfl | ⟨hr, -⟩
        · exact ⟨verified, by simp, helevated, hsid⟩
        · exact (hheld.scopes r hr).mono hlog
    rw [← hsame.registryScopes] at hended
    rw [← hsame.registryScopeFile] at hfile
    refine ⟨hlog, hlawful.append nofun nofun, ?_, fun work h => (hended.not_prepare h).elim⟩
    exact ((hrefresh.mono hlog).withScopes hscopes hended hfile).withLog _
  | unregistersScope caller scope saved held file _ _ hsaved hfile hended =>
    have hscopes : ∀ r ∈ saved.scopes.items, ScopeRegistered s.log r := by
      intro r hr
      rw [(RegistryScopeRegistry.unregister_eq_ok hsaved).2] at hr
      exact hheld.scopes r (List.mem_of_mem_filter hr)
    rw [← hsame.registryScopes] at hended
    rw [← hsame.registryScopeFile] at hfile
    simp only [hsame.log]
    refine ⟨List.Subset.refl _, hlawful, ?_, fun work h => (hended.not_prepare h).elim⟩
    exact (hrefresh.withScopes hscopes hended hfile).withLog _
  | applies caller scope manifest previous registry _ howned _ _ _ hverified hpassive _ _ =>
    have hlog := List.subset_append_left s.log [.applies caller scope manifest]
    obtain ⟨hget, hsid⟩ := RegistryScopeRegistry.resolveOwned_eq_ok howned
    have hentitled : EntitledApply s.log caller scope manifest :=
      ⟨hheld.scopes scope (KeyedList.get?_eq_some.mp hget).1, ⟨previous, hverified⟩, hsid⟩
    have hdrop := hheld.drop.mono hlog
    refine ⟨hlog, hlawful.append nofun ?_,
      ⟨hdrop.roots, hdrop.rootFile, hdrop.scopes, hdrop.scopeFile, hdrop.activeJob, hdrop.commits⟩, ?_⟩
    · rintro _ _ _ ⟨⟩
      exact hentitled
    · rintro work rfl
      exact hpassive.elim
  | preparing caller root manifest previous _ haccessible _ _ hverified =>
    obtain ⟨hget, howner⟩ := RootRegistry.resolveAccessible_eq_ok haccessible
    rw [hsame.drop.log]
    refine ⟨List.Subset.refl _, hlawful, hheld.drop, ?_⟩
    rintro _ ⟨⟩
    exact ⟨hheld.roots root (KeyedList.get?_eq_some.mp hget).1, ⟨previous, hverified⟩, howner⟩
  | committing caller active prepared _ hactive hstate _ howner _ =>
    simp only [hsame.log]
    refine ⟨List.Subset.refl _, hlawful, ?_, nofun⟩
    exact {
      roots := hrefresh.roots
      rootFile := hrefresh.rootFile
      scopes := hrefresh.scopes
      scopeFile := hrefresh.scopeFile
      activeJob := by
        rintro _ job ⟨⟩ hprepared
        cases hprepared
      commits := by
        intro commit hcommit
        rcases List.mem_append.mp hcommit with hcommit | hcommit
        · exact hheld.commits commit hcommit
        · obtain rfl := List.mem_singleton.mp hcommit
          exact ⟨howner.symm, hrefresh.activeJob active prepared hactive hstate⟩ }

/-! ### The other steps -/

theorem Finished.accounted {outcome : PreparedOutcome} {s t : ServiceState}
    {result : Outcome MaintenanceError Response} (h : Finished outcome s result t)
    (hlawful : Lawful policy s.log) (hheld : Held s.log s)
    (hentitled : Entitled s.log outcome.root outcome.manifest outcome.ownerSid)
    (hjob : PreparedFor outcome.root outcome.manifest policy outcome.prepared) :
    s.log ⊆ t.log ∧ Lawful policy t.log ∧ Held t.log t := by
  cases h with
  | refused => exact ⟨List.Subset.refl _, hlawful, hheld⟩
  | unsaved =>
    exact ⟨List.Subset.refl _, hlawful, hheld.roots, hheld.rootFile, hheld.scopes, hheld.scopeFile,
      hheld.activeJob, hheld.commits⟩
  | prepared generations bytes =>
    have hlog := List.subset_append_left s.log [.prepared outcome.serial outcome.ownerSid
      outcome.root outcome.manifest outcome.prepared]
    have hgrown := hheld.mono hlog
    refine ⟨hlog, hlawful.append ?_ nofun, ?_⟩
    · rintro _ _ _ _ _ ⟨⟩
      exact ⟨hentitled, hjob⟩
    · exact {
        roots := hgrown.roots
        rootFile := hgrown.rootFile
        scopes := hgrown.scopes
        scopeFile := hgrown.scopeFile
        activeJob := by
          rintro _ _ ⟨⟩ ⟨⟩
          exact ⟨outcome.root, outcome.manifest, by simp⟩
        commits := hgrown.commits }

omit [Externals] in
theorem CommitWorker.abandon_eq (commit : CommitWorker) :
    ∃ channel, commit.abandon = { commit with channel } := by
  unfold abandon
  split
  · exact ⟨_, rfl⟩
  · exact ⟨_, rfl⟩

theorem Held.halt {s : ServiceState} (h : Held log s) :
    Held log { s with activeJob := none, commits := s.commits.map CommitWorker.abandon } where
  roots := h.roots
  rootFile := h.rootFile
  scopes := h.scopes
  scopeFile := h.scopeFile
  activeJob active job hactive := by cases hactive
  commits := by
    intro commit hcommit
    obtain ⟨old, hold, hold'⟩ := List.mem_map.mp hcommit
    obtain ⟨channel, hchannel⟩ := old.abandon_eq
    rw [hchannel] at hold'
    subst hold'
    exact h.commits old hold

theorem Daemon.Accounted.halt {d : Daemon} (h : d.Accounted policy) : d.halt.Accounted policy :=
  ⟨h.lawful, h.held.halt, .none⟩

section Loading

variable [LawfulDeserialize RootRegistryDocument] [LawfulDeserialize RegistryScopeRegistryDocument]

omit [LawfulDeserialize RegistryScopeRegistryDocument] in
theorem Held.loadRoots {s : ServiceState} {roots : RootRegistry} (h : Held log s)
    (hstart : RootRegistry.stored.start s.rootFile = .ok roots) :
    ∀ root ∈ roots.roots.items, RootRegistered log root := by
  rcases h.rootFile.start hstart with rfl | ⟨bytes, ⟨registry, hencode, hroots⟩, hdecode⟩
  · nofun
  · have hread := RootRegistry.stored_lawful.decode_encode registry bytes hencode
    obtain rfl := Except.ok.inj (hread.symm.trans hdecode)
    exact hroots

omit [LawfulDeserialize RootRegistryDocument] in
theorem Held.loadScopes {s : ServiceState} {scopes : RegistryScopeRegistry} (h : Held log s)
    (hstart : RegistryScopeRegistry.stored.start s.registryScopeFile = .ok scopes) :
    ∀ scope ∈ scopes.scopes.items, ScopeRegistered log scope := by
  rcases h.scopeFile.start hstart with rfl | ⟨bytes, ⟨registry, hencode, hscopes⟩, hdecode⟩
  · nofun
  · have hread := RegistryScopeRegistry.stored_lawful.decode_encode registry bytes hencode
    obtain rfl := Except.ok.inj (hread.symm.trans hdecode)
    exact hscopes

theorem Held.loaded {s t : ServiceState} (h : Held log s) (hload : Loaded s t) : Held log t where
  roots := by
    rcases hload.roots with hroots | hstart
    · rw [hroots]
      exact h.roots
    · exact h.loadRoots hstart
  rootFile := hload.rootFile ▸ h.rootFile
  scopes := by
    rcases hload.registryScopes with hscopes | hstart
    · rw [hscopes]
      exact h.scopes
    · exact h.loadScopes hstart
  scopeFile := hload.registryScopeFile ▸ h.scopeFile
  activeJob active job hactive hstate := by
    rcases hload.activeJob with hjob | hjob
    · exact h.activeJob active job (hjob ▸ hactive) hstate
    · cases hjob.symm.trans hactive
  commits := hload.commits ▸ h.commits

omit [LawfulDeserialize RootRegistryDocument] [LawfulDeserialize RegistryScopeRegistryDocument] in
theorem Replayed.held {jobs : List String} {s t : ServiceState}
    {outcome : Outcome MaintenanceError Unit} (h : Replayed jobs s outcome t) (hs : Held log s) :
    t.log = s.log ∧ Held log t := by
  cases h with
  | refused =>
    exact ⟨rfl, hs.roots, hs.rootFile, hs.scopes, hs.scopeFile, hs.activeJob, hs.commits⟩
  | unsaved =>
    exact ⟨rfl, hs.roots, hs.rootFile, hs.scopes, hs.scopeFile, hs.activeJob, hs.commits⟩
  | unchanged => exact ⟨rfl, hs⟩
  | saved =>
    exact ⟨rfl, hs.roots, hs.rootFile, hs.scopes, hs.scopeFile, hs.activeJob, hs.commits⟩

theorem Daemon.Stepped.accounted {d t : Daemon} {action : Action} (h : Stepped policy d action t)
    (hd : d.Accounted policy) : t.Accounted policy := by
  cases h with
  | idle => exact hd
  | request hrunning hprocessed =>
    rename_i call request spawned sch outcome s
    obtain ⟨hlog, hlawful, hheld, hwork⟩ := hprocessed.accounted hd.lawful hd.held
    have hserved : Daemon.Accounted policy { d with service := s } :=
      ⟨hlawful, hheld, hd.inFlight.mono hlog⟩
    cases outcome with
    | error e => exact hserved
    | crashed => exact hserved.halt
    | ok dispatch =>
      cases dispatch with
      | respond response => exact hserved
      | prepare work =>
        cases spawned with
        | false => exact hserved
        | true =>
          refine ⟨hlawful, hheld, ?_⟩
          rintro _ ⟨⟩
          refine ⟨hwork work rfl, ?_⟩
          intro prepared hreceiver
          cases hreceiver
  | released hrunning hpreparing => exact ⟨hd.lawful, hd.held, .none⟩
  | finished hrunning hpreparing hreceiver hfinished =>
    rename_i sch inFlight outcome result s
    obtain ⟨hentitled, hof⟩ := hd.inFlight inFlight hpreparing
    have hof := hof outcome hreceiver
    obtain ⟨hlog, hlawful, hheld⟩ := hfinished.accounted hd.lawful hd.held
      (by rw [hof.root, hof.manifest, hof.ownerSid]; exact hentitled)
      (by rw [hof.root, hof.manifest]; exact hof.job)
    have hserved : Daemon.Accounted policy { d with service := s } :=
      ⟨hlawful, hheld, hd.inFlight.mono hlog⟩
    cases result with
    | ok response => exact ⟨hlawful, hheld, .none⟩
    | error e => exact ⟨hlawful, hheld, .none⟩
    | crashed => exact hserved.halt
  | prepareEnded hpreparing hrun =>
    rename_i call sch rest work serial outcome disk
    refine ⟨hd.lawful, hd.held, ?_⟩
    rintro _ ⟨⟩
    refine ⟨(hd.inFlight _ hpreparing).1, ?_⟩
    intro prepared hreceiver
    cases outcome with
    | ok outcome =>
      cases hreceiver
      exact prepared_of_run hrun
    | error e => cases hreceiver
    | crashed => cases hreceiver
  | commitEnded hcommit hrun =>
    refine ⟨hd.lawful, ?_, hd.inFlight⟩
    refine ⟨hd.held.roots, hd.held.rootFile, hd.held.scopes, hd.held.scopeFile, hd.held.activeJob, ?_⟩
    intro commit hmem
    rcases List.mem_or_eq_of_mem_set hmem with hmem | rfl
    · exact hd.held.commits commit hmem
    · exact hd.held.commits ⟨_, _, _, _, .empty⟩ (List.mem_of_getElem? hcommit)
  | stopped => exact hd.halt
  | startFailed hrunning hfailed =>
    cases hfailed with
    | loading hload =>
      exact ⟨hload.log ▸ hd.lawful, hload.log ▸ hd.held.loaded hload, hload.log ▸ hd.inFlight⟩
    | recovering hload hrun hfail =>
      exact ⟨hload.log ▸ hd.lawful, hload.log ▸ hd.held.loaded hload.toLoaded, hload.log ▸ hd.inFlight⟩
    | replaying hload hrun hreplayed hfail =>
      obtain ⟨hlog, hheld⟩ := hreplayed.held (hd.held.loaded hload.toLoaded)
      have hlog := hlog.trans hload.log
      exact ⟨hlog ▸ hd.lawful, hlog ▸ hheld, hlog ▸ hd.inFlight⟩
  | started hrunning hload hrun hreplayed =>
    obtain ⟨hlog, hheld⟩ := hreplayed.held (hd.held.loaded hload.toLoaded)
    have hlog := hlog.trans hload.log
    exact ⟨hlog ▸ hd.lawful, hlog ▸ hheld, hlog ▸ hd.inFlight⟩
  | outside => exact ⟨hd.lawful, hd.held, hd.inFlight⟩

omit [LawfulDeserialize RootRegistryDocument] [LawfulDeserialize RegistryScopeRegistryDocument] in
theorem Daemon.Fresh.accounted {d : Daemon} (h : d.Fresh) : d.Accounted policy where
  lawful := by
    rw [h.log]
    exact ⟨nofun, nofun⟩
  held := {
    roots := by simp [h.roots, RootRegistry.new, KeyedList.empty]
    rootFile := by
      rw [h.rootFile]
      rintro bytes (⟨⟨⟩⟩ | ⟨⟨⟩⟩)
    scopes := by simp [h.registryScopes, RegistryScopeRegistry.new, KeyedList.empty]
    scopeFile := by
      rw [h.registryScopeFile]
      rintro bytes (⟨⟨⟩⟩ | ⟨⟨⟩⟩)
    activeJob active job hactive := by cases h.activeJob.symm.trans hactive
    commits := by simp [h.commits] }
  inFlight := h.preparing ▸ .none

theorem Daemon.Runs.accounted {gate : Daemon → Action → Prop} {d t : Daemon}
    (h : Runs policy gate d t) (hd : d.Fresh) : t.Accounted policy :=
  h.keeps hd.accounted fun _ _ _ _ haccounted hstep => hstep.accounted haccounted

end Loading

/-! ### What a step changes -/

/-- The registries of roots and scopes are as they were, in memory and in their files. -/
structure SameRegistries (s t : ServiceState) : Prop where
  roots : t.roots = s.roots
  rootFile : t.rootFile = s.rootFile
  registryScopes : t.registryScopes = s.registryScopes
  registryScopeFile : t.registryScopeFile = s.registryScopeFile

theorem SameBut.registries {s t : ServiceState} (h : SameBut s t) : SameRegistries s t :=
  ⟨h.roots, h.rootFile, h.registryScopes, h.registryScopeFile⟩

theorem Processed.registries {call : Call} {s t : ServiceState} {preparing : Bool}
    {request : Request} {outcome : Outcome MaintenanceError Dispatch}
    (h : Processed call s preparing request outcome t) :
    SameRegistries s t ∨
      ∃ caller, call.caller = .ok caller ∧ caller.elevatedAdministrator = true := by
  have hsame := sameBut_refresh s
  cases h with
  | kept hpassive ht =>
    rcases ht with rfl | rfl | rfl
    · exact .inl ⟨rfl, rfl, rfl, rfl⟩
    · exact .inl hsame.registries
    · exact .inl hsame.drop.registries
  | registersRoot caller _ _ _ _ _ hcaller helevated => exact .inr ⟨caller, hcaller, helevated⟩
  | unregistersRoot caller _ _ _ _ hcaller helevated => exact .inr ⟨caller, hcaller, helevated⟩
  | registersScope caller _ _ _ _ _ hcaller helevated => exact .inr ⟨caller, hcaller, helevated⟩
  | unregistersScope caller _ _ _ _ hcaller helevated => exact .inr ⟨caller, hcaller, helevated⟩
  | applies =>
    have hdrop := hsame.drop.registries
    exact .inl ⟨hdrop.roots, hdrop.rootFile, hdrop.registryScopes, hdrop.registryScopeFile⟩
  | preparing => exact .inl hsame.drop.registries
  | committing =>
    have hregistries := hsame.registries
    exact .inl ⟨hregistries.roots, hregistries.rootFile, hregistries.registryScopes,
      hregistries.registryScopeFile⟩

theorem Finished.registries {outcome : PreparedOutcome} {s t : ServiceState}
    {result : Outcome MaintenanceError Response} (h : Finished outcome s result t) :
    SameRegistries s t := by
  cases h <;> exact ⟨rfl, rfl, rfl, rfl⟩

theorem Replayed.registries {jobs : List String} {s t : ServiceState}
    {outcome : Outcome MaintenanceError Unit} (h : Replayed jobs s outcome t) :
    SameRegistries s t := by
  cases h <;> exact ⟨rfl, rfl, rfl, rfl⟩

/-- Only a request of an elevated administrator changes a registry, and only a start loads one. -/
theorem Daemon.Stepped.registries {d t : Daemon} {action : Action} (h : Stepped policy d action t) :
    SameRegistries d.service t.service ∨
      (∃ call request spawned sch caller, action = .request call request spawned sch ∧
        call.caller = .ok caller ∧ caller.elevatedAdministrator = true) ∨
      ((∃ loading policyReady recovery replaying,
          action = .start loading policyReady recovery replaying) ∧
        t.service.rootFile = d.service.rootFile ∧
        t.service.registryScopeFile = d.service.registryScopeFile) := by
  have hself : SameRegistries d.service d.service := ⟨rfl, rfl, rfl, rfl⟩
  cases h with
  | idle => exact .inl hself
  | request hrunning hprocessed =>
    rename_i call request spawned sch outcome s
    rcases hprocessed.registries with hsame | ⟨caller, hcaller, helevated⟩
    · left
      cases outcome with
      | error e => exact hsame
      | crashed => exact ⟨hsame.roots, hsame.rootFile, hsame.registryScopes, hsame.registryScopeFile⟩
      | ok dispatch =>
        cases dispatch with
        | respond response => exact hsame
        | prepare work => cases spawned <;> exact hsame
    · exact .inr (.inl ⟨call, request, spawned, sch, caller, rfl, hcaller, helevated⟩)
  | released => exact .inl hself
  | finished hrunning hpreparing hreceiver hfinished =>
    have hsame := hfinished.registries
    left
    rename_i result s
    cases result with
    | ok response => exact hsame
    | error e => exact hsame
    | crashed => exact ⟨hsame.roots, hsame.rootFile, hsame.registryScopes, hsame.registryScopeFile⟩
  | prepareEnded => exact .inl hself
  | commitEnded => exact .inl ⟨rfl, rfl, rfl, rfl⟩
  | stopped => exact .inl ⟨rfl, rfl, rfl, rfl⟩
  | startFailed hrunning hfailed =>
    refine .inr (.inr ⟨⟨_, _, _, _, rfl⟩, ?_⟩)
    cases hfailed with
    | loading hload => exact ⟨hload.rootFile, hload.registryScopeFile⟩
    | recovering hload => exact ⟨hload.rootFile, hload.registryScopeFile⟩
    | replaying hload hrun hreplayed =>
      have hsame := hreplayed.registries
      exact ⟨hsame.rootFile.trans hload.rootFile, hsame.registryScopeFile.trans hload.registryScopeFile⟩
  | started hrunning hload hrun hreplayed =>
    have hsame := hreplayed.registries
    exact .inr (.inr ⟨⟨_, _, _, _, rfl⟩, hsame.rootFile.trans hload.rootFile,
      hsame.registryScopeFile.trans hload.registryScopeFile⟩)
  | outside => exact .inl hself

/-- A request changes the registry of Windows only where a set is applied. -/
theorem Processed.registry {call : Call} {s t : ServiceState} {preparing : Bool}
    {request : Request} {outcome : Outcome MaintenanceError Dispatch}
    (h : Processed call s preparing request outcome t) :
    t.registry = s.registry ∨
      ∃ caller scope manifest, t.log = s.log ++ [.applies caller scope manifest] := by
  have hsame := sameBut_refresh s
  cases h with
  | kept hpassive ht =>
    rcases ht with rfl | rfl | rfl
    · exact .inl rfl
    · exact .inl hsame.registry
    · exact .inl hsame.drop.registry
  | registersRoot => exact .inl hsame.registry
  | unregistersRoot => exact .inl hsame.registry
  | registersScope => exact .inl hsame.registry
  | unregistersScope => exact .inl hsame.registry
  | applies caller scope manifest => exact .inr ⟨caller, scope, manifest, rfl⟩
  | preparing => exact .inl hsame.drop.registry
  | committing => exact .inl hsame.registry

theorem Daemon.Stepped.registry {d t : Daemon} {action : Action} (h : Stepped policy d action t) :
    t.service.registry = d.service.registry ∨
      (∃ caller scope manifest,
        t.service.log = d.service.log ++ [.applies caller scope manifest]) ∨
      ∃ loading policyReady recovery replaying,
        action = .start loading policyReady recovery replaying := by
  cases h with
  | idle => exact .inl rfl
  | request hrunning hprocessed =>
    rename_i call request spawned sch outcome s
    have hserved := hprocessed.registry
    refine (Or.imp_right .inl ?_)
    cases outcome with
    | error e => exact hserved
    | crashed => exact hserved
    | ok dispatch =>
      cases dispatch with
      | respond response => exact hserved
      | prepare work => cases spawned <;> exact hserved
  | released => exact .inl rfl
  | finished hrunning hpreparing hreceiver hfinished =>
    left
    rename_i result s
    cases result <;> cases hfinished <;> rfl
  | prepareEnded => exact .inl rfl
  | commitEnded => exact .inl rfl
  | stopped => exact .inl rfl
  | startFailed => exact .inr (.inr ⟨_, _, _, _, rfl⟩)
  | started => exact .inr (.inr ⟨_, _, _, _, rfl⟩)
  | outside => exact .inl rfl

/-- No other program is at work while a worker is. -/
def Action.Exclusive : Action → Prop
  | .prepareEnds _ sch | .commitEnds _ sch => ∀ e ∈ sch, Quiet e
  | _ => True

theorem keeps_frame_runPrepare {call : PrepareCall} {work : PrepareWork} {serial : Nat} {d₀ : Disk} :
    Keeps Quiet (Frame work.root.canonicalPath (jobIdOf work.root work.manifest) [] d₀)
      (runPrepare call policy work serial) := by
  refine Keeps.bind (Keeps.lift _) fun _ => Keeps.bind (Keeps.lift _) fun _ => ?_
  refine Keeps.bind (Keeps.lift _) fun _ => Keeps.bind (Keeps.lift _) fun _ => ?_
  exact Keeps.bind (keeps_prepareFileSet _ _ _ _ _ _) fun _ => Keeps.pure _

omit [Externals] in
theorem Disk.target_of_frame {path q jobId : String} {target : TargetPath} {d d' : Disk}
    (h : Frame path jobId [] d d') : d'.target q target = d.target q target := by
  by_cases hq : q = path
  · subst hq
    rcases h.target target (by simp [Targeted]) with hsame | ⟨-, -, entry, hentry, -⟩
    · exact hsame
    · cases hentry
  · simp only [Disk.target, h.root q hq]

/-- Besides a start, only a commit of a job of the root changes what is found below it. -/
theorem Daemon.Stepped.target {d t : Daemon} {action : Action} (h : Stepped policy d action t)
    (hexclusive : action.Exclusive) (hcommits : ∀ commit ∈ d.service.commits,
      commit.job.policy.usesAtomicReplacement = false) (path : String) (target : TargetPath) :
    t.disk.target path target = d.disk.target path target ∨
      (∃ worker sch commit, action = .commitEnds worker sch ∧
        d.service.commits[worker]? = some commit ∧
        commit.job.header.root.canonicalPath = path) ∨
      (∃ loading policyReady recovery replaying,
        action = .start loading policyReady recovery replaying) ∨
      ∃ entry node, action = .outside path entry node := by
  cases h with
  | idle => exact .inl rfl
  | request =>
    left
    rename_i spawned sch outcome s hrunning hprocessed
    cases outcome with
    | error e => rfl
    | crashed => rfl
    | ok dispatch =>
      cases dispatch with
      | respond response => rfl
      | prepare work => cases spawned <;> rfl
  | released => exact .inl rfl
  | finished =>
    left
    rename_i result s hrunning hpreparing hreceiver hfinished
    cases result <;> rfl
  | prepareEnded hpreparing hrun =>
    exact .inl (Disk.target_of_frame (keeps_frame_runPrepare.endsIn Frame.refl ⟨_, _, _, hexclusive, hrun⟩))
  | commitEnded hcommit hrun =>
    rename_i worker sch rest job serial preparedBy committedBy outcome disk
    by_cases hpath : job.header.root.canonicalPath = path
    · exact .inr (.inl ⟨worker, sch, _, rfl, hcommit, hpath⟩)
    · have hatomic := hcommits _ (List.mem_of_getElem? hcommit)
      have hframe := (frame_commitFileSet hatomic).endsIn Frame.refl ⟨sch, _, _, hexclusive, hrun⟩
      left
      simp only [Disk.target, hframe.root path (Ne.symm hpath)]
  | stopped => exact .inl rfl
  | startFailed => exact .inr (.inr (.inl ⟨_, _, _, _, rfl⟩))
  | started => exact .inr (.inr (.inl ⟨_, _, _, _, rfl⟩))
  | outside =>
    rename_i q entry node
    by_cases hq : path = q
    · subst hq
      exact .inr (.inr (.inr ⟨entry, node, rfl⟩))
    · left
      simp [Disk.target, Disk.setRoot, update, hq]

/-! ### Runs -/

/-- What has been done so far was done for those who may, and what can be done next is. -/
structure Daemon.Authorized (policy : Policy) (t : Daemon) : Prop where
  commits : ∀ commit ∈ t.service.commits, commit.job.header.root.rootKind ≠ .library →
    commit.preparedBy = commit.job.header.root.ownerSid ∧
    commit.committedBy = commit.job.header.root.ownerSid ∧
    RootRegistered t.service.log commit.job.header.root ∧
    ∃ manifest previous, PreparedFor commit.job.header.root manifest policy commit.job ∧
      VerifiedForRoot commit.job.header.root previous manifest ∧
      manifest.fileSet.productId = commit.job.header.root.productId
  targets : ∀ action, action.Exclusive → ∀ path target,
    (t.step policy action).disk.target path target = t.disk.target path target ∨
      (∃ worker sch commit, action = .commitEnds worker sch ∧
        t.service.commits[worker]? = some commit ∧
        commit.job.header.root.canonicalPath = path) ∨
      (∃ loading policyReady recovery replaying,
        action = .start loading policyReady recovery replaying) ∨
      ∃ entry node, action = .outside path entry node
  applies : ∀ caller scope manifest, .applies caller scope manifest ∈ t.service.log →
    caller.sid = scope.ownerSid ∧ ScopeRegistered t.service.log scope ∧
    manifest.registrySet.scopeId = scope.scopeId ∧ manifest.registrySet.productId = scope.productId ∧
    ∃ previous, VerifiedForScope scope previous manifest
  registry : ∀ action, (t.step policy action).service.registry = t.service.registry ∨
    (∃ caller scope manifest,
      (t.step policy action).service.log = t.service.log ++ [.applies caller scope manifest]) ∨
    ∃ loading policyReady recovery replaying,
      action = .start loading policyReady recovery replaying
  registries : ∀ action, SameRegistries t.service (t.step policy action).service ∨
    (∃ call request spawned sch caller, action = .request call request spawned sch ∧
      call.caller = .ok caller ∧ caller.elevatedAdministrator = true) ∨
    ((∃ loading policyReady recovery replaying,
        action = .start loading policyReady recovery replaying) ∧
      (t.step policy action).service.rootFile = t.service.rootFile ∧
      (t.step policy action).service.registryScopeFile = t.service.registryScopeFile)

theorem runs_authorized [LawfulDeserialize RootRegistryDocument]
    [LawfulDeserialize RegistryScopeRegistryDocument] (policy : Policy)
    (hpolicy : policy.usesAtomicReplacement = false) {d t : Daemon} (hd : d.Fresh)
    (h : Daemon.Runs policy (fun _ _ => True) d t) : t.Authorized policy := by
  have haccounted := h.accounted hd
  have hcommit : ∀ commit ∈ t.service.commits, commit.committedBy = commit.preparedBy ∧
      ∃ root manifest, Entitled t.service.log root manifest commit.preparedBy ∧
        PreparedFor root manifest policy commit.job := by
    intro commit hcommit
    obtain ⟨hsame, root, manifest, hprepared⟩ := haccounted.held.commits commit hcommit
    exact ⟨hsame, root, manifest, haccounted.lawful.prepared _ _ _ _ _ hprepared⟩
  constructor
  · intro commit hmem hkind
    obtain ⟨hsame, root, manifest, hentitled, hprepared⟩ := hcommit commit hmem
    have hroot := hprepared.root
    subst hroot
    have howner := hentitled.owner hkind
    obtain ⟨previous, hverified⟩ := hentitled.verified
    refine ⟨howner, hsame.trans howner, hentitled.registered, manifest, previous, hprepared,
      hverified, ?_⟩
    obtain ⟨_, _, _, _, hverify⟩ := hverified
    exact (verifyFileSet_sound hverify).1
  · intro action hexclusive path target
    refine (t.step_stepped policy action).target hexclusive (fun commit hmem => ?_) path target
    obtain ⟨-, root, manifest, -, hprepared⟩ := hcommit commit hmem
    rw [hprepared.policy]
    exact hpolicy
  · intro caller scope manifest hmem
    have happlies := haccounted.lawful.applies caller scope manifest hmem
    obtain ⟨previous, hverified⟩ := happlies.verified
    obtain ⟨_, _, _, _, hverify⟩ := hverified
    obtain ⟨hacceptance, -⟩ := verifyRegistrySet_sound hverify
    obtain ⟨-, -, hproduct, hscope, -⟩ := validateRegistrySet_sound manifest.valid
    rw [hacceptance] at hproduct hscope
    exact ⟨happlies.owner, happlies.registered, hscope, hproduct, happlies.verified⟩
  · exact fun action => (t.step_stepped policy action).registry
  · exact fun action => (t.step_stepped policy action).registries

end Authorization

section Registered

@[reducible] noncomputable def plainExternals : Externals := SampleDocuments.externals {}

attribute [local instance] plainExternals

def administrator : CallerIdentity := ⟨"S-1-5-21-1000", true, by decide +kernel⟩

/-- An administrator, whom the operating system lets do everything. -/
def administratorCall : Call where
  caller := .ok administrator
  impersonated := .ok administrator
  opened := .ok (sampleRoot.canonicalPath, sampleRoot.identity)
  keyOpened := .ok ()
  manifest := .ok []
  keyring := .ok []
  stopRequested := false
  workerStarted := true

noncomputable def registeredOnce : Daemon :=
  (Daemon.fresh (fun _ _ => none) (sampleDisk fun _ => none)).after quietPolicy
    [.start [] (.ok ()) [] [],
      .request administratorCall (.registerRoot "games" "launcher" .launcher "") true []]

theorem runs_authorized_registered :
    registeredOnce.service.roots.roots.items = [sampleRoot] ∧
      registeredOnce.Authorized quietPolicy := by
  have hroots := Deserialize.canonical_lawful RootRegistryDocument
  have hscopes := Deserialize.canonical_lawful RegistryScopeRegistryDocument
  have hfresh : (Daemon.fresh (fun _ _ => none) (sampleDisk fun _ => none)).Fresh :=
    Daemon.fresh_fresh rfl
  refine ⟨by decide +kernel, runs_authorized quietPolicy rfl hfresh ?_⟩
  exact Daemon.after_runs ⟨trivial, trivial, trivial⟩

end Registered

end Se7en.Windows
