import Se7enService.OneTransaction
set_option autoImplicit false

/-! The roots of the jobs that are prepared or committed, and the registry of roots, over whole
runs of the service. -/

namespace Se7en.Windows
open Faulty

section Roots

variable [Externals] {policy : Policy} {d t : Daemon} {root : RegisteredRoot}

/-- A job of the root is being prepared, is prepared, or is being committed. -/
def Daemon.InUse (d : Daemon) (root : RegisteredRoot) : Prop :=
  (∃ inFlight, d.preparing = some inFlight ∧ inFlight.work.root = root) ∨
    (∃ active job, d.service.activeJob = some active ∧ active.state = .prepared job ∧
      job.header.root = root) ∨
    ∃ commit ∈ d.service.commits, commit.channel = .empty ∧ commit.job.header.root = root

/-- The root goes out of the registry by a request that is answered with success. -/
def Daemon.Releases (d : Daemon) (root : RegisteredRoot) : Action → Prop
  | .request call (.unregisterRoot rootId) _ sch => ∃ caller saved response,
    call.caller = .ok caller ∧ d.service.roots.unregister rootId caller.sid = .ok (root, saved) ∧
      (processRequest call (.unregisterRoot rootId) d.preparing.isSome d.service sch).1 =
        .ok (.respond response)
  | _ => False

/-- No root is released that a job is in work for. -/
def Daemon.Retains (d : Daemon) (action : Action) : Prop :=
  ∀ root, d.Releases root action → ¬ d.InUse root

structure Daemon.Anchored (policy : Policy) (d : Daemon) : Prop where
  single : d.Single
  registered : ∀ root, d.InUse root → root ∈ d.service.roots.roots.items
  inFlight : ∀ inFlight outcome, d.preparing = some inFlight →
    inFlight.receiver = .sent (.ok outcome) → outcome.Of inFlight.work inFlight.serial policy

/-! ### Which roots are in use -/

theorem Daemon.not_inUse_halt : ¬ d.halt.InUse root := by
  rintro (⟨inFlight, hpreparing, -⟩ | ⟨active, job, hactive, -⟩ | ⟨commit, hmem, hempty, -⟩)
  · cases hpreparing
  · cases hactive
  · obtain ⟨old, -, rfl⟩ := List.mem_map.mp hmem
    exact old.abandon_channel hempty

theorem Daemon.Single.not_inUse (hd : d.Single) (hrunning : d.running = false) :
    ¬ d.InUse root := by
  have hactive := hd.stopped hrunning
  rintro (⟨inFlight, hpreparing, -⟩ | ⟨active, job, hsome, -⟩ | ⟨commit, hmem, hempty, -⟩)
  · cases hrunning.symm.trans (hd.alone inFlight hpreparing).1
  · cases hactive.symm.trans hsome
  · exact hd.service.idle hactive commit hmem hempty

/-- What a request leaves in use was in use before it, but for the root that it prepares. -/
theorem Processed.inUse {call : Call} {s s' : ServiceState} {preparing : Bool} {request : Request}
    {outcome : Outcome MaintenanceError Dispatch}
    (h : Processed call s preparing request outcome s')
    (huse : Daemon.InUse { d with service := s', preparing := none } root) :
    Daemon.InUse { d with service := s, preparing := none } root := by
  have hsame := sameBut_refresh s
  have hback : ∀ {t : ServiceState}, t.commits = s.commits →
      (∀ active job, t.activeJob = some active → active.state = .prepared job →
        s.activeJob = some active) →
      Daemon.InUse { d with service := t, preparing := none } root →
      Daemon.InUse { d with service := s, preparing := none } root := by
    rintro t hcommits hactive (⟨_, hnone, -⟩ | ⟨active, job, hsome, hstate, hroot⟩ |
      ⟨commit, hmem, hempty, hroot⟩)
    · cases hnone
    · exact .inr (.inl ⟨active, job, hactive active job hsome hstate, hstate, hroot⟩)
    · exact .inr (.inr ⟨commit, hcommits ▸ hmem, hempty, hroot⟩)
  cases h with
  | kept hpassive ht =>
    rcases ht with rfl | rfl | rfl
    · exact huse
    · exact hback hsame.commits (fun _ _ => refresh_prepared) huse
    · exact hback hsame.drop.commits (fun _ _ h => refresh_prepared (drop_prepared h)) huse
  | registersRoot => exact hback hsame.commits (fun _ _ => refresh_prepared) huse
  | unregistersRoot => exact hback hsame.commits (fun _ _ => refresh_prepared) huse
  | registersScope => exact hback hsame.commits (fun _ _ => refresh_prepared) huse
  | unregistersScope => exact hback hsame.commits (fun _ _ => refresh_prepared) huse
  | applies =>
    exact hback hsame.drop.commits (fun _ _ h => refresh_prepared (drop_prepared h)) huse
  | preparing =>
    exact hback hsame.drop.commits (fun _ _ h => refresh_prepared (drop_prepared h)) huse
  | committing caller active prepared _ hactive hstate =>
    rcases huse with ⟨_, hnone, -⟩ | ⟨_, job, ⟨⟩, hprepared, -⟩ | ⟨commit, hmem, hempty, hroot⟩
    · cases hnone
    · cases hprepared
    · rcases List.mem_append.mp hmem with hmem | hmem
      · exact .inr (.inr ⟨commit, hsame.commits ▸ hmem, hempty, hroot⟩)
      · obtain rfl := List.mem_singleton.mp hmem
        exact .inr (.inl ⟨active, prepared, refresh_prepared hactive hstate, hstate, hroot⟩)

theorem Processed.prepares {call : Call} {s s' : ServiceState} {preparing : Bool}
    {request : Request} {work : PrepareWork}
    (h : Processed call s preparing request (.ok (.prepare work)) s') :
    work.root ∈ s.roots.roots.items ∧ ∀ rootId, request ≠ .unregisterRoot rootId := by
  cases h with
  | kept hpassive => exact hpassive.elim
  | registersRoot caller verified root saved held file _ _ _ _ _ _ hended =>
    exact (hended.not_prepare rfl).elim
  | unregistersRoot caller root saved held file _ _ _ _ hended =>
    exact (hended.not_prepare rfl).elim
  | registersScope caller verified scope saved held file _ _ _ _ _ _ hended =>
    exact (hended.not_prepare rfl).elim
  | unregistersScope caller scope saved held file _ _ _ _ hended =>
    exact (hended.not_prepare rfl).elim
  | applies caller scope manifest previous registry _ _ _ _ _ _ hpassive => exact hpassive.elim
  | preparing caller root manifest previous _ haccessible =>
    obtain ⟨hget, -⟩ := RootRegistry.resolveAccessible_eq_ok haccessible
    exact ⟨(KeyedList.get?_eq_some.mp hget).1, nofun⟩

/-- What is in use behind a step was in use before it, or was registered then and is now being
prepared. -/
theorem Daemon.Stepped.inUse {action : Action} (h : Stepped policy d action t)
    (hd : d.Anchored policy) (huse : t.InUse root) :
    d.InUse root ∨
      d.running = true ∧ root ∈ d.service.roots.roots.items ∧ ¬ d.Releases root action := by
  have hquiet : ∀ {s : Daemon}, d.running = false → s.preparing = d.preparing →
      s.service.commits = d.service.commits → s.service.activeJob = none → ¬ s.InUse root := by
    intro s hrunning hpreparing hcommits hactive huse
    have hnone : ¬ d.InUse root := hd.single.not_inUse hrunning
    refine hnone ?_
    rcases huse with ⟨inFlight, hsome, hroot⟩ | ⟨active, job, hsome, -⟩ | ⟨commit, hmem, hrest⟩
    · exact .inl ⟨inFlight, hpreparing ▸ hsome, hroot⟩
    · cases hactive.symm.trans hsome
    · exact .inr (.inr ⟨commit, hcommits ▸ hmem, hrest⟩)
  cases h with
  | idle => exact .inl huse
  | request hrunning hprocessed =>
    rename_i call request spawned sch outcome s
    have hkept : Daemon.InUse { d with service := s } root → d.InUse root := by
      rintro (hpreparing | hrest)
      · exact .inl hpreparing
      · rcases hprocessed.inUse (d := d) (.inr hrest) with ⟨_, hnone, -⟩ | hrest
        · cases hnone
        · exact .inr hrest
    cases outcome with
    | error e => exact .inl (hkept huse)
    | crashed => exact (Daemon.not_inUse_halt huse).elim
    | ok dispatch =>
      cases dispatch with
      | respond response => exact .inl (hkept huse)
      | prepare work =>
        cases spawned with
        | false => exact .inl (hkept huse)
        | true =>
          obtain ⟨hroot, hrequest⟩ := hprocessed.prepares
          rcases huse with ⟨_, ⟨⟩, rfl⟩ | hrest
          · refine .inr ⟨hrunning, hroot, fun hreleases => ?_⟩
            cases request with
            | unregisterRoot rootId => exact hrequest rootId rfl
            | _ => exact hreleases
          · exact .inl (hkept (.inr hrest))
  | released hrunning hpreparing =>
    rcases huse with ⟨_, hnone, -⟩ | hrest
    · cases hnone
    · exact .inl (.inr hrest)
  | finished hrunning hpreparing hreceiver hfinished =>
    rename_i sch inFlight outcome result s
    have hof := hd.inFlight inFlight outcome hpreparing hreceiver
    have hserved : Daemon.InUse { d with service := s, preparing := none } root → d.InUse root := by
      rintro (⟨_, hnone, -⟩ | ⟨active, job, hactive, hstate, hroot⟩ | ⟨commit, hmem, hrest⟩)
      · cases hnone
      · cases hfinished with
        | refused => exact .inr (.inl ⟨active, job, hactive, hstate, hroot⟩)
        | unsaved => exact .inr (.inl ⟨active, job, hactive, hstate, hroot⟩)
        | prepared =>
          cases hactive
          cases hstate
          exact .inl ⟨inFlight, hpreparing, hof.job.root.symm.trans hroot⟩
      · refine .inr (.inr ⟨commit, ?_, hrest⟩)
        cases hfinished <;> exact hmem
    cases result with
    | ok response => exact .inl (hserved huse)
    | error e => exact .inl (hserved huse)
    | crashed => exact (Daemon.not_inUse_halt huse).elim
  | prepareEnded hpreparing hrun =>
    rcases huse with ⟨_, ⟨⟩, hroot⟩ | hrest
    · exact .inl (.inl ⟨_, hpreparing, hroot⟩)
    · exact .inl (.inr hrest)
  | commitEnded hcommit hrun =>
    rcases huse with hpreparing | hactive | ⟨commit, hmem, hempty, hroot⟩
    · exact .inl (.inl hpreparing)
    · exact .inl (.inr (.inl hactive))
    · rcases List.mem_or_eq_of_mem_set hmem with hmem | rfl
      · exact .inl (.inr (.inr ⟨commit, hmem, hempty, hroot⟩))
      · exact (Channel.deliver_ne_empty _ hempty).elim
  | stopped => exact (Daemon.not_inUse_halt huse).elim
  | startFailed hrunning hfailed =>
    refine (hquiet hrunning ?_ ?_ ?_ huse).elim
    · rfl
    · cases hfailed with
      | loading hload => exact hload.commits
      | recovering hload => exact hload.commits
      | replaying hload _ hreplayed => exact hreplayed.jobs.1.trans hload.commits
    · cases hfailed with
      | loading hload => exact hload.noJob (hd.single.stopped hrunning)
      | recovering hload => exact hload.noJob
      | replaying hload _ hreplayed => exact hreplayed.jobs.2.trans hload.noJob
  | started hrunning hload hrun hreplayed =>
    refine (hquiet hrunning ?_ ?_ ?_ huse).elim
    · rfl
    · exact hreplayed.jobs.1.trans hload.commits
    · exact hreplayed.jobs.2.trans hload.noJob
  | outside => exact .inl huse

/-! ### The registry of roots -/

theorem Daemon.afterRequest_roots (d : Daemon) (s : ServiceState) (spawned : Bool)
    (outcome : Outcome MaintenanceError Dispatch) :
    (d.afterRequest s spawned outcome).service.roots = s.roots := by
  cases outcome with
  | error e => rfl
  | crashed => rfl
  | ok dispatch =>
    cases dispatch with
    | respond response => rfl
    | prepare work => cases spawned <;> rfl

/-- A root stays registered until it is released. -/
theorem Processed.keepsRoot {call : Call} {s s' : ServiceState} {preparing : Bool}
    {request : Request} {outcome : Outcome MaintenanceError Dispatch}
    (h : Processed call s preparing request outcome s') (hroot : root ∈ s.roots.roots.items)
    (hkept : ∀ rootId caller saved response, request = .unregisterRoot rootId →
      call.caller = .ok caller → outcome = .ok (.respond response) →
      s.roots.unregister rootId caller.sid ≠ .ok (root, saved)) :
    root ∈ s'.roots.roots.items := by
  have hsame := sameBut_refresh s
  cases h with
  | kept hpassive ht =>
    rcases ht with rfl | rfl | rfl
    · exact hroot
    · rw [hsame.roots]
      exact hroot
    · rw [hsame.drop.roots]
      exact hroot
  | registersRoot caller verified new saved held file _ _ _ _ hsaved _ hended =>
    rcases hended with ⟨-, rfl⟩ | ⟨-, rfl⟩
    · obtain ⟨habsent, hinsert⟩ := RootRegistry.register_eq_ok hsaved
      have hne := KeyedList.containsKey_eq_false.mp habsent root hroot
      show root ∈ _
      rw [hinsert, KeyedList.mem_insert]
      exact .inr ⟨hroot, hne⟩
    · exact hroot
  | unregistersRoot caller found saved held file hcaller helevated hsaved hfile hended =>
    rename_i rootId
    rcases hended with ⟨hok, rfl⟩ | ⟨-, rfl⟩
    · obtain ⟨haccessible, hremove⟩ := RootRegistry.unregister_eq_ok hsaved
      obtain ⟨hget, -⟩ := RootRegistry.resolveAccessible_eq_ok haccessible
      have hne : root.rootId ≠ rootId := by
        intro heq
        have hfound : s.roots.roots.get? rootId = some root :=
          KeyedList.get?_eq_some.mpr ⟨hroot, heq⟩
        obtain rfl := Option.some.inj (hget.symm.trans hfound)
        exact hkept rootId caller held _ rfl hcaller hok hsaved
      show root ∈ _
      rw [hremove]
      exact List.mem_filter.mpr ⟨hroot, by simpa using hne⟩
    · exact hroot
  | registersScope => exact hsame.roots ▸ hroot
  | unregistersScope => exact hsame.roots ▸ hroot
  | applies => exact hsame.drop.roots ▸ hroot
  | preparing => exact hsame.drop.roots ▸ hroot
  | committing => exact hsame.roots ▸ hroot

theorem Daemon.step_keepsRoot (action : Action)
    (hstart : ∀ loading policyReady recovery replaying,
      action = .start loading policyReady recovery replaying → d.running = true)
    (hroot : root ∈ d.service.roots.roots.items) (hkept : ¬ d.Releases root action) :
    root ∈ (d.step policy action).service.roots.roots.items := by
  cases action with
  | request call request spawned sch =>
    simp only [step]
    split
    · unfold serveRequest
      rcases hrun : processRequest call request d.preparing.isSome d.service sch with
        ⟨outcome, s, rest⟩
      simp only [afterRequest_roots]
      refine (processed_of_run hrun).keepsRoot hroot ?_
      rintro rootId caller saved response rfl hcaller rfl hunregister
      refine hkept ⟨caller, saved, response, hcaller, hunregister, ?_⟩
      rw [hrun]
    · exact hroot
  | start loading policyReady recovery replaying =>
    have hrunning := hstart _ _ _ _ rfl
    simp only [step, hrunning, if_true]
    exact hroot
  | wake sch =>
    have hsame := (d.step_stepped policy (.wake sch)).registries
    rcases hsame with hsame | ⟨_, _, _, _, _, hwake, -⟩ | ⟨⟨_, _, _, _, hwake⟩, -⟩
    · rw [hsame.roots]
      exact hroot
    · cases hwake
    · cases hwake
  | prepareEnds call sch =>
    have hsame := (d.step_stepped policy (.prepareEnds call sch)).registries
    rcases hsame with hsame | ⟨_, _, _, _, _, hends, -⟩ | ⟨⟨_, _, _, _, hends⟩, -⟩
    · rw [hsame.roots]
      exact hroot
    · cases hends
    · cases hends
  | commitEnds worker sch =>
    have hsame := (d.step_stepped policy (.commitEnds worker sch)).registries
    rcases hsame with hsame | ⟨_, _, _, _, _, hends, -⟩ | ⟨⟨_, _, _, _, hends⟩, -⟩
    · rw [hsame.roots]
      exact hroot
    · cases hends
    · cases hends
  | stop => exact hroot
  | outside path entry node => exact hroot

/-! ### Runs -/

theorem Daemon.Stepped.ofWork {action : Action} (h : Stepped policy d action t)
    (hd : d.Anchored policy) (inFlight : PrepareInFlight) (outcome : PreparedOutcome)
    (hpreparing : t.preparing = some inFlight) (hreceiver : inFlight.receiver = .sent (.ok outcome)) :
    outcome.Of inFlight.work inFlight.serial policy := by
  cases h with
  | idle => exact hd.inFlight inFlight outcome hpreparing hreceiver
  | request hrunning hprocessed =>
    rename_i call request spawned sch result s
    cases result with
    | error e => exact hd.inFlight inFlight outcome hpreparing hreceiver
    | crashed => cases hpreparing
    | ok dispatch =>
      cases dispatch with
      | respond response => exact hd.inFlight inFlight outcome hpreparing hreceiver
      | prepare work =>
        cases spawned with
        | false => exact hd.inFlight inFlight outcome hpreparing hreceiver
        | true =>
          cases hpreparing
          cases hreceiver
  | released => cases hpreparing
  | finished =>
    rename_i sch started ended result s _ _ _ _
    cases result <;> cases hpreparing
  | prepareEnded hbegun hrun =>
    rename_i call sch rest work serial result disk
    cases hpreparing
    cases result with
    | ok prepared =>
      cases hreceiver
      exact prepared_of_run hrun
    | error e => cases hreceiver
    | crashed => cases hreceiver
  | commitEnded => exact hd.inFlight inFlight outcome hpreparing hreceiver
  | stopped => cases hpreparing
  | startFailed => exact hd.inFlight inFlight outcome hpreparing hreceiver
  | started => exact hd.inFlight inFlight outcome hpreparing hreceiver
  | outside => exact hd.inFlight inFlight outcome hpreparing hreceiver

theorem Daemon.Anchored.step (hd : d.Anchored policy) {action : Action}
    (hgate : d.Retains action) : (d.step policy action).Anchored policy where
  single := (d.step_stepped policy action).single hd.single
  registered root huse := by
    have hstepped := d.step_stepped policy action
    have hbefore := hstepped.inUse hd huse
    refine Daemon.step_keepsRoot action ?_ ?_ ?_
    · rintro loading policyReady recovery replaying rfl
      by_contra hrunning
      rcases hbefore with hbefore | ⟨hrunning', -⟩
      · exact hd.single.not_inUse (by simpa using hrunning) hbefore
      · exact hrunning hrunning'
    · rcases hbefore with hbefore | ⟨-, hroot, -⟩
      · exact hd.registered root hbefore
      · exact hroot
    · rcases hbefore with hbefore | ⟨-, -, hkept⟩
      · exact fun hreleases => hgate root hreleases hbefore
      · exact hkept
  inFlight inFlight outcome := (d.step_stepped policy action).ofWork hd inFlight outcome

theorem Daemon.Fresh.anchored (h : d.Fresh) : d.Anchored policy where
  single := h.single
  registered root huse := (h.single.not_inUse h.running huse).elim
  inFlight inFlight outcome hpreparing := by cases h.preparing.symm.trans hpreparing

/-- What a run whose steps are gated keeps, as the steps keep it. -/
theorem Daemon.Runs.anchored (h : Runs policy Retains d t) (hd : d.Fresh) : t.Anchored policy := by
  induction h with
  | refl => exact hd.anchored
  | tail _ last ih =>
    obtain ⟨action, hgate, rfl⟩ := last
    exact ih.step hgate

/-- Commits are started, run and change files for registered roots only. -/
structure Daemon.OnRegistered (policy : Policy) (t : Daemon) : Prop where
  accepted : ∀ action, ∀ commit ∈ (t.step policy action).service.commits,
    commit.channel = .empty → commit.job.header.root ∈ t.service.roots.roots.items
  running : ∀ commit ∈ t.service.commits, commit.channel = .empty →
    t.service.roots.roots.get? commit.job.header.root.rootId = some commit.job.header.root
  asPrepared : ∀ commit ∈ t.service.commits, ∃ manifest,
    .prepared commit.serial commit.preparedBy commit.job.header.root manifest commit.job
      ∈ t.service.log
  unchanged : ∀ action, action.Exclusive → ∀ path,
    (∀ root ∈ t.service.roots.roots.items, root.canonicalPath ≠ path) → ∀ target,
      (t.step policy action).disk.target path target = t.disk.target path target ∨
      (∃ loading policyReady recovery replaying,
        action = .start loading policyReady recovery replaying) ∨
      ∃ entry node, action = .outside path entry node

/-- While no root is released that a job is in work for, commits are confined to the roots that
are registered. -/
theorem runs_on_registered [LawfulDeserialize RootRegistryDocument]
    [LawfulDeserialize RegistryScopeRegistryDocument] (policy : Policy)
    (hpolicy : policy.usesAtomicReplacement = false) (hd : d.Fresh)
    (h : Daemon.Runs policy Daemon.Retains d t) : t.OnRegistered policy := by
  have hanchored := h.anchored hd
  have haccounted : t.Accounted policy := h.accounted hd
  have hheld : ∀ commit ∈ t.service.commits, ∃ manifest,
      .prepared commit.serial commit.preparedBy commit.job.header.root manifest commit.job
          ∈ t.service.log ∧
        PreparedFor commit.job.header.root manifest policy commit.job := by
    intro commit hmem
    obtain ⟨-, root, manifest, hprepared⟩ := haccounted.held.commits commit hmem
    have hjob := (haccounted.lawful.prepared _ _ _ _ _ hprepared).2
    have hroot := hjob.root
    subst hroot
    exact ⟨manifest, hprepared, hjob⟩
  constructor
  · intro action commit hmem hempty
    have huse : (t.step policy action).InUse commit.job.header.root :=
      .inr (.inr ⟨commit, hmem, hempty, rfl⟩)
    rcases (t.step_stepped policy action).inUse hanchored huse with hbefore | ⟨-, hroot, -⟩
    · exact hanchored.registered _ hbefore
    · exact hroot
  · intro commit hmem hempty
    have hroot := hanchored.registered _ (.inr (.inr ⟨commit, hmem, hempty, rfl⟩))
    exact KeyedList.get?_eq_some.mpr ⟨hroot, rfl⟩
  · intro commit hmem
    obtain ⟨manifest, hprepared, -⟩ := hheld commit hmem
    exact ⟨manifest, hprepared⟩
  · intro action hexclusive path hpath target
    have hatomic : ∀ commit ∈ t.service.commits,
        commit.job.policy.usesAtomicReplacement = false := by
      intro commit hmem
      obtain ⟨manifest, -, hjob⟩ := hheld commit hmem
      rw [hjob.policy]
      exact hpolicy
    rcases (t.step_stepped policy action).target hexclusive hatomic path target with
      hsame | ⟨worker, sch, commit, rfl, hcommit, hcanonical⟩ | hstart | houtside
    · exact .inl hsame
    · by_cases hempty : commit.channel = .empty
      · have hmem := List.mem_of_getElem? hcommit
        have hroot := hanchored.registered _ (.inr (.inr ⟨commit, hmem, hempty, rfl⟩))
        exact absurd hcanonical (hpath _ hroot)
      · left
        obtain ⟨job, serial, preparedBy, committedBy, channel⟩ := commit
        simp only [Daemon.step, Daemon.endCommit, hcommit]
        cases channel with
        | empty => exact absurd rfl hempty
        | sent => rfl
        | disconnected => rfl
    · exact .inr (.inl hstart)
    · exact .inr (.inr houtside)

end Roots

/-! ### A root that is taken away from a prepared job -/

section Unregistered

attribute [local instance] releaseExternals

theorem runs_on_registered_committing :
    releaseCommitting.service.commits.map (·.job.header.root) = [sampleRoot] ∧
      releaseCommitting.OnRegistered quietPolicy := by
  have hroots := Deserialize.canonical_lawful RootRegistryDocument
  have hscopes := Deserialize.canonical_lawful RegistryScopeRegistryDocument
  have hfresh : beforeRelease.Fresh := Daemon.fresh_fresh rfl
  have hkept : ∀ {d : Daemon} {action : Action}, (∀ root, ¬ d.Releases root action) →
      d.Retains action := fun h root hreleases => (h root hreleases).elim
  refine ⟨by decide +kernel, runs_on_registered quietPolicy rfl hfresh (Daemon.after_runs ?_)⟩
  exact ⟨hkept fun _ => id, hkept fun _ => id, hkept fun _ => id, hkept fun _ => id,
    hkept fun _ => id, hkept fun _ => id, trivial⟩

/-- The job is prepared, its root is unregistered, and the job is committed all the same. -/
noncomputable def releaseUnregistered : Daemon :=
  beforeRelease.after quietPolicy (prepareRelease ++
    [.request releaseCall (.unregisterRoot "games") true [],
      .request releaseCall (.commitJob releaseJobId) true []])

theorem unregistered_root_committed :
    ¬ ∀ d t : Daemon, d.Fresh → Daemon.Runs quietPolicy (fun _ _ => True) d t →
      t.OnRegistered quietPolicy := by
  intro h
  have hfresh : beforeRelease.Fresh := Daemon.fresh_fresh rfl
  have hruns : Daemon.Runs quietPolicy (fun _ _ => True) beforeRelease releaseUnregistered :=
    Daemon.after_runs ⟨trivial, trivial, trivial, trivial, trivial, trivial, trivial, trivial⟩
  have hregistered := h _ _ hfresh hruns
  have hnone : releaseUnregistered.service.roots.roots.items = [] := by decide +kernel
  have hcommits : (releaseUnregistered.service.commits.all fun commit =>
      commit.channel.isEmpty) = true ∧
      releaseUnregistered.service.commits.length = 1 := by decide +kernel
  obtain ⟨commit, hcommit⟩ := List.length_eq_one_iff.mp hcommits.2
  rw [hcommit] at hcommits
  have hempty : commit.channel = .empty := by
    have hmatch := hcommits.1
    cases hchannel : commit.channel with
    | empty => rfl
    | sent => simp [hchannel, Channel.isEmpty] at hmatch
    | disconnected => simp [hchannel, Channel.isEmpty] at hmatch
  have hget := hregistered.running commit (by simp [hcommit]) hempty
  simp [KeyedList.get?, hnone] at hget

end Unregistered

end Se7en.Windows
