import Se7enService.Daemon
set_option autoImplicit false

/-! What one step of the service can do. -/

namespace Se7en.Windows
open Faulty

section Steps

variable [Externals]

/-! ### Requests and the end of a preparation -/

theorem processed_of_run {call : Call} {request : Request} {preparing : Bool} {s t : ServiceState}
    {sch rest : Schedule Empty} {outcome : Outcome MaintenanceError Dispatch}
    (h : processRequest call request preparing s sch = (outcome, t, rest)) :
    Processed call s preparing request outcome t := by
  have hend := (wp_processRequest (s := s)).result (fun _ _ => trivial) h
  cases outcome <;> exact hend

theorem finished_of_run {outcome : PreparedOutcome} {s t : ServiceState}
    {sch rest : Schedule Empty} {result : Outcome MaintenanceError Response}
    (h : finishPrepare outcome s sch = (result, t, rest)) : Finished outcome s result t := by
  have hend := (wp_finishPrepare (s := s)).result (fun _ _ => trivial) h
  cases result <;> exact hend

/-! ### The prepare worker -/

/-- The job that a preparation for the root and the manifest has made. -/
structure PreparedFor (root : RegisteredRoot) (manifest : VerifiedFileSet) (policy : Policy)
    (job : PreparedJob) : Prop where
  jobId : job.header.jobId = jobIdOf root manifest
  generation : job.header.generation = manifest.fileSet.generation
  manifestDigest : job.header.manifestDigest = encodeHex manifest.digest.toList
  root : job.header.root = root
  policy : job.policy = policy

theorem wp_prepareJobContents_header (manifest : VerifiedFileSet) (root : RegisteredRoot)
    (staging : Staging) (stamp : Stamp) (policy : Policy) (d : Disk) :
    Wp (fun _ => True)
      (prepareJobContents manifest root staging stamp policy (jobIdOf root manifest))
      (fun header _ => PreparedFor root manifest policy { header, policy }) (fun _ _ => True)
      (fun _ => True) d := by
  unfold prepareJobContents
  refine Wp.bind (Wp.any.mono (fun _ t _ => ?_) (fun _ _ h => h) (fun _ h => h))
  refine Wp.bind (Wp.any.mono (fun files t _ => ?_) (fun _ _ h => h) (fun _ h => h))
  refine Wp.bind (Wp.any.mono (fun removals t _ => ?_) (fun _ _ h => h) (fun _ h => h))
  refine Wp.bind (Wp.any.mono (fun _ t _ => ?_) (fun _ _ h => h) (fun _ h => h))
  refine Wp.bind (Wp.any.mono (fun _ t _ => ?_) (fun _ _ h => h) (fun _ h => h))
  exact Wp.pure ⟨rfl, rfl, rfl, rfl, rfl⟩

theorem wp_prepareFileSet_header (manifest : VerifiedFileSet) (root : RegisteredRoot)
    (absolute : Bool) (staging : Staging) (stamp : Stamp) (policy : Policy) (d : Disk) :
    Wp (fun _ => True) (prepareFileSet manifest root absolute staging stamp policy)
      (fun job _ => PreparedFor root manifest policy job) (fun _ _ => True) (fun _ => True) d := by
  unfold prepareFileSet
  refine Wp.bind (Wp.any.mono (fun _ t _ => ?_) (fun _ _ h => h) (fun _ h => h))
  by_cases hproduct : manifest.fileSet.productId = root.productId
  · simp only [hproduct, ne_eq, not_true_eq_false, if_false]
    cases absolute with
    | false => exact Wp.bind (Wp.throw trivial)
    | true =>
      simp only [Bool.not_true, Bool.false_eq_true, if_false]
      cases declaredSize manifest.fileSet.files 0 with
      | none => exact Wp.throw trivial
      | some required =>
        refine Wp.bind (Wp.lift (fun _ _ => ?_) (fun _ _ => trivial))
        refine Wp.bind (Wp.any.mono (fun _ t _ => ?_) (fun _ _ h => h) (fun _ h => h))
        refine Wp.bind (Wp.any.mono (fun _ t _ => ?_) (fun _ _ h => h) (fun _ h => h))
        refine Wp.bind (Wp.any.mono (fun _ t _ => ?_) (fun _ _ h => h) (fun _ h => h))
        refine Wp.bind (Wp.attempt ((wp_prepareJobContents_header _ _ _ _ _ t).mono ?_ ?_
          (fun _ h => h)))
        · exact fun header t hheader => Wp.pure hheader
        · intro e t _
          exact Wp.bind (Wp.any.mono (fun _ _ _ => Wp.throw trivial) (fun _ _ h => h)
            (fun _ h => h))
  · simp only [ne_eq, hproduct, not_false_eq_true, if_true]
    exact Wp.bind (Wp.throw trivial)

/-- What a prepare worker hands over. -/
structure PreparedOutcome.Of (outcome : PreparedOutcome) (work : PrepareWork) (serial : Nat)
    (policy : Policy) : Prop where
  root : outcome.root = work.root
  manifest : outcome.manifest = work.manifest
  ownerSid : outcome.ownerSid = work.ownerSid
  serial : outcome.serial = serial
  job : PreparedFor work.root work.manifest policy outcome.prepared

theorem prepared_of_run {call : PrepareCall} {policy : Policy} {work : PrepareWork} {serial : Nat}
    {d disk : Disk} {sch rest : Schedule Intrusion} {outcome : PreparedOutcome}
    (h : runPrepare call policy work serial d sch = (.ok outcome, disk, rest)) :
    outcome.Of work serial policy := by
  have hprepare : Wp (fun _ => True) (runPrepare call policy work serial)
      (fun outcome _ => outcome.Of work serial policy) (fun _ _ => True) (fun _ => True) d := by
    unfold runPrepare
    refine Wp.bind (Wp.lift (fun _ _ => ?_) (fun _ _ => trivial))
    refine Wp.bind (Wp.lift (fun _ _ => ?_) (fun _ _ => trivial))
    refine Wp.bind (Wp.lift (fun _ _ => ?_) (fun _ _ => trivial))
    refine Wp.bind (Wp.lift (fun _ _ => ?_) (fun _ _ => trivial))
    refine Wp.bind ((wp_prepareFileSet_header _ _ _ _ _ _ d).mono ?_ (fun _ _ h => h) (fun _ h => h))
    exact fun job t hjob => Wp.pure ⟨rfl, rfl, rfl, rfl, hjob⟩
  exact hprepare.result (fun _ _ => trivial) h

/-! ### The start -/

/-- What every load, completed or not, leaves as it is. -/
structure Loaded (s t : ServiceState) : Prop where
  rootFile : t.rootFile = s.rootFile
  registryScopeFile : t.registryScopeFile = s.registryScopeFile
  commits : t.commits = s.commits
  log : t.log = s.log
  activeJob : t.activeJob = s.activeJob ∨ t.activeJob = none
  roots : t.roots = s.roots ∨ RootRegistry.stored.start s.rootFile = .ok t.roots
  registryScopes : t.registryScopes = s.registryScopes ∨
    RegistryScopeRegistry.stored.start s.registryScopeFile = .ok t.registryScopes
  generationFile : GenerationRegistry.found t.generationFile
    = GenerationRegistry.found s.generationFile
  registry : t.registry = s.registry ∨
    ∃ scopes, RegistryScopeRegistry.stored.start s.registryScopeFile = .ok scopes ∧
      RegistryStore.Leads scopes s.registry t.registry

/-- What a completed load has found. -/
structure Started (s t : ServiceState) : Prop extends Loaded s t where
  loadedRoots : RootRegistry.stored.start s.rootFile = .ok t.roots
  loadedScopes : RegistryScopeRegistry.stored.start s.registryScopeFile = .ok t.registryScopes
  generations : GenerationRegistry.found t.generationFile = some t.generations
  noJob : t.activeJob = none
  hive : s.registry.outcome t.registryScopes = some t.registry.hive
  accepted : GenerationRegistry.found t.registry.generations = some t.registry.accepted
  transaction : t.registry.transaction = ⟨none, none, none⟩

theorem wp_loadServiceState (s : ServiceState) :
    Wp Anything loadServiceState (fun _ t => Started s t) (fun _ t => Loaded s t)
      (fun t => Loaded s t) s := by
  have hsame : Loaded s s := ⟨rfl, rfl, rfl, rfl, .inl rfl, .inl rfl, .inl rfl, rfl, .inl rfl⟩
  unfold loadServiceState
  refine Wp.bind (Wp.look (Wp.bind (Wp.lift ?_ fun _ _ => hsame)))
  intro roots hroots
  refine Wp.bind (Wp.assign (Wp.bind (Wp.part ?_)))
  refine (GenerationRegistry.wp_load s.generationFile).mono ?_ ?_ ?_
  · rintro generations file ⟨hfound, hfile⟩
    have hloaded : GenerationRegistry.found file = GenerationRegistry.found s.generationFile :=
      hfile.trans hfound.symm
    refine Wp.bind (Wp.assign (Wp.bind (Wp.look (Wp.bind (Wp.lift ?_ fun _ _ => ?_)))))
    case refine_2 => exact ⟨rfl, rfl, rfl, rfl, .inl rfl, .inr hroots, .inl rfl, hloaded, .inl rfl⟩
    intro scopes hscopes
    refine Wp.bind (Wp.assign (Wp.bind (Wp.part ?_)))
    refine (wp_recoverRegistryState scopes s.registry).mono ?_ ?_ ?_
    · rintro _ store ⟨⟨hhive, hhive'⟩, haccepted, haccepted', htransaction⟩
      exact Wp.assign {
        rootFile := rfl
        registryScopeFile := rfl
        commits := rfl
        log := rfl
        activeJob := .inr rfl
        roots := .inr hroots
        registryScopes := .inr hscopes
        generationFile := hloaded
        registry := .inr ⟨scopes, hscopes, hhive'.trans hhive.symm, haccepted'.trans haccepted.symm⟩
        loadedRoots := hroots
        loadedScopes := hscopes
        generations := hfile
        noJob := rfl
        hive := hhive
        accepted := haccepted'
        transaction := htransaction }
    · rintro e store ⟨-, hleads⟩
      exact ⟨rfl, rfl, rfl, rfl, .inl rfl, .inr hroots, .inr hscopes, hloaded,
        .inr ⟨scopes, hscopes, hleads⟩⟩
    · rintro store hleads
      exact ⟨rfl, rfl, rfl, rfl, .inl rfl, .inr hroots, .inr hscopes, hloaded,
        .inr ⟨scopes, hscopes, hleads⟩⟩
  · rintro e file ⟨-, hfile⟩
    exact ⟨rfl, rfl, rfl, rfl, .inl rfl, .inr hroots, .inl rfl, hfile, .inl rfl⟩
  · intro file hfile
    exact ⟨rfl, rfl, rfl, rfl, .inl rfl, .inr hroots, .inl rfl, hfile, .inl rfl⟩

/-- The records that the ids of the jobs name. -/
def jobRecords (jobs : List String) : List (String × GenerationRecord) :=
  jobs.filterMap generationFromJobId

def acceptAll (registry : GenerationRegistry) :
    List (String × GenerationRecord) → Result GenerationRegistry
  | [] => .ok registry
  | (rootId, record) :: records => do acceptAll (← registry.accept rootId record) records

theorem wp_replayCommitted (jobs : List String) (recovered : Bool) (s : ServiceState) :
    Wp Anything (replayCommitted recovered jobs)
      (fun replayed t => ∃ generations,
        acceptAll s.generations (jobRecords jobs) = .ok generations ∧
        t = { s with generations } ∧ (replayed = (recovered || !(jobRecords jobs).isEmpty)))
      (fun e t => acceptAll s.generations (jobRecords jobs) = .error e ∧
        ∃ generations, t = { s with generations })
      (fun _ => False) s := by
  induction jobs generalizing recovered s with
  | nil => exact Wp.pure ⟨s.generations, rfl, rfl, by simp [jobRecords]⟩
  | cons jobId jobs ih =>
    unfold replayCommitted
    cases hjob : generationFromJobId jobId with
    | none =>
      have hrecords : jobRecords (jobId :: jobs) = jobRecords jobs := by simp [jobRecords, hjob]
      rw [hrecords]
      exact ih recovered s
    | some named =>
      obtain ⟨rootId, record⟩ := named
      have hrecords : jobRecords (jobId :: jobs) = (rootId, record) :: jobRecords jobs := by
        simp [jobRecords, hjob]
      rw [hrecords]
      refine Wp.bind (Wp.look (Wp.bind (Wp.lift ?_ fun e he => ?_)))
      case refine_2 => exact ⟨by simp [acceptAll, he], s.generations, rfl⟩
      intro generations hgenerations
      have hall : acceptAll s.generations ((rootId, record) :: jobRecords jobs)
          = acceptAll generations (jobRecords jobs) := by simp [acceptAll, hgenerations]
      rw [hall]
      refine Wp.bind (Wp.assign ((ih true { s with generations }).mono ?_ ?_ fun _ h => h))
      · rintro replayed t ⟨all, hok, rfl, hreplayed⟩
        exact ⟨all, hok, rfl, by simp [hreplayed]⟩
      · rintro e t ⟨herr, all, rfl⟩
        exact ⟨herr, all, rfl⟩

/-- The ends of the replay. -/
inductive Replayed (jobs : List String) (s : ServiceState) :
    Outcome MaintenanceError Unit → ServiceState → Prop where
  | refused {e : MaintenanceError} (generations : GenerationRegistry) :
      acceptAll s.generations (jobRecords jobs) = .error e →
      Replayed jobs s (.error e) { s with generations }
  | unsaved {result : Outcome MaintenanceError Unit} (generations : GenerationRegistry)
      (file : ServiceFile) :
      acceptAll s.generations (jobRecords jobs) = .ok generations → result.isOk = false →
      (file = s.generationFile ∨
        ∃ bytes, generations.encode = .ok bytes ∧ s.generationFile.Replaced bytes file) →
      Replayed jobs s result { s with generations, generationFile := file }
  | unchanged : jobRecords jobs = [] → Replayed jobs s (.ok ()) s
  | saved (generations : GenerationRegistry) (bytes : Bytes) :
      acceptAll s.generations (jobRecords jobs) = .ok generations →
      generations.encode = .ok bytes →
      Replayed jobs s (.ok ()) { s with generations, generationFile := ⟨some bytes, none, none⟩ }

theorem wp_replayGenerations (jobs : List String) (s : ServiceState) :
    Wp Anything (replayGenerations jobs) (fun _ t => Replayed jobs s (.ok ()) t)
      (fun e t => Replayed jobs s (.error e) t) (fun t => Replayed jobs s .crashed t) s := by
  unfold replayGenerations
  refine Wp.bind ((wp_replayCommitted jobs false s).mono ?_ ?_ fun _ h => h.elim)
  · rintro replayed t ⟨generations, hall, rfl, hreplayed⟩
    cases hrecords : jobRecords jobs with
    | nil =>
      rw [hrecords] at hall hreplayed
      obtain rfl := Except.ok.inj hall
      obtain rfl : replayed = false := by simpa using hreplayed
      exact Wp.pure (.unchanged hrecords)
    | cons named records =>
      rw [hrecords] at hreplayed
      obtain rfl : replayed = true := by simpa using hreplayed
      refine Wp.bind (Wp.look (Wp.part ?_))
      refine (generations.wp_save s.generationFile).mono ?_ ?_ ?_
      · rintro _ file ⟨bytes, hbytes, rfl⟩
        exact .saved generations bytes hall hbytes
      · rintro e file (⟨rfl, -⟩ | ⟨-, hreplaced⟩)
        · exact .unsaved generations _ hall rfl (.inl rfl)
        · exact .unsaved generations file hall rfl (.inr hreplaced)
      · intro file hreplaced
        exact .unsaved generations file hall rfl (.inr hreplaced)
  · rintro e t ⟨herr, generations, rfl⟩
    exact .refused generations herr

/-! ### One step -/

/-- The ends of a start that does not get as far as serving requests. -/
inductive StartFailed (policy : Policy) (policyReady : Result Unit) (recovery : Schedule Intrusion)
    (d : Daemon) : ServiceState → Disk → Prop where
  | loading {s : ServiceState} : Loaded d.service s →
      StartFailed policy policyReady recovery d s d.disk
  | recovering {s : ServiceState} {outcome : Outcome MaintenanceError RecoveryResult} {disk : Disk}
      {rest : Schedule Intrusion} : Started d.service s →
      recoverJobs policy policyReady d.disk recovery = (outcome, disk, rest) →
      outcome.isOk = false → StartFailed policy policyReady recovery d s disk
  | replaying {s t : ServiceState} {result : RecoveryResult} {disk : Disk}
      {rest : Schedule Intrusion} {outcome : Outcome MaintenanceError Unit} : Started d.service s →
      recoverJobs policy policyReady d.disk recovery = (.ok result, disk, rest) →
      Replayed result.committedJobs s outcome t → outcome.isOk = false →
      StartFailed policy policyReady recovery d t disk

/-- What a step does where it does anything. -/
inductive Daemon.Stepped (policy : Policy) (d : Daemon) : Action → Daemon → Prop where
  | idle {action : Action} : Stepped policy d action d
  | request {call : Call} {request : Request} {spawned : Bool} {sch : Schedule Empty}
      {outcome : Outcome MaintenanceError Dispatch} {s : ServiceState} : d.running = true →
      Processed call d.service d.preparing.isSome request outcome s →
      Stepped policy d (.request call request spawned sch) (d.afterRequest s spawned outcome)
  | released {sch : Schedule Empty} {inFlight : PrepareInFlight} : d.running = true →
      d.preparing = some inFlight → Stepped policy d (.wake sch) { d with preparing := none }
  | finished {sch : Schedule Empty} {inFlight : PrepareInFlight} {outcome : PreparedOutcome}
      {result : Outcome MaintenanceError Response} {s : ServiceState} : d.running = true →
      d.preparing = some inFlight → inFlight.receiver = .sent (.ok outcome) →
      Finished outcome d.service result s → Stepped policy d (.wake sch) (d.afterPrepare s result)
  | prepareEnded {call : PrepareCall} {sch rest : Schedule Intrusion} {work : PrepareWork}
      {serial : Nat} {outcome : Outcome MaintenanceError PreparedOutcome} {disk : Disk} :
      d.preparing = some ⟨work, serial, .empty⟩ →
      runPrepare call policy work serial d.disk sch = (outcome, disk, rest) →
      Stepped policy d (.prepareEnds call sch)
        { d with disk, preparing := some ⟨work, serial, .deliver outcome⟩ }
  | commitEnded {worker : Nat} {sch rest : Schedule Intrusion} {job : PreparedJob} {serial : Nat}
      {preparedBy committedBy : String} {outcome : Outcome MaintenanceError CommitResult}
      {disk : Disk} :
      d.service.commits[worker]? = some ⟨job, serial, preparedBy, committedBy, .empty⟩ →
      commitFileSet job d.disk sch = (outcome, disk, rest) →
      Stepped policy d (.commitEnds worker sch)
        { d with
          disk
          service := { d.service with
            commits := d.service.commits.set worker
              ⟨job, serial, preparedBy, committedBy, .deliver outcome⟩ } }
  | stopped : Stepped policy d .stop d.halt
  | startFailed {loading replaying : Schedule Empty} {policyReady : Result Unit}
      {recovery : Schedule Intrusion} {s : ServiceState} {disk : Disk} : d.running = false →
      StartFailed policy policyReady recovery d s disk →
      Stepped policy d (.start loading policyReady recovery replaying) { d with service := s, disk }
  | started {loading replaying : Schedule Empty} {policyReady : Result Unit}
      {recovery rest : Schedule Intrusion} {s t : ServiceState} {disk : Disk}
      {result : RecoveryResult} : d.running = false → Started d.service s →
      recoverJobs policy policyReady d.disk recovery = (.ok result, disk, rest) →
      Replayed result.committedJobs s (.ok ()) t →
      Stepped policy d (.start loading policyReady recovery replaying)
        { d with service := t, disk, running := true }
  | outside {path : String} {entry : Option RootEntry} {node : TargetPath → Option Node} :
      Stepped policy d (.outside path entry node)
        { d with disk := d.disk.setRoot path { d.disk.root path with entry, node } }

theorem Daemon.serveWake_stepped {policy : Policy} {d : Daemon} (hrunning : d.running = true)
    (sch : Schedule Empty) : d.Stepped policy (.wake sch) (d.serveWake sch) := by
  unfold serveWake
  cases hpreparing : d.preparing with
  | none => exact .idle
  | some inFlight =>
    cases hreceiver : inFlight.receiver with
    | empty => simp only [hreceiver]; exact .idle
    | disconnected => simp only [hreceiver]; exact .released hrunning hpreparing
    | sent result =>
      cases result with
      | error e => simp only [hreceiver]; exact .released hrunning hpreparing
      | ok outcome =>
        simp only [hreceiver]
        rcases hr : finishPrepare outcome d.service sch with ⟨result, s, rest⟩
        exact .finished hrunning hpreparing hreceiver (finished_of_run hr)

theorem Daemon.recoverServiceState_stepped {policy : Policy} {d : Daemon}
    (hrunning : d.running = false) (loading replaying : Schedule Empty) (policyReady : Result Unit)
    (recovery : Schedule Intrusion) :
    d.Stepped policy (.start loading policyReady recovery replaying)
      (d.recoverServiceState policy loading policyReady recovery replaying) := by
  unfold recoverServiceState
  rcases hload : loadServiceState d.service loading with ⟨outcome, s, rest⟩
  have hloaded := (wp_loadServiceState d.service).result (fun _ _ => trivial) hload
  cases outcome with
  | error e => exact .startFailed hrunning (.loading hloaded)
  | crashed => exact .startFailed hrunning (.loading hloaded)
  | ok _ =>
    rcases hrecover : recoverJobs policy policyReady d.disk recovery with ⟨outcome, disk, rest⟩
    cases outcome with
    | error e => exact .startFailed hrunning (.recovering hloaded hrecover rfl)
    | crashed => exact .startFailed hrunning (.recovering hloaded hrecover rfl)
    | ok result =>
      simp only
      rcases hreplay : replayGenerations result.committedJobs s replaying with ⟨outcome, t, rest⟩
      have hreplayed := (wp_replayGenerations _ s).result (fun _ _ => trivial) hreplay
      cases outcome with
      | error e => exact .startFailed hrunning (.replaying hloaded hrecover hreplayed rfl)
      | crashed => exact .startFailed hrunning (.replaying hloaded hrecover hreplayed rfl)
      | ok _ => exact .started hrunning hloaded hrecover hreplayed

theorem Daemon.step_stepped (policy : Policy) (d : Daemon) (action : Action) :
    d.Stepped policy action (d.step policy action) := by
  cases action with
  | request call request spawned sch =>
    simp only [step]
    split
    · rename_i hrunning
      unfold serveRequest
      rcases hr : processRequest call request d.preparing.isSome d.service sch with ⟨o, s, rest⟩
      exact .request hrunning (processed_of_run hr)
    · exact .idle
  | wake sch =>
    simp only [step]
    split
    · rename_i hrunning
      exact serveWake_stepped hrunning sch
    · exact .idle
  | prepareEnds call sch =>
    simp only [step, endPrepare]
    split
    · rename_i work serial hpreparing
      rcases hr : runPrepare call policy work serial d.disk sch with ⟨o, disk, rest⟩
      exact .prepareEnded hpreparing hr
    · exact .idle
  | commitEnds worker sch =>
    simp only [step, endCommit]
    split
    · rename_i job serial preparedBy committedBy hcommit
      rcases hr : commitFileSet job d.disk sch with ⟨o, disk, rest⟩
      exact .commitEnded hcommit hr
    · exact .idle
  | stop => exact .stopped
  | start loading policyReady recovery replaying =>
    simp only [step]
    split
    · exact .idle
    · rename_i hrunning
      exact recoverServiceState_stepped (by simpa using hrunning) loading replaying policyReady recovery
  | outside path entry node => exact .outside

/-- What a step keeps, as it goes through, a run keeps. -/
theorem Daemon.Runs.keeps {policy : Policy} {gate : Daemon → Action → Prop} {I : Daemon → Prop}
    {d t : Daemon} (h : Runs policy gate d t) (hd : I d)
    (hstep : ∀ d action t, gate d action → I d → Stepped policy d action t → I t) : I t := by
  induction h with
  | refl => exact hd
  | tail _ last ih =>
    obtain ⟨action, hgate, rfl⟩ := last
    exact hstep _ action _ hgate ih (step_stepped policy _ action)

end Steps

end Se7en.Windows
