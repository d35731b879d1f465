import Mathlib.Data.List.Basic
import Mathlib.Logic.Relation
set_option autoImplicit false

/-! The stop flags of `windows.rs` between the loop of `serve_requests`, the control handler and
the commit workers. -/

namespace Se7en.Windows.ServeLoop

/-- `service_control_handler`. -/
inductive HandlerPlace where
  | returned
  /-- STOP_REQUESTED has been stored. -/
  | stored
  /-- COMMITTING was loaded as false. -/
  | signalling
  deriving DecidableEq, Repr

/-- The commit thread. A panic unwinds past the sending of the result. -/
inductive WorkerPlace where
  | committing
  | ended
  | sent
  | unwinding
  /-- `CommitActivity::drop` has stored COMMITTING. -/
  | dropped
  | signalling
  | finished
  deriving DecidableEq, Repr

structure Worker where
  place : WorkerPlace
  /-- What the receiver finds: a result, or that the sender is gone. -/
  answered : Bool
  deriving DecidableEq, Repr

inductive ActiveJob where
  | prepared
  /-- The worker with this number. -/
  | committing (number : Nat)
  | completed
  deriving DecidableEq, Repr

/-- The thread of `serve_requests`. -/
inductive MainPlace where
  | check
  /-- STOP_REQUESTED was loaded as true. -/
  | checkCommitting
  | nextEvent
  | idle
  /-- The CommitJob arm has seen no stop and holds the prepared job. -/
  | commitJob
  /-- COMMITTING has been stored for a worker. -/
  | spawn
  | applyRegistrySet
  /-- COMMITTING has been stored for the registry values. -/
  | applying
  | applied
  | applySignalling
  | respond
  | exited
  deriving DecidableEq, Repr

structure Loop where
  stopRequested : Bool := false
  committing : Bool := false
  stopEvent : Bool := false
  handler : HandlerPlace := .returned
  main : MainPlace := .check
  /-- The preparation in flight, and whether its worker has a result. -/
  preparing : Option Bool := none
  activeJob : Option ActiveJob := none
  workers : List Worker := []
  deriving DecidableEq, Repr

inductive LoopRequest where
  /-- A request that leaves the flags and the job alone. -/
  | other
  | prepareFileSet (verified : Bool)
  | commitJob (authorized : Bool)
  | applyRegistrySet (verified : Bool)
  deriving DecidableEq, Repr

inductive LoopEvent where
  | stop
  | wake (finished : Bool)
  | idle
  | request (request : LoopRequest)
  | failed
  deriving DecidableEq, Repr

inductive Action where
  | control
  | controlLoads
  | controlSignals
  | worker (number : Nat) (panics : Bool)
  | prepareEnds
  | check
  | checkCommitting
  | event (event : LoopEvent)
  | idle
  | commitStores
  | spawn (started : Bool)
  | applyStores
  | applyEnds
  | applyLoads
  | applySignals
  | respond (written : Bool)
  deriving DecidableEq, Repr

namespace Loop

/-- `refresh_active_job`. -/
def refreshActiveJob (s : Loop) : Option ActiveJob :=
  match s.activeJob with
  | some (.committing number) =>
    if (s.workers[number]?).any (·.answered) then some .completed else s.activeJob
  | job => job

/-- A completed job makes room for the next one. -/
def withoutCompleted (job : Option ActiveJob) : Option ActiveJob :=
  if job = some .completed then none else job

def processRequest (s : Loop) : LoopRequest → Loop
  | .other => { s with main := .respond, activeJob := s.refreshActiveJob }
  | .prepareFileSet verified =>
    if s.preparing.isSome then { s with main := .respond }
    else
      let job := withoutCompleted s.refreshActiveJob
      if job.isSome || !verified then { s with main := .respond, activeJob := job }
      else { s with main := .check, activeJob := job, preparing := some false }
  | .commitJob authorized =>
    if s.preparing.isSome then { s with main := .respond }
    else
      let job := s.refreshActiveJob
      if !authorized || s.stopRequested || job ≠ some .prepared then
        { s with main := .respond, activeJob := job }
      else { s with main := .commitJob, activeJob := job }
  | .applyRegistrySet verified =>
    if s.preparing.isSome then { s with main := .respond }
    else
      let job := withoutCompleted s.refreshActiveJob
      if job.isSome || s.stopRequested || !verified then
        { s with main := .respond, activeJob := job }
      else { s with main := .applyRegistrySet, activeJob := job }

def processEvent (s : Loop) : LoopEvent → Option Loop
  | .stop => if s.stopEvent then some { s with main := .exited } else none
  | .wake finished =>
    match s.preparing with
    | some true =>
      some { s with
        main := .respond
        preparing := none
        activeJob := if finished then some .prepared else s.activeJob }
    | _ => some { s with main := .check }
  | .idle => some { s with main := .idle }
  | .request request => some (s.processRequest request)
  | .failed => some { s with main := .exited }

/-- The next step of a commit thread: what it does to the flags, and itself. -/
def workerStep (s : Loop) (worker : Worker) (panics : Bool) : Option (Loop × Worker) :=
  match worker.place with
  | .committing => some (s, { worker with place := if panics then .unwinding else .ended })
  | .ended => some (s, { place := .sent, answered := true })
  | .sent | .unwinding => some ({ s with committing := false }, { worker with place := .dropped })
  | .dropped =>
    some (s, if s.stopRequested then { worker with place := .signalling }
      else { place := .finished, answered := true })
  | .signalling => some ({ s with stopEvent := true }, { place := .finished, answered := true })
  | .finished => none

def step (s : Loop) : Action → Option Loop
  | .control =>
    if s.handler = .returned then some { s with stopRequested := true, handler := .stored } else none
  | .controlLoads =>
    if s.handler = .stored then
      some { s with handler := if s.committing then .returned else .signalling }
    else none
  | .controlSignals =>
    if s.handler = .signalling then some { s with stopEvent := true, handler := .returned } else none
  | .worker number panics => do
    let worker ← s.workers[number]?
    let (s', worker') ← s.workerStep worker panics
    some { s' with workers := s.workers.set number worker' }
  | .prepareEnds =>
    if s.preparing = some false then some { s with preparing := some true } else none
  | .check =>
    if s.main = .check then
      some { s with main := if s.stopRequested then .checkCommitting else .nextEvent }
    else none
  | .checkCommitting =>
    if s.main = .checkCommitting then
      some { s with main := if !s.committing && s.preparing.isNone then .exited else .nextEvent }
    else none
  | .event event => if s.main = .nextEvent then s.processEvent event else none
  | .idle =>
    if s.main = .idle then
      some { s with main := if s.committing || s.preparing.isSome then .check else .exited }
    else none
  | .commitStores =>
    if s.main = .commitJob then some { s with main := .spawn, committing := true } else none
  | .spawn started =>
    if s.main = .spawn then
      if started then
        some { s with
          main := .respond
          activeJob := some (.committing s.workers.length)
          workers := s.workers ++ [⟨.committing, false⟩] }
      else some { s with main := .respond, committing := false }
    else none
  | .applyStores =>
    if s.main = .applyRegistrySet then some { s with main := .applying, committing := true } else none
  | .applyEnds =>
    if s.main = .applying then some { s with main := .applied, committing := false } else none
  | .applyLoads =>
    if s.main = .applied then
      some { s with main := if s.stopRequested then .applySignalling else .respond }
    else none
  | .applySignals =>
    if s.main = .applySignalling then some { s with main := .respond, stopEvent := true } else none
  | .respond written =>
    if s.main = .respond then some { s with main := if written then .check else .exited } else none

/-- Interleavings whose steps `gate` admits. -/
abbrev Runs (gate : Loop → Action → Prop) : Loop → Loop → Prop :=
  Relation.ReflTransGen fun s t => ∃ action, gate s action ∧ s.step action = some t

/-! ### What the loop is for -/

/-- The loop does not end under a call of `commit_file_set`. -/
def Waits (s : Loop) : Prop := s.main = .exited → ∀ worker ∈ s.workers, worker.place ≠ .committing

/-- No thread is committing, or is still to drop its CommitActivity. -/
def Quiet (s : Loop) : Prop :=
  (∀ worker ∈ s.workers, worker.place = .finished) ∧
    s.main ≠ .spawn ∧ s.main ≠ .applying ∧ s.main ≠ .applied ∧ s.main ≠ .applySignalling

/-- The check at the top of the loop ends it. -/
def NextCheckBreaks (s : Loop) : Prop :=
  s.stopRequested = true ∧ s.committing = false ∧ s.preparing = none

/-- A stop that has been requested is not forgotten. -/
def Stops (s : Loop) : Prop :=
  s.stopRequested = true → s.handler = .returned → s.Quiet → s.stopEvent = true ∨ s.NextCheckBreaks

/-- When COMMITTING is stored for a commit, no stop has been decided on the old value, and every
earlier commit thread has come to its end; and the pipe does not fail under a commit. -/
def Admits (s : Loop) : Action → Prop
  | .commitStores => s.handler ≠ .signalling ∧ s.stopEvent = false ∧
      ∀ worker ∈ s.workers, worker.place = .finished
  | .event .failed | .respond false => ∀ worker ∈ s.workers, worker.place ≠ .committing
  | _ => True

/-! ### What every interleaving keeps -/

/-- Who is still to see a stop that finds COMMITTING stored. -/
def Holds (s : Loop) : Prop :=
  (∃ worker ∈ s.workers, worker.place = .committing ∨ worker.place = .ended ∨
    worker.place = .sent ∨ worker.place = .unwinding) ∨ s.main = .spawn ∨ s.main = .applying

structure Sound (s : Loop) : Prop where
  /-- A commit thread without an answer is the active job. -/
  unanswered : ∀ number worker, s.workers[number]? = some worker → worker.answered = false →
    s.activeJob = some (.committing number)
  committing : ∀ worker ∈ s.workers, worker.place = .committing → worker.answered = false
  preparing : s.preparing.isSome = true → s.activeJob = none
  commitJob : s.main = .commitJob ∨ s.main = .spawn →
    s.activeJob = some .prepared ∧ s.preparing = none
  applying : s.main = .applyRegistrySet ∨ s.main = .applying ∨ s.main = .applied ∨
    s.main = .applySignalling → s.activeJob = none ∧ s.preparing = none
  held : s.committing = true → s.Holds
  stops : s.stopRequested = true → s.handler ≠ .returned ∨ s.stopEvent = true ∨ ¬ s.Quiet ∨
    s.NextCheckBreaks ∧ (s.main = .respond ∨ s.main = .check ∨ s.main = .checkCommitting ∨
      s.main = .exited)

theorem sound_start : Sound {} where
  unanswered := by simp
  committing := by simp
  preparing := by simp
  commitJob := by simp
  applying := by simp
  held := by simp
  stops := by simp

variable {s t : Loop} {action : Action}

theorem Holds.not_quiet (h : s.Holds) : ¬ s.Quiet := by
  grind -linarith [Holds, Quiet]

theorem mem_or_eq_of_set {workers : List Worker} {number : Nat} {worker : Worker}
    (h : workers[number]? = some worker) (worker' : Worker) :
    ∀ other ∈ workers, other ∈ workers.set number worker' ∨ other = worker := by
  intro other hother
  obtain ⟨i, hi, rfl⟩ := List.getElem_of_mem hother
  grind -linarith [List.mem_iff_getElem]

theorem Sound.workerStep {number : Nat} {worker worker' : Worker} {panics : Bool} (hs : s.Sound)
    (hworker : s.workers[number]? = some worker)
    (h : s.workerStep worker panics = some (t, worker')) :
    Sound { t with workers := s.workers.set number worker' } := by
  obtain ⟨hnumber, hget⟩ := List.getElem?_eq_some_iff.1 hworker
  have hmem : worker ∈ s.workers := hget ▸ List.getElem_mem hnumber
  have hmem' : worker' ∈ s.workers.set number worker' := List.mem_set hnumber worker'
  have hothers := mem_or_eq_of_set hworker worker'
  simp only [Loop.workerStep] at h
  cases hplace : worker.place <;> simp only [hplace] at h <;> cases h <;> constructor <;>
    grind -linarith [Holds, Quiet, NextCheckBreaks, Sound, List.mem_or_eq_of_mem_set]

theorem Sound.refreshActiveJob (hs : s.Sound) {number : Nat} {worker : Worker}
    (hworker : s.workers[number]? = some worker) (hanswered : worker.answered = false) :
    s.refreshActiveJob = some (.committing number) := by
  have := hs.unanswered number worker hworker hanswered
  simp [Loop.refreshActiveJob, this, hworker, hanswered]

theorem refreshActiveJob_none (h : s.activeJob = none) : s.refreshActiveJob = none := by
  simp [Loop.refreshActiveJob, h]

/-- What the thread of the loop does between two events leaves the flags and the workers alone. -/
theorem Sound.answered (hs : s.Sound) (hplace : s.main = .nextEvent) {main : MainPlace}
    {preparing : Option Bool} {job : Option ActiveJob}
    (hmain : main ≠ .spawn ∧ main ≠ .applying ∧ main ≠ .applied ∧ main ≠ .applySignalling)
    (hjob : ∀ number worker, s.workers[number]? = some worker → worker.answered = false →
      job = some (.committing number))
    (hpreparing : preparing.isSome = true → job = none)
    (hcommit : main = .commitJob → job = some .prepared ∧ preparing = none)
    (happly : main = .applyRegistrySet → job = none ∧ preparing = none) :
    Sound { s with main, preparing, activeJob := job } := by
  constructor <;> grind -linarith [Holds, Quiet, NextCheckBreaks, Sound]

theorem Sound.processRequest {request : LoopRequest} (hs : s.Sound) (hplace : s.main = .nextEvent) :
    (s.processRequest request).Sound := by
  have hrefresh := @Sound.refreshActiveJob s hs
  have hnone := @refreshActiveJob_none s
  have hpreparing := hs.preparing
  cases request with
  | other => exact hs.answered hplace (by simp) (by grind) (by grind) (by simp) (by simp)
  | prepareFileSet verified =>
    simp only [Loop.processRequest]
    split
    · exact hs.answered hplace (by simp) hs.unanswered hpreparing (by simp) (by simp)
    · split <;> apply hs.answered hplace <;> grind -linarith [withoutCompleted, Option.not_isSome_iff_eq_none]
  | commitJob authorized =>
    simp only [Loop.processRequest]
    split
    · exact hs.answered hplace (by simp) hs.unanswered hpreparing (by simp) (by simp)
    · split <;> apply hs.answered hplace <;> grind -linarith [Option.not_isSome_iff_eq_none]
  | applyRegistrySet verified =>
    simp only [Loop.processRequest]
    split
    · exact hs.answered hplace (by simp) hs.unanswered hpreparing (by simp) (by simp)
    · split <;> apply hs.answered hplace <;> grind -linarith [withoutCompleted, Option.not_isSome_iff_eq_none]

theorem Sound.processEvent {event : LoopEvent} (hs : s.Sound) (hplace : s.main = .nextEvent)
    (h : s.processEvent event = some t) : t.Sound := by
  have hpreparing := hs.preparing
  cases event with
  | stop =>
    simp only [Loop.processEvent, Option.ite_none_right_eq_some, Option.some.injEq] at h
    obtain ⟨-, rfl⟩ := h
    exact hs.answered hplace (by simp) hs.unanswered hpreparing (by simp) (by simp)
  | wake finished =>
    simp only [Loop.processEvent] at h
    split at h <;> cases h
    · have hjob := hpreparing (by simp [*])
      apply hs.answered hplace <;> grind -linarith [Sound]
    · exact hs.answered hplace (by simp) hs.unanswered hpreparing (by simp) (by simp)
  | idle | failed =>
    cases h
    exact hs.answered hplace (by simp) hs.unanswered hpreparing (by simp) (by simp)
  | request request =>
    cases h
    exact hs.processRequest hplace

theorem Sound.step (hs : s.Sound) (h : s.step action = some t) : t.Sound := by
  have hheld := hs.held
  have hstops := hs.stops
  cases action with
  | control =>
    simp only [Loop.step, Option.ite_none_right_eq_some, Option.some.injEq] at h
    obtain ⟨hplace, rfl⟩ := h
    exact { hs with stops := by simp }
  | controlLoads =>
    simp only [Loop.step, Option.ite_none_right_eq_some, Option.some.injEq] at h
    obtain ⟨hplace, rfl⟩ := h
    refine { hs with stops := ?_ }
    intro _
    cases hcommitting : s.committing with
    | true => exact .inr (.inr (.inl (hs.held hcommitting).not_quiet))
    | false => simp
  | controlSignals =>
    simp only [Loop.step, Option.ite_none_right_eq_some, Option.some.injEq] at h
    obtain ⟨hplace, rfl⟩ := h
    exact { hs with stops := by simp }
  | worker number panics =>
    obtain ⟨worker, hworker, h⟩ := Option.bind_eq_some_iff.1 h
    obtain ⟨⟨s', worker'⟩, hstep, h⟩ := Option.bind_eq_some_iff.1 h
    cases h
    exact hs.workerStep hworker hstep
  | prepareEnds =>
    simp only [Loop.step, Option.ite_none_right_eq_some, Option.some.injEq] at h
    obtain ⟨hplace, rfl⟩ := h
    have := hs.preparing
    have := hs.commitJob
    have := hs.applying
    constructor <;> grind -linarith [Holds, Quiet, NextCheckBreaks, Sound]
  | check =>
    simp only [Loop.step, Option.ite_none_right_eq_some, Option.some.injEq] at h
    obtain ⟨hplace, rfl⟩ := h
    constructor <;> grind -linarith [Holds, Quiet, NextCheckBreaks, Sound]
  | checkCommitting =>
    simp only [Loop.step, Option.ite_none_right_eq_some, Option.some.injEq] at h
    obtain ⟨hplace, rfl⟩ := h
    constructor <;> grind -linarith [Holds, Quiet, NextCheckBreaks, Sound]
  | event event =>
    simp only [Loop.step, Option.ite_none_right_eq_some] at h
    obtain ⟨hplace, h⟩ := h
    exact hs.processEvent hplace h
  | idle =>
    simp only [Loop.step, Option.ite_none_right_eq_some, Option.some.injEq] at h
    obtain ⟨hplace, rfl⟩ := h
    constructor <;> grind -linarith [Holds, Quiet, NextCheckBreaks, Sound]
  | commitStores =>
    simp only [Loop.step, Option.ite_none_right_eq_some, Option.some.injEq] at h
    obtain ⟨hplace, rfl⟩ := h
    constructor <;> grind -linarith [Holds, Quiet, NextCheckBreaks, Sound]
  | spawn started =>
    simp only [Loop.step, Option.ite_none_right_eq_some] at h
    obtain ⟨hplace, h⟩ := h
    split at h <;> cases h
    · have hmem : ⟨.committing, false⟩ ∈ s.workers ++ [(⟨.committing, false⟩ : Worker)] := by simp
      constructor <;> grind -linarith [Holds, Quiet, NextCheckBreaks, Sound]
    · constructor <;> grind -linarith [Holds, Quiet, NextCheckBreaks, Sound]
  | applyStores =>
    simp only [Loop.step, Option.ite_none_right_eq_some, Option.some.injEq] at h
    obtain ⟨hplace, rfl⟩ := h
    constructor <;> grind -linarith [Holds, Quiet, NextCheckBreaks, Sound]
  | applyEnds =>
    simp only [Loop.step, Option.ite_none_right_eq_some, Option.some.injEq] at h
    obtain ⟨hplace, rfl⟩ := h
    constructor <;> grind -linarith [Holds, Quiet, NextCheckBreaks, Sound]
  | applyLoads =>
    simp only [Loop.step, Option.ite_none_right_eq_some, Option.some.injEq] at h
    obtain ⟨hplace, rfl⟩ := h
    constructor <;> grind -linarith [Holds, Quiet, NextCheckBreaks, Sound]
  | applySignals =>
    simp only [Loop.step, Option.ite_none_right_eq_some, Option.some.injEq] at h
    obtain ⟨hplace, rfl⟩ := h
    constructor <;> grind -linarith [Holds, Quiet, NextCheckBreaks, Sound]
  | respond written =>
    simp only [Loop.step, Option.ite_none_right_eq_some, Option.some.injEq] at h
    obtain ⟨hplace, rfl⟩ := h
    constructor <;> grind -linarith [Holds, Quiet, NextCheckBreaks, Sound]

/-! ### What the admitted interleavings keep -/

/-- No stop passes the commit that COMMITTING has been stored for. -/
structure Covered (s : Loop) : Prop where
  committing : s.committing = true
  handler : s.handler ≠ .signalling
  stopEvent : s.stopEvent = false

structure Guarded (s : Loop) : Prop extends Sound s where
  spawning : s.main = .spawn → s.Covered ∧ ∀ worker ∈ s.workers, worker.place = .finished
  covered : ∀ (number : Nat) (worker : Worker), s.workers[number]? = some worker → worker.place = .committing →
    s.Covered ∧ s.main ≠ .spawn ∧ s.main ≠ .exited ∧
      ∀ (other : Nat) (worker : Worker), s.workers[other]? = some worker → other ≠ number →
        worker.place = .finished

theorem guarded_start : Guarded {} :=
  { sound_start with
    spawning := by simp
    covered := by simp }

theorem Guarded.waits (hs : s.Guarded) : s.Waits := by
  intro hexited worker hworker hplace
  obtain ⟨number, hnumber⟩ := List.mem_iff_getElem?.1 hworker
  exact (hs.covered number worker hnumber hplace).2.2.1 hexited

theorem Sound.stops_of (hs : s.Sound) : s.Stops := by
  intro hstop hhandler hquiet
  rcases hs.stops hstop with h | h | h | ⟨h, -⟩
  · exact absurd hhandler h
  · exact .inl h
  · exact absurd hquiet h
  · exact .inr h

/-- An event leaves the flags and the threads alone. -/
theorem processEvent_eq_some {event : LoopEvent} (h : s.processEvent event = some t) :
    t.committing = s.committing ∧ t.handler = s.handler ∧ t.stopEvent = s.stopEvent ∧
      t.workers = s.workers ∧ t.main ≠ .spawn ∧
      (t.main = .exited → s.stopEvent = true ∨ event = .failed) := by
  cases event with
  | stop | idle | failed => grind -linarith [Loop.processEvent]
  | wake finished => grind -linarith [Loop.processEvent]
  | request request =>
    cases h
    cases request <;> grind -linarith [Loop.processRequest]

/-- While a commit is covered, only its own thread can leave it. -/
theorem Guarded.workerStep {number : Nat} {worker worker' : Worker} {panics : Bool}
    (hs : s.Guarded) (hworker : s.workers[number]? = some worker)
    (h : s.workerStep worker panics = some (t, worker')) :
    Guarded { t with workers := s.workers.set number worker' } := by
  refine { hs.toSound.workerStep hworker h with spawning := ?_, covered := ?_ }
  · have hspawning := hs.spawning
    simp only [Loop.workerStep] at h
    cases hplace : worker.place <;> simp only [hplace] at h <;> cases h <;>
      grind -linarith [Covered, List.mem_of_getElem?]
  · have hcovered := hs.covered
    simp only [Loop.workerStep] at h
    cases hplace : worker.place <;> simp only [hplace] at h <;> cases h <;> grind -linarith [Covered]

theorem Guarded.step (hs : s.Guarded) (hgate : s.Admits action) (h : s.step action = some t) :
    t.Guarded := by
  have hsound := hs.toSound.step h
  have hspawning := hs.spawning
  have hcovered := hs.covered
  have hunanswered := hs.unanswered
  have hcommitting := hs.committing
  have hpreparing := hs.preparing
  have happlying := hs.applying
  cases action with
  | worker number panics =>
    obtain ⟨worker, hworker, h⟩ := Option.bind_eq_some_iff.1 h
    obtain ⟨⟨s', worker'⟩, hstep, h⟩ := Option.bind_eq_some_iff.1 h
    cases h
    exact hs.workerStep hworker hstep
  | control | controlLoads | controlSignals | prepareEnds | check | checkCommitting | idle
  | commitStores =>
    simp only [Loop.step, Option.ite_none_right_eq_some, Option.some.injEq] at h
    obtain ⟨hplace, rfl⟩ := h
    refine { hsound with spawning := ?_, covered := ?_ } <;> grind -linarith [Covered, Admits, NextCheckBreaks]
  | event event =>
    simp only [Loop.step, Option.ite_none_right_eq_some] at h
    obtain ⟨hplace, h⟩ := h
    have hkept := processEvent_eq_some h
    refine { hsound with spawning := ?_, covered := ?_ } <;> grind -linarith [Covered, Admits]
  | spawn started =>
    simp only [Loop.step, Option.ite_none_right_eq_some] at h
    obtain ⟨hplace, h⟩ := h
    obtain ⟨hcover, hfinished⟩ := hspawning hplace
    split at h <;> cases h
    · refine { hsound with spawning := by simp, covered := ?_ }
      grind -linarith [Covered]
    · refine { hsound with spawning := by simp, covered := ?_ }
      grind -linarith
  | applyStores | applyEnds | applyLoads | applySignals | respond written =>
    simp only [Loop.step, Option.ite_none_right_eq_some, Option.some.injEq] at h
    obtain ⟨hplace, rfl⟩ := h
    refine { hsound with spawning := ?_, covered := ?_ } <;> grind -linarith [Covered, Admits]

/-- However its threads interleave, the service does not forget a stop. -/
theorem Runs.stops {gate : Loop → Action → Prop} (h : Runs gate {} s) : s.Stops := by
  have hsound : s.Sound := by
    induction h with
    | refl => exact sound_start
    | tail _ hstep ih =>
      obtain ⟨action, -, hstep⟩ := hstep
      exact ih.step hstep
  exact hsound.stops_of

theorem Runs.guarded (h : Runs Admits {} s) : s.Guarded := by
  induction h with
  | refl => exact guarded_start
  | tail _ hstep ih =>
    obtain ⟨action, hgate, hstep⟩ := hstep
    exact ih.step hgate hstep

theorem serve_requests_waits (h : Runs Admits {} s) : s.Waits ∧ s.Stops :=
  ⟨h.guarded.waits, h.stops⟩

/-- The interleaving that takes these actions. -/
def follow (gate : Loop → Action → Prop) [∀ s action, Decidable (gate s action)] :
    Loop → List Action → Option Loop
  | s, [] => some s
  | s, action :: rest => if gate s action then s.step action >>= (follow gate · rest) else none

theorem runs_of_follow {gate : Loop → Action → Prop} [∀ s action, Decidable (gate s action)]
    {actions : List Action} (h : follow gate s actions = some t) : Runs gate s t := by
  induction actions generalizing s with
  | nil =>
    cases h
    exact .refl
  | cons action rest ih =>
    simp only [follow, Option.ite_none_right_eq_some] at h
    obtain ⟨hgate, h⟩ := h
    obtain ⟨u, hstep, h⟩ := Option.bind_eq_some_iff.1 h
    exact .head ⟨action, hgate, hstep⟩ (ih h)

instance (s : Loop) (action : Action) : Decidable (s.Admits action) :=
  match action with
  | .commitStores => inferInstanceAs (Decidable (_ ∧ _ ∧ _))
  | .event .failed | .respond false =>
    inferInstanceAs (Decidable (∀ worker ∈ s.workers, worker.place ≠ .committing))
  | .control | .controlLoads | .controlSignals | .worker .. | .prepareEnds | .check
  | .checkCommitting | .event .stop | .event (.wake _) | .event .idle | .event (.request _)
  | .idle | .spawn _ | .applyStores | .applyEnds | .applyLoads | .applySignals | .respond true =>
    inferInstanceAs (Decidable True)

/-- A job is prepared, and its CommitJob request has passed the check for a stop. -/
def untilCommit : List Action :=
  [.check, .event (.request (.prepareFileSet true)), .prepareEnds, .check, .event (.wake true),
    .respond true, .check, .event (.request (.commitJob true))]

/-- The stop comes while the worker commits, and is signalled by its CommitActivity. -/
def stopDuringCommit : List Action :=
  untilCommit ++ [.commitStores, .spawn true, .control, .controlLoads, .respond true, .check,
    .checkCommitting] ++ List.replicate 5 (.worker 0 false) ++ [.event .stop]

theorem serve_requests_waits_sample :
    ∃ s, Runs Admits {} s ∧ s.main = .exited ∧ s.workers = [⟨.finished, true⟩] ∧
      s.Waits ∧ s.Stops := by
  obtain ⟨s, hs⟩ := Option.isSome_iff_exists.1
    (by decide : (follow Admits {} stopDuringCommit).isSome = true)
  have hend : s.main = .exited ∧ s.workers = [⟨.finished, true⟩] := by
    cases hs
    decide
  exact ⟨s, runs_of_follow hs, hend.1, hend.2, serve_requests_waits (runs_of_follow hs)⟩

/-- The handler loads COMMITTING after the CommitJob arm has seen no stop, and before the arm
stores it. -/
def stopBeforeCommit : List Action :=
  untilCommit ++ [.control, .controlLoads, .commitStores, .spawn true, .controlSignals,
    .respond true, .check, .checkCommitting, .event .stop]

theorem serve_requests_exits_under_commit :
    ¬ ∀ s, Runs (fun _ _ => True) {} s → s.Waits ∧ s.Stops := by
  intro h
  obtain ⟨s, hs⟩ := Option.isSome_iff_exists.1
    (by decide : (follow (fun _ _ => True) {} stopBeforeCommit).isSome = true)
  have hwaits := (h s (runs_of_follow hs)).1
  cases hs
  exact hwaits rfl ⟨.committing, false⟩ (by decide) rfl

/-- Without any stop: the first worker drops its CommitActivity when the next job is committing. -/
example : (follow (fun _ _ => True) {} (untilCommit ++ [.commitStores, .spawn true,
    .worker 0 false, .worker 0 false, .respond true] ++ untilCommit ++ [.commitStores,
    .spawn true, .worker 0 false, .respond true, .check, .event .idle, .idle])).map
      (fun s => (s.main, s.workers)) =
    some (.exited, [⟨.dropped, true⟩, ⟨.committing, false⟩]) := by decide

end Loop

end Se7en.Windows.ServeLoop
