import Se7enService.ServiceUpgrade
import Mathlib.Data.List.Induction
set_option autoImplicit false

/-! The order in which an upgrade asks for its steps, over interrupted and resumed runs on any
platform. -/

namespace Se7en
open Faulty

/-! ### Recorded runs -/

inductive UpgradeCall where
  | persistJournal (journal : ServiceUpgradeJournal)
  | stopService
  | activateCandidate (journal : ServiceUpgradeJournal)
  | verifyCandidateHealth (journal : ServiceUpgradeJournal)
  | rollbackService (journal : ServiceUpgradeJournal)
  | finalizeUpgrade (journal : ServiceUpgradeJournal)
  | clearJournal
  deriving DecidableEq

inductive Answer where
  | ok
  | error
  | crashed
  deriving DecidableEq

def Answer.of {ε α : Type} : Outcome ε α → Answer
  | .ok _ => .ok
  | .error _ => .error
  | .crashed => .crashed

structure UpgradeEvent where
  call : UpgradeCall
  answer : Answer
  deriving DecidableEq

abbrev UpgradeTrace := List UpgradeEvent

/-- The phase whose step a call is. -/
def UpgradeCall.phase : UpgradeCall → Option UpgradePhase
  | .stopService => some .staged
  | .activateCandidate _ => some .oldStopped
  | .verifyCandidateHealth _ => some .configSwitched
  | .finalizeUpgrade _ => some .healthy
  | .persistJournal _ | .rollbackService _ | .clearJournal => none

def UpgradePhase.rank : UpgradePhase → Nat
  | .staged => 0
  | .oldStopped => 1
  | .configSwitched => 2
  | .healthy => 3

/-- The phases from this one on. -/
def UpgradePhase.onwards : UpgradePhase → List UpgradePhase
  | .staged => [.staged, .oldStopped, .configSwitched, .healthy]
  | .oldStopped => [.oldStopped, .configSwitched, .healthy]
  | .configSwitched => [.configSwitched, .healthy]
  | .healthy => [.healthy]

theorem UpgradePhase.rank_next {phase next : UpgradePhase} (h : phase.next = some next) :
    next.rank = phase.rank + 1 := by
  cases phase <;> cases h <;> rfl

section Recorded

variable {σ μ : Type}

/-- A call of the platform together with its entry in the trace. -/
def recorded (call : UpgradeCall) (p : Prog σ MaintenanceError μ Unit) :
    Prog (σ × UpgradeTrace) MaintenanceError μ Unit := fun st sch =>
  match p st.1 sch with
  | (outcome, s, rest) => (outcome, (s, st.2 ++ [⟨call, .of outcome⟩]), rest)

def ServiceUpgradePlatform.recorded (platform : ServiceUpgradePlatform σ μ) :
    ServiceUpgradePlatform (σ × UpgradeTrace) μ where
  persistJournal journal :=
    Se7en.recorded (.persistJournal journal) (platform.persistJournal journal)
  stopService := Se7en.recorded .stopService platform.stopService
  activateCandidate journal :=
    Se7en.recorded (.activateCandidate journal) (platform.activateCandidate journal)
  verifyCandidateHealth journal :=
    Se7en.recorded (.verifyCandidateHealth journal) (platform.verifyCandidateHealth journal)
  rollbackService journal :=
    Se7en.recorded (.rollbackService journal) (platform.rollbackService journal)
  finalizeUpgrade journal :=
    Se7en.recorded (.finalizeUpgrade journal) (platform.finalizeUpgrade journal)
  clearJournal := Se7en.recorded .clearJournal platform.clearJournal

variable {Q : Unit → σ × UpgradeTrace → Prop} {E : MaintenanceError → σ × UpgradeTrace → Prop}
  {C : σ × UpgradeTrace → Prop}

/-- Nothing is known of a platform but that its calls end. -/
theorem wp_recorded {call : UpgradeCall} {p : Prog σ MaintenanceError μ Unit} {s : σ}
    {trace : UpgradeTrace} (hok : ∀ t, Q () (t, trace ++ [⟨call, .ok⟩]))
    (herror : ∀ e t, E e (t, trace ++ [⟨call, .error⟩]))
    (hcrashed : ∀ t, C (t, trace ++ [⟨call, .crashed⟩])) :
    Wp (fun _ => True) (recorded call p) Q E C (s, trace) := by
  intro sch _
  refine ⟨fun _ _ => trivial, ?_⟩
  unfold recorded
  rcases p s sch with ⟨outcome, t, rest⟩
  cases outcome with
  | ok => exact hok t
  | error e => exact herror e t
  | crashed => exact hcrashed t

end Recorded

/-! ### The law -/

/-- The journal that was persisted last without an error. -/
def persisted (trace : UpgradeTrace) : Option ServiceUpgradeJournal :=
  trace.foldl (fun held event =>
    match event with
    | ⟨.persistJournal journal, .ok⟩ => some journal
    | _ => held) none

@[simp] theorem persisted_nil : persisted [] = none := rfl

@[simp] theorem persisted_persist (trace : UpgradeTrace) (journal : ServiceUpgradeJournal) :
    persisted (trace ++ [⟨.persistJournal journal, .ok⟩]) = some journal := by
  simp [persisted]

theorem persisted_other (trace : UpgradeTrace) {event : UpgradeEvent}
    (h : ∀ journal, event ≠ ⟨.persistJournal journal, .ok⟩) :
    persisted (trace ++ [event]) = persisted trace := by
  obtain ⟨call, answer⟩ := event
  cases call <;> cases answer <;> simp [persisted] at h ⊢

def ServiceUpgradeJournal.at (journal : ServiceUpgradeJournal) (phase : UpgradePhase) :
    ServiceUpgradeJournal :=
  { journal with phase }

/-- The candidate has been found healthy. -/
def Checked (start : ServiceUpgradeJournal) (trace : UpgradeTrace) : Prop :=
  ⟨.verifyCandidateHealth (start.at .configSwitched), .ok⟩ ∈ trace

/-- Phases are persisted one by one. -/
def Follows (start phase : UpgradePhase) : Option ServiceUpgradeJournal → Prop
  | none => phase = start
  | some held => phase = held.phase ∨ held.phase.next = some phase

/-- What may be asked for behind what has been asked for. -/
def UpgradeCall.Allowed (start : ServiceUpgradeJournal) (trace : UpgradeTrace) :
    UpgradeCall → Prop
  | .persistJournal journal => journal = start.at journal.phase ∧
    Follows start.phase journal.phase (persisted trace) ∧
    (journal.phase = .healthy → start.phase = .healthy ∨ Checked start trace)
  | .stopService => persisted trace = some (start.at .staged)
  | .activateCandidate journal => journal = start.at .oldStopped ∧ persisted trace = some journal
  | .verifyCandidateHealth journal =>
    journal = start.at .configSwitched ∧ persisted trace = some journal
  | .rollbackService journal => journal = start.at .configSwitched ∧
    persisted trace = some journal ∧
    trace.getLast? = some ⟨.verifyCandidateHealth journal, .error⟩
  | .finalizeUpgrade journal => journal = start.at .healthy ∧ persisted trace = some journal ∧
    (start.phase = .healthy ∨ Checked start trace)
  | .clearJournal => ∃ journal, trace.getLast? = some ⟨.finalizeUpgrade journal, .ok⟩ ∨
    trace.getLast? = some ⟨.rollbackService journal, .ok⟩

/-- Every call of the trace was allowed. -/
def Lawful (start : ServiceUpgradeJournal) (trace : UpgradeTrace) : Prop :=
  ∀ before event after, trace = before ++ event :: after → event.call.Allowed start before

section Law

variable {start journal : ServiceUpgradeJournal} {trace before after : UpgradeTrace}
  {event : UpgradeEvent}

theorem Lawful.nil : Lawful start [] := by
  intro before event after h
  simp at h

theorem lawful_append :
    Lawful start (trace ++ [event]) ↔ Lawful start trace ∧ event.call.Allowed start trace := by
  constructor
  · intro h
    refine ⟨fun before e after heq => h before e (after ++ [event]) (by simp [heq]), ?_⟩
    exact h trace event [] rfl
  · rintro ⟨h, hevent⟩ before e after heq
    rcases List.eq_nil_or_concat after with rfl | ⟨rest, last, rfl⟩
    · obtain ⟨rfl, hlast⟩ := List.append_inj' heq rfl
      cases hlast
      exact hevent
    · have hsplit : trace ++ [event] = (before ++ e :: rest) ++ [last] := by simpa using heq
      obtain ⟨rfl, -⟩ := List.append_inj' hsplit rfl
      exact h before e rest rfl

/-- What a step that was asked for says of the journal: its phase has been reached. -/
theorem Lawful.reached (h : Lawful start trace) :
    ∀ e ∈ trace, ∀ phase, e.call.phase = some phase →
      ∃ held, persisted trace = some held ∧ phase.rank ≤ held.phase.rank := by
  induction trace using List.reverseRecOn with
  | nil => simp
  | append_singleton trace event ih =>
    obtain ⟨hlawful, hallowed⟩ := lawful_append.mp h
    intro e he phase hphase
    by_cases hpersist : ∃ journal, event = ⟨.persistJournal journal, .ok⟩
    · obtain ⟨journal, rfl⟩ := hpersist
      have htrace : e ∈ trace := by
        rcases List.mem_append.mp he with he | he
        · exact he
        · obtain rfl := List.mem_singleton.mp he
          cases hphase
      obtain ⟨held, hheld, hrank⟩ := ih hlawful e htrace phase hphase
      refine ⟨journal, persisted_persist _ _, ?_⟩
      have hfollows := hallowed.2.1
      rw [hheld] at hfollows
      rcases hfollows with hsame | hnext
      · rw [hsame]
        exact hrank
      · have hlater := UpgradePhase.rank_next hnext
        omega
    · have hsame : persisted (trace ++ [event]) = persisted trace :=
        persisted_other trace (fun journal heq => hpersist ⟨journal, heq⟩)
      rw [hsame]
      rcases List.mem_append.mp he with he | he
      · exact ih hlawful e he phase hphase
      · obtain rfl := List.mem_singleton.mp he
        obtain ⟨call, answer⟩ := e
        cases call <;> cases hphase
        · exact ⟨_, hallowed, le_rfl⟩
        · exact ⟨_, hallowed.2, by rw [hallowed.1]; exact le_rfl⟩
        · exact ⟨_, hallowed.2, by rw [hallowed.1]; exact le_rfl⟩
        · exact ⟨_, hallowed.2.1, by rw [hallowed.1]; exact le_rfl⟩

/-! ### Runs -/

/-- The journal that a later run finds: the start, what was persisted last, or what was being
persisted when the run behind it ended. -/
def Resumes (start : ServiceUpgradeJournal) (trace : UpgradeTrace)
    (journal : ServiceUpgradeJournal) : Prop :=
  ⟨.clearJournal, .ok⟩ ∉ trace ∧
    ((trace = [] ∧ journal = start) ∨ persisted trace = some journal ∨
      ∃ before after answer, trace = before ++ ⟨.persistJournal journal, answer⟩ :: after ∧
        persisted trace = persisted before)

/-- The journal that is held has been persisted. -/
theorem persisted_mem (h : persisted trace = some journal) :
    ∃ before after, trace = before ++ ⟨.persistJournal journal, .ok⟩ :: after := by
  induction trace using List.reverseRecOn with
  | nil => simp at h
  | append_singleton trace event ih =>
    by_cases hpersist : ∃ journal, event = ⟨.persistJournal journal, .ok⟩
    · obtain ⟨found, rfl⟩ := hpersist
      rw [persisted_persist] at h
      cases h
      exact ⟨trace, [], rfl⟩
    · rw [persisted_other trace (fun journal heq => hpersist ⟨journal, heq⟩)] at h
      obtain ⟨before, after, rfl⟩ := ih h
      exact ⟨before, after ++ [event], by simp⟩

/-- A run that is resumed may begin. -/
theorem Resumes.allowed (h : Resumes start trace journal) (hlawful : Lawful start trace) :
    (UpgradeCall.persistJournal journal).Allowed start trace := by
  obtain ⟨-, ⟨rfl, rfl⟩ | hpersisted | ⟨before, after, answer, rfl, hsame⟩⟩ := h
  · exact ⟨rfl, rfl, Or.inl⟩
  · obtain ⟨before, after, rfl⟩ := persisted_mem hpersisted
    obtain ⟨hstart, -, hhealthy⟩ := hlawful before _ after rfl
    refine ⟨hstart, ?_, fun hphase => (hhealthy hphase).imp id ?_⟩
    · rw [hpersisted]
      exact .inl rfl
    · exact List.mem_append_left _
  · obtain ⟨hstart, hfollows, hhealthy⟩ := hlawful before _ after rfl
    refine ⟨hstart, ?_, fun hphase => (hhealthy hphase).imp id ?_⟩
    · rw [hsame]
      exact hfollows
    · exact List.mem_append_left _

/-- The steps of earlier runs are no later than the one that a run begins with. -/
theorem Resumes.reached (h : Resumes start trace journal) (hlawful : Lawful start trace) :
    ∀ e ∈ trace, ∀ phase, e.call.phase = some phase → phase.rank ≤ journal.phase.rank := by
  intro e he phase hphase
  obtain ⟨held, hheld, hrank⟩ := hlawful.reached e he phase hphase
  have hfollows := (h.allowed hlawful).2.1
  rw [hheld] at hfollows
  rcases hfollows with hsame | hnext
  · rw [hsame]
    exact hrank
  · have hlater := UpgradePhase.rank_next hnext
    omega

/-- What a run adds to the trace: its steps are the first of these, in this order. -/
def Adds (start : ServiceUpgradeJournal) (phases : List UpgradePhase)
    (before after : UpgradeTrace) : Prop :=
  ∃ events, after = before ++ events ∧ Lawful start after ∧
    events.filterMap (·.call.phase) <+: phases

theorem Adds.nothing {phases : List UpgradePhase} (h : Lawful start trace) :
    Adds start phases trace trace :=
  ⟨[], by simp, h, List.nil_prefix⟩

theorem Adds.step {phase : UpgradePhase} {phases : List UpgradePhase}
    (h : Adds start phases (before ++ [event]) after) (hphase : event.call.phase = some phase) :
    Adds start (phase :: phases) before after := by
  obtain ⟨events, hafter, hlawful, hfirst⟩ := h
  refine ⟨event :: events, by simp [hafter], hlawful, ?_⟩
  simpa [hphase] using hfirst

theorem Adds.other {phases : List UpgradePhase}
    (h : Adds start phases (before ++ [event]) after) (hphase : event.call.phase = none) :
    Adds start phases before after := by
  obtain ⟨events, hafter, hlawful, hfirst⟩ := h
  refine ⟨event :: events, by simp [hafter], hlawful, ?_⟩
  simpa [hphase] using hfirst

/-- An upgrade that has gone through says what it was, and has cleared its journal. -/
def Concluded (start : ServiceUpgradeJournal) (outcome : EnsureServiceOutcome)
    (trace : UpgradeTrace) : Prop :=
  (outcome = .installed ↔ start.previous = none) ∧ trace.getLast? = some ⟨.clearJournal, .ok⟩

end Law

section Execute

variable {σ μ : Type} {platform : ServiceUpgradePlatform σ μ} {start : ServiceUpgradeJournal}
  {trace : UpgradeTrace}

/-- The program keeps the law and adds its steps to the trace. -/
def Obeys (start : ServiceUpgradeJournal) (phases : List UpgradePhase) (trace : UpgradeTrace)
    (p : Prog (σ × UpgradeTrace) MaintenanceError μ EnsureServiceOutcome) : Prop :=
  ∀ s, Wp (fun _ => True) p
    (fun outcome st => Adds start phases trace st.2 ∧ Concluded start outcome st.2)
    (fun _ st => Adds start phases trace st.2) (fun st => Adds start phases trace st.2) (s, trace)

theorem obeys_upgradeHealthy (h : Lawful start trace) (hheld : persisted trace = some (start.at .healthy))
    (hchecked : start.phase = .healthy ∨ Checked start trace) :
    Obeys start [.healthy] trace (upgradeHealthy platform.recorded (start.at .healthy)) := by
  intro s
  have hstep : ∀ answer, Lawful start (trace ++ [⟨.finalizeUpgrade (start.at .healthy), answer⟩]) :=
    fun _ => lawful_append.mpr ⟨h, rfl, hheld, hchecked⟩
  refine Wp.bind (wp_recorded (fun s => ?_) (fun _ _ => ?_) (fun _ => ?_))
  · have hclear : ∀ answer, Lawful start (trace ++ [⟨.finalizeUpgrade (start.at .healthy), .ok⟩]
        ++ [⟨.clearJournal, answer⟩]) :=
      fun _ => lawful_append.mpr ⟨hstep _, start.at .healthy, .inl (by simp)⟩
    refine Wp.bind (wp_recorded (fun s => ?_) (fun _ _ => ?_) (fun _ => ?_))
    · refine Wp.pure ⟨((Adds.nothing (hclear _)).other rfl).step rfl, ?_, by simp⟩
      cases hprevious : start.previous <;> simp [ServiceUpgradeJournal.at, hprevious]
    · exact ((Adds.nothing (hclear _)).other rfl).step rfl
    · exact ((Adds.nothing (hclear _)).other rfl).step rfl
  · exact (Adds.nothing (hstep _)).step rfl
  · exact (Adds.nothing (hstep _)).step rfl

/-- A rollback is asked for once, directly behind the failed check, and the journal is cleared
only behind a rollback that went through. -/
theorem obeys_rollbackUpgrade (h : Lawful start trace) (e : MaintenanceError)
    (hheld : persisted trace = some (start.at .configSwitched))
    (hfailed : trace.getLast? =
      some ⟨.verifyCandidateHealth (start.at .configSwitched), .error⟩) :
    Obeys start [.healthy] trace
      (rollbackUpgrade platform.recorded (start.at .configSwitched) e) := by
  intro s
  have hstep : ∀ answer,
      Lawful start (trace ++ [⟨.rollbackService (start.at .configSwitched), answer⟩]) :=
    fun _ => lawful_append.mpr ⟨h, rfl, hheld, hfailed⟩
  refine Wp.bind (Wp.attempt (wp_recorded (fun s => ?_) (fun _ _ => ?_) (fun _ => ?_)))
  · have hclear : ∀ answer, Lawful start (trace ++
        [⟨.rollbackService (start.at .configSwitched), .ok⟩] ++ [⟨.clearJournal, answer⟩]) :=
      fun _ => lawful_append.mpr ⟨hstep _, start.at .configSwitched, .inr (by simp)⟩
    refine Wp.bind (Wp.attempt (wp_recorded (fun s => ?_) (fun _ _ => ?_) (fun _ => ?_)))
    · exact Wp.throw (((Adds.nothing (hclear _)).other rfl).other rfl)
    · exact Wp.throw (((Adds.nothing (hclear _)).other rfl).other rfl)
    · exact ((Adds.nothing (hclear _)).other rfl).other rfl
  · exact Wp.throw ((Adds.nothing (hstep _)).other rfl)
  · exact (Adds.nothing (hstep _)).other rfl

/-- The next phase is persisted, and the run goes on behind it. -/
theorem wp_persistNext {phases : List UpgradePhase} {phase next : UpgradePhase}
    {p : Prog (σ × UpgradeTrace) MaintenanceError μ EnsureServiceOutcome} (h : Lawful start trace)
    (hheld : persisted trace = some (start.at phase)) (hnext : phase.next = some next)
    (hchecked : next = .healthy → Checked start trace)
    (hp : ∀ t, Lawful start t → persisted t = some (start.at next) →
      (Checked start trace → Checked start t) → Obeys start phases t p) :
    Obeys start phases trace (do
      let journal ← lift ((start.at phase).advance next)
      platform.recorded.persistJournal journal
      p) := by
  intro s
  have hadvance : (start.at phase).advance next = .ok (start.at next) :=
    ServiceUpgradeJournal.advance_of_next hnext
  have hpersist : ∀ answer,
      Lawful start (trace ++ [⟨.persistJournal (start.at next), answer⟩]) := by
    refine fun _ => lawful_append.mpr ⟨h, rfl, ?_, fun hphase => .inr (hchecked hphase)⟩
    rw [hheld]
    exact .inr hnext
  rw [hadvance]
  refine Wp.bind (Wp.pure ?_)
  refine Wp.bind (wp_recorded (fun s => ?_) (fun _ _ => ?_) (fun _ => ?_))
  · refine (hp _ (hpersist .ok) (persisted_persist _ _) (fun hc => List.mem_append_left _ hc) s).mono
      ?_ ?_ ?_
    · exact fun _ _ ht => ⟨ht.1.other rfl, ht.2⟩
    · exact fun _ _ ht => ht.other rfl
    · exact fun _ ht => ht.other rfl
  · exact (Adds.nothing (hpersist _)).other rfl
  · exact (Adds.nothing (hpersist _)).other rfl

/-- A step is asked for, and the run goes on behind it. -/
theorem Obeys.step {phase : UpgradePhase} {phases : List UpgradePhase} {event : UpgradeEvent}
    {p : Prog (σ × UpgradeTrace) MaintenanceError μ EnsureServiceOutcome}
    (h : Obeys start phases (trace ++ [event]) p) (hphase : event.call.phase = some phase) (s : σ) :
    Wp (fun _ => True) p
      (fun outcome st => Adds start (phase :: phases) trace st.2 ∧ Concluded start outcome st.2)
      (fun _ st => Adds start (phase :: phases) trace st.2)
      (fun st => Adds start (phase :: phases) trace st.2) (s, trace ++ [event]) :=
  (h s).mono (fun _ _ ht => ⟨ht.1.step hphase, ht.2⟩) (fun _ _ ht => ht.step hphase)
    (fun _ ht => ht.step hphase)

theorem obeys_upgradeConfigSwitched (h : Lawful start trace)
    (hheld : persisted trace = some (start.at .configSwitched)) :
    Obeys start [.configSwitched, .healthy] trace
      (upgradeConfigSwitched platform.recorded (start.at .configSwitched)) := by
  intro s
  have hstep : ∀ answer,
      Lawful start (trace ++ [⟨.verifyCandidateHealth (start.at .configSwitched), answer⟩]) :=
    fun _ => lawful_append.mpr ⟨h, rfl, hheld⟩
  have hsame : ∀ answer, persisted
      (trace ++ [⟨.verifyCandidateHealth (start.at .configSwitched), answer⟩])
        = some (start.at .configSwitched) :=
    fun _ => (persisted_other trace (by simp)).trans hheld
  refine Wp.bind (Wp.attempt (wp_recorded (fun s => ?_) (fun e s => ?_) (fun _ => ?_)))
  · refine Obeys.step (wp_persistNext (hstep .ok) (hsame .ok) rfl (fun _ => by simp [Checked]) ?_) rfl s
    intro t ht hpersisted hchecked
    exact obeys_upgradeHealthy ht hpersisted (.inr (hchecked (by simp [Checked])))
  · exact Obeys.step (obeys_rollbackUpgrade (hstep .error) e (hsame .error) (by simp)) rfl s
  · exact (Adds.nothing (hstep _)).step rfl

theorem obeys_upgradeOldStopped (h : Lawful start trace)
    (hheld : persisted trace = some (start.at .oldStopped)) :
    Obeys start [.oldStopped, .configSwitched, .healthy] trace
      (upgradeOldStopped platform.recorded (start.at .oldStopped)) := by
  intro s
  have hstep : ∀ answer,
      Lawful start (trace ++ [⟨.activateCandidate (start.at .oldStopped), answer⟩]) :=
    fun _ => lawful_append.mpr ⟨h, rfl, hheld⟩
  have hsame : persisted (trace ++ [⟨.activateCandidate (start.at .oldStopped), .ok⟩])
      = some (start.at .oldStopped) := (persisted_other trace (by simp)).trans hheld
  refine Wp.bind (wp_recorded (fun s => ?_) (fun _ _ => ?_) (fun _ => ?_))
  · refine Obeys.step (wp_persistNext (hstep .ok) hsame rfl nofun ?_) rfl s
    exact fun t ht hpersisted _ => obeys_upgradeConfigSwitched ht hpersisted
  · exact (Adds.nothing (hstep _)).step rfl
  · exact (Adds.nothing (hstep _)).step rfl

theorem obeys_upgradeStaged (h : Lawful start trace)
    (hheld : persisted trace = some (start.at .staged)) :
    Obeys start [.staged, .oldStopped, .configSwitched, .healthy] trace
      (upgradeStaged platform.recorded (start.at .staged)) := by
  intro s
  have hstep : ∀ answer, Lawful start (trace ++ [⟨.stopService, answer⟩]) :=
    fun _ => lawful_append.mpr ⟨h, hheld⟩
  have hsame : persisted (trace ++ [⟨.stopService, .ok⟩]) = some (start.at .staged) :=
    (persisted_other trace (by simp)).trans hheld
  refine Wp.bind (wp_recorded (fun s => ?_) (fun _ _ => ?_) (fun _ => ?_))
  · refine Obeys.step (wp_persistNext (hstep .ok) hsame rfl nofun ?_) rfl s
    exact fun t ht hpersisted _ => obeys_upgradeOldStopped ht hpersisted
  · exact (Adds.nothing (hstep _)).step rfl
  · exact (Adds.nothing (hstep _)).step rfl

/-- One run of an upgrade from a journal that it may begin with. -/
theorem obeys_executeServiceUpgrade {journal : ServiceUpgradeJournal} (h : Lawful start trace)
    (hresumes : Resumes start trace journal) :
    Obeys start journal.phase.onwards trace
      (executeServiceUpgrade platform.recorded journal) := by
  intro s
  have hallowed := hresumes.allowed h
  have hpersist : ∀ answer, Lawful start (trace ++ [⟨.persistJournal journal, answer⟩]) :=
    fun _ => lawful_append.mpr ⟨h, hallowed⟩
  refine Wp.bind (Wp.lift (fun _ _ => ?_) (fun _ _ => Adds.nothing h))
  refine Wp.bind (wp_recorded (fun s => ?_) (fun _ _ => ?_) (fun _ => ?_))
  · have hheld := persisted_persist trace journal
    obtain ⟨hstart, -, hhealthy⟩ := hallowed
    have hother : ∀ {phases : List UpgradePhase}
        {p : Prog (σ × UpgradeTrace) MaintenanceError μ EnsureServiceOutcome},
        Obeys start phases (trace ++ [⟨.persistJournal journal, .ok⟩]) p →
        Wp (fun _ => True) p
          (fun outcome st => Adds start phases trace st.2 ∧ Concluded start outcome st.2)
          (fun _ st => Adds start phases trace st.2) (fun st => Adds start phases trace st.2)
          (s, trace ++ [⟨.persistJournal journal, .ok⟩]) := by
      intro phases p hp
      exact (hp s).mono (fun _ _ ht => ⟨ht.1.other rfl, ht.2⟩) (fun _ _ ht => ht.other rfl)
        (fun _ ht => ht.other rfl)
    cases hphase : journal.phase with
    | staged =>
      rw [hphase] at hstart
      rw [hstart] at hheld hpersist hother ⊢
      exact hother (obeys_upgradeStaged (hpersist _) hheld)
    | oldStopped =>
      rw [hphase] at hstart
      rw [hstart] at hheld hpersist hother ⊢
      exact hother (obeys_upgradeOldStopped (hpersist _) hheld)
    | configSwitched =>
      rw [hphase] at hstart
      rw [hstart] at hheld hpersist hother ⊢
      exact hother (obeys_upgradeConfigSwitched (hpersist _) hheld)
    | healthy =>
      have hready := (hhealthy hphase).imp id
        (List.mem_append_left [⟨.persistJournal journal, .ok⟩])
      rw [hphase] at hstart
      rw [hstart] at hheld hpersist hother hready ⊢
      exact hother (obeys_upgradeHealthy (hpersist _) hheld hready)
  · exact (Adds.nothing (hpersist _)).other rfl
  · exact (Adds.nothing (hpersist _)).other rfl

/-! ### Interrupted and resumed runs -/

/-- The traces of an upgrade whose runs are ended anywhere and taken up again; what the machine
is like between two runs is left open. -/
inductive ServiceUpgradePlatform.Runs (platform : ServiceUpgradePlatform σ μ)
    (start : ServiceUpgradeJournal) : UpgradeTrace → Prop
  | fresh : platform.Runs start []
  | run {trace : UpgradeTrace} (journal : ServiceUpgradeJournal) (s : σ) (sch : Schedule μ) :
      platform.Runs start trace → Resumes start trace journal →
      platform.Runs start (executeServiceUpgrade platform.recorded journal (s, trace) sch).2.1.2

theorem Obeys.run {phases : List UpgradePhase} {s : σ} {sch rest : Schedule μ}
    {p : Prog (σ × UpgradeTrace) MaintenanceError μ EnsureServiceOutcome}
    {outcome : Outcome MaintenanceError EnsureServiceOutcome} {st : σ × UpgradeTrace}
    (h : Obeys start phases trace p) (hrun : p (s, trace) sch = (outcome, st, rest)) :
    Adds start phases trace st.2 ∧ ∀ o, outcome = .ok o → Concluded start o st.2 := by
  have hend := (h s).result (fun _ _ => trivial) hrun
  cases outcome with
  | ok o =>
    refine ⟨hend.1, ?_⟩
    rintro _ ⟨⟩
    exact hend.2
  | error e => exact ⟨hend, nofun⟩
  | crashed => exact ⟨hend, nofun⟩

theorem ServiceUpgradePlatform.Runs.lawful (h : platform.Runs start trace) :
    Lawful start trace := by
  induction h with
  | fresh => exact Lawful.nil
  | @run trace journal s sch _ hresumes ih =>
    rcases hrun : executeServiceUpgrade platform.recorded journal (s, trace) sch with
      ⟨outcome, st, rest⟩
    obtain ⟨⟨_, _, hlawful, _⟩, -⟩ := (obeys_executeServiceUpgrade ih hresumes).run hrun
    exact hlawful

/-! Recording does not change what a program does. -/

/-- The second program is the first one without its trace. -/
def Forgets {α : Type} (p : Prog (σ × UpgradeTrace) MaintenanceError μ α)
    (q : Prog σ MaintenanceError μ α) : Prop :=
  ∀ s trace sch, q s sch =
    ((p (s, trace) sch).1, (p (s, trace) sch).2.1.1, (p (s, trace) sch).2.2)

section Forgets

variable {α β : Type} {p : Prog (σ × UpgradeTrace) MaintenanceError μ α}
  {q : Prog σ MaintenanceError μ α}

theorem Forgets.recorded (call : UpgradeCall) (q : Prog σ MaintenanceError μ Unit) :
    Forgets (Se7en.recorded call q) q := by
  intro s trace sch
  simp only [Se7en.recorded]

theorem Forgets.pure (a : α) : Forgets (σ := σ) (μ := μ) (Pure.pure a) (Pure.pure a) :=
  fun _ _ _ => rfl

theorem Forgets.throw (e : MaintenanceError) :
    Forgets (σ := σ) (μ := μ) (α := α) (Faulty.throw e) (Faulty.throw e) :=
  fun _ _ _ => rfl

theorem Forgets.lift (x : Result α) : Forgets (σ := σ) (μ := μ) (Faulty.lift x) (Faulty.lift x) := by
  cases x with
  | ok a => exact Forgets.pure a
  | error e => exact Forgets.throw e

theorem Forgets.bind {f : α → Prog (σ × UpgradeTrace) MaintenanceError μ β}
    {g : α → Prog σ MaintenanceError μ β} (h : Forgets p q) (hf : ∀ a, Forgets (f a) (g a)) :
    Forgets (p >>= f) (q >>= g) := by
  intro s trace sch
  have hp := h s trace sch
  change Prog.bind q g s sch = _
  rcases hrun : p (s, trace) sch with ⟨outcome, ⟨t, trace'⟩, rest⟩
  rw [hrun] at hp
  have hleft : (p >>= f) (s, trace) sch = Prog.bind p f (s, trace) sch := rfl
  rw [hleft]
  simp only [Prog.bind, hp, hrun]
  cases outcome with
  | ok a => exact hf a t trace' rest
  | error e => rfl
  | crashed => rfl

theorem Forgets.attempt (h : Forgets p q) : Forgets (Faulty.attempt p) (Faulty.attempt q) := by
  intro s trace sch
  have hp := h s trace sch
  rcases hrun : p (s, trace) sch with ⟨outcome, ⟨t, trace'⟩, rest⟩
  rw [hrun] at hp
  simp only [Faulty.attempt, hp, hrun]
  cases outcome <;> rfl

end Forgets

theorem forgets_upgradeHealthy (journal : ServiceUpgradeJournal) :
    Forgets (upgradeHealthy platform.recorded journal) (upgradeHealthy platform journal) :=
  (Forgets.recorded _ _).bind fun _ => (Forgets.recorded _ _).bind fun _ => Forgets.pure _

theorem forgets_rollbackUpgrade (journal : ServiceUpgradeJournal) (e : MaintenanceError) :
    Forgets (rollbackUpgrade platform.recorded journal e) (rollbackUpgrade platform journal e) := by
  refine (Forgets.recorded _ _).attempt.bind fun result => ?_
  cases result with
  | error e => exact Forgets.throw _
  | ok =>
    refine (Forgets.recorded _ _).attempt.bind fun cleared => ?_
    cases cleared with
    | error e => exact Forgets.throw _
    | ok => exact Forgets.throw _

theorem forgets_upgradeConfigSwitched (journal : ServiceUpgradeJournal) :
    Forgets (upgradeConfigSwitched platform.recorded journal)
      (upgradeConfigSwitched platform journal) := by
  refine (Forgets.recorded _ _).attempt.bind fun result => ?_
  cases result with
  | error e => exact forgets_rollbackUpgrade journal e
  | ok =>
    exact (Forgets.lift _).bind fun _ => (Forgets.recorded _ _).bind fun _ =>
      forgets_upgradeHealthy _

theorem forgets_upgradeOldStopped (journal : ServiceUpgradeJournal) :
    Forgets (upgradeOldStopped platform.recorded journal) (upgradeOldStopped platform journal) :=
  (Forgets.recorded _ _).bind fun _ => (Forgets.lift _).bind fun _ =>
    (Forgets.recorded _ _).bind fun _ => forgets_upgradeConfigSwitched _

theorem forgets_upgradeStaged (journal : ServiceUpgradeJournal) :
    Forgets (upgradeStaged platform.recorded journal) (upgradeStaged platform journal) :=
  (Forgets.recorded _ _).bind fun _ => (Forgets.lift _).bind fun _ =>
    (Forgets.recorded _ _).bind fun _ => forgets_upgradeOldStopped _

theorem forgets_executeServiceUpgrade (journal : ServiceUpgradeJournal) :
    Forgets (executeServiceUpgrade platform.recorded journal)
      (executeServiceUpgrade platform journal) := by
  refine (Forgets.lift _).bind fun _ => (Forgets.recorded _ _).bind fun _ => ?_
  cases journal.phase with
  | staged => exact forgets_upgradeStaged journal
  | oldStopped => exact forgets_upgradeOldStopped journal
  | configSwitched => exact forgets_upgradeConfigSwitched journal
  | healthy => exact forgets_upgradeHealthy journal

/-- Whatever the platform answers and wherever earlier runs were ended, a run keeps to the order
of the phases, repeats one step of theirs at most, and tells an installation from an upgrade. -/
theorem upgrade_trace_law (platform : ServiceUpgradePlatform σ μ) (h : platform.Runs start trace)
    {journal : ServiceUpgradeJournal} (hresumes : Resumes start trace journal) (s : σ)
    (sch : Schedule μ) :
    ∃ outcome t after rest,
      executeServiceUpgrade platform journal s sch = (outcome, t, rest) ∧
      executeServiceUpgrade platform.recorded journal (s, trace) sch =
        (outcome, (t, after), rest) ∧
      Lawful start after ∧
      (∃ events, after = trace ++ events ∧
        events.filterMap (·.call.phase) <+: journal.phase.onwards) ∧
      (∀ e ∈ trace, ∀ phase, e.call.phase = some phase → phase.rank ≤ journal.phase.rank) ∧
      ∀ o, outcome = .ok o → Concluded start o after := by
  have hlawful := h.lawful
  have hforgets : Forgets (executeServiceUpgrade platform.recorded journal)
      (executeServiceUpgrade platform journal) := forgets_executeServiceUpgrade journal
  have hforgets := hforgets s trace sch
  rcases hrun : executeServiceUpgrade platform.recorded journal (s, trace) sch with
    ⟨outcome, ⟨t, after⟩, rest⟩
  rw [hrun] at hforgets
  obtain ⟨⟨events, hafter, hkept, hsteps⟩, hconcluded⟩ :=
    (obeys_executeServiceUpgrade hlawful hresumes).run hrun
  exact ⟨outcome, t, after, rest, hforgets, rfl, hkept, ⟨events, hafter, hsteps⟩,
    hresumes.reached hlawful, hconcluded⟩

end Execute

/-! ### An installation that is interrupted once -/

section Interrupted

/-- A machine on which every call goes through, unless it is cut off. -/
def plainPlatform : ServiceUpgradePlatform Unit Empty where
  persistJournal _ := plainCall
  stopService := plainCall
  activateCandidate _ := plainCall
  verifyCandidateHealth _ := plainCall
  rollbackService _ := plainCall
  finalizeUpgrade _ := plainCall
  clearJournal := plainCall
where
  plainCall : Prog Unit MaintenanceError Empty Unit :=
    Step.run { effect := fun s => .ok ((), s), fault := .new .transactionIo "" }

def sampleRelease : ServiceReleaseRecord where
  digest := String.ofList (List.replicate 64 'a')
  generation := 1
  kind := releaseRecordKind
  schema := documentSchema
  serviceVersion := "1.0.3"

def sampleInstallation : ServiceUpgradeJournal where
  candidate := sampleRelease
  candidateImagePath := "service"
  kind := upgradeJournalKind
  phase := .staged
  previous := none
  schema := documentSchema

/-- The first run is cut off while the candidate is activated. -/
def interruptedTrace : UpgradeTrace :=
  (executeServiceUpgrade plainPlatform.recorded sampleInstallation ((), [])
    [.go, .go, .go, .crash .before]).2.1.2

theorem upgrade_trace_law_interrupted :
    (executeServiceUpgrade plainPlatform (sampleInstallation.at .oldStopped) () []).1 =
      .ok .installed ∧
    ∃ outcome t after rest,
      executeServiceUpgrade plainPlatform (sampleInstallation.at .oldStopped) () [] =
        (outcome, t, rest) ∧
      executeServiceUpgrade plainPlatform.recorded (sampleInstallation.at .oldStopped)
        ((), interruptedTrace) [] = (outcome, (t, after), rest) ∧
      Lawful sampleInstallation after ∧
      (∃ events, after = interruptedTrace ++ events ∧
        events.filterMap (·.call.phase) <+: UpgradePhase.oldStopped.onwards) ∧
      (∀ e ∈ interruptedTrace, ∀ phase, e.call.phase = some phase → phase.rank ≤ 1) ∧
      ∀ o, outcome = .ok o → Concluded sampleInstallation o after := by
  have hfresh : Resumes sampleInstallation [] sampleInstallation := ⟨by simp, .inl ⟨rfl, rfl⟩⟩
  have hruns : plainPlatform.Runs sampleInstallation interruptedTrace := .run _ _ _ .fresh hfresh
  have hresumes :
      Resumes sampleInstallation interruptedTrace (sampleInstallation.at .oldStopped) :=
    ⟨by decide +kernel, .inr (.inl (by decide +kernel))⟩
  exact ⟨by decide +kernel, upgrade_trace_law plainPlatform hruns hresumes () []⟩

end Interrupted

end Se7en
