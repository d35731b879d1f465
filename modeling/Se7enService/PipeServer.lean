import Se7enService.Error
import Se7enService.Faulty
set_option autoImplicit false

/-! `windows_pipe.rs`: the overlapped pipe instances of the service and the queue of requests
that have been read from them. -/

namespace Se7en.Pipe
open Faulty

/-! ### The operating system -/

inductive Operation where
  | connect
  | read
  | write
  deriving DecidableEq, Repr

/-- What `ConnectNamedPipe` reports. -/
inductive ConnectAnswer where
  | ok
  | pipeConnected
  | ioPending
  | noData
  | failed (status : Nat)

inductive ReadAnswer where
  | ok
  | ioPending
  | failed (status : Nat)

/-- `inTime` tells whether the event of a pending write is signaled before the timeout. -/
inductive WriteAnswer where
  | ok
  | ioPending (inTime : Bool)
  | failed (status : Nat)

inductive WaitAnswer where
  | timeout
  | signaled (index : Nat)
  | failed

/-- What every call is answered, by the number of the call. -/
structure System where
  connect : Nat → ConnectAnswer
  read : Nat → ReadAnswer
  write : Nat → WriteAnswer
  /-- The end of an operation that was started: its bytes or its status. -/
  transfer : Nat → Except Nat Bytes
  wait : Nat → WaitAnswer
  now : Nat → Nat

/-- The end of an operation, numbered; `sender` is the client that was connected. -/
structure Completion where
  serial : Nat
  sender : Option Nat
  outcome : Except Nat Bytes

/-- Calls, clients and ends of operations are numbered; `overlapped` is set once an operation is
started while another one of its instance is pending. -/
structure Kernel where
  calls : Nat
  clients : Nat
  completions : Nat
  overlapped : Bool
  /-- The client that each write went to. -/
  sent : List (Option Nat × Bytes)

inductive Phase where
  | listening
  | reading (deadline : Nat)
  | held
  deriving DecidableEq, Repr

/-- An instance with its pipe: the connected client, the operations that the kernel has not
ended, and the end that its `OVERLAPPED` reports. -/
structure Instance where
  phase : Phase
  client : Option Nat
  pending : List Operation
  completed : Completion

/-- A request, or why it could not be read, with the number and the sender of its message. -/
structure Message where
  serial : Nat
  sender : Option Nat
  content : Result Bytes

/-- What a read or connect completion produced. -/
inductive Progress where
  | pending
  | request (message : Message)

/-- One instance and the kernel. -/
structure Attached where
  inst : Instance
  kernel : Kernel

abbrev InstanceProg (α : Type) := Prog Attached MaintenanceError Empty α

def errorMoreData : Nat := 234
def errorIoIncomplete : Nat := 996

def readError (status : Nat) : MaintenanceError :=
  if status = errorMoreData then
    .new .protocolTooLarge "IPC request exceeds the message bound"
  else
    { code := .protocolInvalid
      detail := "IPC request could not be read as one bounded message"
      platformStatus := some status }

def pipeError (detail : String) (status : Nat) : MaintenanceError :=
  { code := .transactionIo, detail, platformStatus := some status }

section Instances

variable (system : System)

def ask {α : Type} (answer : System → Nat → α) : InstanceProg α := do
  let call ← look (·.kernel.calls)
  assign fun a => { a with kernel.calls := call + 1 }
  pure (answer system call)

def Attached.withPhase (a : Attached) (phase : Phase) : Attached :=
  { a with inst.phase := phase }

/-- The kernel takes up an operation. -/
def Attached.begin (a : Attached) (operation : Operation) : Attached :=
  { a with
    inst.pending := a.inst.pending ++ [operation]
    kernel.overlapped := a.kernel.overlapped || !a.inst.pending.isEmpty }

/-- The kernel has ended an operation, and its `OVERLAPPED` tells how. -/
def Attached.finish (a : Attached) (operation : Operation) (outcome : Except Nat Bytes) : Attached :=
  { a with
    inst.pending := a.inst.pending.erase operation
    inst.completed := ⟨a.kernel.completions, a.inst.client, outcome⟩
    kernel.completions := a.kernel.completions + 1 }

def Attached.connected (a : Attached) : Attached :=
  { a with inst.client := some a.kernel.clients, kernel.clients := a.kernel.clients + 1 }

def connectNamedPipe : InstanceProg ConnectAnswer := do
  assign (·.begin .connect)
  let answer ← ask system System.connect
  match answer with
  | .ok | .pipeConnected => assign fun a => (a.finish .connect (.ok [])).connected
  | .ioPending => pure ()
  | .noData | .failed _ => assign (·.finish .connect (.ok []))
  pure answer

def disconnectNamedPipe : InstanceProg Unit := assign fun a => { a with inst.client := none }

/-- `ReadFile`; a message is taken from the client when the operation ends. -/
def readFile : InstanceProg ReadAnswer := do
  assign (·.begin .read)
  let answer ← ask system System.read
  let outcome ← ask system System.transfer
  match answer with
  | .ok => assign (·.finish .read outcome)
  | .ioPending => pure ()
  | .failed status => assign (·.finish .read (.error status))
  pure answer

/-- `GetOverlappedResult` without waiting. -/
def getOverlappedResult : InstanceProg Completion :=
  look fun a =>
    if a.inst.pending.isEmpty then a.inst.completed
    else { a.inst.completed with outcome := .error errorIoIncomplete }

/-- `CancelIoEx`, and `GetOverlappedResult` until the kernel is done. -/
def drain (operation : Operation) : InstanceProg Unit := do
  let outcome ← ask system System.transfer
  assign (·.finish operation outcome)

/-! ### The instances -/

def Phase.operation : Phase → Option Operation
  | .listening => some .connect
  | .reading _ => some .read
  | .held => none

def cancelPending : InstanceProg Unit := do
  match ← look (·.inst.phase.operation) with
  | some operation =>
    drain system operation
    assign (·.withPhase .held)
  | none => pure ()

def finishRead : InstanceProg Message := do
  let completion ← getOverlappedResult
  assign (·.withPhase .held)
  pure {
    serial := completion.serial
    sender := completion.sender
    content := completion.outcome.mapError readError }

def startRead (readTimeout : Nat) : InstanceProg Progress := do
  match ← readFile system with
  | .ok =>
    let now ← ask system System.now
    assign (·.withPhase (.reading (now + readTimeout)))
    pure (.request (← finishRead))
  | .ioPending =>
    let now ← ask system System.now
    assign (·.withPhase (.reading (now + readTimeout)))
    pure .pending
  | .failed status =>
    assign (·.withPhase .held)
    let completion ← look (·.inst.completed)
    pure (.request {
      serial := completion.serial
      sender := completion.sender
      content := .error (readError status) })

/-- The loop of `listen`. -/
def connectLoop (readTimeout : Nat) : Nat → InstanceProg Progress
  | 0 => throw (.new .transactionIo "named-pipe instance could not listen")
  | attempts + 1 => do
    match ← connectNamedPipe system with
    | .ok | .pipeConnected => startRead system readTimeout
    | .ioPending =>
      assign (·.withPhase .listening)
      pure .pending
    | .noData =>
      disconnectNamedPipe
      connectLoop readTimeout attempts
    | .failed status => throw (pipeError "named-pipe connection failed" status)

def listen (readTimeout : Nat) : InstanceProg Progress := do
  cancelPending system
  disconnectNamedPipe
  connectLoop system readTimeout 4

/-- Handles a signaled event of a listening or reading instance. -/
def complete (readTimeout : Nat) : InstanceProg Progress := do
  match ← look (·.inst.phase) with
  | .listening =>
    let connected ← getOverlappedResult
    assign (·.withPhase .held)
    if connected.outcome.isOk then startRead system readTimeout else listen system readTimeout
  | .reading _ => pure (.request (← finishRead))
  | .held => pure .pending

def write (bytes : Bytes) : InstanceProg Unit := do
  assign (·.begin .write)
  assign fun a => { a with kernel.sent := a.kernel.sent ++ [(a.inst.client, bytes)] }
  let answer ← ask system System.write
  drain system .write
  match answer with
  | .ok | .ioPending true => pure ()
  | .ioPending false => throw (.new .transactionIo "IPC response write timed out")
  | .failed status => throw (pipeError "IPC response could not be written" status)
  match (← getOverlappedResult).outcome with
  | .error status => throw (pipeError "IPC response write did not complete" status)
  | .ok transferred =>
    lift (rejectIf (transferred.length ≠ bytes.length)
      (.new .transactionIo "IPC response write was incomplete"))

/-- The kernel ends the operation whose event is signaled. -/
def signal : InstanceProg Unit := do
  let outcome ← ask system System.transfer
  match ← look (·.inst.pending.head?) with
  | some .connect =>
    assign (·.finish .connect outcome)
    if outcome.isOk then assign Attached.connected
  | some operation => assign (·.finish operation outcome)
  | none => pure ()

end Instances

/-! ### The server -/

structure PipeServer where
  instances : List Instance
  ready : List (Nat × Message)
  readTimeout : Nat
  lastActivity : Nat
  kernel : Kernel

inductive PipeEvent where
  | request (slot : Nat) (message : Message)
  | stop
  | wake
  | idle

/-- An instance that has never listened. -/
def Instance.created : Instance where
  phase := .held
  client := none
  pending := []
  completed := ⟨0, none, .error errorIoIncomplete⟩

namespace PipeServer

abbrev Program (α : Type) := Prog PipeServer MaintenanceError Empty α

def slotPart (slot : Nat) : Part PipeServer Attached where
  get server := ⟨server.instances.getD slot .created, server.kernel⟩
  set a server := { server with instances := server.instances.set slot a.inst, kernel := a.kernel }

def onInstance {α : Type} (slot : Nat) (p : InstanceProg α) : Program α := do
  let known ← look fun server => decide (slot < server.instances.length)
  lift (rejectIf (!known) (.new .transactionState "pipe instance does not exist"))
  (slotPart slot).run p

def busy (server : PipeServer) : Bool :=
  server.instances.any fun inst => inst.phase ≠ .listening

/-- The slots whose events are waited for. -/
def waiting (server : PipeServer) : List Nat :=
  (List.range server.instances.length).filter fun slot =>
    (server.instances.getD slot .created).phase ≠ .held

def push (slot : Nat) : Progress → Program Unit
  | .pending => pure ()
  | .request message => assign fun server => { server with ready := server.ready ++ [(slot, message)] }

section Service

variable (system : System)

/-- A call that is not about one instance. -/
def ask {α : Type} (answer : System → Nat → α) : Program α := do
  let call ← look (·.kernel.calls)
  assign fun server => { server with kernel.calls := call + 1 }
  pure (answer system call)

def touch : Program Unit := do
  let now ← ask system System.now
  assign ({ · with lastActivity := now })

def listen (slot : Nat) : Program Unit := do
  let readTimeout ← look (·.readTimeout)
  push slot (← onInstance slot (Pipe.listen system readTimeout))

def listenAll : List Nat → Program Unit
  | [] => pure ()
  | slot :: slots => do
    listen system slot
    listenAll slots

/-- The server with its instances before they listen. -/
def unlistened (instances readTimeout : Nat) : PipeServer where
  instances := List.replicate (max instances 1) .created
  ready := []
  readTimeout := readTimeout
  lastActivity := 0
  kernel := ⟨0, 0, 0, false, []⟩

/-- The end of `create`: every instance listens. -/
def create : Program Unit := do
  let slots ← look fun server => List.range server.instances.length
  listenAll system slots

/-- The handle of a held instance; `none` stands for a slot that is not held. -/
def pipe (server : PipeServer) (slot : Nat) : Option Instance :=
  server.instances[slot]?.filter (·.phase = .held)

def respond (slot : Nat) (bytes : Bytes) : Program (Except MaintenanceError Unit) := do
  let known ← look fun server => decide (slot < server.instances.length)
  lift (rejectIf (!known) (.new .transactionState "pipe instance does not exist"))
  let written ← attempt ((slotPart slot).run (write system bytes))
  touch system
  listen system slot
  pure written

def release (slot : Nat) : Program Unit := do
  touch system
  listen system slot

/-- Disconnects clients that did not send a request before their deadline. -/
def expireReads : Program Unit := do
  let now ← ask system System.now
  let expired ← look fun server => (List.range server.instances.length).filter fun slot =>
    match (server.instances.getD slot .created).phase with
    | .reading deadline => decide (deadline ≤ now)
    | _ => false
  listenAll system expired

/-- A wait that lasts on. -/
def waits {α : Type} : Program α := fun server sch => (.crashed, server, sch)

/-- A signaled event is handled and a request that it brings is queued. -/
def completeSlot (slot : Nat) : Program Unit := do
  onInstance slot (signal system)
  let readTimeout ← look (·.readTimeout)
  let wasListening ← look fun server =>
    decide ((server.instances.getD slot .created).phase = .listening)
  match ← onInstance slot (complete system readTimeout) with
  | .request message => push slot (.request message)
  | .pending => if wasListening then touch system else pure ()

/-- Waits for the next request, stop, wake or idle timeout; the number bounds the waits. -/
def nextEvent (idleTimeout : Nat) : Nat → Program PipeEvent
  | 0 => waits
  | waitsLeft + 1 => do
    match ← look (·.ready) with
    | (slot, message) :: ready =>
      assign ({ · with ready })
      touch system
      pure (.request slot message)
    | [] =>
      let slots ← look waiting
      let idleDeadline ← look fun server =>
        if server.busy then none else some (server.lastActivity + idleTimeout)
      match ← ask system System.wait with
      | .timeout =>
        expireReads system
        let now ← ask system System.now
        let stillBusy ← look busy
        if idleDeadline.any (· ≤ now) && !stillBusy then pure .idle
        else nextEvent idleTimeout waitsLeft
      | .failed => throw (.new .transactionIo "named-pipe wait failed")
      | .signaled 0 => pure .stop
      | .signaled 1 => pure .wake
      | .signaled (index + 2) =>
        match slots[index]? with
        | none => throw (.new .transactionIo "named-pipe wait failed")
        | some slot =>
          completeSlot system slot
          nextEvent idleTimeout waitsLeft

end Service

end PipeServer

/-! ### One instance -/

/-- The kernel has the one operation that the phase stands for. -/
structure Instance.Fits (inst : Instance) : Prop where
  pending : inst.pending = inst.phase.operation.toList
  client : ∀ deadline, inst.phase = .reading deadline → inst.client.isSome = true

/-- Held, with the message of the client that is connected. -/
structure Instance.Holds (inst : Instance) (message : Message) : Prop where
  phase : inst.phase = .held
  pending : inst.pending = []
  client : inst.client.isSome = true
  sender : message.sender = inst.client

/-- No operation has been started while another one was pending. -/
structure Kernel.Grown (k l : Kernel) : Prop where
  overlapped : k.overlapped = false → l.overlapped = false
  completions : k.completions ≤ l.completions
  sent : l.sent = k.sent

/-- What an instance has come to, with a message that was not read before. -/
def Came (a : Attached) (progress : Progress) (b : Attached) : Prop :=
  a.kernel.Grown b.kernel ∧
    match progress with
    | .pending => b.inst.Fits
    | .request message => b.inst.Holds message ∧ a.kernel.completions ≤ message.serial ∧
      message.serial < b.kernel.completions

/-- An error leaves the instance held. -/
def Failed (a : Attached) (b : Attached) : Prop :=
  a.kernel.Grown b.kernel ∧ b.inst.phase = .held ∧ b.inst.pending = []

section Specs

variable {system : System} {a b c : Attached} {A : Event Empty → Prop}

theorem Kernel.Grown.refl (k : Kernel) : k.Grown k := ⟨fun h => h, Nat.le_refl _, rfl⟩

theorem Kernel.Grown.trans {k l m : Kernel} (h : k.Grown l) (h' : l.Grown m) : k.Grown m where
  overlapped hk := h'.overlapped (h.overlapped hk)
  completions := Nat.le_trans h.completions h'.completions
  sent := h'.sent.trans h.sent

theorem Came.after {progress : Progress} (h : a.kernel.Grown b.kernel) (hc : Came b progress c) :
    Came a progress c := by
  obtain ⟨hgrown, hend⟩ := hc
  refine ⟨h.trans hgrown, ?_⟩
  cases progress with
  | pending => exact hend
  | request message => exact ⟨hend.1, Nat.le_trans h.completions hend.2.1, hend.2.2⟩

theorem Failed.after (h : a.kernel.Grown b.kernel) (hf : Failed b c) : Failed a c :=
  ⟨h.trans hf.1, hf.2⟩

theorem wp_ask {α : Type} {answer : System → Nat → α} {Q : α → Attached → Prop}
    {E : MaintenanceError → Attached → Prop} {C : Attached → Prop}
    (h : ∀ x, Q x { a with kernel.calls := a.kernel.calls + 1 }) :
    Wp A (ask system answer) Q E C a :=
  Wp.bind (Wp.look (Wp.bind (Wp.assign (Wp.pure (h _)))))

/-- An operation that is started where none is pending, and ended. -/
theorem grown_begin (hpending : a.inst.pending = []) (operation : Operation) (calls : Nat) :
    a.kernel.Grown { (a.begin operation).kernel with calls } where
  overlapped hk := by simp [Attached.begin, hk, hpending]
  completions := Nat.le_refl _
  sent := rfl

theorem wp_startRead (hpending : a.inst.pending = []) (hclient : a.inst.client.isSome = true)
    (readTimeout : Nat) :
    Wp A (startRead system readTimeout) (fun progress b => Came a progress b) (fun _ _ => False)
      (fun _ => False) a := by
  unfold startRead readFile
  refine Wp.bind (Wp.bind (Wp.assign (Wp.bind (wp_ask fun answer =>
    Wp.bind (wp_ask fun outcome => ?_)))))
  cases answer with
  | ok =>
    refine Wp.bind (Wp.assign (Wp.pure (Wp.bind (wp_ask fun now => Wp.bind (Wp.assign ?_)))))
    unfold finishRead getOverlappedResult
    refine Wp.bind (Wp.bind (Wp.look (Wp.bind (Wp.assign (Wp.pure (Wp.pure ?_))))))
    refine ⟨⟨fun hk => ?_, Nat.le_succ _, rfl⟩, ⟨rfl, ?_, hclient, ?_⟩, ?_, ?_⟩ <;>
      simp [Attached.begin, Attached.finish, Attached.withPhase, hpending]
    exact hk
  | ioPending =>
    refine Wp.pure (Wp.bind (wp_ask fun now => Wp.bind (Wp.assign (Wp.pure ?_))))
    refine ⟨⟨fun hk => ?_, Nat.le_refl _, rfl⟩, ?_, ?_⟩
    · simpa [Attached.begin, Attached.withPhase, hpending] using hk
    · simp [Attached.begin, Attached.withPhase, hpending, Phase.operation]
    · exact fun _ _ => hclient
  | failed status =>
    refine Wp.bind (Wp.assign (Wp.pure (Wp.bind (Wp.assign (Wp.bind (Wp.look (Wp.pure ?_)))))))
    refine ⟨⟨fun hk => ?_, Nat.le_succ _, rfl⟩, ⟨rfl, ?_, hclient, ?_⟩, ?_, ?_⟩ <;>
      simp [Attached.begin, Attached.finish, Attached.withPhase, hpending]
    exact hk

theorem wp_connectNamedPipe (hpending : a.inst.pending = []) :
    Wp A (connectNamedPipe system)
      (fun answer b => a.kernel.Grown b.kernel ∧ b.inst.phase = a.inst.phase ∧
        match answer with
        | .ok | .pipeConnected => b.inst.pending = [] ∧ b.inst.client.isSome = true
        | .ioPending => b.inst.pending = [.connect]
        | .noData | .failed _ => b.inst.pending = [])
      (fun _ _ => False) (fun _ => False) a := by
  unfold connectNamedPipe
  refine Wp.bind (Wp.assign (Wp.bind (wp_ask fun answer => ?_)))
  have hgrown : ∀ calls, a.kernel.Grown { (a.begin .connect).kernel with calls } := fun calls =>
    ⟨fun hk => by simp [Attached.begin, hk, hpending], Nat.le_refl _, rfl⟩
  cases answer with
  | ok =>
    refine Wp.bind (Wp.assign (Wp.pure ⟨⟨(hgrown 0).overlapped, Nat.le_succ _, rfl⟩, rfl, ?_, rfl⟩))
    simp [Attached.begin, Attached.finish, Attached.connected, hpending]
  | pipeConnected =>
    refine Wp.bind (Wp.assign (Wp.pure ⟨⟨(hgrown 0).overlapped, Nat.le_succ _, rfl⟩, rfl, ?_, rfl⟩))
    simp [Attached.begin, Attached.finish, Attached.connected, hpending]
  | ioPending =>
    refine Wp.pure ⟨hgrown _, rfl, ?_⟩
    simp [Attached.begin, hpending]
  | noData =>
    refine Wp.bind (Wp.assign (Wp.pure ⟨⟨(hgrown 0).overlapped, Nat.le_succ _, rfl⟩, rfl, ?_⟩))
    simp [Attached.begin, Attached.finish, hpending]
  | failed status =>
    refine Wp.bind (Wp.assign (Wp.pure ⟨⟨(hgrown 0).overlapped, Nat.le_succ _, rfl⟩, rfl, ?_⟩))
    simp [Attached.begin, Attached.finish, hpending]

theorem wp_connectLoop (readTimeout attempts : Nat) {a : Attached} (hphase : a.inst.phase = .held)
    (hpending : a.inst.pending = []) :
    Wp A (connectLoop system readTimeout attempts) (fun progress b => Came a progress b)
      (fun _ b => Failed a b) (fun _ => False) a := by
  induction attempts generalizing a with
  | zero => exact Wp.throw ⟨.refl _, hphase, hpending⟩
  | succ attempts ih =>
    refine Wp.bind ((wp_connectNamedPipe hpending).mono (fun answer b hb => ?_) (fun _ _ h => h.elim)
      fun _ h => h)
    obtain ⟨hgrown, hsame, hanswer⟩ := hb
    have hread : b.inst.pending = [] → b.inst.client.isSome = true →
        Wp A (startRead system readTimeout) (fun progress b => Came a progress b)
          (fun _ b => Failed a b) (fun _ => False) b := by
      intro hb hclient
      exact (wp_startRead hb hclient readTimeout).mono (fun _ _ h => h.after hgrown)
        (fun _ _ h => h.elim) fun _ h => h
    cases answer with
    | ok => exact hread hanswer.1 hanswer.2
    | pipeConnected => exact hread hanswer.1 hanswer.2
    | ioPending =>
      refine Wp.bind (Wp.assign (Wp.pure ⟨hgrown, hanswer, fun deadline hreading => ?_⟩))
      cases hreading
    | noData =>
      refine Wp.bind (Wp.assign ?_)
      exact (ih (a := { b with inst.client := none }) (hsame.trans hphase) hanswer).mono
        (fun _ _ h => h.after hgrown) (fun _ _ h => h.after hgrown) fun _ h => h
    | failed status => exact Wp.throw ⟨hgrown, hsame.trans hphase, hanswer⟩

theorem wp_listen (hfits : a.inst.Fits) (readTimeout : Nat) :
    Wp A (listen system readTimeout) (fun progress b => Came a progress b)
      (fun _ b => Failed a b) (fun _ => False) a := by
  have hcancel : Wp A (cancelPending system)
      (fun _ b => a.kernel.Grown b.kernel ∧ b.inst.phase = .held ∧ b.inst.pending = [])
      (fun _ _ => False) (fun _ => False) a := by
    refine Wp.bind (Wp.look ?_)
    have hpending := hfits.pending
    cases hoperation : a.inst.phase.operation with
    | none =>
      refine Wp.pure ⟨.refl _, ?_, by rw [hpending, hoperation]; rfl⟩
      cases hphase : a.inst.phase <;> simp_all [Phase.operation]
    | some operation =>
      refine Wp.bind (Wp.bind (wp_ask fun outcome => Wp.assign (Wp.assign ?_)))
      refine ⟨⟨fun hk => hk, Nat.le_succ _, rfl⟩, rfl, ?_⟩
      simp [Attached.finish, Attached.withPhase, hpending, hoperation]
  refine Wp.bind (hcancel.mono (fun _ b hb => ?_) (fun _ _ h => h.elim) fun _ h => h)
  refine Wp.bind (Wp.assign ?_)
  exact (wp_connectLoop readTimeout 4 (a := { b with inst.client := none }) hb.2.1 hb.2.2).mono
    (fun _ _ h => h.after hb.1) (fun _ _ h => h.after hb.1) fun _ h => h

/-- The operation of the instance has ended and its event is signaled. -/
structure Signaled (a b : Attached) : Prop where
  grown : a.kernel.Grown b.kernel
  phase : b.inst.phase = a.inst.phase
  pending : b.inst.pending = []
  connected : b.inst.phase = .listening → b.inst.completed.outcome.isOk = true →
    b.inst.client.isSome = true
  client : ∀ deadline, b.inst.phase = .reading deadline → b.inst.client.isSome = true
  sender : ∀ deadline, b.inst.phase = .reading deadline →
    b.inst.completed.sender = b.inst.client ∧ a.kernel.completions ≤ b.inst.completed.serial ∧
      b.inst.completed.serial < b.kernel.completions

theorem wp_signal (hfits : a.inst.Fits) :
    Wp A (signal system) (fun _ b => Signaled a b) (fun _ _ => False) (fun _ => False) a := by
  have hpending := hfits.pending
  refine Wp.bind (wp_ask fun outcome => Wp.bind (Wp.look ?_))
  cases hphase : a.inst.phase with
  | listening =>
    simp only [hpending, hphase, Phase.operation, Option.toList_some, List.head?_cons]
    refine Wp.bind (Wp.assign ?_)
    have hfinished : (a.inst.pending.erase .connect) = [] := by
      simp [hpending, hphase, Phase.operation]
    cases hok : outcome.isOk with
    | true =>
      simp only [if_true]
      exact Wp.assign ⟨⟨fun hk => hk, Nat.le_succ _, rfl⟩, rfl, hfinished, fun _ _ => rfl,
        fun _ _ => rfl, fun _ hreading => (by cases hphase.symm.trans hreading)⟩
    | false =>
      simp only [Bool.false_eq_true, if_false]
      refine Wp.pure ⟨⟨fun hk => hk, Nat.le_succ _, rfl⟩, rfl, hfinished, fun _ hended => ?_,
        fun _ hreading => (by cases hphase.symm.trans hreading),
        fun _ hreading => (by cases hphase.symm.trans hreading)⟩
      cases hok.symm.trans hended
  | reading deadline =>
    simp only [hpending, hphase, Phase.operation, Option.toList_some, List.head?_cons]
    have hfinished : (a.inst.pending.erase .read) = [] := by
      simp [hpending, hphase, Phase.operation]
    exact Wp.assign ⟨⟨fun hk => hk, Nat.le_succ _, rfl⟩, rfl, hfinished,
      fun hlistening => (by cases hphase.symm.trans hlistening), fun _ _ => hfits.client _ hphase,
      fun _ _ => ⟨rfl, Nat.le_refl _, Nat.lt_succ_self _⟩⟩
  | held =>
    simp only [hpending, hphase, Phase.operation, Option.toList_none, List.head?_nil]
    exact Wp.pure ⟨⟨fun hk => hk, Nat.le_refl _, rfl⟩, rfl, by rw [hpending, hphase]; rfl,
      fun hlistening => (by cases hphase.symm.trans hlistening),
      fun _ hreading => (by cases hphase.symm.trans hreading),
      fun _ hreading => (by cases hphase.symm.trans hreading)⟩

theorem wp_complete {a₀ : Attached} (h : Signaled a₀ a) (readTimeout : Nat) :
    Wp A (complete system readTimeout) (fun progress b => Came a₀ progress b)
      (fun _ b => Failed a₀ b) (fun _ => False) a := by
  refine Wp.bind (Wp.look ?_)
  cases hphase : a.inst.phase with
  | listening =>
    refine Wp.bind (Wp.look (Wp.bind (Wp.assign ?_)))
    simp only [h.pending, List.isEmpty_nil, if_true]
    cases hok : a.inst.completed.outcome.isOk with
    | true =>
      simp only [if_true]
      exact (wp_startRead (a := a.withPhase .held) h.pending (h.connected hphase hok)
        readTimeout).mono (fun _ _ hc => hc.after h.grown) (fun _ _ h => h.elim) fun _ h => h
    | false =>
      simp only [Bool.false_eq_true, if_false]
      have hfits : (a.withPhase .held).inst.Fits := ⟨h.pending, fun _ hreading => by cases hreading⟩
      exact (wp_listen hfits readTimeout).mono (fun _ _ hc => hc.after h.grown)
        (fun _ _ hf => hf.after h.grown) fun _ h => h
  | reading deadline =>
    unfold finishRead getOverlappedResult
    refine Wp.bind (Wp.bind (Wp.look (Wp.bind (Wp.assign (Wp.pure (Wp.pure ?_))))))
    simp only [h.pending, List.isEmpty_nil, if_true]
    obtain ⟨hsender, hnew, hold⟩ := h.sender deadline hphase
    exact ⟨h.grown, ⟨rfl, h.pending, h.client deadline hphase, hsender⟩, hnew, hold⟩
  | held => exact Wp.pure ⟨h.grown, by rw [h.pending, hphase]; rfl, fun _ hreading =>
      (by cases hphase.symm.trans hreading)⟩

/-- A write is over when it returns, and it went to the client that is connected. -/
structure Written (a : Attached) (bytes : Bytes) (b : Attached) : Prop where
  overlapped : a.kernel.overlapped = false → b.kernel.overlapped = false
  completions : a.kernel.completions ≤ b.kernel.completions
  sent : b.kernel.sent = a.kernel.sent ++ [(a.inst.client, bytes)]
  phase : b.inst.phase = .held
  pending : b.inst.pending = []

theorem wp_write (hphase : a.inst.phase = .held) (hpending : a.inst.pending = []) (bytes : Bytes) :
    Wp A (write system bytes) (fun _ b => Written a bytes b) (fun _ b => Written a bytes b)
      (fun _ => False) a := by
  unfold write drain
  refine Wp.bind (Wp.assign (Wp.bind (Wp.assign (Wp.bind (wp_ask fun answer =>
    Wp.bind (Wp.bind (wp_ask fun outcome => Wp.assign ?_)))))))
  have hover : a.kernel.overlapped = false →
      (a.kernel.overlapped || !a.inst.pending.isEmpty) = false := by
    intro hk
    simp [hk, hpending]
  have hnone : (a.inst.pending ++ [Operation.write]).erase .write = [] := by
    simp [hpending]
  have hresult : ∀ {b : Attached}, Written a bytes b →
      Wp A (do
        match (← getOverlappedResult).outcome with
        | .error status => throw (pipeError "IPC response write did not complete" status)
        | .ok transferred =>
          lift (rejectIf (transferred.length ≠ bytes.length)
            (.new .transactionIo "IPC response write was incomplete")) : InstanceProg Unit)
        (fun _ t => Written a bytes t) (fun _ t => Written a bytes t) (fun _ => False) b := by
    intro b hb
    refine Wp.bind (Wp.look ?_)
    cases (if b.inst.pending.isEmpty then b.inst.completed
      else { b.inst.completed with outcome := .error errorIoIncomplete }).outcome with
    | error status => exact Wp.throw hb
    | ok transferred => exact Wp.lift (fun _ _ => hb) fun _ _ => hb
  cases answer with
  | ok => exact hresult ⟨hover, Nat.le_succ _, rfl, hphase, hnone⟩
  | ioPending inTime =>
    cases inTime with
    | true => exact hresult ⟨hover, Nat.le_succ _, rfl, hphase, hnone⟩
    | false => exact Wp.bind (Wp.throw ⟨hover, Nat.le_succ _, rfl, hphase, hnone⟩)
  | failed status => exact Wp.bind (Wp.throw ⟨hover, Nat.le_succ _, rfl, hphase, hnone⟩)

end Specs

/-! ### The queue and the caller -/

namespace PipeServer

/-- What holds while the caller has the requests `hands` and has been given `returned`. -/
structure Sound (hands returned : List (Nat × Message)) (server : PipeServer) : Prop where
  fits : ∀ inst ∈ server.instances, inst.Fits
  holds : ∀ e ∈ hands ++ server.ready, ∃ inst,
    server.instances[e.1]? = some inst ∧ inst.Holds e.2
  slots : ((hands ++ server.ready).map (·.1)).Nodup
  serials : ((returned ++ server.ready).map (·.2.serial)).Nodup
  read : ∀ e ∈ returned ++ server.ready, e.2.serial < server.kernel.completions
  overlapped : server.kernel.overlapped = false

/-- The instances of the caller's requests are left alone and nothing is written. -/
structure Apart (hands : List (Nat × Message)) (s t : PipeServer) : Prop where
  instances : ∀ e ∈ hands, t.instances[e.1]? = s.instances[e.1]?
  sent : t.kernel.sent = s.kernel.sent

/-- Neither the caller nor the queue has the slot. -/
def Free (hands : List (Nat × Message)) (server : PipeServer) (slot : Nat) : Prop :=
  ∀ e ∈ hands ++ server.ready, e.1 ≠ slot

section Specs

variable {system : System} {hands returned : List (Nat × Message)} {s t u : PipeServer} {slot : Nat}
  {A : Event Empty → Prop} {a b : Attached} {α : Type}

theorem Apart.refl (hands : List (Nat × Message)) (s : PipeServer) : Apart hands s s :=
  ⟨fun _ _ => rfl, rfl⟩

theorem Apart.trans (h : Apart hands s t) (h' : Apart hands t u) : Apart hands s u :=
  ⟨fun e he => (h'.instances e he).trans (h.instances e he), h'.sent.trans h.sent⟩

/-- The server with another state of one instance. -/
def replaced (s : PipeServer) (slot : Nat) (a : Attached) : PipeServer := (slotPart slot).set a s

theorem replaced_replaced (s : PipeServer) (slot : Nat) (a b : Attached) :
    (s.replaced slot a).replaced slot b = s.replaced slot b := by
  simp [replaced, slotPart]

theorem getElem?_replaced {inst : Instance} (h : s.instances[slot]? = some inst) :
    (s.replaced slot a).instances[slot]? = some a.inst := by
  have hlt : slot < s.instances.length := (List.getElem?_eq_some_iff.mp h).1
  simp [replaced, slotPart, hlt]

theorem getElem?_replaced_of_ne {other : Nat} (h : other ≠ slot) :
    (s.replaced slot a).instances[other]? = s.instances[other]? := by
  simp [replaced, slotPart, List.getElem?_set_ne (Ne.symm h)]

theorem wp_onInstance {p : InstanceProg α} {Q : α → PipeServer → Prop}
    {E : MaintenanceError → PipeServer → Prop} {C : PipeServer → Prop}
    (hnone : s.instances[slot]? = none → ∀ e, E e s)
    (hsome : ∀ inst, s.instances[slot]? = some inst →
      Wp A p (fun x b => Q x (s.replaced slot b)) (fun e b => E e (s.replaced slot b))
        (fun b => C (s.replaced slot b)) ⟨inst, s.kernel⟩) :
    Wp A (onInstance slot p) Q E C s := by
  refine Wp.bind (Wp.look (Wp.bind (Wp.lift (fun _ hknown => ?_) fun e herror => ?_)))
  · have hlt : slot < s.instances.length := by simpa using rejectIf_eq_ok.mp hknown
    have hinst := hsome _ (List.getElem?_eq_getElem hlt)
    refine Wp.part ?_
    simpa [slotPart, replaced, hlt] using hinst
  · refine hnone (List.getElem?_eq_none (Nat.le_of_not_lt fun hlt => ?_)) e
    simp [rejectIf, hlt] at herror

theorem mem_replaced {inst : Instance} (h : inst ∈ (s.replaced slot a).instances) :
    inst = a.inst ∨ inst ∈ s.instances := by
  simp only [replaced, slotPart] at h
  exact (List.mem_or_eq_of_mem_set h).symm

theorem Sound.congr (h : Sound hands returned s) (hinstances : t.instances = s.instances)
    (hready : t.ready = s.ready) (hcompletions : t.kernel.completions = s.kernel.completions)
    (hoverlapped : t.kernel.overlapped = s.kernel.overlapped) : Sound hands returned t where
  fits := by simpa [hinstances] using h.fits
  holds := by simpa [hinstances, hready] using h.holds
  slots := by simpa [hready] using h.slots
  serials := by simpa [hready] using h.serials
  read := by simpa [hready, hcompletions] using h.read
  overlapped := by simpa [hoverlapped] using h.overlapped

theorem Sound.replaced (h : Sound hands returned s) (hfree : Free hands s slot)
    (hover : b.kernel.overlapped = false) (hgrown : s.kernel.completions ≤ b.kernel.completions)
    (hfits : b.inst.Fits) : Sound hands returned (s.replaced slot b) where
  fits inst hinst := by
    obtain rfl | hinst := mem_replaced hinst
    · exact hfits
    · exact h.fits inst hinst
  holds e he := by
    rw [getElem?_replaced_of_ne (hfree e he)]
    exact h.holds e he
  slots := h.slots
  serials := h.serials
  read e he := Nat.lt_of_lt_of_le (h.read e he) hgrown
  overlapped := hover

/-- A request that was just read is queued. -/
theorem Sound.queued {message : Message} {inst : Instance} (h : Sound hands returned s)
    (hfree : Free hands s slot) (hinst : s.instances[slot]? = some inst)
    (hover : b.kernel.overlapped = false) (hholds : b.inst.Holds message)
    (hnew : s.kernel.completions ≤ message.serial)
    (hold : message.serial < b.kernel.completions) :
    Sound hands returned { s.replaced slot b with ready := s.ready ++ [(slot, message)] } := by
  have hfits : b.inst.Fits := ⟨by rw [hholds.pending, hholds.phase]; rfl, fun _ hreading => by
    cases hholds.phase.symm.trans hreading⟩
  have hbase := h.replaced hfree hover (Nat.le_of_lt (Nat.lt_of_le_of_lt hnew hold)) hfits
  constructor
  · exact hbase.fits
  · intro e he
    rw [← List.append_assoc] at he
    rcases List.mem_append.mp he with he | he
    · exact hbase.holds e he
    · obtain rfl := List.mem_singleton.mp he
      exact ⟨b.inst, getElem?_replaced hinst, hholds⟩
  · rw [← List.append_assoc, List.map_append]
    refine List.nodup_append.mpr ⟨hbase.slots, by simp, ?_⟩
    intro other hother _ hslot
    obtain ⟨e, he, rfl⟩ := List.mem_map.mp hother
    obtain rfl := List.mem_singleton.mp hslot
    exact hfree e he
  · rw [← List.append_assoc, List.map_append]
    refine List.nodup_append.mpr ⟨hbase.serials, by simp, ?_⟩
    intro serial hserial _ hmessage
    obtain ⟨e, he, rfl⟩ := List.mem_map.mp hserial
    obtain rfl := List.mem_singleton.mp hmessage
    exact Nat.ne_of_lt (Nat.lt_of_lt_of_le (h.read e he) hnew)
  · intro e he
    rw [← List.append_assoc] at he
    rcases List.mem_append.mp he with he | he
    · exact hbase.read e he
    · obtain rfl := List.mem_singleton.mp he
      exact hold
  · exact hover

/-- The server keeps what holds; only `slot` may have come to the queue. -/
structure Served (hands returned : List (Nat × Message)) (s : PipeServer) (slot : Nat)
    (t : PipeServer) : Prop where
  sound : Sound hands returned t
  apart : Apart hands s t
  ready : ∀ e ∈ t.ready, e ∈ s.ready ∨ e.1 = slot

theorem Served.free {other : Nat} (h : Served hands returned s slot t) (hfree : Free hands s other)
    (hne : other ≠ slot) : Free hands t other := by
  intro e he
  rcases List.mem_append.mp he with he | he
  · exact hfree e (List.mem_append_left _ he)
  · rcases h.ready e he with he | he
    · exact hfree e (List.mem_append_right _ he)
    · exact fun hother => hne (hother.symm.trans he)

theorem Free.apart (hfree : Free hands s slot) (hsent : b.kernel.sent = s.kernel.sent) :
    Apart hands s (s.replaced slot b) :=
  ⟨fun e he => getElem?_replaced_of_ne (hfree e (List.mem_append_left _ he)), hsent⟩

theorem served_of_fits (h : Sound hands returned s) (hfree : Free hands s slot)
    (hgrown : s.kernel.Grown b.kernel) (hfits : b.inst.Fits) :
    Served hands returned s slot (s.replaced slot b) :=
  ⟨h.replaced hfree (hgrown.overlapped h.overlapped) hgrown.completions hfits,
    hfree.apart hgrown.sent, fun _ he => .inl he⟩

theorem served_of_failed {inst : Instance} (h : Sound hands returned s) (hfree : Free hands s slot)
    (hfailed : Failed ⟨inst, s.kernel⟩ b) : Served hands returned s slot (s.replaced slot b) := by
  obtain ⟨hgrown, hphase, hpending⟩ := hfailed
  exact served_of_fits h hfree hgrown ⟨by rw [hpending, hphase]; rfl, fun _ hreading => by
    cases hphase.symm.trans hreading⟩

/-- What an instance has come to is queued where it is a request. -/
theorem wp_push {inst : Instance} {progress : Progress} (h : Sound hands returned s)
    (hfree : Free hands s slot) (hinst : s.instances[slot]? = some inst)
    (hcame : Came ⟨inst, s.kernel⟩ progress b) {E : MaintenanceError → PipeServer → Prop}
    {C : PipeServer → Prop} :
    Wp A (push slot progress) (fun _ t => Served hands returned s slot t) E C
      (s.replaced slot b) := by
  obtain ⟨hgrown, hend⟩ := hcame
  cases progress with
  | pending => exact Wp.pure (served_of_fits h hfree hgrown hend)
  | request message =>
    obtain ⟨hholds, hnew, hold⟩ := hend
    refine Wp.assign ⟨h.queued hfree hinst (hgrown.overlapped h.overlapped) hholds hnew hold, ?_, ?_⟩
    · exact ⟨(hfree.apart hgrown.sent).instances, hgrown.sent⟩
    · intro e he
      rcases List.mem_append.mp he with he | he
      · exact .inl he
      · exact .inr (by simp [List.mem_singleton.mp he])

theorem wp_listen (h : Sound hands returned s) (hfree : Free hands s slot) :
    Wp A (listen system slot) (fun _ t => Served hands returned s slot t)
      (fun _ t => Served hands returned s slot t) (fun _ => False) s := by
  have hsame : Served hands returned s slot s := ⟨h, .refl _ _, fun _ he => .inl he⟩
  refine Wp.bind (Wp.look (Wp.bind (wp_onInstance (fun _ _ => hsame) fun inst hinst => ?_)))
  have hfits : (⟨inst, s.kernel⟩ : Attached).inst.Fits := h.fits inst (List.mem_of_getElem? hinst)
  refine (Pipe.wp_listen hfits s.readTimeout).mono (fun progress b hcame => ?_) (fun _ b hfailed => ?_)
    fun _ hfalse => hfalse
  · exact wp_push h hfree hinst hcame
  · exact served_of_failed h hfree hfailed

/-- What a service of several slots keeps. -/
def Kept (hands returned : List (Nat × Message)) (s t : PipeServer) : Prop :=
  Sound hands returned t ∧ Apart hands s t

theorem wp_listenAll (slots : List Nat) {s : PipeServer} (h : Sound hands returned s)
    (hfree : ∀ slot ∈ slots, Free hands s slot) (hnodup : slots.Nodup) :
    Wp A (listenAll system slots) (fun _ t => Kept hands returned s t)
      (fun _ t => Kept hands returned s t) (fun _ => False) s := by
  induction slots generalizing s with
  | nil => exact Wp.pure ⟨h, .refl _ _⟩
  | cons slot slots ih =>
    obtain ⟨hnew, hnodup⟩ := List.nodup_cons.mp hnodup
    refine Wp.bind ((wp_listen h (hfree slot (List.mem_cons_self))).mono (fun _ t ht => ?_)
      (fun _ t ht => ⟨ht.sound, ht.apart⟩) fun _ hfalse => hfalse)
    have hothers : ∀ other ∈ slots, Free hands t other := by
      intro other hother
      exact ht.free (hfree other (List.mem_cons_of_mem _ hother)) fun hsame => hnew (hsame ▸ hother)
    exact (ih ht.sound hothers hnodup).mono (fun _ _ hu => ⟨hu.1, ht.apart.trans hu.2⟩)
      (fun _ _ hu => ⟨hu.1, ht.apart.trans hu.2⟩) fun _ hfalse => hfalse

theorem Sound.free_of_phase (h : Sound hands returned s)
    (hphase : (s.instances.getD slot .created).phase ≠ .held) : Free hands s slot := by
  intro e he hslot
  obtain ⟨inst, hinst, hholds⟩ := h.holds e he
  rw [hslot] at hinst
  refine hphase ?_
  rw [List.getD_eq_getElem?_getD, hinst]
  exact hholds.phase

theorem wp_ask {answer : System → Nat → α} {Q : α → PipeServer → Prop}
    {E : MaintenanceError → PipeServer → Prop} {C : PipeServer → Prop}
    (h : ∀ x, Q x { s with kernel.calls := s.kernel.calls + 1 }) :
    Wp A (ask system answer) Q E C s :=
  Wp.bind (Wp.look (Wp.bind (Wp.assign (Wp.pure (h _)))))

theorem Sound.called (h : Sound hands returned s) (calls : Nat) :
    Sound hands returned { s with kernel.calls := calls } := h.congr rfl rfl rfl rfl

theorem wp_touch (h : Sound hands returned s) {E : MaintenanceError → PipeServer → Prop}
    {C : PipeServer → Prop} :
    Wp A (touch system) (fun _ t => Kept hands returned s t ∧ t.ready = s.ready ∧
      t.instances = s.instances ∧ t.kernel.sent = s.kernel.sent) E C s :=
  Wp.bind (wp_ask fun _ => Wp.assign
    ⟨⟨h.congr rfl rfl rfl rfl, fun _ _ => rfl, rfl⟩, rfl, rfl, rfl⟩)

theorem wp_expireReads (h : Sound hands returned s) :
    Wp A (expireReads system) (fun _ t => Kept hands returned s t)
      (fun _ t => Kept hands returned s t) (fun _ => False) s := by
  refine Wp.bind (wp_ask fun now => Wp.bind (Wp.look ?_))
  refine (wp_listenAll _ (h.called _) (fun slot hslot => ?_) ?_).mono (fun _ t ht => ⟨ht.1, ?_⟩)
    (fun _ t ht => ⟨ht.1, ?_⟩) fun _ hfalse => hfalse
  · refine (h.called _).free_of_phase fun hheld => ?_
    have hexpired := (List.mem_filter.mp hslot).2
    rw [hheld] at hexpired
    cases hexpired
  · exact List.Pairwise.filter _ List.nodup_range
  · exact ⟨ht.2.instances, ht.2.sent⟩
  · exact ⟨ht.2.instances, ht.2.sent⟩

theorem wp_completeSlot (h : Sound hands returned s) (hfree : Free hands s slot) :
    Wp A (completeSlot system slot) (fun _ t => Kept hands returned s t)
      (fun _ t => Kept hands returned s t) (fun _ => False) s := by
  have hsame : Kept hands returned s s := ⟨h, .refl _ _⟩
  refine Wp.bind (wp_onInstance (fun _ _ => hsame) fun inst hinst => ?_)
  have hfits : (⟨inst, s.kernel⟩ : Attached).inst.Fits := h.fits inst (List.mem_of_getElem? hinst)
  refine (wp_signal hfits).mono (fun _ a ha => ?_) (fun _ _ hfalse => hfalse.elim)
    fun _ hfalse => hfalse
  refine Wp.bind (Wp.look (Wp.bind (Wp.look (Wp.bind
    (wp_onInstance (fun hnone => ?_) fun inst' hinst' => ?_)))))
  · cases hnone.symm.trans (getElem?_replaced hinst)
  · obtain rfl := Option.some.inj (hinst'.symm.trans (getElem?_replaced hinst))
    refine (wp_complete ha s.readTimeout).mono (fun progress b hcame => ?_)
      (fun _ b hfailed => ?_) fun _ hfalse => hfalse
    · rw [replaced_replaced]
      cases progress with
      | request message =>
        exact (wp_push h hfree hinst hcame).mono (fun _ t ht => ⟨ht.sound, ht.apart⟩)
          (fun _ _ hfalse => hfalse) fun _ hfalse => hfalse
      | pending =>
        have hserved := served_of_fits h hfree hcame.1 hcame.2
        dsimp only
        split
        · exact (wp_touch hserved.sound).mono (fun _ t ht => ⟨ht.1.1, hserved.apart.trans ht.1.2⟩)
            (fun _ _ hfalse => hfalse) fun _ hfalse => hfalse
        · exact Wp.pure ⟨hserved.sound, hserved.apart⟩
    · rw [replaced_replaced]
      have hserved := served_of_failed h hfree hfailed
      exact ⟨hserved.sound, hserved.apart⟩

/-- A request that is returned leaves the queue for the hands of the caller. -/
def Returned (hands returned : List (Nat × Message)) (s : PipeServer) :
    PipeEvent → PipeServer → Prop
  | .request slot message, t =>
    Sound (hands ++ [(slot, message)]) (returned ++ [(slot, message)]) t ∧ Apart hands s t
  | _, t => Kept hands returned s t

theorem Returned.after {event : PipeEvent} (h : Apart hands s t)
    (hr : Returned hands returned t event u) : Returned hands returned s event u := by
  cases event with
  | request slot message => exact ⟨hr.1, h.trans hr.2⟩
  | stop => exact ⟨hr.1, h.trans hr.2⟩
  | wake => exact ⟨hr.1, h.trans hr.2⟩
  | idle => exact ⟨hr.1, h.trans hr.2⟩

theorem Sound.taken {message : Message} {ready : List (Nat × Message)}
    (h : Sound hands returned s) (hready : s.ready = (slot, message) :: ready) :
    Sound (hands ++ [(slot, message)]) (returned ++ [(slot, message)]) { s with ready } where
  fits := h.fits
  holds := by simpa [hready] using h.holds
  slots := by simpa [hready] using h.slots
  serials := by simpa [hready] using h.serials
  read := by simpa [hready] using h.read
  overlapped := h.overlapped

theorem wp_nextEvent (idleTimeout waitsLeft : Nat) {s : PipeServer} (h : Sound hands returned s) :
    Wp A (nextEvent system idleTimeout waitsLeft) (fun event t => Returned hands returned s event t)
      (fun _ t => Kept hands returned s t) (fun t => Kept hands returned s t) s := by
  induction waitsLeft generalizing s with
  | zero => exact fun _ hs => ⟨hs, h, .refl _ _⟩
  | succ waitsLeft ih =>
    have hagain : ∀ {t : PipeServer}, Kept hands returned s t →
        Wp A (nextEvent system idleTimeout waitsLeft)
          (fun event u => Returned hands returned s event u)
          (fun _ u => Kept hands returned s u) (fun u => Kept hands returned s u) t := by
      intro t ht
      exact (ih ht.1).mono (fun _ _ hu => hu.after ht.2) (fun _ _ hu => ⟨hu.1, ht.2.trans hu.2⟩)
        fun _ hu => ⟨hu.1, ht.2.trans hu.2⟩
    unfold nextEvent
    refine Wp.bind (Wp.look ?_)
    cases hready : s.ready with
    | cons e ready =>
      obtain ⟨slot, message⟩ := e
      refine Wp.bind (Wp.assign (Wp.bind ((wp_touch (h.taken hready)).mono
        (fun _ t ht => Wp.pure ⟨ht.1.1, fun e _ => ?_, ht.2.2.2⟩) (fun _ _ hfalse => hfalse)
        fun _ hfalse => hfalse)))
      rw [ht.2.2.1]
    | nil =>
      refine Wp.bind (Wp.look (Wp.bind (Wp.look ?_)))
      generalize (if s.busy then none else some (s.lastActivity + idleTimeout)) = idleDeadline
      refine Wp.bind (wp_ask fun answer => ?_)
      have hsame : Kept hands returned s { s with kernel.calls := s.kernel.calls + 1 } :=
        ⟨h.called _, fun _ _ => rfl, rfl⟩
      cases answer with
      | timeout =>
        refine Wp.bind ((wp_expireReads hsame.1).mono (fun _ t ht => ?_)
          (fun _ t ht => ⟨ht.1, hsame.2.trans ht.2⟩) fun _ hfalse => hfalse.elim)
        refine Wp.bind (wp_ask fun now => Wp.bind (Wp.look ?_))
        have ht : Kept hands returned s { t with kernel.calls := t.kernel.calls + 1 } :=
          ⟨ht.1.called _, ht.2.instances, ht.2.sent⟩
        split
        · exact Wp.pure ht
        · exact hagain ht
      | failed => exact Wp.throw hsame
      | signaled index =>
        match index with
        | 0 => exact Wp.pure hsame
        | 1 => exact Wp.pure hsame
        | index + 2 =>
          cases hslot : s.waiting[index]? with
          | none =>
            simp only [hslot]
            exact Wp.throw hsame
          | some slot =>
            simp only [hslot]
            have hwaiting := (List.mem_filter.mp (List.mem_of_getElem? hslot)).2
            have hfree : Free hands { s with kernel.calls := s.kernel.calls + 1 } slot :=
              hsame.1.free_of_phase (by simpa using hwaiting)
            exact Wp.bind ((wp_completeSlot hsame.1 hfree).mono
              (fun _ t ht => hagain ⟨ht.1, hsame.2.trans ht.2⟩)
              (fun _ t ht => ⟨ht.1, hsame.2.trans ht.2⟩) fun _ hfalse => hfalse.elim)

/-- The hands of the caller without a slot. -/
def without (hands : List (Nat × Message)) (slot : Nat) : List (Nat × Message) :=
  hands.filter fun e => e.1 ≠ slot

theorem Sound.without (h : Sound hands returned s) (slot : Nat) :
    Sound (without hands slot) returned s where
  fits := h.fits
  holds e he := by
    refine h.holds e ?_
    rcases List.mem_append.mp he with he | he
    · exact List.mem_append_left _ (List.mem_filter.mp he).1
    · exact List.mem_append_right _ he
  slots := by
    refine List.Pairwise.sublist ?_ h.slots
    exact (List.Sublist.append_right (List.filter_sublist) _).map _
  serials := h.serials
  read := h.read
  overlapped := h.overlapped

theorem Sound.free_without {message : Message} (h : Sound hands returned s)
    (hhands : (slot, message) ∈ hands) : Free (PipeServer.without hands slot) s slot := by
  intro e he hslot
  rcases List.mem_append.mp he with he | he
  · simpa [hslot] using (List.mem_filter.mp he).2
  · have hdistinct := (List.nodup_append.mp (List.map_append ▸ h.slots)).2.2
    exact hdistinct slot (List.mem_map_of_mem hhands) e.1 (List.mem_map_of_mem he) hslot.symm

theorem wp_release {message : Message} (h : Sound hands returned s)
    (hhands : (slot, message) ∈ hands) :
    Wp A (release system slot) (fun _ t => Kept (without hands slot) returned s t)
      (fun _ t => Kept (without hands slot) returned s t) (fun _ => False) s := by
  have hfree := h.free_without hhands
  refine Wp.bind ((wp_touch (h.without slot)).mono (fun _ t ht => ?_) (fun _ _ hfalse => hfalse)
    fun _ hfalse => hfalse)
  have hfree' : Free (without hands slot) t slot := by
    intro e he
    rw [ht.2.1] at he
    exact hfree e he
  exact (wp_listen ht.1.1 hfree').mono (fun _ u hu => ⟨hu.sound, ht.1.2.trans hu.apart⟩)
    (fun _ u hu => ⟨hu.sound, ht.1.2.trans hu.apart⟩) fun _ hfalse => hfalse

/-- The answer is written to the client that sent the request, and to no other one. -/
structure Answered (hands returned : List (Nat × Message)) (s : PipeServer) (message : Message)
    (bytes : Bytes) (t : PipeServer) : Prop where
  sound : Sound hands returned t
  instances : ∀ e ∈ hands, t.instances[e.1]? = s.instances[e.1]?
  sent : t.kernel.sent = s.kernel.sent ++ [(message.sender, bytes)]

theorem wp_respond {message : Message} (h : Sound hands returned s)
    (hhands : (slot, message) ∈ hands) (bytes : Bytes) :
    Wp A (respond system slot bytes)
      (fun _ t => Answered (without hands slot) returned s message bytes t)
      (fun _ t => Answered (without hands slot) returned s message bytes t) (fun _ => False) s := by
  have hfree := h.free_without hhands
  obtain ⟨inst, hinst, hholds⟩ := h.holds _ (List.mem_append_left _ hhands)
  have hlt : slot < s.instances.length := (List.getElem?_eq_some_iff.mp hinst).1
  refine Wp.bind (Wp.look (Wp.bind (Wp.lift (fun _ _ => ?_) fun e herror => ?_)))
  · have hpart : Wp A (attempt ((slotPart slot).run (write system bytes)))
        (fun _ t => Answered (without hands slot) returned s message bytes t ∧
          Free (without hands slot) t slot) (fun _ _ => False) (fun _ => False) s := by
      have hget : (slotPart slot).get s = ⟨inst, s.kernel⟩ := by
        simp [slotPart, List.getD_eq_getElem?_getD, hinst]
      have hend : ∀ b, Written ⟨inst, s.kernel⟩ bytes b →
          Answered (without hands slot) returned s message bytes (s.replaced slot b) ∧
            Free (without hands slot) (s.replaced slot b) slot := by
        intro b hb
        have hfits : b.inst.Fits := ⟨by rw [hb.pending, hb.phase]; rfl, fun _ hreading => by
          cases hb.phase.symm.trans hreading⟩
        refine ⟨⟨(h.without slot).replaced hfree (hb.overlapped h.overlapped) hb.completions hfits,
          fun e he => ?_, ?_⟩, hfree⟩
        · exact getElem?_replaced_of_ne (hfree e (List.mem_append_left _ he))
        · rw [hholds.sender]
          exact hb.sent
      refine Wp.attempt (Wp.part ?_)
      rw [hget]
      exact (wp_write hholds.phase hholds.pending bytes).mono (fun _ b hb => hend b hb)
        (fun _ b hb => hend b hb) fun _ hfalse => hfalse
    refine Wp.bind (hpart.mono (fun _ t ht => ?_) (fun _ _ hfalse => hfalse.elim)
      fun _ hfalse => hfalse)
    obtain ⟨ht, hfree⟩ := ht
    refine Wp.bind ((wp_touch ht.sound).mono (fun _ u hu => ?_) (fun _ _ hfalse => hfalse)
      fun _ hfalse => hfalse)
    have hfree' : Free (without hands slot) u slot := by
      intro e he
      rw [hu.2.1] at he
      exact hfree e he
    have hend : ∀ v, Served (without hands slot) returned u slot v →
        Answered (without hands slot) returned s message bytes v := by
      intro v hv
      refine ⟨hv.sound, fun e he => ?_, ?_⟩
      · rw [hv.apart.instances e he, hu.2.2.1, ht.instances e he]
      · rw [hv.apart.sent, hu.2.2.2, ht.sent]
    exact Wp.bind ((wp_listen hu.1.1 hfree').mono (fun _ v hv => Wp.pure (hend v hv))
      (fun _ v hv => hend v hv) fun _ hfalse => hfalse)
  · simp [rejectIf, hlt] at herror

theorem wp_create (instances readTimeout : Nat) :
    Wp A (create system) (fun _ t => Sound [] [] t ∧ t.kernel.sent = [])
      (fun _ t => Sound [] [] t ∧ t.kernel.sent = []) (fun _ => False)
      (unlistened instances readTimeout) := by
  have hsound : Sound [] [] (unlistened instances readTimeout) := by
    constructor
    · intro inst hinst
      obtain rfl := List.eq_of_mem_replicate hinst
      exact ⟨rfl, fun _ hreading => by cases hreading⟩
    · exact fun e he => by cases he
    · exact List.nodup_nil
    · exact List.nodup_nil
    · exact fun e he => by cases he
    · rfl
  refine Wp.bind (Wp.look ((wp_listenAll _ hsound (fun _ _ e he => by cases he)
    List.nodup_range).mono (fun _ t ht => ⟨ht.1, ?_⟩) (fun _ t ht => ⟨ht.1, ?_⟩) fun _ h => h))
  · exact ht.2.sent
  · exact ht.2.sent

end Specs

end PipeServer

end Se7en.Pipe
