import Se7enService.OneTransaction
import Se7enService.PipeServer
set_option autoImplicit false

/-! Runs of the pipe server with its caller, and `serve_requests` as one of these callers. -/

namespace Se7en.Pipe
open Faulty PipeServer

/-! ### The server and its caller -/

/-- The server with the requests that its caller holds, has been given and has answered. -/
structure Transport where
  server : PipeServer
  hands : List (Nat × Message)
  returned : List (Nat × Message)
  answered : List (Message × Bytes)

inductive Action where
  | nextEvent (idleTimeout waits : Nat)
  | respond (slot : Nat) (bytes : Bytes)
  | release (slot : Nat)
  deriving DecidableEq

/-- The slot that the caller gives back. -/
def Action.settles : Action → Option Nat
  | .nextEvent _ _ => none
  | .respond slot _ | .release slot => some slot

namespace Transport

def taken (t : Transport) (server : PipeServer) :
    Outcome MaintenanceError PipeEvent → Transport
  | .ok (.request slot message) =>
    { t with
      server
      hands := t.hands ++ [(slot, message)]
      returned := t.returned ++ [(slot, message)] }
  | _ => { t with server }

/-- A caller responds to and releases slots that it holds. -/
def step (system : System) (t : Transport) : Action → Transport
  | .nextEvent idleTimeout waits =>
    match nextEvent system idleTimeout waits t.server [] with
    | (event, server, _) => t.taken server event
  | .respond slot bytes =>
    match t.hands.find? (·.1 = slot) with
    | none => t
    | some e =>
      { t with
        server := (respond system slot bytes t.server []).2.1
        hands := without t.hands slot
        answered := t.answered ++ [(e.2, bytes)] }
  | .release slot =>
    match t.hands.find? (·.1 = slot) with
    | none => t
    | some _ =>
      { t with
        server := (release system slot t.server []).2.1
        hands := without t.hands slot }

def start (server : PipeServer) : Transport where
  server := server
  hands := []
  returned := []
  answered := []

abbrev Runs (system : System) : Transport → Transport → Prop :=
  Relation.ReflTransGen fun t u => ∃ action, u = t.step system action

/-- The invariant of the runs. -/
structure Sound (t : Transport) : Prop where
  server : PipeServer.Sound t.hands t.returned t.server
  sent : t.server.kernel.sent = t.answered.map fun answer => (answer.1.sender, answer.2)

/-- No message is returned twice, the queue and the caller have different slots, these are held
for the client that sent the request until the caller settles them, every answer has gone to
that client, and no instance has two operations pending. -/
structure Orderly (system : System) (t : Transport) : Prop where
  once : (t.returned.map (·.2.serial)).Nodup
  ready : ∀ e ∈ t.server.ready, ∃ inst, t.server.instances[e.1]? = some inst ∧ inst.phase = .held
  readyOnce : (t.server.ready.map (·.1)).Nodup
  handsOnce : (t.hands.map (·.1)).Nodup
  handsApart : ∀ e ∈ t.hands, e.1 ∉ t.server.ready.map (·.1)
  hands : ∀ e ∈ t.hands, ∃ inst, t.server.instances[e.1]? = some inst ∧ inst.phase = .held ∧
    inst.pending = [] ∧ inst.client.isSome = true ∧ e.2.sender = inst.client
  keeps : ∀ action, ∀ e ∈ t.hands, action.settles ≠ some e.1 →
    e ∈ (t.step system action).hands ∧
      (t.step system action).server.instances[e.1]? = t.server.instances[e.1]? ∧
      ∀ other ∈ (t.step system action).returned.drop t.returned.length, other.1 ≠ e.1
  sent : t.server.kernel.sent = t.answered.map fun answer => (answer.1.sender, answer.2)
  pending : ∀ inst ∈ t.server.instances, inst.pending.length ≤ 1
  overlapped : t.server.kernel.overlapped = false

variable {system : System} {t u : Transport}

theorem mem_hands_of_find {slot : Nat} {e : Nat × Message}
    (h : t.hands.find? (·.1 = slot) = some e) : (slot, e.2) ∈ t.hands := by
  have hslot : e.1 = slot := by simpa using List.find?_some h
  rw [← hslot]
  exact List.mem_of_find?_eq_some h

/-- What a step keeps, and what it returns. -/
structure Stepped (t : Transport) (settled : Option Nat) (u : Transport) : Prop where
  sound : u.Sound
  keeps : ∀ e ∈ t.hands, settled ≠ some e.1 →
    e ∈ u.hands ∧ u.server.instances[e.1]? = t.server.instances[e.1]?
  returned : ∃ new, u.returned = t.returned ++ new ∧ ∀ e ∈ new, ∀ other ∈ t.hands, e.1 ≠ other.1

theorem mem_without {hands : List (Nat × Message)} {slot : Nat} {e : Nat × Message} :
    e ∈ without hands slot ↔ e ∈ hands ∧ e.1 ≠ slot := by
  simp [without]

theorem step_nextEvent (h : t.Sound) (idleTimeout waits : Nat) :
    Stepped t none (t.step system (.nextEvent idleTimeout waits)) := by
  have hspec : Ends (fun _ => True) _ _ _ (nextEvent system idleTimeout waits t.server []) :=
    wp_nextEvent idleTimeout waits h.server [] fun _ _ => trivial
  have hkept : ∀ server, PipeServer.Kept t.hands t.returned t.server server →
      Stepped t none { t with server } := by
    intro server hserver
    refine ⟨⟨hserver.1, hserver.2.sent.trans h.sent⟩,
      fun e he _ => ⟨he, hserver.2.instances e he⟩, [], by simp, by simp⟩
  simp only [step]
  revert hspec
  rcases nextEvent system idleTimeout waits t.server [] with ⟨event | e | _, server, rest⟩
  · intro hspec
    cases event with
    | request slot message =>
      obtain ⟨hsound, hapart⟩ := hspec.2
      refine ⟨⟨hsound, hapart.sent.trans h.sent⟩,
        fun e he _ => ⟨List.mem_append_left _ he, hapart.instances e he⟩, [(slot, message)], rfl, ?_⟩
      intro e he other hother hsame
      obtain rfl := List.mem_singleton.mp he
      have hslots := (List.nodup_append.mp (List.map_append ▸ hsound.slots)).1
      rw [List.map_append] at hslots
      exact (List.nodup_append.mp hslots).2.2 other.1 (List.mem_map_of_mem hother) slot (by simp)
        hsame.symm
    | stop => exact hkept server hspec.2
    | wake => exact hkept server hspec.2
    | idle => exact hkept server hspec.2
  · exact fun hspec => hkept server hspec.2
  · exact fun hspec => hkept server hspec.2

theorem step_respond (h : t.Sound) (slot : Nat) (bytes : Bytes) :
    Stepped t (some slot) (t.step system (.respond slot bytes)) := by
  unfold step
  cases hfind : t.hands.find? (·.1 = slot) with
  | none =>
    simp only [hfind]
    exact ⟨h, fun e he _ => ⟨he, rfl⟩, [], by simp, by simp⟩
  | some e =>
    simp only [hfind]
    have hend : Answered (without t.hands slot) t.returned t.server e.2 bytes
        (respond system slot bytes t.server []).2.1 :=
      Wp.anyEnd ((wp_respond h.server (mem_hands_of_find hfind) bytes).mono (fun _ _ ht => ht)
        (fun _ _ ht => ht) fun _ hfalse => hfalse.elim) []
    refine ⟨⟨hend.sound, ?_⟩, fun other hother hne => ?_, [], by simp, by simp⟩
    · rw [hend.sent, h.sent, List.map_append]
      rfl
    · have hmem := mem_without.mpr ⟨hother, fun hslot => hne (by rw [hslot])⟩
      exact ⟨hmem, hend.instances other hmem⟩

theorem step_release (h : t.Sound) (slot : Nat) :
    Stepped t (some slot) (t.step system (.release slot)) := by
  unfold step
  cases hfind : t.hands.find? (·.1 = slot) with
  | none =>
    simp only [hfind]
    exact ⟨h, fun e he _ => ⟨he, rfl⟩, [], by simp, by simp⟩
  | some e =>
    simp only [hfind]
    have hend : PipeServer.Kept (without t.hands slot) t.returned t.server
        (release system slot t.server []).2.1 :=
      Wp.anyEnd ((wp_release h.server (mem_hands_of_find hfind)).mono (fun _ _ ht => ht)
        (fun _ _ ht => ht) fun _ hfalse => hfalse.elim) []
    refine ⟨⟨hend.1, ?_⟩, fun other hother hne => ?_, [], by simp, by simp⟩
    · rw [hend.2.sent, h.sent]
    · have hmem := mem_without.mpr ⟨hother, fun hslot => hne (by rw [hslot])⟩
      exact ⟨hmem, hend.2.instances other hmem⟩

theorem step_spec (h : t.Sound) (action : Action) :
    Stepped t action.settles (t.step system action) := by
  cases action with
  | nextEvent idleTimeout waits => exact step_nextEvent h idleTimeout waits
  | respond slot bytes => exact step_respond h slot bytes
  | release slot => exact step_release h slot

theorem Runs.sound (h : Runs system t u) (ht : t.Sound) : u.Sound := by
  induction h with
  | refl => exact ht
  | tail _ hstep ih =>
    obtain ⟨action, rfl⟩ := hstep
    exact (step_spec ih action).sound

theorem Sound.orderly (h : t.Sound) : t.Orderly system := by
  have hslots := List.nodup_append.mp (List.map_append ▸ h.server.slots)
  constructor
  · exact (List.nodup_append.mp (List.map_append ▸ h.server.serials)).1
  · intro e he
    obtain ⟨inst, hinst, hholds⟩ := h.server.holds e (List.mem_append_right _ he)
    exact ⟨inst, hinst, hholds.phase⟩
  · exact hslots.2.1
  · exact hslots.1
  · exact fun e he hready => hslots.2.2 e.1 (List.mem_map_of_mem he) e.1 hready rfl
  · intro e he
    obtain ⟨inst, hinst, hholds⟩ := h.server.holds e (List.mem_append_left _ he)
    exact ⟨inst, hinst, hholds.phase, hholds.pending, hholds.client, hholds.sender⟩
  · intro action e he hne
    have hstepped : Stepped t action.settles (t.step system action) := step_spec h action
    obtain ⟨hkeeps, hinstances⟩ := hstepped.keeps e he hne
    obtain ⟨new, hreturned, hnew⟩ := hstepped.returned
    refine ⟨hkeeps, hinstances, fun other hother => ?_⟩
    rw [hreturned, List.drop_left] at hother
    exact hnew other hother e he
  · exact h.sent
  · intro inst hinst
    rw [(h.server.fits inst hinst).pending]
    cases inst.phase <;> simp [Phase.operation]
  · exact h.server.overlapped

end Transport

/-! ### The service loop -/

/-- What the service makes of a request; no bytes stand for a response out of bounds. -/
inductive Dispatch where
  | respond (bytes : Option Bytes)
  | prepare

/-- The requests are processed one after another; while a job is prepared no other one is. -/
structure Handler where
  dispatch : Nat → Bool → Message → Dispatch
  busy : ∀ turn message, dispatch turn true message ≠ .prepare
  /-- The response once the prepare worker has ended. -/
  ended : Nat → Option (Option Bytes)
  /-- `STOP_REQUESTED` without `COMMITTING`. -/
  stopping : Nat → Bool
  committing : Nat → Bool
  idleTimeout : Nat

/-- `serve_requests` with the slot that is kept for the preparation in flight. -/
structure Loop where
  transport : Transport
  preparing : Option (Nat × Message)
  running : Bool
  turns : Nat

namespace Loop

/-- `respond` of the service; a transport error ends the loop. -/
def reply (system : System) (l : Loop) (slot : Nat) : Option Bytes → Loop
  | some bytes =>
    { l with
      running := (respond system slot bytes l.transport.server []).1.isOk
      transport := l.transport.step system (.respond slot bytes) }
  | none =>
    { l with
      running := (release system slot l.transport.server []).1.isOk
      transport := l.transport.step system (.release slot) }

/-- What is done about one event. -/
def handle (system : System) (handler : Handler) (l : Loop) :
    Outcome MaintenanceError PipeEvent → Loop
  | .ok .stop | .error _ => { l with running := false }
  | .ok .idle =>
    if handler.committing l.turns || l.preparing.isSome then l else { l with running := false }
  | .ok .wake =>
    match l.preparing, handler.ended l.turns with
    | some (slot, _), some response => reply system { l with preparing := none } slot response
    | _, _ => l
  | .ok (.request slot message) =>
    match l.transport.server.pipe slot with
    | none => { l with running := false }
    | some _ =>
      match handler.dispatch l.turns l.preparing.isSome message with
      | .respond response => reply system l slot response
      | .prepare => { l with preparing := some (slot, message) }
  | .crashed => l

/-- One turn of the loop; `waits` bounds how long the next event is waited for. -/
def turn (system : System) (handler : Handler) (l : Loop) (waits : Nat) : Loop :=
  if !l.running then l
  else if handler.stopping l.turns && l.preparing.isNone then { l with running := false }
  else
    match nextEvent system handler.idleTimeout waits l.transport.server [] with
    | (event, server, _) =>
      handle system handler
        { l with transport := l.transport.taken server event, turns := l.turns + 1 } event

def start (server : PipeServer) : Loop where
  transport := .start server
  preparing := none
  running := true
  turns := 0

abbrev Runs (system : System) (handler : Handler) : Loop → Loop → Prop :=
  Relation.ReflTransGen fun l m => ∃ waits, m = l.turn system handler waits

variable {system : System} {handler : Handler} {l m : Loop}

/-- The requests in the hands of the loop are the one that is prepared. -/
structure Tracked (system : System) (server : PipeServer) (l : Loop) : Prop where
  runs : Transport.Runs system (.start server) l.transport
  sound : l.transport.Sound
  hands : l.running = true → l.transport.hands = l.preparing.toList

theorem reply_spec {slot : Nat} {response : Option Bytes} :
    ∃ action, action.settles = some slot ∧
      (reply system l slot response).transport = l.transport.step system action ∧
      (reply system l slot response).preparing = l.preparing := by
  cases response with
  | some bytes => exact ⟨.respond slot bytes, rfl, rfl, rfl⟩
  | none => exact ⟨.release slot, rfl, rfl, rfl⟩

theorem without_of_ne {hands : List (Nat × Message)} {slot : Nat}
    (h : ∀ e ∈ hands, e.1 ≠ slot) : without hands slot = hands := by
  simpa [without] using h

theorem settled_hands {t : Transport} {action : Action} {slot : Nat} {message : Message}
    {others : List (Nat × Message)} (hhands : t.hands = others ++ [(slot, message)])
    (hothers : ∀ e ∈ others, e.1 ≠ slot) (haction : action.settles = some slot) :
    (t.step system action).hands = others := by
  have hfind : t.hands.find? (·.1 = slot) = some (slot, message) := by
    rw [hhands, List.find?_append, List.find?_eq_none.mpr (by simpa using hothers)]
    simp
  have hwithout : without t.hands slot = others := by
    rw [hhands]
    simpa [without] using hothers
  cases action with
  | nextEvent idleTimeout waits => cases haction
  | respond slot' bytes =>
    obtain rfl := Option.some.inj haction
    simp only [Transport.step, hfind, hwithout]
  | release slot' =>
    obtain rfl := Option.some.inj haction
    simp only [Transport.step, hfind, hwithout]

theorem Tracked.reply {server : PipeServer} {slot : Nat} {message : Message}
    {response : Option Bytes} (hruns : Transport.Runs system (.start server) l.transport)
    (hsound : l.transport.Sound) (hhands : l.transport.hands = l.preparing.toList ++ [(slot, message)]) :
    Tracked system server (Loop.reply system l slot response) := by
  obtain ⟨action, hsettles, htransport, hpreparing⟩ :=
    @reply_spec system l slot response
  have hothers : ∀ e ∈ l.preparing.toList, e.1 ≠ slot := by
    intro e he hslot
    have hslots := (List.nodup_append.mp (List.map_append ▸ hsound.server.slots)).1
    rw [hhands, List.map_append] at hslots
    exact (List.nodup_append.mp hslots).2.2 e.1 (List.mem_map_of_mem he) slot (by simp) hslot
  refine ⟨?_, ?_, fun _ => ?_⟩
  · rw [htransport]
    exact hruns.tail ⟨action, rfl⟩
  · rw [htransport]
    exact (Transport.step_spec hsound action).sound
  · rw [htransport, hpreparing]
    exact settled_hands hhands hothers hsettles

theorem Tracked.stopped {server : PipeServer} (h : Tracked system server l) :
    Tracked system server { l with running := false } :=
  ⟨h.runs, h.sound, fun hrunning => by cases hrunning⟩

theorem Tracked.turn {server : PipeServer} (h : Tracked system server l) (waits : Nat) :
    Tracked system server (l.turn system handler waits) := by
  unfold Loop.turn
  cases hrunning : l.running with
  | false => exact h
  | true =>
    simp only [Bool.not_true, Bool.false_eq_true, if_false]
    split
    · exact h.stopped
    · have hnext : l.transport.step system (.nextEvent handler.idleTimeout waits) =
          l.transport.taken (nextEvent system handler.idleTimeout waits l.transport.server []).2.1
            (nextEvent system handler.idleTimeout waits l.transport.server []).1 := rfl
      have hsound : (l.transport.step system (.nextEvent handler.idleTimeout waits)).Sound :=
        (Transport.step_spec h.sound _).sound
      have hruns := h.runs.tail ⟨.nextEvent handler.idleTimeout waits, rfl⟩
      rw [hnext] at hsound hruns
      revert hsound hruns
      rcases nextEvent system handler.idleTimeout waits l.transport.server [] with
        ⟨event | e | _, next, rest⟩ <;> intro hsound hruns
      · cases event with
        | stop => exact ⟨hruns, hsound, fun hstopped => by cases hstopped⟩
        | idle =>
          simp only [handle]
          split
          · exact ⟨hruns, hsound, fun _ => h.hands hrunning⟩
          · exact ⟨hruns, hsound, fun hstopped => by cases hstopped⟩
        | wake =>
          simp only [handle]
          cases hpreparing : l.preparing with
          | none => exact ⟨hruns, hsound, fun _ => (h.hands hrunning).trans (by rw [hpreparing])⟩
          | some e =>
            obtain ⟨slot, message⟩ := e
            have hhands : l.transport.hands = [(slot, message)] := by
              rw [h.hands hrunning, hpreparing]
              rfl
            cases handler.ended (l.turns + 1) with
            | none => exact ⟨hruns, hsound, fun _ => hhands⟩
            | some response => exact Tracked.reply hruns hsound hhands
        | request slot message =>
          have hhands : (l.transport.taken next (.ok (.request slot message))).hands =
              l.preparing.toList ++ [(slot, message)] := by
            simp only [Transport.taken, h.hands hrunning]
          obtain ⟨inst, hinst, hholds⟩ := hsound.server.holds (slot, message)
            (List.mem_append_left _ (by rw [hhands]; simp))
          have hpipe : (l.transport.taken next (.ok (.request slot message))).server.pipe slot
              = some inst := by
            simp [PipeServer.pipe, hinst, hholds.phase]
          simp only [handle, hpipe]
          cases hdispatch : handler.dispatch (l.turns + 1) l.preparing.isSome message with
          | respond response => exact Tracked.reply hruns hsound hhands
          | prepare =>
            refine ⟨hruns, hsound, fun _ => ?_⟩
            cases hpreparing : l.preparing with
            | none => simpa [hpreparing] using hhands
            | some e =>
              rw [hpreparing] at hdispatch
              exact (handler.busy _ _ hdispatch).elim
      · exact ⟨hruns, hsound, fun hstopped => by cases hstopped⟩
      · exact ⟨hruns, hsound, fun _ => h.hands hrunning⟩

theorem Runs.tracked {server : PipeServer} (h : Runs system handler l m)
    (hl : Tracked system server l) : Tracked system server m := by
  induction h with
  | refl => exact hl
  | tail _ hturn ih =>
    obtain ⟨waits, rfl⟩ := hturn
    exact ih.turn waits

end Loop

/-- `process_request` starts no second preparation. -/
theorem processRequest_busy [Windows.Externals] {call : Windows.Call} {request : Windows.Request}
    {s t : Windows.ServiceState} {sch rest : Schedule Empty} {work : Windows.PrepareWork} :
    Windows.processRequest call request true s sch ≠ (.ok (.prepare work), t, rest) :=
  fun h => (Windows.processed_of_run h).busy.1

/-! ### Every run -/

/-- Whatever the caller does in which order, requests are returned once and answered to their
senders; the service loop is such a caller and holds no slot but the one it prepares for. -/
theorem requests_orderly (system : System) (instances readTimeout : Nat) {server : PipeServer}
    {rest : Schedule Empty}
    (h : create system (unlistened instances readTimeout) [] = (.ok (), server, rest)) :
    (∀ t, Transport.Runs system (.start server) t → t.Orderly system) ∧
      ∀ handler l, Loop.Runs system handler (.start server) l →
        Transport.Runs system (.start server) l.transport ∧
          (l.running = true → l.transport.hands = l.preparing.toList) := by
  have hcreate : Wp (fun _ => True) (create system)
      (fun _ t => PipeServer.Sound [] [] t ∧ t.kernel.sent = []) _ _ _ :=
    wp_create instances readTimeout
  have hcreated := hcreate.result (fun _ hnone => by cases hnone) h
  have hstart : (Transport.start server).Sound := ⟨hcreated.1, hcreated.2⟩
  constructor
  · exact fun t hruns => (hruns.sound hstart).orderly
  · intro handler l hruns
    have htracked : Loop.Tracked system server (.start server) := ⟨.refl, hstart, fun _ => rfl⟩
    have htracked := hruns.tracked htracked
    exact ⟨htracked.runs, htracked.hands⟩

/-- Clients connect and write as soon as they are waited for. -/
def promptSystem : System where
  connect _ := .ioPending
  read _ := .ok
  write _ := .ok
  transfer _ := .ok []
  wait _ := .signaled 2
  now call := call

noncomputable def promptServer : PipeServer :=
  (create promptSystem (unlistened 2 10) []).2.1

theorem requests_orderly_prompt :
    (((Transport.start promptServer).step promptSystem (.nextEvent 60 3)).returned.map (·.1) = [0]) ∧
      ((Transport.start promptServer).step promptSystem (.nextEvent 60 3)).Orderly promptSystem := by
  have hcreated : (create promptSystem (unlistened 2 10) []).1 = .ok () := by decide +kernel
  have hserver : create promptSystem (unlistened 2 10) [] =
      (.ok (), promptServer, (create promptSystem (unlistened 2 10) []).2.2) :=
    Prod.ext hcreated rfl
  refine ⟨by decide +kernel, (requests_orderly promptSystem 2 10 hserver).1 _ ?_⟩
  exact .single ⟨.nextEvent 60 3, rfl⟩

end Se7en.Pipe
