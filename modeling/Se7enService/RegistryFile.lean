import Se7enService.Json
import Se7enService.ServiceFile
set_option autoImplicit false

/-! The load and save that `RootRegistry` and `RegistryScopeRegistry` share, and what a
crash during a save leaves for the next start. -/

namespace Se7en
open Faulty

/-- The error each operation of a save reports. -/
structure SaveErrors where
  parentCreate : MaintenanceError
  temporaryOpen : MaintenanceError
  temporaryWrite : MaintenanceError
  temporarySync : MaintenanceError
  staleBackup : MaintenanceError
  backupRename : MaintenanceError
  commitRename : MaintenanceError
  backupCleanup : MaintenanceError
  finalSync : MaintenanceError

/-- `create_dir_all` on the directory of the three files. -/
def createParent (fault : MaintenanceError) : Step ServiceFile MaintenanceError Unit where
  effect s := .ok ((), s)
  fault := fault

/-- `OpenOptions::create(true).truncate(true)` on the `.new` file. -/
def openTemporary (fault : MaintenanceError) : Step ServiceFile MaintenanceError Unit where
  effect s := .ok ((), { s with temporary := some [] })
  fault := fault

def syncPath (fault : MaintenanceError) : Step ServiceFile MaintenanceError Unit where
  effect s := .ok ((), s)
  fault := fault

def commitRegistry (errors : SaveErrors) : FileProg Unit := do
  match ← attempt (renameTemporaryToPath errors.commitRename).run with
  | .error _ =>
    if ← look (·.backup.isSome) then
      let _ ← attempt (renameBackupToPath errors.commitRename).run
    throw errors.commitRename
  | .ok () =>
    if ← look (·.backup.isSome) then
      (removeBackup errors.backupCleanup).run
    (syncPath errors.finalSync).run

def writeRegistry (errors : SaveErrors) (bytes : Bytes) : FileProg Unit := do
  (createParent errors.parentCreate).run
  (openTemporary errors.temporaryOpen).run
  (writeTemporary bytes errors.temporaryWrite).run
  (syncTemporary bytes errors.temporarySync).run
  if ← look (·.path.isSome) then
    if ← look (·.backup.isSome) then
      (removeBackup errors.staleBackup).run
    (renamePathToBackup errors.backupRename).run
  commitRegistry errors

def readBounded (file : Option Bytes) (maximum : Nat) : Option Bytes :=
  file.filter (·.length ≤ maximum)

def encodeBounded {α : Type} [Serialize α] (document : α) (maximum : Nat)
    (oversized : MaintenanceError) : Result Bytes := do
  let bytes ← canonicalJson (toValue document)
  if bytes.length > maximum then
    throw oversized
  pure bytes

theorem bounded_of_encode {α : Type} [Serialize α] {document : α} {maximum : Nat}
    {oversized : MaintenanceError} {bytes : Bytes}
    (h : encodeBounded document maximum oversized = .ok bytes) :
    canonicalJson (toValue document) = .ok bytes ∧ bytes.length ≤ maximum := by
  cases hjson : canonicalJson (toValue document) with
  | error e => simp [encodeBounded, hjson] at h
  | ok written =>
    simp only [encodeBounded, hjson, Result.ok_bind] at h
    split at h
    · cases h
    · cases h
      exact ⟨rfl, by omega⟩

theorem encode_of_length {α : Type} [Serialize α] [LawfulSerialize α] {document : α} {maximum : Nat}
    {oversized : MaintenanceError} (h : (utf8 (toValue document).text).length ≤ maximum) :
    encodeBounded document maximum oversized = .ok (utf8 (toValue document).text) := by
  simp [encodeBounded, canonicalJson_regular (LawfulSerialize.regular document), Nat.not_lt.mpr h,
    pure, Except.pure]

/-- The loop that puts the entries of a loaded document back one after the other. -/
def registerAll {R α : Type} (register : R → α → Result R) (registry : R) : List α → Result R
  | [] => .ok registry
  | entry :: entries => do registerAll register (← register registry entry) entries

section RegisterAll

variable {R α : Type} {register : R → α → Result R} (items : R → List α) {key : α → String}
  {Valid : α → Prop} {limit : Nat}

/-- Entries that come in the order of their keys are all accepted and stay in that order. -/
theorem registerAll_sorted
    (register_last : ∀ registry entry, Valid entry → (items registry).length < limit →
      (∀ e ∈ items registry, key e < key entry) →
      ∃ registry', register registry entry = .ok registry' ∧
        items registry' = items registry ++ [entry])
    {entries : List α} {registry : R}
    (hsorted : (items registry ++ entries).Pairwise (fun a b => key a < key b))
    (hvalid : ∀ entry ∈ entries, Valid entry)
    (hcount : (items registry).length + entries.length ≤ limit) :
    ∃ registry', registerAll register registry entries = .ok registry' ∧
      items registry' = items registry ++ entries := by
  induction entries generalizing registry with
  | nil => exact ⟨registry, rfl, by simp⟩
  | cons entry entries ih =>
    simp only [List.length_cons] at hcount
    have hlast : ∀ e ∈ items registry, key e < key entry :=
      fun e he => (List.pairwise_append.mp hsorted).2.2 e he entry List.mem_cons_self
    obtain ⟨next, hnext, hitems⟩ := register_last registry entry
      (hvalid entry List.mem_cons_self) (by omega) hlast
    have hnext' : (items next ++ entries).Pairwise (fun a b => key a < key b) := by
      simpa [hitems] using hsorted
    have hrest := ih hnext' (fun e he => hvalid e (List.mem_cons_of_mem _ he))
      (by simp [hitems]; omega)
    obtain ⟨registry', hall, hitems'⟩ := hrest
    exact ⟨registry', by simp [registerAll, hnext, hall], by simp [hitems', hitems]⟩

end RegisterAll

/-- A registry with its own encoding, bounds and texts. -/
structure StoredRegistry (R : Type) where
  new : R
  maximum : Nat
  encode : R → Result Bytes
  decode : Bytes → Result R
  unreadable : MaintenanceError
  errors : SaveErrors

namespace StoredRegistry

variable {R : Type} (S : StoredRegistry R)

def save (registry : R) : FileProg Unit := do
  let bytes ← lift (S.encode registry)
  writeRegistry S.errors bytes

def load (file : ServiceFile) : Result R :=
  match readBounded file.path S.maximum with
  | some bytes => S.decode bytes
  | none =>
    match readBounded file.backup S.maximum with
    | some bytes => S.decode bytes
    | none => .error S.unreadable

/-- What `recover_service_state` does with the file. -/
def start (file : ServiceFile) : Result R :=
  if file.path.isSome then S.load file else .ok S.new

structure Lawful : Prop where
  bounded : ∀ r bytes, S.encode r = .ok bytes → bytes.length ≤ S.maximum
  decode_encode : ∀ r bytes, S.encode r = .ok bytes → S.decode bytes = .ok r

end StoredRegistry

theorem StoredRegistry.save_eq {R : Type} {S : StoredRegistry R} {registry : R} {bytes : Bytes}
    (h : S.encode registry = .ok bytes) (file : ServiceFile) (sch : Schedule Empty) :
    S.save registry file sch = writeRegistry S.errors bytes file sch := by
  simp only [StoredRegistry.save, h]
  rfl

/-- The states of a save of `bytes` over `s`. -/
inductive Saving (s : ServiceFile) (bytes : Bytes) : ServiceFile → Prop where
  | writing (temporary : Option Bytes) : Saving s bytes { s with temporary }
  | cleared : s.path.isSome → Saving s bytes ⟨s.path, some bytes, none⟩
  | moved : s.path.isSome → Saving s bytes ⟨none, some bytes, s.path⟩
  | committed (backup : Option Bytes) : Saving s bytes ⟨some bytes, none, backup⟩

theorem commitRegistry_spec {errors : SaveErrors} {s : ServiceFile} {bytes : Bytes}
    {path backup : Option Bytes} (h : Saving s bytes ⟨path, some bytes, backup⟩) :
    Wp Unfailing (commitRegistry errors) (fun _ t => t = ⟨some bytes, none, none⟩)
      (fun _ _ => False) (Saving s bytes) ⟨path, some bytes, backup⟩ := by
  have hdone : ∀ backup, Saving s bytes ⟨some bytes, none, backup⟩ := .committed
  unfold commitRegistry
  refine Wp.bind (Wp.attempt (Wp.step_alone (.of_unfailing (t := ⟨some bytes, none, backup⟩)
    rfl ?_ h (hdone _) fun _ => h)))
  refine Wp.bind (Wp.look ?_)
  cases backup with
  | none => exact Wp.step_alone (.of_unfailing rfl rfl (hdone _) (hdone _) fun _ => hdone _)
  | some b =>
    refine Wp.bind (Wp.step_alone (.of_unfailing (t := ⟨some bytes, none, none⟩)
      rfl ?_ (hdone _) (hdone _) fun _ => hdone _))
    exact Wp.step_alone (.of_unfailing rfl rfl (hdone _) (hdone _) fun _ => hdone _)

theorem writeRegistry_spec {errors : SaveErrors} {s : ServiceFile} {bytes : Bytes} :
    Wp Unfailing (writeRegistry errors bytes) (fun _ t => t = ⟨some bytes, none, none⟩)
      (fun _ _ => False) (Saving s bytes) s := by
  obtain ⟨path, temporary, backup⟩ := s
  have hwriting : ∀ t, Saving ⟨path, temporary, backup⟩ bytes ⟨path, t, backup⟩ := .writing
  unfold writeRegistry
  refine Wp.bind (Wp.step_alone (.of_unfailing rfl ?_ (hwriting _) (hwriting _)
    fun _ => hwriting _))
  refine Wp.bind (Wp.step_alone (.of_unfailing rfl ?_ (hwriting _) (hwriting _)
    fun _ => hwriting _))
  refine Wp.bind (Wp.step_alone (.of_unfailing (p := writeTemporary bytes _) rfl ?_ (hwriting _)
    (hwriting _) fun _ => hwriting _))
  refine Wp.bind (Wp.step_alone (.of_unfailing (p := syncTemporary bytes _) rfl ?_ (hwriting _)
    (hwriting _) fun _ => hwriting _))
  refine Wp.bind (Wp.look ?_)
  cases path with
  | none => exact commitRegistry_spec (hwriting _)
  | some p =>
    have hcleared : Saving ⟨some p, temporary, backup⟩ bytes ⟨some p, some bytes, none⟩ :=
      .cleared rfl
    have hmoved : Saving ⟨some p, temporary, backup⟩ bytes ⟨none, some bytes, some p⟩ := .moved rfl
    refine Wp.bind (Wp.look ?_)
    cases backup with
    | none =>
      exact Wp.bind (Wp.step_alone (.of_unfailing rfl (commitRegistry_spec hmoved)
        hcleared hmoved fun _ => hcleared))
    | some b =>
      refine Wp.bind (Wp.step_alone (.of_unfailing (t := ⟨some p, some bytes, none⟩)
        rfl ?_ (hwriting _) hcleared fun _ => hwriting _))
      exact Wp.bind (Wp.step_alone (.of_unfailing rfl (commitRegistry_spec hmoved)
        hcleared hmoved fun _ => hcleared))

/-! ### Known documents -/

/-- A start reads nothing but `known` documents. -/
def ServiceFile.Holding (known : Bytes → Prop) (s : ServiceFile) : Prop :=
  ∀ b, (s.path = some b ∨ s.backup = some b) → known b

section Holding

variable {known : Bytes → Prop} {errors : SaveErrors} {bytes : Bytes}

theorem ServiceFile.Holding.withTemporary {s : ServiceFile} (h : s.Holding known)
    (temporary : Option Bytes) : ServiceFile.Holding known { s with temporary } := h

theorem ServiceFile.Holding.withoutBackup {s : ServiceFile} (h : s.Holding known) :
    ServiceFile.Holding known { s with backup := none } :=
  fun b hb => h b (hb.imp id nofun)

theorem commitRegistry_holding (hbytes : known bytes) {path backup : Option Bytes}
    (h : ServiceFile.Holding known ⟨path, some bytes, backup⟩) :
    Wp Anything (commitRegistry errors) (fun _ => ServiceFile.Holding known)
      (fun _ => ServiceFile.Holding known) (ServiceFile.Holding known)
      ⟨path, some bytes, backup⟩ := by
  have hdone : ServiceFile.Holding known ⟨some bytes, none, backup⟩ := by
    rintro b (⟨⟨⟩⟩ | hb)
    · exact hbytes
    · exact h b (.inr hb)
  unfold commitRegistry
  refine Wp.bind (Wp.attempt (Wp.step_alone (.of_ok .plain (t := ⟨some bytes, none, backup⟩) rfl ?_ ?_ h
    hdone)))
  · refine Wp.bind (Wp.look ?_)
    cases backup with
    | none => exact Wp.step_alone (.of_ok .plain rfl hdone hdone hdone hdone)
    | some b =>
      have hclean := hdone.withoutBackup
      refine Wp.bind (Wp.step_alone (.of_ok .plain (t := ⟨some bytes, none, none⟩) rfl ?_ hdone hdone
        hclean))
      exact Wp.step_alone (.of_ok .plain rfl hclean hclean hclean hclean)
  · refine Wp.bind (Wp.look ?_)
    cases backup with
    | none => exact Wp.throw h
    | some b =>
      have hback : ServiceFile.Holding known ⟨some b, some bytes, none⟩ := by
        rintro c (⟨⟨⟩⟩ | ⟨⟨⟩⟩)
        exact h b (.inr rfl)
      exact Wp.bind (Wp.attempt (Wp.step_alone (.of_ok .plain (t := ⟨some b, some bytes, none⟩) rfl
        (Wp.throw hback) (Wp.throw h) h hback)))

/-- A save leaves nothing to be read but what was there and what it writes. -/
theorem writeRegistry_holding (hbytes : known bytes) {s : ServiceFile} (h : s.Holding known) :
    Wp Anything (writeRegistry errors bytes) (fun _ => ServiceFile.Holding known)
      (fun _ => ServiceFile.Holding known) (ServiceFile.Holding known) s := by
  obtain ⟨path, temporary, backup⟩ := s
  have hwriting : ∀ t, ServiceFile.Holding known ⟨path, t, backup⟩ := h.withTemporary
  unfold writeRegistry
  refine Wp.bind (Wp.step_alone (.of_ok .plain rfl ?_ (hwriting _) (hwriting _) (hwriting _)))
  refine Wp.bind (Wp.step_alone (.of_ok .plain rfl ?_ (hwriting _) (hwriting _) (hwriting _)))
  refine Wp.bind (Wp.step_alone (p := writeTemporary bytes _) ⟨?_, nofun, ?_, ?_⟩)
  · rintro _ _ ⟨⟩
    refine Wp.bind (Wp.step_alone (p := syncTemporary bytes _) ⟨?_, nofun, ?_, ?_⟩)
    · rintro _ _ ⟨⟩
      refine Wp.bind (Wp.look ?_)
      cases path with
      | none => exact commitRegistry_holding hbytes (hwriting _)
      | some p =>
        have hmoved : ServiceFile.Holding known ⟨none, some bytes, some p⟩ := by
          rintro c (⟨⟨⟩⟩ | ⟨⟨⟩⟩)
          exact h p (.inl rfl)
        refine Wp.bind (Wp.look ?_)
        cases backup with
        | none =>
          exact Wp.bind (Wp.step_alone (.of_ok .plain rfl (commitRegistry_holding hbytes hmoved)
            (hwriting _) (hwriting _) hmoved))
        | some b =>
          have hcleared := (hwriting (some bytes)).withoutBackup
          refine Wp.bind (Wp.step_alone (.of_ok .plain (t := ⟨some p, some bytes, none⟩) rfl ?_
            (hwriting _) (hwriting _) hcleared))
          exact Wp.bind (Wp.step_alone (.of_ok .plain rfl (commitRegistry_holding hbytes hmoved) hcleared
            hcleared hmoved))
    · exact fun _ _ => hwriting _
    · intro c _
      cases c <;> exact hwriting _
  · intro c _
    cases c <;> exact hwriting _
  · intro c _
    cases c <;> exact hwriting _

/-- What a save of the registry leaves to be read was there before or is the registry. -/
def StoredRegistry.Leaves {R : Type} (S : StoredRegistry R) (registry : R) (s t : ServiceFile) :
    Prop :=
  ∀ bytes, (t.path = some bytes ∨ t.backup = some bytes) →
    (s.path = some bytes ∨ s.backup = some bytes) ∨ S.encode registry = .ok bytes

theorem StoredRegistry.Leaves.holding {R : Type} {S : StoredRegistry R} {registry : R}
    {s t : ServiceFile} (h : S.Leaves registry s t)
    (hbytes : ∀ bytes, S.encode registry = .ok bytes → known bytes) (hs : s.Holding known) :
    t.Holding known :=
  fun b hb => (h b hb).elim (hs b) (hbytes b)

theorem StoredRegistry.wp_leaves {R : Type} {S : StoredRegistry R} {registry : R}
    {s : ServiceFile} :
    Wp Anything (S.save registry) (fun _ t => S.Leaves registry s t)
      (fun _ t => S.Leaves registry s t) (fun t => S.Leaves registry s t) s :=
  Wp.bind (Wp.lift (fun _ hencode => writeRegistry_holding (.inr hencode) fun _ => .inl)
    fun _ _ _ => .inl)

/-- What a start reads, if it reads anything. -/
theorem ServiceFile.Holding.start {R : Type} {S : StoredRegistry R} {s : ServiceFile} {registry : R}
    (h : s.Holding known) (hstart : S.start s = .ok registry) :
    registry = S.new ∨ ∃ bytes, known bytes ∧ S.decode bytes = .ok registry := by
  have hread : ∀ {file : Option Bytes} {bytes}, readBounded file S.maximum = some bytes →
      file = some bytes := fun hbytes => (Option.filter_eq_some_iff.mp hbytes).1
  unfold StoredRegistry.start at hstart
  split at hstart
  · unfold StoredRegistry.load at hstart
    split at hstart
    · rename_i bytes hbytes
      exact .inr ⟨bytes, h bytes (.inl (hread hbytes)), hstart⟩
    · split at hstart
      · rename_i bytes hbytes
        exact .inr ⟨bytes, h bytes (.inr (hread hbytes)), hstart⟩
      · cases hstart
  · exact .inl (Except.ok.inj hstart).symm

end Holding

/-! ### Saves and restarts -/

/-- The files, the registry the service holds, and the one whose save was interrupted. -/
structure RegistryLedger (R : Type) where
  file : ServiceFile
  held : R
  attempted : Option R
  crashed : Bool

namespace StoredRegistry

variable {R : Type} (S : StoredRegistry R)

def saved (l : RegistryLedger R) (registry : R) :
    Outcome MaintenanceError Unit → ServiceFile → RegistryLedger R
  | .ok _, file => { file, held := registry, attempted := none, crashed := false }
  | .error _, file => { l with file }
  | .crashed, file => { l with file, attempted := some registry, crashed := true }

def restarted (l : RegistryLedger R) : RegistryLedger R :=
  match S.start l.file with
  | .ok registry => { l with held := registry, attempted := none, crashed := false }
  | .error _ => l

/-- Runs from an empty directory. A crash is followed by a restart, and every restart
starts in a ledger that `gate` admits. -/
inductive Run (gate : RegistryLedger R → Prop) : RegistryLedger R → Prop where
  | fresh : Run gate { file := ⟨none, none, none⟩, held := S.new, attempted := none, crashed := false }
  | save {l : RegistryLedger R} (registry : R) (sch : Schedule Empty) : Run gate l →
      l.crashed = false → (∀ e ∈ sch, Unfailing e) →
      Run gate (saved l registry (S.save registry l.file sch).1 (S.save registry l.file sch).2.1)
  | restart {l : RegistryLedger R} : Run gate l → gate l → Run gate (S.restarted l)

end StoredRegistry

namespace RegistryLedger

variable {R : Type} (S : StoredRegistry R)

def Known (l : RegistryLedger R) (registry : R) : Prop :=
  registry = l.held ∨ l.attempted = some registry

/-- A restart reads exactly the registry before the interrupted save or the one being
saved. -/
def Loads (l : RegistryLedger R) : Prop := ∃ registry, S.start l.file = .ok registry ∧ l.Known registry

/-- A whole copy of the held registry, or of the interrupted save's, is left. -/
def Remains (l : RegistryLedger R) : Prop :=
  l.held = S.new ∨
  ∃ registry bytes, l.Known registry ∧ S.encode registry = .ok bytes ∧
    (l.file.path = some bytes ∨ registry = l.held ∧ l.file.backup = some bytes)

/-- A restart finds the file, or one of the two registries is the empty one. -/
def Starts (l : RegistryLedger R) : Prop :=
  l.file.path.isSome ∨ l.Known S.new

structure Sound (l : RegistryLedger R) : Prop where
  path_known : ∀ bytes ∈ l.file.path, ∃ registry, l.Known registry ∧ S.encode registry = .ok bytes
  absent : l.file.path = none →
    l.held = S.new ∨ ∃ bytes, S.encode l.held = .ok bytes ∧ l.file.backup = some bytes
  settled : l.crashed = false → l.attempted = none

variable {S}

theorem Sound.remains {l : RegistryLedger R} (h : l.Sound S) : l.Remains S := by
  cases hp : l.file.path with
  | some bytes =>
    obtain ⟨registry, hknown, hencode⟩ := h.path_known bytes hp
    exact .inr ⟨registry, bytes, hknown, hencode, .inl hp⟩
  | none =>
    rcases h.absent hp with hnew | ⟨bytes, hencode, hbackup⟩
    · exact .inl hnew
    · exact .inr ⟨l.held, bytes, .inl rfl, hencode, .inr ⟨rfl, hbackup⟩⟩

theorem start_of_path (hS : S.Lawful) {file : ServiceFile} {registry : R} {bytes : Bytes}
    (hpath : file.path = some bytes) (hencode : S.encode registry = .ok bytes) :
    S.start file = .ok registry := by
  have hread : readBounded (some bytes) S.maximum = some bytes := by
    simp [readBounded, hS.bounded registry bytes hencode]
  simp [StoredRegistry.start, StoredRegistry.load, hread, hpath,
    hS.decode_encode registry bytes hencode]

theorem start_of_absent {file : ServiceFile} (hpath : file.path = none) :
    S.start file = .ok S.new := by
  simp [StoredRegistry.start, hpath]

theorem Sound.loads_iff (hS : S.Lawful) {l : RegistryLedger R} (h : l.Sound S) :
    l.Loads S ↔ l.Starts S := by
  cases hp : l.file.path with
  | some bytes =>
    obtain ⟨registry, hknown, hencode⟩ := h.path_known bytes hp
    have hstart := start_of_path hS hp hencode
    exact ⟨fun _ => .inl (by simp [hp]), fun _ => ⟨registry, hstart, hknown⟩⟩
  | none =>
    have hstart : S.start l.file = .ok S.new := start_of_absent hp
    simp [Loads, Starts, hstart, hp]

theorem Sound.restart (hS : S.Lawful) {l : RegistryLedger R} (h : l.Sound S) (hg : l.Starts S) :
    (S.restarted l).Sound S := by
  obtain ⟨registry, hstart, hknown⟩ := (h.loads_iff hS).mpr hg
  have hrestarted : S.restarted l = { l with held := registry, attempted := none, crashed := false } := by
    simp [StoredRegistry.restarted, hstart]
  rw [hrestarted]
  constructor
  · intro bytes hp
    obtain ⟨r, -, hencode⟩ := h.path_known bytes hp
    have hr := hstart.symm.trans (start_of_path hS hp hencode)
    exact ⟨r, .inl (Except.ok.inj hr).symm, hencode⟩
  · intro hp
    exact .inl (Except.ok.inj (hstart.symm.trans (start_of_absent hp)))
  · exact fun _ => rfl

/-- A ledger in which a save of `registry` over the file `before` was cut off. -/
theorem Sound.interrupted {l : RegistryLedger R} (h : l.Sound S) (hc : l.crashed = false)
    {registry : R} {bytes : Bytes} (hencode : S.encode registry = .ok bytes) {file : ServiceFile}
    (hfile : Saving l.file bytes file) :
    RegistryLedger.Sound S { l with file, attempted := some registry, crashed := true } := by
  have hheld : ∀ b ∈ l.file.path, S.encode l.held = .ok b := by
    intro b hb
    obtain ⟨r, hknown, hr⟩ := h.path_known b hb
    rcases hknown with rfl | hknown
    · exact hr
    · rw [h.settled hc] at hknown
      cases hknown
  have hpath : ∀ b ∈ l.file.path, ∃ r, RegistryLedger.Known
      { l with file, attempted := some registry, crashed := true } r ∧ S.encode r = .ok b :=
    fun b hb => ⟨l.held, .inl rfl, hheld b hb⟩
  cases hfile with
  | writing temporary => exact ⟨hpath, h.absent, nofun⟩
  | cleared hsome =>
    refine ⟨hpath, ?_, nofun⟩
    intro hnone
    change l.file.path = none at hnone
    simp [hnone] at hsome
  | moved hsome =>
    refine ⟨nofun, ?_, nofun⟩
    intro _
    obtain ⟨b, hb⟩ := Option.isSome_iff_exists.mp hsome
    exact .inr ⟨b, hheld b hb, hb⟩
  | committed backup =>
    refine ⟨?_, nofun, nofun⟩
    rintro b ⟨⟩
    exact ⟨registry, .inr rfl, hencode⟩

theorem Sound.save {l : RegistryLedger R} (h : l.Sound S) (hc : l.crashed = false) (registry : R)
    {sch : Schedule Empty} (hsch : ∀ e ∈ sch, Unfailing e) :
    (StoredRegistry.saved l registry (S.save registry l.file sch).1
      (S.save registry l.file sch).2.1).Sound S := by
  cases hencode : S.encode registry with
  | error e =>
    have hsave : S.save registry l.file sch = (.error e, l.file, sch) := by
      simp only [StoredRegistry.save, hencode]
      rfl
    simpa [hsave, StoredRegistry.saved] using h
  | ok bytes =>
    rw [StoredRegistry.save_eq hencode]
    rcases hr : writeRegistry S.errors bytes l.file sch with ⟨o, file, rest⟩
    have hend := writeRegistry_spec.result hsch hr
    cases o with
    | ok a =>
      cases hend
      refine ⟨?_, nofun, fun _ => rfl⟩
      rintro b ⟨⟩
      exact ⟨registry, .inl rfl, hencode⟩
    | error e => exact hend.elim
    | crashed => exact h.interrupted hc hencode hend

theorem fresh_sound : RegistryLedger.Sound S
    { file := ⟨none, none, none⟩, held := S.new, attempted := none, crashed := false } :=
  ⟨nofun, fun _ => .inl rfl, fun _ => rfl⟩

end RegistryLedger

/-- Every registry but the empty one is forgotten by a start after a crash between the
two renames of its next save. -/
theorem StoredRegistry.exists_run_not_loads {R : Type} {S : StoredRegistry R} {registry : R}
    {bytes : Bytes} (hencode : S.encode registry = .ok bytes) (hnew : registry ≠ S.new) :
    ∃ l, S.Run (fun _ => True) l ∧ ¬ l.Loads S := by
  have hfresh : S.Run (fun _ => True) _ := .fresh
  have hfirst := hfresh.save registry [] rfl (by simp)
  rw [save_eq hencode] at hfirst
  have hsecond := hfirst.save registry [.go, .go, .go, .go, .crash .after] rfl
    (by simp [Unfailing])
  rw [save_eq hencode] at hsecond
  refine ⟨_, hsecond, ?_⟩
  rintro ⟨r, hstart, hknown⟩
  have hr : S.new = r := Except.ok.inj hstart
  subst hr
  rcases hknown with h | h
  · exact hnew h.symm
  · exact hnew (Option.some.inj h)

/-- As long as every restart starts well, a whole copy remains, and the next restart
loads one of the two registries exactly when it starts well. -/
theorem StoredRegistry.Run.loads_iff {R : Type} {S : StoredRegistry R} (hS : S.Lawful)
    {l : RegistryLedger R} (h : S.Run (RegistryLedger.Starts S) l) :
    l.Remains S ∧ (l.Loads S ↔ l.Starts S) := by
  have hsound : l.Sound S := by
    induction h with
    | fresh => exact RegistryLedger.fresh_sound
    | save registry sch _ hc hsch ih => exact ih.save hc registry hsch
    | restart _ hg ih => exact ih.restart hS hg
  exact ⟨hsound.remains, hsound.loads_iff hS⟩

end Se7en
