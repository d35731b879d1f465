import Se7enService.Error
import Se7enService.Faulty
set_option autoImplicit false

/-! `replace_service_file` and `recover_service_file_replacement` of `windows.rs`:
a protected document and the `.new` and `.bak` files beside it. -/

namespace Se7en
open Faulty

structure ServiceFile where
  path : Option Bytes
  temporary : Option Bytes
  backup : Option Bytes
  deriving DecidableEq, Repr

abbrev FileProg (α : Type) := Prog ServiceFile MaintenanceError Empty α

def ioError (detail : String) : MaintenanceError := .new .transactionIo detail

/-- `OpenOptions::create_new(true)` on the `.new` file. -/
def createTemporary (fault : MaintenanceError) : Step ServiceFile MaintenanceError Unit where
  effect s := match s.temporary with
    | some _ => .error fault
    | none => .ok ((), { s with temporary := some [] })
  fault := fault

/-- A write that is cut short, by a crash or by an error, leaves a prefix. -/
def writeTemporary (bytes : Bytes) (fault : MaintenanceError) :
    Step ServiceFile MaintenanceError Unit where
  effect s := .ok ((), { s with temporary := some bytes })
  fault := fault
  torn n s := { s with temporary := some (bytes.take n) }
  failed
    | .before, s => s
    | .within n, s => { s with temporary := some (bytes.take n) }
    | .after, s => { s with temporary := some bytes }

/-- Until `sync_all` has returned, a crash may still lose the end of the file. -/
def syncTemporary (bytes : Bytes) (fault : MaintenanceError) :
    Step ServiceFile MaintenanceError Unit where
  effect s := .ok ((), s)
  fault := fault
  torn n s := { s with temporary := some (bytes.take n) }

def renamePathToBackup (fault : MaintenanceError) : Step ServiceFile MaintenanceError Unit where
  effect s := match s.path with
    | none => .error fault
    | some bytes => .ok ((), { s with path := none, backup := some bytes })
  fault := fault

def renameTemporaryToPath (fault : MaintenanceError) : Step ServiceFile MaintenanceError Unit where
  effect s := match s.temporary with
    | none => .error fault
    | some bytes => .ok ((), { s with path := some bytes, temporary := none })
  fault := fault

def renameBackupToPath (fault : MaintenanceError) : Step ServiceFile MaintenanceError Unit where
  effect s := match s.backup with
    | none => .error fault
    | some bytes => .ok ((), { s with path := some bytes, backup := none })
  fault := fault

def removeTemporary (fault : MaintenanceError) : Step ServiceFile MaintenanceError Unit where
  effect s := match s.temporary with
    | none => .error fault
    | some _ => .ok ((), { s with temporary := none })
  fault := fault

def removeBackup (fault : MaintenanceError) : Step ServiceFile MaintenanceError Unit where
  effect s := match s.backup with
    | none => .error fault
    | some _ => .ok ((), { s with backup := none })
  fault := fault

def removePath (fault : MaintenanceError) : Step ServiceFile MaintenanceError Unit where
  effect s := match s.path with
    | none => .error fault
    | some _ => .ok ((), { s with path := none })
  fault := fault

def ServiceFile.stale (s : ServiceFile) : Bool := s.temporary.isSome || s.backup.isSome

def replaceServiceFile (bytes : Bytes) : FileProg Unit := do
  if ← look ServiceFile.stale then
    throw (.new .transactionConflict "stale protected replacement files require recovery")
  (createTemporary (ioError "protected replacement cannot be created")).run
  (writeTemporary bytes (ioError "protected replacement cannot be written")).run
  (syncTemporary bytes (ioError "protected replacement cannot be flushed")).run
  if ← look (·.path.isSome) then
    (renamePathToBackup (ioError "protected current file cannot be backed up")).run
  match ← attempt (renameTemporaryToPath
      (ioError "protected replacement cannot be activated")).run with
  | .error _ =>
    if ← look (·.backup.isSome) then
      let _ ← attempt (renameBackupToPath (ioError "protected backup cannot be restored")).run
    throw (ioError "protected replacement cannot be activated")
  | .ok () =>
    if ← look (·.backup.isSome) then
      (removeBackup (ioError "protected backup cannot be cleaned")).run

def recoverServiceFileReplacement : FileProg Unit := do
  match ← look (fun s => (s.path.isSome, s.temporary.isSome, s.backup.isSome)) with
  | (true, true, false) =>
    (removeTemporary (ioError "stale protected replacement cannot be discarded")).run
  | (false, true, true) =>
    (renameTemporaryToPath
      (ioError "protected replacement recovery cannot activate the new file")).run
    (removeBackup (ioError "protected replacement recovery cannot remove the backup")).run
  | (true, false, true) =>
    (removeBackup (ioError "protected replacement recovery cannot remove the backup")).run
  | (false, false, true) =>
    (renameBackupToPath (ioError "protected replacement recovery cannot restore the backup")).run
  | (false, true, false) =>
    (renameTemporaryToPath
      (ioError "protected replacement recovery cannot activate the initial file")).run
  | (true, true, true) =>
    throw (.new .transactionState "protected replacement state is ambiguous")
  | (true, false, false) | (false, false, false) => pure ()

/-- The plain deletion of `remove_registry_transaction`; `clear_journal` runs it after a
recovery of the same file. -/
def removeServiceFile (fault : MaintenanceError) : FileProg Unit := do
  if ← look (·.path.isSome) then
    (removePath fault).run

/-! ### What one call can leave behind -/

/-- Any event may happen. -/
abbrev Anything (_ : Event Empty) : Prop := True

/-- The states of a replacement of `old` by `bytes` that has begun. -/
inductive Replacing (old : Option Bytes) (bytes : Bytes) : ServiceFile → Prop where
  | writing (temporary : Option Bytes) : Replacing old bytes ⟨old, temporary, none⟩
  | moved : old.isSome → Replacing old bytes ⟨none, some bytes, old⟩
  | activated : Replacing old bytes ⟨some bytes, none, old⟩
  | finished : Replacing old bytes ⟨some bytes, none, none⟩

section Replacement

variable {A : Event Empty → Prop}

theorem replace_stale {bytes : Bytes} {s : ServiceFile} (h : s.stale = true) :
    Wp A (replaceServiceFile bytes) (fun _ _ => False) (fun _ t => t = s)
      (fun _ => False) s := by
  unfold replaceServiceFile
  refine Wp.bind (Wp.look ?_)
  simp only [h, if_true]
  exact Wp.bind (Wp.throw rfl)

theorem Replacing.whole {bytes : Bytes} {old : Option Bytes} :
    Replacing old bytes ⟨none, some bytes, old⟩ := by
  cases old with
  | none => exact .writing (some bytes)
  | some b => exact .moved rfl

/-- A failed replacement keeps the old document unless a file beside it shows why. -/
def Replacing.Reported (old : Option Bytes) (bytes : Bytes) (s : ServiceFile) : Prop :=
  Replacing old bytes s ∧ (s.stale = false → s.path = old)

/-- The end of a replacement, from the moment the `.new` file is whole. -/
theorem replace_activate {bytes : Bytes} {old : Option Bytes} :
    Wp A (do
      match ← attempt (renameTemporaryToPath
          (ioError "protected replacement cannot be activated")).run with
      | .error _ =>
        if ← look (·.backup.isSome) then
          let _ ← attempt (renameBackupToPath (ioError "protected backup cannot be restored")).run
        throw (ioError "protected replacement cannot be activated")
      | .ok () =>
        if ← look (·.backup.isSome) then
          (removeBackup (ioError "protected backup cannot be cleaned")).run)
      (fun _ t => t = ⟨some bytes, none, none⟩)
      (fun _ t => (∃ c, A (.fail c)) ∧ Replacing.Reported old bytes t)
      (Replacing old bytes) ⟨none, some bytes, old⟩ := by
  refine Wp.bind (Wp.attempt (Wp.step_alone
    (.of_ok_or_fail .plain (t := ⟨some bytes, none, old⟩) rfl ?_ ?_ Replacing.whole .activated)))
  · refine Wp.bind (Wp.look ?_)
    cases old with
    | none => exact Wp.pure rfl
    | some b =>
      refine Wp.step_alone (.of_ok_or_fail .plain rfl rfl (fun hfail => ?_) .activated .finished)
      exact ⟨hfail, .activated, by simp [ServiceFile.stale]⟩
  · intro hfail
    refine Wp.bind (Wp.look ?_)
    cases old with
    | none => exact Wp.throw ⟨hfail, .whole, by simp [ServiceFile.stale]⟩
    | some b =>
      refine Wp.bind (Wp.attempt (Wp.step_alone
        (.of_ok .plain (t := ⟨some b, some bytes, none⟩) rfl ?_ ?_ .whole (.writing _))))
      · exact Wp.throw ⟨hfail, .writing _, by simp [ServiceFile.stale]⟩
      · exact Wp.throw ⟨hfail, .whole, by simp [ServiceFile.stale]⟩

/-- A replacement that nothing beside the path stands in the way of; only a failing step
stops it. -/
theorem replace_meets {bytes : Bytes} {old : Option Bytes} :
    Wp A (replaceServiceFile bytes) (fun _ t => t = ⟨some bytes, none, none⟩)
      (fun _ t => (∃ c, A (.fail c)) ∧ Replacing.Reported old bytes t)
      (Replacing old bytes) ⟨old, none, none⟩ := by
  have hwriting : ∀ t, t.isSome → Replacing.Reported old bytes ⟨old, t, none⟩ := by
    intro t ht
    exact ⟨.writing t, by simp [ServiceFile.stale, ht]⟩
  unfold replaceServiceFile
  refine Wp.bind (Wp.look ?_)
  simp only [ServiceFile.stale, Option.isSome_none, Bool.or_self, Bool.false_eq_true, if_false]
  refine Wp.bind (Wp.step_alone (.of_ok_or_fail .plain (t := ⟨old, some [], none⟩) rfl ?_
    (fun hfail => ⟨hfail, .writing none, fun _ => rfl⟩) (.writing _) (.writing _)))
  refine Wp.bind (Wp.step_alone (s := ⟨old, some [], none⟩) (p := writeTemporary bytes _) ?_)
  refine ⟨?_, nofun, ?_, ?_⟩
  · rintro a s' ⟨⟩
    refine Wp.bind (Wp.step_alone (p := syncTemporary bytes _) ?_)
    refine ⟨?_, nofun, ?_, ?_⟩
    · rintro a s' ⟨⟩
      refine Wp.bind (Wp.look ?_)
      cases old with
      | none => exact replace_activate
      | some b =>
        refine Wp.bind (Wp.step_alone (.of_ok_or_fail .plain (t := ⟨none, some bytes, some b⟩) rfl
          replace_activate (fun hfail => ⟨hfail, hwriting _ rfl⟩) (.writing _) .whole))
    · intro c hc
      exact ⟨⟨c, hc⟩, hwriting _ rfl⟩
    · intro c _
      cases c <;> exact .writing _
  · intro c hc
    cases c <;> exact ⟨⟨_, hc⟩, hwriting _ rfl⟩
  · intro c _
    cases c <;> exact .writing _

theorem replace_spec {bytes : Bytes} {old : Option Bytes} :
    Wp A (replaceServiceFile bytes) (fun _ t => t = ⟨some bytes, none, none⟩)
      (fun _ => Replacing.Reported old bytes) (Replacing old bytes) ⟨old, none, none⟩ :=
  replace_meets.mono (fun _ _ h => h) (fun _ _ h => h.2) (fun _ h => h)

end Replacement

/-! ### What a recovery can leave behind -/

def ServiceFile.Present (s : ServiceFile) : Prop := s.path.isSome ∨ s.backup.isSome

/-- Nothing but `known` documents can come out of a recovery of `s`. -/
structure Restorable (known : Bytes → Prop) (s : ServiceFile) : Prop where
  path_known : ∀ b ∈ s.path, known b
  backup_known : ∀ b ∈ s.backup, known b
  one_missing : ¬ (s.path.isSome ∧ s.temporary.isSome ∧ s.backup.isSome)
  activating : s.path = none → ∀ t ∈ s.temporary, known t

section Recovery

variable {known : Bytes → Prop}

theorem Restorable.of_path {b : Bytes} {backup : Option Bytes} (hb : known b)
    (hbackup : ∀ c ∈ backup, known c) : Restorable known ⟨some b, none, backup⟩ where
  path_known := by rintro _ ⟨⟩; exact hb
  backup_known := hbackup
  one_missing := by simp
  activating := nofun

/-- A completed recovery leaves the path alone with a known document; one that is
interrupted can be repeated. -/
theorem recover_spec {s : ServiceFile} (h : Restorable known s) :
    Wp Anything recoverServiceFileReplacement
      (fun _ t => (∃ path, t = ⟨path, none, none⟩ ∧ ∀ b ∈ path, known b) ∧
        (s.Present → t.path.isSome))
      (fun _ t => (Restorable known t ∧ (s.Present → t.Present)) ∧ t.stale = true)
      (fun t => Restorable known t ∧ (s.Present → t.Present)) s := by
  have hsame : Restorable known s ∧ (s.Present → s.Present) := ⟨h, id⟩
  obtain ⟨path, temporary, backup⟩ := s
  obtain ⟨hpath, hbackup, hmissing, hactivating⟩ := h
  have hdone : ∀ b, known b → (∃ path, (⟨some b, none, none⟩ : ServiceFile) = ⟨path, none, none⟩ ∧
      ∀ b ∈ path, known b) ∧ (ServiceFile.Present ⟨path, temporary, backup⟩ → true) := by
    intro b hb
    exact ⟨⟨some b, rfl, by rintro _ ⟨⟩; exact hb⟩, fun _ => rfl⟩
  have hclean : ∀ b, known b → Restorable known ⟨some b, none, none⟩ ∧
      (ServiceFile.Present ⟨path, temporary, backup⟩ → ServiceFile.Present ⟨some b, none, none⟩) := by
    intro b hb
    exact ⟨.of_path hb nofun, fun _ => .inl rfl⟩
  unfold recoverServiceFileReplacement
  refine Wp.bind (Wp.look ?_)
  rcases path with _ | p <;> rcases temporary with _ | t <;> rcases backup with _ | b
  · exact Wp.pure ⟨⟨none, rfl, nofun⟩, by simp [ServiceFile.Present]⟩
  · have hb := hbackup b rfl
    exact Wp.step_alone (.of_ok .plain rfl (hdone b hb) ⟨hsame, rfl⟩ hsame (hclean b hb))
  · have ht := hactivating rfl t rfl
    exact Wp.step_alone (.of_ok .plain rfl (hdone t ht) ⟨hsame, rfl⟩ hsame (hclean t ht))
  · have ht := hactivating rfl t rfl
    have hactive : Restorable known ⟨some t, none, some b⟩ ∧
        (ServiceFile.Present ⟨none, some t, some b⟩ → ServiceFile.Present ⟨some t, none, some b⟩) :=
      ⟨.of_path ht hbackup, fun _ => .inl rfl⟩
    refine Wp.bind (Wp.step_alone (.of_ok .plain (t := ⟨some t, none, some b⟩) rfl ?_
      ⟨hsame, rfl⟩ hsame hactive))
    exact Wp.step_alone (.of_ok .plain rfl (hdone t ht) ⟨hactive, rfl⟩ hactive (hclean t ht))
  · exact Wp.pure (hdone p (hpath p rfl))
  · have hp := hpath p rfl
    exact Wp.step_alone (.of_ok .plain rfl (hdone p hp) ⟨hsame, rfl⟩ hsame (hclean p hp))
  · have hp := hpath p rfl
    exact Wp.step_alone (.of_ok .plain rfl (hdone p hp) ⟨hsame, rfl⟩ hsame (hclean p hp))
  · exact (hmissing ⟨rfl, rfl, rfl⟩).elim

/-- The document that a recovery puts at the path. -/
def ServiceFile.settled : ServiceFile → Option Bytes
  | ⟨some document, _, _⟩ => some document
  | ⟨none, some document, _⟩ => some document
  | ⟨none, none, backup⟩ => backup

def ServiceFile.Ambiguous (s : ServiceFile) : Prop :=
  s.path.isSome ∧ s.temporary.isSome ∧ s.backup.isSome

instance (s : ServiceFile) : Decidable s.Ambiguous := inferInstanceAs (Decidable (_ ∧ _))

theorem Replacing.not_ambiguous {old : Option Bytes} {bytes : Bytes} {s : ServiceFile}
    (h : Replacing old bytes s) : ¬ s.Ambiguous := by
  cases h <;> simp [ServiceFile.Ambiguous]

/-- A recovery of `t` ends as one of `s` does. -/
structure ServiceFile.Alike (s t : ServiceFile) : Prop where
  settled : t.settled = s.settled
  ambiguous : t.Ambiguous ↔ s.Ambiguous

/-- No run of a recovery changes what it is about to put at the path; only a failing step
or an ambiguous state stops it. -/
theorem recover_settled {A : Event Empty → Prop} (s : ServiceFile) :
    Wp A recoverServiceFileReplacement
      (fun _ t => ¬ s.Ambiguous ∧ t = ⟨s.settled, none, none⟩)
      (fun _ t => ((∃ c, A (.fail c)) ∨ s.Ambiguous) ∧ s.Alike t) s.Alike s := by
  obtain ⟨path, temporary, backup⟩ := s
  have hsame : ∀ s : ServiceFile, s.Alike s := fun s => ⟨rfl, .rfl⟩
  unfold recoverServiceFileReplacement
  refine Wp.bind (Wp.look ?_)
  rcases path with _ | p <;> rcases temporary with _ | t <;> rcases backup with _ | b
  case some.some.some => exact Wp.throw ⟨.inr ⟨rfl, rfl, rfl⟩, hsame _⟩
  case none.some.some =>
    have halike : ServiceFile.Alike ⟨none, some t, some b⟩ ⟨some t, none, some b⟩ :=
      ⟨rfl, by simp [ServiceFile.Ambiguous]⟩
    refine Wp.bind (Wp.step_alone (.of_ok_or_fail .plain (t := ⟨some t, none, some b⟩) rfl ?_
      (fun hfail => ⟨.inl hfail, hsame _⟩) (hsame _) halike))
    exact Wp.step_alone (.of_ok_or_fail .plain rfl ⟨by simp [ServiceFile.Ambiguous], rfl⟩
      (fun hfail => ⟨.inl hfail, halike⟩) halike ⟨rfl, by simp [ServiceFile.Ambiguous]⟩)
  case none.none.none => exact Wp.pure ⟨by simp [ServiceFile.Ambiguous], rfl⟩
  case some.none.none => exact Wp.pure ⟨by simp [ServiceFile.Ambiguous], rfl⟩
  all_goals
    exact Wp.step_alone (.of_ok_or_fail .plain rfl ⟨by simp [ServiceFile.Ambiguous], rfl⟩
      (fun hfail => ⟨.inl hfail, hsame _⟩) (hsame _) ⟨rfl, by simp [ServiceFile.Ambiguous]⟩)

theorem calm_recoverServiceFileReplacement : Calm recoverServiceFileReplacement := by
  refine Calm.bind (Calm.look _) fun present => ?_
  split
  · exact Calm.step _
  · exact Calm.bind (Calm.step _) fun _ => Calm.step _
  · exact Calm.step _
  · exact Calm.step _
  · exact Calm.step _
  · exact Calm.throw _
  · exact Calm.pure _
  · exact Calm.pure _

/-- The `.new` file is at any time a part of the document that is being written. -/
theorem replace_initial {A : Event Empty → Prop} (bytes : Bytes) :
    Keeps A (fun s => ∀ t ∈ s.temporary, t <+: bytes) (replaceServiceFile bytes) := by
  have htake : ∀ (n : Nat) (s : ServiceFile),
      ∀ t ∈ ({ s with temporary := some (bytes.take n) } : ServiceFile).temporary, t <+: bytes := by
    rintro n s t ⟨⟩
    exact List.take_prefix n bytes
  have hwhole : ∀ s : ServiceFile,
      ∀ t ∈ ({ s with temporary := some bytes } : ServiceFile).temporary, t <+: bytes := by
    rintro s t ⟨⟩
    exact List.prefix_rfl
  have hstable : Stable A fun s : ServiceFile => ∀ t ∈ s.temporary, t <+: bytes := nofun
  unfold replaceServiceFile
  refine Keeps.bind (Keeps.look _) fun stale => ?_
  cases stale with
  | true => exact Keeps.throw_bind _ _
  | false =>
    refine Keeps.bind (Keeps.whole .plain hstable ?_) fun _ => ?_
    · intro s a s' hs he
      simp only [createTemporary] at he
      split at he
      · cases he
      · cases he
        rintro t ⟨⟩
        exact List.nil_prefix
    refine Keeps.bind (Keeps.step hstable (fun s _ => hwhole s) (fun n s _ => htake n s) ?_)
      fun _ => ?_
    · intro c s hs
      cases c with
      | before => exact hs
      | within n => exact htake n s
      | after => exact hwhole s
    refine Keeps.bind (Keeps.step hstable (fun s hs => hs) (fun n s _ => htake n s)
      (fun _ _ hs => hs)) fun _ => ?_
    refine Keeps.bind (Keeps.look _) fun found => ?_
    have hend : Keeps A (fun s => ∀ t ∈ s.temporary, t <+: bytes) (do
        match ← attempt (renameTemporaryToPath
            (ioError "protected replacement cannot be activated")).run with
        | .error _ =>
          if ← look (·.backup.isSome) then
            let _ ← attempt (renameBackupToPath (ioError "protected backup cannot be restored")).run
          throw (ioError "protected replacement cannot be activated")
        | .ok () =>
          if ← look (·.backup.isSome) then
            (removeBackup (ioError "protected backup cannot be cleaned")).run : FileProg Unit) := by
      refine Keeps.bind (Keeps.attempt (Keeps.whole .plain hstable ?_)) fun activated => ?_
      · intro s a s' hs he
        simp only [renameTemporaryToPath] at he
        split at he <;> cases he
        nofun
      cases activated with
      | error e =>
        refine Keeps.bind (Keeps.look _) fun backup => ?_
        cases backup with
        | false => exact Keeps.throw _
        | true =>
          refine Keeps.bind (Keeps.attempt (Keeps.whole .plain hstable ?_)) fun _ => Keeps.throw _
          intro s a s' hs he
          simp only [renameBackupToPath] at he
          split at he <;> cases he
          exact hs
      | ok _ =>
        refine Keeps.bind (Keeps.look _) fun backup => ?_
        cases backup with
        | false => exact Keeps.pure _
        | true =>
          refine Keeps.whole .plain hstable ?_
          intro s a s' hs he
          simp only [removeBackup] at he
          split at he <;> cases he
          exact hs
    cases found with
    | false => exact hend
    | true =>
      refine Keeps.bind (Keeps.whole .plain hstable ?_) fun _ => hend
      intro s a s' hs he
      simp only [renamePathToBackup] at he
      split at he <;> cases he
      exact hs

theorem Replacing.settled {old : Option Bytes} {bytes : Bytes} {s : ServiceFile}
    (h : Replacing old bytes s) (hinitial : ∀ t ∈ s.temporary, t <+: bytes) :
    s.settled = old ∨ ∃ n, s.settled = some (bytes.take n) := by
  have hwhole : ∃ n, some bytes = some (bytes.take n) := ⟨bytes.length, by rw [List.take_length]⟩
  cases h with
  | writing temporary =>
    cases old with
    | some document => exact .inl rfl
    | none =>
      cases temporary with
      | none => exact .inl rfl
      | some t =>
        obtain ⟨rest, hrest⟩ := hinitial t rfl
        exact .inr ⟨t.length, by simp [ServiceFile.settled, ← hrest]⟩
  | moved _ => exact .inr hwhole
  | activated => exact .inr hwhole
  | finished => exact .inr hwhole

/-- A replacement from the files that the last one left behind: what a recovery of the
end, or of the state a crash leaves, puts at the path. -/
theorem replace_settled {A : Event Empty → Prop} (bytes : Bytes) (old : Option Bytes) :
    Wp A (replaceServiceFile bytes) (fun _ t => t = ⟨some bytes, none, none⟩)
      (fun _ t => t.settled = old ∨ ∃ n, t.settled = some (bytes.take n))
      (fun t => t.settled = old ∨ ∃ n, t.settled = some (bytes.take n)) ⟨old, none, none⟩ :=
  (replace_spec.and (replace_initial bytes _ nofun)).mono (fun _ _ h => h.1)
    (fun _ _ h => h.1.1.settled h.2) (fun _ h => h.1.settled h.2)

/-- Without a backup the path is absent after the deletion; nothing else changes. -/
theorem remove_spec {A : Event Empty → Prop} {fault : MaintenanceError} {s : ServiceFile} :
    Wp A (removeServiceFile fault) (fun _ t => t = { s with path := none })
      (fun _ t => (∃ c, A (.fail c)) ∧ t = s) (fun t => t = s ∨ t = { s with path := none }) s := by
  obtain ⟨path, temporary, backup⟩ := s
  unfold removeServiceFile
  refine Wp.bind (Wp.look ?_)
  cases path with
  | none => exact Wp.pure rfl
  | some b =>
    exact Wp.step_alone (.of_ok_or_fail .plain rfl rfl (fun hfail => ⟨hfail, rfl⟩) (.inl rfl) (.inr rfl))

theorem remove_fault {A : Event Empty → Prop} {fault : MaintenanceError} {s : ServiceFile} :
    Wp A (removeServiceFile fault) (fun _ _ => True) (fun e _ => e = fault) (fun _ => True) s := by
  obtain ⟨path, temporary, backup⟩ := s
  unfold removeServiceFile
  refine Wp.bind (Wp.look ?_)
  cases path with
  | none => exact Wp.pure trivial
  | some b => exact Wp.step_alone (.of_ok .plain rfl trivial rfl trivial trivial)

end Recovery

theorem ServiceFile.Alike.refl {file : ServiceFile} : file.Alike file := ⟨rfl, .rfl⟩

theorem ServiceFile.eq_clean {file : ServiceFile} (h : file.stale = false) :
    file = ⟨file.path, none, none⟩ := by
  obtain ⟨path, temporary, backup⟩ := file
  simp_all [stale]

/-- A replacement leaves the document that was there to be recovered, or a part of the new
one, also where the path is deleted afterwards. -/
structure ServiceFile.Replaced (bytes : Bytes) (s t : ServiceFile) : Prop where
  settled : s.Alike t ∨ ¬ t.Ambiguous ∧ ∃ n, t.settled = some (bytes.take n)
  unlinked : ({ t with path := none } : ServiceFile).settled = none ∨
    ({ t with path := none } : ServiceFile).settled = s.settled ∨
    ∃ n, ({ t with path := none } : ServiceFile).settled = some (bytes.take n)

theorem Replacing.unlinked {old : Option Bytes} {bytes : Bytes} {s : ServiceFile}
    (h : Replacing old bytes s) (hinitial : ∀ t ∈ s.temporary, t <+: bytes) :
    ({ s with path := none } : ServiceFile).settled = none ∨
      ({ s with path := none } : ServiceFile).settled = old ∨
      ∃ n, ({ s with path := none } : ServiceFile).settled = some (bytes.take n) := by
  cases h with
  | writing temporary =>
    cases temporary with
    | none => exact .inl rfl
    | some t =>
      obtain ⟨rest, hrest⟩ := hinitial t rfl
      exact .inr (.inr ⟨t.length, by simp [ServiceFile.settled, ← hrest]⟩)
  | moved _ => exact .inr (.inr ⟨bytes.length, by rw [List.take_length]; rfl⟩)
  | activated => exact .inr (.inl rfl)
  | finished => exact .inl rfl

theorem ServiceFile.Replaced.of_whole {bytes : Bytes} {file : ServiceFile} :
    file.Replaced bytes ⟨some bytes, none, none⟩ where
  settled := .inr ⟨by simp [ServiceFile.Ambiguous], bytes.length, by rw [List.take_length]; rfl⟩
  unlinked := .inl rfl

theorem replace_replaced {A : Event Empty → Prop} (bytes : Bytes) (s : ServiceFile) :
    Wp A (replaceServiceFile bytes) (fun _ t => t = ⟨some bytes, none, none⟩)
      (fun _ t => ((∃ c, A (.fail c)) ∧ s.Replaced bytes t) ∨ (s.stale = true ∧ t = s))
      (fun t => s.Replaced bytes t) s := by
  cases hstale : s.stale with
  | true =>
    exact (replace_stale hstale).mono (fun _ _ h => h.elim) (fun _ _ h => .inr ⟨rfl, h⟩)
      (fun _ h => h.elim)
  | false =>
    have hclean := ServiceFile.eq_clean hstale
    have hreplaced : ∀ t, Replacing s.path bytes t → (∀ u ∈ t.temporary, u <+: bytes) →
        s.Replaced bytes t := by
      intro t ht hinitial
      have hpath : s.settled = s.path := by
        rw [hclean]
        cases s.path <;> rfl
      have hclear : ¬ s.Ambiguous := by
        rw [hclean]
        simp [ServiceFile.Ambiguous]
      constructor
      · rcases ht.settled hinitial with hsettled | hpart
        · exact .inl ⟨hsettled.trans hpath.symm, iff_of_false ht.not_ambiguous hclear⟩
        · exact .inr ⟨ht.not_ambiguous, hpart⟩
      · rw [hpath]
        exact ht.unlinked hinitial
    have hpre : ∀ u ∈ s.temporary, u <+: bytes := by
      rw [hclean]
      nofun
    have hmeets : Wp A (replaceServiceFile bytes) (fun _ t => t = ⟨some bytes, none, none⟩)
        (fun _ t => (∃ c, A (.fail c)) ∧ Replacing.Reported s.path bytes t)
        (Replacing s.path bytes) s := by
      rw [hclean]
      exact replace_meets
    exact (hmeets.and (replace_initial bytes s hpre)).mono (fun _ _ h => h.1)
      (fun _ t h => .inl ⟨h.1.1, hreplaced t h.1.2.1 h.2⟩) (fun t h => hreplaced t h.1 h.2)

end Se7en
