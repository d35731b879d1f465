import Se7enService.RegistryFile

set_option autoImplicit false

/-! The step at which a save of a registry fails, and what is then found at its path. -/

namespace Se7en
open Faulty

namespace ServiceFile

/-- The document beside the path when the new one is renamed onto it. -/
def beside (file : ServiceFile) : Option Bytes := file.path.or file.backup

/-- The number of the rename onto the path among the steps of a save. -/
def renameStep (file : ServiceFile) : Nat :=
  4 + if file.path.isSome then (if file.backup.isSome then 2 else 1) else 0

def saveSteps (file : ServiceFile) : Nat :=
  file.renameStep + if file.beside.isSome then 3 else 2

/-- The backup could not be put back. -/
def RestoreFails (rest : Schedule Empty) : Prop := ∃ c rest', rest = .fail c :: rest'

def RestoreCrashes (rest : Schedule Empty) : Prop := ∃ c rest', rest = .crash c :: rest'

/-- The path behind a save that reports the failure of a step. -/
def PathAfter (file : ServiceFile) (bytes : Bytes) (step : Nat) (rest : Schedule Empty)
    (path : Option Bytes) : Prop :=
  (step < file.renameStep ∧ path = file.path) ∨
  (step = file.renameStep ∧ RestoreFails rest ∧ path = none) ∨
  (step = file.renameStep ∧ ¬ RestoreFails rest ∧ path = file.beside) ∨
  (file.renameStep < step ∧ path = some bytes)

/-- A save that reports the failure of the step leaves the document at the path. -/
def KeepsPath (file : ServiceFile) (bytes : Bytes) (step : Nat) (rest : Schedule Empty) : Prop :=
  step < file.renameStep ∨
  (step = file.renameStep ∧ RestoreFails rest ∧ file.path = none) ∨
  (step = file.renameStep ∧ ¬ RestoreFails rest ∧ file.path = file.beside) ∨
  (file.renameStep < step ∧ file.path = some bytes)

theorem PathAfter.eq_iff {file : ServiceFile} {bytes : Bytes} {step : Nat} {rest : Schedule Empty}
    {path : Option Bytes} (h : file.PathAfter bytes step rest path) :
    path = file.path ↔ file.KeepsPath bytes step rest := by
  rcases h with ⟨hstep, rfl⟩ | ⟨rfl, hfails, rfl⟩ | ⟨rfl, hfails, rfl⟩ | ⟨hstep, rfl⟩
  · simp [KeepsPath, hstep]
  · simp [KeepsPath, hfails, eq_comm]
  · simp [KeepsPath, hfails, eq_comm]
  · have hne : step ≠ file.renameStep := by omega
    have hnot : ¬ step < file.renameStep := by omega
    simp [KeepsPath, hstep, hne, hnot, eq_comm]

/-- A save with these events reports the failure of the step. -/
def Reports (file : ServiceFile) (sch : Schedule Empty) (step : Nat) (rest : Schedule Empty) :
    Prop :=
  ∃ c, step < file.saveSteps ∧ sch = List.replicate step .go ++ .fail c :: rest ∧
    ¬ (step = file.renameStep ∧ file.beside.isSome ∧ RestoreCrashes rest)

end ServiceFile

theorem located_commitRegistry {errors : SaveErrors} {bytes : Bytes} {path backup : Option Bytes}
    {E : Nat → Schedule Empty → ServiceFile → Prop} {D : Nat → Schedule Empty → Prop}
    (hrestored : ∀ rest, ¬ ServiceFile.RestoreFails rest →
      ¬ (backup.isSome ∧ ServiceFile.RestoreCrashes rest) →
      E 0 rest (if backup.isSome then ⟨backup, some bytes, none⟩ else ⟨path, some bytes, none⟩))
    (hlost : ∀ rest, ServiceFile.RestoreFails rest → E 0 rest ⟨path, some bytes, backup⟩)
    (hdies : ∀ rest, backup.isSome → ServiceFile.RestoreCrashes rest → D 0 rest)
    (hlate : ∀ j rest backup', E (j + 1) rest ⟨some bytes, none, backup'⟩) :
    Located (if backup.isSome then 3 else 2) (commitRegistry errors) (fun _ _ => True) E D
      ⟨path, some bytes, backup⟩ := by
  intro sch
  rcases sch with _ | ⟨event, sch⟩
  · cases backup <;>
      simp [commitRegistry, run_bind, attempt, Step.run, Step.proceed, renameTemporaryToPath,
        run_look, removeBackup, syncPath]
  · cases event with
    | outside m => exact m.elim
    | crash c =>
      exact ⟨0, c, sch, by split <;> omega, .inl rfl⟩
    | fail c =>
      cases backup with
      | none =>
        simp only [commitRegistry, run_bind, attempt, Step.run, renameTemporaryToPath, run_look,
          run_throw, Option.isSome_none, Bool.false_eq_true, if_false]
        refine ⟨0, c, sch, by omega, rfl, ?_⟩
        by_cases hrest : ServiceFile.RestoreFails sch
        · exact hlost sch hrest
        · simpa using hrestored sch hrest (by simp)
      | some b =>
        rcases sch with _ | ⟨event, sch⟩
        · have hrest := hrestored [] (by simp [ServiceFile.RestoreFails])
            (by simp [ServiceFile.RestoreCrashes])
          exact ⟨0, c, [], by simp, rfl, hrest⟩
        · cases event with
          | outside m => exact m.elim
          | go =>
            have hrest := hrestored (.go :: sch) (by simp [ServiceFile.RestoreFails])
              (by simp [ServiceFile.RestoreCrashes])
            exact ⟨0, c, .go :: sch, by simp, rfl, hrest⟩
          | fail c' => exact ⟨0, c, .fail c' :: sch, by simp, rfl, hlost _ ⟨c', sch, rfl⟩⟩
          | crash c' =>
            exact ⟨0, c, .crash c' :: sch, by simp, .inr ⟨rfl, hdies _ rfl ⟨c', sch, rfl⟩⟩⟩
    | go =>
      cases backup with
      | none =>
        exact (Located.step (p := syncPath errors.finalSync) (t := ⟨some bytes, none, none⟩) rfl
          trivial fun c rest => hlate 0 rest none).go sch
      | some b =>
        exact (Located.bind_step (p := removeBackup errors.backupCleanup)
          (f := fun _ => (syncPath errors.finalSync).run) (s := ⟨some bytes, none, some b⟩)
          (t := ⟨some bytes, none, none⟩) rfl (fun c rest => hlate 0 rest (some b))
          (Located.step rfl trivial fun c rest => hlate 1 rest none)).go sch

/-- The end of a save, from the rename on. -/
theorem located_commit_after (errors : SaveErrors) (bytes : Bytes) (file : ServiceFile) :
    Located (if file.beside.isSome then 3 else 2) (commitRegistry errors) (fun _ _ => True)
      (fun step rest t => file.PathAfter bytes (step + file.renameStep) rest t.path ∧
        ¬ (step + file.renameStep = file.renameStep ∧ file.beside.isSome ∧
          ServiceFile.RestoreCrashes rest))
      (fun step rest => step + file.renameStep = file.renameStep ∧ file.beside.isSome ∧
        ServiceFile.RestoreCrashes rest) ⟨none, some bytes, file.beside⟩ := by
  refine located_commitRegistry (fun rest hfails hdies => ?_) (fun rest hfails => ?_)
    (fun rest hsome hcrash => ⟨Nat.zero_add _, hsome, hcrash⟩) (fun step rest backup => ?_)
  · refine ⟨.inr (.inr (.inl ⟨Nat.zero_add _, hfails, ?_⟩)), fun h => hdies h.2⟩
    cases file.beside <;> rfl
  · refine ⟨.inr (.inl ⟨Nat.zero_add _, hfails, rfl⟩), ?_⟩
    rintro ⟨-, -, c, rest', rfl⟩
    obtain ⟨c', rest'', heq⟩ := hfails
    cases heq
  · exact ⟨.inr (.inr (.inr ⟨by omega, rfl⟩)), fun h => by omega⟩

theorem located_writeRegistry (errors : SaveErrors) (bytes : Bytes) (file : ServiceFile) :
    Located file.saveSteps (writeRegistry errors bytes) (fun _ _ => True)
      (fun step rest t => file.PathAfter bytes step rest t.path ∧
        ¬ (step = file.renameStep ∧ file.beside.isSome ∧ ServiceFile.RestoreCrashes rest))
      (fun step rest => step = file.renameStep ∧ file.beside.isSome ∧
        ServiceFile.RestoreCrashes rest) file := by
  have hcommit := located_commit_after errors bytes file
  have early : ∀ {step : Nat} {rest : Schedule Empty} {t : ServiceFile},
      step < file.renameStep → t.path = file.path →
        file.PathAfter bytes step rest t.path ∧
          ¬ (step = file.renameStep ∧ file.beside.isSome ∧ ServiceFile.RestoreCrashes rest) :=
    fun hstep hpath => ⟨.inl ⟨hstep, hpath⟩, fun h => by omega⟩
  have hrename : 4 ≤ file.renameStep := Nat.le_add_right _ _
  obtain ⟨path, temporary, backup⟩ := file
  have hsteps : ServiceFile.saveSteps ⟨path, temporary, backup⟩ =
      (ServiceFile.saveSteps ⟨path, temporary, backup⟩ - 4) + 1 + 1 + 1 + 1 := by
    simp only [ServiceFile.saveSteps]
    omega
  rw [hsteps]
  unfold writeRegistry
  refine .bind_step rfl (fun c rest => early (by omega) rfl) ?_
  refine .bind_step rfl (fun c rest => early (by omega) rfl) ?_
  refine .bind_step rfl (fun c rest => early (by omega) (by cases c <;> rfl)) ?_
  refine .bind_step rfl (fun c rest => early (by omega) rfl) ?_
  cases path with
  | none =>
    have htail : ServiceFile.saveSteps ⟨none, temporary, backup⟩ - 4 =
        if (ServiceFile.beside ⟨none, temporary, backup⟩).isSome then 3 else 2 := by
      simp only [ServiceFile.saveSteps, ServiceFile.renameStep, Option.isSome_none,
        Bool.false_eq_true, if_false]
      omega
    rw [htail]
    exact hcommit
  | some p =>
    cases backup with
    | none =>
      have htail : ServiceFile.saveSteps ⟨some p, temporary, none⟩ - 4 = 3 + 1 := rfl
      rw [htail]
      exact .bind_step (t := ⟨none, some bytes, some p⟩) rfl
        (fun c rest => early (by simp [ServiceFile.renameStep]) rfl) hcommit
    | some b =>
      have htail : ServiceFile.saveSteps ⟨some p, temporary, some b⟩ - 4 = 3 + 1 + 1 := rfl
      rw [htail]
      exact .bind_step (t := ⟨some p, some bytes, none⟩) rfl
        (fun c rest => early (by simp [ServiceFile.renameStep]) rfl)
        (.bind_step (t := ⟨none, some bytes, some p⟩) rfl
          (fun c rest => early (by simp [ServiceFile.renameStep]) rfl) hcommit)

theorem first_fault {j k : Nat} {event event' : Event Empty} {rest rest' : Schedule Empty}
    (h : List.replicate j .go ++ event :: rest = List.replicate k .go ++ event' :: rest')
    (hevent : event ≠ .go) (hevent' : event' ≠ .go) : j = k ∧ event = event' ∧ rest = rest' := by
  induction j generalizing k with
  | zero =>
    cases k with
    | zero =>
      simp only [List.replicate_zero, List.nil_append, List.cons.injEq] at h
      exact ⟨rfl, h⟩
    | succ k =>
      simp only [List.replicate_zero, List.nil_append, List.replicate_succ, List.cons_append,
        List.cons.injEq] at h
      exact absurd h.1 hevent
  | succ j ih =>
    cases k with
    | zero =>
      simp only [List.replicate_zero, List.nil_append, List.replicate_succ, List.cons_append,
        List.cons.injEq] at h
      exact absurd h.1.symm hevent'
    | succ k =>
      simp only [List.replicate_succ, List.cons_append, List.cons.injEq, true_and] at h
      obtain ⟨hj, hrest⟩ := ih h
      exact ⟨by omega, hrest⟩

/-- How a save ends: it reports a failure, of the step that its first fault stands at, or none. -/
theorem writeRegistry_ends (errors : SaveErrors) (bytes : Bytes) (file : ServiceFile)
    (sch : Schedule Empty) :
    match writeRegistry errors bytes file sch with
    | (.error _, t, _) => ∃ step rest, file.Reports sch step rest ∧
        file.PathAfter bytes step rest t.path
    | _ => ∀ step rest, ¬ file.Reports sch step rest := by
  have hrun := located_writeRegistry errors bytes file sch
  revert hrun
  rcases writeRegistry errors bytes file sch with ⟨a | e | _, t, left⟩
  · rintro ⟨hgo, -⟩ step rest ⟨c, hstep, rfl, -⟩
    have hmem : Event.fail c ∈
        (List.replicate step .go ++ Event.fail c :: rest : Schedule Empty).take file.saveSteps := by
      rw [List.take_append, List.mem_append]
      right
      rw [List.length_replicate, show file.saveSteps - step = file.saveSteps - step - 1 + 1 by omega]
      exact List.mem_cons_self
    exact absurd (hgo _ hmem) (by simp)
  · rintro ⟨step, c, rest, hstep, hsch, hpath, hdies⟩
    exact ⟨step, rest, ⟨c, hstep, hsch, hdies⟩, hpath⟩
  · rintro ⟨step, c, rest, hstep, hsch | ⟨hsch, hdies⟩⟩ step' rest' ⟨c', hstep', hsch', hdies'⟩
    · obtain ⟨-, hevent, -⟩ := first_fault (hsch.symm.trans hsch') (by simp) (by simp)
      simp at hevent
    · obtain ⟨rfl, -, rfl⟩ := first_fault (hsch.symm.trans hsch') (by simp) (by simp)
      exact hdies' hdies

end Se7en
