import Se7enService.ServiceFile
set_option autoImplicit false

/-! Any sequence of calls on one protected document, each of which may fail or crash. -/

namespace Se7en
open Faulty

inductive FileCall where
  | replace : Bytes → FileCall
  | recover : FileCall
  | remove : FileCall
  deriving DecidableEq, Repr

/-- The files together with what the calls so far were about: the last document a call
or a recovery finished, the one whose replacement was interrupted, and whether a
document has to be there. -/
structure FileLedger where
  file : ServiceFile
  finished : Option Bytes
  pending : Option Bytes
  live : Bool
  crashed : Bool
  deriving DecidableEq, Repr

def FileLedger.start (path : Option Bytes) : FileLedger :=
  { file := ⟨path, none, none⟩, finished := path, pending := none, live := path.isSome,
    crashed := false }

def FileLedger.Known (l : FileLedger) (b : Bytes) : Prop := b ∈ l.finished ∨ b ∈ l.pending

instance (l : FileLedger) (b : Bytes) : Decidable (l.Known b) :=
  inferInstanceAs (Decidable (_ ∨ _))

/-- A replacement that stale files refuse never starts. -/
def FileLedger.replaced (l : FileLedger) (bytes : Bytes) :
    Outcome MaintenanceError Unit → ServiceFile → FileLedger
  | .ok _, file =>
    { file, finished := some bytes, pending := none, live := true, crashed := false }
  | .error _, file =>
    { l with file, pending := if l.file.stale then l.pending else some bytes }
  | .crashed, file =>
    { l with file, pending := if l.file.stale then l.pending else some bytes, crashed := true }

def FileLedger.recovered (l : FileLedger) :
    Outcome MaintenanceError Unit → ServiceFile → FileLedger
  | .ok _, file =>
    { file, finished := file.path <|> l.finished, pending := none,
      live := l.live || file.path.isSome, crashed := false }
  | .error _, file => { l with file }
  | .crashed, file => { l with file, crashed := true }

def FileLedger.removed (l : FileLedger) :
    Outcome MaintenanceError Unit → ServiceFile → FileLedger
  | .crashed, file => { l with file, live := l.live && file.path.isSome, crashed := true }
  | _, file => { l with file, live := l.live && file.path.isSome }

def FileLedger.turn (fault : MaintenanceError) (l : FileLedger) (call : FileCall)
    (sch : Schedule Empty) : FileLedger :=
  match call with
  | .replace bytes => (replaceServiceFile bytes l.file sch) |> fun r => l.replaced bytes r.1 r.2.1
  | .recover => (recoverServiceFileReplacement l.file sch) |> fun r => l.recovered r.1 r.2.1
  | .remove => (removeServiceFile fault l.file sch) |> fun r => l.removed r.1 r.2.1

/-- Runs in which a crash is followed by recovery and every recovery starts in a ledger
that `gate` admits. -/
inductive FileRun (fault : MaintenanceError) (gate : FileLedger → Prop) : FileLedger → Prop where
  | start (path : Option Bytes) : FileRun fault gate (.start path)
  | turn {l : FileLedger} (call : FileCall) (sch : Schedule Empty) :
      FileRun fault gate l → (l.crashed = true → call = .recover) →
      (call = .recover → gate l) → FileRun fault gate (l.turn fault call sch)

/-- What a completed recovery has to leave behind. -/
def FileLedger.Settles (l : FileLedger) (path : Option Bytes) : Prop :=
  match path with
  | some b => l.Known b
  | none => l.live = false

instance (l : FileLedger) (path : Option Bytes) : Decidable (l.Settles path) := by
  unfold FileLedger.Settles; cases path <;> infer_instance

/-- The `.new` file is not the only one left, or it holds a whole document. -/
def FileLedger.Whole (l : FileLedger) : Prop :=
  l.file.path = none → l.file.backup = none → ∀ t ∈ l.file.temporary, l.Known t

/-- What every run keeps as long as its recoveries start `Whole`. -/
structure FileLedger.Sound (l : FileLedger) : Prop where
  path_known : ∀ b ∈ l.file.path, l.Known b
  backup_known : ∀ b ∈ l.file.backup, l.Known b
  one_missing : ¬ l.file.Ambiguous
  activating : l.file.path = none → l.file.backup.isSome → ∀ t ∈ l.file.temporary, l.Known t
  kept : l.live = true → l.file.Present
  settled : l.crashed = false → l.file.stale = false → ∀ b ∈ l.file.path, b ∈ l.finished

theorem FileLedger.start_sound (path : Option Bytes) : (FileLedger.start path).Sound where
  path_known := fun b hb => .inl hb
  backup_known := nofun
  one_missing := by simp [start, ServiceFile.Ambiguous]
  activating := nofun
  kept := fun h => .inl h
  settled := fun _ _ b hb => hb

theorem FileLedger.Sound.restorable {l : FileLedger} (h : l.Sound) (hw : l.Whole) :
    Restorable l.Known l.file where
  path_known := h.path_known
  backup_known := h.backup_known
  one_missing := h.one_missing
  activating := by
    intro hp t ht
    cases hb : l.file.backup with
    | none => exact hw hp hb t ht
    | some b => exact h.activating hp (by simp [hb]) t ht

/-- A ledger whose replacement of `old` by `bytes` is under way. -/
theorem FileLedger.sound_replacing {l : FileLedger} {old : Option Bytes} {bytes : Bytes}
    (hold : ∀ b ∈ old, b ∈ l.finished) (hlive : l.live = true → old.isSome)
    (hpending : l.pending = some bytes) (hfile : Replacing old bytes l.file)
    (hsettled : l.crashed = false → l.file.stale = false → l.file.path = old) : l.Sound := by
  have hnew : l.Known bytes := .inr hpending
  have hknown : ∀ b ∈ old, l.Known b := fun b hb => .inl (hold b hb)
  have hlast : l.crashed = false → l.file.stale = false → ∀ b ∈ l.file.path, b ∈ l.finished := by
    intro hc hs b hb
    rw [hsettled hc hs] at hb
    exact hold b hb
  obtain ⟨file, finished, pending, live, crashed⟩ := l
  cases hfile with
  | writing temporary =>
    exact ⟨hknown, fun _ h => (by cases h), by simp [ServiceFile.Ambiguous],
      fun _ h => (by cases h), fun h => .inl (hlive h), hlast⟩
  | moved h =>
    refine ⟨fun _ h => (by cases h), hknown, by simp [ServiceFile.Ambiguous], ?_,
      fun _ => .inr h, hlast⟩
    rintro - - t ⟨⟩
    exact hnew
  | activated =>
    refine ⟨?_, hknown, by simp [ServiceFile.Ambiguous], fun h => (by cases h),
      fun _ => .inl rfl, hlast⟩
    rintro b ⟨⟩
    exact hnew
  | finished =>
    refine ⟨?_, fun _ h => (by cases h), by simp [ServiceFile.Ambiguous], fun h => (by cases h),
      fun _ => .inl rfl, hlast⟩
    rintro b ⟨⟩
    exact hnew

theorem FileLedger.Sound.replace {fault : MaintenanceError} {l : FileLedger} (h : l.Sound)
    (hc : l.crashed = false) (bytes : Bytes) (sch : Schedule Empty) :
    (l.turn fault (.replace bytes) sch).Sound := by
  rcases hr : replaceServiceFile bytes l.file sch with ⟨o, file, rest⟩
  simp only [turn, hr]
  cases hs : l.file.stale with
  | true =>
    have hend := (replace_stale (A := Anything) hs).result (fun _ _ => trivial) hr
    cases o with
    | ok a => exact hend.elim
    | crashed => exact hend.elim
    | error e =>
      change file = l.file at hend
      simpa [replaced, hs, hend] using h
  | false =>
    have hold := h.settled hc hs
    have hclean : l.file = ⟨l.file.path, none, none⟩ := by
      rcases hf : l.file with ⟨path, temporary, backup⟩
      simp_all [ServiceFile.stale]
    have hlive : l.live = true → l.file.path.isSome := by
      intro hl
      have hp := h.kept hl
      rw [hclean] at hp
      simpa [ServiceFile.Present] using hp
    have hend := (replace_spec (A := Anything)).result (fun _ _ => trivial) (hclean ▸ hr)
    cases o with
    | ok a =>
      cases hend
      constructor <;> simp [replaced, Known, ServiceFile.Ambiguous, ServiceFile.Present]
    | error e =>
      exact sound_replacing hold hlive (by simp [replaced, hs]) hend.1 (fun _ => hend.2)
    | crashed =>
      exact sound_replacing hold hlive (by simp [replaced, hs]) hend (fun hc => by cases hc)

theorem FileLedger.Sound.remove {fault : MaintenanceError} {l : FileLedger} (h : l.Sound)
    (hc : l.crashed = false) (sch : Schedule Empty) : (l.turn fault .remove sch).Sound := by
  rcases hr : removeServiceFile fault l.file sch with ⟨o, file, rest⟩
  have hend := (remove_spec (A := Anything)).result (fun _ _ => trivial) hr
  have hfile : file = l.file ∨ file = { l.file with path := none } := by
    cases o with
    | ok a => exact .inr hend
    | error e => exact .inl hend.2
    | crashed => exact hend
  have hsame : ∀ c, (c = false → l.crashed = false) →
      FileLedger.Sound { l with file, live := l.live && file.path.isSome, crashed := c } := by
    intro c hcrash
    rcases hfile with rfl | rfl
    · refine ⟨h.path_known, h.backup_known, h.one_missing, h.activating, ?_, ?_⟩
      · intro hl
        simp only [Bool.and_eq_true] at hl
        exact h.kept hl.1
      · exact fun hc' => h.settled (hcrash hc')
    · refine ⟨nofun, h.backup_known, by simp [ServiceFile.Ambiguous], ?_, by simp, by simp⟩
      intro _ hb t ht
      cases hp : l.file.path with
      | none => exact h.activating hp hb t ht
      | some b =>
        have ht' : l.file.temporary = some t := ht
        exact (h.one_missing ⟨by simp [hp], by simp [ht'], hb⟩).elim
  simp only [turn, hr]
  cases o with
  | ok a => exact hsame l.crashed id
  | error e => exact hsame l.crashed id
  | crashed => exact hsame true (fun _ => hc)

theorem FileLedger.Sound.recover {fault : MaintenanceError} {l : FileLedger} (h : l.Sound)
    (hw : l.Whole) (sch : Schedule Empty) : (l.turn fault .recover sch).Sound := by
  rcases hr : recoverServiceFileReplacement l.file sch with ⟨o, file, rest⟩
  have hend := (recover_spec (h.restorable hw)).result (fun _ _ => trivial) hr
  simp only [turn, hr]
  cases o with
  | ok a =>
    obtain ⟨⟨path, rfl, hknown⟩, hpresent⟩ := hend
    constructor
    · intro b hb
      exact .inl (by simp_all [recovered])
    · rintro b ⟨⟩
    · simp [recovered, ServiceFile.Ambiguous]
    · rintro - ⟨⟩
    · intro hl
      simp only [recovered, Bool.or_eq_true] at hl
      rcases hl with hl | hl
      · exact .inl (hpresent (h.kept hl))
      · exact .inl hl
    · intro _ _ b hb
      simp_all [recovered]
  | error e =>
    obtain ⟨⟨hrest, hpresent⟩, hstale⟩ := hend
    refine ⟨hrest.path_known, hrest.backup_known, hrest.one_missing,
      fun hp _ => hrest.activating hp, fun hl => hpresent (h.kept hl), ?_⟩
    intro _ hs
    cases hstale.symm.trans hs
  | crashed =>
    obtain ⟨hrest, hpresent⟩ := hend
    exact ⟨hrest.path_known, hrest.backup_known, hrest.one_missing,
      fun hp _ => hrest.activating hp, fun hl => hpresent (h.kept hl), fun h => (by cases h)⟩

theorem FileRun.sound {fault : MaintenanceError} {l : FileLedger}
    (h : FileRun fault FileLedger.Whole l) : l.Sound := by
  induction h with
  | start path => exact FileLedger.start_sound path
  | @turn l call sch _ hcrash hgate ih =>
    cases hc : l.crashed with
    | true =>
      obtain rfl := hcrash hc
      exact ih.recover (hgate rfl) sch
    | false =>
      cases call with
      | replace bytes => exact ih.replace hc bytes sch
      | recover => exact ih.recover (hgate rfl) sch
      | remove => exact ih.remove hc sch

theorem restorable_trivial {s : ServiceFile} (h : ¬ s.Ambiguous) : Restorable (fun _ => True) s :=
  ⟨fun _ _ => trivial, fun _ _ => trivial, h, fun _ _ _ => trivial⟩

theorem FileLedger.turn_not_ambiguous {fault : MaintenanceError} {l : FileLedger}
    (h : ¬ l.file.Ambiguous) (call : FileCall) (sch : Schedule Empty) :
    ¬ (l.turn fault call sch).file.Ambiguous := by
  cases call with
  | replace bytes =>
    rcases hr : replaceServiceFile bytes l.file sch with ⟨o, file, rest⟩
    simp only [turn, hr]
    cases hs : l.file.stale with
    | true =>
      have hend := (replace_stale (A := Anything) hs).result (fun _ _ => trivial) hr
      cases o with
      | ok a => exact hend.elim
      | crashed => exact hend.elim
      | error e => simpa [replaced, show file = l.file from hend] using h
    | false =>
      have hclean : l.file = ⟨l.file.path, none, none⟩ := by
        rcases hf : l.file with ⟨path, temporary, backup⟩
        simp_all [ServiceFile.stale]
      have hend := (replace_spec (A := Anything)).result (fun _ _ => trivial) (hclean ▸ hr)
      cases o with
      | ok a => cases hend; simp [replaced, ServiceFile.Ambiguous]
      | error e => exact hend.1.not_ambiguous
      | crashed => exact Replacing.not_ambiguous hend
  | recover =>
    rcases hr : recoverServiceFileReplacement l.file sch with ⟨o, file, rest⟩
    have hend := (recover_spec (restorable_trivial h)).result (fun _ _ => trivial) hr
    simp only [turn, hr]
    cases o with
    | ok a =>
      obtain ⟨⟨path, rfl, -⟩, -⟩ := hend
      simp [recovered, ServiceFile.Ambiguous]
    | error e => exact hend.1.1.one_missing
    | crashed => exact hend.1.one_missing
  | remove =>
    rcases hr : removeServiceFile fault l.file sch with ⟨o, file, rest⟩
    have hend := (remove_spec (A := Anything)).result (fun _ _ => trivial) hr
    simp only [turn, hr]
    have hnone : ¬ ServiceFile.Ambiguous { l.file with path := none } := by
      simp [ServiceFile.Ambiguous]
    cases o with
    | ok a => exact (show file = _ from hend) ▸ hnone
    | error e => exact hend.2 ▸ h
    | crashed =>
      rcases (show file = _ ∨ file = _ from hend) with rfl | rfl
      · exact h
      · exact hnone

/-- Whatever its recoveries start from, no run meets the state recovery refuses. -/
theorem FileRun.not_ambiguous {fault : MaintenanceError} {gate : FileLedger → Prop}
    {l : FileLedger} (h : FileRun fault gate l) : ¬ l.file.Ambiguous := by
  induction h with
  | start path => simp [FileLedger.start, ServiceFile.Ambiguous]
  | turn call sch _ _ _ ih => exact FileLedger.turn_not_ambiguous ih call sch

/-- A lone `.new` file is renamed to the path whatever it holds. -/
theorem recover_initial (t : Bytes) (sch : Schedule Empty) :
    recoverServiceFileReplacement ⟨none, some t, none⟩ (.go :: sch) =
      (.ok (), ⟨some t, none, none⟩, sch) := rfl

/-- A document is restored whole by every recovery of a run exactly as long as no
recovery starts from a lone `.new` file that holds only a part of one. -/
theorem recovery_settles_iff_whole (fault : MaintenanceError) :
    (∀ l, FileRun fault (fun _ => True) l → ¬ l.file.Ambiguous) ∧
    ∀ l, FileRun fault FileLedger.Whole l →
      (∀ b ∈ l.file.path, l.Known b) ∧
      ((∀ sch file rest, recoverServiceFileReplacement l.file sch = (.ok (), file, rest) →
          file.temporary = none ∧ file.backup = none ∧ l.Settles file.path) ↔ l.Whole) := by
  refine ⟨fun l h => h.not_ambiguous, fun l h => ⟨h.sound.path_known, ?_, ?_⟩⟩
  · intro hall hpath hbackup t ht
    have hfile : l.file = ⟨none, some t, none⟩ := by
      rcases hf : l.file with ⟨path, temporary, backup⟩
      simp_all
    have hsettled := hall [.go] _ _ (hfile ▸ recover_initial t [])
    exact hsettled.2.2
  · intro hw sch file rest hr
    have hend := (recover_spec (h.sound.restorable hw)).result (fun _ _ => trivial) hr
    obtain ⟨⟨path, rfl, hknown⟩, hpresent⟩ := hend
    refine ⟨rfl, rfl, ?_⟩
    cases path with
    | some b => exact hknown b rfl
    | none =>
      cases hl : l.live with
      | false => exact hl
      | true => cases hpresent (h.sound.kept hl)

/-- The first document's `.new` file cut short, then moved to the path. -/
theorem recovery_activates_torn_file :
    ¬ ∀ (fault : MaintenanceError) (l : FileLedger), FileRun fault (fun _ => True) l →
      ∀ sch file rest, recoverServiceFileReplacement l.file sch = (.ok (), file, rest) →
        l.Settles file.path := by
  intro h
  have hstart : FileRun (ioError "") (fun _ => True) _ := .start none
  have hrun := hstart.turn (.replace [1, 2]) [.go, .crash (.within 1)] (by decide) (fun _ => trivial)
  have hsettles := h (ioError "") _ hrun [] ⟨some [1], none, none⟩ [] rfl
  revert hsettles
  decide

/-- A document replaced, then a replacement cut short beside it and recovered. -/
theorem recovery_settles_two_replacements :
    let l := ((FileLedger.start none).turn (ioError "") (.replace [1]) []).turn (ioError "")
      (.replace [2, 3]) [.go, .crash (.within 1)]
    l.file = ⟨some [1], some [2], none⟩ ∧
    (∀ b ∈ l.file.path, l.Known b) ∧
    ((∀ sch file rest, recoverServiceFileReplacement l.file sch = (.ok (), file, rest) →
        file.temporary = none ∧ file.backup = none ∧ l.Settles file.path) ↔ l.Whole) := by
  intro l
  have hrun : FileRun (ioError "") FileLedger.Whole l :=
    ((FileRun.start none).turn (.replace [1]) [] (by decide) nofun).turn
      (.replace [2, 3]) [.go, .crash (.within 1)] (by decide) nofun
  exact ⟨by decide, (recovery_settles_iff_whole (ioError "")).2 l hrun⟩

end Se7en
