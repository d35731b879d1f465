import Se7enService.DirectHelper
import Se7enService.DirectPrepare
set_option autoImplicit false

/-! Helpers one after another, each of which may be stopped anywhere. -/

namespace Se7en
open Faulty

theorem Starting.frame {name jobId path : String} {entries : List JournalEntry} {d t : Disk}
    (h : Starting name d) (hname : name ≠ jobId) (hf : Frame path jobId entries d t) :
    Starting name t where
  bare q index := by
    have hnone := h.bare q index
    by_cases hq : q = path
    · subst hq
      simpa [Disk.backup, hf.reserved name hname] using hnone
    · simpa [Disk.backup, Disk.reserved, hf.root q hq] using hnone
  journal := by
    have hdirectory := hf.directory hname
    simpa [Disk.journal, hdirectory] using h.journal

/-- The trees below the roots are the same. -/
structure Disk.Grown (d t : Disk) : Prop where
  target : ∀ path p, t.target path p = d.target path p
  entry : ∀ path, (t.root path).entry = (d.root path).entry

theorem Disk.Grown.refl {d : Disk} : d.Grown d := ⟨fun _ _ => rfl, fun _ => rfl⟩

theorem Disk.Grown.trans {d u t : Disk} (h : d.Grown u) (h' : u.Grown t) : d.Grown t :=
  ⟨fun path p => (h'.target path p).trans (h.target path p),
    fun path => (h'.entry path).trans (h.entry path)⟩

theorem Frame.grown {path jobId : String} {d t : Disk} (h : Frame path jobId [] d t) : d.Grown t where
  target q p := by
    by_cases hq : q = path
    · subst hq
      obtain hsame | ⟨-, -, entry, he, -⟩ := h.target p (by simp [Targeted])
      · exact hsame
      · simp at he
    · simp [Disk.target, h.root q hq]
  entry q := by
    by_cases hq : q = path
    · exact hq ▸ h.rootEntry
    · rw [h.root q hq]

section Nodes

variable {plan : Plan} {entry : JournalEntry} {c : Bool} {d : Disk}

theorem Plan.Undoable.node {v : View} (h : plan.Undoable entry v) :
    v.node = plan.old entry ∨ v.node = plan.new entry ∨ v.node = none := by
  obtain h | ⟨-, h⟩ | ⟨-, -, -, h⟩ := h
  · exact .inl h.1
  · exact .inr h.symm
  · exact .inr h.symm

theorem Plan.Safe.node (h : plan.Safe c d) (he : entry ∈ plan.entries) :
    (plan.view entry d).node = plan.old entry ∨ (plan.view entry d).node = plan.new entry ∨
      (plan.view entry d).node = none := by
  have hsettled : ∀ c, plan.Settled c d → (plan.view entry d).node = plan.old entry ∨
      (plan.view entry d).node = plan.new entry ∨ (plan.view entry d).node = none := by
    intro c hset
    cases c with
    | true => exact .inr (.inl (hset entry he))
    | false => exact .inl (hset entry he).1
  cases h with
  | prepared _ hset => exact hsettled _ hset
  | undo _ _ hundo => exact (hundo entry he).node
  | committed _ hset => exact hsettled _ hset
  | gone hgone => exact hsettled _ hgone.settled

theorem Plan.Safe.settled (h : plan.Safe true d) : plan.Settled true d := by
  cases h with
  | committed _ hset => exact hset
  | gone hgone => exact hgone.settled

end Nodes

namespace Direct

theorem DirectPlatform.bound_ok [Sha256] {self : DirectPlatform} {root : RegisteredRoot} {d : Disk}
    (h : self.bound root d = .ok ()) : root = self.root ∧ Verified self.root d := by
  by_cases hroot : root = self.root
  · subst hroot
    exact ⟨rfl, (self.bound_self d).symm.trans h⟩
  · simp [bound, hroot] at h

/-! ### Recovering a preparation -/

section Idle

variable [Sha256] [Unicode] [Deserialize JournalHeader] [Deserialize JournalStateRecord]
  [LawfulDeserialize JournalStateRecord] {context : DirectContext} {d : Disk} {name : String}

/-- Whatever is in the jobs directory is the start of a preparation. -/
def Idle (d : Disk) : Prop := ∀ name, Starting name d

omit [Sha256] [Unicode] [Deserialize JournalHeader] [Deserialize JournalStateRecord]
  [LawfulDeserialize JournalStateRecord] in
theorem Idle.frame {t : Disk} {path : String} {entries : List JournalEntry} (h : Idle d)
    (hname : Starting name t) (hf : Frame path name entries d t) : Idle t := by
  intro other
  by_cases hother : other = name
  · exact hother ▸ hname
  · exact (h other).frame hother hf

omit [Sha256] [Unicode] [Deserialize JournalHeader] [Deserialize JournalStateRecord]
  [LawfulDeserialize JournalStateRecord] in
/-- Cleaning up a preparation, from where it was cut short. -/
theorem wp_cleanup_starting (prepared : PreparedJob) (hd : Starting prepared.header.jobId d) :
    Wp Quiet (cleanupPreparedJob prepared)
      (fun _ t => (Starting prepared.header.jobId t ∧ prepared.Frames [] d t) ∧
        t.hasJob prepared.header.jobId = false)
      (fun _ t => Starting prepared.header.jobId t ∧ prepared.Frames [] d t)
      (fun t => Starting prepared.header.jobId t ∧ prepared.Frames [] d t) d := by
  have hstarting : Keeps Quiet (Starting prepared.header.jobId) (cleanupPreparedJob prepared) :=
    keeps_cleanupPreparedJob Stable.quiet (fun _ h => h.setReserved fun _ => rfl)
      (fun _ n h => h.removePart n) Starting.disposable
  have hframe : Wp Quiet (cleanupPreparedJob prepared) (fun _ => prepared.Frames [] d)
      (fun _ => prepared.Frames [] d) (prepared.Frames [] d) d := frame_cleanupPreparedJob d Frame.refl
  exact (((hstarting d hd).and hframe).and (wp_cleanup_done rfl)).mono (fun _ _ h => h) (fun _ _ h => h.1)
    (fun _ h => h.1)

theorem wp_recoverDirectory_starting (hd : Starting name d) (result : RecoveryResult) :
    Wp Quiet (context.toDirectPlatform.platform.recoverDirectory context.policy name result)
      (fun _ t => (Starting name t ∧ Frame context.root.canonicalPath name [] d t) ∧
        t.hasJob name = false)
      (fun _ t => Starting name t ∧ Frame context.root.canonicalPath name [] d t)
      (fun t => Starting name t ∧ Frame context.root.canonicalPath name [] d t) d := by
  have hself : Starting name d ∧ Frame context.root.canonicalPath name [] d d := ⟨hd, Frame.refl⟩
  refine Wp.bind (Wp.look ?_)
  cases hdirectory : d.directory name with
  | none => exact Wp.throw hself
  | some directory =>
    cases hjournal : directory.journal with
    | none =>
      simp only [hjournal]
      have hstarting := keeps_removeJob Stable.quiet Starting.disposable d hd
      have hframe : Keeps Quiet (Frame context.root.canonicalPath name [] d)
          ((removeJob name).run : JobProg Unit) := keeps_removeJob Stable.quiet Frame.disposable
      exact Wp.bind (((hstarting.and (hframe d Frame.refl)).and wp_removeJob_done).mono (fun _ _ h => Wp.pure h)
        (fun _ _ h => h.1) (fun _ h => h.1))
    | some bytes =>
      simp only [hjournal]
      have hbytes : d.journal name = some bytes := by simp [Disk.journal, hdirectory, hjournal]
      refine Wp.bind (Wp.lift (fun read hread => ?_) (fun _ _ => hself))
      obtain ⟨header, state⟩ := read
      obtain rfl : state = .prepared := by
        obtain hnone | ⟨header', n, hpart⟩ := hd.journal
        · rw [hnone] at hbytes
          cases hbytes
        · rw [hpart] at hbytes
          cases hbytes
          exact readJournal_new hread
      by_cases hname : name = header.jobId
      · subst hname
        simp only [ne_eq, not_true_eq_false, if_false]
        refine Wp.bind (Wp.look ?_)
        cases hbound : context.toDirectPlatform.platform.verifyRootIdentity header.root d with
        | error e => exact Wp.bind (Wp.look (Wp.throw hself))
        | ok =>
          obtain ⟨hroot, hverified⟩ := DirectPlatform.bound_ok hbound
          have hlike : context.toDirectPlatform.platform.Like Quiet (Verified context.root) header.root
              fun path => pathAllowed path context.launcher = true := by
            rw [hroot]
            exact context.toDirectPlatform.like
          let prepared : PreparedJob := { header, policy := context.policy }
          have hagrees : Agrees _ _ _ (cleanupPreparedJob prepared) :=
            TransactionPlatform.agrees_cleanupPreparedJob hlike
              fun event => keeps_checkpoint Stable.quiet _ event
          have hcleanup := hagrees.wp hverified
            (wp_cleanup_starting prepared hd)
          rw [← hroot]
          exact Wp.bind (hcleanup.mono (fun _ _ h => Wp.pure h) (fun _ _ h => h) (fun _ h => h))
      · simp only [ne_eq, hname, not_false_eq_true, if_true]
        exact Wp.bind (Wp.throw hself)

theorem wp_recoverDirectories_idle {names : List String} (hd : Idle d) (result : RecoveryResult) :
    Wp Quiet (context.toDirectPlatform.platform.recoverDirectories context.policy names result)
      (fun _ t => (Idle t ∧ d.Grown t) ∧
        ∀ name, t.hasJob name = true → d.hasJob name = true ∧ name ∉ names)
      (fun _ t => Idle t ∧ d.Grown t) (fun t => Idle t ∧ d.Grown t) d := by
  induction names generalizing d result with
  | nil => exact Wp.pure ⟨⟨hd, .refl⟩, fun _ h => ⟨h, List.not_mem_nil⟩⟩
  | cons name names ih =>
    refine Wp.bind ((wp_recoverDirectory_starting (hd name) result).mono ?_
      (fun _ _ h => ⟨hd.frame h.1 h.2, h.2.grown⟩) (fun _ h => ⟨hd.frame h.1 h.2, h.2.grown⟩))
    intro result' t ⟨⟨hname, hf⟩, hgone⟩
    refine (ih (hd.frame hname hf) result').mono (fun _ u hu => ?_)
      (fun _ _ h => ⟨h.1, hf.grown.trans h.2⟩) (fun _ h => ⟨h.1, hf.grown.trans h.2⟩)
    refine ⟨⟨hu.1.1, hf.grown.trans hu.1.2⟩, fun other hother => ?_⟩
    obtain ⟨hjob, hnot⟩ := hu.2 other hother
    have hne : other ≠ name := by
      rintro rfl
      rw [hgone] at hjob
      cases hjob
    exact ⟨(hf.hasJob other hne).symm.trans hjob, by simp [hne, hnot]⟩

/-- What is left of preparations is removed without a change to the trees. -/
theorem wp_recovery_idle (hd : Idle d) :
    Wp Quiet context.recovery
      (fun _ t => (Idle t ∧ d.Grown t) ∧ ∀ name, t.hasJob name = false)
      (fun _ t => Idle t ∧ d.Grown t) (fun t => Idle t ∧ d.Grown t) d := by
  refine wp_recovery_of (I := fun t => Idle t ∧ d.Grown t)
    (J := fun t => (Idle t ∧ d.Grown t) ∧ ∀ name, t.hasJob name = false) ⟨hd, .refl⟩ ?_ ?_ ?_
    (fun _ h => h.1)
  · exact fun hjobs => ⟨⟨hd, .refl⟩, fun name => by simp [Disk.hasJob, hjobs]⟩
  · intro names hjobs
    refine (wp_recoverDirectories_idle hd {}).mono (fun _ t ht => ⟨ht.1, fun name => ?_⟩)
      (fun _ _ h => h) (fun _ h => h)
    by_contra hjob
    obtain ⟨hold, hnot⟩ := ht.2 name (by simpa using hjob)
    simp [Disk.hasJob, hjobs] at hold
    simp [hold] at hnot
  · intro t ht hjobs
    refine ⟨⟨fun name => ⟨(ht.1.1 name).bare.of_root rfl, ?_⟩, ?_⟩, fun name => ?_⟩
    · exact .inl (by simp [Disk.journal, Disk.directory, Disk.hasJob])
    · exact ht.1.2.trans ⟨fun _ _ => rfl, fun _ => rfl⟩
    · simp [Disk.hasJob]

end Idle

/-! ### What the root holds -/

section Contents

variable [Unicode] [Sha256] [Ed25519] [Deserialize Keyring] [Deserialize FileSet]
  {context : DirectContext} {plan : Plan} {c : Bool} {d : Disk}

/-- A plan for this launcher with the signatures of a release key and of the offline root. -/
def DirectContext.Signed (context : DirectContext) (manifest : VerifiedFileSet) : Prop :=
  (∃ keyringBytes acceptance keyring bytes previous,
    verifyKeyring keyringBytes acceptance = .ok keyring ∧
      verifyFileSet bytes keyring { expectedProductId := context.root.productId, previous } =
        .ok manifest) ∧
    validatePlan manifest.fileSet context.launcher = .ok ()

/-- Content that a signed plan has for this path. -/
def DirectContext.Genuine (context : DirectContext) (p : TargetPath) (content : Bytes) : Prop :=
  ∃ manifest, context.Signed manifest ∧
    ∃ entry ∈ manifest.fileSet.files, targetPath entry.path = p ∧ Matches entry content

/-- A plan for this launcher may carry a file for this path. -/
def DirectContext.Plannable (context : DirectContext) (p : TargetPath) : Prop :=
  ∃ path, pathAllowed path context.launcher = true ∧ targetPath path = p

/-- From `base` on files have kept their content or got a signed one, and have not gone. -/
structure DirectContext.Descends (context : DirectContext)
    (base node : TargetPath → Option Node) : Prop where
  genuine : ∀ p file, node p = some (.file file) →
    base p = some (.file file) ∨ context.Genuine p file.content
  stays : context.splits = false → ∀ p file, base p = some (.file file) →
    ∃ file', node p = some (.file file')
  other : ∀ p file, base p = some (.file file) → ¬ context.Plannable p → node p = some (.file file)

theorem DirectContext.Descends.refl {node : TargetPath → Option Node} :
    context.Descends node node :=
  ⟨fun _ _ h => .inl h, fun _ _ file h => ⟨file, h⟩, fun _ _ h _ => h⟩

theorem DirectContext.Descends.trans {base node node' : TargetPath → Option Node}
    (h : context.Descends base node) (h' : context.Descends node node') :
    context.Descends base node' where
  genuine p file hfile := (h'.genuine p file hfile).elim (h.genuine p file) .inr
  stays hsplits p file hfile := by
    obtain ⟨file', hfile'⟩ := h.stays hsplits p file hfile
    exact h'.stays hsplits p file' hfile'
  other p file hfile hp := h'.other p file (h.other p file hfile hp) hp

/-- What the plan installs is signed for its paths. -/
def DirectContext.Installs (context : DirectContext) (plan : Plan) : Prop :=
  ∀ entry ∈ plan.entries, ∀ file, plan.new entry = some (.file file) →
    context.Genuine (targetPath entry.path) file.content

variable [Deserialize JournalHeader] [Deserialize JournalStateRecord]

/-- Wherever an update stands, the files are its old ones or signed ones. -/
theorem Alone.descends (hs : plan.plain.Sound) (hcovered : Covered context plan.job)
    (hinstalls : context.Installs plan) (hd : Alone plan context.splits c d) :
    context.Descends plan.base (d.target context.root.canonicalPath) := by
  have hpath : plan.path = context.root.canonicalPath := congrArg _ hcovered.root
  rw [← hpath]
  have huntargeted : ∀ p file, plan.base p = some (.file file) → ¬ Targeted plan.entries p →
      d.target plan.path p = some (.file file) := by
    intro p file hfile htargeted
    obtain hsame | ⟨hnone, -⟩ := hd.intact.around p htargeted
    · exact hsame.trans hfile
    · rw [hfile] at hnone
      cases hnone
  constructor
  · intro p file hfile
    by_cases htargeted : Targeted plan.entries p
    · obtain ⟨entry, he, rfl⟩ := htargeted
      have hnode := hd.stands.1.node he
      simp only [Plan.view, hfile] at hnode
      obtain hold | hnew | hnone := hnode
      · exact .inl hold.symm
      · exact .inr (hinstalls entry he file hnew.symm)
      · cases hnone
    · obtain hsame | ⟨-, hdirectory⟩ := hd.intact.around p htargeted
      · exact .inl (hsame ▸ hfile)
      · rw [hdirectory] at hfile
        cases hfile
  · intro hsplits p file hfile
    by_cases htargeted : Targeted plan.entries p
    · obtain ⟨entry, he, rfl⟩ := htargeted
      have hsome : entry.original.isSome := by
        by_contra hnone
        have hbase := hs.original entry he
        simp only [Bool.not_eq_true, Option.isSome_eq_false_iff, Option.isNone_iff_eq_none] at hnone
        rw [hnone] at hbase
        exact absurd (hbase.symm.trans hfile) (by simp)
      obtain hold | hnew := hd.stands.2 hsplits entry he hsome
      · exact ⟨file, hold.trans hfile⟩
      · obtain ⟨index, payload, hindex, hpayload⟩ :=
          hs.replaces entry he (hcovered.owns.replaces entry he)
        have hpayload : plan.payload index = some payload := hpayload
        exact ⟨_, hnew.trans (by simp [Plan.new, hindex, hpayload]; rfl)⟩
    · exact ⟨file, huntargeted p file hfile htargeted⟩
  · intro p file hfile hp
    refine huntargeted p file hfile ?_
    rintro ⟨entry, he, rfl⟩
    exact hp ⟨entry.path, hcovered.paths entry he, rfl⟩

end Contents

/-! ### What a recovery starts from -/

section Runs

variable [Unicode] [Sha256] [Ed25519] [Deserialize Keyring] [Deserialize FileSet]
  [Deserialize JournalHeader] [Deserialize JournalStateRecord]

variable {context : DirectContext} {start : TargetPath → Option Node} {plan : Plan} {c : Bool} {d t : Disk}
  {job : PreparedJob}

/-- An update is under way, or has been cut short. -/
structure Running (context : DirectContext) (start : TargetPath → Option Node) (plan : Plan)
    (c : Bool) (d : Disk) : Prop where
  sound : plan.plain.Sound
  covered : Covered context plan.job
  installs : context.Installs plan
  alone : Alone plan context.splits c d
  base : context.Descends start plan.base

/-- A recovery can start from here. -/
inductive Recoverable (context : DirectContext) (start : TargetPath → Option Node) (d : Disk) : Prop where
  | idle (hidle : Idle d) (hdescends : context.Descends start (d.target context.root.canonicalPath))
  | running {plan : Plan} {c : Bool} (hrunning : Running context start plan c d)

/-- A job waits for its commit. -/
structure Waiting (context : DirectContext) (start : TargetPath → Option Node) (job : PreparedJob)
    (manifest : VerifiedFileSet) (d t : Disk) : Prop where
  prepared : PreparedFrom manifest context.root context.policy d job t
  signed : context.Signed manifest
  jobs : ∀ name, d.hasJob name = false
  bare : ∀ name, Bare name d
  descends : context.Descends start (d.target context.root.canonicalPath)

theorem Running.descends (h : Running context start plan c d) :
    context.Descends start (d.target context.root.canonicalPath) :=
  h.base.trans (h.alone.descends h.sound h.covered h.installs)

theorem Recoverable.descends (h : Recoverable context start d) :
    context.Descends start (d.target context.root.canonicalPath) := by
  cases h with
  | idle _ hdescends => exact hdescends
  | running hrunning => exact hrunning.descends

/-- Without its directory nothing of the update is left but what it did to the targets. -/
theorem Running.settled (h : Running context start plan c d) (hgone : d.hasJob plan.jobId = false) :
    plan.Settled c d :=
  (h.alone.stands.1.gone_of_journal (by simp [Disk.journal, Disk.directory, hgone])).settled

theorem Running.idle (h : Running context start plan c d) (hgone : d.hasJob plan.jobId = false) :
    Idle d ∧ ∀ name, d.hasJob name = false := by
  have hjobs : ∀ name, d.hasJob name = false := by
    intro name
    by_cases hname : name = plan.jobId
    · exact hname ▸ hgone
    · exact h.alone.only name hname
  have hjournal : ∀ name, d.journal name = none := fun name => by
    simp [Disk.journal, Disk.directory, hjobs name]
  have hreserved := (h.alone.stands.1.gone_of_journal (hjournal _)).reserved
  refine ⟨fun name => ⟨fun path index => ?_, .inl (hjournal name)⟩, hjobs⟩
  by_cases hown : path = plan.path ∧ name = plan.jobId
  · simp [Disk.backup, hown.1, hown.2, hreserved]
  · exact h.alone.bare path name (not_and_or.mp hown) index

theorem Waiting.running {manifest : VerifiedFileSet}
    (hpaths : ∀ manifest, context.Signed manifest → manifest.fileSet.paths.Pairwise Apart)
    (h : Waiting context start job manifest d t) :
    Running context start h.prepared.plan false t where
  sound := h.prepared.plain_sound (hpaths manifest h.signed)
  covered := covered_of_prepared h.prepared h.signed.2
  installs entry he file hfile := by
    obtain ⟨entry', hentry', rfl⟩ := mem_entries_of_plan h.prepared h.signed.2 he
    obtain ⟨content, hcontent, hmatches⟩ := h.prepared.prepared entry' hentry'
    have hpayload : h.prepared.plan.payload (UInt32.ofNat entry'.2) = some content := hcontent
    have hnew : h.prepared.plan.new (fileEntryOf d context.root entry') = some (.file
        { content with origin := .payload h.prepared.plan.jobId (UInt32.ofNat entry'.2) }) := by
      simp only [Plan.new, fileEntryOf, Option.bind_eq_bind, Option.bind_some, hpayload]
      rfl
    rw [hnew] at hfile
    cases hfile
    exact ⟨manifest, h.signed, entry'.1, List.fst_mem_of_mem_zipIdx hentry', rfl, hmatches⟩
  alone := alone_of_prepared h.prepared h.jobs h.bare _
  base := h.descends

section Recovering

variable [LawfulDeserialize JournalStateRecord]

/-- A recovery that comes through leaves no job. -/
theorem wp_recovery_recoverable (htears : context.medium.tears = false)
    (hd : Recoverable context start d) :
    Wp Quiet context.recovery
      (fun _ t => Idle t ∧ (∀ name, t.hasJob name = false) ∧
        context.Descends start (t.target context.root.canonicalPath))
      (fun _ => Recoverable context start) (Recoverable context start) d := by
  cases hd with
  | idle hidle hdescends =>
    have hgrown : ∀ t, d.Grown t → context.Descends start (t.target context.root.canonicalPath) := by
      intro t ht
      have hsame : t.target context.root.canonicalPath = d.target context.root.canonicalPath :=
        funext (ht.target _)
      exact hsame ▸ hdescends
    exact (wp_recovery_idle hidle).mono (fun _ t ht => ⟨ht.1.1, ht.2, hgrown t ht.1.2⟩)
      (fun _ t ht => .idle ht.1 (hgrown t ht.2)) (fun t ht => .idle ht.1 (hgrown t ht.2))
  | @running plan c hrunning =>
    have hnext : ∀ t, Alone plan context.splits c t → Running context start plan c t :=
      fun t ht => { hrunning with alone := ht }
    refine (wp_recovery hrunning.sound hrunning.covered htears hrunning.alone).mono ?_
      (fun _ t ht => .running (hnext t ht)) (fun t ht => .running (hnext t ht))
    intro _ t ⟨ht, hgone⟩
    have hidle := (hnext t ht).idle hgone
    exact ⟨hidle.1, hidle.2, (hnext t ht).descends⟩

theorem recoverable_recovery (htears : context.medium.tears = false) :
    Keeps Quiet (Recoverable context start) context.recovery := fun _ hd =>
  (wp_recovery_recoverable htears hd).mono (fun _ _ h => .idle h.1 h.2.2) (fun _ _ h => h)
    (fun _ h => h)

end Recovering

/-! ### One helper after another -/

variable [Deserialize AcceptedRelease]

/-- The files, and the job of the helper that holds the lock until the launcher has exited. -/
structure Helper where
  files : UpdateState
  waiting : Option PreparedJob

def Helper.prepared (files : UpdateState) : Outcome MaintenanceError PreparedJob → Helper
  | .ok job => { files, waiting := some job }
  | _ => { files, waiting := none }

variable (context) in
/-- One call of a helper, up to its end or to where it is stopped. -/
inductive Helper.Step : Helper → Helper → Prop where
  | prepare {s t : UpdateState} {sch rest : Schedule Intrusion}
      {outcome : Outcome MaintenanceError PreparedJob} (inputs : Inputs) (hquiet : ∀ e ∈ sch, Quiet e)
      (hrun : context.prepareDirectLauncherUpdate inputs s sch = (outcome, t, rest)) :
      Step ⟨s, none⟩ (.prepared t outcome)
  | recover {s t : UpdateState} {sch rest : Schedule Intrusion}
      {outcome : Outcome MaintenanceError Unit} (inputs : Inputs) (hquiet : ∀ e ∈ sch, Quiet e)
      (hrun : context.recoverDirectLauncherUpdate inputs s sch = (outcome, t, rest)) :
      Step ⟨s, none⟩ ⟨t, none⟩
  | commit {s t : UpdateState} {job : PreparedJob} {sch rest : Schedule Intrusion}
      {outcome : Outcome MaintenanceError CommitResult} (hquiet : ∀ e ∈ sch, Quiet e)
      (hrun : UpdateState.onDisk.run (context.commit job) s sch = (outcome, t, rest)) :
      Step ⟨s, some job⟩ ⟨t, none⟩
  | cancel {s t : UpdateState} {job : PreparedJob} {sch rest : Schedule Intrusion}
      {outcome : Outcome MaintenanceError Unit} (hquiet : ∀ e ∈ sch, Quiet e)
      (hrun : UpdateState.onDisk.run context.cancel s sch = (outcome, t, rest)) :
      Step ⟨s, some job⟩ ⟨t, none⟩
  | exit {s : UpdateState} {job : PreparedJob} : Step ⟨s, some job⟩ ⟨s, none⟩

theorem Helper.Step.of_commit {s : UpdateState} {sch : Schedule Intrusion}
    {r : Faulty.Result Disk MaintenanceError Intrusion CommitResult} (hquiet : ∀ e ∈ sch, Quiet e)
    (hcommit : context.commit job s.disk sch = r) :
    Helper.Step context ⟨s, some job⟩ ⟨{ s with disk := r.2.1 }, none⟩ := by
  have hrun : UpdateState.onDisk.run (context.commit job) s sch =
      (r.1, { s with disk := r.2.1 }, r.2.2) := by
    rw [← hcommit]
    rfl
  exact .commit hquiet hrun

variable (context) in
/-- From a root without jobs, where `start` is what its paths held. -/
inductive Helper.Reached (start : TargetPath → Option Node) : Helper → Prop where
  | start {s : UpdateState} (hunused : s.disk.Unused)
      (hstart : s.disk.target context.root.canonicalPath = start) : Reached start ⟨s, none⟩
  | step {s t : Helper} : Reached start s → Helper.Step context s t → Reached start t

omit [Deserialize JournalHeader] [Deserialize JournalStateRecord] in
theorem DirectContext.Accepts.signed {inputs : Inputs} {receipt : ServiceFile}
    {keyring : VerifiedKeyring} {manifest : VerifiedFileSet}
    (h : context.Accepts inputs receipt keyring manifest)
    (hplan : validatePlan manifest.fileSet context.launcher = .ok ()) : context.Signed manifest := by
  obtain ⟨accepted, keyringBytes, manifestBytes, -, -, -, hkeyring, hmanifest⟩ := h
  exact ⟨⟨keyringBytes, _, keyring, manifestBytes, _, hkeyring, hmanifest⟩, hplan⟩

variable [LawfulDeserialize JournalStateRecord]

omit [Deserialize AcceptedRelease] in
theorem wp_recovery_helper (htears : context.medium.tears = false) {s : UpdateState}
    (hs : Recoverable context start s.disk) :
    Wp Quiet (UpdateState.onDisk.run context.recovery)
      (fun _ t => (Idle t.disk ∧ (∀ name, t.disk.hasJob name = false) ∧
        context.Descends start (t.disk.target context.root.canonicalPath)) ∧ t.receipt = s.receipt)
      (fun _ t => Recoverable context start t.disk ∧ t.receipt = s.receipt)
      (fun t => Recoverable context start t.disk ∧ t.receipt = s.receipt) s :=
  Wp.part ((wp_recovery_recoverable htears hs).mono (fun _ _ h => ⟨h, rfl⟩) (fun _ _ h => ⟨h, rfl⟩)
    fun _ h => ⟨h, rfl⟩)

/-- What a preparation ends in: a waiting job, or something that a recovery removes. The receipt
is the old one, or tells of the release of the job. -/
theorem wp_prepareDirectLauncherUpdate (htears : context.medium.tears = false)
    (hpaths : ∀ manifest, context.Signed manifest → manifest.fileSet.paths.Pairwise Apart)
    (inputs : Inputs) {s : UpdateState} (hs : Recoverable context start s.disk) :
    Wp Quiet (context.prepareDirectLauncherUpdate inputs)
      (fun job t => ∃ keyring manifest d, context.Accepts inputs s.receipt keyring manifest ∧
        Records t.receipt keyring manifest ∧ Waiting context start job manifest d t.disk)
      (fun _ t => Recoverable context start t.disk ∧ t.receipt.path = s.receipt.path)
      (fun t => Recoverable context start t.disk ∧ (t.receipt.path = s.receipt.path ∨
        ∃ keyring manifest, context.Accepts inputs s.receipt keyring manifest ∧
          Records t.receipt keyring manifest)) s := by
  refine Wp.bind (Wp.look (Wp.bind (Wp.lift (fun keyring htrust => ?_) (fun _ _ => ⟨hs, rfl⟩))))
  refine Wp.bind ((wp_recovery_helper htears hs).mono ?_ (fun _ _ h => ⟨h.1, by rw [h.2]⟩)
    (fun _ h => ⟨h.1, .inl (by rw [h.2])⟩))
  intro _ t h
  obtain ⟨⟨hidle, hjobs, hdescends⟩, hreceipt⟩ := h
  have ht : Recoverable context start t.disk ∧ t.receipt.path = s.receipt.path :=
    ⟨.idle hidle hdescends, by rw [hreceipt]⟩
  refine Wp.bind (Wp.look (Wp.bind (Wp.lift (fun accepted haccepted => ?_) (fun _ _ => ht))))
  refine Wp.bind (Wp.lift (fun manifestBytes hbytes => ?_) (fun _ _ => ht))
  refine Wp.bind (Wp.lift (fun manifest hmanifest => ?_) (fun _ _ => ht))
  refine Wp.bind (Wp.lift (fun _ hplan => ?_) (fun _ _ => ht))
  refine Wp.bind (Wp.look (Wp.bind (Wp.lift (fun current _ => ?_) (fun _ _ => ht))))
  refine Wp.bind (Wp.lift (fun _ _ => ?_) (fun _ _ => ht))
  refine Wp.bind (Wp.lift (fun _ _ => ?_) (fun _ _ => ht))
  refine Wp.bind (Wp.lift (fun _ _ => ?_) (fun _ _ => ht))
  have haccepts : context.Accepts inputs s.receipt keyring manifest := by
    obtain ⟨trusted, keyringBytes, htrusted, hkeyringBytes, hkeyring⟩ :=
      DirectContext.trust_eq_ok htrust
    rw [hreceipt, htrusted] at haccepted
    cases haccepted
    exact ⟨accepted, keyringBytes, manifestBytes, htrusted, hkeyringBytes,
      readBoundedTo_eq_ok hbytes, hkeyring, hmanifest⟩
  have hsigned : context.Signed manifest := haccepts.signed hplan
  have hstopped : ∀ u, Frame context.root.canonicalPath (jobIdOf context.root manifest) [] t.disk u ∧
      (Starting (jobIdOf context.root manifest) u ∨ t.disk.Same u) → Recoverable context start u := by
    intro u ⟨hf, hu⟩
    have hstarting : Starting (jobIdOf context.root manifest) u :=
      hu.elim id fun hsame => (hidle _).of_dropped hsame.root (.inl (by
        simp [Disk.journal, hsame.directory]))
    have hsame : u.target context.root.canonicalPath = t.disk.target context.root.canonicalPath :=
      funext (hf.grown.target _)
    exact .idle (hidle.frame hstarting hf) (hsame ▸ hdescends)
  refine Wp.bind (Wp.part ((wp_prepareUpdate hsigned.2 (fun name => (hidle name).bare)
    inputs.staging).mono ?_ (fun _ u hu => ⟨hstopped u hu, ht.2⟩)
    (fun u hu => ⟨hstopped u hu, .inl ht.2⟩)))
  intro job u hprepared
  have hwaiting : Waiting context start job manifest t.disk u :=
    ⟨hprepared, hsigned, hjobs, fun name => (hidle name).bare, hdescends⟩
  have hu : Recoverable context start u := .running (hwaiting.running hpaths)
  refine Wp.bind (Wp.lift (fun cache hcache => ?_) (fun _ _ => ⟨hu, ht.2⟩))
  refine Wp.bind (Wp.attempt (Wp.part ((wp_replaceDocument cache _).mono ?_ ?_ ?_)))
  · intro _ receipt hnew
    refine Wp.pure ⟨keyring, manifest, _, haccepts, ⟨cache, hcache, ?_⟩, hwaiting⟩
    exact congrArg ServiceFile.path hnew
  · intro e receipt hold
    have hold : receipt.path = s.receipt.path := hold.trans ht.2
    refine Wp.bind ((wp_recovery_helper htears hu).mono ?_
      (fun _ _ h => ⟨h.1, (congrArg _ h.2).trans hold⟩)
      (fun _ h => ⟨h.1, .inl ((congrArg _ h.2).trans hold)⟩))
    exact fun _ _ h => Wp.throw ⟨.idle h.1.1 h.1.2.2, (congrArg _ h.2).trans hold⟩
  · exact fun receipt h => ⟨hu, h.elim (fun hold => .inl (hold.trans ht.2))
      fun hnew => .inr ⟨keyring, manifest, haccepts, cache, hcache, hnew⟩⟩

theorem wp_recoverDirectLauncherUpdate (htears : context.medium.tears = false) (inputs : Inputs)
    {s : UpdateState} (hs : Recoverable context start s.disk) :
    Wp Quiet (context.recoverDirectLauncherUpdate inputs)
      (fun _ t => Recoverable context start t.disk ∧ t.receipt = s.receipt)
      (fun _ t => Recoverable context start t.disk ∧ t.receipt = s.receipt)
      (fun t => Recoverable context start t.disk ∧ t.receipt = s.receipt) s := by
  refine Wp.bind (Wp.look (Wp.bind (Wp.lift (fun _ _ => ?_) (fun _ _ => ⟨hs, rfl⟩))))
  exact (wp_recovery_helper htears hs).mono (fun _ _ h => ⟨.idle h.1.1 h.1.2.2, h.2⟩)
    (fun _ _ h => h) (fun _ h => h)

omit [Deserialize AcceptedRelease] in
theorem Waiting.wp_commit {manifest : VerifiedFileSet} (htears : context.medium.tears = false)
    (hunknown : context.medium.unknown .committed = false)
    (hpaths : ∀ manifest, context.Signed manifest → manifest.fileSet.paths.Pairwise Apart)
    (h : Waiting context start job manifest d t) :
    Wp Quiet (context.commit job) (fun _ => Running context start h.prepared.plan true)
      (fun e u => Running context start h.prepared.plan false u ∧
        (u.hasJob h.prepared.plan.jobId = false ∨
          e = recoveryError "direct update rollback could not be completed"))
      (fun u => ∃ c, Running context start h.prepared.plan c u) t := by
  have hrunning := h.running hpaths
  have hnext : ∀ c u, Alone h.prepared.plan context.splits c u →
      Running context start h.prepared.plan c u := fun c u hu => { hrunning with alone := hu }
  refine (Direct.wp_commit hrunning.sound hrunning.covered htears hunknown h.prepared.journaled
    hrunning.alone fun entry he => h.prepared.ready he).mono ?_ ?_ ?_
  · exact fun _ u hu => hnext _ u hu
  · exact fun _ u hu => ⟨hnext _ u hu.1, hu.2⟩
  · exact fun u ⟨c, hu⟩ => ⟨c, hnext c u hu⟩

/-- What every helper finds. -/
inductive Helper.Sane (context : DirectContext) (start : TargetPath → Option Node) : Helper → Prop where
  | free {s : UpdateState} (hs : Recoverable context start s.disk) : Sane context start ⟨s, none⟩
  | waiting {s : UpdateState} {job : PreparedJob} {manifest : VerifiedFileSet} {d : Disk}
      (hs : Waiting context start job manifest d s.disk) : Sane context start ⟨s, some job⟩

theorem Helper.Step.sane (htears : context.medium.tears = false)
    (hunknown : context.medium.unknown .committed = false)
    (hpaths : ∀ manifest, context.Signed manifest → manifest.fileSet.paths.Pairwise Apart)
    {s t : Helper} (hs : s.Sane context start) (h : Helper.Step context s t) :
    t.Sane context start := by
  cases h with
  | prepare inputs hquiet hrun =>
    rename_i outcome
    cases hs with
    | free hs =>
      have hend := (wp_prepareDirectLauncherUpdate htears hpaths inputs hs).result hquiet hrun
      cases outcome with
      | ok job =>
        obtain ⟨keyring, manifest, d, -, -, hwaiting⟩ := hend
        exact .waiting hwaiting
      | error e => exact .free hend.1
      | crashed => exact .free hend.1
  | recover inputs hquiet hrun =>
    rename_i outcome
    cases hs with
    | free hs =>
      have hend := (wp_recoverDirectLauncherUpdate htears inputs hs).result hquiet hrun
      cases outcome <;> exact .free hend.1
  | commit hquiet hrun =>
    rename_i outcome
    cases hs with
    | waiting hs =>
      have hpart : Wp Quiet (UpdateState.onDisk.run (context.commit _))
          (fun _ t => Recoverable context start t.disk) (fun _ t => Recoverable context start t.disk)
          (fun t => Recoverable context start t.disk) _ :=
        Wp.part ((hs.wp_commit htears hunknown hpaths).mono (fun _ _ h => .running h)
          (fun _ _ h => .running h.1) fun _ ⟨_, h⟩ => .running h)
      have hend := hpart.result hquiet hrun
      cases outcome <;> exact .free hend
  | cancel hquiet hrun =>
    cases hs with
    | waiting hs =>
      have hkeeps : Keeps Quiet (fun t : UpdateState => Recoverable context start t.disk)
          (UpdateState.onDisk.run context.cancel) :=
        Keeps.part (recoverable_recovery htears) (fun _ h => h) (fun _ _ _ h => h)
      exact .free (hkeeps.endsIn (.running (hs.running hpaths)) ⟨_, _, _, hquiet, hrun⟩)
  | exit =>
    cases hs with
    | waiting hs => exact .free (.running (hs.running hpaths))

theorem Helper.Reached.sane (htears : context.medium.tears = false)
    (hunknown : context.medium.unknown .committed = false)
    (hpaths : ∀ manifest, context.Signed manifest → manifest.fileSet.paths.Pairwise Apart)
    {s : Helper} (hs : Helper.Reached context start s) : s.Sane context start := by
  induction hs with
  | start hunused hstart =>
    refine .free (.idle (fun name => ⟨fun path index => hunused.backup path name index, .inl ?_⟩) ?_)
    · simp [Disk.journal, Disk.directory, Disk.hasJob, hunused.jobs]
    · exact hstart ▸ .refl
  | step _ hstep ih => exact hstep.sane htears hunknown hpaths ih

end Runs

/-! ### One update -/

section Interrupted

theorem fromSlice_of_parseCanonical {α : Type} [Serialize α] [Deserialize α] {document : α}
    {bytes : Bytes} {maximum : Nat} (h : parseCanonical bytes maximum = .ok document) :
    fromSlice bytes = some document := by
  unfold parseCanonical at h
  by_cases hlength : bytes.length > maximum
  · simp [hlength] at h
  · simp only [hlength, if_false] at h
    cases hparsed : (fromSlice bytes : Option α) with
    | none => simp [hparsed] at h
    | some parsed =>
      simp only [hparsed] at h
      obtain ⟨written, -, h⟩ := Result.bind_eq_ok.mp h
      by_cases hwritten : written = bytes
      · simp only [hwritten, ne_eq, not_true_eq_false, if_false] at h
        exact congrArg some (Except.ok.inj h)
      · simp [hwritten] at h

def updateKeyring : Keyring where
  authenticodeSignerThumbprints := [String.ofList (List.replicate 40 'a')]
  kind := keyringKind
  releaseKeys := [⟨"release", String.ofList (List.replicate 64 '1')⟩]
  schema := keyringSchema
  signature := String.ofList (List.replicate 128 '2')
  version := 1

def updateFileSet : FileSet where
  files := [⟨"run_a.exe", "4bf5122f344554c53bde2ebb8cd2b7e3d1600ad631c385a5d7cce23c7785459a", 1⟩,
    ⟨"b.dll", "4bf5122f344554c53bde2ebb8cd2b7e3d1600ad631c385a5d7cce23c7785459a", 1⟩]
  generation := 1
  keyId := "release"
  kind := fileSetKind
  productId := "a-launcher"
  removeFiles := []
  schema := fileSetSchema
  signature := String.ofList (List.replicate 128 '3')

def oldFiles : TargetPath → Option Node := fun p =>
  if p = targetPath "run_a.exe" then some (.file (sampleFile 7))
  else if p = targetPath "b.dll" then some (.file (sampleFile 8))
  else none

@[reducible] def updateSignatures : Ed25519 := ⟨fun _ => true, fun _ _ _ => true⟩

@[reducible] def updateKeyrings : Deserialize Keyring where
  fromSlice bytes := if bytes = lineText updateKeyring then some updateKeyring else none

@[reducible] def updateFileSets : Deserialize FileSet where
  fromSlice bytes := if bytes = lineText updateFileSet then some updateFileSet else none

@[reducible] def noReleases : Deserialize AcceptedRelease := ⟨fun _ => none⟩

attribute [local instance] sampleUnicode sampleSha256 sampleRecords sampleRecords_lawful
  updateSignatures updateKeyrings updateFileSets noReleases

def updateRoot : RegisteredRoot := { sampleRoot with productId := "a-launcher" }

def updateManifest : VerifiedFileSet where
  fileSet := updateFileSet
  digest := Vector.replicate 32 0
  valid := by decide +kernel

@[reducible] def updateHeaders : Deserialize JournalHeader where
  fromSlice bytes :=
    let header := headerOf (sampleDisk oldFiles) updateRoot updateManifest
    if bytes = lineText header then some header else none

attribute [local instance] updateHeaders

def updateContext : DirectContext where
  root := updateRoot
  launcher := "run_a.exe"
  stamp _ index := (⟨1, Vector.replicate 16 (index.toUInt8 + 2)⟩, 2)
  splits := false
  rejection _ := .policyRejection .transactionIo
  medium := ⟨false, fun _ => false⟩

def updateInputs : Inputs where
  keyring := .ok (lineText updateKeyring)
  manifest := .ok (lineText updateFileSet)
  executable := .ok []
  stagingRoot := .ok ()
  staged _ := .ok (some [[1]])
  thumbprints _ := .ok (String.ofList (List.replicate 40 'a'), "")

def updateStart : UpdateState := ⟨sampleDisk oldFiles, ⟨none, none, none⟩⟩

def updatePrepared : Faulty.Result UpdateState MaintenanceError Intrusion PreparedJob :=
  updateContext.prepareDirectLauncherUpdate updateInputs updateStart []

/-- The commit is cut off when the launcher has been replaced. -/
def updateCut : Schedule Intrusion := List.replicate 4 .go ++ [.crash .before]

def updateCommitted (prepared : Faulty.Result UpdateState MaintenanceError Intrusion PreparedJob) :
    Disk :=
  match prepared.1 with
  | .ok job => (updateContext.commit job prepared.2.1.disk updateCut).2.1
  | _ => prepared.2.1.disk

def updateWhole (prepared : Faulty.Result UpdateState MaintenanceError Intrusion PreparedJob) :
    Faulty.Result Disk MaintenanceError Intrusion CommitResult :=
  match prepared.1 with
  | .ok job => updateContext.commit job prepared.2.1.disk []
  | _ => (.crashed, prepared.2.1.disk, [])

def updateRecovery (prepared : Faulty.Result UpdateState MaintenanceError Intrusion PreparedJob) :
    Faulty.Result Disk MaintenanceError Intrusion Unit :=
  updateContext.recovery (updateCommitted prepared) []

theorem updateContext_signed {manifest : VerifiedFileSet} (h : updateContext.Signed manifest) :
    manifest.fileSet = updateFileSet := by
  obtain ⟨⟨-, -, keyring, bytes, previous, -, hverified⟩, -⟩ := h
  unfold verifyFileSet at hverified
  obtain ⟨fileSet, hread, hverified⟩ := Result.bind_eq_ok.mp hverified
  obtain ⟨fileSet', hparse, hread⟩ := Result.bind_eq_ok.mp hread
  obtain ⟨⟨⟩, -, hread⟩ := Result.bind_eq_ok.mp hread
  obtain ⟨⟨⟩, -, hread⟩ := Result.bind_eq_ok.mp hread
  obtain ⟨⟨⟩, -, hread⟩ := Result.bind_eq_ok.mp hread
  cases hread
  have hfound : fileSet = updateFileSet := by
    have hslice := fromSlice_of_parseCanonical hparse
    simp only [fromSlice, Option.ite_none_right_eq_some, Option.some.injEq] at hslice
    exact hslice.2.symm
  split at hverified
  · cases hverified
  · obtain ⟨⟨⟩, -, hverified⟩ := Result.bind_eq_ok.mp hverified
    cases hverified
    exact hfound

theorem updatePaths (manifest : VerifiedFileSet) (h : updateContext.Signed manifest) :
    manifest.fileSet.paths.Pairwise Apart := by
  rw [updateContext_signed h]
  decide

theorem oldFiles_reached [Deserialize AcceptedRelease] (receipt : ServiceFile) :
    Helper.Reached updateContext oldFiles ⟨⟨sampleDisk oldFiles, receipt⟩, none⟩ := by
  have htarget : (sampleDisk oldFiles).target sampleRoot.canonicalPath = oldFiles := by
    funext p
    simp [Disk.target, sampleDisk]
  refine .start ⟨rfl, fun path jobId index => ?_⟩ htarget
  simp only [sampleDisk, Disk.backup, Disk.reserved]
  split <;> rfl

theorem updateStart_reached : Helper.Reached updateContext oldFiles ⟨updateStart, none⟩ :=
  oldFiles_reached _

theorem updateCut_quiet : ∀ e ∈ updateCut, Quiet e := by
  simp [updateCut, Quiet]

theorem updatePrepared_eq :
    updatePrepared = updateContext.prepareDirectLauncherUpdate updateInputs updateStart [] := rfl

theorem updateCut_reached {r : Faulty.Result UpdateState MaintenanceError Intrusion PreparedJob}
    (hok : r.1.isOk = true)
    (hprepare : updateContext.prepareDirectLauncherUpdate updateInputs updateStart [] = r) :
    Helper.Reached updateContext oldFiles ⟨{ r.2.1 with disk := updateCommitted r }, none⟩ := by
  obtain ⟨outcome, u, rest⟩ := r
  cases outcome with
  | ok job =>
    have hprepared : Helper.Step updateContext ⟨updateStart, none⟩ (.prepared u (.ok job)) :=
      .prepare updateInputs (by simp) hprepare
    exact (updateStart_reached.step hprepared).step (.of_commit updateCut_quiet rfl)
  | error e => cases hok
  | crashed => cases hok

theorem updateRuns : updatePrepared.1.isOk = true ∧
    (updateCommitted updatePrepared).target updateContext.root.canonicalPath
      (targetPath "run_a.exe") = some (.file ⟨[1], ⟨1, Vector.replicate 16 2⟩, 2, 1, .payload
        "games-1-0000000000000000000000000000000000000000000000000000000000000000" 0⟩) ∧
    (updateRecovery updatePrepared).1.isOk = true ∧ (updateWhole updatePrepared).1.isOk = true := by
  decide +kernel

end Interrupted

end Direct

end Se7en
