import Se7enService.RelativePath
import Se7enService.Volume
set_option autoImplicit false

/-!
`cleanup_reserved_job` of `windows.rs`: the storage of one job below a root that users can write
to. A handle is the place of the entry it was opened on. Names that a volume takes for the same
are one name here.
-/

namespace Se7en.Windows
open Faulty

structure FileData where
  content : Bytes
  /-- `NumberOfLinks`. -/
  links : Nat
  deriving DecidableEq

abbrev Tree := Volume.Node Name DirectoryIdentity FileData
abbrev TreeProg (α : Type) := Prog Tree MaintenanceError Empty α

/-- A registered root carries the identity that its directory had. -/
structure RootLocation where
  path : TargetPath
  identity : Option DirectoryIdentity

/-! ### Handles -/

/-- The links that one open follows. -/
def maxLinks : Nat := 63

/-- `CreateFileW` with `FILE_FLAG_OPEN_REPARSE_POINT`; without backup semantics it refuses
directories. -/
def openAbsolute (path : TargetPath) (backupSemantics : Bool) (fault : MaintenanceError) :
    Step Tree MaintenanceError (Option TargetPath) where
  effect tree := match tree.resolve maxLinks path with
    | .missing => .ok (none, tree)
    | .unreadable => .error fault
    | .found place =>
      match tree.entryAt place, backupSemantics with
      | some (.directory _), false => .error fault
      | _, _ => .ok (some place, tree)
  fault := fault

def queryError : MaintenanceError :=
  .new .rootIdentity "filesystem identity information cannot be queried"

def reparseError : MaintenanceError :=
  .new .rootIdentity "opened filesystem object is a reparse point"

def isReparsePoint (handle : TargetPath) : Step Tree MaintenanceError Bool where
  effect tree := match tree.entryAt handle with
    | some (.link _) => .ok (true, tree)
    | _ => .ok (false, tree)
  fault := queryError

def ensureSafeDirectory (handle : TargetPath) : Step Tree MaintenanceError Unit where
  effect tree := match tree.entryAt handle with
    | some (.directory _) => .ok ((), tree)
    | some (.link _) => .error reparseError
    | _ => .error (.new .rootIdentity "opened directory handle is not a stable directory")
  fault := queryError

def ensureSafeRegularFile (handle : TargetPath) : Step Tree MaintenanceError Unit where
  effect tree := match tree.entryAt handle with
    | some (.link _) => .error reparseError
    | some (.file data) =>
      if data.links = 1 then .ok ((), tree)
      else .error (.new .rootIdentity "opened payload is not a stable single-link regular file")
    | _ => .error (.new .rootIdentity "opened payload is not a stable single-link regular file")
  fault := queryError

def directoryIdentity (handle : TargetPath) : Step Tree MaintenanceError DirectoryIdentity where
  effect tree := match tree.entryAt handle with
    | some (.directory identity) => .ok (identity, tree)
    | some (.link _) => .error reparseError
    | _ => .error (.new .rootIdentity "opened directory handle is not a stable directory")
  fault := queryError

def finalPathOwned (handle : TargetPath) : Step Tree MaintenanceError TargetPath where
  effect tree := .ok (handle, tree)
  fault := .new .rootIdentity "canonical handle path cannot be obtained"

def directoryChildNames (handle : TargetPath) : Step Tree MaintenanceError (List Name) where
  effect tree := .ok (tree.names handle, tree)
  fault := .new .transactionIo "reserved job directory cannot be enumerated"

/-- The entry goes when the handle is closed, which it is before the next step. A directory with
entries is refused, and a link goes without its target. -/
def deleteByHandle (handle : TargetPath) (fault : MaintenanceError) :
    Step Tree MaintenanceError Unit where
  effect tree :=
    if (tree.entryAt handle).isNone || !(tree.names handle).isEmpty then .error fault
    else .ok ((), tree.erase handle)
  fault := fault

/-! ### The chain of parents -/

def identityChanged : MaintenanceError :=
  .new .rootIdentity "registered root handle identity or canonical path changed"

def openAbsoluteDirectory (path : TargetPath) : TreeProg TargetPath := do
  let fault : MaintenanceError :=
    .new .rootIdentity "directory handle cannot be opened without reparse traversal"
  match ← (openAbsolute path true fault).run with
  | none => throw fault
  | some handle =>
    (ensureSafeDirectory handle).run
    pure handle

/-- The loop of `lock_parent_chain` where missing directories are not created. -/
def lockParents (current : TargetPath) : List Name → TreeProg (Option TargetPath)
  | [] => pure (some current)
  | component :: rest => do
    match ← (openAbsolute (current ++ [component]) true
        (.new .rootIdentity "target parent cannot be opened safely")).run with
    | none => pure none
    | some directory =>
      (ensureSafeDirectory directory).run
      lockParents (current ++ [component]) rest

def verifyRoot (root : RootLocation) (handle : TargetPath) : TreeProg Unit :=
  match root.identity with
  | none => pure ()
  | some identity => do
    if (← (directoryIdentity handle).run) ≠ identity then
      throw identityChanged
    if (← (finalPathOwned handle).run) ≠ root.path then
      throw identityChanged

def lockParentChain (root : RootLocation) (parents : List Name) : TreeProg (Option TargetPath) := do
  verifyRoot root (← openAbsoluteDirectory root.path)
  lockParents root.path parents

/-- `open_relative_file` for a file that is there. -/
def openRelativeFile (root : RootLocation) (relativePath : String) :
    TreeProg (Option TargetPath) := do
  let components ← lift (relativeComponents relativePath)
  match components.getLast? with
  | none => throw (.new .fileSetPath "relative file path is empty")
  | some leaf =>
    match ← lockParentChain root components.dropLast with
    | none => pure none
    | some parent =>
      match ← (openAbsolute (parent ++ [leaf]) false
          (.new .transactionIo "file handle cannot be opened under the locked root")).run with
      | none => pure none
      | some file =>
        (ensureSafeRegularFile file).run
        pure (some file)

def openReservedDirectory (root : RootLocation) (relativePath : String) :
    TreeProg (Option TargetPath) := do
  let components ← lift (relativeComponents relativePath)
  match components.getLast? with
  | none => throw (.new .fileSetPath "reserved directory path is empty")
  | some leaf =>
    match ← lockParentChain root components.dropLast with
    | none => pure none
    | some parent =>
      (openAbsolute (parent ++ [leaf]) true (.new .transactionIo
        "reserved job directory cannot be opened under the locked root")).run

def openReservedRegularDirectory (root : RootLocation) (relativePath : String) :
    TreeProg (Option TargetPath) := do
  match ← openReservedDirectory root relativePath with
  | none => pure none
  | some directory =>
    if ← (isReparsePoint directory).run then
      (deleteByHandle directory (.new .transactionIo "handle-based file deletion failed")).run
      throw (.new .rootIdentity "reserved job entry is a reparse point")
    (ensureSafeDirectory directory).run
    pure (some directory)

/-! ### The cleanup -/

def jobRelative (jobId : String) : String := ".7launcher-maintenance/jobs/" ++ jobId

def leafRelative (jobId : String) (leaf : Leaf) : String := jobRelative jobId ++ "/" ++ leaf.text

def itemRelative (jobId : String) (leaf : Leaf) (name : Name) : String :=
  leafRelative jobId leaf ++ "/" ++ String.ofList name

def isItemName (name : Name) : Bool := !name.isEmpty && name.all Char.isDigit

def removeItems (root : RootLocation) (jobId : String) (leaf : Leaf) : List Name → TreeProg Unit
  | [] => pure ()
  | name :: rest => do
    if !isItemName name then
      throw (.new .rootIdentity "reserved job contains an unexpected entry")
    match ← openRelativeFile root (itemRelative jobId leaf name) with
    | none => removeItems root jobId leaf rest
    | some file =>
      (ensureSafeRegularFile file).run
      (deleteByHandle file (.new .transactionIo "handle-based file deletion failed")).run
      removeItems root jobId leaf rest

def removeLeaf (root : RootLocation) (jobId : String) (leaf : Leaf) : TreeProg Unit := do
  match ← openReservedRegularDirectory root (leafRelative jobId leaf) with
  | none => pure ()
  | some directory =>
    let names ← (directoryChildNames directory).run
    removeItems root jobId leaf names
    (deleteByHandle directory (.new .transactionIo "reserved job leaf cannot be removed")).run

def removeEmptyDirectory (root : RootLocation) (relativePath : String) : TreeProg Unit := do
  match ← openReservedRegularDirectory root relativePath with
  | none => pure ()
  | some directory =>
    if (← (directoryChildNames directory).run).isEmpty then
      (deleteByHandle directory (.new .transactionIo "reserved job parent cannot be removed")).run

def cleanupReservedJob (root : RootLocation) (jobId : String) : TreeProg Unit := do
  let _ ← lockParentChain root []
  if (← openReservedRegularDirectory root (jobRelative jobId)).isSome then
    removeLeaf root jobId .prepared
    removeLeaf root jobId .backup
  removeEmptyDirectory root (jobRelative jobId)
  removeEmptyDirectory root ".7launcher-maintenance/jobs"
  removeEmptyDirectory root ".7launcher-maintenance"

/-! ### The paths -/

theorem split_parts {first : Name} {tail : List Name} (hfirst : '/' ∉ first)
    (htail : ∀ name ∈ tail, '/' ∉ name) :
    split '/' (first ++ tail.flatMap ('/' :: ·)) = first :: tail := by
  induction tail generalizing first with
  | nil => simpa using split_of_not_mem hfirst
  | cons name tail ih =>
    rw [List.forall_mem_cons] at htail
    have hrest := ih htail.1 htail.2
    rw [List.flatMap_cons, List.cons_append, split_append hfirst, hrest]

/-- A name that is its own component. -/
def IsComponent (name : Name) : Prop :=
  '/' ∉ name ∧ '\\' ∉ name ∧ name ≠ [] ∧ name ≠ ['.'] ∧ name ≠ ['.', '.']

theorem leaf_isComponent (leaf : Leaf) : IsComponent leaf.text.toList := by
  unfold IsComponent
  cases leaf <;> decide

theorem item_isComponent {name : Name} (h : isItemName name = true) : IsComponent name := by
  simp only [isItemName, Bool.and_eq_true, Bool.not_eq_true', List.isEmpty_eq_false_iff,
    List.all_eq_true] at h
  have hnot : ∀ c, c.isDigit = false → c ∉ name := fun c hc hmem => by simp [h.2 c hmem] at hc
  have hdot := hnot '.' rfl
  exact ⟨hnot '/' rfl, hnot '\\' rfl, h.1, fun heq => hdot (by simp [heq]),
    fun heq => hdot (by simp [heq])⟩

theorem getLast?_parts {first : Name} {tail : List Name} (hfirst : first ≠ [] ∧ '/' ∉ first)
    (htail : ∀ name ∈ tail, IsComponent name) (front : List Char) :
    (front ++ (first ++ tail.flatMap ('/' :: ·))).getLast? ≠ some '/' := by
  have hlast : ∀ {name : Name} (front : List Char), name ≠ [] → '/' ∉ name →
      (front ++ name).getLast? ≠ some '/' := by
    intro name front hne hslash heq
    rw [List.getLast?_append_of_ne_nil front hne] at heq
    exact hslash (List.mem_of_getLast? heq)
  rcases tail.eq_nil_or_concat with rfl | ⟨init, name, rfl⟩
  · simpa using hlast front hfirst.1 hfirst.2
  · obtain ⟨hslash, -, hne, -⟩ := htail name (by simp)
    have hname := hlast (front ++ (first ++ init.flatMap ('/' :: ·)) ++ ['/']) hne hslash
    simpa using hname

theorem filterMap_component {tail : List Name} (h : ∀ name ∈ tail, IsComponent name) :
    tail.filterMap Path.component = tail.map .normal := by
  rw [← List.filterMap_eq_map]
  apply List.filterMap_congr
  intro name hname
  obtain ⟨-, -, hne, hdot, hdots⟩ := h name hname
  simp [Path.component, hne, hdot, hdots]

theorem normalComponents_parts {tail : List Name} (h : ∀ name ∈ tail, IsComponent name) :
    normalComponents (tail.map .normal) = .ok tail :=
  normalComponents_normal fun name hname => (h name hname).2.2

/-- The components of a path of the job. -/
theorem relativeComponents_job {id text : String} {tail : List Name}
    (hid : validInternalJobId id = true) (htail : ∀ name ∈ tail, IsComponent name)
    (htext : text.toList = reservedRootDirectory ++ '/' :: ("jobs".toList ++
      '/' :: (id.toList ++ tail.flatMap ('/' :: ·)))) :
    (id.toList ≠ ['.', '.'] → relativeComponents text =
      .ok (reservedRootDirectory :: "jobs".toList :: (jobNames id ++ tail))) ∧
    (id.toList = ['.', '.'] → ∃ e, relativeComponents text = .error e) := by
  obtain ⟨hne, hchars⟩ := jobId_chars hid
  have hslash : '/' ∉ id.toList := fun hmem => (hchars '/' hmem).1 rfl
  have hback : '\\' ∉ id.toList := fun hmem => (hchars '\\' hmem).2.1 rfl
  have hjobs : '/' ∉ "jobs".toList ∧ '\\' ∉ "jobs".toList ∧
      Path.component "jobs".toList = some (.normal "jobs".toList) := by decide +kernel
  obtain ⟨-, hreserved, hhead, -, -⟩ := reserved_facts
  have hparts : '\\' ∉ tail.flatMap ('/' :: ·) := by
    simp only [List.mem_flatMap, List.mem_cons, not_exists, not_and, not_or]
    exact fun name hname => ⟨by decide, (htail name hname).2.1⟩
  have hrest : '\\' ∉ "jobs".toList ++ '/' :: (id.toList ++ tail.flatMap ('/' :: ·)) := by
    simp [hback, hparts]
  have hlast := getLast?_parts ⟨hne, hslash⟩ htail
    (reservedRootDirectory ++ '/' :: ("jobs".toList ++ ['/']))
  have hcomponents : relativeComponents text = normalComponents
      (.normal reservedRootDirectory :: .normal "jobs".toList ::
        ((id.toList :: tail).filterMap Path.component)) := by
    have hsplit := split_parts hslash fun name hname => (htail name hname).1
    have hempty : text.toList.isEmpty = false := by
      rw [htext]
      cases h : reservedRootDirectory with
      | nil => rw [h] at hhead; cases hhead
      | cons c rest => rfl
    have hstart : text.toList.head? ≠ some '/' := by
      simp [htext, hhead]
    have hend : text.toList.getLast? ≠ some '/' := by
      rw [htext]
      simpa using hlast
    have hnone : text.toList.contains '\\' = false := by
      rw [htext]
      simpa [hreserved] using hrest
    unfold relativeComponents
    simp only [hempty, hnone, hstart, hend, decide_false, Bool.or_self, Bool.false_eq_true,
      if_false]
    rw [htext, components_reserved hrest, split_append hjobs.1, hsplit,
      List.filterMap_cons_some hjobs.2.2]
  have hok : normalComponents (tail.map .normal) = .ok tail := normalComponents_parts htail
  have hnames : reservedRootDirectory ≠ [] ∧ reservedRootDirectory ≠ ['.'] ∧
      reservedRootDirectory ≠ ['.', '.'] := by decide +kernel
  rw [hcomponents]
  constructor
  · intro hdots
    by_cases hdot : id.toList = ['.']
    · have hcomponent : Path.component id.toList = none := by simp [Path.component, hdot]
      rw [List.filterMap_cons_none hcomponent, filterMap_component htail]
      simp [normalComponents, hok, hnames, jobNames, hdot]
    · have hcomponent : Path.component id.toList = some (.normal id.toList) := by
        simp [Path.component, hne, hdot, hdots]
      rw [List.filterMap_cons_some hcomponent, filterMap_component htail]
      simp [normalComponents, hok, hnames, jobNames, hne, hdot, hdots]
  · intro hdots
    have hcomponent : Path.component id.toList = some .parentDir := by
      simp [Path.component, hdots]
    rw [List.filterMap_cons_some hcomponent]
    simp [normalComponents, hnames]

/-! ### What the handles stand for -/

/-- Something other than a directory is on the way. -/
def Obstructed (tree : Tree) (current : TargetPath) (names : List Name) : Prop :=
  ∃ front entry, front <+: names ∧ tree.entryAt (current ++ front) = some entry ∧
    ∀ identity, entry ≠ .directory identity

theorem Obstructed.longer {tree : Tree} {current : TargetPath} {names rest : List Name}
    (h : Obstructed tree current names) : Obstructed tree current (names ++ rest) := by
  obtain ⟨front, entry, hfront, hentry⟩ := h
  exact ⟨front, entry, hfront.trans (List.prefix_append names rest), hentry⟩

/-- Nothing is there, or the handle of the directory that is there. -/
def Opened (tree : Tree) (place : TargetPath) : Option TargetPath → Prop
  | none => tree.entryAt place = none
  | some handle => handle = place ∧ ∃ identity, tree.entryAt place = some (.directory identity)

section Specs

variable {A : Event Empty → Prop}

theorem wp_looking {α : Type} {st : Step Tree MaintenanceError α} {tree : Tree}
    {Q : α → Tree → Prop} {E : MaintenanceError → Tree → Prop} {C : Tree → Prop}
    (hwhole : st.Whole) (hok : ∀ a t, st.effect tree = .ok (a, t) → t = tree ∧ Q a tree)
    (hrefused : ∀ e, st.effect tree = .error e → E e tree)
    (hfailed : (∃ cut, A (.fail cut)) → E st.fault tree) (hC : C tree) :
    Wp A st.run Q E C tree := by
  refine Wp.step_alone ⟨fun a t h => ?_, hrefused, fun c hc => ?_, fun c _ => ?_⟩
  · obtain ⟨rfl, hq⟩ := hok a t h
    exact hq
  · rw [hwhole.failed c tree]
    exact hfailed ⟨c, hc⟩
  · have hdone : st.done tree = tree := by
      unfold Step.done
      split
      · rename_i a t h
        exact (hok a t h).1
      · rfl
    cases c with
    | before => exact hC
    | within n => simpa [Step.cut, hwhole.torn n tree] using hC
    | after => simpa [Step.cut, hdone] using hC

theorem wp_ensureSafeDirectory {tree : Tree} {handle : TargetPath} {Q : Unit → Tree → Prop}
    {E : MaintenanceError → Tree → Prop} {C : Tree → Prop}
    (hok : ∀ identity, tree.entryAt handle = some (.directory identity) → Q () tree)
    (hrefused : ∀ e, (∀ identity, tree.entryAt handle ≠ some (.directory identity)) → E e tree)
    (hfailed : (∃ cut, A (.fail cut)) → E queryError tree) (hC : C tree) :
    Wp A (ensureSafeDirectory handle).run Q E C tree := by
  refine wp_looking .plain ?_ ?_ hfailed hC
  · intro _ t h
    simp only [ensureSafeDirectory] at h
    split at h
    · cases h
      exact ⟨rfl, hok _ ‹_›⟩
    · cases h
    · cases h
  · intro e h
    simp only [ensureSafeDirectory] at h
    split at h
    · cases h
    · exact hrefused e fun identity heq => by simp_all
    · exact hrefused e fun identity heq => by simp_all

/-- An open below a directory that was reached without a link. -/
theorem wp_openAbsolute {tree : Tree} {parent : TargetPath} {name : Name}
    {identity : DirectoryIdentity} {fault : MaintenanceError} {Q : Option TargetPath → Tree → Prop}
    {E : MaintenanceError → Tree → Prop} {C : Tree → Prop}
    (h : tree.entryAt parent = some (.directory identity))
    (hmissing : tree.entryAt (parent ++ [name]) = none → Q none tree)
    (hfound : ∀ entry, tree.entryAt (parent ++ [name]) = some entry →
      Q (some (parent ++ [name])) tree)
    (hfailed : (∃ cut, A (.fail cut)) → E fault tree) (hC : C tree) :
    Wp A (openAbsolute (parent ++ [name]) true fault).run Q E C tree := by
  have hresolve := Volume.Node.resolve_child h maxLinks name
  cases hentry : tree.entryAt (parent ++ [name]) with
  | none =>
    have heffect : (openAbsolute (parent ++ [name]) true fault).effect tree = .ok (none, tree) := by
      simp [openAbsolute, hresolve, hentry]
    refine wp_looking .plain ?_ ?_ hfailed hC
    · rintro _ _ hok
      cases heffect.symm.trans hok
      exact ⟨rfl, hmissing hentry⟩
    · intro e herror
      cases heffect.symm.trans herror
  | some entry =>
    have heffect : (openAbsolute (parent ++ [name]) true fault).effect tree =
        .ok (some (parent ++ [name]), tree) := by
      simp [openAbsolute, hresolve, hentry]
    refine wp_looking .plain ?_ ?_ hfailed hC
    · rintro _ _ hok
      cases heffect.symm.trans hok
      exact ⟨rfl, hfound entry hentry⟩
    · intro e herror
      cases heffect.symm.trans herror

theorem wp_lockParents {tree : Tree} {current : TargetPath} {names : List Name}
    {identity : DirectoryIdentity} (h : tree.entryAt current = some (.directory identity)) :
    Wp A (lockParents current names) (fun r t => t = tree ∧ Opened tree (current ++ names) r)
      (fun _ t => t = tree ∧ ((∃ cut, A (.fail cut)) ∨ Obstructed tree current names))
      (fun t => t = tree) tree := by
  induction names generalizing current identity with
  | nil => exact Wp.pure ⟨rfl, by simp [Opened, h]⟩
  | cons component rest ih =>
    unfold lockParents
    refine Wp.bind (wp_openAbsolute h (fun hnone => ?_) (fun entry hentry => ?_)
      (fun hfail => ⟨rfl, .inl hfail⟩) rfl)
    · have hbelow := Volume.Node.entryAt_append_eq_none hnone rest
      exact Wp.pure ⟨rfl, by simpa [Opened] using hbelow⟩
    · refine Wp.bind (wp_ensureSafeDirectory (fun identity' hnext => ?_) (fun e hnot => ?_)
        (fun hfail => ⟨rfl, .inl hfail⟩) rfl)
      · refine (ih hnext).mono ?_ ?_ fun t ht => ht
        · rintro r t ⟨ht, hopened⟩
          exact ⟨ht, by simpa using hopened⟩
        · rintro e t ⟨ht, hfail | ⟨front, entry', hfront, hentry', hother⟩⟩
          · exact ⟨ht, .inl hfail⟩
          · have hmore : component :: front <+: component :: rest :=
              List.cons_prefix_cons.mpr ⟨rfl, hfront⟩
            exact ⟨ht, .inr ⟨component :: front, entry', hmore, by simpa using hentry', hother⟩⟩
      · have hfirst : [component] <+: component :: rest := ⟨rest, rfl⟩
        refine ⟨rfl, .inr ⟨[component], entry, hfirst, hentry, ?_⟩⟩
        rintro identity' rfl
        exact hnot identity' hentry

theorem openAbsolute_found {tree : Tree} {path place : TargetPath}
    (h : tree.resolve maxLinks path = .found place) (fault : MaintenanceError) :
    (openAbsolute path true fault).effect tree = .ok (some place, tree) := by
  rcases hentry : tree.entryAt place with _ | _ | _ | _ <;> simp [openAbsolute, h]

/-- The handle of the root is the registered directory, reached without a link. -/
theorem wp_verifiedRoot {tree : Tree} {path : TargetPath} {identity : DirectoryIdentity} :
    Wp A (openAbsoluteDirectory path >>= verifyRoot ⟨path, some identity⟩)
      (fun _ t => t = tree ∧ tree.entryAt path = some (.directory identity))
      (fun _ t => t = tree ∧
        ((∃ cut, A (.fail cut)) ∨ tree.entryAt path ≠ some (.directory identity)))
      (fun t => t = tree) tree := by
  have hdirect : tree.entryAt path = some (.directory identity) →
      tree.resolve maxLinks path = .found path :=
    fun h => Volume.Node.resolve_directory h maxLinks
  unfold openAbsoluteDirectory
  rw [bind_assoc]
  cases hresolve : tree.resolve maxLinks path with
  | missing =>
    have hother : tree.entryAt path ≠ some (.directory identity) := fun h => by
      simp [hdirect h] at hresolve
    refine Wp.bind (wp_looking .plain ?_ ?_ (fun hfail => ⟨rfl, .inl hfail⟩) rfl)
    · intro a t h
      simp only [openAbsolute, hresolve, Except.ok.injEq, Prod.mk.injEq] at h
      obtain ⟨rfl, rfl⟩ := h
      exact ⟨rfl, Wp.throw ⟨rfl, .inr hother⟩⟩
    · intro e h
      simp [openAbsolute, hresolve] at h
  | unreadable =>
    have hother : tree.entryAt path ≠ some (.directory identity) := fun h => by
      simp [hdirect h] at hresolve
    refine Wp.bind (wp_looking .plain ?_ (fun e _ => ⟨rfl, .inr hother⟩)
      (fun hfail => ⟨rfl, .inl hfail⟩) rfl)
    intro a t h
    simp [openAbsolute, hresolve] at h
  | found place =>
    have hplace : tree.entryAt path = some (.directory identity) → place = path := fun h => by
      have hfound := (hdirect h).symm.trans hresolve
      simpa [eq_comm] using hfound
    have heffect := openAbsolute_found hresolve
      (.new .rootIdentity "directory handle cannot be opened without reparse traversal")
    refine Wp.bind (Wp.step_alone (.of_ok_or_fail .plain heffect ?_ (fun hfail => ⟨rfl, .inl hfail⟩)
      rfl rfl))
    refine Wp.bind (Wp.bind (wp_ensureSafeDirectory (fun found hfound => Wp.pure ?_)
      (fun e hnot => ⟨rfl, .inr fun h => hnot identity (hplace h ▸ h)⟩)
      (fun hfail => ⟨rfl, .inl hfail⟩) rfl))
    simp only [verifyRoot]
    have hfoundIdentity : (directoryIdentity place).effect tree = .ok (found, tree) := by
      simp [directoryIdentity, hfound]
    refine Wp.bind (Wp.step_alone (.of_ok_or_fail .plain hfoundIdentity ?_
      (fun hfail => ⟨rfl, .inl hfail⟩) rfl rfl))
    by_cases hidentity : found = identity
    · simp only [hidentity, ne_eq, not_true_eq_false, if_false]
      refine Wp.bind (Wp.step_alone (.of_ok_or_fail .plain rfl ?_
        (fun hfail => ⟨rfl, .inl hfail⟩) rfl rfl))
      by_cases hpath : place = path
      · simp only [hpath, not_true_eq_false, if_false]
        exact Wp.pure ⟨rfl, by rw [← hpath, hfound, hidentity]⟩
      · simp only [hpath, not_false_eq_true, if_true]
        exact Wp.throw ⟨rfl, .inr fun h => hpath (hplace h)⟩
    · simp only [hidentity, ne_eq, not_false_eq_true, if_true]
      refine Wp.bind (Wp.throw ⟨rfl, .inr fun h => hidentity ?_⟩)
      rw [hplace h, h] at hfound
      cases hfound
      rfl

/-- What stands in the way of an open. -/
def Hindered (A : Event Empty → Prop) (tree : Tree) (path : TargetPath)
    (identity : DirectoryIdentity) (names : List Name) : Prop :=
  (∃ cut, A (.fail cut)) ∨ tree.entryAt path ≠ some (.directory identity) ∨
    Obstructed tree path names

theorem wp_lockParentChain {tree : Tree} {path : TargetPath} {identity : DirectoryIdentity}
    {parents : List Name} :
    Wp A (lockParentChain ⟨path, some identity⟩ parents)
      (fun r t => t = tree ∧ Opened tree (path ++ parents) r)
      (fun _ t => t = tree ∧ Hindered A tree path identity parents) (fun t => t = tree) tree := by
  unfold lockParentChain
  rw [← bind_assoc]
  refine Wp.bind (wp_verifiedRoot.mono ?_ ?_ fun t ht => ht)
  · rintro _ t ⟨rfl, hroot⟩
    refine (wp_lockParents hroot).mono (fun _ _ h => h) ?_ fun _ h => h
    rintro e t ⟨ht, hfail | hobstructed⟩
    · exact ⟨ht, .inl hfail⟩
    · exact ⟨ht, .inr (.inr hobstructed)⟩
  · rintro e t ⟨ht, hfail | hroot⟩
    · exact ⟨ht, .inl hfail⟩
    · exact ⟨ht, .inr (.inl hroot)⟩

/-- What an open that may delete a link leaves. -/
def LinkGone (tree : Tree) (place : TargetPath) (t : Tree) : Prop :=
  t = tree ∨ (∃ target, tree.entryAt place = some (.link target)) ∧ t = tree.erase place

theorem names_link {tree : Tree} {place target : TargetPath}
    (h : tree.entryAt place = some (.link target)) : tree.names place = [] := by
  rw [List.eq_nil_iff_forall_not_mem]
  intro name hname
  obtain ⟨identity, hidentity⟩ := Volume.Node.entryAt_of_append (Volume.Node.mem_names.mp hname)
  rw [h] at hidentity
  cases hidentity

theorem wp_openReservedRegularDirectory {tree : Tree} {path : TargetPath}
    {identity : DirectoryIdentity} {relative : String} {names : List Name}
    (h : relativeComponents relative = .ok names) (hne : names ≠ []) :
    Wp A (openReservedRegularDirectory ⟨path, some identity⟩ relative)
      (fun r t => t = tree ∧ Opened tree (path ++ names) r)
      (fun _ t => LinkGone tree (path ++ names) t ∧ Hindered A tree path identity names)
      (fun t => LinkGone tree (path ++ names) t) tree := by
  obtain ⟨parents, leaf, rfl⟩ : ∃ parents leaf, names = parents ++ [leaf] :=
    ⟨names.dropLast, names.getLast hne, (List.dropLast_append_getLast hne).symm⟩
  unfold openReservedRegularDirectory openReservedDirectory
  rw [h]
  refine Wp.bind (Wp.bind (Wp.pure ?_))
  simp only [List.getLast?_append, List.getLast?_singleton, Option.some_or, List.dropLast_concat]
  refine Wp.bind (wp_lockParentChain.mono ?_ ?_ fun t ht => .inl ht)
  · rintro (_ | parent) t ⟨rfl, hopened⟩
    · have hbelow := Volume.Node.entryAt_append_eq_none hopened [leaf]
      exact Wp.pure (Wp.pure ⟨rfl, by simpa [Opened] using hbelow⟩)
    obtain ⟨rfl, identity', hparent⟩ := hopened
    refine wp_openAbsolute hparent (fun hnone => ?_) (fun entry hentry => ?_)
      (fun hfail => ⟨.inl rfl, .inl hfail⟩) (.inl rfl)
    · exact Wp.pure ⟨rfl, by simpa [Opened] using hnone⟩
    rw [List.append_assoc] at hentry ⊢
    have hhindered : (∀ identity, entry ≠ .directory identity) →
        Hindered A t path identity (parents ++ [leaf]) :=
      fun hother => .inr (.inr ⟨_, entry, List.prefix_rfl, hentry, hother⟩)
    cases hkind : entry with
    | link target =>
      rw [hkind] at hentry hhindered
      have hlink : LinkGone t (path ++ (parents ++ [leaf]))
          (t.erase (path ++ (parents ++ [leaf]))) := .inr ⟨⟨target, hentry⟩, rfl⟩
      have hreparse : (isReparsePoint (path ++ (parents ++ [leaf]))).effect t = .ok (true, t) := by
        simp [isReparsePoint, hentry]
      have hdelete : (deleteByHandle (path ++ (parents ++ [leaf]))
          (.new .transactionIo "handle-based file deletion failed")).effect t =
            .ok ((), t.erase (path ++ (parents ++ [leaf]))) := by
        simp [deleteByHandle, hentry, names_link hentry]
      refine Wp.bind (Wp.step_alone (.of_ok_or_fail .plain hreparse ?_
        (fun hfail => ⟨.inl rfl, .inl hfail⟩) (.inl rfl) (.inl rfl)))
      simp only [if_true]
      refine Wp.bind (Wp.step_alone (.of_ok_or_fail .plain hdelete ?_
        (fun hfail => ⟨.inl rfl, .inl hfail⟩) (.inl rfl) hlink))
      exact Wp.bind (Wp.throw ⟨hlink, hhindered (by simp)⟩)
    | file data =>
      rw [hkind] at hentry hhindered
      have hreparse : (isReparsePoint (path ++ (parents ++ [leaf]))).effect t = .ok (false, t) := by
        simp [isReparsePoint, hentry]
      refine Wp.bind (Wp.step_alone (.of_ok_or_fail .plain hreparse ?_
        (fun hfail => ⟨.inl rfl, .inl hfail⟩) (.inl rfl) (.inl rfl)))
      simp only [Bool.false_eq_true, if_false]
      refine Wp.bind (wp_ensureSafeDirectory (fun identity' hdir => ?_)
        (fun e _ => ⟨.inl rfl, hhindered (by simp)⟩)
        (fun hfail => ⟨.inl rfl, .inl hfail⟩) (.inl rfl))
      cases hentry.symm.trans hdir
    | directory found =>
      rw [hkind] at hentry
      have hreparse : (isReparsePoint (path ++ (parents ++ [leaf]))).effect t = .ok (false, t) := by
        simp [isReparsePoint, hentry]
      refine Wp.bind (Wp.step_alone (.of_ok_or_fail .plain hreparse ?_
        (fun hfail => ⟨.inl rfl, .inl hfail⟩) (.inl rfl) (.inl rfl)))
      simp only [Bool.false_eq_true, if_false]
      refine Wp.bind (wp_ensureSafeDirectory (fun identity' hdir => ?_)
        (fun e hnot => absurd hentry (hnot found))
        (fun hfail => ⟨.inl rfl, .inl hfail⟩) (.inl rfl))
      exact Wp.pure ⟨rfl, rfl, identity', hdir⟩
  · rintro e t ⟨ht, hfail | hroot | hobstructed⟩
    · exact ⟨.inl ht, .inl hfail⟩
    · exact ⟨.inl ht, .inr (.inl hroot)⟩
    · exact ⟨.inl ht, .inr (.inr hobstructed.longer)⟩

def OpenedFile (tree : Tree) (place : TargetPath) : Option TargetPath → Prop
  | none => tree.entryAt place = none
  | some handle => handle = place ∧
      ∃ data, tree.entryAt place = some (.file data) ∧ data.links = 1

theorem wp_ensureSafeRegularFile {tree : Tree} {handle : TargetPath} {Q : Unit → Tree → Prop}
    {E : MaintenanceError → Tree → Prop} {C : Tree → Prop}
    (hok : ∀ data, tree.entryAt handle = some (.file data) → data.links = 1 → Q () tree)
    (hrefused : ∀ e, (∀ data, tree.entryAt handle = some (.file data) → data.links ≠ 1) → E e tree)
    (hfailed : (∃ cut, A (.fail cut)) → E queryError tree) (hC : C tree) :
    Wp A (ensureSafeRegularFile handle).run Q E C tree := by
  refine wp_looking .plain ?_ ?_ hfailed hC
  · intro _ t h
    simp only [ensureSafeRegularFile] at h
    split at h
    · cases h
    · split at h
      · cases h
        exact ⟨rfl, hok _ ‹_› ‹_›⟩
      · cases h
    · cases h
  · intro e h
    simp only [ensureSafeRegularFile] at h
    split at h
    · exact hrefused e fun data hdata => by simp_all
    · split at h
      · cases h
      · exact hrefused e fun data hdata => by simp_all
    · exact hrefused e fun data hdata => by simp_all

theorem wp_openRelativeFile {tree : Tree} {path : TargetPath} {identity : DirectoryIdentity}
    {relative : String} {parents : List Name} {leaf : Name}
    (h : relativeComponents relative = .ok (parents ++ [leaf])) :
    Wp A (openRelativeFile ⟨path, some identity⟩ relative)
      (fun r t => t = tree ∧ OpenedFile tree (path ++ (parents ++ [leaf])) r)
      (fun _ t => t = tree ∧ (Hindered A tree path identity parents ∨
        (tree.entryAt (path ++ (parents ++ [leaf]))).isSome ∧ ∀ data,
          tree.entryAt (path ++ (parents ++ [leaf])) = some (.file data) → data.links ≠ 1))
      (fun t => t = tree) tree := by
  unfold openRelativeFile
  rw [h]
  refine Wp.bind (Wp.pure ?_)
  simp only [List.getLast?_append, List.getLast?_singleton, Option.some_or, List.dropLast_concat]
  refine Wp.bind (wp_lockParentChain.mono ?_ (fun _ _ h => ⟨h.1, .inl h.2⟩) fun t ht => ht)
  rintro (_ | parent) t ⟨rfl, hopened⟩
  · have hbelow := Volume.Node.entryAt_append_eq_none hopened [leaf]
    exact Wp.pure ⟨rfl, by simpa [OpenedFile] using hbelow⟩
  obtain ⟨rfl, identity', hparent⟩ := hopened
  have hresolve := Volume.Node.resolve_child hparent maxLinks leaf
  dsimp only
  rw [List.append_assoc] at hresolve ⊢
  refine Wp.bind (wp_looking .plain (fun a u hok => ?_) (fun e herror => ⟨rfl, .inr ?_⟩)
    (fun hfail => ⟨rfl, .inl (.inl hfail)⟩) rfl)
  · cases hentry : t.entryAt (path ++ (parents ++ [leaf])) with
    | none =>
      simp only [openAbsolute, hresolve, hentry, Option.isSome_none, Bool.false_eq_true, if_false,
        Except.ok.injEq, Prod.mk.injEq] at hok
      obtain ⟨rfl, rfl⟩ := hok
      exact ⟨rfl, Wp.pure ⟨rfl, hentry⟩⟩
    | some entry =>
      simp only [openAbsolute, hresolve, hentry, Option.isSome_some, if_true] at hok
      split at hok
      · cases hok
      · cases hok
        refine ⟨rfl, Wp.bind (wp_ensureSafeRegularFile (fun data hdata hlinks => ?_)
          (fun e hnot => ⟨rfl, .inr ⟨by simp, ?_⟩⟩)
          (fun hfail => ⟨rfl, .inl (.inl hfail)⟩) rfl)⟩
        · exact Wp.pure ⟨rfl, rfl, data, hentry ▸ hdata, hlinks⟩
        · exact fun data hdata => hnot data (hentry.trans hdata)
  · cases hentry : t.entryAt (path ++ (parents ++ [leaf])) with
    | none => simp [openAbsolute, hresolve, hentry] at herror
    | some entry =>
      simp only [openAbsolute, hresolve, hentry, Option.isSome_some, if_true] at herror
      split at herror
      · rename_i hdirectory _
        rw [hdirectory]
        exact ⟨rfl, by simp⟩
      · cases herror

end Specs

end Se7en.Windows
