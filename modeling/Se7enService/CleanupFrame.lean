import Se7enService.ReservedCleanup
set_option autoImplicit false

/-! What a cleanup of a job's reserved storage removes, in whatever tree it runs. -/

namespace Se7en.Windows
open Faulty

/-! ### The frame -/

def reservedPlace (path : TargetPath) : TargetPath := path ++ [reservedRootDirectory]
def jobsPlace (path : TargetPath) : TargetPath := path ++ [reservedRootDirectory, "jobs".toList]

/-- The job's own reserved directory. -/
def jobPlace (path : TargetPath) (id : String) : TargetPath :=
  path ++ reservedRootDirectory :: "jobs".toList :: jobNames id

/-- A position at which a cleanup of the job deletes. -/
def Reserved (path : TargetPath) (id : String) (place : TargetPath) : Prop :=
  place = reservedPlace path ∨ place = jobsPlace path ∨ jobPlace path id <+: place

/-- The storage of the job, or one of the shared directories where nothing else is in it; a link
in its place has nothing in it. -/
def Removable (tree : Tree) (path : TargetPath) (id : String) (place : TargetPath) : Prop :=
  jobPlace path id <+: place ∨
  (place = reservedPlace path ∨ place = jobsPlace path) ∧
    ∀ below, place <+: below → (tree.entryAt below).isSome → Reserved path id below

/-- Nothing was changed, and only what is removable removed. -/
def Confined (tree : Tree) (path : TargetPath) (id : String) (t : Tree) : Prop :=
  ∀ place, t.entryAt place = tree.entryAt place ∨
    t.entryAt place = none ∧ Removable tree path id place

section Frame

variable {tree t : Tree} {path place : TargetPath} {id : String} {A : Event Empty → Prop}

theorem Confined.refl : Confined tree path id tree := fun _ => .inl rfl

theorem Confined.trans {u : Tree} (h : Confined tree path id t) (h' : Confined t path id u) :
    Confined tree path id u := by
  intro place
  rcases h' place with hsame | ⟨hgone, hremovable⟩
  · rw [hsame]
    exact h place
  · refine .inr ⟨hgone, ?_⟩
    rcases hremovable with hown | ⟨hshared, hempty⟩
    · exact .inl hown
    refine .inr ⟨hshared, fun below hbelow hsome => ?_⟩
    rcases h below with hkept | ⟨-, hown | ⟨hshared', -⟩⟩
    · exact hempty below hbelow (hkept ▸ hsome)
    · exact .inr (.inr hown)
    · exact hshared'.imp_right .inl

theorem Confined.erase (hplace : Reserved path id place) (hnames : tree.names place = []) :
    Confined tree path id (tree.erase place) := by
  have hne : place ≠ [] := by
    rintro rfl
    rcases hplace with h | h | h
    · simp [reservedPlace] at h
    · simp [jobsPlace] at h
    · simp [jobPlace] at h
  have hbelow : ∀ below, place <+: below → (tree.entryAt below).isSome → below = place := by
    rintro _ ⟨rest, rfl⟩ hsome
    by_cases hrest : rest = []
    · simp [hrest]
    · rw [Volume.Node.entryAt_below hnames hrest] at hsome
      cases hsome
  intro below
  rw [Volume.Node.entryAt_erase tree hne]
  split
  · rename_i hprefix
    cases hentry : tree.entryAt below with
    | none => exact .inl rfl
    | some entry =>
      obtain rfl := hbelow below hprefix (by simp [hentry])
      refine .inr ⟨rfl, ?_⟩
      rcases hplace with h | h | h
      · exact .inr ⟨.inl h, fun below' hp hs => .inl ((hbelow below' hp hs).trans h)⟩
      · exact .inr ⟨.inr h, fun below' hp hs => .inr (.inl ((hbelow below' hp hs).trans h))⟩
      · exact .inl h
  · exact .inl rfl

theorem Confined.linkGone {u : Tree} (h : Confined tree path id t) (hplace : Reserved path id place)
    (hgone : LinkGone t place u) : Confined tree path id u := by
  rcases hgone with rfl | ⟨⟨target, hlink⟩, rfl⟩
  · exact h
  · exact h.trans (.erase hplace (names_link hlink))

theorem keeps_deleteByHandle (hplace : Reserved path id place) (fault : MaintenanceError) :
    Keeps A (Confined tree path id) (deleteByHandle place fault).run := by
  intro t ht
  refine Wp.step_alone (.whole .plain ?_ (fun _ => ht) ht)
  intro _ u h
  simp only [deleteByHandle] at h
  split at h
  · cases h
  · rename_i hfree
    simp only [Bool.or_eq_true, not_or, Bool.not_eq_true', Bool.not_eq_true, Bool.not_eq_false,
      List.isEmpty_iff] at hfree
    cases h
    have hgone := ht.trans (.erase hplace hfree.2)
    exact ⟨hgone, hgone⟩

variable {identity : DirectoryIdentity}

/-- An open of a reserved directory deletes nothing but a link in its place. -/
theorem wp_open_confined {relative : String} (ht : Confined tree path id t)
    (h : ∀ names, relativeComponents relative = .ok names →
      names ≠ [] ∧ Reserved path id (path ++ names)) :
    Wp A (openReservedRegularDirectory ⟨path, some identity⟩ relative)
      (fun r u => Confined tree path id u ∧ ∀ handle ∈ r, Reserved path id handle)
      (fun _ => Confined tree path id) (Confined tree path id) t := by
  cases hnames : relativeComponents relative with
  | error e =>
    unfold openReservedRegularDirectory openReservedDirectory
    rw [hnames]
    exact Wp.bind (Wp.bind (Wp.throw ht))
  | ok names =>
    obtain ⟨hne, hplace⟩ := h names hnames
    refine (wp_openReservedRegularDirectory hnames hne).mono ?_
      (fun e u hu => ht.linkGone hplace hu.1) (fun u hu => ht.linkGone hplace hu)
    rintro r u ⟨rfl, hopened⟩
    refine ⟨ht, fun handle hhandle => ?_⟩
    rw [Option.mem_def.mp hhandle] at hopened
    rw [hopened.1]
    exact hplace

theorem keeps_lockParentChain (parents : List Name) :
    Keeps A (Confined tree path id) (lockParentChain ⟨path, some identity⟩ parents) :=
  fun _ ht => wp_lockParentChain.mono (fun _ _ h => h.1 ▸ ht) (fun _ _ h => h.1 ▸ ht)
    fun _ h => h ▸ ht

theorem keeps_removeEmptyDirectory {relative : String}
    (h : ∀ names, relativeComponents relative = .ok names →
      names ≠ [] ∧ Reserved path id (path ++ names)) :
    Keeps A (Confined tree path id) (removeEmptyDirectory ⟨path, some identity⟩ relative) := by
  intro t ht
  unfold removeEmptyDirectory
  refine Wp.bind ((wp_open_confined ht h).mono ?_ (fun _ _ hu => hu) fun _ hu => hu)
  rintro (_ | handle) u ⟨hu, hplace⟩
  · exact Wp.pure hu
  · refine Wp.bind (Wp.step_alone (.of_ok .plain rfl ?_ hu hu hu))
    split
    · exact keeps_deleteByHandle (hplace handle rfl) _ u hu
    · exact Wp.pure hu

theorem jobRelative_toList (id : String) : (jobRelative id).toList =
    reservedRootDirectory ++ '/' :: ("jobs".toList ++
      '/' :: (id.toList ++ ([] : List Name).flatMap ('/' :: ·))) := by
  unfold jobRelative
  rw [String.toList_append, jobsText]
  simp

theorem leafRelative_toList (id : String) (leaf : Leaf) : (leafRelative id leaf).toList =
    reservedRootDirectory ++ '/' :: ("jobs".toList ++
      '/' :: (id.toList ++ [leaf.text.toList].flatMap ('/' :: ·))) := by
  unfold leafRelative
  rw [String.toList_append, String.toList_append, jobRelative_toList, slashText]
  simp

theorem itemRelative_toList (id : String) (leaf : Leaf) (name : Name) :
    (itemRelative id leaf name).toList = reservedRootDirectory ++ '/' :: ("jobs".toList ++
      '/' :: (id.toList ++ [leaf.text.toList, name].flatMap ('/' :: ·))) := by
  unfold itemRelative
  rw [String.toList_append, String.toList_append, leafRelative_toList, slashText]
  simp

theorem reserved_of_job {text : String} {tail : List Name} (hid : validInternalJobId id = true)
    (htail : ∀ name ∈ tail, IsComponent name)
    (htext : text.toList = reservedRootDirectory ++ '/' :: ("jobs".toList ++
      '/' :: (id.toList ++ tail.flatMap ('/' :: ·)))) {names : List Name}
    (h : relativeComponents text = .ok names) :
    names ≠ [] ∧ Reserved path id (path ++ names) := by
  obtain ⟨hok, herror⟩ := relativeComponents_job hid htail htext
  by_cases hdots : id.toList = ['.', '.']
  · obtain ⟨e, he⟩ := herror hdots
    cases he.symm.trans h
  · cases (hok hdots).symm.trans h
    refine ⟨by simp, .inr (.inr ⟨tail, ?_⟩)⟩
    simp [jobPlace]

theorem keeps_removeItems (hid : validInternalJobId id = true) (leaf : Leaf) (names : List Name) :
    Keeps A (Confined tree path id) (removeItems ⟨path, some identity⟩ id leaf names) := by
  induction names with
  | nil => exact Keeps.pure ()
  | cons name rest ih =>
    intro t ht
    unfold removeItems
    cases hname : isItemName name with
    | false => exact Wp.bind (Wp.throw ht)
    | true =>
      have htail : ∀ part ∈ [leaf.text.toList, name], IsComponent part := by
        simp [leaf_isComponent, item_isComponent hname]
      simp only [Bool.not_true, Bool.false_eq_true, if_false]
      cases hitem : relativeComponents (itemRelative id leaf name) with
      | error e =>
        unfold openRelativeFile
        rw [hitem]
        exact Wp.bind (Wp.bind (Wp.throw ht))
      | ok names =>
        obtain ⟨hne, hplace⟩ : names ≠ [] ∧ Reserved path id (path ++ names) :=
          reserved_of_job hid htail (itemRelative_toList id leaf name) hitem
        rw [← List.dropLast_append_getLast hne] at hitem hplace
        refine Wp.bind ((wp_openRelativeFile hitem).mono ?_ (fun _ _ h => h.1 ▸ ht)
          fun _ h => h ▸ ht)
        rintro (_ | handle) u ⟨rfl, hopened⟩
        · exact ih u ht
        · obtain ⟨rfl, -⟩ := hopened
          refine Wp.bind (wp_ensureSafeRegularFile (fun _ _ _ => ?_) (fun _ _ => ht)
            (fun _ => ht) ht)
          exact Keeps.bind (keeps_deleteByHandle hplace _) (fun _ => ih) u ht

theorem keeps_removeLeaf (hid : validInternalJobId id = true) (leaf : Leaf) :
    Keeps A (Confined tree path id) (removeLeaf ⟨path, some identity⟩ id leaf) := by
  intro t ht
  have htail : ∀ part ∈ [leaf.text.toList], IsComponent part := by simp [leaf_isComponent]
  unfold removeLeaf
  refine Wp.bind ((wp_open_confined ht fun names => reserved_of_job hid htail
    (leafRelative_toList id leaf)).mono ?_ (fun _ _ hu => hu) fun _ hu => hu)
  rintro (_ | handle) u ⟨hu, hplace⟩
  · exact Wp.pure hu
  · refine Wp.bind (Wp.step_alone (.of_ok .plain rfl ?_ hu hu hu))
    exact Keeps.bind (keeps_removeItems hid leaf _)
      (fun _ => keeps_deleteByHandle (hplace handle rfl) _) u hu

theorem sharedComponents :
    relativeComponents ".7launcher-maintenance/jobs" =
        .ok [reservedRootDirectory, "jobs".toList] ∧
      relativeComponents ".7launcher-maintenance" = .ok [reservedRootDirectory] := by
  decide +kernel

/-- Whatever the tree holds, and wherever the cleanup fails or is cut off. -/
theorem keeps_cleanupReservedJob (hid : validInternalJobId id = true) :
    Keeps A (Confined tree path id) (cleanupReservedJob ⟨path, some identity⟩ id) := by
  intro t ht
  have hjob : ∀ names, relativeComponents (jobRelative id) = .ok names →
      names ≠ [] ∧ Reserved path id (path ++ names) :=
    fun names => reserved_of_job hid (by simp) (jobRelative_toList id)
  have hjobs : ∀ names, relativeComponents ".7launcher-maintenance/jobs" = .ok names →
      names ≠ [] ∧ Reserved path id (path ++ names) := by
    intro names h
    cases sharedComponents.1.symm.trans h
    exact ⟨by simp, .inr (.inl rfl)⟩
  have hreserved : ∀ names, relativeComponents ".7launcher-maintenance" = .ok names →
      names ≠ [] ∧ Reserved path id (path ++ names) := by
    intro names h
    cases sharedComponents.2.symm.trans h
    exact ⟨by simp, .inl rfl⟩
  have hparents : Keeps A (Confined tree path id) (do
      removeEmptyDirectory ⟨path, some identity⟩ (jobRelative id)
      removeEmptyDirectory ⟨path, some identity⟩ ".7launcher-maintenance/jobs"
      removeEmptyDirectory ⟨path, some identity⟩ ".7launcher-maintenance") :=
    Keeps.bind (keeps_removeEmptyDirectory hjob) fun _ =>
      Keeps.bind (keeps_removeEmptyDirectory hjobs) fun _ => keeps_removeEmptyDirectory hreserved
  have hleaf : ∀ leaf, Keeps A (Confined tree path id)
      (removeLeaf ⟨path, some identity⟩ id leaf) := keeps_removeLeaf hid
  unfold cleanupReservedJob
  refine Wp.bind ((keeps_lockParentChain [] t ht).mono (fun _ u hu => ?_) (fun _ _ hu => hu)
    fun _ hu => hu)
  refine Wp.bind ((wp_open_confined hu hjob).mono (fun r v hv => ?_) (fun _ _ hu => hu)
    fun _ hu => hu)
  cases r with
  | none => exact hparents v hv.1
  | some handle =>
    simp only [Option.isSome_some, if_true]
    exact Keeps.bind (hleaf .prepared)
      (fun _ => Keeps.bind (hleaf .backup) fun _ => hparents) v hv.1

end Frame

/-! ### The storage of a transaction -/

/-- The names of a directory of the job, below the root. -/
def jobComponentNames (id : String) (tail : List Name) : List Name :=
  reservedRootDirectory :: "jobs".toList :: (jobNames id ++ tail)

/-- The root is the registered one, and the storage of the job is nothing but what a transaction
creates: two directories with single-link files that are named by their index. -/
structure OwnStorage (tree : Tree) (path : TargetPath) (identity : DirectoryIdentity)
    (id : String) : Prop where
  root : tree.entryAt path = some (.directory identity)
  clear : ∀ leaf : Leaf, ¬ Obstructed tree path (jobComponentNames id [leaf.text.toList])
  leaves : ∀ name ∈ tree.names (jobPlace path id), ∃ leaf : Leaf, name = leaf.text.toList
  items : ∀ leaf : Leaf, ∀ name ∈ tree.names (jobPlace path id ++ [leaf.text.toList]),
    isItemName name = true ∧ ∃ data,
      tree.entryAt (jobPlace path id ++ [leaf.text.toList, name]) = some (.file data) ∧
        data.links = 1

section Storage

variable {tree t : Tree} {path : TargetPath} {identity : DirectoryIdentity} {id : String}
  {A : Event Empty → Prop}

theorem path_not_reserved : ¬ Reserved path id path := by
  rintro (h | h | h)
  · simp [reservedPlace] at h
  · simp [jobsPlace] at h
  · have hlength := h.length_le
    simp [jobPlace] at hlength

theorem Removable.reserved {place : TargetPath} (h : Removable tree path id place) :
    Reserved path id place := by
  rcases h with h | ⟨h | h, -⟩
  · exact .inr (.inr h)
  · exact .inl h
  · exact .inr (.inl h)

theorem Confined.same {place : TargetPath} (h : Confined tree path id t)
    (hplace : ¬ Reserved path id place) : t.entryAt place = tree.entryAt place :=
  (h place).resolve_right fun hgone => hplace hgone.2.reserved

theorem Confined.of_isSome {place : TargetPath} (h : Confined tree path id t)
    (hsome : (t.entryAt place).isSome) : t.entryAt place = tree.entryAt place :=
  (h place).resolve_right fun hgone => by simp [hgone.1] at hsome

theorem Confined.gone {place : TargetPath} (h : Confined tree path id t)
    (hnone : tree.entryAt place = none) : t.entryAt place = none :=
  (h place).elim (fun hsame => hsame.trans hnone) fun hgone => hgone.1

theorem Confined.names {place : TargetPath} {name : Name} (h : Confined tree path id t)
    (hname : name ∈ t.names place) : name ∈ tree.names place := by
  rw [Volume.Node.mem_names] at hname ⊢
  rwa [← h.of_isSome hname]

theorem OwnStorage.confined (hown : OwnStorage tree path identity id)
    (h : Confined tree path id t) : OwnStorage t path identity id where
  root := (h.same path_not_reserved).trans hown.root
  clear leaf := by
    rintro ⟨front, entry, hfront, hentry, hother⟩
    have hsame := h.of_isSome (Option.isSome_of_eq_some hentry)
    exact hown.clear leaf ⟨front, entry, hfront, hsame ▸ hentry, hother⟩
  leaves name hname := hown.leaves name (h.names hname)
  items leaf name hname := by
    obtain ⟨hitem, data, hdata, hlinks⟩ := hown.items leaf name (h.names hname)
    have hsome := Volume.Node.mem_names.mp hname
    rw [List.append_assoc] at hsome
    exact ⟨hitem, data, (h.of_isSome hsome).trans hdata, hlinks⟩

/-- Only a failing operation hinders an open on the way to the storage. -/
theorem OwnStorage.hindered (hown : OwnStorage tree path identity id) {names : List Name}
    (leaf : Leaf) (hnames : names <+: jobComponentNames id [leaf.text.toList])
    (h : Hindered A tree path identity names) : ∃ cut, A (.fail cut) := by
  rcases h with hfail | hroot | ⟨front, entry, hfront, hentry, hother⟩
  · exact hfail
  · exact absurd hown.root hroot
  · exact absurd ⟨front, entry, hfront.trans hnames, hentry, hother⟩ (hown.clear leaf)

theorem names_file {place : TargetPath} {data : FileData}
    (h : tree.entryAt place = some (.file data)) : tree.names place = [] := by
  rw [List.eq_nil_iff_forall_not_mem]
  intro name hname
  obtain ⟨identity, hidentity⟩ := Volume.Node.entryAt_of_append (Volume.Node.mem_names.mp hname)
  rw [h] at hidentity
  cases hidentity

theorem deleteByHandle_effect {place : TargetPath} (hsome : (tree.entryAt place).isSome)
    (hnames : tree.names place = []) (fault : MaintenanceError) :
    (deleteByHandle place fault).effect tree = .ok ((), tree.erase place) := by
  have hentry : tree.entryAt place ≠ none := Option.isSome_iff_ne_none.mp hsome
  simp [deleteByHandle, hentry, hnames]

theorem erase_gone {place : TargetPath} (hplace : Reserved path id place) :
    (tree.erase place).entryAt place = none := by
  have hne : place ≠ [] := by
    rintro rfl
    rcases hplace with h | h | h <;> simp [reservedPlace, jobsPlace, jobPlace] at h
  simp [Volume.Node.entryAt_erase tree hne]

theorem wp_removeItems (hid : validInternalJobId id = true) (hdots : id.toList ≠ ['.', '.'])
    {leaf : Leaf} {names : List Name} (hown : OwnStorage tree path identity id)
    (hnames : ∀ name ∈ names, isItemName name = true) :
    Wp A (removeItems ⟨path, some identity⟩ id leaf names)
      (fun _ t => Confined tree path id t ∧
        t.entryAt (jobPlace path id ++ [leaf.text.toList]) =
          tree.entryAt (jobPlace path id ++ [leaf.text.toList]) ∧
        ∀ name ∈ names, t.entryAt (jobPlace path id ++ [leaf.text.toList, name]) = none)
      (fun _ _ => ∃ cut, A (.fail cut)) (fun _ => True) tree := by
  induction names generalizing tree with
  | nil => exact Wp.pure ⟨.refl, rfl, nofun⟩
  | cons name rest ih =>
    rw [List.forall_mem_cons] at hnames
    obtain ⟨hname, hrest⟩ := hnames
    have htail : ∀ part ∈ [leaf.text.toList, name], IsComponent part := by
      simp [leaf_isComponent, item_isComponent hname]
    have hitem := (relativeComponents_job hid htail (itemRelative_toList id leaf name)).1 hdots
    rw [show reservedRootDirectory :: "jobs".toList :: (jobNames id ++ [leaf.text.toList, name]) =
      jobComponentNames id [leaf.text.toList] ++ [name] by simp [jobComponentNames]] at hitem
    have hplace : path ++ (jobComponentNames id [leaf.text.toList] ++ [name]) =
        jobPlace path id ++ [leaf.text.toList, name] := by simp [jobComponentNames, jobPlace]
    have hreserved : Reserved path id (jobPlace path id ++ [leaf.text.toList, name]) :=
      .inr (.inr (List.prefix_append _ _))
    unfold removeItems
    simp only [hname, Bool.not_true, Bool.false_eq_true, if_false]
    refine Wp.bind ((wp_openRelativeFile hitem).mono ?_ ?_ fun _ _ => trivial)
    · rintro (_ | handle) t ⟨rfl, hopened⟩
      · rw [OpenedFile, hplace] at hopened
        refine (ih hown hrest).mono ?_ (fun _ _ h => h) fun _ h => h
        rintro _ u ⟨hconfined, hkept, hgone⟩
        exact ⟨hconfined, hkept, List.forall_mem_cons.mpr ⟨hconfined.gone hopened, hgone⟩⟩
      · obtain ⟨rfl, data, hdata, hlinks⟩ := hopened
        rw [hplace] at hdata ⊢
        refine Wp.bind (wp_ensureSafeRegularFile (fun _ _ _ => ?_)
          (fun e hnot => absurd hlinks (hnot data hdata)) (fun hfail => hfail) trivial)
        have hdelete := deleteByHandle_effect (Option.isSome_of_eq_some hdata) (names_file hdata)
          (.new .transactionIo "handle-based file deletion failed")
        refine Wp.bind (Wp.step_alone (.of_ok_or_fail .plain hdelete ?_ (fun hfail => hfail) trivial
          trivial))
        have herased : Confined t path id (t.erase (jobPlace path id ++ [leaf.text.toList, name])) :=
          .erase hreserved (names_file hdata)
        refine (ih (hown.confined herased) hrest).mono ?_ (fun _ _ h => h) fun _ h => h
        rintro _ u ⟨hconfined, hkept, hgone⟩
        have hsame : (t.erase (jobPlace path id ++ [leaf.text.toList, name])).entryAt
            (jobPlace path id ++ [leaf.text.toList]) =
              t.entryAt (jobPlace path id ++ [leaf.text.toList]) := by
          rw [Volume.Node.entryAt_erase t (by simp), if_neg]
          intro h
          simpa using h.length_le
        exact ⟨herased.trans hconfined, hkept.trans hsame,
          List.forall_mem_cons.mpr ⟨hconfined.gone (erase_gone hreserved), hgone⟩⟩
    · rintro e t ⟨rfl, hhindered | ⟨hsome, hother⟩⟩
      · exact hown.hindered leaf List.prefix_rfl hhindered
      · rw [hplace] at hsome hother
        have hmem : name ∈ t.names (jobPlace path id ++ [leaf.text.toList]) := by
          rw [Volume.Node.mem_names]
          simpa using hsome
        obtain ⟨-, data, hdata, hlinks⟩ := hown.items leaf name hmem
        exact absurd hlinks (hother data hdata)

theorem wp_removeLeaf (hid : validInternalJobId id = true) (hdots : id.toList ≠ ['.', '.'])
    {leaf : Leaf} (hown : OwnStorage tree path identity id) :
    Wp A (removeLeaf ⟨path, some identity⟩ id leaf)
      (fun _ t => Confined tree path id t ∧
        t.entryAt (jobPlace path id ++ [leaf.text.toList]) = none)
      (fun _ _ => ∃ cut, A (.fail cut)) (fun _ => True) tree := by
  have htail : ∀ part ∈ [leaf.text.toList], IsComponent part := by simp [leaf_isComponent]
  have hleaf := (relativeComponents_job hid htail (leafRelative_toList id leaf)).1 hdots
  have hplace : path ++ jobComponentNames id [leaf.text.toList] =
      jobPlace path id ++ [leaf.text.toList] := by simp [jobComponentNames, jobPlace]
  have hreserved : Reserved path id (jobPlace path id ++ [leaf.text.toList]) :=
    .inr (.inr (List.prefix_append _ _))
  unfold removeLeaf
  refine Wp.bind ((wp_openReservedRegularDirectory hleaf (by simp)).mono ?_
    (fun e t h => hown.hindered leaf List.prefix_rfl h.2) fun _ _ => trivial)
  rintro (_ | handle) t ⟨rfl, hopened⟩
  · exact Wp.pure ⟨.refl, hplace ▸ hopened⟩
  obtain ⟨rfl, found, hdirectory⟩ := hopened
  change t.entryAt (path ++ jobComponentNames id [leaf.text.toList]) = _ at hdirectory
  rw [hplace] at hdirectory
  refine Wp.bind (Wp.step_alone (.of_ok_or_fail .plain rfl ?_ (fun hfail => hfail) trivial trivial))
  change Wp A (removeItems _ id leaf
    (t.names (path ++ jobComponentNames id [leaf.text.toList])) >>= fun _ =>
      (deleteByHandle (path ++ jobComponentNames id [leaf.text.toList]) _).run) _ _ _ t
  rw [hplace]
  refine Wp.bind ((wp_removeItems hid hdots hown fun name hname =>
    (hown.items leaf name hname).1).mono ?_ (fun _ _ h => h) fun _ h => h)
  rintro _ u ⟨hconfined, hkept, hgone⟩
  have hnames : u.names (jobPlace path id ++ [leaf.text.toList]) = [] := by
    rw [List.eq_nil_iff_forall_not_mem]
    intro name hname
    have hnone := hgone name (hconfined.names hname)
    have hsome := Volume.Node.mem_names.mp hname
    rw [List.append_assoc] at hsome
    exact absurd hsome (by simpa using hnone)
  have hdelete := deleteByHandle_effect (by simp [hkept, hdirectory]) hnames
    (.new .transactionIo "reserved job leaf cannot be removed")
  refine Wp.step_alone (.of_ok_or_fail .plain hdelete ?_ (fun hfail => hfail) trivial trivial)
  exact ⟨hconfined.trans (.erase hreserved hnames), erase_gone hreserved⟩

theorem wp_removeEmptyDirectory {relative : String} {names : List Name}
    (h : relativeComponents relative = .ok names) (hne : names ≠ [])
    (hreserved : Reserved path id (path ++ names)) (leaf : Leaf)
    (hnames : names <+: jobComponentNames id [leaf.text.toList])
    (hown : OwnStorage tree path identity id) :
    Wp A (removeEmptyDirectory ⟨path, some identity⟩ relative)
      (fun _ t => Confined tree path id t ∧
        (tree.names (path ++ names) = [] → t.entryAt (path ++ names) = none))
      (fun _ _ => ∃ cut, A (.fail cut)) (fun _ => True) tree := by
  unfold removeEmptyDirectory
  refine Wp.bind ((wp_openReservedRegularDirectory h hne).mono ?_
    (fun e t h => hown.hindered leaf hnames h.2) fun _ _ => trivial)
  rintro (_ | handle) t ⟨rfl, hopened⟩
  · exact Wp.pure ⟨.refl, fun _ => hopened⟩
  obtain ⟨rfl, found, hdirectory⟩ := hopened
  refine Wp.bind (Wp.step_alone (.of_ok_or_fail .plain rfl ?_ (fun hfail => hfail) trivial trivial))
  split
  · rename_i hempty
    rw [List.isEmpty_iff] at hempty
    have hdelete := deleteByHandle_effect (Option.isSome_of_eq_some hdirectory) hempty
      (.new .transactionIo "reserved job parent cannot be removed")
    refine Wp.step_alone (.of_ok_or_fail .plain hdelete ?_ (fun hfail => hfail) trivial trivial)
    exact ⟨.erase hreserved hempty, fun _ => erase_gone hreserved⟩
  · rename_i hempty
    exact Wp.pure ⟨.refl, fun h => absurd (List.isEmpty_iff.mpr h) hempty⟩

/-- Only a failing operation keeps the cleanup from removing the whole directory of the job. -/
theorem wp_cleanupReservedJob (hid : validInternalJobId id = true)
    (hdots : id.toList ≠ ['.', '.']) (hown : OwnStorage tree path identity id) :
    Wp A (cleanupReservedJob ⟨path, some identity⟩ id)
      (fun _ t => t.entryAt (jobPlace path id) = none)
      (fun _ _ => ∃ cut, A (.fail cut)) (fun _ => True) tree := by
  have hjob := (relativeComponents_job hid (by simp) (jobRelative_toList id)).1 hdots
  rw [List.append_nil] at hjob
  have hown' : Reserved path id
      (path ++ reservedRootDirectory :: "jobs".toList :: jobNames id) := .inr (.inr List.prefix_rfl)
  have hinitial : reservedRootDirectory :: "jobs".toList :: jobNames id <+:
      jobComponentNames id [Leaf.prepared.text.toList] := ⟨_, rfl⟩
  have hparents : ∀ t, OwnStorage t path identity id → t.names (jobPlace path id) = [] →
      Wp A (do
        removeEmptyDirectory ⟨path, some identity⟩ (jobRelative id)
        removeEmptyDirectory ⟨path, some identity⟩ ".7launcher-maintenance/jobs"
        removeEmptyDirectory ⟨path, some identity⟩ ".7launcher-maintenance")
        (fun _ u => u.entryAt (jobPlace path id) = none)
        (fun _ _ => ∃ cut, A (.fail cut)) (fun _ => True) t := by
    intro t ht hempty
    refine Wp.bind ((wp_removeEmptyDirectory hjob (by simp) hown' .prepared hinitial ht).mono ?_
      (fun _ _ h => h) fun _ h => h)
    rintro _ u ⟨hu, hgone⟩
    refine Wp.bind ((wp_removeEmptyDirectory sharedComponents.1 (by simp) (.inr (.inl rfl))
      .prepared ⟨_, rfl⟩ (ht.confined hu)).mono ?_ (fun _ _ h => h) fun _ h => h)
    rintro _ v ⟨hv, -⟩
    refine (wp_removeEmptyDirectory sharedComponents.2 (by simp) (.inl rfl)
      .prepared ⟨_, rfl⟩ (ht.confined (hu.trans hv))).mono ?_ (fun _ _ h => h)
      fun _ h => h
    rintro _ w ⟨hw, -⟩
    exact hw.gone (hv.gone (hgone hempty))
  unfold cleanupReservedJob
  refine Wp.bind (wp_lockParentChain.mono ?_ (fun e t h => ?_) fun _ _ => trivial)
  · rintro _ t ⟨rfl, -⟩
    refine Wp.bind ((wp_openReservedRegularDirectory hjob (by simp)).mono ?_
      (fun e u h => hown.hindered .prepared hinitial h.2) fun _ _ => trivial)
    rintro (_ | handle) u ⟨rfl, hopened⟩
    · have hempty : u.names (jobPlace path id) = [] := by
        rw [List.eq_nil_iff_forall_not_mem]
        intro name hname
        have hnone : u.entryAt (jobPlace path id ++ [name]) = none :=
          Volume.Node.entryAt_append_eq_none hopened [name]
        simp [Volume.Node.mem_names, hnone] at hname
      exact hparents u hown hempty
    · simp only [Option.isSome_some, if_true]
      refine Wp.bind ((wp_removeLeaf hid hdots hown).mono ?_ (fun _ _ h => h) fun _ h => h)
      rintro _ v ⟨hv, hprepared⟩
      refine Wp.bind ((wp_removeLeaf hid hdots (hown.confined hv)).mono ?_ (fun _ _ h => h)
        fun _ h => h)
      rintro _ w ⟨hw, hbackup⟩
      have howned := hown.confined (hv.trans hw)
      refine hparents w howned ?_
      rw [List.eq_nil_iff_forall_not_mem]
      intro name hname
      have hsome := Volume.Node.mem_names.mp hname
      obtain ⟨leaf, rfl⟩ := howned.leaves name hname
      cases leaf
      · simp [hw.gone hprepared] at hsome
      · simp [hbackup] at hsome
  · exact hown.hindered .prepared List.nil_prefix h.2

/-- The storage of two jobs is separate. -/
theorem not_reserved_other {other : String} {place : TargetPath} (hid : id ≠ ".")
    (hother : other ≠ ".") (hne : other ≠ id) (hplace : jobPlace path other <+: place) :
    ¬ Reserved path id place := by
  have hnames : ∀ {id : String}, id ≠ "." → jobNames id = [id.toList] := by
    intro id hid
    have hdot : id.toList ≠ ['.'] := fun h => hid (String.toList_inj.mp h)
    simp [jobNames, hdot]
  have hlength := hplace.length_le
  rw [jobPlace, hnames hother] at hplace hlength
  rintro (rfl | rfl | h)
  · simp [reservedPlace] at hlength
  · simp [jobsPlace] at hlength
  · rw [jobPlace, hnames hid] at h
    have hsame := List.prefix_of_prefix_length_le hplace h (by simp)
    have hequal := hsame.eq_of_length (by simp)
    simp only [List.append_cancel_left_eq, List.cons.injEq, and_true, true_and] at hequal
    exact hne (String.toList_inj.mp hequal)

end Storage

/-- In every tree, with links and foreign entries wherever they are, and wherever an operation fails
or the run is cut off. -/
theorem cleanup_confined {id : String} (hid : validInternalJobId id = true) :
    (∀ tree path identity sch,
      Confined tree path id (cleanupReservedJob ⟨path, some identity⟩ id tree sch).2.1 ∧
      ∀ other place, id ≠ "." → other ≠ "." → other ≠ id → jobPlace path other <+: place →
        (cleanupReservedJob ⟨path, some identity⟩ id tree sch).2.1.entryAt place =
          tree.entryAt place) ∧
    (id ≠ ".." → ∀ tree path identity, OwnStorage tree path identity id →
      ∀ A, Wp A (cleanupReservedJob ⟨path, some identity⟩ id)
        (fun _ t => ∀ place, jobPlace path id <+: place → t.entryAt place = none)
        (fun _ _ => ∃ cut, A (.fail cut)) (fun _ => True) tree) := by
  constructor
  · intro tree path identity sch
    have hconfined : Confined tree path id
        (cleanupReservedJob ⟨path, some identity⟩ id tree sch).2.1 :=
      Wp.anyEnd (keeps_cleanupReservedJob hid tree .refl) sch
    exact ⟨hconfined, fun other place hdot hother hne hplace =>
      hconfined.same (not_reserved_other hdot hother hne hplace)⟩
  · intro hdots tree path identity hown A
    have hname : id.toList ≠ ['.', '.'] := fun h => hdots (String.toList_inj.mp h)
    refine (wp_cleanupReservedJob hid hname hown).mono ?_ (fun _ _ h => h) fun _ h => h
    rintro _ t hgone _ ⟨rest, rfl⟩
    exact Volume.Node.entryAt_append_eq_none hgone rest

def sampleIdentity : DirectoryIdentity := ⟨1, Vector.replicate 16 0⟩

/-- Two jobs and a file of the user below a root. -/
def sampleTree : Tree :=
  let file : Volume.Node Name DirectoryIdentity FileData := .file ⟨[1], 1⟩
  .directory sampleIdentity [
    ("keep.txt".toList, file),
    (reservedRootDirectory, .directory sampleIdentity [
      ("jobs".toList, .directory sampleIdentity [
        ("a".toList, .directory sampleIdentity [
          ("prepared".toList, .directory sampleIdentity [("0".toList, file), ("1".toList, file)])]),
        ("b".toList, .directory sampleIdentity [
          ("backup".toList, .link ["keep.txt".toList])])])])]

theorem cleanup_confined_sample :
    OwnStorage sampleTree [] sampleIdentity "a" ∧
      ∃ t, cleanupReservedJob ⟨[], some sampleIdentity⟩ "a" sampleTree [] = (.ok (), t, []) ∧
        Confined sampleTree [] "a" t ∧ ∀ place, jobPlace [] "a" <+: place → t.entryAt place = none := by
  have hown : OwnStorage sampleTree [] sampleIdentity "a" := by
    constructor
    · rfl
    · have hclear : ∀ leaf ∈ [Leaf.prepared, .backup],
          ∀ front ∈ (jobComponentNames "a" [leaf.text.toList]).inits,
            sampleTree.entryAt front = none ∨
              sampleTree.entryAt front = some (.directory sampleIdentity) := by decide +kernel
      rintro leaf ⟨front, entry, hfront, hentry, hother⟩
      have hplace := hclear leaf (by cases leaf <;> simp) front ((List.mem_inits _ _).mpr hfront)
      rcases hplace with hnone | hdirectory
      · cases hnone.symm.trans hentry
      · cases hdirectory.symm.trans hentry
        exact hother sampleIdentity rfl
    · have hnames : sampleTree.names (jobPlace [] "a") = [Leaf.prepared.text.toList] := by
        decide +kernel
      intro name hname
      rw [hnames, List.mem_singleton] at hname
      exact ⟨.prepared, hname⟩
    · have hitems : ∀ leaf ∈ [Leaf.prepared, .backup],
          ∀ name ∈ sampleTree.names (jobPlace [] "a" ++ [leaf.text.toList]),
            isItemName name = true ∧
              sampleTree.entryAt (jobPlace [] "a" ++ [leaf.text.toList, name]) =
                some (.file ⟨[1], 1⟩) := by decide +kernel
      intro leaf name hname
      obtain ⟨hitem, hfile⟩ := hitems leaf (by cases leaf <;> simp) name hname
      exact ⟨hitem, ⟨[1], 1⟩, hfile, rfl⟩
  have hrun : (cleanupReservedJob ⟨[], some sampleIdentity⟩ "a" sampleTree []).1 = .ok () ∧
      (cleanupReservedJob ⟨[], some sampleIdentity⟩ "a" sampleTree []).2.2 = [] := by
    decide +kernel
  obtain ⟨hconfined, hgone⟩ := cleanup_confined (by decide +kernel : validInternalJobId "a" = true)
  have hend := (hgone (by decide) sampleTree [] sampleIdentity hown fun _ => False) [] nofun
  have hkept := (hconfined sampleTree [] sampleIdentity []).1
  rcases hresult : cleanupReservedJob ⟨[], some sampleIdentity⟩ "a" sampleTree [] with ⟨o, t, rest⟩
  rw [hresult] at hrun hend hkept
  obtain ⟨rfl, rfl⟩ := hrun
  exact ⟨hown, t, rfl, hkept, hend.2⟩

end Se7en.Windows
