import Se7enService.JobId
import Se7enService.JournalBytes
set_option autoImplicit false

/-! Relative paths: the check of the manifest, the components that `windows.rs` and
`transaction.rs` walk along, and the storage paths of a job. -/

namespace Se7en

/-! ### `std::path` -/

inductive Component where
  | drive
  | rootDir
  | curDir
  | parentDir
  | normal (name : Name)
  deriving DecidableEq, Repr

namespace Path

/-- An empty part or a dot between two separators is no component. -/
def component (part : Name) : Option Component :=
  if part = [] ∨ part = ['.'] then none
  else if part = ['.', '.'] then some .parentDir
  else some (.normal part)

/-- `Path::new(text).components()` on Windows. The UNC, device and verbatim prefixes, which
start with two separators, are not told from a root. -/
def components (text : List Char) : List Component :=
  let (drive, rest) : List Component × List Char := match text with
    | letter :: ':' :: rest => if letter.isAlpha then ([.drive], rest) else ([], text)
    | _ => ([], text)
  let root : List Component := if rest.head?.any isSeparator then [.rootDir] else []
  let parts := split '/' (rest.map fun c => if isSeparator c then '/' else c)
  let first : List Component := if parts.head? = some ['.'] then [.curDir] else []
  drive ++ root ++ first ++ parts.filterMap component

/-- `Path::file_name`. -/
def fileName (text : List Char) : Option Name :=
  match (components text).getLast? with
  | some (.normal name) => some name
  | _ => none

/-- `Path::extension`: what follows the last dot, unless the name starts with it. -/
def extension (text : List Char) : Option (List Char) := do
  let name ← fileName text
  let (stem, extension) ← Windows.rsplitOnce '.' name
  if stem.isEmpty then none else some extension

/-- Where the components lead from an absolute directory. -/
def resolve (directory : TargetPath) : List Component → TargetPath
  | [] => directory
  | .drive :: rest | .rootDir :: rest => resolve [] rest
  | .curDir :: rest => resolve directory rest
  | .parentDir :: rest => resolve directory.dropLast rest
  | .normal name :: rest => resolve (directory ++ [name]) rest

end Path

open Path

/-! ### The routines of the service -/

def normalComponents : List Component → Result (List Name)
  | [] => .ok []
  | .normal name :: rest => do
    if name = [] ∨ name = ['.'] ∨ name = ['.', '.'] then
      throw (.new .fileSetPath "relative path contains an empty or dot component")
    pure (name :: (← normalComponents rest))
  | _ => .error (.new .fileSetPath "relative path contains traversal")

def Windows.relativeComponents (relativePath : String) : Result (List Name) :=
  let text := relativePath.toList
  if text.isEmpty || text.contains '\\' || text.head? = some '/' || text.getLast? = some '/' then
    .error (.new .fileSetPath "relative path is not normalized")
  else normalComponents (components text)

/-- What `fs::symlink_metadata` tells about a path. -/
inductive Metadata where
  | found (reparse : Bool)
  | notFound
  | failed
  deriving DecidableEq, Repr

/-- The loop of `checked_descendant`. -/
def checkComponents (metadata : TargetPath → Metadata) (code : ErrorCode) (current : TargetPath) :
    List Component → Result Unit
  | [] => .ok ()
  | .normal name :: rest =>
    match metadata (current ++ [name]) with
    | .found true => .error (.new code "path traversal encountered a reparse point")
    | .found false => checkComponents metadata code (current ++ [name]) rest
    | .notFound => .ok ()
    | .failed => .error (.new code "path component metadata cannot be inspected")
  | _ => .error (.new code "relative path contains a non-normal component")

def checkedDescendant (metadata : TargetPath → Metadata) (root : TargetPath) (relativePath : String)
    (code : ErrorCode) : Result TargetPath := do
  validateRelativePath relativePath
  let text := relativePath.toList
  checkComponents metadata code root (components text)
  pure (resolve root (components (text.map fun c => if c = '/' then '\\' else c)))

/-- The two directories of a job. -/
inductive Leaf where
  | prepared
  | backup
  deriving DecidableEq, Repr

def Leaf.text : Leaf → String
  | .prepared => "prepared"
  | .backup => "backup"

def storageRelativePath (jobId : String) (leaf : Leaf) (index : UInt32) : String :=
  ".7launcher-maintenance/jobs/" ++ jobId ++ "/" ++ leaf.text ++ "/" ++ toString index.toNat

def Windows.preparedRelativePath (jobId : String) (index : UInt32) : String :=
  storageRelativePath jobId .prepared index

def Windows.backupRelativePath (jobId : String) (index : UInt32) : String :=
  storageRelativePath jobId .backup index

def reservedJobDirectory (root : TargetPath) (jobId : String) : TargetPath :=
  resolve (root ++ [reservedRootDirectory, "jobs".toList]) (components jobId.toList)

def storagePath (root : TargetPath) (jobId : String) (leaf : Leaf) (index : UInt32) : TargetPath :=
  reservedJobDirectory root jobId ++ [leaf.text.toList, decimal index.toNat]

def preparedPath (root : TargetPath) (jobId : String) (index : UInt32) : TargetPath :=
  storagePath root jobId .prepared index

def backupPath (root : TargetPath) (jobId : String) (index : UInt32) : TargetPath :=
  storagePath root jobId .backup index

/-! ### Components of an accepted path -/

/-- A name that stands for nothing but an entry of its directory. -/
structure PlainName (name : Name) : Prop where
  ne_nil : name ≠ []
  ne_dot : name ≠ ['.']
  ne_dots : name ≠ ['.', '.']
  device : isReservedWindowsName name = false
  last_space : name.getLast? ≠ some ' '
  last_dot : name.getLast? ≠ some '.'

theorem plain_of_componentIsForbidden {first : Bool} {name : Name}
    (h : componentIsForbidden first name = false) : PlainName name := by
  simp only [componentIsForbidden, Bool.or_eq_false_iff, decide_eq_false_iff_not] at h
  obtain ⟨⟨⟨⟨⟨⟨hne, hdot⟩, hdots⟩, hspace⟩, hlast⟩, hdevice⟩, -⟩ := h
  exact ⟨by simpa using hne, hdot, hdots, hdevice, hspace, hlast⟩

structure Accepted (text : List Char) : Prop where
  ne_nil : text ≠ []
  head : text.head? ≠ some '/'
  last : text.getLast? ≠ some '/'
  backslash : '\\' ∉ text
  colon : ':' ∉ text
  plain : ∀ name ∈ split '/' text, PlainName name
  reserved : ∀ name ∈ (split '/' text).head?, name.map Char.toLower ≠ reservedRootDirectory

theorem accepted_of_validateRelativePath {path : String} (h : validateRelativePath path = .ok ()) :
    Accepted path.toList := by
  unfold validateRelativePath at h
  dsimp only at h
  split at h
  · cases h
  rename_i hcanonical
  simp only [Bool.or_eq_true, not_or] at hcanonical
  obtain ⟨⟨⟨⟨⟨hne, -⟩, hhead⟩, hlast⟩, hback⟩, hchars⟩ := hcanonical
  have hcolon : ':' ∉ path.toList := by
    intro hmem
    exact hchars (List.any_eq_true.2 ⟨':', hmem, by decide⟩)
  cases hsplit : split '/' path.toList with
  | nil => exact absurd hsplit (split_ne_nil _ _)
  | cons first rest =>
    simp only [hsplit] at h
    split at h
    · cases h
    rename_i hforbidden
    simp only [Bool.or_eq_true, not_or, Bool.not_eq_true, List.any_eq_false] at hforbidden
    obtain ⟨hfirst, hrest⟩ := hforbidden
    refine ⟨by simpa using hne, by simpa using hhead, by simpa using hlast, by simpa using hback,
      hcolon, ?_, ?_⟩
    · rw [hsplit, List.forall_mem_cons]
      exact ⟨plain_of_componentIsForbidden hfirst,
        fun name hname => plain_of_componentIsForbidden (hrest name hname)⟩
    · rw [hsplit]
      simp only [componentIsForbidden, Bool.or_eq_false_iff, Bool.true_and,
        decide_eq_false_iff_not] at hfirst
      simpa using hfirst.2

theorem split_head {text : List Char} (h : ∀ part ∈ split '/' text, part ≠ []) :
    text.head? ≠ some '/' := by
  cases text with
  | nil => simp
  | cons c rest =>
    intro hc
    simp only [List.head?_cons, Option.some.injEq] at hc
    exact h [] (by simp [split, hc]) rfl

theorem components_no_drive {text : List Char} (h : ∀ c rest, text ≠ c :: ':' :: rest) :
    components text =
      (if text.head?.any isSeparator then [.rootDir] else []) ++
        (if (split '/' (text.map fun c => if isSeparator c then '/' else c)).head? = some ['.'] then
          [.curDir] else []) ++
        (split '/' (text.map fun c => if isSeparator c then '/' else c)).filterMap component := by
  have hdrive : (match text with
      | letter :: ':' :: rest => if letter.isAlpha then ([Component.drive], rest) else ([], text)
      | _ => ([], text)) = ([], text) := by
    split
    · exact absurd rfl (h _ _)
    · rfl
  unfold components
  rw [hdrive]
  simp only [List.nil_append]

theorem components_no_root {text : List Char} (hdrive : ∀ c rest, text ≠ c :: ':' :: rest)
    (hback : '\\' ∉ text) (hhead : text.head? ≠ some '/')
    (hdot : (split '/' text).head? ≠ some ['.']) :
    components text = (split '/' text).filterMap component := by
  have hmap : text.map (fun c => if isSeparator c then '/' else c) = text := by
    conv => rhs; rw [← List.map_id text]
    apply List.map_congr_left
    intro c hc
    by_cases hslash : c = '/'
    · simp [hslash]
    · have hne : c ≠ '\\' := fun heq => hback (heq ▸ hc)
      simp [isSeparator, hslash, hne]
  have hroot : text.head?.any isSeparator = false := by
    cases text with
    | nil => rfl
    | cons c rest =>
      simp only [List.head?_cons, ne_eq, Option.some.injEq] at hhead
      have hne : c ≠ '\\' := fun heq => hback (by simp [heq])
      simp [isSeparator, hhead, hne]
  rw [components_no_drive hdrive, hmap]
  simp [hroot, hdot]

/-- Where nothing stands for a drive, a root or another directory, the components are the parts. -/
theorem components_of_parts {text : List Char} (hdrive : ∀ c rest, text ≠ c :: ':' :: rest)
    (hback : '\\' ∉ text)
    (hparts : ∀ part ∈ split '/' text, part ≠ [] ∧ part ≠ ['.'] ∧ part ≠ ['.', '.']) :
    components text = (split '/' text).map .normal := by
  have hhead := split_head fun part hpart => (hparts part hpart).1
  have hdot : (split '/' text).head? ≠ some ['.'] := by
    intro h
    exact (hparts ['.'] (List.mem_of_mem_head? h)).2.1 rfl
  rw [components_no_root hdrive hback hhead hdot, ← List.filterMap_eq_map]
  apply List.filterMap_congr
  intro part hpart
  obtain ⟨hne, hdot, hdots⟩ := hparts part hpart
  simp [component, hne, hdot, hdots]

theorem resolve_normal (directory : TargetPath) (names : List Name) :
    resolve directory (names.map .normal) = directory ++ names := by
  induction names generalizing directory with
  | nil => simp [resolve]
  | cons name names ih => simp [resolve, ih]

theorem normalComponents_normal {names : List Name}
    (h : ∀ name ∈ names, name ≠ [] ∧ name ≠ ['.'] ∧ name ≠ ['.', '.']) :
    normalComponents (names.map .normal) = .ok names := by
  induction names with
  | nil => rfl
  | cons name names ih =>
    rw [List.forall_mem_cons] at h
    simp [normalComponents, h.1, ih h.2]

section Accepted

variable {text : List Char}

theorem Accepted.parts (h : Accepted text) :
    ∀ part ∈ split '/' text, part ≠ [] ∧ part ≠ ['.'] ∧ part ≠ ['.', '.'] :=
  fun part hpart => ⟨(h.plain part hpart).ne_nil, (h.plain part hpart).ne_dot,
    (h.plain part hpart).ne_dots⟩

theorem Accepted.components (h : Accepted text) :
    components text = (split '/' text).map .normal :=
  components_of_parts (fun c rest heq => h.colon (by simp [heq])) h.backslash h.parts

/-- The other separator makes no difference. -/
theorem Accepted.components_backslash (h : Accepted text) :
    Path.components (text.map fun c => if c = '/' then '\\' else c) = Path.components text := by
  have hdrive : ∀ c rest, text ≠ c :: ':' :: rest := fun c rest heq => h.colon (by simp [heq])
  have hdrive' : ∀ c rest, text.map (fun c => if c = '/' then '\\' else c) ≠ c :: ':' :: rest := by
    intro c rest heq
    have hmem : ':' ∈ text.map (fun c => if c = '/' then '\\' else c) := by simp [heq]
    obtain ⟨d, hd, hcolon⟩ := List.mem_map.1 hmem
    split at hcolon
    · cases hcolon
    · exact h.colon (hcolon ▸ hd)
  have hsame : ∀ c, isSeparator (if c = '/' then '\\' else c) = isSeparator c := by
    intro c
    by_cases hc : c = '/' <;> simp [hc, isSeparator]
  have hmap : (text.map fun c => if c = '/' then '\\' else c).map
      (fun c => if isSeparator c then '/' else c) =
        text.map fun c => if isSeparator c then '/' else c := by
    rw [List.map_map]
    apply List.map_congr_left
    intro c _
    by_cases hc : c = '/' <;> simp [hc, isSeparator]
  have hhead : (text.map fun c => if c = '/' then '\\' else c).head?.any isSeparator =
      text.head?.any isSeparator := by
    cases text with
    | nil => rfl
    | cons c rest => simp [hsame]
  rw [components_no_drive hdrive, components_no_drive hdrive', hmap, hhead]

end Accepted

theorem relativeComponents_accepted {path : String} (h : Accepted path.toList) :
    Windows.relativeComponents path = .ok (split '/' path.toList) := by
  simp only [Windows.relativeComponents]
  rw [h.components, normalComponents_normal h.parts]
  simp [h.ne_nil, h.backslash, h.head, h.last]

/-! ### Storage paths -/

theorem jobByte_char : ∀ n < 128, jobByte (UInt8.ofNat n) = true →
    Char.ofNat n ≠ '/' ∧ Char.ofNat n ≠ '\\' ∧ Char.ofNat n ≠ ':' ∧
      (Char.ofNat n).toLower = Char.ofNat n := by decide +kernel

theorem jobByte_continuation : ∀ n < 64, jobByte (UInt8.ofNat (n + 128)) = false := by
  decide +kernel

theorem utf8EncodeChar_continuation {c : Char} (h : 128 ≤ c.toNat) :
    ∃ byte ∈ String.utf8EncodeChar c, jobByte byte = false := by
  have hval : ¬ c.val.toNat ≤ 127 := by
    have : 128 ≤ c.val.toNat := h
    omega
  refine ⟨UInt8.ofNat (c.val.toNat % 64 + 128), ?_, jobByte_continuation _ (by omega)⟩
  unfold String.utf8EncodeChar
  dsimp only
  rw [if_neg hval]
  split
  · simp
  split <;> simp

/-- The characters of a job ID. -/
theorem jobId_chars {id : String} (h : validInternalJobId id = true) :
    id.toList ≠ [] ∧ ∀ c ∈ id.toList, c ≠ '/' ∧ c ≠ '\\' ∧ c ≠ ':' ∧ c.toLower = c := by
  simp only [validInternalJobId, Bool.and_eq_true] at h
  obtain ⟨⟨hne, -⟩, hbytes⟩ := h
  refine ⟨?_, ?_⟩
  · rintro hnil
    simp [hnil, utf8] at hne
  · intro c hc
    have hall : ∀ byte ∈ String.utf8EncodeChar c, jobByte byte = true := by
      intro byte hbyte
      exact List.all_eq_true.1 hbytes byte (List.mem_flatMap.2 ⟨c, hc, hbyte⟩)
    have hlt : c.toNat < 128 := by
      by_contra hlt
      obtain ⟨byte, hbyte, hfalse⟩ := @utf8EncodeChar_continuation c (by omega)
      rw [hall byte hbyte] at hfalse
      cases hfalse
    have hsingle : String.utf8EncodeChar c = [UInt8.ofNat c.toNat] := by
      have hval : c.val.toNat ≤ 127 := by
        have : c.val.toNat < 128 := hlt
        omega
      unfold String.utf8EncodeChar
      dsimp only
      rw [if_pos hval]
      rfl
    have hbyte : jobByte (UInt8.ofNat c.toNat) = true := hall _ (by simp [hsingle])
    simpa using jobByte_char c.toNat hlt hbyte

theorem indexText_toList (index : UInt32) :
    (toString index.toNat).toList = decimal index.toNat := Nat.toList_repr

theorem jobsText : ".7launcher-maintenance/jobs/".toList =
    reservedRootDirectory ++ '/' :: ("jobs".toList ++ ['/']) := by decide +kernel

theorem slashText : "/".toList = ['/'] := by decide

theorem storageText (id leaf index : String) :
    (".7launcher-maintenance/jobs/" ++ id ++ "/" ++ leaf ++ "/" ++ index).toList =
      reservedRootDirectory ++ '/' :: ("jobs".toList ++
        '/' :: (id.toList ++ '/' :: (leaf.toList ++ '/' :: index.toList))) := by
  simp only [String.toList_append]
  rw [jobsText, slashText]
  generalize reservedRootDirectory = reserved
  generalize "jobs".toList = jobs
  simp only [List.append_assoc, List.cons_append, List.nil_append]

theorem storageRelativePath_toList (id : String) (leaf : Leaf) (index : UInt32) :
    (storageRelativePath id leaf index).toList = reservedRootDirectory ++ '/' :: ("jobs".toList ++
      '/' :: (id.toList ++ '/' :: (leaf.text.toList ++ '/' :: decimal index.toNat))) := by
  have h := storageText id leaf.text (toString index.toNat)
  rw [indexText_toList] at h
  exact h

theorem normalComponents_cons {name : Name} {rest : List Component} {names : List Name}
    (h : normalComponents (.normal name :: rest) = .ok names) :
    ∃ names', names = name :: names' ∧ normalComponents rest = .ok names' := by
  unfold normalComponents at h
  split at h
  · cases h
  obtain ⟨names', hrest, h⟩ := Result.bind_eq_ok.1 h
  cases h
  exact ⟨names', rfl, hrest⟩

theorem reserved_facts : '/' ∉ reservedRootDirectory ∧ '\\' ∉ reservedRootDirectory ∧
    reservedRootDirectory.head? = some '.' ∧ reservedRootDirectory ≠ ['.'] ∧
    component reservedRootDirectory = some (.normal reservedRootDirectory) := by decide +kernel

theorem reserved_no_drive (rest : List Char) (c : Char) (tail : List Char) :
    reservedRootDirectory ++ rest ≠ c :: ':' :: tail := by
  have hname : reservedRootDirectory = '.' :: '7' :: "launcher-maintenance".toList := by
    decide +kernel
  intro h
  rw [hname] at h
  exact absurd (List.cons.inj (List.cons.inj h).2).1 (by decide)

/-- What begins with the reserved directory stays in it. -/
theorem components_reserved {rest : List Char} (h : '\\' ∉ rest) :
    components (reservedRootDirectory ++ '/' :: rest) =
      .normal reservedRootDirectory :: (split '/' rest).filterMap component := by
  obtain ⟨hslash, hback, hhead, hdot, hcomponent⟩ := reserved_facts
  have hsplit := split_append hslash rest
  have hback' : '\\' ∉ reservedRootDirectory ++ '/' :: rest := by simp [hback, h]
  have hhead' : (reservedRootDirectory ++ '/' :: rest).head? ≠ some '/' := by simp [hhead]
  have hdot' : (split '/' (reservedRootDirectory ++ '/' :: rest)).head? ≠ some ['.'] := by
    simp [hsplit, hdot]
  rw [components_no_root (reserved_no_drive _) hback' hhead' hdot', hsplit,
    List.filterMap_cons_some hcomponent]

theorem leaf_chars (leaf : Leaf) : '/' ∉ leaf.text.toList ∧
    component leaf.text.toList = some (.normal leaf.text.toList) := by
  cases leaf <;> decide

theorem notMem_decimal {c : Char} (h : c.isDigit = false) (n : Nat) : c ∉ decimal n := by
  intro hmem
  rw [decimal_isDigit c hmem] at h
  cases h

theorem component_decimal (n : Nat) : component (decimal n) = some (.normal (decimal n)) := by
  have hdot := @notMem_decimal '.' rfl n
  have hne : decimal n ≠ [] := Nat.toDigits_ne_nil
  have hone : decimal n ≠ ['.'] := fun h => hdot (by simp [h])
  have htwo : decimal n ≠ ['.', '.'] := fun h => hdot (by simp [h])
  simp [component, hne, hone, htwo]

theorem split_append_split {α : Type} [DecidableEq α] (separator : α) (xs ys : List α) :
    split separator (xs ++ separator :: ys) = split separator xs ++ split separator ys := by
  induction xs with
  | nil => simp [split]
  | cons x xs ih =>
    simp only [List.cons_append, split_cons, ih]
    split
    · rfl
    · cases hxs : split separator xs with
      | nil => exact absurd hxs (split_ne_nil separator xs)
      | cons part parts => rfl

/-- The components that stand for the job ID on its storage paths. -/
def jobComponents (id : String) : List Component := (split '/' id.toList).filterMap component

theorem relativeComponents_storage {id : String} {leaf : Leaf} {index : UInt32} {names : List Name}
    (h : Windows.relativeComponents (storageRelativePath id leaf index) = .ok names) :
    normalComponents (.normal reservedRootDirectory :: .normal "jobs".toList :: (jobComponents id ++
      [.normal leaf.text.toList, .normal (decimal index.toNat)])) = .ok names := by
  unfold Windows.relativeComponents at h
  dsimp only at h
  split at h
  · cases h
  rename_i hnormalized
  have hback : '\\' ∉ (storageRelativePath id leaf index).toList := by
    simp only [Bool.or_eq_true, not_or] at hnormalized
    simpa using hnormalized.1.1.2
  rw [storageRelativePath_toList] at h hback
  simp only [List.mem_append, List.mem_cons, not_or] at hback
  obtain ⟨hleaf, hleafComponent⟩ := leaf_chars leaf
  have hjobs : '/' ∉ "jobs".toList ∧
      component "jobs".toList = some (.normal "jobs".toList) := by decide +kernel
  have hindex := @notMem_decimal '/' rfl index.toNat
  rw [components_reserved (by simpa using hback.2.2), split_append_split, split_append_split,
    split_append_split, split_of_not_mem hjobs.1, split_of_not_mem hleaf, split_of_not_mem hindex,
    List.filterMap_append, List.filterMap_append, List.filterMap_append,
    List.filterMap_cons_some hjobs.2, List.filterMap_cons_some hleafComponent,
    List.filterMap_cons_some (component_decimal _)] at h
  exact h

theorem storage_head {id : String} {leaf : Leaf} {index : UInt32} {names : List Name}
    (h : Windows.relativeComponents (storageRelativePath id leaf index) = .ok names) :
    ∃ rest, names = reservedRootDirectory :: rest := by
  obtain ⟨rest, hrest, -⟩ := normalComponents_cons (relativeComponents_storage h)
  exact ⟨rest, hrest⟩

/-- The names that stand for the job ID: one dot is no name of its own. -/
def jobNames (id : String) : List Name := if id.toList = ['.'] then [] else [id.toList]

theorem storage_names {id : String} {leaf : Leaf} {index : UInt32} {names : List Name}
    (hid : validInternalJobId id = true)
    (h : Windows.relativeComponents (storageRelativePath id leaf index) = .ok names) :
    id.toList ≠ ['.', '.'] ∧ names = reservedRootDirectory :: "jobs".toList ::
      (jobNames id ++ [leaf.text.toList, decimal index.toNat]) := by
  obtain ⟨hne, hchars⟩ := jobId_chars hid
  have hslash : '/' ∉ id.toList := fun hmem => (hchars '/' hmem).1 rfl
  obtain ⟨_, rfl, hjobs⟩ := normalComponents_cons (relativeComponents_storage h)
  obtain ⟨rest, rfl, hrest⟩ := normalComponents_cons hjobs
  have hend : ∀ {names}, normalComponents [.normal leaf.text.toList,
      .normal (decimal index.toNat)] = .ok names →
        names = [leaf.text.toList, decimal index.toNat] := by
    intro names h
    obtain ⟨_, rfl, hindex⟩ := normalComponents_cons h
    obtain ⟨_, rfl, hempty⟩ := normalComponents_cons hindex
    cases hempty
    rfl
  rw [jobComponents, split_of_not_mem hslash] at hrest
  by_cases hdot : id.toList = ['.']
  · have hcomponent : component id.toList = none := by simp [component, hdot]
    rw [List.filterMap_cons_none hcomponent] at hrest
    simp [jobNames, hdot, hend hrest]
  · by_cases hdots : id.toList = ['.', '.']
    · have hcomponent : component id.toList = some .parentDir := by simp [component, hdots]
      rw [List.filterMap_cons_some hcomponent] at hrest
      cases hrest
    · have hcomponent : component id.toList = some (.normal id.toList) := by
        simp [component, hne, hdot, hdots]
      rw [List.filterMap_cons_some hcomponent] at hrest
      obtain ⟨_, rfl, hleaf⟩ := normalComponents_cons hrest
      simp [jobNames, hdot, hdots, hend hleaf]

/-- `transaction.rs` builds the same storage paths as `windows.rs`. -/
theorem storagePath_eq {root : TargetPath} {id : String} {leaf : Leaf} {index : UInt32}
    {names : List Name} (hid : validInternalJobId id = true)
    (h : Windows.relativeComponents (storageRelativePath id leaf index) = .ok names) :
    storagePath root id leaf index = root ++ names := by
  obtain ⟨hdots, rfl⟩ := storage_names hid h
  obtain ⟨hne, hchars⟩ := jobId_chars hid
  have hslash : '/' ∉ id.toList := fun hmem => (hchars '/' hmem).1 rfl
  have hback : '\\' ∉ id.toList := fun hmem => (hchars '\\' hmem).2.1 rfl
  have hdrive : ∀ c rest, id.toList ≠ c :: ':' :: rest :=
    fun c rest heq => (hchars ':' (by simp [heq])).2.2.1 rfl
  unfold storagePath reservedJobDirectory jobNames
  by_cases hdot : id.toList = ['.']
  · have hcomponents : components ['.'] = [.curDir] := by decide
    simp [hdot, hcomponents, resolve]
  · have hcomponents : components id.toList = [id.toList].map .normal := by
      have hsplit := split_of_not_mem hslash
      rw [components_of_parts hdrive hback (by simp [hsplit, hne, hdot, hdots]), hsplit]
    rw [hcomponents, resolve_normal]
    simp [hdot]

/-! ### Confinement -/

/-- The names as a volume compares them, for the letters of ASCII. -/
def foldCase (names : List Name) : List Name := names.map fun name => name.map Char.toLower

/-- Neither path is the other one or leads to it. -/
def Separate (names names' : List Name) : Prop :=
  ¬ foldCase names <+: foldCase names' ∧ ¬ foldCase names' <+: foldCase names

theorem foldCase_jobNames {id : String} (h : validInternalJobId id = true) :
    foldCase (jobNames id) = jobNames id := by
  obtain ⟨-, hchars⟩ := jobId_chars h
  have hid : id.toList.map Char.toLower = id.toList := by
    conv => rhs; rw [← List.map_id id.toList]
    exact List.map_congr_left fun c hc => (hchars c hc).2.2.2
  unfold jobNames
  split
  · rfl
  · simp [foldCase, hid]

theorem toLower_digits : ∀ n < 58, 48 ≤ n → (Char.ofNat n).toLower = Char.ofNat n := by decide

theorem toLower_digit {c : Char} (h : c.isDigit = true) : c.toLower = c := by
  simp only [Char.isDigit, Bool.and_eq_true, decide_eq_true_eq] at h
  have hlow : 48 ≤ c.toNat := h.1
  have hhigh : c.toNat ≤ 57 := h.2
  simpa using toLower_digits c.toNat (by omega) hlow

theorem foldCase_leaf (leaf : Leaf) (index : UInt32) :
    foldCase [leaf.text.toList, decimal index.toNat] = [leaf.text.toList, decimal index.toNat] := by
  have hindex : (decimal index.toNat).map Char.toLower = decimal index.toNat := by
    conv => rhs; rw [← List.map_id (decimal index.toNat)]
    exact List.map_congr_left fun c hc => toLower_digit (decimal_isDigit c hc)
  have hleaf : leaf.text.toList.map Char.toLower = leaf.text.toList := by
    cases leaf <;> decide
  simp [foldCase, hindex, hleaf]

theorem decimal_ne_leaf (n : Nat) (leaf : Leaf) : decimal n ≠ leaf.text.toList := by
  intro h
  obtain ⟨c, cs, htext, hc⟩ := decimal_head n
  rw [htext] at h
  cases leaf
  · obtain ⟨rfl, -⟩ := List.cons.inj (h.trans (by decide : Leaf.prepared.text.toList =
      'p' :: "repared".toList))
    exact absurd hc (by decide)
  · obtain ⟨rfl, -⟩ := List.cons.inj (h.trans (by decide : Leaf.backup.text.toList =
      'b' :: "ackup".toList))
    exact absurd hc (by decide)

theorem leaf_injective {leaf leaf' : Leaf} (h : leaf.text.toList = leaf'.text.toList) :
    leaf = leaf' := by
  cases leaf <;> cases leaf' <;> first | rfl | exact absurd h (by decide)

theorem index_eq_of_decimal {index index' : UInt32}
    (h : decimal index.toNat = decimal index'.toNat) : index = index' := by
  have hempty : Follow [] := nofun
  exact UInt32.toNat_inj.1 (decimal_cancel hempty hempty (congrArg (· ++ []) h)).1

/-- Storage paths of which one leads to the other are the same. -/
theorem storage_eq_of_initial {id id' : String} {leaf leaf' : Leaf} {index index' : UInt32}
    (h : jobNames id ++ [leaf.text.toList, decimal index.toNat] <+:
      jobNames id' ++ [leaf'.text.toList, decimal index'.toNat]) :
    (id, leaf, index) = (id', leaf', index') := by
  have hsame : ∀ {a b : List Name}, a <+: b → a.length = b.length → a = b :=
    fun h hlength => h.eq_of_length hlength
  unfold jobNames at h
  by_cases hid : id.toList = ['.'] <;> by_cases hid' : id'.toList = ['.'] <;>
    simp only [hid, hid', if_true, if_false, List.nil_append, List.cons_append] at h
  · have heq := hsame h rfl
    simp only [List.cons.injEq, and_true] at heq
    have hids : id = id' := String.toList_inj.1 (hid.trans hid'.symm)
    rw [hids, leaf_injective heq.1, index_eq_of_decimal heq.2]
  · obtain ⟨rest, hrest⟩ := h
    simp only [List.cons_append, List.nil_append, List.cons.injEq] at hrest
    exact absurd hrest.2.1 (decimal_ne_leaf _ _)
  · exact absurd h.length_le (by simp)
  · have heq := hsame h rfl
    simp only [List.cons.injEq, and_true] at heq
    rw [String.toList_inj.1 heq.1, leaf_injective heq.2.1, index_eq_of_decimal heq.2.2]

theorem storage_separate {id id' : String} {leaf leaf' : Leaf} {index index' : UInt32}
    {names names' : List Name} (hid : validInternalJobId id = true)
    (hid' : validInternalJobId id' = true)
    (h : Windows.relativeComponents (storageRelativePath id leaf index) = .ok names)
    (h' : Windows.relativeComponents (storageRelativePath id' leaf' index') = .ok names')
    (hne : (id, leaf, index) ≠ (id', leaf', index')) : Separate names names' := by
  obtain ⟨-, rfl⟩ := storage_names hid h
  obtain ⟨-, rfl⟩ := storage_names hid' h'
  have hfold : ∀ (id : String) (leaf : Leaf) (index : UInt32), validInternalJobId id = true →
      foldCase (reservedRootDirectory :: "jobs".toList ::
        (jobNames id ++ [leaf.text.toList, decimal index.toNat])) =
        [reservedRootDirectory.map Char.toLower, "jobs".toList.map Char.toLower] ++
          (jobNames id ++ [leaf.text.toList, decimal index.toNat]) := by
    intro id leaf index hid
    have hnames := foldCase_jobNames hid
    have hleaf := foldCase_leaf leaf index
    unfold foldCase at hnames hleaf ⊢
    rw [List.map_cons, List.map_cons, List.map_append, hnames, hleaf]
    rfl
  unfold Separate
  rw [hfold id leaf index hid, hfold id' leaf' index' hid', List.prefix_append_right_inj,
    List.prefix_append_right_inj]
  exact ⟨fun hinitial => hne (storage_eq_of_initial hinitial),
    fun hinitial => hne (storage_eq_of_initial hinitial).symm⟩

/-- The first name of an accepted path is not the reserved directory. -/
theorem accepted_separate {path id : String} {leaf : Leaf} {index : UInt32} {names : List Name}
    (h : Accepted path.toList)
    (hnames : Windows.relativeComponents (storageRelativePath id leaf index) = .ok names) :
    Separate (split '/' path.toList) names := by
  obtain ⟨rest, rfl⟩ := storage_head hnames
  have hreserved : reservedRootDirectory.map Char.toLower = reservedRootDirectory := by
    decide +kernel
  cases hsplit : split '/' path.toList with
  | nil => exact absurd hsplit (split_ne_nil _ _)
  | cons first others =>
    have hfirst := h.reserved first (by simp [hsplit])
    simp only [Separate, foldCase, List.map_cons, hreserved, List.cons_prefix_cons, not_and]
    exact ⟨fun heq => absurd heq hfirst, fun heq => absurd heq.symm hfirst⟩

theorem checkedDescendant_accepted {metadata : TargetPath → Metadata} {root target : TargetPath}
    {path : String} {code : ErrorCode}
    (h : checkedDescendant metadata root path code = .ok target) :
    target = root ++ split '/' path.toList := by
  obtain ⟨_, haccepted, h⟩ := Result.bind_eq_ok.1 h
  obtain ⟨_, -, h⟩ := Result.bind_eq_ok.1 h
  have ha := accepted_of_validateRelativePath haccepted
  cases h
  rw [ha.components_backslash, ha.components, resolve_normal]

end Se7en
