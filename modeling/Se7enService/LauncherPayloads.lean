import Se7enService.RelativePath
set_option autoImplicit false

/-! Which paths a launcher update may carry, and which of its files need an Authenticode signer. -/

namespace Se7en
open Path

/-- `.extension().is_some_and(|ext| ext.eq_ignore_ascii_case(..))`. -/
def hasExtension (text : List Char) (ext : String) : Bool :=
  (extension text).any fun found => eqIgnoreAsciiCase (String.ofList found) ext

namespace Direct

def maxDirectFiles : Nat := 64
def maxDirectFileBytes : Nat := 128 * 1024 * 1024
def maxDirectTotalBytes : Nat := 256 * 1024 * 1024

def pathAllowed (path launcher : String) : Bool :=
  let text := path.toList
  if (validateRelativePath path).toOption.isNone || byteLength path > 240
      || !(utf8 text).all (fun byte => isAsciiAlphanumeric byte || [95, 45, 46, 47].contains byte) then
    false
  else
    match split '/' text with
    | [_] => path = launcher || hasExtension text "dll"
    | first :: second :: _ :: _ =>
      eqIgnoreAsciiCase (String.ofList first) "7launcher"
        && eqIgnoreAsciiCase (String.ofList second) "resources" && !hasExtension text "exe"
    | _ => false

/-- The loop of `validate_plan`. -/
def validatePlanFiles (launcher : String) (total : UInt64) : List FileEntry → Result Unit
  | [] => .ok ()
  | entry :: files => do
    if !pathAllowed entry.path launcher then
      throw (.new .fileSetPath "launcher update path is not allowed")
    match checkedAdd total entry.size with
    | none => throw (.new .fileSetLimit "launcher update size overflowed")
    | some total =>
      if entry.size = 0 || entry.size.toNat > maxDirectFileBytes
          || total.toNat > maxDirectTotalBytes then
        throw (.new .fileSetLimit "launcher update size is outside its bound")
      validatePlanFiles launcher total files

def validatePlan (fileSet : FileSet) (launcher : String) : Result Unit :=
  let files := fileSet.files
  if files.isEmpty || files.length > maxDirectFiles || !fileSet.removeFiles.isEmpty
      || (files.filter fun entry => entry.path = launcher).length ≠ 1 then
    .error (.new .fileSetLimit "launcher update file count is invalid")
  else validatePlanFiles launcher 0 files

end Direct

namespace Windows

def signerThumbprintAllowed (sha1 sha256 : String) (allowed : List String) : Bool :=
  allowed.any fun thumbprint => thumbprint = sha1 || thumbprint = sha256

/-- `thumbprints` is what WinVerifyTrust tells of the signer of an opened file. -/
def verifyAuthenticodeSigner (thumbprints : Bytes → Result (String × String)) (file : Bytes)
    (allowedThumbprints : List String) : Result Unit := do
  if allowedThumbprints.isEmpty then
    throw (.new .trustSignature "launcher executable signer allowlist is empty")
  let (sha1, sha256) ← thumbprints file
  if signerThumbprintAllowed sha1 sha256 allowedThumbprints then pure ()
  else throw (.new .trustSignature "executable signer is not in the signed allowlist")

/-- `files` are the staging files that were opened as the caller. -/
def verifyLauncherPayloads (thumbprints : Bytes → Result (String × String))
    (files : String → Option Bytes) (allowedThumbprints : List String) :
    List FileEntry → Result Unit
  | [] => .ok ()
  | entry :: entries => do
    if hasExtension entry.path.toList "exe" then
      match files entry.path with
      | none =>
        throw (.new .stagingInvalid "launcher executable was not pre-opened as the caller")
      | some file => verifyAuthenticodeSigner thumbprints file allowedThumbprints
    verifyLauncherPayloads thumbprints files allowedThumbprints entries

end Windows

/-! ### Extensions -/

def lower (text : List Char) : List Char := text.map Char.toLower

theorem lower_append (a b : List Char) : lower (a ++ b) = lower a ++ lower b := List.map_append

/-- The name ends in a dot and these letters, in any case, and does not consist of them. -/
theorem rsplitOnce_suffix {name ext : List Char} (hext : '.' ∉ ext) :
    (∃ stem found, Windows.rsplitOnce '.' name = some (stem, found) ∧ stem ≠ [] ∧
        lower found = ext) ↔
      '.' :: ext <:+ lower name ∧ lower name ≠ '.' :: ext := by
  constructor
  · rintro ⟨stem, found, hsplit, hstem, rfl⟩
    obtain ⟨rfl, -⟩ := Windows.rsplitOnce_eq_some hsplit
    rw [lower_append]
    refine ⟨⟨lower stem, rfl⟩, fun h => hstem ?_⟩
    have hlength := congrArg List.length h
    simp [lower] at hlength
    exact hlength
  · rintro ⟨⟨front, hfront⟩, hne⟩
    obtain ⟨stem, last, rfl, hstem, hlast⟩ := List.map_eq_append_iff.1 hfront.symm
    obtain ⟨dot, found, rfl, hdot, rfl⟩ := List.map_eq_cons_iff.1 hlast
    obtain rfl := toLower_eq hdot (by decide)
    have hmem : '.' ∉ found := fun hmem => hext (List.mem_map.2 ⟨'.', hmem, rfl⟩)
    refine ⟨stem, found, Windows.rsplitOnce_append hmem, ?_, rfl⟩
    rintro rfl
    exact hne rfl

/-- What stands before the last name of a path. -/
theorem split_getLast {text : List Char} {name : Name} (h : (split '/' text).getLast? = some name) :
    '/' ∉ name ∧ (text = name ∨ ∃ front, text = front ++ '/' :: name) := by
  by_cases hslash : '/' ∈ text
  · obtain ⟨last, front, hreverse, hlast⟩ :=
      List.eq_append_cons_of_mem (List.mem_reverse.2 hslash)
    have htext : text = front.reverse ++ '/' :: last.reverse := by
      simpa using congrArg List.reverse hreverse
    have hmem : '/' ∉ last.reverse := by simpa using hlast
    rw [htext, split_append_split, split_of_not_mem hmem, List.getLast?_append] at h
    simp only [List.getLast?_singleton, Option.some_or, Option.some.injEq] at h
    subst h
    exact ⟨hmem, .inr ⟨front.reverse, htext⟩⟩
  · rw [split_of_not_mem hslash] at h
    simp only [List.getLast?_singleton, Option.some.injEq] at h
    subst h
    exact ⟨hslash, .inl rfl⟩

theorem fileName_accepted {text : List Char} (h : Accepted text) :
    fileName text = (split '/' text).getLast? := by
  unfold fileName
  rw [h.components, List.getLast?_map]
  cases (split '/' text).getLast? <;> rfl

/-- An ending without a separator is an ending of the last name. -/
theorem suffix_iff_of_notMem {α : Type} {separator : α} {ext front name : List α}
    (hext : separator ∉ ext) : ext <:+ front ++ separator :: name ↔ ext <:+ name := by
  constructor
  · intro h
    rcases List.suffix_or_suffix_of_suffix h (List.suffix_append front (separator :: name)) with
      hshort | hlong
    · obtain ⟨before, hbefore⟩ := hshort
      cases before with
      | nil =>
        obtain rfl : ext = separator :: name := hbefore
        simp at hext
      | cons c before => exact ⟨before, (List.cons.inj hbefore).2⟩
    · exact absurd (hlong.mem List.mem_cons_self) hext
  · exact fun h => h.trans ⟨front ++ [separator], by simp⟩

/-- Both filters miss a name that is nothing but an extension. -/
theorem hasExtension_iff {text : List Char} {ext : String} {name : Name} (h : Accepted text)
    (hname : (split '/' text).getLast? = some name) (hdot : '.' ∉ lower ext.toList)
    (hslash : '/' ∉ lower ext.toList) :
    hasExtension text ext = true ↔
      '.' :: lower ext.toList <:+ lower text ∧ lower name ≠ '.' :: lower ext.toList := by
  have hsuffix : '.' :: lower ext.toList <:+ lower text ↔ '.' :: lower ext.toList <:+ lower name := by
    obtain ⟨-, rfl | ⟨front, rfl⟩⟩ := split_getLast hname
    · rfl
    · rw [lower_append]
      exact suffix_iff_of_notMem (by simpa using hslash)
  rw [hsuffix, ← rsplitOnce_suffix hdot]
  unfold hasExtension extension
  rw [fileName_accepted h, hname]
  cases hsplit : Windows.rsplitOnce '.' name with
  | none => simp [hsplit]
  | some parts =>
    obtain ⟨stem, found⟩ := parts
    by_cases hstem : stem = []
    · simp [hsplit, hstem]
    · simp [hsplit, hstem, eqIgnoreAsciiCase, lower]
      exact Iff.rfl

/-! ### Executables -/

/-- The path ends in `.exe`, in any letter case. -/
def EndsInExe (path : String) : Prop := ".exe".toList <:+ lower path.toList

instance (path : String) : Decidable (EndsInExe path) := inferInstanceAs (Decidable (_ <:+ _))

/-- The name of the file is nothing but `.exe`, in any letter case. -/
def NamedDotExe (path : String) : Prop :=
  (split '/' path.toList).getLast?.map lower = some ".exe".toList

def DllName (path : String) : Prop := '/' ∉ path.toList ∧ ".dll".toList <:+ lower path.toList

/-- The path lies below `7launcher/resources/`, in any letter case. -/
def BelowResources (path : String) : Prop :=
  ["7launcher".toList, "resources".toList] <+: (split '/' path.toList).map lower ∧
    3 ≤ (split '/' path.toList).length

theorem hasExtension_exe_iff {path : String} (h : Accepted path.toList) :
    hasExtension path.toList "exe" = true ↔ EndsInExe path ∧ ¬ NamedDotExe path := by
  obtain ⟨name, hname⟩ := Option.ne_none_iff_exists'.1 (by simp [split_ne_nil] :
    (split '/' path.toList).getLast? ≠ none)
  rw [hasExtension_iff h hname (by decide) (by decide)]
  unfold EndsInExe NamedDotExe
  rw [hname]
  simp only [Option.map_some, Option.some.injEq]
  exact Iff.rfl

theorem Direct.pathAllowed_accepted {path launcher : String}
    (h : Direct.pathAllowed path launcher = true) : Accepted path.toList := by
  unfold Direct.pathAllowed at h
  dsimp only at h
  split at h
  · cases h
  rename_i hvalid
  cases hpath : validateRelativePath path with
  | error e => simp [hpath, Except.toOption] at hvalid
  | ok _ => exact accepted_of_validateRelativePath hpath

/-- What `path_allowed` accepts besides the launcher. -/
theorem Direct.pathAllowed_cases {path launcher : String}
    (h : Direct.pathAllowed path launcher = true) (hne : path ≠ launcher) :
    ((∃ name, split '/' path.toList = [name]) ∧ hasExtension path.toList "dll" = true) ∨
      BelowResources path ∧ hasExtension path.toList "exe" = false := by
  unfold Direct.pathAllowed at h
  dsimp only at h
  split at h
  · cases h
  split at h
  · rename_i name hsplit
    simp only [hne, decide_false, Bool.false_or] at h
    exact .inl ⟨⟨name, hsplit⟩, h⟩
  · rename_i first second third rest hsplit
    simp only [Bool.and_eq_true, Bool.not_eq_true', eqIgnoreAsciiCase, decide_eq_true_eq,
      String.toList_ofList] at h
    obtain ⟨⟨hfirst, hsecond⟩, hexe⟩ := h
    refine .inr ⟨⟨?_, by simp [hsplit]⟩, hexe⟩
    have hlaunch : "7launcher".toList.map asciiLower = "7launcher".toList := by decide
    have hresources : "resources".toList.map asciiLower = "resources".toList := by decide
    rw [hlaunch] at hfirst
    rw [hresources] at hsecond
    exact ⟨(third :: rest).map lower, by rw [hsplit, ← hfirst, ← hsecond]; rfl⟩
  · cases h

theorem Direct.validatePlanFiles_allowed {launcher : String} {total : UInt64}
    {files : List FileEntry} (h : Direct.validatePlanFiles launcher total files = .ok ()) :
    ∀ entry ∈ files, Direct.pathAllowed entry.path launcher = true := by
  induction files generalizing total with
  | nil => simp
  | cons entry files ih =>
    rw [Direct.validatePlanFiles] at h
    rw [List.forall_mem_cons]
    cases hallowed : Direct.pathAllowed entry.path launcher with
    | false => simp [hallowed] at h
    | true =>
      cases hadd : checkedAdd total entry.size with
      | none => simp [hallowed, hadd] at h
      | some next =>
        simp only [hallowed, hadd, Bool.not_true, Bool.false_eq_true, if_false] at h
        split at h
        · cases h
        · exact ⟨rfl, ih h⟩

/-- An accepted plan holds the launcher and paths that are allowed beside it. -/
theorem Direct.validatePlan_allowed {fileSet : FileSet} {launcher : String}
    (h : Direct.validatePlan fileSet launcher = .ok ()) :
    ∀ entry ∈ fileSet.files, Direct.pathAllowed entry.path launcher = true := by
  unfold Direct.validatePlan at h
  dsimp only at h
  split at h
  · cases h
  · exact Direct.validatePlanFiles_allowed h

/-- One signer of an executable is told to the allowlist. -/
def Windows.Checked (thumbprints : Bytes → Result (String × String))
    (files : String → Option Bytes) (allowed : List String) (path : String) : Prop :=
  ∃ file, files path = some file ∧
    Windows.verifyAuthenticodeSigner thumbprints file allowed = .ok ()

theorem Windows.verifyLauncherPayloads_eq_ok {thumbprints : Bytes → Result (String × String)}
    {files : String → Option Bytes} {allowed : List String} {entries : List FileEntry} :
    Windows.verifyLauncherPayloads thumbprints files allowed entries = .ok () ↔
      ∀ entry ∈ entries, hasExtension entry.path.toList "exe" = true →
        Windows.Checked thumbprints files allowed entry.path := by
  induction entries with
  | nil => simp [verifyLauncherPayloads]
  | cons entry entries ih =>
    rw [List.forall_mem_cons, ← ih, verifyLauncherPayloads]
    unfold Checked
    cases hexe : hasExtension entry.path.toList "exe" with
    | false => simp
    | true =>
      cases hfile : files entry.path with
      | none => simp
      | some file =>
        cases hsigner : verifyAuthenticodeSigner thumbprints file allowed <;> simp [hsigner]

theorem NamedDotExe.endsInExe {path : String} (h : NamedDotExe path) : EndsInExe path := by
  obtain ⟨name, hname, hlower⟩ := Option.map_eq_some_iff.1 h
  unfold EndsInExe
  obtain ⟨-, htext | ⟨front, htext⟩⟩ := split_getLast hname
  · simp [htext, hlower]
  · have hlast : lower ('/' :: name) = '/' :: lower name := rfl
    rw [htext, lower_append, hlast, hlower]
    exact ⟨lower front ++ ['/'], by simp⟩

theorem not_endsInExe_of_dll {path : String} (h : ".dll".toList <:+ lower path.toList) :
    ¬ EndsInExe path := by
  intro hexe
  have heq := List.suffix_of_suffix_length_le h hexe (by decide)
  exact absurd (heq.eq_of_length (by decide)) (by decide)

theorem Direct.pathAllowed_exe {path launcher : String}
    (h : Direct.pathAllowed path launcher = true) (hne : path ≠ launcher) :
    (¬ EndsInExe path ∧ (DllName path ∨ BelowResources path)) ↔ ¬ NamedDotExe path := by
  have ha := Direct.pathAllowed_accepted h
  rcases Direct.pathAllowed_cases h hne with ⟨⟨name, hsplit⟩, hdll⟩ | ⟨hbelow, hexe⟩
  · have hname : (split '/' path.toList).getLast? = some name := by simp [hsplit]
    have hending := ((hasExtension_iff ha hname (by decide) (by decide)).1 hdll).1
    have hslash : '/' ∉ path.toList := by
      obtain ⟨hmem, rfl | ⟨front, htext⟩⟩ := split_getLast hname
      · exact hmem
      · rw [htext, split_append_split] at hsplit
        have hlength := congrArg List.length hsplit
        have hfront := List.length_pos_iff.2 (split_ne_nil '/' front)
        have hlast := List.length_pos_iff.2 (split_ne_nil '/' name)
        simp only [List.length_append, List.length_singleton] at hlength
        omega
    have hnot := not_endsInExe_of_dll hending
    exact ⟨fun _ hnamed => hnot hnamed.endsInExe, fun _ => ⟨hnot, .inl ⟨hslash, hending⟩⟩⟩
  · have hends : EndsInExe path → NamedDotExe path := by
      intro hends
      by_contra hnamed
      rw [(hasExtension_exe_iff ha).2 ⟨hends, hnamed⟩] at hexe
      cases hexe
    exact ⟨fun hp hnamed => hp.1 hnamed.endsInExe,
      fun hnamed => ⟨fun hp => hnamed (hends hp), .inr hbelow⟩⟩

/-- A list with such a name passes although that file was not even opened. -/
theorem Windows.verifyLauncherPayloads_skips {entries : List FileEntry}
    (haccepted : ∀ entry ∈ entries, Accepted entry.path.toList) :
    ∃ thumbprints files allowed,
      Windows.verifyLauncherPayloads thumbprints files allowed entries = .ok () ∧
        ∀ path, NamedDotExe path → files path = none := by
  classical
  refine ⟨fun _ => .ok ("", ""), fun path => if NamedDotExe path then none else some [], [""], ?_, ?_⟩
  · rw [Windows.verifyLauncherPayloads_eq_ok]
    intro entry hentry hexe
    have hnamed := ((hasExtension_exe_iff (haccepted entry hentry)).1 hexe).2
    exact ⟨[], by simp [hnamed], rfl⟩
  · intro path hnamed
    simp [hnamed]

theorem executable_payloads_iff (entries : List FileEntry) :
    (∀ path launcher, Direct.pathAllowed path launcher = true → path ≠ launcher →
      ((¬ EndsInExe path ∧ (DllName path ∨ BelowResources path)) ↔ ¬ NamedDotExe path)) ∧
    ((∀ entry ∈ entries, validateRelativePath entry.path = .ok ()) →
      ((∀ thumbprints files allowed,
          Windows.verifyLauncherPayloads thumbprints files allowed entries = .ok () →
          ∀ entry ∈ entries, EndsInExe entry.path →
            Windows.Checked thumbprints files allowed entry.path) ↔
        ∀ entry ∈ entries, ¬ NamedDotExe entry.path)) := by
  refine ⟨fun path launcher => Direct.pathAllowed_exe, fun hvalid => ?_⟩
  have haccepted : ∀ entry ∈ entries, Accepted entry.path.toList :=
    fun entry hentry => accepted_of_validateRelativePath (hvalid entry hentry)
  constructor
  · intro hchecked entry hentry hnamed
    obtain ⟨thumbprints, files, allowed, hok, hnone⟩ :=
      Windows.verifyLauncherPayloads_skips haccepted
    obtain ⟨file, hfile, -⟩ := hchecked thumbprints files allowed hok entry hentry hnamed.endsInExe
    rw [hnone entry.path hnamed] at hfile
    cases hfile
  · intro hnamed thumbprints files allowed hok entry hentry hends
    have hexe := (hasExtension_exe_iff (haccepted entry hentry)).2 ⟨hends, hnamed entry hentry⟩
    exact Windows.verifyLauncherPayloads_eq_ok.1 hok entry hentry hexe

/-- An executable below the resources whose name is only an extension: it is allowed, and its
signer is not looked at. -/
theorem dotExe_unchecked :
    (¬ ∀ path launcher, Direct.pathAllowed path launcher = true → path ≠ launcher →
        ¬ EndsInExe path ∧ (DllName path ∨ BelowResources path)) ∧
      ¬ ∀ thumbprints files allowed (entries : List FileEntry),
        Windows.verifyLauncherPayloads thumbprints files allowed entries = .ok () →
          ∀ entry ∈ entries, EndsInExe entry.path →
            Windows.Checked thumbprints files allowed entry.path := by
  constructor
  · intro hallowed
    have hpath := hallowed "7launcher/resources/.exe" "Run_a.exe" (by decide +kernel) (by decide)
    exact hpath.1 (by decide +kernel)
  · intro hchecked
    obtain ⟨file, hfile, -⟩ := hchecked (fun _ => .ok ("", "")) (fun _ => none) []
      [⟨"7launcher/resources/.exe", "", 1⟩] (by decide +kernel) _ List.mem_cons_self
      (by decide +kernel)
    cases hfile

end Se7en
