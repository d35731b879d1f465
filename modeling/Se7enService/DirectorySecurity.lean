import Se7enService.Error
import Se7enService.AccessCheck
set_option autoImplicit false

/-! `check_directory_security` of `windows_data_directory.rs`, and the access that Windows grants. -/

namespace Se7en.DataDirectory
open AccessControl

/-! ### The check -/

def systemSid : String := "S-1-5-18"
def administratorsSid : String := "S-1-5-32-544"
def trustedInstallerSid : String :=
  "S-1-5-80-956008885-3418522649-1831038044-1853292631-2271478464"
def creatorOwnerSid : String := "S-1-3-0"
def creatorGroupSid : String := "S-1-3-1"

def inheritOnlyAce : UInt8 := 0x08

/-- Rights that let a principal rename, delete, re-ACL, or take over the directory itself, or move
its children away. -/
def takeoverRights : UInt32 :=
  0x00010000 -- DELETE
    ||| 0x00040000 -- WRITE_DAC
    ||| 0x00080000 -- WRITE_OWNER
    ||| 0x00000040 -- FILE_DELETE_CHILD
    ||| 0x02000000 -- MAXIMUM_ALLOWED
    ||| 0x10000000 -- GENERIC_ALL

/-- Rights that additionally let a principal add or change entries inside the protected state. -/
def writeRights : UInt32 :=
  takeoverRights
    ||| 0x00000002 -- FILE_ADD_FILE / FILE_WRITE_DATA
    ||| 0x00000004 -- FILE_ADD_SUBDIRECTORY / FILE_APPEND_DATA
    ||| 0x00000010 -- FILE_WRITE_EA
    ||| 0x00000100 -- FILE_WRITE_ATTRIBUTES
    ||| 0x40000000 -- GENERIC_WRITE

def nonGrantingAceTypes : List UInt8 := [1, 2, 3, 6, 7, 8, 10, 12, 13, 14, 15, 16, 17, 18, 19, 20, 21]

inductive DirectoryRole where
  | parent
  | data
  deriving DecidableEq, Repr

/-- `sid` is `none` for object ACEs, whose SID is never treated as trusted. -/
structure AccessEntry where
  aceType : UInt8
  flags : UInt8
  mask : UInt32
  sid : Option String
  deriving DecidableEq, Repr

/-- `entries` is `none` for a NULL DACL, which grants everyone full access. -/
structure DirectorySecurity where
  owner : String
  daclProtected : Bool
  entries : Option (List AccessEntry)
  deriving DecidableEq, Repr

def trustedOwner (sid : String) : Bool :=
  [systemSid, administratorsSid, trustedInstallerSid].contains sid

def securityError (detail : String) : MaintenanceError := .new .rootUnauthorized detail

def forbiddenRights : DirectoryRole → UInt32
  | .parent => takeoverRights
  | .data => writeRights

def AccessEntry.inheritOnly (entry : AccessEntry) : Bool := entry.flags &&& inheritOnlyAce ≠ 0

/-- The SID of the entry may have any rights. -/
def AccessEntry.trusted (entry : AccessEntry) : Bool :=
  entry.sid.any fun sid =>
    trustedOwner sid || (entry.inheritOnly && (sid = creatorOwnerSid || sid = creatorGroupSid))

/-- A turn of the loop over the entries. -/
def checkEntry (role : DirectoryRole) (entry : AccessEntry) : Result Unit :=
  if nonGrantingAceTypes.contains entry.aceType then .ok ()
  else if role = .parent ∧ entry.inheritOnly then .ok ()
  else rejectIf (!entry.trusted && entry.mask &&& forbiddenRights role ≠ 0)
    (securityError "protected service data directory grants write access to a non-administrator")

/-- Accepts a directory only if non-administrators cannot take it over or write into it. -/
def checkDirectorySecurity (security : DirectorySecurity) (role : DirectoryRole) : Result Unit := do
  rejectIf (!trustedOwner security.owner)
    (securityError "protected service data directory is owned by a non-administrator")
  match security.entries with
  | none => .error (securityError "protected service data directory has a NULL DACL")
  | some entries => do
    rejectIf (role = .data && !security.daclProtected)
      (securityError "protected service data directory inherits permissions from its parent")
    forM entries (checkEntry role)

/-! ### The access of a token -/

/-- What an access check reads of a token: its SIDs, the object ACEs that name one of them, and the
conditional ACEs whose condition it meets. -/
structure Token where
  sids : String → Bool
  object : AccessEntry → Bool
  condition : AccessEntry → Bool

/-- The well-known SID of an entry that is about whoever owns the object. -/
def ownerRightsSid : String := "S-1-3-4"

/-- `READ_CONTROL` and `WRITE_DAC`. -/
def implicitOwnerRights : BitVec 32 := 0x00060000

def denyingAceTypes : List UInt8 := [1, 6, 10, 12]

def conditionalAceTypes : List UInt8 := [9, 10, 11, 12]

/-- Types that are not known grant access. -/
def AccessEntry.effect (entry : AccessEntry) : Effect :=
  if denyingAceTypes.contains entry.aceType then .deny
  else if nonGrantingAceTypes.contains entry.aceType then .neutral
  else .grant

/-- A generic right stands for itself and for the rights of a file that it is mapped to. -/
def mapGenericMask (mask : UInt32) : BitVec 32 :=
  mask.toBitVec
    ||| (if mask &&& 0x80000000 ≠ 0 then 0x00120089 else 0#32)
    ||| (if mask &&& 0x40000000 ≠ 0 then 0x00120116 else 0#32)
    ||| (if mask &&& 0x20000000 ≠ 0 then 0x001200a0 else 0#32)
    ||| (if mask &&& 0x10000000 ≠ 0 then 0x001f01ff else 0#32)

def Token.owns (token : Token) (security : DirectorySecurity) : Bool := token.sids security.owner

/-- The entry applies to the object itself, and names the token. -/
def Token.matches (token : Token) (security : DirectorySecurity) (entry : AccessEntry) : Bool :=
  !entry.inheritOnly &&
    (match entry.sid with
      | some sid => token.sids sid || (sid = ownerRightsSid && token.owns security)
      | none => token.object entry) &&
    (!conditionalAceTypes.contains entry.aceType || token.condition entry)

def applicable (token : Token) (security : DirectorySecurity) (entries : List AccessEntry) :
    List (Entry 32) :=
  (entries.filter (token.matches security)).map fun entry =>
    ⟨entry.effect, mapGenericMask entry.mask⟩

/-- The owner's rights that no entry has to grant, where no entry is about the owner's rights. -/
def ownerRights (token : Token) (security : DirectorySecurity) (entries : List AccessEntry) :
    BitVec 32 :=
  if token.owns security ∧
      ¬ entries.any (fun entry => !entry.inheritOnly && entry.sid = some ownerRightsSid) then
    implicitOwnerRights
  else 0#32

def grantedRights (token : Token) (security : DirectorySecurity) : BitVec 32 :=
  match security.entries with
  | none => BitVec.allOnes 32
  | some entries =>
    evaluate (applicable token security entries) (ownerRights token security entries) 0#32

/-- The token belongs to no administrator. -/
def Token.Untrusted (token : Token) : Prop := ∀ sid, trustedOwner sid = true → token.sids sid = false

/-! ### Soundness -/

/-- A right of the forbidden ones is not in a mask without them. -/
theorem and_eq_zero_of_forbidden {mask right forbidden : UInt32} (hright : forbidden &&& right = right)
    (h : mask &&& forbidden = 0) : mask &&& right = 0 := by
  calc mask &&& right = mask &&& (forbidden &&& right) := by rw [hright]
    _ = (mask &&& forbidden) &&& right := (UInt32.and_assoc _ _ _).symm
    _ = 0 := by rw [h, UInt32.zero_and]

/-- The generic rights bring none of the forbidden ones that are not forbidden themselves. -/
theorem mapGenericMask_avoids {mask : UInt32} {role : DirectoryRole}
    (h : mask &&& forbiddenRights role = 0) :
    Avoids (mapGenericMask mask) (forbiddenRights role).toBitVec := by
  have hmask : Avoids mask.toBitVec (forbiddenRights role).toBitVec :=
    (UInt32.toBitVec_and mask (forbiddenRights role)).symm.trans (congrArg UInt32.toBitVec h)
  have hread : Avoids (0x00120089 : BitVec 32) (forbiddenRights role).toBitVec := by
    cases role <;> decide
  have hexecute : Avoids (0x001200a0 : BitVec 32) (forbiddenRights role).toBitVec := by
    cases role <;> decide
  have hwrite : mask &&& 0x40000000 ≠ 0 →
      Avoids (0x00120116 : BitVec 32) (forbiddenRights role).toBitVec := by
    intro hgeneric
    cases role with
    | parent => decide
    | data => exact absurd (and_eq_zero_of_forbidden (by decide) h) hgeneric
  have hall : mask &&& 0x10000000 ≠ 0 →
      Avoids (0x001f01ff : BitVec 32) (forbiddenRights role).toBitVec := by
    intro hgeneric
    exact absurd (and_eq_zero_of_forbidden (by cases role <;> decide) h) hgeneric
  exact (((hmask.or (Avoids.ite fun _ => hread)).or (Avoids.ite hwrite)).or
    (Avoids.ite fun _ => hexecute)).or (Avoids.ite hall)

theorem forM_checkEntry {role : DirectoryRole} {entries : List AccessEntry} :
    forM entries (checkEntry role) = .ok () ↔ ∀ entry ∈ entries, checkEntry role entry = .ok () := by
  induction entries with
  | nil => simp [pure, Except.pure]
  | cons entry rest ih =>
    rw [List.forM_cons, List.forall_mem_cons, Result.bind_eq_ok]
    constructor
    · rintro ⟨⟨⟩, hfirst, hrest⟩
      exact ⟨hfirst, ih.mp hrest⟩
    · rintro ⟨hfirst, hrest⟩
      exact ⟨(), hfirst, ih.mpr hrest⟩

theorem checkDirectorySecurity_eq_ok {security : DirectorySecurity} {role : DirectoryRole} :
    checkDirectorySecurity security role = .ok () ↔
      trustedOwner security.owner = true ∧ (role = .data → security.daclProtected = true) ∧
        ∃ entries, security.entries = some entries ∧
          ∀ entry ∈ entries, checkEntry role entry = .ok () := by
  unfold checkDirectorySecurity
  rw [Result.bind_eq_ok]
  constructor
  · rintro ⟨⟨⟩, howner, h⟩
    have howner := rejectIf_eq_ok.mp howner
    cases hentries : security.entries with
    | none =>
      rw [hentries] at h
      cases h
    | some entries =>
      rw [hentries] at h
      obtain ⟨⟨⟩, hprotected, h⟩ := Result.bind_eq_ok.mp h
      have hprotected := rejectIf_eq_ok.mp hprotected
      refine ⟨by simpa using howner, ?_, entries, rfl, forM_checkEntry.mp h⟩
      rintro rfl
      simpa using hprotected
  · rintro ⟨howner, hprotected, entries, hentries, hall⟩
    refine ⟨(), rejectIf_eq_ok.mpr (by simp [howner]), ?_⟩
    rw [hentries]
    refine Result.bind_eq_ok.mpr ⟨(), rejectIf_eq_ok.mpr ?_, forM_checkEntry.mpr hall⟩
    cases role with
    | parent => simp
    | data => simp [hprotected rfl]

/-- An entry that is let through grants an untrusted token nothing that is forbidden. -/
theorem checkEntry_avoids {role : DirectoryRole} {security : DirectorySecurity}
    {entry : AccessEntry} {token : Token} (hcheck : checkEntry role entry = .ok ())
    (howner : trustedOwner security.owner = true) (htoken : token.Untrusted)
    (hmatches : token.matches security entry = true) (hgrants : entry.effect = .grant) :
    Avoids (mapGenericMask entry.mask) (forbiddenRights role).toBitVec := by
  have hgranting : nonGrantingAceTypes.contains entry.aceType = false := by
    unfold AccessEntry.effect at hgrants
    split at hgrants
    · cases hgrants
    · split at hgrants
      · cases hgrants
      · rename_i hnot
        simpa using hnot
  simp only [Token.matches, Bool.and_eq_true, Bool.not_eq_true'] at hmatches
  obtain ⟨⟨hobject, hsid⟩, -⟩ := hmatches
  have huntrusted : entry.trusted = false := by
    cases hentry : entry.sid with
    | none => simp [AccessEntry.trusted, hentry]
    | some sid =>
      simp only [hentry, Token.owns, htoken _ howner, Bool.and_false, Bool.or_false] at hsid
      have hnot : trustedOwner sid = false := by
        by_contra htrusted
        rw [htoken sid (by simpa using htrusted)] at hsid
        cases hsid
      simp [AccessEntry.trusted, hentry, hobject, hnot]
  unfold checkEntry at hcheck
  rw [if_neg (by rw [hgranting]; exact Bool.false_ne_true), if_neg (by simp [hobject])] at hcheck
  have hmask := rejectIf_eq_ok.mp hcheck
  simp only [huntrusted, Bool.not_false, Bool.true_and, decide_eq_false_iff_not, ne_eq,
    not_not] at hmask
  exact mapGenericMask_avoids hmask

/-- No token without a trusted SID gets a forbidden right on a directory that is accepted. -/
theorem grantedRights_avoids {role : DirectoryRole} {security : DirectorySecurity} {token : Token}
    (hcheck : checkDirectorySecurity security role = .ok ()) (htoken : token.Untrusted) :
    Avoids (grantedRights token security) (forbiddenRights role).toBitVec := by
  obtain ⟨howner, -, entries, hentries, hall⟩ := checkDirectorySecurity_eq_ok.mp hcheck
  have hnone : ownerRights token security entries = 0#32 :=
    if_neg fun h => by simp [Token.owns, htoken _ howner] at h
  simp only [grantedRights, hentries, hnone]
  refine evaluate_avoids (by simp [Avoids]) ?_
  intro applied happlied hgrants
  obtain ⟨entry, hentry, rfl⟩ := List.mem_map.mp happlied
  obtain ⟨hentry, hmatches⟩ := List.mem_filter.mp hentry
  exact checkEntry_avoids (hall entry hentry) howner htoken hmatches hgrants

/-! ### The verdict -/

/-- The loop stops at an entry with the one error it has. -/
theorem checkEntry_error {role : DirectoryRole} {entry : AccessEntry} :
    checkEntry role entry = .ok () ∨ checkEntry role entry = .error (securityError
      "protected service data directory grants write access to a non-administrator") := by
  unfold checkEntry rejectIf
  split
  · exact .inl rfl
  · split
    · exact .inl rfl
    · split
      · exact .inr rfl
      · exact .inl rfl

theorem forM_checkEntry_perm {role : DirectoryRole} {entries entries' : List AccessEntry}
    (h : entries.Perm entries') :
    forM entries (checkEntry role) = forM entries' (checkEntry role) := by
  induction h with
  | nil => rfl
  | cons entry _ ih => rw [List.forM_cons, List.forM_cons, ih]
  | swap first second rest =>
    simp only [List.forM_cons]
    rcases @checkEntry_error role first with h | h <;>
      rcases @checkEntry_error role second with h' | h' <;> rw [h, h'] <;> rfl
  | trans _ _ ih ih' => exact ih.trans ih'

/-- The check is sound for the access that Windows grants, whatever the order of the entries, and
an entry that is added never makes a directory acceptable. -/
theorem check_directory_security_sound (security : DirectorySecurity) (role : DirectoryRole) :
    (checkDirectorySecurity security role = .ok () → ∀ token : Token, token.Untrusted →
      Avoids (grantedRights token security) (forbiddenRights role).toBitVec) ∧
    (∀ entries entries' : List AccessEntry, entries.Perm entries' →
      checkDirectorySecurity { security with entries := some entries' } role =
        checkDirectorySecurity { security with entries := some entries } role) ∧
    (∀ before entry after,
      checkDirectorySecurity { security with entries := some (before ++ entry :: after) } role =
        .ok () →
      checkDirectorySecurity { security with entries := some (before ++ after) } role = .ok ()) := by
  refine ⟨fun hcheck token htoken => grantedRights_avoids hcheck htoken, ?_, ?_⟩
  · intro entries entries' hperm
    simp only [checkDirectorySecurity, forM_checkEntry_perm hperm]
  · intro before entry after hcheck
    obtain ⟨howner, hprotected, entries, hentries, hall⟩ := checkDirectorySecurity_eq_ok.mp hcheck
    obtain rfl := Option.some.inj hentries
    refine checkDirectorySecurity_eq_ok.mpr ⟨howner, hprotected, before ++ after, rfl, ?_⟩
    intro other hother
    refine hall other ?_
    simp only [List.mem_append, List.mem_cons] at hother ⊢
    tauto

section Sample

/-- `DATA_DIRECTORY_SDDL`, with the inherit-only entry that older releases have left. -/
def installedDirectory : DirectorySecurity where
  owner := administratorsSid
  daclProtected := true
  entries := some [⟨0, 0x03, 0x001f01ff, some systemSid⟩, ⟨0, 0x03, 0x001f01ff, some administratorsSid⟩,
    ⟨0, 0x0b, 0x10000000, some creatorOwnerSid⟩]

def userToken : Token where
  sids sid := sid = "S-1-5-21-1-2-3-1001" || sid = "S-1-5-32-545"
  object _ := false
  condition _ := false

theorem check_directory_security_sound_installed :
    Avoids (grantedRights userToken installedDirectory) writeRights.toBitVec := by
  refine (check_directory_security_sound installedDirectory .data).1 (by decide) userToken ?_
  intro sid htrusted
  simp only [trustedOwner, List.contains_cons, List.contains_nil, Bool.or_false, Bool.or_eq_true,
    beq_iff_eq] at htrusted
  rcases htrusted with rfl | rfl | rfl <;> decide

end Sample

end Se7en.DataDirectory
