import Mathlib
import Se7enService.FailedPrepare
import Se7enService.JobId
set_option autoImplicit false

/-! The journal that `prepare_file_set` writes, against the bound and the checks of the reader. -/

namespace Se7en
open Faulty

section Header

variable [Unicode]

/-! ### The checks of the manifest -/

theorem validateFiles_ok {files : List FileEntry} {paths paths' : List String} {declared : UInt64}
    (h : validateFiles paths declared files = .ok paths') :
    (∀ file ∈ files, validateRelativePath file.path = .ok ()) ∧
      paths' = (files.map fun file => Unicode.toLowercase file.path).reverse ++ paths ∧
      (paths.Nodup → paths'.Nodup) := by
  induction files generalizing paths declared with
  | nil =>
    obtain rfl := Except.ok.inj h
    simp
  | cons file files ih =>
    unfold validateFiles at h
    obtain ⟨⟨⟩, hpath, h⟩ := Result.bind_eq_ok.mp h
    dsimp only at h
    by_cases hseen : paths.contains (Unicode.toLowercase file.path) = true
    · simp only [hseen, if_true, Result.throw_eq, Result.error_bind] at h
      cases h
    · simp only [hseen, Bool.false_eq_true, if_false] at h
      obtain ⟨_, _, h⟩ := Result.bind_eq_ok.mp h
      cases hadd : checkedAdd declared file.size with
      | none =>
        simp only [hadd] at h
        cases h
      | some declared' =>
        simp only [hadd] at h
        split at h
        · cases h
        · obtain ⟨hvalid, hpaths, hnodup⟩ := ih h
          refine ⟨?_, ?_, fun hold => hnodup (List.nodup_cons.mpr ⟨?_, hold⟩)⟩
          · rw [List.forall_mem_cons]
            exact ⟨hpath, hvalid⟩
          · simp [hpaths]
          · simpa using hseen

theorem validateRemovals_ok {removals paths : List String} :
    validateRemovals paths removals = .ok () ↔
      (∀ path ∈ removals, validateRelativePath path = .ok ()) ∧
      (∀ path ∈ removals, Unicode.toLowercase path ∉ paths) ∧
      (removals.map Unicode.toLowercase).Nodup := by
  induction removals generalizing paths with
  | nil => simp [validateRemovals]
  | cons path removals ih =>
    unfold validateRemovals
    cases hpath : validateRelativePath path with
    | error e => simp [hpath]
    | ok _ =>
      by_cases hseen : Unicode.toLowercase path ∈ paths
      · simp [hpath, hseen]
      · have hrest : validateRemovals (Unicode.toLowercase path :: paths) removals = .ok () ↔
            (∀ other ∈ removals, validateRelativePath other = .ok ()) ∧
            (∀ other ∈ removals, Unicode.toLowercase other ∉ Unicode.toLowercase path :: paths) ∧
            (removals.map Unicode.toLowercase).Nodup := ih
        simp only [Result.ok_bind, List.contains_eq_mem, hseen, decide_false, Bool.false_eq_true,
          if_false, hrest, List.forall_mem_cons, hpath, List.map_cons, List.nodup_cons,
          List.mem_map]
        grind

theorem validateFileSet_eq_ok {fileSet : FileSet} {productId : String} :
    validateFileSet fileSet productId = .ok () ↔
      (fileSet.generation ≠ 0 ∧ validIdentifier fileSet.productId = true) ∧
      fileSet.productId = productId ∧
      (fileSet.files.length + fileSet.removeFiles.length ≠ 0 ∧
        fileSet.files.length + fileSet.removeFiles.length ≤ maxFileEntries) ∧
      ∃ paths, validateFiles [] 0 fileSet.files = .ok paths ∧
        validateRemovals paths fileSet.removeFiles = .ok () := by
  unfold validateFileSet
  by_cases hmetadata : (decide (fileSet.generation = 0) || !validIdentifier fileSet.productId) = true
  · simp only [hmetadata, if_true, Result.throw_eq, Result.error_bind, reduceCtorEq, false_iff]
    intro h
    simp [h.1.1, h.1.2] at hmetadata
  · have hgood : fileSet.generation ≠ 0 ∧ validIdentifier fileSet.productId = true := by
      simpa using hmetadata
    simp only [hmetadata, Bool.false_eq_true, if_false]
    by_cases hproduct : fileSet.productId = productId
    · subst hproduct
      simp only [ne_eq, not_true_eq_false, if_false, Bool.or_eq_true, decide_eq_true_eq]
      by_cases hcount : fileSet.files.length + fileSet.removeFiles.length = 0 ∨
          fileSet.files.length + fileSet.removeFiles.length > maxFileEntries
      · simp only [hcount, if_true, Result.throw_eq, Result.error_bind, reduceCtorEq, false_iff]
        intro h
        omega
      · have hbounds : ¬ fileSet.files.length + fileSet.removeFiles.length = 0 ∧
            fileSet.files.length + fileSet.removeFiles.length ≤ maxFileEntries := by omega
        rw [if_neg hcount, Result.bind_eq_ok]
        simp only [hbounds, hgood, not_false_eq_true, and_self, true_and]
    · simp [hproduct]

/-- The paths of a valid file set are valid, and no two are one. -/
theorem validateFileSet_paths {fileSet : FileSet} {productId : String}
    (h : validateFileSet fileSet productId = .ok ()) :
    (∀ path ∈ fileSet.paths, validateRelativePath path = .ok ()) ∧
      (fileSet.paths.map Unicode.toLowercase).Nodup ∧ fileSet.paths ≠ [] := by
  obtain ⟨-, -, hcount, paths, hfiles, hremovals⟩ := validateFileSet_eq_ok.mp h
  obtain ⟨hvalid, hpaths, hnodup⟩ := validateFiles_ok hfiles
  obtain ⟨hvalid', hapart, hnodup'⟩ := validateRemovals_ok.mp hremovals
  have hnodup := hnodup List.nodup_nil
  rw [hpaths, List.append_nil] at hnodup hapart
  refine ⟨fun path hpath => ?_, ?_, ?_⟩
  · rcases List.mem_append.mp hpath with hpath | hpath
    · obtain ⟨file, hfile, rfl⟩ := List.mem_map.mp hpath
      exact hvalid file hfile
    · exact hvalid' path hpath
  · rw [FileSet.paths, List.map_append, List.map_map]
    refine List.nodup_append.mpr ⟨List.nodup_reverse.mp hnodup, hnodup', ?_⟩
    intro path hpath other hother hsame
    obtain ⟨removal, hremoval, rfl⟩ := List.mem_map.mp hother
    exact hapart removal hremoval (List.mem_reverse.mpr (hsame ▸ hpath))
  · intro hempty
    have hlength := congrArg List.length hempty
    simp only [FileSet.paths, List.length_append, List.length_map, List.length_nil] at hlength
    exact hcount.1 hlength

/-! ### The checks of the header -/

/-- What `validate_journal_header` asks of an entry alone; the removal has no prepared file. -/
structure JournalEntry.Formed (entry : JournalEntry) : Prop where
  path : validateRelativePath entry.path = .ok ()
  prepared : entry.preparedIndex =
    if entry.action = .replace then some entry.transactionIndex else none

theorem validateJournalEntries_ok {entries : List JournalEntry} {seen : SeenEntries}
    (hseen : seen.preparedIndexes ⊆ seen.transactionIndexes)
    (hformed : ∀ entry ∈ entries, entry.Formed)
    (hpaths : (entries.map fun entry => Unicode.toLowercase entry.path).Nodup ∧
      ∀ entry ∈ entries, Unicode.toLowercase entry.path ∉ seen.paths)
    (hindexes : (entries.map (·.transactionIndex)).Nodup ∧
      ∀ entry ∈ entries, entry.transactionIndex ∉ seen.transactionIndexes) :
    validateJournalEntries seen entries = .ok () := by
  induction entries generalizing seen with
  | nil => rfl
  | cons entry entries ih =>
    simp only [List.map_cons, List.nodup_cons, List.forall_mem_cons, List.mem_map, not_exists,
      not_and] at hformed hpaths hindexes
    obtain ⟨⟨hpath, hprepared⟩, hformed⟩ := hformed
    obtain ⟨⟨hpathNew, hpaths⟩, hpathSeen, hpathsSeen⟩ := hpaths
    obtain ⟨⟨hindexNew, hindexes⟩, hindexSeen, hindexesSeen⟩ := hindexes
    have hrest : ∀ added : List UInt32, added ⊆ [entry.transactionIndex] →
        validateJournalEntries
          { paths := Unicode.toLowercase entry.path :: seen.paths
            transactionIndexes := entry.transactionIndex :: seen.transactionIndexes
            preparedIndexes := added ++ seen.preparedIndexes } entries = .ok () := by
      intro added hadded
      refine ih (fun index hindex => ?_) hformed ⟨hpaths, ?_⟩ ⟨hindexes, ?_⟩
      · rcases List.mem_append.mp hindex with hindex | hindex
        · exact List.mem_cons.mpr (.inl (List.mem_singleton.mp (hadded hindex)))
        · exact List.mem_cons_of_mem _ (hseen hindex)
      · intro other hother
        simp only [List.mem_cons, not_or]
        exact ⟨hpathNew other hother, hpathsSeen other hother⟩
      · intro other hother
        simp only [List.mem_cons, not_or]
        exact ⟨hindexNew other hother, hindexesSeen other hother⟩
    have hunprepared : entry.transactionIndex ∉ seen.preparedIndexes :=
      fun hmem => hindexSeen (hseen hmem)
    cases haction : entry.action with
    | replace =>
      simp only [haction, if_true] at hprepared
      have hnext := hrest [entry.transactionIndex] (List.Subset.refl _)
      simp [validateJournalEntries, hpath, hpathSeen, hindexSeen, haction, hprepared,
        hunprepared] at hnext ⊢
      exact hnext
    | remove =>
      simp only [haction, reduceCtorEq, if_false] at hprepared
      have hnext := hrest [] (List.nil_subset _)
      simp [validateJournalEntries, hpath, hpathSeen, hindexSeen, haction, hprepared] at hnext ⊢
      exact hnext

omit [Unicode] in
theorem entriesOf_formed (d : Disk) (root : RegisteredRoot) {fileSet : FileSet}
    (hpaths : ∀ path ∈ fileSet.paths, validateRelativePath path = .ok ()) :
    ∀ entry ∈ entriesOf d root fileSet, entry.Formed := by
  intro entry hentry
  have hpath : entry.path ∈ fileSet.paths := by
    rw [← @entriesOf_paths d root]
    exact List.mem_map_of_mem hentry
  rcases List.mem_append.mp hentry with hentry | hentry
  · obtain ⟨file, -, rfl⟩ := List.mem_map.mp hentry
    exact ⟨hpaths _ hpath, rfl⟩
  · obtain ⟨removal, -, rfl⟩ := List.mem_map.mp hentry
    exact ⟨hpaths _ hpath, rfl⟩

/-- The reader has nothing against the header of a verified file set, whatever the targets are. -/
theorem validateJournalHeader_headerOf (d : Disk) {root : RegisteredRoot}
    (manifest : VerifiedFileSet) (hjob : validInternalJobId (jobIdOf root manifest) = true) :
    validateJournalHeader (headerOf d root manifest) = .ok () := by
  obtain ⟨hpaths, hnodup, hsome⟩ := validateFileSet_paths manifest.valid
  have hcount := validateFileSet_count manifest.valid
  have hentries : entriesOf d root manifest.fileSet ≠ [] := by
    intro hnil
    have hmap := @entriesOf_paths d root manifest.fileSet
    rw [hnil] at hmap
    exact hsome hmap.symm
  have hdigest : decodeLowerHex 32 (encodeHex manifest.digest.toList) .recoveryIncomplete =
      .ok manifest.digest.toList := decodeLowerHex_encodeHex (by simp) _
  have hchecks : validateJournalEntries {} (entriesOf d root manifest.fileSet) = .ok () := by
    refine validateJournalEntries_ok (List.Subset.refl _) (entriesOf_formed d root hpaths)
      ⟨?_, by simp⟩ ⟨?_, by simp⟩
    · rw [← @entriesOf_paths d root, List.map_map] at hnodup
      exact hnodup
    · exact entriesOf_nodup_indexes hcount
  simp [validateJournalHeader, headerOf, hentries, hjob, hdigest, hchecks, Except.toOption]

end Header

/-! ### The length of canonical text -/

def Value.size (v : Value) : Nat := (utf8 v.text).length

/-- The length of a text between its quotes, escapes included. -/
def quotedSize (text : String) : Nat := (utf8 (stringText text)).length

def digitCount (n : Nat) : Nat := (Nat.toDigits 10 n).length

theorem size_string (text : String) : (Value.string text).size = quotedSize text := rfl

theorem size_null : Value.null.size = 4 := rfl

theorem size_unsigned (n : UInt64) : (unsigned n).size = digitCount n.toNat := by
  have hdigits : ∀ c ∈ Nat.toDigits 10 n.toNat, c.isDigit = true :=
    fun c hc => Nat.isDigit_of_mem_toDigits (by decide) (by decide) hc
  exact (utf8_digits hdigits).1

theorem utf8_cons (c : Char) (text : List Char) :
    utf8 (c :: text) = String.utf8EncodeChar c ++ utf8 text := rfl

/-- Separators and the closing bracket are one byte each. -/
theorem length_separated (close : Char) (hclose : (String.utf8EncodeChar close).length = 1)
    (items : List (List Char)) :
    (utf8 (separated close items)).length =
      (items.map fun item => (utf8 item).length).sum + max 1 items.length := by
  have hcomma : (String.utf8EncodeChar ',').length = 1 := by decide
  induction items with
  | nil => simpa [separated, utf8] using hclose
  | cons item items ih =>
    cases items with
    | nil => simp [separated, utf8, hclose]
    | cons next items =>
      simp only [separated, utf8_append, utf8_cons, List.length_append, hcomma, ih, List.map_cons,
        List.sum_cons, List.length_cons]
      omega

theorem size_array (items : List Value) :
    (Value.array items).size = 1 + (items.map Value.size).sum + max 1 items.length := by
  have htexts : itemsText items = items.map Value.text := by
    induction items with
    | nil => rfl
    | cons item items ih => simp [itemsText, ih]
  have hopen : (String.utf8EncodeChar '[').length = 1 := by decide
  have hlength := length_separated ']' (by decide) (items.map Value.text)
  simp only [Value.size, Value.text, htexts, utf8_cons, List.length_append, hopen, hlength,
    List.map_map, List.length_map, Nat.add_assoc]
  rfl

theorem size_object (fields : List (String × Value)) :
    (Value.object fields).size =
      1 + (fields.map fun field => quotedSize field.1 + 1 + field.2.size).sum +
        max 1 fields.length := by
  have hopen : (String.utf8EncodeChar '{').length = 1 := by decide
  have hcolon : (String.utf8EncodeChar ':').length = 1 := by decide
  have hlength := length_separated '}' (by decide)
    (fields.map fun field => stringText field.1 ++ ':' :: field.2.text)
  have hfield : ∀ field : String × Value,
      (utf8 (stringText field.1 ++ ':' :: field.2.text)).length =
        quotedSize field.1 + 1 + field.2.size := by
    intro field
    simp only [utf8_append, utf8_cons, List.length_append, hcolon, quotedSize, Value.size]
    omega
  simp only [Value.size, Value.text, fieldsText_eq, utf8_cons, List.length_append, hopen, hlength,
    List.map_map, List.length_map, Nat.add_assoc, Function.comp_def]
  simp only [hfield, Value.size, Nat.add_assoc]

/-! ### The length of a journal -/

def snapshotSize (original : Option TargetSnapshot) : Nat :=
  (optional TargetSnapshot.toValue original).size

/-- The length of a replacement, with the separator behind it. -/
def fileEntrySize (d : Disk) (root : RegisteredRoot) (file : FileEntry × Nat) : Nat :=
  78 + snapshotSize (originalOf d root file.1.path) + quotedSize file.1.path + 2 * digitCount file.2

/-- The length of a removal, with the separator behind it. -/
def removalEntrySize (d : Disk) (root : RegisteredRoot) (offset : Nat) (removal : String × Nat) : Nat :=
  81 + snapshotSize (originalOf d root removal.1) + quotedSize removal.1 +
    digitCount (offset + removal.2)

theorem size_index {i : Nat} (h : i < 2 ^ 32) :
    (unsigned (UInt32.ofNat i).toUInt64).size = digitCount i := by
  rw [size_unsigned]
  have hnat : (UInt32.ofNat i).toUInt64.toNat = i := by
    simp only [UInt32.toNat_toUInt64, UInt32.toNat_ofNat']
    exact Nat.mod_eq_of_lt h
  rw [hnat]

theorem size_fileEntryOf (d : Disk) (root : RegisteredRoot) {file : FileEntry × Nat} (h : file.2 < 2 ^ 32) :
    (fileEntryOf d root file).toValue.size + 1 = fileEntrySize d root file := by
  have haction : quotedSize "replace" = 9 := by decide
  have hkeys : quotedSize "action" = 8 ∧ quotedSize "original" = 10 ∧ quotedSize "path" = 6 ∧
      quotedSize "preparedIndex" = 15 ∧ quotedSize "transactionIndex" = 18 := by decide
  obtain ⟨h₁, h₂, h₃, h₄, h₅⟩ := hkeys
  simp only [JournalEntry.toValue, fileEntryOf, size_object, List.map_cons, List.map_nil,
    List.sum_cons, List.sum_nil, List.length_cons, List.length_nil, size_string, haction, h₁, h₂, h₃,
    h₄, h₅, optional, JournalAction.text, size_index h, fileEntrySize, snapshotSize]
  omega

theorem size_removalEntryOf (d : Disk) (root : RegisteredRoot) {offset : Nat} {removal : String × Nat}
    (h : offset + removal.2 < 2 ^ 32) :
    (removalEntryOf d root offset removal).toValue.size + 1 =
      removalEntrySize d root offset removal := by
  have haction : quotedSize "remove" = 8 := by decide
  have hkeys : quotedSize "action" = 8 ∧ quotedSize "original" = 10 ∧ quotedSize "path" = 6 ∧
      quotedSize "preparedIndex" = 15 ∧ quotedSize "transactionIndex" = 18 := by decide
  obtain ⟨h₁, h₂, h₃, h₄, h₅⟩ := hkeys
  simp only [JournalEntry.toValue, removalEntryOf, size_object, List.map_cons, List.map_nil,
    List.sum_cons, List.sum_nil, List.length_cons, List.length_nil, size_string, haction, h₁, h₂, h₃,
    h₄, h₅, optional, JournalAction.text, size_null, size_index h, removalEntrySize, snapshotSize]
  omega

def entriesSize (d : Disk) (root : RegisteredRoot) (fileSet : FileSet) : Nat :=
  (fileSet.files.zipIdx.map (fileEntrySize d root)).sum +
    (fileSet.removeFiles.zipIdx.map (removalEntrySize d root fileSet.files.length)).sum

theorem sum_size_succ {α : Type} {xs : List α} {toValue : α → Value} {size : α → Nat}
    (h : ∀ x ∈ xs, (toValue x).size + 1 = size x) :
    (xs.map fun x => (toValue x).size).sum + xs.length = (xs.map size).sum := by
  induction xs with
  | nil => rfl
  | cons x xs ih =>
    rw [List.forall_mem_cons] at h
    have hrest := ih h.2
    simp only [List.map_cons, List.sum_cons, List.length_cons, ← h.1, ← hrest]
    omega

theorem size_entriesOf (d : Disk) (root : RegisteredRoot) {fileSet : FileSet}
    (hcount : fileSet.files.length + fileSet.removeFiles.length ≤ maxFileEntries)
    (hsome : 0 < fileSet.files.length + fileSet.removeFiles.length) :
    (Value.array ((entriesOf d root fileSet).map JournalEntry.toValue)).size =
      1 + entriesSize d root fileSet := by
  have hbound : maxFileEntries < 2 ^ 32 := by decide
  have hfiles : ∀ file ∈ fileSet.files.zipIdx,
      (fileEntryOf d root file).toValue.size + 1 = fileEntrySize d root file := by
    intro file hfile
    have hindex := List.snd_lt_of_mem_zipIdx hfile
    exact size_fileEntryOf d root (by omega)
  have hremovals : ∀ removal ∈ fileSet.removeFiles.zipIdx,
      (removalEntryOf d root fileSet.files.length removal).toValue.size + 1 =
        removalEntrySize d root fileSet.files.length removal := by
    intro removal hremoval
    have hindex := List.snd_lt_of_mem_zipIdx hremoval
    exact size_removalEntryOf d root (by omega)
  have hfilesSum := sum_size_succ hfiles
  have hremovalsSum := sum_size_succ hremovals
  rw [List.length_zipIdx] at hfilesSum hremovalsSum
  simp only [size_array, entriesOf, List.map_append, List.map_map, Function.comp_def,
    List.sum_append, List.length_append, List.length_map, List.length_zipIdx, entriesSize,
    ← hfilesSum, ← hremovalsSum]
  omega

section Length

variable [Unicode]

/-- The length of the journal with the longest records that it ever holds. -/
def journalSize (d : Disk) (root : RegisteredRoot) (manifest : VerifiedFileSet) : Nat :=
  143 + entriesSize d root manifest.fileSet + root.toValue.size +
    digitCount manifest.fileSet.generation.toNat + quotedSize (jobIdOf root manifest) +
    quotedSize (encodeHex manifest.digest.toList)

theorem journalBytes_headerOf (d : Disk) (root : RegisteredRoot)
    (manifest : VerifiedFileSet) :
    (journalBytes (headerOf d root manifest)
      [.prepared, .committing, .rollingBack]).length = journalSize d root manifest := by
  obtain ⟨-, -, hsome⟩ := validateFileSet_paths manifest.valid
  have hcount := validateFileSet_count manifest.valid
  have hpositive : 0 < manifest.fileSet.files.length + manifest.fileSet.removeFiles.length := by
    have hlength := List.length_pos_of_ne_nil hsome
    simpa [FileSet.paths] using hlength
  have hkeys : quotedSize "entries" = 9 ∧ quotedSize "generation" = 12 ∧ quotedSize "jobId" = 7 ∧
      quotedSize "manifestDigest" = 16 ∧ quotedSize "root" = 6 ∧ quotedSize "schema" = 8 := by
    decide
  obtain ⟨h₁, h₂, h₃, h₄, h₅, h₆⟩ := hkeys
  have hrecords : ([JournalState.prepared, .committing, .rollingBack].flatMap recordLine).length = 69 := by
    decide
  have hheader : (toValue (headerOf d root manifest)).size + 70 =
      journalSize d root manifest := by
    simp only [toValue, headerOf, size_object, List.map_cons, List.map_nil, List.sum_cons,
      List.sum_nil, List.length_cons, List.length_nil, size_string, size_unsigned, h₁, h₂, h₃, h₄, h₅,
      h₆, size_entriesOf d root hcount hpositive, journalSize]
    have hdigits : digitCount journalSchema.toNat = 1 := by decide
    omega
  rw [journalBytes, journalLine_eq, List.length_append, hrecords, List.length_append,
    List.length_singleton, ← hheader]
  simp only [lineText, Value.size]

theorem journalSize_newJournal (d : Disk) (root : RegisteredRoot) (manifest : VerifiedFileSet) :
    journalSize d root manifest = (newJournal (headerOf d root manifest)).length + 48 := by
  have hrecords : ([JournalState.prepared].flatMap recordLine).length + 48 =
      ([JournalState.prepared, .committing, .rollingBack].flatMap recordLine).length := by decide
  rw [← journalBytes_headerOf, newJournal_eq]
  simp only [journalBytes, List.length_append]
  omega

end Length

/-! ### What a preparation writes -/

section Prepare

variable [Unicode] [Sha256] {A : Event Intrusion → Prop} {I : Disk → Prop} {d : Disk}

omit [Unicode] [Sha256] in
theorem journal_act (m : Intrusion) (t : Disk) (name : String) :
    (Outside.act m t : Disk).journal name = t.journal name := by
  have hdirectory := (Disk.SameDirectories.refl (d := t)).act m |>.directory name
  simp only [Disk.journal, hdirectory]

omit [Unicode] [Sha256] in
theorem stable_journal (name : String) (bytes : Bytes) :
    Stable A fun t : Disk => t.journal name = some bytes :=
  fun m t _ ht => (journal_act m t name).trans ht

/-- An invariant about the roots alone. -/
def OnRoots (I : Disk → Prop) : Prop := ∀ t t' : Disk, t'.root = t.root → I t → I t'

omit [Sha256] in
theorem OnRoots.keeps_beginJob (hroots : OnRoots I) (stable : Stable A I) (manifest : VerifiedFileSet)
    (root : RegisteredRoot) (absolute : Bool) : Keeps A I (beginJob manifest root absolute) := by
  unfold beginJob
  refine Keeps.bind (keeps_inspect _) fun _ => Keeps.bind (Keeps.lift _) fun _ =>
    Keeps.bind (Keeps.lift _) fun _ => ?_
  cases declaredSize manifest.fileSet.files 0 with
  | none => exact Keeps.throw _
  | some required =>
    have hcreate : Keeps A I (createJobs.run : JobProg Unit) := by
      refine Keeps.whole .plain stable fun t _ t' ht heff => ?_
      cases heff
      exact hroots t _ rfl ht
    refine Keeps.bind (Keeps.lift _) fun _ => Keeps.bind hcreate fun _ => ?_
    refine Keeps.whole .plain stable fun t _ t' ht heff => ?_
    simp only [createJob] at heff
    cases hjobs : t.jobs with
    | none => simp [hjobs] at heff
    | some names =>
      simp only [hjobs] at heff
      split at heff
      · cases heff
      · cases heff
        exact hroots t _ rfl ht

omit [Unicode] in
theorem OnRoots.keeps_copyPayloads (hroots : OnRoots I) (stable : Stable A I) (jobId : String)
    (staging : Staging) (files : List (FileEntry × Nat)) :
    Keeps A I (copyPayloads jobId staging files) := by
  induction files with
  | nil => exact Keeps.pure ()
  | cons file files ih =>
    refine Keeps.bind (Keeps.lift _) fun source => Keeps.bind ?_ fun _ =>
      Keeps.bind (Keeps.lift _) fun _ => ih
    refine Keeps.step stable (fun t ht => ?_) (fun n t ht => ?_) (fun c t ht => ht)
    · unfold Step.done
      simp only [storePayload]
      cases t.directory jobId with
      | none => exact ht
      | some directory => exact hroots t _ rfl ht
    · simp only [storePayload]
      cases t.directory jobId with
      | none => exact ht
      | some directory => exact hroots t _ rfl ht

omit [Unicode] [Sha256] in
/-- A journal that was written completely is the one that is read. -/
theorem wp_writeNewJournal_bytes (medium : Medium) (name : String) (header : JournalHeader) :
    Wp A ((writeNewJournal medium name header).run : JobProg Unit)
      (fun _ t => t.journal name = some (newJournal header)) (fun _ _ => True) (fun _ => True) d := by
  refine Wp.step_stable (I := fun _ => True) trivial (fun _ _ _ _ => trivial) fun t _ => ?_
  constructor
  · intro _ t' heff
    simp only [writeNewJournal] at heff
    cases hdirectory : t.directory name with
    | none => simp [hdirectory] at heff
    | some directory =>
      cases hjournal : directory.journal with
      | some old => simp [hdirectory, hjournal] at heff
      | none =>
        simp only [hdirectory, hjournal, Except.ok.injEq, Prod.mk.injEq, true_and] at heff
        subst heff
        exact Disk.journal_setEntry _ (Disk.hasJob_of_directory hdirectory)
  all_goals simp

omit [Unicode] in
theorem keeps_journal_prepareTargets (stamp : Stamp) (root : RegisteredRoot) {jobId : String}
    {bytes : Bytes} (files : List (FileEntry × Nat)) :
    Keeps A (fun t : Disk => t.journal jobId = some bytes) (prepareTargets stamp root jobId files) := by
  induction files with
  | nil => exact Keeps.pure ()
  | cons file files ih =>
    refine Keeps.bind (keeps_ensureReservedLeafDirectory (stable_journal jobId bytes)
      fun t ht _ => ht) fun _ => Keeps.bind (Keeps.look _) fun payload => ?_
    cases payload with
    | none => exact Keeps.throw_bind _ _
    | some payload =>
      refine Keeps.bind ?_ fun _ => Keeps.bind (Keeps.lift _) fun _ => ih
      refine Keeps.step (stable_journal jobId bytes) (fun t ht => ?_) (fun n t ht => ?_)
        (fun c t ht => ht)
      · refine Step.done_of_ok (I := fun t : Disk => t.journal jobId = some bytes) (fun t _ t' ht heff => ?_) ht
        simp only [storePrepared] at heff
        split at heff
        · cases heff
        split at heff
        · cases heff
        · cases heff
          exact ht
      · simp only [storePrepared]
        split
        · exact ht
        split
        · exact ht
        · exact ht

/-- The journal holds the header of the targets as they are when they are inspected. -/
theorem wp_prepareFileSet_journal (stable : Stable A I) (hroots : OnRoots I) (hd : I d)
    (manifest : VerifiedFileSet) (root : RegisteredRoot) (absolute : Bool) (staging : Staging)
    (stamp : Stamp) (policy : Policy) :
    Wp A (prepareFileSet manifest root absolute staging stamp policy)
      (fun job t => ∃ u, I u ∧ job = { header := headerOf u root manifest, policy } ∧
        t.journal (jobIdOf root manifest) = some (newJournal (headerOf u root manifest)))
      (fun _ _ => True) (fun _ => True) d := by
  rw [prepareFileSet_eq]
  refine Wp.bind ((hroots.keeps_beginJob stable manifest root absolute d hd).mono
    (fun _ t ht => ?_) (fun _ _ _ => trivial) fun _ _ => trivial)
  have hpayloads : Keeps A I (createPayloads.run : JobProg Unit) := by
    refine Keeps.whole .plain stable fun t _ t' ht heff => ?_
    cases heff
    exact ht
  refine Wp.bind ((hpayloads t ht).mono (fun _ t ht => ?_) (fun _ _ _ => trivial) fun _ _ => trivial)
  have hcontents : Wp A (prepareJobContents manifest root staging stamp policy (jobIdOf root manifest))
      (fun header t => ∃ u, I u ∧ header = headerOf u root manifest ∧
        t.journal (jobIdOf root manifest) = some (newJournal header))
      (fun _ _ => True) (fun _ => True) t := by
    refine Wp.bind ((hroots.keeps_copyPayloads stable _ staging _ t ht).mono (fun _ u hu => ?_)
      (fun _ _ _ => trivial) fun _ _ => trivial)
    refine Wp.bind ((wp_inspectFiles root _).mono ?_ (fun _ _ h => h) fun _ h => h)
    rintro files _ ⟨rfl, rfl, -⟩
    refine Wp.bind ((wp_inspectRemovals root _ _).mono ?_ (fun _ _ h => h) fun _ h => h)
    rintro removals u ⟨rfl, rfl, -⟩
    refine Wp.bind ((wp_writeNewJournal_bytes _ _ _).mono (fun _ v hv => ?_) (fun _ _ h => h)
      fun _ h => h)
    refine Wp.bind ((keeps_journal_prepareTargets stamp root _ v hv).mono (fun _ w hw => ?_)
      (fun _ _ _ => trivial) fun _ _ => trivial)
    exact Wp.pure ⟨u, hu, rfl, hw⟩
  refine Wp.bind (Wp.attempt (hcontents.mono ?_ ?_ fun _ _ => trivial))
  · rintro header u ⟨v, hv, rfl, hjournal⟩
    exact Wp.pure ⟨v, hv, rfl, hjournal⟩
  · intro error u _
    have hcleanup := keeps_localCleanupJob (A := A) (I := fun _ => True) root
      (jobIdOf root manifest) (fun _ _ _ _ => trivial) (fun _ _ => trivial) (fun _ _ _ => trivial)
      ⟨fun _ _ => trivial, fun _ _ _ => trivial⟩ u trivial
    refine Wp.bind (Wp.attempt (hcleanup.mono (fun _ _ _ => ?_) (fun _ _ _ => ?_) fun _ h => h))
    · exact Wp.throw trivial
    · exact Wp.throw trivial

end Prepare

/-! ### What a commit and the recoveries after it append -/

/-- The records of a journal, where every append writes all of its record or nothing and tells
which. -/
inductive InOrder : List JournalState → Prop where
  | prepared : InOrder [.prepared]
  | committing : InOrder [.prepared, .committing]
  | committed : InOrder [.prepared, .committing, .committed]
  | rollingBack : InOrder [.prepared, .committing, .rollingBack]

/-- Such an append, as far as the records go: the Committed record is never reported in vain. -/
def Medium.Whole (medium : Medium) : Prop :=
  medium.tears = false ∧ medium.unknown .committed = false

/-- The journal holds such records, or it is gone. -/
def Standing (header : JournalHeader) (d : Disk) : Prop :=
  d.journal header.jobId = none ∨
    ∃ states, InOrder states ∧ d.journal header.jobId = some (journalBytes header states)

section Appends

variable {A : Event Intrusion → Prop} {prepared : PreparedJob} {header : JournalHeader}
  {states : List JournalState} {d d' : Disk}

theorem AppendChange.journalBytes {state : JournalState}
    (hc : AppendChange header.jobId state (· = (recordLine state).length) d d')
    (h : d.journal header.jobId = some (journalBytes header states)) :
    d'.journal header.jobId = some (Se7en.journalBytes header (states ++ [state])) := by
  obtain ⟨old, n, hold, rfl, hnew⟩ := hc.journal
  obtain rfl := Option.some.inj (h.symm.trans hold)
  rw [hnew, List.take_length, journalBytes_append]

theorem wp_appendState_journal (htears : prepared.policy.medium.tears = false)
    (h : d.journal prepared.header.jobId = some (journalBytes prepared.header states))
    (state : JournalState) :
    Wp A (appendState prepared state)
      (fun _ t => t.journal prepared.header.jobId =
        some (journalBytes prepared.header (states ++ [state])))
      (fun _ t => t.journal prepared.header.jobId = some (journalBytes prepared.header states) ∨
        prepared.policy.medium.unknown state = true ∧ t.journal prepared.header.jobId =
          some (journalBytes prepared.header (states ++ [state])))
      (fun t => t.journal prepared.header.jobId = some (journalBytes prepared.header states) ∨
        t.journal prepared.header.jobId =
          some (journalBytes prepared.header (states ++ [state]))) d := by
  refine Wp.step_stable h (stable_journal _ _) fun t ht => ?_
  have hmeets := @appendRecord_meets A prepared.policy.medium prepared.header.jobId state t
  constructor
  · exact fun a t' heff => (hmeets.ok a t' heff).journalBytes ht
  · exact fun _ _ => .inl ht
  · intro c hc
    rcases hmeets.failed c hc with hsame | hchange
    · exact .inl (by rw [hsame]; exact ht)
    · have hwhole := hchange.whole htears
      exact .inr ⟨hwhole.1, hwhole.2.journalBytes ht⟩
  · intro c hc
    rcases hmeets.crashed c hc with hsame | hchange
    · exact .inl (by rw [hsame]; exact ht)
    · exact .inr (AppendChange.journalBytes (hchange.mono (by simp [Medium.Cuts, htears])) ht)

theorem Standing.stable : Stable A (Standing header) := by
  intro m t _ ht
  rw [Standing, journal_act]
  exact ht

theorem Standing.of_journal (h : Standing header d)
    (hj : d'.journal header.jobId = d.journal header.jobId) : Standing header d' := by
  rw [Standing, hj]
  exact h

theorem Standing.dropped (h : Standing header d) (hd : Dropped header.jobId d d') :
    Standing header d' := by
  obtain hsame | hnone := hd
  · exact h.of_journal hsame
  · exact .inl hnone

theorem Standing.disposable : Disposable header.jobId (Standing header) where
  done _ _ := .inl Disk.journal_withoutJob
  part _ n ht := ht.dropped (dropped_removeJob_part n)

theorem ApplyChange.journal {path jobId : String} {entry : JournalEntry}
    (h : ApplyChange path jobId entry d d') (name : String) : d'.journal name = d.journal name := by
  cases h <;> rfl

theorem RollbackChange.journal {path jobId : String} {entry : JournalEntry}
    (h : RollbackChange path jobId entry d d') (name : String) :
    d'.journal name = d.journal name := by
  cases h <;> rfl

theorem journal_of_private {name other : String} (hp : Private name d d')
    (hother : other ≠ name) : d'.journal other = d.journal other := by
  simp only [Disk.journal, Disk.directory, hp.hasJob other hother, hp.entry other hother]

theorem Standing.disposable_other {name : String} (hother : header.jobId ≠ name) :
    Disposable name (Standing header) where
  done t ht := ht.of_journal (journal_of_private (private_removeJob_done t name) hother)
  part t n ht := ht.of_journal (journal_of_private (private_removeJob_part t name n) hother)

theorem Standing.disposable_any (name : String) : Disposable name (Standing header) := by
  by_cases hother : header.jobId = name
  · exact hother ▸ Standing.disposable
  · exact Standing.disposable_other hother

/-- What follows an append, for this job or for another one. -/
theorem keeps_standing_finish
    (hpolicy : prepared.policy.usesAtomicReplacement = false) :
    Keeps A (Standing header) (rollbackEntries prepared) ∧
      Keeps A (Standing header) (cleanupPreparedJob prepared) := by
  constructor
  · exact keeps_rollbackEntries hpolicy Standing.stable fun _ _ _ _ ht hc =>
      ht.of_journal (hc.journal _)
  · exact keeps_cleanupPreparedJob Standing.stable (fun _ ht => ht)
      (fun _ n ht => ht.dropped (dropped_removeReserved_part n)) (Standing.disposable_any _)

theorem standing_of_append {d : Disk} (happends : InOrder states) {state : JournalState}
    (hnext : InOrder (states ++ [state]))
    (h : d.journal header.jobId = some (journalBytes header states) ∨
      d.journal header.jobId = some (journalBytes header (states ++ [state]))) :
    Standing header d := by
  rcases h with h | h
  · exact .inr ⟨_, happends, h⟩
  · exact .inr ⟨_, hnext, h⟩

/-- The RollingBack record, and then the way back. -/
theorem wp_standing_rollBack (hpolicy : prepared.policy.usesAtomicReplacement = false)
    (hmedium : prepared.policy.medium.Whole)
    (h : d.journal prepared.header.jobId =
      some (journalBytes prepared.header [.prepared, .committing]))
    (error : MaintenanceError) (incomplete : String) :
    Wp A (rollBack prepared error incomplete) (fun _ => Standing prepared.header)
      (fun _ => Standing prepared.header) (Standing prepared.header) d := by
  obtain ⟨hrollback, hcleanup⟩ :=
    @keeps_standing_finish A prepared prepared.header hpolicy
  have hfinish := Keeps.bind hrollback fun _ => hcleanup
  have happend := (wp_appendState_journal (A := A) hmedium.1 h .rollingBack).mono
    (Q := fun _ => Standing prepared.header) (E := fun _ => Standing prepared.header)
    (fun _ t ht => .inr ⟨_, .rollingBack, ht⟩)
    (fun _ t ht => standing_of_append .committing .rollingBack (ht.imp id And.right))
    (fun t ht => standing_of_append .committing .rollingBack ht)
  refine (wp_rollBack_of happend fun t ht => hfinish t ht).mono (fun _ _ h => h.elim)
    (fun _ _ h => h) (fun _ h => h)

/-- A commit appends the records in their order. -/
theorem wp_standing_commitFileSet (hpolicy : prepared.policy.usesAtomicReplacement = false)
    (hmedium : prepared.policy.medium.Whole)
    (h : d.journal prepared.header.jobId = some (journalBytes prepared.header [.prepared])) :
    Wp A (commitFileSet prepared) (fun _ => Standing prepared.header)
      (fun _ => Standing prepared.header) (Standing prepared.header) d := by
  have hstart : Standing prepared.header d := .inr ⟨_, .prepared, h⟩
  refine Wp.bind (Wp.inspect (fun _ _ => ?_) (fun _ _ => hstart))
  refine Wp.bind ((keeps_verifyOriginalSnapshots (I := fun t => t = d) _ d rfl).mono ?_
    (fun _ t ht => ht ▸ hstart) (fun t ht => ht ▸ hstart))
  rintro _ d rfl
  refine Wp.bind ((wp_appendState_journal hmedium.1 h .committing).mono (fun _ t ht => ?_)
    (fun _ t ht => standing_of_append .prepared .committing (ht.imp id And.right))
    fun t ht => standing_of_append .prepared .committing ht)
  have happly : Keeps A (fun u : Disk => u.journal prepared.header.jobId =
      some (journalBytes prepared.header [.prepared, .committing]))
      (applyEntries prepared prepared.header.entries) :=
    keeps_applyEntries hpolicy (stable_journal _ _) fun _ _ _ _ hu hc => (hc.journal _).trans hu
  refine Wp.bind (Wp.attempt ((happly t ht).mono (fun _ u hu => ?_)
    (fun _ u hu => wp_standing_rollBack hpolicy hmedium hu _ _)
    fun u hu => .inr ⟨_, .committing, hu⟩))
  refine Wp.bind (Wp.attempt ((wp_appendState_journal hmedium.1 hu .committed).mono
    (fun _ v hv => ?_) (fun _ v hv => ?_)
    fun v hv => standing_of_append .committing .committed hv))
  · have hcleanup := (@keeps_standing_finish A prepared prepared.header hpolicy).2 v (.inr ⟨_, .committed, hv⟩)
    refine Wp.bind (Wp.attempt (hcleanup.mono
      (fun _ _ hw => Wp.pure hw) (fun _ _ hw => Wp.pure hw) fun _ hw => hw))
  · simp only [hmedium.2, Bool.false_eq_true, false_and, or_false] at hv
    exact wp_standing_rollBack hpolicy hmedium hv _ _

end Appends

section Recovery

variable [Unicode] [Deserialize JournalHeader] [Deserialize JournalStateRecord]
  [LawfulDeserialize JournalStateRecord] {A : Event Intrusion → Prop} {header : JournalHeader}
  {policy : Policy}

omit [Unicode] [Deserialize JournalHeader] [Deserialize JournalStateRecord]
  [LawfulDeserialize JournalStateRecord] in
/-- Recovery of a job in a state; only a Committing one gets a record. -/
theorem wp_standing_recoverState {prepared : PreparedJob} {state : JournalState} {d : Disk}
    (hpolicy : prepared.policy.usesAtomicReplacement = false) (hd : Standing header d)
    (happend : state = .committing → Wp A (appendState prepared .rollingBack)
      (fun _ => Standing header) (fun _ => Standing header) (Standing header) d)
    (result : RecoveryResult) :
    Wp A (recoverState prepared state result) (fun _ => Standing header) (fun _ => Standing header)
      (Standing header) d := by
  obtain ⟨hrollback, hcleanup⟩ := @keeps_standing_finish A prepared header hpolicy
  have hfinished : ∀ result', Keeps A (Standing header)
      (do cleanupPreparedJob prepared; pure result' : JobProg RecoveryResult) :=
    fun _ => Keeps.bind hcleanup fun _ => Keeps.pure _
  have hundone : ∀ result', Keeps A (Standing header)
      (do rollbackEntries prepared; cleanupPreparedJob prepared; pure result' :
        JobProg RecoveryResult) :=
    fun _ => Keeps.bind hrollback fun _ => hfinished _
  cases state with
  | prepared => exact hfinished _ d hd
  | rollingBack => exact hundone _ d hd
  | committed => exact hfinished _ d hd
  | committing =>
    exact Wp.bind ((happend rfl).mono (fun _ t ht => hundone _ t ht) (fun _ _ h => h) fun _ h => h)

theorem keeps_standing_recoverDirectory (hpolicy : policy.usesAtomicReplacement = false)
    (hmedium : policy.medium.Whole) (name : String) (result : RecoveryResult) :
    Keeps A (Standing header) (recoverDirectory policy name result) := by
  intro d hd
  refine Wp.bind (Wp.look ?_)
  cases hdirectory : d.directory name with
  | none => exact Wp.throw hd
  | some directory =>
    cases hjournal : directory.journal with
    | none =>
      simp only [hjournal]
      have hremove := @keeps_removeJob A (Standing header) name Standing.stable (Standing.disposable_any name) d hd
      exact Wp.bind (hremove.mono (fun _ _ h => Wp.pure h) (fun _ _ h => h) fun _ h => h)
    | some bytes =>
      simp only [hjournal]
      refine Wp.bind (Wp.lift (fun read hread => ?_) (fun _ _ => hd))
      obtain ⟨found, state⟩ := read
      have hbytes : d.journal name = some bytes := by simp [Disk.journal, hdirectory, hjournal]
      by_cases hname : name = found.jobId
      · subst hname
        simp only [ne_eq, not_true_eq_false, if_false]
        refine Wp.bind (Wp.look ?_)
        split
        · refine Wp.bind (Wp.look ?_)
          split
          · have hcleanup := @keeps_cleanupPrivatePreparedJob A (Standing header) { header := found, policy }
              Standing.stable (@Standing.disposable_any header _) d hd
            exact Wp.bind (hcleanup.mono (fun _ _ h => Wp.pure h) (fun _ _ h => h) fun _ h => h)
          · exact Wp.throw hd
        · refine wp_standing_recoverState hpolicy hd (fun hcommitting => ?_) result
          subst hcommitting
          by_cases hown : header.jobId = found.jobId
          · obtain hnone | ⟨states, horder, hstates⟩ := hd
            · rw [hown, hbytes] at hnone
              cases hnone
            · have hsame := hbytes
              rw [← hown, hstates] at hsame
              obtain rfl := Option.some.inj hsame
              obtain ⟨rfl, hlast⟩ := readJournal_sound hread
              obtain rfl : states = [.prepared, .committing] := by
                cases horder <;> simp_all
              exact (wp_appendState_journal hmedium.1 hstates .rollingBack).mono
                (fun _ t ht => .inr ⟨_, .rollingBack, ht⟩)
                (fun _ t ht => standing_of_append .committing .rollingBack (ht.imp id And.right))
                fun t ht => standing_of_append .committing .rollingBack ht
          · exact keeps_appendRecord Standing.stable
              (fun _ _ ht hc => ht.of_journal (journal_of_private hc.private hown)) d hd
      · simp only [ne_eq, hname, not_false_eq_true, if_true]
        exact Wp.bind (Wp.throw hd)

end Recovery

/-! ### Reading it back -/

section Reading

variable [Unicode] [Deserialize JournalHeader] [Deserialize JournalStateRecord]

theorem readJournal_eq_ok {bytes : Bytes} {header : JournalHeader} {state : JournalState}
    (h : readJournal bytes = .ok (header, state)) :
    bytes.length ≤ maxManifestBytes ∧ validateJournalHeader header = .ok () := by
  unfold readJournal at h
  by_cases hbound : bytes.length > maxManifestBytes
  · simp [hbound] at h
  refine ⟨Nat.not_lt.mp hbound, ?_⟩
  cases hsplit : split 10 bytes with
  | nil => exact absurd hsplit (split_ne_nil _ _)
  | cons headerBytes lines =>
    simp only [hbound, if_false, hsplit] at h
    by_cases hempty : headerBytes.isEmpty
    · simp [hempty] at h
    simp only [hempty, Bool.false_eq_true, if_false] at h
    obtain ⟨found, -, h⟩ := Result.bind_eq_ok.mp h
    obtain ⟨⟨⟩, hvalid, h⟩ := Result.bind_eq_ok.mp h
    obtain ⟨records, -, h⟩ := Result.bind_eq_ok.mp h
    cases records with
    | none => simp at h
    | some state =>
      obtain ⟨rfl, -⟩ := Prod.mk.inj (Except.ok.inj h)
      exact hvalid

omit [Deserialize JournalHeader] [Deserialize JournalStateRecord] in
theorem validateJournalHeader_jobId {header : JournalHeader}
    (h : validateJournalHeader header = .ok ()) : validInternalJobId header.jobId = true := by
  cases hjob : validInternalJobId header.jobId with
  | true => rfl
  | false => simp [validateJournalHeader, hjob] at h

/-- The reader returns the header behind each record. -/
def Readable (header : JournalHeader) : Prop :=
  ∀ states, InOrder states → ∃ state, states.getLast? = some state ∧
    readJournal (journalBytes header states) = .ok (header, state)

omit [Unicode] [Deserialize JournalHeader] [Deserialize JournalStateRecord] in
theorem InOrder.length_le {states : List JournalState} (h : InOrder states)
    (header : JournalHeader) : (journalBytes header states).length ≤
      (journalBytes header [.prepared, .committing, .rollingBack]).length := by
  have hrecords : (states.flatMap recordLine).length ≤
      ([JournalState.prepared, .committing, .rollingBack].flatMap recordLine).length := by
    cases h <;> decide
  simp only [journalBytes, List.length_append]
  omega

omit [Unicode] [Deserialize JournalHeader] [Deserialize JournalStateRecord] in
theorem InOrder.advance {states : List JournalState} (h : InOrder states) :
    ∃ state, states.getLast? = some state ∧ Se7en.advance none states = .ok (some state) := by
  cases h <;> exact ⟨_, rfl, rfl⟩

/-- A journal stays readable exactly if its job has a valid ID and its longest form is within
the bound. -/
theorem readable_headerOf_iff [Sha256] [LawfulDeserialize JournalHeader]
    [LawfulDeserialize JournalStateRecord] {d : Disk} {root : RegisteredRoot}
    {manifest : VerifiedFileSet} :
    Readable (headerOf d root manifest) ↔ validInternalJobId (jobIdOf root manifest) = true ∧
      journalSize d root manifest ≤ maxManifestBytes := by
  constructor
  · intro h
    obtain ⟨state, -, hread⟩ := h _ .rollingBack
    obtain ⟨hbound, hvalid⟩ := readJournal_eq_ok hread
    have hjob : validInternalJobId (headerOf d root manifest).jobId = true :=
      validateJournalHeader_jobId hvalid
    rw [journalBytes_headerOf] at hbound
    exact ⟨hjob, hbound⟩
  · rintro ⟨hjob, hbound⟩ states horder
    obtain ⟨state, hlast, hadvance⟩ := horder.advance
    refine ⟨state, hlast, ?_⟩
    have hlength := horder.length_le (headerOf d root manifest)
    rw [journalBytes_headerOf] at hlength
    have hread : readJournal (journalBytes (headerOf d root manifest) states ++ []) =
        .ok (headerOf d root manifest, state) := readJournal_complete
      (by rw [List.append_nil]; exact hlength.trans hbound)
      (validateJournalHeader_headerOf d manifest hjob)
      (by simp [hadvance, split, readRecords])
    rwa [List.append_nil] at hread

/-! ### Prepared jobs -/

/-- The job is committed, and recoveries run any number of times; both may end anywhere. -/
def PreparedJob.Reaches (job : PreparedJob) (d t : Disk) : Prop :=
  ∃ u, (u = d ∨ EndsIn (fun _ => True) (commitFileSet job) d u) ∧
    Rounds (fun _ => True) (recoverIncompleteWithPolicy job.policy) u t

theorem PreparedJob.Reaches.standing [LawfulDeserialize JournalStateRecord] {job : PreparedJob}
    {d t : Disk} (hreach : job.Reaches d t)
    (hpolicy : job.policy.usesAtomicReplacement = false) (hmedium : job.policy.medium.Whole)
    (h : d.journal job.header.jobId = some (journalBytes job.header [.prepared])) :
    Standing job.header t := by
  obtain ⟨u, hcommit, hrounds⟩ := hreach
  refine (keeps_recoverIncomplete
    (keeps_standing_recoverDirectory hpolicy hmedium)).rounds ?_ hrounds
  obtain rfl | ⟨sch, o, rest, hall, hrun⟩ := hcommit
  · exact .inr ⟨_, .prepared, h⟩
  · have hend := (wp_standing_commitFileSet (A := fun _ => True) hpolicy hmedium h).anyEnd sch
    rw [hrun] at hend
    exact hend

end Reading

/-! ### A manifest of removals -/

section Long

@[reducible] noncomputable def canonicalHeaders : Deserialize JournalHeader := .canonical _

attribute [local instance] sampleUnicode sampleSha256 sampleRecords sampleRecords_lawful
  canonicalHeaders

local instance canonicalHeaders_lawful : LawfulDeserialize JournalHeader :=
  Deserialize.canonical_lawful _

/-- The characters of the long paths: each is one byte, and nothing about it is special. -/
def Plain (c : Char) : Prop := c = 'a' ∨ c.isDigit = true

def PlainFacts (c : Char) : Prop :=
  escapeChar c = [c] ∧ (String.utf8EncodeChar c).length = 1 ∧ c.toLower = c ∧ 32 ≤ c.toNat ∧
    c ∉ ['<', '>', ':', '"', '|', '?', '*'] ∧ c ≠ '/' ∧ c ≠ '\\' ∧ c ≠ ' ' ∧ c ≠ '.'

instance (c : Char) : Decidable (PlainFacts c) := inferInstanceAs (Decidable (_ ∧ _))

theorem digit_plainFacts : ∀ n < 58, 48 ≤ n → PlainFacts (Char.ofNat n) := by decide

theorem Plain.facts {c : Char} (h : Plain c) : PlainFacts c := by
  obtain rfl | hdigit := h
  · decide
  · have hrange : 48 ≤ c.toNat ∧ c.toNat ≤ 57 := by
      simp only [Char.isDigit, Bool.and_eq_true, decide_eq_true_eq] at hdigit
      exact hdigit
    have hfacts := digit_plainFacts c.toNat (by omega) hrange.1
    rwa [Char.ofNat_toNat] at hfacts

def longText (i : Nat) : List Char := List.replicate 300 'a' ++ Nat.toDigits 10 i

def longPath (i : Nat) : String := String.ofList (longText i)

theorem longText_plain (i : Nat) : ∀ c ∈ longText i, Plain c := by
  intro c hc
  rcases List.mem_append.mp hc with hc | hc
  · exact .inl (List.eq_of_mem_replicate hc)
  · exact .inr (Nat.isDigit_of_mem_toDigits (by decide) (by decide) hc)

theorem longText_cons (i : Nat) :
    ∃ rest, longText i = 'a' :: 'a' :: rest ∧ ∀ c ∈ rest, Plain c := by
  refine ⟨List.replicate 298 'a' ++ Nat.toDigits 10 i, rfl, fun c hc => ?_⟩
  exact longText_plain i c (List.mem_cons_of_mem _ (List.mem_cons_of_mem _ hc))

theorem length_longText {i : Nat} (h : i < maxFileEntries) :
    300 ≤ (longText i).length ∧ (longText i).length ≤ 305 := by
  have hdigits : (Nat.toDigits 10 i).length ≤ 5 :=
    (Nat.length_toDigits_le_iff (by decide) (by decide)).mpr h
  simp only [longText, List.length_append, List.length_replicate]
  omega

theorem utf8_plain {text : List Char} (h : ∀ c ∈ text, Plain c) :
    (utf8 text).length = text.length ∧ text.flatMap escapeChar = text := by
  induction text with
  | nil => exact ⟨rfl, rfl⟩
  | cons c text ih =>
    rw [List.forall_mem_cons] at h
    obtain ⟨hlength, hescape⟩ := ih h.2
    obtain ⟨hchar, hbyte, -⟩ := h.1.facts
    constructor
    · rw [utf8_cons, List.length_append, hbyte, hlength, List.length_cons, Nat.add_comm]
    · rw [List.flatMap_cons, hchar, hescape, List.singleton_append]

theorem quotedSize_longPath {i : Nat} (h : i < maxFileEntries) :
    302 ≤ quotedSize (longPath i) ∧ quotedSize (longPath i) ≤ 307 := by
  obtain ⟨hlength, hescape⟩ := utf8_plain (longText_plain i)
  have hbounds := length_longText h
  have hquote : (String.utf8EncodeChar '"').length = 1 := by decide
  have hsize : quotedSize (longPath i) = (longText i).length + 2 := by
    simp only [quotedSize, stringText, longPath, String.toList_ofList, hescape, utf8_cons, utf8_append,
      List.length_append, hquote, hlength]
    simp [utf8]
    omega
  omega

theorem longPath_injective : Function.Injective longPath := by
  intro i j hij
  have htext : longText i = longText j := by
    have htoList := congrArg String.toList hij
    simpa [longPath] using htoList
  have hdigits := List.append_cancel_left htext
  have hvalue := congrArg (fun digits => Nat.ofDigitChars 10 digits 0) hdigits
  simpa only [Nat.ofDigitChars_ten_toDigits] using hvalue

theorem longPath_toLowercase (i : Nat) : Unicode.toLowercase (longPath i) = longPath i := by
  have hmap : (longText i).map Char.toLower = longText i := by
    rw [List.map_congr_left fun c hc => (longText_plain i c hc).facts.2.2.1, List.map_id']
  apply String.toList_inj.mp
  change ((longPath i).map Char.toLower).toList = _
  rw [String.toList_map]
  simpa [longPath] using hmap

theorem not_reserved_of_plain {rest : List Char} (h : ∀ c ∈ rest, Plain c) :
    componentIsForbidden true ('a' :: 'a' :: rest) = false := by
  have hall : ∀ c ∈ 'a' :: 'a' :: rest, Plain c := by
    simp only [List.forall_mem_cons]
    exact ⟨.inl rfl, .inl rfl, h⟩
  have hstem : ('a' :: 'a' :: rest).takeWhile (· ≠ '.') = 'a' :: 'a' :: rest := by
    have hplain : ∀ c ∈ 'a' :: 'a' :: rest, decide (c ≠ '.') = true := by
      intro c hc
      simpa using (hall c hc).facts.2.2.2.2.2.2.2.2
    have htake := @List.takeWhile_append_of_pos Char (fun c => decide (c ≠ '.')) _ [] hplain
    simpa only [List.append_nil, List.takeWhile_nil] using htake
  have hlast : ∀ c, (∀ d, Plain d → d ≠ c) → ('a' :: 'a' :: rest).getLast? ≠ some c := by
    intro c hc hget
    exact hc c (hall c (List.mem_of_getLast? hget)) rfl
  have hspace := hlast ' ' fun d hd => hd.facts.2.2.2.2.2.2.2.1
  have hdot := hlast '.' fun d hd => hd.facts.2.2.2.2.2.2.2.2
  have hupper : Char.toUpper 'a' = 'A' := by decide
  have hlower : Char.toLower 'a' = 'a' := by decide
  have hwindows : isReservedWindowsName ('a' :: 'a' :: rest) = false := by
    unfold isReservedWindowsName
    rw [hstem]
    simp [hupper]
  have hreserved : ('a' :: 'a' :: rest).map Char.toLower ≠ reservedRootDirectory := by
    have hdirectory : reservedRootDirectory.head? = some '.' := by decide
    intro heq
    rw [← heq, List.map_cons, hlower, List.head?_cons] at hdirectory
    cases hdirectory
  unfold componentIsForbidden
  simp only [hspace, hdot, hwindows, hreserved, decide_false, Bool.or_false, Bool.and_false]
  simp

theorem validateRelativePath_longPath {i : Nat} (h : i < maxFileEntries) :
    validateRelativePath (longPath i) = .ok () := by
  obtain ⟨rest, htext, hrest⟩ := longText_cons i
  have hall := longText_plain i
  have hbytes : byteLength (longPath i) ≤ maxPathBytes := by
    have hlength := (length_longText h).2
    have hbound : 305 ≤ maxPathBytes := by decide
    rw [byteLength, longPath, String.toList_ofList, (utf8_plain hall).1]
    omega
  have hslash : '/' ∉ longText i := fun hmem => (hall _ hmem).facts.2.2.2.2.2.1 rfl
  have hbackslash : (longText i).contains '\\' = false := by
    rw [List.contains_eq_mem, decide_eq_false_iff_not]
    exact fun hmem => (hall _ hmem).facts.2.2.2.2.2.2.1 rfl
  have hlast : (longText i).getLast? ≠ some '/' := fun hget => hslash (List.mem_of_getLast? hget)
  have hsplit := split_of_not_mem hslash
  have hspecial : (longText i).any (fun c => c.toNat < 32 ||
      ['<', '>', ':', '"', '|', '?', '*'].contains c) = false := by
    rw [List.any_eq_false]
    intro c hc
    obtain ⟨-, -, -, hvisible, hclean, -⟩ := (hall c hc).facts
    simp only [Bool.or_eq_true, decide_eq_true_eq, List.contains_eq_mem, not_or]
    exact ⟨Nat.not_lt.mpr hvisible, hclean⟩
  have hforbidden := not_reserved_of_plain hrest
  unfold validateRelativePath
  simp only [longPath, String.toList_ofList] at hbytes ⊢
  have hsome : (longText i).isEmpty = false ∧ (longText i).head? ≠ some '/' := by simp [htext]
  simp only [hspecial, hsplit, gt_iff_lt, Nat.not_lt.mpr hbytes, hlast, hsome, decide_false,
    Bool.or_false, hbackslash, Bool.false_eq_true, if_false]
  rw [htext, hforbidden]
  rfl

/-- A manifest that only removes. -/
def removing (removals : List String) : FileSet where
  files := []
  generation := 1
  keyId := "release"
  kind := fileSetKind
  productId := "launcher"
  removeFiles := removals
  schema := fileSetSchema
  signature := String.ofList (List.replicate 128 '3')

section Removing

variable {removals : List String}

theorem validateFileSet_removing
    (hcount : removals.length ≠ 0 ∧ removals.length ≤ maxFileEntries)
    (hvalid : ∀ path ∈ removals, validateRelativePath path = .ok ())
    (hnodup : (removals.map Unicode.toLowercase).Nodup) :
    validateFileSet (removing removals) "launcher" = .ok () := by
  have hmetadata : (1 : UInt64) ≠ 0 ∧ validIdentifier "launcher" = true := by decide
  have hremovals : validateRemovals [] removals = .ok () :=
    validateRemovals_ok.mpr ⟨hvalid, by simp, hnodup⟩
  refine validateFileSet_eq_ok.mpr ⟨hmetadata, rfl, ?_, [], rfl, hremovals⟩
  simpa [removing] using hcount

theorem size_removing (hsome : 0 < removals.length) : (toValue (removing removals)).size =
    269 + (removals.map fun path => (Value.string path).size).sum + removals.length := by
  have hkeys : quotedSize "files" = 7 ∧ quotedSize "generation" = 12 ∧ quotedSize "keyId" = 7 ∧
      quotedSize "kind" = 6 ∧ quotedSize "productId" = 11 ∧ quotedSize "removeFiles" = 13 ∧
      quotedSize "schema" = 8 ∧ quotedSize "signature" = 11 := by decide
  have hvalues : quotedSize "release" = 9 ∧ quotedSize fileSetKind = 23 ∧
      quotedSize "launcher" = 10 ∧ digitCount (1 : UInt64).toNat = 1 ∧
      digitCount fileSetSchema.toNat = 1 ∧
      quotedSize (String.ofList (List.replicate 128 '3')) = 130 := by decide +kernel
  obtain ⟨h₁, h₂, h₃, h₄, h₅, h₆, h₇, h₈⟩ := hkeys
  obtain ⟨v₁, v₂, v₃, v₄, v₅, v₆⟩ := hvalues
  simp only [toValue, removing, size_object, size_array, List.map_cons, List.map_nil, List.sum_cons,
    List.sum_nil, List.length_cons, List.length_nil, size_string, size_unsigned, h₁, h₂, h₃, h₄, h₅,
    h₆, h₇, h₈, v₁, v₂, v₃, v₄, v₅, v₆, List.map_map, Function.comp_def, List.length_map]
  omega

theorem removing_regular :
    (toValue (removing removals)).Regular ∧ (removing removals).payload.Regular := by
  have hremovals : (Value.array (removals.map .string)).Regular := by
    rw [Value.Regular, regularItems_iff]
    simp only [List.forall_mem_map]
    exact fun _ _ => trivial
  constructor
  · refine ⟨⟨trivial, trivial, trivial, trivial, trivial, hremovals, trivial, trivial, trivial⟩, ?_⟩
    exact sorted_of_keys ["files", "generation", "keyId", "kind", "productId", "removeFiles",
      "schema", "signature"] rfl (by decide)
  · refine ⟨⟨trivial, trivial, trivial, trivial, trivial, hremovals, trivial, trivial⟩, ?_⟩
    exact sorted_of_keys ["files", "generation", "keyId", "kind", "productId", "removeFiles",
      "schema"] rfl (by decide)

def removingBytes (removals : List String) : Bytes := utf8 (toValue (removing removals)).text

@[reducible] def anySignature : Ed25519 := ⟨fun _ => true, fun _ _ _ => true⟩

def longKeyring : VerifiedKeyring where
  keyring := Windows.releaseKeyring
  digest := Vector.replicate 32 0

theorem removing_le_journalSize (d : Disk) (root : RegisteredRoot) {manifest : VerifiedFileSet}
    (hmanifest : manifest.fileSet = removing removals) :
    (removals.zipIdx.map (removalEntrySize d root 0)).sum ≤ journalSize d root manifest := by
  simp only [journalSize, entriesSize, hmanifest, removing, List.length_nil]
  omega

theorem fromSlice_removing : @fromSlice FileSet (Deserialize.canonicalWith [removing removals])
    (removingBytes removals) = some (removing removals) := by
  have hjson : canonicalJson (toValue (removing removals)) = .ok (removingBytes removals) :=
    canonicalJson_regular removing_regular.1
  simp [fromSlice, hjson]

theorem verifyFileSet_removing [Deserialize FileSet]
    (hfound : fromSlice (removingBytes removals) = some (removing removals))
    (hlength : (removingBytes removals).length ≤ maxManifestBytes)
    (hvalid : validateFileSet (removing removals) "launcher" = .ok ()) :
    @verifyFileSet _ _ anySignature _ (removingBytes removals) longKeyring
      { expectedProductId := "launcher", previous := none } =
      .ok { fileSet := removing removals, digest := sha256 (removingBytes removals)
            valid := hvalid } := by
  let signatures := anySignature
  obtain ⟨hregular, hpayload⟩ := @removing_regular removals
  have hjson : canonicalJson (toValue (removing removals)) = .ok (removingBytes removals) :=
    canonicalJson_regular hregular
  have hparse : (parseCanonical (removingBytes removals) maxManifestBytes : Result FileSet) =
      .ok (removing removals) := by
    simp [parseCanonical, Nat.not_lt.mpr hlength, hfound, hjson]
  have hkey : longKeyring.releaseVerifyingKey "release" = .ok (List.replicate 32 17) := by decide
  have hdecode : ∃ bytes, decodeLowerHex 64 (String.ofList (List.replicate 128 '3'))
      .trustSignature = .ok bytes := ⟨List.replicate 64 51, by decide +kernel⟩
  obtain ⟨signature, hsignature⟩ := hdecode
  have hread : readSignedFileSet (removingBytes removals) longKeyring = .ok (removing removals) := by
    have hkind : rejectIf (fileSetKind ≠ fileSetKind || fileSetSchema ≠ fileSetSchema)
        (.new .jsonInvalid "file-set kind or schema is unsupported") = .ok () := by decide
    have hid : rejectIf (!validIdentifier "release")
        (.new .jsonInvalid "file-set key ID is invalid") = .ok () := by decide
    have hverify : verifySignature (longKeyring.releaseVerifyingKey "release") fileSetSigningDomain
        (removing removals).payload (String.ofList (List.replicate 128 '3'))
        "file-set signature is invalid" = .ok () :=
      Result.bind_eq_ok.mpr ⟨_, canonicalJson_regular hpayload, Result.bind_eq_ok.mpr
        ⟨signature, hsignature, Result.bind_eq_ok.mpr ⟨_, hkey, rfl⟩⟩⟩
    exact Result.bind_eq_ok.mpr ⟨_, hparse, Result.bind_eq_ok.mpr ⟨(), hkind,
      Result.bind_eq_ok.mpr ⟨(), hid, Result.bind_eq_ok.mpr ⟨(), hverify, rfl⟩⟩⟩⟩
  unfold verifyFileSet
  rw [hread, Result.ok_bind]
  split
  · rename_i e herror
    rw [hvalid] at herror
    cases herror
  · rfl

theorem inspectRemovals_run {root : RegisteredRoot} {d : Disk} {sch : Schedule Intrusion}
    {paths : List (String × Nat)} (offset : Nat)
    (h : ∀ path ∈ paths, localInspectTarget d root path.1 = .ok none) :
    ∃ entries, inspectRemovals root offset paths d sch = (.ok entries, d, sch) := by
  induction paths with
  | nil => exact ⟨_, rfl⟩
  | cons path paths ih =>
    rw [List.forall_mem_cons] at h
    obtain ⟨rest, hrest⟩ := ih h.2
    refine ⟨{ action := .remove, original := none, path := path.1, preparedIndex := none
              transactionIndex := UInt32.ofNat (offset + path.2) } :: rest, ?_⟩
    simp only [inspectRemovals, inspect, run_bind, run_look, h.1, run_lift_ok, hrest, run_pure]

/-- On an empty root nothing stops such a manifest. -/
theorem prepareFileSet_removing (manifest : VerifiedFileSet)
    (hmanifest : manifest.fileSet = removing removals)
    (hvalid : ∀ path ∈ removals, validateRelativePath path = .ok ()) (staging : Staging)
    (stamp : Stamp) :
    ∃ job t rest, prepareFileSet manifest sampleRoot true staging stamp quietPolicy
      (sampleDisk fun _ => none) [] = (.ok job, t, rest) := by
  have hfiles : manifest.fileSet.files = [] := by rw [hmanifest]; rfl
  have hproduct : manifest.fileSet.productId = sampleRoot.productId := by rw [hmanifest]; rfl
  have hremovals : manifest.fileSet.removeFiles = removals := by rw [hmanifest]; rfl
  have hroot : localVerifyRootIdentity (sampleDisk fun _ => none) sampleRoot = .ok () := by decide
  let d₁ : Disk := ({ sampleDisk (fun _ => none) with jobs := some [jobIdOf sampleRoot manifest] } :
    Disk).setEntry (jobIdOf sampleRoot manifest) .empty
  have hbegin : beginJob manifest sampleRoot true (sampleDisk fun _ => none) [] = (.ok (), d₁, []) := by
    unfold beginJob
    simp only [inspect, run_bind, run_look, hroot, run_lift_ok, hproduct, hfiles]
    rfl
  have hpayloads : (createPayloads.run : JobProg Unit) d₁ [] = (.ok (), d₁, []) := rfl
  have hinspect : ∀ path ∈ removals.zipIdx, localInspectTarget d₁ sampleRoot path.1 = .ok none := by
    intro path hpath
    have hpathValid := hvalid path.1 (List.fst_mem_of_mem_zipIdx hpath)
    have hway : ∀ components current, reparseOnWay (fun _ => none) current components = false := by
      intro components current
      cases components <;> rfl
    have hnode : (d₁.root sampleRoot.canonicalPath).node = fun _ => none := rfl
    simp only [localInspectTarget, hpathValid, Result.ok_bind, Disk.target, hnode, hway]
    rfl
  have hrun : ∃ entries, inspectRemovals sampleRoot 0 removals.zipIdx d₁ [] = (.ok entries, d₁, []) :=
    inspectRemovals_run 0 hinspect
  obtain ⟨entries, hentries⟩ := hrun
  have hdirectory : d₁.directory (jobIdOf sampleRoot manifest) = some .empty := by
    simp [d₁, Disk.directory, Disk.hasJob, Disk.setEntry]
  have hwrite : ∀ header, ∃ t, ((writeNewJournal quietPolicy.medium (jobIdOf sampleRoot manifest)
      header).run : JobProg Unit) d₁ [] = (.ok (), t, []) := by
    intro header
    simp only [Step.run, Step.proceed, writeNewJournal, hdirectory, JobDirectory.empty]
    exact ⟨_, rfl⟩
  have hcontents : ∃ header t, prepareJobContents manifest sampleRoot staging stamp quietPolicy
      (jobIdOf sampleRoot manifest) d₁ [] = (.ok header, t, []) := by
    let header : JournalHeader := {
      entries := [] ++ entries
      generation := manifest.fileSet.generation
      jobId := jobIdOf sampleRoot manifest
      manifestDigest := encodeHex manifest.digest.toList
      root := sampleRoot
      schema := journalSchema }
    obtain ⟨t, ht⟩ := hwrite header
    refine ⟨header, t, ?_⟩
    simp only [header] at ht ⊢
    simp only [prepareJobContents, hfiles, hremovals, List.zipIdx_nil, List.length_nil, copyPayloads,
      inspectFiles, prepareTargets, run_bind, run_pure, hentries, ht]
  obtain ⟨header, t, hheader⟩ := hcontents
  refine ⟨{ header, policy := quietPolicy }, t, [], ?_⟩
  rw [prepareFileSet_eq]
  simp only [run_bind, hbegin, hpayloads, attempt, hheader, run_pure]

end Removing

def longRemovals : List String := (List.range maxFileEntries).map longPath

theorem mem_longRemovals {path : String} (h : path ∈ longRemovals) :
    ∃ i < maxFileEntries, path = longPath i := by
  obtain ⟨i, hi, rfl⟩ := List.mem_map.mp h
  exact ⟨i, List.mem_range.mp hi, rfl⟩

theorem longRemovals_length : longRemovals.length = maxFileEntries := by
  rw [longRemovals, List.length_map, List.length_range]

theorem validateRelativePath_longRemovals :
    ∀ path ∈ longRemovals, validateRelativePath path = .ok () := by
  intro path hpath
  obtain ⟨i, hi, rfl⟩ := mem_longRemovals hpath
  exact validateRelativePath_longPath hi

theorem validateFileSet_long : validateFileSet (removing longRemovals) "launcher" = .ok () := by
  have hnumber : maxFileEntries ≠ 0 := by decide
  refine validateFileSet_removing ?_ validateRelativePath_longRemovals ?_
  · rw [longRemovals_length]
    exact ⟨hnumber, Nat.le_refl _⟩
  · have hmap : longRemovals.map Unicode.toLowercase = longRemovals := by
      rw [longRemovals, List.map_map]
      exact List.map_congr_left fun i _ => longPath_toLowercase i
    rw [hmap]
    exact List.nodup_range.map longPath_injective

/-- The manifest is within the bound. -/
theorem length_longBytes : (removingBytes longRemovals).length ≤ maxManifestBytes := by
  have hpaths : ∀ size ∈ longRemovals.map fun path => (Value.string path).size, size ≤ 307 := by
    intro size hsize
    obtain ⟨path, hpath, rfl⟩ := List.mem_map.mp hsize
    obtain ⟨i, hi, rfl⟩ := mem_longRemovals hpath
    exact (quotedSize_longPath hi).2
  have hsum := List.sum_le_card_nsmul _ 307 hpaths
  have hnumber : maxFileEntries = 100000 ∧ maxManifestBytes = 33554432 := by decide
  have hsize : (removingBytes longRemovals).length = _ :=
    size_removing (by rw [longRemovals_length]; omega)
  rw [List.length_map, longRemovals_length] at hsum
  change _ ≤ maxFileEntries * 307 at hsum
  rw [longRemovals_length] at hsize
  omega

@[reducible] noncomputable def longDocuments : Deserialize FileSet :=
  .canonicalWith [removing longRemovals]

attribute [local instance] anySignature longDocuments

def longManifest : VerifiedFileSet where
  fileSet := removing longRemovals
  digest := sha256 (removingBytes longRemovals)
  valid := validateFileSet_long

/-- Its journal is not, with the first record alone: each entry takes more room there. -/
theorem journalSize_long (d : Disk) :
    maxManifestBytes + 48 < journalSize d sampleRoot longManifest := by
  have hentries : ∀ size ∈ longRemovals.zipIdx.map (removalEntrySize d sampleRoot 0),
      383 ≤ size := by
    intro size hsize
    obtain ⟨removal, hremoval, rfl⟩ := List.mem_map.mp hsize
    obtain ⟨i, hi, hpath⟩ := mem_longRemovals (List.fst_mem_of_mem_zipIdx hremoval)
    have hquoted := (quotedSize_longPath hi).1
    rw [← hpath] at hquoted
    unfold removalEntrySize
    omega
  have hsum := List.card_nsmul_le_sum _ 383 hentries
  rw [List.length_map, List.length_zipIdx, longRemovals_length] at hsum
  change maxFileEntries * 383 ≤ _ at hsum
  have hnumber : maxFileEntries = 100000 ∧ maxManifestBytes = 33554432 := by decide
  have hle : (longRemovals.zipIdx.map (removalEntrySize d sampleRoot 0)).sum ≤
      journalSize d sampleRoot longManifest := removing_le_journalSize d sampleRoot rfl
  exact lt_of_lt_of_le (by omega) (hsum.trans hle)

theorem newJournal_long (d : Disk) :
    maxManifestBytes < (newJournal (headerOf d sampleRoot longManifest)).length := by
  have hsize := journalSize_long d
  rw [journalSize_newJournal] at hsize
  exact Nat.lt_of_add_lt_add_right hsize

end Long

end Se7en
