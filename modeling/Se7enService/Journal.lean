import Se7enService.Json
import Se7enService.Roots
set_option autoImplicit false

/-! The job journal of `transaction.rs`: its records, its bytes and its reader. -/

namespace Se7en

inductive JournalState where
  | prepared
  | committing
  | committed
  | rollingBack
  deriving DecidableEq, Repr

inductive JournalAction where
  | replace
  | remove
  deriving DecidableEq, Repr

structure TargetSnapshot where
  identity : DirectoryIdentity
  lastWriteTime : UInt64
  size : UInt64
  deriving DecidableEq, Repr

structure JournalEntry where
  action : JournalAction
  original : Option TargetSnapshot
  path : String
  preparedIndex : Option UInt32
  transactionIndex : UInt32
  deriving DecidableEq, Repr

structure JournalHeader where
  entries : List JournalEntry
  generation : UInt64
  jobId : String
  manifestDigest : String
  root : RegisteredRoot
  schema : UInt64
  deriving DecidableEq, Repr

structure JournalStateRecord where
  state : JournalState
  deriving DecidableEq, Repr

def journalSchema : UInt64 := 1

/-! ### Encoding -/

def JournalState.text : JournalState → String
  | .prepared => "prepared"
  | .committing => "committing"
  | .committed => "committed"
  | .rollingBack => "rolling_back"

def JournalAction.text : JournalAction → String
  | .replace => "replace"
  | .remove => "remove"

def TargetSnapshot.toValue (snapshot : TargetSnapshot) : Value :=
  .object [
    ("identity", snapshot.identity.toValue),
    ("lastWriteTime", unsigned snapshot.lastWriteTime),
    ("size", unsigned snapshot.size)]

def optional {α : Type} (toValue : α → Value) : Option α → Value
  | none => .null
  | some a => toValue a

def JournalEntry.toValue (entry : JournalEntry) : Value :=
  .object [
    ("action", .string entry.action.text),
    ("original", optional TargetSnapshot.toValue entry.original),
    ("path", .string entry.path),
    ("preparedIndex", optional (fun index => unsigned index.toUInt64) entry.preparedIndex),
    ("transactionIndex", unsigned entry.transactionIndex.toUInt64)]

instance : Serialize JournalHeader where
  toValue header := .object [
    ("entries", .array (header.entries.map JournalEntry.toValue)),
    ("generation", unsigned header.generation),
    ("jobId", .string header.jobId),
    ("manifestDigest", .string header.manifestDigest),
    ("root", header.root.toValue),
    ("schema", unsigned header.schema)]

instance : Serialize JournalStateRecord where
  toValue record := .object [("state", .string record.state.text)]

theorem JournalState.text_injective {s t : JournalState} (h : s.text = t.text) : s = t := by
  cases s <;> cases t <;> first | rfl | exact absurd h (by decide)

theorem JournalAction.text_injective {a b : JournalAction} (h : a.text = b.text) : a = b := by
  cases a <;> cases b <;> first | rfl | exact absurd h (by decide)

theorem optional_regular {α : Type} {toValue : α → Value} (h : ∀ a, (toValue a).Regular)
    (a : Option α) : (optional toValue a).Regular := by
  cases a with
  | none => trivial
  | some a => exact h a

theorem optional_injective {α : Type} {toValue : α → Value} (h : Function.Injective toValue)
    (hnull : ∀ a, toValue a ≠ .null) : Function.Injective (optional toValue) := by
  intro a b hab
  cases a with
  | none =>
    cases b with
    | none => rfl
    | some b => exact absurd hab.symm (hnull b)
  | some a =>
    cases b with
    | none => exact absurd hab (hnull a)
    | some b => exact congrArg some (h hab)

theorem TargetSnapshot.toValue_regular (snapshot : TargetSnapshot) : snapshot.toValue.Regular :=
  ⟨⟨snapshot.identity.toValue_regular, trivial, trivial, trivial⟩,
    sorted_of_keys ["identity", "lastWriteTime", "size"] rfl (by decide)⟩

theorem TargetSnapshot.toValue_injective : Function.Injective TargetSnapshot.toValue := by
  intro s s' h
  simp only [toValue, Value.object.injEq, List.cons.injEq, Prod.mk.injEq, true_and, and_true,
    unsigned_inj] at h
  obtain ⟨hidentity, htime, hsize⟩ := h
  cases s; cases s'
  simp only [mk.injEq]
  exact ⟨DirectoryIdentity.toValue_injective hidentity, htime, hsize⟩

theorem index_injective : Function.Injective fun index : UInt32 => unsigned index.toUInt64 := by
  intro a b hab
  have hnat := congrArg UInt64.toNat (unsigned_inj.mp hab)
  exact UInt32.toNat_inj.mp (by simpa using hnat)

theorem index_regular (index : UInt32) : (unsigned index.toUInt64).Regular := trivial

theorem JournalEntry.toValue_regular (entry : JournalEntry) : entry.toValue.Regular :=
  ⟨⟨trivial, optional_regular TargetSnapshot.toValue_regular _, trivial,
    optional_regular index_regular _, trivial, trivial⟩,
    sorted_of_keys ["action", "original", "path", "preparedIndex", "transactionIndex"] rfl
      (by decide)⟩

theorem JournalEntry.toValue_injective : Function.Injective JournalEntry.toValue := by
  intro e e' h
  simp only [toValue, Value.object.injEq, List.cons.injEq, Prod.mk.injEq, true_and, and_true,
    Value.string.injEq] at h
  obtain ⟨haction, horiginal, hpath, hprepared, htransaction⟩ := h
  cases e; cases e'
  simp only [mk.injEq]
  exact ⟨JournalAction.text_injective haction,
    optional_injective TargetSnapshot.toValue_injective (fun _ => nofun) horiginal, hpath,
    optional_injective index_injective (fun _ => nofun) hprepared, index_injective htransaction⟩

instance : LawfulSerialize JournalHeader where
  regular header := by
    refine ⟨⟨?_, trivial, trivial, trivial, header.root.toValue_regular, trivial, trivial⟩,
      sorted_of_keys ["entries", "generation", "jobId", "manifestDigest", "root", "schema"] rfl
        (by decide)⟩
    rw [Value.Regular, regularItems_iff]
    simp only [List.forall_mem_map]
    exact fun entry _ => entry.toValue_regular
  injective header header' h := by
    simp only [toValue, Value.object.injEq, List.cons.injEq, Prod.mk.injEq, true_and, and_true,
      Value.string.injEq, Value.array.injEq, unsigned_inj] at h
    obtain ⟨hentries, hgeneration, hjob, hdigest, hroot, hschema⟩ := h
    cases header; cases header'
    simp only [JournalHeader.mk.injEq]
    exact ⟨List.map_injective_iff.mpr JournalEntry.toValue_injective hentries, hgeneration, hjob,
      hdigest, RegisteredRoot.toValue_injective hroot, hschema⟩

instance : LawfulSerialize JournalStateRecord where
  regular record := ⟨⟨trivial, trivial⟩, sorted_of_keys ["state"] rfl (by decide)⟩
  injective record record' h := by
    simp only [toValue, Value.object.injEq, List.cons.injEq, Prod.mk.injEq, true_and, and_true,
      Value.string.injEq] at h
    cases record; cases record'
    exact congrArg _ (JournalState.text_injective h)

/-- One line of a journal; encoding its documents never fails. -/
def journalLine {α : Type} [Serialize α] (value : α) : Bytes :=
  match canonicalJson (toValue value) with
  | .ok bytes => bytes ++ [10]
  | .error _ => []

def recordLine (state : JournalState) : Bytes := journalLine (JournalStateRecord.mk state)

/-- What `write_new_journal` writes. -/
def newJournal (header : JournalHeader) : Bytes :=
  journalLine header ++ recordLine .prepared

/-! ### Checks -/

def isReservedWindowsName (component : List Char) : Bool :=
  let stem := (component.takeWhile (· ≠ '.')).map Char.toUpper
  [['C', 'O', 'N'], ['P', 'R', 'N'], ['A', 'U', 'X'], ['N', 'U', 'L']].contains stem
    || (['C', 'O', 'M'].isPrefixOf stem || ['L', 'P', 'T'].isPrefixOf stem)
      && ['1', '2', '3', '4', '5', '6', '7', '8', '9'].any fun digit => stem.drop 3 = [digit]

def reservedRootDirectory : List Char := ".7launcher-maintenance".toList

def componentIsForbidden (first : Bool) (component : List Char) : Bool :=
  component.isEmpty || component = ['.'] || component = ['.', '.']
    || component.getLast? = some ' ' || component.getLast? = some '.'
    || isReservedWindowsName component
    || first && component.map Char.toLower = reservedRootDirectory

def validateRelativePath (path : String) : Result Unit :=
  let text := path.toList
  if text.isEmpty || byteLength path > maxPathBytes || text.head? = some '/'
      || text.getLast? = some '/' || text.contains '\\'
      || text.any (fun c => c.toNat < 32 || ['<', '>', ':', '"', '|', '?', '*'].contains c) then
    .error (.new .fileSetPath "file-set path is not a bounded canonical relative path")
  else
    match split '/' text with
    | [] => .ok ()
    | first :: rest =>
      if componentIsForbidden true first || rest.any (componentIsForbidden false) then
        .error (.new .fileSetPath "file-set path contains a forbidden component")
      else .ok ()

def validInternalJobId (value : String) : Bool :=
  let bytes := utf8 value.toList
  !bytes.isEmpty && bytes.length ≤ 256 &&
    bytes.all fun byte => isAsciiLowercase byte || isAsciiDigit byte || [46, 95, 45].contains byte

def recoveryError (detail : String) : MaintenanceError := .new .recoveryIncomplete detail

/-- The three sets that `validate_journal_header` fills. -/
structure SeenEntries where
  paths : List String := []
  transactionIndexes : List UInt32 := []
  preparedIndexes : List UInt32 := []

def validateJournalEntries [Unicode] (seen : SeenEntries) : List JournalEntry → Result Unit
  | [] => .ok ()
  | entry :: entries => do
    validateRelativePath entry.path
    let path := Unicode.toLowercase entry.path
    if seen.paths.contains path || seen.transactionIndexes.contains entry.transactionIndex
        || entry.action = .replace && entry.preparedIndex.isNone
        || entry.action = .remove && entry.preparedIndex.isSome
        || entry.preparedIndex.any seen.preparedIndexes.contains then
      throw (recoveryError "transaction journal entry is inconsistent")
    validateJournalEntries
      { paths := path :: seen.paths
        transactionIndexes := entry.transactionIndex :: seen.transactionIndexes
        preparedIndexes := entry.preparedIndex.toList ++ seen.preparedIndexes } entries

def validateJournalHeader [Unicode] (header : JournalHeader) : Result Unit :=
  if header.schema ≠ journalSchema || header.entries.isEmpty
      || !validInternalJobId header.jobId
      || (decodeLowerHex 32 header.manifestDigest .recoveryIncomplete).toOption.isNone then
    .error (recoveryError "transaction journal header is unsupported")
  else validateJournalEntries {} header.entries

def validateStateTransition (previous : Option JournalState) (next : JournalState) : Result Unit :=
  match previous, next with
  | none, .prepared | some .prepared, .committing | some .committing, .committed
  | some .committing, .rollingBack => .ok ()
  | _, _ => .error (recoveryError "transaction journal state transition is invalid")

/-! ### Reading -/

section Reading

variable [Unicode] [Deserialize JournalHeader] [Deserialize JournalStateRecord]

omit [Unicode] [Deserialize JournalHeader] in
/-- The record loop of `read_journal`. Only a last line without its newline may be damaged. -/
def readRecords (terminated : Bool) : List Bytes → Option JournalState → Result (Option JournalState)
  | [], state => .ok state
  | line :: lines, state =>
    if line.isEmpty then readRecords terminated lines state
    else
      match parseCanonical (α := JournalStateRecord) line 128 with
      | .ok record => do
        validateStateTransition state record.state
        readRecords terminated lines (some record.state)
      | .error _ =>
        if lines.isEmpty && !terminated then .ok state
        else .error (recoveryError "transaction journal contains an invalid record")

def readJournal (bytes : Bytes) : Result (JournalHeader × JournalState) := do
  if bytes.length > maxManifestBytes then
    throw (recoveryError "transaction journal exceeds the bound")
  match split 10 bytes with
  | [] => throw (recoveryError "transaction journal has no header")
  | headerBytes :: lines =>
    if headerBytes.isEmpty then throw (recoveryError "transaction journal has no header")
    let header : JournalHeader ← parseCanonical headerBytes maxManifestBytes
    validateJournalHeader header
    match ← readRecords (bytes.getLast? = some 10) lines none with
    | none => throw (recoveryError "journal has no durable state")
    | some state => pure (header, state)

end Reading

end Se7en
