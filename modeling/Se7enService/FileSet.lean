import Se7enService.Journal
set_option autoImplicit false

/-! The file sets of `file_set.rs` and the payload check of `transaction.rs`. -/

namespace Se7en

def maxFileEntries : Nat := 100000
def maxDeclaredPayloadBytes : Nat := 2 * 1024 * 1024 * 1024 * 1024

/-- SHA-256 of the `sha2` crate. -/
class Sha256 where
  digest : Bytes → Bytes

structure FileEntry where
  path : String
  sha256 : String
  size : UInt64
  deriving DecidableEq, Repr

structure FileSet where
  files : List FileEntry
  generation : UInt64
  keyId : String
  kind : String
  productId : String
  removeFiles : List String
  schema : UInt64
  signature : String
  deriving DecidableEq, Repr

/-- `u64::checked_add`. -/
def checkedAdd (a b : UInt64) : Option UInt64 :=
  if a.toNat + b.toNat < UInt64.size then some (a + b) else none

def validateFiles [Unicode] (paths : List String) (declaredSize : UInt64) :
    List FileEntry → Result (List String)
  | [] => .ok paths
  | file :: files => do
    validateRelativePath file.path
    let normalized := Unicode.toLowercase file.path
    if paths.contains normalized then
      throw (.new .fileSetPath "file-set paths must be unique")
    let _ ← decodeLowerHex 32 file.sha256 .fileSetHash
    match checkedAdd declaredSize file.size with
    | none => throw (.new .fileSetLimit "declared payload size overflowed")
    | some declaredSize =>
      if declaredSize.toNat > maxDeclaredPayloadBytes then
        throw (.new .fileSetLimit "declared payload exceeds the configured bound")
      validateFiles (normalized :: paths) declaredSize files

def validateRemovals [Unicode] (paths : List String) : List String → Result Unit
  | [] => .ok ()
  | path :: rest => do
    validateRelativePath path
    let normalized := Unicode.toLowercase path
    if paths.contains normalized then
      throw (.new .fileSetPath "create/replace and remove paths must not overlap")
    validateRemovals (normalized :: paths) rest

def validateFileSet [Unicode] (fileSet : FileSet) (expectedProductId : String) : Result Unit := do
  if fileSet.generation = 0 || !validIdentifier fileSet.productId then
    throw (.new .jsonInvalid "file-set generation or product ID is invalid")
  if fileSet.productId ≠ expectedProductId then
    throw (.new .productMismatch "file set does not belong to the registered product")
  let entryCount := fileSet.files.length + fileSet.removeFiles.length
  if entryCount = 0 || entryCount > maxFileEntries then
    throw (.new .fileSetLimit "file-set entry count is outside the allowed range")
  let paths ← validateFiles [] 0 fileSet.files
  validateRemovals paths fileSet.removeFiles

/-- A file set whose signature and content have been checked. -/
structure VerifiedFileSet [Unicode] where
  fileSet : FileSet
  digest : Vector UInt8 32
  valid : validateFileSet fileSet fileSet.productId = .ok ()

/-- The loop of `copy_reader_verified` over what the reader returns: the bytes written so
far, and how the loop ended. -/
def readVerified (expected : FileEntry) : List Bytes → Bytes → Bytes × Result Unit
  | [], written => (written, .ok ())
  | chunk :: chunks, written =>
    if UInt64.size ≤ (written ++ chunk).length then
      (written, .error (.new .stagingInvalid "staging payload size overflowed"))
    else if (written ++ chunk).length > expected.size.toNat then
      (written, .error (.new .stagingInvalid "staging payload is larger than the signed size"))
    else readVerified expected chunks (written ++ chunk)

/-- The check behind both copies; the signed hash is decoded only where the size is right. -/
def checkPayload [Sha256] (written : Bytes) (expected : FileEntry) (mismatch : MaintenanceError) :
    Result Unit :=
  if written.length ≠ expected.size.toNat then .error mismatch
  else do
    let signed ← decodeLowerHex 32 expected.sha256 .fileSetHash
    if Sha256.digest written ≠ signed then .error mismatch

/-- `copy_reader_verified` without its destination: what is written, and the verdict. -/
def copyReaderVerified [Sha256] (source : List Bytes) (expected : FileEntry) :
    Bytes × Result Unit :=
  let (written, outcome) := readVerified expected source []
  (written, do
    outcome
    checkPayload written expected
      (.new .stagingInvalid "staging payload size or SHA-256 does not match the file set"))

end Se7en
