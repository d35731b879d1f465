set_option autoImplicit false

/-! Error values of `lib.rs`, and the bounds and text checks declared beside them. -/

namespace Se7en

inductive ErrorCode where
  | jsonInvalid
  | jsonNonCanonical
  | manifestTooLarge
  | trustSignature
  | trustUnknownKey
  | keyringRollback
  | keyringConflict
  | fileSetRollback
  | generationConflict
  | fileSetPath
  | fileSetLimit
  | fileSetHash
  | registrySetRollback
  | registrySetLimit
  | registryScopeInvalid
  | registryScopeNotFound
  | registryScopeUnauthorized
  | registryValueInvalid
  | registryIo
  | productMismatch
  | protocolInvalid
  | protocolVersion
  | protocolTooLarge
  | rootInvalid
  | rootNotFound
  | rootUnauthorized
  | rootIdentity
  | stagingInvalid
  | insufficientSpace
  | serviceBusy
  | transactionConflict
  | transactionIo
  | transactionState
  | recoveryIncomplete
  deriving DecidableEq, Repr

structure MaintenanceError where
  code : ErrorCode
  detail : String
  platformStatus : Option Nat := none
  deriving DecidableEq, Repr

def MaintenanceError.new (code : ErrorCode) (detail : String) : MaintenanceError :=
  { code := code, detail := detail }

/-- The stable error of an external platform policy, which the fault injectors use. -/
def MaintenanceError.policyRejection (code : ErrorCode) : MaintenanceError :=
  { code := code, detail := "platform policy rejected the operation" }

abbrev Result (α : Type) := Except MaintenanceError α

@[simp] theorem Result.ok_bind {α β : Type} (a : α) (f : α → Result β) :
    ((Except.ok a : Result α) >>= f) = f a := rfl

@[simp] theorem Result.error_bind {α β : Type} (e : MaintenanceError) (f : α → Result β) :
    ((Except.error e : Result α) >>= f) = .error e := rfl

@[simp] theorem Result.throw_eq {α : Type} (e : MaintenanceError) :
    (throw e : Result α) = .error e := rfl

@[simp] theorem Result.pure_eq {α : Type} (a : α) : (pure a : Result α) = .ok a := rfl

theorem Result.bind_eq_ok {α β : Type} {x : Result α} {f : α → Result β} {b : β} :
    (x >>= f) = .ok b ↔ ∃ a, x = .ok a ∧ f a = .ok b := by
  cases x with
  | ok a => simp
  | error e => simp

/-- A check that returns early with an error. -/
def rejectIf (condition : Bool) (error : MaintenanceError) : Result Unit :=
  if condition then .error error else .ok ()

@[simp] theorem rejectIf_eq_ok {condition : Bool} {error : MaintenanceError} :
    rejectIf condition error = .ok () ↔ condition = false := by
  cases condition <;> simp [rejectIf]

abbrev Bytes := List UInt8

def utf8 (text : List Char) : Bytes := text.flatMap String.utf8EncodeChar

/-- Only letters have another lower case. -/
theorem toLower_eq {c d : Char} (h : c.toLower = d) (hd : d.toNat < 97 ∨ 122 < d.toNat) : c = d := by
  unfold Char.toLower at h
  split at h
  · rename_i hrange
    have hval : (c.val.toNat + 32) % 2 ^ 32 = d.val.toNat := by
      simpa [UInt32.toNat_add] using congrArg (fun e => e.val.toNat) h
    have hlow : 65 ≤ c.val.toNat := hrange.1
    have hhigh : c.val.toNat ≤ 90 := hrange.2
    have hd : d.val.toNat < 97 ∨ 122 < d.val.toNat := hd
    omega
  · exact h

/-- `split` of strings and slices at one separator. -/
def split {α : Type} [DecidableEq α] (separator : α) : List α → List (List α)
  | [] => [[]]
  | a :: rest =>
    if a = separator then [] :: split separator rest
    else
      match split separator rest with
      | [] => [[a]]
      | part :: parts => (a :: part) :: parts

theorem split_ne_nil {α : Type} [DecidableEq α] (separator : α) (xs : List α) :
    split separator xs ≠ [] := by
  induction xs with
  | nil => simp [split]
  | cons x xs ih =>
    unfold split
    split
    · simp
    · split <;> simp

def digitsValue (digits : List Char) : Nat :=
  digits.foldl (fun value digit => 10 * value + (digit.toNat - 48)) 0

/-- `str::parse::<u64>`. -/
def parseU64 (text : List Char) : Option UInt64 :=
  let digits := match text with
    | '+' :: rest => rest
    | _ => text
  if digits.isEmpty || !digits.all Char.isDigit || digitsValue digits ≥ UInt64.size then none
  else some (UInt64.ofNat (digitsValue digits))

/-- `str::len`, which counts bytes. -/
def byteLength (s : String) : Nat := (utf8 s.toList).length

def maxIpcMessageBytes : Nat := 64 * 1024
def maxManifestBytes : Nat := 32 * 1024 * 1024
def maxRegistryEntries : Nat := 32
def maxRegistryValueNameBytes : Nat := 256

def maxPathBytes : Nat := 1024

/-- `str::to_lowercase`, which goes by the Unicode tables. -/
class Unicode where
  toLowercase : String → String

def isAsciiDigit (byte : UInt8) : Bool := 48 ≤ byte && byte ≤ 57
def isAsciiLowercase (byte : UInt8) : Bool := 97 ≤ byte && byte ≤ 122
def isAsciiUppercase (byte : UInt8) : Bool := 65 ≤ byte && byte ≤ 90

def isAsciiAlphanumeric (byte : UInt8) : Bool :=
  isAsciiDigit byte || isAsciiLowercase byte || isAsciiUppercase byte

def validIdentifier (value : String) : Bool :=
  match utf8 value.toList with
  | [] => false
  | first :: rest =>
    (first :: rest).length ≤ 64 && isAsciiAlphanumeric first &&
      (first :: rest).all fun byte =>
        isAsciiLowercase byte || isAsciiDigit byte || [46, 95, 45].contains byte

/-- The value of a lowercase hexadecimal digit. -/
def hexNibble (byte : UInt8) : Option UInt8 :=
  if isAsciiDigit byte then some (byte - 48)
  else if 97 ≤ byte && byte ≤ 102 then some (byte - 87)
  else none

def hexPairs (code : ErrorCode) : Bytes → Result Bytes
  | high :: low :: rest =>
    match hexNibble high, hexNibble low with
    | some h, some l => do pure ((h * 16 + l) :: (← hexPairs code rest))
    | _, _ => .error (.new code "hexadecimal value must use lowercase ASCII")
  | _ => .ok []

def decodeLowerHex (length : Nat) (value : String) (code : ErrorCode) : Result Bytes :=
  if byteLength value ≠ length * 2 then
    .error (.new code "hexadecimal value has the wrong length")
  else hexPairs code (utf8 value.toList)

def hexDigit (nibble : UInt8) : Char := Nat.digitChar nibble.toNat

def encodeHex (bytes : Bytes) : String :=
  String.ofList (bytes.flatMap fun byte => [hexDigit (byte / 16), hexDigit (byte % 16)])

end Se7en
