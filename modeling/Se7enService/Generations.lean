import Se7enService.Json
import Se7enService.KeyedList
import Se7enService.RegistryFile
set_option autoImplicit false

/-! The generation registry of `windows.rs`, which the file sets of roots and the registry
sets of scopes share. -/

namespace Se7en
open Faulty

structure GenerationRecord where
  generation : UInt64
  digest : Vector UInt8 32
  deriving DecidableEq, Repr

structure StoredGeneration where
  digest : String
  generation : UInt64
  deriving DecidableEq, Repr

/-- The entries of the map, with the root or scope they are about. -/
abbrev GenerationMap := KeyedList (String × StoredGeneration) String Prod.fst

structure GenerationRegistryDocument where
  kind : String
  roots : GenerationMap
  schema : UInt64
  deriving DecidableEq

def generationRegistryKind : String := "7launcher-maintenance-generations-v1"
def generationRegistrySchema : UInt64 := 1
def maxGenerationRegistryBytes : Nat := 1024 * 1024

/-- `decode_lower_hex::<32>`. -/
def decodeDigest (value : String) (code : ErrorCode) : Result (Vector UInt8 32) := do
  let bytes ← decodeLowerHex 32 value code
  pure (Vector.ofFn fun i => bytes.getD i 0)

/-- The checks of `load` on one record. -/
def validGeneration (rootId : String) (record : StoredGeneration) : Bool :=
  validIdentifier rootId && record.generation ≠ 0
    && (decodeDigest record.digest .generationConflict).toOption.isSome

/-- The map of `GenerationRegistry` with what `load` checks and `accept` keeps. -/
structure GenerationRegistry where
  roots : GenerationMap
  valid : ∀ entry ∈ roots.items, validGeneration entry.1 entry.2
  deriving DecidableEq

@[ext] theorem GenerationRegistry.ext {r r' : GenerationRegistry} (h : r.roots = r'.roots) :
    r = r' := by
  cases r; cases r'; cases h; rfl

namespace GenerationRegistry

def empty : GenerationRegistry := ⟨.empty, nofun⟩

def previous (registry : GenerationRegistry) (rootId : String) : Result (Option GenerationRecord) :=
  match registry.roots.get? rootId with
  | none => .ok none
  | some (_, record) => do
    let digest ← decodeDigest record.digest .generationConflict
    pure (some { generation := record.generation, digest })

end GenerationRegistry

def conflicts (previous record : GenerationRecord) : Bool :=
  record.generation < previous.generation
    || record.generation = previous.generation && record.digest ≠ previous.digest

def GenerationRecord.stored (record : GenerationRecord) : StoredGeneration where
  digest := encodeHex record.digest.toList
  generation := record.generation

/-! ### Digests as text -/

def hexByte (nibble : UInt8) : UInt8 := UInt8.ofNat (hexDigit nibble).toNat

theorem hexDigit_byte : ∀ n < 16, String.utf8EncodeChar (hexDigit (UInt8.ofNat n)) =
    [hexByte (UInt8.ofNat n)] ∧ hexNibble (hexByte (UInt8.ofNat n)) = some (UInt8.ofNat n) := by
  decide

theorem utf8EncodeChar_hexDigit {nibble : UInt8} (h : nibble.toNat < 16) :
    String.utf8EncodeChar (hexDigit nibble) = [hexByte nibble] ∧
      hexNibble (hexByte nibble) = some nibble := by
  simpa using hexDigit_byte nibble.toNat h

theorem toNat_nibbles (byte : UInt8) : (byte / 16).toNat < 16 ∧ (byte % 16).toNat < 16 := by
  have hbyte := byte.toNat_lt
  have hdiv : (byte / 16).toNat = byte.toNat / 16 := by simp
  have hmod : (byte % 16).toNat = byte.toNat % 16 := by simp
  omega

/-- The text of `encode_hex`, byte by byte. -/
theorem utf8_hex (bytes : Bytes) :
    utf8 (bytes.flatMap fun byte => [hexDigit (byte / 16), hexDigit (byte % 16)]) =
      bytes.flatMap fun byte => [hexByte (byte / 16), hexByte (byte % 16)] := by
  induction bytes with
  | nil => rfl
  | cons byte bytes ih =>
    obtain ⟨hhigh, hlow⟩ := toNat_nibbles byte
    simp only [utf8] at ih
    simp [utf8, ih, (utf8EncodeChar_hexDigit hhigh).1, (utf8EncodeChar_hexDigit hlow).1]

theorem hexPairs_hex (code : ErrorCode) (bytes : Bytes) :
    hexPairs code (bytes.flatMap fun byte => [hexByte (byte / 16), hexByte (byte % 16)]) =
      .ok bytes := by
  induction bytes with
  | nil => rfl
  | cons byte bytes ih =>
    obtain ⟨hhigh, hlow⟩ := toNat_nibbles byte
    have hbyte : byte / 16 * 16 + byte % 16 = byte := by
      apply UInt8.toNat_inj.mp
      have hlt := byte.toNat_lt
      have hdiv : (byte / 16).toNat = byte.toNat / 16 := by simp
      have hmod : (byte % 16).toNat = byte.toNat % 16 := by simp
      simp only [UInt8.toNat_add, UInt8.toNat_mul, hdiv, hmod]
      change (byte.toNat / 16 * 16 % 256 + byte.toNat % 16) % 256 = byte.toNat
      omega
    simp only [List.flatMap_cons, List.cons_append, List.nil_append, hexPairs,
      (utf8EncodeChar_hexDigit hhigh).2, (utf8EncodeChar_hexDigit hlow).2, ih, Result.ok_bind,
      Result.pure_eq, hbyte]

theorem decodeLowerHex_encodeHex {bytes : Bytes} {length : Nat} (h : bytes.length = length)
    (code : ErrorCode) : decodeLowerHex length (encodeHex bytes) code = .ok bytes := by
  have htext : utf8 (encodeHex bytes).toList =
      bytes.flatMap fun byte => [hexByte (byte / 16), hexByte (byte % 16)] := by
    simp [encodeHex, utf8_hex]
  have hlength : byteLength (encodeHex bytes) = length * 2 := by
    simp [byteLength, htext, List.length_flatMap, h]
  simp [decodeLowerHex, hlength, htext, hexPairs_hex]

theorem decodeDigest_encodeHex (digest : Vector UInt8 32) (code : ErrorCode) :
    decodeDigest (encodeHex digest.toList) code = .ok digest := by
  have hlength : digest.toList.length = 32 := by simp
  have hdecode := decodeLowerHex_encodeHex hlength code
  have hvector : (Vector.ofFn fun i : Fin 32 => digest.toList.getD i 0) = digest := by
    ext i hi
    simp [List.getD_eq_getElem?_getD]
  simp only [decodeDigest, hdecode, Result.ok_bind, Result.pure_eq, hvector]

theorem GenerationRecord.validGeneration_stored {rootId : String} {record : GenerationRecord}
    (hid : validIdentifier rootId = true) (hgeneration : record.generation ≠ 0) :
    validGeneration rootId record.stored = true := by
  simp [validGeneration, GenerationRecord.stored, hid, hgeneration, decodeDigest_encodeHex,
    Except.toOption]

/-! ### Accepting a generation -/

namespace GenerationRegistry

def accept (registry : GenerationRegistry) (rootId : String) (record : GenerationRecord) :
    Result GenerationRegistry :=
  if hmetadata : validIdentifier rootId = false ∨ record.generation = 0 then
    .error (.new .generationConflict "accepted generation metadata is invalid")
  else
    match registry.previous rootId with
    | .error e => .error e
    | .ok previous =>
      if previous.any (conflicts · record) then
        .error (.new .generationConflict "accepted generation would roll back or conflict")
      else .ok {
        roots := registry.roots.insert (rootId, record.stored)
        valid := by
          simp only [not_or, Bool.not_eq_false] at hmetadata
          intro entry hentry
          rcases KeyedList.mem_insert.mp hentry with rfl | ⟨hentry, -⟩
          · exact GenerationRecord.validGeneration_stored hmetadata.1 hmetadata.2
          · exact registry.valid entry hentry }

theorem accept_eq_ok {registry registry' : GenerationRegistry} {rootId : String}
    {record : GenerationRecord} (h : registry.accept rootId record = .ok registry') :
    validIdentifier rootId = true ∧ record.generation ≠ 0 ∧
      registry'.roots = registry.roots.insert (rootId, record.stored) ∧
      ∃ previous, registry.previous rootId = .ok previous ∧
        previous.any (conflicts · record) = false := by
  unfold accept at h
  split at h
  · cases h
  · rename_i hmetadata
    simp only [not_or, Bool.not_eq_false] at hmetadata
    split at h
    · cases h
    · rename_i previous hprevious
      split at h
      · cases h
      · rename_i hconflict
        obtain rfl := Except.ok.inj h
        exact ⟨hmetadata.1, hmetadata.2, rfl, previous, hprevious, by simpa using hconflict⟩

theorem previous_accept {registry registry' : GenerationRegistry} {rootId : String}
    {record : GenerationRecord} (h : registry.accept rootId record = .ok registry') :
    registry'.previous rootId = .ok (some record) := by
  obtain ⟨-, -, hroots, -⟩ := accept_eq_ok h
  have hget : registry'.roots.get? rootId = some (rootId, record.stored) := by
    rw [hroots]
    exact KeyedList.get?_insert_self (a := (rootId, record.stored))
  simp [previous, hget, GenerationRecord.stored, decodeDigest_encodeHex]

theorem previous_accept_of_ne {registry registry' : GenerationRegistry} {rootId other : String}
    {record : GenerationRecord} (h : registry.accept rootId record = .ok registry')
    (hne : other ≠ rootId) : registry'.previous other = registry.previous other := by
  obtain ⟨-, -, hroots, -⟩ := accept_eq_ok h
  simp only [previous, hroots]
  rw [KeyedList.get?_insert_of_ne hne]

/-! ### The stored document -/

def document (registry : GenerationRegistry) : GenerationRegistryDocument where
  kind := generationRegistryKind
  roots := registry.roots
  schema := generationRegistrySchema

end GenerationRegistry

def StoredGeneration.toValue (record : StoredGeneration) : Value :=
  .object [("digest", .string record.digest), ("generation", unsigned record.generation)]

instance : Serialize GenerationRegistryDocument where
  toValue document := .object [
    ("kind", .string document.kind),
    ("roots", .object (document.roots.items.map fun entry => (entry.1, entry.2.toValue))),
    ("schema", unsigned document.schema)]

theorem StoredGeneration.toValue_injective {r r' : StoredGeneration} (h : r.toValue = r'.toValue) :
    r = r' := by
  simp only [toValue, Value.object.injEq, List.cons.injEq, Prod.mk.injEq, true_and, and_true,
    Value.string.injEq, unsigned_inj] at h
  cases r; cases r'
  simp only [mk.injEq]
  exact h

theorem regularFields_map {α : Type} {key : α → String} {value : α → Value} {items : List α}
    (h : ∀ a, (value a).Regular) : RegularFields (items.map fun a => (key a, value a)) := by
  induction items with
  | nil => trivial
  | cons a items ih => exact ⟨h a, ih⟩

instance : LawfulSerialize GenerationRegistryDocument where
  regular document := by
    refine ⟨⟨trivial, ⟨regularFields_map fun entry => ?_, ?_⟩, trivial, trivial⟩,
      sorted_of_keys ["kind", "roots", "schema"] rfl (by decide)⟩
    · exact ⟨⟨trivial, trivial, trivial⟩, sorted_of_keys ["digest", "generation"] rfl (by decide)⟩
    · rw [List.pairwise_map]
      exact document.roots.sorted
  injective document document' h := by
    simp only [toValue, Value.object.injEq, List.cons.injEq, Prod.mk.injEq, true_and, and_true,
      Value.string.injEq, unsigned_inj] at h
    obtain ⟨hkind, hroots, hschema⟩ := h
    have hentry : Function.Injective
        fun entry : String × StoredGeneration => (entry.1, entry.2.toValue) := by
      intro a b hab
      simp only [Prod.mk.injEq] at hab
      exact Prod.ext hab.1 (StoredGeneration.toValue_injective hab.2)
    cases document; cases document'
    simp only [GenerationRegistryDocument.mk.injEq]
    exact ⟨hkind, KeyedList.ext (List.map_injective_iff.mpr hentry hroots), hschema⟩

/-! ### Loading and saving -/

namespace GenerationRegistry

def encode (registry : GenerationRegistry) : Result Bytes :=
  encodeBounded registry.document maxGenerationRegistryBytes
    (.new .transactionState "generation registry exceeds the bound")

def save (registry : GenerationRegistry) : FileProg Unit := do
  let bytes ← lift registry.encode
  replaceServiceFile bytes

/-- A recovery of `file` finds the document that the registry is written as, or a part of it. -/
def Writes (registry : GenerationRegistry) (file : ServiceFile) : Prop :=
  ¬ file.Ambiguous ∧ ∃ bytes n, registry.encode = .ok bytes ∧ file.settled = some (bytes.take n)

variable [Deserialize GenerationRegistryDocument]

def decode (bytes : Bytes) : Result GenerationRegistry := do
  let document : GenerationRegistryDocument ← parseCanonical bytes maxGenerationRegistryBytes
  if document.kind ≠ generationRegistryKind || document.schema ≠ generationRegistrySchema then
    throw (.new .transactionState "generation registry schema is unsupported")
  if hvalid : ∀ entry ∈ document.roots.items, validGeneration entry.1 entry.2 then
    pure ⟨document.roots, hvalid⟩
  else throw (.new .transactionState "generation registry contains an invalid record")

def load : FileProg GenerationRegistry := do
  recoverServiceFileReplacement
  if ← look (·.path.isNone) then
    return .empty
  match ← look (readBounded ·.path maxGenerationRegistryBytes) with
  | none => throw (.new .transactionState "generation registry cannot be read")
  | some bytes => lift (decode bytes)

/-- The registry that a start loads from the file, if it can. -/
def found (file : ServiceFile) : Option GenerationRegistry :=
  if file.Ambiguous then none
  else
    match file.settled with
    | none => some .empty
    | some bytes => (decode bytes).toOption

theorem found_alike {file file' : ServiceFile} (h : file.Alike file') : found file' = found file := by
  simp only [found, h.settled, h.ambiguous]

/-- A load that does not complete changes nothing of what the next one finds; only a fault
keeps it from completing where it can. -/
theorem wp_load {A : Event Empty → Prop} (file : ServiceFile) :
    Wp A load (fun registry t => found file = some registry ∧ found t = some registry)
      (fun _ t => ((∃ c, A (.fail c)) ∨ found file = none) ∧ found t = found file)
      (fun t => found t = found file) file := by
  have halike : ∀ t, file.Alike t → found t = found file := fun t ht => found_alike ht
  unfold load
  refine Wp.bind ((recover_settled file).mono ?_ ?_ halike)
  · rintro _ t ⟨hclear, rfl⟩
    have hsame : found ⟨file.settled, none, none⟩ = found file := by
      refine halike _ ⟨?_, iff_of_false (by simp [ServiceFile.Ambiguous]) hclear⟩
      cases file.settled <;> rfl
    refine Wp.bind (Wp.look ?_)
    cases hsettled : file.settled with
    | none =>
      have hfound : found file = some .empty := by simp [found, hclear, hsettled]
      rw [hsettled] at hsame
      simp only [Option.isNone_none, if_true]
      exact Wp.pure ⟨hfound, hsame.trans hfound⟩
    | some bytes =>
      have hfound : found file = (decode bytes).toOption := by simp [found, hclear, hsettled]
      rw [hsettled] at hsame
      simp only [Option.isNone_some, Bool.false_eq_true, if_false]
      refine Wp.bind (Wp.look ?_)
      by_cases hlength : bytes.length ≤ maxGenerationRegistryBytes
      · simp only [readBounded, Option.filter, hlength, decide_true, if_true]
        refine Wp.lift (fun registry hdecode => ?_) (fun e hdecode => ?_)
        · have hread : found file = some registry := by rw [hfound, hdecode]; rfl
          exact ⟨hread, hsame.trans hread⟩
        · have hread : found file = none := by rw [hfound, hdecode]; rfl
          exact ⟨.inr hread, hsame⟩
      · simp only [readBounded, Option.filter, hlength, decide_false, Bool.false_eq_true, if_false]
        have hread : decode bytes = .error
            (.new .manifestTooLarge "signed document exceeds the configured bound") := by
          simp only [decode, parseCanonical, gt_iff_lt, Nat.lt_of_not_le hlength, if_true,
            Result.throw_eq]
          rfl
        exact Wp.throw ⟨.inr (by rw [hfound, hread]; rfl), hsame⟩
  · rintro e t ⟨hfail, ht⟩
    refine ⟨hfail.imp_right fun hambiguous => ?_, halike t ht⟩
    simp [found, hambiguous]

theorem calm_load : Calm load := by
  refine Calm.bind calm_recoverServiceFileReplacement fun _ => Calm.bind (Calm.look _) fun absent => ?_
  cases absent
  case true => exact Calm.pure _
  refine Calm.bind (Calm.look _) fun content => ?_
  cases content with
  | none => exact Calm.throw _
  | some bytes => exact Calm.lift _

theorem decode_encode [LawfulDeserialize GenerationRegistryDocument] {registry : GenerationRegistry}
    {bytes : Bytes} (h : registry.encode = .ok bytes) : decode bytes = .ok registry := by
  obtain ⟨hjson, hbound⟩ := bounded_of_encode h
  have hparse := parseCanonical_canonicalJson hjson hbound
  have hvalid : ∀ entry ∈ registry.document.roots.items, validGeneration entry.1 entry.2 :=
    registry.valid
  simp only [decode, hparse, Result.ok_bind]
  rw [if_neg (by simp [document]), dif_pos hvalid]
  rfl

/-- Only the bytes of a registry can be read back. -/
theorem encode_of_decode {registry : GenerationRegistry} {bytes : Bytes}
    (h : decode bytes = .ok registry) : registry.encode = .ok bytes := by
  unfold decode at h
  cases hparse : parseCanonical (α := GenerationRegistryDocument) bytes
      maxGenerationRegistryBytes with
  | error e => simp [hparse] at h
  | ok document =>
    obtain ⟨hjson, hbound⟩ := canonicalJson_of_parseCanonical hparse
    simp only [hparse, Result.ok_bind] at h
    split at h
    · cases h
    · rename_i hkind
      simp only [ne_eq, Bool.or_eq_true, decide_eq_true_eq, not_or, not_not] at hkind
      split at h
      · cases h
        have hdocument : GenerationRegistry.document ⟨document.roots, by assumption⟩ = document := by
          cases document
          simp only [GenerationRegistry.document, GenerationRegistryDocument.mk.injEq, true_and]
          exact ⟨hkind.1.symm, hkind.2.symm⟩
        simp [encode, encodeBounded, hdocument, hjson, Nat.not_lt.mpr hbound]
      · cases h

theorem found_whole [LawfulDeserialize GenerationRegistryDocument] {registry : GenerationRegistry}
    {bytes : Bytes} (h : registry.encode = .ok bytes) :
    found ⟨some bytes, none, none⟩ = some registry := by
  simp [found, ServiceFile.Ambiguous, ServiceFile.settled, decode_encode h, Except.toOption]

/-- Only a whole document is found. -/
theorem Writes.found {registry : GenerationRegistry} {file : ServiceFile}
    (h : registry.Writes file) : found file = none ∨ found file = some registry := by
  obtain ⟨hclear, bytes, n, hbytes, hsettled⟩ := h
  simp only [GenerationRegistry.found, hclear, if_false, hsettled]
  cases hdecode : decode (bytes.take n) with
  | error e => exact .inl rfl
  | ok registry' =>
    have hread := bounded_of_encode (encode_of_decode hdecode)
    have hwritten := bounded_of_encode hbytes
    have hdocument : registry'.document = registry.document := by
      have hpart := canonicalJson_object_initial (LawfulSerialize.regular registry'.document)
        (LawfulSerialize.regular registry.document) hread.1 hwritten.1 (List.take_prefix n bytes)
      refine canonicalJson_toValue_injective hread.1 ?_
      rw [hpart]
      exact hwritten.1
    have hroots : registry'.roots = registry.roots :=
      congrArg GenerationRegistryDocument.roots hdocument
    exact .inr (congrArg some (GenerationRegistry.ext hroots))

omit [Deserialize GenerationRegistryDocument] in
theorem encode_empty : ∃ bytes, encode .empty = .ok bytes := by
  have hlength : (utf8 (toValue GenerationRegistry.empty.document).text).length ≤
      maxGenerationRegistryBytes := by
    decide +kernel
  exact ⟨_, encode_of_length hlength⟩

/-- What is found can be saved again. -/
theorem encode_of_found {registry : GenerationRegistry} {file : ServiceFile}
    (h : found file = some registry) : ∃ bytes, registry.encode = .ok bytes := by
  unfold found at h
  split at h
  · cases h
  · split at h
    · obtain rfl := Option.some.inj h
      exact encode_empty
    · rename_i bytes _
      cases hdecode : decode bytes with
      | error e => simp [hdecode, Except.toOption] at h
      | ok registry' =>
        obtain rfl : registry' = registry := by simpa [hdecode, Except.toOption] using h
        exact ⟨bytes, encode_of_decode hdecode⟩

end GenerationRegistry

end Se7en
