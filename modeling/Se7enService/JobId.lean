import Mathlib.Data.List.TakeWhile
import Se7enService.Daemon
set_option autoImplicit false

/-! Job IDs: what `prepare_file_set` builds them from is what `generation_from_job_id` reads back. -/

namespace Se7en

/-! ### The bytes of a job ID -/

/-- The bytes of a job ID. -/
def jobByte (byte : UInt8) : Bool :=
  isAsciiLowercase byte || isAsciiDigit byte || [46, 95, 45].contains byte

theorem utf8_append (a b : List Char) : utf8 (a ++ b) = utf8 a ++ utf8 b := List.flatMap_append

theorem utf8EncodeChar_digit : ∀ n < 58, 48 ≤ n →
    (String.utf8EncodeChar (Char.ofNat n)).length = 1 ∧
      (String.utf8EncodeChar (Char.ofNat n)).all jobByte = true := by decide

theorem utf8_digits {text : List Char} (h : ∀ c ∈ text, c.isDigit = true) :
    (utf8 text).length = text.length ∧ (utf8 text).all jobByte = true := by
  induction text with
  | nil => exact ⟨rfl, rfl⟩
  | cons c text ih =>
    rw [List.forall_mem_cons] at h
    obtain ⟨hlength, hbytes⟩ := ih h.2
    have hrange : 48 ≤ c.toNat ∧ c.toNat ≤ 57 := by
      have hc := h.1
      simp only [Char.isDigit, Bool.and_eq_true, decide_eq_true_eq] at hc
      exact hc
    have hchar := utf8EncodeChar_digit c.toNat (by omega) hrange.1
    rw [Char.ofNat_toNat] at hchar
    constructor
    · simp only [utf8] at hlength
      simp [utf8, hchar.1, hlength, Nat.add_comm]
    · simp only [utf8] at hbytes
      rw [utf8, List.flatMap_cons, List.all_append, hchar.2, hbytes, Bool.and_self]

theorem generationText_bytes (generation : UInt64) :
    (utf8 (toString generation.toNat).toList).length ≤ 20 ∧
      (utf8 (toString generation.toNat).toList).all jobByte = true := by
  have htext : (toString generation.toNat).toList = Nat.toDigits 10 generation.toNat :=
    Nat.toList_repr
  have hdigits : ∀ c ∈ Nat.toDigits 10 generation.toNat, c.isDigit = true :=
    fun c hc => Nat.isDigit_of_mem_toDigits (by decide) (by decide) hc
  have hcount : (Nat.toDigits 10 generation.toNat).length ≤ 20 := by
    refine (Nat.length_toDigits_le_iff (by decide) (by decide)).mpr ?_
    exact lt_of_lt_of_le generation.toNat_lt (by decide)
  have hbytes := utf8_digits hdigits
  rw [htext]
  exact ⟨hbytes.1.trans_le hcount, hbytes.2⟩

theorem hexByte_jobByte : ∀ n < 16, jobByte (hexByte (UInt8.ofNat n)) = true := by decide

theorem encodeHex_bytes (bytes : Bytes) :
    (utf8 (encodeHex bytes).toList).length = 2 * bytes.length ∧
      (utf8 (encodeHex bytes).toList).all jobByte = true := by
  have htext : utf8 (encodeHex bytes).toList =
      bytes.flatMap fun byte => [hexByte (byte / 16), hexByte (byte % 16)] := by
    simp [encodeHex, utf8_hex]
  have hnibble : ∀ nibble : UInt8, nibble.toNat < 16 → jobByte (hexByte nibble) = true := by
    intro nibble h
    simpa using hexByte_jobByte nibble.toNat h
  rw [htext]
  constructor
  · simp [List.length_flatMap, Nat.mul_comm]
  · rw [List.all_flatMap, List.all_eq_true]
    intro byte _
    obtain ⟨hhigh, hlow⟩ := toNat_nibbles byte
    simp [hnibble _ hhigh, hnibble _ hlow]

theorem validIdentifier_bytes {value : String} (h : validIdentifier value = true) :
    utf8 value.toList ≠ [] ∧ (utf8 value.toList).length ≤ 64 ∧
      (utf8 value.toList).all jobByte = true := by
  unfold validIdentifier at h
  cases hbytes : utf8 value.toList with
  | nil => simp [hbytes] at h
  | cons first rest =>
    simp only [hbytes, Bool.and_eq_true, decide_eq_true_eq] at h
    exact ⟨by simp, h.1.1, h.2⟩

/-! ### Splitting from the right -/

theorem takeWhile_ne_append {separator : Char} {before after : List Char} (h : separator ∉ before) :
    (before ++ separator :: after).takeWhile (· ≠ separator) = before ∧
      (before ++ separator :: after).dropWhile (· ≠ separator) = separator :: after := by
  have hne : ∀ c ∈ before, decide (c ≠ separator) = true := by
    intro c hc
    simpa using fun heq : c = separator => h (heq ▸ hc)
  constructor
  · rw [List.takeWhile_append_of_pos hne, List.takeWhile_cons_of_neg (by simp), List.append_nil]
  · rw [List.dropWhile_append_of_pos hne, List.dropWhile_cons_of_neg (by simp)]

theorem Windows.rsplitOnce_append {separator : Char} {before after : List Char} (h : separator ∉ after) :
    rsplitOnce separator (before ++ separator :: after) = some (before, after) := by
  have hreverse : (before ++ separator :: after).reverse =
      after.reverse ++ separator :: before.reverse := by simp
  have hsplit := @takeWhile_ne_append separator after.reverse before.reverse (by simpa using h)
  rw [rsplitOnce, hreverse, hsplit.1, hsplit.2]
  simp

theorem eq_append_of_dropWhile {separator c : Char} {text rest : List Char}
    (h : text.dropWhile (· ≠ separator) = c :: rest) :
    text = text.takeWhile (· ≠ separator) ++ separator :: rest ∧
      separator ∉ text.takeWhile (· ≠ separator) := by
  constructor
  · have hjoin := List.takeWhile_append_dropWhile (p := (· ≠ separator)) (l := text)
    have hc := List.head?_dropWhile_not (· ≠ separator) text
    simp only [h, List.head?_cons, decide_eq_false_iff_not, not_not] at hc
    rw [h, hc] at hjoin
    exact hjoin.symm
  · intro hmem
    simpa using List.mem_takeWhile_imp hmem

theorem Windows.rsplitOnce_eq_some {separator : Char} {text before after : List Char}
    (h : rsplitOnce separator text = some (before, after)) :
    text = before ++ separator :: after ∧ separator ∉ after := by
  unfold rsplitOnce at h
  split at h
  · cases h
  · rename_i c rest hdrop
    obtain ⟨hjoin, hmem⟩ := eq_append_of_dropWhile hdrop
    cases h
    constructor
    · simpa using congrArg List.reverse hjoin
    · simpa using hmem

/-! ### The parts -/

/-- The text of a job ID. -/
def jobId (rootId : String) (record : GenerationRecord) : String :=
  rootId ++ "-" ++ toString record.generation.toNat ++ "-" ++ encodeHex record.digest.toList

theorem generationText_toList (generation : UInt64) :
    (toString generation.toNat).toList = decimal generation.toNat := Nat.toList_repr

theorem digitsValue_decimal (n : Nat) : digitsValue (decimal n) = n :=
  Nat.ofDigitChars_ten_toDigits

theorem parseU64_digits {text : List Char} (hne : text ≠ [])
    (hdigits : ∀ c ∈ text, c.isDigit = true) (hvalue : digitsValue text < UInt64.size) :
    parseU64 text = some (UInt64.ofNat (digitsValue text)) := by
  have hall : text.all Char.isDigit = true := List.all_eq_true.2 hdigits
  unfold parseU64
  split
  · exact absurd (hdigits '+' (by simp)) (by decide)
  · simp [hne, hall, hvalue]

theorem parseU64_decimal (generation : UInt64) :
    parseU64 (decimal generation.toNat) = some generation := by
  have hvalue := digitsValue_decimal generation.toNat
  have hlt : digitsValue (decimal generation.toNat) < UInt64.size := by
    rw [hvalue]
    exact generation.toNat_lt
  have hne : decimal generation.toNat ≠ [] := Nat.toDigits_ne_nil
  rw [parseU64_digits hne decimal_isDigit hlt, hvalue, UInt64.ofNat_toNat]

theorem hexDigit_ne_dash : ∀ n < 16, hexDigit (UInt8.ofNat n) ≠ '-' := by decide

theorem dash_notMem_encodeHex (bytes : Bytes) : '-' ∉ (encodeHex bytes).toList := by
  simp only [encodeHex, String.toList_ofList, List.mem_flatMap, List.mem_cons, List.not_mem_nil,
    or_false, not_exists, not_and, not_or]
  intro byte _
  obtain ⟨hhigh, hlow⟩ := toNat_nibbles byte
  have h := hexDigit_ne_dash _ hhigh
  have h' := hexDigit_ne_dash _ hlow
  simp only [UInt8.ofNat_toNat] at h h'
  exact ⟨h.symm, h'.symm⟩

theorem dash_notMem_decimal (n : Nat) : '-' ∉ decimal n := by
  intro h
  exact absurd (decimal_isDigit _ h) (by decide)

theorem jobId_toList (rootId : String) (record : GenerationRecord) :
    (jobId rootId record).toList = (rootId.toList ++ '-' :: decimal record.generation.toNat) ++
      '-' :: (encodeHex record.digest.toList).toList := by
  simp only [jobId, String.toList_append, generationText_toList, List.append_assoc]
  rfl

theorem rsplit_jobId (rootId : String) (record : GenerationRecord) :
    Windows.rsplitOnce '-' (jobId rootId record).toList =
        some (rootId.toList ++ '-' :: decimal record.generation.toNat,
          (encodeHex record.digest.toList).toList) ∧
      Windows.rsplitOnce '-' (rootId.toList ++ '-' :: decimal record.generation.toNat) =
        some (rootId.toList, decimal record.generation.toNat) := by
  rw [jobId_toList]
  exact ⟨Windows.rsplitOnce_append (dash_notMem_encodeHex _),
    Windows.rsplitOnce_append (dash_notMem_decimal _)⟩

/-! ### The codec -/

theorem hexByte_lower : ∀ n < 16, isAsciiDigit (hexByte (UInt8.ofNat n)) ||
    97 ≤ hexByte (UInt8.ofNat n) && hexByte (UInt8.ofNat n) ≤ 102 := by decide

def isLowerHex (byte : UInt8) : Bool := isAsciiDigit byte || 97 ≤ byte && byte ≤ 102

theorem utf8_encodeHex (bytes : Bytes) : utf8 (encodeHex bytes).toList =
    bytes.flatMap fun byte => [hexByte (byte / 16), hexByte (byte % 16)] := by
  simp [encodeHex, utf8_hex]

theorem encodeHex_lower (bytes : Bytes) :
    (utf8 (encodeHex bytes).toList).all (fun byte => isAsciiDigit byte || 97 ≤ byte && byte ≤ 102) =
      true := by
  rw [utf8_encodeHex, List.all_flatMap, List.all_eq_true]
  intro byte _
  obtain ⟨hhigh, hlow⟩ := toNat_nibbles byte
  have h := hexByte_lower _ hhigh
  have h' := hexByte_lower _ hlow
  simp only [UInt8.ofNat_toNat] at h h'
  simp only [List.all_cons, List.all_nil, h, h', Bool.and_self]

theorem exists_nibble : ∀ n < 256, isLowerHex (UInt8.ofNat n) = true →
    ∃ m < 16, hexByte (UInt8.ofNat m) = UInt8.ofNat n := by decide +kernel

theorem exists_hexByte {high low : UInt8} (hhigh : isLowerHex high = true)
    (hlow : isLowerHex low = true) :
    ∃ byte : UInt8, [high, low] = [hexByte (byte / 16), hexByte (byte % 16)] := by
  obtain ⟨h, hh, hhigh⟩ := exists_nibble high.toNat high.toNat_lt (by simpa using hhigh)
  obtain ⟨l, hl, hlow⟩ := exists_nibble low.toNat low.toNat_lt (by simpa using hlow)
  simp only [UInt8.ofNat_toNat] at hhigh hlow
  have hbyte : (UInt8.ofNat (16 * h + l)).toNat = 16 * h + l := by
    simp only [UInt8.toNat_ofNat']
    omega
  have hdiv : UInt8.ofNat (16 * h + l) / 16 = UInt8.ofNat h := by
    apply UInt8.toNat_inj.1
    simp only [UInt8.toNat_div, hbyte, UInt8.toNat_ofNat', UInt8.reduceToNat]
    omega
  have hmod : UInt8.ofNat (16 * h + l) % 16 = UInt8.ofNat l := by
    apply UInt8.toNat_inj.1
    simp only [UInt8.toNat_mod, hbyte, UInt8.toNat_ofNat', UInt8.reduceToNat]
    omega
  exact ⟨UInt8.ofNat (16 * h + l), by rw [hdiv, hmod, hhigh, hlow]⟩

/-- Lowercase hexadecimal text is what is written for the bytes it stands for. -/
theorem exists_encodeHex {text : Bytes} {n : Nat} (hlength : text.length = 2 * n)
    (h : ∀ byte ∈ text, isLowerHex byte = true) :
    ∃ bytes : Bytes, bytes.length = n ∧ text = utf8 (encodeHex bytes).toList := by
  simp only [utf8_encodeHex]
  induction n generalizing text with
  | zero =>
    obtain rfl := List.length_eq_zero_iff.1 hlength
    exact ⟨[], rfl, rfl⟩
  | succ n ih =>
    match text, hlength with
    | high :: low :: rest, hlength =>
      have hrest : rest.length = 2 * n := by
        simp only [List.length_cons] at hlength
        omega
      obtain ⟨bytes, hbytes, rfl⟩ := ih hrest fun byte hbyte => h byte (by simp [hbyte])
      obtain ⟨byte, hbyte⟩ := exists_hexByte (h high (by simp)) (h low (by simp))
      refine ⟨byte :: bytes, by simp [hbytes], ?_⟩
      rw [List.flatMap_cons, ← hbyte]
      rfl

theorem utf8_jobId (rootId : String) (record : GenerationRecord) :
    utf8 (jobId rootId record).toList = utf8 rootId.toList ++ 45 ::
      (utf8 (toString record.generation.toNat).toList ++ 45 ::
        utf8 (encodeHex record.digest.toList).toList) := by
  have hdash : utf8 "-".toList = [45] := by decide
  simp only [jobId, String.toList_append, utf8_append, hdash, List.append_assoc,
    List.singleton_append]

theorem byteLength_jobId (rootId : String) (record : GenerationRecord)
    (h : validIdentifier rootId = true) : byteLength (jobId rootId record) ≤ Windows.maxJobIdBytes := by
  obtain ⟨-, hroot, -⟩ := validIdentifier_bytes h
  have hgeneration := (generationText_bytes record.generation).1
  have hdigest := (encodeHex_bytes record.digest.toList).1
  have hcount : record.digest.toList.length = 32 := by simp
  rw [hcount] at hdigest
  simp only [byteLength, utf8_jobId, List.length_append, List.length_cons, Windows.maxJobIdBytes]
  omega

/-- A job ID is a name of a job directory. -/
theorem validInternalJobId_jobId {rootId : String} (record : GenerationRecord)
    (h : validIdentifier rootId = true) : validInternalJobId (jobId rootId record) = true := by
  obtain ⟨hne, -, hrootBytes⟩ := validIdentifier_bytes h
  have hgenerationBytes := (generationText_bytes record.generation).2
  have hdigestBytes := (encodeHex_bytes record.digest.toList).2
  have hlength : (utf8 (jobId rootId record).toList).length ≤ 256 :=
    (byteLength_jobId rootId record h).trans (by decide)
  have hbytes : (utf8 (jobId rootId record).toList).all jobByte = true := by
    have hsign : jobByte 45 = true := by decide
    simp only [utf8_jobId, List.all_append, List.all_cons, hrootBytes, hgenerationBytes,
      hdigestBytes, hsign, Bool.and_self]
  have hsome : (utf8 (jobId rootId record).toList).isEmpty = false := by
    cases hid : utf8 rootId.toList with
    | nil => exact absurd hid hne
    | cons first rest => simp [utf8_jobId, hid]
  unfold validInternalJobId
  simp only [hsome, hlength, decide_true, Bool.not_false, Bool.true_and]
  exact hbytes

theorem validJobIdentifier_jobId {rootId : String} {record : GenerationRecord}
    (h : validIdentifier rootId = true) (hgeneration : record.generation ≠ 0) :
    Windows.validJobIdentifier (jobId rootId record) = true := by
  obtain ⟨houter, hinner⟩ := rsplit_jobId rootId record
  have hlength := byteLength_jobId rootId record h
  have hdigest : (utf8 (encodeHex record.digest.toList).toList).length = 64 := by
    simp [(encodeHex_bytes record.digest.toList).1]
  have hpositive : record.generation > 0 := UInt64.pos_iff_ne_zero.2 hgeneration
  simp [Windows.validJobIdentifier, Nat.not_lt.2 hlength, houter, hinner, h, hdigest,
    encodeHex_lower, parseU64_decimal, hpositive]
  rfl

theorem generationFromJobId_jobId {rootId : String} {record : GenerationRecord}
    (h : validIdentifier rootId = true) (hgeneration : record.generation ≠ 0) :
    Windows.generationFromJobId (jobId rootId record) = some (rootId, record) := by
  obtain ⟨houter, hinner⟩ := rsplit_jobId rootId record
  simp [Windows.generationFromJobId, validJobIdentifier_jobId h hgeneration, houter, hinner,
    parseU64_decimal, hgeneration, h, decodeDigest_encodeHex]

theorem jobId_injective {rootId rootId' : String} {record record' : GenerationRecord}
    (h : jobId rootId record = jobId rootId' record') : rootId = rootId' ∧ record = record' := by
  have hsplit := congrArg String.toList h
  have houter := (rsplit_jobId rootId record).1
  rw [hsplit, (rsplit_jobId rootId' record').1] at houter
  simp only [Option.some.injEq, Prod.mk.injEq] at houter
  obtain ⟨hbefore, hdigest⟩ := houter
  have hinner := (rsplit_jobId rootId record).2
  rw [← hbefore, (rsplit_jobId rootId' record').2] at hinner
  simp only [Option.some.injEq, Prod.mk.injEq] at hinner
  obtain ⟨hroot, hgeneration⟩ := hinner
  have hempty : Follow [] := nofun
  have hnumber : record.generation = record'.generation := by
    apply UInt64.toNat_inj.1
    exact (decimal_cancel hempty hempty (congrArg (· ++ []) hgeneration.symm)).1
  have hbytes : record.digest = record'.digest := by
    have htext := String.toList_inj.1 hdigest
    have hdecode := decodeDigest_encodeHex record.digest .generationConflict
    rw [← htext, decodeDigest_encodeHex] at hdecode
    exact (Except.ok.inj hdecode).symm
  refine ⟨(String.toList_inj.1 hroot).symm, ?_⟩
  cases record
  cases record'
  simp_all

/-- What the check accepts is the job ID of a root, a generation and a digest. -/
theorem exists_jobId {value : String} (h : Windows.validJobIdentifier value = true) :
    ∃ rootId record, validIdentifier rootId = true ∧ record.generation ≠ 0 ∧
      jobId rootId record = value := by
  unfold Windows.validJobIdentifier at h
  split at h
  · cases h
  cases houter : Windows.rsplitOnce '-' value.toList with
  | none => simp [houter] at h
  | some parts =>
    obtain ⟨before, digestText⟩ := parts
    simp only [houter] at h
    cases hinner : Windows.rsplitOnce '-' before with
    | none => simp [hinner] at h
    | some parts =>
      obtain ⟨rootText, generationText⟩ := parts
      simp only [hinner, Bool.and_eq_true, decide_eq_true_eq, List.all_eq_true,
        Option.any_eq_true] at h
      obtain ⟨⟨⟨hroot, hlength⟩, hlower⟩, generation, -, hpositive, htext⟩ := h
      obtain ⟨bytes, hbytes, hdigest⟩ := exists_encodeHex (n := 32) hlength hlower
      obtain ⟨hvalue, -⟩ := Windows.rsplitOnce_eq_some houter
      obtain ⟨hbefore, -⟩ := Windows.rsplitOnce_eq_some hinner
      refine ⟨String.ofList rootText, ⟨generation, ⟨bytes.toArray, by simp [hbytes]⟩⟩, hroot,
        UInt64.pos_iff_ne_zero.1 hpositive, ?_⟩
      apply String.toList_inj.1
      rw [jobId_toList, hvalue, hbefore, ← htext, utf8_injective hdigest, generationText_toList,
        String.toList_ofList]
      simp only [Vector.toList_mk]

section Manifest

variable [Unicode]

theorem jobIdOf_eq (root : RegisteredRoot) (manifest : VerifiedFileSet) : jobIdOf root manifest =
    jobId root.rootId ⟨manifest.fileSet.generation, manifest.digest⟩ := by
  simp only [jobIdOf, jobId]

theorem validInternalJobId_jobIdOf {root : RegisteredRoot} (manifest : VerifiedFileSet)
    (h : validIdentifier root.rootId = true) :
    validInternalJobId (jobIdOf root manifest) = true := by
  rw [jobIdOf_eq]
  exact validInternalJobId_jobId _ h

theorem job_id_codec :
    (∀ rootId record, validIdentifier rootId = true → record.generation ≠ 0 →
      byteLength (jobId rootId record) ≤ Windows.maxJobIdBytes ∧
        Windows.validJobIdentifier (jobId rootId record) = true ∧
        validInternalJobId (jobId rootId record) = true ∧
        Windows.generationFromJobId (jobId rootId record) = some (rootId, record)) ∧
      (∀ value, Windows.validJobIdentifier value = true →
        ∃! triple : String × GenerationRecord, validIdentifier triple.1 = true ∧
          triple.2.generation ≠ 0 ∧ jobId triple.1 triple.2 = value) ∧
      ∀ (root root' : RegisteredRoot) (manifest manifest' : VerifiedFileSet),
        jobIdOf root manifest =
            jobId root.rootId ⟨manifest.fileSet.generation, manifest.digest⟩ ∧
          (jobIdOf root manifest = jobIdOf root' manifest' → root.rootId = root'.rootId ∧
            manifest.fileSet.generation = manifest'.fileSet.generation ∧
            manifest.digest = manifest'.digest) := by
  refine ⟨fun rootId record h hgeneration => ?_, fun value h => ?_, fun root root' manifest manifest' => ?_⟩
  · exact ⟨byteLength_jobId rootId record h, validJobIdentifier_jobId h hgeneration,
      validInternalJobId_jobId record h, generationFromJobId_jobId h hgeneration⟩
  · obtain ⟨rootId, record, hroot, hgeneration, rfl⟩ := exists_jobId h
    refine ⟨(rootId, record), ⟨hroot, hgeneration, rfl⟩, ?_⟩
    rintro ⟨rootId', record'⟩ ⟨-, -, heq⟩
    obtain ⟨rfl, rfl⟩ := jobId_injective heq
    rfl
  · refine ⟨jobIdOf_eq root manifest, fun heq => ?_⟩
    rw [jobIdOf_eq, jobIdOf_eq] at heq
    obtain ⟨hroot, hrecord⟩ := jobId_injective heq
    simp only [GenerationRecord.mk.injEq] at hrecord
    exact ⟨hroot, hrecord.1, hrecord.2⟩

end Manifest

end Se7en
