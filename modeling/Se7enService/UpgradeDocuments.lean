import Mathlib.Data.List.Induction
import Se7enService.Installer
import Se7enService.JournalBound
import Se7enService.RelativePath
set_option autoImplicit false

/-! The codecs of service versions, release records and upgrade journals. -/

namespace Se7en

/-! ### Version components -/

theorem digitsValue_append_singleton (digits : List Char) (digit : Char) :
    digitsValue (digits ++ [digit]) = 10 * digitsValue digits + (digit.toNat - 48) := by
  simp [digitsValue, List.foldl_append]

theorem digitChar_of_isDigit : ∀ n < 58, 48 ≤ n → Nat.digitChar (n - 48) = Char.ofNat n := by decide

/-- Digits without a leading zero are the ones of the number they stand for. -/
theorem decimal_digitsValue {digits : List Char} (hne : digits ≠ [])
    (hdigits : ∀ c ∈ digits, c.isDigit = true)
    (hlead : 1 < digits.length → digits.head? ≠ some '0') : decimal (digitsValue digits) = digits := by
  induction digits using List.reverseRecOn with
  | nil => exact absurd rfl hne
  | append_singleton digits digit ih =>
    have hdigit := hdigits digit (by simp)
    have hrange : 48 ≤ digit.toNat ∧ digit.toNat ≤ 57 := by
      simp only [Char.isDigit, Bool.and_eq_true, decide_eq_true_eq] at hdigit
      exact hdigit
    have hchar : Nat.digitChar (digit.toNat - 48) = digit := by
      rw [digitChar_of_isDigit _ (by omega) hrange.1, Char.ofNat_toNat]
    have hsmall : digit.toNat - 48 < 10 := by omega
    rw [digitsValue_append_singleton]
    by_cases hempty : digits = []
    · subst hempty
      have hvalue : 10 * digitsValue [] + (digit.toNat - 48) = digit.toNat - 48 := by
        simp [digitsValue]
      rw [hvalue, decimal, Nat.toDigits_of_lt_base hsmall, hchar, List.nil_append]
    · have hhead : (digits ++ [digit]).head? = digits.head? := by
        cases digits with
        | nil => exact absurd rfl hempty
        | cons c cs => rfl
      have hlong : 1 < (digits ++ [digit]).length := by
        have := List.length_pos_iff.mpr hempty
        simp only [List.length_append, List.length_singleton]
        omega
      have hfirst := hlead hlong
      rw [hhead] at hfirst
      have hinit := ih hempty (fun c hc => hdigits c (by simp [hc])) fun _ => hfirst
      have hpos : 0 < digitsValue digits := by
        rcases Nat.eq_zero_or_pos (digitsValue digits) with hzero | hpos
        · rw [hzero] at hinit
          rw [← hinit] at hfirst
          exact absurd rfl hfirst
        · exact hpos
      have happend := Nat.toDigits_append_toDigits (by decide : 1 < 10) hpos hsmall
      rw [Nat.toDigits_of_lt_base hsmall, hchar] at happend
      exact happend.symm.trans (congrArg (· ++ [digit]) hinit)

theorem digitChar_ne_zero : ∀ n < 10, 0 < n → Nat.digitChar n ≠ '0' := by decide

theorem decimal_head_ne_zero {n : Nat} (h : 0 < n) : (decimal n).head? ≠ some '0' := by
  induction n using Nat.strongRecOn with
  | ind n ih =>
    by_cases hsmall : n < 10
    · rw [decimal, Nat.toDigits_of_lt_base hsmall]
      simpa using digitChar_ne_zero n hsmall h
    · have hfirst := ih (n / 10) (by omega) (by omega)
      rw [decimal, Nat.toDigits_of_base_le (by decide) (by omega)]
      have hne : Nat.toDigits 10 (n / 10) ≠ [] := Nat.toDigits_ne_nil
      rwa [List.head?_append_of_ne_nil _ hne]

theorem decimal_lead {n : Nat} (h : 1 < (decimal n).length) : (decimal n).head? ≠ some '0' := by
  refine decimal_head_ne_zero (Nat.pos_of_ne_zero ?_)
  rintro rfl
  exact absurd h (by decide)

theorem parseU64_eq_some {text : List Char} {n : UInt64} (hdigits : ∀ c ∈ text, c.isDigit = true)
    (h : parseU64 text = some n) : digitsValue text = n.toNat := by
  unfold parseU64 at h
  dsimp only at h
  split at h
  · exact absurd (hdigits '+' (by simp)) (by decide)
  · split at h
    · cases h
    · rename_i hnot
      simp only [Bool.or_eq_true, decide_eq_true_eq, not_or, ge_iff_le, not_le] at hnot
      cases h
      exact (Nat.mod_eq_of_lt hnot.2).symm

namespace ServiceVersion

/-- A component is accepted exactly where it is the canonical text of its number. -/
theorem parseVersionComponent_eq_ok {text : List Char} {n : UInt64} :
    parseVersionComponent text = .ok n ↔ text = decimal n.toNat := by
  constructor
  · intro h
    obtain ⟨⟨⟩, hcheck, h⟩ := Result.bind_eq_ok.mp h
    have hcheck := rejectIf_eq_ok.mp hcheck
    simp only [Bool.or_eq_false_iff, Bool.and_eq_false_iff, decide_eq_false_iff_not,
      Bool.not_eq_false'] at hcheck
    obtain ⟨⟨hempty, hzero⟩, hall⟩ := hcheck
    have hne : text ≠ [] := by simpa using hempty
    have hdigits := List.all_eq_true.mp hall
    have hlead : 1 < text.length → text.head? ≠ some '0' := by
      intro hlong
      rcases hzero with hshort | hzero
      · exact absurd hlong hshort
      · exact hzero
    cases hparse : parseU64 text with
    | none => rw [hparse] at h; cases h
    | some component =>
      rw [hparse] at h
      cases h
      rw [← parseU64_eq_some hdigits hparse, decimal_digitsValue hne hdigits hlead]
  · rintro rfl
    have hne : decimal n.toNat ≠ [] := Nat.toDigits_ne_nil
    have hall : (decimal n.toNat).all Char.isDigit = true := List.all_eq_true.mpr decimal_isDigit
    refine Result.bind_eq_ok.mpr ⟨(), rejectIf_eq_ok.mpr ?_, by rw [parseU64_decimal]⟩
    simp only [hall, Bool.not_true, Bool.or_false, Bool.or_eq_false_iff, Bool.and_eq_false_iff,
      decide_eq_false_iff_not]
    refine ⟨by simpa using hne, ?_⟩
    by_cases hlong : 1 < (decimal n.toNat).length
    · exact .inr (decimal_lead hlong)
    · exact .inl hlong

theorem text_toList (v : ServiceVersion) : v.text.toList =
    decimal v.major.toNat ++ '.' :: (decimal v.minor.toNat ++ '.' :: decimal v.patch.toNat) := by
  simp only [text, String.toList_append, generationText_toList, List.append_assoc]
  rfl

theorem eq_of_split_singleton {xs part : List Char} (h : split '.' xs = [part]) : xs = part := by
  by_cases hmem : '.' ∈ xs
  · obtain ⟨before, after, rfl, hbefore⟩ := List.eq_append_cons_of_mem hmem
    rw [split_append hbefore] at h
    exact absurd (List.cons.inj h).2 (split_ne_nil _ _)
  · rw [split_of_not_mem hmem] at h
    exact (List.cons.inj h).1

/-- A text is accepted exactly where it is what `Display` writes. -/
theorem parse_eq_ok {value : String} {v : ServiceVersion} :
    parse value = .ok v ↔ value = v.text := by
  constructor
  · intro h
    unfold parse at h
    split at h
    · rename_i majorText minorText patchText hsplit
      obtain ⟨major, hmajor, h⟩ := Result.bind_eq_ok.mp h
      obtain ⟨minor, hminor, h⟩ := Result.bind_eq_ok.mp h
      obtain ⟨patch, hpatch, h⟩ := Result.bind_eq_ok.mp h
      cases h
      obtain ⟨rest, hvalue, -, hsplit⟩ := split_cons_cons hsplit
      obtain ⟨rest', hrest, -, hsplit⟩ := split_cons_cons hsplit
      have hlast := eq_of_split_singleton hsplit
      refine String.toList_inj.mp ?_
      rw [hvalue, hrest, hlast, text_toList, parseVersionComponent_eq_ok.mp hmajor,
        parseVersionComponent_eq_ok.mp hminor, parseVersionComponent_eq_ok.mp hpatch]
    · cases h
  · rintro rfl
    have hdot : ∀ n, '.' ∉ decimal n := fun n => notMem_decimal (by decide) n
    have hsplit : split '.' v.text.toList =
        [decimal v.major.toNat, decimal v.minor.toNat, decimal v.patch.toNat] := by
      rw [text_toList, split_append (hdot _), split_append (hdot _), split_of_not_mem (hdot _)]
    unfold parse
    rw [hsplit]
    dsimp only
    rw [parseVersionComponent_eq_ok.mpr rfl, parseVersionComponent_eq_ok.mpr rfl,
      parseVersionComponent_eq_ok.mpr rfl]
    rfl

theorem length_text (v : ServiceVersion) : byteLength v.text ≤ 62 := by
  have hpart : ∀ n : UInt64, (utf8 (decimal n.toNat)).length ≤ 20 := by
    intro n
    have h := (generationText_bytes n).1
    rwa [generationText_toList] at h
  have hdot : (String.utf8EncodeChar '.').length = 1 := by decide
  have hmajor := hpart v.major
  have hminor := hpart v.minor
  have hpatch := hpart v.patch
  rw [byteLength, text_toList]
  simp only [utf8_append, utf8_cons, List.length_append, hdot]
  omega

end ServiceVersion

/-! ### The length of a document -/

theorem length_escape_control : ∀ n < 32, (utf8 (escapeChar (Char.ofNat n))).length ≤ 6 := by decide

theorem length_escapeChar (c : Char) :
    (utf8 (escapeChar c)).length ≤ 6 * (String.utf8EncodeChar c).length := by
  have hone : 1 ≤ (String.utf8EncodeChar c).length := by
    rw [String.length_utf8EncodeChar]
    exact c.utf8Size_pos
  by_cases hcontrol : c.toNat < 32
  · have h := length_escape_control c.toNat hcontrol
    rw [Char.ofNat_toNat] at h
    omega
  · have hsize : ∀ text : List Char, text = ['\\', '"'] ∨ text = ['\\', '\\'] ∨ text = [c] →
        (utf8 text).length ≤ 6 * (String.utf8EncodeChar c).length := by
      rintro text (rfl | rfl | rfl)
      · have htwo : (utf8 ['\\', '"']).length = 2 := by decide
        omega
      · have htwo : (utf8 ['\\', '\\']).length = 2 := by decide
        omega
      · simp only [utf8, List.flatMap_cons, List.flatMap_nil, List.append_nil]
        omega
    refine hsize _ ?_
    unfold escapeChar
    split
    · exact .inl rfl
    · split
      · exact .inr (.inl rfl)
      · rw [if_neg (by omega), if_neg (by omega), if_neg (by omega), if_neg (by omega),
          if_neg (by omega)]
        exact .inr (.inr rfl)

/-- No byte of a text takes more than six where it is escaped. -/
theorem quotedSize_le (text : String) : quotedSize text ≤ 6 * byteLength text + 2 := by
  have hescaped : ∀ chars : List Char,
      (utf8 (chars.flatMap escapeChar)).length ≤ 6 * (utf8 chars).length := by
    intro chars
    induction chars with
    | nil => exact Nat.zero_le _
    | cons c chars ih =>
      have hc := length_escapeChar c
      rw [List.flatMap_cons, utf8_append, utf8_cons, List.length_append, List.length_append]
      omega
  have h := hescaped text.toList
  have hquote : (String.utf8EncodeChar '"').length = 1 := by decide
  simp only [quotedSize, byteLength, stringText, utf8_cons, utf8_append, List.length_append, hquote]
  have hlast : (utf8 []).length = 0 := rfl
  omega

theorem digitCount_le (n : UInt64) : digitCount n.toNat ≤ 20 := by
  refine (Nat.length_toDigits_le_iff (by decide) (by decide)).mpr ?_
  exact lt_of_lt_of_le n.toNat_lt (by decide)

/-- What a record that passes its check is made of. -/
theorem ServiceReleaseRecord.validate_eq_ok {record : ServiceReleaseRecord}
    (h : record.validate = .ok ()) : record.kind = releaseRecordKind ∧
      record.schema = documentSchema ∧ byteLength record.serviceVersion ≤ 62 ∧
      byteLength record.digest = 64 := by
  obtain ⟨⟨⟩, hcheck, h⟩ := Result.bind_eq_ok.mp h
  have hcheck := rejectIf_eq_ok.mp hcheck
  simp only [Bool.or_eq_false_iff, decide_eq_false_iff_not, ne_eq, not_not] at hcheck
  obtain ⟨v, hversion, h⟩ := Result.bind_eq_ok.mp h
  obtain ⟨digest, hdigest, -⟩ := Result.bind_eq_ok.mp h
  refine ⟨hcheck.1.1, hcheck.1.2, ?_, ?_⟩
  · rw [ServiceVersion.parse_eq_ok.mp hversion]
    exact v.length_text
  · unfold decodeLowerHex at hdigest
    split at hdigest
    · cases hdigest
    · rename_i hlength
      simpa using hlength

theorem size_releaseRecord {record : ServiceReleaseRecord} (h : record.validate = .ok ()) :
    (toValue record).size ≤ 1024 := by
  obtain ⟨hkind, hschema, hversion, hdigest⟩ := ServiceReleaseRecord.validate_eq_ok h
  have hkeys : quotedSize "digest" = 8 ∧ quotedSize "generation" = 12 ∧ quotedSize "kind" = 6 ∧
      quotedSize "schema" = 8 ∧ quotedSize "serviceVersion" = 16 := by decide
  have hvalues : quotedSize releaseRecordKind ≤ 64 ∧ digitCount documentSchema.toNat = 1 := by
    decide
  have hversion' := quotedSize_le record.serviceVersion
  have hdigest' := quotedSize_le record.digest
  have hgeneration := digitCount_le record.generation
  have hsize : (toValue record).size = 1 + (quotedSize "digest" + 1 + quotedSize record.digest +
      (quotedSize "generation" + 1 + digitCount record.generation.toNat +
      (quotedSize "kind" + 1 + quotedSize record.kind +
      (quotedSize "schema" + 1 + digitCount record.schema.toNat +
      (quotedSize "serviceVersion" + 1 + quotedSize record.serviceVersion + 0))))) + 5 := by
    rw [← size_unsigned, ← size_unsigned]
    exact size_object _
  rw [hkind, hschema] at hsize
  omega

/-- The check of a journal bounds its image path, its kind and both of its records. -/
theorem ServiceUpgradeJournal.validate_eq_ok {journal : ServiceUpgradeJournal}
    (h : journal.validate = .ok ()) : journal.kind = upgradeJournalKind ∧
      journal.schema = documentSchema ∧ journal.candidate.validate = .ok () ∧
      (∀ previous, journal.previous = some previous → previous.validate = .ok ()) ∧
      byteLength journal.candidateImagePath ≤ maxImagePathBytes := by
  obtain ⟨⟨⟩, hcheck, h⟩ := Result.bind_eq_ok.mp h
  have hcheck := rejectIf_eq_ok.mp hcheck
  simp only [Bool.or_eq_false_iff, decide_eq_false_iff_not, ne_eq, not_not] at hcheck
  obtain ⟨⟨⟩, hcandidate, h⟩ := Result.bind_eq_ok.mp h
  obtain ⟨hprevious, hpath⟩ : (∀ previous, journal.previous = some previous →
      previous.validate = .ok ()) ∧ validateImagePath journal.candidateImagePath = .ok () := by
    split at h
    · rename_i previous hsome
      obtain ⟨⟨⟩, hprevious, hpath⟩ := Result.bind_eq_ok.mp h
      exact ⟨fun other hother => Option.some.inj (hsome.symm.trans hother) ▸ hprevious, hpath⟩
    · rename_i hnone
      refine ⟨fun other hother => ?_, h⟩
      cases hnone.symm.trans hother
  have hpath := rejectIf_eq_ok.mp hpath
  simp only [Bool.or_eq_false_iff, decide_eq_false_iff_not, gt_iff_lt, not_lt] at hpath
  exact ⟨hcheck.1, hcheck.2, hcandidate, hprevious, hpath.1.2⟩

theorem size_phase : ∀ phase : UpgradePhase, quotedSize phase.text ≤ 32
  | .staged | .oldStopped | .configSwitched | .healthy => by decide

theorem size_previous {previous : Option ServiceReleaseRecord}
    (h : ∀ record, previous = some record → record.validate = .ok ()) :
    (optional toValue previous).size ≤ 1024 := by
  cases previous with
  | none => exact le_of_eq_of_le size_null (by decide)
  | some record => exact size_releaseRecord (h record rfl)

/-- A path of the greatest length that is all escapes still leaves the journal below the bound. -/
theorem size_upgradeJournal {journal : ServiceUpgradeJournal} (h : journal.validate = .ok ()) :
    (toValue journal).size ≤ maxIpcMessageBytes := by
  obtain ⟨hkind, hschema, hcandidate, hprevious, hpath⟩ := ServiceUpgradeJournal.validate_eq_ok h
  have hkeys : quotedSize "candidate" = 11 ∧ quotedSize "candidateImagePath" = 20 ∧
      quotedSize "kind" = 6 ∧ quotedSize "phase" = 7 ∧ quotedSize "previous" = 10 ∧
      quotedSize "schema" = 8 := by decide
  have hvalues : quotedSize upgradeJournalKind ≤ 64 ∧ digitCount documentSchema.toNat = 1 := by
    decide
  have hbounds : maxImagePathBytes = 4096 ∧ maxIpcMessageBytes = 65536 := by decide
  have hcandidate' := size_releaseRecord hcandidate
  have hprevious' := size_previous hprevious
  have hpath' := quotedSize_le journal.candidateImagePath
  have hphase := size_phase journal.phase
  have hsize : (toValue journal).size = 1 +
      (quotedSize "candidate" + 1 + (toValue journal.candidate).size +
      (quotedSize "candidateImagePath" + 1 + quotedSize journal.candidateImagePath +
      (quotedSize "kind" + 1 + quotedSize journal.kind +
      (quotedSize "phase" + 1 + quotedSize journal.phase.text +
      (quotedSize "previous" + 1 + (optional toValue journal.previous).size +
      (quotedSize "schema" + 1 + digitCount journal.schema.toNat + 0)))))) + 6 := by
    rw [← size_unsigned]
    exact size_object _
  rw [hkind, hschema] at hsize
  omega

/-! ### Both directions -/

section RoundTrip

variable {α : Type} [Serialize α]

/-- A document below the bound is written, and read back as it was. -/
theorem parseCanonical_of_size [LawfulSerialize α] [Deserialize α] [LawfulDeserialize α]
    {document : α} {maximum : Nat} (h : (toValue document).size ≤ maximum) :
    ∃ bytes, canonicalJson (toValue document) = .ok bytes ∧ bytes.length ≤ maximum ∧
      parseCanonical bytes maximum = .ok document := by
  have hjson := canonicalJson_regular (LawfulSerialize.regular document)
  exact ⟨_, hjson, h, parseCanonical_canonicalJson hjson h⟩

/-- What is read and then checked is the canonical text of a document that passes the check. -/
theorem canonicalJson_of_checked [Deserialize α] {validate : α → Result Unit} {document : α}
    {bytes : Bytes} {maximum : Nat}
    (h : (do
      let document : α ← parseCanonical bytes maximum
      validate document
      pure document) = .ok document) :
    validate document = .ok () ∧ canonicalJson (toValue document) = .ok bytes := by
  obtain ⟨found, hparse, h⟩ := Result.bind_eq_ok.mp h
  obtain ⟨⟨⟩, hvalidate, h⟩ := Result.bind_eq_ok.mp h
  cases h
  exact ⟨hvalidate, (canonicalJson_of_parseCanonical hparse).1⟩

end RoundTrip

theorem upgrade_documents_round_trip [Deserialize ServiceReleaseRecord]
    [Deserialize ServiceUpgradeJournal] [LawfulDeserialize ServiceReleaseRecord]
    [LawfulDeserialize ServiceUpgradeJournal] :
    (∀ journal : ServiceUpgradeJournal, journal.validate = .ok () → ∃ bytes,
      encodeUpgradeJournal journal = .ok bytes ∧ bytes.length ≤ maxIpcMessageBytes ∧
        decodeUpgradeJournal bytes = .ok journal) ∧
    (∀ record : ServiceReleaseRecord, record.validate = .ok () → ∃ bytes,
      encodeReleaseRecord record = .ok bytes ∧ bytes.length ≤ maxIpcMessageBytes ∧
        decodeReleaseRecord bytes = .ok record) ∧
    (∀ bytes journal, decodeUpgradeJournal bytes = .ok journal →
      encodeUpgradeJournal journal = .ok bytes) ∧
    (∀ bytes record, decodeReleaseRecord bytes = .ok record →
      encodeReleaseRecord record = .ok bytes) ∧
    (∀ version : ServiceVersion, ServiceVersion.parse version.text = .ok version) ∧
    ∀ value version, ServiceVersion.parse value = .ok version → version.text = value := by
  refine ⟨?_, ?_, ?_, ?_, ?_, ?_⟩
  · intro journal hvalid
    obtain ⟨bytes, hjson, hlength, hparse⟩ := parseCanonical_of_size (size_upgradeJournal hvalid)
    refine ⟨bytes, Result.bind_eq_ok.mpr ⟨(), hvalid, hjson⟩, hlength, ?_⟩
    exact Result.bind_eq_ok.mpr ⟨journal, hparse, Result.bind_eq_ok.mpr ⟨(), hvalid, rfl⟩⟩
  · intro record hvalid
    have hsize : (toValue record).size ≤ maxIpcMessageBytes :=
      (size_releaseRecord hvalid).trans (by decide)
    obtain ⟨bytes, hjson, hlength, hparse⟩ := parseCanonical_of_size hsize
    refine ⟨bytes, Result.bind_eq_ok.mpr ⟨(), hvalid, hjson⟩, hlength, ?_⟩
    exact Result.bind_eq_ok.mpr ⟨record, hparse, Result.bind_eq_ok.mpr ⟨(), hvalid, rfl⟩⟩
  · intro bytes journal hdecode
    obtain ⟨hvalid, hjson⟩ := canonicalJson_of_checked hdecode
    exact Result.bind_eq_ok.mpr ⟨(), hvalid, hjson⟩
  · intro bytes record hdecode
    obtain ⟨hvalid, hjson⟩ := canonicalJson_of_checked hdecode
    exact Result.bind_eq_ok.mpr ⟨(), hvalid, hjson⟩
  · exact fun version => ServiceVersion.parse_eq_ok.mpr rfl
  · exact fun value version hparse => (ServiceVersion.parse_eq_ok.mp hparse).symm

section Sample

def upgradedRecord : ServiceReleaseRecord where
  digest := String.ofList (List.replicate 64 'a')
  generation := 2
  kind := releaseRecordKind
  schema := documentSchema
  serviceVersion := "1.2.0"

/-- Every byte of the image path is escaped. -/
def escapedJournal : ServiceUpgradeJournal where
  candidate := upgradedRecord
  candidateImagePath := String.ofList (List.replicate 256 '\x01')
  kind := upgradeJournalKind
  phase := .configSwitched
  previous := some { upgradedRecord with serviceVersion := "1.1.0" }
  schema := documentSchema

@[reducible] noncomputable def canonicalRecords : Deserialize ServiceReleaseRecord := .canonical _

@[reducible] noncomputable def canonicalJournals : Deserialize ServiceUpgradeJournal := .canonical _

attribute [local instance] canonicalRecords canonicalJournals

theorem upgrade_documents_round_trip_escaped : ∃ bytes,
    encodeUpgradeJournal escapedJournal = .ok bytes ∧ bytes.length ≤ maxIpcMessageBytes ∧
      decodeUpgradeJournal bytes = .ok escapedJournal := by
  have := Deserialize.canonical_lawful ServiceReleaseRecord
  have := Deserialize.canonical_lawful ServiceUpgradeJournal
  exact upgrade_documents_round_trip.1 escapedJournal (by decide +kernel)

end Sample

end Se7en
