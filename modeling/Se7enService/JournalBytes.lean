import Se7enService.Journal
set_option autoImplicit false

/-! What `read_journal` returns for the bytes that the writers of a journal leave. -/

namespace Se7en

/-! ### Lines -/

theorem split_of_not_mem {α : Type} [DecidableEq α] {separator : α} {xs : List α}
    (h : separator ∉ xs) : split separator xs = [xs] := by
  induction xs with
  | nil => rfl
  | cons x xs ih =>
    simp only [List.mem_cons, not_or] at h
    simp [split, ih h.2, Ne.symm h.1]

theorem split_append {α : Type} [DecidableEq α] {separator : α} {xs : List α}
    (h : separator ∉ xs) (rest : List α) :
    split separator (xs ++ separator :: rest) = xs :: split separator rest := by
  induction xs with
  | nil => simp [split]
  | cons x xs ih =>
    simp only [List.mem_cons, not_or] at h
    simp [split, ih h.2, Ne.symm h.1]

theorem split_cons {α : Type} [DecidableEq α] (separator x : α) (xs : List α) :
    split separator (x :: xs) = if x = separator then [] :: split separator xs
      else match split separator xs with
        | [] => [[x]]
        | part :: parts => (x :: part) :: parts := rfl

theorem split_cons_cons {α : Type} [DecidableEq α] {separator : α} {xs part next : List α}
    {parts : List (List α)} (h : split separator xs = part :: next :: parts) :
    ∃ rest, xs = part ++ separator :: rest ∧ separator ∉ part ∧
      split separator rest = next :: parts := by
  induction xs generalizing part with
  | nil => simp [split] at h
  | cons x xs ih =>
    unfold split at h
    by_cases hx : x = separator
    · simp only [hx, if_true, List.cons.injEq] at h
      obtain ⟨rfl, hrest⟩ := h
      exact ⟨xs, by simp [hx], by simp, hrest⟩
    · simp only [hx, if_false] at h
      cases hxs : split separator xs with
      | nil => exact absurd hxs (split_ne_nil separator xs)
      | cons first others =>
        simp only [hxs, List.cons.injEq] at h
        obtain ⟨rfl, rfl⟩ := h
        obtain ⟨rest, rfl, hmem, hrest⟩ := ih hxs
        refine ⟨rest, rfl, ?_, hrest⟩
        simp [hmem, Ne.symm hx]

/-- The text of a line without its newline. -/
def lineText {α : Type} [Serialize α] (value : α) : Bytes := utf8 (toValue value).text

def recordText (state : JournalState) : Bytes := lineText (JournalStateRecord.mk state)

section Lines

variable {α : Type} [Serialize α] [LawfulSerialize α]

theorem canonicalJson_lineText (value : α) : canonicalJson (toValue value) = .ok (lineText value) :=
  canonicalJson_regular (LawfulSerialize.regular value)

theorem journalLine_eq (value : α) : journalLine value = lineText value ++ [10] := by
  simp [journalLine, canonicalJson_lineText]

theorem lineText_no_newline (value : α) : 10 ∉ lineText value :=
  canonicalJson_no_newline (LawfulSerialize.regular value) (canonicalJson_lineText value)

theorem lineText_ne_nil (value : α) : lineText value ≠ [] := by
  obtain ⟨c, cs, hc, -⟩ := Value.text_kind (LawfulSerialize.regular value)
  have hlength := String.length_utf8EncodeChar c
  intro h
  rw [lineText, hc, utf8, List.flatMap_cons, List.append_eq_nil_iff] at h
  rw [h.1] at hlength
  have := c.utf8Size_pos
  simp at hlength
  omega

theorem lineText_injective {value value' : α} (h : lineText value = lineText value') :
    value = value' :=
  canonicalJson_toValue_injective (canonicalJson_lineText value)
    (h ▸ canonicalJson_lineText value')

variable [Deserialize α]

theorem parseCanonical_lineText [LawfulDeserialize α] {value : α} {maximum : Nat}
    (h : (lineText value).length ≤ maximum) : parseCanonical (lineText value) maximum = .ok value :=
  parseCanonical_canonicalJson (canonicalJson_lineText value) h

/-- Only the canonical text of a document is read as that document. -/
theorem parseCanonical_eq_ok {bytes : Bytes} {maximum : Nat} {value : α}
    (h : parseCanonical bytes maximum = .ok value) : bytes = lineText value := by
  have hjson := (canonicalJson_of_parseCanonical h).1
  rw [canonicalJson_lineText] at hjson
  exact (Except.ok.inj hjson).symm

end Lines

theorem recordLine_eq (state : JournalState) : recordLine state = recordText state ++ [10] :=
  journalLine_eq _

theorem recordText_length (state : JournalState) : (recordText state).length ≤ 128 := by
  cases state <;> decide

theorem recordText_injective {s t : JournalState} (h : recordText s = recordText t) : s = t :=
  congrArg JournalStateRecord.state (lineText_injective h)

theorem recordText_no_newline (state : JournalState) : 10 ∉ recordText state :=
  lineText_no_newline _

theorem recordText_ne_nil (state : JournalState) : recordText state ≠ [] := lineText_ne_nil _

/-! ### Records -/

/-- The states a reader goes through. -/
def advance : Option JournalState → List JournalState → Result (Option JournalState)
  | state, [] => .ok state
  | state, next :: states => do
    validateStateTransition state next
    advance (some next) states

theorem advance_ok {states : List JournalState} {state last : Option JournalState}
    (h : advance state states = .ok last) : last = states.getLast?.or state := by
  induction states generalizing state with
  | nil => simpa [advance] using h.symm
  | cons next states ih =>
    cases hnext : validateStateTransition state next with
    | error e => simp [advance, hnext] at h
    | ok =>
      simp only [advance, hnext, Result.ok_bind] at h
      rw [ih h, List.getLast?_cons]
      cases states.getLast? <;> simp

theorem advance_append (state : Option JournalState) (states more : List JournalState) :
    advance state (states ++ more) = advance state states >>= fun s => advance s more := by
  induction states generalizing state with
  | nil => rfl
  | cons next states ih =>
    cases h : validateStateTransition state next <;> simp [advance, h, ih]

section Reading

variable [Deserialize JournalStateRecord]

theorem parse_record [LawfulDeserialize JournalStateRecord] (state : JournalState) :
    parseCanonical (recordText state) 128 = .ok (JournalStateRecord.mk state) :=
  parseCanonical_lineText (recordText_length state)

theorem parse_record_ok {line : Bytes} {record : JournalStateRecord}
    (h : parseCanonical line 128 = .ok record) : line = recordText record.state :=
  parseCanonical_eq_ok h

/-- A line that is not a record's text is not read as a record. -/
theorem parse_record_error {line : Bytes} (h : ∀ state, line ≠ recordText state) :
    ∃ e, (parseCanonical line 128 : Result JournalStateRecord) = .error e := by
  cases hparse : (parseCanonical line 128 : Result JournalStateRecord) with
  | ok record => exact absurd (parse_record_ok hparse) (h record.state)
  | error e => exact ⟨e, rfl⟩

theorem readRecords_lines [LawfulDeserialize JournalStateRecord] (terminated : Bool)
    (states : List JournalState) (tail : List Bytes) (state : Option JournalState) :
    readRecords terminated (states.map recordText ++ tail) state =
      advance state states >>= readRecords terminated tail := by
  induction states generalizing state with
  | nil => rfl
  | cons next states ih =>
    simp only [List.map_cons, List.cons_append, readRecords, List.isEmpty_iff,
      recordText_ne_nil, parse_record, if_false]
    cases h : validateStateTransition state next <;> simp [advance, h, ih]

end Reading

/-! ### Whole journals -/

/-- A journal that holds these records, each with its newline. -/
def journalBytes (header : JournalHeader) (states : List JournalState) : Bytes :=
  journalLine header ++ states.flatMap recordLine

theorem newJournal_eq (header : JournalHeader) : newJournal header = journalBytes header [.prepared] := by
  simp [newJournal, journalBytes]

theorem journalBytes_append (header : JournalHeader) (states : List JournalState)
    (state : JournalState) :
    journalBytes header (states ++ [state]) = journalBytes header states ++ recordLine state := by
  simp [journalBytes]

theorem journalBytes_last (header : JournalHeader) (states : List JournalState) :
    (journalBytes header states).getLast? = some 10 := by
  rcases List.eq_nil_or_concat states with rfl | ⟨front, last, rfl⟩
  · simp [journalBytes, journalLine_eq]
  · simp [journalBytes, recordLine_eq, ← List.append_assoc]

theorem split_records (states : List JournalState) (tail : Bytes) :
    split 10 (states.flatMap recordLine ++ tail) = states.map recordText ++ split 10 tail := by
  induction states with
  | nil => rfl
  | cons state states ih =>
    simp only [List.flatMap_cons, recordLine_eq state, List.append_assoc, List.map_cons,
      List.cons_append]
    rw [List.nil_append, split_append (recordText_no_newline state), ih]

theorem split_journalBytes (header : JournalHeader) (states : List JournalState) (tail : Bytes) :
    split 10 (journalBytes header states ++ tail) =
      lineText header :: (states.map recordText ++ split 10 tail) := by
  simp only [journalBytes, journalLine_eq, List.append_assoc, List.cons_append, List.nil_append]
  rw [split_append (lineText_no_newline header), split_records]

section Journals

variable [Unicode] [Deserialize JournalHeader] [Deserialize JournalStateRecord]

theorem readJournal_cons {bytes headerBytes : Bytes} {lines : List Bytes}
    (hsplit : split 10 bytes = headerBytes :: lines) {header : JournalHeader} {state : JournalState}
    (h : readJournal bytes = .ok (header, state)) :
    headerBytes = lineText header ∧
      readRecords (bytes.getLast? = some 10) lines none = .ok (some state) := by
  unfold readJournal at h
  by_cases hbound : bytes.length > maxManifestBytes
  · simp [hbound, throw, throwThe, MonadExceptOf.throw] at h
  simp only [hbound, if_false, hsplit] at h
  by_cases hempty : headerBytes.isEmpty
  · simp [hempty, throw, throwThe, MonadExceptOf.throw, pure, Except.pure] at h
  simp only [hempty, pure, Except.pure] at h
  cases hparse : (parseCanonical headerBytes maxManifestBytes : Result JournalHeader) with
  | error e => simp [hparse] at h
  | ok header' =>
    cases hvalid : validateJournalHeader header' with
    | error e => simp [hparse, hvalid] at h
    | ok =>
      cases hrecords : readRecords (bytes.getLast? = some 10) lines none with
      | error e => simp [hparse, hvalid, hrecords] at h
      | ok last =>
        cases last with
        | none => simp [hparse, hvalid, hrecords, throw, throwThe, MonadExceptOf.throw] at h
        | some last =>
          simp [hparse, hvalid, hrecords] at h
          obtain ⟨rfl, rfl⟩ := h
          exact ⟨parseCanonical_eq_ok hparse, rfl⟩

/-- What is read from whole records is the header and the last record. -/
theorem readJournal_sound [LawfulDeserialize JournalStateRecord] {header header' : JournalHeader}
    {states : List JournalState} {state : JournalState}
    (h : readJournal (journalBytes header states) = .ok (header', state)) :
    header' = header ∧ states.getLast? = some state := by
  have hsplit := split_journalBytes header states []
  rw [List.append_nil] at hsplit
  obtain ⟨hheader, hrecords⟩ := readJournal_cons hsplit h
  refine ⟨(lineText_injective hheader).symm, ?_⟩
  rw [readRecords_lines] at hrecords
  cases hadvance : advance none states with
  | error e => simp [hadvance] at hrecords
  | ok last =>
    have hlast := advance_ok hadvance
    simp [hadvance, split, readRecords] at hrecords
    rw [hrecords] at hlast
    simpa using hlast.symm

/-- Appending to a readable journal does not change its header. -/
theorem readJournal_header {old more : Bytes} {header header' : JournalHeader}
    {state state' : JournalState} (h : readJournal old = .ok (header, state))
    (h' : readJournal (old ++ more) = .ok (header', state')) : header' = header := by
  cases hsplit : split 10 old with
  | nil => exact absurd hsplit (split_ne_nil _ _)
  | cons first lines =>
    obtain ⟨hfirst, hrecords⟩ := readJournal_cons hsplit h
    cases lines with
    | nil => simp [readRecords] at hrecords
    | cons next lines =>
      obtain ⟨rest, rfl, hmem, -⟩ := split_cons_cons hsplit
      have hsplit' : split 10 (first ++ 10 :: rest ++ more) = first :: split 10 (rest ++ more) := by
        rw [List.append_assoc, List.cons_append, split_append hmem]
      obtain ⟨hfirst', -⟩ := readJournal_cons hsplit' h'
      exact lineText_injective (hfirst'.symm.trans hfirst)

/-- A journal of whole records is read, if it is within the bound. -/
theorem readJournal_complete [LawfulDeserialize JournalHeader] [LawfulDeserialize JournalStateRecord]
    {header : JournalHeader} {states : List JournalState} {state : JournalState} {tail : Bytes}
    (hbound : (journalBytes header states ++ tail).length ≤ maxManifestBytes)
    (hvalid : validateJournalHeader header = .ok ())
    (hrecords : advance none states >>= readRecords
      ((journalBytes header states ++ tail).getLast? = some 10) (split 10 tail) = .ok (some state)) :
    readJournal (journalBytes header states ++ tail) = .ok (header, state) := by
  have hheader : (lineText header).length ≤ maxManifestBytes := by
    refine le_trans ?_ hbound
    simp [journalBytes, journalLine_eq]
  unfold readJournal
  simp only [Nat.not_lt.mpr hbound, if_false, split_journalBytes, List.isEmpty_iff,
    lineText_ne_nil, parseCanonical_lineText hheader, hvalid, Result.ok_bind, pure, Except.pure]
  rw [readRecords_lines, hrecords]
  rfl

/-! ### Damaged tails -/

omit [Unicode] [Deserialize JournalHeader] [Deserialize JournalStateRecord] in
theorem recordText_initial : ∀ s t : JournalState, recordText s <+: recordText t → s = t := by
  intro s t
  cases s <;> cases t <;> decide

omit [Unicode] [Deserialize JournalHeader] [Deserialize JournalStateRecord] in
theorem recordText_suffix : ∀ s t : JournalState, recordText s <:+ recordText t → s = t := by
  intro s t
  cases s <;> cases t <;> decide

omit [Unicode] [Deserialize JournalHeader] in
/-- A last line that is a part of a record counts once it is all of it but the newline. -/
theorem readRecords_part [LawfulDeserialize JournalStateRecord] (next : JournalState) (n : Nat)
    (state : Option JournalState) :
    readRecords false [(recordText next).take n] state =
      if (recordText next).length ≤ n then advance state [next] else .ok state := by
  by_cases hn : (recordText next).length ≤ n
  · rw [List.take_of_length_le hn]
    have hlines := readRecords_lines false [next] [] state
    simp only [List.map_cons, List.map_nil, List.append_nil] at hlines
    rw [hlines]
    simp only [hn, if_true]
    cases advance state [next] <;> rfl
  · simp only [hn, if_false]
    by_cases hzero : (recordText next).take n = []
    · simp [hzero, readRecords]
    · have hpart : ∀ s, (recordText next).take n ≠ recordText s := by
        intro s hs
        have hinitial : recordText s <+: recordText next := hs ▸ List.take_prefix n _
        obtain rfl := recordText_initial s next hinitial
        have hlength := congrArg List.length hs
        simp only [List.length_take] at hlength
        omega
      obtain ⟨e, he⟩ := parse_record_error hpart
      simp [readRecords, hzero, he]

omit [Unicode] [Deserialize JournalHeader] [Deserialize JournalStateRecord] in
theorem take_recordLine (state : JournalState) {n : Nat} (h : n ≤ (recordText state).length) :
    (recordLine state).take n = (recordText state).take n := by
  rw [recordLine_eq, List.take_append_of_le_length h]

omit [Unicode] [Deserialize JournalHeader] [Deserialize JournalStateRecord] in
theorem recordPart_no_newline (state : JournalState) (n : Nat) : 10 ∉ (recordText state).take n :=
  fun h => recordText_no_newline state (List.mem_of_mem_take h)

omit [Unicode] [Deserialize JournalHeader] in
/-- The reader's answer to whole records with a part of one behind them. -/
theorem readRecords_tail [LawfulDeserialize JournalStateRecord] (header : JournalHeader)
    (states : List JournalState) (next : JournalState) (n : Nat) (state : Option JournalState) :
    readRecords ((journalBytes header states ++ (recordText next).take n).getLast? = some 10)
        (split 10 ((recordText next).take n)) state =
      if (recordText next).length ≤ n then advance state [next] else .ok state := by
  rw [split_of_not_mem (recordPart_no_newline next n)]
  by_cases hzero : n = 0
  · have hlength := List.length_pos_of_ne_nil (recordText_ne_nil next)
    simp [hzero, readRecords, recordText_ne_nil]
  · have hne : (recordText next).take n ≠ [] := by
      simp [hzero, recordText_ne_nil]
    have hlast : (journalBytes header states ++ (recordText next).take n).getLast? ≠ some 10 := by
      rw [List.getLast?_append_of_ne_nil _ hne]
      intro h
      exact recordPart_no_newline next n (List.mem_of_getLast? h)
    rw [decide_eq_false hlast]
    exact readRecords_part next n state

omit [Unicode] [Deserialize JournalHeader] in
theorem readRecords_terminated_append (front back : List Bytes) (state : Option JournalState) :
    readRecords true (front ++ back) state = readRecords true front state >>= readRecords true back := by
  induction front generalizing state with
  | nil => rfl
  | cons line front ih =>
    simp only [List.cons_append, readRecords]
    by_cases hempty : line.isEmpty
    · simp only [hempty, if_true]
      exact ih state
    · simp only [hempty]
      cases (parseCanonical line 128 : Result JournalStateRecord) with
      | error e => simp
      | ok record => cases h : validateStateTransition state record.state <;> simp [ih]

omit [Unicode] [Deserialize JournalHeader] [Deserialize JournalStateRecord] in
theorem split_append_last {old : Bytes} {front : List Bytes} {last more rest : Bytes}
    (h : split 10 old = front ++ [last]) (hmore : 10 ∉ more) :
    split 10 (old ++ (more ++ 10 :: rest)) = front ++ (last ++ more) :: split 10 rest := by
  induction old generalizing front last with
  | nil =>
    have hnil : front = [] ∧ last = [] := by
      cases front with
      | nil => simpa [split] using h.symm
      | cons f fs => simp [split] at h
    obtain ⟨rfl, rfl⟩ := hnil
    simpa using split_append hmore rest
  | cons byte old ih =>
    rw [split_cons] at h
    rw [List.cons_append, split_cons]
    by_cases hbyte : byte = 10
    · simp only [hbyte, if_true] at h ⊢
      cases front with
      | nil =>
        simp only [List.nil_append, List.cons.injEq] at h
        exact absurd h.2 (split_ne_nil _ _)
      | cons first front =>
        simp only [List.cons_append, List.cons.injEq] at h ⊢
        exact ⟨h.1, ih h.2⟩
    · simp only [hbyte, if_false] at h ⊢
      cases hsplit : split 10 old with
      | nil => exact absurd hsplit (split_ne_nil _ _)
      | cons part parts =>
        simp only [hsplit] at h
        cases front with
        | nil =>
          simp only [List.nil_append, List.cons.injEq] at h
          obtain ⟨rfl, rfl⟩ := h
          have hlines := @ih [] part hsplit
          rw [hlines]
          simp
        | cons first front =>
          simp only [List.cons_append, List.cons.injEq] at h
          obtain ⟨rfl, rfl⟩ := h
          have hlines := @ih (part :: front) last hsplit
          rw [hlines]
          simp

omit [Unicode] [Deserialize JournalHeader] in
theorem readRecords_state {terminated : Bool} {lines : List Bytes} {state : Option JournalState}
    {last : JournalState} (h : readRecords terminated lines state = .ok (some last))
    (hstate : ∃ s, state = some s ∧ s ≠ .prepared) : last ≠ .prepared := by
  induction lines generalizing state with
  | nil =>
    obtain ⟨s, rfl, hs⟩ := hstate
    simp only [readRecords, Except.ok.injEq, Option.some.injEq] at h
    exact h ▸ hs
  | cons line lines ih =>
    obtain ⟨s, rfl, hs⟩ := hstate
    simp only [readRecords] at h
    by_cases hempty : line.isEmpty
    · simp only [hempty, if_true] at h
      exact ih h ⟨s, rfl, hs⟩
    · simp only [hempty, Bool.false_eq_true, if_false] at h
      cases hparse : (parseCanonical line 128 : Result JournalStateRecord) with
      | error e =>
        simp only [hparse] at h
        by_cases hlast : lines.isEmpty && !terminated
        · simp only [hlast, if_true, Except.ok.injEq, Option.some.injEq] at h
          exact h ▸ hs
        · simp [hlast] at h
      | ok record =>
        simp only [hparse] at h
        cases htransition : validateStateTransition (some s) record.state with
        | error e => simp [htransition] at h
        | ok =>
          simp only [htransition, Result.ok_bind] at h
          refine ih h ⟨record.state, rfl, ?_⟩
          intro hprepared
          rw [hprepared] at htransition
          cases s <;> simp [validateStateTransition] at htransition

/-- After a whole record has been appended, it is the last one that is read. -/
theorem readJournal_appended {old : Bytes} {state last : JournalState} {header : JournalHeader}
    (h : readJournal (old ++ recordLine state) = .ok (header, last)) : last = state := by
  have hbytes : old ++ recordLine state = old ++ (recordText state ++ 10 :: []) := by
    rw [recordLine_eq]
  have hlast : (old ++ recordLine state).getLast? = some 10 := by
    simp [recordLine_eq, ← List.append_assoc]
  obtain ⟨front, part, hsplit⟩ : ∃ front part, split 10 old = front ++ [part] := by
    rcases List.eq_nil_or_concat (split 10 old) with hnil | ⟨front, part, hsplit⟩
    · exact absurd hnil (split_ne_nil _ _)
    · exact ⟨front, part, by simpa using hsplit⟩
  have hlines := @split_append_last old front part _ [] hsplit (recordText_no_newline state)
  rw [← hbytes] at hlines
  simp only [split] at hlines
  cases front with
  | nil =>
    obtain ⟨-, hrecords⟩ := readJournal_cons hlines h
    simp [readRecords] at hrecords
  | cons first front =>
    obtain ⟨-, hrecords⟩ := readJournal_cons hlines h
    simp only [hlast, decide_true] at hrecords
    have happend := readRecords_terminated_append front [part ++ recordText state, []] none
    rw [List.append_eq, happend] at hrecords
    cases hfront : readRecords true front none with
    | error e => simp [hfront] at hrecords
    | ok before =>
      simp only [hfront, Result.ok_bind, readRecords] at hrecords
      have hempty : (part ++ recordText state).isEmpty = false := by
        simp [recordText_ne_nil]
      simp only [hempty, Bool.false_eq_true, if_false] at hrecords
      cases hparse : (parseCanonical (part ++ recordText state) 128 : Result JournalStateRecord) with
      | error e => simp [hparse] at hrecords
      | ok record =>
        have hsame : state = record.state :=
          recordText_suffix _ _ ⟨part, parse_record_ok hparse⟩
        cases htransition : validateStateTransition before record.state with
        | error e => simp [hparse, htransition] at hrecords
        | ok =>
          simp [hparse, htransition] at hrecords
          rw [← hrecords, ← hsame]

theorem readJournal_line {header header' : JournalHeader} {more : Bytes} {state : JournalState}
    (h : readJournal (journalLine header ++ more) = .ok (header', state)) : header' = header := by
  have hsplit := split_journalBytes header [] more
  simp only [journalBytes, List.flatMap_nil, List.append_nil] at hsplit
  obtain ⟨hheader, -⟩ := readJournal_cons hsplit h
  exact (lineText_injective hheader).symm

/-- Once a commit has begun its job is never taken for a prepared one. -/
theorem readJournal_started [LawfulDeserialize JournalStateRecord] {header header' : JournalHeader}
    {more : Bytes} {state : JournalState}
    (h : readJournal (journalBytes header [.prepared, .committing] ++ more) = .ok (header', state)) :
    state ≠ .prepared := by
  obtain ⟨-, hrecords⟩ := readJournal_cons (split_journalBytes header _ more) h
  rw [readRecords_lines] at hrecords
  exact readRecords_state hrecords ⟨.committing, rfl, by simp⟩

/-- What a cut-off first write leaves is not readable, or is a prepared job. -/
theorem readJournal_new [LawfulDeserialize JournalStateRecord] {header header' : JournalHeader}
    {n : Nat} {state : JournalState}
    (h : readJournal ((newJournal header).take n) = .ok (header', state)) : state = .prepared := by
  have hnew : newJournal header = lineText header ++ 10 :: recordLine .prepared := by
    simp [newJournal, journalLine_eq]
  rw [hnew] at h
  by_cases hn : n ≤ (lineText header).length
  · rw [List.take_append_of_le_length hn] at h
    have hmem : 10 ∉ (lineText header).take n :=
      fun hmem => lineText_no_newline header (List.mem_of_mem_take hmem)
    obtain ⟨-, hrecords⟩ := readJournal_cons (split_of_not_mem hmem) h
    simp [readRecords] at hrecords
  · obtain ⟨m, rfl⟩ : ∃ m, n = (lineText header).length + (m + 1) :=
      ⟨n - (lineText header).length - 1, by omega⟩
    rw [List.take_length_add_append, List.take_succ_cons] at h
    have hsplit := split_append (lineText_no_newline header) ((recordLine .prepared).take m)
    obtain ⟨-, hrecords⟩ := readJournal_cons hsplit h
    by_cases hm : m ≤ (recordText .prepared).length
    · have htail := readRecords_tail header [] .prepared m none
      have hbytes : journalBytes header [] = lineText header ++ [10] := by
        simp [journalBytes, journalLine_eq]
      rw [take_recordLine _ hm] at hrecords
      rw [hbytes, List.append_assoc, List.singleton_append, hrecords] at htail
      split at htail
      · simpa [advance, validateStateTransition] using htail
      · simp at htail
    · rw [List.take_of_length_le (by rw [recordLine_eq]; simp; omega)] at h
      have hbytes : lineText header ++ 10 :: recordLine .prepared = journalBytes header [.prepared] := by
        simp [journalBytes, journalLine_eq]
      rw [hbytes] at h
      simpa using (readJournal_sound h).2.symm

end Journals

end Se7en
