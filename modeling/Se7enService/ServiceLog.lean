import Se7enService.Json
import Se7enService.Calendar
set_option autoImplicit false

/-! `service_log.rs`: the lines of the diagnostic log, and the two files that hold them. -/

namespace Se7en.ServiceLog
open Calendar

/-! ### Timestamps -/

/-- Arithmetic of `u64`; `none` where it overflows. -/
def checkedAdd (a b : Nat) : Option Nat := if a + b < UInt64.size then some (a + b) else none

def checkedMul (a b : Nat) : Option Nat := if a * b < UInt64.size then some (a * b) else none

def checkedSub (a b : Nat) : Option Nat := if b ≤ a then some (a - b) else none

theorem checkedAdd_eq {a b : Nat} (h : a + b < UInt64.size) : checkedAdd a b = some (a + b) :=
  if_pos h

theorem checkedMul_eq {a b : Nat} (h : a * b < UInt64.size) : checkedMul a b = some (a * b) :=
  if_pos h

theorem checkedSub_eq {a b : Nat} (h : b ≤ a) : checkedSub a b = some (a - b) := if_pos h

/-- `civil_from_days` behind its first line. -/
def civilFromShifted (shifted : Nat) : Option (Nat × Nat × Nat) := do
  let era := shifted / 146097
  let dayOfEra := shifted % 146097
  let yearOfEra := (← checkedSub
    (← checkedAdd (← checkedSub dayOfEra (dayOfEra / 1460)) (dayOfEra / 36524))
    (dayOfEra / 146096)) / 365
  let dayOfYear ← checkedSub dayOfEra (← checkedSub
    (← checkedAdd (← checkedMul 365 yearOfEra) (yearOfEra / 4)) (yearOfEra / 100))
  let monthIndex := (← checkedAdd (← checkedMul 5 dayOfYear) 2) / 153
  let day ← checkedAdd (← checkedSub dayOfYear
    ((← checkedAdd (← checkedMul 153 monthIndex) 2) / 5)) 1
  let month ← if monthIndex < 10 then checkedAdd monthIndex 3 else checkedSub monthIndex 9
  let year ← checkedAdd (← checkedAdd yearOfEra (← checkedMul era 400))
    (if month ≤ 2 then 1 else 0)
  pure (year, month, day)

/-- Gregorian date of a day count since 1970-01-01. -/
def civilFromDays (days : Nat) : Option (Nat × Nat × Nat) := do
  let shifted ← checkedAdd days 719468
  civilFromShifted shifted

/-- The days before 1970-01-01, counted from the first of March of the year 0. -/
theorem dateOfDay_epoch : dateOfDay 719468 = ⟨1970, 1, 1⟩ := by decide

theorem civilFromShifted_eq {shifted : Nat} (h : shifted < 2 ^ 63) :
    civilFromShifted shifted = some ((dateOfDay shifted).year, (dateOfDay shifted).month,
      (dateOfDay shifted).day) := by
  have hsize : UInt64.size = 2 ^ 64 := rfl
  obtain ⟨year, hyear, hfound, hstart, hend⟩ := dateOfDay_bounds shifted
  have hlength : marchYearLength (shifted / daysInEra) year ≤ 366 := by
    unfold marchYearLength
    split <;> omega
  have hera : shifted / daysInEra < 2 ^ 46 := by
    simp only [daysInEra]
    omega
  have hrest : shifted % daysInEra < 146097 := Nat.mod_lt _ (by decide)
  simp only [dateOfDay, hfound]
  simp only [daysInEra] at hfound hstart hend hlength hera hrest ⊢
  unfold civilFromShifted
  simp only [Option.bind_eq_bind]
  generalize shifted / 146097 = era at hera hend hlength ⊢
  have hyearOf : (shifted % 146097 - shifted % 146097 / 1460 + shifted % 146097 / 36524 -
      shifted % 146097 / 146096) / 365 = year := hfound
  have hstartOf : yearStart year = 365 * year + year / 4 - year / 100 := by
    unfold yearStart
    omega
  rw [checkedSub_eq (by omega), Option.bind_some, checkedAdd_eq (by omega), Option.bind_some,
    checkedSub_eq (by omega), Option.bind_some, hyearOf, checkedMul_eq (by omega), Option.bind_some,
    checkedAdd_eq (by omega), Option.bind_some, checkedSub_eq (by omega), Option.bind_some,
    ← hstartOf, checkedSub_eq hstart, Option.bind_some]
  generalize hday : shifted % 146097 - yearStart year = day
  have hbound : day ≤ 365 := by omega
  clear hyearOf hfound hstart hend hrest hstartOf hday
  have hstartOf : (153 * ((5 * day + 2) / 153) + 2) / 5 ≤ day := (monthOfDay_bounds day).1
  rw [checkedMul_eq (by omega), Option.bind_some, checkedAdd_eq (by omega), Option.bind_some,
    checkedMul_eq (by omega), Option.bind_some, checkedAdd_eq (by omega), Option.bind_some,
    checkedSub_eq hstartOf, Option.bind_some, checkedAdd_eq (by omega), Option.bind_some]
  have hyears : ∀ month, ((checkedMul era 400).bind fun years =>
      (checkedAdd year years).bind fun years =>
        (checkedAdd years (if month ≤ 2 then 1 else 0)).bind fun years =>
          pure (years, month, day - (153 * ((5 * day + 2) / 153) + 2) / 5 + 1)) =
      some (year + 400 * era + (if month ≤ 2 then 1 else 0), month,
        day - (153 * ((5 * day + 2) / 153) + 2) / 5 + 1) := by
    intro month
    rw [checkedMul_eq (by omega), Option.bind_some, checkedAdd_eq (by omega), Option.bind_some,
      checkedAdd_eq (by split <;> omega), Option.bind_some, Nat.mul_comm era 400]
    rfl
  simp only [marchDate, monthNumber, monthOfDay, monthStart]
  by_cases hmarch : (5 * day + 2) / 153 < 10
  · rw [if_pos hmarch, checkedAdd_eq (by omega), Option.bind_some]
    simp only [hmarch, ite_true]
    exact hyears _
  · rw [if_neg hmarch, checkedSub_eq (by omega), Option.bind_some]
    simp only [hmarch, ite_false]
    exact hyears _

theorem civilFromDays_eq {days : Nat} (h : days < 2 ^ 62) :
    civilFromDays days = some ((dateOfDay (days + 719468)).year,
      (dateOfDay (days + 719468)).month, (dateOfDay (days + 719468)).day) := by
  have hshift : days + 719468 < UInt64.size := by
    have hsize : UInt64.size = 2 ^ 64 := rfl
    omega
  have hbound : days + 719468 < 2 ^ 63 := by omega
  rw [civilFromDays, checkedAdd_eq hshift, Option.bind_eq_bind, Option.bind_some,
    civilFromShifted_eq hbound]

/-- The date of a line is the one of the calendar, and no step of its computation overflows. -/
theorem civilFromDays_gregorian : civilFromDays 0 = some (1970, 1, 1) ∧
    ∀ seconds : UInt64, ∃ date : CivilDate,
      civilFromDays (seconds / 86400).toNat = some (date.year, date.month, date.day) ∧
      date.Valid ∧
      civilFromDays ((seconds / 86400).toNat + 1) =
        some (date.next.year, date.next.month, date.next.day) := by
  have hnext : ∀ days, dateOfDay (days + 1 + 719468) = (dateOfDay (days + 719468)).next := by
    intro days
    have hcomm : days + 1 + 719468 = (days + 719468) + 1 := by omega
    exact (congrArg dateOfDay hcomm).trans (dateOfDay_succ (days + 719468))
  have hepoch : dateOfDay (0 + 719468) = ⟨1970, 1, 1⟩ := by rw [Nat.zero_add, dateOfDay_epoch]
  refine ⟨by rw [civilFromDays_eq (by decide), hepoch], fun seconds => ?_⟩
  have hdays : (seconds / 86400).toNat < 2 ^ 62 - 1 := by
    have hlt := seconds.toNat_lt
    have hdiv : (seconds / 86400).toNat = seconds.toNat / 86400 := rfl
    omega
  generalize (seconds / 86400).toNat = days at hdays
  have hbound : days < 2 ^ 62 := by omega
  have hbound' : days + 1 < 2 ^ 62 := by omega
  exact ⟨dateOfDay (days + 719468), civilFromDays_eq hbound, dateOfDay_valid _,
    by rw [civilFromDays_eq hbound', hnext]⟩

/-! ### Lines -/

def maxFieldChars : Nat := 512

/-- `char::is_control`. -/
def isControl (character : Char) : Bool :=
  character.toNat < 0x20 || (0x7f ≤ character.toNat && character.toNat ≤ 0x9f)

/-- Keeps a field on one line and within a fixed length. -/
def sanitize (field : String) : List Char :=
  (field.toList.take maxFieldChars).map fun character =>
    if isControl character then ' ' else character

/-- A number that is filled up with zeros. -/
def padded (width n : Nat) : List Char :=
  List.replicate (width - (decimal n).length) '0' ++ decimal n

/-- The line without the newline behind it. -/
def lineText (date : Nat × Nat × Nat) (time : Nat) (event detail : String) : List Char :=
  padded 4 date.1 ++ ['-'] ++ padded 2 date.2.1 ++ ['-'] ++ padded 2 date.2.2 ++ ['T'] ++
    padded 2 (time / 3600) ++ [':'] ++ padded 2 (time % 3600 / 60) ++ [':'] ++
    padded 2 (time % 60) ++ ['Z', ' '] ++ sanitize event ++ [' '] ++ sanitize detail

/-- `YYYY-MM-DDThh:mm:ssZ event detail` with a trailing newline. -/
def formatLine (unixSeconds : UInt64) (event detail : String) : Option (List Char) := do
  let date ← civilFromDays (unixSeconds / 86400).toNat
  pure (lineText date (unixSeconds % 86400).toNat event detail ++ ['\n'])

theorem sanitize_no_newline (field : String) : '\n' ∉ sanitize field := by
  intro h
  obtain ⟨character, -, heq⟩ := List.mem_map.mp h
  split at heq
  · cases heq
  · rename_i hcontrol
    rw [heq] at hcontrol
    exact hcontrol (by decide)

theorem padded_no_newline (width n : Nat) : '\n' ∉ padded width n := by
  intro h
  rcases List.mem_append.mp h with h | h
  · exact absurd (List.eq_of_mem_replicate h) (by decide)
  · exact decimal_no_newline n h

theorem lineText_no_newline (date : Nat × Nat × Nat) (time : Nat) (event detail : String) :
    '\n' ∉ lineText date time event detail := by
  simp [lineText, padded_no_newline, sanitize_no_newline]

/-- A line of the log, as its bytes. -/
def OneLine (line : Bytes) : Prop := ∃ text, line = text ++ [10] ∧ 10 ∉ text

theorem exists_formatLine (unixSeconds : UInt64) (event detail : String) :
    ∃ line, formatLine unixSeconds event detail = some line ∧ OneLine (utf8 line) := by
  obtain ⟨date, hdate, -, -⟩ := civilFromDays_gregorian.2 unixSeconds
  let text := lineText (date.year, date.month, date.day) (unixSeconds % 86400).toNat event detail
  refine ⟨text ++ ['\n'], by rw [formatLine, hdate]; rfl, utf8 text, ?_, ?_⟩
  · rw [utf8, List.flatMap_append]
    rfl
  · exact fun hmem => lineText_no_newline _ _ _ _ (newline_mem_utf8 hmem)

/-! ### The files -/

/-- The log and its last rotation. -/
structure LogFiles where
  path : Option Bytes
  rotated : Option Bytes
  deriving DecidableEq, Repr

/-- No file grows beyond what a signed 64-bit offset can address. -/
def maxFileBytes : Nat := 2 ^ 63 - 1

def saturatingAdd (a b : Nat) : Nat := min (a + b) (UInt64.size - 1)

/-- `None` is an error of an operation on the files. -/
def append (maxBytes : UInt64) (line : Bytes) (files : LogFiles) : Option LogFiles :=
  let length := min line.length (UInt64.size - 1)
  let current := (files.path.map List.length).getD 0
  let files :=
    if current > 0 ∧ saturatingAdd current length > maxBytes.toNat then
      ⟨none, files.path⟩
    else files
  let content := files.path.getD [] ++ line
  if content.length > maxFileBytes then none else some { files with path := some content }

/-- What is recorded: the clock, the event and its detail. -/
structure LogRecord where
  unixSeconds : UInt64
  event : String
  detail : String
  deriving DecidableEq, Repr

def LogRecord.line (record : LogRecord) : Option (List Char) :=
  formatLine record.unixSeconds record.event record.detail

def record (maxBytes : UInt64) (files : LogFiles) (entry : LogRecord) : Option LogFiles := do
  let line ← entry.line
  append maxBytes (utf8 line) files

/-! ### The bound -/

/-- The files hold the last lines of a history, each of them within the limit. -/
structure Holds (maxBytes : UInt64) (lines : List (List Char)) (files : LogFiles) : Prop where
  sizes : (files.path.getD []).length ≤ maxBytes.toNat ∧
    (files.rotated.getD []).length ≤ maxBytes.toNat
  lines : ∃ older recent, older ++ recent <:+ lines ∧ (lines ≠ [] → recent ≠ []) ∧
    files.rotated.getD [] = (older.map utf8).flatten ∧
    files.path.getD [] = (recent.map utf8).flatten

theorem append_holds {maxBytes : UInt64} {lines : List (List Char)} {files files' : LogFiles}
    {line : List Char} (h : Holds maxBytes lines files)
    (hline : (utf8 line).length ≤ maxBytes.toNat)
    (happend : append maxBytes (utf8 line) files = some files') :
    Holds maxBytes (lines ++ [line]) files' := by
  obtain ⟨⟨hpath, hrotated⟩, older, recent, hsuffix, hnewest, holder, hrecent⟩ := h
  have hlength : (files.path.map List.length).getD 0 = (files.path.getD []).length := by
    cases files.path <;> rfl
  simp only [append, hlength] at happend
  by_cases hrotate : (files.path.getD []).length > 0 ∧
      saturatingAdd (files.path.getD []).length (min (utf8 line).length (UInt64.size - 1)) >
        maxBytes.toNat
  · rw [if_pos hrotate] at happend
    dsimp only at happend
    split at happend
    · cases happend
    · cases happend
      refine ⟨⟨by simpa using hline, hpath⟩, recent, [line], ?_, by simp, hrecent, by simp⟩
      obtain ⟨before, hbefore⟩ := hsuffix
      exact ⟨before ++ older, by simp [← hbefore]⟩
  · rw [if_neg hrotate] at happend
    split at happend
    · cases happend
    · rename_i hfits
      cases happend
      refine ⟨⟨?_, hrotated⟩, older, recent ++ [line], ?_, by simp, holder, by simp [hrecent]⟩
      · -- a file that can be written is too small for the sum to saturate
        have hsize : UInt64.size = 2 ^ 64 := rfl
        simp only [List.length_append, maxFileBytes] at hfits
        simp only [saturatingAdd] at hrotate
        simp only [Option.getD_some, List.length_append]
        omega
      · obtain ⟨before, hbefore⟩ := hsuffix
        exact ⟨before, by simp [← hbefore]⟩

/-- The lines of a history of records. -/
def historyLines (records : List LogRecord) : Option (List (List Char)) :=
  records.mapM LogRecord.line

theorem holds_run {maxBytes : UInt64} {records : List LogRecord} {files files' : LogFiles}
    {lines added : List (List Char)} (h : Holds maxBytes lines files)
    (hadded : historyLines records = some added)
    (hlimit : ∀ entry ∈ records, ∀ line, entry.line = some line →
      (utf8 line).length ≤ maxBytes.toNat)
    (hrun : records.foldlM (record maxBytes) files = some files') :
    Holds maxBytes (lines ++ added) files' := by
  induction records generalizing files lines added with
  | nil =>
    cases hadded
    cases hrun
    simpa using h
  | cons entry records ih =>
    rw [historyLines, List.mapM_cons] at hadded
    obtain ⟨line, hline, hadded⟩ := Option.bind_eq_some_iff.mp hadded
    obtain ⟨rest, hrest, hadded⟩ := Option.bind_eq_some_iff.mp hadded
    cases hadded
    rw [List.foldlM_cons] at hrun
    obtain ⟨next, hnext, hrun⟩ := Option.bind_eq_some_iff.mp hrun
    have happend : append maxBytes (utf8 line) files = some next := by
      rwa [record, hline, Option.bind_eq_bind, Option.bind_some] at hnext
    rw [List.forall_mem_cons] at hlimit
    have hstep := ih (append_holds h (hlimit.1 line hline) happend) hrest hlimit.2 hrun
    rwa [List.append_assoc] at hstep

theorem exists_historyLines (records : List LogRecord) :
    ∃ lines, historyLines records = some lines ∧ ∀ line ∈ lines, OneLine (utf8 line) := by
  induction records with
  | nil => exact ⟨[], rfl, by simp⟩
  | cons entry records ih =>
    obtain ⟨lines, hlines, hone⟩ := ih
    obtain ⟨line, hline, hfirst⟩ := exists_formatLine entry.unixSeconds entry.event entry.detail
    have hentry : entry.line = some line := hline
    rw [historyLines] at hlines
    refine ⟨line :: lines, by rw [historyLines, List.mapM_cons, hentry, hlines]; rfl, ?_⟩
    rw [List.forall_mem_cons]
    exact ⟨hfirst, hone⟩

/-- After any records that were written without an I/O error, both files are within the limit,
and the rotated file and the log behind it are the last lines of the history, the newest at the
end. -/
theorem log_bounded {maxBytes : UInt64} {records : List LogRecord} {files : LogFiles}
    (hlimit : ∀ entry ∈ records, ∀ line, entry.line = some line →
      (utf8 line).length ≤ maxBytes.toNat)
    (hrun : records.foldlM (record maxBytes) ⟨none, none⟩ = some files) :
    (files.path.getD []).length ≤ maxBytes.toNat ∧
    (files.rotated.getD []).length ≤ maxBytes.toNat ∧
    ∃ lines older recent, historyLines records = some lines ∧
      (∀ line ∈ lines, OneLine (utf8 line)) ∧
      files.rotated.getD [] = (older.map utf8).flatten ∧
      files.path.getD [] = (recent.map utf8).flatten ∧
      older ++ recent <:+ lines ∧ (records ≠ [] → recent ≠ [] ∧ recent.getLast? = lines.getLast?) := by
  obtain ⟨lines, hlines, hone⟩ := exists_historyLines records
  have hstart : Holds maxBytes [] ⟨none, none⟩ :=
    ⟨⟨by simp, by simp⟩, [], [], List.suffix_refl _, by simp, rfl, rfl⟩
  obtain ⟨⟨hpath, hrotated⟩, older, recent, hsuffix, hnewest, holder, hrecent⟩ :=
    holds_run hstart hlines hlimit hrun
  rw [List.nil_append] at hsuffix hnewest
  refine ⟨hpath, hrotated, lines, older, recent, hlines, hone, holder, hrecent, hsuffix, ?_⟩
  intro hrecords
  have hlines' : lines ≠ [] := by
    rintro rfl
    cases records with
    | nil => exact hrecords rfl
    | cons entry records =>
      rw [historyLines, List.mapM_cons] at hlines
      obtain ⟨_, -, hlines⟩ := Option.bind_eq_some_iff.mp hlines
      obtain ⟨_, -, hlines⟩ := Option.bind_eq_some_iff.mp hlines
      cases hlines
  have hrecent' := hnewest hlines'
  obtain ⟨before, hbefore⟩ := hsuffix
  refine ⟨hrecent', ?_⟩
  rw [← hbefore, ← List.append_assoc, List.getLast?_append_of_ne_nil _ hrecent']

section Sample

def sampleRecords : List LogRecord := [⟨0, "start", ""⟩, ⟨951785861, "stop", "leap\nday"⟩]

/-- The second line does not fit behind the first one. -/
def sampleFiles : LogFiles :=
  (sampleRecords.foldlM (record 40) ⟨none, none⟩).getD ⟨none, none⟩

theorem log_bounded_rotated : sampleFiles.rotated = some (utf8 "1970-01-01T00:00:00Z start \n".toList) ∧
    (sampleFiles.path.getD []).length ≤ 40 := by
  have hlines : ∀ entry ∈ sampleRecords,
      (entry.line.map fun line => decide ((utf8 line).length ≤ 40)) = some true := by
    decide +kernel
  have hlimit : ∀ entry ∈ sampleRecords, ∀ line, entry.line = some line →
      (utf8 line).length ≤ (40 : UInt64).toNat := by
    intro entry hentry line hline
    simpa [hline] using hlines entry hentry
  have hrun : sampleRecords.foldlM (record 40) ⟨none, none⟩ = some sampleFiles := by
    decide +kernel
  exact ⟨by decide +kernel, (log_bounded hlimit hrun).1⟩

end Sample

end Se7en.ServiceLog
