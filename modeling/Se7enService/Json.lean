import Mathlib.Data.List.Sort
import Mathlib.Data.String.Basic
import Se7enService.Error
set_option autoImplicit false

/-! The canonical JSON of `lib.rs`: `canonical_json` and `parse_canonical`. -/

namespace Se7en

inductive Number where
  | posInt : UInt64 → Number
  | negInt : Int64 → Number
  | float : UInt64 → Number
  deriving DecidableEq, Repr

inductive Value where
  | null : Value
  | bool : Bool → Value
  | number : Number → Value
  | string : String → Value
  | array : List Value → Value
  | object : List (String × Value) → Value

def decimal (n : Nat) : List Char := Nat.toDigits 10 n

def Number.text : Number → List Char
  | .posInt n => decimal n.toNat
  | .negInt n => if n < 0 then '-' :: decimal n.toInt.natAbs else decimal n.toInt.natAbs
  | .float _ => []

/-- The escapes of `serde_json`; every other character is written as it is. -/
def escapeChar (c : Char) : List Char :=
  if c = '"' then ['\\', '"']
  else if c = '\\' then ['\\', '\\']
  else if c.toNat = 8 then ['\\', 'b']
  else if c.toNat = 9 then ['\\', 't']
  else if c.toNat = 10 then ['\\', 'n']
  else if c.toNat = 12 then ['\\', 'f']
  else if c.toNat = 13 then ['\\', 'r']
  else if c.toNat < 32 then
    ['\\', 'u', '0', '0', Nat.digitChar (c.toNat / 16), Nat.digitChar (c.toNat % 16)]
  else [c]

def stringText (s : String) : List Char :=
  '"' :: (s.toList.flatMap escapeChar ++ ['"'])

def separated (close : Char) : List (List Char) → List Char
  | [] => [close]
  | [item] => item ++ [close]
  | item :: items => item ++ ',' :: separated close items

def floatError : MaintenanceError :=
  .new .jsonInvalid "floating-point JSON numbers are not supported"

mutual

def writeCanonical : Value → Result (List Char)
  | .null => .ok ['n', 'u', 'l', 'l']
  | .bool true => .ok ['t', 'r', 'u', 'e']
  | .bool false => .ok ['f', 'a', 'l', 's', 'e']
  | .number (.float _) => .error floatError
  | .number n => .ok n.text
  | .string s => .ok (stringText s)
  | .array items => do
    let written ← writeItems items
    pure ('[' :: separated ']' written)
  | .object fields => do
    let written ← writeFields fields
    let sorted := written.insertionSort (fun a b => a.1 ≤ b.1)
    pure ('{' :: separated '}' (sorted.map fun field => stringText field.1 ++ ':' :: field.2))

def writeItems : List Value → Result (List (List Char))
  | [] => .ok []
  | item :: items => do
    let written ← writeCanonical item
    let rest ← writeItems items
    pure (written :: rest)

def writeFields : List (String × Value) → Result (List (String × List Char))
  | [] => .ok []
  | (key, item) :: fields => do
    let written ← writeCanonical item
    let rest ← writeFields fields
    pure ((key, written) :: rest)

end

def canonicalJson (value : Value) : Result Bytes := do
  let text ← writeCanonical value
  pure (utf8 text)

/-- The derived `Serialize` of a document. -/
class Serialize (α : Type) where
  toValue : α → Value

/-- The derived `Deserialize` of a document, read by `serde_json`. -/
class Deserialize (α : Type) where
  fromSlice : Bytes → Option α

export Serialize (toValue)
export Deserialize (fromSlice)

/-- Decoding inverts encoding. -/
class LawfulDeserialize (α : Type) [Serialize α] [Deserialize α] : Prop where
  fromSlice_canonicalJson : ∀ (document : α) (bytes : Bytes),
    canonicalJson (toValue document) = .ok bytes → fromSlice bytes = some document

def parseCanonical {α : Type} [Serialize α] [Deserialize α] (bytes : Bytes) (maximum : Nat) : Result α := do
  if bytes.length > maximum then
    throw (.new .manifestTooLarge "signed document exceeds the configured bound")
  match fromSlice bytes with
  | none => throw (.new .jsonInvalid "signed document is not strict JSON")
  | some (parsed : α) =>
    if (← canonicalJson (toValue parsed)) ≠ bytes then
      throw (.new .jsonNonCanonical "signed document bytes are not canonical")
    pure parsed

theorem parseCanonical_canonicalJson {α : Type} [Serialize α] [Deserialize α] [LawfulDeserialize α] {document : α}
    {bytes : Bytes} {maximum : Nat} (h : canonicalJson (toValue document) = .ok bytes)
    (hmax : bytes.length ≤ maximum) : parseCanonical bytes maximum = .ok document := by
  have hread := LawfulDeserialize.fromSlice_canonicalJson document bytes h
  simp [parseCanonical, Nat.not_lt.mpr hmax, hread, h, pure, Except.pure]

/-- Only the canonical bytes of a document are accepted. -/
theorem canonicalJson_of_parseCanonical {α : Type} [Serialize α] [Deserialize α] {document : α}
    {bytes : Bytes} {maximum : Nat} (h : parseCanonical bytes maximum = .ok document) :
    canonicalJson (toValue document) = .ok bytes ∧ bytes.length ≤ maximum := by
  unfold parseCanonical at h
  by_cases hlength : bytes.length > maximum
  · simp [hlength] at h
  · simp only [hlength, if_false] at h
    cases hparsed : (fromSlice bytes : Option α) with
    | none => simp [hparsed] at h
    | some parsed =>
      simp only [hparsed] at h
      cases hjson : canonicalJson (toValue parsed) with
      | error e => simp [hjson] at h
      | ok written =>
        by_cases hwritten : written = bytes
        · simp only [hjson, Result.ok_bind, hwritten, ne_eq, not_true, if_false] at h
          cases h
          exact ⟨hwritten ▸ hjson, by omega⟩
        · simp [hjson, hwritten] at h

/-! ### The canonical text determines the value -/

mutual

/-- The values `serde_json` itself builds, without floating-point numbers: negative
integers only where they are needed, object keys in order. -/
def Value.Regular : Value → Prop
  | .null | .bool _ | .string _ | .number (.posInt _) => True
  | .number (.negInt n) => n < 0
  | .number (.float _) => False
  | .array items => RegularItems items
  | .object fields => RegularFields fields ∧ fields.Pairwise (fun a b => a.1 < b.1)

def RegularItems : List Value → Prop
  | [] => True
  | item :: items => item.Regular ∧ RegularItems items

def RegularFields : List (String × Value) → Prop
  | [] => True
  | (_, item) :: fields => item.Regular ∧ RegularFields fields

end

theorem regularItems_iff {items : List Value} :
    RegularItems items ↔ ∀ item ∈ items, item.Regular := by
  induction items with
  | nil => simp [RegularItems]
  | cons item items ih => simp [RegularItems, ih]

theorem sorted_of_keys {fields : List (String × Value)} (keys : List String)
    (h : fields.map Prod.fst = keys) (hsorted : keys.Pairwise (· < ·)) :
    fields.Pairwise (fun a b => a.1 < b.1) := by
  rw [← h, List.pairwise_map] at hsorted
  exact hsorted

def unsigned (n : UInt64) : Value := .number (.posInt n)

theorem unsigned_inj {n m : UInt64} : unsigned n = unsigned m ↔ n = m := by
  simp [unsigned]

mutual

/-- What `writeCanonical` writes for a regular value. -/
def Value.text : Value → List Char
  | .null => ['n', 'u', 'l', 'l']
  | .bool true => ['t', 'r', 'u', 'e']
  | .bool false => ['f', 'a', 'l', 's', 'e']
  | .number n => n.text
  | .string s => stringText s
  | .array items => '[' :: separated ']' (itemsText items)
  | .object fields => '{' :: separated '}' (fieldsText fields)

def itemsText : List Value → List (List Char)
  | [] => []
  | item :: items => item.text :: itemsText items

def fieldsText : List (String × Value) → List (List Char)
  | [] => []
  | (key, item) :: fields => (stringText key ++ ':' :: item.text) :: fieldsText fields

end

theorem fieldsText_eq (fields : List (String × Value)) :
    fieldsText fields = fields.map fun field => stringText field.1 ++ ':' :: field.2.text := by
  induction fields with
  | nil => rfl
  | cons field fields ih => simp [fieldsText, ih]

mutual

theorem writeCanonical_regular : ∀ (v : Value), v.Regular → writeCanonical v = .ok v.text
  | .null, _ | .bool true, _ | .bool false, _ | .string _, _ => rfl
  | .number (.posInt _), _ => rfl
  | .number (.negInt _), _ => rfl
  | .array items, h => by
    simp [writeCanonical, writeItems_regular items h, Value.text, pure, Except.pure]
  | .object fields, ⟨h, hsorted⟩ => by
    have hmap : (fields.map fun field => (field.1, field.2.text)).Pairwise
        (fun a b => a.1 ≤ b.1) := by
      rw [List.pairwise_map]
      exact hsorted.imp fun hlt => le_of_lt hlt
    simp only [writeCanonical, writeFields_regular fields h, Value.text, fieldsText_eq]
    change Except.ok _ = _
    rw [List.Pairwise.insertionSort_eq hmap, List.map_map]
    rfl

theorem writeItems_regular : ∀ (items : List Value), RegularItems items →
    writeItems items = .ok (itemsText items)
  | [], _ => rfl
  | item :: items, ⟨h, hrest⟩ => by
    simp [writeItems, itemsText, writeCanonical_regular item h, writeItems_regular items hrest,
      pure, Except.pure]

theorem writeFields_regular : ∀ (fields : List (String × Value)), RegularFields fields →
    writeFields fields = .ok (fields.map fun field => (field.1, field.2.text))
  | [], _ => rfl
  | (key, item) :: fields, ⟨h, hrest⟩ => by
    simp [writeFields, writeCanonical_regular item h, writeFields_regular fields hrest,
      pure, Except.pure]

end

/-- Nothing that can still belong to a number. -/
def Follow (rest : List Char) : Prop := ∀ c ∈ rest.head?, c.isDigit = false

theorem takeWhile_digits {digits rest : List Char} (hdigits : ∀ c ∈ digits, c.isDigit = true)
    (hrest : Follow rest) : (digits ++ rest).takeWhile Char.isDigit = digits := by
  rw [List.takeWhile_append_of_pos hdigits]
  cases rest with
  | nil => simp
  | cons c rest =>
    have hc : ¬ c.isDigit = true := by simp [hrest c rfl]
    rw [List.takeWhile_cons_of_neg hc, List.append_nil]

theorem decimal_isDigit {n : Nat} : ∀ c ∈ decimal n, c.isDigit = true :=
  fun _ hc => Nat.isDigit_of_mem_toDigits (by decide) (by decide) hc

theorem decimal_cancel {n m : Nat} {rest rest' : List Char} (hrest : Follow rest)
    (hrest' : Follow rest') (h : decimal n ++ rest = decimal m ++ rest') :
    n = m ∧ rest = rest' := by
  have htext : decimal n = decimal m := by
    rw [← takeWhile_digits decimal_isDigit hrest, h, takeWhile_digits decimal_isDigit hrest']
  have hnum : n = m := by
    rw [← Nat.ofDigitChars_ten_toDigits (n := n), ← Nat.ofDigitChars_ten_toDigits (n := m)]
    exact congrArg _ htext
  rw [htext] at h
  exact ⟨hnum, List.append_cancel_left h⟩

theorem decimal_head (n : Nat) : ∃ c cs, decimal n = c :: cs ∧ c.isDigit = true := by
  cases h : decimal n with
  | nil => exact absurd h Nat.toDigits_ne_nil
  | cons c cs => exact ⟨c, cs, rfl, decimal_isDigit (n := n) c (by simp [h])⟩

def hexValue (c : Char) : Nat := if c.isDigit then c.toNat - 48 else c.toNat - 87

def unescape : Char → Char
  | 'b' => Char.ofNat 8
  | 't' => Char.ofNat 9
  | 'n' => Char.ofNat 10
  | 'f' => Char.ofNat 12
  | 'r' => Char.ofNat 13
  | c => c

/-- The characters of a string whose opening quote has been read, and what follows it. -/
def readString : List Char → Option (List Char × List Char)
  | [] => none
  | '"' :: rest => some ([], rest)
  | '\\' :: 'u' :: _ :: _ :: high :: low :: rest =>
    (readString rest).map fun r => (Char.ofNat (16 * hexValue high + hexValue low) :: r.1, r.2)
  | '\\' :: code :: rest => (readString rest).map fun r => (unescape code :: r.1, r.2)
  | c :: rest => (readString rest).map fun r => (c :: r.1, r.2)

theorem hexValue_digitChar : ∀ d < 16, hexValue (Nat.digitChar d) = d := by decide

theorem readString_escapeChar (c : Char) (rest : List Char) :
    readString (escapeChar c ++ rest) = (readString rest).map fun r => (c :: r.1, r.2) := by
  have hcode : Char.ofNat c.toNat = c := Char.ofNat_toNat c
  unfold escapeChar
  split
  · subst_vars; simp [readString, unescape]
  split
  · subst_vars; simp [readString, unescape]
  split
  · rename_i h; rw [h] at hcode; simp [readString, unescape, ← hcode]
  split
  · rename_i h; rw [h] at hcode; simp [readString, unescape, ← hcode]
  split
  · rename_i h; rw [h] at hcode; simp [readString, unescape, ← hcode]
  split
  · rename_i h; rw [h] at hcode; simp [readString, unescape, ← hcode]
  split
  · rename_i h; rw [h] at hcode; simp [readString, unescape, ← hcode]
  split
  · have hhigh := hexValue_digitChar (c.toNat / 16) (by omega)
    have hlow := hexValue_digitChar (c.toNat % 16) (by omega)
    have hvalue : 16 * (c.toNat / 16) + c.toNat % 16 = c.toNat := by omega
    simp [readString, hhigh, hlow, hvalue, hcode]
  · rename_i hslash _ _ _ _ _ _
    simp [readString, hslash]

theorem readString_escaped (cs rest : List Char) :
    readString (cs.flatMap escapeChar ++ '"' :: rest) = some (cs, rest) := by
  induction cs with
  | nil => simp [readString]
  | cons c cs ih => simp [List.append_assoc, readString_escapeChar, ih]

theorem stringText_cancel {s t : String} {rest rest' : List Char}
    (h : stringText s ++ rest = stringText t ++ rest') : s = t ∧ rest = rest' := by
  simp only [stringText, List.cons_append, List.append_assoc, List.cons.injEq, true_and,
    List.nil_append] at h
  have hread := congrArg readString h
  rw [readString_escaped, readString_escaped] at hread
  simp only [Option.some.injEq, Prod.mk.injEq] at hread
  exact ⟨String.toList_inj.mp hread.1, hread.2⟩

/-- Which kind of value starts with the character. -/
def charKind (c : Char) : Nat :=
  if c.isDigit ∨ c = '-' then 3
  else if c = 'n' then 0
  else if c = 't' then 1
  else if c = 'f' then 2
  else if c = '"' then 4
  else if c = '[' then 5
  else if c = '{' then 6
  else 7

def Value.kind : Value → Nat
  | .null => 0
  | .bool true => 1
  | .bool false => 2
  | .number _ => 3
  | .string _ => 4
  | .array _ => 5
  | .object _ => 6

theorem Value.text_kind {v : Value} (h : v.Regular) :
    ∃ c cs, v.text = c :: cs ∧ charKind c = v.kind := by
  match v, h with
  | .null, _ | .bool true, _ | .bool false, _ | .string _, _ | .array _, _ | .object _, _ =>
    exact ⟨_, _, rfl, rfl⟩
  | .number (.posInt n), _ =>
    obtain ⟨c, cs, htext, hc⟩ := decimal_head n.toNat
    exact ⟨c, cs, htext, by simp [charKind, hc, kind]⟩
  | .number (.negInt n), h =>
    have hn : n < 0 := h
    exact ⟨'-', decimal n.toInt.natAbs, by simp [text, Number.text, hn], rfl⟩

theorem Number.text_cancel {n m : Number} {rest rest' : List Char}
    (hn : (Value.number n).Regular) (hm : (Value.number m).Regular) (hrest : Follow rest)
    (hrest' : Follow rest') (h : n.text ++ rest = m.text ++ rest') : n = m ∧ rest = rest' := by
  have hminus : ∀ (k : Nat) (r r' : List Char), decimal k ++ r ≠ '-' :: r' := by
    intro k r r' heq
    obtain ⟨c, cs, htext, hc⟩ := decimal_head k
    rw [htext] at heq
    simp only [List.cons_append, List.cons.injEq] at heq
    obtain ⟨rfl, -⟩ := heq
    exact absurd hc (by decide)
  match n, m, hn, hm with
  | .posInt n, .posInt m, _, _ =>
    obtain ⟨hnum, rfl⟩ := decimal_cancel hrest hrest' h
    exact ⟨congrArg _ (UInt64.toNat_inj.mp hnum), rfl⟩
  | .posInt n, .negInt m, _, hm =>
    have hneg : m < 0 := hm
    simp only [text, hneg, if_true, List.cons_append] at h
    exact absurd h (hminus _ _ _)
  | .negInt n, .posInt m, hn, _ =>
    have hneg : n < 0 := hn
    simp only [text, hneg, if_true, List.cons_append] at h
    exact absurd h.symm (hminus _ _ _)
  | .negInt n, .negInt m, hn, hm =>
    have hneg : n < 0 := hn
    have hneg' : m < 0 := hm
    simp only [text, hneg, hneg', if_true, List.cons_append, List.cons.injEq, true_and] at h
    obtain ⟨hnum, rfl⟩ := decimal_cancel hrest hrest' h
    have hlt : n.toInt < 0 := by simpa [Int64.lt_iff_toInt_lt] using hneg
    have hlt' : m.toInt < 0 := by simpa [Int64.lt_iff_toInt_lt] using hneg'
    have hint : n.toInt = m.toInt := by omega
    exact ⟨congrArg _ (Int64.toInt_inj.mp hint), rfl⟩

/-- What follows an item of a list. -/
def listTail (close : Char) : List (List Char) → List Char
  | [] => [close]
  | items => ',' :: separated close items

theorem separated_cons (close : Char) (item : List Char) (items : List (List Char)) :
    separated close (item :: items) = item ++ listTail close items := by
  cases items <;> simp [separated, listTail]

theorem follow_cons {c : Char} {rest : List Char} (h : c.isDigit = false) :
    Follow (c :: rest) := by
  rintro d ⟨⟩
  exact h

theorem follow_listTail {close : Char} (hclose : close.isDigit = false)
    (items : List (List Char)) (rest : List Char) : Follow (listTail close items ++ rest) := by
  cases items with
  | nil => exact follow_cons hclose
  | cons item items => exact follow_cons rfl

theorem listTail_cancel {close : Char} (hclose : close ≠ ',') {items items' : List (List Char)}
    {rest rest' : List Char} (h : listTail close items ++ rest = listTail close items' ++ rest') :
    separated close items ++ rest = separated close items' ++ rest' := by
  cases items with
  | nil =>
    cases items' with
    | nil => exact h
    | cons item' items' => simp [listTail, hclose] at h
  | cons item items =>
    cases items' with
    | nil => simp [listTail, hclose.symm] at h
    | cons item' items' => simpa [listTail] using h

theorem Value.text_ne_close {v : Value} (h : v.Regular) {close : Char} (hclose : charKind close = 7)
    (rest rest' : List Char) : v.text ++ rest ≠ close :: rest' := by
  intro heq
  obtain ⟨c, cs, hc, hkind⟩ := v.text_kind h
  simp only [hc, List.cons_append, List.cons.injEq] at heq
  obtain ⟨rfl, -⟩ := heq
  rw [hclose] at hkind
  cases v with
  | bool b => cases b <;> cases hkind
  | _ => cases hkind

mutual

theorem Value.text_cancel : ∀ (v w : Value) {rest rest' : List Char}, v.Regular → w.Regular →
    Follow rest → Follow rest' → v.text ++ rest = w.text ++ rest' → v = w ∧ rest = rest'
  | v, w, rest, rest', hv, hw, hrest, hrest', h => by
    have hkind : v.kind = w.kind := by
      obtain ⟨c, cs, hc, hck⟩ := Value.text_kind hv
      obtain ⟨d, ds, hd, hdk⟩ := Value.text_kind hw
      rw [hc, hd] at h
      simp only [List.cons_append, List.cons.injEq] at h
      rw [← hck, ← hdk, h.1]
    match v, w with
    | .null, .null => simpa [Value.text] using h
    | .bool true, .bool true => simpa [Value.text] using h
    | .bool false, .bool false => simpa [Value.text] using h
    | .number n, .number m =>
      obtain ⟨rfl, hr⟩ := Number.text_cancel hv hw hrest hrest' h
      exact ⟨rfl, hr⟩
    | .string s, .string t =>
      obtain ⟨rfl, hr⟩ := stringText_cancel h
      exact ⟨rfl, hr⟩
    | .array items, .array items' =>
      simp only [Value.text, List.cons_append, List.cons.injEq, true_and] at h
      obtain ⟨rfl, hr⟩ := itemsText_cancel items items' hv hw h
      exact ⟨rfl, hr⟩
    | .object fields, .object fields' =>
      simp only [Value.text, List.cons_append, List.cons.injEq, true_and] at h
      obtain ⟨rfl, hr⟩ := fieldsText_cancel fields fields' hv.1 hw.1 h
      exact ⟨rfl, hr⟩

theorem itemsText_cancel : ∀ (items items' : List Value) {rest rest' : List Char},
    RegularItems items → RegularItems items' →
    separated ']' (itemsText items) ++ rest = separated ']' (itemsText items') ++ rest' →
    items = items' ∧ rest = rest'
  | [], [], _, _, _, _, h => by simpa [itemsText, separated] using h
  | [], w :: items', _, _, _, ⟨hw, _⟩, h => by
    simp only [itemsText, separated_cons, List.append_assoc] at h
    exact absurd h.symm (w.text_ne_close hw rfl _ _)
  | v :: items, [], _, _, ⟨hv, _⟩, _, h => by
    simp only [itemsText, separated_cons, List.append_assoc] at h
    exact absurd h (v.text_ne_close hv rfl _ _)
  | v :: items, w :: items', _, _, ⟨hv, hvs⟩, ⟨hw, hws⟩, h => by
    simp only [itemsText, separated_cons, List.append_assoc] at h
    obtain ⟨rfl, htail⟩ := Value.text_cancel v w hv hw (follow_listTail rfl _ _)
      (follow_listTail rfl _ _) h
    obtain ⟨rfl, hr⟩ := itemsText_cancel items items' hvs hws (listTail_cancel (by decide) htail)
    exact ⟨rfl, hr⟩

theorem fieldsText_cancel : ∀ (fields fields' : List (String × Value)) {rest rest' : List Char},
    RegularFields fields → RegularFields fields' →
    separated '}' (fieldsText fields) ++ rest = separated '}' (fieldsText fields') ++ rest' →
    fields = fields' ∧ rest = rest'
  | [], [], _, _, _, _, h => by simpa [fieldsText, separated] using h
  | [], (_, _) :: _, _, _, _, _, h => by
    simp [fieldsText, separated_cons, stringText, separated] at h
  | (_, _) :: _, [], _, _, _, _, h => by
    simp [fieldsText, separated_cons, stringText, separated] at h
  | (key, v) :: fields, (key', w) :: fields', _, _, ⟨hv, hvs⟩, ⟨hw, hws⟩, h => by
    simp only [fieldsText, separated_cons, List.append_assoc] at h
    obtain ⟨rfl, hitem⟩ := stringText_cancel h
    simp only [List.cons_append, List.cons.injEq, true_and] at hitem
    obtain ⟨rfl, htail⟩ := Value.text_cancel v w hv hw (follow_listTail rfl _ _)
      (follow_listTail rfl _ _) hitem
    obtain ⟨rfl, hr⟩ := fieldsText_cancel fields fields' hvs hws
      (listTail_cancel (by decide) htail)
    exact ⟨rfl, hr⟩

end

theorem utf8_injective {cs ds : List Char} (h : utf8 cs = utf8 ds) : cs = ds := by
  have hencode : cs.utf8Encode = ds.utf8Encode := congrArg List.toByteArray h
  have hstring : String.ofList cs = String.ofList ds := by
    rw [← String.toByteArray_inj, String.toByteArray_ofList, String.toByteArray_ofList, hencode]
  rw [← String.toList_ofList (l := cs), hstring, String.toList_ofList]

theorem utf8EncodeChar_cancel {c d : Char} {rest rest' : Bytes}
    (h : String.utf8EncodeChar c ++ rest = String.utf8EncodeChar d ++ rest') :
    c = d ∧ rest = rest' := by
  have hdecode : ∀ (e : Char) (tail : Bytes),
      ByteArray.utf8DecodeChar? (String.utf8EncodeChar e ++ tail).toByteArray 0 = some e := by
    intro e tail
    rw [List.toByteArray_append]
    exact ByteArray.utf8DecodeChar?_utf8EncodeChar_append
  have hc := hdecode c rest
  rw [h, hdecode d rest'] at hc
  obtain rfl := Option.some.inj hc
  exact ⟨rfl, List.append_cancel_left h⟩

/-- Whole characters at the front of a text are a front part of its characters. -/
theorem utf8_initial {cs ds : List Char} {rest : Bytes} (h : utf8 cs ++ rest = utf8 ds) :
    ∃ tail, ds = cs ++ tail := by
  induction cs generalizing ds with
  | nil => exact ⟨ds, rfl⟩
  | cons c cs ih =>
    cases ds with
    | nil => simp [utf8, String.utf8EncodeChar_ne_nil] at h
    | cons d ds =>
      simp only [utf8, List.flatMap_cons, List.append_assoc] at h
      obtain ⟨rfl, hrest⟩ := utf8EncodeChar_cancel h
      obtain ⟨tail, rfl⟩ := ih hrest
      exact ⟨tail, rfl⟩

theorem canonicalJson_regular {v : Value} (h : v.Regular) :
    canonicalJson v = .ok (utf8 v.text) := by
  simp [canonicalJson, writeCanonical_regular v h, pure, Except.pure]

/-- Two regular values with the same canonical bytes are the same value. -/
theorem canonicalJson_injective {v w : Value} (hv : v.Regular) (hw : w.Regular)
    (h : canonicalJson v = canonicalJson w) : v = w := by
  rw [canonicalJson_regular hv, canonicalJson_regular hw] at h
  have htext : v.text = w.text := utf8_injective (Except.ok.inj h)
  have hempty : Follow [] := nofun
  exact (Value.text_cancel v w hv hw hempty hempty (by rw [htext])).1

/-- The bytes of an object are no part of the bytes of another one. -/
theorem canonicalJson_object_initial {fields fields' : List (String × Value)} {bytes bytes' : Bytes}
    (hr : (Value.object fields).Regular) (hr' : (Value.object fields').Regular)
    (h : canonicalJson (.object fields) = .ok bytes)
    (h' : canonicalJson (.object fields') = .ok bytes') (hinitial : bytes <+: bytes') :
    bytes = bytes' := by
  rw [canonicalJson_regular hr] at h
  rw [canonicalJson_regular hr'] at h'
  cases h
  cases h'
  obtain ⟨rest, hrest⟩ := hinitial
  obtain ⟨tail, htail⟩ := utf8_initial hrest
  simp only [Value.text, List.cons_append, List.cons.injEq, true_and] at htail
  have htail : separated '}' (fieldsText fields') ++ [] = separated '}' (fieldsText fields) ++ tail := by
    simpa using htail
  have hcancel := fieldsText_cancel fields' fields hr'.1 hr.1 htail
  rw [hcancel.1]

/-- Documents that `serde_json` encodes without a loss. -/
class LawfulSerialize (α : Type) [Serialize α] : Prop where
  regular : ∀ document : α, (toValue document).Regular
  injective : ∀ document document' : α, toValue document = toValue document' → document = document'

theorem canonicalJson_toValue_injective {α : Type} [Serialize α] [LawfulSerialize α]
    {document document' : α} {bytes : Bytes} (h : canonicalJson (toValue document) = .ok bytes)
    (h' : canonicalJson (toValue document') = .ok bytes) : document = document' :=
  LawfulSerialize.injective _ _ (canonicalJson_injective (LawfulSerialize.regular document)
    (LawfulSerialize.regular document') (h.trans h'.symm))

/-- A document cut short is not accepted as another one. -/
theorem parseCanonical_take {α : Type} [Serialize α] [Deserialize α] [LawfulSerialize α]
    {document document' : α} {bytes : Bytes} {n maximum : Nat}
    (hobject : ∀ d : α, ∃ fields, toValue d = .object fields)
    (h : canonicalJson (toValue document) = .ok bytes)
    (hparse : parseCanonical (bytes.take n) maximum = .ok document') :
    document' = document ∧ bytes.take n = bytes := by
  obtain ⟨hread, -⟩ := canonicalJson_of_parseCanonical hparse
  obtain ⟨fields, hfields⟩ := hobject document
  obtain ⟨fields', hfields'⟩ := hobject document'
  have hregular := LawfulSerialize.regular document
  have hregular' := LawfulSerialize.regular document'
  have hwhole : bytes.take n = bytes := by
    rw [hfields] at h hregular
    rw [hfields'] at hread hregular'
    exact canonicalJson_object_initial hregular' hregular hread h (List.take_prefix n bytes)
  rw [hwhole] at hread
  exact ⟨canonicalJson_toValue_injective hread h, hwhole⟩

open Classical in
/-- The decoder that accepts exactly the canonical bytes. -/
@[reducible] noncomputable def Deserialize.canonical (α : Type) [Serialize α] : Deserialize α where
  fromSlice bytes :=
    if h : ∃ document : α, canonicalJson (toValue document) = .ok bytes then some h.choose else none

theorem Deserialize.canonical_lawful (α : Type) [Serialize α] [LawfulSerialize α] :
    @LawfulDeserialize α _ (Deserialize.canonical α) := by
  refine @LawfulDeserialize.mk α _ (Deserialize.canonical α) ?_
  intro document bytes h
  have hex : ∃ document : α, canonicalJson (toValue document) = .ok bytes := ⟨document, h⟩
  refine (dif_pos hex).trans ?_
  exact congrArg some (canonicalJson_toValue_injective hex.choose_spec h)

/-- The same decoder, which tries some documents first. -/
@[reducible] noncomputable def Deserialize.canonicalWith {α : Type} [Serialize α]
    (documents : List α) : Deserialize α where
  fromSlice bytes :=
    match documents.find? fun document =>
      match canonicalJson (toValue document) with
      | .ok written => written = bytes
      | .error _ => false with
    | some document => some document
    | none => (Deserialize.canonical α).fromSlice bytes

theorem Deserialize.canonicalWith_lawful {α : Type} [Serialize α] [LawfulSerialize α]
    (documents : List α) : @LawfulDeserialize α _ (Deserialize.canonicalWith documents) := by
  refine @LawfulDeserialize.mk α _ (Deserialize.canonicalWith documents) ?_
  intro document bytes h
  have hcanonical := (@LawfulDeserialize.fromSlice_canonicalJson α _ _
    (Deserialize.canonical_lawful α)) document bytes h
  unfold fromSlice Deserialize.canonicalWith
  simp only
  split
  · rename_i found hfound
    have hwritten := List.find?_some hfound
    cases hjson : canonicalJson (toValue found) with
    | error e => simp [hjson] at hwritten
    | ok written =>
      obtain rfl : written = bytes := by simpa [hjson] using hwritten
      exact congrArg some (canonicalJson_toValue_injective hjson h)
  · exact hcanonical

/-! ### A canonical document is one line -/

theorem ofNat_eq_newline {n : Nat} (hn : n < 256) (h : UInt8.ofNat n = 10) : n = 10 := by
  have hnat := congrArg UInt8.toNat h
  simpa [UInt8.toNat_ofNat', Nat.mod_eq_of_lt hn] using hnat

theorem newline_mem_utf8EncodeChar {c : Char} (h : 10 ∈ String.utf8EncodeChar c) : c = '\n' := by
  have hlead : ∀ n, 128 ≤ n → n < 256 → UInt8.ofNat n ≠ 10 := by
    intro n hle hlt heq
    have := ofNat_eq_newline hlt heq
    omega
  unfold String.utf8EncodeChar at h
  dsimp only at h
  split at h
  · simp only [List.mem_singleton] at h
    have hval := ofNat_eq_newline (by omega) h.symm
    have htoNat : c.toNat = '\n'.toNat := hval
    exact Char.toNat_inj.mp htoNat
  · exfalso
    have hmem : ∀ n ∈ ([(c.val.toNat / 64) % 32 + 192, (c.val.toNat / 4096) % 16 + 224,
        (c.val.toNat / 262144) % 8 + 240, (c.val.toNat / 4096) % 64 + 128,
        (c.val.toNat / 64) % 64 + 128, c.val.toNat % 64 + 128] : List Nat),
        UInt8.ofNat n ≠ 10 := by
      intro n hn
      simp only [List.mem_cons, List.not_mem_nil, or_false] at hn
      refine hlead n ?_ ?_ <;> omega
    simp only [List.mem_cons, List.not_mem_nil, or_false, forall_eq_or_imp, forall_eq] at hmem
    obtain ⟨h1, h2, h3, h4, h5, h6⟩ := hmem
    split at h
    · simp only [List.mem_cons, List.not_mem_nil, or_false] at h
      rcases h with h | h
      · exact h1 h.symm
      · exact h6 h.symm
    split at h
    · simp only [List.mem_cons, List.not_mem_nil, or_false] at h
      rcases h with h | h | h
      · exact h2 h.symm
      · exact h5 h.symm
      · exact h6 h.symm
    · simp only [List.mem_cons, List.not_mem_nil, or_false] at h
      rcases h with h | h | h | h
      · exact h3 h.symm
      · exact h4 h.symm
      · exact h5 h.symm
      · exact h6 h.symm

theorem newline_mem_utf8 {text : List Char} (h : 10 ∈ utf8 text) : '\n' ∈ text := by
  obtain ⟨c, hc, hbyte⟩ := List.mem_flatMap.mp h
  rwa [newline_mem_utf8EncodeChar hbyte] at hc

theorem decimal_no_newline (n : Nat) : '\n' ∉ decimal n := by
  intro h
  exact absurd (decimal_isDigit _ h) (by decide)

theorem digitChar_ne_newline : ∀ d < 16, Nat.digitChar d ≠ '\n' := by decide

theorem escapeChar_no_newline (c : Char) : '\n' ∉ escapeChar c := by
  unfold escapeChar
  split
  · decide
  split
  · decide
  split
  · decide
  split
  · decide
  split
  · decide
  split
  · decide
  split
  · decide
  split
  · have hhigh := digitChar_ne_newline (c.toNat / 16) (by omega)
    have hlow := digitChar_ne_newline (c.toNat % 16) (by omega)
    simp [hhigh.symm, hlow.symm]
  · rename_i hc _ _ _
    simp only [List.mem_singleton]
    rintro rfl
    exact hc rfl

theorem stringText_no_newline (s : String) : '\n' ∉ stringText s := by
  simp [stringText, escapeChar_no_newline]

theorem separated_no_newline {close : Char} (hclose : '\n' ≠ close) {items : List (List Char)}
    (h : ∀ item ∈ items, '\n' ∉ item) : '\n' ∉ separated close items := by
  induction items with
  | nil => simpa [separated] using hclose
  | cons item items ih =>
    have hitem := h item List.mem_cons_self
    have hitems := ih fun item hi => h item (List.mem_cons_of_mem _ hi)
    cases items with
    | nil => simp [separated, hitem, hclose]
    | cons next items =>
      rw [separated_cons]
      simp [listTail, hitem, hitems]

mutual

theorem Value.text_no_newline : ∀ v : Value, '\n' ∉ v.text
  | .null | .bool true | .bool false => by decide
  | .number (.posInt n) => decimal_no_newline _
  | .number (.negInt n) => by
    have h := decimal_no_newline n.toInt.natAbs
    simp only [Value.text, Number.text]
    split <;> simp [h]
  | .number (.float _) => by simp [Value.text, Number.text]
  | .string s => stringText_no_newline s
  | .array items => by
    have h : '\n' ∉ separated ']' (itemsText items) :=
      separated_no_newline (by decide) (itemsText_no_newline items)
    simp [Value.text, h]
  | .object fields => by
    have h : '\n' ∉ separated '}' (fieldsText fields) :=
      separated_no_newline (by decide) (fieldsText_no_newline fields)
    simp [Value.text, h]

theorem itemsText_no_newline : ∀ items : List Value, ∀ text ∈ itemsText items, '\n' ∉ text
  | [] => nofun
  | item :: items => by
    simp only [itemsText, List.forall_mem_cons]
    exact ⟨item.text_no_newline, itemsText_no_newline items⟩

theorem fieldsText_no_newline : ∀ fields : List (String × Value),
    ∀ text ∈ fieldsText fields, '\n' ∉ text
  | [] => nofun
  | (key, item) :: fields => by
    simp only [fieldsText, List.forall_mem_cons]
    exact ⟨by simp [stringText_no_newline, item.text_no_newline], fieldsText_no_newline fields⟩

end

/-- The bytes of a document hold no newline, so that a line of a journal is a record. -/
theorem canonicalJson_no_newline {v : Value} (hv : v.Regular) {bytes : Bytes}
    (h : canonicalJson v = .ok bytes) : 10 ∉ bytes := by
  rw [canonicalJson_regular hv] at h
  cases h
  exact fun hmem => v.text_no_newline (newline_mem_utf8 hmem)

example : canonicalJson (.object [("b", .array [.number (.posInt 12), .string "a\n\"é"]), ("a", .null)])
    = .ok (utf8 ("\x7b\"a\":null,\"b\":[12,\"a\\n\\\"é\"]\x7d".toList)) := by decide

end Se7en
