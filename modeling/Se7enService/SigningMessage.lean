import Se7enService.RegistrySet
import Se7enService.Trust
set_option autoImplicit false

/-! What a signature is computed over: `signing_message` of a canonical JSON value tells the
signing domain and the value. -/

namespace Se7en

/-- The signing domains of `lib.rs`. -/
def signingDomains : List Bytes :=
  [keyringSigningDomain, fileSetSigningDomain, registrySetSigningDomain]

/-- `signing_message(domain, &canonical_json(value)?)`. -/
def signedMessage (domain : Bytes) (value : Value) : Result Bytes := do
  let payload ← canonicalJson value
  pure (signingMessage domain payload)

/-! ### Values as `serde_json` holds them -/

mutual

/-- A floating-point number occurs in the value. -/
def Value.HasFloat : Value → Prop
  | .null | .bool _ | .string _ | .number (.posInt _) | .number (.negInt _) => False
  | .number (.float _) => True
  | .array items => ItemsHaveFloat items
  | .object fields => FieldsHaveFloat fields

def ItemsHaveFloat : List Value → Prop
  | [] => False
  | item :: items => item.HasFloat ∨ ItemsHaveFloat items

def FieldsHaveFloat : List (String × Value) → Prop
  | [] => False
  | (_, item) :: fields => item.HasFloat ∨ FieldsHaveFloat fields

end

mutual

/-- The keys of an object differ, in any order; only a negative number is held as one. -/
def Value.Keyed : Value → Prop
  | .null | .bool _ | .string _ | .number (.posInt _) | .number (.float _) => True
  | .number (.negInt n) => n < 0
  | .array items => KeyedItems items
  | .object fields => KeyedFields fields ∧ (fields.map Prod.fst).Nodup

def KeyedItems : List Value → Prop
  | [] => True
  | item :: items => item.Keyed ∧ KeyedItems items

def KeyedFields : List (String × Value) → Prop
  | [] => True
  | (_, item) :: fields => item.Keyed ∧ KeyedFields fields

end

/-- The order in which `keys.sort_unstable()` puts the fields. -/
def sortFields {α : Type} (fields : List (String × α)) : List (String × α) :=
  fields.insertionSort fun a b => a.1 ≤ b.1

mutual

/-- The value with the fields of every object in the order of a map. -/
def Value.sorted : Value → Value
  | .null => .null
  | .bool b => .bool b
  | .number n => .number n
  | .string s => .string s
  | .array items => .array (sortedItems items)
  | .object fields => .object (sortFields (sortedFields fields))

def sortedItems : List Value → List Value
  | [] => []
  | item :: items => item.sorted :: sortedItems items

def sortedFields : List (String × Value) → List (String × Value)
  | [] => []
  | (key, item) :: fields => (key, item.sorted) :: sortedFields fields

end

theorem sortedFields_eq (fields : List (String × Value)) :
    sortedFields fields = fields.map fun field => (field.1, field.2.sorted) := by
  induction fields with
  | nil => rfl
  | cons field fields ih => simp [sortedFields, ih]

section SortFields

variable {α β : Type}

theorem sortFields_perm (fields : List (String × α)) : (sortFields fields).Perm fields :=
  List.perm_insertionSort _ fields

theorem sortFields_map (f : α → β) (fields : List (String × α)) :
    (sortFields fields).map (fun field => (field.1, f field.2)) =
      sortFields (fields.map fun field => (field.1, f field.2)) :=
  List.map_insertionSort _ _ _ _ fun _ _ _ _ => Iff.rfl

theorem sortFields_pairwise {fields : List (String × α)} (h : (fields.map Prod.fst).Nodup) :
    (sortFields fields).Pairwise fun a b => a.1 < b.1 := by
  have : IsTrans (String × α) fun a b => a.1 ≤ b.1 := ⟨fun _ _ _ => le_trans⟩
  have : Std.Total fun a b : String × α => a.1 ≤ b.1 := ⟨fun a b => le_total a.1 b.1⟩
  have hle : (sortFields fields).Pairwise fun a b => a.1 ≤ b.1 := List.pairwise_insertionSort _ _
  have hne : (sortFields fields).Pairwise fun a b => a.1 ≠ b.1 := by
    rw [← List.pairwise_map]
    exact (((sortFields_perm fields).map Prod.fst).nodup_iff).2 h
  exact (hle.and hne).imp fun h => lt_of_le_of_ne h.1 h.2

/-- Two lists of fields in order with the same entries are the same list. -/
theorem sortFields_eq_iff {fields fields' : List (String × α)}
    (h : (fields.map Prod.fst).Nodup) (h' : (fields'.map Prod.fst).Nodup) :
    sortFields fields = sortFields fields' ↔ fields.Perm fields' := by
  constructor
  · intro heq
    exact (sortFields_perm fields).symm.trans (heq ▸ sortFields_perm fields')
  · intro hperm
    have hperm' : (sortFields fields).Perm (sortFields fields') :=
      (sortFields_perm fields).trans (hperm.trans (sortFields_perm fields').symm)
    exact hperm'.eq_of_pairwise (fun a b _ _ hab hba => absurd hba (lt_asymm hab))
      (sortFields_pairwise h) (sortFields_pairwise h')

end SortFields

/-- Two objects are the same map when the same keys have the same values. -/
theorem sorted_object_eq_iff {fields fields' : List (String × Value)}
    (h : (fields.map Prod.fst).Nodup) (h' : (fields'.map Prod.fst).Nodup) :
    (Value.object fields).sorted = (Value.object fields').sorted ↔
      ∀ key item, (key, item) ∈ sortedFields fields ↔ (key, item) ∈ sortedFields fields' := by
  have hkeys : ∀ fields, (sortedFields fields).map Prod.fst = fields.map Prod.fst := by
    intro fields
    simp [sortedFields_eq, List.map_map, Function.comp_def]
  have hnodup := (hkeys fields).symm ▸ h
  have hnodup' := (hkeys fields').symm ▸ h'
  simp only [Value.sorted, Value.object.injEq]
  rw [sortFields_eq_iff hnodup hnodup', List.perm_ext_iff_of_nodup hnodup.of_map hnodup'.of_map]
  simp only [Prod.forall]

/-! ### Writing a value -/

theorem regularFields_iff {fields : List (String × Value)} :
    RegularFields fields ↔ ∀ field ∈ fields, field.2.Regular := by
  induction fields with
  | nil => simp [RegularFields]
  | cons field fields ih => simp [RegularFields, ih]

mutual

theorem Value.sorted_regular : ∀ v : Value, v.Keyed → ¬ v.HasFloat → v.sorted.Regular
  | .null, _, _ | .bool _, _, _ | .string _, _, _ | .number (.posInt _), _, _ => trivial
  | .number (.negInt _), h, _ => h
  | .number (.float _), _, h => (h trivial).elim
  | .array items, h, hfloat => sortedItems_regular items h hfloat
  | .object fields, ⟨h, hkeys⟩, hfloat => by
    have hregular := sortedFields_regular fields h hfloat
    have hnodup : ((sortedFields fields).map Prod.fst).Nodup := by
      simpa [sortedFields_eq, List.map_map, Function.comp_def] using hkeys
    refine ⟨?_, sortFields_pairwise hnodup⟩
    rw [regularFields_iff] at hregular ⊢
    intro field hfield
    exact hregular field ((sortFields_perm _).mem_iff.1 hfield)

theorem sortedItems_regular : ∀ items : List Value, KeyedItems items → ¬ ItemsHaveFloat items →
    RegularItems (sortedItems items)
  | [], _, _ => trivial
  | item :: items, ⟨h, hrest⟩, hfloat =>
    ⟨item.sorted_regular h fun hitem => hfloat (.inl hitem),
      sortedItems_regular items hrest fun hitems => hfloat (.inr hitems)⟩

theorem sortedFields_regular : ∀ fields : List (String × Value), KeyedFields fields →
    ¬ FieldsHaveFloat fields → RegularFields (sortedFields fields)
  | [], _, _ => trivial
  | (_, item) :: fields, ⟨h, hrest⟩, hfloat =>
    ⟨item.sorted_regular h fun hitem => hfloat (.inl hitem),
      sortedFields_regular fields hrest fun hfields => hfloat (.inr hfields)⟩

end

mutual

/-- The order of the fields does not show in what is written. -/
theorem writeCanonical_sorted : ∀ v : Value, ¬ v.HasFloat → writeCanonical v = .ok v.sorted.text
  | .null, _ | .bool true, _ | .bool false, _ | .string _, _ => rfl
  | .number (.posInt _), _ | .number (.negInt _), _ => rfl
  | .number (.float _), h => (h trivial).elim
  | .array items, h => by
    simp [writeCanonical, writeItems_sorted items h, Value.sorted, Value.text, pure, Except.pure]
  | .object fields, h => by
    have hsort := sortFields_map Value.text (sortedFields fields)
    simp only [writeCanonical, writeFields_sorted fields h, Value.sorted, Value.text,
      fieldsText_eq, Result.ok_bind]
    change Except.ok ('{' :: separated '}' ((sortFields _).map _)) = _
    rw [← hsort, List.map_map]
    rfl

theorem writeItems_sorted : ∀ items : List Value, ¬ ItemsHaveFloat items →
    writeItems items = .ok (itemsText (sortedItems items))
  | [], _ => rfl
  | item :: items, h => by
    have hitem := writeCanonical_sorted item fun hitem => h (.inl hitem)
    have hitems := writeItems_sorted items fun hitems => h (.inr hitems)
    simp [writeItems, hitem, hitems, sortedItems, itemsText, pure, Except.pure]

theorem writeFields_sorted : ∀ fields : List (String × Value), ¬ FieldsHaveFloat fields →
    writeFields fields = .ok ((sortedFields fields).map fun field => (field.1, field.2.text))
  | [], _ => rfl
  | (key, item) :: fields, h => by
    have hitem := writeCanonical_sorted item fun hitem => h (.inl hitem)
    have hfields := writeFields_sorted fields fun hfields => h (.inr hfields)
    simp [writeFields, hitem, hfields, sortedFields, pure, Except.pure]

end

mutual

theorem writeCanonical_float : ∀ v : Value, v.HasFloat → writeCanonical v = .error floatError
  | .number (.float _), _ => rfl
  | .array items, h => by simp [writeCanonical, writeItems_float items h]
  | .object fields, h => by simp [writeCanonical, writeFields_float fields h]

theorem writeItems_float : ∀ items : List Value, ItemsHaveFloat items →
    writeItems items = .error floatError
  | item :: items, h => by
    by_cases hitem : item.HasFloat
    · simp [writeItems, writeCanonical_float item hitem]
    · have hitems := writeItems_float items (h.resolve_left hitem)
      simp [writeItems, writeCanonical_sorted item hitem, hitems]

theorem writeFields_float : ∀ fields : List (String × Value), FieldsHaveFloat fields →
    writeFields fields = .error floatError
  | (_, item) :: fields, h => by
    by_cases hitem : item.HasFloat
    · simp [writeFields, writeCanonical_float item hitem]
    · have hfields := writeFields_float fields (h.resolve_left hitem)
      simp [writeFields, writeCanonical_sorted item hitem, hfields]

end

theorem canonicalJson_sorted {v : Value} (h : ¬ v.HasFloat) :
    canonicalJson v = .ok (utf8 v.sorted.text) := by
  simp [canonicalJson, writeCanonical_sorted v h]

theorem canonicalJson_eq_error_iff {v : Value} :
    (∃ error, canonicalJson v = .error error) ↔ v.HasFloat := by
  constructor
  · rintro ⟨error, herror⟩
    by_contra h
    simp [canonicalJson_sorted h] at herror
  · intro h
    exact ⟨floatError, by simp [canonicalJson, writeCanonical_float v h]⟩

/-- Values without floating-point numbers that are written as the same bytes are the same. -/
theorem sorted_eq_of_canonicalJson {v w : Value} (hv : v.Keyed) (hw : w.Keyed)
    (hfloat : ¬ v.HasFloat) (hfloat' : ¬ w.HasFloat) (h : canonicalJson v = canonicalJson w) :
    v.sorted = w.sorted := by
  have hregular := v.sorted_regular hv hfloat
  have hregular' := w.sorted_regular hw hfloat'
  rw [canonicalJson_sorted hfloat, canonicalJson_sorted hfloat', ← canonicalJson_regular hregular,
    ← canonicalJson_regular hregular'] at h
  exact canonicalJson_injective hregular hregular' h

/-! ### Domains -/

/-- A separator that is in neither of two beginnings tells them from what follows. -/
theorem append_separator_cancel {α : Type} {separator : α} {a b rest rest' : List α}
    (ha : separator ∉ a) (hb : separator ∉ b)
    (h : a ++ separator :: rest = b ++ separator :: rest') : a = b ∧ rest = rest' := by
  induction a generalizing b with
  | nil =>
    cases b with
    | nil => simpa using h
    | cons y b =>
      simp only [List.nil_append, List.cons_append, List.cons.injEq] at h
      simp [h.1] at hb
  | cons x a ih =>
    cases b with
    | nil =>
      simp only [List.nil_append, List.cons_append, List.cons.injEq] at h
      simp [h.1] at ha
    | cons y b =>
      simp only [List.cons_append, List.cons.injEq, List.mem_cons, not_or] at h ha hb ⊢
      obtain ⟨rfl, h⟩ := h
      obtain ⟨rfl, rfl⟩ := ih ha.2 hb.2 h
      exact ⟨⟨rfl, rfl⟩, rfl⟩

theorem signingDomains_no_separator : ∀ domain ∈ signingDomains, 0 ∉ domain := by decide

theorem signingMessage_cancel {domain domain' payload payload' : Bytes}
    (hdomain : domain ∈ signingDomains) (hdomain' : domain' ∈ signingDomains)
    (h : signingMessage domain payload = signingMessage domain' payload') :
    domain = domain' ∧ payload = payload' :=
  append_separator_cancel (signingDomains_no_separator domain hdomain)
    (signingDomains_no_separator domain' hdomain') h

theorem signedMessage_unambiguous {domain domain' : Bytes} {v w : Value}
    (hdomain : domain ∈ signingDomains) (hdomain' : domain' ∈ signingDomains)
    (hv : v.Keyed) (hw : w.Keyed) :
    (¬ v.HasFloat → ¬ w.HasFloat → signedMessage domain v = signedMessage domain' w →
        domain = domain' ∧ v.sorted = w.sorted) ∧
      ((∃ error, canonicalJson v = .error error) ↔ v.HasFloat) := by
  refine ⟨fun hfloat hfloat' h => ?_, canonicalJson_eq_error_iff⟩
  simp only [signedMessage, canonicalJson_sorted hfloat, canonicalJson_sorted hfloat',
    Result.ok_bind, Result.pure_eq, Except.ok.injEq] at h
  obtain ⟨hdomains, hpayload⟩ := signingMessage_cancel hdomain hdomain' h
  refine ⟨hdomains, sorted_eq_of_canonicalJson hv hw hfloat hfloat' ?_⟩
  rw [canonicalJson_sorted hfloat, canonicalJson_sorted hfloat', hpayload]

/-- Two orders of the same fields, under one domain. -/
theorem signedMessage_unambiguous_sample :
    (Value.object [("b", .null), ("a", .array [unsigned 1])]).sorted =
      (Value.object [("a", .array [unsigned 1]), ("b", .null)]).sorted :=
  ((@signedMessage_unambiguous fileSetSigningDomain fileSetSigningDomain _ _ (by decide) (by decide)
    (by simp [Value.Keyed, KeyedItems, KeyedFields, unsigned])
    (by simp [Value.Keyed, KeyedItems, KeyedFields, unsigned])).1
    (by simp [Value.HasFloat, ItemsHaveFloat, FieldsHaveFloat, unsigned])
    (by simp [Value.HasFloat, ItemsHaveFloat, FieldsHaveFloat, unsigned]) (by decide)).2

end Se7en
