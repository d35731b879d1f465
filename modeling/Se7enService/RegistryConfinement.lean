import Se7enService.OneTransaction
import Se7enService.JournalBytes
set_option autoImplicit false

/-! Which values of the registry the service writes, over all of its runs. -/

namespace Se7en
open Faulty

/-! ### Product keys -/

theorem split_map {α : Type} [DecidableEq α] {separator : α} {f : α → α}
    (h : ∀ x, f x = separator ↔ x = separator) (xs : List α) :
    split separator (xs.map f) = (split separator xs).map (List.map f) := by
  induction xs with
  | nil => rfl
  | cons x xs ih =>
    by_cases hx : x = separator
    · simp [split, ih, hx, (h separator).mpr rfl]
    · have hfx : f x ≠ separator := fun he => hx ((h x).mp he)
      simp only [List.map_cons, split, hfx, hx, if_false, ih]
      cases split separator xs <;> rfl

theorem asciiLower_separator (c : Char) : asciiLower c = '\\' ↔ c = '\\' := by
  constructor
  · exact fun h => toLower_eq h (by decide)
  · rintro rfl
    rfl

theorem eqIgnoreAsciiCase_iff {s t : String} :
    eqIgnoreAsciiCase s t = true ↔ s.toList.map asciiLower = t.toList.map asciiLower := by
  simp [eqIgnoreAsciiCase]

/-- The publishers that no scope may have. -/
def deniedPublishers : List String :=
  ["Classes", "Clients", "Policies", "RegisteredApplications", "Windows", "WOW6432Node",
    "Khronos", "Mozilla"]

/-- The key of a product, `SOFTWARE\publisher\product` or below, outside the denied namespaces. -/
def ProductKey (subkey : String) : Prop :=
  ∃ (publisher product : String) (rest : List String),
    (split '\\' subkey.toList).map String.ofList = "SOFTWARE" :: publisher :: product :: rest ∧
    (∀ part ∈ publisher :: product :: rest, part ≠ "") ∧
    (∀ denied ∈ deniedPublishers, eqIgnoreAsciiCase publisher denied = false) ∧
    (eqIgnoreAsciiCase publisher "Microsoft" = true →
      eqIgnoreAsciiCase product "Microsoft Games" = true ∧ rest ≠ []) ∧
    (eqIgnoreAsciiCase publisher "Google" = true → eqIgnoreAsciiCase product "Chrome" = false)

theorem productKeyIsAllowed_sound {publisher product : List Char} {rest : List (List Char)}
    {folded : List Char}
    (hsplit : split '\\' folded = "software".toList :: publisher :: product :: rest)
    (h : productKeyIsAllowed folded = true) :
    (∀ denied ∈ deniedPublishers, publisher ≠ denied.toList.map asciiLower) ∧
      (publisher = "microsoft".toList → product = "microsoft games".toList ∧ rest ≠ []) ∧
      (publisher = "google".toList → product ≠ "chrome".toList) := by
  unfold productKeyIsAllowed at h
  simp only [hsplit, List.map_cons, String.ofList_toList] at h
  refine ⟨?_, ?_, ?_⟩
  · intro denied hdenied hpublisher
    simp only [deniedPublishers, List.mem_cons, List.not_mem_nil, or_false] at hdenied
    rcases hdenied with rfl | rfl | rfl | rfl | rfl | rfl | rfl | rfl <;>
      · simp [hpublisher, asciiLower] at h
  · rintro rfl
    simp only [String.ofList_toList, Bool.and_eq_true, decide_eq_true_eq, List.length_map] at h
    refine ⟨by rw [← h.1, String.toList_ofList], ?_⟩
    rintro rfl
    simp at h
  · rintro rfl rfl
    simp at h

theorem validateRegistrySubkey_sound {subkey : String} (h : validateRegistrySubkey subkey = .ok ()) :
    ProductKey subkey := by
  unfold validateRegistrySubkey at h
  split at h
  · cases h
  · rename_i hcanonical
    split at h
    · cases h
    · rename_i hallowed
      simp only [Bool.or_eq_true, not_or, Bool.not_eq_true, List.any_eq_false, Bool.not_eq_true',
        Bool.not_eq_false] at hcanonical hallowed
      obtain ⟨⟨⟨⟨⟨-, hfirst⟩, -⟩, -⟩, -⟩, hparts⟩ := hcanonical
      obtain ⟨tail, htail⟩ := List.isPrefixOf_iff_prefix.mp hfirst
      have hsplit : split '\\' subkey.toList = "SOFTWARE".toList :: split '\\' tail := by
        rw [← htail]
        exact split_append (show '\\' ∉ "SOFTWARE".toList by decide) tail
      have hfolded : split '\\' (subkey.toList.map asciiLower)
          = "software".toList :: (split '\\' tail).map (List.map asciiLower) := by
        rw [split_map asciiLower_separator, hsplit]
        rfl
      rcases htailSplit : split '\\' tail with _ | ⟨publisher, _ | ⟨product, rest⟩⟩
      · exact absurd htailSplit (split_ne_nil _ _)
      · simp [productKeyIsAllowed, hfolded, htailSplit] at hallowed
      · rw [htailSplit] at hsplit hfolded
        obtain ⟨hdenied, hmicrosoft, hgoogle⟩ := productKeyIsAllowed_sound hfolded hallowed
        have hfold : ∀ (part : List Char) (name : String),
            eqIgnoreAsciiCase (String.ofList part) name = true ↔
              part.map asciiLower = name.toList.map asciiLower := by
          intro part name
          rw [eqIgnoreAsciiCase_iff, String.toList_ofList]
        refine ⟨String.ofList publisher, String.ofList product, rest.map String.ofList, ?_, ?_, ?_,
          ?_, ?_⟩
        · simp [hsplit]
        · intro part hpart
          obtain ⟨chars, hchars, rfl⟩ : ∃ chars ∈ publisher :: product :: rest,
              String.ofList chars = part := List.mem_map.mp hpart
          have hne := (hparts chars (by rw [hsplit]; exact List.mem_cons_of_mem _ hchars)).1.1
          simpa using hne
        · intro denied hmem
          rw [Bool.eq_false_iff, ne_eq, hfold]
          exact hdenied denied hmem
        · intro hname
          obtain ⟨hproduct, hrest⟩ := hmicrosoft ((hfold _ _).mp hname)
          exact ⟨(hfold _ _).mpr hproduct, by simpa using hrest⟩
        · intro hname
          rw [Bool.eq_false_iff, ne_eq, hfold]
          exact hgoogle ((hfold _ _).mp hname)

/-! ### Names and types -/

theorem checkAllowedValues_sound [Unicode] {values : List AllowedRegistryValue}
    {names : List String} (h : checkAllowedValues names values = .ok ()) :
    ∀ value ∈ values, ∀ executing ∈ executingValueNames,
      eqIgnoreAsciiCase value.name executing = false := by
  induction values generalizing names with
  | nil => nofun
  | cons value values ih =>
    unfold checkAllowedValues at h
    obtain ⟨⟨⟩, -, h⟩ := Result.bind_eq_ok.mp h
    by_cases hexecuting : executingValueNames.any (eqIgnoreAsciiCase value.name) = true <;>
      by_cases hnames : Unicode.toLowercase value.name ∈ names <;>
      simp only [hexecuting, hnames, List.contains_iff_mem, if_true, if_false, Result.throw_eq,
        Result.error_bind, reduceCtorEq, Bool.false_eq_true] at h
    refine List.forall_mem_cons.mpr ⟨?_, ih h⟩
    simpa using hexecuting

section Scopes

variable [RegistryNames]

/-- The value lies under the scope, which is a product key, by a name that its allowlist has and
that Windows starts no program for. -/
structure RegisteredRegistryScope.Covers (scope : RegisteredRegistryScope)
    (allowed : AllowedRegistryValue) (key : RegistryKey) (name : String) : Prop where
  key : key = scope.key
  product : ProductKey scope.subkey
  listed : allowed ∈ scope.allowedValues
  named : eqIgnoreAsciiCase allowed.name name = true
  inert : ∀ executing ∈ executingValueNames, eqIgnoreAsciiCase name executing = false

theorem RegisteredRegistryScope.covers [Unicode] {scope : RegisteredRegistryScope}
    {allowed : AllowedRegistryValue} {name : String} (hvalid : scope.validateStored = .ok ())
    (hallowed : allowed ∈ scope.allowedValues)
    (hname : eqIgnoreAsciiCase allowed.name name = true) :
    scope.Covers allowed scope.key name := by
  unfold validateStored at hvalid
  split at hvalid
  · cases hvalid
  · obtain ⟨⟨⟩, hsubkey, hvalues⟩ := Result.bind_eq_ok.mp hvalid
    unfold validateAllowedRegistryValues at hvalues
    split at hvalues
    · cases hvalues
    · refine ⟨rfl, validateRegistrySubkey_sound hsubkey, hallowed, hname, ?_⟩
      intro executing hexecuting
      have hinert := checkAllowedValues_sound hvalues allowed hallowed executing hexecuting
      rw [Bool.eq_false_iff, ne_eq, eqIgnoreAsciiCase_iff] at hinert ⊢
      rwa [← eqIgnoreAsciiCase_iff.mp hname]

end Scopes

/-- The Win32 type of the values of a kind. -/
def RegistryValueKind.win32 : RegistryValueKind → UInt32
  | .string => regSz
  | .dword => regDword
  | .binary => regBinary

theorem encodedRegistryValue_valueType [Base64] {value : RegistryValue}
    {stored : StoredRegistryValue} (h : encodedRegistryValue value = .ok stored) :
    stored.valueType = value.valueType.win32 := by
  cases value with
  | string name data =>
    obtain rfl := Except.ok.inj h
    rfl
  | dword name data =>
    obtain rfl := Except.ok.inj h
    rfl
  | binary name data =>
    obtain ⟨decoded, -, h⟩ := Result.bind_eq_ok.mp h
    obtain rfl := Except.ok.inj h
    rfl

/-! ### Writes -/

section Writes

variable [RegistryNames]

/-- Values for which `P` holds have been stored one after the other. -/
def Hive.Rewritten (P : RegistryKey → String → Option StoredRegistryValue → Prop) :
    Hive → Hive → Prop :=
  Relation.ReflTransGen fun hive hive' =>
    ∃ key name value, P key name value ∧ hive' = hive.set key name value

variable {P : RegistryKey → String → Option StoredRegistryValue → Prop} {hive : Hive}
  {A : Event Empty → Prop}

/-- The registry of the store has come from `hive` by such writes. -/
def Hive.Reaches (P : RegistryKey → String → Option StoredRegistryValue → Prop) (hive : Hive)
    (s : RegistryStore) : Prop :=
  hive.Rewritten P s.hive

theorem Hive.Rewritten.mono {Q : RegistryKey → String → Option StoredRegistryValue → Prop}
    {hive' : Hive} (h : hive.Rewritten P hive')
    (himp : ∀ key name value, P key name value → Q key name value) : hive.Rewritten Q hive' := by
  induction h with
  | refl => exact .refl
  | tail _ hset ih =>
    obtain ⟨key, name, value, hp, rfl⟩ := hset
    exact ih.tail ⟨key, name, value, himp key name value hp, rfl⟩

theorem Hive.Rewritten.of_eq {hive' : Hive} (h : hive' = hive) : hive.Rewritten P hive' := by
  subst h
  exact .refl

theorem Hive.Reaches.stored {s : RegistryStore} {key : RegistryKey} {name : String}
    {value : Option StoredRegistryValue} (h : hive.Reaches P s) (hp : P key name value) :
    hive.Reaches P { s with hive := s.hive.set key name value } :=
  Relation.ReflTransGen.tail h ⟨key, name, value, hp, rfl⟩

theorem reaches_storeRegistryValue {key : RegistryKey} {name : String}
    {value : Option StoredRegistryValue} (hp : P key name value) (fault : MaintenanceError) :
    Keeps Anything (hive.Reaches P) (storeRegistryValue key name value fault).run := by
  refine Keeps.step (fun m => nomatch m) (fun _ h => h.stored hp) (fun _ _ h => h) ?_
  rintro (_ | _ | _) s h
  · exact h
  · exact h.stored hp
  · exact h.stored hp

theorem reaches_restoreReversed {key : RegistryKey} :
    ∀ {values : List RegistryTransactionValue},
      (∀ value ∈ values, P key value.name value.previous) →
      Keeps Anything (hive.Reaches P) (restoreReversed key values)
  | [], _ => Keeps.pure ()
  | value :: values, h => by
    obtain ⟨hvalue, hvalues⟩ := List.forall_mem_cons.mp h
    exact (reaches_storeRegistryValue hvalue _).bind fun _ => reaches_restoreReversed hvalues

theorem reaches_restoreRegistryValues {key : RegistryKey} {values : List RegistryTransactionValue}
    (h : ∀ value ∈ values, P key value.name value.previous) :
    Keeps Anything (hive.Reaches P) (restoreRegistryValues key values) :=
  reaches_restoreReversed fun value hvalue => h value (List.mem_reverse.mp hvalue)

theorem reaches_setRegistryValues [Base64] {key : RegistryKey} :
    ∀ {values : List RegistryValue},
      (∀ value ∈ values, ∀ stored, encodedRegistryValue value = .ok stored →
        P key value.name (some stored)) →
      Keeps Anything (hive.Reaches P) (setRegistryValues key values)
  | [], _ => Keeps.pure ()
  | value :: values, h => by
    obtain ⟨hvalue, hvalues⟩ := List.forall_mem_cons.mp h
    refine Keeps.bind ?_ fun _ => reaches_setRegistryValues hvalues
    unfold setRegistryValue
    cases hencoded : encodedRegistryValue value with
    | error e => exact Keeps.throw_bind e _
    | ok stored =>
      exact reaches_storeRegistryValue (hvalue stored hencoded) _

/-- A program on another part of the store. -/
theorem reaches_part {τ α : Type} {part : Part RegistryStore τ}
    {p : Prog τ MaintenanceError Empty α} (h : ∀ t s, (part.set t s).hive = s.hive) :
    Keeps Anything (hive.Reaches P) (part.run p) := by
  refine Keeps.part (J := fun _ => True) (fun _ _ => Wp.any) (fun _ _ => trivial) ?_
  intro s t hs _
  unfold Hive.Reaches
  rwa [h]

theorem reaches_saveAccepted : Keeps Anything (hive.Reaches P) saveAccepted :=
  (Keeps.look _).bind fun _ => reaches_part fun _ _ => rfl

theorem reaches_writeRegistryTransaction (journal : RegistryTransactionJournal) :
    Keeps Anything (hive.Reaches P) (writeRegistryTransaction journal) :=
  (Keeps.lift _).bind fun _ => reaches_part fun _ _ => rfl

theorem reaches_removeRegistryTransaction :
    Keeps Anything (hive.Reaches P) removeRegistryTransaction :=
  reaches_part fun _ _ => rfl

theorem reaches_accepted (accepted : GenerationRegistry) :
    Keeps Anything (hive.Reaches P) (assign ({ · with accepted }) : StoreProg Unit) :=
  Keeps.assign fun _ h => h

theorem reaches_acceptGeneration (scopeId : String) (record : GenerationRecord) :
    Keeps Anything (hive.Reaches P) (acceptGeneration scopeId record) :=
  (Keeps.look _).bind fun _ => (Keeps.lift _).bind fun _ =>
    (reaches_accepted _).bind fun _ => reaches_saveAccepted

theorem reaches_undoRegistrySet {key : RegistryKey} {journal : RegistryTransactionJournal}
    (previous : GenerationRegistry)
    (h : ∀ value ∈ journal.values, P key value.name value.previous) :
    Keeps Anything (hive.Reaches P) (undoRegistrySet previous key journal) :=
  (reaches_accepted _).bind fun _ => reaches_saveAccepted.attempt.bind fun _ =>
    (reaches_restoreRegistryValues h).attempt.bind fun _ =>
      reaches_removeRegistryTransaction.attempt.bind fun _ => Keeps.pure _

/-- A call stores the values of its set, and puts back what it has found. -/
theorem wp_apply_reaches [Base64] [Unicode] (scope : RegisteredRegistryScope)
    (manifest : VerifiedRegistrySet) (s : RegistryStore)
    (hset : ∀ value ∈ manifest.registrySet.values, ∀ stored,
      encodedRegistryValue value = .ok stored → P scope.key value.name (some stored))
    (hrestore : ∀ value ∈ manifest.registrySet.values,
      P scope.key value.name (s.hive.get scope.key value.name)) :
    Wp Anything (applyRegistrySetTransaction scope manifest) (fun _ => s.hive.Reaches P)
      (fun _ => s.hive.Reaches P) (s.hive.Reaches P) s := by
  unfold applyRegistrySetTransaction
  refine Wp.bind ((wp_createRegistryTransaction scope manifest.registrySet.values s).mono ?_ ?_ ?_)
  · rintro _ t ⟨rfl, rfl, -⟩
    have hjournal : ∀ value ∈ (scope.journal manifest.registrySet.values t.hive).values,
        P scope.key value.name value.previous := List.forall_mem_map.mpr hrestore
    refine (?_ : Keeps Anything (t.hive.Reaches P) _) t .refl
    refine (reaches_writeRegistryTransaction _).bind fun _ =>
      (reaches_setRegistryValues hset).attempt.bind ?_
    rintro (error | ⟨⟩)
    · refine ((reaches_restoreRegistryValues hjournal).bind fun _ =>
        reaches_removeRegistryTransaction).attempt.bind ?_
      rintro (_ | ⟨⟩)
      · exact Keeps.throw _
      · exact Keeps.throw _
    · refine (Keeps.look _).bind fun previous => (reaches_acceptGeneration _ _).attempt.bind ?_
      rintro (error | ⟨⟩)
      · refine (reaches_undoRegistrySet previous hjournal).bind fun undone => ?_
        cases undone <;> exact Keeps.throw _
      · refine (reaches_writeRegistryTransaction _).attempt.bind ?_
        rintro (_ | ⟨⟩)
        · refine (reaches_undoRegistrySet previous hjournal).bind fun undone => ?_
          cases undone <;> exact Keeps.throw _
        · exact reaches_removeRegistryTransaction.bind fun _ => Keeps.pure _
  · rintro _ t rfl
    exact .refl
  · rintro t rfl
    exact .refl

/-! ### Recovery -/

variable [Unicode] [Deserialize RegistryTransactionJournal]

omit [RegistryNames] [Unicode] [Deserialize RegistryTransactionJournal] in
theorem checkSnapshots_sound {scope : RegisteredRegistryScope}
    {values : List RegistryTransactionValue} {totalSize : Nat}
    (h : checkSnapshots scope totalSize values = .ok ()) :
    ∀ value ∈ values, ∃ allowed ∈ scope.allowedValues,
      eqIgnoreAsciiCase allowed.name value.name = true := by
  induction values generalizing totalSize with
  | nil => nofun
  | cons value values ih =>
    unfold checkSnapshots at h
    obtain ⟨⟨⟩, hallowed, h⟩ := Result.bind_eq_ok.mp h
    obtain ⟨⟨⟩, -, h⟩ := Result.bind_eq_ok.mp h
    refine List.forall_mem_cons.mpr ⟨?_, ih h⟩
    simpa using hallowed

omit [Deserialize RegistryTransactionJournal] in
theorem validateRegistryTransaction_sound {journal : RegistryTransactionJournal}
    {scopes : RegistryScopeRegistry} {scope : RegisteredRegistryScope}
    (h : validateRegistryTransaction journal scopes = .ok scope) :
    scope ∈ scopes.scopes.items ∧ ∀ value ∈ journal.values, ∃ allowed,
      scope.Covers allowed scope.key value.name := by
  have hfound := (validateRegistryTransaction_scope h).1
  have hmem : scope ∈ scopes.scopes.items := by
    unfold RegistryScopeRegistry.resolveRegistered at hfound
    split at hfound
    · cases hfound
    · rename_i found hget
      obtain rfl := Except.ok.inj hfound
      exact List.mem_of_find?_eq_some hget
  have hchecked : checkSnapshots scope 0 journal.values = .ok () := by
    unfold validateRegistryTransaction at h
    obtain ⟨⟨⟩, -, h⟩ := Result.bind_eq_ok.mp h
    obtain ⟨⟨⟩, -, h⟩ := Result.bind_eq_ok.mp h
    obtain ⟨found, -, h⟩ := Result.bind_eq_ok.mp h
    obtain ⟨⟨⟩, -, h⟩ := Result.bind_eq_ok.mp h
    obtain ⟨⟨⟩, hchecked, h⟩ := Result.bind_eq_ok.mp h
    obtain rfl := Except.ok.inj h
    exact hchecked
  refine ⟨hmem, fun value hvalue => ?_⟩
  obtain ⟨allowed, hallowed, hname⟩ := checkSnapshots_sound hchecked value hvalue
  exact ⟨allowed, RegisteredRegistryScope.covers (scopes.valid scope hmem) hallowed hname⟩

/-- A recovery writes only under the scopes that it is given, whatever the journal holds. -/
theorem reaches_recoverRegistryTransaction (scopes : RegistryScopeRegistry)
    (h : ∀ scope ∈ scopes.scopes.items, ∀ allowed key name value,
      scope.Covers allowed key name → P key name value) :
    Keeps Anything (hive.Reaches P) (recoverRegistryTransaction scopes) := by
  unfold recoverRegistryTransaction
  refine (reaches_part fun _ _ => rfl).bind fun _ => (Keeps.look _).bind fun missing => ?_
  cases missing with
  | true => exact Keeps.pure ()
  | false =>
    refine (Keeps.look _).bind fun document => ?_
    cases document with
    | none => exact Keeps.throw _
    | some bytes =>
      refine (Keeps.lift _).bind fun journal s hs => Wp.bind (Wp.lift ?_ fun _ _ => hs)
      intro scope hvalid
      obtain ⟨hmem, hvalues⟩ := validateRegistryTransaction_sound hvalid
      by_cases hphase : journal.phase = .prepared
      · simp only [hphase, if_true]
        refine Wp.bind (Wp.step_alone (.of_ok .plain (t := s) (a := scope.key) rfl ?_ hs hs hs))
        refine ((reaches_restoreRegistryValues ?_).bind fun _ =>
          reaches_removeRegistryTransaction) s hs
        intro value hvalue
        obtain ⟨allowed, hcovers⟩ := hvalues value hvalue
        exact h scope hmem allowed _ _ _ hcovers
      · simp only [hphase, if_false]
        exact reaches_removeRegistryTransaction s hs

theorem reaches_recoverRegistryState [Deserialize GenerationRegistryDocument]
    (scopes : RegistryScopeRegistry)
    (h : ∀ scope ∈ scopes.scopes.items, ∀ allowed key name value,
      scope.Covers allowed key name → P key name value) :
    Keeps Anything (hive.Reaches P) (recoverRegistryState scopes) :=
  (reaches_part fun _ _ => rfl).bind fun _ => (reaches_accepted _).bind fun _ =>
    reaches_recoverRegistryTransaction scopes h

end Writes

end Se7en

namespace Se7en.Windows
open Faulty

section Service

variable [Externals]

/-- What a step may store in the registry: a call writes the scope that its caller owns, and
gives each value the type that the allowlist asks for or what it has found there; a start writes
the scopes that are registered. -/
def Daemon.Permits (d : Daemon) (action : Action) (key : RegistryKey) (name : String)
    (value : Option StoredRegistryValue) : Prop :=
  match action with
  | .request call (.applyRegistrySet scopeId _) _ _ =>
    ∃ caller scope allowed, call.caller = .ok caller ∧
      scope ∈ d.service.registryScopes.scopes.items ∧ scope.scopeId = scopeId ∧
      scope.ownerSid = caller.sid ∧ scope.Covers allowed key name ∧
      (value = d.service.registry.hive.get key name ∨
        ∃ stored, value = some stored ∧ stored.valueType = allowed.valueType.win32)
  | .start _ _ _ _ =>
    ∃ registered scope allowed,
      RegistryScopeRegistry.stored.start d.service.registryScopeFile = .ok registered ∧
      scope ∈ registered.scopes.items ∧ scope.Covers allowed key name
  | _ => False

/-- The registry of the service has come from `hive` by writes for which `P` holds. -/
def ServiceState.Reaches (P : RegistryKey → String → Option StoredRegistryValue → Prop)
    (hive : Hive) (t : ServiceState) : Prop :=
  hive.Reaches P t.registry

variable {P : RegistryKey → String → Option StoredRegistryValue → Prop}

/-- What the set of a call holds lies in the scope that it has been verified for. -/
theorem VerifiedForScope.covers {scope : RegisteredRegistryScope}
    {previous : Option GenerationRecord} {manifest : VerifiedRegistrySet}
    (h : VerifiedForScope scope previous manifest) (hvalid : scope.validateStored = .ok ()) :
    ∀ value ∈ manifest.registrySet.values, ∃ allowed,
      scope.Covers allowed scope.key value.name ∧ allowed.valueType = value.valueType := by
  obtain ⟨keyringBytes, keyring, bytes, -, hverified⟩ := h
  have hacceptance := (verifyRegistrySet_sound hverified).1
  have hvalues := (validateRegistrySet_sound manifest.valid).2.2.2.2.2.2
  intro value hvalue
  obtain ⟨allowed, hallowed, hname, htype⟩ := hvalues.allowed value hvalue
  rw [hacceptance] at hallowed
  exact ⟨allowed, RegisteredRegistryScope.covers hvalid hallowed hname, htype⟩

theorem wp_applyRegistrySet_reaches {call : Call} {caller : CallerIdentity}
    {scope : RegisteredRegistryScope} {s : ServiceState} (hvalid : scope.validateStored = .ok ())
    (hP : ∀ allowed name value, scope.Covers allowed scope.key name →
      (value = s.registry.hive.get scope.key name ∨
        ∃ stored, value = some stored ∧ stored.valueType = allowed.valueType.win32) →
      P scope.key name value) :
    Wp Anything (applyRegistrySet call caller scope)
      (fun _ => ServiceState.Reaches P s.registry.hive)
      (fun _ => ServiceState.Reaches P s.registry.hive)
      (ServiceState.Reaches P s.registry.hive) s := by
  have hsame := (SameBut.refl s).drop
  have hstart : ServiceState.Reaches P s.registry.hive (dropCompleted s) := by
    unfold ServiceState.Reaches
    rw [hsame.registry]
    exact .refl
  unfold applyRegistrySet
  refine Wp.bind (Wp.assign (Wp.bind (Wp.look (Wp.bind (Wp.lift ?_ fun _ _ => hstart)))))
  rintro ⟨⟩ -
  refine Wp.bind (Wp.lift ?_ fun _ _ => hstart)
  rintro ⟨manifestCaller, manifestBytes⟩ -
  refine Wp.bind (Wp.lift ?_ fun _ _ => hstart)
  rintro ⟨⟩ -
  refine Wp.bind (Wp.lift ?_ fun _ _ => hstart)
  intro keyringBytes _
  refine Wp.bind (Wp.lift ?_ fun _ _ => hstart)
  intro keyring hkeyring
  refine Wp.bind (Wp.look (Wp.bind (Wp.lift ?_ fun _ _ => hstart)))
  intro previous _
  refine Wp.bind (Wp.lift ?_ fun _ _ => hstart)
  intro manifest hmanifest
  have hcovers := VerifiedForScope.covers
    ⟨keyringBytes, keyring, manifestBytes, hkeyring, hmanifest⟩ hvalid
  refine Wp.bind (Wp.assign (Wp.bind (Wp.part ?_)))
  have hwrites : Wp Anything (applyRegistrySetTransaction scope manifest)
      (fun _ => s.registry.hive.Reaches P) (fun _ => s.registry.hive.Reaches P)
      (s.registry.hive.Reaches P) s.registry := by
    refine wp_apply_reaches scope manifest s.registry ?_ ?_
    · intro value hvalue stored hstored
      obtain ⟨allowed, hallowed, htype⟩ := hcovers value hvalue
      refine hP allowed _ _ hallowed (.inr ⟨stored, rfl, ?_⟩)
      rw [htype]
      exact encodedRegistryValue_valueType hstored
    · intro value hvalue
      obtain ⟨allowed, hallowed, -⟩ := hcovers value hvalue
      exact hP allowed _ _ hallowed (.inl rfl)
  have hregistry : registry.get
      { dropCompleted s with log := (dropCompleted s).log ++ [.applies caller scope manifest] }
      = s.registry := hsame.registry
  rw [hregistry]
  exact hwrites.mono (fun _ _ ht => Wp.pure ht) (fun _ _ ht => ht) (fun _ ht => ht)

/-- A request other than an apply leaves the registry alone. -/
theorem Processed.registry_eq {call : Call} {s t : ServiceState} {preparing : Bool}
    {request : Request} {outcome : Outcome MaintenanceError Dispatch}
    (h : Processed call s preparing request outcome t)
    (hrequest : ∀ scopeId manifestPath, request ≠ .applyRegistrySet scopeId manifestPath) :
    t.registry = s.registry := by
  have hrefresh := sameBut_refresh s
  cases h with
  | kept _ h =>
    rcases h with rfl | rfl | rfl
    · rfl
    · exact hrefresh.registry
    · exact hrefresh.drop.registry
  | registersRoot => exact hrefresh.registry
  | unregistersRoot => exact hrefresh.registry
  | registersScope => exact hrefresh.registry
  | unregistersScope => exact hrefresh.registry
  | applies => exact absurd rfl (hrequest _ _)
  | preparing => exact hrefresh.drop.registry
  | committing => exact hrefresh.registry

theorem wp_processRequest_reaches {d : Daemon} {call : Call} {scopeId manifestPath : String}
    {preparing : Bool} {spawned : Bool} {sch : Schedule Empty}
    (hP : P = d.Permits (.request call (.applyRegistrySet scopeId manifestPath) spawned sch)) :
    Wp Anything (processRequest call (.applyRegistrySet scopeId manifestPath) preparing)
      (fun _ => ServiceState.Reaches P d.service.registry.hive)
      (fun _ => ServiceState.Reaches P d.service.registry.hive)
      (ServiceState.Reaches P d.service.registry.hive) d.service := by
  have hsame := sameBut_refresh d.service
  have hstart : ServiceState.Reaches P d.service.registry.hive (refreshActiveJob d.service) := by
    unfold ServiceState.Reaches
    rw [hsame.registry]
    exact .refl
  unfold processRequest
  refine Wp.bind (Wp.lift ?_ fun _ _ => .refl)
  rintro ⟨⟩ -
  refine Wp.bind (Wp.assign (Wp.bind (Wp.lift ?_ fun _ _ => hstart)))
  intro caller hcaller
  refine Wp.bind (Wp.look (Wp.bind (Wp.lift ?_ fun _ _ => hstart)))
  intro authorization hdecision
  have hauthorized := authorizeRequest_sound hdecision
  clear hdecision
  simp only [id, hsame.roots, hsame.registryScopes] at hauthorized
  cases authorization <;> first | exact hauthorized.elim | skip
  rename_i scope
  obtain ⟨hget, howner⟩ := RegistryScopeRegistry.resolveOwned_eq_ok hauthorized
  obtain ⟨hmem, hid⟩ := KeyedList.get?_eq_some.mp hget
  have happly : Wp Anything (applyRegistrySet call caller scope)
      (fun _ => ServiceState.Reaches P d.service.registry.hive)
      (fun _ => ServiceState.Reaches P d.service.registry.hive)
      (ServiceState.Reaches P d.service.registry.hive) (refreshActiveJob d.service) := by
    have hregistry := hsame.registry
    rw [← hregistry]
    refine wp_applyRegistrySet_reaches (d.service.registryScopes.valid scope hmem) ?_
    intro allowed name value hcovers hvalue
    rw [hregistry] at hvalue
    subst hP
    exact ⟨caller, scope, allowed, hcaller, hmem, hid, howner.symm, hcovers, hvalue⟩
  exact Wp.bind (happly.mono (fun _ _ ht => Wp.pure ht) (fun _ _ ht => ht) (fun _ ht => ht))

theorem wp_loadServiceState_reaches {s : ServiceState}
    (hP : ∀ registered,
      RegistryScopeRegistry.stored.start s.registryScopeFile = .ok registered →
      ∀ scope ∈ registered.scopes.items, ∀ allowed key name value,
        scope.Covers allowed key name → P key name value) :
    Wp Anything loadServiceState (fun _ => ServiceState.Reaches P s.registry.hive)
      (fun _ => ServiceState.Reaches P s.registry.hive)
      (ServiceState.Reaches P s.registry.hive) s := by
  unfold loadServiceState
  refine Wp.bind (Wp.look (Wp.bind (Wp.lift ?_ fun _ _ => .refl)))
  intro roots _
  refine Wp.bind (Wp.assign (Wp.bind (Wp.part ?_)))
  refine Wp.any.mono ?_ (fun _ _ _ => .refl) (fun _ _ => .refl)
  intro generations file _
  refine Wp.bind (Wp.assign (Wp.bind (Wp.look (Wp.bind (Wp.lift ?_ fun _ _ => .refl)))))
  intro registered hregistered
  refine Wp.bind (Wp.assign (Wp.bind (Wp.part ?_)))
  exact (reaches_recoverRegistryState registered (hP registered hregistered) _ .refl).mono
    (fun _ _ ht => Wp.assign ht) (fun _ _ ht => ht) (fun _ ht => ht)

theorem Replayed.registry {jobs : List String} {s t : ServiceState}
    {outcome : Outcome MaintenanceError Unit} (h : Replayed jobs s outcome t) :
    t.registry = s.registry := by
  cases h <;> rfl

theorem Daemon.afterRequest_registry (d : Daemon) (s : ServiceState) (spawned : Bool)
    (outcome : Outcome MaintenanceError Dispatch) :
    (d.afterRequest s spawned outcome).service.registry = s.registry := by
  cases outcome with
  | error e => rfl
  | crashed => rfl
  | ok dispatch =>
    cases dispatch with
    | respond response => rfl
    | prepare work => cases spawned <;> rfl

theorem Daemon.afterStart_registry (d : Daemon) (disk : Disk) (s : ServiceState)
    (outcome : Outcome MaintenanceError Unit) :
    (d.afterStart disk s outcome).service.registry = s.registry := by
  cases outcome <;> rfl

theorem Daemon.serveRequest_reaches (d : Daemon) (call : Call) (request : Request)
    (spawned : Bool) (sch : Schedule Empty) :
    d.service.registry.hive.Reaches (d.Permits (.request call request spawned sch))
      (d.serveRequest call request spawned sch).service.registry := by
  unfold serveRequest
  rcases hrun : processRequest call request d.preparing.isSome d.service sch with
    ⟨outcome, s, rest⟩
  simp only [afterRequest_registry]
  by_cases hrequest : ∃ scopeId manifestPath, request = .applyRegistrySet scopeId manifestPath
  · obtain ⟨scopeId, manifestPath, rfl⟩ := hrequest
    have hreaches := @wp_processRequest_reaches _ _ d call scopeId manifestPath
      d.preparing.isSome spawned sch rfl
    have hend := hreaches.result (fun _ _ => trivial) hrun
    cases outcome <;> exact hend
  · have hprocessed := processed_of_run hrun
    rw [hprocessed.registry_eq fun scopeId manifestPath h => hrequest ⟨scopeId, manifestPath, h⟩]
    exact .refl

theorem Daemon.recoverServiceState_reaches (policy : Policy) (d : Daemon)
    (loading : Schedule Empty) (policyReady : Result Unit) (recovery : Schedule Intrusion)
    (replaying : Schedule Empty) :
    d.service.registry.hive.Reaches
      (d.Permits (.start loading policyReady recovery replaying))
      (d.recoverServiceState policy loading policyReady recovery replaying).service.registry := by
  unfold recoverServiceState
  rcases hload : loadServiceState d.service loading with ⟨outcome, s, rest⟩
  have hloaded := (wp_loadServiceState_reaches
    (P := d.Permits (.start loading policyReady recovery replaying))
    fun registered hregistered scope hscope allowed _ _ _ hcovers =>
      ⟨registered, scope, allowed, hregistered, hscope, hcovers⟩).result
    (fun _ _ => trivial) hload
  cases outcome with
  | error e => exact hloaded
  | crashed => exact hloaded
  | ok _ =>
    rcases hrecover : recoverJobs policy policyReady d.disk recovery with ⟨outcome, disk, rest⟩
    cases outcome with
    | error e => exact hloaded
    | crashed => exact hloaded
    | ok result =>
      simp only
      rcases hreplay : replayGenerations result.committedJobs s replaying with ⟨outcome, t, rest⟩
      have hreplayed : t.registry = s.registry := by
        have hend := (wp_replayGenerations _ s).result (fun _ _ => trivial) hreplay
        cases outcome <;> exact hend.registry
      rw [afterStart_registry, hreplayed]
      exact hloaded

theorem Daemon.Stepped.registry_alone {policy : Policy} {d t : Daemon} {action : Action}
    (h : Stepped policy d action t)
    (hrequest : ∀ call request spawned sch, action ≠ .request call request spawned sch)
    (hstart : ∀ loading policyReady recovery replaying,
      action ≠ .start loading policyReady recovery replaying) :
    t.service.registry = d.service.registry := by
  cases h with
  | idle => rfl
  | request => exact absurd rfl (hrequest _ _ _ _)
  | released => rfl
  | finished hrunning hpreparing hreceiver hfinished =>
    rename_i result s
    cases result <;> cases hfinished <;> rfl
  | prepareEnded => rfl
  | commitEnded => rfl
  | stopped => rfl
  | startFailed => exact absurd rfl (hstart _ _ _ _)
  | started => exact absurd rfl (hstart _ _ _ _)
  | outside => rfl

/-- Each step of the service writes what is permitted to it. -/
theorem Daemon.step_rewritten (policy : Policy) (d : Daemon) (action : Action) :
    d.service.registry.hive.Rewritten (d.Permits action)
      (d.step policy action).service.registry.hive := by
  have halone := (d.step_stepped policy action).registry_alone
  cases action with
  | request call request spawned sch =>
    simp only [step]
    split
    · exact d.serveRequest_reaches call request spawned sch
    · exact .refl
  | start loading policyReady recovery replaying =>
    simp only [step]
    split
    · exact .refl
    · exact d.recoverServiceState_reaches policy loading policyReady recovery replaying
  | wake sch | prepareEnds call sch | commitEnds worker sch | stop | outside path entry node =>
    exact .of_eq (congrArg RegistryStore.hive (halone (by simp) (by simp)))

/-- What a service that has come from `d` to `t` has written, and what its next step writes. -/
structure Daemon.Confined (policy : Policy) (d t : Daemon) : Prop where
  step : ∀ action, t.service.registry.hive.Rewritten (t.Permits action)
    (t.step policy action).service.registry.hive
  run : d.service.registry.hive.Rewritten
    (fun key name value => ∃ u action, Runs policy (fun _ _ => True) d u ∧
      u.Permits action key name value) t.service.registry.hive

/-- Over a whole run every value lies in a scope of the step that has written it: under the key
of a product, by a name of the allowlist that starts no program. -/
theorem registry_writes_confined (policy : Policy) {d t : Daemon}
    (hruns : Daemon.Runs policy (fun _ _ => True) d t) : d.Confined policy t := by
  refine ⟨t.step_rewritten policy, ?_⟩
  induction hruns with
  | refl => exact .refl
  | tail hbefore hstep ih =>
    rename_i u _
    obtain ⟨action, -, rfl⟩ := hstep
    refine ih.trans ((u.step_rewritten policy action).mono ?_)
    intro key name value hpermits
    exact ⟨u, action, hbefore, hpermits⟩

end Service

section Levels

def levelSet : RegistrySet where
  generation := 1
  keyId := "release"
  kind := registrySetKind
  productId := "games"
  schema := registrySetSchema
  scopeId := "games"
  signature := String.ofList (List.replicate 128 '3')
  values := [.dword "Level" 1, .dword "Lives" 3]

@[reducible] noncomputable def levelExternals : Externals := SampleDocuments.externals {
  keyrings := [releaseKeyring]
  registrySets := [levelSet]
  digests := [
    (textOf releaseKeyring, [91, 205, 80, 160, 182, 78, 84, 254, 22, 8, 94, 29, 114, 31, 230, 99,
      184, 7, 13, 240, 24, 166, 60, 15, 107, 255, 248, 3, 65, 186, 86, 8]),
    (textOf levelSet, [156, 171, 175, 211, 9, 12, 8, 200, 196, 99, 46, 116, 14, 153, 151, 238, 131,
      125, 147, 172, 35, 71, 222, 96, 17, 75, 98, 53, 216, 236, 29, 7])] }

attribute [local instance] levelExternals

def levelCall : Call := { administratorCall with
  manifest := .ok (textOf levelSet)
  keyring := .ok (textOf releaseKeyring) }

def levelKey : RegistryKey := ⟨.registry64, "SOFTWARE\\PUBLISHER\\GAME"⟩

noncomputable def levelsSet : Daemon :=
  (Daemon.fresh (fun _ _ => none) (sampleDisk fun _ => none)).after quietPolicy [
    .start [] (.ok ()) [] [],
    .request levelCall (.registerRegistryScope "games" "games" .registry64
      "SOFTWARE\\Publisher\\Game" [⟨"Level", .dword⟩, ⟨"lives", .dword⟩]) true [],
    .request levelCall (.applyRegistrySet "games" "") true []]

theorem registry_writes_confined_levels :
    levelsSet.service.registry.hive.get levelKey "Level" = some ⟨[1, 0, 0, 0], regDword⟩ ∧
      (Daemon.fresh (fun _ _ => none) (sampleDisk fun _ => none)).Confined quietPolicy
        levelsSet := by
  refine ⟨by decide +kernel, registry_writes_confined quietPolicy ?_⟩
  exact Daemon.after_runs ⟨trivial, trivial, trivial, trivial⟩

end Levels

end Se7en.Windows
