import Se7enService.RegistryTransaction
set_option autoImplicit false

/-! What the value writes of a registry transaction do to the registry, from any cut. -/

namespace Se7en
open Faulty

section Values

variable [RegistryNames]

abbrev HiveItem := String × Option StoredRegistryValue

/-- Values stored one after the other. -/
def Hive.store (key : RegistryKey) : List HiveItem → Hive → Hive
  | [], hive => hive
  | item :: items, hive => store key items (hive.set key item.1 item.2)

def Named (key : RegistryKey) (names : List String) (k : RegistryKey) (n : String) : Prop :=
  k = key ∧ ∃ name ∈ names, n = RegistryNames.fold name

/-- Only the named values of one key differ. -/
def Hive.Apart (key : RegistryKey) (names : List String) (hive₀ hive : Hive) : Prop :=
  ∀ k n, ¬ Named key names k n → hive k n = hive₀ k n

variable {key : RegistryKey} {names : List String} {hive hive₀ : Hive} {items : List HiveItem}

theorem Hive.Apart.refl : Hive.Apart key names hive hive := fun _ _ _ => rfl

theorem Hive.Apart.set {name : String} {value : Option StoredRegistryValue}
    (h : Hive.Apart key names hive₀ hive) (hname : name ∈ names) :
    Hive.Apart key names hive₀ (hive.set key name value) := by
  intro k n hn
  have hother : ¬ (k = key ∧ n = RegistryNames.fold name) := fun hk => hn ⟨hk.1, name, hname, hk.2⟩
  simpa [Hive.set, hother] using h k n hn

theorem Hive.Apart.store (h : Hive.Apart key names hive₀ hive)
    (hnames : ∀ item ∈ items, item.1 ∈ names) :
    Hive.Apart key names hive₀ (Hive.store key items hive) := by
  induction items generalizing hive with
  | nil => exact h
  | cons item items ih =>
    simp only [List.forall_mem_cons] at hnames
    exact ih (h.set hnames.1) hnames.2

/-- What has been done to the stored values before does not matter. -/
theorem Hive.store_congr (h : Hive.Apart key (items.map Prod.fst) hive₀ hive) :
    Hive.store key items hive = Hive.store key items hive₀ := by
  induction items generalizing hive hive₀ with
  | nil =>
    funext k n
    exact h k n fun hn => by simp [Named] at hn
  | cons item items ih =>
    refine ih fun k n hn => ?_
    by_cases hitem : k = key ∧ n = RegistryNames.fold item.1
    · simp [Hive.set, hitem]
    · simp only [Hive.set, hitem, if_false]
      refine h k n fun hnamed => ?_
      obtain ⟨rfl, name, hname, rfl⟩ := hnamed
      rcases List.mem_cons.mp hname with rfl | hname
      · exact hitem ⟨rfl, rfl⟩
      · exact hn ⟨rfl, name, hname, rfl⟩

theorem Hive.store_own (h : ∀ item ∈ items, item.2 = hive.get key item.1) :
    Hive.store key items hive = hive := by
  induction items with
  | nil => rfl
  | cons item items ih =>
    simp only [List.forall_mem_cons] at h
    have hset : hive.set key item.1 item.2 = hive := by
      funext k n
      by_cases hitem : k = key ∧ n = RegistryNames.fold item.1
      · obtain ⟨rfl, rfl⟩ := hitem
        simp [Hive.set, h.1, Hive.get]
      · simp [Hive.set, hitem]
    rw [Hive.store, hset]
    exact ih h.2

/-- Storing the recorded values again gives the recorded registry back, whatever has
happened to these values in between. -/
theorem Hive.store_recorded (hrecorded : ∀ item ∈ items, item.2 = hive₀.get key item.1)
    (h : Hive.Apart key (items.map Prod.fst) hive₀ hive) : Hive.store key items hive = hive₀ :=
  (Hive.store_congr h).trans (Hive.store_own hrecorded)

theorem Hive.get_store_of_not_mem {name : String}
    (h : ∀ item ∈ items, RegistryNames.fold item.1 ≠ RegistryNames.fold name) :
    (Hive.store key items hive).get key name = hive.get key name := by
  induction items generalizing hive with
  | nil => rfl
  | cons item items ih =>
    simp only [List.forall_mem_cons] at h
    have hne : ¬ RegistryNames.fold name = RegistryNames.fold item.1 := fun he => h.1 he.symm
    exact (ih h.2).trans (by simp [Hive.get, Hive.set, hne])

theorem Hive.get_store
    (h : items.Pairwise fun a b => RegistryNames.fold a.1 ≠ RegistryNames.fold b.1) :
    ∀ item ∈ items, (Hive.store key items hive).get key item.1 = item.2 := by
  induction items generalizing hive with
  | nil => nofun
  | cons item items ih =>
    obtain ⟨hitem, hitems⟩ := List.pairwise_cons.mp h
    refine List.forall_mem_cons.mpr ⟨?_, fun other hother => ih hitems other hother⟩
    have hrest : ∀ other ∈ items, RegistryNames.fold other.1 ≠ RegistryNames.fold item.1 :=
      fun other hother he => hitem other hother he.symm
    exact (Hive.get_store_of_not_mem hrest).trans (by simp [Hive.get, Hive.set])

/-! ### The programs -/

variable {A : Event Empty → Prop} {s : RegistryStore}

def RegistryStore.stored (s : RegistryStore) (key : RegistryKey) (items : List HiveItem) :
    RegistryStore :=
  { s with hive := Hive.store key items s.hive }

@[simp] theorem RegistryStore.stored_nil : s.stored key [] = s := rfl

theorem RegistryStore.stored_append (items more : List HiveItem) :
    (s.stored key items).stored key more = s.stored key (items ++ more) := by
  induction items generalizing s with
  | nil => rfl
  | cons item items ih =>
    exact ih (s := { s with hive := s.hive.set key item.1 item.2 })

/-- A part of the items has been stored, from the front. -/
def RegistryStore.Partly (key : RegistryKey) (items : List HiveItem) (s t : RegistryStore) : Prop :=
  ∃ k, t = s.stored key (items.take k)

theorem RegistryStore.Partly.start : Partly key items s s := ⟨0, rfl⟩

theorem RegistryStore.Partly.cons {item : HiveItem} {t : RegistryStore}
    (h : Partly key items (s.stored key [item]) t) : Partly key (item :: items) s t := by
  obtain ⟨k, rfl⟩ := h
  exact ⟨k + 1, by rw [RegistryStore.stored_append]; rfl⟩

theorem RegistryStore.Partly.apart {t : RegistryStore} (h : Partly key items s t) :
    Hive.Apart key (items.map Prod.fst) s.hive t.hive := by
  obtain ⟨n, rfl⟩ := h
  exact Hive.Apart.refl.store fun _ hitem => List.mem_map_of_mem (List.mem_of_mem_take hitem)

theorem RegistryStore.Partly.transaction {t : RegistryStore} (h : Partly key items s t) :
    t.transaction = s.transaction := by
  obtain ⟨n, rfl⟩ := h
  rfl

theorem wp_storeRegistryValue (key : RegistryKey) (name : String)
    (value : Option StoredRegistryValue) (fault : MaintenanceError) :
    Wp A (storeRegistryValue key name value fault).run
      (fun _ t => t = s.stored key [(name, value)])
      (fun e t => e = fault ∧ (∃ c, A (.fail c)) ∧ (t = s ∨ t = s.stored key [(name, value)]))
      (fun t => t = s ∨ t = s.stored key [(name, value)]) s := by
  refine Wp.step_alone ⟨?_, nofun, ?_, ?_⟩
  · rintro a t ⟨⟩
    rfl
  · intro c hc
    refine ⟨rfl, ⟨c, hc⟩, ?_⟩
    cases c with
    | before => exact .inl rfl
    | within n => exact .inr rfl
    | after => exact .inr rfl
  · intro c _
    cases c with
    | before => exact .inl rfl
    | within n => exact .inl rfl
    | after => exact .inr rfl

theorem RegistryStore.partly_of_first {item : HiveItem} {t : RegistryStore}
    (h : t = s ∨ t = s.stored key [item]) : Partly key (item :: items) s t := by
  rcases h with rfl | rfl
  · exact .start
  · exact Partly.cons .start

/-- The recorded values as the items that restoring stores. -/
def recordedItems (values : List RegistryTransactionValue) : List HiveItem :=
  values.map fun value => (value.name, value.previous)

theorem wp_restoreReversed (values : List RegistryTransactionValue) (s : RegistryStore) :
    Wp A (restoreReversed key values) (fun _ t => t = s.stored key (recordedItems values))
      (fun _ t => (∃ c, A (.fail c)) ∧ s.Partly key (recordedItems values) t)
      (fun t => s.Partly key (recordedItems values) t) s := by
  induction values generalizing s with
  | nil => exact Wp.pure rfl
  | cons value values ih =>
    refine Wp.bind ((wp_storeRegistryValue key value.name value.previous _).mono ?_ ?_ ?_)
    · rintro _ t rfl
      exact (ih _).mono (fun _ _ h => by rw [h, RegistryStore.stored_append]; rfl)
        (fun _ _ h => ⟨h.1, .cons h.2⟩) (fun _ h => .cons h)
    · exact fun _ _ h => ⟨h.2.1, RegistryStore.partly_of_first h.2.2⟩
    · exact fun _ h => RegistryStore.partly_of_first h

variable [Base64]

def encodedItem (value : RegistryValue) : HiveItem :=
  (value.name, (encodedRegistryValue value).toOption)

omit [RegistryNames] in
theorem encodedRegistryValue_of_valid {value : RegistryValue}
    (h : validateRegistryData value = .ok ()) :
    ∃ stored, encodedRegistryValue value = .ok stored := by
  cases value with
  | string name data => exact ⟨_, rfl⟩
  | dword name data => exact ⟨_, rfl⟩
  | binary name data =>
    obtain ⟨decoded, hdecoded, -⟩ := Result.bind_eq_ok.mp h
    exact ⟨_, by simp only [encodedRegistryValue, hdecoded, Result.ok_bind]; rfl⟩

theorem wp_setRegistryValues (values : List RegistryValue) (s : RegistryStore)
    (h : ∀ value ∈ values, validateRegistryData value = .ok ()) :
    Wp A (setRegistryValues key values) (fun _ t => t = s.stored key (values.map encodedItem))
      (fun e t => e = .new .registryIo "registry value cannot be written" ∧ (∃ c, A (.fail c)) ∧
        s.Partly key (values.map encodedItem) t)
      (fun t => s.Partly key (values.map encodedItem) t) s := by
  induction values generalizing s with
  | nil => exact Wp.pure rfl
  | cons value values ih =>
    simp only [List.forall_mem_cons] at h
    obtain ⟨stored, hstored⟩ := encodedRegistryValue_of_valid h.1
    have hitem : (value.name, some stored) = encodedItem value := by
      simp [encodedItem, hstored, Except.toOption]
    have hlift : Wp A (setRegistryValue key value) (fun _ t => t = s.stored key [encodedItem value])
        (fun e t => e = .new .registryIo "registry value cannot be written" ∧ (∃ c, A (.fail c)) ∧
          (t = s ∨ t = s.stored key [encodedItem value]))
        (fun t => t = s ∨ t = s.stored key [encodedItem value]) s := by
      rw [setRegistryValue, hstored, ← hitem]
      exact Wp.bind (Wp.pure (wp_storeRegistryValue key value.name (some stored) _))
    refine Wp.bind (hlift.mono ?_ ?_ ?_)
    · rintro _ t rfl
      exact (ih _ h.2).mono (fun _ _ h => by rw [h, RegistryStore.stored_append]; rfl)
        (fun _ _ h => ⟨h.1, h.2.1, .cons h.2.2⟩) (fun _ h => .cons h)
    · exact fun _ _ h => ⟨h.1, h.2.1, RegistryStore.partly_of_first h.2.2⟩
    · exact fun _ h => RegistryStore.partly_of_first h

end Values

end Se7en
