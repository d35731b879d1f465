import Mathlib.Data.List.Sort
import Mathlib.Order.Lattice
set_option autoImplicit false

/-!
Finite maps whose values carry their own key, as sorted lists: two of them are
equal exactly when they hold the same values.
-/

structure KeyedList (α κ : Type) [LinearOrder κ] (key : α → κ) where
  items : List α
  sorted : items.Pairwise (fun a b => key a < key b)

namespace KeyedList

variable {α κ : Type} [LinearOrder κ] {key : α → κ}

instance [DecidableEq α] : DecidableEq (KeyedList α κ key) := fun m m' =>
  decidable_of_iff (m.items = m'.items) <| by cases m; cases m'; simp

@[ext] theorem ext {m m' : KeyedList α κ key} (h : m.items = m'.items) : m = m' := by
  cases m; cases m'; cases h; rfl

def empty : KeyedList α κ key := ⟨[], .nil⟩

def get? (m : KeyedList α κ key) (k : κ) : Option α := m.items.find? (key · = k)

def containsKey (m : KeyedList α κ key) (k : κ) : Bool := m.items.any (key · = k)

def remove (m : KeyedList α κ key) (k : κ) : KeyedList α κ key where
  items := m.items.filter (key · ≠ k)
  sorted := m.sorted.filter _

theorem orderedInsert_sorted {l : List α} {a : α} (h : l.Pairwise (fun a b => key a < key b))
    (hne : ∀ b ∈ l, key b ≠ key a) :
    (l.orderedInsert (key · ≤ key ·) a).Pairwise (fun a b => key a < key b) := by
  induction l with
  | nil => simp
  | cons b l ih =>
    have hb := hne b List.mem_cons_self
    have hl := ih h.of_cons fun c hc => hne c (List.mem_cons_of_mem _ hc)
    rw [List.pairwise_cons] at h
    by_cases hle : key a ≤ key b
    · have hlt : key a < key b := lt_of_le_of_ne hle hb.symm
      rw [List.orderedInsert_cons, if_pos hle, List.pairwise_cons, List.pairwise_cons]
      refine ⟨?_, h⟩
      intro c hc
      rcases List.mem_cons.mp hc with rfl | hc
      · exact hlt
      · exact hlt.trans (h.1 c hc)
    · rw [List.orderedInsert_cons, if_neg hle, List.pairwise_cons]
      refine ⟨?_, hl⟩
      intro c hc
      rcases (List.mem_orderedInsert _).mp hc with rfl | hc
      · exact lt_of_not_ge hle
      · exact h.1 c hc

/-- Insert a value under its key, in place of the one that is there. -/
def insert (m : KeyedList α κ key) (a : α) : KeyedList α κ key where
  items := (m.remove (key a)).items.orderedInsert (key · ≤ key ·) a
  sorted := orderedInsert_sorted (m.remove (key a)).sorted (by simp [remove])

theorem containsKey_eq_false {m : KeyedList α κ key} {k : κ} :
    m.containsKey k = false ↔ ∀ a ∈ m.items, key a ≠ k := by
  simp [containsKey]

theorem remove_of_not_containsKey {m : KeyedList α κ key} {k : κ} (h : m.containsKey k = false) :
    m.remove k = m := by
  ext1
  rw [containsKey_eq_false] at h
  simpa [remove] using h

theorem mem_insert {m : KeyedList α κ key} {a b : α} :
    b ∈ (m.insert a).items ↔ b = a ∨ (b ∈ m.items ∧ key b ≠ key a) := by
  simp [insert, remove]

theorem length_insert {m : KeyedList α κ key} {a : α} (h : m.containsKey (key a) = false) :
    (m.insert a).items.length = m.items.length + 1 := by
  simp [insert, remove_of_not_containsKey h, List.orderedInsert_length]

theorem length_insert_le {m : KeyedList α κ key} {a : α} {n : Nat}
    (h : m.containsKey (key a) = false) (hroom : ¬ m.items.length ≥ n) :
    (m.insert a).items.length ≤ n := by
  rw [length_insert h]
  omega

theorem forall_insert {m : KeyedList α κ key} {a : α} {p : α → Prop} (ha : p a)
    (hm : ∀ b ∈ m.items, p b) : ∀ b ∈ (m.insert a).items, p b := by
  intro b hb
  rcases mem_insert.mp hb with rfl | ⟨hb, -⟩
  · exact ha
  · exact hm b hb

theorem length_remove_le (m : KeyedList α κ key) (k : κ) :
    (m.remove k).items.length ≤ m.items.length :=
  List.length_filter_le _ _

theorem get?_eq_some {m : KeyedList α κ key} {k : κ} {a : α} :
    m.get? k = some a ↔ a ∈ m.items ∧ key a = k := by
  constructor
  · intro h
    have hkey := List.find?_some h
    exact ⟨List.mem_of_find?_eq_some h, by simpa using hkey⟩
  · rintro ⟨hmem, rfl⟩
    cases hfind : m.get? (key a) with
    | none =>
      have hnone := List.find?_eq_none.mp hfind a hmem
      simp at hnone
    | some b =>
      have hkey : key b = key a := by simpa using List.find?_some hfind
      have hb := List.mem_of_find?_eq_some hfind
      have hnodup : (m.items.map key).Nodup :=
        (List.pairwise_map.mpr m.sorted).imp fun hlt => hlt.ne
      exact congrArg some (List.inj_on_of_nodup_map hnodup hb hmem hkey)

theorem get?_insert_self {m : KeyedList α κ key} {a : α} : (m.insert a).get? (key a) = some a :=
  get?_eq_some.mpr ⟨mem_insert.mpr (.inl rfl), rfl⟩

theorem get?_insert_of_ne {m : KeyedList α κ key} {a : α} {k : κ} (h : k ≠ key a) :
    (m.insert a).get? k = m.get? k := by
  ext b
  simp only [get?_eq_some, mem_insert]
  constructor
  · rintro ⟨rfl | ⟨hmem, -⟩, rfl⟩
    · exact absurd rfl h
    · exact ⟨hmem, rfl⟩
  · rintro ⟨hmem, rfl⟩
    exact ⟨.inr ⟨hmem, h⟩, rfl⟩

theorem get?_remove_self {m : KeyedList α κ key} {k : κ} : (m.remove k).get? k = none := by
  simp [get?, remove, List.find?_eq_none]

theorem get?_remove_of_ne {m : KeyedList α κ key} {k l : κ} (h : k ≠ l) :
    (m.remove l).get? k = m.get? k := by
  ext b
  simp only [get?_eq_some, remove, List.mem_filter, decide_eq_true_eq]
  constructor
  · exact fun hb => ⟨hb.1.1, hb.2⟩
  · rintro ⟨hmem, rfl⟩
    exact ⟨⟨hmem, h⟩, rfl⟩

/-- A value beyond the last key is put at the end. -/
theorem insert_last {m : KeyedList α κ key} {a : α} (h : ∀ b ∈ m.items, key b < key a) :
    m.containsKey (key a) = false ∧ (m.insert a).items = m.items ++ [a] := by
  have habsent : m.containsKey (key a) = false := by
    rw [containsKey_eq_false]
    exact fun b hb => (h b hb).ne
  refine ⟨habsent, ?_⟩
  simp only [insert, remove_of_not_containsKey habsent]
  clear habsent
  generalize m.items = l at h
  induction l with
  | nil => rfl
  | cons b l ih =>
    have hb := h b List.mem_cons_self
    rw [List.orderedInsert_cons, if_neg (not_le_of_gt hb),
      ih fun c hc => h c (List.mem_cons_of_mem _ hc), List.cons_append]

end KeyedList
