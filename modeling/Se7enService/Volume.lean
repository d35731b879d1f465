import Mathlib.Data.List.Infix
set_option autoImplicit false

/-!
A volume of files, directories and links. Entries are found along real directories; a path is
resolved as an open does it that follows every link but the last one.
-/

namespace Volume

/-- An entry with what is below it. -/
inductive Node (ν ι φ : Type) where
  | file (content : φ)
  | directory (identity : ι) (children : List (ν × Node ν ι φ))
  | link (target : List ν)

/-- An entry on its own. -/
inductive Entry (ν ι φ : Type) where
  | file (content : φ)
  | directory (identity : ι)
  | link (target : List ν)
  deriving DecidableEq

variable {ν ι φ : Type} [DecidableEq ν]

namespace Node

def entry : Node ν ι φ → Entry ν ι φ
  | .file content => .file content
  | .directory identity _ => .directory identity
  | .link target => .link target

def children : Node ν ι φ → List (ν × Node ν ι φ)
  | .directory _ children => children
  | _ => []

def child (node : Node ν ι φ) (name : ν) : Option (Node ν ι φ) :=
  (node.children.find? (·.1 = name)).map Prod.snd

def find (node : Node ν ι φ) : List ν → Option (Node ν ι φ)
  | [] => some node
  | name :: rest =>
    match node.child name with
    | none => none
    | some next => next.find rest

/-- The entry at the path, with no link on the way. -/
def entryAt (node : Node ν ι φ) (path : List ν) : Option (Entry ν ι φ) := (node.find path).map entry

/-- The names that an enumeration of the directory returns. -/
def names (node : Node ν ι φ) (path : List ν) : List ν :=
  match node.find path with
  | none => []
  | some found => found.children.map Prod.fst

/-- The tree without the entry at the path and all that is below it. -/
def erase (node : Node ν ι φ) : List ν → Node ν ι φ
  | [] => node
  | name :: rest =>
    match node with
    | .directory identity children =>
      if rest.isEmpty then .directory identity (children.filter (·.1 ≠ name))
      else .directory identity
        (children.map fun c => if c.1 = name then (c.1, c.2.erase rest) else c)
    | node => node

/-! ### Finding -/

theorem find_append (node : Node ν ι φ) (path rest : List ν) :
    node.find (path ++ rest) = (node.find path).bind (·.find rest) := by
  induction path generalizing node with
  | nil => rfl
  | cons name path ih =>
    simp only [List.cons_append, find]
    cases node.child name with
    | none => rfl
    | some next => exact ih next

theorem find_singleton (node : Node ν ι φ) (name : ν) : node.find [name] = node.child name := by
  simp only [find]
  cases node.child name <;> rfl

theorem child_eq_none {node : Node ν ι φ} {name : ν} :
    node.child name = none ↔ name ∉ node.children.map Prod.fst := by
  simp only [child, Option.map_eq_none_iff, List.find?_eq_none, List.mem_map, not_exists, not_and,
    decide_eq_true_eq]

/-- Only a directory has entries. -/
theorem directory_of_child {node next : Node ν ι φ} {name : ν} (h : node.child name = some next) :
    ∃ identity, node.entry = .directory identity := by
  cases node with
  | directory identity children => exact ⟨identity, rfl⟩
  | file content => cases h
  | link target => cases h

theorem entryAt_append_eq_none {node : Node ν ι φ} {path : List ν} (h : node.entryAt path = none)
    (rest : List ν) : node.entryAt (path ++ rest) = none := by
  have hfind : node.find path = none := Option.map_eq_none_iff.mp h
  simp [entryAt, find_append, hfind]

/-- Every entry on the way is a directory. -/
theorem entryAt_of_append {node : Node ν ι φ} {path rest : List ν} {name : ν}
    (h : (node.entryAt (path ++ name :: rest)).isSome) :
    ∃ identity, node.entryAt path = some (.directory identity) := by
  simp only [entryAt, find_append, Option.isSome_map] at h
  cases hfind : node.find path with
  | none => simp [hfind] at h
  | some found =>
    simp only [hfind, Option.bind_some, find] at h
    cases hchild : found.child name with
    | none => simp [hchild] at h
    | some next =>
      obtain ⟨identity, hidentity⟩ := directory_of_child hchild
      exact ⟨identity, by simp [entryAt, hfind, hidentity]⟩

theorem mem_names {node : Node ν ι φ} {path : List ν} {name : ν} :
    name ∈ node.names path ↔ (node.entryAt (path ++ [name])).isSome := by
  simp only [names, entryAt, find_append]
  cases hfind : node.find path with
  | none => simp
  | some found =>
    simp only [Option.bind_some, find_singleton, Option.isSome_map]
    rw [← not_iff_not, ← child_eq_none]
    simp

/-- There is nothing below an entry without names. -/
theorem entryAt_below {node : Node ν ι φ} {path rest : List ν} (h : node.names path = [])
    (hrest : rest ≠ []) : node.entryAt (path ++ rest) = none := by
  cases rest with
  | nil => exact absurd rfl hrest
  | cons name rest =>
    have hchild : node.entryAt (path ++ [name]) = none := by
      have hmem : name ∉ node.names path := by simp [h]
      simpa [mem_names] using hmem
    have hbelow := entryAt_append_eq_none hchild rest
    simpa using hbelow

/-! ### Erasing -/

theorem find?_filter_self {name : ν} (children : List (ν × Node ν ι φ)) :
    (children.filter (·.1 ≠ name)).find? (·.1 = name) = none := by
  simp [List.find?_eq_none]

theorem find?_filter_of_ne {name other : ν} (hne : other ≠ name)
    (children : List (ν × Node ν ι φ)) :
    (children.filter (·.1 ≠ name)).find? (·.1 = other) = children.find? (·.1 = other) := by
  induction children with
  | nil => rfl
  | cons c children ih =>
    by_cases hother : c.1 = other
    · have hkept : c.1 ≠ name := fun h => hne (hother.symm.trans h)
      rw [List.filter_cons_of_pos (by simpa using hkept)]
      simp [hother]
    · by_cases hname : c.1 = name <;> simp_all

theorem find?_update {name other : ν} (f : Node ν ι φ → Node ν ι φ)
    (children : List (ν × Node ν ι φ)) :
    ((children.map fun c => if c.1 = name then (c.1, f c.2) else c).find? (·.1 = other)).map
        Prod.snd =
      ((children.find? (·.1 = other)).map Prod.snd).map (if other = name then f else id) := by
  induction children with
  | nil => rfl
  | cons c children ih =>
    by_cases hother : c.1 = other
    · by_cases hname : other = name <;> simp [hother, hname]
    · by_cases hname : c.1 = name <;> simp_all

theorem entry_erase (node : Node ν ι φ) (path : List ν) : (node.erase path).entry = node.entry := by
  cases path with
  | nil => rfl
  | cons name rest =>
    cases node with
    | directory identity children =>
      simp only [erase]
      split <;> rfl
    | file content => rfl
    | link target => rfl

theorem erase_directory (identity : ι) (children : List (ν × Node ν ι φ)) (name : ν)
    (rest : List ν) : (directory identity children).erase (name :: rest) =
      if rest.isEmpty then .directory identity (children.filter (·.1 ≠ name))
      else .directory identity
        (children.map fun c => if c.1 = name then (c.1, c.2.erase rest) else c) := rfl

theorem child_directory (identity : ι) (children : List (ν × Node ν ι φ)) (name : ν) :
    (directory identity children).child name =
      (children.find? (·.1 = name)).map Prod.snd := rfl

theorem child_erase (node : Node ν ι φ) (name other : ν) (rest : List ν) :
    (node.erase (name :: rest)).child other =
      if other = name then
        if rest = [] then none else (node.child name).map (·.erase rest)
      else node.child other := by
  cases node with
  | file content => by_cases hother : other = name <;> simp [erase, child, children, hother]
  | link target => by_cases hother : other = name <;> simp [erase, child, children, hother]
  | directory identity list =>
    rw [erase_directory]
    cases rest with
    | nil =>
      rw [List.isEmpty_nil, if_pos rfl, child_directory, child_directory]
      by_cases hother : other = name
      · rw [hother, find?_filter_self, if_pos rfl, if_pos rfl]
        rfl
      · rw [find?_filter_of_ne hother, if_neg hother, child_directory]
    | cons next rest =>
      rw [List.isEmpty_cons, if_neg Bool.false_ne_true, child_directory, child_directory,
        find?_update fun c => c.erase (next :: rest)]
      by_cases hother : other = name <;> simp [hother, child_directory]

theorem entryAt_cons (node : Node ν ι φ) (name : ν) (rest : List ν) :
    node.entryAt (name :: rest) = (node.child name).bind (·.entryAt rest) := by
  simp only [entryAt, find]
  cases node.child name <;> rfl

/-- Erasing removes exactly what is at or below the path. -/
theorem entryAt_erase (node : Node ν ι φ) {path : List ν} (hpath : path ≠ []) (place : List ν) :
    (node.erase path).entryAt place = if path <+: place then none else node.entryAt place := by
  induction path generalizing node place with
  | nil => exact absurd rfl hpath
  | cons name rest ih =>
    cases place with
    | nil => simp [entryAt, find, entry_erase]
    | cons other place =>
      simp only [entryAt_cons, child_erase, List.cons_prefix_cons]
      by_cases hother : other = name
      · subst hother
        cases rest with
        | nil => simp
        | cons next rest =>
          cases hchild : node.child other with
          | none => simp
          | some below => simp [ih below (by simp) place]
      · simp [hother, Ne.symm hother]

/-! ### Resolving -/

/-- Where the first link on the way leads, or the place without one. -/
inductive Reached (ν : Type) where
  | place (path : List ν)
  | missing
  | redirected (path : List ν)
  deriving DecidableEq

/-- What an open tells about a path. -/
inductive Resolved (ν : Type) where
  | found (path : List ν)
  | missing
  | unreadable
  deriving DecidableEq

def reach (volume : Node ν ι φ) (here : List ν) : List ν → Reached ν
  | [] => .place here
  | name :: rest =>
    match volume.entryAt (here ++ [name]) with
    | none => .missing
    | some entry =>
      if rest.isEmpty then .place (here ++ [name])
      else match entry with
        | .directory _ => volume.reach (here ++ [name]) rest
        | .link target => .redirected (target ++ rest)
        | .file _ => .missing

/-- The last component is opened as it is, also where it is a link. -/
def resolve (volume : Node ν ι φ) : Nat → List ν → Resolved ν
  | links, path =>
    match volume.reach [] path with
    | .place place => .found place
    | .missing => .missing
    | .redirected path =>
      match links with
      | 0 => .unreadable
      | links + 1 => volume.resolve links path

theorem reach_append {volume : Node ν ι φ} {here path rest : List ν} {identity : ι}
    (hrest : rest ≠ [])
    (h : volume.entryAt (here ++ path) = some (.directory identity)) :
    volume.reach here (path ++ rest) = volume.reach (here ++ path) rest := by
  induction path generalizing here with
  | nil => simp
  | cons name path ih =>
    have hway : ∃ identity, volume.entryAt (here ++ [name]) = some (.directory identity) := by
      cases path with
      | nil => exact ⟨identity, h⟩
      | cons next path =>
        have hsome : (volume.entryAt ((here ++ [name]) ++ next :: path)).isSome := by simp [h]
        exact entryAt_of_append hsome
    obtain ⟨identity', hway⟩ := hway
    have hmore : (path ++ rest).isEmpty = false := by simp [hrest]
    have hnext := @ih (here ++ [name]) (by simpa using h)
    simp only [List.cons_append, reach, hway, hmore, Bool.false_eq_true, if_false, hnext]
    simp

/-- In a directory that is reached without a link, a name stands for its own entry. -/
theorem resolve_child {volume : Node ν ι φ} {path : List ν} {identity : ι}
    (h : volume.entryAt path = some (.directory identity)) (links : Nat) (name : ν) :
    volume.resolve links (path ++ [name]) =
      if (volume.entryAt (path ++ [name])).isSome then .found (path ++ [name]) else .missing := by
  have hreach : volume.reach [] (path ++ [name]) = volume.reach path [name] :=
    reach_append (by simp) h
  unfold resolve
  rw [hreach]
  simp only [reach]
  cases volume.entryAt (path ++ [name]) <;> simp

theorem resolve_directory {volume : Node ν ι φ} {path : List ν} {identity : ι}
    (h : volume.entryAt path = some (.directory identity)) (links : Nat) :
    volume.resolve links path = .found path := by
  rcases path.eq_nil_or_concat with rfl | ⟨parent, name, rfl⟩
  · unfold resolve
    simp [reach]
  · simp only [List.concat_eq_append] at h ⊢
    obtain ⟨identity', hparent⟩ := entryAt_of_append (Option.isSome_of_eq_some h)
    rw [resolve_child hparent, h]
    simp

end Node

end Volume
