import Mathlib.Data.List.Basic
set_option autoImplicit false

/-! The ordered evaluation of an access control list, whose rights are the bits of a mask. -/

namespace AccessControl

variable {w : Nat}

inductive Effect where
  | grant
  | deny
  | neutral
  deriving DecidableEq, Repr

/-- An entry that applies to the object and to the token at hand. -/
structure Entry (w : Nat) where
  effect : Effect
  mask : BitVec w
  deriving DecidableEq, Repr

/-- The first entry that mentions a right decides about it. -/
def evaluate : List (Entry w) → BitVec w → BitVec w → BitVec w
  | [], granted, _ => granted
  | ⟨.grant, mask⟩ :: rest, granted, denied =>
    evaluate rest (granted ||| (mask &&& ~~~denied)) denied
  | ⟨.deny, mask⟩ :: rest, granted, denied =>
    evaluate rest granted (denied ||| (mask &&& ~~~granted))
  | ⟨.neutral, _⟩ :: rest, granted, denied => evaluate rest granted denied

/-- No bit of the one mask is in the other. -/
def Avoids (mask forbidden : BitVec w) : Prop := mask &&& forbidden = 0#w

instance (mask forbidden : BitVec w) : Decidable (Avoids mask forbidden) :=
  inferInstanceAs (Decidable (_ = _))

theorem avoids_iff {mask forbidden : BitVec w} :
    Avoids mask forbidden ↔ ∀ i, mask.getLsbD i = true → forbidden.getLsbD i = false := by
  unfold Avoids
  constructor
  · intro h i hmask
    have hbit := congrArg (BitVec.getLsbD · i) h
    simpa [hmask] using hbit
  · intro h
    refine BitVec.eq_of_getLsbD_eq fun i _ => ?_
    cases hmask : mask.getLsbD i with
    | false => simp [hmask]
    | true => simp [h i hmask]

theorem Avoids.or {a b forbidden : BitVec w} (ha : Avoids a forbidden)
    (hb : Avoids b forbidden) : Avoids (a ||| b) forbidden := by
  rw [avoids_iff] at ha hb ⊢
  intro i h
  rw [BitVec.getLsbD_or, Bool.or_eq_true] at h
  rcases h with h | h
  · exact ha i h
  · exact hb i h

theorem Avoids.and {a b forbidden : BitVec w} (h : Avoids a forbidden) :
    Avoids (a &&& b) forbidden := by
  rw [avoids_iff] at h ⊢
  intro i hand
  rw [BitVec.getLsbD_and, Bool.and_eq_true] at hand
  exact h i hand.1

theorem Avoids.ite {a forbidden : BitVec w} {c : Prop} [Decidable c]
    (h : c → Avoids a forbidden) : Avoids (if c then a else 0#w) forbidden := by
  split
  · rename_i hc
    exact h hc
  · simp [Avoids]

/-- What no granting entry mentions is not granted, in whatever order the entries stand. -/
theorem evaluate_avoids {forbidden : BitVec w} {entries : List (Entry w)}
    {granted denied : BitVec w} (hgranted : Avoids granted forbidden)
    (h : ∀ entry ∈ entries, entry.effect = .grant → Avoids entry.mask forbidden) :
    Avoids (evaluate entries granted denied) forbidden := by
  induction entries generalizing granted denied with
  | nil => exact hgranted
  | cons entry rest ih =>
    obtain ⟨effect, mask⟩ := entry
    rw [List.forall_mem_cons] at h
    cases effect with
    | grant => exact ih (hgranted.or (h.1 rfl).and) h.2
    | deny => exact ih hgranted h.2
    | neutral => exact ih hgranted h.2

end AccessControl
