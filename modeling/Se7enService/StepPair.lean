import Se7enService.Faulty
set_option autoImplicit false

/-! Calls that are made of simpler steps and report one error of their own. -/

namespace Faulty

variable {σ ε μ α β : Type}

/-- Both steps or none, behind one call; where it `splits`, a fault inside it may leave the
first one standing alone. -/
def Step.followedBy (first : Step σ ε α) (second : Step σ ε β) (fault : ε) (splits : Bool) :
    Step σ ε β where
  effect s := match first.effect s with
    | .error _ => .error fault
    | .ok (_, t) => match second.effect t with
      | .error _ => .error fault
      | .ok r => .ok r
  fault := fault
  torn _ s := half s
  failed
    | .within _, s => half s
    | _, s => s
where
  half (s : σ) : σ := match first.effect s with
    | .error _ => s
    | .ok (_, t) => match second.effect t with
      | .error _ => s
      | .ok _ => if splits then t else s

/-- The step under a condition, with this error for whatever stops it. -/
def Step.unless (st : Step σ ε α) (refuses : σ → Bool) (fault : ε) : Step σ ε α where
  effect s :=
    if refuses s then .error fault
    else match st.effect s with
      | .error _ => .error fault
      | .ok r => .ok r
  fault := fault
  torn := st.torn
  failed := st.failed

section Pair

variable {A : Event μ → Prop} {Q : β → σ → Prop} {E : ε → σ → Prop} {C : σ → Prop} {s : σ}
  {first : Step σ ε α} {second : Step σ ε β} {fault : ε} {splits : Bool}

theorem Step.followedBy_ok {b : β} {u : σ}
    (h : (first.followedBy second fault splits).effect s = .ok (b, u)) :
    ∃ a t, first.effect s = .ok (a, t) ∧ second.effect t = .ok (b, u) := by
  simp only [followedBy] at h
  split at h
  · cases h
  · rename_i a t hfirst
    split at h
    · cases h
    · rename_i hsecond
      cases h
      exact ⟨a, t, hfirst, hsecond⟩

theorem Step.followedBy_refused {e : ε}
    (h : (first.followedBy second fault splits).effect s = .error e) : e = fault := by
  simp only [followedBy] at h
  split at h
  · cases h
    rfl
  · split at h
    · cases h
      rfl
    · cases h

/-- What holds at the start, and behind the first step where it can stand alone. -/
theorem Step.followedBy_half {I : σ → Prop} (hs : I s)
    (h : ∀ a t b u, first.effect s = .ok (a, t) → second.effect t = .ok (b, u) →
      splits = true → I t) : I (followedBy.half first second splits s) := by
  unfold followedBy.half
  split
  · exact hs
  · rename_i a t hfirst
    split
    · exact hs
    · rename_i r hsecond
      cases hsplits : splits with
      | true => simpa using h a t r.1 r.2 hfirst hsecond hsplits
      | false => simpa using hs

theorem Step.Meets.followedBy (hE : E fault s) (hC : C s)
    (h : ∀ a t b u, first.effect s = .ok (a, t) → second.effect t = .ok (b, u) →
      Q b u ∧ C u ∧ (splits = true → E fault t ∧ C t)) :
    (first.followedBy second fault splits).Meets A Q E C s := by
  have hhalf : E fault (followedBy.half first second splits s) ∧
      C (followedBy.half first second splits s) :=
    followedBy_half (I := fun t => E fault t ∧ C t) ⟨hE, hC⟩ fun a t b u hfirst hsecond =>
      (h a t b u hfirst hsecond).2.2
  constructor
  · intro b u he
    obtain ⟨a, t, hfirst, hsecond⟩ := followedBy_ok he
    exact (h a t b u hfirst hsecond).1
  · intro e he
    exact followedBy_refused he ▸ hE
  · intro c _
    cases c with
    | before => exact hE
    | within n => exact hhalf.1
    | after => exact hE
  · intro c _
    cases c with
    | before => exact hC
    | within n => exact hhalf.2
    | after =>
      simp only [cut, done]
      cases he : (first.followedBy second fault splits).effect s with
      | error e => exact hC
      | ok r =>
        obtain ⟨a, t, hfirst, hsecond⟩ := followedBy_ok he
        exact (h a t r.1 r.2 hfirst hsecond).2.1

theorem Keeps.followedBy [Outside μ σ] {I : σ → Prop} (stable : Stable A I)
    (h : ∀ s a t b u, I s → first.effect s = .ok (a, t) → second.effect t = .ok (b, u) →
      I t ∧ I u) : Keeps A I (first.followedBy second fault splits).run := by
  intro s hs
  refine Wp.step_stable hs stable fun t ht => Step.Meets.followedBy ht ht ?_
  intro a t' b u hfirst hsecond
  obtain ⟨hmid, hend⟩ := h t a t' b u ht hfirst hsecond
  exact ⟨hend, hend, fun _ => ⟨hmid, hmid⟩⟩

theorem Step.Whole.unless {refuses : σ → Bool} (h : first.Whole) :
    (first.unless refuses fault).Whole := ⟨h.torn, h.failed⟩

theorem Step.unless_ok {refuses : σ → Bool} {a : α} {t : σ}
    (h : (first.unless refuses fault).effect s = .ok (a, t)) :
    refuses s = false ∧ first.effect s = .ok (a, t) := by
  simp only [Step.unless] at h
  split at h
  · cases h
  · rename_i hrefuses
    split at h
    · cases h
    · rename_i hfirst
      cases h
      exact ⟨by simpa using hrefuses, hfirst⟩

end Pair

end Faulty
