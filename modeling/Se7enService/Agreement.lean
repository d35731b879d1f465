import Se7enService.Faulty
set_option autoImplicit false

/-! Programs that do the same from the states of an invariant. -/

namespace Faulty

variable {σ ε μ α β : Type} {A : Event μ → Prop} {I J : σ → Prop}

/-- From every state of `I` the two programs run alike while the other party keeps to `A`. -/
def Agrees (A : Event μ → Prop) (I : σ → Prop) (p q : Prog σ ε μ α) : Prop :=
  ∀ s, I s → ∀ sch : Schedule μ, (∀ e ∈ sch, A e) → p s sch = q s sch

theorem Agrees.refl {p : Prog σ ε μ α} : Agrees A I p p := fun _ _ _ _ => rfl

theorem Agrees.mono {p q : Prog σ ε μ α} (h : Agrees A J p q) (hIJ : ∀ s, I s → J s) :
    Agrees A I p q :=
  fun s hs => h s (hIJ s hs)

theorem Agrees.bind {p q : Prog σ ε μ β} {f g : β → Prog σ ε μ α} (h : Agrees A I p q)
    (hkeeps : Keeps A I q) (hnext : ∀ b, Agrees A I (f b) (g b)) :
    Agrees A I (p >>= f) (q >>= g) := by
  intro s hs sch hsch
  have hend := hkeeps s hs sch hsch
  rw [run_bind, run_bind, h s hs sch hsch]
  rcases hq : q s sch with ⟨outcome, t, rest⟩
  rw [hq] at hend
  cases outcome with
  | ok b => exact hnext b t hend.2 rest hend.1
  | error e => rfl
  | crashed => rfl

/-- Behind the same look at the state. -/
theorem Agrees.look {g : σ → β} {f f' : β → Prog σ ε μ α}
    (h : ∀ b, Agrees A (fun s => I s ∧ g s = b) (f b) (f' b)) :
    Agrees A I (Faulty.look g >>= f) (Faulty.look g >>= f') :=
  fun s hs sch hsch => h (g s) s ⟨hs, rfl⟩ sch hsch

/-- Behind looks that see the same. -/
theorem Agrees.looks {g g' : σ → β} (h : ∀ s, I s → g s = g' s) :
    Agrees (ε := ε) A I (Faulty.look g) (Faulty.look g') := by
  intro s hs sch _
  rw [run_look, run_look, h s hs]

theorem Agrees.attempt {p q : Prog σ ε μ α} (h : Agrees A I p q) :
    Agrees A I (attempt p) (attempt q) := by
  intro s hs sch hsch
  unfold Faulty.attempt
  rw [h s hs sch hsch]

/-- What is said about the runs of one program holds of the other. -/
theorem Agrees.wp {p q : Prog σ ε μ α} {Q : α → σ → Prop} {E : ε → σ → Prop} {C : σ → Prop} {s : σ}
    (h : Agrees A I p q) (hs : I s) (hq : Wp A q Q E C s) : Wp A p Q E C s := by
  intro sch hsch
  rw [h s hs sch hsch]
  exact hq sch hsch

theorem Agrees.eq {p q : Prog σ ε μ α} (h : Agrees (fun _ => True) (fun _ => True) p q) : p = q := by
  funext s sch
  exact h s trivial sch fun _ _ => trivial

end Faulty
