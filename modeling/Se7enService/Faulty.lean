import Mathlib.Logic.Relation
set_option autoImplicit false

/-!
Programs whose steps can fail, be cut short by a crash, or be interleaved with
another party. A run is driven by a schedule, so "every crash point" is a
quantifier over schedules and every run can be evaluated.
-/

namespace Faulty

/-- Where a fault hits a step: before its effect, inside it, or after it. -/
inductive Cut where
  | before
  | within : Nat → Cut
  | after
  deriving DecidableEq, Repr

/-- What happens at one step of a run. An exhausted schedule goes on without faults. -/
inductive Event (μ : Type) where
  | go : Event μ
  | fail : Cut → Event μ
  | crash : Cut → Event μ
  | outside : μ → Event μ
  deriving DecidableEq, Repr

abbrev Schedule (μ : Type) := List (Event μ)

inductive Outcome (ε α : Type) where
  | ok : α → Outcome ε α
  | error : ε → Outcome ε α
  | crashed : Outcome ε α
  deriving DecidableEq, Repr

def Outcome.isError {ε α : Type} : Outcome ε α → Bool
  | .error _ => true
  | _ => false

def Outcome.isOk {ε α : Type} : Outcome ε α → Bool
  | .ok _ => true
  | _ => false

/-- The moves of the other party. -/
class Outside (μ σ : Type) where
  act : μ → σ → σ

instance (σ : Type) : Outside Empty σ := ⟨fun m => nomatch m⟩

/-- One operation on the state. `effect` is the whole operation with its own
refusals, which change nothing; `torn n` is what a crash inside it leaves behind,
and `failed c` what a failure leaves that is reported to the program. -/
structure Step (σ ε α : Type) where
  effect : σ → Except ε (α × σ)
  fault : ε
  torn : Nat → σ → σ := fun _ s => s
  failed : Cut → σ → σ := fun _ s => s

variable {σ ε μ α β : Type}

/-- The state after the whole effect; a refused step leaves the state alone. -/
def Step.done (st : Step σ ε α) (s : σ) : σ :=
  match st.effect s with
  | .ok (_, s') => s'
  | .error _ => s

def Step.cut (st : Step σ ε α) : Cut → σ → σ
  | .before, s => s
  | .within n, s => st.torn n s
  | .after, s => st.done s

abbrev Result (σ ε μ α : Type) := Outcome ε α × σ × Schedule μ

def Prog (σ ε μ α : Type) := σ → Schedule μ → Result σ ε μ α

def Step.proceed (st : Step σ ε α) (s : σ) (rest : Schedule μ) : Result σ ε μ α :=
  match st.effect s with
  | .ok (a, s') => (.ok a, s', rest)
  | .error e => (.error e, s, rest)

def Step.run [Outside μ σ] (st : Step σ ε α) : Prog σ ε μ α
  | s, [] => st.proceed s []
  | s, .outside m :: rest => st.run (Outside.act m s) rest
  | s, .go :: rest => st.proceed s rest
  | s, .fail c :: rest => (.error st.fault, st.failed c s, rest)
  | s, .crash c :: rest => (.crashed, st.cut c s, rest)

def Prog.pure (a : α) : Prog σ ε μ α := fun s sch => (.ok a, s, sch)

def Prog.bind (p : Prog σ ε μ α) (f : α → Prog σ ε μ β) : Prog σ ε μ β := fun s sch =>
  match p s sch with
  | (.ok a, s', rest) => f a s' rest
  | (.error e, s', rest) => (.error e, s', rest)
  | (.crashed, s', rest) => (.crashed, s', rest)

instance : Monad (Prog σ ε μ) where
  pure := Prog.pure
  bind := Prog.bind

/-- Return an error without touching the state. -/
def throw (e : ε) : Prog σ ε μ α := fun s sch => (.error e, s, sch)

/-- Look at the state without touching it. -/
def look (f : σ → α) : Prog σ ε μ α := fun s sch => (.ok (f s), s, sch)

/-- Change what the program itself keeps in memory; nothing can go wrong there. -/
def assign (f : σ → σ) : Prog σ ε μ Unit := fun s sch => (.ok (), f s, sch)

/-- The answer of a pure computation. -/
def lift : Except ε α → Prog σ ε μ α
  | .ok a => Prog.pure a
  | .error e => throw e

/-- Observe the error of a program instead of propagating it; a crash still ends the run. -/
def attempt (p : Prog σ ε μ α) : Prog σ ε μ (Except ε α) := fun s sch =>
  match p s sch with
  | (.ok a, s', rest) => (.ok (.ok a), s', rest)
  | (.error e, s', rest) => (.ok (.error e), s', rest)
  | (.crashed, s', rest) => (.crashed, s', rest)

/-- A part of the state that a program of its own works on. -/
structure Part (σ τ : Type) where
  get : σ → τ
  set : τ → σ → σ

def Part.run {τ : Type} (part : Part σ τ) (p : Prog τ ε μ α) : Prog σ ε μ α := fun s sch =>
  match p (part.get s) sch with
  | (o, t, rest) => (o, part.set t s, rest)

/-! ### Evaluating a run -/

section Evaluation

variable {s : σ} {sch : Schedule μ} {e : ε} {a : α} {p : Prog σ ε μ β} {f : β → Prog σ ε μ α}

theorem run_bind : (p >>= f) s sch =
    match p s sch with
    | (.ok b, s', rest) => f b s' rest
    | (.error e, s', rest) => (.error e, s', rest)
    | (.crashed, s', rest) => (.crashed, s', rest) := rfl

theorem run_pure : (Pure.pure a : Prog σ ε μ α) s sch = (.ok a, s, sch) := rfl

theorem run_throw : (throw e : Prog σ ε μ α) s sch = (.error e, s, sch) := rfl

theorem run_look {g : σ → β} : (look g : Prog σ ε μ β) s sch = (.ok (g s), s, sch) := rfl

theorem run_assign {g : σ → σ} : (assign g : Prog σ ε μ Unit) s sch = (.ok (), g s, sch) := rfl

theorem run_lift_ok : (lift (.ok a) : Prog σ ε μ α) s sch = (.ok a, s, sch) := rfl

theorem run_lift_error : (lift (.error e) : Prog σ ε μ α) s sch = (.error e, s, sch) := rfl

end Evaluation

instance : LawfulMonad (Prog σ ε μ) := LawfulMonad.mk' _
  (by
    intro α p
    funext s sch
    change Prog.bind p _ s sch = p s sch
    simp only [Prog.bind]
    rcases p s sch with ⟨a | e | _, t, rest⟩ <;> rfl)
  (fun _ _ => rfl)
  (by
    intro α β γ p f g
    funext s sch
    simp only [run_bind]
    rcases p s sch with ⟨a | e | _, t, rest⟩ <;> rfl)

theorem lift_bind (x : Except ε β) (f : β → Except ε α) :
    (lift (x >>= f) : Prog σ ε μ α) = lift x >>= fun b => lift (f b) := by
  cases x <;> rfl

theorem lift_pure (a : α) : (lift (Pure.pure a) : Prog σ ε μ α) = Pure.pure a := rfl

/-- The three ways a run can end, with the events that are left over. -/
def Ends (A : Event μ → Prop) (Q : α → σ → Prop) (E : ε → σ → Prop) (C : σ → Prop)
    (r : Result σ ε μ α) : Prop :=
  (∀ e ∈ r.2.2, A e) ∧
    match r.1 with
    | .ok a => Q a r.2.1
    | .error e => E e r.2.1
    | .crashed => C r.2.1

/-- Every run from `s` whose events are all admitted by `A` ends with `Q`, with the
error postcondition `E`, or crashes in a state that satisfies `C`. -/
def Wp (A : Event μ → Prop) (p : Prog σ ε μ α) (Q : α → σ → Prop) (E : ε → σ → Prop)
    (C : σ → Prop) (s : σ) : Prop :=
  ∀ sch : Schedule μ, (∀ e ∈ sch, A e) → Ends A Q E C (p s sch)

section Rules

variable {A : Event μ → Prop} {Q : α → σ → Prop} {E : ε → σ → Prop} {C : σ → Prop} {s : σ}

/-- The rule read at one run. -/
theorem Wp.result {p : Prog σ ε μ α} (h : Wp A p Q E C s) {sch rest : Schedule μ}
    {o : Outcome ε α} {t : σ} (hs : ∀ e ∈ sch, A e) (hr : p s sch = (o, t, rest)) :
    match o with
    | .ok a => Q a t
    | .error e => E e t
    | .crashed => C t := by
  have hend := (h sch hs).2
  rw [hr] at hend
  cases o <;> exact hend

theorem Wp.pure {a : α} (h : Q a s) : Wp A (Pure.pure a : Prog σ ε μ α) Q E C s :=
  fun _ hs => ⟨hs, h⟩

theorem Wp.throw {e : ε} (h : E e s) : Wp A (throw e : Prog σ ε μ α) Q E C s :=
  fun _ hs => ⟨hs, h⟩

theorem Wp.look {f : σ → α} (h : Q (f s) s) : Wp A (look f : Prog σ ε μ α) Q E C s :=
  fun _ hs => ⟨hs, h⟩

theorem Wp.assign {f : σ → σ} {Q : Unit → σ → Prop} (h : Q () (f s)) :
    Wp A (assign f : Prog σ ε μ Unit) Q E C s :=
  fun _ hs => ⟨hs, h⟩

theorem Wp.part {τ : Type} {part : Part σ τ} {p : Prog τ ε μ α}
    (h : Wp A p (fun a t => Q a (part.set t s)) (fun e t => E e (part.set t s))
      (fun t => C (part.set t s)) (part.get s)) : Wp A (part.run p) Q E C s := by
  intro sch hs
  have hp := h sch hs
  unfold Part.run
  rcases hr : p (part.get s) sch with ⟨o, t, rest⟩
  rw [hr] at hp
  cases o <;> exact hp

theorem Wp.lift {x : Except ε α} (hok : ∀ a, x = .ok a → Q a s)
    (herr : ∀ e, x = .error e → E e s) : Wp A (lift x : Prog σ ε μ α) Q E C s := by
  cases x with
  | ok a => exact Wp.pure (hok a rfl)
  | error e => exact Wp.throw (herr e rfl)

theorem Wp.bind {p : Prog σ ε μ β} {f : β → Prog σ ε μ α}
    (h : Wp A p (fun b s' => Wp A (f b) Q E C s') E C s) : Wp A (p >>= f) Q E C s := by
  intro sch hs
  have hp := h sch hs
  change Ends A Q E C (Prog.bind p f s sch)
  unfold Prog.bind
  rcases hr : p s sch with ⟨o, s', rest⟩
  rw [hr] at hp
  cases o with
  | ok b => exact hp.2 rest hp.1
  | error e => exact hp
  | crashed => exact hp

theorem Wp.attempt {p : Prog σ ε μ α} {Q : Except ε α → σ → Prop}
    (h : Wp A p (fun a s' => Q (.ok a) s') (fun e s' => Q (.error e) s') C s) :
    Wp A (attempt p) Q E C s := by
  intro sch hs
  have hp := h sch hs
  unfold Faulty.attempt
  rcases hr : p s sch with ⟨o, s', rest⟩
  rw [hr] at hp
  cases o <;> exact hp

theorem Wp.mono {p : Prog σ ε μ α} {Q' : α → σ → Prop} {E' : ε → σ → Prop} {C' : σ → Prop}
    (h : Wp A p Q' E' C' s) (hq : ∀ a t, Q' a t → Q a t) (he : ∀ e t, E' e t → E e t)
    (hc : ∀ t, C' t → C t) : Wp A p Q E C s := by
  intro sch hs
  obtain ⟨hrest, hend⟩ := h sch hs
  refine ⟨hrest, ?_⟩
  cases ho : (p s sch).1 with
  | ok a => simp only [ho] at hend ⊢; exact hq a _ hend
  | error e => simp only [ho] at hend ⊢; exact he e _ hend
  | crashed => simp only [ho] at hend ⊢; exact hc _ hend

theorem Wp.and {p : Prog σ ε μ α} {Q' : α → σ → Prop} {E' : ε → σ → Prop} {C' : σ → Prop}
    (h : Wp A p Q E C s) (h' : Wp A p Q' E' C' s) :
    Wp A p (fun a t => Q a t ∧ Q' a t) (fun e t => E e t ∧ E' e t) (fun t => C t ∧ C' t) s := by
  intro sch hs
  obtain ⟨hrest, hend⟩ := h sch hs
  obtain ⟨-, hend'⟩ := h' sch hs
  refine ⟨hrest, ?_⟩
  cases ho : (p s sch).1 with
  | ok a => simp only [ho] at hend hend' ⊢; exact ⟨hend, hend'⟩
  | error e => simp only [ho] at hend hend' ⊢; exact ⟨hend, hend'⟩
  | crashed => simp only [ho] at hend hend' ⊢; exact ⟨hend, hend'⟩

/-- Nothing is asked of the run. -/
theorem Wp.any {p : Prog σ ε μ α} :
    Wp (fun _ => True) p (fun _ _ => True) (fun _ _ => True) (fun _ => True) s := by
  intro sch _
  refine ⟨fun _ _ => trivial, ?_⟩
  cases (p s sch).1 <;> trivial

/-- What holds of every end holds of the end of each run. -/
theorem Wp.anyEnd {p : Prog σ ε μ α} {I : σ → Prop}
    (h : Wp (fun _ => True) p (fun _ => I) (fun _ => I) I s) (sch : Schedule μ) : I (p s sch).2.1 := by
  have hend := (h sch (fun _ _ => trivial)).2
  cases hrun : (p s sch).1 with
  | ok a => simpa [hrun] using hend
  | error e => simpa [hrun] using hend
  | crashed => simpa [hrun] using hend

/-- What has to hold of one step once the other party has stopped moving. -/
structure Step.Meets (A : Event μ → Prop) (st : Step σ ε α) (Q : α → σ → Prop)
    (E : ε → σ → Prop) (C : σ → Prop) (s : σ) : Prop where
  ok : ∀ a s', st.effect s = .ok (a, s') → Q a s'
  refused : ∀ e, st.effect s = .error e → E e s
  failed : ∀ c, A (.fail c) → E st.fault (st.failed c s)
  crashed : ∀ c, A (.crash c) → C (st.cut c s)

theorem Step.Meets.proceed {st : Step σ ε α} (h : st.Meets A Q E C s) {rest : Schedule μ}
    (hs : ∀ e ∈ rest, A e) : Ends A Q E C (st.proceed s rest) := by
  unfold Step.proceed
  cases he : st.effect s with
  | ok r => exact ⟨hs, h.ok r.1 r.2 he⟩
  | error e => exact ⟨hs, h.refused e he⟩

/-- The step rule under interference: an assertion that the other party's moves
keep, and under which the step does what is asked. -/
theorem Wp.step_stable [Outside μ σ] {st : Step σ ε α} {I : σ → Prop} (hI : I s)
    (stable : ∀ m t, A (.outside m) → I t → I (Outside.act m t))
    (meets : ∀ t, I t → st.Meets A Q E C t) : Wp A st.run Q E C s := by
  intro sch
  induction sch generalizing s with
  | nil => intro hs; exact (meets s hI).proceed hs
  | cons e rest ih =>
    intro hs
    have hrest : ∀ e ∈ rest, A e := fun e he => hs e (List.mem_cons_of_mem _ he)
    have he := hs e List.mem_cons_self
    cases e with
    | go => exact (meets s hI).proceed hrest
    | fail c => exact ⟨hrest, (meets s hI).failed c he⟩
    | crash c => exact ⟨hrest, (meets s hI).crashed c he⟩
    | outside m => exact ih (stable m s he hI) hrest

/-- The step rule where the other party does not move. -/
theorem Wp.step [Outside μ σ] {st : Step σ ε α} (quiet : ∀ m, ¬ A (.outside m))
    (meets : st.Meets A Q E C s) : Wp A st.run Q E C s :=
  Wp.step_stable (I := fun t => t = s) rfl (fun m _ hm _ => absurd hm (quiet m))
    (fun _ ht => ht ▸ meets)

/-- The step rule where there is no other party. -/
theorem Wp.step_alone {Q : α → σ → Prop} {A : Event Empty → Prop} {p : Step σ ε α}
    (meets : p.Meets A Q E C s) : Wp A p.run Q E C s :=
  Wp.step (fun m => nomatch m) meets

/-- A fault or a crash finds the step not begun, or done. -/
structure Step.Whole (st : Step σ ε α) : Prop where
  torn : ∀ n s, st.torn n s = s
  failed : ∀ c s, st.failed c s = s

theorem Step.Whole.plain {effect : σ → Except ε (α × σ)} {fault : ε} :
    Step.Whole { effect, fault } := ⟨fun _ _ => rfl, fun _ _ => rfl⟩

/-- An all-or-nothing step that nothing but a fault can stop here, with the fault at hand. -/
theorem Step.Meets.of_ok_or_fail {st : Step σ ε α} {a : α} {t : σ} (hwhole : st.Whole)
    (he : st.effect s = .ok (a, t)) (hq : Q a t) (hE : (∃ c, A (.fail c)) → E st.fault s)
    (hC : C s) (hC' : C t) : st.Meets A Q E C s := by
  constructor
  · intro b u h
    cases he.symm.trans h
    exact hq
  · intro e h
    cases he.symm.trans h
  · intro c hc
    rw [hwhole.failed c s]
    exact hE ⟨c, hc⟩
  · intro c _
    cases c with
    | before => exact hC
    | within n => simpa [Step.cut, hwhole.torn n s] using hC
    | after => simpa [Step.cut, Step.done, he] using hC'

/-- An all-or-nothing step that nothing but a fault can stop here. -/
theorem Step.Meets.of_ok {st : Step σ ε α} {a : α} {t : σ} (hwhole : st.Whole)
    (he : st.effect s = .ok (a, t)) (hq : Q a t) (hE : E st.fault s) (hC : C s) (hC' : C t) :
    st.Meets A Q E C s :=
  .of_ok_or_fail hwhole he hq (fun _ => hE) hC hC'

/-- An all-or-nothing step that may refuse. -/
theorem Step.Meets.whole {st : Step σ ε α} (hwhole : st.Whole)
    (hok : ∀ a s', st.effect s = .ok (a, s') → Q a s' ∧ C s') (hE : ∀ e, E e s) (hC : C s) :
    st.Meets A Q E C s := by
  constructor
  · exact fun a s' he => (hok a s' he).1
  · exact fun e _ => hE e
  · intro c _
    rw [hwhole.failed c s]
    exact hE _
  · intro c _
    cases c with
    | before => exact hC
    | within n => simpa [Step.cut, hwhole.torn n s] using hC
    | after =>
      simp only [Step.cut, Step.done]
      cases he : st.effect s with
      | ok r => exact (hok r.1 r.2 he).2
      | error e => exact hC

/-- No step reports an error: it takes effect, or the run ends there. -/
def Unfailing (e : Event μ) : Prop := ∀ c, e ≠ .fail c

theorem Step.Meets.of_unfailing {p : Step σ ε α} {t : σ} {a : α}
    (he : p.effect s = .ok (a, t)) (hq : Q a t) (hC : C s) (hC' : C t)
    (htorn : ∀ n, C (p.torn n s)) : p.Meets (μ := μ) Unfailing Q E C s := by
  constructor
  · intro b u h
    cases he.symm.trans h
    exact hq
  · intro e h
    cases he.symm.trans h
  · intro c hc
    exact absurd rfl (hc c)
  · intro c _
    cases c with
    | before => exact hC
    | within n => exact htorn n
    | after => simpa [Step.cut, Step.done, he] using hC'

/-- Every run of the program from a state of `I` ends in `I`, whatever its outcome. -/
def Keeps (A : Event μ → Prop) (I : σ → Prop) (p : Prog σ ε μ α) : Prop :=
  ∀ s, I s → Wp A p (fun _ => I) (fun _ => I) I s

theorem Keeps.pure {I : σ → Prop} (a : α) : Keeps A I (Pure.pure a : Prog σ ε μ α) :=
  fun _ h => Wp.pure h

theorem Keeps.throw {I : σ → Prop} (e : ε) : Keeps A I (throw e : Prog σ ε μ α) :=
  fun _ h => Wp.throw h

theorem Keeps.look {I : σ → Prop} (f : σ → α) : Keeps A I (look f : Prog σ ε μ α) :=
  fun _ h => Wp.look h

theorem Keeps.assign {I : σ → Prop} {f : σ → σ} (h : ∀ s, I s → I (f s)) :
    Keeps A I (Faulty.assign f : Prog σ ε μ Unit) :=
  fun s hs => Wp.assign (h s hs)

theorem Keeps.part {τ : Type} {I : σ → Prop} {J : τ → Prop} {part : Part σ τ} {p : Prog τ ε μ α}
    (hp : Keeps A J p) (hget : ∀ s, I s → J (part.get s))
    (hset : ∀ s t, I s → J t → I (part.set t s)) : Keeps A I (part.run p) :=
  fun s hs => Wp.part ((hp _ (hget s hs)).mono (fun _ t ht => hset s t hs ht)
    (fun _ t ht => hset s t hs ht) (fun t ht => hset s t hs ht))

theorem Keeps.lift {I : σ → Prop} (x : Except ε α) : Keeps A I (lift x : Prog σ ε μ α) :=
  fun _ h => Wp.lift (fun _ _ => h) (fun _ _ => h)

theorem Keeps.bind {I : σ → Prop} {p : Prog σ ε μ β} {f : β → Prog σ ε μ α}
    (hp : Keeps A I p) (hf : ∀ b, Keeps A I (f b)) : Keeps A I (p >>= f) :=
  fun s hs => Wp.bind ((hp s hs).mono (fun b t ht => hf b t ht) (fun _ _ h => h) (fun _ h => h))

theorem Keeps.throw_bind {I : σ → Prop} (e : ε) (f : β → Prog σ ε μ α) :
    Keeps A I (Faulty.throw e >>= f) :=
  fun _ hs => Wp.bind (Wp.throw hs)

theorem Keeps.attempt {I : σ → Prop} {p : Prog σ ε μ α} (hp : Keeps A I p) :
    Keeps A I (attempt p) :=
  fun s hs => Wp.attempt (hp s hs)

/-- The moves of the other party that `A` admits do not break the invariant. -/
def Stable [Outside μ σ] (A : Event μ → Prop) (I : σ → Prop) : Prop :=
  ∀ m t, A (.outside m) → I t → I (Outside.act m t)

theorem Keeps.step [Outside μ σ] {I : σ → Prop} {st : Step σ ε α} (stable : Stable A I)
    (hdone : ∀ t, I t → I (st.done t)) (htorn : ∀ n t, I t → I (st.torn n t))
    (hfailed : ∀ c t, I t → I (st.failed c t)) : Keeps A I st.run := by
  intro s hs
  refine Wp.step_stable hs stable (fun t ht => ?_)
  have hd := hdone t ht
  constructor
  · intro a s' he
    simpa [Step.done, he] using hd
  · intro e he
    exact ht
  · intro c _
    exact hfailed c t ht
  · intro c _
    cases c with
    | before => exact ht
    | within n => exact htorn n t ht
    | after => exact hd

/-- No other party moves. -/
def Quiet (e : Event μ) : Prop := ∀ m, e ≠ .outside m

theorem Stable.quiet [Outside μ σ] {I : σ → Prop} : Stable (μ := μ) Quiet I :=
  fun m _ hm _ => absurd rfl (hm m)

theorem Stable.and [Outside μ σ] {I J : σ → Prop} (hi : Stable A I) (hj : Stable A J) :
    Stable A fun t => I t ∧ J t :=
  fun m t hm ht => ⟨hi m t hm ht.1, hj m t hm ht.2⟩

theorem Keeps.step_quiet [Outside μ σ] {I : σ → Prop} {st : Step σ ε α}
    (hdone : ∀ t, I t → I (st.done t)) (htorn : ∀ n t, I t → I (st.torn n t))
    (hfailed : ∀ c t, I t → I (st.failed c t)) : Keeps (μ := μ) Quiet I st.run :=
  Keeps.step Stable.quiet hdone htorn hfailed

theorem Step.done_of_ok {I : σ → Prop} {st : Step σ ε α}
    (hok : ∀ t a s', I t → st.effect t = .ok (a, s') → I s') {t : σ} (ht : I t) : I (st.done t) := by
  unfold Step.done
  cases h : st.effect t with
  | ok r => exact hok t r.1 r.2 ht h
  | error e => exact ht

/-- An all-or-nothing step. -/
theorem Keeps.whole [Outside μ σ] {I : σ → Prop} {st : Step σ ε α} (hwhole : st.Whole)
    (stable : Stable A I) (hok : ∀ t a s', I t → st.effect t = .ok (a, s') → I s') :
    Keeps A I st.run :=
  Keeps.step stable (fun _ ht => Step.done_of_ok hok ht)
    (fun n t ht => (hwhole.torn n t).symm ▸ ht) (fun c t ht => (hwhole.failed c t).symm ▸ ht)

theorem Keeps.step_whole [Outside μ σ] {I : σ → Prop} {st : Step σ ε α} (hwhole : st.Whole)
    (hok : ∀ t a s', I t → st.effect t = .ok (a, s') → I s') : Keeps (μ := μ) Quiet I st.run :=
  Keeps.whole hwhole Stable.quiet hok

theorem Wp.step_quiet [Outside μ σ] {Q : α → σ → Prop} {E : ε → σ → Prop} {C : σ → Prop} {s : σ}
    {st : Step σ ε α} (meets : st.Meets (μ := μ) Quiet Q E C s) : Wp (μ := μ) Quiet st.run Q E C s :=
  Wp.step (fun m hm => hm m rfl) meets

/-- What a program does to every state keeps what is closed under it. -/
theorem Keeps.of_relation {p : Prog σ ε μ α} {R : σ → σ → Prop}
    (trans : ∀ a b c, R a b → R b c → R a c)
    (h : ∀ s, Wp A p (fun _ => R s) (fun _ => R s) (R s) s) (s₀ : σ) :
    Keeps A (R s₀) p :=
  fun s hs => (h s).mono (fun _ t ht => trans s₀ s t hs ht) (fun _ t ht => trans s₀ s t hs ht)
    (fun t ht => trans s₀ s t hs ht)

end Rules

/-- Two invariants together bear what has to hold of every end. -/
theorem Wp.of_keeps {A : Event μ → Prop} {I J R : σ → Prop} {p : Prog σ ε μ α} {s : σ}
    (hi : Keeps A I p) (hj : Keeps A J p) (h : ∀ t, I t → J t → R t) (hI : I s) (hJ : J s) :
    Wp A p (fun _ => R) (fun _ => R) R s :=
  ((hi s hI).and (hj s hJ)).mono (fun _ t ht => h t ht.1 ht.2) (fun _ t ht => h t ht.1 ht.2)
    (fun t ht => h t ht.1 ht.2)

/-! ### Runs of whole programs -/

/-- `t` is where some run of `p` from `s` ends, whatever its outcome. -/
def EndsIn (A : Event μ → Prop) (p : Prog σ ε μ α) (s t : σ) : Prop :=
  ∃ sch o rest, (∀ e ∈ sch, A e) ∧ p s sch = (o, t, rest)

theorem EndsIn.of_run {A : Event μ → Prop} {p : Prog σ ε μ α} {s : σ} {sch : Schedule μ}
    {r : Result σ ε μ α} (hr : p s sch = r) (h : ∀ e ∈ sch, A e) : EndsIn A p s r.2.1 :=
  ⟨sch, r.1, r.2.2, h, hr⟩

theorem Keeps.endsIn {A : Event μ → Prop} {I : σ → Prop} {p : Prog σ ε μ α}
    (h : Keeps A I p) {s t : σ} (hs : I s) (hr : EndsIn A p s t) : I t := by
  obtain ⟨sch, o, rest, hA, he⟩ := hr
  have hw := (h s hs sch hA).2
  rw [he] at hw
  cases o <;> exact hw

/-- Any number of runs of `p`, one after the other. -/
abbrev Rounds (A : Event μ → Prop) (p : Prog σ ε μ α) : σ → σ → Prop :=
  Relation.ReflTransGen (EndsIn A p)

theorem Keeps.rounds {A : Event μ → Prop} {I : σ → Prop} {p : Prog σ ε μ α}
    (h : Keeps A I p) {s t : σ} (hs : I s) (hr : Rounds A p s t) : I t := by
  induction hr with
  | refl => exact hs
  | tail _ last ih => exact h.endsIn ih last

theorem exists_ok {r : Result σ ε μ α} (h : r.1.isOk) : ∃ a, r = (.ok a, r.2.1, r.2.2) := by
  obtain ⟨o, s, rest⟩ := r
  cases o with
  | ok a => exact ⟨a, rfl⟩
  | error e => cases h
  | crashed => cases h

theorem eq_of_crashed {r : Result σ ε μ α} (h : r.1 = .crashed) : r = (.crashed, r.2.1, r.2.2) := by
  rw [← h]

/-- The events of a run in which nothing goes wrong and nobody interferes. -/
def Smooth (e : Event μ) : Prop := e = .go

/-- Left alone, the program does not crash. -/
def Calm (p : Prog σ ε μ α) : Prop :=
  ∀ s, Wp Smooth p (fun _ _ => True) (fun _ _ => True) (fun _ => False) s

section Calm

theorem Calm.pure (a : α) : Calm (Pure.pure a : Prog σ ε μ α) := fun _ => Wp.pure trivial

theorem Calm.throw (e : ε) : Calm (throw e : Prog σ ε μ α) := fun _ => Wp.throw trivial

theorem Calm.look (f : σ → α) : Calm (look f : Prog σ ε μ α) := fun _ => Wp.look trivial

theorem Calm.lift (x : Except ε α) : Calm (lift x : Prog σ ε μ α) :=
  fun _ => Wp.lift (fun _ _ => trivial) (fun _ _ => trivial)

theorem Calm.bind {p : Prog σ ε μ β} {f : β → Prog σ ε μ α} (hp : Calm p) (hf : ∀ b, Calm (f b)) :
    Calm (p >>= f) :=
  fun s => Wp.bind ((hp s).mono (fun b t _ => hf b t) (fun _ _ h => h) (fun _ h => h))

theorem Calm.part {τ : Type} {part : Part σ τ} {p : Prog τ ε μ α} (hp : Calm p) :
    Calm (part.run p) :=
  fun s => Wp.part ((hp (part.get s)).mono (fun _ _ h => h) (fun _ _ h => h) (fun _ h => h))

theorem Calm.step [Outside μ σ] (st : Step σ ε α) : Calm (μ := μ) st.run := by
  intro s
  refine Wp.step (fun m hm => by cases hm) ⟨fun _ _ _ => trivial, fun _ _ => trivial, ?_, ?_⟩
  · exact fun _ _ => trivial
  · intro c hc
    cases hc

end Calm

/-! ### Runs up to a point -/

/-- The program gets through in some steps, and leaves the rest of the schedule. -/
def Passes (p : Prog σ ε μ α) (s : σ) (a : α) (t : σ) : Prop :=
  ∃ k, ∀ rest, p s (List.replicate k .go ++ rest) = (.ok a, t, rest)

section Passes

variable {s t u : σ} {a : α} {b : β}

theorem Passes.pure : Passes (Pure.pure a : Prog σ ε μ α) s a s := ⟨0, fun _ => rfl⟩

theorem Passes.look (f : σ → α) : Passes (look f : Prog σ ε μ α) s (f s) s := ⟨0, fun _ => rfl⟩

theorem Passes.assign (f : σ → σ) : Passes (assign f : Prog σ ε μ Unit) s () (f s) :=
  ⟨0, fun _ => rfl⟩

theorem Passes.lift {x : Except ε α} (h : x = .ok a) : Passes (lift x : Prog σ ε μ α) s a s := by
  subst h
  exact ⟨0, fun _ => rfl⟩

theorem Passes.step [Outside μ σ] {st : Step σ ε α} (h : st.effect s = .ok (a, t)) :
    Passes (st.run : Prog σ ε μ α) s a t := by
  refine ⟨1, fun rest => ?_⟩
  simp only [List.replicate_one, List.singleton_append, Step.run, Step.proceed, h]

theorem Passes.bind {p : Prog σ ε μ β} {f : β → Prog σ ε μ α} (hp : Passes p s b t)
    (hf : Passes (f b) t a u) : Passes (p >>= f) s a u := by
  obtain ⟨k, hk⟩ := hp
  obtain ⟨n, hn⟩ := hf
  refine ⟨k + n, fun rest => ?_⟩
  rw [← List.replicate_append_replicate, List.append_assoc, run_bind, hk]
  exact hn rest

theorem Passes.attempt {p : Prog σ ε μ α} (hp : Passes p s a t) :
    Passes (attempt p) s (.ok a) t := by
  obtain ⟨k, hk⟩ := hp
  refine ⟨k, fun rest => ?_⟩
  unfold Faulty.attempt
  rw [hk]

theorem Passes.part {τ : Type} {part : Part σ τ} {p : Prog τ ε μ α} {v : τ}
    (hp : Passes p (part.get s) a v) : Passes (part.run p) s a (part.set v s) := by
  obtain ⟨k, hk⟩ := hp
  refine ⟨k, fun rest => ?_⟩
  unfold Part.run
  rw [hk]

end Passes

/-! ### The place of a fault -/

/-- Where the first fault of a run of `n` steps stands: `E j rest t` tells of the end `t` behind a
failure of step `j`, and `D j rest` of a crash that a handled failure runs into. -/
def Located (n : Nat) (p : Prog σ ε Empty α) (Q : α → σ → Prop)
    (E : Nat → Schedule Empty → σ → Prop) (D : Nat → Schedule Empty → Prop) (s : σ) : Prop :=
  ∀ sch : Schedule Empty, match p s sch with
    | (.ok a, t, _) => (∀ e ∈ sch.take n, e = .go) ∧ Q a t
    | (.error _, t, _) =>
      ∃ j c rest, j < n ∧ sch = List.replicate j .go ++ .fail c :: rest ∧ E j rest t
    | (.crashed, _, _) => ∃ j c rest, j < n ∧ (sch = List.replicate j .go ++ .crash c :: rest ∨
        sch = List.replicate j .go ++ .fail c :: rest ∧ D j rest)

/-- A faultless step before the program moves the places of its faults by one. -/
theorem Located.go {n : Nat} {p : Prog σ ε Empty α} {Q : α → σ → Prop}
    {E : Nat → Schedule Empty → σ → Prop} {D : Nat → Schedule Empty → Prop} {s : σ}
    (h : Located n p Q (fun j => E (j + 1)) (fun j => D (j + 1)) s) (sch : Schedule Empty) :
    match p s sch with
    | (.ok a, t, _) => (∀ e ∈ (Event.go :: sch).take (n + 1), e = .go) ∧ Q a t
    | (.error _, t, _) => ∃ j c rest, j < n + 1 ∧
        Event.go :: sch = List.replicate j .go ++ .fail c :: rest ∧ E j rest t
    | (.crashed, _, _) => ∃ j c rest, j < n + 1 ∧
        (Event.go :: sch = List.replicate j .go ++ .crash c :: rest ∨
          Event.go :: sch = List.replicate j .go ++ .fail c :: rest ∧ D j rest) := by
  have hrun := h sch
  revert hrun
  rcases p s sch with ⟨a | e | _, t, left⟩
  · rintro ⟨hgo, hq⟩
    exact ⟨by simpa using hgo, hq⟩
  · rintro ⟨j, c, rest, hj, rfl, hE⟩
    exact ⟨j + 1, c, rest, by omega, rfl, hE⟩
  · rintro ⟨j, c, rest, hj, rfl | ⟨rfl, hD⟩⟩
    · exact ⟨j + 1, c, rest, by omega, .inl rfl⟩
    · exact ⟨j + 1, c, rest, by omega, .inr ⟨rfl, hD⟩⟩

/-- An exhausted schedule goes on without faults. -/
theorem Located.nil {n : Nat} {p : Prog σ ε Empty α} {Q : α → σ → Prop}
    {E : Nat → Schedule Empty → σ → Prop} {D : Nat → Schedule Empty → Prop} {s : σ}
    (h : Located n p Q E D s) :
    ∃ a t rest, p s [] = (.ok a, t, rest) ∧ Q a t := by
  have hrun := h []
  revert hrun
  rcases p s [] with ⟨a | e | _, t, left⟩
  · rintro ⟨-, hq⟩
    exact ⟨a, t, left, rfl, hq⟩
  · rintro ⟨j, c, rest, -, hnil, -⟩
    simp at hnil
  · rintro ⟨j, c, rest, -, hnil | ⟨hnil, -⟩⟩ <;> simp at hnil

theorem Located.bind_step {n : Nat} {p : Step σ ε β} {f : β → Prog σ ε Empty α}
    {Q : α → σ → Prop} {E : Nat → Schedule Empty → σ → Prop} {D : Nat → Schedule Empty → Prop}
    {s t : σ} {b : β} (he : p.effect s = .ok (b, t)) (hfail : ∀ c rest, E 0 rest (p.failed c s))
    (h : Located n (f b) Q (fun j => E (j + 1)) (fun j => D (j + 1)) t) :
    Located (n + 1) (p.run >>= f) Q E D s := by
  intro sch
  cases sch with
  | nil =>
    obtain ⟨a, last, rest, hrun, hq⟩ := h.nil
    simp [run_bind, Step.run, Step.proceed, he, hrun, hq]
  | cons event sch =>
    cases event with
    | go =>
      simp only [run_bind, Step.run, Step.proceed, he]
      exact h.go sch
    | fail c => exact ⟨0, c, sch, by omega, rfl, hfail c sch⟩
    | crash c => exact ⟨0, c, sch, by omega, .inl rfl⟩
    | outside m => exact nomatch m

theorem Located.step {p : Step σ ε α} {Q : α → σ → Prop} {E : Nat → Schedule Empty → σ → Prop}
    {D : Nat → Schedule Empty → Prop} {s t : σ} {a : α} (he : p.effect s = .ok (a, t))
    (hq : Q a t) (hfail : ∀ c rest, E 0 rest (p.failed c s)) : Located 1 p.run Q E D s := by
  intro sch
  cases sch with
  | nil => simp [Step.run, Step.proceed, he, hq]
  | cons event sch =>
    cases event with
    | go => simp [Step.run, Step.proceed, he, hq]
    | fail c => exact ⟨0, c, sch, by omega, rfl, hfail c sch⟩
    | crash c => exact ⟨0, c, sch, by omega, .inl rfl⟩
    | outside m => exact nomatch m

/-- A run without faults, from a state in which the program can only succeed. -/
theorem Wp.run_nil {p : Prog σ ε μ α} {Q : α → σ → Prop} {s : σ}
    (h : Wp Smooth p Q (fun _ _ => False) (fun _ => False) s) :
    ∃ a t rest, p s [] = (.ok a, t, rest) ∧ Q a t := by
  have hw := (h [] (by simp)).2
  rcases hr : p s [] with ⟨o, t, rest⟩
  rw [hr] at hw
  cases o with
  | ok a => exact ⟨a, t, rest, rfl, hw⟩
  | error e => exact hw.elim
  | crashed => exact hw.elim

end Faulty
