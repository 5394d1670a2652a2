import Mathlib

/-!
# Outcomes of actions

`Ensures x s Q E` says how an action ends from a state: with a result and a state that `Q` admits,
or with an error and a state that `E` admits. An action that ensures `Q` with no error admitted goes
through.

1. `Ensures.bind`, `Ensures.mono`: actions are chained through what the first of them ensures.
2. `Ensures.get`, `Ensures.modify`, `Ensures.throw` and the like: the single steps.
3. `EndAlike`: two actions that end with one result or with one error.
-/

namespace BlobVault

variable {ε σ α β : Type}

/-- Every way in which an action ends from a state is admitted. -/
def Ensures (x : EStateM ε σ α) (s : σ) (Q : α → σ → Prop) (E : ε → σ → Prop) : Prop :=
  match x s with
  | .ok a t => Q a t
  | .error e t => E e t

/-- No error is admitted. -/
abbrev NoError : ε → σ → Prop := fun _ _ => False

theorem run_get_bind (f : σ → EStateM ε σ α) (s : σ) :
    ((get : EStateM ε σ σ) >>= f) s = f s s := rfl

theorem run_bind_ok {x : EStateM ε σ α} {s t : σ} {a : α} (h : x s = .ok a t)
    (f : α → EStateM ε σ β) : (x >>= f) s = f a t := by
  simp only [Bind.bind, EStateM.bind, h]

theorem run_bind_error {x : EStateM ε σ α} {s t : σ} {e : ε} (h : x s = .error e t)
    (f : α → EStateM ε σ β) : (x >>= f) s = .error e t := by
  simp only [Bind.bind, EStateM.bind, h]

namespace Ensures

variable {x : EStateM ε σ α} {f : α → EStateM ε σ β} {s t : σ} {Q R : α → σ → Prop}
  {E F : ε → σ → Prop}

theorem of_ok {a : α} (h : x s = .ok a t) (hq : Q a t) : Ensures x s Q E := by
  unfold Ensures
  rw [h]
  exact hq

theorem of_error {e : ε} (h : x s = .error e t) (he : E e t) : Ensures x s Q E := by
  unfold Ensures
  rw [h]
  exact he

theorem ok_of_eq {a : α} (h : Ensures x s Q E) (heq : x s = .ok a t) : Q a t := by
  unfold Ensures at h
  rw [heq] at h
  exact h

theorem error_of_eq {e : ε} (h : Ensures x s Q E) (heq : x s = .error e t) : E e t := by
  unfold Ensures at h
  rw [heq] at h
  exact h

/-- An action for which no error is admitted goes through. -/
theorem exists_ok (h : Ensures x s Q NoError) : ∃ a t, x s = .ok a t ∧ Q a t := by
  cases heq : x s with
  | ok a t => exact ⟨a, t, rfl, h.ok_of_eq heq⟩
  | error e t => exact (h.error_of_eq heq).elim

/-- An action ends in some way. -/
theorem any (x : EStateM ε σ α) (s : σ) : Ensures x s (fun _ _ => True) fun _ _ => True := by
  cases heq : x s with
  | ok a t => exact of_ok heq trivial
  | error e t => exact of_error heq trivial

theorem mono (h : Ensures x s Q E) (hq : ∀ a t, Q a t → R a t) (he : ∀ e t, E e t → F e t) :
    Ensures x s R F := by
  cases heq : x s with
  | ok a t => exact of_ok heq (hq a t (h.ok_of_eq heq))
  | error e t => exact of_error heq (he e t (h.error_of_eq heq))

theorem bind {S : β → σ → Prop} (h : Ensures x s Q E)
    (hf : ∀ a t, Q a t → Ensures (f a) t S E) : Ensures (x >>= f) s S E := by
  cases heq : x s with
  | ok a t =>
    have hrun := run_bind_ok heq f
    have hnext := hf a t (h.ok_of_eq heq)
    unfold Ensures at hnext ⊢
    rw [hrun]
    exact hnext
  | error e t =>
    exact of_error (run_bind_error heq f) (h.error_of_eq heq)

theorem bind_ok {S : β → σ → Prop} {a : α} (h : x s = .ok a t) (hf : Ensures (f a) t S E) :
    Ensures (x >>= f) s S E :=
  bind (Q := fun b u => b = a ∧ u = t) (of_ok h ⟨rfl, rfl⟩) fun _ _ h => h.1 ▸ h.2 ▸ hf

theorem bind_error {S : β → σ → Prop} {e : ε} (h : x s = .error e t) (he : E e t) :
    Ensures (x >>= f) s S E :=
  bind (Q := fun _ _ => False) (of_error h he) fun _ _ h => h.elim

/-- An action whose result is only carried on. -/
theorem map {S : β → σ → Prop} {f : α → β} (h : Ensures x s Q E) (hf : ∀ a t, Q a t → S (f a) t) :
    Ensures (do return f (← x)) s S E :=
  bind h fun a t hq => of_ok rfl (hf a t hq)

theorem pure {a : α} (h : Q a s) : Ensures (Pure.pure a : EStateM ε σ α) s Q E := of_ok rfl h

theorem throw {e : ε} (h : E e s) : Ensures (MonadExcept.throw e : EStateM ε σ α) s Q E :=
  of_error rfl h

theorem get {S : σ → σ → Prop} (h : S s s) : Ensures (MonadState.get : EStateM ε σ σ) s S E :=
  of_ok rfl h

theorem set {S : PUnit → σ → Prop} (h : S ⟨⟩ t) :
    Ensures (MonadStateOf.set t : EStateM ε σ PUnit) s S E := of_ok rfl h

theorem modify {S : PUnit → σ → Prop} {g : σ → σ} (h : S ⟨⟩ (g s)) :
    Ensures (modify g : EStateM ε σ PUnit) s S E := of_ok rfl h

end Ensures

/-- Two actions end alike: with one result or with one error, and in states that are related. -/
def EndAlike (x y : EStateM ε σ α) (s t : σ) (R : σ → σ → Prop) : Prop :=
  (∃ a u v, x s = .ok a u ∧ y t = .ok a v ∧ R u v) ∨
    ∃ e u v, x s = .error e u ∧ y t = .error e v ∧ R u v

namespace EndAlike

variable {x y : EStateM ε σ α} {s t u v : σ} {R : σ → σ → Prop} {P Q : α → σ → Prop}
  {E F : ε → σ → Prop}

theorem of_ok {a : α} (hx : x s = .ok a u) (hy : y t = .ok a v) (h : R u v) :
    EndAlike x y s t R :=
  .inl ⟨a, u, v, hx, hy, h⟩

theorem of_error {e : ε} (hx : x s = .error e u) (hy : y t = .error e v) (h : R u v) :
    EndAlike x y s t R :=
  .inr ⟨e, u, v, hx, hy, h⟩

/-- Two actions end alike if no ends that are admitted differ. -/
theorem of_specs (hx : Ensures x s P E) (hy : Ensures y t Q F)
    (hok : ∀ a b u v, P a u → Q b v → b = a ∧ R u v) (hfirst : ∀ a d u v, P a u → ¬ F d v)
    (hsecond : ∀ e b u v, E e u → ¬ Q b v)
    (herror : ∀ e d u v, E e u → F d v → d = e ∧ R u v) : EndAlike x y s t R := by
  cases hrun : x s with
  | ok a u =>
    have ha := hx.ok_of_eq hrun
    cases hrun' : y t with
    | ok b v =>
      obtain ⟨rfl, h⟩ := hok a b u v ha (hy.ok_of_eq hrun')
      exact of_ok hrun hrun' h
    | error d v => exact absurd (hy.error_of_eq hrun') (hfirst a d u v ha)
  | error e u =>
    have he := hx.error_of_eq hrun
    cases hrun' : y t with
    | ok b v => exact absurd (hy.ok_of_eq hrun') (hsecond e b u v he)
    | error d v =>
      obtain ⟨rfl, h⟩ := herror e d u v he (hy.error_of_eq hrun')
      exact of_error hrun hrun' h

/-- Two actions that go through end alike if their results are the same. -/
theorem of_results (hx : Ensures x s P NoError) (hy : Ensures y t Q NoError)
    (h : ∀ a b u v, P a u → Q b v → b = a ∧ R u v) : EndAlike x y s t R :=
  of_specs hx hy h (fun _ _ _ _ _ hd => hd) (fun _ _ _ _ he => he.elim) fun _ _ _ _ he => he.elim

/-- Two actions that both end as one verdict says, each with its own change, end alike. -/
theorem of_verdict {γ : Type} {verdict : Except ε (α × γ)} {P Q : α → γ → σ → Prop}
    {E F : σ → Prop}
    (hx : Ensures x s (fun a u => ∃ c, verdict = .ok (a, c) ∧ P a c u)
      fun e u => verdict = .error e ∧ E u)
    (hy : Ensures y t (fun a v => ∃ c, verdict = .ok (a, c) ∧ Q a c v)
      fun e v => verdict = .error e ∧ F v)
    (hok : ∀ a c u v, verdict = .ok (a, c) → P a c u → Q a c v → R u v)
    (herror : ∀ u v, E u → F v → R u v) : EndAlike x y s t R := by
  refine of_specs hx hy ?_ ?_ ?_ ?_
  · rintro a b u v ⟨c, hends, hu⟩ ⟨d, hends', hv⟩
    rw [hends] at hends'
    obtain ⟨rfl, rfl⟩ := Prod.mk.inj (Except.ok.inj hends')
    exact ⟨rfl, hok a c u v hends hu hv⟩
  · rintro a e u v ⟨c, hends, -⟩ ⟨hends', -⟩
    rw [hends] at hends'
    exact absurd hends' nofun
  · rintro e a u v ⟨hends, -⟩ ⟨c, hends', -⟩
    rw [hends] at hends'
    exact absurd hends' nofun
  · rintro e d u v ⟨hends, hu⟩ ⟨hends', hv⟩
    rw [hends] at hends'
    exact ⟨(Except.error.inj hends').symm, herror u v hu hv⟩

/-- Actions whose results are only carried on. -/
theorem map (h : EndAlike x y s t R) (f : α → β) :
    EndAlike (do return f (← x)) (do return f (← y)) s t R := by
  rcases h with ⟨a, u, v, hx, hy, h⟩ | ⟨e, u, v, hx, hy, h⟩
  · exact of_ok (run_bind_ok hx _) (run_bind_ok hy _) h
  · exact of_error (run_bind_error hx _) (run_bind_error hy _) h

end EndAlike

/-- A run up to the next step is the run so far with that step. -/
theorem foldl_take_succ (f : σ → α → σ) (s : σ) {steps : List α} {k : Nat} {step : α}
    (h : steps[k]? = some step) :
    (steps.take (k + 1)).foldl f s = f ((steps.take k).foldl f s) step := by
  obtain ⟨hk, rfl⟩ := List.getElem?_eq_some_iff.1 h
  rw [List.take_succ_eq_append_getElem hk, List.foldl_append]
  rfl

end BlobVault
