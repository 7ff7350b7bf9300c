import CardIndex.Proofs.Attempt

namespace CardIndex

variable {ε σ τ α β γ δ : Type}

/-- Both results are the same error, or values that are related. -/
inductive Alike (R : α → β → Prop) : Except ε α → Except ε β → Prop
  | ok {a b} (related : R a b) : Alike R (.ok a) (.ok b)
  | error (e : ε) : Alike R (.error e) (.error e)

namespace Alike

variable {R : α → β → Prop} {x : Except ε α} {y : Except ε β}

theorem mono {R' : α → β → Prop} (h : Alike R x y) (himp : ∀ a b, R a b → R' a b) : Alike R' x y := by
  cases h with
  | ok related => exact .ok (himp _ _ related)
  | error e => exact .error e

theorem bind {R' : γ → δ → Prop} {f : α → Except ε γ} {g : β → Except ε δ} (h : Alike R x y)
    (hf : ∀ a b, R a b → Alike R' (f a) (g b)) : Alike R' (x.bind f) (y.bind g) := by
  cases h with
  | ok related => exact hf _ _ related
  | error e => exact .error e

theorem mapError {φ : Type} (h : Alike R x y) (f : ε → φ) : Alike R (x.mapError f) (y.mapError f) := by
  cases h with
  | ok related => exact .ok related
  | error e => exact .error (f e)

theorem eq {x y : Except ε α} (h : Alike Eq x y) : x = y := by
  cases h with
  | ok related => rw [related]
  | error e => rfl

theorem of_eq {x y : Except ε α} (h : x = y) : Alike Eq x y := by
  subst h
  cases x with
  | ok a => exact .ok rfl
  | error e => exact .error e

end Alike

/-- From states that are related in one way both programs end alike, in states that are related in another. -/
def Parallel (P S : σ → τ → Prop) (R : α → β → Prop) (x : Attempt (StateM σ) α) (y : Attempt (StateM τ) β) : Prop :=
  ∀ s t, P s t → Alike R (Id.run (x.run.run s)).1 (Id.run (y.run.run t)).1 ∧
    S (Id.run (x.run.run s)).2 (Id.run (y.run.run t)).2

variable {P S : σ → τ → Prop} {R : α → β → Prop}

theorem parallel_pure {a : α} {b : β} (h : R a b) : Parallel S S R (pure a) (pure b) := fun _ _ hst => ⟨.ok h, hst⟩

theorem parallel_throw (f : Failure) : Parallel S S R (throw f) (throw f) := fun _ _ hst => ⟨.error f, hst⟩

theorem Parallel.mono {x : Attempt (StateM σ) α} {y : Attempt (StateM τ) β} {S' : σ → τ → Prop}
    (h : Parallel P S R x y) (hstates : ∀ s t, S s t → S' s t) : Parallel P S' R x y :=
  fun s t hst => ⟨(h s t hst).1, hstates _ _ (h s t hst).2⟩

theorem Parallel.bind {R' : γ → δ → Prop} {x : Attempt (StateM σ) α} {y : Attempt (StateM τ) β}
    {f : α → Attempt (StateM σ) γ} {g : β → Attempt (StateM τ) δ} (h : Parallel P S R x y)
    (hf : ∀ a b, R a b → Parallel S S R' (f a) (g b)) : Parallel P S R' (x >>= f) (y >>= g) := by
  intro s t hst
  obtain ⟨hresult, hstates⟩ := h s t hst
  rw [Attempt.run_bind, Attempt.run_bind]
  generalize Id.run (x.run.run s) = first at hresult hstates ⊢
  generalize Id.run (y.run.run t) = second at hresult hstates ⊢
  obtain ⟨result, s'⟩ := first
  obtain ⟨result', t'⟩ := second
  cases hresult with
  | ok related => exact hf _ _ related s' t' hstates
  | error e => exact ⟨.error e, hstates⟩

theorem parallel_lift {x : StateM σ α} {y : StateM τ β}
    (h : ∀ s t, P s t → R (Id.run (x.run s)).1 (Id.run (y.run t)).1 ∧ S (Id.run (x.run s)).2 (Id.run (y.run t)).2) :
    Parallel P S R (liftM x) (liftM y) :=
  fun s t hst => ⟨.ok (h s t hst).1, (h s t hst).2⟩

theorem parallel_io {x : StateM σ (Except IoError α)} {y : StateM τ (Except IoError β)}
    (h : ∀ s t, P s t → Alike R (Id.run (x.run s)).1 (Id.run (y.run t)).1 ∧
      S (Id.run (x.run s)).2 (Id.run (y.run t)).2) : Parallel P S R (Attempt.io x) (Attempt.io y) := by
  intro s t hst
  rw [Attempt.run_operation, Attempt.run_operation]
  exact ⟨(h s t hst).1.mapError _, (h s t hst).2⟩

end CardIndex
