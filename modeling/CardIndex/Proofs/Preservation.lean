import CardIndex.Proofs.Attempt

namespace CardIndex

variable {σ α β : Type} {inv : σ → Prop}

/-- What holds of a state before the program holds after it, whatever the program ends with. -/
def Preserves (inv : σ → Prop) (x : Attempt (StateM σ) α) : Prop := ∀ s, inv s → inv (Id.run (x.run.run s)).2

theorem preserves_pure (a : α) : Preserves inv (pure a) := fun _ h => h

theorem preserves_throw (f : Failure) : Preserves inv (throw f : Attempt (StateM σ) α) := fun _ h => h

theorem Preserves.bind {x : Attempt (StateM σ) α} {g : α → Attempt (StateM σ) β} (hx : Preserves inv x)
    (hg : ∀ a, Preserves inv (g a)) : Preserves inv (x >>= g) := by
  intro s h
  have hfirst := hx s h
  rw [Attempt.run_bind]
  cases hrun : Id.run (x.run.run s) with
  | mk result t =>
    rw [hrun] at hfirst
    cases result with
    | error e => exact hfirst
    | ok a => exact hg a t hfirst

theorem preserves_lift {operation : StateM σ α} (h : ∀ s, inv s → inv (Id.run (operation.run s)).2) :
    Preserves inv (liftM operation : Attempt (StateM σ) α) := h

theorem preserves_io {operation : StateM σ (Except IoError α)}
    (h : ∀ s, inv s → inv (Id.run (operation.run s)).2) : Preserves inv (Attempt.io operation) := h

theorem Preserves.foldlM {step : β → α → Attempt (StateM σ) β} (as : List α)
    (hstep : ∀ a ∈ as, ∀ b, Preserves inv (step b a)) (b : β) : Preserves inv (as.foldlM step b) := by
  induction as generalizing b with
  | nil => exact preserves_pure b
  | cons a as ih =>
    rw [List.forall_mem_cons] at hstep
    rw [List.foldlM_cons]
    exact (hstep.1 b).bind fun next => ih hstep.2 next

end CardIndex
