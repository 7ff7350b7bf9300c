import CardIndex.CommandLine.Report

namespace CardIndex

theorem eq_ok_of_toOption {ε α : Type} {x : Except ε α} {a : α} (h : x.toOption = some a) : x = .ok a := by
  cases x with
  | error e => cases h
  | ok b => exact congrArg Except.ok (Option.some.inj h)

namespace Attempt

variable {σ α β : Type}

/-- The program, started in one state, succeeds with a value and leaves another state. -/
def Succeeds (x : Attempt (StateM σ) α) (s : σ) (a : α) (s' : σ) : Prop :=
  Id.run (x.run.run s) = (.ok a, s')

theorem exists_succeeds {x : Attempt (StateM σ) α} {s : σ} {a : α}
    (h : (Id.run (x.run.run s)).1 = .ok a) : ∃ s', Succeeds x s a s' :=
  ⟨(Id.run (x.run.run s)).2, Prod.ext h rfl⟩

theorem exists_succeeds_of_isSome {x : Attempt (StateM σ) α} {s : σ}
    (h : (Id.run (x.run.run s)).1.toOption.isSome) : ∃ a, Succeeds x s a (Id.run (x.run.run s)).2 := by
  cases hx : (Id.run (x.run.run s)).1 with
  | error e => rw [hx] at h; cases h
  | ok a => exact ⟨a, Prod.ext hx rfl⟩

@[simp] theorem succeeds_pure (a b : α) (s s' : σ) :
    Succeeds (pure a) s b s' ↔ a = b ∧ s = s' := by
  have hr : Id.run ((pure a : Attempt (StateM σ) α).run.run s) = (.ok a, s) := rfl
  unfold Succeeds
  rw [hr]
  simp

@[simp] theorem not_succeeds_throw (f : Failure) (s : σ) (a : α) (s' : σ) :
    ¬ Succeeds (throw f) s a s' := by
  intro h
  cases h

theorem run_bind (x : Attempt (StateM σ) α) (f : α → Attempt (StateM σ) β) (s : σ) :
    Id.run ((x >>= f).run.run s) = match Id.run (x.run.run s) with
      | (.ok a, t) => Id.run ((f a).run.run t)
      | (.error e, t) => (.error e, t) := by
  simp only [ExceptT.run_bind, StateT.run_bind]
  rcases x.run.run s with ⟨_ | _, _⟩ <;> rfl

/-- A sequence succeeds where each of its parts does, the second from where the first ends. -/
@[simp] theorem succeeds_bind (x : Attempt (StateM σ) α) (f : α → Attempt (StateM σ) β)
    (s : σ) (b : β) (s' : σ) :
    Succeeds (x >>= f) s b s' ↔ ∃ a t, Succeeds x s a t ∧ Succeeds (f a) t b s' := by
  unfold Succeeds
  rw [run_bind]
  rcases Id.run (x.run.run s) with ⟨e | a, t⟩
  · simp
  · constructor
    · intro h
      exact ⟨a, t, rfl, h⟩
    · rintro ⟨a', t', h, hf⟩
      cases h
      exact hf

@[simp] theorem succeeds_lift (x : StateM σ α) (s : σ) (a : α) (s' : σ) :
    Succeeds (liftM x) s a s' ↔ Id.run (x.run s) = (a, s') := by
  have hr : Id.run ((liftM x : Attempt (StateM σ) α).run.run s) =
      (.ok (Id.run (x.run s)).1, (Id.run (x.run s)).2) := rfl
  unfold Succeeds
  rw [hr]
  rcases Id.run (x.run s) with ⟨b, t⟩
  simp

@[simp] theorem succeeds_io (x : StateM σ (Except IoError α)) (s : σ) (a : α) (s' : σ) :
    Succeeds (Attempt.io x) s a s' ↔ Id.run (x.run s) = (.ok a, s') := by
  have hr : Id.run ((Attempt.io x).run.run s) =
      ((Id.run (x.run s)).1.mapError .io, (Id.run (x.run s)).2) := rfl
  unfold Succeeds
  rw [hr]
  rcases Id.run (x.run s) with ⟨e | b, t⟩
  · constructor <;> intro h <;> cases h
  · constructor
    · intro h
      cases h
      rfl
    · intro h
      cases h
      rfl

/-- The program, started in one state, ends with a value or a failure and leaves another state. -/
def Ends (x : Attempt (StateM σ) α) (s : σ) (r : Except Failure α) (s' : σ) : Prop :=
  Id.run (x.run.run s) = (r, s')

theorem exists_ends (x : Attempt (StateM σ) α) (s : σ) : ∃ r s', Ends x s r s' := ⟨_, _, rfl⟩

theorem ends_of_fst {x : Attempt (StateM σ) α} {s : σ} {r : Except Failure α}
    (h : (Id.run (x.run.run s)).1 = r) : Ends x s r (Id.run (x.run.run s)).2 := Prod.ext h rfl

theorem exists_failure_of_isNone {x : Attempt (StateM σ) α} {s : σ}
    (h : (Id.run (x.run.run s)).1.toOption.isNone) : ∃ failure, Ends x s (.error failure) (Id.run (x.run.run s)).2 := by
  cases hx : (Id.run (x.run.run s)).1 with
  | error e => exact ⟨e, Prod.ext hx rfl⟩
  | ok a => rw [hx] at h; cases h

@[simp] theorem ends_pure (a : α) (s : σ) (r : Except Failure α) (s' : σ) :
    Ends (pure a) s r s' ↔ r = .ok a ∧ s' = s := by
  have hr : Id.run ((pure a : Attempt (StateM σ) α).run.run s) = (.ok a, s) := rfl
  unfold Ends
  rw [hr, Prod.mk.injEq, eq_comm, @eq_comm _ s]

@[simp] theorem ends_throw (f : Failure) (s : σ) (r : Except Failure α) (s' : σ) :
    Ends (throw f) s r s' ↔ r = .error f ∧ s' = s := by
  have hr : Id.run ((throw f : Attempt (StateM σ) α).run.run s) = (.error f, s) := rfl
  unfold Ends
  rw [hr, Prod.mk.injEq, eq_comm, @eq_comm _ s]

/-- A sequence ends where its second part does, or with the failure of its first. -/
theorem ends_bind (x : Attempt (StateM σ) α) (f : α → Attempt (StateM σ) β) (s : σ) (r : Except Failure β) (s' : σ) :
    Ends (x >>= f) s r s' ↔
      (∃ a t, Ends x s (.ok a) t ∧ Ends (f a) t r s') ∨ ∃ e, Ends x s (.error e) s' ∧ r = .error e := by
  unfold Ends
  rw [run_bind]
  rcases Id.run (x.run.run s) with ⟨e | a, t⟩
  · constructor
    · intro h
      cases h
      exact .inr ⟨e, rfl, rfl⟩
    · rintro (⟨a, t', h, -⟩ | ⟨e', h, rfl⟩)
      · cases h
      · cases h
        rfl
  · constructor
    · intro h
      exact .inl ⟨a, t, rfl, h⟩
    · rintro (⟨a', t', h, hf⟩ | ⟨e, h, -⟩)
      · cases h
        exact hf
      · cases h

/-- A program that goes through a list fails at one of its elements, behind all before it. -/
theorem stopped_of_foldlM {g : β → α → Attempt (StateM σ) β} (as : List α) (b : β) (s s' : σ) (failure : Failure)
    (h : Ends (as.foldlM g b) s (.error failure) s') :
    ∃ before a after b' mid, as = before ++ a :: after ∧ Succeeds (before.foldlM g b) s b' mid ∧
      Ends (g b' a) mid (.error failure) s' := by
  induction as generalizing b s with
  | nil =>
    rw [List.foldlM_nil, ends_pure] at h
    cases h.1
  | cons a as ih =>
    rw [List.foldlM_cons, ends_bind] at h
    rcases h with ⟨next, t, hfirst, hothers⟩ | ⟨failure', hfirst, hfailure⟩
    · obtain ⟨before, a', after, b', mid, rfl, hbefore, hstopped⟩ := ih next t hothers
      refine ⟨a :: before, a', after, b', mid, rfl, ?_, hstopped⟩
      rw [List.foldlM_cons, succeeds_bind]
      exact ⟨next, t, hfirst, hbefore⟩
    · obtain rfl := Except.error.inj hfailure
      exact ⟨[], a, as, b, s, rfl, (succeeds_pure _ _ _ _).2 ⟨rfl, rfl⟩, hfirst⟩

@[simp] theorem ends_lift (x : StateM σ α) (s : σ) (r : Except Failure α) (s' : σ) :
    Ends (liftM x) s r s' ↔ ∃ a, Id.run (x.run s) = (a, s') ∧ r = .ok a := by
  have hr : Id.run ((liftM x : Attempt (StateM σ) α).run.run s) =
      (.ok (Id.run (x.run s)).1, (Id.run (x.run s)).2) := rfl
  unfold Ends
  rw [hr]
  rcases Id.run (x.run s) with ⟨a, t⟩
  constructor
  · intro h
    cases h
    exact ⟨a, rfl, rfl⟩
  · rintro ⟨b, h, rfl⟩
    cases h
    rfl

/-- A file operation ends a program with its result. -/
theorem run_operation (x : StateM σ (Except IoError α)) (s : σ) :
    Id.run ((Attempt.io x).run.run s) = ((Id.run (x.run s)).1.mapError .io, (Id.run (x.run s)).2) := rfl

@[simp] theorem ends_io_ok (x : StateM σ (Except IoError α)) (s : σ) (a : α) (s' : σ) :
    Ends (Attempt.io x) s (.ok a) s' ↔ Id.run (x.run s) = (.ok a, s') := succeeds_io x s a s'

@[simp] theorem ends_io_error (x : StateM σ (Except IoError α)) (s : σ) (f : Failure) (s' : σ) :
    Ends (Attempt.io x) s (.error f) s' ↔ ∃ e, Id.run (x.run s) = (.error e, s') ∧ f = .io e := by
  unfold Ends
  rw [run_operation]
  rcases Id.run (x.run s) with ⟨e | a, t⟩
  · constructor
    · intro h
      cases h
      exact ⟨e, rfl, rfl⟩
    · rintro ⟨e', h, rfl⟩
      cases h
      rfl
  · constructor
    · intro h
      cases h
    · rintro ⟨e', h, -⟩
      cases h

end Attempt

end CardIndex
