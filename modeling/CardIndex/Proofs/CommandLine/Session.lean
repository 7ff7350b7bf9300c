import CardIndex.Proofs.Parallel

namespace CardIndex.CommandLine.Session

variable {σ τ α β : Type}

/-- The session, started in one state and behind some output, succeeds with a value, the output since then and
another state. -/
def Succeeds (x : Session (StateM σ) α) (printed : String) (s : σ) (a : α) (printed' : String) (s' : σ) : Prop :=
  Id.run ((x.run.run printed).run s) = ((.ok a, printed'), s')

theorem exists_succeeds_of_isSome {x : Session (StateM σ) α} {printed : String} {s : σ}
    (h : (Id.run ((x.run.run printed).run s)).1.1.toOption.isSome) :
    ∃ a printed', Succeeds x printed s a printed' (Id.run ((x.run.run printed).run s)).2 := by
  cases hx : (Id.run ((x.run.run printed).run s)).1.1 with
  | error trouble => rw [hx] at h; cases h
  | ok a => exact ⟨a, _, Prod.ext (Prod.ext hx rfl) rfl⟩

theorem run_bind (x : Session (StateM σ) α) (f : α → Session (StateM σ) β) (printed : String) (s : σ) :
    Id.run (((x >>= f).run.run printed).run s) = match Id.run ((x.run.run printed).run s) with
      | ((.ok a, p), t) => Id.run (((f a).run.run p).run t)
      | ((.error e, p), t) => ((.error e, p), t) := by
  simp only [ExceptT.run_bind, StateT.run_bind]
  rcases (x.run.run printed).run s with ⟨⟨_ | _, _⟩, _⟩ <;> rfl

theorem succeeds_bind (x : Session (StateM σ) α) (f : α → Session (StateM σ) β) (printed : String) (s : σ)
    (b : β) (printed' : String) (s' : σ) :
    Succeeds (x >>= f) printed s b printed' s' ↔
      ∃ a p t, Succeeds x printed s a p t ∧ Succeeds (f a) p t b printed' s' := by
  unfold Succeeds
  rw [run_bind]
  rcases Id.run ((x.run.run printed).run s) with ⟨⟨e | a, p⟩, t⟩
  · simp
  · constructor
    · intro h
      exact ⟨a, p, t, rfl, h⟩
    · rintro ⟨a', p', t', h, hf⟩
      cases h
      exact hf

theorem run_say (line printed : String) (s : σ) :
    Id.run (((say line : Session (StateM σ) Unit).run.run printed).run s) = ((.ok (), printed ++ line ++ "\n"), s) := rfl

theorem run_attempt (context : Option String) (x : Attempt (StateM σ) α) (printed : String) (s : σ) :
    Id.run (((attempt context x).run.run printed).run s) =
      (((Id.run (x.run.run s)).1.mapError (Trouble.mk context), printed), (Id.run (x.run.run s)).2) := rfl

theorem run_settled (x : Except SettingsFault α) (printed : String) (s : σ) :
    Id.run (((settled x : Session (StateM σ) α).run.run printed).run s) =
      ((x.mapError fun fault => ⟨none, .settings fault⟩, printed), s) := by
  cases x with
  | error fault => rfl
  | ok a => rfl

theorem succeeds_say (line printed : String) (s : σ) (u : Unit) (printed' : String) (s' : σ) :
    Succeeds (say line) printed s u printed' s' ↔ printed' = printed ++ line ++ "\n" ∧ s' = s := by
  unfold Succeeds
  rw [run_say]
  simp [eq_comm]

theorem succeeds_attempt (context : Option String) (x : Attempt (StateM σ) α) (printed : String) (s : σ)
    (a : α) (printed' : String) (s' : σ) :
    Succeeds (attempt context x) printed s a printed' s' ↔ x.Succeeds s a s' ∧ printed' = printed := by
  unfold Succeeds Attempt.Succeeds
  rw [run_attempt]
  rcases Id.run (x.run.run s) with ⟨e | b, t⟩
  · constructor
    · intro h
      cases h
    · rintro ⟨h, -⟩
      cases h
  · constructor
    · intro h
      cases h
      exact ⟨rfl, rfl⟩
    · rintro ⟨h, rfl⟩
      cases h
      rfl

/-- What was settled beforehand succeeds with what it was settled to. -/
theorem succeeds_settled (x : Except SettingsFault α) (printed : String) (s : σ) (a : α) (printed' : String)
    (s' : σ) :
    Succeeds (settled x : Session (StateM σ) α) printed s a printed' s' ↔
      x = .ok a ∧ s' = s ∧ printed' = printed := by
  unfold Succeeds
  rw [run_settled]
  cases x with
  | error fault =>
    constructor
    · intro h
      cases h
    · rintro ⟨h, -⟩
      cases h
  | ok b =>
    constructor
    · intro h
      cases h
      exact ⟨rfl, rfl, rfl⟩
    · rintro ⟨h, rfl, rfl⟩
      cases h
      rfl

theorem succeeds_lift (x : StateM σ α) (printed : String) (s : σ) (a : α) (printed' : String) (s' : σ) :
    Succeeds (liftM x : Session (StateM σ) α) printed s a printed' s' ↔
      Id.run (x.run s) = (a, s') ∧ printed' = printed := by
  have hr : Id.run (((liftM x : Session (StateM σ) α).run.run printed).run s) =
      ((.ok (Id.run (x.run s)).1, printed), (Id.run (x.run s)).2) := rfl
  unfold Succeeds
  rw [hr]
  rcases Id.run (x.run s) with ⟨b, t⟩
  constructor
  · intro h
    cases h
    exact ⟨rfl, rfl⟩
  · rintro ⟨h, rfl⟩
    cases h
    rfl

theorem run_outcome (x : Session (StateM σ) Unit) (s : σ) :
    Id.run ((outcome x).run s) = match Id.run ((x.run.run "").run s) with
      | ((.ok (), stdout), t) => (⟨0, stdout, ""⟩, t)
      | ((.error trouble, stdout), t) => (⟨1, stdout, trouble.report⟩, t) := by
  unfold outcome
  simp only [StateT.run_bind]
  rcases (x.run.run "").run s with ⟨⟨_ | _, _⟩, _⟩ <;> rfl

/-- A program ends with code zero where it succeeds, and only there. -/
theorem outcome_code_eq_zero_iff (x : Session (StateM σ) Unit) (s s' : σ) (out : Outcome)
    (h : Id.run ((outcome x).run s) = (out, s')) : out.code = 0 ↔ Succeeds x "" s () out.stdout s' := by
  rw [run_outcome] at h
  unfold Succeeds
  generalize Id.run ((x.run.run "").run s) = result at h ⊢
  obtain ⟨⟨e | a, p⟩, t⟩ := result
  · obtain ⟨rfl, -⟩ := Prod.mk.inj h
    have hone : (1 : UInt32) ≠ 0 := by decide
    exact ⟨fun hcode => absurd hcode hone, fun hresult => by cases hresult⟩
  · obtain ⟨rfl, rfl⟩ := Prod.mk.inj h
    exact ⟨fun _ => rfl, fun _ => rfl⟩

/-- From states that are related in one way both sessions end alike, in states that are related in another, and print
the same behind whatever was printed before. -/
def SideBySide (P S : σ → τ → Prop) (x : Session (StateM σ) α) (y : Session (StateM τ) α) : Prop :=
  ∀ s t, P s t → ∃ result more s' t', S s' t' ∧
    (∀ printed, Id.run ((x.run.run printed).run s) = ((result, printed ++ more), s')) ∧
    ∀ printed, Id.run ((y.run.run printed).run t) = ((result, printed ++ more), t')

variable {P S : σ → τ → Prop}

theorem SideBySide.bind {x : Session (StateM σ) α} {y : Session (StateM τ) α} {f : α → Session (StateM σ) β}
    {g : α → Session (StateM τ) β} (h : SideBySide P S x y) (hf : ∀ a, SideBySide S S (f a) (g a)) :
    SideBySide P S (x >>= f) (y >>= g) := by
  intro s t hst
  obtain ⟨result, more, s', t', hstates, hx, hy⟩ := h s t hst
  cases result with
  | error trouble =>
    refine ⟨.error trouble, more, s', t', hstates, fun printed => ?_, fun printed => ?_⟩
    · rw [run_bind, hx]
    · rw [run_bind, hy]
  | ok a =>
    obtain ⟨result, more', s'', t'', hstates', hf, hg⟩ := hf a s' t' hstates
    refine ⟨result, more ++ more', s'', t'', hstates', fun printed => ?_, fun printed => ?_⟩
    · rw [run_bind, hx, ← String.append_assoc]
      exact hf _
    · rw [run_bind, hy, ← String.append_assoc]
      exact hg _

theorem sideBySide_attempt (context : Option String) {x : Attempt (StateM σ) α} {y : Attempt (StateM τ) α}
    (h : Parallel P S Eq x y) : SideBySide P S (attempt context x) (attempt context y) := by
  intro s t hst
  obtain ⟨hresult, hstates⟩ := h s t hst
  refine ⟨(Id.run (x.run.run s)).1.mapError (Trouble.mk context), "", _, _, hstates, fun printed => ?_, fun printed => ?_⟩
  · rw [run_attempt, String.append_empty]
  · rw [run_attempt, String.append_empty, hresult.eq]

theorem sideBySide_settled (x : Except SettingsFault α) :
    SideBySide S S (settled x : Session (StateM σ) α) (settled x : Session (StateM τ) α) :=
  sideBySide_attempt none fun _ _ hst => ⟨.of_eq rfl, hst⟩

theorem sideBySide_say (line : String) :
    SideBySide S S (say line : Session (StateM σ) Unit) (say line : Session (StateM τ) Unit) := by
  intro s t hst
  refine ⟨.ok (), line ++ "\n", s, t, hst, fun printed => ?_, fun printed => ?_⟩
  · rw [← String.append_assoc]
    rfl
  · rw [← String.append_assoc]
    rfl

end CardIndex.CommandLine.Session
