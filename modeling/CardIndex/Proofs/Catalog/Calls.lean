import CardIndex.Catalog.Publishing
import CardIndex.Proofs.Attempt

namespace CardIndex

/-- One call of a store, and the pauses asked for since the call before it. -/
structure Call where
  pauses : List Duration
  table : String
  batch : List Item
  answer : Except Failure (List Item)

/-- A state beside the calls made so far and the pauses asked for since the last of them. -/
structure Recorded (σ : Type) where
  state : σ
  calls : List Call
  pauses : List Duration

variable {σ α β : Type}

def CatalogStore.recorded (store : CatalogStore (StateM σ)) : CatalogStore (StateM (Recorded σ)) where
  name := store.name
  batchWrite table batch := ExceptT.mk fun r =>
    let (answer, state) := Id.run ((store.batchWrite table batch).run.run r.state)
    (answer, ⟨state, r.calls ++ [⟨r.pauses, table, batch, answer⟩], []⟩)

instance [Clock (StateM σ)] : Clock (StateM (Recorded σ)) where
  now := fun r =>
    let (time, state) := Id.run ((Clock.now : StateM σ Timestamp).run r.state)
    (time, { r with state })
  pause d := fun r =>
    let (u, state) := Id.run ((Clock.pause d : StateM σ Unit).run r.state)
    (u, { r with state, pauses := r.pauses ++ [d] })

namespace Recorded

open Attempt

theorem ends_batchWrite {store : CatalogStore (StateM σ)} {table : String} {batch : List Item} {r r' : Recorded σ}
    {answer : Except Failure (List Item)} (h : Ends (store.recorded.batchWrite table batch) r answer r') :
    ∃ s, Ends (store.batchWrite table batch) r.state answer s ∧
      r' = ⟨s, r.calls ++ [⟨r.pauses, table, batch, answer⟩], []⟩ := by
  obtain ⟨rfl, rfl⟩ := Prod.mk.inj h
  exact ⟨_, rfl, rfl⟩

/-- A program on recorded states ends as another does on the states alone. -/
def Mirrors (x : Attempt (StateM (Recorded σ)) α) (y : Attempt (StateM σ) α) : Prop :=
  ∀ r a r', Ends x r a r' → Ends y r.state a r'.state

theorem mirrors_pure (a : α) : Mirrors (pure a : Attempt (StateM (Recorded σ)) α) (pure a) := by
  intro r b r' h
  obtain ⟨rfl, rfl⟩ := (ends_pure _ _ _ _).1 h
  exact (ends_pure _ _ _ _).2 ⟨rfl, rfl⟩

theorem mirrors_throw (f : Failure) : Mirrors (throw f : Attempt (StateM (Recorded σ)) α) (throw f) := by
  intro r b r' h
  obtain ⟨rfl, rfl⟩ := (ends_throw _ _ _ _).1 h
  exact (ends_throw _ _ _ _).2 ⟨rfl, rfl⟩

theorem Mirrors.bind {x : Attempt (StateM (Recorded σ)) α} {y : Attempt (StateM σ) α}
    {f : α → Attempt (StateM (Recorded σ)) β} {g : α → Attempt (StateM σ) β} (hx : Mirrors x y)
    (hf : ∀ a, Mirrors (f a) (g a)) : Mirrors (x >>= f) (y >>= g) := by
  intro r b r' h
  rcases (ends_bind _ _ _ _ _).1 h with ⟨a, t, ha, hb⟩ | ⟨e, he, rfl⟩
  · exact (ends_bind _ _ _ _ _).2 (.inl ⟨a, t.state, hx _ _ _ ha, hf a _ _ _ hb⟩)
  · exact (ends_bind _ _ _ _ _).2 (.inr ⟨e, hx _ _ _ he, rfl⟩)

theorem mirrors_batchWrite (store : CatalogStore (StateM σ)) (table : String) (batch : List Item) :
    Mirrors (store.recorded.batchWrite table batch) (store.batchWrite table batch) := by
  intro r a r' h
  obtain ⟨s, hs, rfl⟩ := ends_batchWrite h
  exact hs

variable [Clock (StateM σ)]

theorem run_pause {d : Duration} {r r' : Recorded σ} {u : Unit}
    (h : Id.run ((Clock.pause d : StateM (Recorded σ) Unit).run r) = (u, r')) :
    ∃ s, Id.run ((Clock.pause d : StateM σ Unit).run r.state) = (u, s) ∧ r' = ⟨s, r.calls, r.pauses ++ [d]⟩ := by
  obtain ⟨rfl, rfl⟩ := Prod.mk.inj h
  exact ⟨_, rfl, rfl⟩

theorem run_now {r r' : Recorded σ} {time : Timestamp}
    (h : Id.run ((Clock.now : StateM (Recorded σ) Timestamp).run r) = (time, r')) :
    ∃ s, Id.run ((Clock.now : StateM σ Timestamp).run r.state) = (time, s) ∧ r' = ⟨s, r.calls, r.pauses⟩ := by
  obtain ⟨rfl, rfl⟩ := Prod.mk.inj h
  exact ⟨_, rfl, rfl⟩

theorem mirrors_pause (d : Duration) :
    Mirrors (liftM (Clock.pause d : StateM (Recorded σ) Unit) : Attempt (StateM (Recorded σ)) Unit)
      (liftM (Clock.pause d : StateM σ Unit) : Attempt (StateM σ) Unit) := by
  intro r a r' h
  obtain ⟨u, hu, rfl⟩ := (ends_lift _ _ _ _).1 h
  obtain ⟨s, hs, rfl⟩ := run_pause hu
  exact (ends_lift _ _ _ _).2 ⟨u, hs, rfl⟩

theorem mirrors_now :
    Mirrors (liftM (Clock.now : StateM (Recorded σ) Timestamp) : Attempt (StateM (Recorded σ)) Timestamp)
      (liftM (Clock.now : StateM σ Timestamp) : Attempt (StateM σ) Timestamp) := by
  intro r a r' h
  obtain ⟨time, htime, rfl⟩ := (ends_lift _ _ _ _).1 h
  obtain ⟨s, hs, rfl⟩ := run_now htime
  exact (ends_lift _ _ _ _).2 ⟨time, hs, rfl⟩

end Recorded

namespace Publisher

open Recorded

/-- A publisher whose calls are recorded. -/
def recorded (p : Publisher (StateM σ)) : Publisher (StateM (Recorded σ)) where
  store := p.store.recorded
  table := p.table
  chunkSize := p.chunkSize
  policy := p.policy

variable [Clock (StateM σ)] (p : Publisher (StateM σ))

theorem mirrors_resend (left attempt : Nat) (pending : List Item) :
    Mirrors (p.recorded.resend left attempt pending) (p.resend left attempt pending) := by
  induction left generalizing attempt pending with
  | zero => exact mirrors_pure _
  | succ left ih =>
    unfold Publisher.resend
    split
    · exact mirrors_pure _
    · have hpolicy : p.recorded.policy = p.policy := rfl
      dsimp only
      rw [hpolicy]
      cases p.policy.delay? (UInt32.ofNat (attempt + 1)) with
      | none => exact mirrors_throw _
      | some delay =>
        refine (mirrors_pause delay).bind fun _ => ?_
        exact (mirrors_batchWrite p.store p.table pending).bind fun rest => ih _ rest

theorem mirrors_writeChunk (number : Nat) (chunk : List Item) :
    Mirrors (p.recorded.writeChunk number chunk) (p.writeChunk number chunk) := by
  refine (mirrors_batchWrite p.store p.table chunk).bind fun rest => ?_
  refine (mirrors_resend p _ _ rest).bind fun (pending, attempts) => ?_
  dsimp only
  split
  · exact mirrors_pure _
  · exact mirrors_throw _

theorem mirrors_writeChunks (number : Nat) (chunks : List (List Item)) :
    Mirrors (p.recorded.writeChunks number chunks) (p.writeChunks number chunks) := by
  induction chunks generalizing number with
  | nil => exact mirrors_pure _
  | cons chunk chunks ih =>
    refine (mirrors_writeChunk p number chunk).bind fun retries => ?_
    exact (ih _).bind fun others => mirrors_pure _

/-- That a run is recorded changes neither how it ends nor the store. -/
theorem mirrors_publish (cards : List Card) : Mirrors (p.recorded.publish cards) (p.publish cards) := by
  refine mirrors_now.bind fun now => ?_
  exact (mirrors_writeChunks p 1 _).bind fun retries => mirrors_pure _

/-- The record of a run: the state it leaves and the calls it made. -/
def record (p : Publisher (StateM σ)) (cards : List Card) (s : σ) : Recorded σ :=
  (Id.run ((p.recorded.publish cards).run.run ⟨s, [], []⟩)).2

end Publisher

end CardIndex
