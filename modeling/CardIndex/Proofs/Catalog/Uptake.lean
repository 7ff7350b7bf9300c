import CardIndex.Proofs.Attempt
import CardIndex.Proofs.Catalog.Chunks

namespace CardIndex.Publisher

variable {σ : Type}

/-- A store that takes every batch whole. What it holds is told by the items that were written so far, and
only for items of a kind. -/
def TakesAll (p : Publisher (StateM σ)) (holds : σ → List Item → Prop) (kind : Item → Prop) : Prop :=
  ∀ s sofar batch rest s', holds s sofar → (∀ i ∈ batch, kind i) →
    (p.store.batchWrite p.table batch).Succeeds s rest s' → rest = [] ∧ holds s' (sofar ++ batch)

variable {p : Publisher (StateM σ)} {holds : σ → List Item → Prop} {kind : Item → Prop} [Clock (StateM σ)]

/-- With nothing left over there is nothing to send again. -/
theorem resend_nil (left attempt : Nat) :
    p.resend left attempt [] = pure ([], attempt) := by
  cases left with
  | zero => rfl
  | succ left => rw [resend, if_pos rfl]

theorem TakesAll.writeChunk (takes : p.TakesAll holds kind) (number : Nat) (sofar chunk : List Item)
    (s s' : σ) (retries : Nat) (hold : holds s sofar) (hkind : ∀ i ∈ chunk, kind i)
    (h : (p.writeChunk number chunk).Succeeds s retries s') : holds s' (sofar ++ chunk) := by
  simp only [Publisher.writeChunk, Attempt.succeeds_bind] at h
  obtain ⟨rest, t, hwrite, ⟨pending, attempts⟩, t', hresend, hend⟩ := h
  obtain ⟨rfl, hheld⟩ := takes s sofar chunk rest t hold hkind hwrite
  rw [resend_nil, Attempt.succeeds_pure] at hresend
  obtain ⟨hpending, rfl⟩ := hresend
  obtain ⟨rfl, rfl⟩ := Prod.mk.inj hpending
  rw [if_pos rfl, Attempt.succeeds_pure] at hend
  obtain ⟨-, rfl⟩ := hend
  exact hheld

theorem TakesAll.writeChunks (takes : p.TakesAll holds kind) (number : Nat) (sofar : List Item)
    (chunks : List (List Item)) (s s' : σ) (retries : Nat) (hold : holds s sofar)
    (hkind : ∀ i ∈ chunks.flatten, kind i) (h : (p.writeChunks number chunks).Succeeds s retries s') :
    holds s' (sofar ++ chunks.flatten) := by
  induction chunks generalizing number sofar s retries with
  | nil =>
    simp only [Publisher.writeChunks, Attempt.succeeds_pure] at h
    obtain ⟨-, rfl⟩ := h
    rw [List.flatten_nil, List.append_nil]
    exact hold
  | cons chunk chunks ih =>
    simp only [Publisher.writeChunks, Attempt.succeeds_bind, Attempt.succeeds_pure] at h
    obtain ⟨_, t, hchunk, _, t', hothers, -, rfl⟩ := h
    rw [List.flatten_cons] at hkind ⊢
    have hheld := takes.writeChunk number sofar chunk s t _ hold
      (fun i hi => hkind i (List.mem_append_left _ hi)) hchunk
    rw [← List.append_assoc]
    exact ih _ _ _ _ hheld (fun i hi => hkind i (List.mem_append_right _ hi)) hothers

/-- All cards are taken in their order, each with the time at the start. -/
theorem TakesAll.publish (takes : p.TakesAll holds kind) (cards : List Card) (now : Timestamp) (s s' : σ)
    (report : PublishReport) (hnow : Id.run ((Clock.now : StateM σ Timestamp).run s) = (now, s))
    (hold : holds s []) (hkind : ∀ c ∈ cards, kind (c.toItem now))
    (h : (p.publish cards).Succeeds s report s') : holds s' (cards.map (·.toItem now)) := by
  simp only [Publisher.publish, Attempt.succeeds_bind, Attempt.succeeds_lift, Attempt.succeeds_pure] at h
  obtain ⟨time, t, htime, retries, t', hchunks, -, rfl⟩ := h
  rw [hnow] at htime
  obtain ⟨rfl, rfl⟩ := Prod.mk.inj htime
  have hflatten := chunksOf_flatten p.chunkSize (cards.map (·.toItem now))
  have hheld := takes.writeChunks 1 [] _ s t' retries hold (by
    rw [hflatten]
    intro i hi
    obtain ⟨c, hc, rfl⟩ := List.mem_map.1 hi
    exact hkind c hc) hchunks
  rw [hflatten] at hheld
  exact hheld

end CardIndex.Publisher
