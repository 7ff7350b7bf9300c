import Mathlib.Data.List.Forall2
import CardIndex.Proofs.Attempt
import CardIndex.Proofs.Catalog.Chunks
import CardIndex.Proofs.Catalog.Overwriting

namespace CardIndex

/-- A store writes some items of a batch, in batch order, and hands back the others, in any order. -/
def Splits (batch taken rest : List Item) : Prop :=
  taken.Sublist batch ∧ (taken ++ rest).Perm batch

/-- Items of a slug are written, unless some of them are handed back. -/
theorem Splits.latest_taken {batch taken rest : List Item} (h : Splits batch taken rest)
    (slug : String) (hr : latest rest slug = none) : latest taken slug = latest batch slug := by
  have hrest : rest.filter (·.slug = slug) = [] := List.getLast?_eq_none_iff.mp hr
  have hlength := (h.2.filter (·.slug = slug)).length_eq
  rw [List.filter_append, hrest, List.append_nil] at hlength
  have hsub := h.1.filter (·.slug = slug)
  unfold latest
  rw [hsub.eq_of_length hlength]

/-- The batches in which items are sent until none is handed back. Each is what was handed back of the
one before. -/
inductive Resent (handsBack : List Item → List Item → Prop) : List Item → List (List Item) → Prop
  | none : Resent handsBack [] []
  | again {batch rest sent} : handsBack batch rest → Resent handsBack rest sent →
      Resent handsBack batch (batch :: sent)

namespace Resent

variable {handsBack : List Item → List Item → Prop} {batch : List Item} {sent : List (List Item)}

theorem imp {allowed : List Item → List Item → Prop} (h : Resent handsBack batch sent)
    (hi : ∀ b r, handsBack b r → allowed b r) : Resent allowed batch sent := by
  induction h with
  | none => exact .none
  | again hb _ ih => exact .again (hi _ _ hb) ih

theorem starts (h : Resent handsBack batch sent) : ∃ others, sent.flatten = batch ++ others := by
  cases h with
  | none => exact ⟨[], rfl⟩
  | again _ h => exact ⟨_, List.flatten_cons⟩

theorem isSome_latest (h : Resent handsBack batch sent) (slug : String)
    (hb : (latest batch slug).isSome) : (latest sent.flatten slug).isSome := by
  obtain ⟨others, ho⟩ := h.starts
  rw [ho, latest_append]
  cases latest others slug with
  | none => simpa using hb
  | some i => rfl

/-- Where items handed back are trailing, the last item sent of a slug is the last of the chunk. -/
theorem latest_flatten (h : Resent handsBack batch sent)
    (ht : ∀ b r, handsBack b r → Trailing b r) (slug : String) :
    latest sent.flatten slug = latest batch slug := by
  induction h with
  | none => rfl
  | again hb _ ih =>
    rw [List.flatten_cons, latest_append, ih]
    exact latest_of_trailing _ _ (ht _ _ hb) slug

/-- A chunk without two items of one slug can only be handed back in a trailing way. -/
theorem trailing_of_nodup (h : Resent (fun b r => ∃ taken, Splits b taken r) batch sent)
    (hd : (batch.map Item.slug).Nodup) :
    Resent (fun b r => Trailing b r) batch sent := by
  induction h with
  | none => exact .none
  | @again b r _ hb _ ih =>
    obtain ⟨taken, htaken⟩ := hb
    refine .again (CardIndex.trailing_of_nodup b r hd taken htaken.2) (ih ?_)
    have hall := (htaken.2.map Item.slug).nodup_iff.mpr hd
    rw [List.map_append] at hall
    exact (List.nodup_append.mp hall).2.1

end Resent

/-- A view of the states that a store acts on: what it holds, and the batches it was given so far. -/
structure Ledger (σ : Type) where
  holdings : σ → Holdings
  batches : σ → List (List Item)

namespace Ledger

variable {σ : Type}

def Same (l : Ledger σ) (s s' : σ) : Prop :=
  l.holdings s' = l.holdings s ∧ l.batches s' = l.batches s

/-- Each write that a store answers without a failure has taken a part of the batch into the table and
handed back the rest. Nothing is asked of how it chooses, nor of a write that fails. -/
structure Fair [Clock (StateM σ)] (l : Ledger σ) (store : CatalogStore (StateM σ)) : Prop where
  write : ∀ table batch s rest s', (store.batchWrite table batch).Succeeds s rest s' →
    l.batches s' = l.batches s ++ [batch] ∧
    ∃ taken, Splits batch taken rest ∧ l.holdings s' = (l.holdings s).write table taken
  now : ∀ s t s', Id.run ((Clock.now : StateM σ Timestamp).run s) = (t, s') → l.Same s s'
  pause : ∀ d s u s', Id.run ((Clock.pause d : StateM σ Unit).run s) = (u, s') → l.Same s s'

variable {l : Ledger σ} {p : Publisher (StateM σ)} {handsBack : List Item → List Item → Prop}

/-- The store hands back of a batch only what is allowed. -/
def HandsBack (p : Publisher (StateM σ)) (handsBack : List Item → List Item → Prop) : Prop :=
  ∀ batch s rest s', (p.store.batchWrite p.table batch).Succeeds s rest s' → handsBack batch rest

/-- The invariant of the retries: the batches sent and what they left in the table. -/
structure Wrote (l : Ledger σ) (p : Publisher (StateM σ)) (s s' : σ) (sent : List (List Item)) : Prop where
  batches : l.batches s' = l.batches s ++ sent
  holdings : l.holdings s' = (l.holdings s).write p.table sent.flatten

theorem wrote_nil {s s' : σ} (h : l.Same s s') : l.Wrote p s s' [] := by
  constructor
  · rw [h.2, List.append_nil]
  · rw [h.1, List.flatten_nil, Holdings.write_nil]

theorem Wrote.trans {s t s' : σ} {xs ys : List (List Item)} (h : l.Wrote p s t xs)
    (k : l.Wrote p t s' ys) : l.Wrote p s s' (xs ++ ys) := by
  constructor
  · rw [k.batches, h.batches, List.append_assoc]
  · rw [k.holdings, h.holdings, Holdings.write_append, List.flatten_append]

variable [Clock (StateM σ)]

/-- A write followed by the retries of what it left: what it took and what comes later overwrite the table
as if the whole batch had been written first. -/
theorem wrote_again (fair : l.Fair p.store) {s t s' : σ} {batch rest : List Item}
    {sent : List (List Item)} (hw : (p.store.batchWrite p.table batch).Succeeds s rest t)
    (hs : Resent handsBack rest sent) (k : l.Wrote p t s' sent) :
    l.Wrote p s s' (batch :: sent) := by
  obtain ⟨hb, taken, hsplit, hh⟩ := fair.write _ _ _ _ _ hw
  constructor
  · rw [k.batches, hb, List.append_assoc, List.singleton_append]
  · rw [k.holdings, hh, Holdings.write_append, List.flatten_cons]
    apply Holdings.write_congr
    intro slug
    rw [latest_append, latest_append]
    cases hl : latest sent.flatten slug with
    | some i => rfl
    | none =>
      have hrest : latest rest slug = none := by
        cases hr : latest rest slug with
        | none => rfl
        | some i =>
          have hsome := hs.isSome_latest slug (by rw [hr]; rfl)
          rw [hl] at hsome
          cases hsome
      rw [hsplit.latest_taken slug hrest]

/-- The retries that end with nothing left have sent each batch once. -/
theorem resend_succeeds (fair : l.Fair p.store) (hp : HandsBack p handsBack) (left attempt : Nat)
    (pending : List Item) (s s' : σ) (n : Nat)
    (h : (p.resend left attempt pending).Succeeds s ([], n) s') :
    ∃ sent, Resent handsBack pending sent ∧ l.Wrote p s s' sent ∧ n = attempt + sent.length := by
  induction left generalizing attempt pending s with
  | zero =>
    simp only [Publisher.resend, Attempt.succeeds_pure, Prod.mk.injEq] at h
    obtain ⟨⟨rfl, rfl⟩, rfl⟩ := h
    exact ⟨[], .none, wrote_nil ⟨rfl, rfl⟩, rfl⟩
  | succ left ih =>
    unfold Publisher.resend at h
    split at h
    · simp only [Attempt.succeeds_pure, Prod.mk.injEq] at h
      obtain ⟨⟨rfl, rfl⟩, rfl⟩ := h
      exact ⟨[], .none, wrote_nil ⟨rfl, rfl⟩, rfl⟩
    · dsimp only at h
      split at h
      · exact (Attempt.not_succeeds_throw _ _ _ _ h).elim
      · simp only [Attempt.succeeds_bind, Attempt.succeeds_lift] at h
        obtain ⟨u, t, hpause, rest, t', hw, hrest⟩ := h
        obtain ⟨sent, hsent, hwrote, rfl⟩ := ih _ _ _ hrest
        have hsame := wrote_nil (p := p) (fair.pause _ _ _ _ hpause)
        refine ⟨pending :: sent, .again (hp _ _ _ _ hw) hsent, ?_, ?_⟩
        · exact hsame.trans (wrote_again fair hw hsent hwrote)
        · rw [List.length_cons]
          omega

theorem writeChunk_succeeds (fair : l.Fair p.store) (hp : HandsBack p handsBack) (number : Nat)
    (chunk : List Item) (s s' : σ) (n : Nat)
    (h : (p.writeChunk number chunk).Succeeds s n s') :
    ∃ sent, Resent handsBack chunk sent ∧ l.Wrote p s s' sent ∧ n + 1 = sent.length := by
  simp only [Publisher.writeChunk, Attempt.succeeds_bind] at h
  obtain ⟨rest, t, hw, ⟨pending, attempts⟩, t', hresend, hend⟩ := h
  split at hend
  · rename_i hnil
    simp only at hnil
    subst hnil
    simp only [Attempt.succeeds_pure] at hend
    obtain ⟨rfl, rfl⟩ := hend
    obtain ⟨sent, hsent, hwrote, rfl⟩ := resend_succeeds fair hp _ _ _ _ _ _ hresend
    refine ⟨chunk :: sent, .again (hp _ _ _ _ hw) hsent, wrote_again fair hw hsent hwrote, ?_⟩
    rw [List.length_cons]
    omega
  · exact (Attempt.not_succeeds_throw _ _ _ _ hend).elim

/-- Chunk by chunk, each was sent until nothing of it was left. -/
theorem writeChunks_succeeds (fair : l.Fair p.store) (hp : HandsBack p handsBack) (number : Nat)
    (chunks : List (List Item)) (s s' : σ) (n : Nat)
    (h : (p.writeChunks number chunks).Succeeds s n s') :
    ∃ sents, List.Forall₂ (Resent handsBack) chunks sents ∧ l.Wrote p s s' sents.flatten ∧
      n + chunks.length = sents.flatten.length := by
  induction chunks generalizing number s n with
  | nil =>
    simp only [Publisher.writeChunks, Attempt.succeeds_pure] at h
    obtain ⟨rfl, rfl⟩ := h
    exact ⟨[], .nil, wrote_nil ⟨rfl, rfl⟩, rfl⟩
  | cons chunk chunks ih =>
    simp only [Publisher.writeChunks, Attempt.succeeds_bind, Attempt.succeeds_pure] at h
    obtain ⟨retries, t, hchunk, others, t', hothers, rfl, rfl⟩ := h
    obtain ⟨sent, hsent, hwrote, hcount⟩ := writeChunk_succeeds fair hp _ _ _ _ _ hchunk
    obtain ⟨sents, hsents, hwrote', hcount'⟩ := ih _ _ _ hothers
    refine ⟨sent :: sents, .cons hsent hsents, ?_, ?_⟩
    · rw [List.flatten_cons]
      exact hwrote.trans hwrote'
    · rw [List.flatten_cons, List.length_append, List.length_cons]
      omega

end Ledger

end CardIndex
