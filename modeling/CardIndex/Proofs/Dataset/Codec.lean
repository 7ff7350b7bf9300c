import CardIndex.Dataset.Codec
import CardIndex.Proofs.Card.Codec
import CardIndex.Proofs.Timestamp

namespace CardIndex

open Json Json.Tree

@[simp] theorem Timestamp.ofTree?_toTree (t : Timestamp) : ofTree? t.toTree.reread = some t := by
  rw [ofTree?, toTree, text?_text, Option.bind_some, ofText?_text]

namespace Dataset

structure Storable (d : Dataset) : Prop where
  totalCards : d.totalCards < UInt64.size
  cards : ∀ c ∈ d.cards, c.Storable

theorem ofTree?_toTree (d : Dataset) (h : d.Storable) : ofTree? d.toTree.reread = some d := by
  have htotal := natural?_natural d.totalCards h.totalCards
  have hcards := list?_list d.cards fun c hc => c.ofTree?_toTree (h.cards c hc)
  rw [ofTree?, toTree, bind_fields?_reread]
  · simp [Fields.required_cons, htotal, hcards]
  · rfl
  · decide

/-- Whatever the total says, a dataset that can be read again has its cards. -/
theorem cards_of_ofTree? (d d' : Dataset) (hcards : ∀ c ∈ d.cards, c.Storable)
    (h : ofTree? d.toTree.reread = some d') : d'.cards = d.cards := by
  have hlist := list?_list d.cards fun c hc => c.ofTree?_toTree (hcards c hc)
  rw [ofTree?, toTree, bind_fields?_reread] at h
  · simp [Fields.required_cons, hlist] at h
    obtain ⟨total, -, h⟩ := Option.bind_eq_some_iff.1 h
    obtain rfl := Option.some.inj h
    rfl
  · rfl
  · decide

end Dataset

namespace ManifestEntry

@[simp] theorem ofTree?_toTree (e : ManifestEntry) : ofTree? e.toTree.reread = some e := by
  rw [ofTree?, toTree, bind_fields?_reread]
  · simp [Fields.required_cons, Fields.nullable_cons]
  · rfl
  · decide

theorem list?_toTree (entries : List ManifestEntry) :
    (list toTree entries).reread.list? ofTree? = some entries :=
  list?_list entries fun e _ => e.ofTree?_toTree

end ManifestEntry

end CardIndex
