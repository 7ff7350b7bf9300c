import CardIndex.Entries

namespace CardIndex.Entries

variable {α : Type}

@[simp] theorem get?_cons (other name : String) (a : α) (es : Entries α) :
    get? ((other, a) :: es) name = if name = other then some a else get? es name := by
  by_cases h : name = other
  · simp [get?, h]
  · have hb : (name == other) = false := beq_eq_false_iff_ne.mpr h
    simp [get?, List.lookup_cons, h, hb]

/-- What was put under a name is found there, and nothing else is found in another way than before. -/
theorem get?_put (name other : String) (a : α) (es : Entries α) :
    get? (put name a es) other = if other = name then some a else get? es other := by
  induction es with
  | nil => simp [put]
  | cons e es ih =>
    obtain ⟨key, b⟩ := e
    unfold put
    split
    · simp
    · split
      · rename_i h
        subst h
        by_cases ho : other = name <;> simp [ho]
      · rename_i _ h
        by_cases ho : other = key
        · have hn : ¬ other = name := by
            intro hn
            exact h (hn ▸ ho)
          simp [ho, Ne.symm h]
        · simp [ho, ih]

/-- The names stand in their order, each once. -/
def Ordered (es : Entries α) : Prop := es.Pairwise fun e f => e.1 < f.1

theorem ordered_nil : Ordered ([] : Entries α) := List.Pairwise.nil

theorem mem_put (name : String) (a : α) (es : Entries α) (e : String × α)
    (h : e ∈ put name a es) : e = (name, a) ∨ e ∈ es := by
  induction es with
  | nil => simpa [put] using h
  | cons f es ih =>
    unfold put at h
    split at h
    · simpa using h
    · split at h
      · rcases List.mem_cons.mp h with h | h
        · exact .inl h
        · exact .inr (List.mem_cons_of_mem _ h)
      · rcases List.mem_cons.mp h with h | h
        · exact .inr (h ▸ List.mem_cons_self)
        · exact (ih h).imp id (List.mem_cons_of_mem _)

theorem ordered_put (name : String) (a : α) (es : Entries α) (h : Ordered es) :
    Ordered (put name a es) := by
  induction es with
  | nil => simp [put, Ordered]
  | cons e es ih =>
    obtain ⟨key, b⟩ := e
    obtain ⟨hkey, hes⟩ := List.pairwise_cons.mp h
    unfold put
    split
    · rename_i hlt
      refine List.pairwise_cons.mpr ⟨?_, h⟩
      intro f hf
      rcases List.mem_cons.mp hf with rfl | hf
      · exact hlt
      · exact String.lt_trans hlt (hkey f hf)
    · split
      · rename_i heq
        subst heq
        exact List.pairwise_cons.mpr ⟨hkey, hes⟩
      · rename_i hlt hne
        refine List.pairwise_cons.mpr ⟨?_, ih hes⟩
        intro f hf
        rcases mem_put name a es f hf with rfl | hf
        · refine Decidable.byContradiction fun hge => hne ?_
          exact String.le_antisymm (String.not_lt.mp hge) (String.not_lt.mp hlt)
        · exact hkey f hf

/-- A name behind all others is put at the end. -/
theorem put_behind (name : String) (a : α) (es : Entries α) (h : ∀ e ∈ es, e.1 < name) :
    put name a es = es ++ [(name, a)] := by
  induction es with
  | nil => rfl
  | cons e es ih =>
    obtain ⟨key, b⟩ := e
    have hkey : key < name := h (key, b) List.mem_cons_self
    have hlt : ¬ name < key := String.lt_asymm hkey
    have hne : ¬ name = key := by
      intro hne
      subst hne
      exact String.lt_irrefl _ hkey
    unfold put
    rw [if_neg hlt, if_neg hne, ih (fun e he => h e (List.mem_cons_of_mem _ he))]
    rfl

end CardIndex.Entries
