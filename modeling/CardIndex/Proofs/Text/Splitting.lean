namespace CardIndex.Text

/-- A text is taken apart piece by piece: it has no separator, or one comes behind its first piece. -/
theorem split_induction (sep : Char → Bool) {motive : List Char → Prop}
    (last : ∀ piece, (∀ c ∈ piece, sep c = false) → motive piece)
    (more : ∀ piece c rest, (∀ d ∈ piece, sep d = false) → sep c → motive rest → motive (piece ++ c :: rest))
    (text : List Char) : motive text := by
  have hpiece : ∀ c ∈ text.takeWhile (!sep ·), sep c = false := by
    intro c hc
    simpa using List.all_eq_true.1 List.all_takeWhile c hc
  have htext : text.takeWhile (!sep ·) ++ text.dropWhile (!sep ·) = text := List.takeWhile_append_dropWhile
  have hhead := List.head?_dropWhile_not (!sep ·) text
  cases hrest : text.dropWhile (!sep ·) with
  | nil =>
    rw [hrest, List.append_nil] at htext
    exact htext ▸ last _ hpiece
  | cons c rest =>
    rw [hrest] at htext hhead
    have hshorter := congrArg List.length htext
    have hc : sep c := by simpa using hhead
    exact htext ▸ more _ c rest hpiece hc (split_induction sep last more rest)
termination_by text.length
decreasing_by
  rw [List.length_append, List.length_cons] at hshorter
  omega

theorem of_mem_splitOnP (sep : Char → Bool) (text : List Char) :
    ∀ piece ∈ text.splitOnP sep, ∀ c ∈ piece, sep c = false := by
  induction text using split_induction sep with
  | last piece h => simpa [List.splitOnP_eq_singleton h] using h
  | more piece c rest h hc ih =>
    rw [List.splitOnP_append_cons_of_forall_mem h c hc, List.forall_mem_cons]
    exact ⟨h, ih⟩

end CardIndex.Text
