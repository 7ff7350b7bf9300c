namespace CardIndex

/-- The elements of a list without those that came before, as a first occurrence keeps its place. -/
def distinct {α : Type} [DecidableEq α] (xs : List α) : List α :=
  (xs.foldl (fun seen x => if x ∈ seen then seen else x :: seen) []).reverse

end CardIndex
