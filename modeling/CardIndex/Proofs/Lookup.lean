import Mathlib.Data.List.Nodup
import Mathlib.Data.List.Perm.Basic

namespace CardIndex

theorem lookup_eq_some_iff_mem {α : Type} (entries : List (String × α)) (name : String) (a : α)
    (hnodup : (entries.map (·.1)).Nodup) : entries.lookup name = some a ↔ (name, a) ∈ entries := by
  induction entries with
  | nil => simp
  | cons e entries ih =>
    obtain ⟨other, b⟩ := e
    obtain ⟨hother, hrest⟩ := List.nodup_cons.1 hnodup
    rw [List.lookup_cons]
    by_cases h : name = other
    · subst h
      have hnone : (name, a) ∉ entries := fun hmem => hother (List.mem_map.2 ⟨_, hmem, rfl⟩)
      simp [hnone, eq_comm]
    · have hb : (name == other) = false := beq_eq_false_iff_ne.mpr h
      simp [hb, h, ih hrest]

/-- Where no name comes twice, the order does not matter. -/
theorem lookup_perm {α : Type} {entries entries' : List (String × α)} (h : entries.Perm entries')
    (hnodup : (entries.map (·.1)).Nodup) (name : String) : entries.lookup name = entries'.lookup name := by
  have hnodup' : (entries'.map (·.1)).Nodup := (h.map _).nodup_iff.1 hnodup
  refine Option.ext fun a => ?_
  rw [lookup_eq_some_iff_mem entries name a hnodup, lookup_eq_some_iff_mem entries' name a hnodup', h.mem_iff]

/-- Other names, and names that come before, do not notice an entry. -/
theorem lookup_append_cons {α : Type} (front back : List (String × α)) (name other : String) (a : α)
    (h : other ≠ name ∨ other ∈ front.map (·.1)) :
    (front ++ (name, a) :: back).lookup other = (front ++ back).lookup other := by
  rw [List.lookup_append, List.lookup_append, List.lookup_cons]
  rcases h with hne | hmem
  · rw [beq_eq_false_iff_ne.mpr hne]
  · obtain ⟨e, he, rfl⟩ := List.mem_map.1 hmem
    cases hfront : front.lookup e.1 with
    | some b => rfl
    | none => exact absurd (List.lookup_eq_none_iff.1 hfront e he) (by simp)

end CardIndex
