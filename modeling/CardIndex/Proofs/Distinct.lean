import CardIndex.Distinct
import Mathlib.Data.List.Induction

namespace CardIndex

variable {α : Type} [DecidableEq α]

theorem reverse_foldl_seen (xs seen : List α) :
    (xs.foldl (fun seen x => if x ∈ seen then seen else x :: seen) seen).reverse =
      seen.reverse ++ (xs.filter (· ∉ seen)).eraseDups := by
  induction xs generalizing seen with
  | nil => simp
  | cons x xs ih =>
    rw [List.foldl_cons, ih]
    by_cases hx : x ∈ seen
    · rw [if_pos hx, List.filter_cons_of_neg (by simpa using hx)]
    · have hseen : xs.filter (· ∉ x :: seen) = (xs.filter (· ∉ seen)).filter fun y => !y == x := by
        rw [List.filter_filter]
        refine List.filter_congr fun y _ => ?_
        by_cases hy : y = x <;> simp [hy]
      rw [if_neg hx, List.filter_cons_of_pos (by simpa using hx), List.eraseDups_cons, hseen,
        List.reverse_cons, List.append_assoc, List.singleton_append]

/-- Of equal elements the first one stays. -/
theorem distinct_eq_eraseDups (xs : List α) : distinct xs = xs.eraseDups := by
  have hall : xs.filter (· ∉ []) = xs := List.filter_eq_self.2 fun x _ => by simp
  rw [distinct, reverse_foldl_seen, hall, List.reverse_nil, List.nil_append]

/-- Only repetitions are left out. -/
theorem mem_distinct (xs : List α) (x : α) : x ∈ distinct xs ↔ x ∈ xs := by
  rw [distinct_eq_eraseDups, List.mem_eraseDups]

theorem distinct_concat (xs : List α) (x : α) :
    distinct (xs ++ [x]) = if x ∈ xs then distinct xs else distinct xs ++ [x] := by
  have hseen := mem_distinct xs x
  unfold distinct at hseen ⊢
  rw [List.mem_reverse] at hseen
  rw [List.foldl_append, List.foldl_cons, List.foldl_nil]
  by_cases hx : x ∈ xs
  · rw [if_pos (hseen.2 hx), if_pos hx]
  · rw [if_neg (mt hseen.1 hx), if_neg hx, List.reverse_cons]

/-- The elements stand in the order in which they came first: there is a time at which one has come and those
behind it have not. -/
theorem pairwise_distinct (xs : List α) :
    (distinct xs).Pairwise fun a b => ∃ front, front <+: xs ∧ a ∈ front ∧ b ∉ front := by
  induction xs using List.reverseRecOn with
  | nil => exact List.Pairwise.nil
  | append_singleton xs x ih =>
    have hbefore : (distinct xs).Pairwise fun a b => ∃ front, front <+: xs ++ [x] ∧ a ∈ front ∧ b ∉ front :=
      ih.imp fun ⟨front, hfront, hab⟩ => ⟨front, hfront.trans (List.prefix_append xs [x]), hab⟩
    rw [distinct_concat]
    split
    · exact hbefore
    · rename_i hx
      rw [List.pairwise_append]
      refine ⟨hbefore, List.pairwise_singleton _ _, ?_⟩
      intro a ha b hb
      obtain rfl := List.mem_singleton.1 hb
      exact ⟨xs, List.prefix_append xs [b], (mem_distinct xs a).1 ha, hx⟩

theorem nodup_distinct (xs : List α) : (distinct xs).Nodup :=
  (pairwise_distinct xs).imp fun ⟨_, _, ha, hb⟩ => fun hab => hb (hab ▸ ha)

end CardIndex
