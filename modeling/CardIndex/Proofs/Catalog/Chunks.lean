import CardIndex.Catalog.Publishing
import Mathlib.Logic.Function.Iterate

namespace CardIndex

variable {α β : Type}

@[simp] theorem chunksOf_nil (size : Nat) : chunksOf size ([] : List α) = [] := by
  rw [chunksOf]

theorem chunksOf_cons (size : Nat) (x : α) (xs : List α) :
    chunksOf size (x :: xs) =
      (x :: xs).take (max size 1) :: chunksOf (max size 1) ((x :: xs).drop (max size 1)) := by
  rw [chunksOf]

/-- The chunks in their order are the list. -/
theorem chunksOf_flatten (size : Nat) (items : List α) : (chunksOf size items).flatten = items := by
  fun_induction chunksOf size items with
  | case1 => rfl
  | case2 size x xs n ih => rw [List.flatten_cons, ih, List.take_append_drop]

theorem chunksOf_ne_nil (size : Nat) (items : List α) : ∀ chunk ∈ chunksOf size items, chunk ≠ [] := by
  fun_induction chunksOf size items with
  | case1 => simp
  | case2 size x xs n ih =>
    rw [List.forall_mem_cons]
    have hn : n ≠ 0 := by omega
    exact ⟨by simp [hn], ih⟩

theorem chunksOf_map (f : α → β) (size : Nat) (items : List α) :
    chunksOf size (items.map f) = (chunksOf size items).map (List.map f) := by
  fun_induction chunksOf size items with
  | case1 => simp
  | case2 size x xs n ih =>
    rw [List.map_cons, chunksOf_cons, ← List.map_cons, ← List.map_take, ← List.map_drop, ih]
    rfl

/-- As many chunks as it takes, the last of which need not be full. -/
theorem chunksOf_length (size : Nat) (items : List α) :
    (chunksOf size items).length = (items.length + max size 1 - 1) / max size 1 := by
  fun_induction chunksOf size items with
  | case1 size =>
    rw [List.length_nil, List.length_nil, Nat.zero_add, Nat.div_eq_of_lt (by omega)]
  | case2 size x xs n ih =>
    have hn : 0 < n := by omega
    have hsame : max n 1 = n := Nat.max_eq_left hn
    rw [List.length_cons, ih, List.length_drop, hsame]
    by_cases hle : n ≤ (x :: xs).length
    · have hsum : (x :: xs).length + n - 1 = ((x :: xs).length - n + n - 1) + n := by omega
      rw [hsum, Nat.add_div_right _ hn]
    · have hzero : (x :: xs).length - n = 0 := by omega
      have hsum : (x :: xs).length + n - 1 = ((x :: xs).length - 1) + n := by
        rw [List.length_cons]
        omega
      rw [hzero, hsum, Nat.add_div_right _ hn, Nat.div_eq_of_lt (by omega),
        Nat.div_eq_of_lt (by omega)]

theorem chunksOf_max (size : Nat) (items : List α) : chunksOf (max size 1) items = chunksOf size items := by
  have hsame : max (max size 1) 1 = max size 1 := by omega
  cases items with
  | nil => simp
  | cons x xs => rw [chunksOf_cons, chunksOf_cons, hsame]

/-- A full chunk at the front is cut off. -/
theorem chunksOf_append {size : Nat} {chunk : List α} (hchunk : chunk.length = max size 1) (rest : List α) :
    chunksOf size (chunk ++ rest) = chunk :: chunksOf size rest := by
  cases chunk with
  | nil =>
    rw [List.length_nil] at hchunk
    omega
  | cons x xs =>
    rw [List.cons_append, chunksOf_cons, chunksOf_max, ← List.cons_append, List.take_left' hchunk, List.drop_left' hchunk]

/-- What fits into one chunk is not cut. -/
theorem chunksOf_of_length_le {size : Nat} {chunk : List α} (hpos : 1 ≤ chunk.length) (hle : chunk.length ≤ max size 1) :
    chunksOf size chunk = [chunk] := by
  cases chunk with
  | nil => cases hpos
  | cons x xs => rw [chunksOf_cons, List.take_of_length_le hle, List.drop_of_length_le hle, chunksOf_nil]

/-- A list cut into chunks of a size, at least one. All but the last are full, and the last is not empty. -/
structure Cuts (size : Nat) (items : List α) (chunks : List (List α)) : Prop where
  flatten : chunks.flatten = items
  full : ∀ chunk ∈ chunks.dropLast, chunk.length = max size 1
  last : ∀ chunk ∈ chunks.getLast?, 1 ≤ chunk.length ∧ chunk.length ≤ max size 1

theorem Cuts.cons {size : Nat} {chunk rest : List α} {chunks : List (List α)} (hchunk : chunk.length = max size 1)
    (hrest : rest ≠ []) (h : Cuts size rest chunks) : Cuts size (chunk ++ rest) (chunk :: chunks) := by
  obtain ⟨rfl, hfull, hlast⟩ := h
  cases chunks with
  | nil => exact absurd rfl hrest
  | cons next chunks =>
    refine ⟨rfl, ?_, ?_⟩
    · rw [List.dropLast_cons_cons, List.forall_mem_cons]
      exact ⟨hchunk, hfull⟩
    · rw [List.getLast?_cons_cons]
      exact hlast

theorem cuts_chunksOf (size : Nat) (items : List α) : Cuts size items (chunksOf size items) := by
  induction hlength : items.length using Nat.strongRecOn generalizing items with
  | ind length ih =>
    subst hlength
    have hpos : 0 < max size 1 := by omega
    by_cases hle : items.length ≤ max size 1
    · cases items with
      | nil => rw [chunksOf_nil]; exact ⟨rfl, by simp, by simp⟩
      | cons x xs =>
        have hone : 1 ≤ (x :: xs).length := by simp
        rw [chunksOf_of_length_le hone hle]
        exact ⟨List.flatten_singleton, by simp, by simpa using hle⟩
    · have htake : (items.take (max size 1)).length = max size 1 := by
        rw [List.length_take]
        omega
      have hdrop : (items.drop (max size 1)).length = items.length - max size 1 := List.length_drop
      have hrest := ih _ (by omega) (items.drop (max size 1)) rfl
      have hne : items.drop (max size 1) ≠ [] := List.ne_nil_of_length_pos (by omega)
      rw [← List.take_append_drop (max size 1) items, chunksOf_append htake]
      exact hrest.cons htake hne

/-- There is no other way to cut a list. -/
theorem Cuts.eq_chunksOf {size : Nat} {items : List α} {chunks : List (List α)} (h : Cuts size items chunks) :
    chunks = chunksOf size items := by
  obtain ⟨rfl, hfull, hlast⟩ := h
  induction chunks with
  | nil => simp
  | cons chunk chunks ih =>
    cases chunks with
    | nil =>
      obtain ⟨hpos, hle⟩ := hlast chunk rfl
      rw [List.flatten_singleton, chunksOf_of_length_le hpos hle]
    | cons next chunks =>
      rw [List.dropLast_cons_cons, List.forall_mem_cons] at hfull
      rw [List.getLast?_cons_cons] at hlast
      rw [List.flatten_cons, chunksOf_append hfull.1, ← ih hfull.2 hlast]

/-- One turn of cutting: as long as items are left, a chunk is taken off and put behind those before. -/
def cutOff (size : Nat) : List α × List (List α) → List α × List (List α)
  | ([], chunks) => ([], chunks)
  | (x :: xs, chunks) => ((x :: xs).drop (max size 1), chunks ++ [(x :: xs).take (max size 1)])

theorem length_cutOff (size : Nat) (z : List α × List (List α)) :
    (cutOff size z).1.length = z.1.length - max size 1 := by
  rcases z with ⟨_ | ⟨x, xs⟩, chunks⟩
  · simp [cutOff]
  · exact List.length_drop

/-- What was cut off, with the chunks of what is left, stays the same. -/
theorem cutOff_append (size : Nat) (z : List α × List (List α)) :
    (cutOff size z).2 ++ chunksOf size (cutOff size z).1 = z.2 ++ chunksOf size z.1 := by
  rcases z with ⟨_ | ⟨x, xs⟩, chunks⟩
  · rfl
  · rw [chunksOf_cons, chunksOf_max, cutOff, List.append_assoc, List.singleton_append]

theorem length_cutOff_iterate (size turns : Nat) (z : List α × List (List α)) :
    ((cutOff size)^[turns] z).1.length = z.1.length - turns * max size 1 := by
  induction turns with
  | zero => simp
  | succ turns ih =>
    rw [Function.iterate_succ_apply', length_cutOff, ih, Nat.succ_mul, Nat.sub_sub]

theorem cutOff_iterate_append (size turns : Nat) (z : List α × List (List α)) :
    ((cutOff size)^[turns] z).2 ++ chunksOf size ((cutOff size)^[turns] z).1 = z.2 ++ chunksOf size z.1 := by
  induction turns with
  | zero => rfl
  | succ turns ih => rw [Function.iterate_succ_apply', cutOff_append, ih]

/-- Cutting ends after as many turns as there are chunks, and not before. -/
theorem cutOff_iterate_iff (size turns : Nat) (items : List α) :
    (cutOff size)^[turns] (items, []) = ([], chunksOf size items) ↔
      (items.length + max size 1 - 1) / max size 1 ≤ turns := by
  have hlength : ((cutOff size)^[turns] (items, [])).1.length = items.length - turns * max size 1 :=
    length_cutOff_iterate size turns _
  have hchunks := cutOff_iterate_append size turns (items, [])
  have hpos : 0 < max size 1 := by omega
  have hceil : (items.length + max size 1 - 1) / max size 1 ≤ turns ↔ items.length ≤ turns * max size 1 := by
    rw [Nat.div_le_iff_le_mul hpos]
    omega
  rw [hceil]
  constructor
  · intro h
    rw [h, List.length_nil] at hlength
    omega
  · intro h
    have hnone : ((cutOff size)^[turns] (items, [])).1 = [] := List.eq_nil_of_length_eq_zero (by omega)
    rw [hnone, chunksOf_nil, List.append_nil, List.nil_append] at hchunks
    exact Prod.ext hnone hchunks

/-- For every size, also zero, there is one way to cut a list, and cutting off one chunk after the other finds it in as
many turns as it takes chunks. -/
theorem chunksOf_exact (size : Nat) (items : List α) :
    (∀ chunks, Cuts size items chunks ↔ chunks = chunksOf size items) ∧
      (chunksOf size items).length = (items.length + max size 1 - 1) / max size 1 ∧
      ∀ turns, (cutOff size)^[turns] (items, []) = ([], chunksOf size items) ↔ (chunksOf size items).length ≤ turns := by
  refine ⟨fun chunks => ⟨Cuts.eq_chunksOf, ?_⟩, chunksOf_length size items, fun turns => ?_⟩
  · rintro rfl
    exact cuts_chunksOf size items
  · rw [chunksOf_length]
    exact cutOff_iterate_iff size turns items

end CardIndex
