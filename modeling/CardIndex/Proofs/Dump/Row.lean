import CardIndex.Dump
import CardIndex.Proofs.Lookup

namespace CardIndex

namespace Row

open Json (Value)

theorem getElem?_ofCells (names : List String) (cells : List Value) (i : Nat) :
    (ofCells names cells)[i]? = names[i]?.map fun name => (name, cells.getD i .null) := by
  unfold ofCells
  rw [List.getElem?_map, List.getElem?_zipIdx, Option.map_map]
  simp only [Nat.zero_add]
  rfl

@[simp] theorem map_fst_ofCells (names : List String) (cells : List Value) :
    (ofCells names cells).map (·.1) = names := by
  refine List.ext_getElem? fun i => ?_
  rw [List.getElem?_map, getElem?_ofCells, Option.map_map]
  cases names[i]? <;> rfl

@[simp] theorem length_ofCells (names : List String) (cells : List Value) :
    (ofCells names cells).length = names.length := by
  rw [← List.length_map (·.1), map_fst_ofCells]

/-- Only cells that belong to a column count, and a missing one is null. -/
theorem ofCells_congr {names : List String} {cells cells' : List Value}
    (h : ∀ i < names.length, cells.getD i .null = cells'.getD i .null) :
    ofCells names cells = ofCells names cells' := by
  refine List.ext_getElem? fun i => ?_
  rw [getElem?_ofCells, getElem?_ofCells]
  by_cases hi : i < names.length
  · rw [h i hi]
  · rw [List.getElem?_eq_none (Nat.le_of_not_lt hi)]
    rfl

theorem ofCells_eraseIdx (names : List String) (cells : List Value) (k : Nat) :
    ofCells (names.eraseIdx k) (cells.eraseIdx k) = (ofCells names cells).eraseIdx k := by
  refine List.ext_getElem? fun i => ?_
  simp only [getElem?_ofCells, List.getElem?_eraseIdx, List.getD_eq_getElem?_getD]
  split <;> rfl

/-- A row with one cell more, behind nulls if it is too short for that. -/
def insertCell (k : Nat) (v : Value) (cells : List Value) : List Value := (cells.rightpad k .null).insertIdx k v

theorem getD_append_replicate (cells : List Value) (n i : Nat) :
    (cells ++ List.replicate n Value.null).getD i .null = cells.getD i .null := by
  rw [List.getD_eq_getElem?_getD, List.getD_eq_getElem?_getD]
  by_cases hi : i < cells.length
  · rw [List.getElem?_append_left hi]
  · rw [List.getElem?_append_right (Nat.le_of_not_lt hi), List.getElem?_eq_none (Nat.le_of_not_lt hi),
      List.getElem?_replicate]
    split <;> rfl

theorem getD_insertCell (k i : Nat) (v : Value) (cells : List Value) :
    (insertCell k v cells).getD i .null =
      if i < k then cells.getD i .null else if i = k then v else cells.getD (i - 1) .null := by
  have hlength : k ≤ (cells.rightpad k .null).length := by
    unfold List.rightpad
    simp
    omega
  rw [insertCell, List.getD_eq_getElem?_getD, List.getElem?_insertIdx]
  split
  · rw [← List.getD_eq_getElem?_getD, List.rightpad, getD_append_replicate]
  split
  · rename_i hi
    rw [if_pos (hi ▸ hlength)]
    rfl
  · rw [← List.getD_eq_getElem?_getD, List.rightpad, getD_append_replicate]

theorem ofCells_insertIdx (names : List String) (cells : List Value) (k : Nat) (name : String) (v : Value) :
    ofCells (names.insertIdx k name) (insertCell k v cells) = (ofCells names cells).insertIdx k (name, v) := by
  refine List.ext_getElem? fun i => ?_
  rw [getElem?_ofCells, List.getElem?_insertIdx, List.getElem?_insertIdx, getD_insertCell, length_ofCells]
  split
  · rw [getElem?_ofCells]
  split
  · split <;> rfl
  · rw [getElem?_ofCells]

/-- The names of columns in another order. -/
def reorderNames (order : List Nat) (names : List String) : List String := order.map (names.getD · "")

/-- The cells of a row with its columns in another order. Cells behind the last name stay there. -/
def reorderCells (order : List Nat) (names : List String) (cells : List Value) : List Value :=
  order.map (cells.getD · .null) ++ cells.drop names.length

theorem ofCells_reorder (names : List String) (cells : List Value) {order : List Nat}
    (h : order.Perm (List.range names.length)) :
    (ofCells (reorderNames order names) (reorderCells order names cells)).Perm (ofCells names cells) := by
  have hpaired : ofCells (reorderNames order names) (reorderCells order names cells) =
      order.map fun i => (names.getD i "", cells.getD i .null) := by
    refine List.ext_getElem? fun j => ?_
    rw [getElem?_ofCells, reorderNames, reorderCells, List.getElem?_map, List.getElem?_map, Option.map_map]
    cases hj : order[j]? with
    | none => rfl
    | some i =>
      have hlt : j < (order.map (cells.getD · Value.null)).length := by
        rw [List.length_map]
        exact (List.getElem?_eq_some_iff.1 hj).1
      rw [List.getD_eq_getElem?_getD, List.getElem?_append_left hlt, List.getElem?_map, hj]
      rfl
  have hstraight : (List.range names.length).map (fun i => (names.getD i "", cells.getD i .null)) =
      ofCells names cells := by
    refine List.ext_getElem? fun i => ?_
    rw [getElem?_ofCells, List.getElem?_map]
    by_cases hi : i < names.length
    · simp [hi]
    · simp [hi]
  rw [hpaired, ← hstraight]
  exact h.map _

/-- Under the name of a column stands the cell of the first column of that name. -/
theorem lookup_ofCells (names : List String) (cells : List Value) (name : String) :
    (ofCells names cells).lookup name =
      if name ∈ names then some (cells.getD (names.idxOf name) .null) else none := by
  induction names generalizing cells with
  | nil => rfl
  | cons other names ih =>
    have hcons : ofCells (other :: names) cells = (other, cells.getD 0 .null) :: ofCells names cells.tail := by
      refine List.ext_getElem? fun i => ?_
      cases i with
      | zero => rw [getElem?_ofCells]; rfl
      | succ i =>
        rw [getElem?_ofCells, List.getElem?_cons_succ, List.getElem?_cons_succ, getElem?_ofCells]
        simp only [List.getD_eq_getElem?_getD, List.getElem?_tail]
    rw [hcons, List.lookup_cons]
    by_cases h : name = other
    · subst h
      simp
    · rw [beq_eq_false_iff_ne.mpr h, ih, List.idxOf_cons_ne _ (Ne.symm h)]
      simp only [List.mem_cons, h, false_or, List.getD_eq_getElem?_getD, List.getElem?_tail]

/-- What is found under aliases is the cell of the first of them that is a column, whatever that cell holds. -/
theorem get_ofCells (names : List String) (cells : List Value) (aliases : List String) :
    (ofCells names cells).get aliases = match aliases.find? (· ∈ names) with
      | some name => cells.getD (names.idxOf name) .null
      | none => .null := by
  induction aliases with
  | nil => rfl
  | cons name aliases ih =>
    unfold get at ih ⊢
    rw [List.findSome?_cons, List.find?_cons, lookup_ofCells]
    by_cases h : name ∈ names
    · simp [h]
    · simpa [h] using ih

theorem get_congr {row row' : Row} (h : ∀ name, row.lookup name = row'.lookup name) (aliases : List String) :
    row.get aliases = row'.get aliases := by
  unfold get
  simp only [h]

theorem get_append_cons (front back : Row) (aliases : List String) (name : String) (v : Value)
    (h : ∀ other ∈ aliases, other ≠ name ∨ other ∈ front.map (·.1)) :
    get (front ++ (name, v) :: back) aliases = get (front ++ back) aliases := by
  unfold get
  induction aliases with
  | nil => rfl
  | cons other aliases ih =>
    rw [List.forall_mem_cons] at h
    rw [List.findSome?_cons, List.findSome?_cons, lookup_append_cons front back name other v h.1]
    cases (front ++ back).lookup other with
    | some found => rfl
    | none => exact ih h.2

/-- A column that is no alias is not looked at. -/
theorem get_append_cons_of_notMem (front back : Row) {aliases : List String} {name : String} (v : Value)
    (h : name ∉ aliases) : get (front ++ (name, v) :: back) aliases = get (front ++ back) aliases := by
  apply get_append_cons
  intro other hother
  left
  rintro rfl
  exact h hother

/-- Aliases behind one that is a column are not looked at. -/
theorem get_append_of_mem (row : Row) (before behind : List String) (better : String) (hbetter : better ∈ before)
    (hcolumn : better ∈ row.map (·.1)) : row.get (before ++ behind) = row.get before := by
  have hfound : (before.findSome? fun name => row.lookup name).isSome := by
    rw [List.findSome?_isSome_iff]
    refine ⟨better, hbetter, ?_⟩
    rw [Option.isSome_iff_ne_none, ne_eq, List.lookup_eq_none_iff]
    intro hnone
    obtain ⟨cell, hcell, rfl⟩ := List.mem_map.1 hcolumn
    exact absurd (hnone cell hcell) (by simp)
  rw [get, get, List.findSome?_append, Option.or_of_isSome hfound]

end Row

end CardIndex
