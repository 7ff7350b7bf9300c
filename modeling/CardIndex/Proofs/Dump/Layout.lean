import CardIndex.Proofs.Card.Restatement
import CardIndex.Proofs.Dump.Row
import Mathlib.Data.List.Forall2
import Mathlib.Data.List.InsertIdx
import Mathlib.Data.List.Pairwise

namespace CardIndex

open Json (Value)

namespace Card

/-- The names of the columns that a card is read from besides its id, for each field in the order of preference. -/
def contents : List (List String) := [
  ["slug"], ["colors", "color"], ["tags"], ["effect", "text"], ["name"], ["type", "card_type"], ["rarity"],
  ["set_name", "set", "setName"], ["cost"], ["might"], ["flavor", "flavor_text"], ["image", "image_url"], ["price"],
  ["foil_price", "foilPrice"], ["url", "market_url"]]

def sources : List (List String) := ["id"] :: contents

/-- No name belongs to two fields, or twice to one. -/
theorem nodup_sources : sources.flatten.Nodup := by decide +kernel

theorem eq_of_mem_sources {aliases aliases' : List String} {name : String} (haliases : aliases ∈ sources)
    (haliases' : aliases' ∈ sources) (hname : name ∈ aliases) (hname' : name ∈ aliases') : aliases = aliases' := by
  have hapart := (List.nodup_flatten.1 nodup_sources).2
  have hsymm : Std.Symm (List.Disjoint (α := String)) := ⟨fun _ _ h _ ha hb => h hb ha⟩
  by_contra hne
  exact hapart.forall haliases haliases' hne hname hname'

/-- The id of a row is its own or that of its position, and all else that a card has of its row are its contents. -/
theorem ofRow_eq_of_id {row row' : Row} {i j : Nat}
    (hid : (Cell.text? (row.get ["id"])).getD (nameOfPosition i) =
      (Cell.text? (row'.get ["id"])).getD (nameOfPosition j))
    (h : ∀ aliases ∈ contents, row.get aliases = row'.get aliases) : ofRow row i = ofRow row' j := by
  simp only [contents, List.forall_mem_cons] at h
  obtain ⟨slug, colors, tags, effect, name, kind, rarity, setName, cost, might, flavor, remote, price, foilPrice,
    marketUrl, -⟩ := h
  unfold ofRow
  simp only [hid, slug, colors, tags, effect, name, kind, rarity, setName, cost, might, flavor, remote, price,
    foilPrice, marketUrl]

theorem ofRow_congr {row row' : Row} (h : ∀ aliases ∈ sources, row.get aliases = row'.get aliases) (position : Nat) :
    ofRow row position = ofRow row' position := by
  rw [sources, List.forall_mem_cons] at h
  apply ofRow_eq_of_id
  · rw [h.1]
  · exact h.2

/-- A row that has an id has the same card everywhere. -/
theorem ofRow_of_named {row : Row} (h : Cell.text (row.get ["id"]) ≠ "") (i j : Nat) : ofRow row i = ofRow row j := by
  apply ofRow_eq_of_id
  · cases hid : Cell.text? (row.get ["id"]) with
    | none => exact absurd ((Cell.text?_eq_none_iff _).1 hid) h
    | some id => rfl
  · intro aliases _
    rfl

/-- What a card has from the position of its row: the id, and what the id decides. -/
structure Numbered (row : Row) (i : Nat) (c : Card) : Prop where
  id : c.id = "row-" ++ toString (i + 1)
  /-- Once the row states this id, its position has no part in the card. -/
  stated : ∀ j, ofRow (("id", .string c.id) :: row) j = c
  /-- At another position the card differs in no other fields. -/
  elsewhere : ∀ j, ofRow row j = { c with
    id := (ofRow row j).id
    slug := (ofRow row j).slug
    rules := (ofRow row j).rules
    assets := { c.assets with localPath := (ofRow row j).assets.localPath } }

theorem numbered_ofRow {row : Row} (h : Cell.text (row.get ["id"]) = "") (i : Nat) :
    Numbered row i (ofRow row i) := by
  have hnone : Cell.text? (row.get ["id"]) = none := (Cell.text?_eq_none_iff _).2 h
  have hid : (ofRow row i).id = nameOfPosition i := by
    show (Cell.text? (row.get ["id"])).getD (nameOfPosition i) = nameOfPosition i
    rw [hnone]
    rfl
  refine ⟨hid, ?_, fun j => rfl⟩
  intro j
  rw [hid]
  apply ofRow_eq_of_id
  · have hcell : Row.get (("id", .string (nameOfPosition i)) :: row) ["id"] = .string (nameOfPosition i) := rfl
    rw [hcell, Cell.text?_string (settled_nameOfPosition i), hnone]
    rfl
  · intro aliases haliases
    have hother : "id" ∉ aliases := by
      intro hname
      have hnodup := nodup_sources
      rw [sources, List.flatten_cons, List.singleton_append, List.nodup_cons] at hnodup
      exact hnodup.1 (List.mem_flatten_of_mem haliases hname)
    exact Row.get_append_cons_of_notMem [] row _ hother

end Card

namespace Dump

open Row

/-- A column that no card takes notice of: its name is no alias, stands already further in front, or comes behind an
alias that is also a column. The names are those of the other columns, and the place is among them. -/
inductive Idle (names : List String) (k : Nat) (name : String) : Prop
  | unknown (h : name ∉ Card.sources.flatten)
  | repeated (h : name ∈ names.take k)
  | hidden (better : String) (before behind : List String) (h : before ++ name :: behind ∈ Card.sources)
      (hbetter : better ∈ before) (hcolumn : better ∈ names)

theorem get_insertIdx_of_idle {row : Row} {k : Nat} {name : String} (hk : k ≤ row.length)
    (h : Idle (row.map (·.1)) k name) (v : Value) :
    ∀ aliases ∈ Card.sources, get (row.insertIdx k (name, v)) aliases = row.get aliases := by
  obtain ⟨front, back, rfl, rfl, hinsert⟩ := List.exists_of_modifyTailIdx (List.cons (name, v)) hk
  have htake : ((front ++ back).map (·.1)).take front.length = front.map (·.1) := by
    rw [List.map_append, ← List.length_map (·.1), List.take_left]
  rw [List.insertIdx, hinsert]
  intro aliases haliases
  cases h with
  | unknown h =>
    apply get_append_cons_of_notMem
    intro hname
    exact h (List.mem_flatten_of_mem haliases hname)
  | repeated h =>
    apply get_append_cons
    intro other _
    by_cases hne : other = name
    · exact .inr (hne ▸ htake ▸ h)
    · exact .inl hne
  | hidden better before behind h hbetter hcolumn =>
    have honce := (List.nodup_flatten.1 Card.nodup_sources).1
    by_cases hsame : aliases = before ++ name :: behind
    · have hbefore : name ∉ before := by
        intro hmem
        have hdisjoint := List.disjoint_of_nodup_append (honce _ h)
        exact hdisjoint hmem List.mem_cons_self
      have hcolumn' : better ∈ (front ++ (name, v) :: back).map (·.1) := by
        simp only [List.map_append, List.map_cons, List.mem_append, List.mem_cons] at hcolumn ⊢
        tauto
      rw [hsame, get_append_of_mem _ before _ better hbetter hcolumn,
        get_append_of_mem _ before _ better hbetter hcolumn']
      exact get_append_cons_of_notMem front back v hbefore
    · apply get_append_cons_of_notMem
      intro hname
      exact hsame (Card.eq_of_mem_sources haliases h hname (List.mem_append_right _ List.mem_cons_self))

/-- The dump with its columns in another order. -/
def reorderColumns (order : List Nat) (d : Dump) : Dump :=
  ⟨reorderNames order d.names, d.rows.map (reorderCells order d.names)⟩

/-- The dump without its column at a place. -/
def removeColumn (k : Nat) (d : Dump) : Dump := ⟨d.names.eraseIdx k, d.rows.map (·.eraseIdx k)⟩

/-- The dump with a column more, that has a cell for every row. -/
def insertColumn (k : Nat) (name : String) (column : Nat → Value) (d : Dump) : Dump :=
  ⟨d.names.insertIdx k name, d.rows.mapIdx fun i cells => insertCell k (column i) cells⟩

/-- The dump with the rows that stood at some places, in the order of these. -/
def pickRows (order : List Nat) (d : Dump) : Dump := ⟨d.names, order.filterMap (d.rows[·]?)⟩

theorem getElem?_cards (d : Dump) (i : Nat) :
    d.cards[i]? = d.rows[i]?.map fun cells => Card.ofRow (ofCells d.names cells) i :=
  List.getElem?_mapIdx

/-- Dumps have the same cards if their rows have, one by one. -/
theorem cards_congr {d d' : Dump} (hlength : d'.rows.length = d.rows.length)
    (h : ∀ (i : Nat) (cells cells' : List Value), d.rows[i]? = some cells → d'.rows[i]? = some cells' →
      ∀ aliases ∈ Card.sources, (ofCells d'.names cells').get aliases = (ofCells d.names cells).get aliases) :
    d'.cards = d.cards := by
  refine List.ext_getElem? fun i => ?_
  rw [getElem?_cards, getElem?_cards]
  by_cases hi : i < d.rows.length
  · have hi' : i < d'.rows.length := hlength ▸ hi
    rw [List.getElem?_eq_getElem hi, List.getElem?_eq_getElem hi']
    apply congrArg some
    apply Card.ofRow_congr
    exact h i _ _ (List.getElem?_eq_getElem hi) (List.getElem?_eq_getElem hi')
  · rw [List.getElem?_eq_none (Nat.le_of_not_lt hi), List.getElem?_eq_none (hlength ▸ Nat.le_of_not_lt hi)]
    rfl

theorem cards_reorderColumns (d : Dump) (hnodup : d.names.Nodup) (order : List Nat)
    (horder : order.Perm (List.range d.names.length)) : (d.reorderColumns order).cards = d.cards := by
  apply cards_congr (List.length_map _)
  intro i cells cells' hcells hcells' aliases _
  obtain rfl : reorderCells order d.names cells = cells' := by
    simpa [reorderColumns, hcells] using hcells'
  have hperm := ofCells_reorder d.names cells horder
  apply get_congr
  apply lookup_perm hperm
  rw [(hperm.map _).nodup_iff, map_fst_ofCells]
  exact hnodup

theorem cards_insertColumn (d : Dump) {k : Nat} {name : String} (hk : k ≤ d.names.length) (h : Idle d.names k name)
    (column : Nat → Value) : (d.insertColumn k name column).cards = d.cards := by
  apply cards_congr List.length_mapIdx
  intro i cells cells' hcells hcells'
  obtain rfl : insertCell k (column i) cells = cells' := by
    simpa [insertColumn, hcells] using hcells'
  rw [← map_fst_ofCells d.names cells] at h hk
  rw [List.length_map] at hk
  have hrow := ofCells_insertIdx d.names cells k name (column i)
  show ∀ aliases ∈ Card.sources, (ofCells (d.names.insertIdx k name) _).get aliases = _
  rw [hrow]
  exact get_insertIdx_of_idle hk h (column i)

theorem cards_removeColumn (d : Dump) {k : Nat} {name : String} (hname : d.names[k]? = some name)
    (h : Idle (d.names.eraseIdx k) k name) : (d.removeColumn k).cards = d.cards := by
  obtain ⟨hk, rfl⟩ := List.getElem?_eq_some_iff.1 hname
  symm
  apply cards_congr (List.length_map _).symm
  intro i cells' cells hcells' hcells
  obtain rfl : cells.eraseIdx k = cells' := by
    simpa [removeColumn, hcells] using hcells'
  have hlength : k < (ofCells d.names cells).length := by
    rw [length_ofCells]
    exact hk
  have hcell : (ofCells d.names cells)[k] = (d.names[k], cells.getD k .null) := by
    have hfound := getElem?_ofCells d.names cells k
    rw [List.getElem?_eq_getElem hlength, List.getElem?_eq_getElem hk] at hfound
    exact Option.some.inj hfound
  have hrow : (ofCells (d.names.eraseIdx k) (cells.eraseIdx k)).insertIdx k (d.names[k], cells.getD k .null) =
      ofCells d.names cells := by
    rw [ofCells_eraseIdx, ← hcell]
    exact List.insertIdx_eraseIdx_getElem hlength
  rw [← hrow]
  apply get_insertIdx_of_idle
  · rw [length_ofCells, List.length_eraseIdx_of_lt hk]
    omega
  · rw [map_fst_ofCells]
    exact h

/-- Rows may be written with other cells, as long as every column finds the same one. -/
theorem cards_of_cells (d : Dump) {rows : List (List Value)}
    (h : List.Forall₂ (fun cells cells' => ∀ i < d.names.length, cells'.getD i .null = cells.getD i .null)
      d.rows rows) : Dump.cards ⟨d.names, rows⟩ = d.cards := by
  obtain ⟨hlength, hcells⟩ := List.forall₂_iff_get.1 h
  apply cards_congr hlength.symm
  intro i cells cells' hi hi' aliases _
  obtain ⟨hlt, rfl⟩ := List.getElem?_eq_some_iff.1 hi
  obtain ⟨hlt', rfl⟩ := List.getElem?_eq_some_iff.1 hi'
  exact congrArg (Row.get · aliases) (ofCells_congr (hcells i hlt hlt'))

theorem cards_of_cut (d : Dump) {rows : List (List Value)}
    (h : List.Forall₂ (fun cells shorter => ∃ n, cells = shorter ++ List.replicate n .null) d.rows rows) :
    Dump.cards ⟨d.names, rows⟩ = d.cards := by
  apply cards_of_cells
  refine h.imp ?_
  rintro _ shorter ⟨n, rfl⟩ i _
  exact (getD_append_replicate shorter n i).symm

theorem cards_of_extended (d : Dump) {rows : List (List Value)}
    (h : List.Forall₂ (fun cells longer => d.names.length ≤ cells.length ∧ cells <+: longer) d.rows rows) :
    Dump.cards ⟨d.names, rows⟩ = d.cards := by
  apply cards_of_cells
  refine h.imp ?_
  rintro cells _ ⟨hlength, more, rfl⟩ i hi
  rw [List.getD_eq_getElem?_getD, List.getD_eq_getElem?_getD, List.getElem?_append_left (by omega)]

/-- Cards with ids of their own move with their rows. -/
theorem cards_pickRows (d : Dump) (h : ∀ cells ∈ d.rows, Cell.text ((ofCells d.names cells).get ["id"]) ≠ "")
    (order : List Nat) : (d.pickRows order).cards = order.filterMap (d.cards[·]?) := by
  have hcards : ∀ rows : List (List Value), (∀ cells ∈ rows, cells ∈ d.rows) →
      Dump.cards ⟨d.names, rows⟩ = rows.map fun cells => Card.ofRow (ofCells d.names cells) 0 := by
    intro rows hrows
    refine List.ext_getElem? fun i => ?_
    rw [getElem?_cards, List.getElem?_map]
    show rows[i]?.map (fun cells => Card.ofRow (ofCells d.names cells) i) = _
    cases hcells : rows[i]? with
    | none => rfl
    | some cells =>
      have hmem := hrows cells (List.mem_of_getElem? hcells)
      exact congrArg some (Card.ofRow_of_named (h cells hmem) i 0)
  have hpicked : ∀ cells ∈ order.filterMap (d.rows[·]?), cells ∈ d.rows := by
    intro cells hcells
    obtain ⟨i, -, hi⟩ := List.mem_filterMap.1 hcells
    exact List.mem_of_getElem? hi
  have hall : d.cards = d.rows.map fun cells => Card.ofRow (ofCells d.names cells) 0 :=
    hcards d.rows fun _ hcells => hcells
  rw [pickRows, hcards _ hpicked, hall, List.map_filterMap]
  simp only [List.getElem?_map]

/-- What of a dump's layout its cards depend on. -/
structure LayoutFree (d : Dump) : Prop where
  /-- A field is read from the first of its names that is a column, and from the first column of that name, also when
  the row has null there or nothing. -/
  read : ∀ (cells : List Value) (aliases : List String), (ofCells d.names cells).get aliases =
    match aliases.find? (· ∈ d.names) with
      | some name => cells.getD (d.names.idxOf name) .null
      | none => .null
  reordered : d.names.Nodup → ∀ order : List Nat, order.Perm (List.range d.names.length) →
    (d.reorderColumns order).cards = d.cards
  added : ∀ k name column, k ≤ d.names.length → Idle d.names k name → (d.insertColumn k name column).cards = d.cards
  removed : ∀ (k : Nat) (name : String), d.names[k]? = some name → Idle (d.names.eraseIdx k) k name →
    (d.removeColumn k).cards = d.cards
  cut : ∀ rows, List.Forall₂ (fun cells shorter => ∃ n, cells = shorter ++ List.replicate n .null) d.rows rows →
    Dump.cards ⟨d.names, rows⟩ = d.cards
  extended : ∀ rows, List.Forall₂ (fun cells longer => d.names.length ≤ cells.length ∧ cells <+: longer) d.rows rows →
    Dump.cards ⟨d.names, rows⟩ = d.cards
  picked : (∀ cells ∈ d.rows, Cell.text ((ofCells d.names cells).get ["id"]) ≠ "") →
    ∀ order, (d.pickRows order).cards = order.filterMap (d.cards[·]?)
  unnamed : ∀ (i : Nat) (cells : List Value), d.rows[i]? = some cells →
    Cell.text ((ofCells d.names cells).get ["id"]) = "" →
      ∃ c, d.cards[i]? = some c ∧ Card.Numbered (ofCells d.names cells) i c

theorem layout_free (d : Dump) : LayoutFree d where
  read := get_ofCells d.names
  reordered := cards_reorderColumns d
  added _ _ column hk h := cards_insertColumn d hk h column
  removed _ _ hname h := cards_removeColumn d hname h
  cut _ h := cards_of_cut d h
  extended _ h := cards_of_extended d h
  picked := cards_pickRows d
  unnamed i cells hcells h := by
    refine ⟨Card.ofRow (ofCells d.names cells) i, ?_, Card.numbered_ofRow h i⟩
    rw [getElem?_cards, hcells]
    rfl

/-- The empty cell of the better name hides the other name, and of two ids the first counts. -/
example : ((Dump.mk ["color", "id", "colors", "id"]
    [[.string "Red", .string "a", .null, .string "b"], [.string "Blue"]]).cards.map fun c => (c.id, c.colors)) =
      [("a", []), ("row-2", [])] := by decide +kernel

end Dump

end CardIndex
