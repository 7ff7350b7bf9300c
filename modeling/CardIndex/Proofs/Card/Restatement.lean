import CardIndex.Enrichment
import CardIndex.Proofs.Cell

namespace CardIndex.Card

open Cell Json Text

/-- The columns of a row that states a card. -/
def columns : List String := [
  "id", "slug", "name", "type", "rarity", "set_name", "flavor", "image", "url", "effect", "colors", "tags", "cost",
  "might", "price", "foil_price"]

/-- The cells of the row that states a card. -/
def cells (c : Card) : List Value := [
  .string c.id,
  .string c.slug,
  ofText? c.name,
  ofText? c.kind,
  ofText? c.rarity,
  ofText? c.setName,
  ofText? c.flavor,
  ofText? c.assets.remote,
  ofText? c.references.marketUrl,
  .string c.effect,
  ofList c.colors,
  ofList c.tags,
  ofText? c.cost.raw,
  ofNumber? c.might,
  ofNumber? c.pricing.price,
  ofNumber? c.pricing.foilPrice]

/-- The fields that need not have a text. -/
def optionalTexts (c : Card) : List (Option String) :=
  [c.name, c.kind, c.rarity, c.setName, c.cost.raw, c.flavor, c.assets.remote, c.references.marketUrl]

/-- No text of a card that comes from a cell has white space at an end, and none but the effect is empty. -/
structure Tidy (c : Card) : Prop where
  id : Settled c.id
  slug : Settled c.slug
  optional : ∀ o ∈ c.optionalTexts, ∀ s ∈ o, Settled s
  entries : ∀ s ∈ c.colors ++ c.tags, Settled s
  effect : Trimmed c.effect.toList

/-- The fields of a card that its other fields decide. -/
structure Derived (c : Card) : Prop where
  cost : c.cost = Cost.ofText (c.cost.raw.getD "")
  keywords : c.keywords = Effect.keywords c.colors c.tags c.effect
  activation : c.activation = Effect.activation c.effect
  rules : c.rules = Effect.clauses c.id c.effect
  localPath : c.assets.localPath = AssetLayout.standard.path c.slug
  currency : c.pricing.currency = currency
  source : c.references.source = provenance

theorem settled_nameOfPosition (position : Nat) : Settled (nameOfPosition position) := by
  have hname : (nameOfPosition position).toList = ['r', 'o', 'w', '-'] ++ Nat.toDigits 10 (position + 1) := by
    simp [nameOfPosition, Nat.toString_eq_repr, Nat.repr]
  constructor
  · apply trimmed_of_forall
    rw [hname, List.forall_mem_append]
    refine ⟨by simp [isBlank], fun c hc => ?_⟩
    exact isBlank_of_isDigit c (Nat.isDigit_of_mem_toDigits (by decide) (by decide) hc)
  · intro hempty
    rw [hempty] at hname
    cases hname

theorem tidy_ofRow (row : Row) (position : Nat) : (ofRow row position).Tidy := by
  have hid : Settled (ofRow row position).id := by
    cases hcell : text? (row.get ["id"]) with
    | none => simpa [ofRow, hcell] using settled_nameOfPosition position
    | some s => simpa [ofRow, hcell] using settled_of_text? s hcell
  have hslug : Settled (ofRow row position).slug := by
    cases hcell : text? (row.get ["slug"]) with
    | none => simpa [ofRow, hcell] using hid
    | some s => simpa [ofRow, hcell] using settled_of_text? s hcell
  refine ⟨hid, hslug, ?_, ?_, trimmed_text _⟩
  · have hcells : (ofRow row position).optionalTexts = [
        row.get ["name"], row.get ["type", "card_type"], row.get ["rarity"], row.get ["set_name", "set", "setName"],
        row.get ["cost"], row.get ["flavor", "flavor_text"], row.get ["image", "image_url"],
        row.get ["url", "market_url"]].map text? := rfl
    rw [hcells, List.forall_mem_map]
    exact fun v _ => settled_of_text?
  · rw [List.forall_mem_append]
    exact ⟨settled_of_list _, settled_of_list _⟩

theorem derived_ofRow (row : Row) (position : Nat) : (ofRow row position).Derived := by
  refine ⟨?_, rfl, rfl, rfl, rfl, rfl, rfl⟩
  have hraw : (ofRow row position).cost.raw = text? (row.get ["cost"]) := rfl
  have htext : (text? (row.get ["cost"])).getD "" = text (row.get ["cost"]) := by
    unfold text?
    dsimp only
    split
    · rename_i hempty
      exact hempty.symm
    · rfl
  rw [hraw, htext]
  rfl

/-- A tidy card whose derived fields are right is what the row that states it is read as. -/
theorem ofRow_cells {c : Card} (tidy : c.Tidy) (derived : c.Derived) (position : Nat) :
    ofRow (Row.ofCells columns c.cells) position = c := by
  have hoptional := tidy.optional
  simp only [optionalTexts, List.forall_mem_cons] at hoptional
  obtain ⟨hname, hkind, hrarity, hsetName, hraw, hflavor, hremote, hmarketUrl, -⟩ := hoptional
  have hentries := List.forall_mem_append.1 tidy.entries
  let row := Row.ofCells columns c.cells
  have id : text? (row.get ["id"]) = some c.id := text?_string tidy.id
  have slug : text? (row.get ["slug"]) = some c.slug := text?_string tidy.slug
  have name : text? (row.get ["name"]) = c.name := text?_ofText? hname
  have kind : text? (row.get ["type", "card_type"]) = c.kind := text?_ofText? hkind
  have rarity : text? (row.get ["rarity"]) = c.rarity := text?_ofText? hrarity
  have setName : text? (row.get ["set_name", "set", "setName"]) = c.setName := text?_ofText? hsetName
  have flavor : text? (row.get ["flavor", "flavor_text"]) = c.flavor := text?_ofText? hflavor
  have remote : text? (row.get ["image", "image_url"]) = c.assets.remote := text?_ofText? hremote
  have marketUrl : text? (row.get ["url", "market_url"]) = c.references.marketUrl := text?_ofText? hmarketUrl
  have effect : text (row.get ["effect", "text"]) = c.effect := text_string tidy.effect
  have colors : list (row.get ["colors", "color"]) = c.colors := list_ofList hentries.1
  have tags : list (row.get ["tags"]) = c.tags := list_ofList hentries.2
  have cost : text (row.get ["cost"]) = c.cost.raw.getD "" := text_ofText? hraw
  have might : number? (row.get ["might"]) = c.might := number?_ofNumber? c.might
  have price : number? (row.get ["price"]) = c.pricing.price := number?_ofNumber? c.pricing.price
  have foilPrice : number? (row.get ["foil_price", "foilPrice"]) = c.pricing.foilPrice :=
    number?_ofNumber? c.pricing.foilPrice
  show ofRow row position = c
  unfold ofRow
  simp only [id, slug, name, kind, rarity, setName, flavor, remote, marketUrl, effect, colors, tags, cost, might, price,
    foilPrice, Option.getD_some, ← derived.cost, ← derived.keywords, ← derived.activation, ← derived.rules,
    ← derived.localPath, ← derived.currency, ← derived.source]

/-- Every card that is built from a row is tidy, and is built again from the row that states it, wherever that row
stands. -/
theorem ofRow_restated (names : List String) (rowCells : List Value) (position : Nat) :
    let c := ofRow (Row.ofCells names rowCells) position
    c.Tidy ∧ ∀ other, ofRow (Row.ofCells columns c.cells) other = c := by
  intro c
  have tidy : c.Tidy := tidy_ofRow _ position
  exact ⟨tidy, ofRow_cells tidy (derived_ofRow _ position)⟩

end CardIndex.Card
