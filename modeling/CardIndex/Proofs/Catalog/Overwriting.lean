import CardIndex.Catalog.Store
import CardIndex.Proofs.Entries

namespace CardIndex

/-- The last of the items that has the slug. -/
def latest (items : List Item) (slug : String) : Option Item :=
  (items.filter (·.slug = slug)).getLast?

@[simp] theorem latest_nil (slug : String) : latest [] slug = none := rfl

theorem latest_append (xs ys : List Item) (slug : String) :
    latest (xs ++ ys) slug = (latest ys slug).or (latest xs slug) := by
  simp [latest, List.getLast?_append]

theorem latest_eq_none (items : List Item) (slug : String) :
    latest items slug = none ↔ ∀ i ∈ items, i.slug ≠ slug := by
  simp [latest]

/-- The items of each slug among the remaining ones are the last ones of the batch, in their order. -/
def Trailing (batch rest : List Item) : Prop :=
  ∀ slug, rest.filter (·.slug = slug) <:+ batch.filter (·.slug = slug)

theorem latest_of_trailing (batch rest : List Item) (h : Trailing batch rest) (slug : String) :
    (latest rest slug).or (latest batch slug) = latest batch slug := by
  obtain ⟨front, hf⟩ := h slug
  have hb : latest batch slug = (latest rest slug).or front.getLast? := by
    rw [latest, ← hf, List.getLast?_append]
    rfl
  cases hr : latest rest slug with
  | none => simp
  | some i => simp [hb, hr]

theorem length_filter_slug_le_one (items : List Item) (hd : (items.map Item.slug).Nodup) (slug : String) :
    (items.filter (·.slug = slug)).length ≤ 1 := by
  have hcount := List.nodup_iff_count.mp hd slug
  rw [List.count, List.countP_map, List.countP_eq_length_filter] at hcount
  refine Nat.le_trans (Nat.le_of_eq (congrArg List.length ?_)) hcount
  apply List.filter_congr
  intro i _
  rw [Bool.eq_iff_iff]
  simp

/-- Without two items of one slug, whatever remains of a batch is trailing. -/
theorem trailing_of_nodup (batch rest : List Item) (hd : (batch.map Item.slug).Nodup)
    (taken : List Item) (hp : (taken ++ rest).Perm batch) : Trailing batch rest := by
  intro slug
  have hfilter := hp.filter (·.slug = slug)
  rw [List.filter_append] at hfilter
  have hone := length_filter_slug_le_one batch hd slug
  have hlength := hfilter.length_eq
  rw [List.length_append] at hlength
  cases hrest : rest.filter (·.slug = slug) with
  | nil => exact List.nil_suffix
  | cons i is =>
    rw [hrest, List.length_cons] at hlength
    have htaken : taken.filter (·.slug = slug) = [] := List.eq_nil_of_length_eq_zero (by omega)
    have his : is = [] := List.eq_nil_of_length_eq_zero (by omega)
    rw [htaken, hrest, his, List.nil_append] at hfilter
    have hsame := List.singleton_perm.mp hfilter
    exact his ▸ hsame ▸ List.suffix_refl [i]

/-- Without two items of one slug, the last item of a slug is the only one. -/
theorem latest_of_mem (items : List Item) (hd : (items.map Item.slug).Nodup) (i : Item) (hi : i ∈ items) :
    latest items i.slug = some i := by
  have hone := length_filter_slug_le_one items hd i.slug
  have hmem : i ∈ items.filter (·.slug = i.slug) := by simpa using hi
  unfold latest
  cases hfilter : items.filter (·.slug = i.slug) with
  | nil =>
    rw [hfilter] at hmem
    cases hmem
  | cons j js =>
    rw [hfilter] at hmem hone
    have hjs : js = [] := List.eq_nil_of_length_eq_zero (by simpa using hone)
    subst hjs
    rw [List.mem_singleton.1 hmem]
    rfl

/-- Without two items of one slug the order does not matter. -/
theorem latest_of_perm (xs ys : List Item) (hp : xs.Perm ys) (hd : (xs.map Item.slug).Nodup) (slug : String) :
    latest xs slug = latest ys slug := by
  cases hx : latest xs slug with
  | none =>
    rw [latest_eq_none] at hx
    exact ((latest_eq_none ys slug).2 fun i hi => hx i (hp.mem_iff.2 hi)).symm
  | some i =>
    have hi := List.mem_of_getLast? hx
    rw [List.mem_filter, decide_eq_true_iff] at hi
    obtain ⟨hi, rfl⟩ := hi
    exact (latest_of_mem ys ((hp.map Item.slug).nodup_iff.1 hd) i (hp.mem_iff.1 hi)).symm

/-- What a store holds: the item of a table under a slug. -/
abbrev Holdings := String → String → Option Item

namespace Holdings

/-- Items written into a table one after the other. All other tables, and slugs that no item has, stay. -/
def write (h : Holdings) (table : String) (items : List Item) : Holdings := fun name slug =>
  if name = table then (latest items slug).or (h name slug) else h name slug

@[simp] theorem write_nil (h : Holdings) (table : String) : h.write table [] = h := by
  funext name slug
  simp [write]

theorem write_append (h : Holdings) (table : String) (xs ys : List Item) :
    (h.write table xs).write table ys = h.write table (xs ++ ys) := by
  funext name slug
  by_cases hn : name = table <;> simp [write, hn, latest_append, Option.or_assoc]

/-- Writing depends on nothing but the last item of each slug. -/
theorem write_congr (h : Holdings) (table : String) (xs ys : List Item)
    (hl : ∀ slug, latest xs slug = latest ys slug) : h.write table xs = h.write table ys := by
  funext name slug
  simp [write, hl]

theorem write_of_mem (h : Holdings) (table : String) (items : List Item) (hd : (items.map Item.slug).Nodup)
    (i : Item) (hi : i ∈ items) : h.write table items table i.slug = some i := by
  simp [write, latest_of_mem items hd i hi]

theorem write_of_forall_ne (h : Holdings) (table : String) (items : List Item) (slug : String)
    (hs : ∀ i ∈ items, i.slug ≠ slug) : h.write table items table slug = h table slug := by
  simp [write, (latest_eq_none items slug).2 hs]

end Holdings

namespace Table

theorem get?_putAll (table : Table) (items : List Item) (slug : String) :
    Entries.get? (table.putAll items) slug = (latest items slug).or (Entries.get? table slug) := by
  induction items generalizing table with
  | nil => simp [putAll]
  | cons i items ih =>
    have hone : latest [i] slug = if slug = i.slug then some i else none := by
      by_cases hs : i.slug = slug <;> simp [latest, hs, eq_comm]
    have hput : putAll table (i :: items) = putAll (Entries.put i.slug i table) items := rfl
    rw [hput, ih, Entries.get?_put, ← List.singleton_append, latest_append, hone, Option.or_assoc]
    split <;> simp

theorem putAll_append (table : Table) (xs ys : List Item) :
    (table.putAll xs).putAll ys = table.putAll (xs ++ ys) := (List.foldl_append ..).symm

end Table

namespace Tables

theorem table_write (tables : Tables) (name other : String) (items : List Item) :
    (tables.write name items).table other =
      if other = name then (tables.table name).putAll items else tables.table other := by
  by_cases ho : other = name <;> simp [write, table, Entries.get?_put, ho]

def holdings (tables : Tables) : Holdings := fun name slug => Entries.get? (tables.table name) slug

/-- A table in memory holds what was written into it last. -/
theorem holdings_write (tables : Tables) (name : String) (items : List Item) :
    (tables.write name items).holdings = tables.holdings.write name items := by
  funext other slug
  by_cases ho : other = name
  · simp [holdings, Holdings.write, table_write, ho, Table.get?_putAll]
  · simp [holdings, Holdings.write, table_write, ho]

end Tables

end CardIndex
