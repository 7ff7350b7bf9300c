import CardIndex.Json.Fields
import CardIndex.Proofs.Json.Parser

namespace CardIndex

/-- A partial function that undoes another takes a list if the other has made all of it. -/
theorem mapM_eq_some_iff {α β : Type} {f : α → Option β} {g : β → α} (h : ∀ a b, f a = some b ↔ a = g b)
    (as : List α) (bs : List β) : as.mapM f = some bs ↔ as = bs.map g := by
  induction as generalizing bs with
  | nil =>
    constructor
    · intro hsome
      obtain rfl := Option.some.inj hsome
      rfl
    · intro hmap
      rw [List.map_eq_nil_iff.1 hmap.symm]
      rfl
  | cons a as ih =>
    rw [List.mapM_cons]
    constructor
    · intro hsome
      obtain ⟨b, hb, hrest⟩ := Option.bind_eq_some_iff.1 hsome
      obtain ⟨bs, hbs, hcons⟩ := Option.bind_eq_some_iff.1 hrest
      obtain rfl := Option.some.inj hcons
      rw [List.map_cons, (h a b).1 hb, (ih bs).1 hbs]
    · intro hmap
      cases bs with
      | nil => cases hmap
      | cons b bs =>
        obtain ⟨ha, has⟩ := List.cons.inj hmap
        rw [(h a b).2 ha, (ih bs).2 has]
        rfl

/-- The number is what its JSON text is read as. Reading rounds twice, so not every number has this. -/
def Binary64.ReadsBack (x : Binary64) : Prop :=
  (Json.Numeral.ofText? (Json.Numeral.ofBinary64 x).text).bind Json.Numeral.toBinary64? = some x

instance (x : Binary64) : Decidable x.ReadsBack :=
  inferInstanceAs (Decidable
    ((Json.Numeral.ofText? (Json.Numeral.ofBinary64 x).text).bind Json.Numeral.toBinary64? = some x))

namespace Json.Tree

/-- Both texts of the tree are read as the value. -/
def Keeps {α : Type} (decode? : Tree → Option α) (t : Tree) (a : α) : Prop :=
  (ofText? t.compactText).bind decode? = some a ∧ (ofText? t.prettyText).bind decode? = some a

theorem keeps_of_reread {α : Type} {decode? : Tree → Option α} {t : Tree} {a : α}
    (h : decode? t.reread = some a) : Keeps decode? t a := by
  refine ⟨?_, ?_⟩
  · rw [ofText?_compactText, Option.bind_some, h]
  · rw [ofText?_prettyText, Option.bind_some, h]

@[simp] theorem text?_text (s : String) : (text s).reread.text? = some s := rfl

@[simp] theorem bool?_bool (b : Bool) : (bool b).reread.bool? = some b := rfl

theorem natural?_natural (n : Nat) (h : n < UInt64.size) : (natural n).reread.natural? = some n := by
  have hlow : Int64.minValue.toInt ≤ (n : Int) := by
    have : Int64.minValue.toInt < 0 := by decide
    omega
  have hread := Numeral.reread_integer n hlow (by omega)
  simp [natural, reread, hread, natural?]

theorem binary64?_binary64 (x : Binary64) (h : x.ReadsBack) : (binary64 x).reread.binary64? = some x := by
  rw [Binary64.ReadsBack, Numeral.ofText?_text] at h
  exact h

theorem list?_list {α : Type} {item? : Tree → Option α} {item : α → Tree} (items : List α)
    (h : ∀ a ∈ items, item? (item a).reread = some a) :
    (list item items).reread.list? item? = some items := by
  rw [list, reread, rereadItems_eq, list?, List.map_map]
  induction items with
  | nil => rfl
  | cons a as ih =>
    have hfirst := h a List.mem_cons_self
    have hrest := ih fun b hb => h b (List.mem_cons_of_mem a hb)
    simp [List.mapM_cons, hfirst, hrest]

@[simp] theorem list?_text (items : List String) : (list text items).reread.list? text? = some items :=
  list?_list items fun s _ => text?_text s

theorem reread_ne_null {t : Tree} (h : t ≠ null) : t.reread ≠ null := by
  cases t <;> simp_all [reread]

theorem optional?_optional {α : Type} {value? : Tree → Option α} {value : α → Tree} (o : Option α)
    (hne : ∀ a, value a ≠ null) (h : ∀ a ∈ o, value? (value a).reread = some a) :
    (optional value o).reread.optional? value? = some o := by
  cases o with
  | none => rfl
  | some a =>
    have hvalue := h a rfl
    have hsome := reread_ne_null (hne a)
    rw [optional]
    unfold optional?
    split
    · rename_i heq
      exact absurd heq hsome
    · rw [hvalue, Option.map_some]

@[simp] theorem optional?_text (o : Option String) : (optional text o).reread.optional? text? = some o :=
  optional?_optional o (fun _ => Tree.noConfusion) fun s _ => text?_text s

theorem optional?_natural (o : Option Nat) (h : ∀ n ∈ o, n < UInt64.size) :
    (optional natural o).reread.optional? natural? = some o :=
  optional?_optional o (fun _ => Tree.noConfusion) fun n hn => natural?_natural n (h n hn)

theorem optional?_binary64 (o : Option Binary64) (h : ∀ x ∈ o, x.ReadsBack) :
    (optional binary64 o).reread.optional? binary64? = some o :=
  optional?_optional o (fun _ => Tree.noConfusion) fun x hx => binary64?_binary64 x (h x hx)

theorem reread_record (members : List (String × Tree)) :
    (record members).reread = record (members.map fun (name, t) => (name, t.reread)) := by
  rw [record, reread, rereadMembers_eq, record, List.map_map, List.map_map]
  rfl

theorem member_eq_some_iff (m : Option String × Tree) (f : String × Tree) :
    m.1.map (·, m.2) = some f ↔ m = (some f.1, f.2) := by
  obtain ⟨name, t⟩ := m
  cases name with
  | none => simp
  | some name => simp [Prod.ext_iff]

/-- A structure's own object has just its fields. -/
theorem fields?_record (names : List String) (fields : Fields) (hnames : fields.map (·.1) = names)
    (hnodup : names.Nodup) : (record fields).fields? names = some fields := by
  have hnamed : (fields.map fun (name, t) => (some name, t)).mapM
      (fun (m : Option String × Tree) => m.1.map (·, m.2)) = some fields :=
    (mapM_eq_some_iff (fun _ _ => member_eq_some_iff _ _) _ _).2 rfl
  have hknown : fields.filter (·.1 ∈ names) = fields := by
    rw [List.filter_eq_self]
    intro m hm
    have hmem : m.1 ∈ names := hnames ▸ List.mem_map_of_mem hm
    simpa using hmem
  simp only [record, fields?, knownMembers?, hnamed, Option.bind_eq_bind, Option.bind_some, hknown, hnames,
    if_pos hnodup]

/-- A structure's own object, once it has been written and read, is decoded from its members. -/
theorem bind_fields?_reread {α : Type} (names : List String) (members : List (String × Tree))
    (decode? : Fields → Option α) (hnames : members.map (·.1) = names) (hnodup : names.Nodup) :
    ((record members).reread.fields? names >>= decode?) =
      decode? (members.map fun (name, t) => (name, t.reread)) := by
  have hfields : (members.map fun (name, t) => (name, t.reread)).map (·.1) = names := by
    rw [List.map_map, ← hnames]
    rfl
  rw [reread_record, fields?_record names _ hfields hnodup, Option.bind_eq_bind, Option.bind_some]

end Json.Tree

namespace Json.Fields

theorem required_cons {α : Type} (other name : String) (t : Tree) (fields : Fields) (value? : Tree → Option α) :
    required ((other, t) :: fields) name value? =
      if name = other then value? t else required fields name value? := by
  by_cases h : name = other
  · simp [required, h]
  · have hb : (name == other) = false := beq_eq_false_iff_ne.mpr h
    simp [required, List.lookup_cons, h, hb]

theorem nullable_cons {α : Type} (other name : String) (t : Tree) (fields : Fields) (value? : Tree → Option α) :
    nullable ((other, t) :: fields) name value? =
      if name = other then t.optional? value? else nullable fields name value? := by
  by_cases h : name = other
  · simp [nullable, h]
  · have hb : (name == other) = false := beq_eq_false_iff_ne.mpr h
    simp [nullable, List.lookup_cons, h, hb]

end Json.Fields

end CardIndex
