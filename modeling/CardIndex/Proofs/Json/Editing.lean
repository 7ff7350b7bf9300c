import CardIndex.Proofs.Json.Fields
import CardIndex.Proofs.Json.Spacing
import CardIndex.Proofs.Lookup
import Mathlib.Data.Set.List
import Mathlib.Logic.Relation

namespace CardIndex.Json

/-- Where the structures stand in what a decoder reads. A field has its name, whether it may be missing, and the
shape of its value. -/
inductive Shape
  | value
  | list (item : Shape)
  | structure (fields : List (String × Bool × Shape))

/-- The members of an object; other trees have none. -/
def Tree.members : Tree → List (Option String × Tree)
  | .object members => members
  | _ => []

/-- One change to a tree of a shape that says nothing new. -/
inductive Edit : Shape → Tree → Tree → Prop
  | permute {fields : List (String × Bool × Shape)} {members members' : List (Option String × Tree)}
      (perm : members.Perm members') :
      Edit (.structure fields) (.object members) (.object members')
  | insert {fields : List (String × Bool × Shape)} {front back : List (Option String × Tree)} {name : String}
      {t : Tree} (unknown : name ∉ fields.map (·.1)) :
      Edit (.structure fields) (.object (front ++ back)) (.object (front ++ (some name, t) :: back))
  | leaveOut {fields : List (String × Bool × Shape)} {front back : List (Option String × Tree)} {name : String}
      {shape : Shape} (optional : (name, true, shape) ∈ fields) :
      Edit (.structure fields) (.object (front ++ (some name, .null) :: back)) (.object (front ++ back))
  | member {fields : List (String × Bool × Shape)} {front back : List (Option String × Tree)} {name : String}
      {missing : Bool} {shape : Shape} {t t' : Tree} (field : (name, missing, shape) ∈ fields)
      (edit : Edit shape t t') :
      Edit (.structure fields) (.object (front ++ (some name, t) :: back))
        (.object (front ++ (some name, t') :: back))
  | position {before behind : List (String × Bool × Shape)} {front back : List Tree} {name : String}
      {missing : Bool} {shape : Shape} {t t' : Tree} (place : before.length = front.length)
      (edit : Edit shape t t') :
      Edit (.structure (before ++ (name, missing, shape) :: behind)) (.array (front ++ t :: back))
        (.array (front ++ t' :: back))
  | item {shape : Shape} {front back : List Tree} {t t' : Tree} (edit : Edit shape t t') :
      Edit (.list shape) (.array (front ++ t :: back)) (.array (front ++ t' :: back))

/-- One change to a text that leaves what it says: a character of white space in a gap, or an edit of its tree,
after which the text may spell the tokens as it likes. -/
inductive Restyled (shape : Shape) : String → String → Prop
  | respace {s s' : String} (h : Lexer.Respaced s.toList s'.toList) : Restyled shape s s'
  | edit {s s' : String} {t t' : Tree} (read : Tree.ofText? s = some t) (h : Edit shape t t')
      (spelled : Lexer.tokens? s'.toList = some t'.tokens) : Restyled shape s s'

/-- An edit of a tree whose numbers are read as they are is one of its compact text. -/
theorem Edit.restyled {shape : Shape} {t t' : Tree} (h : Edit shape t t') (ht : t.reread = t)
    (ht' : t'.reread = t') : Restyled shape t.compactText t'.compactText := by
  refine .edit (by rw [Tree.ofText?_compactText, ht]) h ?_
  rw [Tree.compactText, String.toList_ofList, (Lexer.lexes_written _ _ (Printer.written_compact t')).tokens?, ht']

/-- What the one gives, the other gives. -/
def Carries {α : Type} (x y : Option α) : Prop := ∀ a, x = some a → y = some a

theorem Carries.refl {α : Type} (x : Option α) : Carries x x := fun _ h => h

theorem Carries.bind {α β : Type} {x y : Option α} {f g : α → Option β} (h : Carries x y)
    (hf : ∀ a, Carries (f a) (g a)) : Carries (x >>= f) (y >>= g) := by
  intro b hb
  obtain ⟨a, ha, hb⟩ := Option.bind_eq_some_iff.1 hb
  exact Option.bind_eq_some_iff.2 ⟨a, h a ha, hf a b hb⟩

/-- The decoder does not see an edit. -/
def Shape.Ignores {α : Type} (shape : Shape) (decode? : Tree → Option α) : Prop :=
  ∀ t t', Edit shape t t' → Carries (decode? t) (decode? t')

namespace Shape

variable {α : Type}

theorem ignores_value (decode? : Tree → Option α) : value.Ignores decode? := by
  intro t t' h
  cases h

theorem Ignores.list {shape : Shape} {item? : Tree → Option α} (h : shape.Ignores item?) :
    (list shape).Ignores (Tree.list? item?) := by
  intro t t' hedit
  cases hedit with
  | item edit =>
    simp only [Tree.list?, List.mapM_append, List.mapM_cons]
    refine .bind (.refl _) fun before => .bind ?_ fun behind => .refl _
    exact .bind (h _ _ edit) fun a => .refl _

end Shape

namespace Fields

/-- What an edit may do to the value of one field. -/
inductive Touched (missing : Bool) (shape : Shape) : Option Tree → Option Tree → Prop
  | untouched (t : Option Tree) : Touched missing shape t t
  | edited {t t' : Tree} (h : Edit shape t t') : Touched missing shape (some t) (some t')
  | leftOut (h : missing = true) : Touched missing shape (some .null) none

/-- What an edit may do to the values of a structure's fields. -/
def Agree (shapes : List (String × Bool × Shape)) (fields fields' : Fields) : Prop :=
  ∀ f ∈ shapes, Touched f.2.1 f.2.2 (fields.lookup f.1) (fields'.lookup f.1)

variable {shapes : List (String × Bool × Shape)} {fields fields' : Fields} {name : String} {α : Type}

theorem Agree.required (h : Agree shapes fields fields') {shape : Shape} {value? : Tree → Option α}
    (hmem : (name, false, shape) ∈ shapes) (hvalue : shape.Ignores value?) :
    Carries (fields.required name value?) (fields'.required name value?) := by
  have htouched := h _ hmem
  simp only [Fields.required]
  generalize fields.lookup name = t at *
  generalize fields'.lookup name = t' at *
  cases htouched with
  | untouched => exact .refl _
  | edited hedit => exact hvalue _ _ hedit
  | leftOut hmissing => cases hmissing

theorem Agree.nullable (h : Agree shapes fields fields') (value? : Tree → Option α)
    (hmem : (name, true, .value) ∈ shapes) :
    Carries (fields.nullable name value?) (fields'.nullable name value?) := by
  have htouched := h _ hmem
  simp only [Fields.nullable]
  generalize fields.lookup name = t at *
  generalize fields'.lookup name = t' at *
  cases htouched with
  | untouched => exact .refl _
  | edited hedit => cases hedit
  | leftOut hmissing => exact .refl _

end Fields

namespace Tree

/-- A member whose name is a text. -/
def named (f : String × Tree) : Option String × Tree := (some f.1, f.2)

theorem named_injective : Function.Injective named := by
  rintro ⟨name, t⟩ ⟨name', t'⟩ h
  obtain ⟨hname, ht⟩ := Prod.mk.inj h
  exact Prod.ext (Option.some.inj hname) ht

/-- The known members, given that all names are texts and no known one comes twice. -/
theorem knownMembers?_eq_some_iff (names : List String) (members : List (Option String × Tree))
    (known : Fields) : knownMembers? names members = some known ↔
      ∃ fields : Fields, members = fields.map named ∧ known = fields.filter (·.1 ∈ names) ∧
        (known.map (·.1)).Nodup := by
  unfold knownMembers?
  rw [Option.bind_eq_bind, Option.bind_eq_some_iff]
  refine exists_congr fun fields => ?_
  rw [mapM_eq_some_iff (g := named) member_eq_some_iff]
  refine and_congr_right fun _ => ?_
  dsimp only
  split
  · rename_i h
    rw [Option.some.injEq]
    constructor
    · rintro rfl
      exact ⟨rfl, h⟩
    · exact fun hknown => hknown.1.symm
  · rename_i h
    constructor
    · intro hnone
      cases hnone
    · rintro ⟨rfl, hnodup⟩
      exact absurd hnodup h

theorem exists_eq_map_named_of_perm {members members' : List (Option String × Tree)} {fields : Fields}
    (hperm : members.Perm members') (h : members = fields.map named) :
    ∃ fields' : Fields, members' = fields'.map named ∧ fields.Perm fields' := by
  have hrange : members' ∈ Set.range (List.map named) := by
    rw [Set.range_list_map]
    intro m hm
    rw [← hperm.mem_iff, h] at hm
    obtain ⟨f, -, hf⟩ := List.mem_map.1 hm
    exact ⟨f, hf⟩
  obtain ⟨fields', rfl⟩ := hrange
  rw [h, List.map_perm_map_iff named_injective] at hperm
  exact ⟨fields', rfl, hperm⟩

/-- Replacing the value of one field by an edited one leaves the others. -/
theorem agree_of_edit {shapes : List (String × Bool × Shape)} (hnodup : (shapes.map (·.1)).Nodup)
    {name : String} {missing : Bool} {shape : Shape} (hfield : (name, missing, shape) ∈ shapes)
    {t t' : Tree} (hedit : Edit shape t t') (front back : Fields) :
    Fields.Agree shapes (front ++ (name, t) :: back) (front ++ (name, t') :: back) := by
  intro f hf
  rw [List.lookup_append, List.lookup_append, List.lookup_cons, List.lookup_cons]
  by_cases h : f.1 = name
  · have hsame : f = (name, missing, shape) := List.inj_on_of_nodup_map hnodup hf hfield h
    subst hsame
    cases front.lookup name with
    | some u => exact .untouched _
    | none =>
      simp only [beq_self_eq_true, Option.none_or]
      exact .edited hedit
  · have hb : (f.1 == name) = false := beq_eq_false_iff_ne.mpr h
    rw [hb]
    exact .untouched _

/-- A null that is left out is found by no field but its own. -/
theorem agree_of_leaveOut {shapes : List (String × Bool × Shape)} (hnodup : (shapes.map (·.1)).Nodup)
    {name : String} {shape : Shape} (hfield : (name, true, shape) ∈ shapes) (front back : Fields)
    (hone : ((front ++ (name, .null) :: back).map (·.1)).Nodup) :
    Fields.Agree shapes (front ++ (name, .null) :: back) (front ++ back) := by
  intro f hf
  rw [List.lookup_append, List.lookup_append, List.lookup_cons]
  by_cases h : f.1 = name
  · have hsame : f = (name, true, shape) := List.inj_on_of_nodup_map hnodup hf hfield h
    subst hsame
    rw [List.map_append, List.map_cons, List.nodup_middle, List.nodup_cons, ← List.map_append] at hone
    have hnone : (front ++ back).lookup name = none := by
      rw [List.lookup_eq_none_iff]
      intro g hg
      have hne : name ≠ g.1 := by
        rintro rfl
        exact hone.1 (List.mem_map.2 ⟨g, hg, rfl⟩)
      simpa using hne
    rw [List.lookup_append, Option.or_eq_none_iff] at hnone
    rw [hnone.1, hnone.2]
    simp only [beq_self_eq_true, Option.none_or]
    exact .leftOut rfl
  · have hb : (f.1 == name) = false := beq_eq_false_iff_ne.mpr h
    rw [hb]
    exact .untouched _

/-- A known member stands once among the known members, in its place, whatever its value is; without it the others
are found. -/
theorem knownMembers?_of_known {names : List String} {front back : List (Option String × Tree)} {name : String}
    {t : Tree} {known : Fields} (hname : name ∈ names)
    (h : knownMembers? names (front ++ (some name, t) :: back) = some known) :
    ∃ before behind : Fields, known = before ++ (name, t) :: behind ∧ (known.map (·.1)).Nodup ∧
      (∀ t', knownMembers? names (front ++ (some name, t') :: back) = some (before ++ (name, t') :: behind)) ∧
      knownMembers? names (front ++ back) = some (before ++ behind) := by
  obtain ⟨all, hall, hknown, hone⟩ := (knownMembers?_eq_some_iff _ _ _).1 h
  obtain ⟨before, rest, rfl, rfl, hrest⟩ := List.map_eq_append_iff.1 hall.symm
  obtain ⟨f, behind, rfl, hf, rfl⟩ := List.map_eq_cons_iff.1 hrest
  obtain rfl : f = (name, t) := named_injective hf
  have hkeep : ∀ u : Tree, (before ++ (name, u) :: behind).filter (·.1 ∈ names) =
      before.filter (·.1 ∈ names) ++ (name, u) :: behind.filter (·.1 ∈ names) := fun u => by
    rw [List.filter_append, List.filter_cons_of_pos (by simpa using hname)]
  rw [hkeep] at hknown
  rw [hknown] at hone
  refine ⟨_, _, hknown, hknown ▸ hone, fun t' => ?_, ?_⟩
  · refine (knownMembers?_eq_some_iff _ _ _).2 ⟨before ++ (name, t') :: behind, ?_, (hkeep t').symm, ?_⟩
    · simp [named]
    · simpa using hone
  · refine (knownMembers?_eq_some_iff _ _ _).2 ⟨before ++ behind, (List.map_append ..).symm, ?_, ?_⟩
    · rw [List.filter_append]
    · exact hone.sublist (((List.sublist_cons_self _ _).append_left _).map _)

theorem knownMembers?_of_perm {names : List String} {members members' : List (Option String × Tree)}
    {known : Fields} (hperm : members.Perm members') (h : knownMembers? names members = some known) :
    ∃ known', knownMembers? names members' = some known' ∧ known.Perm known' ∧ (known.map (·.1)).Nodup := by
  obtain ⟨all, hall, rfl, hone⟩ := (knownMembers?_eq_some_iff _ _ _).1 h
  obtain ⟨all', hall', hperm'⟩ := exists_eq_map_named_of_perm hperm hall
  have hknown := hperm'.filter (fun f => f.1 ∈ names)
  have hone' := (hknown.map (·.1)).nodup_iff.1 hone
  exact ⟨_, (knownMembers?_eq_some_iff _ _ _).2 ⟨all', hall', rfl, hone'⟩, hknown, hone⟩

theorem knownMembers?_insert {names : List String} {front back : List (Option String × Tree)} {name : String}
    {known : Fields} (t : Tree) (hname : name ∉ names) (h : knownMembers? names (front ++ back) = some known) :
    knownMembers? names (front ++ (some name, t) :: back) = some known := by
  obtain ⟨all, hall, hknown, hone⟩ := (knownMembers?_eq_some_iff _ _ _).1 h
  obtain ⟨before, behind, rfl, rfl, rfl⟩ := List.map_eq_append_iff.1 hall.symm
  refine (knownMembers?_eq_some_iff _ _ _).2 ⟨before ++ (name, t) :: behind, ?_, ?_, hone⟩
  · simp [named]
  · rw [hknown, List.filter_append, List.filter_append, List.filter_cons_of_neg (by simpa using hname)]

/-- After an edit the fields of a structure are found as before. -/
theorem fields?_of_edit {shapes : List (String × Bool × Shape)} (hnodup : (shapes.map (·.1)).Nodup)
    {t t' : Tree} (hedit : Edit (.structure shapes) t t') (fields : Fields)
    (h : t.fields? (shapes.map (·.1)) = some fields) :
    ∃ fields', t'.fields? (shapes.map (·.1)) = some fields' ∧ Fields.Agree shapes fields fields' := by
  cases hedit with
  | permute perm =>
    obtain ⟨fields', hfields', hperm, hone⟩ := knownMembers?_of_perm perm h
    refine ⟨fields', hfields', fun f _ => ?_⟩
    rw [lookup_perm hperm hone]
    exact .untouched _
  | insert unknown => exact ⟨fields, knownMembers?_insert _ unknown h, fun f _ => .untouched _⟩
  | leaveOut optional =>
    have hname := List.mem_map_of_mem (f := (·.1)) optional
    obtain ⟨before, behind, rfl, hone, -, hwithout⟩ := knownMembers?_of_known hname h
    exact ⟨_, hwithout, agree_of_leaveOut hnodup optional before behind hone⟩
  | member field edit =>
    have hname := List.mem_map_of_mem (f := (·.1)) field
    obtain ⟨before, behind, rfl, -, hwith, -⟩ := knownMembers?_of_known hname h
    exact ⟨_, hwith _, agree_of_edit hnodup field edit before behind⟩
  | @position before behind front back name missing shape t t' place edit =>
    simp only [fields?, List.map_append, List.map_cons, List.length_append, List.length_cons, List.length_map]
      at h ⊢
    split at h
    · rename_i hlength
      obtain rfl := Option.some.inj h
      rw [if_pos hlength]
      refine ⟨_, rfl, ?_⟩
      rw [List.zip_append (by simpa using place), List.zip_append (by simpa using place), List.zip_cons_cons,
        List.zip_cons_cons]
      exact agree_of_edit hnodup (List.mem_append_right _ List.mem_cons_self) edit _ _
    · cases h

end Tree

/-- A structure ignores an edit if what is done with its fields does. -/
theorem Shape.ignores_structure {α : Type} {shapes : List (String × Bool × Shape)}
    {decode? : Fields → Option α} (hnodup : (shapes.map (·.1)).Nodup)
    (h : ∀ fields fields', Fields.Agree shapes fields fields' → Carries (decode? fields) (decode? fields')) :
    (Shape.structure shapes).Ignores fun t => t.fields? (shapes.map (·.1)) >>= decode? := by
  intro t t' hedit a ha
  obtain ⟨fields, hfields, ha⟩ := Option.bind_eq_some_iff.1 ha
  obtain ⟨fields', hfields', hagree⟩ := Tree.fields?_of_edit hnodup hedit fields hfields
  exact Option.bind_eq_some_iff.2 ⟨fields', hfields', h fields fields' hagree a ha⟩

/-- What a text is decoded as, every text of the same style is. -/
theorem Restyled.carries {α : Type} {shape : Shape} {decode? : Tree → Option α} (hdecode : shape.Ignores decode?)
    {s s' : String} (h : Restyled shape s s') :
    Carries ((Tree.ofText? s).bind decode?) ((Tree.ofText? s').bind decode?) := by
  cases h with
  | respace h =>
    rw [Tree.ofText?, Tree.ofText?, h.tokens?]
    exact .refl _
  | edit read h spelled =>
    rw [read, Tree.ofText?, spelled, Option.bind_some, Option.bind_some, Parser.tree?_tokens, Option.bind_some]
    exact hdecode _ _ h

theorem carries_of_restyled {α : Type} {shape : Shape} {decode? : Tree → Option α}
    (hdecode : shape.Ignores decode?) {s s' : String} (h : Relation.ReflTransGen (Restyled shape) s s') :
    Carries ((Tree.ofText? s).bind decode?) ((Tree.ofText? s').bind decode?) := by
  induction h with
  | refl => exact .refl _
  | tail _ hstep ih => exact fun a ha => hstep.carries hdecode a (ih a ha)

end CardIndex.Json
