import Mathlib.Data.List.Forall2
import CardIndex.Proofs.Entries
import CardIndex.Proofs.Json.Recognition

namespace CardIndex.Json

/-- The text is JSON, no deeper than a value may be, and this is the value. -/
def Denotes (text : String) (v : Value) : Prop :=
  ∃ t : Tree, Spaced t.Written text.toList ∧ t.depth ≤ Value.depthLimit ∧ Value.ofTree? t = some v

/-- The text is JSON for an object with these members, in their order and none left out. -/
def DenotesMembers (text : String) (values : List (String × Value)) : Prop :=
  ∃ members, Spaced (Tree.object members).Written text.toList ∧ (Tree.object members).depth ≤ Value.depthLimit ∧
    List.Forall₂ (fun m v => m.1 = some v.1 ∧ Value.ofTree? m.2 = some v.2) members values

/-- The text is JSON for an object, and the last member of that name has the value. -/
def LastMember (text name : String) (v : Value) : Prop :=
  ∃ values, DenotesMembers text values ∧ values.reverse.lookup name = some v

namespace Value

theorem ofText?_eq_some_iff (text : String) (v : Value) : ofText? text = some v ↔ Denotes text v := by
  simp only [ofText?, Option.bind_eq_some_iff, Tree.ofTextWithin?_eq_some_iff, Denotes, and_assoc]

/-- A comma or a second value behind the last, a zero in front, half a character and a number that is not finite. -/
example : ["[1,]", "[1] 2", "[01]", "\"\\ud83d\"", "1e999"].all fun text => (ofText? text).isNone := by decide +kernel

/-- Members are put under their names one after the other. -/
theorem ofMembers?_eq_some_iff (members : List (Option String × Tree)) (sofar es : Entries Value) :
    ofMembers? sofar members = some es ↔ ∃ values : List (String × Value),
      List.Forall₂ (fun m v => m.1 = some v.1 ∧ ofTree? m.2 = some v.2) members values ∧
      values.foldl (fun es v => Entries.put v.1 v.2 es) sofar = es := by
  induction members generalizing sofar with
  | nil => simp [ofMembers?]
  | cons m ms ih =>
    obtain ⟨name, t⟩ := m
    simp only [ofMembers?, Option.bind_eq_bind, Option.bind_eq_some_iff, ih]
    constructor
    · rintro ⟨name, rfl, v, hv, values, hvalues, hfold⟩
      exact ⟨(name, v) :: values, .cons ⟨rfl, hv⟩ hvalues, hfold⟩
    · rintro ⟨_, hvalues, hfold⟩
      cases hvalues with
      | @cons _ v _ values hfirst hrest => exact ⟨v.1, hfirst.1, v.2, hfirst.2, values, hrest, hfold⟩

theorem get?_foldl_put (values : List (String × Value)) (sofar : Entries Value) (name : String) :
    Entries.get? (values.foldl (fun es v => Entries.put v.1 v.2 es) sofar) name =
      (values.reverse.lookup name).or (Entries.get? sofar name) := by
  induction values generalizing sofar with
  | nil => rfl
  | cons v values ih =>
    rw [List.foldl_cons, ih, Entries.get?_put, List.reverse_cons, List.lookup_append, Option.or_assoc, List.lookup_cons]
    by_cases h : name = v.1
    · simp [h]
    · simp [h, beq_eq_false_iff_ne.2 h]

theorem ofTree?_object (members : List (Option String × Tree)) (v : Value) :
    ofTree? (.object members) = some v ↔ ∃ values : List (String × Value),
      List.Forall₂ (fun m v => m.1 = some v.1 ∧ ofTree? m.2 = some v.2) members values ∧
      v = .object (values.foldl (fun es v => Entries.put v.1 v.2 es) []) := by
  rw [ofTree?, Option.map_eq_some_iff]
  simp only [ofMembers?_eq_some_iff]
  constructor
  · rintro ⟨_, ⟨values, hvalues, rfl⟩, rfl⟩
    exact ⟨values, hvalues, rfl⟩
  · rintro ⟨values, hvalues, rfl⟩
    exact ⟨_, ⟨values, hvalues, rfl⟩, rfl⟩

theorem member?_foldl_put (values : List (String × Value)) (name : String) :
    member? name (.object (values.foldl (fun es v => Entries.put v.1 v.2 es) [])) = values.reverse.lookup name := by
  rw [member?, get?_foldl_put]
  exact Option.or_none

/-- A member is found in the value of a text if it is the last of its name there. -/
theorem lastMember_iff (text name : String) (a : Value) :
    LastMember text name a ↔ ∃ v, ofText? text = some v ∧ v.member? name = some a := by
  simp only [ofText?_eq_some_iff]
  constructor
  · rintro ⟨values, ⟨members, hwritten, hdepth, hvalues⟩, hlast⟩
    exact ⟨_, ⟨_, hwritten, hdepth, (ofTree?_object members _).2 ⟨values, hvalues, rfl⟩⟩,
      (member?_foldl_put values name).trans hlast⟩
  · rintro ⟨v, ⟨t, hwritten, hdepth, hvalue⟩, hmember⟩
    cases t with
    | object members =>
      obtain ⟨values, hvalues, rfl⟩ := (ofTree?_object members v).1 hvalue
      exact ⟨values, ⟨members, hwritten, hdepth, hvalues⟩, (member?_foldl_put values name).symm.trans hmember⟩
    -- The value of any other tree is no object, so it has no members.
    | null | bool =>
      obtain rfl := Option.some.inj hvalue
      cases hmember
    | number | string | array =>
      obtain ⟨_, -, rfl⟩ := Option.map_eq_some_iff.1 hvalue
      cases hmember

end Value

end CardIndex.Json
