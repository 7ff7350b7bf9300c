import CardIndex.Proofs.Binary64.Exactness
import CardIndex.Proofs.Card.Codec
import CardIndex.Proofs.Json.Editing
import CardIndex.Proofs.Json.Injectivity
import CardIndex.Proofs.Sha256

namespace CardIndex

open Json Json.Tree

namespace Json.Tree

theorem text_injective : Function.Injective text := fun _ _ h => Option.some.inj (string.inj h)

theorem natural_injective : Function.Injective natural := fun _ _ h =>
  Int.ofNat.inj (Numeral.integer.inj (number.inj h))

theorem binary64_injective : Function.Injective binary64 := fun _ _ h =>
  Numeral.ofBinary64_injective (number.inj h)

theorem list_injective {α : Type} {item : α → Tree} (h : Function.Injective item) :
    Function.Injective (list item) := fun _ _ heq => h.list_map (array.inj heq)

theorem optional_injective {α : Type} {value : α → Tree} (h : Function.Injective value)
    (hne : ∀ a, value a ≠ null) : Function.Injective (optional value) := by
  intro o o' heq
  cases o with
  | none =>
    cases o' with
    | none => rfl
    | some b => exact absurd heq.symm (hne b)
  | some a =>
    cases o' with
    | none => exact absurd heq (hne a)
    | some b => exact congrArg some (h heq)

@[simp] theorem text_inj (s s' : String) : text s = text s' ↔ s = s' := text_injective.eq_iff

@[simp] theorem bool_inj (b b' : Bool) : bool b = bool b' ↔ b = b' := by rw [bool.injEq]

@[simp] theorem texts_inj (ss ss' : List String) : list text ss = list text ss' ↔ ss = ss' :=
  (list_injective text_injective).eq_iff

@[simp] theorem optional_text_inj (o o' : Option String) : optional text o = optional text o' ↔ o = o' :=
  (optional_injective text_injective fun _ => Tree.noConfusion).eq_iff

@[simp] theorem optional_natural_inj (o o' : Option Nat) : optional natural o = optional natural o' ↔ o = o' :=
  (optional_injective natural_injective fun _ => Tree.noConfusion).eq_iff

@[simp] theorem optional_binary64_inj (o o' : Option Binary64) :
    optional binary64 o = optional binary64 o' ↔ o = o' :=
  (optional_injective binary64_injective fun _ => Tree.noConfusion).eq_iff

@[simp] theorem record_cons_inj (name : String) (t t' : Tree) (members members' : List (String × Tree)) :
    record ((name, t) :: members) = record ((name, t') :: members') ↔ t = t' ∧ record members = record members' := by
  simp [record]

end Json.Tree

theorem Timing.toTree_injective : Function.Injective Timing.toTree := by
  intro t t' h
  have hlabel := text_injective h
  have hread := t.ofLabel?_label
  rw [hlabel, t'.ofLabel?_label] at hread
  exact (Option.some.inj hread).symm

theorem Cost.toTree_injective : Function.Injective Cost.toTree := by
  intro c c' h
  simp only [toTree, record_cons_inj, optional_natural_inj, texts_inj, optional_text_inj] at h
  obtain ⟨henergy, hsymbols, hraw, -⟩ := h
  cases c
  cases c'
  simp_all

theorem Activation.toTree_injective : Function.Injective Activation.toTree := by
  intro a a' h
  simp only [toTree, record_cons_inj, Timing.toTree_injective.eq_iff, texts_inj, bool_inj] at h
  cases a
  cases a'
  simp_all

theorem Clause.toTree_injective : Function.Injective Clause.toTree := by
  intro c c' h
  simp only [toTree, record_cons_inj, text_inj, texts_inj] at h
  cases c
  cases c'
  simp_all

theorem Assets.toTree_injective : Function.Injective Assets.toTree := by
  intro a a' h
  simp only [toTree, record_cons_inj, optional_text_inj, text_inj] at h
  cases a
  cases a'
  simp_all

theorem Pricing.toTree_injective : Function.Injective Pricing.toTree := by
  intro p p' h
  simp only [toTree, record_cons_inj, optional_binary64_inj, text_inj] at h
  cases p
  cases p'
  simp_all

theorem References.toTree_injective : Function.Injective References.toTree := by
  intro r r' h
  simp only [toTree, record_cons_inj, optional_text_inj, text_inj] at h
  cases r
  cases r'
  simp_all

theorem Card.toTree_injective : Function.Injective Card.toTree := by
  intro c c' h
  simp only [toTree, record_cons_inj, text_inj, optional_text_inj, texts_inj, optional_binary64_inj,
    Cost.toTree_injective.eq_iff, Activation.toTree_injective.eq_iff, Assets.toTree_injective.eq_iff,
    Pricing.toTree_injective.eq_iff, References.toTree_injective.eq_iff,
    (list_injective Clause.toTree_injective).eq_iff] at h
  cases c
  cases c'
  simp_all

def Cost.fields : List (String × Bool × Shape) := [
  ("energy", true, .value), ("powerSymbols", false, .value), ("raw", true, .value)]

def Activation.fields : List (String × Bool × Shape) := [
  ("timing", false, .value), ("triggers", false, .value), ("actions", false, .value),
  ("requiresTarget", false, .value), ("reactionWindows", false, .value), ("stateful", false, .value)]

def Clause.fields : List (String × Bool × Shape) := [
  ("id", false, .value), ("text", false, .value), ("tags", false, .value)]

def Assets.fields : List (String × Bool × Shape) := [("remote", true, .value), ("localPath", false, .value)]

def Pricing.fields : List (String × Bool × Shape) := [
  ("price", true, .value), ("foilPrice", true, .value), ("currency", false, .value)]

def References.fields : List (String × Bool × Shape) := [("marketUrl", true, .value), ("source", false, .value)]

def Card.fields : List (String × Bool × Shape) := [
  ("id", false, .value), ("slug", false, .value), ("name", true, .value), ("type", true, .value),
  ("rarity", true, .value), ("setName", true, .value), ("colors", false, .value),
  ("cost", false, .structure Cost.fields), ("might", true, .value), ("tags", false, .value),
  ("effect", false, .value), ("flavor", true, .value), ("keywords", false, .value),
  ("activation", false, .structure Activation.fields), ("rules", false, .list (.structure Clause.fields)),
  ("assets", false, .structure Assets.fields), ("pricing", false, .structure Pricing.fields),
  ("references", false, .structure References.fields)]

theorem Cost.ignores : (Shape.structure fields).Ignores ofTree? := by
  refine Shape.ignores_structure (by decide) fun _ _ h => ?_
  refine .bind (h.nullable _ (by simp [fields])) fun _ => ?_
  refine .bind (h.required (by simp [fields]) (Shape.ignores_value _)) fun _ => ?_
  refine .bind (h.nullable _ (by simp [fields])) fun _ => .refl _

theorem Activation.ignores : (Shape.structure fields).Ignores ofTree? := by
  refine Shape.ignores_structure (by decide) fun _ _ h => ?_
  iterate 6 refine .bind (h.required (by simp [fields]) (Shape.ignores_value _)) fun _ => ?_
  exact .refl _

theorem Clause.ignores : (Shape.structure fields).Ignores ofTree? := by
  refine Shape.ignores_structure (by decide) fun _ _ h => ?_
  iterate 3 refine .bind (h.required (by simp [fields]) (Shape.ignores_value _)) fun _ => ?_
  exact .refl _

theorem Assets.ignores : (Shape.structure fields).Ignores ofTree? := by
  refine Shape.ignores_structure (by decide) fun _ _ h => ?_
  refine .bind (h.nullable _ (by simp [fields])) fun _ => ?_
  refine .bind (h.required (by simp [fields]) (Shape.ignores_value _)) fun _ => .refl _

theorem Pricing.ignores : (Shape.structure fields).Ignores ofTree? := by
  refine Shape.ignores_structure (by decide) fun _ _ h => ?_
  iterate 2 refine .bind (h.nullable _ (by simp [fields])) fun _ => ?_
  refine .bind (h.required (by simp [fields]) (Shape.ignores_value _)) fun _ => .refl _

theorem References.ignores : (Shape.structure fields).Ignores ofTree? := by
  refine Shape.ignores_structure (by decide) fun _ _ h => ?_
  refine .bind (h.nullable _ (by simp [fields])) fun _ => ?_
  refine .bind (h.required (by simp [fields]) (Shape.ignores_value _)) fun _ => .refl _

namespace Card

theorem ignores : (Shape.structure fields).Ignores ofTree? := by
  refine Shape.ignores_structure (by decide) fun _ _ h => ?_
  -- in the order of the fields: those of structures are taken apart by the lemmas of these
  iterate 2 refine .bind (h.required (by simp [fields]) (Shape.ignores_value _)) fun _ => ?_
  iterate 4 refine .bind (h.nullable _ (by simp [fields])) fun _ => ?_
  refine .bind (h.required (by simp [fields]) (Shape.ignores_value _)) fun _ => ?_
  refine .bind (h.required (by simp [fields]) Cost.ignores) fun _ => ?_
  refine .bind (h.nullable _ (by simp [fields])) fun _ => ?_
  iterate 2 refine .bind (h.required (by simp [fields]) (Shape.ignores_value _)) fun _ => ?_
  refine .bind (h.nullable _ (by simp [fields])) fun _ => ?_
  refine .bind (h.required (by simp [fields]) (Shape.ignores_value _)) fun _ => ?_
  refine .bind (h.required (by simp [fields]) Activation.ignores) fun _ => ?_
  refine .bind (h.required (by simp [fields]) Clause.ignores.list) fun _ => ?_
  refine .bind (h.required (by simp [fields]) Assets.ignores) fun _ => ?_
  refine .bind (h.required (by simp [fields]) Pricing.ignores) fun _ => ?_
  refine .bind (h.required (by simp [fields]) References.ignores) fun _ => .refl _

/-- The bytes that the content hash is the digest of. -/
def hashed (c : Card) : List UInt8 := c.toTree.compactText.toUTF8.toList

theorem hashed_injective : Function.Injective hashed := fun _ _ h =>
  toTree_injective (compactText_injective (Sha256.utf8_injective _ _ h))

/-- The hash is one of the content: a text that says the same card in another way is decoded as that card, and two
cards with one hash have different bytes with one digest. -/
theorem contentHash_complete :
    (∀ (c : Card) (s s' : String), (Tree.ofText? s).bind ofTree? = some c →
      Relation.ReflTransGen (Restyled (.structure fields)) s s' → (Tree.ofText? s').bind ofTree? = some c) ∧
    ∀ c c' : Card, c ≠ c' →
      c.hashed ≠ c'.hashed ∧ (c.contentHash = c'.contentHash → Sha256.digest c.hashed = Sha256.digest c'.hashed) := by
  refine ⟨fun c s s' hs hsteps => carries_of_restyled ignores hsteps c hs, fun c c' hne => ⟨?_, fun hhash => ?_⟩⟩
  · exact fun hsame => hne (hashed_injective hsame)
  · exact Sha256.hexText_injective _ _ hhash

/-- A card without a name, and a text of it that starts with a line break, has an unknown member and the assets in
another order, and leaves the name out; and the card with another rule. -/
theorem contentHash_complete_of_rewritten_text :
    let c : Card := ⟨"x", "x", none, none, none, none, [], ⟨none, [], none⟩, none, [], "", none, [],
      ⟨.passive, [], [], false, [], false⟩, [], ⟨none, "x.webp"⟩, ⟨none, none, "USD"⟩, ⟨none, "dump"⟩⟩
    let t := record [("note", .array [.bool true]), ("id", .text "x"), ("slug", .text "x"), ("type", .null),
      ("rarity", .null), ("setName", .null), ("colors", .array []), ("cost", c.cost.toTree), ("might", .null),
      ("tags", .array []), ("effect", .text ""), ("flavor", .null), ("keywords", .array []),
      ("activation", c.activation.toTree), ("rules", .array []),
      ("assets", record [("localPath", .text "x.webp"), ("remote", .null)]), ("pricing", c.pricing.toTree),
      ("references", c.references.toTree)]
    (Tree.ofText? ("\n" ++ t.compactText)).bind ofTree? = some c ∧
      c.hashed ≠ { c with rules := [⟨"x-rule-1", "Draw 1.", []⟩] }.hashed := by
  intro c t
  have hcard : (Tree.ofText? c.toTree.compactText).bind ofTree? = some c := by
    rw [ofText?_compactText, Option.bind_some]
    exact c.ofTree?_toTree ⟨by simp [c], by simp [c, numbers]⟩
  let ms := c.toTree.members
  let note : Option String × Tree := (some "note", .array [.bool true])
  let remote : Option String × Tree := (some "remote", .null)
  let localPath : Option String × Tree := (some "localPath", .text "x.webp")
  let full : Tree := .object (note :: ms)
  let nameless : Tree := .object (note :: (ms.take 2 ++ ms.drop 3))
  have hname : ("name", true, Shape.value) ∈ fields := by simp [fields]
  have hassets : ("assets", false, Shape.structure Assets.fields) ∈ fields := by simp [fields]
  have insert : Edit (.structure fields) c.toTree full :=
    (.insert (by decide) : Edit _ (.object ([] ++ ms)) (.object ([] ++ note :: ms)))
  have leaveOut : Edit (.structure fields) full nameless :=
    (.leaveOut hname : Edit _ (.object (note :: ms.take 2 ++ (some "name", .null) :: ms.drop 3))
      (.object (note :: ms.take 2 ++ ms.drop 3)))
  have swap : Edit (.structure fields) nameless t :=
    (.member hassets (.permute (.swap localPath remote [])) :
      Edit _ (.object (note :: (ms.take 2 ++ (ms.drop 3).take 12) ++
        (some "assets", .object [remote, localPath]) :: ms.drop 16))
        (.object (note :: (ms.take 2 ++ (ms.drop 3).take 12) ++
        (some "assets", .object [localPath, remote]) :: ms.drop 16)))
  have space : Restyled (.structure fields) t.compactText ("\n" ++ t.compactText) := by
    refine .respace ?_
    rw [String.toList_append]
    exact .lead _ '\n' (by decide)
  refine ⟨contentHash_complete.1 c c.toTree.compactText _ hcard ?_, (contentHash_complete.2 c _ (by simp [c])).1⟩
  exact (((Relation.ReflTransGen.single (insert.restyled rfl rfl)).tail (leaveOut.restyled rfl rfl)).tail
    (swap.restyled rfl rfl)).tail space

end Card

end CardIndex
