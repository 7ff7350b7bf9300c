import CardIndex.Cell
import CardIndex.Proofs.Json.NumberText
import CardIndex.Proofs.Text.Trimming

namespace CardIndex.Cell

open Json Text

theorem isBlank_of_isNumberChar {c : Char} (h : Lexer.isNumberChar c) : isBlank c = false := by
  simp only [Lexer.isNumberChar, Bool.or_eq_true, decide_eq_true_eq] at h
  rcases h with ((((h | rfl) | rfl) | rfl) | rfl) | rfl
  · exact isBlank_of_isDigit c h
  all_goals decide

theorem trimmed_numberText (n : Number) : Trimmed (numberText n) := by
  have hnumeral (m : Numeral) : Trimmed m.text :=
    trimmed_of_forall fun c hc => isBlank_of_isNumberChar ((numberText_text m).isNumberChar c hc)
  cases n with
  | integer n => exact hnumeral (.integer n)
  | float x =>
    unfold numberText
    dsimp only
    split
    · split
      · exact hnumeral (.integer _)
      · exact hnumeral _
    · exact hnumeral _

theorem trimmed_intercalate (texts : List (List Char)) (h : ∀ cs ∈ texts, Trimmed cs) :
    Trimmed ([','].intercalate texts) := by
  induction texts with
  | nil => exact trimmed_nil
  | cons cs texts ih =>
    rw [List.forall_mem_cons] at h
    cases texts with
    | nil => simpa using h.1
    | cons ds texts =>
      rw [List.intercalate_cons_cons]
      simpa using h.1.append_cons (c := ',') (by decide) (ih h.2)

mutual

theorem trimmed_text : (v : Value) → Trimmed (text v).toList
  | .null => trimmed_nil
  | .bool true => trimmed_of_all (by decide)
  | .bool false => trimmed_of_all (by decide)
  | .number n => by
    rw [text, String.toList_ofList]
    exact trimmed_numberText n
  | .string s => by
    rw [text, String.trimBlank, String.toList_ofList]
    exact trimmed_trim _
  | .array items => by
    rw [text, String.toList_intercalate]
    apply trimmed_intercalate
    intro cs hcs
    obtain ⟨s, hs, rfl⟩ := List.mem_map.1 hcs
    exact trimmed_texts items s hs
  | .object members => by
    have hobject : (text (.object members)).toList =
        ['{'] ++ (Printer.compactMembers (Value.memberTrees members) ++ ['}']) := by
      rw [text, Value.compactText, Tree.compactText, String.toList_ofList]
      rfl
    rw [hobject]
    constructor
    · intro c hc
      exact Option.some.inj hc ▸ by decide
    · intro c hc
      rw [List.getLast?_append, List.getLast?_append] at hc
      exact Option.some.inj hc ▸ by decide

theorem trimmed_texts : (items : List Value) → ∀ s ∈ texts items, Trimmed s.toList
  | [] => fun s hs => by cases hs
  | v :: vs => by
    rw [texts, List.forall_mem_cons]
    exact ⟨trimmed_text v, trimmed_texts vs⟩

end

theorem text?_eq_none_iff (v : Value) : text? v = none ↔ text v = "" := by
  unfold text?
  dsimp only
  split
  · simp [*]
  · simp [*]

/-- A text that is left when a cell is read. -/
structure Settled (s : String) : Prop where
  trimmed : Trimmed s.toList
  ne_empty : s ≠ ""

theorem settled_of_text? {v : Value} : ∀ s ∈ text? v, Settled s := by
  intro s hs
  unfold text? at hs
  dsimp only at hs
  split at hs
  · cases hs
  · rename_i hne
    obtain rfl := Option.some.inj hs
    exact ⟨trimmed_text v, hne⟩

/-- The entries of a list are no blank texts, whatever kind of cell they come from. -/
theorem settled_of_list (v : Value) : ∀ s ∈ list v, Settled s := by
  have hpieces (cs : List Char) :
      ∀ s ∈ (trimmedPieces (cs.splitOnP isListSeparator)).map String.ofList, Settled s := by
    intro s hs
    obtain ⟨p, hp, rfl⟩ := List.mem_map.1 hs
    obtain ⟨hne, htrimmed⟩ := of_mem_trimmedPieces hp
    rw [← String.toList_ofList (l := p)] at htrimmed
    exact ⟨htrimmed, by simpa using hne⟩
  cases v with
  | array items =>
    intro s hs
    obtain ⟨hmem, hne⟩ := List.mem_filter.1 hs
    exact ⟨trimmed_texts items s hmem, of_decide_eq_true hne⟩
  | null | bool | number | string | object => exact hpieces _

def ofText? (o : Option String) : Value := o.elim .null .string

def ofNumber? (o : Option Binary64) : Value := o.elim .null fun x => .number (.float x)

def ofList (entries : List String) : Value := .array (entries.map .string)

theorem text_string {s : String} (h : Trimmed s.toList) : text (.string s) = s := by
  rw [text, String.trimBlank, h.trim, String.ofList_toList]

theorem text?_string {s : String} (h : Settled s) : text? (.string s) = some s := by
  rw [text?, text_string h.trimmed]
  exact if_neg h.ne_empty

theorem text?_ofText? {o : Option String} (h : ∀ s ∈ o, Settled s) : text? (ofText? o) = o := by
  cases o with
  | none => rfl
  | some s => exact text?_string (h s rfl)

theorem text_ofText? {o : Option String} (h : ∀ s ∈ o, Settled s) : text (ofText? o) = o.getD "" := by
  cases o with
  | none => rfl
  | some s => exact text_string (h s rfl).trimmed

theorem number?_ofNumber? (o : Option Binary64) : number? (ofNumber? o) = o := by
  cases o with
  | none => rfl
  | some x => rfl

theorem list_ofList {entries : List String} (h : ∀ s ∈ entries, Settled s) : list (ofList entries) = entries := by
  have htexts : texts (entries.map .string) = entries := by
    induction entries with
    | nil => rfl
    | cons s entries ih =>
      rw [List.forall_mem_cons] at h
      rw [List.map_cons, texts, text_string h.1.trimmed, ih h.2]
  rw [ofList, list, htexts, List.filter_eq_self]
  intro s hs
  exact decide_eq_true (h s hs).ne_empty

end CardIndex.Cell
