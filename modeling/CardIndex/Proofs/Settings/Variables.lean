import CardIndex.Proofs.CommandLine.Loading

namespace CardIndex.Dotenv

/-- The text of a value where variables have these values. -/
def textOf (env : String → Option String) : List Part → String
  | [] => ""
  | .char c :: parts => c.toString ++ textOf env parts
  | .variable name :: parts => (env (String.ofList name)).getD "" ++ textOf env parts

/-- The variables when one is set, unless it is set already. -/
def define (env : String → Option String) (name text : String) (other : String) : Option String :=
  (env other).or (if other = name then some text else none)

/-- The variables behind some lines. A value may name those that are set before it. -/
def scope (env : String → Option String) : List Line → String → Option String
  | [] => env
  | .blank :: lines => scope env lines
  | .assignment name parts :: lines => scope (define env name (textOf env parts)) lines

theorem define_of_set {env : String → Option String} {name value : String} (h : env name = some value) (text : String) :
    define env name text = env := by
  funext other
  unfold define
  by_cases hother : other = name
  · rw [hother, h]
    rfl
  · rw [if_neg hother, Option.or_none]

theorem define_of_ne (env : String → Option String) {name other : String} (h : other ≠ name) (text : String) :
    define env name text other = env other := by
  rw [define, if_neg h, Option.or_none]

theorem define_self {env : String → Option String} {name : String} (h : env name = none) (text : String) :
    define env name text name = some text := by
  rw [define, h, if_pos rfl, Option.none_or]

/-- A line that sets a variable. -/
def Sets (line : Line) (name : String) : Prop := ∃ parts, line = .assignment name parts

theorem scope_of_set {env : String → Option String} {name value : String} (h : env name = some value)
    (lines : List Line) :
    scope env lines name = some value := by
  induction lines generalizing env with
  | nil => exact h
  | cons line lines ih =>
    cases line with
    | blank => exact ih h
    | assignment other parts =>
      apply ih
      rw [define, h]
      rfl

theorem scope_of_unset {env : String → Option String} {name : String} {lines : List Line}
    (h : ∀ line ∈ lines, ¬ Sets line name) :
    scope env lines name = env name := by
  induction lines generalizing env with
  | nil => rfl
  | cons line lines ih =>
    rw [List.forall_mem_cons] at h
    cases line with
    | blank => exact ih h.2
    | assignment other parts =>
      have hne : name ≠ other := fun hsame => h.1 ⟨parts, hsame ▸ rfl⟩
      rw [scope, ih h.2, define_of_ne env hne]

theorem scope_append (env : String → Option String) (front back : List Line) :
    scope env (front ++ back) = scope (scope env front) back := by
  induction front generalizing env with
  | nil => rfl
  | cons line front ih =>
    cases line with
    | blank => exact ih env
    | assignment name parts => exact ih _

/-- The first line that sets a variable counts. -/
theorem scope_of_first {env : String → Option String} {name : String} {front : List Line} (hnone : env name = none)
    (hfront : ∀ line ∈ front, ¬ Sets line name) (parts : List Part) (back : List Line) :
    scope env (front ++ .assignment name parts :: back) name = some (textOf (scope env front) parts) := by
  rw [scope_append, scope]
  exact scope_of_set (define_self ((scope_of_unset hfront).trans hnone) _) back

/-- A variable that a program was started with has that value, even if it is blank. Any other has the value from the
first line that sets it, in which other variables have the values from before that line. -/
structure Seen (own : String → Option String) (lines : List Line) (env : String → Option String) : Prop where
  started : ∀ name value, own name = some value → env name = some value
  added : ∀ name front parts back, own name = none → lines = front ++ .assignment name parts :: back →
    (∀ line ∈ front, ¬ Sets line name) → env name = some (textOf (scope own front) parts)
  unset : ∀ name, own name = none → (∀ line ∈ lines, ¬ Sets line name) → env name = none

theorem seen_scope (own : String → Option String) (lines : List Line) : Seen own lines (scope own lines) where
  started _ _ h := scope_of_set h lines
  added _ _ parts back hnone hlines hfront := hlines ▸ scope_of_first hnone hfront parts back
  unset _ hnone hlines := (scope_of_unset hlines).trans hnone

section

variable (w : World)

/-- The value of a variable: that with which the program was started, or one that is added. -/
def visible (added : List (String × String)) (name : String) : Option String :=
  (w.environment.lookup name).or (added.lookup name)

theorem visible_nil : visible w [] = (w.environment.lookup ·) := funext fun _ => Option.or_none

theorem define_visible {added : List (String × String)} {name : String} (h : visible w added name = none)
    (text : String) :
    define (visible w added) name text = visible w ((name, text) :: added) := by
  funext other
  by_cases hother : other = name
  · rw [hother, define_self h, visible, (Option.or_eq_none_iff.1 h).1, List.lookup_cons_self, Option.none_or]
  · rw [define_of_ne _ hother, visible, visible, List.lookup_cons, beq_eq_false_iff_ne.2 hother]

theorem run_lookup (added : List (String × String)) (name : String) :
    Id.run ((lookup added name : StateM World (Option String)).run w) = (visible w added name, w) := rfl

theorem run_expand (added : List (String × String)) (parts : List Part) :
    Id.run ((expand added parts : StateM World String).run w) = (textOf (visible w added) parts, w) := by
  induction parts with
  | nil => rfl
  | cons part parts ih =>
    rcases part with c | name
    · unfold expand
      rw [run_bind_of_run ih]
      rfl
    · unfold expand
      rw [run_bind_of_run (run_lookup w added _), run_bind_of_run ih]
      rfl

/-- Lines that can all be read are all taken in. -/
theorem run_additions (added : List (String × String)) (texts : List (Option String)) (lines : List Line)
    (h : texts.mapM (·.bind line?) = some lines) :
    ∃ added', Id.run ((additions added texts : StateM World (List (String × String))).run w) = (added', w) ∧
      visible w added' = scope (visible w added) lines := by
  induction texts generalizing added lines with
  | nil =>
    obtain rfl := Option.some.inj h
    exact ⟨added, rfl, rfl⟩
  | cons text texts ih =>
    rw [List.mapM_cons] at h
    obtain ⟨line, hline, h⟩ := Option.bind_eq_some_iff.1 h
    obtain ⟨lines, hlines, h⟩ := Option.bind_eq_some_iff.1 h
    obtain rfl := Option.some.inj h
    unfold additions
    rw [hline]
    cases line with
    | blank => exact ih added lines hlines
    | assignment name parts =>
      dsimp only
      rw [run_bind_of_run (run_expand w added parts), run_bind_of_run (run_lookup w added name), scope]
      cases hname : visible w added name with
      | some value =>
        rw [define_of_set hname]
        exact ih added lines hlines
      | none =>
        rw [define_visible w hname]
        exact ih _ lines hlines

/-- The lines of a content, if all of them can be read. -/
def parsed? (content : ByteArray) : Option (List Line) := (linesOf content).mapM (·.bind line?)

/-- The lines of the file of variables, if all of them can be read; without the file there are none. -/
def lines? : Option (List Line) :=
  match file? w with
  | some content => parsed? content
  | none => some []

/-- The lines are those of the files, whatever else there is. -/
theorem lines?_congr {w w' : World} (h : w'.files = w.files) : lines? w' = lines? w := by
  have hfile : file? w' = file? w := by
    unfold file?
    rw [h]
    obtain ⟨content, hfound, hfound'⟩ := agrees_find_of_files h _ _
    exact (congrArg Prod.fst hfound').trans (congrArg Prod.fst hfound).symm
  rw [lines?, hfile, lines?]

end

end CardIndex.Dotenv

namespace CardIndex.CommandLine.Catalog

open Dotenv

theorem visible_added {w : World} {lines : List Line} (h : lines? w = some lines) :
    visible w (added w) = scope (w.environment.lookup ·) lines := by
  unfold lines? at h
  unfold added
  rw [run_load]
  cases hfile : file? w with
  | none =>
    rw [hfile] at h
    obtain rfl := Option.some.inj h
    exact visible_nil w
  | some content =>
    rw [hfile] at h
    obtain ⟨added', hrun, hscope⟩ := run_additions w [] _ lines h
    dsimp only
    rw [hrun, hscope, visible_nil]

end CardIndex.CommandLine.Catalog
