namespace CardIndex.CommandLine

/-- What the arguments of a program ask for. -/
inductive Demand (α : Type)
  | perform (task : α)
  | help
  | version
  | misuse
deriving DecidableEq

/-- An option that takes a value; only some may have an empty one. -/
structure OptionRule where
  name : String
  mayBeEmpty : Bool

/-- The option values that were given, by name. -/
abbrev Given := List (String × String)

/-- An argument that starts with a hyphen is no value, but a hyphen alone is. -/
def isValue (argument : String) : Bool := argument.toList.head? ≠ some '-' || argument = "-"

/-- The options asked for help, alone or in front of other letters. -/
def asksForHelp (argument : String) : Bool := argument = "--help" || ['-', 'h'].isPrefixOf argument.toList

def asksForVersion (argument : String) : Bool :=
  argument = "--version" || ['-', 'V'].isPrefixOf argument.toList

/-- The name and the value of `--name=value`. -/
def splitOption (argument : String) : String × Option String :=
  let name := argument.toList.takeWhile (· ≠ '=')
  match argument.toList.drop name.length with
  | [] => (argument, none)
  | _ :: value => (String.ofList name, some (String.ofList value))

/-- Takes in an option's value. No option may be given twice. -/
def accept (rule : OptionRule) (value : String) (given : Given) : Option Given :=
  if (value = "" && !rule.mayBeEmpty) || (given.lookup rule.name).isSome then none
  else some (given ++ [(rule.name, value)])

/-- Reads options from left to right. What comes first counts: a request for help, or the first fault. -/
def options (rules : List OptionRule) (given : Given) : List String → Demand Given
  | [] => .perform given
  | ["--"] => .perform given
  | argument :: rest =>
    if asksForHelp argument then .help
    else
      let (name, attached) := splitOption argument
      match rules.find? (fun rule => "--" ++ rule.name = name), attached, rest with
      | none, _, _ => .misuse
      | some rule, some value, rest =>
        match accept rule value given with
        | some given => options rules given rest
        | none => .misuse
      | some rule, none, value :: rest =>
        if isValue value then
          match accept rule value given with
          | some given => options rules given rest
          | none => .misuse
        else .misuse
      | some _, none, [] => .misuse

/-- Reads at most one value that has no name, which may not be empty. Behind two hyphens anything is a value. -/
def single (value? : Option String) (literal : Bool) : List String → Demand (Option String)
  | [] => .perform value?
  | argument :: rest =>
    if !literal && argument = "--" then single value? true rest
    else if literal || isValue argument then
      if value?.isSome || argument = "" then .misuse else single (some argument) literal rest
    else if asksForHelp argument then .help
    else if asksForVersion argument then .version
    else .misuse

def Demand.map {α β : Type} (f : α → β) : Demand α → Demand β
  | perform a => perform (f a)
  | help => help
  | version => version
  | misuse => misuse

end CardIndex.CommandLine
