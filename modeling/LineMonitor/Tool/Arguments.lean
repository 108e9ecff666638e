import LineMonitor.Text.ControlSequence
import LineMonitor.Text.Likeness
import LineMonitor.Text.Quoted

/-!
# Command-line arguments

An option is given by its long name, with its value behind `=` or in the next
argument, or by its letter, with its value behind it or in the next argument; letters
of options without value can be joined.  `--` ends the options.  What is wrong with
the arguments is reported before anything else is done.
-/

namespace LineMonitor.Tool

/-- How an option is written. -/
structure OptionForm (Key : Type) where
  key : Key
  long : String
  letter : Option Char := none
  takesValue : Bool := true

/-- Arguments in order: options with their values, and the other arguments. -/
structure Arguments (Key : Type) where
  options : List (Key × String) := []
  positional : List String := []

/-- What is wrong with the arguments. -/
inductive UsageError where
  | unknownOption (name : String) (suggestions : List String)
  | missingValue (name : String)
  | needlessValue (name : String)
  | missingArgument (name : String)
  | extraArguments (arguments : List String)
  | badValue (name message : String)
  deriving DecidableEq, Repr

namespace UsageError

/-- The words that suggest names of options in place of a misspelt one. -/
def suggestion : List String → String
  | [] => ""
  | [name] => " Did you mean '" ++ name ++ "'?"
  | names => " (Did you mean one of: " ++ ", ".intercalate (names.map ("'" ++ · ++ "'")) ++ "?)"

/-- The complaint about the arguments. -/
def message : UsageError → String
  | unknownOption name suggestions =>
    "No such option " ++ Text.quoted name ++ "." ++ suggestion suggestions
  | missingValue name => "Option " ++ Text.quoted name ++ " requires an argument."
  | needlessValue name => "Option " ++ Text.quoted name ++ " does not take a value."
  | missingArgument name => "Missing argument '" ++ name ++ "'."
  | extraArguments arguments =>
    "Got unexpected extra argument" ++ (if arguments.length = 1 then "" else "s") ++ " (" ++
      " ".intercalate arguments ++ ")"
  | badValue name message => "Invalid value for " ++ name ++ ": " ++ message

/-- Whether the complaint comes with a reminder of how the tool is used. -/
def showsUsage : UsageError → Bool
  | missingValue _ | needlessValue _ => false
  | _ => true

/-- The lines that report the complaint of a tool. -/
def report (tool synopsis : String) (e : UsageError) : String :=
  let reminder :=
    "Usage: " ++ tool ++ " " ++ synopsis ++ "\nTry '" ++ tool ++ " --help' for help.\n\n"
  Text.plain ((if e.showsUsage then reminder else "") ++ "Error: " ++ e.message ++ "\n")

end UsageError

namespace Arguments

variable {Key : Type}

/-- The arguments with an option in front. -/
def consOption (key : Key) (value : String) (a : Arguments Key) : Arguments Key :=
  { a with options := (key, value) :: a.options }

/-- The arguments with an argument that is no option in front. -/
def consPositional (value : String) (a : Arguments Key) : Arguments Key :=
  { a with positional := value :: a.positional }

/-- The options that one argument gives, and the one whose value is still to come,
with the name it was called by. -/
abbrev Given (Key : Type) := List (Key × String) × Option (Key × String)

/-- Reads the letters of an argument as options. -/
def readLetters (forms : List (OptionForm Key)) : List Char → Except UsageError (Given Key)
  | [] => .ok ([], none)
  | c :: rest =>
    let name := String.ofList ['-', c]
    match forms.find? (·.letter == some c) with
    | none => .error (.unknownOption name [])
    | some form =>
      if form.takesValue then
        if rest.isEmpty then .ok ([], some (form.key, name))
        else .ok ([(form.key, String.ofList rest)], none)
      else (readLetters forms rest).map fun (given, open?) => ((form.key, "") :: given, open?)

/-- The most names that are suggested for a misspelt one. -/
def suggestionLimit : Nat := 3

/-- The complaint about a long name that no option has, with the names that are like
it. -/
def unknownLong (forms : List (OptionForm Key)) (name : String) : UsageError :=
  .unknownOption name (Text.closest suggestionLimit name (forms.map (·.long)))

/-- Reads an argument that begins with a dash. -/
def readOption (forms : List (OptionForm Key)) (argument : List Char) :
    Except UsageError (Given Key) :=
  let name := String.ofList (argument.takeWhile (· != '='))
  let value? :=
    if argument.contains '=' then
      some (String.ofList ((argument.dropWhile (· != '=')).drop 1))
    else none
  match forms.find? (·.long == name) with
  | some form =>
    match form.takesValue, value? with
    | true, some value => .ok ([(form.key, value)], none)
    | true, none => .ok ([], some (form.key, name))
    | false, some _ => .error (.needlessValue name)
    | false, none => .ok ([(form.key, "")], none)
  | none =>
    if "--".toList.isPrefixOf argument then .error (unknownLong forms name)
    else readLetters forms (argument.drop 1)

/-- Reads arguments; the first one is the value of the option `waiting`, if there is
one. -/
def readFrom (forms : List (OptionForm Key)) :
    Option (Key × String) → List String → Except UsageError (Arguments Key)
  | none, [] => .ok {}
  | some (_, name), [] => .error (.missingValue name)
  | some (key, _), value :: rest => (readFrom forms none rest).map (consOption key value)
  | none, argument :: rest =>
    if argument = "--" then .ok { positional := rest }
    else if argument.toList.head? = some '-' ∧ argument ≠ "-" then
      match readOption forms argument.toList with
      | .error e => .error e
      | .ok (given, waiting) =>
        (readFrom forms waiting rest).map fun a => { a with options := given ++ a.options }
    else (readFrom forms none rest).map (consPositional argument)

/-- Reads the arguments of a tool with options of the given forms. -/
def read (forms : List (OptionForm Key)) (arguments : List String) :
    Except UsageError (Arguments Key) :=
  readFrom forms none arguments

variable [BEq Key]

/-- The value of an option; of several the last counts. -/
def value? (a : Arguments Key) (key : Key) : Option String :=
  (a.options.reverse.find? (·.1 == key)).map (·.2)

/-- The values of an option that can be given several times. -/
def values (a : Arguments Key) (key : Key) : List String :=
  (a.options.filter (·.1 == key)).map (·.2)

/-- Whether an option is given. -/
def has (a : Arguments Key) (key : Key) : Bool :=
  a.options.any (·.1 == key)

/-- The options that are given, each once, in the order of their first occurrences. -/
def keys (a : Arguments Key) : List Key :=
  (a.options.map (·.1)).eraseDups

end Arguments

end LineMonitor.Tool
