/-!
# Options on a command line

Options are written `--name value`, `--name=value`, `-n value`, `-nvalue` or `-n=value`; flags take
no value, and several of one letter can share a dash.  A value that is a word of its own may not
start with a dash unless it is a dash.  No option may be given twice.
-/

namespace TableLineage.Command

/-- An option that a command knows. -/
structure OptionSpec where
  name : String
  letter : Option Char
  takesValue : Bool
  deriving DecidableEq, Repr

/-- An option as it was given; the value of a flag is empty. -/
structure GivenOption where
  name : String
  value : String
  deriving DecidableEq, Repr

/-- Why a command line is refused. -/
inductive UsageError where
  | unknownOption (word : String)
  | missingValue (name : String)
  /-- A flag has a value. -/
  | needlessValue (name : String)
  | repeatedOption (name : String)
  | badValue (name value : String)
  | missingOption (name : String)
  | missingCommand
  | unknownCommand (word : String)
  | unexpectedWord (word : String)
  deriving DecidableEq, Repr

/-- The text of an error. -/
def UsageError.message : UsageError → String
  | unknownOption word => s!"unexpected option '{word}'"
  | missingValue name => s!"option '{name}' needs a value"
  | needlessValue name => s!"option '{name}' takes no value"
  | repeatedOption name => s!"option '{name}' is given twice"
  | badValue name value => s!"'{value}' is not a value of option '{name}'"
  | missingOption name => s!"option '{name}' is required"
  | missingCommand => "a command is required: lineage, parse or render"
  | unknownCommand word => s!"unknown command '{word}'"
  | unexpectedWord word => s!"unexpected argument '{word}'"

/-! ## Words -/

/-- Whether a word is one or more options. -/
def isOptionWord (word : String) : Bool :=
  match word.toList with
  | '-' :: _ :: _ => true
  | _ => false

/-- The options in a word, and an option at its end that still needs its value. -/
structure WordOptions where
  given : List GivenOption
  waiting : Option OptionSpec
  deriving DecidableEq, Repr

/-- The option that a long name with or without a value gives. -/
def longOption (specs : List OptionSpec) (text : List Char) : Except UsageError WordOptions :=
  let name := text.takeWhile (· != '=')
  match specs.find? (·.name == String.ofList name), text.drop name.length with
  | none, _ => .error (.unknownOption (String.ofList text))
  | some spec, [] =>
    if spec.takesValue then .ok ⟨[], some spec⟩ else .ok ⟨[⟨spec.name, ""⟩], none⟩
  | some spec, _ :: value =>
    if spec.takesValue then .ok ⟨[⟨spec.name, String.ofList value⟩], none⟩
    else .error (.needlessValue spec.name)

/-- The options that letters after a dash give. -/
def letterOptions (specs : List OptionSpec) : List Char → Except UsageError WordOptions
  | [] => .ok ⟨[], none⟩
  | letter :: rest =>
    match specs.find? (·.letter == some letter) with
    | none => .error (.unknownOption (String.singleton letter))
    | some spec =>
      if spec.takesValue then
        match rest with
        | [] => .ok ⟨[], some spec⟩
        | '=' :: value => .ok ⟨[⟨spec.name, String.ofList value⟩], none⟩
        | value => .ok ⟨[⟨spec.name, String.ofList value⟩], none⟩
      else
        match letterOptions specs rest with
        | .error error => .error error
        | .ok more => .ok { more with given := ⟨spec.name, ""⟩ :: more.given }

/-- The options in a word that starts with a dash. -/
def wordOptions (specs : List OptionSpec) (word : String) : Except UsageError WordOptions :=
  match word.toList.drop 1 with
  | '-' :: name => longOption specs name
  | letters => letterOptions specs letters

/-! ## Lines -/

/-- The options at the start of some words, and the words from the first other word on. -/
structure LineOptions where
  given : List GivenOption
  rest : List String
  deriving DecidableEq, Repr

/-- The options at the start of some words.  `waiting` is an option whose value comes next. -/
def readOptions (specs : List OptionSpec) (waiting : Option OptionSpec) :
    List String → Except UsageError LineOptions
  | [] =>
    match waiting with
    | some spec => .error (.missingValue spec.name)
    | none => .ok ⟨[], []⟩
  | word :: words =>
    match waiting with
    | some spec =>
      if isOptionWord word then .error (.missingValue spec.name)
      else (readOptions specs none words).map fun line =>
        { line with given := ⟨spec.name, word⟩ :: line.given }
    | none =>
      if word = "--" then
        match words with
        | [] => .ok ⟨[], []⟩
        | next :: _ => .error (.unexpectedWord next)
      else if isOptionWord word then
        match wordOptions specs word with
        | .error error => .error error
        | .ok options =>
          (readOptions specs options.waiting words).map fun line =>
            { line with given := options.given ++ line.given }
      else .ok ⟨[], word :: words⟩

/-- The first option that is given twice. -/
def repeated? : List GivenOption → Option GivenOption
  | [] => none
  | option :: options =>
    if options.any (·.name == option.name) then some option else repeated? options

/-- The options at the start of some words, each given at most once. -/
def LineOptions.ofWords (specs : List OptionSpec) (words : List String) :
    Except UsageError LineOptions :=
  match readOptions specs none words with
  | .error error => .error error
  | .ok line =>
    match repeated? line.given with
    | some option => .error (.repeatedOption option.name)
    | none => .ok line

/-- The value of an option, if it is given. -/
def valueOf? (given : List GivenOption) (name : String) : Option String :=
  (given.find? (·.name == name)).map (·.value)

/-- Whether a flag is given. -/
def isGiven (given : List GivenOption) (name : String) : Bool :=
  (valueOf? given name).isSome

/-- The choice that an option names, if it is given. -/
def choiceOf? {α : Type} (given : List GivenOption) (name : String) (choices : List (String × α)) :
    Except UsageError (Option α) :=
  match valueOf? given name with
  | none => .ok none
  | some value =>
    match choices.lookup value with
    | some choice => .ok (some choice)
    | none => .error (.badValue name value)

end TableLineage.Command
