/-! Options among the arguments: `--name value`, `--name=value`, and flags with a letter such as
`-v`. Names are exact, and options end at the first argument that is none. -/

namespace PropertyFinance.CommandLine
set_option autoImplicit false

inductive OptionKind
  | flag
  | value
  /-- Values parted by commas; the first may begin with a hyphen. -/
  | list
  /-- A flag behind which nothing is read. -/
  | final
deriving DecidableEq

structure OptionSpec where
  name : String
  letter : Option Char
  kind : OptionKind
deriving DecidableEq

inductive UsageError
  | unknownOption (text : String)
  | unexpectedArgument (text : String)
  | missingValue (name : String)
  | unexpectedValue (name : String)
  | repeatedOption (name : String)
  | invalidValue (name text : String)
  | missingCommand
  | unknownCommand (name : String)
deriving DecidableEq

def UsageError.message : UsageError → String
  | .unknownOption text => "unknown option '" ++ text ++ "'"
  | .unexpectedArgument text => "unexpected argument '" ++ text ++ "'"
  | .missingValue name => "option '--" ++ name ++ "' needs a value"
  | .unexpectedValue name => "option '--" ++ name ++ "' takes no value"
  | .repeatedOption name => "option '--" ++ name ++ "' was given more than once"
  | .invalidValue name text => "invalid value '" ++ text ++ "' for '--" ++ name ++ "'"
  | .missingCommand => "a command is required"
  | .unknownCommand name => "unknown command '" ++ name ++ "'"

abbrev Usage := Except UsageError

/-- The options given, in their order, with their values as they stand; that of a flag is empty. -/
structure Given where
  entries : List (String × String)

/-- The characters up to the first separator, and those behind it if there is one. -/
def splitAtFirst (separator : Char) : List Char → List Char × Option (List Char)
  | [] => ([], none)
  | c :: rest =>
    if c = separator then ([], some rest)
    else
      let (front, back) := splitAtFirst separator rest
      (c :: front, back)

/-- The pieces between separators, empty ones included. -/
def splitAll (separator : Char) : List Char → List (List Char)
  | [] => [[]]
  | c :: rest =>
    if c = separator then [] :: splitAll separator rest
    else match splitAll separator rest with
      | piece :: pieces => (c :: piece) :: pieces
      | [] => [[c]]

/-- Whether an argument begins with a hyphen and goes on. -/
def looksLikeOption (arg : String) : Bool :=
  match arg.toList with
  | '-' :: _ :: _ => true
  | _ => false

namespace Given

def empty : Given := ⟨[]⟩

def add (given : Given) (name value : String) : Given := ⟨given.entries ++ [(name, value)]⟩

def has (given : Given) (name : String) : Bool := given.entries.any fun e => e.1 == name

def valuesOf (given : Given) (name : String) : List String :=
  (given.entries.filter fun e => e.1 == name).map Prod.snd

/-- The value of an option that may stand only once. -/
def single? (given : Given) (name : String) : Usage (Option String) :=
  match given.valuesOf name with
  | [] => .ok none
  | [value] => .ok (some value)
  | _ => .error (.repeatedOption name)

def flag (given : Given) (name : String) : Usage Bool := do
  pure (← given.single? name).isSome

def readValue {A : Type} (name : String) (read : String → Option A) (text : String) : Usage A :=
  match read text with
  | some a => .ok a
  | none => .error (.invalidValue name text)

def value? {A : Type} (given : Given) (name : String) (read : String → Option A) :
    Usage (Option A) := do
  match ← given.single? name with
  | none => pure none
  | some text => pure (some (← readValue name read text))

def valueOr {A : Type} (given : Given) (name : String) (read : String → Option A) (default : A) :
    Usage A := do
  pure ((← given.value? name read).getD default)

/-- The values of every occurrence in one list. -/
def list? {A : Type} (given : Given) (name : String) (read : String → Option A) :
    Usage (Option (List A)) := do
  match given.valuesOf name with
  | [] => pure none
  | texts =>
    let pieces := texts.flatMap fun text => (splitAll ',' text.toList).map String.ofList
    pure (some (← pieces.mapM (readValue name read)))

end Given

/-- The flags of some letters, and whether one of them ends the options. -/
def readLetters (specs : List OptionSpec) : List Char → Given → Usage (Given × Bool)
  | [], given => .ok (given, false)
  | c :: rest, given =>
    match specs.find? fun spec => spec.letter == some c with
    | none => .error (.unknownOption (String.ofList ['-', c]))
    | some spec =>
      match spec.kind with
      | .flag => readLetters specs rest (given.add spec.name "")
      | .final => .ok (given.add spec.name "", true)
      | .value | .list => .error (.missingValue spec.name)

/-- Reads the options in front, and gives what stands behind them. -/
def readOptions (specs : List OptionSpec) : List String → Given → Usage (Given × List String)
  | [], given => .ok (given, [])
  | arg :: rest, given =>
    match arg.toList with
    | ['-', '-'] => .ok (given, arg :: rest)
    | '-' :: '-' :: chars =>
      let (name, attached) := splitAtFirst '=' chars
      match specs.find? fun spec => spec.name == String.ofList name with
      | none => .error (.unknownOption arg)
      | some spec =>
        match spec.kind, attached with
        | .flag, none => readOptions specs rest (given.add spec.name "")
        | .final, none => .ok (given.add spec.name "", [])
        | .flag, some _ | .final, some _ => .error (.unexpectedValue spec.name)
        | .value, some value | .list, some value =>
          readOptions specs rest (given.add spec.name (String.ofList value))
        | kind, none =>
          match rest with
          | [] => .error (.missingValue spec.name)
          | value :: rest =>
            if kind = .value ∧ looksLikeOption value then .error (.missingValue spec.name)
            else readOptions specs rest (given.add spec.name value)
    | '-' :: c :: letters => do
      let (given, ends) ← readLetters specs (c :: letters) given
      if ends then pure (given, []) else readOptions specs rest given
    | _ => .ok (given, arg :: rest)

end PropertyFinance.CommandLine
