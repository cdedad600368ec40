import PropertyFinance.Json.Reader
import PropertyFinance.Text.Blank
import PropertyFinance.Yaml.Reader

/-! The document a command works on, from a file or from the standard input. -/

namespace PropertyFinance.CommandLine
set_option autoImplicit false

/-- What stands at a path. -/
inductive Entry
  | missing
  | notAFile
  /-- A file that cannot be read as text. -/
  | unreadable
  | file (text : String)
deriving DecidableEq

/-- What a command can see around it. -/
structure Surroundings where
  directory : String
  stdin : String
  entryAt : String → Entry

/-- Where a command takes its input from. -/
inductive Source
  | arguments
  | stdin
  | file (path : String)
deriving DecidableEq

inductive DocumentError
  | fileNotFound (path : String)
  | notAFile (path : String)
  | unreadableFile (path : String)
  | malformedFile (path : String)
  | malformedInput
deriving DecidableEq

def DocumentError.message : DocumentError → String
  | .fileNotFound path => "File not found: " ++ path
  | .notAFile path => "Not a file: " ++ path
  | .unreadableFile path => "Failed to read '" ++ path ++ "'"
  | .malformedFile path => "Failed to parse '" ++ path ++ "'"
  | .malformedInput => "stdin is neither JSON nor YAML"

/-- The path as seen from a directory; one that begins at the root stays as it is. -/
def absolutePath (directory path : String) : String :=
  if path.toList.head? = some '/' then path
  else if directory.toList.getLast? = some '/' then directory ++ path
  else directory ++ "/" ++ path

/-- A file name is more than its extension. -/
def hasExtension (extension path : String) : Bool :=
  let name := (path.toList.reverse.takeWhile (· != '/')).reverse
  let ending := '.' :: extension.toList
  ending.isSuffixOf name && ending.length < name.length

def isYamlPath (path : String) : Bool := hasExtension "yaml" path || hasExtension "yml" path

def readFile (around : Surroundings) (path : String) : Except DocumentError Json :=
  let path := absolutePath around.directory path
  match around.entryAt path with
  | .missing => .error (.fileNotFound path)
  | .notAFile => .error (.notAFile path)
  | .unreadable => .error (.unreadableFile path)
  | .file text =>
    match if isYamlPath path then Json.ofYaml? text else Json.normalOfText? text with
    | some json => .ok json
    | none => .error (.malformedFile path)

/-- The document of the standard input, JSON or else YAML; nothing if it is blank. -/
def readStdin (text : String) : Except DocumentError (Option Json) :=
  let text := Blank.trim text
  if text.isEmpty then .ok none
  else match Json.normalOfText? text <|> Json.ofYaml? text with
    | some json => .ok (some json)
    | none => .error .malformedInput

def fetch (around : Surroundings) : Source → Except DocumentError (Option Json)
  | .arguments => .ok none
  | .stdin => readStdin around.stdin
  | .file path => (readFile around path).map some

/-- The file that was named, or else the standard input. -/
def Source.ofInput : Option String → Source
  | some path => .file path
  | none => .stdin

end PropertyFinance.CommandLine
