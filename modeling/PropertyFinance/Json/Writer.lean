import PropertyFinance.Json.Value

/-! Writing JSON, on one line or indented by two spaces. -/

namespace PropertyFinance.Json
set_option autoImplicit false

def hexChar (n : Nat) : Char := if n < 10 then Char.ofNat (48 + n) else Char.ofNat (87 + n)

/-- A character inside quotes; only quotes, backslashes and control characters are escaped. -/
def escapeChar (c : Char) : List Char :=
  match c with
  | '"' => ['\\', '"']
  | '\\' => ['\\', '\\']
  | '\x08' => ['\\', 'b']
  | '\x0c' => ['\\', 'f']
  | '\n' => ['\\', 'n']
  | '\r' => ['\\', 'r']
  | '\t' => ['\\', 't']
  | c =>
    if c.toNat < 32 then ['\\', 'u', '0', '0', hexChar (c.toNat / 16), hexChar (c.toNat % 16)]
    else [c]

def quoted (s : String) : String := String.ofList ('"' :: s.toList.flatMap escapeChar ++ ['"'])

def numeralText : Numeral → String
  | .integer n => String.ofList (Decimal.signChars (decide (n < 0)) ++ Digits.ofNat n.natAbs)
  | .real x => String.ofList x.toScientificChars

def openBrace : String := "\x7b"
def closeBrace : String := "\x7d"

/-- Between the marks, nothing but the marks for no parts. -/
def enclose (opening closing separator padding closingPadding : String) (parts : List String) :
    String :=
  if parts.isEmpty then opening ++ closing
  else opening ++ padding ++ String.intercalate (separator ++ padding) parts ++ closingPadding
    ++ closing

mutual

/-- On one line without blanks. -/
def render : Json → String
  | null => "null"
  | bool b => if b then "true" else "false"
  | number n => numeralText n
  | text s => quoted s
  | array items => enclose "[" "]" "," "" "" (renderItems items)
  | object entries => enclose openBrace closeBrace "," "" "" (renderEntries entries)
  | unreadable => "null"

def renderItems : List Json → List String
  | [] => []
  | item :: rest => render item :: renderItems rest

def renderEntries : List (String × Json) → List String
  | [] => []
  | (name, value) :: rest => (quoted name ++ ":" ++ render value) :: renderEntries rest

end

/-- A new line with so many levels of indentation. -/
def newLine (level : Nat) : String := String.ofList ('\n' :: List.replicate (2 * level) ' ')

mutual

/-- One item or entry per line, inside so many levels. -/
def indented (level : Nat) : Json → String
  | array items =>
    enclose "[" "]" "," (newLine (level + 1)) (newLine level) (indentedItems (level + 1) items)
  | object entries =>
    enclose openBrace closeBrace "," (newLine (level + 1)) (newLine level)
      (indentedEntries (level + 1) entries)
  | value => render value

def indentedItems (level : Nat) : List Json → List String
  | [] => []
  | item :: rest => indented level item :: indentedItems level rest

def indentedEntries (level : Nat) : List (String × Json) → List String
  | [] => []
  | (name, value) :: rest =>
    (quoted name ++ ": " ++ indented level value) :: indentedEntries level rest

end

def renderIndented (value : Json) : String := indented 0 value

end PropertyFinance.Json
