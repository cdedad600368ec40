import PropertyFinance.Json.Value

/-! Reading JSON text. Each reader takes the characters from where its part begins and gives back
what follows it. Numbers with a point or an exponent become binary ones by one multiplication or
division of a significand of 64 bits by a power of ten. -/

namespace PropertyFinance
set_option autoImplicit false

namespace Json.Reader

/-- Levels of nesting that can be read. -/
def maxDepth : Nat := 127

def isBlank (c : Char) : Bool := c == ' ' || c == '\n' || c == '\t' || c == '\r'

def skipBlanks (cs : List Char) : List Char := cs.dropWhile isBlank

def hexDigit? (c : Char) : Option Nat :=
  if c.isDigit then some (c.toNat - 48)
  else if 'a' ≤ c ∧ c ≤ 'f' then some (c.toNat - 87)
  else if 'A' ≤ c ∧ c ≤ 'F' then some (c.toNat - 55)
  else none

/-- Four hexadecimal digits. -/
def readUnit : List Char → Option (Nat × List Char)
  | a :: b :: c :: d :: rest => do
    let ds ← [a, b, c, d].mapM hexDigit?
    some (ds.foldl (fun n d => 16 * n + d) 0, rest)
  | _ => none

def isHighSurrogate (n : Nat) : Bool := 0xD800 ≤ n && n < 0xDC00
def isLowSurrogate (n : Nat) : Bool := 0xDC00 ≤ n && n < 0xE000

/-- The second half of a surrogate pair, if it follows. -/
def readLowSurrogate : List Char → Option (Nat × List Char)
  | '\\' :: 'u' :: rest => do
    let (low, rest) ← readUnit rest
    if isLowSurrogate low then some (low, rest) else none
  | _ => none

/-- The character of an escape of one letter. -/
def escape? : Char → Option Char
  | '"' => some '"'
  | '\\' => some '\\'
  | '/' => some '/'
  | 'b' => some '\x08'
  | 'f' => some '\x0c'
  | 'n' => some '\n'
  | 'r' => some '\r'
  | 't' => some '\t'
  | _ => none

/-- One character of a text; the inner option is empty for a surrogate without its partner. -/
def readChar : List Char → Option (Option Char × List Char)
  | '\\' :: 'u' :: rest => do
    let (n, rest) ← readUnit rest
    if isLowSurrogate n then some (none, rest)
    else if isHighSurrogate n then
      match readLowSurrogate rest with
      | some (low, rest) =>
        some (some (Char.ofNat (0x10000 + (n - 0xD800) * 0x400 + (low - 0xDC00))), rest)
      | none => some (none, rest)
    else some (some (Char.ofNat n), rest)
  | '\\' :: c :: rest => do some (some (← escape? c), rest)
  | c :: rest => if c.toNat < 32 || c = '\\' then none else some (some c, rest)
  | [] => none

/-- A text after its opening quote; `none` inside stands for a text with a broken pair. -/
def readText : Nat → List Char → List Char → Bool → Option (Option String × List Char)
  | 0, _, _, _ => none
  | fuel + 1, cs, done, sound =>
    match cs with
    | '"' :: rest =>
      some (if sound then some (String.ofList done.reverse) else none, rest)
    | cs => do
      match ← readChar cs with
      | (some c, rest) => readText fuel rest (c :: done) sound
      | (none, rest) => readText fuel rest done false

/-- A number as written. -/
structure Literal where
  negative : Bool
  whole : List Char
  places : Option (List Char)
  exponent : Option (Bool × List Char)

def digits (cs : List Char) : List Char × List Char :=
  (cs.takeWhile Char.isDigit, cs.dropWhile Char.isDigit)

/-- At least one digit. -/
def someDigits (cs : List Char) : Option (List Char × List Char) :=
  match digits cs with
  | ([], _) => none
  | read => some read

/-- Digits without a needless zero in front. -/
def readWhole (cs : List Char) : Option (List Char × List Char) := do
  match ← someDigits cs with
  | ('0' :: _ :: _, _) => none
  | read => some read

def readPlaces : List Char → Option (Option (List Char) × List Char)
  | '.' :: rest => do
    let (places, rest) ← someDigits rest
    some (some places, rest)
  | cs => some (none, cs)

def readExponent : List Char → Option (Option (Bool × List Char) × List Char)
  | c :: rest =>
    if c = 'e' ∨ c = 'E' then do
      let (negative, rest) := Decimal.splitSign rest
      let (ds, rest) ← someDigits rest
      some (some (negative, ds), rest)
    else some (none, c :: rest)
  | [] => some (none, [])

def readLiteral (cs : List Char) : Option (Literal × List Char) := do
  let (negative, cs) := match cs with
    | '-' :: rest => (true, rest)
    | cs => (false, cs)
  let (whole, cs) ← readWhole cs
  let (places, cs) ← readPlaces cs
  let (exponent, cs) ← readExponent cs
  some (⟨negative, whole, places, exponent⟩, cs)

def wordLimit : Nat := 18446744073709551616

/-- Adds digits to a significand as long as it stays below `2 ^ 64`; the number of digits that did
not fit comes second. -/
def accumulate : List Char → Nat → Nat × Nat
  | [], n => (n, 0)
  | c :: rest, n =>
    let next := 10 * n + Digits.valueOf c
    if next < wordLimit then accumulate rest next else (n, rest.length + 1)

/-- A significand times a power of ten; nothing beyond the range. -/
def scaleByTen : Nat → Binary64 → Int → Option Binary64
  | 0, x, _ => some x
  | fuel + 1, x, e =>
    if e.natAbs ≤ 308 then do
      let power ← Binary64.ofNat (tenTo e.natAbs)
      if 0 ≤ e then x.times power else x.dividedBy power
    else if x.isZero then some x
    else if 0 ≤ e then none
    else do scaleByTen fuel (← x.dividedBy (← Binary64.ofNat (tenTo 308))) (e + 308)

namespace Literal

def isWhole (lit : Literal) : Bool := lit.places.isNone && lit.exponent.isNone

/-- The power of ten written after the digits. -/
def writtenExponent (lit : Literal) : Int :=
  match lit.exponent with
  | none => 0
  | some (negative, ds) => if negative then -(Digits.toNat ds : Int) else Digits.toNat ds

def toReal (lit : Literal) : Option Binary64 := do
  let (n, beyond) := accumulate lit.whole 0
  let places := lit.places.getD []
  let (n, dropped) := accumulate places n
  let e := (beyond : Int) - (places.length - dropped : Nat) + lit.writtenExponent
  let x ← scaleByTen 4 (← Binary64.ofNat n) e
  some (x.withSign lit.negative)

/-- Whole numbers of at most 64 bits are exact, except for a negative zero. -/
def toNumeral (lit : Literal) : Option Numeral :=
  let n := Digits.toNat lit.whole
  if lit.isWhole && !lit.negative && decide (n < wordLimit) then some (.integer n)
  else if lit.isWhole && lit.negative && decide (0 < n ∧ n ≤ wordLimit / 2) then
    some (.integer (-n))
  else lit.toReal.map .real

end Literal

/-- A value known to be at a level of nesting beyond the limit cannot be read. -/
def atDepth (depth : Nat) (value : Json) : Json := if maxDepth < depth then .unreadable else value

def objectOf (entries : List (Option String × Json)) : Json :=
  match entries.mapM fun (name, value) => name.map fun n => (n, value) with
  | some entries => .object entries
  | none => .unreadable

mutual

/-- A value after any blanks, inside so many arrays and objects. -/
def readValue : Nat → Nat → List Char → Option (Json × List Char)
  | 0, _, _ => none
  | fuel + 1, depth, cs =>
    match skipBlanks cs with
    | 'n' :: 'u' :: 'l' :: 'l' :: rest => some (.null, rest)
    | 't' :: 'r' :: 'u' :: 'e' :: rest => some (.bool true, rest)
    | 'f' :: 'a' :: 'l' :: 's' :: 'e' :: rest => some (.bool false, rest)
    | '"' :: rest => do
      let (s, rest) ← readText (rest.length + 1) rest [] true
      some ((s.map Json.text).getD .unreadable, rest)
    | '[' :: rest =>
      match skipBlanks rest with
      | ']' :: rest => some (atDepth (depth + 1) (.array []), rest)
      | rest => do
        let (items, rest) ← readItems fuel (depth + 1) rest
        some (atDepth (depth + 1) (.array items), rest)
    | '\x7b' :: rest =>
      match skipBlanks rest with
      | '\x7d' :: rest => some (atDepth (depth + 1) (.object []), rest)
      | rest => do
        let (entries, rest) ← readEntries fuel (depth + 1) rest
        some (atDepth (depth + 1) (objectOf entries), rest)
    | cs => do
      let (lit, rest) ← readLiteral cs
      some ((lit.toNumeral.map Json.number).getD .unreadable, rest)

/-- The items of an array up to its end, at least one. -/
def readItems : Nat → Nat → List Char → Option (List Json × List Char)
  | 0, _, _ => none
  | fuel + 1, depth, cs => do
    let (item, rest) ← readValue fuel depth cs
    match skipBlanks rest with
    | ']' :: rest => some ([item], rest)
    | ',' :: rest => do
      let (items, rest) ← readItems fuel depth rest
      some (item :: items, rest)
    | _ => none

/-- The entries of an object up to its end, at least one. -/
def readEntries : Nat → Nat → List Char → Option (List (Option String × Json) × List Char)
  | 0, _, _ => none
  | fuel + 1, depth, cs =>
    match skipBlanks cs with
    | '"' :: rest => do
      let (name, rest) ← readText (rest.length + 1) rest [] true
      match skipBlanks rest with
      | ':' :: rest => do
        let (value, rest) ← readValue fuel depth rest
        match skipBlanks rest with
        | '\x7d' :: rest => some ([(name, value)], rest)
        | ',' :: rest => do
          let (entries, rest) ← readEntries fuel depth rest
          some ((name, value) :: entries, rest)
        | _ => none
      | _ => none
    | _ => none

end

end Json.Reader

open Json.Reader

/-- The value written by a text, with nothing but blanks around it. Parts may be unreadable and
names repeated. -/
def Json.ofText? (s : String) : Option Json := do
  let cs := s.toList
  let (value, rest) ← readValue (2 * cs.length + 2) 0 cs
  if (skipBlanks rest).isEmpty then some value else none

/-- The same with all parts readable and the last entry of each name. -/
def Json.normalOfText? (s : String) : Option Json := (Json.ofText? s).bind Json.normal

end PropertyFinance
