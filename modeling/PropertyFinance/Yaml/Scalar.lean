import PropertyFinance.Json.Reader

/-! What a YAML scalar stands for. A plain one is nothing, a truth value, a number or, failing
these, a text; a tag can ask for one of them, and other scalars are texts. -/

namespace PropertyFinance.Yaml
set_option autoImplicit false

def nullWords : List String := ["", "~", "null", "Null", "NULL"]
def trueWords : List String := ["true", "True", "TRUE"]
def falseWords : List String := ["false", "False", "FALSE"]

/-- Words for numbers that have no finite value. -/
def endlessWords : List String :=
  [".inf", ".Inf", ".INF", "+.inf", "+.Inf", "+.INF", "-.inf", "-.Inf", "-.INF", ".nan", ".NaN",
    ".NAN"]

def digitIn (base : Nat) (c : Char) : Option Nat := do
  let d ← Json.Reader.hexDigit? c
  if d < base then some d else none

/-- A number written with at least one digit of a base and nothing else. -/
def natIn (base : Nat) (cs : List Char) : Option Nat :=
  if cs.isEmpty then none
  else (cs.mapM (digitIn base)).map fun ds => ds.foldl (fun n d => base * n + d) 0

/-- The digits after a mark for the base 16, 8 or 2. -/
def markedNat : List Char → Option Nat
  | '0' :: 'x' :: rest => natIn 16 rest
  | '0' :: 'o' :: rest => natIn 8 rest
  | '0' :: 'b' :: rest => natIn 2 rest
  | _ => none

/-- Digits after a needless zero make a text. -/
def isPadded : List Char → Bool
  | '0' :: c :: rest => (c :: rest).all Char.isDigit
  | _ => false

def magnitude (cs : List Char) : Option Nat :=
  (markedNat cs).or (if isPadded cs then none else natIn 10 cs)

/-- A whole number with its sign. -/
def wholeNumber : List Char → Option Int
  | '-' :: rest => (magnitude rest).map fun n => -(n : Int)
  | '+' :: rest => (magnitude rest).map fun n => (n : Int)
  | cs => (magnitude cs).map fun n => (n : Int)

/-- The bounds of numbers of 128 bits; a larger one is read as a binary number. -/
def isHuge (n : Int) : Bool := n < -(twoTo 127) || twoTo 128 ≤ n

def isWord (n : Int) : Bool := -(twoTo 63) ≤ n && n < twoTo 64

/-- Digits with at most one point, at least one digit, and perhaps an exponent. -/
def realParts (cs : List Char) : Option (List Char × List Char × Int) := do
  let (whole, rest) := Json.Reader.digits cs
  let (places, rest) := match rest with
    | '.' :: rest => Json.Reader.digits rest
    | rest => ([], rest)
  if whole.isEmpty && places.isEmpty then none
  else match ← Json.Reader.readExponent rest with
    | (none, []) => some (whole, places, 0)
    | (some (negative, ds), []) =>
      some (whole, places, if negative then -(Digits.toNat ds : Int) else Digits.toNat ds)
    | _ => none

/-- The nearest binary number. An exponent far out of range is cut, which changes nothing. -/
def nearestReal (whole places : List Char) (exponent : Int) : Option Binary64 :=
  let m := Digits.toNat (whole ++ places)
  let e := exponent - places.length
  let reach : Int := 400 + (whole ++ places).length
  let e := max (-reach) (min reach e)
  Binary64.ofRatio (m * tenTo e.toNat) (tenTo (-e).toNat)

def realNumber (cs : List Char) : Option Binary64 := do
  let (negative, rest) := Decimal.splitSign cs
  let (whole, places, exponent) ← realParts rest
  let x ← nearestReal whole places exponent
  some (x.withSign negative)

/-- A plain scalar without a reading as a whole number. -/
def resolveOther (s : String) (cs : List Char) : Json :=
  if endlessWords.contains s then .null
  else if isPadded (Decimal.splitSign cs).2 then .text s
  else match realNumber cs with
    | some x => .number (.real x)
    | none => .text s

/-- The value of a plain scalar. Whole numbers between 64 and 128 bits are unreadable. -/
def resolve (s : String) : Json :=
  let cs := s.toList
  if nullWords.contains s then .null
  else if trueWords.contains s then .bool true
  else if falseWords.contains s then .bool false
  else match wholeNumber cs with
    | some n =>
      if isWord n then .number (.integer n)
      else if isHuge n then resolveOther s cs
      else .unreadable
    | none => resolveOther s cs

/-- Whether a tag is private to its document: an exclamation mark and the octets of a text. -/
def isLocalTag : List Char → Bool
  | '!' :: octets => (String.fromUTF8? ⟨(octets.map (·.toNat.toUInt8)).toArray⟩).isSome
  | _ => false

/-- The value of a scalar that its tag asks for. Tags of no scalar type make a text. -/
def readTagged (tag : List Char) (isPlain : Bool) (text : String) : Option Json :=
  if isLocalTag tag then none
  else if tag = "tag:yaml.org,2002:bool".toList then
    if trueWords.contains text then some (.bool true)
    else if falseWords.contains text then some (.bool false)
    else none
  else if tag = "tag:yaml.org,2002:int".toList then do
    let n ← wholeNumber text.toList
    if isWord n then some (.number (.integer n)) else none
  else if tag = "tag:yaml.org,2002:float".toList then
    if endlessWords.contains text then some .null
    else (realNumber text.toList).map fun x => .number (.real x)
  else if tag = "tag:yaml.org,2002:null".toList then
    if nullWords.contains text && !text.isEmpty then some .null else none
  else if tag.head? = some '!' ∧ isPlain then some (resolve text)
  else some (.text text)

def readScalar (tag : Option (List Char)) (isPlain : Bool) (text : String) : Option Json :=
  match tag with
  | some tag => readTagged tag isPlain text
  | none => some (if isPlain then resolve text else .text text)

end PropertyFinance.Yaml
