import PropertyFinance.Text.Binary64

/-! JSON values. An object keeps its entries as they stand, repeated names included; `normal` gives
the value in which the last entry of a name counts and the names are in order. -/

namespace PropertyFinance
set_option autoImplicit false

/-- A whole number that fits in 64 bits, or any other number as a binary one. -/
inductive Numeral
  | integer (n : Int)
  | real (x : Binary64)
deriving DecidableEq

/-- `unreadable` is well-formed text without a value: a number out of range, a broken surrogate
pair, or nesting beyond the limit. -/
inductive Json
  | null
  | bool (b : Bool)
  | number (n : Numeral)
  | text (s : String)
  | array (items : List Json)
  | object (entries : List (String × Json))
  | unreadable

namespace Json

instance : Inhabited Json := ⟨null⟩

def nat (n : Nat) : Json := number (.integer n)

/-- Puts an entry in its place by name, in front of any larger one and instead of an equal one. -/
def insertEntry (name : String) (value : Json) : List (String × Json) → List (String × Json)
  | [] => [(name, value)]
  | (n, v) :: rest =>
    if name = n then (name, value) :: rest
    else if name < n then (name, value) :: (n, v) :: rest
    else (n, v) :: insertEntry name value rest

mutual

/-- Names in order, the last entry of each; nothing if a part is unreadable. -/
def normal : Json → Option Json
  | array items => do some (array (← normalItems items))
  | object entries => do some (object (← normalEntries entries []))
  | unreadable => none
  | null => some null
  | bool b => some (bool b)
  | number n => some (number n)
  | text s => some (text s)

def normalItems : List Json → Option (List Json)
  | [] => some []
  | item :: rest => do
    let item ← normal item
    some (item :: (← normalItems rest))

def normalEntries : List (String × Json) → List (String × Json) → Option (List (String × Json))
  | [], sorted => some sorted
  | (name, value) :: rest, sorted => do
    let value ← normal value
    normalEntries rest (insertEntry name value sorted)

end

mutual

/-- How many arrays and objects are nested. -/
def depth : Json → Nat
  | array items => depthOfItems items + 1
  | object entries => depthOfEntries entries + 1
  | _ => 0

def depthOfItems : List Json → Nat
  | [] => 0
  | item :: rest => max (depth item) (depthOfItems rest)

def depthOfEntries : List (String × Json) → Nat
  | [] => 0
  | (_, value) :: rest => max (depth value) (depthOfEntries rest)

end

/-- The value under a name, if this is an object with such an entry. -/
def get? (name : String) : Json → Option Json
  | object entries => entries.lookup name
  | _ => none

def isObject : Json → Bool
  | object _ => true
  | _ => false

def isArray : Json → Bool
  | array _ => true
  | _ => false

def isNull : Json → Bool
  | null => true
  | _ => false

end Json

end PropertyFinance
