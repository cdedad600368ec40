import PropertyFinance.Json.Value

/-! Reading records. A record is an object, of which unknown entries are passed over and known ones
may not be repeated, or an array of its fields in their order. -/

namespace PropertyFinance
set_option autoImplicit false

/-- The known fields that are present. -/
structure Fields where
  entries : List (String × Json)
  /-- Whether the record was given as an array. -/
  isPositional : Bool

namespace Fields

def hasRepeats : List (String × Json) → Bool
  | [] => false
  | (name, _) :: rest => rest.any (fun e => e.1 == name) || hasRepeats rest

def ofJson? (names : List String) : Json → Option Fields
  | .object entries =>
    let known := entries.filter fun e => names.contains e.1
    if hasRepeats known then none else some ⟨known, false⟩
  | .array items =>
    if names.length < items.length then none else some ⟨names.zip items, true⟩
  | _ => none

def get? (fields : Fields) (name : String) : Option Json := fields.entries.lookup name

/-- A field that has to be there. -/
def required {A : Type} (fields : Fields) (name : String) (read : Json → Option A) : Option A :=
  match fields.get? name with
  | some value => read value
  | none => none

/-- A field with a value of its own where it is missing. -/
def withDefault {A : Type} (fields : Fields) (name : String) (read : Json → Option A)
    (default : A) : Option A :=
  match fields.get? name with
  | some value => read value
  | none => some default

end Fields

namespace Json

/-- `null` for no value. -/
def readOptional {A : Type} (read : Json → Option A) : Json → Option (Option A)
  | null => some none
  | value => (read value).map some

def readList {A : Type} (read : Json → Option A) : Json → Option (List A)
  | array items => items.mapM read
  | _ => none

def readText : Json → Option String
  | text s => some s
  | _ => none

/-- A whole number below `2 ^ 32`. -/
def readCount : Json → Option UInt32
  | number (.integer n) =>
    if 0 ≤ n ∧ n < 4294967296 then some (UInt32.ofNat n.toNat) else none
  | _ => none

/-- One of some names, also given as an object with the name alone and no content. -/
def readName {A : Type} (choices : List (String × A)) : Json → Option A
  | text s => choices.lookup s
  | object [(s, null)] => choices.lookup s
  | _ => none

def ofOption {A : Type} (write : A → Json) : Option A → Json
  | none => null
  | some a => write a

/-- An entry that is left out where there is no value. -/
def optionalEntry {A : Type} (name : String) (write : A → Json) : Option A → List (String × Json)
  | none => []
  | some a => [(name, write a)]

def ofList {A : Type} (write : A → Json) (xs : List A) : Json := array (xs.map write)

/-- The name of a choice. -/
def nameOf {A : Type} [DecidableEq A] (choices : List (String × A)) (a : A) : String :=
  ((choices.find? fun c => decide (c.2 = a)).map Prod.fst).getD ""

end Json

/-- A plain `Option` field: absent or `null` for no value, but not left out of an array. -/
def Fields.optional {A : Type} (fields : Fields) (name : String) (read : Json → Option A) :
    Option (Option A) :=
  match fields.get? name with
  | some value => Json.readOptional read value
  | none => if fields.isPositional then none else some none

end PropertyFinance
