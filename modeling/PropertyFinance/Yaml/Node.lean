import PropertyFinance.Yaml.Token

/-! The document of a YAML text as a tree, read from its tokens. -/

namespace PropertyFinance.Yaml
set_option autoImplicit false

/-- What may stand in front of a node: a number to refer to it by, and a tag in full. -/
structure Properties where
  anchor : Option Nat
  tag : Option (List Char)
deriving DecidableEq

inductive Node
  | scalar (properties : Properties) (isPlain : Bool) (text : String)
  | list (properties : Properties) (items : List Node)
  | map (properties : Properties) (entries : List (Node × Node))
  | reference (number : Nat)

namespace Node

instance : Inhabited Node := ⟨reference 0⟩

/-- What stands where nothing is written. -/
def empty : Node := scalar ⟨none, none⟩ true ""

/-- The name for which a handle stands, and the name behind it. -/
def expandTag (handles : List (List Char × List Char)) (tag : TagName) : Option (List Char) :=
  if tag.handle.isEmpty then some tag.suffix
  else (handles.lookup tag.handle).map (· ++ tag.suffix)

/-- An anchor and a tag, in either order, at most one of each. -/
def readProperties (handles : List (List Char × List Char)) :
    List Token → Option (Properties × List Token)
  | .anchor number :: .tag name :: rest => do
    some (⟨some number, some (← expandTag handles name)⟩, rest)
  | .tag name :: .anchor number :: rest => do
    some (⟨some number, some (← expandTag handles name)⟩, rest)
  | .anchor number :: rest => some (⟨some number, none⟩, rest)
  | .tag name :: rest => do some (⟨none, some (← expandTag handles name)⟩, rest)
  | rest => some (⟨none, none⟩, rest)

/-- A scalar with the lone mark as its tag is one without a tag. -/
def ofScalar (properties : Properties) (isPlain : Bool) (text : String) : Node :=
  let tag := if properties.tag = some ['!'] then none else properties.tag
  scalar { properties with tag := tag } isPlain text

/-- Whether a dash is followed by nothing of its own. -/
def endsItem : List Token → Bool
  | .dash :: _ | .blockEnd :: _ => true
  | _ => false

/-- Whether a key or a colon is followed by nothing of its own. -/
def endsField : List Token → Bool
  | .key :: _ | .value :: _ | .blockEnd :: _ => true
  | _ => false

/-- Whether a part of an entry inside brackets ends, the bracket being a square one or not. -/
def endsFlowField (inList : Bool) : List Token → Bool
  | .comma :: _ => true
  | .closeList :: _ => inList
  | .closeMap :: _ => !inList
  | _ => false

def isValue : List Token → Bool
  | .value :: _ => true
  | _ => false

/-- What follows the comma between two entries; in front of the first entry there is none. -/
def afterComma (first : Bool) : List Token → Option (List Token)
  | .comma :: rest => if first then some (.comma :: rest) else some rest
  | tokens => if first then some tokens else none

mutual

/-- A node. Collections by indentation may be barred; dashes may be those of a list in the column
of its key. -/
def read (handles : List (List Char × List Char)) :
    Nat → (inBlock besideKey : Bool) → List Token → Option (Node × List Token)
  | 0, _, _, _ => none
  | _, _, _, .reference number :: rest => some (reference number, rest)
  | fuel + 1, inBlock, besideKey, tokens => do
    let (properties, tokens) ← readProperties handles tokens
    match tokens with
    | .scalar isPlain text :: rest => some (ofScalar properties isPlain text, rest)
    | .openList :: rest =>
      let (items, rest) ← readFlowItems handles fuel true rest
      some (list properties items, rest)
    | .openMap :: rest =>
      let (entries, rest) ← readFlowEntries handles fuel true rest
      some (map properties entries, rest)
    | tokens =>
      match inBlock, besideKey, tokens with
      | true, _, .listStart :: rest =>
        let (items, rest) ← readItems handles fuel rest
        some (list properties items, rest)
      | true, _, .mapStart :: rest =>
        let (entries, rest) ← readEntries handles fuel rest
        some (map properties entries, rest)
      | _, true, .dash :: rest =>
        let (items, rest) ← readItemsBesideKey handles fuel (.dash :: rest)
        some (list properties items, rest)
      | _, _, tokens =>
        if properties = ⟨none, none⟩ then none else some (scalar properties true "", tokens)

/-- The items of a list with a column of its own. -/
def readItems (handles : List (List Char × List Char)) :
    Nat → List Token → Option (List Node × List Token)
  | 0, _ => none
  | fuel + 1, .dash :: rest => do
    let (item, rest) ←
      if endsItem rest then some (empty, rest) else read handles fuel true false rest
    let (items, rest) ← readItems handles fuel rest
    some (item :: items, rest)
  | _, .blockEnd :: rest => some ([], rest)
  | _, _ => none

/-- The items of a list in the column of its key. -/
def readItemsBesideKey (handles : List (List Char × List Char)) :
    Nat → List Token → Option (List Node × List Token)
  | 0, _ => none
  | fuel + 1, .dash :: rest => do
    let (item, rest) ←
      if endsItem rest || endsField rest then some (empty, rest)
      else read handles fuel true false rest
    let (items, rest) ← readItemsBesideKey handles fuel rest
    some (item :: items, rest)
  | _, tokens => some ([], tokens)

/-- The entries of a mapping with a column of its own. -/
def readEntries (handles : List (List Char × List Char)) :
    Nat → List Token → Option (List (Node × Node) × List Token)
  | 0, _ => none
  | fuel + 1, .key :: rest => do
    let (name, rest) ← readField handles fuel rest
    let (value, rest) ← match rest with
      | .value :: rest => readField handles fuel rest
      | rest => some (empty, rest)
    let (entries, rest) ← readEntries handles fuel rest
    some ((name, value) :: entries, rest)
  | _, .blockEnd :: rest => some ([], rest)
  | _, _ => none

/-- A key or a value of such a mapping. -/
def readField (handles : List (List Char × List Char)) :
    Nat → List Token → Option (Node × List Token)
  | 0, _ => none
  | fuel + 1, tokens =>
    if endsField tokens then some (empty, tokens) else read handles fuel true true tokens

/-- The items of a list in brackets. An entry with a colon is a mapping of its own. -/
def readFlowItems (handles : List (List Char × List Char)) :
    Nat → (first : Bool) → List Token → Option (List Node × List Token)
  | 0, _, _ => none
  | _, _, .closeList :: rest => some ([], rest)
  | fuel + 1, first, tokens => do
    match ← afterComma first tokens with
    | .closeList :: rest => some ([], rest)
    | .key :: rest =>
      let (name, rest) ←
        if isValue rest || endsFlowField true rest then some (empty, rest.drop 1)
        else read handles fuel false false rest
      let (value, rest) ← readFlowValue handles fuel true rest
      let (items, rest) ← readFlowItems handles fuel false rest
      some (map ⟨none, none⟩ [(name, value)] :: items, rest)
    | tokens =>
      let (item, rest) ← read handles fuel false false tokens
      let (items, rest) ← readFlowItems handles fuel false rest
      some (item :: items, rest)

/-- The entries of a mapping in brackets. -/
def readFlowEntries (handles : List (List Char × List Char)) :
    Nat → (first : Bool) → List Token → Option (List (Node × Node) × List Token)
  | 0, _, _ => none
  | _, _, .closeMap :: rest => some ([], rest)
  | fuel + 1, first, tokens => do
    match ← afterComma first tokens with
    | .closeMap :: rest => some ([], rest)
    | .key :: rest =>
      let (name, rest) ←
        if isValue rest || endsFlowField false rest then some (empty, rest)
        else read handles fuel false false rest
      let (value, rest) ← readFlowValue handles fuel false rest
      let (entries, rest) ← readFlowEntries handles fuel false rest
      some ((name, value) :: entries, rest)
    | tokens =>
      let (name, rest) ← read handles fuel false false tokens
      let (entries, rest) ← readFlowEntries handles fuel false rest
      some ((name, empty) :: entries, rest)

/-- The value of an entry in brackets, empty without a colon. -/
def readFlowValue (handles : List (List Char × List Char)) :
    Nat → (inList : Bool) → List Token → Option (Node × List Token)
  | 0, _, _ => none
  | fuel + 1, inList, .value :: rest =>
    if endsFlowField inList rest then some (empty, rest) else read handles fuel false false rest
  | _, _, rest => some (empty, rest)

end

/-- The handles that a document knows of itself. -/
def standardHandles : List (List Char × List Char) :=
  [("!".toList, "!".toList), ("!!".toList, "tag:yaml.org,2002:".toList)]

/-- The directives in front of a document: at most one version, which has to be 1.1 or 1.2, and one
expansion of each handle. -/
def readDirectives : List Token → (versioned : Bool) → List (List Char × List Char) →
    Option (List (List Char × List Char) × List Token)
  | .directive (.version major minor) :: rest, versioned, handles =>
    if versioned || major != 1 || (minor != 1 && minor != 2) then none
    else readDirectives rest true handles
  | .directive (.expansion handle name) :: rest, versioned, handles =>
    if (handles.lookup handle).isSome then none
    else readDirectives rest versioned ((handle, name) :: handles)
  | rest, _, handles => some (handles ++ standardHandles, rest)

/-- Whether a document may begin with a mark only. -/
def beginsMarked : List Token → Bool
  | .directive _ :: _ | .documentStart :: _ => true
  | _ => false

/-- Whether a marked document is empty. -/
def endsDocument : List Token → Bool
  | [] | .directive _ :: _ | .documentStart :: _ | .documentEnd :: _ => true
  | _ => false

/-- A document and what follows it. -/
def readDocument (fuel : Nat) (tokens : List Token) : Option (Node × List Token) :=
  if beginsMarked tokens then do
    match ← readDirectives tokens false [] with
    | (handles, .documentStart :: rest) =>
      if endsDocument rest then some (empty, rest) else read handles fuel true false rest
    | _ => none
  else read standardHandles fuel true false tokens

def isDocumentEnd : Token → Bool
  | .documentEnd => true
  | _ => false

/-- The only document; an empty text has none. -/
def ofTokens? : List Token → Option (Option Node)
  | [] => some none
  | tokens => do
    let (node, rest) ← readDocument (4 * tokens.length + 4) tokens
    if (rest.dropWhile isDocumentEnd).isEmpty then some (some node) else none

end Node

end PropertyFinance.Yaml
