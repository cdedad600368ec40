import PropertyFinance.Yaml.Glyph

/-! Tags and the directives that give tags their handles. A tag is kept as the octets of its name, a
character each. -/

namespace PropertyFinance.Yaml
set_option autoImplicit false

/-- A tag as written: the name of a handle, empty for none, and what follows it. -/
structure TagName where
  handle : List Char
  suffix : List Char
deriving DecidableEq

inductive Directive
  | version (major minor : Nat)
  /-- What a handle stands for. -/
  | expansion (handle name : List Char)

/-- Characters of tags; those of collections only between angle brackets and in directives. -/
def isTagChar (verbatim : Bool) (c : Char) : Bool :=
  isNameChar c || ";/?:@&=+$.!~*'()".toList.contains c
    || (verbatim && (c == ',' || c == '[' || c == ']'))

/-- How many octets of a character follow this one, where so many were to follow. -/
def octetsAfter : Nat → Nat → Option Nat
  | 0, octet =>
    if octet < 0x80 then some 0
    else if 0xC0 ≤ octet ∧ octet < 0xE0 then some 1
    else if 0xE0 ≤ octet ∧ octet < 0xF0 then some 2
    else if 0xF0 ≤ octet ∧ octet < 0xF8 then some 3
    else none
  | count + 1, octet => if 0x80 ≤ octet ∧ octet < 0xC0 then some count else none

/-- The longest row of characters of a tag. An octet may be written as a percent sign and two
hexadecimal digits; those of one character stand together. -/
def readTagChars (verbatim : Bool) : List Glyph → Nat → List Char → Option (List Char × List Glyph)
  | [], awaited, done => if awaited = 0 then some (done.reverse, []) else none
  | g :: h :: i :: rest, awaited, done =>
    if g.char = '%' then do
      let octet := 16 * (← Json.Reader.hexDigit? h.char) + (← Json.Reader.hexDigit? i.char)
      readTagChars verbatim rest (← octetsAfter awaited octet) (Char.ofNat octet :: done)
    else if awaited ≠ 0 then none
    else if isTagChar verbatim g.char then
      readTagChars verbatim (h :: i :: rest) 0 (g.char :: done)
    else some (done.reverse, g :: h :: i :: rest)
  | g :: rest, awaited, done =>
    if awaited ≠ 0 ∨ g.char = '%' then none
    else if isTagChar verbatim g.char then readTagChars verbatim rest 0 (g.char :: done)
    else some (done.reverse, g :: rest)

/-- At least one character of a tag. -/
def someTagChars (verbatim : Bool) (gs : List Glyph) : Option (List Char × List Glyph) := do
  match ← readTagChars verbatim gs 0 [] with
  | ([], _) => none
  | read => some read

/-- A tag between angle brackets, after the opening one. -/
def readVerbatimTag (gs : List Glyph) : Option (TagName × List Glyph) := do
  match ← someTagChars true gs with
  | (suffix, g :: rest) => if g.char = '>' then some (⟨[], suffix⟩, rest) else none
  | (_, []) => none

/-- A tag after its exclamation mark: with a second one the part up to it is a handle. The lone mark
is a tag without a handle. -/
def readShortTag (gs : List Glyph) : Option (TagName × List Glyph) := do
  let (name, after) := readName gs
  if nextIs '!' after then
    let (suffix, rest) ← someTagChars false (after.drop 1)
    some (⟨'!' :: name ++ ['!'], suffix⟩, rest)
  else
    let (more, rest) ← readTagChars false after 0 []
    let suffix := name ++ more
    some (if suffix.isEmpty then ⟨[], ['!']⟩ else ⟨['!'], suffix⟩, rest)

/-- A tag after its exclamation mark, up to a blank or, inside brackets, a comma. -/
def readTag (inFlow : Bool) (gs : List Glyph) : Option (TagName × List Glyph) := do
  let (tag, rest) ← if nextIs '<' gs then readVerbatimTag (gs.drop 1) else readShortTag gs
  if endsWord rest || (inFlow && nextIs ',' rest) then some (tag, rest) else none

/-- The name of an anchor, after its mark. -/
def readAnchor (gs : List Glyph) : Option (List Char × List Glyph) :=
  let (name, rest) := readName gs
  let ends := endsWord rest || rest.head?.any fun g => "?:,]\x7d%@\x60".toList.contains g.char
  if name.isEmpty || !ends then none else some (name, rest)

/-- A number of at most nine digits. -/
def readVersionPart (gs : List Glyph) : Option (Nat × List Glyph) :=
  let digits := gs.takeWhile (·.char.isDigit)
  if digits.isEmpty || 9 < digits.length then none
  else some (Digits.toNat (charsOf digits), gs.dropWhile (·.char.isDigit))

def readVersion (gs : List Glyph) : Option (Directive × List Glyph) := do
  let (major, gs) ← readVersionPart gs
  if nextIs '.' gs then
    let (minor, gs) ← readVersionPart (gs.drop 1)
    some (.version major minor, gs)
  else none

/-- A handle between exclamation marks, or a lone mark, and what it stands for. -/
def readExpansion (gs : List Glyph) : Option (Directive × List Glyph) := do
  if !nextIs '!' gs then none
  else
    let (name, gs) := readName (gs.drop 1)
    let isClosed := nextIs '!' gs
    if !isClosed && !name.isEmpty then none
    else
      let gs := if isClosed then gs.drop 1 else gs
      if !gs.head?.any (isBlank ·.char) then none
      else
        let (expansion, gs) ← someTagChars true (gs.dropWhile (isBlank ·.char))
        let handle := '!' :: name ++ (if isClosed then ['!'] else [])
        if endsWord gs then some (.expansion handle expansion, gs) else none

/-- A directive after its percent sign, and what follows its line. -/
def readDirective (gs : List Glyph) : Option (Directive × List Glyph) := do
  let (name, rest) := readName gs
  let value := rest.dropWhile (isBlank ·.char)
  if !endsWord rest then none
  else
    let (directive, rest) ←
      if name = "YAML".toList then readVersion value
      else if name = "TAG".toList then readExpansion value
      else none
    some (directive, ← endLine? rest)

end PropertyFinance.Yaml
