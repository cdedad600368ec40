import PropertyFinance.Yaml.Block
import PropertyFinance.Yaml.Plain
import PropertyFinance.Yaml.Quoted
import PropertyFinance.Yaml.Token

/-! How the tokens follow from the layout of a text: from columns, lines and brackets. Whether a
scalar or a collection in brackets is the key of an entry shows only at the colon behind it, so its
place is kept in mind, and the tokens of a key are put there later on. -/

namespace PropertyFinance.Yaml
set_option autoImplicit false

/-- Passes over blanks, line ends and comments. Whether a key may begin at the next token comes
first: outside of brackets it may on a new line. Where one may begin, tabs are not passed over. -/
def skipToToken (inFlow : Bool) : (inComment keyAllowed : Bool) → List Glyph → Bool × List Glyph
  | _, keyAllowed, [] => (keyAllowed, [])
  | inComment, keyAllowed, g :: rest =>
    if isBreak g.char then skipToToken inFlow false (keyAllowed || !inFlow) rest
    else if inComment || g.char == '#' then skipToToken inFlow true keyAllowed rest
    else if g.char = ' ' ∨ (g.char = '\t' ∧ (inFlow || !keyAllowed))
        ∨ (g.char = '\uFEFF' ∧ g.column = 0) then
      skipToToken inFlow false keyAllowed rest
    else (keyAllowed, g :: rest)

/-- A place where a key may have begun. -/
structure KeySlot where
  place : Glyph
  tokensBefore : Nat
  /-- Whether nothing but a key can stand there. -/
  isRequired : Bool

/-- A key and its colon stand in one line, at most 1024 characters apart. -/
def KeySlot.isStale (slot : KeySlot) (g : Glyph) : Bool :=
  slot.place.line < g.line || slot.place.index + 1024 < g.index

/-- The tokens read so far and what decides about the next ones. -/
structure Layout where
  /-- Newest first. -/
  tokens : List Token
  /-- The columns of the indented collections that are open, innermost first. -/
  columns : List Nat
  slot : Option KeySlot
  /-- The slots outside of the brackets that are open, innermost first. -/
  outerSlots : List (Option KeySlot)
  keyAllowed : Bool
  /-- The names of nodes with their numbers. -/
  names : List (List Char × Nat)

namespace Layout

def start : Layout := ⟨[], [], none, [], true, []⟩

def inFlow (t : Layout) : Bool := !t.outerSlots.isEmpty

def emit (t : Layout) (token : Token) : Layout := { t with tokens := token :: t.tokens }

def allowKey (t : Layout) (allowed : Bool) : Layout := { t with keyAllowed := allowed }

/-- Puts a token behind the first `count` ones. -/
def insertAfter (t : Layout) (count : Nat) (token : Token) : Layout :=
  let later := t.tokens.length - count
  { t with tokens := t.tokens.take later ++ token :: t.tokens.drop later }

/-- Gives up the slot, which may not be a required one. -/
def dropSlot (t : Layout) : Option Layout :=
  if t.slot.any (·.isRequired) then none else some { t with slot := none }

/-- Notes that a key may begin here. -/
def saveSlot (t : Layout) (g : Glyph) : Option Layout :=
  if t.keyAllowed then do
    let t ← t.dropSlot
    let isRequired := !t.inFlow && t.columns.head? == some g.column
    some { t with slot := some ⟨g, t.tokens.length, isRequired⟩ }
  else some t

/-- A slot as seen from a later place. -/
def expireSlot (g : Glyph) (slot : Option KeySlot) : Option (Option KeySlot) :=
  match slot with
  | none => some none
  | some s => if !s.isStale g then some (some s) else if s.isRequired then none else some none

def expire (t : Layout) (g : Glyph) : Option Layout := do
  some { t with slot := ← expireSlot g t.slot, outerSlots := ← t.outerSlots.mapM (expireSlot g) }

/-- Ends the indented collections that satisfy a test on their columns, from the innermost on. -/
def closeBlocks (t : Layout) (ends : Nat → Bool) : Layout :=
  if t.inFlow then t
  else
    let closed := t.columns.takeWhile ends
    { t with
      tokens := closed.map (fun _ => Token.blockEnd) ++ t.tokens
      columns := t.columns.drop closed.length }

/-- Begins an indented collection behind the first `count` tokens unless one is open there. -/
def openBlock (t : Layout) (column count : Nat) (token : Token) : Layout :=
  if t.inFlow || !t.columns.head?.all (· < column) then t
  else { t.insertAfter count token with columns := column :: t.columns }

/-- A token at which no collection by indentation stays open. -/
def mark (t : Layout) (token : Token) : Option Layout := do
  some (((← (t.closeBlocks fun _ => true).dropSlot).allowKey false).emit token)

def openBracket (t : Layout) (g : Glyph) (token : Token) : Option Layout := do
  let t ← t.saveSlot g
  some ({ t with
    slot := none
    outerSlots := t.slot :: t.outerSlots
    keyAllowed := true }.emit token)

def closeBracket (t : Layout) (token : Token) : Option Layout := do
  let t ← t.dropSlot
  some ({ t with
    slot := t.outerSlots.head?.join
    outerSlots := t.outerSlots.drop 1
    keyAllowed := false }.emit token)

def comma (t : Layout) : Option Layout := do
  some (((← t.dropSlot).allowKey true).emit .comma)

/-- A dash or a question mark, which outside of brackets may begin a collection. -/
def entry (t : Layout) (g : Glyph) (start token : Token) (allowsKey : Bool) : Option Layout := do
  if !t.inFlow && !t.keyAllowed then none
  else
    let t ← (t.openBlock g.column t.tokens.length start).dropSlot
    some ((t.allowKey allowsKey).emit token)

def dash (t : Layout) (g : Glyph) : Option Layout := t.entry g .listStart .dash true

def key (t : Layout) (g : Glyph) : Option Layout := t.entry g .mapStart .key (!t.inFlow)

/-- A colon: what began at the slot was a key. Without a slot the key is empty or was marked. -/
def value (t : Layout) (g : Glyph) : Option Layout :=
  match t.slot with
  | some slot =>
    let t := t.insertAfter slot.tokensBefore .key
    let t := t.openBlock slot.place.column slot.tokensBefore .mapStart
    some ({ t with slot := none, keyAllowed := false }.emit .value)
  | none =>
    if t.inFlow then some ((t.allowKey false).emit .value)
    else if !t.keyAllowed then none
    else some (((t.openBlock g.column t.tokens.length .mapStart).allowKey true).emit .value)

/-- A token with which a key may begin, and behind which none can. -/
def word (t : Layout) (g : Glyph) (token : Token) : Option Layout := do
  some (((← t.saveSlot g).allowKey false).emit token)

/-- A name's number is how many names there were when the name was last given. -/
def nameNode (t : Layout) (g : Glyph) (name : List Char) : Option Layout := do
  let number := t.names.length
  let t ← t.word g (.anchor number)
  some { t with names := (name, number) :: t.names.filter (·.1 != name) }

def refer (t : Layout) (g : Glyph) (name : List Char) : Option Layout := do
  t.word g (.reference (← t.names.lookup name))

/-- The column in which the lines of a scalar begin at least. -/
def least (t : Layout) : Nat := (t.columns.head?.map (· + 1)).getD 0

/-- A scalar over several lines, behind which a key may begin again. -/
def block (t : Layout) (literal : Bool) (rest : List Glyph) : Option (Layout × List Glyph) := do
  let (cs, rest) ← readBlock literal t.columns.head? rest
  some (((← t.dropSlot).allowKey true).emit (.scalar false (String.ofList cs)), rest)

def plain (t : Layout) (g : Glyph) (rest : List Glyph) : Option (Layout × List Glyph) := do
  let (cs, endedLine, rest) ← readPlain t.inFlow t.least (g :: rest) [] []
  let t ← t.word g (.scalar true (String.ofList cs))
  some (t.allowKey endedLine, rest)

/-- Reads one token that begins with a character. -/
def next (t : Layout) (g : Glyph) (rest : List Glyph) : Option (Layout × List Glyph) := do
  let gs := g :: rest
  if g.column = 0 ∧ g.char = '%' then
    let (directive, rest) ← readDirective rest
    some (← t.mark (.directive directive), rest)
  else if isMark '-' gs then some (← t.mark .documentStart, rest.drop 2)
  else if isMark '.' gs then some (← t.mark .documentEnd, rest.drop 2)
  else if g.char = '[' then some (← t.openBracket g .openList, rest)
  else if g.char = '\x7b' then some (← t.openBracket g .openMap, rest)
  else if g.char = ']' then some (← t.closeBracket .closeList, rest)
  else if g.char = '\x7d' then some (← t.closeBracket .closeMap, rest)
  else if g.char = ',' then some (← t.comma, rest)
  else if g.char = '-' ∧ endsWord rest then some (← t.dash g, rest)
  else if g.char = '?' ∧ (t.inFlow || endsWord rest) then some (← t.key g, rest)
  else if g.char = ':' ∧ (t.inFlow || endsWord rest) then some (← t.value g, rest)
  else if g.char = '*' then
    let (name, rest) ← readAnchor rest
    some (← t.refer g name, rest)
  else if g.char = '&' then
    let (name, rest) ← readAnchor rest
    some (← t.nameNode g name, rest)
  else if g.char = '!' then
    let (name, rest) ← readTag t.inFlow rest
    some (← t.word g (.tag name), rest)
  else if g.char = '|' ∧ !t.inFlow then t.block true rest
  else if g.char = '>' ∧ !t.inFlow then t.block false rest
  else if g.char = '\'' then
    let (cs, rest) ← readSingle rest [] []
    some (← t.word g (.scalar false (String.ofList cs)), rest)
  else if g.char = '"' then
    let (cs, rest) ← readDouble rest .word [] []
    some (← t.word g (.scalar false (String.ofList cs)), rest)
  else if beginsPlain t.inFlow gs then t.plain g rest
  else none

/-- Reads token after token, at most so many. -/
def run : Nat → Layout → List Glyph → Option (List Token)
  | 0, _, _ => none
  | fuel + 1, t, gs => do
    match skipToToken t.inFlow false t.keyAllowed gs with
    | (_, []) =>
      let t ← (t.closeBlocks fun _ => true).dropSlot
      some t.tokens.reverse
    | (keyAllowed, g :: rest) =>
      let t ← { t with keyAllowed := keyAllowed }.expire g
      let (t, rest) ← (t.closeBlocks (g.column < ·)).next g rest
      run fuel t rest

end Layout

/-- The tokens of a text; each takes at least one character. -/
def Token.ofChars? (cs : List Char) : Option (List Token) := do
  Layout.run (cs.length + 1) .start (← glyphs? cs)

end PropertyFinance.Yaml
