import PropertyFinance.Json.Reader

/-! The characters of a YAML text with their places. All line ends but the two separators of Unicode
become the same character, so that the readers meet three line ends in all. -/

namespace PropertyFinance.Yaml
set_option autoImplicit false

/-- Characters that a text may hold: no control characters but tabs and line ends. -/
def isPermitted (c : Char) : Bool :=
  let n := c.toNat
  n == 0x09 || n == 0x0A || n == 0x0D || (0x20 ≤ n && n ≤ 0x7E) || n == 0x85
    || (0xA0 ≤ n && n ≤ 0xFFFD) || 0x10000 ≤ n

/-- A character and where it stands: how many characters and lines are before it in the text, and
how many characters in its line. -/
structure Glyph where
  char : Char
  index : Nat
  line : Nat
  column : Nat

def isBreak (c : Char) : Bool := c == '\n' || c == '\u2028' || c == '\u2029'
def isBlank (c : Char) : Bool := c == ' ' || c == '\t'
def isGap (c : Char) : Bool := isBlank c || isBreak c

/-- The character that a line end becomes, and none for other characters. -/
def lineEnd? (c : Char) : Option Char :=
  if c = '\r' ∨ c = '\u0085' then some '\n' else if isBreak c then some c else none

/-- The characters of a text from a place on. A return with a line feed is one line end. -/
def locate : List Char → Nat → Nat → Nat → List Glyph
  | [], _, _, _ => []
  | '\r' :: '\n' :: rest, index, line, column =>
    ⟨'\n', index, line, column⟩ :: locate rest (index + 2) (line + 1) 0
  | c :: rest, index, line, column =>
    match lineEnd? c with
    | some e => ⟨e, index, line, column⟩ :: locate rest (index + 1) (line + 1) 0
    | none => ⟨c, index, line, column⟩ :: locate rest (index + 1) line (column + 1)

def glyphs? (cs : List Char) : Option (List Glyph) :=
  if cs.all isPermitted then some (locate cs 0 0 0) else none

def charsOf (gs : List Glyph) : List Char := gs.map Glyph.char

def nextIs (c : Char) (gs : List Glyph) : Bool := gs.head?.any (·.char == c)

/-- Whether no word goes on here: at a blank, a line end or the end of the text. -/
def endsWord (gs : List Glyph) : Bool := gs.head?.all (isGap ·.char)

/-- Three times the same character at the start of a line, alone or before a blank. -/
def isMark (c : Char) : List Glyph → Bool
  | g :: h :: i :: rest =>
    g.column == 0 && g.char == c && h.char == c && i.char == c && endsWord rest
  | _ => false

/-- A mark between documents. -/
def isDocumentMark (gs : List Glyph) : Bool := isMark '-' gs || isMark '.' gs

/-- What follows the line, which may hold nothing more but blanks and a comment. -/
def endLine? (gs : List Glyph) : Option (List Glyph) :=
  let gs := gs.dropWhile (isBlank ·.char)
  let gs := if nextIs '#' gs then gs.dropWhile (!isBreak ·.char) else gs
  match gs with
  | [] => some []
  | g :: rest => if isBreak g.char then some rest else none

/-- Characters of names: letters and digits of ASCII, the dash and the underscore. -/
def isNameChar (c : Char) : Bool := c.isAlphanum || c == '-' || c == '_'

def readName (gs : List Glyph) : List Char × List Glyph :=
  (charsOf (gs.takeWhile (isNameChar ·.char)), gs.dropWhile (isNameChar ·.char))

def isFlowMark (c : Char) : Bool :=
  c == ',' || c == '[' || c == ']' || c == '\x7b' || c == '\x7d'

/-- What line ends between words become: a single one a space, of several all but the first stay.
A separator of Unicode in front is kept. -/
def foldBreaks : List Char → List Char
  | ['\n'] => [' ']
  | '\n' :: more => more
  | breaks => breaks

/-- A text with the blanks and line ends before its next word, all in reverse. Blanks beside a line
end are dropped. -/
def joinGap (gap done : List Char) : List Char :=
  if gap.any isBreak then (foldBreaks (gap.reverse.filter isBreak)).reverse ++ done
  else gap ++ done

end PropertyFinance.Yaml
