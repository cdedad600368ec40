import PropertyFinance.Yaml.Glyph

/-! Scalars written as indented lines behind a bar or an angle bracket. A bar keeps the line ends,
a bracket folds those between lines that are not indented further. -/

namespace PropertyFinance.Yaml
set_option autoImplicit false

/-- What becomes of the line ends behind the last line: none stays, one, or all. -/
inductive Chomp
  | strip
  | clip
  | keep
deriving DecidableEq

def Chomp.ofChar? (c : Char) : Option Chomp :=
  if c = '+' then some .keep else if c = '-' then some .strip else none

/-- The sign that may stand in the first line. -/
def readChomp : List Glyph → Chomp × List Glyph
  | [] => (.clip, [])
  | g :: rest =>
    match Chomp.ofChar? g.char with
    | some chomp => (chomp, rest)
    | none => (.clip, g :: rest)

/-- The digit that may stand in the first line, which tells the indentation; zero without one. -/
def readIncrement : List Glyph → Option (Nat × List Glyph)
  | [] => some (0, [])
  | g :: rest =>
    if g.char = '0' then none
    else if g.char.isDigit then some (Digits.valueOf g.char, rest)
    else some (0, g :: rest)

/-- Sign and digit in either order, and what follows the first line. -/
def readHeader (gs : List Glyph) : Option (Chomp × Nat × List Glyph) := do
  if gs.head?.any (·.char.isDigit) then
    let (increment, gs) ← readIncrement gs
    let (chomp, gs) := readChomp gs
    some (chomp, increment, ← endLine? gs)
  else
    let (chomp, gs) := readChomp gs
    let (increment, gs) ← if chomp = .clip then some (0, gs) else readIncrement gs
    some (chomp, increment, ← endLine? gs)

/-- The empty lines before the first line of text, in reverse, and the deepest indentation up to
it. -/
def measureIndent : List Glyph → List Char → Nat → Option (List Char × Nat × List Glyph)
  | [], breaks, deepest => some (breaks, deepest, [])
  | g :: rest, breaks, deepest =>
    if g.char = ' ' then measureIndent rest breaks deepest
    else if g.char = '\t' then none
    else if isBreak g.char then measureIndent rest (g.char :: breaks) (max deepest g.column)
    else some (breaks, max deepest g.column, g :: rest)

/-- What has been read of a text: all up to the last line, the end of that line, and those of the
empty lines behind it, everything in reverse. -/
structure BlockText where
  done : List Char
  lineEnd : List Char
  emptyLines : List Char
  /-- Whether the last line is indented further than the text. -/
  isDeeper : Bool

namespace BlockText

/-- Begins a line with its first character. -/
def beginLine (literal : Bool) (t : BlockText) (c : Char) : BlockText :=
  let folds := !literal && t.lineEnd == ['\n'] && !t.isDeeper && !isBlank c
  let joint := if !folds then t.lineEnd else if t.emptyLines.isEmpty then [' '] else []
  ⟨c :: t.emptyLines ++ joint ++ t.done, [], [], isBlank c⟩

def finish (chomp : Chomp) (t : BlockText) : List Char :=
  match chomp with
  | .strip => t.done.reverse
  | .clip => (t.lineEnd ++ t.done).reverse
  | .keep => (t.emptyLines ++ t.lineEnd ++ t.done).reverse

end BlockText

/-- The lines in a column. The first argument but two tells whether a line has begun. -/
def readLines (literal : Bool) (column : Nat) :
    Bool → List Glyph → BlockText → Option (BlockText × List Glyph)
  | _, [], t => some (t, [])
  | true, g :: rest, t =>
    if isBreak g.char then readLines literal column false rest { t with lineEnd := [g.char] }
    else readLines literal column true rest { t with done := g.char :: t.done }
  | false, g :: rest, t =>
    if g.column < column ∧ g.char = ' ' then readLines literal column false rest t
    else if g.column < column ∧ g.char = '\t' then none
    else if isBreak g.char then
      readLines literal column false rest { t with emptyLines := g.char :: t.emptyLines }
    else if g.column = column then readLines literal column true rest (t.beginLine literal g.char)
    else some (t, g :: rest)

/-- A text after its bar or bracket, inside a collection in the given column, if in any. -/
def readBlock (literal : Bool) (parent : Option Nat) (gs : List Glyph) :
    Option (List Char × List Glyph) := do
  let (chomp, increment, gs) ← readHeader gs
  let (breaks, column, gs) ←
    if increment = 0 then do
      let (breaks, deepest, gs) ← measureIndent gs [] 0
      some (breaks, max deepest (max 1 ((parent.map (· + 1)).getD 0)), gs)
    else some ([], parent.getD 0 + increment, gs)
  let (t, gs) ← readLines literal column false gs ⟨[], [], breaks, false⟩
  some (t.finish chomp, gs)

end PropertyFinance.Yaml
