import PropertyFinance.Yaml.Glyph

/-! Scalars without quotes. They go on over several lines as long as these are indented, and end
before a comment, a colon with a blank behind it, or a mark of the brackets around them. -/

namespace PropertyFinance.Yaml
set_option autoImplicit false

/-- Characters that begin something else wherever a scalar could begin. -/
def isIndicator (c : Char) : Bool :=
  isFlowMark c || "#&*!|>'\"%@\x60".toList.contains c

/-- A dash begins a scalar if no blank follows; a question mark and a colon only outside of brackets
and if a word follows. -/
def beginsPlain (inFlow : Bool) : List Glyph → Bool
  | [] => false
  | g :: rest =>
    if g.char = '-' then !rest.head?.any (isBlank ·.char)
    else if g.char = '?' ∨ g.char = ':' then !inFlow && !endsWord rest
    else !isGap g.char && !isIndicator g.char

/-- Whether the scalar ends before the next word, which follows the gap. -/
def endsPlain (inFlow : Bool) (least : Nat) (gap : List Char) : List Glyph → Bool
  | [] => true
  | g :: rest =>
    (!inFlow && gap.any isBreak && g.column < least) || isDocumentMark (g :: rest)
      || (g.char == '#' && !gap.isEmpty) || (g.char == ':' && endsWord rest)
      || (inFlow && isFlowMark g.char)

/-- Inside brackets a colon inside a scalar cannot stand before these. -/
def isStrayColon (inFlow : Bool) (g : Glyph) (rest : List Glyph) : Bool :=
  inFlow && g.char == ':' && rest.head?.any fun h => isFlowMark h.char || h.char == '?'

/-- The text, whether a line ended after it, and what follows. A tab cannot stand where a line has
to be indented. -/
def readPlain (inFlow : Bool) (least : Nat) :
    List Glyph → List Char → List Char → Option (List Char × Bool × List Glyph)
  | [], gap, done => some (done.reverse, gap.any isBreak, [])
  | g :: rest, gap, done =>
    if isGap g.char then
      if g.char = '\t' ∧ gap.any isBreak ∧ g.column < least then none
      else readPlain inFlow least rest (g.char :: gap) done
    else if endsPlain inFlow least gap (g :: rest) then
      some (done.reverse, gap.any isBreak, g :: rest)
    else if isStrayColon inFlow g rest then none
    else readPlain inFlow least rest [] (g.char :: joinGap gap done)

end PropertyFinance.Yaml
