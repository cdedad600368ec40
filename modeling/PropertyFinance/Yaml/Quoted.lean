import PropertyFinance.Yaml.Glyph

/-! Scalars in quotes. A line end inside is folded, and one behind a backslash is dropped. -/

namespace PropertyFinance.Yaml
set_option autoImplicit false

/-- A scalar after its opening apostrophe; two in a row stand for one. -/
def readSingle : List Glyph → List Char → List Char → Option (List Char × List Glyph)
  | [], _, _ => none
  | g :: [], gap, done => if g.char = '\'' then some ((joinGap gap done).reverse, []) else none
  | g :: h :: rest, gap, done =>
    if isGap g.char then readSingle (h :: rest) (g.char :: gap) done
    else if isDocumentMark (g :: h :: rest) then none
    else if g.char ≠ '\'' then readSingle (h :: rest) [] (g.char :: joinGap gap done)
    else if h.char = '\'' then readSingle rest [] ('\'' :: joinGap gap done)
    else some ((joinGap gap done).reverse, h :: rest)

/-- The character of an escape of one letter. -/
def escape? : Char → Option Char
  | '0' => some '\x00'
  | 'a' => some '\x07'
  | 'b' => some '\x08'
  | 't' => some '\t'
  | '\t' => some '\t'
  | 'n' => some '\n'
  | 'v' => some '\x0b'
  | 'f' => some '\x0c'
  | 'r' => some '\r'
  | 'e' => some '\x1b'
  | ' ' => some ' '
  | '"' => some '"'
  | '/' => some '/'
  | '\\' => some '\\'
  | 'N' => some '\u0085'
  | '_' => some '\u00a0'
  | 'L' => some '\u2028'
  | 'P' => some '\u2029'
  | _ => none

/-- How many hexadecimal digits follow the letter of an escape. -/
def codeLength : Char → Nat
  | 'x' => 2
  | 'u' => 4
  | 'U' => 8
  | _ => 0

def codeChar? (n : Nat) : Option Char := if n.isValidChar then some (Char.ofNat n) else none

/-- What a quoted text goes on with. -/
inductive Expected
  /-- Words and blanks. -/
  | word
  /-- Blanks behind an escaped line end. -/
  | line
  /-- So many further digits of a character's code. -/
  | digits (count value : Nat)

/-- The text with the gap before its next word, all in reverse. -/
def Expected.join (gap done : List Char) : Expected → List Char
  | .line => gap.filter isBreak ++ done
  | _ => joinGap gap done

/-- A scalar after its opening quotation mark. -/
def readDouble : List Glyph → Expected → List Char → List Char → Option (List Char × List Glyph)
  | [], _, _, _ => none
  | g :: rest, .digits count value, _, done => do
    let value := 16 * value + (← Json.Reader.hexDigit? g.char)
    if 1 < count then readDouble rest (.digits (count - 1) value) [] done
    else readDouble rest .word [] ((← codeChar? value) :: done)
  | g :: [], expected, gap, done =>
    if g.char = '"' then some ((expected.join gap done).reverse, []) else none
  | g :: h :: rest, expected, gap, done =>
    if isGap g.char then readDouble (h :: rest) expected (g.char :: gap) done
    else if isDocumentMark (g :: h :: rest) then none
    else
      let done := expected.join gap done
      if g.char = '"' then some (done.reverse, h :: rest)
      else if g.char ≠ '\\' then readDouble (h :: rest) .word [] (g.char :: done)
      else if isBreak h.char then readDouble rest .line [] done
      else if 0 < codeLength h.char then readDouble rest (.digits (codeLength h.char) 0) [] done
      else do readDouble rest .word [] ((← escape? h.char) :: done)

end PropertyFinance.Yaml
