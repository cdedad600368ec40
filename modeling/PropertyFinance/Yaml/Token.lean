import PropertyFinance.Yaml.Tag

/-! The tokens of a YAML text. Collections that are written by indentation have tokens for their
begin and end as well, and keys have one in front of them. -/

namespace PropertyFinance.Yaml
set_option autoImplicit false

inductive Token
  | directive (d : Directive)
  | documentStart
  | documentEnd
  /-- The begin of a list whose items have dashes in one column. -/
  | listStart
  /-- The begin of a mapping whose keys stand in one column. -/
  | mapStart
  /-- The end of either. -/
  | blockEnd
  | openList
  | closeList
  | openMap
  | closeMap
  | comma
  | dash
  | key
  | value
  /-- A name for the node that follows, by its number. -/
  | anchor (number : Nat)
  | reference (number : Nat)
  | tag (name : TagName)
  | scalar (isPlain : Bool) (text : String)

end PropertyFinance.Yaml
