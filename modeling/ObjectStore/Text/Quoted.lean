/-
Quoted text, and the small pieces that messages are put together from.

`quote` writes a text between double quotes so that every character can be told apart: the quote
and the backslash are escaped, four control characters have short names, and whatever has no glyph
of its own, or would change its neighbour, is written as its number in lower-case hexadecimal.
-/
import ObjectStore.Text.Invisible
import ObjectStore.Text.Combining

namespace ObjectStore.Text

/-- A number in lower-case hexadecimal, without padding. -/
def hex (n : Nat) : List Char := Nat.toDigits 16 n

/-- A number in hexadecimal, filled with zeros on the left up to a width. -/
def hexPadded (width n : Nat) : List Char :=
  List.replicate (width - (hex n).length) '0' ++ hex n

/-- How one character is written inside quotes. -/
def escape (c : Char) : List Char :=
  if c = '"' then ['\\', '"']
  else if c = '\\' then ['\\', '\\']
  else if c = '\x00' then ['\\', '0']
  else if c = '\t' then ['\\', 't']
  else if c = '\r' then ['\\', 'r']
  else if c = '\n' then ['\\', 'n']
  else if isInvisible c || isCombining c then
    ['\\', 'u', '\x7b'] ++ hex c.toNat ++ ['\x7d']
  else [c]

/-- A text between double quotes, with every character recognisable. -/
def quote (s : String) : String :=
  String.ofList ('"' :: s.toList.flatMap escape ++ ['"'])

/-- An optional value: what `text` says of it, or that there is none. -/
def optional {α : Type} (text : α → String) : Option α → String
  | none => "None"
  | some a => s!"Some({text a})"

end ObjectStore.Text
