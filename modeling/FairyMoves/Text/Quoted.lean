import FairyMoves.Text.Visible

/-!
# Quoted characters and texts

A message quotes what it complains about, so that a blank, a quote mark or a character without a
shape can be told apart.

## Main definitions

* `escaped` — how one character is written between two quote marks of a kind
* `quotedChar` — a character between single quotes
* `quotedPath` — a text between double quotes
-/

namespace FairyMoves.Text

/-- The code point of `c` in lower-case hexadecimal digits, with no leading zero. -/
def hexText (c : Char) : String := String.ofList (Nat.toDigits 16 c.toNat)

/-- A character that has a two-character escape between the given quote marks, and the second
character of that escape. -/
def shortEscape? (mark c : Char) : Option Char :=
  if c = '\x00' then some '0'
  else if c = '\t' then some 't'
  else if c = '\r' then some 'r'
  else if c = '\n' then some 'n'
  -- A quote mark of the other kind stands for itself.
  else if c = mark || c = '\x5c' then some c
  else none

/-- How a character is written between two quote marks: by its short escape, as itself when it is
visible, or by its code point. -/
def escaped (mark c : Char) : String :=
  match shortEscape? mark c with
  | some e => String.ofList ['\x5c', e]
  | none => if isVisible c then c.toString else "\x5cu\x7b" ++ hexText c ++ "\x7d"

/-- A text between two quote marks of a kind. -/
def quotedBy (mark : Char) (cs : List Char) : String :=
  mark.toString ++ String.join (cs.map (escaped mark)) ++ mark.toString

/-- A character between single quotes. -/
def quotedChar (c : Char) : String := quotedBy '\x27' [c]

/-- A text between double quotes. -/
def quotedPath (path : String) : String := quotedBy '\x22' path.toList

end FairyMoves.Text
