import Mainline.Text.Hex
import Mainline.Text.Invisible

/-!
# Quoted text

Texts that a peer sent are quoted before they appear in an error message: between quotation marks,
with a backslash before the mark and the backslash itself, short escapes for the common controls
and the code point of every other character that is not visible on its own.
-/

namespace Mainline.Quoted

/-- One character as it stands between two marks `mark`. -/
def character (mark : Char) (c : Char) : List Char :=
  if c = mark ∨ c = '\\' then ['\\', c]
  else if c = '\n' then ['\\', 'n']
  else if c = '\r' then ['\\', 'r']
  else if c = '\t' then ['\\', 't']
  else if c = '\x00' then ['\\', '0']
  else if isInvisible c then ['\\', 'u', '\x7b'] ++ Hex.ofNat c.toNat ++ ['\x7d']
  else [c]

/-- A text between double quotation marks. -/
def ofString (text : String) : String :=
  String.ofList ('"' :: text.toList.flatMap (character '"') ++ ['"'])

/-- A character between single quotation marks. -/
def ofChar (c : Char) : String :=
  String.ofList ('\x27' :: character '\x27' c ++ ['\x27'])

end Mainline.Quoted
