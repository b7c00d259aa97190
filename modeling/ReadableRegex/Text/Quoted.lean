import ReadableRegex.Text.Numeral
import ReadableRegex.Unicode.Hidden

/-!
Texts between double quotes, as messages show them. The quote, the backslash and the common
controls are written after a backslash, other hidden characters by their code point.
-/

namespace ReadableRegex.Text

def quotedChar (character : Char) : Text :=
  match character with
  | '"' => ['\\', '"']
  | '\\' => ['\\', '\\']
  | '\n' => ['\\', 'n']
  | '\r' => ['\\', 'r']
  | '\t' => ['\\', 't']
  | '\x00' => ['\\', '0']
  | other =>
      if Unicode.isHidden other then ['\\', 'u', '\x7b'] ++ numeral 16 other.toNat ++ ['\x7d']
      else [other]

def quoted (text : Text) : Text :=
  '"' :: text.flatMap quotedChar ++ ['"']

end ReadableRegex.Text
