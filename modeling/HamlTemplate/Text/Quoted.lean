import HamlTemplate.Text

/-!
# Quoted text

A text is shown between double quotes. Quotes, backslashes and the usual controls have short
escapes; characters that show nothing of their own or attach to another one are written as
their number in hexadecimal.
-/

namespace HamlTemplate

open Unicode

namespace Text

def escapeChar (c : Char) : Text :=
  if c = '\x22' ∨ c = '\\' then ['\\', c]
  else if c = '\n' then ['\\', 'n']
  else if c = '\r' then ['\\', 'r']
  else if c = '\t' then ['\\', 't']
  else if c = '\x00' then ['\\', '0']
  else if isGraphic c && !isGraphemeExtender c then [c]
  else "\\u\x7b".toList ++ Nat.toDigits 16 c.toNat ++ ['\x7d']

/-- A text between quotes. -/
def quoted (text : Text) : Text := '\x22' :: text.flatMap escapeChar ++ ['\x22']

end Text

end HamlTemplate
