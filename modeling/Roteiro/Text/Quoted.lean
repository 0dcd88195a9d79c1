import Roteiro.Text.Printable

/-!
Quoted text for structural dumps: a text between quotes in which every character that would be
hard to see, or that would end the quotation, is replaced by an escape.
-/

namespace Roteiro.Text

/-- The digits of `n` in base sixteen, lower case and without leading zeros. -/
def hexDigits (n : Nat) : String :=
  String.ofList (Nat.toDigits 16 n)

/-- The escape of a character by its code point. -/
def escapeCode (c : Char) : String :=
  "\\u\x7b" ++ hexDigits c.toNat ++ "\x7d"

/-- A character as it stands inside quotes of the kind `quote`. -/
def escapeChar (quote c : Char) : String :=
  if c = Char.ofNat 0 then "\\0"
  else if c = '\t' then "\\t"
  else if c = '\r' then "\\r"
  else if c = '\n' then "\\n"
  else if c = '\\' then "\\\\"
  else if c = quote then "\\" ++ c.toString
  else if isCombining c || !isPrintable c then escapeCode c
  else c.toString

/-- A text in double quotes. -/
def quoted (s : String) : String :=
  "\"" ++ String.join (s.toList.map (escapeChar '"')) ++ "\""

/-- A single character in single quotes. -/
def quotedChar (c : Char) : String :=
  "'" ++ escapeChar '\'' c ++ "'"

end Roteiro.Text
