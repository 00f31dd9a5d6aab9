import GameSidecar.Decimal
import GameSidecar.Text.Printable

/-!
# Quoted text in messages

A message quotes a text that comes from outside. The quotes are single, unless the text holds a
single quote and no double one. The quote in use and the backslash are escaped by a backslash,
line feed, carriage return and tab have letters of their own, and every other unprintable
character is written by its code point in two, four or eight hexadecimal digits.
-/

namespace GameSidecar.Text

/-- The small hexadecimal digit of a value below sixteen. -/
def hexDigit (value : Nat) : Char :=
  if value < 10 then Char.ofNat (0x30 + value) else Char.ofNat (0x57 + value)

/-- The last `width` hexadecimal digits of a number. -/
def hexadecimal : (width : Nat) → (number : Nat) → List Char
  | 0, _ => []
  | width + 1, number => hexadecimal width (number / 16) ++ [hexDigit (number % 16)]

/-- An unprintable character by its code point. -/
def codePoint (character : Char) : List Char :=
  let code := character.toNat
  if code < 0x100 then ['\\', 'x'] ++ hexadecimal 2 code
  else if code < 0x10000 then ['\\', 'u'] ++ hexadecimal 4 code
  else ['\\', 'U'] ++ hexadecimal 8 code

/-- One character between quotes. -/
def escaped (quote character : Char) : List Char :=
  if character = quote || character = '\\' then ['\\', character]
  else if character = '\n' then ['\\', 'n']
  else if character = '\r' then ['\\', 'r']
  else if character = '\t' then ['\\', 't']
  else if isPrintable character then [character]
  else codePoint character

/-- The quote that a text is put in. -/
def quoteFor (text : List Char) : Char :=
  if text.contains '\'' && !text.contains '"' then '"' else '\''

/-- A text as messages quote it. -/
def quoted (text : String) : String :=
  let characters := text.toList
  let quote := quoteFor characters
  String.ofList (quote :: characters.flatMap (escaped quote) ++ [quote])

example : escaped '\'' '\u2028' = ['\\', 'u', '2', '0', '2', '8'] := by decide +kernel

end GameSidecar.Text
