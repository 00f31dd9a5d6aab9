/-!
# Capital and small letters

Level names and the names of settings are compared without regard to case. Both consist of ASCII
characters, so a letter matters only if its capital, or its small letter, is written in ASCII.
-/

namespace GameSidecar.Text

/-- The capitals of the letters outside ASCII whose capitals are ASCII letters: dotless i, long s,
    sharp s and the Latin ligatures. -/
def foreignCapitals : List (Nat × List Char) :=
  [(0xDF, ['S', 'S']), (0x131, ['I']), (0x17F, ['S']), (0xFB00, ['F', 'F']), (0xFB01, ['F', 'I']),
    (0xFB02, ['F', 'L']), (0xFB03, ['F', 'F', 'I']), (0xFB04, ['F', 'F', 'L']),
    (0xFB05, ['S', 'T']), (0xFB06, ['S', 'T'])]

/-- The capital of a character where it is an ASCII text, else the character itself. A text with
    any other letter is equal to no ASCII name, with or without its capital. -/
def capital (character : Char) : List Char :=
  match foreignCapitals.lookup character.toNat with
  | some letters => letters
  | none => [character.toUpper]

/-- A text in capitals, as far as they are ASCII letters. -/
def capitals (text : List Char) : List Char :=
  text.flatMap capital

/-- The small letter of a character. Outside ASCII only the Kelvin sign has an ASCII one. -/
def small (character : Char) : Char :=
  if character.toNat = 0x212A then 'k' else character.toLower

/-- A name in small letters, as far as they are ASCII letters. -/
def smallLetters (text : String) : String :=
  String.ofList (text.toList.map small)

example : capitals ['\u0131', 'n', 'f', 'o'] = ['I', 'N', 'F', 'O'] := by decide

end GameSidecar.Text
