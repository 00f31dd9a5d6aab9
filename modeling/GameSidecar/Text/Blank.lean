/-!
# Blank characters

Unicode gives 25 characters the property of being white space. Level names are also freed of the
four information separators U+001C to U+001F; numbers are not.
-/

namespace GameSidecar.Text

/-- The characters with the Unicode property `White_Space`. -/
def isWhiteSpace (character : Char) : Bool :=
  let code := character.toNat
  (0x9 ≤ code && code ≤ 0xD) || code == 0x20 || code == 0x85 || code == 0xA0 || code == 0x1680 ||
    (0x2000 ≤ code && code ≤ 0x200A) || code == 0x2028 || code == 0x2029 || code == 0x202F ||
    code == 0x205F || code == 0x3000

/-- White space and the four information separators. -/
def isBlank (character : Char) : Bool :=
  isWhiteSpace character || (0x1C ≤ character.toNat && character.toNat ≤ 0x1F)

/-- A text without the characters of a class at its two ends. -/
def trim (dropped : Char → Bool) (text : List Char) : List Char :=
  ((text.dropWhile dropped).reverse.dropWhile dropped).reverse

end GameSidecar.Text
