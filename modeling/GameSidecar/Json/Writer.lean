import GameSidecar.Json.Number

/-!
# Writing JSON

Values are written without blanks. In a text the quote, the backslash, backspace, form feed, line
feed, carriage return and tab are escaped by a letter, and the other characters below the space by
their code in four hexadecimal digits; everything else stands as itself.
-/

namespace GameSidecar.Json

/-- The letters of the characters that have a short escape. -/
def escapeLetters : List (Char × Char) :=
  [('"', '"'), ('\\', '\\'), ('\x08', 'b'), ('\x0c', 'f'), ('\n', 'n'), ('\r', 'r'), ('\t', 't')]

/-- One character inside a text. -/
def writeCharacter (character : Char) : List Char :=
  match escapeLetters.lookup character with
  | some letter => ['\\', letter]
  | none =>
    if character.toNat < 0x20 then ['\\', 'u'] ++ Text.hexadecimal 4 character.toNat
    else [character]

/-- A text in quotes. -/
def writeText (text : String) : List Char :=
  '"' :: text.toList.flatMap writeCharacter ++ ['"']

mutual

/-- A value as a document. -/
def write : Json → List Char
  | .null => "null".toList
  | .bool value => (if value then "true" else "false").toList
  | .int value => Decimal.writeInt value
  | .real value => realWord value
  | .string value => writeText value
  | .array items => '[' :: separated [','] (writeItems items) ++ [']']
  | .object members => '\x7b' :: separated [','] (writeMembers members) ++ ['\x7d']

/-- The items of an array as documents. -/
def writeItems : List Json → List (List Char)
  | [] => []
  | item :: rest => write item :: writeItems rest

/-- The members of an object, name, colon and value. -/
def writeMembers : List (String × Json) → List (List Char)
  | [] => []
  | (name, value) :: rest => (writeText name ++ ':' :: write value) :: writeMembers rest

end

/-- A value as the text of a document. -/
def document (value : Json) : String :=
  String.ofList value.write

end GameSidecar.Json
