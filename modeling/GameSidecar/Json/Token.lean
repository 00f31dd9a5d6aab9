import GameSidecar.Json.Number

/-!
# JSON tokens

A document is cut into tokens character by character. Between tokens stand space, tab, line feed
and carriage return. Inside a text no character below the space may stand as itself, and of the
code units that an escape names a high surrogate has to be followed by an escaped low one; a
surrogate on its own stands for no character.
-/

namespace GameSidecar.Json

/-- A token of a document. -/
inductive Token
  | beginArray
  | endArray
  | beginObject
  | endObject
  | comma
  | colon
  | text (characters : List Char)
  | word (characters : List Char)
  deriving Repr, DecidableEq

/-- Where the reader of characters stands. What has been read of a token is kept in reverse. -/
inductive Lexing
  | between
  | word (read : List Char)
  | text (read : List Char)
  | escape (read : List Char)
  | unit (read : List Char) (high : Option Nat) (digits : List Nat)
  | lowEscape (read : List Char) (high : Nat)
  | lowUnit (read : List Char) (high : Nat)
  deriving Repr, DecidableEq

namespace Lexing

/-- The punctuation that is a token on its own. -/
def punctuation : List (Char × Token) :=
  [('[', .beginArray), (']', .endArray), ('\x7b', .beginObject), ('\x7d', .endObject),
    (',', .comma), (':', .colon)]

/-- The characters that may stand between tokens. -/
def isSpace (character : Char) : Bool :=
  character = ' ' || character = '\t' || character = '\n' || character = '\r'

/-- The characters of words. -/
def isWordCharacter (character : Char) : Bool :=
  character.isAlphanum || character = '+' || character = '-' || character = '.'

/-- The characters that an escape of one letter stands for. -/
def shortEscapes : List (Char × Char) :=
  [('"', '"'), ('\\', '\\'), ('/', '/'), ('b', '\x08'), ('f', '\x0c'), ('n', '\n'), ('r', '\r'),
    ('t', '\t')]

/-- The value of a hexadecimal digit. -/
def hexValue? (character : Char) : Option Nat :=
  let code := character.toNat
  if 0x30 ≤ code && code ≤ 0x39 then some (code - 0x30)
  else if 0x41 ≤ code && code ≤ 0x46 then some (code - 0x37)
  else if 0x61 ≤ code && code ≤ 0x66 then some (code - 0x57)
  else none

/-- The step from between tokens. -/
def fromBetween (character : Char) : Option (Lexing × List Token) :=
  if isSpace character then some (.between, [])
  else
    match punctuation.lookup character with
    | some token => some (.between, [token])
    | none =>
      if character = '"' then some (.text [], [])
      else if isWordCharacter character then some (.word [character], [])
      else none

/-- The step after the four digits of an escaped code unit. -/
def fromUnit (read : List Char) (high : Option Nat) (code : Nat) : Option Lexing :=
  match high with
  | none =>
    if 0xD800 ≤ code && code ≤ 0xDBFF then some (.lowEscape read code)
    else if 0xDC00 ≤ code && code ≤ 0xDFFF then none
    else some (.text (Char.ofNat code :: read))
  | some high =>
    if 0xDC00 ≤ code && code ≤ 0xDFFF then
      some (.text (Char.ofNat (0x10000 + (high - 0xD800) * 0x400 + (code - 0xDC00)) :: read))
    else none

/-- One character: where the reader stands after it, and the tokens that it completes. -/
def step : Lexing → Char → Option (Lexing × List Token)
  | .between, character => fromBetween character
  | .word read, character =>
    if isWordCharacter character then some (.word (character :: read), [])
    else (fromBetween character).map fun next => (next.1, .word read.reverse :: next.2)
  | .text read, character =>
    if character = '"' then some (.between, [.text read.reverse])
    else if character = '\\' then some (.escape read, [])
    else if character.toNat < 0x20 then none
    else some (.text (character :: read), [])
  | .escape read, character =>
    if character = 'u' then some (.unit read none [], [])
    else (shortEscapes.lookup character).map fun meant => (.text (meant :: read), [])
  | .unit read high digits, character =>
    (hexValue? character).bind fun digit =>
      match digits with
      | [third, second, first] =>
        (fromUnit read high (((first * 16 + second) * 16 + third) * 16 + digit)).map (·, [])
      | _ => some (.unit read high (digit :: digits), [])
  | .lowEscape read high, character =>
    if character = '\\' then some (.lowUnit read high, []) else none
  | .lowUnit read high, character =>
    if character = 'u' then some (.unit read (some high) [], []) else none

/-- The tokens that are complete at the end of the document, if it may end there. -/
def finish : Lexing → Option (List Token)
  | .between => some []
  | .word read => some [.word read.reverse]
  | _ => none

end Lexing

/-- The tokens of a text that follows what a reader of characters has read. -/
def tokensFrom : Lexing → List Char → Option (List Token)
  | state, [] => state.finish
  | state, character :: rest =>
    (state.step character).bind fun next => (tokensFrom next.1 rest).map (next.2 ++ ·)

/-- The tokens of a document. -/
def tokens (document : List Char) : Option (List Token) :=
  tokensFrom .between document

end GameSidecar.Json
