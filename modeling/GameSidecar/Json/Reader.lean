import GameSidecar.Json.Token

/-!
# Reading JSON

Tokens are read one at a time, with the arrays and objects that are still open on a stack. An
object holds each name once, in the place where it first stood, with the value that stood last.
-/

namespace GameSidecar.Json

/-- What a reader refuses although the grammar allows it: a value with more than `depth` arrays
    and objects around it, and a numeral with more than `digits` digits before its point. -/
structure Limits where
  depth : Nat
  digits : Nat
  deriving Repr, DecidableEq

/-- An array or object that is open: the items read, in reverse, or the members read and the name
    of the one that is being read. -/
inductive Frame
  | items (read : List Json)
  | member (read : List (String × Json)) (name : String)
  deriving Repr

/-- What the reader of tokens waits for. -/
inductive Awaiting
  | value
  | itemOrEnd
  | nameOrEnd
  | name (read : List (String × Json))
  | colon (read : List (String × Json)) (name : String)
  | separator (complete : Json)
  deriving Repr

/-- The open arrays and objects, the innermost first, and what is awaited inside them. -/
structure Reading where
  stack : List Frame
  awaiting : Awaiting
  deriving Repr

namespace Reading

/-- Nothing is read yet. -/
def start : Reading :=
  ⟨[], .value⟩

/-- The token that starts a value. -/
def value (limits : Limits) (stack : List Frame) (token : Token) : Option Reading :=
  if limits.depth < stack.length then none
  else
    match token with
    | .beginArray => some ⟨.items [] :: stack, .itemOrEnd⟩
    | .beginObject => some ⟨stack, .nameOrEnd⟩
    | .text characters => some ⟨stack, .separator (.string (String.ofList characters))⟩
    | .word characters => (ofWord? limits.digits characters).map (⟨stack, .separator ·⟩)
    | _ => none

/-- The token after a complete value. -/
def separator (stack : List Frame) (complete : Json) (token : Token) : Option Reading :=
  match stack, token with
  | .items read :: outer, .comma => some ⟨.items (complete :: read) :: outer, .value⟩
  | .items read :: outer, .endArray =>
    some ⟨outer, .separator (.array (complete :: read).reverse)⟩
  | .member read name :: outer, .comma => some ⟨outer, .name (OrderedMap.insert read name complete)⟩
  | .member read name :: outer, .endObject =>
    some ⟨outer, .separator (.object (OrderedMap.insert read name complete))⟩
  | _, _ => none

/-- One token. -/
def step (limits : Limits) (reading : Reading) (token : Token) : Option Reading :=
  match reading.awaiting, token with
  | .value, _ => value limits reading.stack token
  | .itemOrEnd, .endArray => some ⟨reading.stack.tail, .separator (.array [])⟩
  | .itemOrEnd, _ => value limits reading.stack token
  | .nameOrEnd, .endObject => some ⟨reading.stack, .separator (.object [])⟩
  | .nameOrEnd, .text name => some ⟨reading.stack, .colon [] (String.ofList name)⟩
  | .nameOrEnd, _ => none
  | .name read, .text name => some ⟨reading.stack, .colon read (String.ofList name)⟩
  | .name _, _ => none
  | .colon read name, .colon => some ⟨.member read name :: reading.stack, .value⟩
  | .colon _ _, _ => none
  | .separator complete, _ => separator reading.stack complete token

/-- The value that is read when the document ends. -/
def finish : Reading → Option Json
  | ⟨[], .separator complete⟩ => some complete
  | _ => none

end Reading

/-- What tokens make of a reading. -/
def readTokens (limits : Limits) (reading : Reading) (tokens : List Token) : Option Reading :=
  tokens.foldlM (Reading.step limits) reading

/-- The value that a document stands for, within limits. -/
def read? (limits : Limits) (document : List Char) : Option Json :=
  ((tokens document).bind (readTokens limits .start)).bind Reading.finish

end GameSidecar.Json
