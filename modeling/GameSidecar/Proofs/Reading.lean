import GameSidecar.Proofs.Grammar
import GameSidecar.Proofs.Pairs

/-!
# The reader accepts the grammar

Every document of the grammar is read as the value it stands for, whatever its blanks and the
spelling of its texts. A piece of a document is cut into tokens whatever follows it; only a word
goes on until a character that cannot belong to it. The tokens of a phrase are read as its value in
any place where a value is awaited and there is room for its depth. A document stands for one value
only, since a reader with room for all of it reads one.
-/

namespace GameSidecar.Json

/-- A text that no word goes on with. -/
def EndsWord (text : List Char) : Prop :=
  ∀ character ∈ text.head?, Lexing.isWordCharacter character = false

/-- A piece of a document is cut into tokens of its own, whatever follows it. -/
def Closes (piece : List Char) (found : List Token) : Prop :=
  ∀ rest, tokensFrom .between (piece ++ rest) = (tokensFrom .between rest).map (found ++ ·)

/-- A piece of a document is cut into tokens of its own, if no word goes on after it. -/
def Lexes (piece : List Char) (found : List Token) : Prop :=
  ∀ rest, EndsWord rest →
    tokensFrom .between (piece ++ rest) = (tokensFrom .between rest).map (found ++ ·)

section Characters

/-- A character that completes no token only changes where the reader stands. -/
theorem tokensFrom_silent {state next : Lexing} {character : Char} {rest : List Char}
    (step : state.step character = some (next, [])) :
    tokensFrom state (character :: rest) = tokensFrom next rest := by
  simp [tokensFrom, step]

/-- A character that completes tokens puts them before those that follow. -/
theorem tokensFrom_found {state next : Lexing} {character : Char} {found : List Token}
    {rest : List Char} (step : state.step character = some (next, found)) :
    tokensFrom state (character :: rest) = (tokensFrom next rest).map (found ++ ·) := by
  simp [tokensFrom, step]

/-- Blank characters between two tokens are passed over. -/
theorem tokensFrom_blank {blank : List Char} (blanks : IsBlank blank) (rest : List Char) :
    tokensFrom .between (blank ++ rest) = tokensFrom .between rest := by
  induction blank with
  | nil => rfl
  | cons character blank inductionHypothesis =>
    have space : character ∈ [' ', '\t', '\n', '\r'] := blanks character List.mem_cons_self
    simp only [List.mem_cons, List.not_mem_nil, or_false] at space
    have step : Lexing.step .between character = some (.between, []) := by
      rcases space with rfl | rfl | rfl | rfl <;> rfl
    rw [List.cons_append, tokensFrom_silent step]
    exact inductionHypothesis fun other member => blanks other (.tail _ member)

/-- A hexadecimal digit of the grammar is read as its value. -/
theorem hexValue?_digit {value : Nat} {character : Char} (hex : IsHexDigit value character) :
    Lexing.hexValue? character = some value := by
  have each : ∀ value : Fin 16, Lexing.hexValue? (Text.hexDigit value.val) = some value.val ∧
      Lexing.hexValue? (Text.hexDigit value.val).toUpper = some value.val := by decide
  obtain ⟨small, rfl | rfl⟩ := hex
  · exact (each ⟨value, small⟩).1
  · exact (each ⟨value, small⟩).2

/-- The four digits of a code unit are read as that unit. -/
theorem tokensFrom_codeUnit {code : Nat} {digits : List Char} (unit : CodeUnit code digits)
    {read : List Char} {high : Option Nat} {next : Lexing}
    (goes : Lexing.fromUnit read high code = some next) (rest : List Char) :
    tokensFrom (.unit read high []) (digits ++ rest) = tokensFrom next rest := by
  cases unit with
  | @digits first second third fourth a b c d one two three four =>
    have afterOne : Lexing.step (.unit read high []) a = some (.unit read high [first], []) := by
      simp [Lexing.step, hexValue?_digit one]
    have afterTwo : Lexing.step (.unit read high [first]) b =
        some (.unit read high [second, first], []) := by
      simp [Lexing.step, hexValue?_digit two]
    have afterThree : Lexing.step (.unit read high [second, first]) c =
        some (.unit read high [third, second, first], []) := by
      simp [Lexing.step, hexValue?_digit three]
    have afterFour : Lexing.step (.unit read high [third, second, first]) d =
        some (next, []) := by
      simp [Lexing.step, hexValue?_digit four, goes]
    exact (tokensFrom_silent afterOne).trans ((tokensFrom_silent afterTwo).trans
      ((tokensFrom_silent afterThree).trans (tokensFrom_silent afterFour)))

/-- The code point of a character is no surrogate. -/
theorem toNat_not_surrogate (character : Char) :
    ¬(0xD800 ≤ character.toNat ∧ character.toNat ≤ 0xDFFF) := by
  have valid := character.valid
  simp only [UInt32.isValidChar, Nat.isValidChar] at valid
  change ¬(0xD800 ≤ character.val.toNat ∧ character.val.toNat ≤ 0xDFFF)
  omega

/-- A code unit that is no surrogate stands for the character with its code point. -/
theorem fromUnit_character (read : List Char) (character : Char) :
    Lexing.fromUnit read none character.toNat = some (.text (character :: read)) := by
  have alone := toNat_not_surrogate character
  have notHigh : ¬(0xD800 ≤ character.toNat ∧ character.toNat ≤ 0xDBFF) := by omega
  have notLow : ¬(0xDC00 ≤ character.toNat ∧ character.toNat ≤ 0xDFFF) := by omega
  simp [Lexing.fromUnit, notHigh, notLow]

/-- However a character is spelled, the reader goes on with it. -/
theorem tokensFrom_spelling {character : Char} {spelled : List Char}
    (spelling : Spelling character spelled) (read rest : List Char) :
    tokensFrom (.text read) (spelled ++ rest) = tokensFrom (.text (character :: read)) rest := by
  have escape (rest : List Char) :
      tokensFrom (.text read) ('\\' :: rest) = tokensFrom (.escape read) rest :=
    tokensFrom_silent rfl
  have unicode (rest : List Char) :
      tokensFrom (.escape read) ('u' :: rest) = tokensFrom (.unit read none []) rest :=
    tokensFrom_silent rfl
  cases spelling with
  | plain visible quote backslash =>
    have shown : ¬character.toNat < 0x20 := Nat.not_lt.mpr visible
    exact tokensFrom_silent (by simp [Lexing.step, quote, backslash, shown])
  | short meaning =>
    simp only [List.mem_cons, Prod.mk.injEq, List.not_mem_nil, or_false] at meaning
    rw [List.cons_append, escape]
    apply tokensFrom_silent
    rcases meaning with ⟨rfl, rfl⟩ | ⟨rfl, rfl⟩ | ⟨rfl, rfl⟩ | ⟨rfl, rfl⟩ | ⟨rfl, rfl⟩ |
      ⟨rfl, rfl⟩ | ⟨rfl, rfl⟩ | ⟨rfl, rfl⟩ <;> rfl
  | unit unit =>
    rw [List.cons_append, escape, List.cons_append, unicode]
    exact tokensFrom_codeUnit unit (fromUnit_character read character) rest
  | @pair high low first second highUnit lowUnit highRange lowRange point =>
    have opens : Lexing.fromUnit read none high = some (.lowEscape read high) := by
      simp [Lexing.fromUnit, highRange]
    have closes : Lexing.fromUnit read (some high) low = some (.text (character :: read)) := by
      simp [Lexing.fromUnit, lowRange, ← point]
    rw [List.append_assoc, List.cons_append, escape, List.cons_append, unicode,
      tokensFrom_codeUnit highUnit opens, List.cons_append, tokensFrom_silent rfl,
      List.cons_append, tokensFrom_silent rfl]
    exact tokensFrom_codeUnit lowUnit closes rest

/-- The inside of a quotation is read as the characters that it spells, up to the closing quote. -/
theorem tokensFrom_spells {characters spelled : List Char} (spells : Spells characters spelled)
    (read rest : List Char) :
    tokensFrom (.text read) (spelled ++ '"' :: rest) =
      (tokensFrom .between rest).map (.text (read.reverse ++ characters) :: ·) := by
  induction spells generalizing read with
  | nil =>
    have closes : Lexing.step (.text read) '"' = some (.between, [.text read.reverse]) := rfl
    rw [List.append_nil]
    exact tokensFrom_found closes
  | cons first later inductionHypothesis =>
    rw [List.append_assoc, tokensFrom_spelling first, inductionHypothesis]
    simp

end Characters

section Words

/-- The digits of a number are taken up to the first character that is none. -/
theorem digits_append {digits rest : List Char} (all : ∀ digit ∈ digits, digit.isDigit = true)
    (ends : ∀ character ∈ rest.head?, character.isDigit = false) :
    Numeral.digits (digits ++ rest) = (digits, rest) := by
  have stops : rest.takeWhile Char.isDigit = [] ∧ rest.dropWhile Char.isDigit = rest := by
    cases rest with
    | nil => exact ⟨rfl, rfl⟩
    | cons character rest =>
      have other : character.isDigit = false := ends character rfl
      simp [other]
  rw [Numeral.digits, List.takeWhile_append_of_pos all, List.dropWhile_append_of_pos all, stops.1,
    stops.2, List.append_nil]

/-- A whole part has digits only, and the reader takes it for one. -/
theorem isWhole_of_isWholePart {whole : List Char} (given : IsWholePart whole) :
    (∀ digit ∈ whole, digit.isDigit = true) ∧ Numeral.isWhole whole = true ∧
      ∃ first rest, whole = first :: rest ∧ first.isDigit = true := by
  rcases given with rfl | ⟨first, rest, rfl, large, all⟩
  · exact ⟨List.forall_mem_singleton.mpr rfl, rfl, '0', [], rfl, rfl⟩
  · refine ⟨all, ?_, first, rest, rfl, all first List.mem_cons_self⟩
    unfold Numeral.isWhole
    split
    · next same => cases same
    · rfl
    · next same => exact decide_eq_true ((List.cons.inj same).1 ▸ large)

/-- What follows the digits of a number with an exponent starts with its letter. -/
theorem head_tail_of_exponent {exponent : Option Int} {tail : List Char}
    (exponential : Exponent exponent tail) :
    ∀ character ∈ tail.head?, character = 'e' ∨ character = 'E' := by
  cases exponential with
  | none => simp
  | some letters _ _ =>
    intro character head
    obtain rfl := Option.some.inj head
    exact letters

/-- Neither the point of a fraction nor the letter of an exponent is a digit. -/
theorem head_point_of_fraction {fraction point tail : List Char} {exponent : Option Int}
    (fractional : Fraction fraction point) (exponential : Exponent exponent tail) :
    ∀ character ∈ (point ++ tail).head?, character.isDigit = false := by
  cases fractional with
  | none =>
    intro character head
    rcases head_tail_of_exponent exponential character head with rfl | rfl <;> rfl
  | some given =>
    intro character head
    obtain rfl := Option.some.inj head
    rfl

/-- A fraction is read as its digits, and what follows it is left. -/
theorem fraction?_append {fraction point tail : List Char} {exponent : Option Int}
    (fractional : Fraction fraction point) (exponential : Exponent exponent tail) :
    Numeral.fraction? (point ++ tail) = some (fraction, tail) := by
  have letter := head_tail_of_exponent exponential
  cases fractional with
  | none =>
    cases tail with
    | nil => rfl
    | cons character tail =>
      rcases letter character rfl with rfl | rfl <;> rfl
  | some given =>
    have ends : ∀ character ∈ tail.head?, character.isDigit = false := by
      intro character head
      rcases letter character head with rfl | rfl <;> rfl
    simp [Numeral.fraction?, digits_append given.2 ends, given.1]

/-- A text of digits is taken as a whole. -/
theorem digits_self {digits : List Char} (all : ∀ digit ∈ digits, digit.isDigit = true) :
    Numeral.digits digits = (digits, []) := by
  have none : ∀ character ∈ ([] : List Char).head?, character.isDigit = false := by simp
  have whole := digits_append all none
  rwa [List.append_nil] at whole

/-- The digits of an exponent are read with their sign. -/
theorem power?_signed {negative : Bool} {sign digits : List Char} (signed : Sign negative sign)
    (given : IsDigits digits) : Numeral.power? (sign ++ digits) =
      some (if negative then -(Numeral.value digits : Int) else (Numeral.value digits : Int)) := by
  obtain ⟨some, all⟩ := given
  cases signed with
  | plus => simp [Numeral.power?, digits_self all, some]
  | minus => simp [Numeral.power?, digits_self all, some]
  | none =>
    cases digits with
    | nil => exact absurd rfl some
    | cons first rest =>
      have digit : first.isDigit = true := all first List.mem_cons_self
      have notMinus : first ≠ '-' := by rintro rfl; cases digit
      have notPlus : first ≠ '+' := by rintro rfl; cases digit
      simp [Numeral.power?, digits_self all, notMinus, notPlus]

/-- The end of a numeral is read as its exponent, or as none. -/
theorem exponent?_tail {exponent : Option Int} {tail : List Char}
    (exponential : Exponent exponent tail) : Numeral.exponent? tail = some exponent := by
  cases exponential with
  | none => rfl
  | some letters signed given =>
    rw [List.cons_append, Numeral.exponent?, if_pos (by simpa using letters),
      power?_signed signed given]
    rfl

/-- A numeral is read part by part. -/
theorem ofWord?_numeral (negative : Bool) {whole fraction point tail : List Char}
    {exponent : Option Int} (given : IsWholePart whole) (fractional : Fraction fraction point)
    (exponential : Exponent exponent tail) :
    Numeral.ofWord? (minus negative ++ whole ++ point ++ tail) =
      some ⟨negative, whole, fraction, exponent⟩ := by
  obtain ⟨all, isWhole, first, rest, rfl, digit⟩ := isWhole_of_isWholePart given
  have sign : Numeral.sign (minus negative ++ (first :: rest) ++ point ++ tail) =
      (negative, (first :: rest) ++ (point ++ tail)) := by
    cases negative with
    | true => simp [minus, Numeral.sign]
    | false =>
      have positive : first ≠ '-' := by rintro rfl; cases digit
      simp only [minus, Bool.false_eq_true, if_false, List.nil_append, List.cons_append,
        List.append_assoc]
      unfold Numeral.sign
      split
      · next same => exact absurd (List.cons.inj same).1 positive
      · rfl
  have cut := digits_append all (head_point_of_fraction fractional exponential)
  have passes : (guard (Numeral.isWhole (first :: rest)) : Option Unit) = some () := if_pos isWhole
  rw [Numeral.ofWord?, sign]
  dsimp only
  rw [cut]
  dsimp only
  rw [passes]
  simp [fraction?_append fractional exponential, exponent?_tail exponential]

/-- A word with a digit in it is none of the names. -/
theorem lookup_of_digit {word : List Char} {digit : Char} (member : digit ∈ word)
    (isDigit : digit.isDigit = true) : namedValues.lookup word = none := by
  have letters : ∀ entry ∈ namedValues, ∀ character ∈ entry.1, character.isDigit = false := by
    simp [namedValues, Char.isDigit]
  refine List.lookup_eq_none_iff.mpr fun entry known => ?_
  have different : word ≠ entry.1 := by
    rintro rfl
    exact nomatch isDigit.symm.trans (letters entry known digit member)
  simpa using different

/-- No numeral is the name of a value. -/
theorem lookup_numeral (negative : Bool) {whole : List Char} (given : IsWholePart whole)
    (more : List Char) : namedValues.lookup (minus negative ++ whole ++ more) = none := by
  obtain ⟨-, -, first, rest, rfl, digit⟩ := isWhole_of_isWholePart given
  exact lookup_of_digit (by simp : first ∈ minus negative ++ (first :: rest) ++ more) digit

/-- A word is read as its value. -/
theorem ofWord?_word {limit : Nat} {value : Json} {text : List Char}
    (word : Word limit value text) : ofWord? limit text = some value := by
  cases word with
  | null => rfl
  | true => rfl
  | false => rfl
  | @int negative whole given short =>
    have unnamed := lookup_numeral negative given []
    have numeral := ofWord?_numeral negative given .none .none
    rw [List.append_nil, List.append_nil] at numeral
    rw [List.append_nil] at unnamed
    rw [ofWord?, unnamed, numeral]
    simp [Numeral.json?, Nat.not_lt.mpr short]
  | @real negative whole fraction point tail exponent given short fractional exponential either =>
    have unnamed := lookup_numeral negative given (point ++ tail)
    have numeral := ofWord?_numeral negative given fractional exponential
    have fractured : (fraction.isEmpty && exponent.isNone) = false := by
      rcases either with some | some
      · simp [some]
      · simp [Option.isNone_eq_false_iff, Option.isSome_iff_ne_none, some]
    rw [← List.append_assoc] at unnamed
    rw [ofWord?, unnamed, numeral]
    simp [Numeral.json?, Nat.not_lt.mpr short, fractured]

/-- Characters that may stand in a word. -/
def FitsWord (text : List Char) : Prop :=
  ∀ character ∈ text, Lexing.isWordCharacter character = true

/-- Two texts that fit into a word fit into one together. -/
theorem FitsWord.append {front back : List Char} (first : FitsWord front)
    (second : FitsWord back) : FitsWord (front ++ back) :=
  List.forall_mem_append.mpr ⟨first, second⟩

/-- Digits fit into a word. -/
theorem fitsWord_digits {digits : List Char} (all : ∀ digit ∈ digits, digit.isDigit = true) :
    FitsWord digits := by
  intro digit member
  simp [Lexing.isWordCharacter, Char.isAlphanum, all digit member]

/-- A minus sign fits into a word. -/
theorem fitsWord_minus (negative : Bool) : FitsWord (minus negative) := by
  cases negative
  · exact List.forall_mem_nil _
  · exact List.forall_mem_singleton.mpr rfl

/-- A fraction with its point fits into a word. -/
theorem fitsWord_fraction {fraction point : List Char} (fractional : Fraction fraction point) :
    FitsWord point := by
  cases fractional with
  | none => exact List.forall_mem_nil _
  | some given => exact List.forall_mem_cons.mpr ⟨rfl, fitsWord_digits given.2⟩

/-- An exponent with its letter and its sign fits into a word. -/
theorem fitsWord_exponent {exponent : Option Int} {tail : List Char}
    (exponential : Exponent exponent tail) : FitsWord tail := by
  cases exponential with
  | none => exact List.forall_mem_nil _
  | some letters signed given =>
    refine FitsWord.append (List.forall_mem_cons.mpr ⟨?_, ?_⟩) (fitsWord_digits given.2)
    · rcases letters with rfl | rfl <;> rfl
    · cases signed with
      | none => exact List.forall_mem_nil _
      | plus => exact List.forall_mem_singleton.mpr rfl
      | minus => exact List.forall_mem_singleton.mpr rfl

/-- Every word of the grammar has a character, and all of its characters fit into one. -/
theorem fitsWord_word {limit : Nat} {value : Json} {text : List Char}
    (word : Word limit value text) : text ≠ [] ∧ FitsWord text := by
  cases word with
  | null => exact ⟨nofun, List.all_eq_true.mp rfl⟩
  | true => exact ⟨nofun, List.all_eq_true.mp rfl⟩
  | false => exact ⟨nofun, List.all_eq_true.mp rfl⟩
  | @int negative _ given =>
    obtain ⟨all, -, first, rest, rfl, -⟩ := isWhole_of_isWholePart given
    exact ⟨by simp, (fitsWord_minus negative).append (fitsWord_digits all)⟩
  | @real negative _ _ _ _ _ given _ fractional exponential =>
    obtain ⟨all, -, first, rest, rfl, -⟩ := isWhole_of_isWholePart given
    exact ⟨by simp, (((fitsWord_minus negative).append (fitsWord_digits all)).append
      (fitsWord_fraction fractional)).append (fitsWord_exponent exponential)⟩

/-- A character of a word starts one between tokens. -/
theorem fromBetween_wordCharacter {character : Char}
    (fits : Lexing.isWordCharacter character = true) :
    Lexing.fromBetween character = some (.word [character], []) := by
  have unlike (other : Char) (apart : Lexing.isWordCharacter other = false) :
      character ≠ other := by
    rintro rfl
    exact nomatch fits.symm.trans apart
  have space : Lexing.isSpace character = false := by
    simp [Lexing.isSpace, unlike ' ' rfl, unlike '\t' rfl, unlike '\n' rfl, unlike '\r' rfl]
  have mark : Lexing.punctuation.lookup character = none := by
    refine List.lookup_eq_none_iff.mpr fun entry member => ?_
    have apart : ∀ entry ∈ Lexing.punctuation, Lexing.isWordCharacter entry.1 = false := by decide
    simpa using unlike entry.1 (apart entry member)
  simp [Lexing.fromBetween, space, mark, unlike '"' rfl, fits]

/-- A word is read to its end, which is the first character that does not fit into it. -/
theorem tokensFrom_word {text rest : List Char} (fits : FitsWord text) (read : List Char)
    (ends : EndsWord rest) :
    tokensFrom (.word read) (text ++ rest) =
      (tokensFrom .between rest).map (.word (read.reverse ++ text) :: ·) := by
  induction text generalizing read with
  | nil =>
    -- The word ends with the document, or before a character that is read as if none came before.
    rw [List.append_nil, List.nil_append]
    cases rest with
    | nil => rfl
    | cons character rest =>
      have other : Lexing.isWordCharacter character = false := ends character rfl
      cases next : Lexing.fromBetween character with
      | none => simp [tokensFrom, Lexing.step, other, next]
      | some next => simp [tokensFrom, Lexing.step, other, next, Function.comp_def]
  | cons character text inductionHypothesis =>
    obtain ⟨first, later⟩ := List.forall_mem_cons.mp fits
    rw [List.cons_append, tokensFrom_silent (by simp [Lexing.step, first]; rfl),
      inductionHypothesis later]
    simp

/-- A word of the grammar is one token. -/
theorem lexes_word {limit : Nat} {value : Json} {text : List Char}
    (word : Word limit value text) : Lexes text [.word text] := by
  intro rest ends
  obtain ⟨some, fits⟩ := fitsWord_word word
  cases text with
  | nil => exact absurd rfl some
  | cons character text =>
    obtain ⟨first, later⟩ := List.forall_mem_cons.mp fits
    have starts : Lexing.step .between character = Option.some (.word [character], []) :=
      fromBetween_wordCharacter first
    rw [List.cons_append, tokensFrom_silent starts, tokensFrom_word later [character] ends]
    rfl

end Words

section Pieces

/-- A piece that needs no end is a piece of tokens, whatever comes after it. -/
theorem Closes.lexes {piece : List Char} {found : List Token} (closes : Closes piece found) :
    Lexes piece found :=
  fun rest _ => closes rest

/-- Two pieces that need no end give the tokens of both. -/
theorem Closes.append {front back : List Char} {first second : List Token}
    (left : Closes front first) (right : Closes back second) :
    Closes (front ++ back) (first ++ second) := by
  intro rest
  rw [List.append_assoc, left, right, Option.map_map]
  simp [Function.comp_def]

/-- A piece may follow one that needs no end. -/
theorem Closes.append_lexes {front back : List Char} {first second : List Token}
    (left : Closes front first) (right : Lexes back second) :
    Lexes (front ++ back) (first ++ second) := by
  intro rest ends
  rw [List.append_assoc, left, right rest ends, Option.map_map]
  simp [Function.comp_def]

/-- Blank characters are no token. -/
theorem closes_blank {blank : List Char} (blanks : IsBlank blank) : Closes blank [] := by
  intro rest
  simp [tokensFrom_blank blanks]

/-- A quotation is the token of its text. -/
theorem closes_quotation {text : String} {piece : List Char} (quoted : Quotation text piece) :
    Closes piece [.text text.toList] := by
  cases quoted with
  | @quoted spelled spells =>
    intro rest
    have opens : Lexing.step .between '"' = some (.text [], []) := rfl
    rw [List.cons_append, List.cons_append, tokensFrom_silent opens, List.append_assoc]
    exact tokensFrom_spells spells [] rest

/-- A mark is the token that it stands for. -/
theorem closes_mark {mark : Char} {token : Token} (known : (mark, token) ∈ Lexing.punctuation) :
    Closes [mark] [token] := by
  intro rest
  have step : Lexing.step .between mark = some (.between, [token]) := by
    simp only [Lexing.punctuation, List.mem_cons, Prod.mk.injEq, List.not_mem_nil,
      or_false] at known
    rcases known with ⟨rfl, rfl⟩ | ⟨rfl, rfl⟩ | ⟨rfl, rfl⟩ | ⟨rfl, rfl⟩ | ⟨rfl, rfl⟩ |
      ⟨rfl, rfl⟩ <;> rfl
  exact tokensFrom_found step

/-- Blank characters after a piece add no token. -/
theorem Lexes.append_blank {piece blank : List Char} {found : List Token}
    (lexes : Lexes piece found) (blanks : IsBlank blank) : Lexes (piece ++ blank) found := by
  intro rest ends
  have stays : EndsWord (blank ++ rest) := by
    cases blank with
    | nil => exact ends
    | cons character blank =>
      intro first head
      obtain rfl := Option.some.inj head
      have space := blanks character List.mem_cons_self
      simp only [List.mem_cons, List.not_mem_nil, or_false] at space
      rcases space with rfl | rfl | rfl | rfl <;> rfl
  rw [List.append_assoc, lexes _ stays, tokensFrom_blank blanks]

/-- A mark of punctuation closes what stands before it. -/
theorem Lexes.append_mark {piece : List Char} {found : List Token} {mark : Char} {token : Token}
    (lexes : Lexes piece found) (known : (mark, token) ∈ Lexing.punctuation) :
    Closes (piece ++ [mark]) (found ++ [token]) := by
  intro rest
  have ends : EndsWord ([mark] ++ rest) := by
    have apart : ∀ entry ∈ Lexing.punctuation, Lexing.isWordCharacter entry.1 = false := by decide
    intro first head
    obtain rfl := Option.some.inj head
    exact apart _ known
  rw [List.append_assoc, lexes _ ends, closes_mark known, Option.map_map]
  simp [Function.comp_def]

/-- A mark of punctuation stands between what closes before it and what follows it. -/
theorem Lexes.append_mark_lexes {front back : List Char} {first second : List Token} {mark : Char}
    {token : Token} (left : Lexes front first) (known : (mark, token) ∈ Lexing.punctuation)
    (right : Lexes back second) : Lexes (front ++ mark :: back) (first ++ token :: second) := by
  simpa using (left.append_mark known).append_lexes right

/-- What stands between two brackets is closed by them. -/
theorem Lexes.within_marks {piece : List Char} {found : List Token} {opening closing : Char}
    {first last : Token} (lexes : Lexes piece found)
    (opens : (opening, first) ∈ Lexing.punctuation)
    (closes : (closing, last) ∈ Lexing.punctuation) :
    Lexes (opening :: piece ++ [closing]) (first :: found ++ [last]) :=
  ((closes_mark opens).append (lexes.append_mark closes)).lexes

/-- A value with blanks around it. -/
theorem Lexes.amid_blanks {before text after : List Char} {found : List Token}
    (lexes : Lexes text found) (first : IsBlank before) (second : IsBlank after) :
    Lexes (before ++ text ++ after) found :=
  ((closes_blank first).append_lexes lexes).append_blank second

/-- A member with blanks around its name and its value. -/
theorem Lexes.member {name : String} {before title around between text after : List Char}
    {found : List Token} (lexes : Lexes text found) (first : IsBlank before)
    (named : Quotation name title) (second : IsBlank around) (third : IsBlank between)
    (fourth : IsBlank after) :
    Lexes (before ++ title ++ around ++ ':' :: between ++ text ++ after)
      (.text name.toList :: .colon :: found) := by
  have title := ((closes_blank first).append (closes_quotation named)).append (closes_blank second)
  have colon : Closes (':' :: between) [.colon] :=
    (closes_mark (by decide)).append (closes_blank third)
  exact ((title.append colon).append_lexes lexes).append_blank fourth

end Pieces

section Values

variable {limits : Limits}

/-- Tokens are read one after the other. -/
theorem readTokens_cons (reading : Reading) (token : Token) (found : List Token) :
    readTokens limits reading (token :: found) =
      (reading.step limits token).bind fun next => readTokens limits next found := by
  simp [readTokens]

/-- A list of tokens is read in two parts as it is in one. -/
theorem readTokens_append (reading : Reading) (front back : List Token) :
    readTokens limits reading (front ++ back) =
      (readTokens limits reading front).bind fun next => readTokens limits next back := by
  simp [readTokens, List.foldlM_append]

/-- A word stays one if integers may have more digits. -/
theorem Word.mono {few many : Nat} {value : Json} {text : List Char} (word : Word few value text)
    (more : few ≤ many) : Word many value text := by
  cases word with
  | null => exact .null
  | true => exact .true
  | false => exact .false
  | int given short => exact .int given (Nat.le_trans short more)
  | real given short fractional exponential either =>
    exact .real given (Nat.le_trans short more) fractional exponential either

/-- Tokens that are read as a value wherever there is room for it. -/
def Reads (bounds : Limits) (found : List Token) (value : Json) : Prop :=
  ∀ (limits : Limits) (stack : List Frame) (awaiting : Awaiting),
    bounds.digits ≤ limits.digits → stack.length + bounds.depth ≤ limits.depth →
    awaiting = .value ∨ awaiting = .itemOrEnd →
    readTokens limits ⟨stack, awaiting⟩ found = some ⟨stack, .separator value⟩

/-- Tokens that are read as the items of an array that are still to come, up to its end. -/
def ReadsItems (bounds : Limits) (found : List Token) (items : List Json) : Prop :=
  ∀ (limits : Limits) (stack : List Frame) (awaiting : Awaiting) (read : List Json),
    bounds.digits ≤ limits.digits → stack.length + 1 + bounds.depth ≤ limits.depth →
    awaiting = .value ∨ awaiting = .itemOrEnd →
    readTokens limits ⟨.items read :: stack, awaiting⟩ (found ++ [.endArray]) =
      some ⟨stack, .separator (.array (read.reverse ++ items))⟩

/-- Tokens that are read as the members of an object that are still to come, up to its end. -/
def ReadsMembers (bounds : Limits) (found : List Token) (pairs : List (String × Json)) : Prop :=
  ∀ (limits : Limits) (stack : List Frame) (awaiting : Awaiting) (read : List (String × Json)),
    bounds.digits ≤ limits.digits → stack.length + 1 + bounds.depth ≤ limits.depth →
    awaiting = .name read ∨ awaiting = .nameOrEnd ∧ read = [] →
    readTokens limits ⟨stack, awaiting⟩ (found ++ [.endObject]) =
      some ⟨stack, .separator (.object (OrderedMap.insertAll read pairs))⟩

variable {limits bounds : Limits} {stack : List Frame} {awaiting : Awaiting}

/-- Where a value is awaited, any token but the end of an array is taken for its start. -/
theorem readTokens_value (starts : awaiting = .value ∨ awaiting = .itemOrEnd) {token : Token}
    (other : token ≠ .endArray) (found : List Token) :
    readTokens limits ⟨stack, awaiting⟩ (token :: found) =
      (Reading.value limits stack token).bind fun next => readTokens limits next found := by
  rw [readTokens_cons]
  rcases starts with rfl | rfl
  · rfl
  · cases token with
    | endArray => exact absurd rfl other
    | _ => rfl

/-- The token of a word is read as its value. -/
theorem reads_word {value : Json} {text : List Char} (word : Word bounds.digits value text) :
    Reads bounds [.word text] value := by
  intro limits stack awaiting digits depth starts
  have room : ¬limits.depth < stack.length := by omega
  rw [readTokens_value starts (by nofun)]
  simp [Reading.value, room, ofWord?_word (word.mono digits), readTokens]

/-- The token of a text is read as a string. -/
theorem reads_text (text : String) : Reads bounds [.text text.toList] (.string text) := by
  intro limits stack awaiting digits depth starts
  have room : ¬limits.depth < stack.length := by omega
  rw [readTokens_value starts (by nofun)]
  simp [Reading.value, room, readTokens]

/-- An array without items is read as such. -/
theorem reads_emptyArray : Reads bounds [.beginArray, .endArray] (.array []) := by
  intro limits stack awaiting digits depth starts
  have room : ¬limits.depth < stack.length := by omega
  rw [readTokens_value starts (by nofun)]
  simp [Reading.value, room, readTokens, Reading.step]

/-- An object without members is read as such. -/
theorem reads_emptyObject : Reads bounds [.beginObject, .endObject] (.object []) := by
  intro limits stack awaiting digits depth starts
  have room : ¬limits.depth < stack.length := by omega
  rw [readTokens_value starts (by nofun)]
  simp [Reading.value, room, readTokens, Reading.step]

/-- The items of an array are read as the array, one level deeper. -/
theorem ReadsItems.reads {depth digits : Nat} {found : List Token} {items : List Json}
    (reads : ReadsItems ⟨depth, digits⟩ found items) :
    Reads ⟨depth + 1, digits⟩ (.beginArray :: found ++ [.endArray]) (.array items) := by
  intro limits stack awaiting enough room starts
  simp only at room
  have allowed : ¬limits.depth < stack.length := by omega
  have inside : stack.length + 1 + depth ≤ limits.depth := by omega
  rw [List.cons_append, readTokens_value starts (by nofun), Reading.value, if_neg allowed]
  exact reads limits stack .itemOrEnd [] enough inside (.inr rfl)

/-- The members of an object are read as the object, one level deeper. The last one of a name
    counts. -/
theorem ReadsMembers.reads {depth digits : Nat} {found : List Token}
    {pairs : List (String × Json)} (reads : ReadsMembers ⟨depth, digits⟩ found pairs) :
    Reads ⟨depth + 1, digits⟩ (.beginObject :: found ++ [.endObject])
      (.object (OrderedMap.ofPairs pairs)) := by
  intro limits stack awaiting enough room starts
  simp only at room
  have allowed : ¬limits.depth < stack.length := by omega
  have inside : stack.length + 1 + depth ≤ limits.depth := by omega
  rw [List.cons_append, readTokens_value starts (by nofun), Reading.value, if_neg allowed]
  exact reads limits stack .nameOrEnd [] enough inside (.inr ⟨rfl, rfl⟩)

/-- A value is read inside an array or an object. -/
theorem Reads.inside {found : List Token} {value : Json} (reads : Reads bounds found value)
    (frame : Frame) (enough : bounds.digits ≤ limits.digits)
    (room : stack.length + 1 + bounds.depth ≤ limits.depth)
    (starts : awaiting = .value ∨ awaiting = .itemOrEnd) :
    readTokens limits ⟨frame :: stack, awaiting⟩ found =
      some ⟨frame :: stack, .separator value⟩ :=
  reads limits (frame :: stack) awaiting enough room starts

/-- The tokens of a value are those of one item. -/
theorem Reads.items {found : List Token} {item : Json} (reads : Reads bounds found item) :
    ReadsItems bounds found [item] := by
  intro limits stack awaiting read enough room starts
  rw [readTokens_append, reads.inside _ enough room starts]
  simp [readTokens, Reading.step, Reading.separator]

/-- A value may come before other items, with a comma between them. -/
theorem Reads.items_cons {found more : List Token} {item : Json} {items : List Json}
    (reads : Reads bounds found item) (later : ReadsItems bounds more items) :
    ReadsItems bounds (found ++ .comma :: more) (item :: items) := by
  intro limits stack awaiting read enough room starts
  rw [List.append_assoc, readTokens_append, reads.inside _ enough room starts,
    Option.bind_some, List.cons_append, readTokens_cons]
  have comma : Reading.step limits ⟨.items read :: stack, .separator item⟩ .comma =
    some ⟨.items (item :: read) :: stack, .value⟩ := rfl
  rw [comma, Option.bind_some, later limits stack .value (item :: read) enough room (.inl rfl)]
  simp

/-- The name and the colon of a member are read, and its value is read within. -/
theorem readTokens_member {found : List Token} {name : String} {member : Json}
    {read : List (String × Json)} (reads : Reads bounds found member)
    (enough : bounds.digits ≤ limits.digits)
    (room : stack.length + 1 + bounds.depth ≤ limits.depth)
    (starts : awaiting = .name read ∨ awaiting = .nameOrEnd ∧ read = []) (rest : List Token) :
    readTokens limits ⟨stack, awaiting⟩ (.text name.toList :: .colon :: found ++ rest) =
      readTokens limits ⟨.member read name :: stack, .separator member⟩ rest := by
  have named : Reading.step limits ⟨stack, awaiting⟩ (.text name.toList) =
      some ⟨stack, .colon read name⟩ := by
    rcases starts with rfl | ⟨rfl, rfl⟩ <;> simp [Reading.step]
  have colon : Reading.step limits ⟨stack, .colon read name⟩ .colon =
      some ⟨.member read name :: stack, .value⟩ := rfl
  rw [List.cons_append, readTokens_cons, named, Option.bind_some, List.cons_append,
    readTokens_cons, colon, Option.bind_some, readTokens_append,
    reads.inside _ enough room (.inl rfl), Option.bind_some]

/-- The tokens of a value, behind a name and a colon, are those of one member. -/
theorem Reads.members {found : List Token} {name : String} {member : Json}
    (reads : Reads bounds found member) :
    ReadsMembers bounds (.text name.toList :: .colon :: found) [(name, member)] := by
  intro limits stack awaiting read enough room starts
  rw [readTokens_member reads enough room starts]
  rfl

/-- A member may come before other ones, with a comma between them. -/
theorem Reads.members_cons {found more : List Token} {name : String} {member : Json}
    {pairs : List (String × Json)} (reads : Reads bounds found member)
    (later : ReadsMembers bounds more pairs) :
    ReadsMembers bounds (.text name.toList :: .colon :: found ++ .comma :: more)
      ((name, member) :: pairs) := by
  intro limits stack awaiting read enough room starts
  have comma : Reading.step limits ⟨.member read name :: stack, .separator member⟩ .comma =
    some ⟨stack, .name (OrderedMap.insert read name member)⟩ := rfl
  rw [List.append_assoc, readTokens_member reads enough room starts, List.cons_append,
    readTokens_cons, comma, Option.bind_some,
    later limits stack (.name _) _ enough room (.inl rfl)]
  rfl

end Values

section Documents

mutual

/-- Every phrase is cut into tokens that are read as its value. -/
theorem Phrase.read {limits : Limits} {value : Json} {text : List Char}
    (phrase : Phrase limits value text) : ∃ found, Lexes text found ∧ Reads limits found value :=
  match phrase with
  | .word word => ⟨_, lexes_word word, reads_word word⟩
  | .text quoted => ⟨_, (closes_quotation quoted).lexes, reads_text _⟩
  | .emptyArray blanks =>
    ⟨_, (closes_blank blanks).lexes.within_marks (by decide) (by decide), reads_emptyArray⟩
  | .emptyObject blanks =>
    ⟨_, (closes_blank blanks).lexes.within_marks (by decide) (by decide), reads_emptyObject⟩
  | .array within =>
    let ⟨_, lexes, reads⟩ := within.read
    ⟨_, lexes.within_marks (by decide) (by decide), reads.reads⟩
  | .object within =>
    let ⟨_, lexes, reads⟩ := within.read
    ⟨_, lexes.within_marks (by decide) (by decide), reads.reads⟩

/-- What the grammar takes for items is lexed and read as those items. -/
theorem Items.read {limits : Limits} {items : List Json} {text : List Char}
    (within : Items limits items text) :
    ∃ found, Lexes text found ∧ ReadsItems limits found items :=
  match within with
  | .last first value second =>
    let ⟨_, lexes, reads⟩ := value.read
    ⟨_, lexes.amid_blanks first second, reads.items⟩
  | .cons first value second more =>
    let ⟨_, lexes, reads⟩ := value.read
    let ⟨_, laterLexes, laterReads⟩ := more.read
    ⟨_, (lexes.amid_blanks first second).append_mark_lexes (by decide) laterLexes,
      reads.items_cons laterReads⟩

/-- What it takes for members is lexed and read as those members. -/
theorem Members.read {limits : Limits} {pairs : List (String × Json)} {text : List Char}
    (within : Members limits pairs text) :
    ∃ found, Lexes text found ∧ ReadsMembers limits found pairs :=
  match within with
  | .last first named second third value fourth =>
    let ⟨_, lexes, reads⟩ := value.read
    ⟨_, lexes.member first named second third fourth, reads.members⟩
  | .cons first named second third value fourth more =>
    let ⟨_, lexes, reads⟩ := value.read
    let ⟨_, laterLexes, laterReads⟩ := more.read
    ⟨_, (lexes.member first named second third fourth).append_mark_lexes (by decide) laterLexes,
      reads.members_cons laterReads⟩

end

/-- A document is read as the value it stands for, where its depth and its numbers are allowed. -/
theorem read?_of_document {bounds limits : Limits} {value : Json} {text : List Char}
    (document : Document bounds value text) (depth : bounds.depth ≤ limits.depth)
    (digits : bounds.digits ≤ limits.digits) : read? limits text = some value := by
  obtain ⟨first, phrase, second⟩ := document
  obtain ⟨found, lexes, reads⟩ := phrase.read
  have cut := lexes.amid_blanks first second [] (by simp [EndsWord])
  have finish : tokensFrom .between [] = some [] := rfl
  rw [List.append_nil, finish] at cut
  have read := reads limits [] .value digits (by simpa using depth) (.inl rfl)
  rw [read?, tokens, cut, Option.map_some, Option.bind_some, List.append_nil, Reading.start, read]
  rfl

/-- A document stands for one value only. -/
theorem Document.unique {few many : Limits} {first second : Json} {text : List Char}
    (one : Document few first text) (other : Document many second text) : first = second := by
  -- A reader that allows what each of the two documents needs reads both values.
  let both : Limits := ⟨max few.depth many.depth, max few.digits many.digits⟩
  have left : read? both text = some first :=
    read?_of_document one (Nat.le_max_left _ _) (Nat.le_max_left _ _)
  have right : read? both text = some second :=
    read?_of_document other (Nat.le_max_right _ _) (Nat.le_max_right _ _)
  exact Option.some.inj (left.symm.trans right)

end Documents

end GameSidecar.Json
