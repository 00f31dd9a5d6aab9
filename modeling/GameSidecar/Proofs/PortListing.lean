import GameSidecar.Proofs.Describing
import GameSidecar.Proofs.Segments

/-!
# Ports that are listed in a text

A number is shown by its digits, each of them in any script, with any zeros in front. A port is
shown by its name and its two numbers, with a comma between any two of them, and ports are strung
together to a text. Reading finds the ports again that were strung together, and nothing else reads
as these ports.

The game also asks for its ports by name. The map that answers it holds the names of the ports that
were read, each in the place where it occurs first, and under it the number of the port that occurs
last.
-/

namespace GameSidecar

namespace Decimal

/-- Two digits have one value, in whatever scripts they are. -/
def SameDigit (written shown : Char) : Prop :=
  digitValue? shown = digitValue? written

/-- A text shows a number: there are any zeros in front, and then the digits with which the number
    is written, each of them in any script. -/
def Shows (number : Nat) (text : List Char) : Prop :=
  ∃ zeros digits, text = zeros ++ digits ∧ (∀ zero ∈ zeros, digitValue? zero = some 0) ∧
    List.Forall₂ SameDigit (write number) digits

/-- The plain text of a number: ASCII digits that stand for it, with no zero in front unless the
    number is zero itself. -/
def Plain (number : Nat) (text : List Char) : Prop :=
  Json.IsWholePart text ∧ Json.Numeral.value text = number

/-- A number is written plainly. -/
theorem plain_write (number : Nat) : Plain number (write number) :=
  ⟨Json.isWholePart_write number, Json.value_write number⟩

/-- One more digit behind a number that is not zero. -/
theorem write_append {number value : Nat} (positive : 0 < number) (small : value < 10) :
    write (10 * number + value) = write number ++ [digit value] := by
  have front : (10 * number + value) / 10 = number := by omega
  have last : (10 * number + value) % 10 = value := by omega
  rw [write, if_neg (by omega), front, last]

section Values

/-- The values of digits are found one by one. -/
theorem digitValues?_cons (character : Char) (rest : List Char) :
    digitValues? (character :: rest) =
      (digitValue? character).bind fun value => (digitValues? rest).map (value :: ·) := by
  rw [digitValues?, List.mapM_cons, digitValues?]
  cases digitValue? character with
  | none => rfl
  | some value => cases List.mapM digitValue? rest <;> rfl

/-- Digits that are the same one by one have the same values. -/
theorem digitValues?_congr {written shown : List Char}
    (same : List.Forall₂ SameDigit written shown) :
    digitValues? shown = digitValues? written := by
  induction same with
  | nil => rfl
  | cons first later inductionHypothesis =>
    rw [digitValues?_cons, digitValues?_cons, inductionHypothesis, first]

/-- Zeros in front make no difference to the number. -/
theorem digitValues?_zeros {zeros digits : List Char} {values : List Nat}
    (each : ∀ zero ∈ zeros, digitValue? zero = some 0)
    (read : digitValues? digits = some values) :
    ∃ all, digitValues? (zeros ++ digits) = some all ∧ positional 0 all = positional 0 values := by
  induction zeros with
  | nil => exact ⟨values, read, rfl⟩
  | cons zero zeros inductionHypothesis =>
    obtain ⟨first, later⟩ := List.forall_mem_cons.mp each
    obtain ⟨all, readAll, same⟩ := inductionHypothesis later
    refine ⟨0 :: all, ?_, same⟩
    rw [List.cons_append, digitValues?_cons, first, readAll]
    rfl

/-- The digits of a text are those before its last one, and the last one. -/
theorem digitValues?_append_singleton {front : List Char} {character : Char} {values : List Nat}
    (read : digitValues? (front ++ [character]) = some values) :
    ∃ first value, digitValues? front = some first ∧ digitValue? character = some value ∧
      values = first ++ [value] := by
  induction front generalizing values with
  | nil =>
    rw [List.nil_append, digitValues?_cons] at read
    obtain ⟨value, last, same⟩ := Option.bind_eq_some_iff.mp read
    exact ⟨[], value, rfl, last, (Option.some.inj same).symm⟩
  | cons first front inductionHypothesis =>
    rw [List.cons_append, digitValues?_cons] at read
    obtain ⟨value, firstRead, more⟩ := Option.bind_eq_some_iff.mp read
    obtain ⟨others, laterRead, rfl⟩ := Option.map_eq_some_iff.mp more
    obtain ⟨later, last, frontRead, lastRead, rfl⟩ := inductionHypothesis laterRead
    refine ⟨value :: later, last, ?_, lastRead, rfl⟩
    rw [digitValues?_cons, firstRead, frontRead]
    rfl

end Values

section Reading

/-- The digit that is written for a value is the same as any digit of that value. -/
theorem sameDigits_digit {character : Char} {value : Nat}
    (read : digitValue? character = some value) (small : value < 10) :
    List.Forall₂ SameDigit [digit value] [character] :=
  .cons (read.trans (digitValue?_digit small).symm) .nil

/-- Zero is shown by zeros only. -/
theorem digitValue?_of_shows_zero {text : List Char} (shows : Shows 0 text) :
    ∀ zero ∈ text, digitValue? zero = some 0 := by
  obtain ⟨zeros, digits, rfl, front, same⟩ := shows
  rw [write, if_pos (by decide)] at same
  obtain ⟨last, rest, first, none, rfl⟩ := List.forall₂_cons_left_iff.mp same
  obtain rfl := List.forall₂_nil_left_iff.mp none
  have lastZero : digitValue? last = some 0 := first.trans (digitValue?_digit (by decide))
  exact List.forall_mem_append.mpr ⟨front, List.forall_mem_singleton.mpr lastZero⟩

/-- A digit behind a number that is shown. If the number is zero, all its digits come to stand in
    front of the new one. -/
theorem shows_append {number value : Nat} {front : List Char} {character : Char}
    (shows : Shows number front) (read : digitValue? character = some value)
    (small : value < 10) : Shows (10 * number + value) (front ++ [character]) := by
  rcases Nat.eq_zero_or_pos number with rfl | positive
  · refine ⟨front, [character], rfl, digitValue?_of_shows_zero shows, ?_⟩
    rw [Nat.mul_zero, Nat.zero_add, write, if_pos small]
    exact sameDigits_digit read small
  · obtain ⟨zeros, digits, rfl, leading, same⟩ := shows
    refine ⟨zeros, digits ++ [character], List.append_assoc .., leading, ?_⟩
    rw [write_append positive small]
    exact List.rel_append same (sameDigits_digit read small)

/-- Digits show the number that their values make. -/
theorem shows_of_digitValues? {text : List Char} {values : List Nat} (given : text ≠ [])
    (read : digitValues? text = some values) : Shows (positional 0 values) text := by
  -- The number grows with every digit behind it, so the induction is from the last digit back.
  induction text using List.reverseRecOn generalizing values with
  | nil => exact absurd rfl given
  | append_singleton front character inductionHypothesis =>
    obtain ⟨first, value, frontRead, lastRead, rfl⟩ := digitValues?_append_singleton read
    have small := digitValue?_lt lastRead
    have total : positional 0 (first ++ [value]) = 10 * positional 0 first + value :=
      positional_append 0 first [value]
    by_cases alone : front = []
    · subst alone
      have none : first = [] := (Option.some.inj frontRead).symm
      have only : 10 * positional 0 [] + value = value := Nat.zero_add value
      refine ⟨[], [character], rfl, List.forall_mem_nil _, ?_⟩
      rw [total, none, only, write, if_pos small]
      exact sameDigits_digit lastRead small
    · rw [total]
      exact shows_append (inductionHypothesis alone frontRead) lastRead small

/-- The texts that are read as a number are those that show it. -/
theorem read?_eq_some_iff {text : List Char} {number : Nat} :
    read? text = some number ↔ Shows number text := by
  constructor
  · intro read
    unfold read? at read
    split at read
    · cases read
    · next given =>
      obtain ⟨values, all, rfl⟩ := Option.map_eq_some_iff.mp read
      exact shows_of_digitValues? (by simpa using given) all
  · rintro ⟨zeros, digits, rfl, leading, same⟩
    have given : digits ≠ [] := by
      rintro rfl
      exact write_ne_nil number (List.forall₂_nil_right_iff.mp same)
    obtain ⟨values, written, rfl⟩ := digitValues?_write number
    obtain ⟨all, read, total⟩ :=
      digitValues?_zeros leading ((digitValues?_congr same).trans written)
    rw [read?, if_neg (by simp [given]), read, Option.map_some, total]

/-- What is no digit does not stand in a text that shows a number. -/
theorem not_mem_of_shows {number : Nat} {text : List Char} (shows : Shows number text)
    {character : Char} (other : isDigit character = false) : character ∉ text := by
  have isNumber : Bootstrap.IsNumber text := by
    by_contra noNumber
    have unread := Bootstrap.read?_eq_none_iff.mpr noNumber
    exact nomatch unread.symm.trans (read?_eq_some_iff.mpr shows)
  intro member
  exact nomatch (isNumber.2 character member).symm.trans other

end Reading

end Decimal

namespace Bootstrap.Port

open Decimal (Shows Plain read?_eq_some_iff)

/-- An entry shows a port: its name, the number inside the container and the number on the host,
    with a comma after the first and after the second. The name has neither a comma nor a question
    mark in it, and a number may have as many digits as can be read. -/
inductive ShownBy (port : Port) : List Char → Prop
  | parts {container host : List Char} (noComma : ',' ∉ port.name.toList)
      (noMark : '?' ∉ port.name.toList) (listening : Shows port.listening container)
      (short : container.length ≤ longestNumber) (connecting : Shows port.connecting host)
      (shortToo : host.length ≤ longestNumber) :
    ShownBy port (port.name.toList ++ ',' :: (container ++ ',' :: host))

/-- A number is read from the texts that show it and are not too long. -/
theorem number_eq_ok_iff {name text : List Char} {side : Side} {value : Nat} :
    number name side text = .ok value ↔ Shows value text ∧ text.length ≤ longestNumber := by
  rw [← read?_eq_some_iff, number]
  cases read : Decimal.read? text with
  | none => simp
  | some found =>
    by_cases short : text.length ≤ longestNumber
    · simp [short]
    · simp [short]

/-- What shows a port is not empty. -/
theorem ShownBy.ne_nil {port : Port} {entry : List Char} (shown : ShownBy port entry) :
    entry ≠ [] := by
  cases shown
  simp

/-- What shows a port holds no question mark. -/
theorem ShownBy.not_mem {port : Port} {entry : List Char} (shown : ShownBy port entry) :
    '?' ∉ entry := by
  obtain ⟨-, noMark, listening, -, connecting, -⟩ := shown
  have inside : '?' ∉ _ := Decimal.not_mem_of_shows listening (by decide)
  have outside : '?' ∉ _ := Decimal.not_mem_of_shows connecting (by decide)
  simp [noMark, inside, outside]

/-- An entry shows the port that is read from it, and no other. -/
theorem ofEntry_eq_ok_iff_shownBy {port : Port} {entry : List Char} (whole : '?' ∉ entry) :
    ofEntry entry = .ok port ↔ ShownBy port entry := by
  constructor
  · intro read
    unfold ofEntry at read
    split at read
    · next name container host split =>
      obtain ⟨listening, inside, laterRead⟩ := ok_of_bind read
      obtain ⟨connecting, outside, same⟩ := ok_of_bind laterRead
      obtain rfl := Except.ok.inj same
      obtain ⟨insideShown, short⟩ := number_eq_ok_iff.mp inside
      obtain ⟨outsideShown, shortToo⟩ := number_eq_ok_iff.mp outside
      obtain ⟨-, rfl, without⟩ := Text.split_eq_iff.mp split
      have noComma : ',' ∉ name := without name List.mem_cons_self
      have noMark : '?' ∉ name := fun member => whole (List.mem_append_left _ member)
      have shown := @ShownBy.parts ⟨String.ofList name, listening, connecting⟩ container host
        (by simpa using noComma) (by simpa using noMark) insideShown short outsideShown shortToo
      simpa [Text.join] using shown
    · cases read
  · rintro ⟨noComma, -, listening, short, connecting, shortToo⟩
    have inside : ',' ∉ _ := Decimal.not_mem_of_shows listening (by decide)
    have outside : ',' ∉ _ := Decimal.not_mem_of_shows connecting (by decide)
    rw [ofEntry_eq (by rw [Text.split_append noComma, Text.split_append inside,
        Text.split_of_not_mem outside]),
      number_eq_ok_iff.mpr ⟨listening, short⟩, number_eq_ok_iff.mpr ⟨connecting, shortToo⟩]
    simp [Except.bind]

/-- A text of ports is read as the ports that it strings together, with any digits and any further
    question marks, and a text that does not string ports together is not read. By name the game
    is told the plain text of the last number for each name, in the order in which the names occur
    first. -/
theorem readAll_undoes_stringing (text : List Char) (ports : List Port) :
    (readAll text = .ok ports ↔ Strung ShownBy ports text) ∧
    (byName ports).keys = (ports.map Port.name).eraseDups ∧ (byName ports).keys.Nodup ∧
    ∀ name, Option.Rel (fun shown port => Plain port.listening shown.toList)
      ((byName ports).get? name) ((ports.filter fun port => port.name = name).getLast?) := by
  refine ⟨?_, ?_, OrderedMap.nodup_ofPairs _, ?_⟩
  · exact mapM_entries_eq_ok_iff (fun _ _ shown => ⟨shown.ne_nil, shown.not_mem⟩)
      fun _ _ whole _ => ofEntry_eq_ok_iff_shownBy whole
  · rw [byName, OrderedMap.keys_ofPairs, OrderedMap.keys, List.map_map]
    rfl
  · intro name
    rw [byName, OrderedMap.get?_ofPairs, List.filter_map, List.getLast?_map, Option.map_map]
    have same : ((fun pair : String × String => decide (pair.1 = name)) ∘
        fun port : Port => (port.name, port.listeningText)) =
        fun port => decide (port.name = name) := rfl
    rw [same]
    cases (ports.filter fun port => port.name = name).getLast? with
    | none => exact .none
    | some port => exact .some (by simpa [listeningText] using Decimal.plain_write port.listening)

/-- A name occurs twice, and the numbers have zeros in front and digits of several scripts. -/
example :
    readAll "??a,٠0٤2,8?b,007,7??a,०९,0?".toList =
      .ok [⟨"a", 42, 8⟩, ⟨"b", 7, 7⟩, ⟨"a", 9, 0⟩] := by
  rfl

example :
    byName [⟨"a", 42, 8⟩, ⟨"b", 7, 7⟩, ⟨"a", 9, 0⟩] = [("a", "9"), ("b", "7")] := by
  decide +kernel

end Bootstrap.Port

end GameSidecar
