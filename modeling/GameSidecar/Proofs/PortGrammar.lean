import GameSidecar.Proofs.Segments

/-!
# The grammar of ports

A list of ports consists of segments with question marks between them. Empty segments do not count.
Any other one has to be a name and two numbers with commas between them, and the first segment that
is not so is the one that is reported: for its number of parts, else for the number inside the
container, else for the one on the host. A number with too many digits is an error of which nothing
is said. Segments and parts are given here by the way in which they divide the text, and not by the
function that cuts it.
-/

namespace GameSidecar.Bootstrap

open Text (Divides split_eq_iff)

namespace Port

/-- A segment that is a port: a name and two numbers that can be read. -/
def IsPort (segment : List Char) : Prop :=
  ∃ name container host, Divides ',' segment [name, container, host] ∧ Fits container ∧ Fits host

/-- The number on a side of a port is looked at: on the host only after one inside the container
    that can be read. -/
inductive Reaches (container host : List Char) : Side → List Char → Prop
  | container : Reaches container host .container container
  | host (fits : Fits container) : Reaches container host .host host

/-- The first fault of a segment, and what is said about it, if anything is. -/
inductive SegmentFault (segment : List Char) : EntryError → Option String → Prop
  /-- It has not three parts. -/
  | shape {parts : List (List Char)} (divides : Divides ',' segment parts)
      (other : parts.length ≠ 3) :
    SegmentFault segment (.portShape segment)
      (some ("could not parse port entry " ++ Text.quoted (String.ofList segment) ++
        ", expected name,containerPort,hostPort"))
  /-- A number is not one or more decimal digits. -/
  | number {name container host part : List Char} {side : Side}
      (divides : Divides ',' segment [name, container, host])
      (reaches : Reaches container host side part) (other : ¬IsNumber part) :
    SegmentFault segment (.portNumber name side part)
      (some ("could not parse port with portName " ++ String.ofList name ++ ", " ++ side.label ++
        " " ++ Text.quoted (String.ofList part)))
  /-- A number has too many digits. -/
  | length {name container host part : List Char} {side : Side}
      (divides : Divides ',' segment [name, container, host])
      (reaches : Reaches container host side part) (long : Overruns part) :
    SegmentFault segment (.portLength name side) none

/-- The fault of some segments: that of the first one that is neither empty nor a port. -/
inductive FirstFault (segments : List (List Char)) (error : EntryError) (about : Option String) :
    Prop
  | segment {front : List (List Char)} {segment : List Char} {back : List (List Char)}
      (cut : segments = front ++ segment :: back)
      (fine : ∀ earlier ∈ front, earlier ≠ [] → IsPort earlier) (given : segment ≠ [])
      (fault : SegmentFault segment error about)

/-- A port of the grammar is an entry without a fault. -/
theorem isPort_iff {segment : List Char} : IsPort segment ↔ IsEntry segment := by
  simp only [IsPort, IsEntry, split_eq_iff]

/-- The fault of a segment determines what is said about it. -/
theorem SegmentFault.objection?_eq {segment : List Char} {error : EntryError}
    {about : Option String} (fault : SegmentFault segment error about) :
    error.objection? = about := by
  cases fault <;> rfl

/-- A number that is reached decides what becomes of its segment, if it cannot be read. -/
theorem ofEntry_of_reaches {segment name container host part : List Char} {side : Side}
    (divides : Divides ',' segment [name, container, host])
    (reaches : Reaches container host side part) {error : EntryError}
    (failed : Port.number name side part = .error error) : ofEntry segment = .error error := by
  rw [ofEntry_eq (split_eq_iff.mpr divides)]
  cases reaches with
  | container => rw [failed]; rfl
  | host fits =>
    rcases number_cases name .container container with
      ⟨-, value, inside⟩ | ⟨other, -⟩ | ⟨long, -⟩
    · rw [inside, failed]
      rfl
    · exact absurd fits (not_fits_of_not_isNumber other)
    · exact absurd fits (not_fits_of_overruns long)

/-- A number that cannot be read has one of two faults. -/
theorem segmentFault_of_number {segment name container host part : List Char} {side : Side}
    (divides : Divides ',' segment [name, container, host])
    (reaches : Reaches container host side part) :
    Fits part ∨ ∃ error about, number name side part = .error error ∧
      SegmentFault segment error about := by
  rcases number_cases name side part with ⟨fits, -⟩ | ⟨other, failed⟩ | ⟨long, failed⟩
  · exact .inl fits
  · exact .inr ⟨_, _, failed, .number divides reaches other⟩
  · exact .inr ⟨_, _, failed, .length divides reaches long⟩

/-- A segment is a port, or it has a fault and is read with that error. -/
theorem isPort_or_fault (segment : List Char) :
    IsPort segment ∨ ∃ error about, SegmentFault segment error about := by
  have parts := split_eq_iff.mp (Eq.refl (Text.split ',' segment))
  match shape : Text.split ',' segment with
  | [name, container, host] =>
    rw [shape] at parts
    rcases segmentFault_of_number parts .container with fits | ⟨error, about, -, fault⟩
    · rcases segmentFault_of_number parts (.host fits) with fitsToo | ⟨error, about, -, fault⟩
      · exact .inl ⟨name, container, host, parts, fits, fitsToo⟩
      · exact .inr ⟨error, about, fault⟩
    · exact .inr ⟨error, about, fault⟩
  | [] | [_] | [_, _] | _ :: _ :: _ :: _ :: _ =>
    exact .inr ⟨_, _, .shape parts (by simp [shape])⟩

/-- A fault is the error with which its segment is read. -/
theorem SegmentFault.ofEntry_eq_error {segment : List Char} {error : EntryError}
    {about : Option String} (fault : SegmentFault segment error about) :
    ofEntry segment = .error error := by
  cases fault with
  | shape divides other =>
    refine ofEntry_eq_shape fun name container host split => ?_
    obtain rfl := (split_eq_iff.mpr divides).symm.trans split
    exact other rfl
  | @number name container host part side divides reaches other =>
    refine ofEntry_of_reaches divides reaches ?_
    rcases number_cases name side part with ⟨fits, -⟩ | ⟨-, failed⟩ | ⟨long, -⟩
    · exact absurd fits.1 other
    · exact failed
    · exact absurd long.1 other
  | @length name container host part side divides reaches long =>
    refine ofEntry_of_reaches divides reaches ?_
    rcases number_cases name side part with ⟨fits, -⟩ | ⟨other, -⟩ | ⟨-, failed⟩
    · exact absurd fits (not_fits_of_overruns long)
    · exact absurd long.1 other
    · exact failed

/-- A segment fails to be read exactly with its fault. -/
theorem ofEntry_eq_error_iff {segment : List Char} {error : EntryError} {about : Option String} :
    ofEntry segment = .error error ∧ error.objection? = about ↔
      SegmentFault segment error about := by
  constructor
  · rintro ⟨failed, rfl⟩
    rcases isPort_or_fault segment with port | ⟨other, about, fault⟩
    · obtain ⟨value, read⟩ := ofEntry_eq_ok_iff.mpr (isPort_iff.mp port)
      exact nomatch failed.symm.trans read
    · obtain rfl := Except.error.inj (failed.symm.trans fault.ofEntry_eq_error)
      exact fault.objection?_eq ▸ fault
  · exact fun fault => ⟨fault.ofEntry_eq_error, fault.objection?_eq⟩

/-- Ports are read exactly if every segment that is not empty is one. -/
theorem readAll_eq_ok_iff {text : List Char} {segments : List (List Char)}
    (divides : Divides '?' text segments) :
    (∃ ports, readAll text = .ok ports) ↔
      ∀ segment ∈ segments, segment ≠ [] → IsPort segment := by
  simp only [readAll, exists_mapM_eq_ok_iff, entries_eq divides, ofEntry_eq_ok_iff, ← isPort_iff,
    List.mem_filter, and_imp, Bool.not_eq_true', List.isEmpty_eq_false_iff, ne_eq]

/-- Reading ports fails exactly with the first fault. -/
theorem readAll_eq_error_iff {text : List Char} {segments : List (List Char)}
    (divides : Divides '?' text segments) {error : EntryError} {about : Option String} :
    readAll text = .error error ∧ error.objection? = about ↔ FirstFault segments error about := by
  rw [readAll, mapM_entries_eq_error_iff divides]
  constructor
  · rintro ⟨⟨front, segment, back, cut, fine, given, failed⟩, said⟩
    refine .segment cut (fun earlier member some => ?_) given
      (ofEntry_eq_error_iff.mp ⟨failed, said⟩)
    exact isPort_iff.mpr (ofEntry_eq_ok_iff.mp (fine earlier member some))
  · rintro ⟨cut, fine, given, fault⟩
    obtain ⟨failed, said⟩ := ofEntry_eq_error_iff.mpr fault
    refine ⟨⟨_, _, _, cut, fun earlier member some => ?_, given, failed⟩, said⟩
    exact ofEntry_eq_ok_iff.mpr (isPort_iff.mp (fine earlier member some))

/-- What a text of ports comes to: its ports, or the fault of the first segment that is none. More
    question marks than one between two segments, and any at either end, make no difference. -/
theorem readAll_follows_grammar (text : List Char) :
    (∃ segments, Divides '?' text segments ∧
      ((∃ ports, readAll text = .ok ports) ↔
        ∀ segment ∈ segments, segment ≠ [] → IsPort segment) ∧
      ∀ error about, readAll text = .error error ∧ error.objection? = about ↔
        FirstFault segments error about) ∧
    readAll ('?' :: text) = readAll text ∧
    readAll (text ++ ['?']) = readAll text ∧
    ∀ front back, text = front ++ '?' :: back →
      readAll (front ++ '?' :: '?' :: back) = readAll text := by
  have divides := split_eq_iff.mp (Eq.refl (Text.split '?' text))
  have leading (rest : List Char) : entries ('?' :: rest) = entries rest :=
    entries_append [] rest
  refine ⟨⟨_, divides, readAll_eq_ok_iff divides, fun _ _ => readAll_eq_error_iff divides⟩,
    ?_, ?_, ?_⟩
  · rw [readAll, leading, readAll]
  · rw [readAll, entries_append, readAll]
    exact congrArg (List.mapM ofEntry) (List.append_nil _)
  · rintro front back rfl
    rw [readAll, entries_append, leading, readAll, entries_append]

/-- The numbers of the first segment are of several scripts, and the second one has none inside the
    container. -/
example : readAll "a,٤2,०?b,,7".toList = .error (.portNumber ['b'] .container []) := by
  rfl

end Port

end GameSidecar.Bootstrap
