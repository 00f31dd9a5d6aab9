import GameSidecar.Fault

/-!
# The faults of checked values

A value that is made of several fields is checked field by field. Its faults are those of all its
fields in their order, whatever the fields before them came to. So the faults of a record are known
once those of each field are.
-/

namespace GameSidecar.Checked

variable {α β : Type}

/-- The faults of a checked value, none if it is there. -/
def faults (checked : Checked α) : List Fault :=
  match (checked : Except (List Fault) α) with
  | .ok _ => []
  | .error faults => faults

/-- What is made of a value makes no difference to its faults. -/
theorem faults_map (change : α → β) (checked : Checked α) :
    (change <$> checked).faults = checked.faults := by
  cases (checked : Except (List Fault) α) <;> rfl

/-- The faults of two checks are those of the first one and then those of the second. -/
theorem faults_seq (maker : Checked (α → β)) (field : Checked α) :
    (maker <*> field).faults = maker.faults ++ field.faults := by
  cases (maker : Except (List Fault) (α → β)) <;> cases (field : Except (List Fault) α) <;>
    simp [Seq.seq, Fault.both, Except.map, faults]

/-- A result is made of a value that was read. -/
theorem map_eq_ok_iff {change : α → β} {checked : Checked α} {result : β} :
    change <$> checked = Except.ok result ↔
      ∃ value, checked = Except.ok value ∧ change value = result := by
  cases (checked : Except (List Fault) α) with
  | error faults => exact iff_of_false nofun nofun
  | ok value =>
    constructor
    · exact fun same => ⟨value, rfl, Except.ok.inj same⟩
    · rintro ⟨_, same, rfl⟩
      obtain rfl := Except.ok.inj same
      rfl

/-- A value is made of its fields if they are all there. -/
theorem seq_eq_ok_iff {maker : Checked (α → β)} {field : Checked α} {result : β} :
    maker <*> field = Except.ok result ↔
      ∃ make value, maker = Except.ok make ∧ field = Except.ok value ∧ make value = result := by
  cases (maker : Except (List Fault) (α → β)) with
  | error faults => cases (field : Except (List Fault) α) <;> exact iff_of_false nofun nofun
  | ok make =>
    cases (field : Except (List Fault) α) with
    | error faults => exact iff_of_false nofun nofun
    | ok value =>
      constructor
      · exact fun same => ⟨make, value, rfl, rfl, Except.ok.inj same⟩
      · rintro ⟨_, _, same, too, rfl⟩
        obtain rfl := Except.ok.inj same
        obtain rfl := Except.ok.inj too
        rfl

/-- The faults of a list of checks are those of all of them, in order. -/
theorem faults_all (checks : List (Checked α)) :
    Checked.faults (Fault.all checks) = checks.flatMap Checked.faults := by
  induction checks with
  | nil => rfl
  | cons first rest inductionHypothesis =>
    rw [List.flatMap_cons, ← inductionHypothesis]
    cases (first : Except (List Fault) α) <;>
      cases which : (Fault.all rest : Except (List Fault) (List α)) <;>
        simp [Fault.all, which, Fault.both, Except.map, faults]

/-- The values of a list of checks are there only if each of them is. -/
theorem eq_map_of_all {checks : List (Except (List Fault) α)} {values : List α}
    (all : Fault.all checks = .ok values) : checks = values.map .ok := by
  induction checks generalizing values with
  | nil =>
    obtain rfl := Except.ok.inj all
    rfl
  | cons first rest inductionHypothesis =>
    cases first with
    | error faults =>
      cases which : Fault.all rest <;> simp [Fault.all, which, Fault.both, Except.map] at all
    | ok value =>
      cases which : Fault.all rest with
      | error faults => simp [Fault.all, which, Fault.both, Except.map] at all
      | ok others =>
        obtain rfl : value :: others = values := by
          simpa [Fault.all, which, Fault.both, Except.map] using all
        rw [inductionHypothesis which, List.map_cons]

/-- A check that fails has a fault if it takes one for each of the fields to fail. -/
theorem ne_error_nil_map {change : α → β} {checked : Checked α}
    (reports : checked ≠ Except.error []) : change <$> checked ≠ Except.error [] := by
  cases (checked : Except (List Fault) α) with
  | ok value => exact nofun
  | error faults => exact fun same => reports (congrArg Except.error (Except.error.inj same))

/-- Two checks that report their faults report them together. -/
theorem ne_error_nil_seq {maker : Checked (α → β)} {field : Checked α}
    (reports : maker ≠ Except.error []) (reportsToo : field ≠ Except.error []) :
    maker <*> field ≠ Except.error [] := by
  cases (maker : Except (List Fault) (α → β)) with
  | ok make =>
    cases (field : Except (List Fault) α) with
    | ok value => exact nofun
    | error more => exact fun same => reportsToo (congrArg Except.error (Except.error.inj same))
  | error faults =>
    cases (field : Except (List Fault) α) with
    | ok value => exact fun same => reports (congrArg Except.error (Except.error.inj same))
    | error more =>
      intro same
      have none : faults ++ more = [] := Except.error.inj same
      exact reports (congrArg Except.error (List.append_eq_nil_iff.mp none).1)

/-- Several checks that report their faults report them together. -/
theorem ne_error_nil_all {checks : List (Except (List Fault) α)}
    (report : ∀ check ∈ checks, check ≠ .error []) : Fault.all checks ≠ .error [] := by
  induction checks with
  | nil => exact nofun
  | cons first rest inductionHypothesis =>
    obtain ⟨here, later⟩ := List.forall_mem_cons.mp report
    have further := inductionHypothesis later
    rw [Fault.all]
    cases first <;> cases which : Fault.all rest <;>
      simp_all [Fault.both, Except.map]

/-- A value with faults is not there. -/
theorem eq_error {checked : Checked α} (some : checked.faults ≠ []) :
    checked = Except.error checked.faults := by
  cases which : (checked : Except (List Fault) α) with
  | ok value => exact absurd (by rw [which]; rfl) some
  | error faults => rfl

end GameSidecar.Checked
