import OverrideCheck.Check
import OverrideCheck.Proofs.Validation.Outcome

/-!
# Answers

The report on a program and the list of its contracts are two questions to one validator. Either is
refused when there is no validator, which is when a type name occurs twice, and the refusal says
nothing of the question: it gives the name.

* `map_validatorFor_of_ofProgram?`, `checkProgram_eq_report`, `contractsOf_eq_contracts` — what the
  answers for an accepted program are;
* `map_validatorFor_eq_error_iff` — when they are refused, and why;
* `map_validatorFor_congr` — programs of the same type names get the same answers if their
  validators give the same.
-/

namespace OverrideCheck

variable {α : Type} {f : Validator → α} {p q : Program} {settings : Settings} {v : Validator}

/-- A question about an accepted program is answered by its validator. -/
theorem map_validatorFor_of_ofProgram? (hv : Validator.ofProgram? p settings = .ok v)
    (f : Validator → α) : (validatorFor p settings).map f = .ok (f v) := by
  rw [validatorFor, hv]
  rfl

theorem checkProgram_eq_report (hv : Validator.ofProgram? p settings = .ok v) :
    checkProgram p settings = .ok v.report :=
  map_validatorFor_of_ofProgram? hv _

theorem contractsOf_eq_contracts (hv : Validator.ofProgram? p settings = .ok v) :
    contractsOf p settings = .ok v.contracts :=
  map_validatorFor_of_ofProgram? hv _

/-- A program has a validator, or its types cannot be indexed. -/
theorem ofProgram?_cases (p : Program) (settings : Settings) :
    (∃ v, Validator.ofProgram? p settings = .ok v) ∨
      ∃ name, TypeIndex.ofProgram? p = .error name ∧
        Validator.ofProgram? p settings = .error name := by
  cases h : TypeIndex.ofProgram? p with
  | error name => exact Or.inr ⟨name, rfl, by rw [Validator.ofProgram?, h]; rfl⟩
  | ok index => exact Or.inl ⟨_, Validator.ofProgram?_eq_ok_iff.2 ⟨index, h, rfl⟩⟩

/-- An answer is one of the program's validator. -/
theorem map_validatorFor_eq_ok_iff {a : α} : (validatorFor p settings).map f = .ok a ↔
    ∃ v, Validator.ofProgram? p settings = .ok v ∧ f v = a := by
  rcases ofProgram?_cases p settings with ⟨v, hv⟩ | ⟨name, -, hv⟩
  · simp [map_validatorFor_of_ofProgram? hv, hv]
  · simp [validatorFor, hv, Except.mapError, Except.map]

/-- Whatever is asked about a program, it is refused when its types cannot be indexed, for the name
that occurs twice. -/
theorem map_validatorFor_eq_error_iff {failure : Failure} :
    (validatorFor p settings).map f = .error failure ↔
      ∃ name, TypeIndex.ofProgram? p = .error name ∧ failure = .repeatedType name := by
  rcases ofProgram?_cases p settings with ⟨v, hv⟩ | ⟨name, hindex, hv⟩
  · obtain ⟨index, hindex, -⟩ := Validator.ofProgram?_eq_ok_iff.1 hv
    simp [map_validatorFor_of_ofProgram? hv, hindex]
  · simp [validatorFor, hv, hindex, Except.mapError, Except.map, eq_comm]

/-- Programs of the same type names are refused alike, and answered alike if their validators answer
alike. -/
theorem map_validatorFor_congr (hnames : p.types.map (·.name) = q.types.map (·.name))
    (h : ∀ v w, Validator.ofProgram? p settings = .ok v → Validator.ofProgram? q settings = .ok w →
      f v = f w) :
    (validatorFor p settings).map f = (validatorFor q settings).map f := by
  -- whether a program is refused, and for which name, is settled by its type names
  have hrefused (name : String) :
      TypeIndex.ofProgram? p = .error name ↔ TypeIndex.ofProgram? q = .error name := by
    rw [TypeIndex.ofProgram?_eq_error_iff, TypeIndex.ofProgram?_eq_error_iff, hnames]
  rcases ofProgram?_cases p settings with ⟨v, hv⟩ | ⟨name, hindex, hv⟩
  · rcases ofProgram?_cases q settings with ⟨w, hw⟩ | ⟨name, hindex, -⟩
    · -- both are accepted, and it is left to the validators to answer alike
      rw [map_validatorFor_of_ofProgram? hv, map_validatorFor_of_ofProgram? hw, h v w hv hw]
    · obtain ⟨index, hindex', -⟩ := Validator.ofProgram?_eq_ok_iff.1 hv
      cases hindex'.symm.trans ((hrefused name).2 hindex)
  · have hw : Validator.ofProgram? q settings = .error name := by
      rw [Validator.ofProgram?, (hrefused name).1 hindex]
      rfl
    rw [validatorFor, validatorFor, hv, hw]

end OverrideCheck
