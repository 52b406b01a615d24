import OverrideCheck.Proofs.Contract.Compatible
import OverrideCheck.Proofs.Validation.Nearest
import OverrideCheck.Validation.Basic

/-!
# Outcomes

What an outcome is read off. The problems of a method depend on its declaration and on those of
its nearest participating ancestors, and on nothing else of the program: not on the units that
these stand in, nor on their paths, although both go into the contracts that are compared.

* `Validator.ofProgram?_eq_ok_iff`, `Validator.exists_ofProgram?_iff` — what the validator of a
  program consists of, and when there is one;
* `Validator.SameRules` — two methods take part alike and lay down the same rules, or contradict
  themselves alike, as one declaration does in two places;
* `Validator.methodProblems_congr`, `Validator.outcomeOf_congr` — the problems of a method and the
  outcome of a unit depend on nothing else;
* `Validator.outcomeOf_eq_participants` — nor do methods that take no part add anything to it;
* `Validator.getElem?_outcomes_report`, `Validator.report_congr` — a report is the outcomes of the
  units, in order;
* `Validator.isClean_report_iff`, `Validator.methodProblems_eq_nil_iff` — a report is clean when no
  method has a problem, and what that says of a method.
-/

namespace OverrideCheck

/-- The methods of a unit at another index are the same methods, standing there. -/
theorem SourceUnit.methods_eq_map (u : SourceUnit) (i j : Nat) :
    u.methods j = (u.methods i).map fun m => { m with unitIndex := j } := by
  rw [methods, methods, List.map_flatMap]
  refine List.flatMap_congr fun t _ => ?_
  rw [List.map_map]
  rfl

namespace Validator

variable {v w : Validator} {m n : MethodRef}

/-- A program has a validator when it has an index, and the validator relies on that index. -/
theorem ofProgram?_eq_ok_iff {p : Program} {settings : Settings} :
    ofProgram? p settings = .ok v ↔ ∃ index, TypeIndex.ofProgram? p = .ok index ∧
      v = ⟨p, index.overridden, settings.names.reader, settings.unspecified⟩ := by
  rw [ofProgram?]
  cases TypeIndex.ofProgram? p with
  | error name => simp [Except.map]
  | ok index => simp [Except.map, eq_comm]

/-- A program has a validator, under whatever settings, exactly when its types have different
names. -/
theorem exists_ofProgram?_iff {p : Program} {settings : Settings} :
    (∃ v, ofProgram? p settings = .ok v) ↔ p.DistinctTypes := by
  rw [← TypeIndex.exists_ofProgram?_iff]
  simp only [ofProgram?_eq_ok_iff]
  constructor
  · rintro ⟨_, index, hindex, -⟩
    exact ⟨index, hindex⟩
  · rintro ⟨index, hindex⟩
    exact ⟨_, index, hindex, rfl⟩

/-- The validator of a program is one over that program. -/
theorem program_of_ofProgram? {p : Program} {settings : Settings}
    (hv : ofProgram? p settings = .ok v) : v.program = p := by
  obtain ⟨index, -, rfl⟩ := ofProgram?_eq_ok_iff.1 hv
  rfl

/-- The validator of a program reads annotations by the names it is told, and keeps to the policy it
is told. -/
theorem reader_of_ofProgram? {p : Program} {settings : Settings}
    (hv : ofProgram? p settings = .ok v) :
    v.reader = settings.names.reader ∧ v.policy = settings.unspecified := by
  obtain ⟨index, -, rfl⟩ := ofProgram?_eq_ok_iff.1 hv
  exact ⟨rfl, rfl⟩

/-- Who takes part is read off the declaration, by the names of the settings. -/
theorem participates_of_ofProgram? {p : Program} {settings : Settings}
    (hv : ofProgram? p settings = .ok v) (m : MethodRef) :
    v.participates m = settings.names.reader.participates m.method.node := by
  rw [participates, (reader_of_ofProgram? hv).1]

/-! ### Problems -/

/-- The rules of a method's contract are those of its declaration. -/
theorem map_rules_contractOf (v : Validator) (m : MethodRef) :
    (v.contractOf m).map RebindContract.rules = v.reader.rulesOf m.method.node :=
  RebindContract.map_rules_ofMethod? v.reader m.owner m.method (v.program.pathAt m.unitIndex)

/-- Two methods, each under a validator of its own, take part alike, and lay down the same rules or
contradict themselves alike. -/
structure SameRules (v w : Validator) (m n : MethodRef) : Prop where
  participates : v.participates m = w.participates n
  rules : v.reader.rulesOf m.method.node = w.reader.rulesOf n.method.node

/-- Where one declaration stands makes no difference to its rules. -/
theorem SameRules.of_node_eq (hreader : v.reader = w.reader) (hmn : m.method.node = n.method.node) :
    SameRules v w m n where
  participates := by rw [Validator.participates, Validator.participates, hreader, hmn]
  rules := by rw [hreader, hmn]

/-- Methods of the same rules have contracts of these rules, or the same contradictions. -/
theorem SameRules.contractOf (h : SameRules v w m n) :
    (∃ found, v.contractOf m = .error found ∧ w.contractOf n = .error found) ∨
      ∃ c d, v.contractOf m = .ok c ∧ w.contractOf n = .ok d ∧ c.rules = d.rules := by
  have hrules : (v.contractOf m).map RebindContract.rules =
      (w.contractOf n).map RebindContract.rules := by
    calc (v.contractOf m).map RebindContract.rules
        = v.reader.rulesOf m.method.node := v.map_rules_contractOf m
      _ = w.reader.rulesOf n.method.node := h.rules
      _ = (w.contractOf n).map RebindContract.rules := (w.map_rules_contractOf n).symm
  -- both sides succeed or both fail, since `rules` is mapped over successes only
  cases hc : v.contractOf m with
  | error found =>
    cases hd : w.contractOf n with
    | error found' =>
      rw [hc, hd] at hrules
      cases hrules
      exact Or.inl ⟨found, rfl, rfl⟩
    | ok d =>
      rw [hc, hd] at hrules
      cases hrules
  | ok c =>
    cases hd : w.contractOf n with
    | error found' =>
      rw [hc, hd] at hrules
      cases hrules
    | ok d =>
      rw [hc, hd] at hrules
      exact Or.inr ⟨c, d, rfl, rfl, Except.ok.inj hrules⟩

/-- Contracts of the same rules conflict with the same declarations. -/
theorem conflicts_congr {c d : RebindContract} (hcd : c.rules = d.rules)
    (hmn : SameRules v w m n) : v.conflicts c m = w.conflicts d n := by
  unfold conflicts
  rcases hmn.contractOf with ⟨found, hm, hn⟩ | ⟨c', d', hm, hn, hrules⟩
  · rw [hm, hn]
  · rw [hm, hn]
    simp only [RebindContract.compatible_congr hcd hrules]

/-- Contracts of the same rules have as many conflicts with declarations of the same rules. -/
theorem conflictProblems_congr {c d : RebindContract} (hcd : c.rules = d.rules)
    {as bs : List MethodRef} (h : List.Forall₂ (SameRules v w) as bs) :
    ((as.filter (v.conflicts c)).map fun _ => Problem.overrideMustConform) =
      (bs.filter (w.conflicts d)).map fun _ => Problem.overrideMustConform := by
  induction h with
  | nil => rfl
  | cons hab _ ih =>
    rw [List.filter_cons, List.filter_cons, conflicts_congr hcd hab]
    split
    · rw [List.map_cons, List.map_cons, ih]
    · exact ih

/-- A method's problems depend on its rules and on those of its nearest participating ancestors. -/
theorem methodProblems_congr (hpolicy : v.policy = w.policy) (hmn : SameRules v w m n)
    (hnearest : List.Forall₂ (SameRules v w) (v.nearest m) (w.nearest n)) :
    v.methodProblems m = w.methodProblems n := by
  -- of the nearest ancestors the policy only asks whether there are any
  have hempty : (v.nearest m).isEmpty = (w.nearest n).isEmpty := by
    rw [Bool.eq_iff_iff, List.isEmpty_iff_length_eq_zero, List.isEmpty_iff_length_eq_zero,
      hnearest.length_eq]
  unfold methodProblems
  rw [hmn.participates]
  refine if_congr Iff.rfl ?_ rfl
  unfold participantProblems
  rcases hmn.contractOf with ⟨found, hm, hn⟩ | ⟨c, d, hm, hn, hcd⟩
  · rw [hm, hn]
  · have hsource : c.typeSource = d.typeSource := congrArg Prod.fst hcd
    have hmisses : v.missesType c (v.nearest m) = w.missesType d (w.nearest n) := by
      rw [missesType, missesType, hsource, hpolicy, hempty]
    rw [hm, hn]
    simp only [hmisses, conflictProblems_congr hcd hnearest]

/-! ### Outcomes and reports -/

/-- The outcome of a unit is that of its participating methods. -/
theorem outcomeOf_eq_participants (v : Validator) (u : SourceUnit) (i : Nat) :
    v.outcomeOf u i = closeUnit u.path
      (((u.methods i).filter v.participates).flatMap (v.methodDiagnostics u.path))
      ((u.methods i).filter v.participates).length := by
  rw [outcomeOf]
  congr 1
  induction u.methods i with
  | nil => rfl
  | cons m rest ih =>
    rw [List.flatMap_cons, List.filter_cons, ih]
    split
    · rw [List.flatMap_cons]
    · next hm =>
      -- a method that takes no part has nothing to add
      rw [methodDiagnostics, methodProblems, if_neg hm]
      rfl

/-- Units of one path have the same outcome, if their participating methods stand at the same
positions and have the same problems. -/
theorem outcomeOf_congr_participants {u u' : SourceUnit} {i j : Nat} (hpath : u.path = u'.path)
    (hmethods : List.Forall₂
      (fun m n => m.method.position = n.method.position ∧ v.methodProblems m = w.methodProblems n)
      ((u.methods i).filter v.participates) ((u'.methods j).filter w.participates)) :
    v.outcomeOf u i = w.outcomeOf u' j := by
  rw [outcomeOf_eq_participants, outcomeOf_eq_participants, ← hpath]
  generalize (u.methods i).filter v.participates = ms at hmethods ⊢
  generalize (u'.methods j).filter w.participates = ns at hmethods ⊢
  -- the findings and the number of participating methods, one after the other
  congr 1
  · induction hmethods with
    | nil => rfl
    | cons hmn _ ih =>
      obtain ⟨hposition, hproblems⟩ := hmn
      rw [List.flatMap_cons, List.flatMap_cons, ih, methodDiagnostics, methodDiagnostics,
        hposition, hproblems]
  · exact hmethods.length_eq

/-- Units of one path have the same outcome, if their methods stand at the same positions, take part
alike and have the same problems. -/
theorem outcomeOf_congr {u u' : SourceUnit} {i j : Nat} (hpath : u.path = u'.path)
    (hmethods : List.Forall₂ (fun m n => m.method.position = n.method.position ∧
      v.participates m = w.participates n ∧ v.methodProblems m = w.methodProblems n)
      (u.methods i) (u'.methods j)) :
    v.outcomeOf u i = w.outcomeOf u' j := by
  refine outcomeOf_congr_participants hpath ?_
  have hfiltered := List.rel_filter (p := v.participates) (q := w.participates)
    (fun _ _ hmn => by simp only [hmn.2.1]) hmethods
  exact hfiltered.imp fun _ _ hmn => ⟨hmn.1, hmn.2.2⟩

/-- A report lists the outcomes of the units, in order. -/
theorem getElem?_outcomes_report (v : Validator) (i : Nat) :
    v.report.outcomes[i]? = v.unitOutcome? i := by
  rw [report, unitOutcome?, List.getElem?_map, List.getElem?_zipIdx, Option.map_map]
  simp [Function.comp_def]

/-- Validators that give every unit the same outcome give the same report. -/
theorem report_congr (h : ∀ i, v.unitOutcome? i = w.unitOutcome? i) : v.report = w.report := by
  refine congrArg ProgramReport.mk (List.ext_getElem? fun i => ?_)
  exact (v.getElem?_outcomes_report i).trans ((h i).trans (w.getElem?_outcomes_report i).symm)

/-- A unit is clean exactly when none of its methods has a problem. -/
theorem isClean_outcomeOf_iff {u : SourceUnit} {i : Nat} :
    (v.outcomeOf u i).isClean = true ↔ ∀ m ∈ u.methods i, v.methodProblems m = [] := by
  -- a method contributes as many diagnostics as it has problems
  have hfound : ((u.methods i).flatMap (v.methodDiagnostics u.path) = []) ↔
      ∀ m ∈ u.methods i, v.methodProblems m = [] := by
    simp [List.flatMap_eq_nil_iff, methodDiagnostics]
  rw [← hfound, outcomeOf]
  cases (u.methods i).flatMap (v.methodDiagnostics u.path) with
  | nil => simp [closeUnit, UnitOutcome.isClean, UnitOutcome.failure?]
  | cons d rest => simp [closeUnit, UnitOutcome.isClean, UnitOutcome.failure?]

/-- A report is clean exactly when no method of the program has a problem. -/
theorem isClean_report_iff :
    v.report.isClean = true ↔ ∀ m ∈ v.program.methods, v.methodProblems m = [] := by
  simp only [ProgramReport.isClean, report, List.all_eq_true, List.mem_map, Prod.exists,
    List.mem_zipIdx_iff_getElem?, Program.methods, List.mem_flatMap]
  constructor
  · rintro h m ⟨u, i, hu, hm⟩
    exact isClean_outcomeOf_iff.1 (h _ ⟨u, i, hu, rfl⟩) m hm
  · rintro h _ ⟨u, i, hu, rfl⟩
    exact isClean_outcomeOf_iff.2 fun m hm => h m ⟨u, i, hu, hm⟩

/-- A method that takes part has no problems exactly when it has a contract, the policy does not
refuse it, and none of its nearest participating ancestors conflicts with it. -/
theorem methodProblems_eq_nil_iff (hm : v.participates m = true) :
    v.methodProblems m = [] ↔ ∃ c, v.contractOf m = .ok c ∧ v.missesType c (v.nearest m) = false ∧
      ∀ a ∈ v.nearest m, v.conflicts c a = false := by
  rw [methodProblems, if_pos hm, participantProblems]
  cases hc : v.contractOf m with
  | error found => simp [RebindContract.ne_nil_of_ofMethod?_eq_error hc]
  | ok c =>
    simp only [Except.ok.injEq, exists_eq_left']
    -- a missing type hides the conflicts, so it comes before them here too
    cases v.missesType c (v.nearest m) with
    | true => simp
    | false => simp [List.filter_eq_nil_iff]

end Validator

end OverrideCheck
