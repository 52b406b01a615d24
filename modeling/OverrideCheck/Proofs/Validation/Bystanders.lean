import OverrideCheck.Proofs.Hierarchy.Completeness
import OverrideCheck.Proofs.Hierarchy.Redeclared
import OverrideCheck.Proofs.Validation.Answers
import OverrideCheck.Proofs.Validation.Due

/-!
# Bystanders

A method that takes no part in the protocol is a bystander: nothing is said of it, and it says
nothing about others. `check_without_bystanders` makes this an equation between two runs. Delete any
set of bystanders from the types that declare them, and the check gives the report and the contracts
that it gave before.

* `Program.without`, `MethodRef.without` — a program with some of its methods deleted, and a method
  that is left;
* `Program.DistinctSignatures` — no type declares two methods of one erased signature;
* `TypeIndex.overridden_without` — a method that is left overrides what it overrode, less what is
  deleted;
* `Validator.nearest_without` — so it is compared with what it was compared with;
* `Validator.report_without`, `Validator.contracts_without` — so the answers are what they were.

The condition on signatures is needed for the second step. Where a type declares a signature twice,
only the first declaration is ever found, and deleting it uncovers the second one.
-/

namespace OverrideCheck

/-- The methods of the type, in the unit at index `k`, that are left when those picked by `drop` are
deleted. -/
def keptMethods (drop : MethodRef → Bool) (k : Nat) (t : TypeDecl) : List (Located MethodDecl) :=
  t.methods.filter fun d => !drop ⟨k, t, d⟩

/-- The program without the methods that `drop` picks. -/
def Program.without (drop : MethodRef → Bool) (p : Program) : Program :=
  p.redeclare (keptMethods drop)

/-- A method of the program in which the methods that `drop` picks are deleted. -/
def MethodRef.without (drop : MethodRef → Bool) (m : MethodRef) : MethodRef :=
  { m with owner := m.owner.redeclare (keptMethods drop) m.unitIndex }

/-- No type declares two methods of one erased signature. -/
def Program.DistinctSignatures (p : Program) : Prop :=
  ∀ t ∈ p.types, (t.methods.map (·.node.erasedSignature)).Nodup

instance (p : Program) : Decidable p.DistinctSignatures :=
  inferInstanceAs (Decidable (∀ t ∈ p.types, _))

variable {drop : MethodRef → Bool} {p : Program}

/-! ### What is left -/

/-- Where no key occurs twice, a search among what is left of a list finds what it found, if that is
left. -/
theorem find?_filter_of_nodup {α κ : Type} [DecidableEq κ] {key : α → κ} {xs : List α}
    (h : (xs.map key).Nodup) (q : α → Bool) (k : κ) :
    (xs.filter q).find? (fun x => decide (key x = k)) =
      (xs.find? fun x => decide (key x = k)).filter q := by
  induction xs with
  | nil => rfl
  | cons x rest ih =>
    obtain ⟨hfirst, hrest⟩ := List.nodup_cons.1 h
    by_cases hk : key x = k
    · -- nothing behind `x` has its key, so without `x` nothing is found
      have hnone : (rest.filter q).find? (fun x => decide (key x = k)) = none := by
        refine List.find?_eq_none.2 fun y hy => ?_
        have hne : key y ≠ k := fun heq =>
          hfirst (hk ▸ heq ▸ List.mem_map_of_mem (List.mem_filter.1 hy).1)
        simpa using hne
      rw [List.filter_cons]
      split
      · next hq => simp [hk, hq, Option.filter_some]
      · next hq => simp [hk, hq, hnone, Option.filter_some]
    · rw [List.filter_cons]
      split
      · simp [hk, ih hrest]
      · simp [hk, ih hrest]

/-- Under a signature a type has the method it had, if that is left. -/
theorem declaration?_redeclare_keptMethods {e : TypeEntry}
    (h : (e.decl.methods.map (·.node.erasedSignature)).Nodup) (key : ErasedSignature) :
    (e.redeclare (keptMethods drop)).declaration? key =
      ((e.declaration? key).filter fun d => !drop d).map (·.without drop) := by
  have hfind : (e.decl.redeclare (keptMethods drop) e.unitIndex).findMethod? key =
      (e.decl.findMethod? key).filter fun d => !drop ⟨e.unitIndex, e.decl, d⟩ :=
    find?_filter_of_nodup h _ key
  -- the search is made on declarations, and `drop` is asked of methods with their owners
  rw [TypeEntry.declaration?, TypeEntry.declaration?, TypeEntry.redeclare, hfind, Option.filter_map,
    Option.map_map]
  rfl

theorem SourceUnit.methods_redeclare_keptMethods (u : SourceUnit) (k : Nat) :
    (u.redeclare (keptMethods drop) k).methods k =
      ((u.methods k).filter fun m => !drop m).map (·.without drop) := by
  rw [methods_redeclare, methods, List.filter_flatMap, List.map_flatMap]
  refine List.flatMap_congr fun t _ => ?_
  rw [List.filter_map, List.map_map]
  rfl

/-- The methods of the program are those it had, less those that are deleted. -/
theorem Program.methods_without :
    (p.without drop).methods = (p.methods.filter fun m => !drop m).map (·.without drop) := by
  rw [without, methods_redeclare, methods, List.filter_flatMap, List.map_flatMap]
  refine List.flatMap_congr ?_
  rintro ⟨u, k⟩ -
  exact u.methods_redeclare_keptMethods k

theorem Program.pathAt_without (k : Nat) : (p.without drop).pathAt k = p.pathAt k := by
  rw [pathAt, pathAt, without, redeclare, List.getElem?_mapIdx]
  cases p.units[k]? with
  | none => rfl
  | some u => exact u.path_redeclare k

/-- A method overrides what it overrode, on the same branches, less what is deleted. -/
theorem TypeIndex.overridden_without {i j : TypeIndex} (hi : ofProgram? p = .ok i)
    (hj : ofProgram? (p.without drop) = .ok j) (hsignatures : p.DistinctSignatures)
    (m : MethodRef) :
    j.overridden (m.without drop) = ((i.overridden m).filter fun a => !drop a.decl).map
      fun a => ⟨a.branch, a.decl.without drop⟩ := by
  rw [overridden_redeclare hi hj (m := m) (n := m.without drop) rfl rfl, overridden,
    List.filter_flatMap, List.map_flatMap]
  -- the branches are the same ones, so it is enough to compare what is found in each type
  refine List.flatMap_congr ?_
  rintro ⟨es, branch⟩ hes
  simp only [List.filter_filterMap, List.map_filterMap]
  refine List.filterMap_congr fun e he => ?_
  -- what stands on a branch is a type of the program, which declares no signature twice
  have hentry : i.find? e.name = some e := by
    refine (i.branchTypesFrom_explores [m.owner.name] m.owner.directSupertypes).find?_of_mem ?_
    rw [← branches_eq]
    exact List.mem_flatten_of_mem (List.fst_mem_of_mem_zipIdx hes) he
  have hnodup := hsignatures e.decl (decl_mem_types hi hentry)
  rw [declaration?_redeclare_keptMethods hnodup, Option.filter_map, Option.map_map, Option.map_map]
  rfl

namespace Validator

variable {settings : Settings} {v w : Validator}

/-- A program without some of its methods is accepted if it was accepted with them. -/
theorem exists_ofProgram?_without (drop : MethodRef → Bool)
    (hv : ofProgram? p settings = .ok v) : ∃ w, ofProgram? (p.without drop) settings = .ok w := by
  rw [exists_ofProgram?_iff, Program.without, Program.distinctTypes_redeclare_iff]
  exact exists_ofProgram?_iff.1 ⟨v, hv⟩

section Deleted

variable (hv : ofProgram? p settings = .ok v) (hw : ofProgram? (p.without drop) settings = .ok w)

include hv hw

theorem participates_without (m : MethodRef) :
    w.participates (m.without drop) = v.participates m := by
  rw [participates_of_ofProgram? hv, participates_of_ofProgram? hw]
  rfl

theorem contractOf_without (m : MethodRef) : w.contractOf (m.without drop) = v.contractOf m := by
  rw [contractOf, contractOf, program_of_ofProgram? hv, program_of_ofProgram? hw,
    (reader_of_ofProgram? hv).1, (reader_of_ofProgram? hw).1]
  -- of the owner a contract takes the name, which is kept, and of the unit the path
  exact congrArg (RebindContract.ofMethod? _ _ _) (Program.pathAt_without m.unitIndex)

variable (hsignatures : p.DistinctSignatures)
  (hdrop : ∀ m ∈ p.methods, drop m = true → v.participates m = false)

include hdrop

omit hv hw in
theorem drop_eq_false_of_participates {m : MethodRef} (hm : m ∈ p.methods)
    (hpart : v.participates m = true) : drop m = false :=
  Bool.eq_false_iff.2 fun hdropped => Bool.eq_false_iff.1 (hdrop m hm hdropped) hpart

/-- The participating methods of a list are all left. -/
theorem filter_participates_without {ms : List MethodRef} (hms : ms ⊆ p.methods) :
    ((ms.filter fun m => !drop m).map (·.without drop)).filter w.participates =
      (ms.filter v.participates).map (·.without drop) := by
  rw [List.filter_map, List.filter_filter]
  refine congrArg (List.map _) (List.filter_congr fun m hm => ?_)
  rw [Function.comp_apply, participates_without hv hw]
  -- who takes part passes both tests on the left, and who does not fails the second one
  cases hpart : v.participates m with
  | false => rfl
  | true =>
    rw [drop_eq_false_of_participates hdrop (hms hm) hpart]
    rfl

include hsignatures

/-- A method is compared with what it was compared with. -/
theorem nearest_without (m : MethodRef) :
    w.nearest (m.without drop) = (v.nearest m).map (·.without drop) := by
  have hpart (d : MethodRef) : w.reader.participates (d.without drop).method.node =
      v.reader.participates d.method.node := participates_without hv hw d
  have hlookup : w.lookup (m.without drop) = ((v.lookup m).filter fun a => !drop a.decl).map
      fun a => ⟨a.branch, a.decl.without drop⟩ := by
    obtain ⟨i, hi, rfl⟩ := ofProgram?_eq_ok_iff.1 hv
    obtain ⟨j, hj, rfl⟩ := ofProgram?_eq_ok_iff.1 hw
    exact TypeIndex.overridden_without hi hj hsignatures m
  rw [nearest, nearest, hlookup, nearestParticipating_map hpart, nearestParticipating_filter]
  -- whoever is deleted takes no part, so everyone who does is left
  intro a ha hpart
  obtain ⟨i, hi, rfl⟩ := ofProgram?_eq_ok_iff.1 hv
  have hmem : a.decl ∈ p.methods := TypeIndex.overridden_mem_methods hi ha
  rw [drop_eq_false_of_participates hdrop hmem hpart]
  rfl

theorem methodProblems_without (m : MethodRef) :
    w.methodProblems (m.without drop) = v.methodProblems m := by
  obtain ⟨hreader, hpolicy⟩ := reader_of_ofProgram? hv
  obtain ⟨hreader', hpolicy'⟩ := reader_of_ofProgram? hw
  -- the owner has lost methods, but the declaration itself is untouched
  have hsame (d : MethodRef) : SameRules w v (d.without drop) d :=
    .of_node_eq (hreader'.trans hreader.symm) rfl
  refine methodProblems_congr (hpolicy'.trans hpolicy.symm) (hsame m) ?_
  rw [nearest_without hv hw hsignatures hdrop, List.forall₂_map_left_iff, List.forall₂_same]
  exact fun a _ => hsame a

theorem unitOutcome?_without (k : Nat) : w.unitOutcome? k = v.unitOutcome? k := by
  rw [unitOutcome?, unitOutcome?, program_of_ofProgram? hv, program_of_ofProgram? hw,
    Program.without, Program.redeclare, List.getElem?_mapIdx, Option.map_map]
  cases hu : p.units[k]? with
  | none => rfl
  | some u =>
    -- the unit stands where it stood, so its methods keep the index they are known by
    have hmem : u.methods k ⊆ p.methods := fun m hm => by
      obtain rfl := (SourceUnit.mem_methods_iff.1 hm).1
      exact Program.mem_methods_iff.2 ⟨u, hu, hm⟩
    refine congrArg some (outcomeOf_congr_participants (u.path_redeclare k) ?_)
    rw [u.methods_redeclare_keptMethods, filter_participates_without hv hw hdrop hmem,
      List.forall₂_map_left_iff, List.forall₂_same]
    exact fun m _ => ⟨rfl, methodProblems_without hv hw hsignatures hdrop m⟩

theorem report_without : w.report = v.report :=
  report_congr (unitOutcome?_without hv hw hsignatures hdrop)

-- contracts are made without any lookup, so signatures may repeat
omit hsignatures in
theorem contracts_without : w.contracts = v.contracts := by
  rw [contracts, contracts, program_of_ofProgram? hv, program_of_ofProgram? hw,
    Program.methods_without, filter_participates_without hv hw hdrop (List.Subset.refl _),
    List.filterMap_map]
  refine List.filterMap_congr fun m _ => ?_
  rw [Function.comp_apply, contractOf_without hv hw]

end Deleted

end Validator

/-- **Methods outside the protocol are invisible.** Take an accepted program in which no type
declares two methods of one erased signature, under any settings, and delete any set of methods that
take no part in the protocol. The report on what is left is the report on the program, outcome by
outcome, and its contracts are those of the program.

Nor do such methods matter as ancestors. A participating declaration that a method overrides is
compared with it whoever else stands before it on its branch, as long as nobody there takes part;
and where an override has to give a type, a method that has a contract without one is refused
exactly when it overrides a declaration that takes part. -/
theorem check_without_bystanders {p : Program} {settings : Settings} {v : Validator}
    (hv : Validator.ofProgram? p settings = .ok v) (hsignatures : p.DistinctSignatures)
    (drop : MethodRef → Bool)
    (hdrop : ∀ m ∈ p.methods, drop m = true → v.participates m = false) :
    (checkProgram p settings = .ok v.report ∧
      checkProgram (p.without drop) settings = .ok v.report) ∧
    (contractsOf p settings = .ok v.contracts ∧
      contractsOf (p.without drop) settings = .ok v.contracts) ∧
    (∀ m before a after, v.lookup m = before ++ a :: after → v.participates a.decl = true →
      (∀ b ∈ before, b.branch = a.branch → v.participates b.decl = false) →
      a.decl ∈ v.nearest m) ∧
    (v.policy = .denyOnOverride → ∀ m c, v.participates m = true → v.contractOf m = .ok c →
      c.typeSource = .unspecified →
      (.missingType ∈ v.methodProblems m ↔ ∃ a ∈ v.lookup m, v.participates a.decl = true)) := by
  -- deleting methods keeps the names of the types, so what is left has a validator of its own
  obtain ⟨w, hw⟩ := Validator.exists_ofProgram?_without drop hv
  refine ⟨⟨checkProgram_eq_report hv, ?_⟩, ⟨contractsOf_eq_contracts hv, ?_⟩, ?_, ?_⟩
  · rw [checkProgram_eq_report hw, Validator.report_without hv hw hsignatures hdrop]
  · rw [contractsOf_eq_contracts hw, Validator.contracts_without hv hw hdrop]
  · intro m before a after hlookup hpart hbefore
    rw [Validator.nearest, hlookup]
    exact mem_nearestParticipating_of_first hpart hbefore
  · intro hpolicy m c hpart hc hsource
    -- under this policy a type is due for no other reason than such a declaration
    have hdue : v.TypeDue m c ↔ ∃ a ∈ v.lookup m, v.participates a.decl = true := by
      simp [Validator.TypeDue, hsource, hpolicy]
    rw [v.methodProblems_eq_due, Validator.dueProblems, if_pos hpart, hc, ← hdue]
    by_cases h : v.TypeDue m c
    · simp [h]
    · simp [h]

/-! ### A bystander between a method and the declaration it overrides -/

namespace Passed

/-- A method under the protocol that names no type. -/
def foo : MethodDecl :=
  { name := "foo", annotations := [{ name := "com.google.gwt.core.shared.Rebind" }] }

/-- An interface that declares it. -/
def api : TypeDecl :=
  { name := "test.Api", kind := .interfaceKind, methods := [⟨foo, .atLine 4⟩] }

/-- A class that implements the interface, and overrides the method without taking part. -/
def middle : TypeDecl :=
  { name := "test.Middle", kind := .classKind, interfaces := ["test.Api"]
    methods := [⟨{ foo with annotations := [] }, .atLine 6⟩] }

/-- A class that extends it, and overrides the method under the protocol. -/
def impl : TypeDecl :=
  { name := "test.Impl", kind := .classKind, superclass := some "test.Middle"
    methods := [⟨foo, .atLine 8⟩] }

/-- The three types, each in a unit of its own. -/
def program : Program :=
  ⟨[{ types := [⟨api, .atLine 3⟩] }, { types := [⟨middle, .atLine 5⟩] },
    { types := [⟨impl, .atLine 7⟩] }]⟩

/-- An override has to give a type. -/
def settings : Settings := { unspecified := .denyOnOverride }

def inApi : MethodRef := ⟨0, api, ⟨foo, .atLine 4⟩⟩

def inMiddle : MethodRef := ⟨1, middle, ⟨{ foo with annotations := [] }, .atLine 6⟩⟩

def inImpl : MethodRef := ⟨2, impl, ⟨foo, .atLine 8⟩⟩

/-- Picks what the class in the middle declares. -/
def ofMiddle (m : MethodRef) : Bool := m.owner.name == "test.Middle"

/-- The method of the last class passes over the one in the middle, is compared with that of the
interface and refused for it; and deleting the one in the middle changes nothing. -/
theorem middle_passed_over : ∃ v, Validator.ofProgram? program settings = .ok v ∧
    program.DistinctSignatures ∧
    (∀ m ∈ program.methods, ofMiddle m = true → v.participates m = false) ∧
    (program.without ofMiddle).methods.length = 2 ∧
    checkProgram (program.without ofMiddle) settings = checkProgram program settings ∧
    contractsOf (program.without ofMiddle) settings = contractsOf program settings ∧
    v.lookup inImpl = [⟨0, inMiddle⟩, ⟨0, inApi⟩] ∧ inApi ∈ v.nearest inImpl ∧
    .missingType ∈ v.methodProblems inImpl := by
  obtain ⟨index, h⟩ := TypeIndex.exists_ofProgram?_iff.2 (show program.DistinctTypes by decide)
  have hv : Validator.ofProgram? program settings = .ok _ :=
    Validator.ofProgram?_eq_ok_iff.2 ⟨index, h, rfl⟩
  have hlookup : index.overridden inImpl = [⟨0, inMiddle⟩, ⟨0, inApi⟩] := by
    have hfound : (TypeIndex.ofProgram? program).map (·.overridden inImpl) =
        .ok [⟨0, inMiddle⟩, ⟨0, inApi⟩] := by cbv
    rw [h] at hfound
    exact Except.ok.inj hfound
  have hsignatures : program.DistinctSignatures := by decide
  have hdrop : ∀ m ∈ program.methods, ofMiddle m = true →
      settings.names.reader.participates m.method.node = false := by decide
  have hfoo : settings.names.reader.participates foo = true := by decide
  have hmiddle : settings.names.reader.participates inMiddle.method.node = false := by decide
  obtain ⟨⟨hreport, hreport'⟩, ⟨hcontracts, hcontracts'⟩, hpassed, hrefused⟩ :=
    check_without_bystanders hv hsignatures ofMiddle hdrop
  refine ⟨_, hv, hsignatures, hdrop, by decide, hreport'.trans hreport.symm,
    hcontracts'.trans hcontracts.symm, hlookup, ?_, ?_⟩
  · refine hpassed inImpl [⟨0, inMiddle⟩] ⟨0, inApi⟩ [] hlookup hfoo fun b hb _ => ?_
    rw [List.mem_singleton.1 hb]
    exact hmiddle
  · have happly : ⟨0, inApi⟩ ∈ index.overridden inImpl := by simp [hlookup]
    exact (hrefused rfl inImpl _ hfoo rfl rfl).2 ⟨⟨0, inApi⟩, happly, hfoo⟩

end Passed

end OverrideCheck
