import OverrideCheck.Contract.Compare
import OverrideCheck.Contract.Extract

/-!
# Compatible contracts

Two contracts are compatible when their type sources agree and their roles are equal
(`RebindContract.compatible_iff`). Both parts are equivalences, so compatibility is one
(`RebindContract.Compatible.refl`, `symm`, `trans`), and it sees nothing of a contract but the two
parts, its rules:

* `RebindContract.rules` — the type source and the roles of a contract;
* `AnnotationReader.rulesOf` — the rules of a method declaration, or its contradictions;
* `RebindContract.map_rules_ofMethod?` — a method's contract has the rules of its declaration,
  whichever type declares it and in whichever file.

The last lemma is what lets a contract be built anew for another file, another unit index or
another owner without any comparison taking notice.
-/

namespace OverrideCheck

namespace TypeSource

/-- A source agrees with itself. -/
theorem agrees_refl (a : TypeSource) : a.agrees a = true := by
  cases a with
  | explicit className => simp [agrees]
  | parameter index => rfl
  | unspecified => rfl

/-- Agreement does not depend on which of two sources is the overriding one. -/
theorem agrees_comm (a b : TypeSource) : a.agrees b = b.agrees a := by
  cases a <;> cases b <;> simp [agrees, Bool.beq_comm]

/-- Sources that agree with one source agree with each other. -/
theorem agrees_trans {a b c : TypeSource} (hab : a.agrees b = true) (hbc : b.agrees c = true) :
    a.agrees c = true := by
  cases a <;> cases b <;> cases c <;> simp_all [agrees]

end TypeSource

/-- Lists of roles of one length differ nowhere exactly when they are equal. -/
theorem roleMismatches_eq_nil_iff {children ancestors : List ParamRole} (index : Nat)
    (hlength : children.length = ancestors.length) :
    roleMismatches index children ancestors = [] ↔ children = ancestors := by
  induction children generalizing index ancestors with
  | nil =>
    obtain rfl := List.eq_nil_of_length_eq_zero hlength.symm
    simp [roleMismatches]
  | cons child children ih =>
    cases ancestors with
    | nil => cases hlength
    | cons ancestor ancestors =>
      rw [roleMismatches, List.append_eq_nil_iff, ih (index + 1) (Nat.succ.inj hlength),
        List.cons.injEq]
      -- the others agree already, so it is the first position that decides
      refine and_congr_left fun _ => ?_
      by_cases heq : child = ancestor
      · simp [heq]
      · simp [heq]

namespace RebindContract

/-- Contracts are compatible when their type sources agree and their roles are equal. -/
theorem compatible_iff {child ancestor : RebindContract} :
    child.Compatible ancestor ↔
      child.typeSource.agrees ancestor.typeSource = true ∧ child.roles = ancestor.roles := by
  rw [Compatible, mismatches, List.append_eq_nil_iff, List.append_eq_nil_iff]
  constructor
  · -- each of the three parts is empty, so each of the three tests has succeeded
    rintro ⟨⟨hsource, hcount⟩, hroles⟩
    have hlength : child.roles.length = ancestor.roles.length := by
      by_cases heq : child.roles.length = ancestor.roles.length
      · exact heq
      · rw [if_neg heq] at hcount
        cases hcount
    refine ⟨?_, (roleMismatches_eq_nil_iff 0 hlength).1 hroles⟩
    by_cases hagree : child.typeSource.agrees ancestor.typeSource = true
    · exact hagree
    · rw [if_neg hagree] at hsource
      cases hsource
  · rintro ⟨hsource, hroles⟩
    have hlength := congrArg List.length hroles
    exact ⟨⟨if_pos hsource, if_pos hlength⟩, (roleMismatches_eq_nil_iff 0 hlength).2 hroles⟩

/-- A contract is compatible with itself. -/
protected theorem Compatible.refl (c : RebindContract) : c.Compatible c :=
  compatible_iff.2 ⟨c.typeSource.agrees_refl, rfl⟩

/-- Which of two compatible contracts overrides the other makes no difference. -/
protected theorem Compatible.symm {c d : RebindContract} (h : c.Compatible d) : d.Compatible c := by
  obtain ⟨hsource, hroles⟩ := compatible_iff.1 h
  exact compatible_iff.2 ⟨by rwa [TypeSource.agrees_comm], hroles.symm⟩

/-- Contracts compatible with one contract are compatible with each other. -/
protected theorem Compatible.trans {c d e : RebindContract} (hcd : c.Compatible d)
    (hde : d.Compatible e) : c.Compatible e := by
  obtain ⟨hsource, hroles⟩ := compatible_iff.1 hcd
  obtain ⟨hsource', hroles'⟩ := compatible_iff.1 hde
  exact compatible_iff.2 ⟨TypeSource.agrees_trans hsource hsource', hroles.trans hroles'⟩

/-! ### The rules of a contract -/

/-- What a contract lays down: where the type comes from, and the part of each parameter. -/
def rules (c : RebindContract) : TypeSource × List ParamRole := (c.typeSource, c.roles)

/-- Contracts of the same rules are compatible with the same contracts. -/
theorem compatible_congr {c c' d d' : RebindContract} (hc : c.rules = c'.rules)
    (hd : d.rules = d'.rules) : c.Compatible d ↔ c'.Compatible d' := by
  simp only [rules, Prod.mk.injEq] at hc hd
  rw [compatible_iff, compatible_iff, hc.1, hc.2, hd.1, hd.2]

end RebindContract

/-- A method without a contract has annotations that contradict each other. -/
theorem RebindContract.ne_nil_of_ofMethod?_eq_error {r : AnnotationReader} {owner : TypeDecl}
    {method : Located MethodDecl} {file : String} {found : List Contradiction}
    (h : ofMethod? r owner method file = .error found) : found ≠ [] := by
  rw [ofMethod?] at h
  split at h
  · cases h
  · next hne =>
    cases h
    exact hne

/-- The rules of a method declaration, or the contradictions that stand in their way. -/
def AnnotationReader.rulesOf (r : AnnotationReader) (d : MethodDecl) :
    Except (List Contradiction) (TypeSource × List ParamRole) :=
  let roles := d.params.map r.roleOf
  match contradictions (r.explicitTypeOf d) (typeCarriers roles) with
  | [] => .ok (.ofParts (r.explicitTypeOf d) (typeCarriers roles), roles)
  | found => .error found

/-- A method has the rules of its declaration, whichever type and file it is declared in. -/
theorem RebindContract.map_rules_ofMethod? (r : AnnotationReader) (owner : TypeDecl)
    (method : Located MethodDecl) (file : String) :
    (ofMethod? r owner method file).map rules = r.rulesOf method.node := by
  rw [ofMethod?, AnnotationReader.rulesOf]
  cases contradictions (r.explicitTypeOf method.node)
      (typeCarriers (method.node.params.map r.roleOf)) with
  | nil => rfl
  | cons first rest => rfl

end OverrideCheck
