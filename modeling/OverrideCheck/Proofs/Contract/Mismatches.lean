import OverrideCheck.Proofs.Contract.Compatible

/-!
# What a comparison tells

The mismatches of two contracts, said without the comparison: the type sources if they do not
agree, the numbers of parameters if they are not the same, and then every position that both
contracts have and at which their roles differ, in ascending order. Read from the other side the
account is the same, with the two contracts in each other's place.

* `differingPositions` — the positions that two lists of roles both have and fill differently;
* `Mismatch.mirror` — a mismatch told from the other side;
* `RebindContract.mismatches_mirror` — the account of a comparison the other way round;
* `RebindContract.mismatches_eq_account` — the account itself;
* `comparison_is_mirrored_equivalence` — the laws of the comparison together.

The contracts are any at all. Their roles need not be as many as their parameters, and a type source
may point at a position that carries no type or does not exist.
-/

namespace OverrideCheck

/-- Sources agree when they are equal, or when both leave the type to a parameter, at whatever
positions. -/
theorem TypeSource.agrees_iff {a b : TypeSource} :
    a.agrees b = true ↔ a = b ∨ ∃ i j, a = .parameter i ∧ b = .parameter j := by
  cases a <;> cases b <;> simp [agrees]

/-- A mismatch told from the other side. -/
def Mismatch.mirror : Mismatch → Mismatch
  | .typeSource child ancestor => .typeSource ancestor child
  | .paramCount child ancestor => .paramCount ancestor child
  | .paramRole index child ancestor => .paramRole index ancestor child

/-! ### The positions at which roles differ -/

/-- The positions that two lists of roles both have and fill differently, in ascending order. -/
def differingPositions (children ancestors : List ParamRole) : List Nat :=
  (List.range (min children.length ancestors.length)).filter fun i => children[i]? ≠ ancestors[i]?

/-- The mismatch of two lists of roles at a position that both have. -/
def roleMismatchAt (children ancestors : List ParamRole) (i : Nat) : Mismatch :=
  .paramRole i (children.getD i .plain) (ancestors.getD i .plain)

/-- The first position comes first if the roles there differ, and the others move up by one. -/
theorem differingPositions_cons (child ancestor : ParamRole) (children ancestors : List ParamRole) :
    differingPositions (child :: children) (ancestor :: ancestors) =
      (if child = ancestor then [] else [0]) ++
        (differingPositions children ancestors).map (· + 1) := by
  rw [differingPositions, List.length_cons, List.length_cons, Nat.add_min_add_right,
    List.range_succ_eq_map, List.filter_cons, List.filter_map]
  by_cases heq : child = ancestor
  · simp [heq, differingPositions, Function.comp_def]
  · simp [heq, differingPositions, Function.comp_def]

/-- The mismatches of two lists of roles are those at the positions where they differ. -/
theorem roleMismatches_eq_map (children ancestors : List ParamRole) (index : Nat) :
    roleMismatches index children ancestors = (differingPositions children ancestors).map fun i =>
      .paramRole (index + i) (children.getD i .plain) (ancestors.getD i .plain) := by
  induction children generalizing index ancestors with
  | nil => simp [roleMismatches, differingPositions]
  | cons child children ih =>
    cases ancestors with
    | nil => simp [roleMismatches, differingPositions]
    | cons ancestor ancestors =>
      rw [roleMismatches, ih, differingPositions_cons, List.map_append, List.map_map]
      -- the first position stands for itself, and the others have moved up by one
      congr 1
      · by_cases heq : child = ancestor
        · simp [heq]
        · simp [heq]
      · refine List.map_congr_left fun i _ => ?_
        simp [Nat.add_comm, Nat.add_left_comm]

/-- A position is among them when both lists have a role there and the roles are not the same. -/
theorem mem_differingPositions_iff {children ancestors : List ParamRole} {i : Nat} :
    i ∈ differingPositions children ancestors ↔
      ∃ child ancestor, children[i]? = some child ∧ ancestors[i]? = some ancestor ∧
        child ≠ ancestor := by
  rw [differingPositions, List.mem_filter, List.mem_range, Nat.lt_min, decide_eq_true_eq]
  constructor
  · rintro ⟨⟨hchild, hancestor⟩, hne⟩
    refine ⟨children[i], ancestors[i], List.getElem?_eq_getElem hchild,
      List.getElem?_eq_getElem hancestor, fun heq => hne ?_⟩
    rw [List.getElem?_eq_getElem hchild, List.getElem?_eq_getElem hancestor, heq]
  · rintro ⟨child, ancestor, hchild, hancestor, hne⟩
    refine ⟨⟨(List.getElem?_eq_some_iff.1 hchild).1, (List.getElem?_eq_some_iff.1 hancestor).1⟩, ?_⟩
    rw [hchild, hancestor]
    exact fun heq => hne (Option.some.inj heq)

/-- The other way round, the roles of two lists differ at the same positions. -/
theorem roleMismatches_mirror (children ancestors : List ParamRole) (index : Nat) :
    roleMismatches index ancestors children =
      (roleMismatches index children ancestors).map Mismatch.mirror := by
  induction children generalizing index ancestors with
  | nil => cases ancestors <;> simp [roleMismatches]
  | cons child children ih =>
    cases ancestors with
    | nil => simp [roleMismatches]
    | cons ancestor ancestors =>
      rw [roleMismatches, roleMismatches, ih, List.map_append]
      by_cases heq : child = ancestor
      · simp [heq]
      · simp [heq, Ne.symm heq, Mismatch.mirror]

namespace RebindContract

/-- The account of a comparison the other way round. -/
theorem mismatches_mirror (c d : RebindContract) :
    d.mismatches c = (c.mismatches d).map Mismatch.mirror := by
  rw [mismatches, mismatches, List.map_append, List.map_append, roleMismatches_mirror,
    TypeSource.agrees_comm]
  -- the roles are mirrored, and what is left are the sources and the counts
  congr 2
  · split
    · rfl
    · rfl
  · by_cases heq : c.roles.length = d.roles.length
    · simp [heq]
    · simp [heq, Ne.symm heq, Mismatch.mirror]

/-- What a comparison tells: whether the type sources agree, whether the numbers of parameters are
the same, and where the roles differ. -/
theorem mismatches_eq_account (c d : RebindContract) :
    c.mismatches d =
      (if c.typeSource.agrees d.typeSource then [] else [.typeSource c.typeSource d.typeSource]) ++
      (if c.roles.length = d.roles.length then []
        else [.paramCount c.roles.length d.roles.length]) ++
      (differingPositions c.roles d.roles).map (roleMismatchAt c.roles d.roles) := by
  rw [mismatches, roleMismatches_eq_map]
  simp only [Nat.zero_add]
  rfl

/-- Contracts of the same rules have the same mismatches with the same contracts. -/
theorem mismatches_congr {c c' d d' : RebindContract} (hc : c.rules = c'.rules)
    (hd : d.rules = d'.rules) : c.mismatches d = c'.mismatches d' := by
  simp only [rules, Prod.mk.injEq] at hc hd
  rw [mismatches, mismatches, hc.1, hc.2, hd.1, hd.2]

end RebindContract

/-- The positions at which roles differ ascend. -/
theorem pairwise_differingPositions (children ancestors : List ParamRole) :
    (differingPositions children ancestors).Pairwise (· < ·) :=
  List.pairwise_lt_range.sublist List.filter_sublist

/-- **Comparing contracts is an equivalence, and its account is faithful and mirrored.** For all
contracts whatever, well formed or not: compatibility is reflexive, symmetric and transitive; the
mismatches do not depend on owner, signature and location of either side; those of the comparison
the other way round are the same in the same order, each told from the other side; and they are at
most one of the type sources, then one of the numbers of parameters exactly if these differ, then
one of the roles for each position that both contracts have and at which their roles differ, and for
no other position, in ascending order. -/
theorem comparison_is_mirrored_equivalence :
    (∀ c : RebindContract, c.Compatible c) ∧
    (∀ c d : RebindContract, c.Compatible d ↔ d.Compatible c) ∧
    (∀ c d e : RebindContract, c.Compatible d → d.Compatible e → c.Compatible e) ∧
    (∀ (c d : RebindContract) (owner owner' : String) (signature signature' : MethodSignature)
      (location location' : SourceLocation),
      { c with owner := owner, signature := signature, location := location }.mismatches
        { d with owner := owner', signature := signature', location := location' } =
          c.mismatches d) ∧
    (∀ c d : RebindContract, d.mismatches c = (c.mismatches d).map Mismatch.mirror) ∧
    ∀ c d : RebindContract, ∃ positions : List Nat,
      positions.Pairwise (· < ·) ∧
      (∀ i, i ∈ positions ↔ ∃ child ancestor, c.roles[i]? = some child ∧
        d.roles[i]? = some ancestor ∧ child ≠ ancestor) ∧
      c.mismatches d =
        (if c.typeSource.agrees d.typeSource then []
          else [.typeSource c.typeSource d.typeSource]) ++
        (if c.roles.length = d.roles.length then []
          else [.paramCount c.roles.length d.roles.length]) ++
        positions.map (roleMismatchAt c.roles d.roles) := by
  refine ⟨fun c => .refl c, fun c d => ⟨fun h => h.symm, fun h => h.symm⟩,
    fun c d e hcd hde => hcd.trans hde, ?_, fun c d => c.mismatches_mirror d, fun c d => ?_⟩
  · intro c d _ _ _ _ _ _
    -- neither side's rules have changed
    exact RebindContract.mismatches_congr rfl rfl
  · exact ⟨differingPositions c.roles d.roles, pairwise_differingPositions _ _,
      fun i => mem_differingPositions_iff, c.mismatches_eq_account d⟩

/-! ### Contracts no method has -/

namespace Unfounded

/-- A contract that says of its type only that a parameter supplies it, with the roles given. -/
def contract (owner : String) (index : Nat) (roles : List ParamRole) : RebindContract :=
  ⟨owner, ⟨"foo", [], .void⟩, .parameter index, roles, ⟨owner ++ ".java", 1⟩⟩

/-- Three contracts whose type is supplied by three different positions, none of which carries it,
are compatible one with the next, so the first is with the last; and the first is told apart from a
shorter one by the number of parameters and the role at the one position both have. -/
theorem first_with_last :
    (contract "test.A" 0 [.plain, .rebindParam]).Compatible
      (contract "test.B" 1 [.plain, .rebindParam]) ∧
    (contract "test.B" 1 [.plain, .rebindParam]).Compatible
      (contract "test.C" 7 [.plain, .rebindParam]) ∧
    (contract "test.A" 0 [.plain, .rebindParam]).Compatible
      (contract "test.C" 7 [.plain, .rebindParam]) ∧
    (contract "test.D" 0 [.typeCarrier]).mismatches (contract "test.A" 0 [.plain, .rebindParam]) =
      [.paramCount 1 2, .paramRole 0 .typeCarrier .plain] := by
  obtain ⟨-, -, htrans, -, hmirror, -⟩ := comparison_is_mirrored_equivalence
  have hlower : (contract "test.A" 0 [.plain, .rebindParam]).Compatible
      (contract "test.B" 1 [.plain, .rebindParam]) := by decide
  have hupper : (contract "test.B" 1 [.plain, .rebindParam]).Compatible
      (contract "test.C" 7 [.plain, .rebindParam]) := by decide
  refine ⟨hlower, hupper, htrans _ _ _ hlower hupper, ?_⟩
  rw [hmirror (contract "test.A" 0 [.plain, .rebindParam])]
  rfl

end Unfounded

end OverrideCheck
