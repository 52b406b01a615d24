import OverrideCheck.Proofs.Contract.Compatible

/-!
# Canonical contracts

Which methods have a contract, and what every contract that was built from a method is like. The
positions of the type markers and the type the annotation names decide both: a method has no
contract if two parameters bear a type marker, or if one does and the annotation names a type; and
where there is a contract, its type source says nothing that its roles do not say.

* `AnnotationReader.typeMarked` — the positions of the parameters that bear a type marker;
* `AnnotationReader.Ambiguous` — the annotations of a method give its type more than once;
* `RebindContract.Canonical` — a contract whose type source and roles tell the same story;
* `RebindContract.canonical_of_ofMethod?` — every contract of a method is canonical;
* `extraction_exact` — the methods with a contract, the contradictions of the others, and the
  contracts.

A contract put together by hand need not be canonical, and the comparison of contracts does not ask.
-/

namespace OverrideCheck

/-- The positions of the parameters that bear a type marker, in ascending order. -/
def AnnotationReader.typeMarked (r : AnnotationReader) (params : List Param) : List Nat :=
  (List.range params.length).filter fun i => params[i]?.bind r.markerOf = some .typeMarker

/-- The annotations of a method give its type more than once: two parameters bear a type marker, or
one does and the annotation names a type as well. -/
def AnnotationReader.Ambiguous (r : AnnotationReader) (m : MethodDecl) : Prop :=
  2 ≤ (r.typeMarked m.params).length ∨
    (r.explicitTypeOf m).isSome ∧ r.typeMarked m.params ≠ []

/-! ### Type-carrying positions -/

/-- The type-carrying positions are those that hold a type carrier, in ascending order. -/
theorem typeCarriersFrom_eq_map (roles : List ParamRole) (index : Nat) :
    typeCarriersFrom index roles =
      ((List.range roles.length).filter fun i => roles[i]? = some .typeCarrier).map
        (index + ·) := by
  induction roles generalizing index with
  | nil => rfl
  | cons role rest ih =>
    -- the rest is counted from the next index, which shifts its positions by one
    have hnext : (fun i => index + (i + 1)) = fun i => index + 1 + i := by
      funext i
      omega
    rw [typeCarriersFrom, ih, List.length_cons, List.range_succ_eq_map, List.filter_cons,
      List.filter_map]
    by_cases hrole : role = .typeCarrier
    · simp [hrole, Function.comp_def, hnext]
    · simp [hrole, Function.comp_def, hnext]

/-- A position is type-carrying when the role there is. -/
theorem mem_typeCarriers_iff {roles : List ParamRole} {i : Nat} :
    i ∈ typeCarriers roles ↔ roles[i]? = some .typeCarrier := by
  rw [typeCarriers, typeCarriersFrom_eq_map]
  simp only [Nat.zero_add, List.map_id', List.mem_filter, List.mem_range, decide_eq_true_eq,
    and_iff_right_iff_imp]
  exact fun h => (List.getElem?_eq_some_iff.1 h).1

/-- There are as many type-carrying positions as type carriers. -/
theorem length_typeCarriers (roles : List ParamRole) :
    (typeCarriers roles).length = roles.count .typeCarrier := by
  -- from which index the positions are counted makes no difference to how many there are
  suffices h : ∀ index, (typeCarriersFrom index roles).length = roles.count .typeCarrier from h 0
  induction roles with
  | nil => exact fun _ => rfl
  | cons role rest ih =>
    intro index
    rw [typeCarriersFrom]
    by_cases hrole : role = .typeCarrier
    · rw [if_pos hrole, List.length_cons, ih, hrole, List.count_cons_self]
    · rw [if_neg hrole, ih, List.count_cons_of_ne hrole]

/-- No position is type-carrying when no role is. -/
theorem typeCarriers_eq_nil_iff {roles : List ParamRole} :
    typeCarriers roles = [] ↔ .typeCarrier ∉ roles := by
  rw [← List.length_eq_zero_iff, length_typeCarriers, List.count_eq_zero]

/-- A parameter carries the type when it bears a type marker. -/
theorem AnnotationReader.roleOf_eq_typeCarrier_iff {r : AnnotationReader} {p : Param} :
    r.roleOf p = .typeCarrier ↔ r.markerOf p = some .typeMarker := by
  rw [roleOf]
  split
  · next h => simp [h]
  · next h => simp [h]
  · next h => simp [h]

/-- The type-carrying positions of a method are those of its type markers. -/
theorem AnnotationReader.typeCarriers_map_roleOf (r : AnnotationReader) (params : List Param) :
    typeCarriers (params.map r.roleOf) = r.typeMarked params := by
  rw [typeCarriers, typeCarriersFrom_eq_map, typeMarked, List.length_map]
  simp only [Nat.zero_add, List.map_id']
  refine List.filter_congr fun i _ => decide_eq_decide.2 ?_
  rw [List.getElem?_map, Option.map_eq_some_iff, Option.bind_eq_some_iff]
  simp only [roleOf_eq_typeCarrier_iff]

/-! ### Contradictions -/

/-- The contradictions: too many carriers with all their positions, then a type that is defined
twice with the class and the first carrier. -/
theorem contradictions_eq (explicitType : Option String) (carriers : List Nat) :
    contradictions explicitType carriers =
      (if 2 ≤ carriers.length then [.tooManyTypeParams carriers] else []) ++
      (explicitType.bind fun className => carriers.head?.map fun index =>
        Contradiction.typeParamAlreadyDefined className index).toList := by
  unfold contradictions
  congr 1
  cases explicitType with
  | none => rfl
  | some className => cases carriers <;> rfl

/-- Nothing stands against a contract when there is no second carrier, nor one beside an explicit
type. -/
theorem contradictions_eq_nil_iff {explicitType : Option String} {carriers : List Nat} :
    contradictions explicitType carriers = [] ↔
      carriers.length ≤ 1 ∧ (explicitType = none ∨ carriers = []) := by
  rw [contradictions_eq, List.append_eq_nil_iff]
  refine and_congr ?_ ?_
  · split
    · next hmany => simpa using Nat.not_le.2 hmany
    · next hfew => simpa using Nat.le_of_lt_succ (Nat.lt_of_not_le hfew)
  · cases explicitType with
    | none => simp
    | some className => cases carriers <;> simp

/-- The annotations of a method give its type more than once when its contradictions say so. -/
theorem AnnotationReader.ambiguous_iff (r : AnnotationReader) (m : MethodDecl) :
    r.Ambiguous m ↔ contradictions (r.explicitTypeOf m) (r.typeMarked m.params) ≠ [] := by
  -- when there are none is known, and this is its negation
  refine Iff.trans ?_ (not_congr contradictions_eq_nil_iff).symm
  rw [Ambiguous, Classical.not_and_iff_not_or_not, not_or, Nat.not_le, Nat.lt_iff_add_one_le,
    ← Option.ne_none_iff_isSome]

/-! ### Type sources -/

/-- The source names a class when the annotation does. -/
theorem TypeSource.ofParts_eq_explicit_iff {explicitType : Option String} {carriers : List Nat}
    {className : String} :
    ofParts explicitType carriers = .explicit className ↔ explicitType = some className := by
  unfold ofParts
  cases explicitType with
  | none => cases carriers <;> simp
  | some other => simp

/-- The source is a parameter when the annotation names no class and that parameter is the first
carrier. -/
theorem TypeSource.ofParts_eq_parameter_iff {explicitType : Option String} {carriers : List Nat}
    {i : Nat} :
    ofParts explicitType carriers = .parameter i ↔
      explicitType = none ∧ carriers.head? = some i := by
  unfold ofParts
  cases explicitType with
  | none => cases carriers <;> simp
  | some other => simp

/-- The source is open when the annotation names no class and there is no carrier. -/
theorem TypeSource.ofParts_eq_unspecified_iff {explicitType : Option String}
    {carriers : List Nat} :
    ofParts explicitType carriers = .unspecified ↔ explicitType = none ∧ carriers = [] := by
  unfold ofParts
  cases explicitType with
  | none => cases carriers <;> simp
  | some other => simp

/-! ### The contract of a method -/

namespace RebindContract

variable {r : AnnotationReader} {owner : TypeDecl} {method : Located MethodDecl} {file : String}
  {c : RebindContract}

/-- A contract whose type source and roles tell the same story: no two parameters carry the type, it
is supplied by a parameter exactly if that parameter carries it, and a contract that names a class
has no carrier. -/
structure Canonical (c : RebindContract) : Prop where
  count_typeCarrier_le_one : c.roles.count .typeCarrier ≤ 1
  parameter_iff (i : Nat) : c.typeSource = .parameter i ↔ c.roles[i]? = some .typeCarrier
  not_mem_of_explicit {className : String} (h : c.typeSource = .explicit className) :
    .typeCarrier ∉ c.roles

/-- A method has a contract when nothing contradicts it, and its contradictions are its refusal. -/
theorem ofMethod?_eq_error_iff {found : List Contradiction} :
    ofMethod? r owner method file = .error found ↔
      found ≠ [] ∧
        contradictions (r.explicitTypeOf method.node) (r.typeMarked method.node.params) =
          found := by
  rw [ofMethod?, r.typeCarriers_map_roleOf]
  cases contradictions (r.explicitTypeOf method.node) (r.typeMarked method.node.params) with
  | nil => simp [eq_comm]
  | cons first rest =>
    constructor
    · intro h
      exact ⟨(Except.error.inj h) ▸ List.cons_ne_nil _ _, Except.error.inj h⟩
    · exact fun h => congrArg Except.error h.2

/-- A contract of a method has its roles and its type source from the method's parameters and its
annotation, which do not contradict each other. -/
theorem parts_of_ofMethod? (h : ofMethod? r owner method file = .ok c) :
    c.roles = method.node.params.map r.roleOf ∧
      c.typeSource = .ofParts (r.explicitTypeOf method.node) (typeCarriers c.roles) ∧
      c.signature = .ofMethod method.node ∧
      (typeCarriers c.roles).length ≤ 1 ∧
      (r.explicitTypeOf method.node = none ∨ typeCarriers c.roles = []) := by
  rw [ofMethod?] at h
  split at h
  · next hnone =>
    cases h
    exact ⟨rfl, rfl, rfl, contradictions_eq_nil_iff.1 hnone⟩
  · cases h

/-- Every contract of a method is canonical. -/
theorem canonical_of_ofMethod? (h : ofMethod? r owner method file = .ok c) : c.Canonical := by
  obtain ⟨-, hsource, -, hlength, hfree⟩ := parts_of_ofMethod? h
  refine ⟨length_typeCarriers c.roles ▸ hlength, fun i => ?_, fun {className} hexplicit => ?_⟩
  · rw [hsource, TypeSource.ofParts_eq_parameter_iff, ← mem_typeCarriers_iff]
    constructor
    · exact fun h => List.mem_of_mem_head? h.2
    · intro hi
      -- a carrier excludes an explicit type, and it is the only one
      have hne : typeCarriers c.roles ≠ [] := List.ne_nil_of_mem hi
      obtain ⟨index, hindex⟩ := List.length_eq_one_iff.1
        (Nat.le_antisymm hlength (List.length_pos_iff.2 hne))
      rw [hindex, List.mem_singleton] at hi
      exact ⟨hfree.resolve_right hne, by rw [hindex, hi]; rfl⟩
  · -- beside a named class there is no carrier, or there would be no contract
    rw [hsource, TypeSource.ofParts_eq_explicit_iff] at hexplicit
    rw [← typeCarriers_eq_nil_iff]
    exact hfree.resolve_left fun hnone => Option.some_ne_none _ (hexplicit.symm.trans hnone)

end RebindContract

/-- **Exactly the unambiguous methods have a contract, and it is canonical.** Whoever reads the
annotations, and wherever the method stands: a method is refused a contract if and only if two or
more of its parameters bear a type marker, or one does and the annotation names a type. What is told
then is that there are too many, with all their positions, exactly if there are two or more;
followed by that the type is defined already, with the class and the first position, exactly if the
annotation names one and a parameter bears a marker; and nothing else. Every other method has a
contract, with one role for each parameter in order. It is canonical, it names a class exactly if
the annotation names that class, it leaves the type open exactly if there is neither, and its
signature erases as the method does. -/
theorem extraction_exact (r : AnnotationReader) (owner : TypeDecl) (method : Located MethodDecl)
    (file : String) :
    ((∃ found, RebindContract.ofMethod? r owner method file = .error found) ↔
      r.Ambiguous method.node) ∧
    (∀ found, RebindContract.ofMethod? r owner method file = .error found →
      found =
        (if 2 ≤ (r.typeMarked method.node.params).length then
          [.tooManyTypeParams (r.typeMarked method.node.params)] else []) ++
        ((r.explicitTypeOf method.node).bind fun className =>
          (r.typeMarked method.node.params).head?.map fun index =>
            Contradiction.typeParamAlreadyDefined className index).toList) ∧
    (¬ r.Ambiguous method.node → ∃ c, RebindContract.ofMethod? r owner method file = .ok c ∧
      c.roles = method.node.params.map r.roleOf ∧
      c.Canonical ∧
      (∀ className,
        c.typeSource = .explicit className ↔ r.explicitTypeOf method.node = some className) ∧
      (c.typeSource = .unspecified ↔
        r.explicitTypeOf method.node = none ∧ .typeCarrier ∉ c.roles) ∧
      c.signature.erased = method.node.erasedSignature) := by
  have hrefused : (∃ found, RebindContract.ofMethod? r owner method file = .error found) ↔
      r.Ambiguous method.node := by
    rw [r.ambiguous_iff]
    simp [RebindContract.ofMethod?_eq_error_iff]
  refine ⟨hrefused, fun found h => ?_, fun hclear => ?_⟩
  · rw [← contradictions_eq]
    exact (RebindContract.ofMethod?_eq_error_iff.1 h).2.symm
  · cases h : RebindContract.ofMethod? r owner method file with
    | error found => exact absurd (hrefused.1 ⟨found, h⟩) hclear
    | ok c =>
      obtain ⟨hroles, hsource, hsignature, -, -⟩ := RebindContract.parts_of_ofMethod? h
      refine ⟨c, rfl, hroles, RebindContract.canonical_of_ofMethod? h, fun className => ?_, ?_, ?_⟩
      · rw [hsource, TypeSource.ofParts_eq_explicit_iff]
      · rw [hsource, TypeSource.ofParts_eq_unspecified_iff, typeCarriers_eq_nil_iff]
      · rw [hsignature, MethodSignature.erased_ofMethod]

/-- Of two markers and a named type both rules are told, the markers first. -/
example : RebindContract.ofMethod?
    { rebindOf := fun _ => some ⟨some "test.Named"⟩, markerOf := fun _ => some .typeMarker }
    { name := "test.Owner", kind := .classKind }
    ⟨{ name := "foo", params := [⟨"a", ⟨"int"⟩, []⟩, ⟨"b", ⟨"int"⟩, []⟩] }, .atLine 3⟩
    "test/Owner.java" =
      .error [.tooManyTypeParams [0, 1], .typeParamAlreadyDefined "test.Named" 0] := rfl

end OverrideCheck
