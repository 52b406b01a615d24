import OverrideCheck.Proofs.Hierarchy.Acyclic
import OverrideCheck.Proofs.Validation.Reannotated

/-!
# What a clean report certifies

The check holds a participating method against one declaration per branch, so a clean report says
something about these pairs (`Validator.Compares`) and, compatibility being an equivalence, about
whatever chains of them join (`Validator.Linked`). Of a declaration that a method overrides without
being linked to it, a clean report says nothing:

* `Validator.Overrides.conforms_of_linked` — in a clean report a method conforms to what it
  overrides and is linked to;
* `Validator.Overrides.exists_newAnnotations` — a program in which the two are not linked can be
  annotated so that its report is clean and the method does not conform;
* `certified_exact` — the two together: being linked is exactly what it takes;
* `Siblings.not_certified` — a program whose report is clean although a method overrides a
  declaration that names another class.

The second statement is about the shape of the program alone, its hierarchy, its signatures and who
takes part. Its proof lets every participating method name a class outright: the methods linked to
the given one name one class, and all others another. No comparison crosses the two, and no other
problem can arise, so the report is clean.

The nearest declaration of a branch answers for those behind it if it overrides them itself, for
then they are held against each other in its own unit, in one step or in several
(`Validator.Overrides.linked_of_nearestOverrides`). It need not override them: where the type that a
branch starts with declares nothing, two of its supertypes follow each other as strangers.
-/

namespace OverrideCheck

namespace Validator

/-- One participating method overrides another participating declaration. -/
structure Overrides (v : Validator) (m a : MethodRef) : Prop where
  mem : m ∈ v.program.methods
  participates : v.participates m = true
  found : ∃ x ∈ v.lookup m, x.decl = a
  ancestor_participates : v.participates a = true

/-- The check compares a participating method with a declaration. -/
structure Compares (v : Validator) (m a : MethodRef) : Prop where
  mem : m ∈ v.program.methods
  participates : v.participates m = true
  nearest : a ∈ v.nearest m

/-- Two declarations are joined by a chain of comparisons, whichever way each of them goes. -/
def Linked (v : Validator) : MethodRef → MethodRef → Prop := Relation.EqvGen v.Compares

/-- Both declarations have a contract, and the first one's may override the second one's. -/
def Conforms (v : Validator) (m a : MethodRef) : Prop :=
  ∃ c d, v.contractOf m = .ok c ∧ v.contractOf a = .ok d ∧ c.Compatible d

variable {v w : Validator} {m n a : MethodRef} {p : Program} {settings : Settings}

theorem Conforms.symm (h : v.Conforms m n) : v.Conforms n m := by
  obtain ⟨c, d, hc, hd, hcd⟩ := h
  exact ⟨d, c, hd, hc, hcd.symm⟩

theorem Conforms.trans (hmn : v.Conforms m n) (hna : v.Conforms n a) : v.Conforms m a := by
  -- both sides speak of one contract of the method in the middle
  obtain ⟨c, d, hc, hd, hcd⟩ := hmn
  obtain ⟨d', e, hd', he, hde⟩ := hna
  obtain rfl : d = d' := Except.ok.inj (hd.symm.trans hd')
  exact ⟨c, e, hc, he, hcd.trans hde⟩

/-- A contract does not conflict with a declaration that its method conforms to. -/
theorem Conforms.conflicts_eq_false (h : v.Conforms m a) {c : RebindContract}
    (hc : v.contractOf m = .ok c) : v.conflicts c a = false := by
  obtain ⟨c', d, hc', hd, hcd⟩ := h
  obtain rfl := Except.ok.inj (hc.symm.trans hc')
  simp [conflicts, hd, hcd]

/-! ### The comparisons of the check -/

/-- A method of the program overrides methods of the program, of its own signature. -/
theorem Overrides.ancestor_mem (hv : ofProgram? p settings = .ok v) (h : v.Overrides m a) :
    a ∈ v.program.methods ∧ a.method.node.erasedSignature = m.method.node.erasedSignature := by
  obtain ⟨i, hi, rfl⟩ := ofProgram?_eq_ok_iff.1 hv
  obtain ⟨x, hx, rfl⟩ := h.found
  obtain ⟨-, -, -, -, hsignature⟩ :=
    TypeIndex.overridden_sound hi (Program.owner_mem_types h.mem).1 hx
  exact ⟨TypeIndex.overridden_mem_methods hi hx, hsignature⟩

/-- What a method is compared with is one of the participating declarations it overrides. -/
theorem Compares.overrides (h : v.Compares m a) : v.Overrides m a := by
  obtain ⟨x, hx, rfl, hpart⟩ := exists_ancestor_of_mem_nearest h.nearest
  exact ⟨h.mem, h.participates, ⟨x, hx, rfl⟩, hpart⟩

/-- Under new annotations a method overrides what it overrode before. -/
theorem Overrides.reannotate (f : NewAnnotations settings.names.reader)
    (hv : ofProgram? p settings = .ok v) (hw : ofProgram? (p.reannotate f.decl) settings = .ok w)
    (h : v.Overrides m a) : w.Overrides (m.reannotate f.decl) (a.reannotate f.decl) where
  mem := by
    rw [program_of_ofProgram? hw, Program.mem_methods_reannotate_iff]
    exact ⟨m, program_of_ofProgram? hv ▸ h.mem, rfl⟩
  participates := by
    rw [f.participates_reannotate hv hw]
    exact h.participates
  found := by
    obtain ⟨x, hx, rfl⟩ := h.found
    rw [f.lookup_eq hv hw]
    exact ⟨_, List.mem_map_of_mem hx, rfl⟩
  ancestor_participates := by
    rw [f.participates_reannotate hv hw]
    exact h.ancestor_participates

/-- Under new annotations a method is compared with what it was compared with before. -/
theorem Compares.reannotate (f : NewAnnotations settings.names.reader)
    (hv : ofProgram? p settings = .ok v) (hw : ofProgram? (p.reannotate f.decl) settings = .ok w)
    (h : v.Compares m a) : w.Compares (m.reannotate f.decl) (a.reannotate f.decl) := by
  have hoverrides := h.overrides.reannotate f hv hw
  refine ⟨hoverrides.mem, hoverrides.participates, ?_⟩
  rw [f.nearest_eq hv hw]
  exact List.mem_map_of_mem h.nearest

/-- Under new annotations what was linked is linked. -/
theorem Linked.reannotate (f : NewAnnotations settings.names.reader)
    (hv : ofProgram? p settings = .ok v) (hw : ofProgram? (p.reannotate f.decl) settings = .ok w)
    (h : v.Linked m a) : w.Linked (m.reannotate f.decl) (a.reannotate f.decl) := by
  induction h with
  | rel x y hxy => exact .rel _ _ (hxy.reannotate f hv hw)
  | refl x => exact .refl _
  | symm x y _ ih => exact .symm _ _ ih
  | trans x y z _ _ ihxy ihyz => exact .trans _ _ _ ihxy ihyz

/-! ### What is certified -/

/-- In a clean report every participating method has a contract. -/
theorem exists_contract (hclean : v.report.isClean = true) (hm : m ∈ v.program.methods)
    (hpart : v.participates m = true) : ∃ c, v.contractOf m = .ok c := by
  obtain ⟨c, hc, -⟩ := (methodProblems_eq_nil_iff hpart).1 (isClean_report_iff.1 hclean m hm)
  exact ⟨c, hc⟩

/-- In a clean report what is compared conforms. -/
theorem Compares.conforms (hv : ofProgram? p settings = .ok v) (hclean : v.report.isClean = true)
    (h : v.Compares m a) : v.Conforms m a := by
  have hproblems := isClean_report_iff.1 hclean m h.mem
  obtain ⟨c, hc, -, hconflicts⟩ := (methodProblems_eq_nil_iff h.participates).1 hproblems
  obtain ⟨d, hd⟩ := exists_contract hclean (h.overrides.ancestor_mem hv).1
    h.overrides.ancestor_participates
  refine ⟨c, d, hc, hd, ?_⟩
  simpa [conflicts, hd] using hconflicts a h.nearest

/-- In a clean report whatever is linked conforms. -/
theorem Linked.conforms (hv : ofProgram? p settings = .ok v) (hclean : v.report.isClean = true)
    (h : v.Linked m a) : m = a ∨ v.Conforms m a := by
  -- a declaration without a contract is linked to itself and conforms to nothing
  induction h with
  | rel x y hxy => exact Or.inr (hxy.conforms hv hclean)
  | refl x => exact Or.inl rfl
  | symm x y _ ih =>
    rcases ih with rfl | hxy
    · exact Or.inl rfl
    · exact Or.inr hxy.symm
  | trans x y z _ _ ihxy ihyz =>
    rcases ihxy with rfl | hxy
    · exact ihyz
    · rcases ihyz with rfl | hyz
      · exact Or.inr hxy
      · exact Or.inr (hxy.trans hyz)

/-- In a clean report a method conforms to what it overrides and is linked to. -/
theorem Overrides.conforms_of_linked (hv : ofProgram? p settings = .ok v) (h : v.Overrides m a)
    (hclean : v.report.isClean = true) (hlinked : v.Linked m a) : v.Conforms m a := by
  rcases hlinked.conforms hv hclean with rfl | hconforms
  · obtain ⟨c, hc⟩ := exists_contract hclean h.mem h.participates
    exact ⟨c, c, hc, hc, .refl c⟩
  · exact hconforms

/-! ### Where the nearest declaration answers for its branch -/

/-- The nearest declaration on a branch overrides whatever else takes part there. -/
def NearestOverrides (v : Validator) : Prop :=
  ∀ m, m ∈ v.program.methods → v.participates m = true →
    ∀ x ∈ v.lookup m, v.participates x.decl = true →
      ∀ n, firstOn? v.reader (v.lookup m) x.branch = some n → n = x.decl ∨ v.Overrides n x.decl

/-- What a method overrides is declared in a proper supertype. -/
theorem Overrides.transGen (hv : ofProgram? p settings = .ok v) (h : v.Overrides m a) :
    Relation.TransGen p.DirectSupertype m.owner a.owner := by
  obtain ⟨i, hi, rfl⟩ := ofProgram?_eq_ok_iff.1 hv
  obtain ⟨x, hx, rfl⟩ := h.found
  exact (TypeIndex.overridden_sound hi (Program.owner_mem_types h.mem).1 hx).2.2.1

/-- In a hierarchy without circles every method is linked to all that it overrides, if the nearest
declaration of each branch overrides whatever takes part behind it. -/
theorem Overrides.linked_of_nearestOverrides (hv : ofProgram? p settings = .ok v)
    (hacyclic : p.Acyclic) (hnearest : v.NearestOverrides)
    (h : v.Overrides m a) : v.Linked m a := by
  -- induction on the number of proper supertypes of the method's type, which goes down from a
  -- method to its nearest declaration since there are no circles
  induction hk : {d | Relation.TransGen p.DirectSupertype m.owner d}.ncard using
    Nat.strong_induction_on generalizing m with
  | _ k ih =>
    obtain ⟨x, hx, rfl⟩ := h.found
    -- the branch has a nearest declaration, which is compared with the method
    obtain ⟨n, hn⟩ : ∃ n, firstOn? v.reader (v.lookup m) x.branch = some n := by
      rw [← Option.isSome_iff_exists, firstOn?, Option.isSome_map, List.find?_isSome]
      exact ⟨x, hx, by simpa [Validator.participates] using h.ancestor_participates⟩
    have hcompares : v.Compares m n :=
      ⟨h.mem, h.participates, mem_nearestParticipating_iff.2 ⟨_, hn⟩⟩
    rcases hnearest m h.mem h.participates x hx h.ancestor_participates n hn with rfl | hoverrides
    · exact .rel _ _ hcompares
    · have hfewer := hacyclic.ncard_supertypes_lt (hcompares.overrides.transGen hv)
      exact .trans _ _ _ (.rel _ _ hcompares) (ih _ (hk ▸ hfewer) hoverrides rfl)

end Validator

/-! ### Naming a type -/

namespace AnnotationNames

/-- The method with a rebind annotation that names the given class, and no other annotation. -/
def naming (n : AnnotationNames) (className : String) (d : MethodDecl) : MethodDecl :=
  { d.bare with annotations :=
      [⟨n.rebind, MemberTable.empty.insert n.typeMember (.classLiteral className)⟩] }

/-- Naming a type changes annotations only. -/
theorem bare_naming (n : AnnotationNames) (className : String) (d : MethodDecl) :
    (n.naming className d).bare = d.bare := by
  simp [naming, MethodDecl.bare, Function.comp_def]

/-- The annotation is read back, with the class it names. -/
theorem rebindOf_naming (n : AnnotationNames) {className : String} (d : MethodDecl)
    (h : n.defaultType ≠ some className) :
    n.reader.rebindOf (n.naming className d) = some ⟨some className⟩ := by
  simp [reader, rebindOf?, naming, findAnnotation?, explicitType?, typeValue?, h]

/-- A method that names a type takes part. -/
theorem participates_naming (n : AnnotationNames) (className : String) (d : MethodDecl) :
    n.reader.participates (n.naming className d) = true := by
  simp [reader, rebindOf?, naming, findAnnotation?]

/-- No parameter of the method is marked. -/
theorem roles_naming (n : AnnotationNames) (className : String) (d : MethodDecl) :
    (n.naming className d).params.map n.reader.roleOf =
      List.replicate d.params.length .plain := by
  simp [naming, MethodDecl.bare, AnnotationReader.roleOf, reader, markerOf?, findAnnotation?,
    Function.comp_def]

/-- Plain parameters carry no type. -/
theorem typeCarriers_replicate_plain (k : Nat) :
    typeCarriers (List.replicate k .plain) = [] := by
  have hfrom : ∀ index, typeCarriersFrom index (List.replicate k .plain) = [] := by
    induction k with
    | zero => exact fun _ => rfl
    | succ k ih => exact fun index => ih (index + 1)
  exact hfrom 0

/-- The rules are the class and one plain role for each parameter. -/
theorem rulesOf_naming (n : AnnotationNames) {className : String} (d : MethodDecl)
    (h : n.defaultType ≠ some className) :
    n.reader.rulesOf (n.naming className d) =
      .ok (.explicit className, List.replicate d.params.length .plain) := by
  simp [AnnotationReader.rulesOf, n.roles_naming, typeCarriers_replicate_plain,
    AnnotationReader.explicitTypeOf, n.rebindOf_naming d h, contradictions, TypeSource.ofParts]

end AnnotationNames

/-- Every participating method names the class it is given; the other methods stay as they are. -/
def NewAnnotations.naming (n : AnnotationNames) (className : MethodRef → String) :
    NewAnnotations n.reader where
  decl m := if n.reader.participates m.method.node then n.naming (className m) m.method.node
    else m.method.node
  bare m := by
    split
    · exact n.bare_naming _ _
    · rfl
  participates m := by
    split
    · next hpart => rw [n.participates_naming, hpart]
    · rfl

namespace Validator

section Named

variable {v w : Validator} {p : Program} {settings : Settings} {className : MethodRef → String}
  {m a : MethodRef}
  (hw : ofProgram? (p.reannotate (NewAnnotations.naming settings.names className).decl) settings =
    .ok w)
  (hgiven : ∀ m, settings.names.defaultType ≠ some (className m))

include hw hgiven

/-- A method that takes part has the contract of the class it names. -/
theorem contractOf_naming (hpart : settings.names.reader.participates m.method.node = true) :
    ∃ c, w.contractOf (m.reannotate (NewAnnotations.naming settings.names className).decl) = .ok c ∧
      c.typeSource = .explicit (className m) ∧
      c.roles = List.replicate m.method.node.params.length .plain := by
  have hdecl : (NewAnnotations.naming settings.names className).decl m =
      settings.names.naming (className m) m.method.node := if_pos hpart
  -- the contract has the rules of the declaration, and those are known
  have hrules := w.map_rules_contractOf
    (m.reannotate (NewAnnotations.naming settings.names className).decl)
  rw [(reader_of_ofProgram? hw).1, MethodRef.reannotate, hdecl,
    settings.names.rulesOf_naming _ (hgiven m)] at hrules
  rw [MethodRef.reannotate, hdecl]
  generalize w.contractOf _ = contract at hrules ⊢
  cases contract with
  | error found => cases hrules
  | ok c =>
    obtain ⟨hsource, hroles⟩ := Prod.mk.inj (Except.ok.inj hrules)
    exact ⟨c, rfl, hsource, hroles⟩

/-- Two participating methods of one signature conform when they name one class. -/
theorem conforms_naming_iff (hm : settings.names.reader.participates m.method.node = true)
    (ha : settings.names.reader.participates a.method.node = true)
    (hsignature : a.method.node.erasedSignature = m.method.node.erasedSignature) :
    w.Conforms (m.reannotate (NewAnnotations.naming settings.names className).decl)
      (a.reannotate (NewAnnotations.naming settings.names className).decl) ↔
        className m = className a := by
  obtain ⟨c, hc, hcsource, hcroles⟩ := contractOf_naming hw hgiven hm
  obtain ⟨d, hd, hdsource, hdroles⟩ := contractOf_naming hw hgiven ha
  have hlength : m.method.node.params.length = a.method.node.params.length := by
    simpa [MethodDecl.erasedSignature] using (congrArg (fun s => s.params.length) hsignature).symm
  -- as many plain roles on both sides, so only the classes can differ
  have hcompatible : c.Compatible d ↔ className m = className a := by
    rw [RebindContract.compatible_iff, hcsource, hdsource, hcroles, hdroles, hlength]
    simp [TypeSource.agrees]
  rw [← hcompatible]
  constructor
  · rintro ⟨c', d', hc', hd', hcd⟩
    obtain rfl := Except.ok.inj (hc.symm.trans hc')
    obtain rfl := Except.ok.inj (hd.symm.trans hd')
    exact hcd
  · exact fun hcd => ⟨c, d, hc, hd, hcd⟩

/-- If the methods that the check compares name one class, the report is clean. -/
theorem isClean_naming (hv : ofProgram? p settings = .ok v)
    (hsame : ∀ m a, v.Compares m a → className m = className a) : w.report.isClean = true := by
  have hreads := participates_of_ofProgram? hv
  refine isClean_report_iff.2 fun n hn => ?_
  rw [program_of_ofProgram? hw, Program.mem_methods_reannotate_iff] at hn
  obtain ⟨m, hm, rfl⟩ := hn
  -- a method that takes no part has no problems; it took none before the change either
  have hpart := (NewAnnotations.naming settings.names className).participates_reannotate hv hw m
  cases hparticipates : v.participates m with
  | false =>
    rw [hparticipates] at hpart
    simp [methodProblems, hpart]
  | true =>
    rw [hparticipates] at hpart
    -- its type is named, so no policy refuses it and only comparisons are left
    obtain ⟨c, hc, hsource, -⟩ := contractOf_naming hw hgiven (hreads m ▸ hparticipates)
    refine (methodProblems_eq_nil_iff hpart).2 ⟨c, hc, by simp [missesType, hsource], ?_⟩
    rw [NewAnnotations.nearest_eq _ hv hw]
    intro b hb
    obtain ⟨a, ha, rfl⟩ := List.mem_map.1 hb
    -- the comparison was made in the old program too, so the two name one class
    have hcompares : v.Compares m a := ⟨(program_of_ofProgram? hv).symm ▸ hm, hparticipates, ha⟩
    have hoverrides := hcompares.overrides
    refine Conforms.conflicts_eq_false ?_ hc
    exact (conforms_naming_iff hw hgiven (hreads m ▸ hparticipates)
      (hreads a ▸ hoverrides.ancestor_participates) (hoverrides.ancestor_mem hv).2).2
      (hsame m a hcompares)

end Named

/-- Two different classes can be named whatever class stands for "not given". -/
theorem exists_classes (default : Option String) :
    ∃ a b : String, a ≠ b ∧ default ≠ some a ∧ default ≠ some b := by
  -- three names are enough, for at most one of them is the default
  by_cases ha : default = some "A"
  · exact ⟨"B", "C", by decide, by rw [ha]; decide, by rw [ha]; decide⟩
  · by_cases hb : default = some "B"
    · exact ⟨"A", "C", by decide, ha, by rw [hb]; decide⟩
    · exact ⟨"A", "B", by decide, ha, hb⟩

/-- Where a method overrides a declaration that it is not linked to, the program can be annotated
so that its report is clean although the two do not conform. -/
theorem Overrides.exists_newAnnotations (hv : ofProgram? p settings = .ok v) (h : v.Overrides m a)
    (hlinked : ¬ v.Linked m a) :
    ∃ (f : NewAnnotations settings.names.reader) (w : Validator),
      ofProgram? (p.reannotate f.decl) settings = .ok w ∧ w.report.isClean = true ∧
      ¬ w.Conforms (m.reannotate f.decl) (a.reannotate f.decl) := by
  classical
  obtain ⟨mine, others, hne, hmine, hothers⟩ := exists_classes settings.names.defaultType
  -- whatever is linked to the method names one class, and everything else the other one
  let className : MethodRef → String := fun x => if v.Linked m x then mine else others
  have hgiven : ∀ x, settings.names.defaultType ≠ some (className x) := by
    intro x
    by_cases hx : v.Linked m x
    · rw [show className x = mine from if_pos hx]
      exact hmine
    · rw [show className x = others from if_neg hx]
      exact hothers
  -- a comparison links its two sides, so it never crosses from one class to the other
  have hsame : ∀ x y, v.Compares x y → className x = className y := by
    intro x y hxy
    have hiff : v.Linked m x ↔ v.Linked m y :=
      ⟨fun hx => hx.trans _ _ _ (.rel _ _ hxy), fun hy => hy.trans _ _ _ (.symm _ _ (.rel _ _ hxy))⟩
    simp only [className, hiff]
  obtain ⟨w, hw⟩ := (NewAnnotations.naming settings.names className).exists_validator hv
  have hreads := participates_of_ofProgram? hv
  refine ⟨NewAnnotations.naming settings.names className, w, hw,
    isClean_naming hw hgiven hv hsame, ?_⟩
  rw [conforms_naming_iff hw hgiven (hreads m ▸ h.participates)
    (hreads a ▸ h.ancestor_participates) (h.ancestor_mem hv).2]
  rw [show className m = mine from if_pos (.refl m), show className a = others from if_neg hlinked]
  exact hne

end Validator

/-- **What a clean report certifies, exactly.** In an accepted program with a clean report, every
participating method and every participating declaration that it overrides has a contract, and the
two contracts are compatible if the method and the declaration are linked by comparisons of the
check. Being linked is exactly what it takes: a method goes on overriding a declaration under all
annotations with the same participants, and the two are compatible in every clean report on these
if and only if they are linked. -/
theorem certified_exact {p : Program} {settings : Settings} {v : Validator}
    (hv : Validator.ofProgram? p settings = .ok v) :
    (v.report.isClean = true → ∀ m a, v.Overrides m a →
      (∃ c, v.contractOf m = .ok c) ∧ (∃ d, v.contractOf a = .ok d) ∧
        (v.Linked m a → v.Conforms m a)) ∧
    ∀ m a, v.Overrides m a →
      (v.Linked m a ↔ ∀ (f : NewAnnotations settings.names.reader) (w : Validator),
        Validator.ofProgram? (p.reannotate f.decl) settings = .ok w →
          w.Overrides (m.reannotate f.decl) (a.reannotate f.decl) ∧
          (w.report.isClean = true → w.Conforms (m.reannotate f.decl) (a.reannotate f.decl))) := by
  refine ⟨fun hclean m a h => ⟨?_, ?_, h.conforms_of_linked hv hclean⟩, fun m a h => ⟨?_, ?_⟩⟩
  · exact Validator.exists_contract hclean h.mem h.participates
  · exact Validator.exists_contract hclean (h.ancestor_mem hv).1 h.ancestor_participates
  · intro hlinked f w hw
    have hoverrides := h.reannotate f hv hw
    exact ⟨hoverrides, fun hclean =>
      hoverrides.conforms_of_linked hw hclean (hlinked.reannotate f hv hw)⟩
  · intro hall
    -- if they were not linked, some annotations would give a clean report without conformance
    by_contra hlinked
    obtain ⟨f, w, hw, hclean, hnot⟩ := h.exists_newAnnotations hv hlinked
    exact hnot ((hall f w hw).2 hclean)

/-! ### Strangers on one branch -/

namespace Siblings

/-- A method that names the class it rebinds to. -/
def foo (className : String) (line : UInt32) : Located MethodDecl :=
  ⟨{ name := "foo"
     annotations := [⟨"com.google.gwt.core.shared.Rebind",
       .ofList [("type", .classLiteral className)]⟩] }, .atLine line⟩

/-- An interface. -/
def left : TypeDecl :=
  { name := "test.Left", kind := .interfaceKind, methods := [foo "java.lang.String" 4] }

/-- An interface whose method names another class. -/
def right : TypeDecl :=
  { name := "test.Right", kind := .interfaceKind, methods := [foo "java.lang.Long" 4] }

/-- An interface that extends both and declares nothing. -/
def both : TypeDecl :=
  { name := "test.Both", kind := .interfaceKind, interfaces := ["test.Left", "test.Right"] }

/-- A class that implements it, and names the class of the first interface. -/
def impl : TypeDecl :=
  { name := "test.Impl", kind := .classKind, interfaces := ["test.Both"],
    methods := [foo "java.lang.String" 6] }

/-- The four types, each in a unit of its own. -/
def program : Program :=
  ⟨[left, right, both, impl].map fun t => { types := [⟨t, .atLine 3⟩] }⟩

/-- The method of the first interface. -/
def inLeft : MethodRef := ⟨0, left, foo "java.lang.String" 4⟩

/-- The method of the second interface. -/
def inRight : MethodRef := ⟨1, right, foo "java.lang.Long" 4⟩

/-- The method of the class. -/
def inImpl : MethodRef := ⟨3, impl, foo "java.lang.String" 6⟩

/-- The contract of a method that names a class. -/
def contract (owner className file : String) (line : UInt32) : RebindContract :=
  ⟨owner, ⟨"foo", [], .void⟩, .explicit className, [], ⟨file, line⟩⟩

/-- The class overrides the methods of both interfaces, on one branch. -/
theorem overridden_inImpl {index : TypeIndex} (h : TypeIndex.ofProgram? program = .ok index) :
    index.overridden inImpl = [⟨0, inLeft⟩, ⟨0, inRight⟩] := by
  have hentries := TypeIndex.find?_eq_find?_typeEntries h
  have hboth : index.find? "test.Both" = some ⟨2, both⟩ := by rw [hentries]; rfl
  have hleft : index.find? "test.Left" = some ⟨0, left⟩ := by rw [hentries]; rfl
  have hright : index.find? "test.Right" = some ⟨1, right⟩ := by rw [hentries]; rfl
  have hbranches : index.branches impl = [[⟨2, both⟩, ⟨0, left⟩, ⟨1, right⟩]] := by
    simp [TypeIndex.branches_eq, TypeDecl.directSupertypes, impl,
      TypeIndex.branchTypesFrom_of_find?_eq_some, hboth, TypeIndex.supertypesFrom_eq,
      TypeIndex.superclassChain, TypeIndex.interfacesAbove, both,
      TypeIndex.interfacesFrom_of_find?_eq_some, hleft, left, hright, right]
  rw [TypeIndex.overridden, show inImpl.owner = impl from rfl, hbranches]
  rfl

/-- What the check makes of the program: the class overrides both declarations, and is compared with
the first one only. -/
structure Checked (v : Validator) : Prop where
  accepted : Validator.ofProgram? program {} = .ok v
  methods : v.program.methods = [inLeft, inRight, inImpl]
  participates : ∀ m ∈ [inLeft, inRight, inImpl], v.participates m = true
  lookup_inImpl : v.lookup inImpl = [⟨0, inLeft⟩, ⟨0, inRight⟩]
  nearest_inLeft : v.nearest inLeft = []
  nearest_inRight : v.nearest inRight = []
  nearest_inImpl : v.nearest inImpl = [inLeft]
  contractOf_inLeft :
    v.contractOf inLeft = .ok (contract "test.Left" "java.lang.String" "test/Left.java" 4)
  contractOf_inRight :
    v.contractOf inRight = .ok (contract "test.Right" "java.lang.Long" "test/Right.java" 4)
  contractOf_inImpl :
    v.contractOf inImpl = .ok (contract "test.Impl" "java.lang.String" "test/Impl.java" 6)

theorem exists_checked : ∃ v, Checked v := by
  obtain ⟨index, h⟩ := TypeIndex.exists_ofProgram?_iff.2 (show program.DistinctTypes by decide)
  have hlookup := overridden_inImpl h
  -- only the class overrides anything; the interfaces have no supertypes to look into
  refine ⟨⟨program, index.overridden, ({} : Settings).names.reader, .allow⟩,
    Validator.ofProgram?_eq_ok_iff.2 ⟨index, h, rfl⟩, rfl, ?_, hlookup, ?_, ?_, ?_, rfl, rfl, rfl⟩
  · simp only [List.forall_mem_cons]
    exact ⟨rfl, rfl, rfl, by simp⟩
  · exact congrArg (nearestParticipating _) (index.overridden_of_no_supertypes rfl)
  · exact congrArg (nearestParticipating _) (index.overridden_of_no_supertypes rfl)
  · exact congrArg (nearestParticipating _) hlookup

/-- The report on the program is clean. -/
theorem Checked.isClean {v : Validator} (h : Checked v) : v.report.isClean = true := by
  refine Validator.isClean_report_iff.2 fun m hm => ?_
  rw [h.methods] at hm
  refine (Validator.methodProblems_eq_nil_iff (h.participates m hm)).2 ?_
  simp only [List.mem_cons, List.not_mem_nil, or_false] at hm
  rcases hm with rfl | rfl | rfl
  · exact ⟨_, h.contractOf_inLeft, rfl, by simp [h.nearest_inLeft]⟩
  · exact ⟨_, h.contractOf_inRight, rfl, by simp [h.nearest_inRight]⟩
  · refine ⟨_, h.contractOf_inImpl, rfl, fun a ha => ?_⟩
    obtain rfl : a = inLeft := by simpa [h.nearest_inImpl] using ha
    exact Validator.Conforms.conflicts_eq_false
      ⟨_, _, h.contractOf_inImpl, h.contractOf_inLeft, by decide⟩ h.contractOf_inImpl

/-- The report on the program is clean, and the class does not conform to the second interface,
whose method it overrides. -/
theorem not_certified : ∃ v, Validator.ofProgram? program {} = .ok v ∧
    v.report.isClean = true ∧ v.Overrides inImpl inRight ∧
    (∃ c, v.contractOf inImpl = .ok c) ∧ (∃ d, v.contractOf inRight = .ok d) ∧
    ¬ v.Conforms inImpl inRight := by
  obtain ⟨v, h⟩ := exists_checked
  have hoverrides : v.Overrides inImpl inRight :=
    ⟨by simp [h.methods], h.participates _ (by simp),
      ⟨⟨0, inRight⟩, by simp [h.lookup_inImpl], rfl⟩, h.participates _ (by simp)⟩
  refine ⟨v, h.accepted, h.isClean, hoverrides, ⟨_, h.contractOf_inImpl⟩, ⟨_, h.contractOf_inRight⟩,
    ?_⟩
  rintro ⟨c, d, hc, hd, hcd⟩
  obtain rfl := Except.ok.inj (h.contractOf_inImpl.symm.trans hc)
  obtain rfl := Except.ok.inj (h.contractOf_inRight.symm.trans hd)
  exact absurd hcd (by decide)

/-- In the same program the class is linked to the first interface, and conforms to it. -/
theorem certified_left : ∃ v, Validator.ofProgram? program {} = .ok v ∧
    v.report.isClean = true ∧ v.Overrides inImpl inLeft ∧ v.Linked inImpl inLeft ∧
    v.Conforms inImpl inLeft := by
  obtain ⟨v, h⟩ := exists_checked
  have hcompares : v.Compares inImpl inLeft :=
    ⟨by simp [h.methods], h.participates _ (by simp), by simp [h.nearest_inImpl]⟩
  obtain ⟨hcertified, -⟩ := certified_exact h.accepted
  obtain ⟨-, -, hconforms⟩ := hcertified h.isClean inImpl inLeft hcompares.overrides
  exact ⟨v, h.accepted, h.isClean, hcompares.overrides, .rel _ _ hcompares,
    hconforms (.rel _ _ hcompares)⟩

end Siblings

end OverrideCheck
