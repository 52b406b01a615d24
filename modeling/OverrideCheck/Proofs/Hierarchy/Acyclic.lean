import Mathlib.Data.Set.Card
import OverrideCheck.Proofs.Hierarchy.Supertype

/-!
# Hierarchies without circles

A program is acyclic when no type is a proper supertype of itself. Steps from a type to what is
declared under the names of its direct supertypes then come to an end, whichever of them are
taken, and may be recursed on (`Program.Acyclic.wellFounded_above`).

* `Program.Acyclic` — no type is above itself;
* `Program.Acyclic.of_rank` — acyclicity from a rank that falls from a name to the names above it;
* `TypeIndex.Above` — one entry is known under a name that another gives as a direct supertype;
* `Program.Stratified` — classes and interfaces are kept apart, as Java has it.
-/

namespace OverrideCheck

namespace Program

variable {p : Program}

/-- No type is a proper supertype of itself. -/
def Acyclic (p : Program) : Prop := ∀ t, ¬ Relation.TransGen p.DirectSupertype t t

/-- A program is acyclic if its names have ranks that fall from a type to its direct supertypes. -/
theorem Acyclic.of_rank (rank : String → Nat)
    (h : ∀ t ∈ p.types, ∀ s ∈ t.directSupertypes, rank s < rank t.name) : p.Acyclic := by
  have hfalls : ∀ s t, Relation.TransGen p.DirectSupertype s t → rank t.name < rank s.name := by
    intro s t hst
    induction hst with
    | single hstep =>
      obtain ⟨hsub, -, hnamed⟩ := directSupertype_iff.1 hstep
      exact h _ hsub _ hnamed
    | tail _ hstep ih =>
      obtain ⟨hsub, -, hnamed⟩ := directSupertype_iff.1 hstep
      exact (h _ hsub _ hnamed).trans ih
  exact fun t ht => lt_irrefl _ (hfalls t t ht)

/-- In a hierarchy without circles a proper supertype has fewer proper supertypes. -/
theorem Acyclic.ncard_supertypes_lt (hp : p.Acyclic) {s t : TypeDecl}
    (h : Relation.TransGen p.DirectSupertype s t) :
    {d | Relation.TransGen p.DirectSupertype t d}.ncard <
      {d | Relation.TransGen p.DirectSupertype s d}.ncard := by
  -- the supertype is itself above the other type, and not above itself
  refine Set.ncard_lt_ncard ⟨fun d hd => h.trans hd, fun hsub => hp t (hsub h)⟩ ?_
  refine (List.finite_toSet p.types).subset fun d hd => ?_
  rcases Relation.TransGen.tail'_iff.1 hd with ⟨_, -, hstep⟩
  exact (directSupertype_iff.1 hstep).2.1

/-- Classes are extended and interfaces are implemented: no name is given as a superclass here and
as an interface there, and a type that is named as an interface has no superclass. -/
structure Stratified (p : Program) : Prop where
  apart : ∀ t ∈ p.types, ∀ name ∈ t.superclass, ∀ u ∈ p.types, name ∉ u.interfaces
  superclass_eq_none : ∀ t ∈ p.types, ∀ u ∈ p.types, u.name ∈ t.interfaces → u.superclass = none

end Program

namespace TypeIndex

variable {p : Program} {index : TypeIndex}

/-- `f` is known under a name that `e` gives as a direct supertype. -/
def Above (index : TypeIndex) (f e : TypeEntry) : Prop :=
  ∃ name ∈ e.decl.directSupertypes, index.find? name = some f

/-- What is above a type of the program is declared as a direct supertype of it. -/
theorem Above.directSupertype (h : ofProgram? p = .ok index) {e f : TypeEntry}
    (he : index.find? e.name = some e) (hfe : index.Above f e) :
    p.DirectSupertype e.decl f.decl := by
  obtain ⟨name, hname, hfind⟩ := hfe
  refine Program.directSupertype_iff.2 ⟨decl_mem_types h he, decl_mem_types h hfind, ?_⟩
  rwa [show f.decl.name = name from name_of_find? hfind]

/-- What is above anything is known under its own name. -/
theorem Above.find? {e f : TypeEntry} (hfe : index.Above f e) : index.find? f.name = some f := by
  obtain ⟨name, -, hfind⟩ := hfe
  exact find?_name_of_find? hfind

/-- In a hierarchy without circles, going up comes to an end. -/
theorem wellFounded_above (h : ofProgram? p = .ok index) (hp : p.Acyclic) :
    WellFounded index.Above := by
  -- a type of the program has more proper supertypes than what is above it
  have hknown : ∀ k e, index.find? e.name = some e →
      {d | Relation.TransGen p.DirectSupertype e.decl d}.ncard = k → Acc index.Above e := by
    intro k
    induction k using Nat.strong_induction_on with
    | _ k ih =>
      intro e he hk
      refine Acc.intro e fun f hf => ?_
      have hfewer := hp.ncard_supertypes_lt (.single (hf.directSupertype h he))
      exact ih _ (hk ▸ hfewer) f hf.find? rfl
  -- an entry need not be known itself, but all that is above it is
  exact ⟨fun e => Acc.intro e fun f hf => hknown _ f hf.find? rfl⟩

end TypeIndex

end OverrideCheck
