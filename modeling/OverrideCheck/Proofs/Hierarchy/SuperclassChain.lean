import OverrideCheck.Proofs.Hierarchy.Branches

/-!
# The branch of the superclass

A chain of superclasses above a type, each named by the one below it and no type occurring twice,
is walked from its lower end to its upper end before anything else is entered: the superclass is the
first direct supertype, and on its branch the superclasses come before any interface. So the
declarations a method overrides start with those on the chain, all of them on the branch of number
zero. Interfaces on the chain, whatever they extend, come after.

* `TypeIndex.superclassesFrom_prefix` — a chain of superclasses is reported in order;
* `TypeIndex.branchTypesFrom_prefix` — the first branch of a type starts with the chain above it;
* `TypeIndex.overridden_prefix` — and the declarations a method overrides with those on the chain.

That no type occurs twice is what keeps the walk from stopping on the way. The hierarchy may still
run in circles above the chain, and through the interfaces beside it.
-/

namespace OverrideCheck

/-- Every type of a chain of superclasses but the lowest is the superclass of a type. -/
theorem Program.mem_types_of_isChain {p : Program} {t d : TypeDecl} {chain : List TypeDecl}
    (hchain : (t :: chain).IsChain p.Extends) (hd : d ∈ chain) : d ∈ p.types := by
  induction chain generalizing t with
  | nil => cases hd
  | cons s chain ih =>
    obtain ⟨hstep, htail⟩ := List.isChain_cons_cons.1 hchain
    rcases List.mem_cons.1 hd with rfl | hd
    · exact hstep.sup_mem
    · exact ih htail hd

namespace TypeIndex

variable {p : Program} {index : TypeIndex} (h : ofProgram? p = .ok index)

include h

/-- The superclasses above a type are reported in order, from the first one on, if none of their
names was seen. -/
theorem superclassesFrom_prefix (type : String) {seen : List String} {t : TypeDecl}
    {chain : List TypeDecl} (hchain : (t :: chain).IsChain p.Extends) (hdistinct : chain.Nodup)
    (hnew : ∀ d ∈ chain, d.name ∉ seen) :
    ∃ es rest : List TypeEntry, es.map (·.decl) = chain ∧
      (index.superclassesFrom type seen t.superclass).types = es ++ rest := by
  -- induction up the chain; the names that are seen grow by one at each step
  induction chain generalizing t seen with
  | nil => exact ⟨[], _, rfl, rfl⟩
  | cons d chain ih =>
    obtain ⟨hstep, htail⟩ := List.isChain_cons_cons.1 hchain
    obtain ⟨hfirst, hothers⟩ := List.nodup_cons.1 hdistinct
    obtain ⟨e, hfind, rfl⟩ := (mem_types_iff h).1 hstep.sup_mem
    -- the rest of the chain bears other names than the type that is seen now
    have hrest : ∀ d ∈ chain, d.name ∉ e.decl.name :: seen := by
      intro d hd hmem
      rcases List.mem_cons.1 hmem with hname | hseen
      · have hsame := eq_of_name_eq h (Program.mem_types_of_isChain htail hd) hstep.sup_mem hname
        exact hfirst (hsame ▸ hd)
      · exact hnew d (List.mem_cons_of_mem _ hd) hseen
    obtain ⟨es, rest, hes, htypes⟩ := ih htail hothers hrest
    refine ⟨e :: es, rest, by rw [List.map_cons, hes], ?_⟩
    rw [hstep.named, superclassesFrom_of_find?_eq_some (hnew _ List.mem_cons_self) hfind,
      Walk.types_reached, htypes, List.cons_append]

/-- The first branch of a type starts with the superclasses above it, in order. -/
theorem branchTypesFrom_prefix {t s : TypeDecl} {chain : List TypeDecl}
    (hchain : (t :: s :: chain).IsChain p.Extends) (hdistinct : (t :: s :: chain).Nodup) :
    ∃ (es others : List TypeEntry) (rest : List (List TypeEntry)), es.map (·.decl) = s :: chain ∧
      index.branchTypesFrom [t.name] t.directSupertypes = (es ++ others) :: rest := by
  obtain ⟨hstep, htail⟩ := List.isChain_cons_cons.1 hchain
  obtain ⟨hbottom, habove⟩ := List.nodup_cons.1 hdistinct
  obtain ⟨hfirst, hothers⟩ := List.nodup_cons.1 habove
  obtain ⟨e, hfind, rfl⟩ := (mem_types_iff h).1 hstep.sup_mem
  -- two types of the chain that bear one name would be one type of it
  have hname : ∀ d ∈ e.decl :: chain, d.name ≠ t.name := fun d hd heq =>
    hbottom (eq_of_name_eq h (Program.mem_types_of_isChain hchain hd) hstep.sub_mem heq ▸ hd)
  have hnew : ∀ d ∈ chain, d.name ∉ [e.decl.name, t.name] := by
    intro d hd hmem
    rcases List.mem_pair.1 hmem with heq | heq
    · have hsame := eq_of_name_eq h (Program.mem_types_of_isChain htail hd) hstep.sup_mem heq
      exact hfirst (hsame ▸ hd)
    · exact hname d (List.mem_cons_of_mem _ hd) heq
  obtain ⟨es, rest, hes, htypes⟩ := superclassesFrom_prefix h e.decl.name htail hothers hnew
  have hdirect : t.directSupertypes = e.decl.name :: t.interfaces := by
    simp [TypeDecl.directSupertypes, hstep.named]
  have hunseen : e.decl.name ∉ [t.name] := by
    simpa using hname e.decl List.mem_cons_self
  -- on the branch the chain comes first, and the interfaces above it after that
  rw [hdirect, branchTypesFrom_of_find?_eq_some hunseen hfind, supertypesFrom_eq,
    Walk.types_append, superclassChain, htypes, List.append_assoc]
  exact ⟨e :: es, _, _, by rw [List.map_cons, hes], rfl⟩

/-- The declarations a method overrides start with those in the superclasses above its type, all on
the branch of number zero. -/
theorem overridden_prefix {m : MethodRef} {s : TypeDecl} {chain : List TypeDecl}
    (hchain : (m.owner :: s :: chain).IsChain p.Extends)
    (hdistinct : (m.owner :: s :: chain).Nodup) :
    ∃ (es : List TypeEntry) (rest : List Ancestor), es.map (·.decl) = s :: chain ∧
      index.overridden m = (es.filterMap fun e =>
        (e.declaration? m.method.node.erasedSignature).map fun decl => ⟨0, decl⟩) ++ rest := by
  obtain ⟨es, others, rest, hes, hbranches⟩ := branchTypesFrom_prefix h hchain hdistinct
  -- the first branch has number zero, and the chain comes first on it
  rw [overridden, branches_eq, hbranches, List.zipIdx_cons, List.flatMap_cons]
  simp only [List.filterMap_append, List.append_assoc]
  exact ⟨es, _, hes, rfl⟩

end TypeIndex

end OverrideCheck
