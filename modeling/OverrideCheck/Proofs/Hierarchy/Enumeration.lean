import OverrideCheck.Proofs.Hierarchy.Acyclic

/-!
# The plain enumeration of supertypes

The supertypes of a type listed without a set of seen names. Every direct supertype is expanded in
full: itself, then its superclasses innermost first, then the interfaces of it and of each of these
superclasses, each followed by all that it extends. What is met more than once is listed more than
once, and only afterwards the first occurrence of each type is kept. This is the order that the walk
over supertypes is meant to produce; that it does is shown elsewhere.

Expanding in full comes to an end only where going up does, so the expansions are by recursion on
`TypeIndex.Above`, which has to be well-founded.

* `TypeIndex.preorder`, `TypeIndex.interfaceExpansion` — interfaces with all that they extend;
* `TypeIndex.superclasses`, `TypeIndex.expansion` — superclasses, and the expansion of a type;
* `firstOccurrences`, `keepFirst` — the first occurrences in a list, and list by list in several
  (`flatten_keepFirst`);
* `TypeIndex.enumerated` — the declarations that a method overrides according to the enumeration.

An expansion holds, with a type, all that the type expands to (`preorder_subset`), and nothing but
what is above the type that it started from (`transGen_of_mem_interfaceExpansion`).
-/

namespace OverrideCheck

/-! ### First occurrences -/

/-- The types of a list whose names are not among those seen, each at its first occurrence only. -/
def firstOccurrences (seen : List String) : List TypeEntry → List TypeEntry
  | [] => []
  | e :: rest =>
    if e.name ∈ seen then firstOccurrences seen rest
    else e :: firstOccurrences (e.name :: seen) rest

/-- Of each list the types that occur in no list before it, each at its first occurrence only. -/
def keepFirst (seen : List String) : List (List TypeEntry) → List (List TypeEntry)
  | [] => []
  | es :: rest => firstOccurrences seen es :: keepFirst (es.map (·.name) ++ seen) rest

section FirstOccurrences

variable {seen seen' : List String} {es fs : List TypeEntry}

/-- It matters only which names of the list have been seen. -/
theorem firstOccurrences_congr (h : ∀ e ∈ es, e.name ∈ seen ↔ e.name ∈ seen') :
    firstOccurrences seen es = firstOccurrences seen' es := by
  induction es generalizing seen seen' with
  | nil => rfl
  | cons e rest ih =>
    obtain ⟨hfirst, hrest⟩ := List.forall_mem_cons.1 h
    have hcons : ∀ f ∈ rest, f.name ∈ e.name :: seen ↔ f.name ∈ e.name :: seen' := fun f hf => by
      rw [List.mem_cons, List.mem_cons, hrest f hf]
    rw [firstOccurrences, firstOccurrences, ih hrest, ih hcons]
    exact if_congr hfirst rfl rfl

/-- After one list, the first occurrences in another are those of names that were in neither. -/
theorem firstOccurrences_append (seen : List String) (es fs : List TypeEntry) :
    firstOccurrences seen (es ++ fs) =
      firstOccurrences seen es ++ firstOccurrences (es.map (·.name) ++ seen) fs := by
  induction es generalizing seen with
  | nil => rfl
  | cons e rest ih =>
    rw [List.cons_append, firstOccurrences, firstOccurrences, ih, ih]
    -- the names seen in the end are the same either way, only in another order
    by_cases hseen : e.name ∈ seen
    · rw [if_pos hseen, if_pos hseen]
      refine congrArg _ (firstOccurrences_congr fun f _ => ?_)
      simp only [List.map_cons, List.mem_append, List.mem_cons]
      constructor
      · exact fun h => h.imp_left Or.inr
      · rintro ((hf | hf) | hf)
        · exact Or.inr (hf ▸ hseen)
        · exact Or.inl hf
        · exact Or.inr hf
    · rw [if_neg hseen, if_neg hseen, List.cons_append]
      refine congrArg _ (congrArg _ (firstOccurrences_congr fun f _ => ?_))
      simp only [List.map_cons, List.mem_append, List.mem_cons]
      tauto

/-- What has been seen altogether has no first occurrence. -/
theorem firstOccurrences_eq_nil (h : ∀ e ∈ es, e.name ∈ seen) : firstOccurrences seen es = [] := by
  induction es with
  | nil => rfl
  | cons e rest ih =>
    obtain ⟨hfirst, hrest⟩ := List.forall_mem_cons.1 h
    rw [firstOccurrences, if_pos hfirst, ih hrest]

/-- Different types that were not seen occur there for the first time. -/
theorem firstOccurrences_eq_self (hnodup : (es.map (·.name)).Nodup)
    (hnew : ∀ e ∈ es, e.name ∉ seen) : firstOccurrences seen es = es := by
  induction es generalizing seen with
  | nil => rfl
  | cons e rest ih =>
    obtain ⟨hfirst, hrest⟩ := List.forall_mem_cons.1 hnew
    obtain ⟨hother, hnodup⟩ := List.nodup_cons.1 hnodup
    rw [firstOccurrences, if_neg hfirst, ih hnodup]
    intro f hf hmem
    rcases List.mem_cons.1 hmem with heq | hseen
    · exact hother (List.mem_map.2 ⟨f, hf, heq⟩)
    · exact hrest f hf hseen

/-- Every name of a list was seen or has a first occurrence, and no other name has one. -/
theorem mem_map_name_firstOccurrences_iff {name : String} :
    name ∈ (firstOccurrences seen es).map (·.name) ↔ name ∈ es.map (·.name) ∧ name ∉ seen := by
  induction es generalizing seen with
  | nil => simp [firstOccurrences]
  | cons e rest ih =>
    rw [firstOccurrences]
    split
    · next hseen =>
      -- a name that was not seen is not the one of the first type
      rw [ih, List.map_cons, List.mem_cons]
      refine and_congr_left fun hnew => ?_
      have hne : name ≠ e.name := fun heq => hnew (heq ▸ hseen)
      simp [hne]
    · next hseen =>
      rw [List.map_cons, List.mem_cons, ih, List.map_cons, List.mem_cons, List.mem_cons]
      by_cases heq : name = e.name
      · simp [heq, hseen]
      · simp [heq]

/-- Keeping the first occurrences list by list keeps those of all lists together. -/
theorem flatten_keepFirst (seen : List String) (groups : List (List TypeEntry)) :
    (keepFirst seen groups).flatten = firstOccurrences seen groups.flatten := by
  induction groups generalizing seen with
  | nil => rfl
  | cons es rest ih =>
    rw [keepFirst, List.flatten_cons, List.flatten_cons, ih, firstOccurrences_append]

/-- It matters only which names of the lists have been seen. -/
theorem keepFirst_congr {groups : List (List TypeEntry)}
    (h : ∀ es ∈ groups, ∀ e ∈ es, e.name ∈ seen ↔ e.name ∈ seen') :
    keepFirst seen groups = keepFirst seen' groups := by
  induction groups generalizing seen seen' with
  | nil => rfl
  | cons es rest ih =>
    obtain ⟨hfirst, hrest⟩ := List.forall_mem_cons.1 h
    rw [keepFirst, keepFirst, firstOccurrences_congr hfirst]
    refine congrArg _ (ih fun fs hfs f hf => ?_)
    rw [List.mem_append, List.mem_append, hrest fs hfs f hf]

end FirstOccurrences

namespace TypeIndex

/-! ### Expansions -/

/-- What is known under the names of a list, in order. -/
def known (index : TypeIndex) (names : List String) : List TypeEntry := names.filterMap index.find?

/-- What is known under an interface of a type is above the type. -/
theorem above_of_mem_known_interfaces {index : TypeIndex} {e f : TypeEntry}
    (h : f ∈ index.known e.decl.interfaces) : index.Above f e := by
  obtain ⟨name, hname, hfind⟩ := List.mem_filterMap.1 h
  exact ⟨name, List.mem_append_right _ hname, hfind⟩

/-- What is known under the superclass of a type is above the type. -/
theorem above_of_superclass {index : TypeIndex} {e f : TypeEntry}
    (h : e.decl.superclass.bind index.find? = some f) : index.Above f e := by
  obtain ⟨name, hname, hfind⟩ := Option.bind_eq_some_iff.1 h
  exact ⟨name, List.mem_append_left _ (Option.mem_toList.2 hname), hfind⟩

/-- A type and then, one after the other, the interfaces it names with all that they extend. -/
def preorder (index : TypeIndex) (hwf : WellFounded index.Above) (e : TypeEntry) : List TypeEntry :=
  e :: (index.known e.decl.interfaces).attach.flatMap fun f => index.preorder hwf f.1
termination_by hwf.wrap e
decreasing_by exact above_of_mem_known_interfaces f.2

/-- The interfaces of a list of names, each with all that it extends. -/
def interfaceExpansion (index : TypeIndex) (hwf : WellFounded index.Above) (names : List String) :
    List TypeEntry :=
  (index.known names).flatMap (index.preorder hwf)

/-- The superclasses of a type, innermost first, as far as they are in the program. -/
def superclasses (index : TypeIndex) (hwf : WellFounded index.Above) (e : TypeEntry) :
    List TypeEntry :=
  match _h : e.decl.superclass.bind index.find? with
  | none => []
  | some f => f :: index.superclasses hwf f
termination_by hwf.wrap e
decreasing_by exact above_of_superclass _h

/-- A type and its superclasses, then the interfaces of each of them in turn. -/
def expansion (index : TypeIndex) (hwf : WellFounded index.Above) (e : TypeEntry) :
    List TypeEntry :=
  (e :: index.superclasses hwf e) ++
    (e :: index.superclasses hwf e).flatMap fun c => index.interfaceExpansion hwf c.decl.interfaces

/-- The expansions of the direct supertypes of a type, each without what occurs before, and without
those of which nothing is left. -/
def enumeratedBranches (index : TypeIndex) (hwf : WellFounded index.Above) (t : TypeDecl) :
    List (List TypeEntry) :=
  (keepFirst [] ((index.known t.directSupertypes).map (index.expansion hwf))).filter (!·.isEmpty)

/-- The declarations a method overrides, according to the plain enumeration. -/
def enumerated (index : TypeIndex) (hwf : WellFounded index.Above) : AncestorLookup := fun m =>
  (index.enumeratedBranches hwf m.owner).zipIdx.flatMap fun (types, branch) =>
    types.filterMap fun e =>
      (e.declaration? m.method.node.erasedSignature).map fun decl => ⟨branch, decl⟩

variable {index : TypeIndex} {hwf : WellFounded index.Above} {names : List String}
  {e f : TypeEntry}

/-- An interface comes first, and then the expansion of those it extends. -/
theorem preorder_eq (e : TypeEntry) :
    index.preorder hwf e = e :: index.interfaceExpansion hwf e.decl.interfaces := by
  rw [preorder, interfaceExpansion]
  conv_rhs => rw [← List.attach_map_subtype_val (index.known e.decl.interfaces), List.flatMap_map]

theorem mem_preorder_self (e : TypeEntry) : e ∈ index.preorder hwf e := by
  rw [preorder_eq]
  exact List.mem_cons_self

/-- The superclasses of a type are its superclass and the superclasses of that one. -/
theorem superclasses_eq_cons (h : e.decl.superclass.bind index.find? = some f) :
    index.superclasses hwf e = f :: index.superclasses hwf f := by
  rw [superclasses]
  split
  · next hnone => cases h.symm.trans hnone
  · next hsome => rw [Option.some.inj (hsome.symm.trans h)]

/-- A type has no superclasses if none is known under the name of the first one. -/
theorem superclasses_eq_nil (h : e.decl.superclass.bind index.find? = none) :
    index.superclasses hwf e = [] := by
  rw [superclasses]
  split
  · rfl
  · next hsome => cases h.symm.trans hsome

/-- An interface expands to itself and all that it extends. -/
theorem expansion_eq_preorder (h : e.decl.superclass = none) :
    index.expansion hwf e = index.preorder hwf e := by
  have hnone : index.superclasses hwf e = [] := superclasses_eq_nil (by rw [h]; rfl)
  rw [expansion, hnone, preorder_eq, List.flatMap_singleton, List.singleton_append]

theorem interfaceExpansion_append (names others : List String) :
    index.interfaceExpansion hwf (names ++ others) =
      index.interfaceExpansion hwf names ++ index.interfaceExpansion hwf others := by
  rw [interfaceExpansion, known, List.filterMap_append, List.flatMap_append]
  rfl

/-- The interfaces of several types expand as their lists do together. -/
theorem flatMap_interfaceExpansion (es : List TypeEntry) :
    (es.flatMap fun c => index.interfaceExpansion hwf c.decl.interfaces) =
      index.interfaceExpansion hwf (es.flatMap fun c => c.decl.interfaces) := by
  induction es with
  | nil => rfl
  | cons e rest ih => rw [List.flatMap_cons, List.flatMap_cons, interfaceExpansion_append, ih]

/-- A name of the program at the head of a list is expanded first. -/
theorem interfaceExpansion_cons_of_find?_eq_some {name : String}
    (h : index.find? name = some e) :
    index.interfaceExpansion hwf (name :: names) =
      index.preorder hwf e ++ index.interfaceExpansion hwf names := by
  rw [interfaceExpansion, known, List.filterMap_cons_some h, List.flatMap_cons]
  rfl

/-- A name from outside the program expands to nothing. -/
theorem interfaceExpansion_cons_of_find?_eq_none {name : String}
    (h : index.find? name = none) :
    index.interfaceExpansion hwf (name :: names) = index.interfaceExpansion hwf names := by
  rw [interfaceExpansion, known, List.filterMap_cons_none h]
  rfl

/-! ### What an expansion holds -/

/-- Types that are known under one name are one type. -/
theorem eq_of_find?_name (he : index.find? e.name = some e) (hf : index.find? f.name = some f)
    (h : e.name = f.name) : e = f := by
  rw [h, hf] at he
  exact (Option.some.inj he).symm

/-- Among known types, a name occurs where its type does. -/
theorem mem_map_name_iff {es : List TypeEntry} (hes : ∀ f ∈ es, index.find? f.name = some f)
    (he : index.find? e.name = some e) : e.name ∈ es.map (·.name) ↔ e ∈ es := by
  refine ⟨fun hmem => ?_, fun hmem => List.mem_map_of_mem hmem⟩
  obtain ⟨f, hf, hname⟩ := List.mem_map.1 hmem
  exact eq_of_find?_name (hes f hf) he hname ▸ hf

/-- An expansion holds what is known under its names, and what these expand to. -/
theorem mem_interfaceExpansion_iff :
    f ∈ index.interfaceExpansion hwf names ↔
      ∃ name ∈ names, ∃ e, index.find? name = some e ∧ f ∈ index.preorder hwf e := by
  simp only [interfaceExpansion, known, List.mem_flatMap, List.mem_filterMap]
  constructor
  · rintro ⟨e, ⟨name, hname, hfind⟩, hf⟩
    exact ⟨name, hname, e, hfind, hf⟩
  · rintro ⟨name, hname, e, hfind, hf⟩
    exact ⟨e, ⟨name, hname, hfind⟩, hf⟩

/-- The expansion of a type holds, with another type, all that this one expands to. -/
theorem preorder_subset (h : f ∈ index.preorder hwf e) :
    index.preorder hwf f ⊆ index.preorder hwf e := by
  induction e using hwf.induction with
  | _ e ih =>
    rw [preorder_eq, List.mem_cons] at h
    rcases h with rfl | h
    · exact fun _ hg => hg
    · -- it is in the expansion of an interface, which is a part of this one
      obtain ⟨name, hname, c, hfind, hf⟩ := mem_interfaceExpansion_iff.1 h
      have hc := ih c ⟨name, List.mem_append_right _ hname, hfind⟩ hf
      intro g hg
      rw [preorder_eq]
      exact List.mem_cons_of_mem _ (mem_interfaceExpansion_iff.2 ⟨name, hname, c, hfind, hc hg⟩)

/-- The expansion of a list holds, with a type, all that this one expands to. -/
theorem preorder_subset_interfaceExpansion (h : f ∈ index.interfaceExpansion hwf names) :
    index.preorder hwf f ⊆ index.interfaceExpansion hwf names := by
  obtain ⟨name, hname, e, hfind, hf⟩ := mem_interfaceExpansion_iff.1 h
  exact fun g hg => mem_interfaceExpansion_iff.2 ⟨name, hname, e, hfind, preorder_subset hf hg⟩

/-- A property that interfaces inherit from the types that name them holds of an expansion once it
holds of what is known under the names it starts from. -/
theorem interfaceExpansion_forall {Q : TypeEntry → Prop}
    (hstep : ∀ e, Q e → ∀ name ∈ e.decl.interfaces, ∀ f, index.find? name = some f → Q f)
    (hnames : ∀ name ∈ names, ∀ f, index.find? name = some f → Q f) :
    ∀ f ∈ index.interfaceExpansion hwf names, Q f := by
  -- for the expansion of one type this is by induction on what is above it
  have hpreorder : ∀ e, Q e → ∀ f ∈ index.preorder hwf e, Q f := by
    intro e
    induction e using hwf.induction with
    | _ e ih =>
      intro he f hf
      rw [preorder_eq, List.mem_cons] at hf
      rcases hf with rfl | hf
      · exact he
      · obtain ⟨name, hname, c, hfind, hf⟩ := mem_interfaceExpansion_iff.1 hf
        exact ih c ⟨name, List.mem_append_right _ hname, hfind⟩ (hstep e he name hname c hfind) f hf
  intro f hf
  obtain ⟨name, hname, e, hfind, hf⟩ := mem_interfaceExpansion_iff.1 hf
  exact hpreorder e (hnames name hname e hfind) f hf

/-- A property that superclasses inherit holds of all superclasses of a type once it holds of the
first one. -/
theorem superclasses_forall {Q : TypeEntry → Prop}
    (hstep : ∀ e, Q e → ∀ f, e.decl.superclass.bind index.find? = some f → Q f)
    (hfirst : ∀ f, e.decl.superclass.bind index.find? = some f → Q f) :
    ∀ f ∈ index.superclasses hwf e, Q f := by
  induction e using hwf.induction with
  | _ e ih =>
    intro f hf
    cases hsuper : e.decl.superclass.bind index.find? with
    | none =>
      rw [superclasses_eq_nil hsuper] at hf
      cases hf
    | some c =>
      rw [superclasses_eq_cons hsuper, List.mem_cons] at hf
      rcases hf with rfl | hf
      · exact hfirst f hsuper
      · -- what holds of the superclass holds of the superclass of that one
        exact ih c (above_of_superclass hsuper) (hstep c (hfirst c hsuper)) f hf

/-- What the interfaces of a type expand to is above the type. -/
theorem transGen_of_mem_interfaceExpansion
    (h : f ∈ index.interfaceExpansion hwf e.decl.interfaces) :
    Relation.TransGen index.Above f e := by
  have hinterface {c g : TypeEntry} {name : String} (hname : name ∈ c.decl.interfaces)
      (hfind : index.find? name = some g) : index.Above g c :=
    ⟨name, List.mem_append_right _ hname, hfind⟩
  refine interfaceExpansion_forall (Q := fun f => Relation.TransGen index.Above f e) ?_ ?_ f h
  · exact fun c hc name hname g hfind => .head (hinterface hname hfind) hc
  · exact fun name hname g hfind => .single (hinterface hname hfind)

/-- The superclasses of a type are above it. -/
theorem transGen_of_mem_superclasses (h : f ∈ index.superclasses hwf e) :
    Relation.TransGen index.Above f e := by
  refine superclasses_forall (Q := fun f => Relation.TransGen index.Above f e) ?_ ?_ f h
  · exact fun c hc g hsuper => .head (above_of_superclass hsuper) hc
  · exact fun g hsuper => .single (above_of_superclass hsuper)

/-- Everything above a type is known under its own name. -/
theorem find?_of_transGen_above (h : Relation.TransGen index.Above f e) :
    index.find? f.name = some f := by
  rcases Relation.TransGen.head'_iff.1 h with ⟨c, hfc, -⟩
  exact hfc.find?

/-- Everything in an expansion is known under its own name. -/
theorem find?_of_mem_interfaceExpansion (h : f ∈ index.interfaceExpansion hwf names) :
    index.find? f.name = some f :=
  interfaceExpansion_forall (Q := fun f => index.find? f.name = some f)
    (fun _ _ _ _ _ hfind => find?_name_of_find? hfind)
    (fun _ _ _ hfind => find?_name_of_find? hfind) f h

/-- Everything in the expansion of a type is this type or above it. -/
theorem reflTransGen_of_mem_expansion (h : f ∈ index.expansion hwf e) :
    Relation.ReflTransGen index.Above f e := by
  have hclass : ∀ c ∈ e :: index.superclasses hwf e, Relation.ReflTransGen index.Above c e := by
    intro c hc
    rcases List.mem_cons.1 hc with rfl | hc
    · exact .refl
    · exact (transGen_of_mem_superclasses hc).to_reflTransGen
  -- a class of the chain, or what one of its classes implements
  rcases List.mem_append.1 h with hf | hf
  · exact hclass f hf
  · obtain ⟨c, hc, hf⟩ := List.mem_flatMap.1 hf
    exact (transGen_of_mem_interfaceExpansion hf).to_reflTransGen.trans (hclass c hc)

/-- Everything in the expansion of a type of the program is known under its own name. -/
theorem find?_of_mem_expansion (he : index.find? e.name = some e)
    (hf : f ∈ index.expansion hwf e) : index.find? f.name = some f := by
  rcases Relation.reflTransGen_iff_eq_or_transGen.1 (reflTransGen_of_mem_expansion hf) with
    rfl | hf
  · exact he
  · exact find?_of_transGen_above hf

/-- What is above a type of the program bears another name. -/
theorem name_ne_of_transGen_above (hwf : WellFounded index.Above)
    (he : index.find? e.name = some e) (h : Relation.TransGen index.Above f e) :
    f.name ≠ e.name := by
  intro heq
  -- under one name there is one type, and that would be above itself
  obtain rfl := eq_of_find?_name (find?_of_transGen_above h) he heq
  exact hwf.transGen.irrefl.irrefl _ h

end TypeIndex

end OverrideCheck
