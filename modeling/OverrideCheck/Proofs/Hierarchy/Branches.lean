import OverrideCheck.Proofs.Hierarchy.Explored

/-!
# The branches of a type

The branches of a type as lists of types, without the visits that lead nowhere
(`TypeIndex.branchTypesFrom`, `TypeIndex.branches_eq`). Taken together they explore the program
from the type's own name (`branchTypesFrom_explores`), and when the last of them ends everything
that was seen on the way is expanded:

* `branchTypesFrom_closed` — no direct supertype of the type, and no interface of a reported one,
  is left unseen;
* `superclass_mem_seenAfter` — nor is any superclass of the type, at whatever distance. The whole
  chain is walked on the branch of the direct superclass, before any interface is entered, so no
  interface can have been the first to see one of its names.

The declarations a method overrides are read off the branches in order
(`TypeIndex.map_decl_overridden`).
-/

namespace OverrideCheck

namespace TypeIndex

variable {index : TypeIndex} {seen : List String}

/-- The types on each branch of a type whose direct supertypes are listed. -/
def branchTypesFrom (index : TypeIndex) (seen : List String) :
    List String → List (List TypeEntry)
  | [] => []
  | name :: rest =>
    if name ∈ seen then branchTypesFrom index seen rest
    else
      match index.find? name with
      | none => branchTypesFrom index (name :: seen) rest
      | some entry =>
        let above := index.supertypesFrom (name :: seen) entry.decl
        (entry :: above.types) :: branchTypesFrom index above.seen rest

/-- Without direct supertypes there are no branches. -/
@[simp] theorem branchTypesFrom_nil : index.branchTypesFrom seen [] = [] := rfl

/-- A direct supertype that is not in the program and was not seen starts no branch. -/
theorem branchTypesFrom_of_find?_eq_none {name : String} {rest : List String} (h : name ∉ seen)
    (hfind : index.find? name = none) :
    index.branchTypesFrom seen (name :: rest) = index.branchTypesFrom (name :: seen) rest := by
  rw [branchTypesFrom, if_neg h, hfind]

/-- A direct supertype that was not seen starts a branch, followed by its proper supertypes. -/
theorem branchTypesFrom_of_find?_eq_some {name : String} {rest : List String} {entry : TypeEntry}
    (h : name ∉ seen) (hfind : index.find? name = some entry) :
    index.branchTypesFrom seen (name :: rest) =
      (entry :: (index.supertypesFrom (name :: seen) entry.decl).types) ::
        index.branchTypesFrom (index.supertypesFrom (name :: seen) entry.decl).seen rest := by
  rw [branchTypesFrom, if_neg h, hfind]

/-- Every name seen when the last branch ends. -/
def seenAfter (index : TypeIndex) (seen : List String) : List String → List String
  | [] => seen
  | name :: rest =>
    if name ∈ seen then seenAfter index seen rest
    else
      match index.find? name with
      | none => seenAfter index (name :: seen) rest
      | some entry => seenAfter index (index.supertypesFrom (name :: seen) entry.decl).seen rest

/-- The types of the visits on each branch, minus the branches that reach none. -/
theorem branchVisitsFrom_types (index : TypeIndex) (type : String) (seen names : List String) :
    ((index.branchVisitsFrom type seen names).map fun visits =>
      visits.filterMap Visit.entry?).filter (!·.isEmpty) = index.branchTypesFrom seen names := by
  fun_induction branchVisitsFrom index type seen names with
  | case1 seen => rfl
  | case2 seen name rest hseen ih => rw [branchTypesFrom, if_pos hseen, ih]
  | case3 seen name rest hseen hfind ih =>
    -- the visit to a name from outside reaches no type, so its branch is left out
    rw [branchTypesFrom, if_neg hseen, hfind]
    exact ih
  | case4 seen name rest hseen entry hfind above ih =>
    rw [branchTypesFrom, if_neg hseen, hfind]
    exact congrArg _ ih

/-- The branches of a type are the walks from its direct supertypes, its own name being seen. -/
theorem branches_eq (index : TypeIndex) (t : TypeDecl) :
    index.branches t = index.branchTypesFrom [t.name] t.directSupertypes :=
  index.branchVisitsFrom_types t.name [t.name] t.directSupertypes

/-! ### The branches explore -/

/-- The branches together explore, whichever of them a type is reported on. -/
theorem branchTypesFrom_explores (index : TypeIndex) (seen names : List String) :
    Explores index seen (index.branchTypesFrom seen names).flatten
      (index.seenAfter seen names) := by
  fun_induction branchTypesFrom index seen names with
  | case1 seen => exact Explores.refl index seen
  | case2 seen name rest hseen ih =>
    rw [seenAfter, if_pos hseen]
    exact ih
  | case3 seen name rest hseen hfind ih =>
    rw [seenAfter, if_neg hseen, hfind]
    exact (Explores.outside hfind).append ih
  | case4 seen name rest hseen entry hfind above ih =>
    rw [seenAfter, if_neg hseen, hfind]
    -- the branch begins with the direct supertype and goes on with what is above it
    have habove := (Explores.reached hfind hseen).append
      (index.supertypesFrom_explores (name :: seen) entry.decl)
    exact habove.append ih

/-- When the last branch ends, no direct supertype and no interface of a reported type is left
unseen. -/
theorem branchTypesFrom_closed (index : TypeIndex) (seen names : List String) :
    names ⊆ index.seenAfter seen names ∧
      ∀ e ∈ (index.branchTypesFrom seen names).flatten,
        e.decl.interfaces ⊆ index.seenAfter seen names := by
  fun_induction branchTypesFrom index seen names with
  | case1 seen => simp
  | case2 seen name rest hseen ih =>
    rw [seenAfter, if_pos hseen]
    have hkept := (index.branchTypesFrom_explores seen rest).subset hseen
    exact ⟨List.cons_subset.2 ⟨hkept, ih.1⟩, ih.2⟩
  | case3 seen name rest hseen hfind ih =>
    rw [seenAfter, if_neg hseen, hfind]
    have hkept := (index.branchTypesFrom_explores (name :: seen) rest).subset List.mem_cons_self
    exact ⟨List.cons_subset.2 ⟨hkept, ih.1⟩, ih.2⟩
  | case4 seen name rest hseen entry hfind above ih =>
    rw [seenAfter, if_neg hseen, hfind]
    have hlater := (index.branchTypesFrom_explores above.seen rest).subset
    have habove := index.supertypesFrom_explores (name :: seen) entry.decl
    obtain ⟨hown, hreported⟩ := index.supertypesFrom_closed (name :: seen) entry.decl
    -- what one branch saw is still seen when the last of them ends
    refine ⟨List.cons_subset.2 ⟨hlater (habove.subset List.mem_cons_self), ih.1⟩, fun e he => ?_⟩
    rw [List.flatten_cons, List.cons_append, List.mem_cons, List.mem_append] at he
    rcases he with rfl | he | he
    · exact fun i hi => hlater (hown hi)
    · exact fun i hi => hlater (hreported e he hi)
    · exact ih.2 e he

/-- An inherited property that holds of the direct supertypes holds of every type on a branch. -/
theorem branchTypesFrom_forall {Q : String → Prop} (hQ : index.Inherited Q)
    (seen names : List String) (hnames : ∀ name ∈ names, Q name) :
    ∀ e ∈ (index.branchTypesFrom seen names).flatten, Q e.name := by
  fun_induction branchTypesFrom index seen names with
  | case1 seen => simp
  | case2 seen name rest hseen ih => exact ih fun n hn => hnames n (List.mem_cons_of_mem _ hn)
  | case3 seen name rest hseen hfind ih =>
    exact ih fun n hn => hnames n (List.mem_cons_of_mem _ hn)
  | case4 seen name rest hseen entry hfind above ih =>
    have hname : Q name := hnames name List.mem_cons_self
    intro e he
    rw [List.flatten_cons, List.cons_append, List.mem_cons, List.mem_append] at he
    rcases he with rfl | he | he
    · rwa [name_of_find? hfind]
    · exact supertypesFrom_forall hQ _ _ (hQ name entry hname hfind) e he
    · exact ih (fun n hn => hnames n (List.mem_cons_of_mem _ hn)) e he

/-! ### The chain of superclasses -/

section Accepted

variable {p : Program} (h : ofProgram? p = .ok index)

include h

/-- The names seen on the way up from a type and its superclass hold every superclass of the type:
whichever declared type stands under one of them, its own superclass is among them too. -/
theorem superclass_mem_superclassChain {t s d : TypeDecl} (hts : p.Extends t s)
    (hd : Relation.ReflTransGen p.Extends t d) :
    d.name ∈ (index.superclassChain [s.name, t.name] s).seen := by
  have hchain := index.superclassesFrom_explores s.name [s.name, t.name] s.superclass
  -- along the way up: where a superclass is named its subtype has been seen
  induction hd with
  | refl => exact hchain.subset (by simp)
  | @tail b c _ hbc ih =>
    by_cases hstart : b.name ∈ [s.name, t.name]
    · rw [List.mem_pair] at hstart
      rcases hstart with hb | hb
      · obtain rfl := eq_of_name_eq h hbc.sub_mem hts.sup_mem hb
        exact index.superclassesFrom_next _ _ _ hbc.named
      · -- the walk came from here, and its superclass is where it started
        obtain rfl := eq_of_name_eq h hbc.sub_mem hts.sub_mem hb
        have hname : s.name = c.name := Option.some.inj (hts.named.symm.trans hbc.named)
        exact hchain.subset (by simp [hname])
    · -- a type that was reported has the name of its superclass seen after it
      obtain ⟨e, hfind, rfl⟩ := (mem_types_iff h).1 hbc.sub_mem
      have he := (hchain.mem_iff e).2 ⟨hfind, ih, hstart⟩
      exact index.superclassesFrom_closed _ _ _ e he c.name hbc.named

/-- A type that is its own superclass has no other one. -/
theorem eq_of_extends_self {t d : TypeDecl} (hself : p.Extends t t)
    (hd : Relation.ReflTransGen p.Extends t d) : d = t := by
  induction hd with
  | refl => rfl
  | tail _ hbc ih =>
    subst ih
    have hname := Option.some.inj (hbc.named.symm.trans hself.named)
    exact eq_of_name_eq h hbc.sup_mem hbc.sub_mem hname

/-- When the last branch of a type ends, the name of every superclass has been seen. -/
theorem superclass_mem_seenAfter {t d : TypeDecl} (hd : Relation.ReflTransGen p.Extends t d) :
    d.name ∈ index.seenAfter [t.name] t.directSupertypes := by
  have hself : t.name ∈ index.seenAfter [t.name] t.directSupertypes :=
    (index.branchTypesFrom_explores _ _).subset (List.mem_singleton_self _)
  rcases Relation.ReflTransGen.cases_head hd with rfl | ⟨s, hts, -⟩
  · exact hself
  · by_cases hloop : s.name = t.name
    · obtain rfl := eq_of_name_eq h hts.sup_mem hts.sub_mem hloop
      rw [eq_of_extends_self h hts hd]
      exact hself
    · -- the branch of the superclass is the first one, and its chain is walked first
      obtain ⟨e, hfind, he⟩ := (mem_types_iff h).1 hts.sup_mem
      have hchain := superclass_mem_superclassChain h hts hd
      have hnot : s.name ∉ [t.name] := by simpa using hloop
      have hdirect : t.directSupertypes = s.name :: t.interfaces := by
        simp [TypeDecl.directSupertypes, hts.named]
      rw [hdirect, seenAfter, if_neg hnot, hfind]
      refine (index.branchTypesFrom_explores _ _).subset ?_
      refine index.superclassChain_subset_supertypesFrom _ _ ?_
      rwa [he]

end Accepted

/-! ### Overridden declarations -/

/-- The declarations a method overrides are those of its erased signature in the types of the
branches, in order. -/
theorem map_decl_overridden (index : TypeIndex) (m : MethodRef) :
    (index.overridden m).map (·.decl) =
      (index.branchTypesFrom [m.owner.name] m.owner.directSupertypes).flatten.filterMap
        fun e => e.declaration? m.method.node.erasedSignature := by
  rw [← branches_eq, overridden, List.map_flatMap, List.filterMap_flatten, ← List.flatMap_def]
  simp only [List.map_filterMap, Option.map_map, Function.comp_def, Option.map_id']
  exact flatMap_fst_zipIdx
    (List.filterMap fun e => e.declaration? m.method.node.erasedSignature)
    (index.branches m.owner) 0

/-- A method overrides nothing if its type names no supertypes. -/
theorem overridden_of_no_supertypes (index : TypeIndex) {m : MethodRef}
    (h : m.owner.directSupertypes = []) : index.overridden m = [] := by
  rw [overridden, branches_eq, h]
  rfl

/-- A type has a declaration of a signature exactly when it finds a method of it, which it then
declares itself. -/
theorem declaration?_eq_some_iff {e : TypeEntry} {key : ErasedSignature} {d : MethodRef} :
    e.declaration? key = some d ↔
      ∃ m, e.decl.findMethod? key = some m ∧ d = ⟨e.unitIndex, e.decl, m⟩ := by
  rw [TypeEntry.declaration?, Option.map_eq_some_iff]
  refine exists_congr fun m => and_congr_right fun _ => eq_comm

end TypeIndex

/-- The method found for a signature is declared in the type and has that signature. -/
theorem TypeDecl.findMethod?_sound {t : TypeDecl} {key : ErasedSignature} {m : Located MethodDecl}
    (h : t.findMethod? key = some m) : m ∈ t.methods ∧ m.node.erasedSignature = key :=
  ⟨List.mem_of_find?_eq_some h, by simpa using List.find?_some h⟩

/-- A type finds a method of a signature exactly when it declares one. -/
theorem TypeDecl.isSome_findMethod?_iff {t : TypeDecl} {key : ErasedSignature} :
    (t.findMethod? key).isSome ↔ ∃ m ∈ t.methods, m.node.erasedSignature = key := by
  simp [TypeDecl.findMethod?, List.find?_isSome]

end OverrideCheck
