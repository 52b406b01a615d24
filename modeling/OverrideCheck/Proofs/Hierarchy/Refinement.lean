import OverrideCheck.Proofs.Hierarchy.Branches
import OverrideCheck.Proofs.Hierarchy.Enumeration

/-!
# The walk and the plain enumeration

The walk over supertypes passes over names that it has seen, with all that lies above them. In an
acyclic program that keeps classes and interfaces apart it still reports, branch by branch, what the
plain enumeration lists: leaving out a seen name loses nothing, since whatever it leads to was
reported before.

`Enumerates` says of a walk that it reports the first occurrences in a list of types and sees their
names. Such walks compose (`Enumerates.append`), so it remains to find for each kind of step the
list that it enumerates. For interfaces that list is an expansion as long as the names seen are
`Settled`: whatever the expansion holds of them, it holds with all that lies above, and all of that
is seen as well. A name whose interfaces are still being entered is seen and not settled, but by
acyclicity it does not occur among the names that are entered meanwhile (`Settled.inside`), and
afterwards it is settled (`Settled.behind`).

* `TypeIndex.interfacesFrom_enumerates`, `TypeIndex.superclassesFrom_types` — the two steps;
* `TypeIndex.branch_enumerates`, `TypeIndex.branchTypesFrom_eq_keepFirst` — branches;
* `overridden_eq_enumerated` — the declarations a method overrides are those of the enumeration.
-/

namespace OverrideCheck

open TypeIndex

/-- From the names `before`, a walk reports the first occurrences in a list of types. -/
structure Enumerates (index : TypeIndex) (before : List String) (listed : List TypeEntry)
    (w : Walk) : Prop where
  explores : Explores index before w.types w.seen
  known : ∀ e ∈ listed, index.find? e.name = some e
  types : w.types = firstOccurrences before listed

namespace Enumerates

variable {index : TypeIndex} {before : List String} {xs ys : List TypeEntry} {v w : Walk}
  {e : TypeEntry}

/-- The types of the program that have been seen are those seen before and those listed. -/
theorem mem_seen_iff (h : Enumerates index before xs w) (he : index.find? e.name = some e) :
    e.name ∈ w.seen ↔ e.name ∈ before ∨ e ∈ xs := by
  -- a type not seen before is seen now if it was reported, and reported if it is listed
  by_cases hbefore : e.name ∈ before
  · simp [hbefore, h.explores.subset hbefore]
  · calc e.name ∈ w.seen
        ↔ e ∈ w.types := by
          rw [h.explores.mem_iff]
          exact ⟨fun hseen => ⟨he, hseen, hbefore⟩, fun hmem => hmem.2.1⟩
      _ ↔ e.name ∈ (firstOccurrences before xs).map (·.name) := by
          rw [← mem_map_name_iff (fun _ hf => h.explores.find?_of_mem hf) he, h.types]
      _ ↔ e.name ∈ before ∨ e ∈ xs := by
          rw [mem_map_name_firstOccurrences_iff, mem_map_name_iff h.known he]
          simp [hbefore]

/-- What is listed has been seen in the end. -/
theorem mem_seen (h : Enumerates index before xs w) (he : e ∈ xs) : e.name ∈ w.seen :=
  (h.mem_seen_iff (h.known e he)).2 (Or.inr he)

/-- A walk taken up where another one ended reports the first occurrences in both lists. -/
theorem append (hv : Enumerates index before xs v) (hw : Enumerates index v.seen ys w) :
    Enumerates index before (xs ++ ys) (v.append w) where
  explores := by
    rw [Walk.types_append, Walk.seen_append]
    exact hv.explores.append hw.explores
  known := by
    intro e he
    exact (List.mem_append.1 he).elim (hv.known e) (hw.known e)
  types := by
    rw [Walk.types_append, hv.types, hw.types, firstOccurrences_append]
    -- of the second list is kept what neither was seen before nor stands in the first list
    refine congrArg _ (firstOccurrences_congr fun e he => ?_)
    rw [hv.mem_seen_iff (hw.known e he), List.mem_append,
      mem_map_name_iff hv.known (hw.known e he), or_comm]

/-- A walk that explores enumerates the list of what it reports. -/
theorem of_explores (h : Explores index before w.types w.seen) :
    Enumerates index before w.types w where
  explores := h
  known := fun _ he => h.find?_of_mem he
  types := (firstOccurrences_eq_self h.nodup fun e he => ((h.mem_iff e).1 he).2.2).symm

/-- Reaching a type that was not seen enumerates it. -/
theorem reached {name : String} (hfind : index.find? name = some e) (hnew : name ∉ before) :
    Enumerates index before [e] ⟨[.reached e], name :: before⟩ :=
  of_explores (w := ⟨[.reached e], name :: before⟩) (Explores.reached hfind hnew)

/-- Standing still enumerates what has been seen. -/
theorem refl (hknown : ∀ e ∈ xs, index.find? e.name = some e)
    (hseen : ∀ e ∈ xs, e.name ∈ before) : Enumerates index before xs ⟨[], before⟩ where
  explores := Explores.refl index before
  known := hknown
  types := (firstOccurrences_eq_nil hseen).symm

/-- After a walk, first occurrences are kept by the names it saw. -/
theorem keepFirst_eq (h : Enumerates index before xs w) {groups : List (List TypeEntry)}
    (hknown : ∀ es ∈ groups, ∀ e ∈ es, index.find? e.name = some e) :
    keepFirst (xs.map (·.name) ++ before) groups = keepFirst w.seen groups := by
  refine keepFirst_congr fun es hes e he => ?_
  rw [h.mem_seen_iff (hknown es hes e he), List.mem_append,
    mem_map_name_iff h.known (hknown es hes e he), or_comm]

/-- Seeing a name from outside the program enumerates nothing. -/
theorem outside {name : String} (hfind : index.find? name = none) :
    Enumerates index before [] ⟨[], name :: before⟩ :=
  of_explores (w := ⟨[], name :: before⟩) (Explores.outside hfind)

end Enumerates

namespace TypeIndex

variable {index : TypeIndex} {hwf : WellFounded index.Above} {seen names : List String}
  {name : String} {e : TypeEntry}

/-! ### Settled names -/

/-- Whatever of an expansion has been seen has been seen with all that it expands to. -/
def Settled (index : TypeIndex) (hwf : WellFounded index.Above) (seen names : List String) : Prop :=
  ∀ f ∈ index.interfaceExpansion hwf names, f.name ∈ seen →
    ∀ g ∈ index.preorder hwf f, g.name ∈ seen

/-- The rest of a settled list is settled. -/
theorem Settled.tail (h : index.Settled hwf seen (name :: names)) :
    index.Settled hwf seen names := by
  intro f hf
  obtain ⟨n, hn, c, hfind, hc⟩ := mem_interfaceExpansion_iff.1 hf
  exact h f (mem_interfaceExpansion_iff.2 ⟨n, List.mem_cons_of_mem _ hn, c, hfind, hc⟩)

/-- A name from outside the program settles what was settled. -/
theorem Settled.outside (h : index.Settled hwf seen names) (hfind : index.find? name = none) :
    index.Settled hwf (name :: seen) names := by
  intro f hf hseen g hg
  -- everything listed is known under its name, and this one is not
  have hne : f.name ≠ name := by
    intro heq
    have hf' := find?_of_mem_interfaceExpansion hf
    rw [heq, hfind] at hf'
    cases hf'
  exact List.mem_cons_of_mem _ (h f hf ((List.mem_cons.1 hseen).resolve_left hne) g hg)

/-- The interfaces of a type are settled while they are entered: the type does not occur above
itself. -/
theorem Settled.inside (h : index.Settled hwf seen (name :: names))
    (hfind : index.find? name = some e) :
    index.Settled hwf (name :: seen) e.decl.interfaces := by
  intro f hf hseen g hg
  have hne : f.name ≠ name := by
    have hname : e.name = name := name_of_find? hfind
    exact hname ▸ name_ne_of_transGen_above hwf (find?_name_of_find? hfind)
      (transGen_of_mem_interfaceExpansion hf)
  have hlisted : f ∈ index.interfaceExpansion hwf (name :: names) := by
    rw [interfaceExpansion_cons_of_find?_eq_some hfind, preorder_eq]
    exact List.mem_append_left _ (List.mem_cons_of_mem _ hf)
  exact List.mem_cons_of_mem _
    (h f hlisted ((List.mem_cons.1 hseen).resolve_left hne) g hg)

/-- If the first type of a settled list was seen, there is nothing new in all that it expands
to. -/
theorem Settled.seen_head (h : index.Settled hwf seen (name :: names))
    (hfind : index.find? name = some e) (hseen : name ∈ seen) :
    Enumerates index seen (index.preorder hwf e) ⟨[], seen⟩ := by
  have hself : e.name = name := name_of_find? hfind
  have hlisted {f : TypeEntry} (hf : f ∈ index.preorder hwf e) :
      f ∈ index.interfaceExpansion hwf (name :: names) := by
    rw [interfaceExpansion_cons_of_find?_eq_some hfind]
    exact List.mem_append_left _ hf
  exact .refl (fun f hf => find?_of_mem_interfaceExpansion (hlisted hf))
    (h e (hlisted (mem_preorder_self e)) (hself ▸ hseen))

/-- After a type and all that it expands to, the rest of a settled list is settled. -/
theorem Settled.behind {w : Walk} (h : index.Settled hwf seen (name :: names))
    (hw : Enumerates index seen (index.preorder hwf e) w) : index.Settled hwf w.seen names := by
  intro f hf hseen g hg
  -- it was seen before, with all that it expands to, or it was listed just now, with all of it
  rcases (hw.mem_seen_iff (find?_of_mem_interfaceExpansion hf)).1 hseen with hseen | hlisted
  · exact hw.explores.subset (h.tail f hf hseen g hg)
  · exact hw.mem_seen (preorder_subset hlisted hg)

/-! ### Interfaces -/

/-- Interfaces are entered one after the other. -/
theorem interfacesFrom_append (index : TypeIndex) (seen names others : List String) :
    index.interfacesFrom seen (names ++ others) =
      (index.interfacesFrom seen names).append
        (index.interfacesFrom (index.interfacesFrom seen names).seen others) := by
  fun_induction interfacesFrom index seen names with
  | case1 seen => rfl
  | case2 seen name rest hseen ih => rw [List.cons_append, interfacesFrom_of_mem hseen, ih]
  | case3 seen name rest hseen hfind ih =>
    rw [List.cons_append, interfacesFrom_of_find?_eq_none hseen hfind, ih]
  | case4 seen name rest hseen entry hfind walk ih =>
    rw [List.cons_append, interfacesFrom_of_find?_eq_some hseen hfind, ← List.append_assoc, ih]
    rfl

/-- An interface that was not seen is entered, then those that it extends, and then the rest. -/
theorem interfacesFrom_cons (hnew : name ∉ seen) (hfind : index.find? name = some e) :
    index.interfacesFrom seen (name :: names) =
      let above := index.interfacesFrom (name :: seen) e.decl.interfaces
      ((Walk.mk [.reached e] (name :: seen)).append above).append
        (index.interfacesFrom above.seen names) := by
  rw [interfacesFrom_of_find?_eq_some hnew hfind, interfacesFrom_append]
  rfl

/-- A list of interfaces enumerates its expansion, if the interfaces of each of them do. -/
theorem interfacesFrom_enumerates_of_above
    (habove : ∀ name ∈ names, ∀ e, index.find? name = some e → ∀ seen,
      index.Settled hwf seen e.decl.interfaces →
      Enumerates index seen (index.interfaceExpansion hwf e.decl.interfaces)
        (index.interfacesFrom seen e.decl.interfaces))
    (h : index.Settled hwf seen names) :
    Enumerates index seen (index.interfaceExpansion hwf names)
      (index.interfacesFrom seen names) := by
  -- induction on the list, with what is above each of its types as a hypothesis
  induction names generalizing seen with
  | nil =>
    rw [interfacesFrom]
    exact Enumerates.of_explores (w := ⟨[], seen⟩) (Explores.refl index seen)
  | cons name rest ih =>
    obtain ⟨hfirst, hrest⟩ := List.forall_mem_cons.1 habove
    cases hfind : index.find? name with
    | none =>
      -- a name from outside the program is listed nowhere, whether it was seen or not
      rw [interfaceExpansion_cons_of_find?_eq_none hfind]
      by_cases hseen : name ∈ seen
      · rw [interfacesFrom_of_mem hseen]
        exact ih hrest h.tail
      · rw [interfacesFrom_of_find?_eq_none hseen hfind]
        exact (Enumerates.outside hfind).append (ih hrest (h.tail.outside hfind))
    | some e =>
      rw [interfaceExpansion_cons_of_find?_eq_some hfind]
      by_cases hseen : name ∈ seen
      · rw [interfacesFrom_of_mem hseen]
        exact (h.seen_head hfind hseen).append (ih hrest h.tail)
      · -- the type, then all that it extends, and behind it the rest is settled
        have hinside := hfirst e hfind (name :: seen) (h.inside hfind)
        have htype := (Enumerates.reached hfind hseen).append hinside
        rw [List.singleton_append, ← preorder_eq] at htype
        rw [interfacesFrom_cons hseen hfind]
        exact htype.append (ih hrest (h.behind htype))

/-- A walk over settled interfaces enumerates their expansion. -/
theorem interfacesFrom_enumerates (h : index.Settled hwf seen names) :
    Enumerates index seen (index.interfaceExpansion hwf names)
      (index.interfacesFrom seen names) := by
  -- by recursion on what is above, the interfaces of every type enumerate their expansion
  have hinterfaces : ∀ (e : TypeEntry) seen, index.Settled hwf seen e.decl.interfaces →
      Enumerates index seen (index.interfaceExpansion hwf e.decl.interfaces)
        (index.interfacesFrom seen e.decl.interfaces) := by
    intro e
    induction e using hwf.induction with
    | _ e ih =>
      intro seen hsettled
      refine interfacesFrom_enumerates_of_above (fun name hname c hfind => ?_) hsettled
      exact ih c ⟨name, List.mem_append_right _ hname, hfind⟩
  exact interfacesFrom_enumerates_of_above (fun _ _ e _ => hinterfaces e) h

/-! ### Superclasses -/

/-- A chain of superclasses none of which was seen is reported as a whole. -/
theorem superclassesFrom_types (hwf : WellFounded index.Above) (type : String)
    (hnew : ∀ c ∈ index.superclasses hwf e, c.name ∉ seen) :
    (index.superclassesFrom type seen e.decl.superclass).types = index.superclasses hwf e := by
  induction e using hwf.induction generalizing seen with
  | _ e ih =>
    cases hnamed : e.decl.superclass with
    | none =>
      rw [superclasses_eq_nil (by rw [hnamed]; rfl), superclassesFrom]
      rfl
    | some name =>
      cases hfind : index.find? name with
      | none =>
        rw [superclasses_eq_nil (by rw [hnamed]; exact hfind)]
        by_cases hseen : name ∈ seen
        · rw [superclassesFrom_of_mem hseen]
          rfl
        · rw [superclassesFrom_of_find?_eq_none hseen hfind]
          rfl
      | some c =>
        have hsuper : e.decl.superclass.bind index.find? = some c := by rw [hnamed]; exact hfind
        have hself : c.name = name := name_of_find? hfind
        rw [superclasses_eq_cons hsuper] at hnew ⊢
        obtain ⟨hfirst, hrest⟩ := List.forall_mem_cons.1 hnew
        -- going on adds the name of `c` to those seen, which no superclass of `c` bears
        rw [superclassesFrom_of_find?_eq_some (hself ▸ hfirst) hfind, Walk.types_reached,
          ih c (above_of_superclass hsuper)]
        intro d hd hmem
        rcases List.mem_cons.1 hmem with heq | hseen
        · exact name_ne_of_transGen_above hwf (find?_name_of_find? hfind)
            (transGen_of_mem_superclasses hd) (heq.trans hself.symm)
        · exact hrest d hd hseen

/-! ### Branches -/

/-- A chain of superclasses none of which was seen enumerates the superclasses. -/
theorem superclassChain_enumerates (hnew : ∀ c ∈ index.superclasses hwf e, c.name ∉ seen) :
    Enumerates index seen (index.superclasses hwf e) (index.superclassChain seen e.decl) := by
  have htypes : (index.superclassChain seen e.decl).types = index.superclasses hwf e :=
    superclassesFrom_types hwf e.decl.name hnew
  exact htypes ▸ Enumerates.of_explores (index.superclassesFrom_explores _ _ _)

/-- The branch of a type that was not seen enumerates the expansion of the type, if none of its
superclasses was seen and the interfaces above it are settled. -/
theorem branch_enumerates (hnew : name ∉ seen) (hfind : index.find? name = some e)
    (hclasses : ∀ c ∈ index.superclasses hwf e, c.name ∉ name :: seen)
    (hsettled : index.Settled hwf (index.superclassChain (name :: seen) e.decl).seen
      ((e :: index.superclasses hwf e).flatMap fun c => c.decl.interfaces)) :
    Enumerates index seen (index.expansion hwf e)
      ((Walk.mk [.reached e] (name :: seen)).append
        (index.supertypesFrom (name :: seen) e.decl)) := by
  have hchain := superclassChain_enumerates hclasses
  have habove : index.interfacesAbove (name :: seen) e.decl =
      (e :: index.superclasses hwf e).flatMap fun c => c.decl.interfaces := by
    rw [interfacesAbove, superclassChain, superclassesFrom_types hwf _ hclasses, List.flatMap_cons]
  have hall := (Enumerates.reached hfind hnew).append
    (hchain.append (interfacesFrom_enumerates hsettled))
  rw [supertypesFrom_eq, habove, expansion, flatMap_interfaceExpansion, List.cons_append]
  exact hall

/-- The expansions of what is known under a list of names hold nothing but what is known. -/
theorem find?_of_mem_expansions {es : List TypeEntry}
    (hes : es ∈ (index.known names).map (index.expansion hwf)) (he : e ∈ es) :
    index.find? e.name = some e := by
  obtain ⟨c, hc, rfl⟩ := List.mem_map.1 hes
  obtain ⟨name, -, hfind⟩ := List.mem_filterMap.1 hc
  exact find?_of_mem_expansion (find?_name_of_find? hfind) he

/-- The branches that start from settled interfaces, none of which has a superclass, are their
expansions, each without what occurs before. -/
theorem branchTypesFrom_eq_keepFirst
    (hclasses : ∀ name ∈ names, ∀ e, index.find? name = some e → e.decl.superclass = none)
    (h : index.Settled hwf seen names) :
    index.branchTypesFrom seen names =
      (keepFirst seen ((index.known names).map (index.expansion hwf))).filter (!·.isEmpty) := by
  induction names generalizing seen with
  | nil => rfl
  | cons name rest ih =>
    obtain ⟨hfirst, hrest⟩ := List.forall_mem_cons.1 hclasses
    have hknown : ∀ es ∈ (index.known rest).map (index.expansion hwf), ∀ f ∈ es,
        index.find? f.name = some f := fun _ hes _ hf => find?_of_mem_expansions hes hf
    cases hfind : index.find? name with
    | none =>
      rw [known, List.filterMap_cons_none hfind, ← known]
      by_cases hseen : name ∈ seen
      · rw [branchTypesFrom, if_pos hseen, ih hrest h.tail]
      · rw [branchTypesFrom_of_find?_eq_none hseen hfind, ih hrest (h.tail.outside hfind),
          ← (Enumerates.outside hfind).keepFirst_eq hknown]
        rfl
    | some e =>
      have hnone := hfirst e hfind
      have hpreorder : index.expansion hwf e = index.preorder hwf e := expansion_eq_preorder hnone
      rw [known, List.filterMap_cons_some hfind, ← known, List.map_cons, keepFirst]
      by_cases hseen : name ∈ seen
      · -- nothing is left of the expansion, so there is no branch on either side
        have hold := hpreorder ▸ h.seen_head hfind hseen
        rw [branchTypesFrom, if_pos hseen, ih hrest h.tail, hold.keepFirst_eq hknown, ← hold.types]
        rfl
      · -- an interface has no superclasses, so that its branch is a walk over interfaces only
        have hnoclass : index.superclasses hwf e = [] := superclasses_eq_nil (by rw [hnone]; rfl)
        have hchain : (index.superclassChain (name :: seen) e.decl).seen = name :: seen := by
          rw [superclassChain, hnone, superclassesFrom]
        have hbranch : Enumerates index seen (index.expansion hwf e)
            ((Walk.mk [.reached e] (name :: seen)).append
              (index.supertypesFrom (name :: seen) e.decl)) := by
          refine branch_enumerates hseen hfind (by simp [hnoclass]) ?_
          rw [hchain, hnoclass, List.flatMap_singleton]
          exact h.inside hfind
        rw [branchTypesFrom_of_find?_eq_some hseen hfind, hbranch.keepFirst_eq hknown,
          ← hbranch.types]
        rw [hpreorder] at hbranch
        have hbehind := h.behind hbranch
        rw [Walk.seen_append] at hbehind
        exact congrArg (List.cons _) (ih hrest hbehind)

/-! ### The branch of the superclass -/

/-- What has not been seen at all is settled. -/
theorem Settled.of_forall_not_mem
    (hnew : ∀ f ∈ index.interfaceExpansion hwf names, f.name ∉ seen) :
    index.Settled hwf seen names :=
  fun f hf hseen => absurd hseen (hnew f hf)

/-- What is above a type expands to types of other names. -/
theorem name_ne_of_mem_expansion (he : index.find? e.name = some e) {c f : TypeEntry}
    (hce : index.Above c e) (hf : f ∈ index.expansion hwf c) : f.name ≠ e.name :=
  name_ne_of_transGen_above hwf he
    (Relation.TransGen.trans_right (reflTransGen_of_mem_expansion hf) (.single hce))

section Stratified

variable {p : Program} (h : ofProgram? p = .ok index) (hp : p.Stratified)
  (he : index.find? e.name = some e)

include h

/-- What interfaces of the program expand to is named as an interface in the program. -/
theorem exists_implements_of_mem_interfaceExpansion
    (hnames : ∀ name ∈ names, ∃ u ∈ p.types, name ∈ u.interfaces) {f : TypeEntry}
    (hf : f ∈ index.interfaceExpansion hwf names) : ∃ u ∈ p.types, f.name ∈ u.interfaces := by
  -- carried along the expansion is also that each type is the known one of its name
  suffices hboth : index.find? f.name = some f ∧ ∃ u ∈ p.types, f.name ∈ u.interfaces from hboth.2
  refine interfaceExpansion_forall (Q := fun f => index.find? f.name = some f ∧
    ∃ u ∈ p.types, f.name ∈ u.interfaces) ?_ ?_ f hf
  · intro c hc name hname g hfind
    exact ⟨find?_name_of_find? hfind, c.decl, decl_mem_types h hc.1,
      (name_of_find? hfind).symm ▸ hname⟩
  · intro name hname g hfind
    exact ⟨find?_name_of_find? hfind, (name_of_find? hfind).symm ▸ hnames name hname⟩

include he

/-- The superclasses of a type of the program are named as superclasses in the program. -/
theorem exists_extends_of_mem_superclasses {f : TypeEntry} (hf : f ∈ index.superclasses hwf e) :
    ∃ t ∈ p.types, f.name ∈ t.superclass := by
  have hnamed {c g : TypeEntry} (hc : index.find? c.name = some c)
      (hsuper : c.decl.superclass.bind index.find? = some g) :
      index.find? g.name = some g ∧ ∃ t ∈ p.types, g.name ∈ t.superclass := by
    obtain ⟨name, hname, hfind⟩ := Option.bind_eq_some_iff.1 hsuper
    exact ⟨find?_name_of_find? hfind, c.decl, decl_mem_types h hc,
      (name_of_find? hfind).symm ▸ hname⟩
  suffices hboth : index.find? f.name = some f ∧ ∃ t ∈ p.types, f.name ∈ t.superclass from hboth.2
  refine superclasses_forall (Q := fun f => index.find? f.name = some f ∧
    ∃ t ∈ p.types, f.name ∈ t.superclass) ?_ ?_ f hf
  · exact fun c hc g hsuper => hnamed hc.1 hsuper
  · exact fun g hsuper => hnamed he hsuper

include hp

/-- What is named as an interface is no superclass of a type of the program. -/
theorem name_ne_of_mem_superclasses {c f : TypeEntry} (hc : c ∈ index.superclasses hwf e)
    (hf : ∃ u ∈ p.types, f.name ∈ u.interfaces) : f.name ≠ c.name := by
  obtain ⟨t, ht, hct⟩ := exists_extends_of_mem_superclasses h he hc
  obtain ⟨u, hu, hfu⟩ := hf
  exact fun heq => hp.apart t ht c.name hct u hu (heq ▸ hfu)

variable (hwf)

/-- The branch of the superclass enumerates the expansion of the superclass. -/
theorem superclass_branch_enumerates {c : TypeEntry} (hce : index.Above c e)
    (hsuper : e.decl.superclass.bind index.find? = some c) :
    Enumerates index [e.name] (index.expansion hwf c)
      ((Walk.mk [.reached c] [c.name, e.name]).append
        (index.supertypesFrom [c.name, e.name] c.decl)) := by
  have hchain : index.superclasses hwf e = c :: index.superclasses hwf c :=
    superclasses_eq_cons hsuper
  -- nothing above the type bears its name, so what is seen at the start is in no one's way
  have hother {f : TypeEntry} (hf : f ∈ index.expansion hwf c) : f.name ≠ e.name :=
    name_ne_of_mem_expansion he hce hf
  have hstart : c ∈ index.expansion hwf c :=
    List.mem_append_left _ List.mem_cons_self
  have hclasses : ∀ d ∈ index.superclasses hwf c, d.name ∉ [c.name, e.name] := by
    intro d hd hmem
    rcases List.mem_pair.1 hmem with heq | heq
    · exact name_ne_of_transGen_above hwf hce.find? (transGen_of_mem_superclasses hd) heq
    · exact hother (List.mem_append_left _ (List.mem_cons_of_mem _ hd)) heq
  refine branch_enumerates (by simpa using hother hstart) hce.find? hclasses ?_
  -- the interfaces are named as such, so none of them is on the chain that was walked
  refine .of_forall_not_mem fun f hf hseen => ?_
  have himplemented : ∃ u ∈ p.types, f.name ∈ u.interfaces := by
    refine exists_implements_of_mem_interfaceExpansion h (fun name hname => ?_) hf
    obtain ⟨d, hd, hname⟩ := List.mem_flatMap.1 hname
    rw [← hchain] at hd
    exact ⟨d.decl, decl_mem_types h (find?_of_transGen_above (transGen_of_mem_superclasses hd)),
      hname⟩
  rcases ((superclassChain_enumerates hclasses).mem_seen_iff
    (find?_of_mem_interfaceExpansion hf)).1 hseen with hseen | hlisted
  · rcases List.mem_pair.1 hseen with heq | heq
    · exact name_ne_of_mem_superclasses h hp he (hchain ▸ List.mem_cons_self) himplemented heq
    · rw [← flatMap_interfaceExpansion] at hf
      exact hother (List.mem_append_right _ hf) heq
  · exact name_ne_of_mem_superclasses h hp he (hchain ▸ List.mem_cons_of_mem _ hlisted)
      himplemented rfl

/-- After the branch of the superclass, the interfaces of a type are settled. -/
theorem settled_behind_superclass_branch {c : TypeEntry} {w : Walk}
    (hsuper : e.decl.superclass.bind index.find? = some c)
    (hw : Enumerates index [e.name] (index.expansion hwf c) w) :
    index.Settled hwf w.seen e.decl.interfaces := by
  intro f hf hseen g hg
  have himplemented := exists_implements_of_mem_interfaceExpansion h
    (fun name hname => ⟨e.decl, decl_mem_types h he, hname⟩) hf
  -- an interface that was seen is not the type itself nor one of its superclasses
  rcases (hw.mem_seen_iff (find?_of_mem_interfaceExpansion hf)).1 hseen with hseen | hlisted
  · exact absurd (List.mem_singleton.1 hseen)
      (name_ne_of_transGen_above hwf he (transGen_of_mem_interfaceExpansion hf))
  · rw [expansion, ← superclasses_eq_cons hsuper, flatMap_interfaceExpansion] at hlisted
    rcases List.mem_append.1 hlisted with hclass | hinterface
    · exact absurd rfl (name_ne_of_mem_superclasses h hp he hclass himplemented)
    · refine hw.mem_seen ?_
      rw [expansion, ← superclasses_eq_cons hsuper, flatMap_interfaceExpansion]
      exact List.mem_append_right _ (preorder_subset_interfaceExpansion hinterface hg)

/-- The branches of a type are the expansions of its direct supertypes, each without what occurs
before. -/
theorem branchTypesFrom_directSupertypes :
    index.branchTypesFrom [e.name] e.decl.directSupertypes =
      (keepFirst [e.name] ((index.known e.decl.directSupertypes).map (index.expansion hwf))).filter
        (!·.isEmpty) := by
  have hclasses : ∀ name ∈ e.decl.interfaces, ∀ c, index.find? name = some c →
      c.decl.superclass = none := by
    intro name hname c hfind
    refine hp.superclass_eq_none _ (decl_mem_types h he) _ (decl_mem_types h hfind) ?_
    rwa [show c.decl.name = name from name_of_find? hfind]
  have hown : index.Settled hwf [e.name] e.decl.interfaces := .of_forall_not_mem fun f hf => by
    simpa using name_ne_of_transGen_above hwf he (transGen_of_mem_interfaceExpansion hf)
  -- the superclass comes first if there is one, and its branch leaves the interfaces settled
  cases hnamed : e.decl.superclass with
  | none =>
    have hdirect : e.decl.directSupertypes = e.decl.interfaces := by
      simp [TypeDecl.directSupertypes, hnamed]
    rw [hdirect]
    exact branchTypesFrom_eq_keepFirst hclasses hown
  | some name =>
    have hdirect : e.decl.directSupertypes = name :: e.decl.interfaces := by
      simp [TypeDecl.directSupertypes, hnamed]
    have hknown : ∀ es ∈ (index.known e.decl.interfaces).map (index.expansion hwf), ∀ f ∈ es,
        index.find? f.name = some f := fun _ hes _ hf => find?_of_mem_expansions hes hf
    rw [hdirect]
    cases hfind : index.find? name with
    | none =>
      have hnew : name ∉ [e.name] := by
        intro hmem
        rw [List.mem_singleton.1 hmem, he] at hfind
        cases hfind
      rw [branchTypesFrom_of_find?_eq_none hnew hfind, known, List.filterMap_cons_none hfind,
        ← known, branchTypesFrom_eq_keepFirst hclasses (hown.outside hfind),
        ← (Enumerates.outside hfind).keepFirst_eq hknown]
      rfl
    | some c =>
      obtain rfl : c.name = name := name_of_find? hfind
      have hsuper : e.decl.superclass.bind index.find? = some c := by rw [hnamed]; exact hfind
      have hce := above_of_superclass hsuper
      have hnew : c.name ∉ [e.name] := by
        simpa using name_ne_of_transGen_above hwf he (.single hce)
      have hbranch := superclass_branch_enumerates hwf h hp he hce hsuper
      have hbehind := settled_behind_superclass_branch hwf h hp he hsuper hbranch
      rw [branchTypesFrom_of_find?_eq_some hnew hfind, known, List.filterMap_cons_some hfind,
        ← known, List.map_cons, keepFirst, hbranch.keepFirst_eq hknown, ← hbranch.types]
      exact congrArg (List.cons _) (branchTypesFrom_eq_keepFirst hclasses hbehind)

/-- The branches of a type are those of the plain enumeration. -/
theorem branches_eq_enumeratedBranches :
    index.branches e.decl = index.enumeratedBranches hwf e.decl := by
  rw [branches_eq, enumeratedBranches]
  refine (branchTypesFrom_directSupertypes hwf h hp he).trans (congrArg _ ?_)
  -- the type's own name is seen from the start, but it occurs in no expansion
  refine keepFirst_congr fun es hes f hf => ?_
  obtain ⟨c, hc, rfl⟩ := List.mem_map.1 hes
  obtain ⟨name, hname, hfind⟩ := List.mem_filterMap.1 hc
  simp [name_ne_of_mem_expansion he ⟨name, hname, hfind⟩ hf]

end Stratified

end TypeIndex

/-- **The walk over supertypes refines the plain enumeration.** In an accepted program without
circles that keeps classes and interfaces apart, a method overrides the declarations that the
enumeration without a set of seen names lists, in the same order and with the same numbers of
branches. -/
theorem overridden_eq_enumerated {p : Program} {index : TypeIndex}
    (h : TypeIndex.ofProgram? p = .ok index) (hacyclic : p.Acyclic) (hp : p.Stratified)
    {m : MethodRef} (hm : m ∈ p.methods) :
    index.overridden m = index.enumerated (wellFounded_above h hacyclic) m := by
  obtain ⟨e, he, howner⟩ := (mem_types_iff h).1 (Program.owner_mem_types hm).1
  have hself : index.find? e.name = some e := find?_name_of_find? he
  rw [TypeIndex.overridden, TypeIndex.enumerated, ← howner,
    branches_eq_enumeratedBranches (wellFounded_above h hacyclic) h hp hself]

/-! ### A diamond beside a superclass -/

namespace Diamond

/-- A method without parameters. -/
def foo : Located MethodDecl := ⟨{ name := "foo" }, .atLine 4⟩

/-- An interface that declares it. -/
def root : TypeDecl :=
  { name := "test.Root", kind := .interfaceKind, methods := [foo] }

/-- An interface that extends the first one. -/
def left : TypeDecl :=
  { name := "test.Left", kind := .interfaceKind, interfaces := ["test.Root"], methods := [foo] }

/-- An interface that extends both. -/
def right : TypeDecl :=
  { name := "test.Right", kind := .interfaceKind, interfaces := ["test.Root", "test.Left"],
    methods := [foo] }

/-- A class that implements the first one. -/
def base : TypeDecl :=
  { name := "test.Base", kind := .classKind, superclass := some "java.lang.Object",
    interfaces := ["test.Root"], methods := [foo] }

/-- A class that extends the other one and implements the two other interfaces. -/
def impl : TypeDecl :=
  { name := "test.Impl", kind := .classKind, superclass := some "test.Base",
    interfaces := ["test.Left", "test.Right"], methods := [foo] }

/-- All of them, in one unit. -/
def program : Program :=
  ⟨[{ types := [root, left, right, base, impl].map fun t => ⟨t, .atLine 3⟩ }]⟩

/-- The method of the class at the lower end. -/
def method : MethodRef := ⟨0, impl, foo⟩

/-- How many steps there are at most from a type to the last one above it. -/
def rank (name : String) : Nat :=
  ["java.lang.Object", "test.Root", "test.Left", "test.Right", "test.Base", "test.Impl"].idxOf name

/-- The walk from the class passes over shared interfaces as the plain enumeration has it. -/
theorem walk_refines : ∃ (index : TypeIndex) (h : TypeIndex.ofProgram? program = .ok index)
    (hacyclic : program.Acyclic), program.Stratified ∧ method ∈ program.methods ∧
    index.overridden method = index.enumerated (wellFounded_above h hacyclic) method := by
  obtain ⟨index, h⟩ := TypeIndex.exists_ofProgram?_iff.2 (show program.DistinctTypes by decide)
  have hacyclic : program.Acyclic := .of_rank rank (by decide)
  have hstratified : program.Stratified := ⟨by decide, by decide⟩
  have hm : method ∈ program.methods := by
    simp [Program.methods, SourceUnit.methods, program, method, impl]
  exact ⟨index, h, hacyclic, hstratified, hm, overridden_eq_enumerated h hacyclic hstratified hm⟩

end Diamond

end OverrideCheck
