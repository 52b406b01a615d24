import OverrideCheck.Proofs.Hierarchy.Completeness
import OverrideCheck.Proofs.Hierarchy.Lockstep
import OverrideCheck.Proofs.Hierarchy.Refinement

/-!
# Branches that list subtypes first

A branch may list a type before one of its own subtypes: of two interfaces that extend a third one,
the second is entered after the third was reached through the first. Whether a program has such
branches is a matter of its hierarchy alone (`Program.SameHierarchy`), the methods of its types have
no part in it.

* `Program.SubtypesFirst` — no branch lists a type before one of its proper subtypes;
* `Program.SameHierarchy` — two programs declare the same types up to their methods;
* `SameHierarchy.branches`, `SameHierarchy.transGen_iff` — then they have the same branches and the
  same supertypes, so that branches list subtypes first in both or in neither
  (`SameHierarchy.subtypesFirst`);
* `subtypesFirst_of_nodup` — they do if on the way up from a direct supertype no type is met twice.
-/

namespace OverrideCheck

open TypeIndex

/-- On no branch of a type of the program is a type listed before one of its proper subtypes. -/
def Program.SubtypesFirst (p : Program) (index : TypeIndex) : Prop :=
  ∀ t ∈ p.types, ∀ types ∈ index.branches t,
    types.Pairwise fun e f => ¬ Relation.TransGen p.DirectSupertype f.decl e.decl

/-- The declaration of a type without its methods. -/
def TypeDecl.heading (t : TypeDecl) : TypeDecl := { t with methods := [] }

section Heading

variable {t u : TypeDecl} (h : t.heading = u.heading)

include h

theorem TypeDecl.name_eq_of_heading_eq : t.name = u.name := by
  have hname := congrArg TypeDecl.name h
  exact hname

theorem TypeDecl.superclass_eq_of_heading_eq : t.superclass = u.superclass := by
  have hsuperclass := congrArg TypeDecl.superclass h
  exact hsuperclass

theorem TypeDecl.interfaces_eq_of_heading_eq : t.interfaces = u.interfaces := by
  have hinterfaces := congrArg TypeDecl.interfaces h
  exact hinterfaces

theorem TypeDecl.directSupertypes_eq_of_heading_eq : t.directSupertypes = u.directSupertypes := by
  rw [directSupertypes, directSupertypes, superclass_eq_of_heading_eq h,
    interfaces_eq_of_heading_eq h]

end Heading

/-- Two programs declare the same types in the same order, up to their methods. -/
def Program.SameHierarchy (p q : Program) : Prop :=
  p.types.map TypeDecl.heading = q.types.map TypeDecl.heading

/-- Entries of two programs for one type, up to its methods. -/
structure SameHeading (p q : Program) (e f : TypeEntry) : Prop where
  left : e.decl ∈ p.types
  right : f.decl ∈ q.types
  heading : e.decl.heading = f.decl.heading

namespace SameHeading

variable {p q : Program} {e f : TypeEntry}

theorem name (h : SameHeading p q e f) : e.name = f.name :=
  TypeDecl.name_eq_of_heading_eq h.heading

end SameHeading

namespace Program.SameHierarchy

variable {p q : Program} {i j : TypeIndex} {e e' f f' : TypeEntry}

theorem symm (h : p.SameHierarchy q) : q.SameHierarchy p := Eq.symm h

/-- A program of the same hierarchy declares each of the types, with methods of its own. -/
theorem exists_heading_eq (h : p.SameHierarchy q) {t : TypeDecl} (ht : t ∈ p.types) :
    ∃ u ∈ q.types, u.heading = t.heading := by
  have hmem : t.heading ∈ q.types.map TypeDecl.heading := h ▸ List.mem_map_of_mem ht
  exact List.mem_map.1 hmem

/-- A step to a direct supertype is one in every program of the same hierarchy. -/
theorem directSupertype (h : p.SameHierarchy q) {t s u : TypeDecl} (hts : p.DirectSupertype t s)
    (hu : u ∈ q.types) (hheading : u.heading = t.heading) :
    ∃ v ∈ q.types, v.heading = s.heading ∧ q.DirectSupertype u v := by
  obtain ⟨-, hs, hnamed⟩ := directSupertype_iff.1 hts
  obtain ⟨v, hv, hvs⟩ := h.exists_heading_eq hs
  refine ⟨v, hv, hvs, directSupertype_iff.2 ⟨hu, hv, ?_⟩⟩
  rwa [TypeDecl.name_eq_of_heading_eq hvs, TypeDecl.directSupertypes_eq_of_heading_eq hheading]

/-- Steps upwards lead to the same types in every program of the same hierarchy. -/
theorem exists_transGen (h : p.SameHierarchy q) {t s u : TypeDecl}
    (hts : Relation.TransGen p.DirectSupertype t s) (hu : u ∈ q.types)
    (hheading : u.heading = t.heading) :
    ∃ v ∈ q.types, v.heading = s.heading ∧ Relation.TransGen q.DirectSupertype u v := by
  -- induction on the path, each step of which has its like in the other program
  induction hts with
  | single hstep =>
    obtain ⟨v, hv, hvs, hstep'⟩ := h.directSupertype hstep hu hheading
    exact ⟨v, hv, hvs, .single hstep'⟩
  | tail _ hstep ih =>
    obtain ⟨w, hw, hwheading, hpath⟩ := ih
    obtain ⟨v, hv, hvs, hstep'⟩ := h.directSupertype hstep hw hwheading
    exact ⟨v, hv, hvs, hpath.tail hstep'⟩

/-- A type is above another one in both programs or in neither. -/
theorem transGen (h : p.SameHierarchy q) (hj : ofProgram? q = .ok j) (he : SameHeading p q e e')
    (hf : SameHeading p q f f') (hef : Relation.TransGen p.DirectSupertype e.decl f.decl) :
    Relation.TransGen q.DirectSupertype e'.decl f'.decl := by
  obtain ⟨v, hv, hheading, hpath⟩ := h.exists_transGen hef he.right he.heading.symm
  have hname : v.name = f'.decl.name := (TypeDecl.name_eq_of_heading_eq hheading).trans hf.name
  rwa [← eq_of_name_eq hj hv hf.right hname]

/-- A program of the same hierarchy has no circles if the program has none. -/
theorem acyclic (h : p.SameHierarchy q) (hi : ofProgram? p = .ok i) (hp : p.Acyclic) :
    q.Acyclic := by
  intro u hu
  obtain ⟨w, hstep, -⟩ := Relation.TransGen.head'_iff.1 hu
  obtain ⟨t, ht, htu⟩ := h.symm.exists_heading_eq (directSupertype_iff.1 hstep).1
  obtain ⟨v, hv, hvu, hpath⟩ := h.symm.exists_transGen hu ht htu
  -- the type that the path ends at bears the name of the one it starts from
  have hname : v.name = t.name := TypeDecl.name_eq_of_heading_eq (hvu.trans htu.symm)
  exact hp t (eq_of_name_eq hi hv ht hname ▸ hpath)

/-- The indexes of programs of the same hierarchy agree on every name. -/
theorem agreement (h : p.SameHierarchy q) (hi : ofProgram? p = .ok i) (hj : ofProgram? q = .ok j) :
    Agreement (SameHeading p q) (fun _ => True) i j := by
  refine .of_forall₂ (fun _ _ hef => hef.name)
    (fun _ _ hef => TypeDecl.superclass_eq_of_heading_eq hef.heading)
    (fun _ _ hef => TypeDecl.interfaces_eq_of_heading_eq hef.heading) ?_
  -- entry by entry the two indexes hold types of one heading, and what they agree on is in it
  have hheadings : p.typeEntries.map (·.decl.heading) = q.typeEntries.map (·.decl.heading) := by
    rw [p.map_typeEntries TypeDecl.heading, q.map_typeEntries TypeDecl.heading, h]
  have hmem {r : Program} {e : TypeEntry} (he : e ∈ r.typeEntries) : e.decl ∈ r.types :=
    r.map_decl_typeEntries ▸ List.mem_map_of_mem he
  rw [entries_of_ofProgram? hi, entries_of_ofProgram? hj]
  obtain ⟨hlength, hrel⟩ := List.forall₂_iff_get.1 (forall₂_of_map_eq hheadings)
  exact List.forall₂_iff_get.2 ⟨hlength, fun k hk hk' =>
    ⟨hmem (List.get_mem _ _), hmem (List.get_mem _ _), hrel k hk hk'⟩⟩

/-- A type has the same branches in programs of the same hierarchy. -/
theorem branches (h : p.SameHierarchy q) (hi : ofProgram? p = .ok i) (hj : ofProgram? q = .ok j)
    {t u : TypeDecl} (htu : u.heading = t.heading) :
    List.Forall₂ (List.Forall₂ (SameHeading p q)) (i.branches t) (j.branches u) := by
  rw [branches_eq, branches_eq, TypeDecl.name_eq_of_heading_eq htu,
    TypeDecl.directSupertypes_eq_of_heading_eq htu]
  exact (h.agreement hi hj).branchTypesFrom _ _ fun _ _ => trivial

/-- A program of the same hierarchy is accepted if the program is. -/
theorem exists_index (h : p.SameHierarchy q) (hi : ofProgram? p = .ok i) :
    ∃ j, ofProgram? q = .ok j := by
  -- the names are part of what the hierarchies have in common
  have hnames (r : Program) :
      r.types.map (·.name) = (r.types.map TypeDecl.heading).map (·.name) := by
    rw [List.map_map]
    rfl
  have hdistinct := exists_ofProgram?_iff.1 ⟨i, hi⟩
  rw [DistinctTypes, hnames, h, ← hnames] at hdistinct
  exact exists_ofProgram?_iff.2 hdistinct

/-- A branch of a type is one of the same number in every program of the same hierarchy. -/
theorem exists_branch (h : p.SameHierarchy q) (hi : ofProgram? p = .ok i)
    (hj : ofProgram? q = .ok j) {t u : TypeDecl} (htu : t.heading = u.heading) {k : Nat}
    {types : List TypeEntry} (hk : (i.branches t)[k]? = some types) :
    ∃ types', (j.branches u)[k]? = some types' ∧ List.Forall₂ (SameHeading p q) types types' := by
  obtain ⟨hlength, hrel⟩ := List.forall₂_iff_get.1 (h.branches hi hj htu.symm)
  obtain ⟨hlt, rfl⟩ := List.getElem?_eq_some_iff.1 hk
  have hlt' : k < (j.branches u).length := hlength ▸ hlt
  exact ⟨_, List.getElem?_eq_getElem hlt', hrel k hlt hlt'⟩

/-- Whether branches list subtypes first is a matter of the hierarchy. -/
theorem subtypesFirst (h : p.SameHierarchy q) (hi : ofProgram? p = .ok i)
    (hj : ofProgram? q = .ok j) (hp : p.SubtypesFirst i) : q.SubtypesFirst j := by
  intro u hu types htypes
  obtain ⟨t, ht, htu⟩ := h.symm.exists_heading_eq hu
  obtain ⟨k, hk⟩ := List.getElem?_of_mem htypes
  obtain ⟨types', hk', hrel⟩ := h.symm.exists_branch hj hi htu.symm hk
  obtain ⟨hlength, hrel⟩ := List.forall₂_iff_get.1 hrel
  have hfirst := hp t ht types' (List.mem_of_getElem? hk')
  -- what stands at two places here stands at the same two places there
  refine List.pairwise_iff_getElem.2 fun a b ha hb hab htransGen => ?_
  have ha' := hlength ▸ ha
  have hb' := hlength ▸ hb
  exact List.pairwise_iff_getElem.1 hfirst a b ha' hb' hab
    (h.symm.transGen hi (hrel b hb hb') (hrel a ha ha') htransGen)

end Program.SameHierarchy

/-! ### Nothing met twice -/

/-- What is kept of a list is some of it, in order. -/
theorem firstOccurrences_sublist (seen : List String) (es : List TypeEntry) :
    (firstOccurrences seen es).Sublist es := by
  induction es generalizing seen with
  | nil => exact List.Sublist.slnil
  | cons e rest ih =>
    rw [firstOccurrences]
    split
    · exact (ih seen).cons _
    · exact (ih _).cons_cons _

/-- What is kept of several lists is, for each of them, some of it. -/
theorem exists_sublist_of_mem_keepFirst {seen : List String} {groups : List (List TypeEntry)}
    {kept : List TypeEntry} (h : kept ∈ keepFirst seen groups) :
    ∃ es ∈ groups, kept.Sublist es := by
  induction groups generalizing seen with
  | nil => cases h
  | cons es rest ih =>
    rw [keepFirst, List.mem_cons] at h
    rcases h with rfl | h
    · exact ⟨es, List.mem_cons_self, firstOccurrences_sublist _ _⟩
    · obtain ⟨fs, hfs, hsub⟩ := ih h
      exact ⟨fs, List.mem_cons_of_mem _ hfs, hsub⟩

namespace TypeIndex

variable {p : Program} {index : TypeIndex} {hwf : WellFounded index.Above} {e f : TypeEntry}

/-- A proper supertype of a type of the program is above it. -/
theorem transGen_above (h : ofProgram? p = .ok index) (hf : index.find? f.name = some f)
    (hef : Relation.TransGen p.DirectSupertype e.decl f.decl) :
    Relation.TransGen index.Above f e := by
  have hstep {c d : TypeEntry} (hd : index.find? d.name = some d)
      (hcd : p.DirectSupertype c.decl d.decl) : index.Above d c :=
    ⟨d.name, (Program.directSupertype_iff.1 hcd).2.2, hd⟩
  -- the induction is on the path of declarations, each of which is known under its name
  suffices hdecl : ∀ t, Relation.TransGen p.DirectSupertype e.decl t →
      ∀ g, index.find? g.name = some g → g.decl = t → Relation.TransGen index.Above g e from
    hdecl _ hef f hf rfl
  intro t ht
  induction ht with
  | single ht =>
    rintro g hg rfl
    exact .single (hstep hg ht)
  | tail _ ht ih =>
    rintro g hg rfl
    obtain ⟨c, hc, rfl⟩ := (mem_types_iff h).1 (Program.directSupertype_iff.1 ht).1
    exact .head (hstep hg ht) (ih c (find?_name_of_find? hc) rfl)

/-- A list of types in which none stands before one that it is above. -/
def Ascends (index : TypeIndex) (types : List TypeEntry) : Prop :=
  types.Pairwise fun e f => ¬ Relation.TransGen index.Above e f

/-- A type and its superclasses ascend. -/
theorem ascends_superclasses (hwf : WellFounded index.Above) (he : index.find? e.name = some e) :
    index.Ascends (e :: index.superclasses hwf e) := by
  -- induction up the chain; a class above one that it stands behind would be above itself
  induction e using hwf.induction with
  | _ e ih =>
    refine List.pairwise_cons.2 ⟨fun f hf hef => ?_, ?_⟩
    · exact name_ne_of_transGen_above hwf he (hef.trans (transGen_of_mem_superclasses hf)) rfl
    · cases hsuper : e.decl.superclass.bind index.find? with
      | none =>
        rw [superclasses_eq_nil hsuper]
        exact List.Pairwise.nil
      | some c =>
        rw [superclasses_eq_cons hsuper]
        exact ih c (above_of_superclass hsuper) (above_of_superclass hsuper).find?

section Stratified

variable (h : ofProgram? p = .ok index) (hp : p.Stratified)

include h hp

/-- Everything above an interface is in its expansion. -/
theorem mem_preorder_of_transGen (he : index.find? e.name = some e)
    (hnamed : ∃ u ∈ p.types, e.name ∈ u.interfaces) (hfe : Relation.TransGen index.Above f e) :
    f ∈ index.preorder hwf e := by
  -- the first step up from an interface is to an interface again
  have hstep {c g : TypeEntry} (hc : index.find? c.name = some c)
      (hcnamed : ∃ u ∈ p.types, c.name ∈ u.interfaces) (hgc : index.Above g c) :
      g.name ∈ c.decl.interfaces := by
    obtain ⟨name, hname, hfind⟩ := hgc
    obtain ⟨u, hu, hcu⟩ := hcnamed
    have hnone := hp.superclass_eq_none u hu c.decl (decl_mem_types h hc) hcu
    rw [TypeDecl.directSupertypes, hnone] at hname
    exact (name_of_find? hfind).symm ▸ hname
  have hmem {c g : TypeEntry} (hc : index.find? c.name = some c)
      (hcnamed : ∃ u ∈ p.types, c.name ∈ u.interfaces) (hgc : index.Above g c) :
      index.preorder hwf g ⊆ index.preorder hwf c := by
    refine preorder_subset ?_
    rw [preorder_eq]
    exact List.mem_cons_of_mem _ (mem_interfaceExpansion_iff.2
      ⟨g.name, hstep hc hcnamed hgc, g, hgc.find?, mem_preorder_self g⟩)
  induction hfe with
  | single hfe => exact hmem he hnamed hfe (mem_preorder_self f)
  | tail _ hce ih =>
    exact hmem he hnamed hce (ih hce.find? ⟨_, decl_mem_types h he, hstep he hnamed hce⟩)

/-- The expansions of several interfaces ascend one after the other if they ascend one by one and
have no type in common. -/
theorem ascends_flatMap_preorder {cs : List TypeEntry}
    (hcs : ∀ c ∈ cs, index.find? c.name = some c ∧ ∃ u ∈ p.types, c.name ∈ u.interfaces)
    (heach : ∀ c ∈ cs, ((index.preorder hwf c).map (·.name)).Nodup →
      index.Ascends (index.preorder hwf c))
    (hnodup : ((cs.flatMap (index.preorder hwf)).map (·.name)).Nodup) :
    index.Ascends (cs.flatMap (index.preorder hwf)) := by
  rw [List.map_flatMap, List.nodup_flatMap] at hnodup
  obtain ⟨hinside, hacross⟩ := hnodup
  refine List.pairwise_flatMap.2 ⟨fun c hc => heach c hc (hinside c hc), ?_⟩
  refine hacross.imp_of_mem fun {c d} _ hd hdisjoint f hf g hg hfg => ?_
  obtain ⟨hknown, hnamed⟩ := hcs d hd
  have hlisted : index.interfaceExpansion hwf [d.name] = index.preorder hwf d := by
    rw [interfaceExpansion_cons_of_find?_eq_some hknown]
    exact List.append_nil _
  have hgnamed : ∃ u ∈ p.types, g.name ∈ u.interfaces :=
    exists_implements_of_mem_interfaceExpansion h
      (fun name hname => List.mem_singleton.1 hname ▸ hnamed) (hlisted ▸ hg)
  have hgknown : index.find? g.name = some g := find?_of_mem_interfaceExpansion (hlisted ▸ hg)
  -- what is above a type of the second expansion is in that expansion, and so not in the first
  have hfg' := preorder_subset hg (mem_preorder_of_transGen h hp hgknown hgnamed hfg)
  exact hdisjoint (List.mem_map_of_mem hf) (List.mem_map_of_mem hfg')

/-- An expansion ascends if it holds no type twice. -/
theorem ascends_interfaceExpansion {names : List String}
    (hnames : ∀ name ∈ names, ∃ u ∈ p.types, name ∈ u.interfaces)
    (hnodup : ((index.interfaceExpansion hwf names).map (·.name)).Nodup) :
    index.Ascends (index.interfaceExpansion hwf names) := by
  have hknown {names : List String}
      (hnames : ∀ name ∈ names, ∃ u ∈ p.types, name ∈ u.interfaces) (c : TypeEntry)
      (hc : c ∈ index.known names) :
      index.find? c.name = some c ∧ ∃ u ∈ p.types, c.name ∈ u.interfaces := by
    obtain ⟨name, hname, hfind⟩ := List.mem_filterMap.1 hc
    exact ⟨find?_name_of_find? hfind, (name_of_find? hfind).symm ▸ hnames name hname⟩
  have hpreorder : ∀ e, index.find? e.name = some e →
      ((index.preorder hwf e).map (·.name)).Nodup → index.Ascends (index.preorder hwf e) := by
    intro e
    induction e using hwf.induction with
    | _ e ih =>
      intro he hnodup
      rw [preorder_eq, List.map_cons, List.nodup_cons] at hnodup
      have hinterfaces := hknown fun name hname => ⟨e.decl, decl_mem_types h he, hname⟩
      rw [preorder_eq]
      refine List.pairwise_cons.2 ⟨fun f hf hef => ?_, ?_⟩
      · -- a type in the expansion is above the type that it starts from, not below
        have hloop := hef.trans (transGen_of_mem_interfaceExpansion hf)
        exact name_ne_of_transGen_above hwf he hloop rfl
      · exact ascends_flatMap_preorder h hp hinterfaces
          (fun c hc => ih c (above_of_mem_known_interfaces hc) (hinterfaces c hc).1) hnodup.2
  exact ascends_flatMap_preorder h hp (hknown hnames)
    (fun c hc => hpreorder c (hknown hnames c hc).1) hnodup

/-- The expansion of a type ascends if it holds no type twice. -/
theorem ascends_expansion (he : index.find? e.name = some e)
    (hnodup : ((index.expansion hwf e).map (·.name)).Nodup) :
    index.Ascends (index.expansion hwf e) := by
  rw [expansion, flatMap_interfaceExpansion] at hnodup ⊢
  have hnames : ∀ name ∈ (e :: index.superclasses hwf e).flatMap fun c => c.decl.interfaces,
      ∃ u ∈ p.types, name ∈ u.interfaces := by
    intro name hname
    obtain ⟨c, hc, hname⟩ := List.mem_flatMap.1 hname
    have hself : index.find? c.name = some c := by
      rcases List.mem_cons.1 hc with rfl | hc
      · exact he
      · exact find?_of_transGen_above (transGen_of_mem_superclasses hc)
    exact ⟨c.decl, decl_mem_types h hself, hname⟩
  rw [List.map_append, List.nodup_append'] at hnodup
  obtain ⟨-, hinterfaces, hdisjoint⟩ := hnodup
  refine List.pairwise_append.2 ⟨ascends_superclasses hwf he,
    ascends_interfaceExpansion h hp hnames hinterfaces, fun f hf g hg hfg => ?_⟩
  -- a class above an interface would be in the expansion of the interface as well
  have hgnamed := exists_implements_of_mem_interfaceExpansion h hnames hg
  have hfg' := preorder_subset_interfaceExpansion hg
    (mem_preorder_of_transGen h hp (find?_of_mem_interfaceExpansion hg) hgnamed hfg)
  exact hdisjoint (List.mem_map_of_mem hf) (List.mem_map_of_mem hfg')

/-- Branches list subtypes first if on the way up from a direct supertype no type is met twice. -/
theorem subtypesFirst_of_nodup (hacyclic : p.Acyclic)
    (hnodup : ∀ t ∈ p.types, ∀ c ∈ index.known t.directSupertypes,
      ((index.expansion (wellFounded_above h hacyclic) c).map (·.name)).Nodup) :
    p.SubtypesFirst index := by
  intro t ht types htypes
  obtain ⟨e, he, rfl⟩ := (mem_types_iff h).1 ht
  have hself : index.find? e.name = some e := find?_name_of_find? he
  rw [branches_eq_enumeratedBranches (wellFounded_above h hacyclic) h hp hself,
    enumeratedBranches, List.mem_filter] at htypes
  obtain ⟨es, hes, hsub⟩ := exists_sublist_of_mem_keepFirst htypes.1
  obtain ⟨c, hc, rfl⟩ := List.mem_map.1 hes
  obtain ⟨name, -, hfind⟩ := List.mem_filterMap.1 hc
  -- a branch is what is kept of one expansion, and what is kept of an ascending list ascends
  have hascends := ascends_expansion h hp (find?_name_of_find? hfind) (hnodup _ ht c hc)
  refine (List.Pairwise.sublist hsub hascends).imp_of_mem fun {f g} hf hg hfg htransGen => hfg ?_
  exact transGen_above h (find?_of_mem_expansions hes (hsub.subset hf)) htransGen

end Stratified

end TypeIndex

end OverrideCheck
