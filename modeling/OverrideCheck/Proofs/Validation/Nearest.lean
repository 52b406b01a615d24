import Mathlib.Data.List.Dedup
import Mathlib.Data.List.Forall2
import OverrideCheck.Proofs.Hierarchy.Lockstep
import OverrideCheck.Validation.Nearest

/-!
# The nearest participating ancestors

What the search for the nearest participating ancestors finds, said branch by branch and without
the set of settled branches: on each branch the first declaration that takes part
(`firstOn?`), and from each branch at most one. An ancestor list may be any list whatever; its
branches need not be numbered in order, and the declarations of one branch need not stand together.

* `mem_nearestAncestors_iff`, `nodup_nearestAncestors` — the declarations kept are the first ones
  of their branches, one for each branch;
* `length_filter_nearestParticipating` — how many of them have a property, counted by branches;
* `nearestParticipating_eq_nil_iff` — none is found when none takes part;
* `nearestParticipating_filter`, `mem_nearestParticipating_of_first` — who takes no part neither
  matters to the search nor ends it;
* `nearestParticipating_alike`, `nearestParticipating_map` — related ancestor lists have related
  nearest declarations.
-/

namespace OverrideCheck

variable {r : AnnotationReader} {settled : List Nat} {ancestors : List Ancestor}

/-- The first participating declaration on a branch. -/
def firstOn? (r : AnnotationReader) (ancestors : List Ancestor) (branch : Nat) :
    Option MethodRef :=
  (ancestors.find? fun a => a.branch = branch && r.participates a.decl.method.node).map (·.decl)

/-- The search for the nearest participating ancestors, keeping the branches they stand on. -/
def nearestAncestors (r : AnnotationReader) (settled : List Nat) : List Ancestor → List Ancestor
  | [] => []
  | a :: rest =>
    if a.branch ∈ settled then nearestAncestors r settled rest
    else if r.participates a.decl.method.node then
      a :: nearestAncestors r (a.branch :: settled) rest
    else nearestAncestors r settled rest

/-- The search forgets the branches. -/
theorem nearestFrom_eq_map (r : AnnotationReader) (settled : List Nat)
    (ancestors : List Ancestor) :
    nearestFrom r settled ancestors = (nearestAncestors r settled ancestors).map (·.decl) := by
  fun_induction nearestAncestors r settled ancestors with
  | case1 settled => rfl
  | case2 settled a rest hsettled ih => rw [nearestFrom, if_pos hsettled, ih]
  | case3 settled a rest hsettled hpart ih =>
    rw [nearestFrom, if_neg hsettled, if_pos hpart, ih, List.map_cons]
  | case4 settled a rest hsettled hpart ih => rw [nearestFrom, if_neg hsettled, if_neg hpart, ih]

/-! ### One declaration for each branch -/

/-- What is kept is the first participating declaration of a branch that was not settled. -/
theorem mem_nearestAncestors_iff {a : Ancestor} :
    a ∈ nearestAncestors r settled ancestors ↔ a.branch ∉ settled ∧
      (ancestors.find? fun x => x.branch = a.branch && r.participates x.decl.method.node) =
        some a := by
  -- the cases are those of the search: a settled branch, a find, and someone who takes no part
  fun_induction nearestAncestors r settled ancestors with
  | case1 settled => simp
  | case2 settled x rest hsettled ih =>
    rw [ih, List.find?_cons]
    refine and_congr_right fun hnew => ?_
    -- `x` is on a settled branch, so it is passed over on the other side for its branch
    have hne : x.branch ≠ a.branch := fun heq => hnew (heq ▸ hsettled)
    simp [hne]
  | case3 settled x rest hsettled hpart ih =>
    rw [List.mem_cons, ih, List.find?_cons]
    by_cases hbranch : x.branch = a.branch
    · -- the branch is settled by `x`, so `a` is kept only if it is `x` itself
      have hnot : a.branch ∉ settled := hbranch ▸ hsettled
      simp [hbranch, hpart, hnot, eq_comm]
    · have hne : a ≠ x := fun heq => hbranch (by rw [heq])
      simp [hbranch, hne, Ne.symm hbranch]
  | case4 settled x rest hsettled hpart ih =>
    rw [ih, List.find?_cons]
    simp [hpart]

/-- No branch has two declarations kept, and no settled branch has one. -/
theorem nodup_nearestAncestors (r : AnnotationReader) (settled : List Nat)
    (ancestors : List Ancestor) :
    ((nearestAncestors r settled ancestors).map (·.branch)).Nodup := by
  fun_induction nearestAncestors r settled ancestors with
  | case1 settled => exact List.nodup_nil
  | case2 settled a rest hsettled ih => exact ih
  | case3 settled a rest hsettled hpart ih =>
    rw [List.map_cons, List.nodup_cons]
    refine ⟨fun hmem => ?_, ih⟩
    -- the branch of `a` is settled from here on, so nothing that is kept later stands on it
    obtain ⟨b, hb, hbranch⟩ := List.mem_map.1 hmem
    exact (mem_nearestAncestors_iff.1 hb).1 (hbranch ▸ List.mem_cons_self)
  | case4 settled a rest hsettled hpart ih => exact ih

/-- The nearest participating declarations are the first ones of the branches. -/
theorem mem_nearestParticipating_iff {d : MethodRef} :
    d ∈ nearestParticipating r ancestors ↔ ∃ branch, firstOn? r ancestors branch = some d := by
  simp only [nearestParticipating, nearestFrom_eq_map, List.mem_map, mem_nearestAncestors_iff,
    List.not_mem_nil, not_false_eq_true, true_and, firstOn?, Option.map_eq_some_iff]
  constructor
  · rintro ⟨a, ha, rfl⟩
    exact ⟨a.branch, a, ha, rfl⟩
  · rintro ⟨branch, a, ha, rfl⟩
    have hfound := List.find?_some ha
    simp only [Bool.and_eq_true, decide_eq_true_eq] at hfound
    exact ⟨a, by rw [hfound.1]; exact ha, rfl⟩

/-- The first participating declaration on a branch is that of an ancestor there. -/
theorem exists_ancestor_of_firstOn? {branch : Nat} {d : MethodRef}
    (h : firstOn? r ancestors branch = some d) :
    ∃ a ∈ ancestors, a.branch = branch ∧ a.decl = d ∧ r.participates d.method.node = true := by
  obtain ⟨a, hfind, rfl⟩ := Option.map_eq_some_iff.1 h
  have hfound := List.find?_some hfind
  simp only [Bool.and_eq_true, decide_eq_true_eq] at hfound
  exact ⟨a, List.mem_of_find?_eq_some hfind, hfound.1, rfl, hfound.2⟩

/-- A nearest participating declaration is one of the ancestors, and takes part. -/
theorem exists_ancestor_of_mem_nearest {d : MethodRef}
    (h : d ∈ nearestParticipating r ancestors) :
    ∃ a ∈ ancestors, a.decl = d ∧ r.participates d.method.node = true := by
  obtain ⟨branch, hfirst⟩ := mem_nearestParticipating_iff.1 h
  obtain ⟨a, ha, -, hdecl, hpart⟩ := exists_ancestor_of_firstOn? hfirst
  exact ⟨a, ha, hdecl, hpart⟩

/-- If the ancestors start with some of one branch, one of which takes part, then the nearest
declaration of that branch is among those they start with. -/
theorem exists_nearest_of_prefix {first : List Ancestor} (rest : List Ancestor) {branch : Nat}
    (hbranch : ∀ x ∈ first, x.branch = branch) {a : Ancestor} (ha : a ∈ first)
    (hpart : r.participates a.decl.method.node = true) :
    ∃ x ∈ first, r.participates x.decl.method.node = true ∧
      x.decl ∈ nearestParticipating r (first ++ rest) := by
  -- `a` is one that the search among the first ones would take, so it does find some `x`
  obtain ⟨x, hx⟩ : ∃ x, (first.find? fun x =>
      x.branch = branch && r.participates x.decl.method.node) = some x := by
    rw [← Option.isSome_iff_exists, List.find?_isSome]
    exact ⟨a, ha, by simp [hbranch a ha, hpart]⟩
  have hfound := List.find?_some hx
  simp only [Bool.and_eq_true, decide_eq_true_eq] at hfound
  refine ⟨x, List.mem_of_find?_eq_some hx, hfound.2, mem_nearestParticipating_iff.2 ⟨branch, ?_⟩⟩
  rw [firstOn?, List.find?_append, hx]
  rfl

/-- Nothing is found exactly when no ancestor takes part. -/
theorem nearestParticipating_eq_nil_iff :
    nearestParticipating r ancestors = [] ↔
      ∀ a ∈ ancestors, r.participates a.decl.method.node = false := by
  rw [List.eq_nil_iff_forall_not_mem]
  simp only [mem_nearestParticipating_iff, firstOn?, Option.map_eq_some_iff, not_exists, not_and]
  constructor
  · intro h a ha
    by_contra hpart
    rw [Bool.not_eq_false] at hpart
    -- someone takes part on this branch, so its search ends with a declaration
    obtain ⟨x, hx⟩ : ∃ x, (ancestors.find? fun x =>
        x.branch = a.branch && r.participates x.decl.method.node) = some x := by
      rw [← Option.isSome_iff_exists, List.find?_isSome]
      exact ⟨a, ha, by simp [hpart]⟩
    exact h x.decl a.branch x hx rfl
  · intro h d branch a ha _
    have hfound := List.find?_some ha
    rw [h a (List.mem_of_find?_eq_some ha), Bool.and_false] at hfound
    cases hfound

/-- Leaving out ancestors that take no part leaves the search as it was. -/
theorem nearestParticipating_filter {q : Ancestor → Bool}
    (hq : ∀ a ∈ ancestors, r.participates a.decl.method.node = true → q a = true) :
    nearestParticipating r (ancestors.filter q) = nearestParticipating r ancestors := by
  -- the search is compared at every state, for both sides settle the same branches
  suffices hfrom : ∀ settled, nearestFrom r settled (ancestors.filter q) =
      nearestFrom r settled ancestors from hfrom []
  induction ancestors with
  | nil => exact fun _ => rfl
  | cons a rest ih =>
    intro settled
    obtain ⟨hfirst, hrest⟩ := List.forall_mem_cons.1 hq
    rw [List.filter_cons]
    split
    · simp only [nearestFrom, ih hrest]
    · -- what is left out neither settles a branch nor is found on one
      next hout => rw [ih hrest, nearestFrom, if_neg fun hpart => hout (hfirst hpart), ite_self]

/-- An ancestor that takes part is found if nobody before it on its branch takes part, whoever else
stands there. -/
theorem mem_nearestParticipating_of_first {before after : List Ancestor} {a : Ancestor}
    (hpart : r.participates a.decl.method.node = true)
    (hbefore : ∀ b ∈ before, b.branch = a.branch → r.participates b.decl.method.node = false) :
    a.decl ∈ nearestParticipating r (before ++ a :: after) := by
  -- before `a`, whoever stands on its branch takes no part, and the others stand elsewhere
  have hnone : (before.find? fun x =>
      x.branch = a.branch && r.participates x.decl.method.node) = none := by
    refine List.find?_eq_none.2 fun b hb => ?_
    by_cases hbranch : b.branch = a.branch
    · simp [hbranch, hbefore b hb hbranch]
    · simp [hbranch]
  refine mem_nearestParticipating_iff.2 ⟨a.branch, ?_⟩
  rw [firstOn?, List.find?_append, hnone, Option.none_or, List.find?_cons]
  simp [hpart]

/-- As many nearest declarations have a property as there are branches whose first participating
declaration has it. -/
theorem length_filter_nearestParticipating (f : MethodRef → Bool) :
    ((nearestParticipating r ancestors).filter f).length =
      ((ancestors.map (·.branch)).dedup.filter fun b =>
        (firstOn? r ancestors b).any f).length := by
  have hkept : ((nearestParticipating r ancestors).filter f).length =
      (((nearestAncestors r [] ancestors).filter fun a => f a.decl).map (·.branch)).length := by
    unfold nearestParticipating
    rw [nearestFrom_eq_map, List.filter_map, List.length_map, List.length_map]
    rfl
  rw [hkept]
  -- both lists repeat no branch, so it is enough that they hold the same ones
  refine List.Perm.length_eq ((List.perm_ext_iff_of_nodup ?_ ?_).2 fun b => ?_)
  · exact (nodup_nearestAncestors r [] ancestors).sublist (List.filter_sublist.map _)
  · exact (List.nodup_dedup _).filter _
  simp only [List.mem_map, List.mem_filter, mem_nearestAncestors_iff, List.mem_dedup, firstOn?]
  constructor
  · rintro ⟨a, ⟨⟨-, ha⟩, hf⟩, rfl⟩
    exact ⟨⟨a, List.mem_of_find?_eq_some ha, rfl⟩, by rw [ha]; exact hf⟩
  · rintro ⟨-, hany⟩
    obtain ⟨d, hd, hf⟩ := (Option.any_eq_true _ _).1 hany
    obtain ⟨a, ha, rfl⟩ := Option.map_eq_some_iff.1 hd
    have hfound := List.find?_some ha
    simp only [Bool.and_eq_true, decide_eq_true_eq] at hfound
    exact ⟨a, ⟨⟨List.not_mem_nil, by rw [hfound.1]; exact ha⟩, hf⟩, hfound.1⟩

/-! ### Related ancestors -/

/-- Searches through related ancestors find related declarations, if the relation keeps who takes
part. -/
theorem nearestParticipating_alike {r' : AnnotationReader} {T : MethodRef → MethodRef → Prop}
    (hpart : ∀ d e, T d e → r.participates d.method.node = r'.participates e.method.node)
    {as bs : List Ancestor} (h : List.Forall₂ (Ancestor.Alike T) as bs) :
    List.Forall₂ T (nearestParticipating r as) (nearestParticipating r' bs) := by
  suffices hfrom : ∀ settled, List.Forall₂ T (nearestFrom r settled as)
      (nearestFrom r' settled bs) from hfrom []
  -- both searches settle a branch at the same place, so the settled branches stay equal
  induction h with
  | nil => exact fun _ => List.Forall₂.nil
  | @cons a b as bs hab _ ih =>
    intro settled
    unfold nearestFrom
    rw [← hab.branch, ← hpart _ _ hab.decl]
    split
    · exact ih settled
    · split
      · exact List.Forall₂.cons hab.decl (ih _)
      · exact ih settled

/-- A search through ancestors under other declarations finds the other declarations, if they take
part alike. -/
theorem nearestParticipating_map {r' : AnnotationReader} {f : MethodRef → MethodRef}
    (hpart : ∀ d, r'.participates (f d).method.node = r.participates d.method.node)
    (ancestors : List Ancestor) :
    nearestParticipating r' (ancestors.map fun a => ⟨a.branch, f a.decl⟩) =
      (nearestParticipating r ancestors).map f := by
  -- equal lists are lists related by equality, and a map on one side goes into the relation
  rw [← List.forall₂_eq_eq_eq, List.forall₂_map_right_iff]
  refine nearestParticipating_alike ?_ (List.forall₂_map_left_iff.2 (List.forall₂_same.2 ?_))
  · rintro _ d rfl
    exact hpart d
  · exact fun a _ => ⟨rfl, rfl⟩

end OverrideCheck
