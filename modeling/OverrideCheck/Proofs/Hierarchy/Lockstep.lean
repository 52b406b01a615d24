import Mathlib.Data.List.Forall2
import OverrideCheck.Proofs.Hierarchy.Branches

/-!
# Walks in lockstep

Two type indexes that answer alike on a set of names are walked alike from these names. What
"alike" means is a relation `R` between entries that keeps the superclass and the interfaces of a
type (`Agreement`), so the lemmas serve for indexes that know the same declarations in different
units as well as for indexes whose declarations differ in parts the walk never reads.

* `Agreement` — two indexes that answer alike on the names of a set that supertypes stay inside;
* `Agreement.of_forall₂` — agreement on every name, from entries related one by one;
* `Agreement.superclassesFrom`, `Agreement.interfacesFrom`, `Agreement.supertypesFrom`,
  `Agreement.branchTypesFrom` — both walks report related types in the same order and see the same
  names;
* `Agreement.overridden` — both searches find related declarations, branch by branch.

The visited set is what has to be carried along: each walk decides by it, so the two of them stay
together only because the names seen so far are equal and not merely related.
-/

namespace OverrideCheck

open TypeIndex

/-- On the names that satisfy `S`, two indexes know nothing or related entries. Related entries
name the same supertypes, and the supertypes of a name that satisfies `S` satisfy it too. -/
structure Agreement (R : TypeEntry → TypeEntry → Prop) (S : String → Prop)
    (i j : TypeIndex) : Prop where
  /-- Both know nothing about a name or both know something, and these are related. -/
  find? : ∀ name, S name → Option.Rel R (i.find? name) (j.find? name)
  /-- The set of names is closed under supertypes. -/
  inherited : i.Inherited S
  /-- Related types have the same superclass. -/
  superclass : ∀ e f, R e f → e.decl.superclass = f.decl.superclass
  /-- Related types have the same interfaces in the same order. -/
  interfaces : ∀ e f, R e f → e.decl.interfaces = f.decl.interfaces

/-- Lists of equal images are related element by element. -/
theorem forall₂_of_map_eq {α β γ : Type} {f : α → γ} {g : β → γ} {xs : List α} {ys : List β}
    (h : xs.map f = ys.map g) : List.Forall₂ (fun x y => f x = g y) xs ys := by
  have himages : List.Forall₂ (· = ·) (xs.map f) (ys.map g) := by
    rw [List.forall₂_eq_eq_eq]
    exact h
  rwa [List.forall₂_map_left_iff, List.forall₂_map_right_iff] at himages

/-- Searches through related lists, by tests that agree on what is related, find related elements or
nothing. -/
theorem find?_rel {α β : Type} {R : α → β → Prop} {f : α → Bool} {g : β → Bool}
    (hfg : ∀ x y, R x y → f x = g y) {xs : List α} {ys : List β} (h : List.Forall₂ R xs ys) :
    Option.Rel R (xs.find? f) (ys.find? g) := by
  induction h with
  | nil => exact .none
  | @cons x y _ _ hxy _ ih =>
    rw [List.find?_cons, List.find?_cons, ← hfg x y hxy]
    cases f x with
    | true => exact .some hxy
    | false => exact ih

/-- Indexes agree on every name if their entries are related one by one, under equal names. -/
theorem Agreement.of_forall₂ {R : TypeEntry → TypeEntry → Prop} {i j : TypeIndex}
    (hname : ∀ e f, R e f → e.name = f.name)
    (hsuperclass : ∀ e f, R e f → e.decl.superclass = f.decl.superclass)
    (hinterfaces : ∀ e f, R e f → e.decl.interfaces = f.decl.interfaces)
    (h : List.Forall₂ R i.entries j.entries) : Agreement R (fun _ => True) i j where
  find? name _ := find?_rel (fun e f hef => by rw [hname e f hef]) h
  inherited _ _ _ _ _ _ := trivial
  superclass := hsuperclass
  interfaces := hinterfaces

/-- Two walks that reported related types and saw the same names. -/
structure Walk.Alike (R : TypeEntry → TypeEntry → Prop) (v w : Walk) : Prop where
  types : List.Forall₂ R v.types w.types
  seen : v.seen = w.seen

/-- Walks stay alike when they are taken up alike. -/
theorem Walk.Alike.append {R : TypeEntry → TypeEntry → Prop} {v w v' w' : Walk}
    (h : v.Alike R w) (h' : v'.Alike R w') : (v.append v').Alike R (w.append w') where
  types := by
    rw [Walk.types_append, Walk.types_append]
    exact List.rel_append h.types h'.types
  seen := h'.seen

namespace Agreement

variable {R : TypeEntry → TypeEntry → Prop} {S : String → Prop} {i j : TypeIndex}
  (A : Agreement R S i j)

include A

/-- What one index does not know under a name of the set, the other one does not know either. -/
theorem find?_eq_none {name : String} (hname : S name) (h : i.find? name = none) :
    j.find? name = none := by
  have hrel := A.find? name hname
  rw [h] at hrel
  cases hfind : j.find? name with
  | none => rfl
  | some f =>
    rw [hfind] at hrel
    cases hrel

/-- What one index knows under a name of the set, the other one knows up to the relation. -/
theorem exists_find?_eq_some {name : String} {e : TypeEntry} (hname : S name)
    (h : i.find? name = some e) : ∃ f, j.find? name = some f ∧ R e f := by
  have hrel := A.find? name hname
  rw [h] at hrel
  cases hfind : j.find? name with
  | none =>
    rw [hfind] at hrel
    cases hrel
  | some f =>
    rw [hfind] at hrel
    cases hrel with
    | some hef => exact ⟨f, rfl, hef⟩

/-- The superclass of a known type is a name of the set. -/
theorem superclass_mem {name s : String} {e : TypeEntry} (hname : S name)
    (h : i.find? name = some e) (hs : e.decl.superclass = some s) : S s :=
  A.inherited name e hname h s (by simp [TypeDecl.directSupertypes, hs])

/-- The interfaces of a known type are names of the set. -/
theorem interfaces_mem {name : String} {e : TypeEntry} (hname : S name)
    (h : i.find? name = some e) : ∀ n ∈ e.decl.interfaces, S n :=
  fun n hn => A.inherited name e hname h n (List.mem_append_right _ hn)

/-- Chains of superclasses are walked alike, whatever type they are said to start from. -/
theorem superclassesFrom (type type' : String) (seen : List String) (next : Option String)
    (hnext : ∀ name, next = some name → S name) :
    (i.superclassesFrom type seen next).Alike R (j.superclassesFrom type' seen next) := by
  -- the induction is on the walk in one index; the step of the other walk is the one its case names
  fun_induction TypeIndex.superclassesFrom i type seen next with
  | case1 seen =>
    rw [TypeIndex.superclassesFrom]
    exact ⟨List.Forall₂.nil, rfl⟩
  | case2 seen name hseen =>
    rw [superclassesFrom_of_mem hseen]
    exact ⟨List.Forall₂.nil, rfl⟩
  | case3 seen name hseen hfind =>
    rw [superclassesFrom_of_find?_eq_none hseen (A.find?_eq_none (hnext name rfl) hfind)]
    exact ⟨List.Forall₂.nil, rfl⟩
  | case4 seen name hseen entry hfind rest ih =>
    have hname := hnext name rfl
    obtain ⟨f, hfind', hrel⟩ := A.exists_find?_eq_some hname hfind
    rw [superclassesFrom_of_find?_eq_some hseen hfind', ← A.superclass entry f hrel]
    -- the chain goes on with a name of the set, as supertypes of such names are
    have hrest := ih fun s hs => A.superclass_mem hname hfind hs
    exact ⟨List.Forall₂.cons hrel hrest.types, hrest.seen⟩

/-- Lists of interfaces are walked alike. -/
theorem interfacesFrom (seen names : List String) (hnames : ∀ name ∈ names, S name) :
    (i.interfacesFrom seen names).Alike R (j.interfacesFrom seen names) := by
  fun_induction TypeIndex.interfacesFrom i seen names with
  | case1 seen =>
    rw [TypeIndex.interfacesFrom]
    exact ⟨List.Forall₂.nil, rfl⟩
  | case2 seen name rest hseen ih =>
    rw [interfacesFrom_of_mem hseen]
    exact ih fun n hn => hnames n (List.mem_cons_of_mem _ hn)
  | case3 seen name rest hseen hfind ih =>
    have hname := hnames name List.mem_cons_self
    rw [interfacesFrom_of_find?_eq_none hseen (A.find?_eq_none hname hfind)]
    exact ih fun n hn => hnames n (List.mem_cons_of_mem _ hn)
  | case4 seen name rest hseen entry hfind walk ih =>
    have hname := hnames name List.mem_cons_self
    obtain ⟨f, hfind', hrel⟩ := A.exists_find?_eq_some hname hfind
    rw [interfacesFrom_of_find?_eq_some hseen hfind', ← A.interfaces entry f hrel]
    have hwalk : walk.Alike R
        (j.interfacesFrom (name :: seen) (entry.decl.interfaces ++ rest)) := by
      -- the walk goes on with interfaces of a known type, so it stays inside the set
      refine ih fun n hn => ?_
      rcases List.mem_append.1 hn with hn | hn
      · exact A.interfaces_mem hname hfind n hn
      · exact hnames n (List.mem_cons_of_mem _ hn)
    exact ⟨List.Forall₂.cons hrel hwalk.types, hwalk.seen⟩

/-- Related lists of types have the same interfaces in the same order. -/
theorem flatMap_interfaces {es fs : List TypeEntry} (h : List.Forall₂ R es fs) :
    (es.flatMap fun e => e.decl.interfaces) = fs.flatMap fun f => f.decl.interfaces := by
  induction h with
  | nil => rfl
  | cons hef _ ih => rw [List.flatMap_cons, List.flatMap_cons, A.interfaces _ _ hef, ih]

/-- The proper supertypes of two types that name the same supertypes are walked alike. -/
theorem supertypesFrom (seen : List String) {t u : TypeDecl} (hsuper : t.superclass = u.superclass)
    (hinterfaces : t.interfaces = u.interfaces) (ht : ∀ s ∈ t.directSupertypes, S s) :
    (i.supertypesFrom seen t).Alike R (j.supertypesFrom seen u) := by
  have hchain : (i.superclassChain seen t).Alike R (j.superclassChain seen u) := by
    rw [superclassChain, superclassChain, ← hsuper]
    exact A.superclassesFrom _ _ _ _ fun s hs => ht s (by simp [TypeDecl.directSupertypes, hs])
  -- the chains are related, so both walks go on with the same interfaces
  have habove : j.interfacesAbove seen u = i.interfacesAbove seen t := by
    rw [interfacesAbove, interfacesAbove, A.flatMap_interfaces hchain.types, hinterfaces]
  have hwalk := A.interfacesFrom (i.superclassChain seen t).seen (i.interfacesAbove seen t)
    (interfacesAbove_forall A.inherited seen t ht)
  rw [supertypesFrom_eq, supertypesFrom_eq, habove, ← hchain.seen]
  exact hchain.append hwalk

/-- The branches that start from the same names are walked alike, and end with the same names
seen. -/
theorem branchTypesFrom (seen names : List String) (hnames : ∀ name ∈ names, S name) :
    List.Forall₂ (List.Forall₂ R) (i.branchTypesFrom seen names)
      (j.branchTypesFrom seen names) := by
  fun_induction TypeIndex.branchTypesFrom i seen names with
  | case1 seen => exact List.Forall₂.nil
  | case2 seen name rest hseen ih =>
    rw [TypeIndex.branchTypesFrom, if_pos hseen]
    exact ih fun n hn => hnames n (List.mem_cons_of_mem _ hn)
  | case3 seen name rest hseen hfind ih =>
    rw [TypeIndex.branchTypesFrom, if_neg hseen,
      A.find?_eq_none (hnames name List.mem_cons_self) hfind]
    exact ih fun n hn => hnames n (List.mem_cons_of_mem _ hn)
  | case4 seen name rest hseen entry hfind above ih =>
    have hname := hnames name List.mem_cons_self
    obtain ⟨f, hfind', hrel⟩ := A.exists_find?_eq_some hname hfind
    have habove := A.supertypesFrom (name :: seen) (A.superclass entry f hrel)
      (A.interfaces entry f hrel) (A.inherited name entry hname hfind)
    rw [TypeIndex.branchTypesFrom, if_neg hseen, hfind']
    refine List.Forall₂.cons (List.Forall₂.cons hrel habove.types) ?_
    -- the next branch starts with what this one saw, the same names on both sides
    rw [← habove.seen]
    exact ih fun n hn => hnames n (List.mem_cons_of_mem _ hn)

end Agreement

/-! ### Searches in lockstep -/

/-- Two overridden declarations on branches of the same number that are related. -/
structure Ancestor.Alike (T : MethodRef → MethodRef → Prop) (a b : Ancestor) : Prop where
  branch : a.branch = b.branch
  decl : T a.decl b.decl

/-- Numbering related branches and looking the same signature up in their types finds related
declarations. -/
theorem overridden_alike_of_branches {R : TypeEntry → TypeEntry → Prop}
    {T : MethodRef → MethodRef → Prop} {key : ErasedSignature}
    (hdecl : ∀ e f, R e f → Option.Rel T (e.declaration? key) (f.declaration? key))
    {bs cs : List (List TypeEntry)} (h : List.Forall₂ (List.Forall₂ R) bs cs) (k : Nat) :
    List.Forall₂ (Ancestor.Alike T)
      ((bs.zipIdx k).flatMap fun (types, branch) => types.filterMap fun e =>
        (e.declaration? key).map fun decl => ⟨branch, decl⟩)
      ((cs.zipIdx k).flatMap fun (types, branch) => types.filterMap fun e =>
        (e.declaration? key).map fun decl => ⟨branch, decl⟩) := by
  induction h generalizing k with
  | nil => exact List.Forall₂.nil
  | cons htypes _ ih =>
    -- related branches bear the same number, whether or not anything is found on them
    rw [List.zipIdx_cons, List.zipIdx_cons, List.flatMap_cons, List.flatMap_cons]
    refine List.rel_append (List.rel_filterMap ?_ htypes) (ih (k + 1))
    intro e f hef
    have hrel := hdecl e f hef
    simp only
    generalize e.declaration? key = d at hrel ⊢
    generalize f.declaration? key = d' at hrel ⊢
    cases hrel with
    | some hrel => exact .some ⟨rfl, hrel⟩
    | none => exact .none

/-- Two methods of one signature, in types of one name and the same direct supertypes, override
related declarations. -/
theorem Agreement.overridden {R : TypeEntry → TypeEntry → Prop} {S : String → Prop}
    {i j : TypeIndex} (A : Agreement R S i j) {T : MethodRef → MethodRef → Prop}
    (hdecl : ∀ key e f, R e f → Option.Rel T (e.declaration? key) (f.declaration? key))
    {m n : MethodRef} (hname : m.owner.name = n.owner.name)
    (hsupers : m.owner.directSupertypes = n.owner.directSupertypes)
    (hkey : m.method.node.erasedSignature = n.method.node.erasedSignature)
    (hS : ∀ s ∈ m.owner.directSupertypes, S s) :
    List.Forall₂ (Ancestor.Alike T) (i.overridden m) (j.overridden n) := by
  rw [TypeIndex.overridden, TypeIndex.overridden, branches_eq, branches_eq, ← hname, ← hsupers,
    ← hkey]
  exact overridden_alike_of_branches (hdecl _) (A.branchTypesFrom _ _ hS) 0

end OverrideCheck
