import OverrideCheck.Proofs.Hierarchy.Supertype

/-!
# What a walk explores

The three walks over supertypes share one set of seen names. What they have in common, whatever
order they keep, is `Explores`: the types they report are exactly the types of the program whose
names they were the first to see, each reported once. Explorations compose
(`Explores.append`), so each walk is held against this one statement
(`superclassesFrom_explores`, `interfacesFrom_explores`, `supertypesFrom_explores`).

A name is marked as seen before its own supertypes are entered, so a walk that meets a seen name
relies on that name being expanded by the time everything ends. The second group of lemmas says
that it is: whatever an interface walk reports has all of its interfaces seen at the end
(`interfacesFrom_closed`), and a chain of superclasses ends only where no name is left to see
(`superclassesFrom_closed`).

The third group bounds the walks from above: a property of names that supertypes inherit holds of
every reported type once it holds of the names the walk starts from (`interfacesFrom_forall` and
its companions).
-/

namespace OverrideCheck

open TypeIndex

/-- From the names `before`, a walk reported `types` and left the names `after` as seen. -/
structure Explores (index : TypeIndex) (before : List String) (types : List TypeEntry)
    (after : List String) : Prop where
  /-- Nothing that was seen is forgotten. -/
  subset : before ⊆ after
  /-- No type is reported twice. -/
  nodup : (types.map (·.name)).Nodup
  /-- The types reported are those of the program whose names are seen now and were not before. -/
  mem_iff : ∀ e, e ∈ types ↔ index.find? e.name = some e ∧ e.name ∈ after ∧ e.name ∉ before

namespace Explores

variable {index : TypeIndex} {before mid after : List String} {xs ys : List TypeEntry}
  {name : String} {entry : TypeEntry}

/-- Standing still explores nothing. -/
protected theorem refl (index : TypeIndex) (seen : List String) : Explores index seen [] seen where
  subset := fun _ h => h
  nodup := List.nodup_nil
  mem_iff := fun e => by simp

/-- An exploration may be taken up where another one ended. -/
theorem append (hx : Explores index before xs mid) (hy : Explores index mid ys after) :
    Explores index before (xs ++ ys) after where
  subset := fun _ h => hy.subset (hx.subset h)
  nodup := by
    rw [List.map_append, List.nodup_append']
    refine ⟨hx.nodup, hy.nodup, ?_⟩
    -- a name reported twice would be seen when the second exploration starts
    intro n hn hn'
    obtain ⟨e, he, rfl⟩ := List.mem_map.1 hn
    obtain ⟨f, hf, hname⟩ := List.mem_map.1 hn'
    have hmid : e.name ∈ mid := ((hx.mem_iff e).1 he).2.1
    exact ((hy.mem_iff f).1 hf).2.2 (hname ▸ hmid)
  mem_iff := fun e => by
    rw [List.mem_append, hx.mem_iff, hy.mem_iff]
    constructor
    · rintro (⟨hfind, hmid, hnew⟩ | ⟨hfind, hafter, hnew⟩)
      · exact ⟨hfind, hy.subset hmid, hnew⟩
      · exact ⟨hfind, hafter, fun hb => hnew (hx.subset hb)⟩
    · rintro ⟨hfind, hafter, hnew⟩
      -- the exploration that reports a type is the one on which its name was first seen
      by_cases hmid : e.name ∈ mid
      · exact Or.inl ⟨hfind, hmid, hnew⟩
      · exact Or.inr ⟨hfind, hafter, hmid⟩

/-- Seeing a type of the program for the first time reports it. -/
theorem reached (hfind : index.find? name = some entry) (hnew : name ∉ before) :
    Explores index before [entry] (name :: before) where
  subset := List.subset_cons_self name before
  nodup := List.nodup_singleton _
  mem_iff := fun e => by
    rw [List.mem_singleton, List.mem_cons]
    constructor
    · rintro rfl
      have hname := name_of_find? hfind
      exact ⟨find?_name_of_find? hfind, Or.inl hname, hname ▸ hnew⟩
    · rintro ⟨he, hmem | hmem, hnot⟩
      · rw [hmem, hfind] at he
        exact (Option.some.inj he).symm
      · exact absurd hmem hnot

/-- Seeing a name from outside the program reports nothing. -/
theorem outside (hfind : index.find? name = none) : Explores index before [] (name :: before) where
  subset := List.subset_cons_self name before
  nodup := List.nodup_nil
  mem_iff := fun e => by
    simp only [List.not_mem_nil, List.mem_cons, false_iff, not_and, not_not]
    rintro he (hmem | hmem)
    · rw [hmem, hfind] at he
      cases he
    · exact hmem

/-- A reported type is the one the index has under its name. -/
theorem find?_of_mem (h : Explores index before xs after) {e : TypeEntry} (he : e ∈ xs) :
    index.find? e.name = some e :=
  ((h.mem_iff e).1 he).1

end Explores

/-- A walk that reaches a type reports it first. -/
theorem Walk.types_reached (entry : TypeEntry) (w : Walk) :
    (Walk.mk (.reached entry :: w.visits) w.seen).types = entry :: w.types := rfl

/-- A walk without visits reports nothing. -/
@[simp] theorem Walk.types_nil (seen : List String) : (Walk.mk [] seen).types = [] := rfl

/-- A walk reports the types that it reached, in order. -/
@[simp] theorem Walk.types_cons_reached (entry : TypeEntry) (visits : List Visit)
    (seen : List String) :
    (Walk.mk (.reached entry :: visits) seen).types = entry :: (Walk.mk visits seen).types := rfl

/-- A walk taken up where another one ended. -/
def Walk.append (v w : Walk) : Walk := ⟨v.visits ++ w.visits, w.seen⟩

@[simp] theorem Walk.types_append (v w : Walk) : (v.append w).types = v.types ++ w.types :=
  List.filterMap_append

@[simp] theorem Walk.seen_append (v w : Walk) : (v.append w).seen = w.seen := rfl

namespace TypeIndex

variable {index : TypeIndex} {seen : List String}

/-- Above a type without a superclass there is no chain. -/
@[simp] theorem superclassesFrom_none (type : String) :
    index.superclassesFrom type seen none = ⟨[], seen⟩ := by
  rw [superclassesFrom]

/-- An empty list of interfaces leads nowhere. -/
@[simp] theorem interfacesFrom_nil : index.interfacesFrom seen [] = ⟨[], seen⟩ := by
  rw [interfacesFrom]

/-- The chain of superclasses above a type. -/
def superclassChain (index : TypeIndex) (seen : List String) (t : TypeDecl) : Walk :=
  index.superclassesFrom t.name seen t.superclass

/-- The interfaces of a type and of the superclasses above it. -/
def interfacesAbove (index : TypeIndex) (seen : List String) (t : TypeDecl) : List String :=
  t.interfaces ++ (index.superclassChain seen t).types.flatMap fun e => e.decl.interfaces

/-- The proper supertypes of a type are its superclasses and then what the interfaces above it lead
to. -/
theorem supertypesFrom_eq (index : TypeIndex) (seen : List String) (t : TypeDecl) :
    index.supertypesFrom seen t = (index.superclassChain seen t).append
      (index.interfacesFrom (index.superclassChain seen t).seen (index.interfacesAbove seen t)) :=
  rfl

/-! ### Every walk explores -/

/-- A chain of superclasses explores. -/
theorem superclassesFrom_explores (index : TypeIndex) (type : String) (seen : List String)
    (next : Option String) :
    Explores index seen (index.superclassesFrom type seen next).types
      (index.superclassesFrom type seen next).seen := by
  -- by the recursion of the walk: it ends, meets a name again, leaves the program, or goes on
  fun_induction superclassesFrom index type seen next with
  | case1 seen => exact Explores.refl index seen
  | case2 seen name hseen => exact Explores.refl index seen
  | case3 seen name hseen hfind => exact Explores.outside hfind
  | case4 seen name hseen entry hfind rest ih =>
    exact (Explores.reached hfind hseen).append ih

/-- A walk over interfaces explores. -/
theorem interfacesFrom_explores (index : TypeIndex) (seen names : List String) :
    Explores index seen (index.interfacesFrom seen names).types
      (index.interfacesFrom seen names).seen := by
  fun_induction interfacesFrom index seen names with
  | case1 seen => exact Explores.refl index seen
  | case2 seen name rest hseen ih => exact ih
  | case3 seen name rest hseen hfind ih => exact (Explores.outside hfind).append ih
  | case4 seen name rest hseen entry hfind walk ih =>
    exact (Explores.reached hfind hseen).append ih

/-- The proper supertypes of a type are explored, its superclasses and then the interfaces. -/
theorem supertypesFrom_explores (index : TypeIndex) (seen : List String) (t : TypeDecl) :
    Explores index seen (index.supertypesFrom seen t).types (index.supertypesFrom seen t).seen := by
  have hchain : Explores index seen (index.superclassChain seen t).types
      (index.superclassChain seen t).seen := index.superclassesFrom_explores _ _ _
  rw [supertypesFrom_eq, Walk.types_append, Walk.seen_append]
  exact hchain.append (index.interfacesFrom_explores _ _)

/-! ### What is met is expanded -/

/-- A chain of superclasses sees the name it starts from. -/
theorem superclassesFrom_next (index : TypeIndex) (type : String) (seen : List String)
    (next : Option String) {name : String} (hname : next = some name) :
    name ∈ (index.superclassesFrom type seen next).seen := by
  subst hname
  rw [superclassesFrom]
  split
  · assumption
  · next hseen =>
    split
    · exact List.mem_cons_self
    · next entry hfind =>
      exact (index.superclassesFrom_explores type (name :: seen) entry.decl.superclass).subset
        List.mem_cons_self

/-- A chain of superclasses leaves no superclass of a reported type unseen. -/
theorem superclassesFrom_closed (index : TypeIndex) (type : String) (seen : List String)
    (next : Option String) :
    ∀ e ∈ (index.superclassesFrom type seen next).types, ∀ s, e.decl.superclass = some s →
      s ∈ (index.superclassesFrom type seen next).seen := by
  fun_induction superclassesFrom index type seen next with
  | case1 seen => simp [Walk.types]
  | case2 seen name hseen => simp [Walk.types, Visit.entry?]
  | case3 seen name hseen hfind => simp [Walk.types, Visit.entry?]
  | case4 seen name hseen entry hfind rest ih =>
    intro e he s hs
    rw [Walk.types_reached, List.mem_cons] at he
    rcases he with rfl | hrest
    · -- its superclass is the name the rest of the chain starts from
      exact index.superclassesFrom_next type (name :: seen) _ hs
    · exact ih e hrest s hs

/-- A walk over interfaces sees every name of its list, and leaves no interface of a reported type
unseen. -/
theorem interfacesFrom_closed (index : TypeIndex) (seen names : List String) :
    names ⊆ (index.interfacesFrom seen names).seen ∧
      ∀ e ∈ (index.interfacesFrom seen names).types,
        e.decl.interfaces ⊆ (index.interfacesFrom seen names).seen := by
  fun_induction interfacesFrom index seen names with
  | case1 seen => simp [Walk.types]
  | case2 seen name rest hseen ih =>
    -- what was seen before stays seen
    have hkept := (index.interfacesFrom_explores seen rest).subset hseen
    exact ⟨List.cons_subset.2 ⟨hkept, ih.1⟩, ih.2⟩
  | case3 seen name rest hseen hfind ih =>
    have hkept := (index.interfacesFrom_explores (name :: seen) rest).subset List.mem_cons_self
    exact ⟨List.cons_subset.2 ⟨hkept, ih.1⟩, ih.2⟩
  | case4 seen name rest hseen entry hfind walk ih =>
    -- the interfaces of the reported type are the head of the list the walk goes on with
    have hkept := (index.interfacesFrom_explores (name :: seen)
      (entry.decl.interfaces ++ rest)).subset List.mem_cons_self
    obtain ⟨hown, hrest⟩ := List.append_subset.1 ih.1
    refine ⟨List.cons_subset.2 ⟨hkept, hrest⟩, fun e he => ?_⟩
    rw [Walk.types_reached, List.mem_cons] at he
    rcases he with rfl | he
    · exact hown
    · exact ih.2 e he

/-- The walk over the proper supertypes of a type leaves no interface of that type, and none of a
reported one, unseen. -/
theorem supertypesFrom_closed (index : TypeIndex) (seen : List String) (t : TypeDecl) :
    t.interfaces ⊆ (index.supertypesFrom seen t).seen ∧
      ∀ e ∈ (index.supertypesFrom seen t).types,
        e.decl.interfaces ⊆ (index.supertypesFrom seen t).seen := by
  obtain ⟨hnames, hreported⟩ := index.interfacesFrom_closed
    (index.superclassChain seen t).seen (index.interfacesAbove seen t)
  obtain ⟨hown, hchain⟩ := List.append_subset.1 hnames
  rw [supertypesFrom_eq, Walk.types_append, Walk.seen_append]
  refine ⟨hown, fun e he => ?_⟩
  rcases List.mem_append.1 he with he | he
  · -- the interfaces of a superclass are put on the list after the type's own
    intro i hi
    exact hchain (List.mem_flatMap.2 ⟨e, he, hi⟩)
  · exact hreported e he

/-- What the chain of superclasses saw is still seen when the walk over the proper supertypes
ends. -/
theorem superclassChain_subset_supertypesFrom (index : TypeIndex) (seen : List String)
    (t : TypeDecl) : (index.superclassChain seen t).seen ⊆ (index.supertypesFrom seen t).seen :=
  (index.interfacesFrom_explores _ _).subset

/-! ### Nothing else is reported -/

/-- A property of names that pass it on to the direct supertypes declared under them. -/
def Inherited (index : TypeIndex) (Q : String → Prop) : Prop :=
  ∀ name e, Q name → index.find? name = some e → ∀ s ∈ e.decl.directSupertypes, Q s

section Inherited

variable {Q : String → Prop} (hQ : index.Inherited Q)

include hQ

/-- An inherited property that holds of the next superclass holds of the whole chain. -/
theorem superclassesFrom_forall (type : String) (seen : List String) (next : Option String)
    (hnext : ∀ name, next = some name → Q name) :
    ∀ e ∈ (index.superclassesFrom type seen next).types, Q e.name := by
  fun_induction superclassesFrom index type seen next with
  | case1 seen => simp [Walk.types]
  | case2 seen name hseen => simp [Walk.types, Visit.entry?]
  | case3 seen name hseen hfind => simp [Walk.types, Visit.entry?]
  | case4 seen name hseen entry hfind rest ih =>
    intro e he
    rw [Walk.types_reached, List.mem_cons] at he
    rcases he with rfl | hrest
    · rw [name_of_find? hfind]
      exact hnext name rfl
    · refine ih (fun s hs => hQ name entry (hnext name rfl) hfind s ?_) e hrest
      simp [TypeDecl.directSupertypes, hs]

/-- An inherited property that holds of the listed interfaces holds of all that is reported. -/
theorem interfacesFrom_forall (seen names : List String) (hnames : ∀ name ∈ names, Q name) :
    ∀ e ∈ (index.interfacesFrom seen names).types, Q e.name := by
  fun_induction interfacesFrom index seen names with
  | case1 seen => simp [Walk.types]
  | case2 seen name rest hseen ih => exact ih fun n hn => hnames n (List.mem_cons_of_mem _ hn)
  | case3 seen name rest hseen hfind ih =>
    exact ih fun n hn => hnames n (List.mem_cons_of_mem _ hn)
  | case4 seen name rest hseen entry hfind walk ih =>
    intro e he
    have hname : Q name := hnames name List.mem_cons_self
    rw [Walk.types_reached, List.mem_cons] at he
    rcases he with rfl | he
    · rwa [name_of_find? hfind]
    · refine ih (fun n hn => ?_) e he
      -- the list goes on with interfaces of the reported type, which inherit the property
      rcases List.mem_append.1 hn with hn | hn
      · exact hQ name entry hname hfind n (List.mem_append_right _ hn)
      · exact hnames n (List.mem_cons_of_mem _ hn)

/-- An inherited property that holds of a type's direct supertypes holds of the interfaces above
it. -/
theorem interfacesAbove_forall (seen : List String) (t : TypeDecl)
    (ht : ∀ s ∈ t.directSupertypes, Q s) : ∀ n ∈ index.interfacesAbove seen t, Q n := by
  -- the property goes up the chain first, and from every class on it over to the interfaces
  have hchain := superclassesFrom_forall hQ t.name seen t.superclass
    fun s hs => ht s (by simp [TypeDecl.directSupertypes, hs])
  intro n hn
  rcases List.mem_append.1 hn with hn | hn
  · exact ht n (List.mem_append_right _ hn)
  · obtain ⟨e, he, hn⟩ := List.mem_flatMap.1 hn
    have hfind := (index.superclassesFrom_explores _ _ _).find?_of_mem he
    exact hQ e.name e (hchain e he) hfind n (List.mem_append_right _ hn)

/-- An inherited property that holds of a type's direct supertypes holds of all that the walk over
its proper supertypes reports. -/
theorem supertypesFrom_forall (seen : List String) (t : TypeDecl)
    (ht : ∀ s ∈ t.directSupertypes, Q s) :
    ∀ e ∈ (index.supertypesFrom seen t).types, Q e.name := by
  intro e he
  rw [supertypesFrom_eq, Walk.types_append, List.mem_append] at he
  rcases he with he | he
  · exact superclassesFrom_forall hQ t.name seen t.superclass
      (fun s hs => ht s (by simp [TypeDecl.directSupertypes, hs])) e he
  · exact interfacesFrom_forall hQ _ _ (interfacesAbove_forall hQ seen t ht) e he

end Inherited

end TypeIndex

end OverrideCheck
