import OverrideCheck.Hierarchy.Index

/-!
# Walking the supertypes of a type

The supertypes of a type are walked branch by branch: one branch for the superclass, then one for
each interface, in order. On a branch the type it starts with comes first, then the superclasses
of that type, innermost first, then the interfaces of that type and of each of those superclasses,
depth first. A name is entered once per walk, so a supertype shared by several branches belongs to
the first of them, and a hierarchy that runs in circles is walked to an end all the same.

* `Visit` — one thing met on the way: a type reached, or a name that leads no further;
* `Walk` — the visits in order, and every name seen by then;
* `superclassesFrom`, `interfacesFrom` — the two kinds of steps;
* `supertypesFrom` — the proper supertypes of a type, minus the names already seen;
* `branchVisits`, `branches` — the branches of a type, as visits and as the types reached.

Names outside the program (library types, say) are marked as seen and declare nothing. Both kinds
of steps end because each type of the program is entered at most once (`TypeIndex.unseen`).
-/

namespace OverrideCheck

/-- One thing met while walking the supertypes of a type. -/
inductive Visit
  /-- A type of the program that was not seen before. -/
  | reached (entry : TypeEntry)
  /-- The chain of superclasses above `type` came upon a name that was seen before. -/
  | superclassSeen (type superclass : String)
  /-- A chain of superclasses left the program. -/
  | superclassOutside (superclass : String)
  /-- A direct supertype of `type` is not in the program, so it starts no branch. -/
  | supertypeOutside (type supertype : String)

/-- The type reached by a visit, if it reached one. -/
def Visit.entry? : Visit → Option TypeEntry
  | .reached entry => some entry
  | _ => none

/-- What was met, in order, and every name seen by then. -/
structure Walk where
  visits : List Visit
  seen : List String

/-- The types a walk reached, in order. -/
def Walk.types (w : Walk) : List TypeEntry := w.visits.filterMap Visit.entry?

namespace TypeIndex

/-- Follows the chain of superclasses above the type `type`, from the given next one. The chain
ends at a type without a superclass, at a name already seen, or at a type outside the program. -/
def superclassesFrom (index : TypeIndex) (type : String) (seen : List String) :
    Option String → Walk
  | none => ⟨[], seen⟩
  | some name =>
    if _hseen : name ∈ seen then ⟨[.superclassSeen type name], seen⟩
    else
      match _hfind : index.find? name with
      | none => ⟨[.superclassOutside name], name :: seen⟩
      | some entry =>
        let rest := superclassesFrom index type (name :: seen) entry.decl.superclass
        ⟨.reached entry :: rest.visits, rest.seen⟩
termination_by index.unseen seen
decreasing_by exact unseen_cons_lt _hfind _hseen

/-- Enters the interfaces of a list in order, each followed by the interfaces it extends. Names
already seen are passed over. -/
def interfacesFrom (index : TypeIndex) (seen : List String) : List String → Walk
  | [] => ⟨[], seen⟩
  | name :: rest =>
    if _hseen : name ∈ seen then interfacesFrom index seen rest
    else
      match _hfind : index.find? name with
      | none => interfacesFrom index (name :: seen) rest
      | some entry =>
        let walk := interfacesFrom index (name :: seen) (entry.decl.interfaces ++ rest)
        ⟨.reached entry :: walk.visits, walk.seen⟩
termination_by names => (index.unseen seen, names.length)
decreasing_by
  · exact Prod.Lex.right _ (Nat.lt_succ_self _)
  · rcases Nat.lt_or_eq_of_le (index.unseen_cons_le name seen) with h | h
    · exact Prod.Lex.left _ _ h
    · rw [h]
      exact Prod.Lex.right _ (Nat.lt_succ_self _)
  · exact Prod.Lex.left _ _ (unseen_cons_lt _hfind _hseen)

/-! ### One step at a time -/

section Steps

variable {index : TypeIndex} {type name : String} {seen rest : List String} {entry : TypeEntry}

/-- A chain of superclasses ends at a name that was seen. -/
theorem superclassesFrom_of_mem (h : name ∈ seen) :
    index.superclassesFrom type seen (some name) = ⟨[.superclassSeen type name], seen⟩ := by
  rw [superclassesFrom, dif_pos h]

/-- A chain of superclasses ends at a name from outside the program. -/
theorem superclassesFrom_of_find?_eq_none (h : name ∉ seen) (hfind : index.find? name = none) :
    index.superclassesFrom type seen (some name) = ⟨[.superclassOutside name], name :: seen⟩ := by
  rw [superclassesFrom, dif_neg h]
  split
  · rfl
  · next hsome => rw [hfind] at hsome; cases hsome

/-- A chain of superclasses goes on above a type that was not seen. -/
theorem superclassesFrom_of_find?_eq_some (h : name ∉ seen)
    (hfind : index.find? name = some entry) :
    index.superclassesFrom type seen (some name) =
      ⟨.reached entry ::
          (index.superclassesFrom type (name :: seen) entry.decl.superclass).visits,
        (index.superclassesFrom type (name :: seen) entry.decl.superclass).seen⟩ := by
  rw [superclassesFrom, dif_neg h]
  split
  · next hnone => rw [hfind] at hnone; cases hnone
  · next hsome =>
    obtain rfl := Option.some.inj (hfind.symm.trans hsome)
    rfl

/-- An interface that was seen is passed over. -/
theorem interfacesFrom_of_mem (h : name ∈ seen) :
    index.interfacesFrom seen (name :: rest) = index.interfacesFrom seen rest := by
  rw [interfacesFrom, dif_pos h]

/-- An interface from outside the program is marked as seen. -/
theorem interfacesFrom_of_find?_eq_none (h : name ∉ seen) (hfind : index.find? name = none) :
    index.interfacesFrom seen (name :: rest) = index.interfacesFrom (name :: seen) rest := by
  rw [interfacesFrom, dif_neg h]
  split
  · rfl
  · next hsome => rw [hfind] at hsome; cases hsome

/-- An interface that was not seen is followed by the interfaces it extends. -/
theorem interfacesFrom_of_find?_eq_some (h : name ∉ seen)
    (hfind : index.find? name = some entry) :
    index.interfacesFrom seen (name :: rest) =
      ⟨.reached entry ::
          (index.interfacesFrom (name :: seen) (entry.decl.interfaces ++ rest)).visits,
        (index.interfacesFrom (name :: seen) (entry.decl.interfaces ++ rest)).seen⟩ := by
  rw [interfacesFrom, dif_neg h]
  split
  · next hnone => rw [hfind] at hnone; cases hnone
  · next hsome =>
    obtain rfl := Option.some.inj (hfind.symm.trans hsome)
    rfl

end Steps

/-! ### Walks from a type -/

/-- The proper supertypes of a type in walk order: its superclasses, innermost first, then its own
interfaces, then those of each of these superclasses. Names already seen are left out. -/
def supertypesFrom (index : TypeIndex) (seen : List String) (t : TypeDecl) : Walk :=
  let chain := index.superclassesFrom t.name seen t.superclass
  let interfaces := index.interfacesFrom chain.seen
    (t.interfaces ++ chain.types.flatMap fun e => e.decl.interfaces)
  ⟨chain.visits ++ interfaces.visits, interfaces.seen⟩

/-- What is met on each branch of the type `type` whose direct supertypes are listed, for those
that were not seen before. -/
def branchVisitsFrom (index : TypeIndex) (type : String) (seen : List String) :
    List String → List (List Visit)
  | [] => []
  | name :: rest =>
    if name ∈ seen then branchVisitsFrom index type seen rest
    else
      match index.find? name with
      | none => [.supertypeOutside type name] :: branchVisitsFrom index type (name :: seen) rest
      | some entry =>
        let above := index.supertypesFrom (name :: seen) entry.decl
        (.reached entry :: above.visits) :: branchVisitsFrom index type above.seen rest

/-- What is met on each branch of a type: the superclass's first, then one for each interface. -/
def branchVisits (index : TypeIndex) (t : TypeDecl) : List (List Visit) :=
  index.branchVisitsFrom t.name [t.name] t.directSupertypes

/-- The branches of a type, each with the types it reaches. A direct supertype that is outside the
program or was seen on an earlier branch has none. -/
def branches (index : TypeIndex) (t : TypeDecl) : List (List TypeEntry) :=
  ((index.branchVisits t).map fun visits => visits.filterMap Visit.entry?).filter (!·.isEmpty)

end TypeIndex

end OverrideCheck
