import OverrideCheck.Contract.Markers
import OverrideCheck.Hierarchy.Overridden

/-!
# Nearest participating ancestors

Of the declarations that a method overrides, the check looks at one per branch: the first that
takes part in the rebind protocol. Declarations that do not take part are passed over and do not
end the search on their branch.

* `nearestFrom` — the search, given the branches that are settled already;
* `nearestParticipating` — the first participating declaration of each branch, in the order met.
-/

namespace OverrideCheck

/-- The first participating declaration of each branch that is not settled yet. -/
def nearestFrom (reader : AnnotationReader) (settled : List Nat) : List Ancestor → List MethodRef
  | [] => []
  | a :: rest =>
    if a.branch ∈ settled then nearestFrom reader settled rest
    else if reader.participates a.decl.method.node then
      a.decl :: nearestFrom reader (a.branch :: settled) rest
    else nearestFrom reader settled rest

/-- The first participating declaration of each branch, in the order of the list. -/
def nearestParticipating (reader : AnnotationReader) (ancestors : List Ancestor) :
    List MethodRef :=
  nearestFrom reader [] ancestors

end OverrideCheck
