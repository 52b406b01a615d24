import OverrideCheck.Contract.Basic

/-!
# Comparing contracts

An overriding method must rebind the way the overridden one does. Two contracts are compared by
the kind of their type source (and the class it names, if it names one) and by their roles,
position by position; owner, signature and location are not looked at.

* `Mismatch` — one way in which two contracts differ;
* `RebindContract.mismatches` — every difference, in a fixed order: the type source, the number
  of parameters, then the roles in ascending position;
* `RebindContract.Compatible` — no difference at all.

The position of a type-carrying parameter is left to the comparison of the roles, which sees it
as a carrier on one side against something else on the other.
-/

namespace OverrideCheck

/-- One way in which an overriding contract departs from the overridden one. -/
inductive Mismatch
  | typeSource (child ancestor : TypeSource)
  | paramCount (child ancestor : Nat)
  | paramRole (index : Nat) (child ancestor : ParamRole)
deriving DecidableEq, Repr

/-- How a mismatch is told; positions are shown from one. -/
def Mismatch.describe : Mismatch → String
  | .typeSource child ancestor =>
    "type comes from " ++ child.describe ++ " but the overridden method uses " ++ ancestor.describe
  | .paramCount child ancestor =>
    Nat.repr child ++ " parameters where the overridden method has " ++ Nat.repr ancestor
  | .paramRole index child ancestor =>
    "parameter " ++ Nat.repr (index + 1) ++ " is " ++ child.describe ++ " but " ++
      ancestor.describe ++ " in the overridden method"

/-- Both sources take their type the same way, and from the same class if they name one. -/
def TypeSource.agrees : TypeSource → TypeSource → Bool
  | .explicit a, .explicit b => a == b
  | .parameter _, .parameter _ => true
  | .unspecified, .unspecified => true
  | _, _ => false

/-- The positions, counted from `index`, at which two lists of roles differ, as far as both
reach. -/
def roleMismatches (index : Nat) : List ParamRole → List ParamRole → List Mismatch
  | child :: children, ancestor :: ancestors =>
    (if child = ancestor then [] else [.paramRole index child ancestor]) ++
      roleMismatches (index + 1) children ancestors
  | _, _ => []

namespace RebindContract

/-- Every difference between a contract and the one it overrides. -/
def mismatches (child ancestor : RebindContract) : List Mismatch :=
  (if child.typeSource.agrees ancestor.typeSource then []
    else [.typeSource child.typeSource ancestor.typeSource]) ++
  (if child.roles.length = ancestor.roles.length then []
    else [.paramCount child.roles.length ancestor.roles.length]) ++
  roleMismatches 0 child.roles ancestor.roles

/-- The first contract may override the second. -/
def Compatible (child ancestor : RebindContract) : Prop := child.mismatches ancestor = []

instance (child ancestor : RebindContract) : Decidable (child.Compatible ancestor) :=
  inferInstanceAs (Decidable (_ = _))

end RebindContract

end OverrideCheck
