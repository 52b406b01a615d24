import OverrideCheck.Proofs.Validation.Nearest
import OverrideCheck.Validation.Basic

/-!
# The search for the nearest declarations as a selection

The search goes through the ancestors once and carries the branches it has settled. What it keeps
can be said without them: strike out who takes no part, then keep each ancestor that is the first
one left on its branch, in the order in which they stand.

* `nearestAncestors_eq_eraseDupsBy` — the loop, for any branches that are settled before it begins;
* `Validator.nearest_selects` — the selection, whatever the lookup answers.

Nothing is assumed of the lookup. It may number branches in any order, come back to a branch after
another one, and list a declaration twice; so the induction has to speak of any set of settled
branches, and of the ancestors that are left rather than of the branches.
-/

namespace OverrideCheck

variable {r : AnnotationReader}

/-- The search that starts with settled branches selects from the ancestors on all others. -/
theorem nearestAncestors_eq_eraseDupsBy (settled : List Nat) (ancestors : List Ancestor) :
    nearestAncestors r settled ancestors =
      ((ancestors.filter fun a => r.participates a.decl.method.node).filter
        fun a => decide (a.branch ∉ settled)).eraseDupsBy fun a b => a.branch == b.branch := by
  fun_induction nearestAncestors r settled ancestors with
  | case1 settled => rfl
  | case2 settled a rest hsettled ih =>
    -- `a` is struck out on the right as well: by the first filter or, if not, by the second
    rw [ih, List.filter_cons]
    split
    · rw [List.filter_cons_of_neg]
      simpa using hsettled
    · rfl
  | case3 settled a rest hsettled hpart ih =>
    have hkept : decide (a.branch ∉ settled) = true := decide_eq_true hsettled
    rw [ih, List.filter_cons, if_pos hpart, List.filter_cons, if_pos hkept, List.eraseDupsBy_cons]
    congr 2
    -- what `a` settles is what comes after it on its branch
    rw [List.filter_filter (l := rest.filter _)]
    apply List.filter_congr
    intro b _
    rw [Bool.eq_iff_iff]
    simp
  | case4 settled a rest hsettled hpart ih => rw [ih, List.filter_cons, if_neg hpart]

namespace Validator

/-- **The search selects the first participating declaration of each branch.** From whatever the
lookup answers, the ancestors that take no part are struck out, and of those that are left on one
branch the first is kept, in the order of the answer. So there is at most one for each branch;
there is none exactly when nobody takes part; and a lookup that puts in or leaves out ancestors that
take no part, be it anywhere in its answer, leads to the same declarations. -/
theorem nearest_selects (v : Validator) (m : MethodRef) :
    let participants := (v.lookup m).filter fun a => v.participates a.decl
    let firsts := participants.eraseDupsBy fun a b => a.branch == b.branch
    v.nearest m = firsts.map (·.decl) ∧
      (firsts.map (·.branch)).Nodup ∧
      (v.nearest m = [] ↔ ∀ a ∈ v.lookup m, v.participates a.decl = false) ∧
      ∀ other : AncestorLookup,
        ((other m).filter fun a => v.participates a.decl) = participants →
          { v with lookup := other }.nearest m = v.nearest m := by
  intro participants firsts
  have hselects : ∀ ancestors : List Ancestor, nearestAncestors v.reader [] ancestors =
      (ancestors.filter fun a => v.participates a.decl).eraseDupsBy
        fun a b => a.branch == b.branch := by
    intro ancestors
    rw [nearestAncestors_eq_eraseDupsBy]
    congr 1
    -- before the first step no branch is settled
    exact List.filter_eq_self.2 fun a _ => by simp
  have hnearest : ∀ ancestors : List Ancestor, nearestParticipating v.reader ancestors =
      ((ancestors.filter fun a => v.participates a.decl).eraseDupsBy
        fun a b => a.branch == b.branch).map (·.decl) := by
    intro ancestors
    rw [nearestParticipating, nearestFrom_eq_map, hselects]
  -- `hnearest` speaks of any answer, so it serves for the other lookup too
  refine ⟨hnearest (v.lookup m), ?_, nearestParticipating_eq_nil_iff, ?_⟩
  · show (firsts.map (·.branch)).Nodup
    rw [show firsts = nearestAncestors v.reader [] (v.lookup m) from (hselects _).symm]
    exact nodup_nearestAncestors v.reader [] (v.lookup m)
  · intro other hother
    calc { v with lookup := other }.nearest m
        = nearestParticipating v.reader (other m) := rfl
      _ = firsts.map (·.decl) := by rw [hnearest (other m), hother]
      _ = v.nearest m := (hnearest (v.lookup m)).symm

end Validator

/-! Two branches that are listed in turns, the second one first; each begins with a declaration that
takes no part. -/

namespace Turns

/-- A declaration of `foo` at a line, with or without the rebind annotation. -/
def declared (line : UInt32) (annotated : Bool) : MethodRef where
  unitIndex := 0
  owner := { name := "test.T", kind := .interfaceKind }
  method :=
    ⟨{ name := "foo"
       annotations := if annotated then [{ name := "com.google.gwt.core.shared.Rebind" }] else [] },
      .atLine line⟩

/-- The answer of a lookup: branch one, then zero, then one again. -/
def answer : List Ancestor :=
  [⟨1, declared 1 false⟩, ⟨0, declared 2 true⟩, ⟨1, declared 3 true⟩, ⟨0, declared 4 true⟩,
    ⟨0, declared 5 false⟩, ⟨1, declared 6 true⟩]

/-- The answer without those who take no part, and with two others put in. -/
def otherAnswer : List Ancestor :=
  [⟨0, declared 7 false⟩, ⟨0, declared 2 true⟩, ⟨1, declared 3 true⟩, ⟨0, declared 4 true⟩,
    ⟨1, declared 6 true⟩, ⟨4, declared 8 false⟩]

def validator (ancestors : List Ancestor) : Validator where
  program := {}
  lookup := fun _ => ancestors
  reader := ({} : AnnotationNames).reader
  policy := .allow

/-- The declarations at the lines two and three are found from either answer. -/
theorem nearest_in_turns :
    (validator answer).nearest (declared 9 true) = [declared 2 true, declared 3 true] ∧
      (validator otherAnswer).nearest (declared 9 true) = [declared 2 true, declared 3 true] := by
  obtain ⟨hselected, -, -, hother⟩ := (validator answer).nearest_selects (declared 9 true)
  have hfound : (validator answer).nearest (declared 9 true) =
      [declared 2 true, declared 3 true] := by
    rw [hselected]
    rfl
  have hsame : { validator answer with lookup := fun _ => otherAnswer }.nearest (declared 9 true) =
      (validator answer).nearest (declared 9 true) := hother (fun _ => otherAnswer) rfl
  exact ⟨hfound, hsame.trans hfound⟩

end Turns

end OverrideCheck
