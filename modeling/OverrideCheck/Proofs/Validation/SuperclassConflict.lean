import Mathlib.Data.List.Chain
import OverrideCheck.Proofs.Hierarchy.Completeness
import OverrideCheck.Proofs.Hierarchy.SuperclassChain
import OverrideCheck.Proofs.Validation.Outcome

/-!
# Conflicts along a chain of superclasses

Of the declarations above a method on the chain of its superclasses, the check compares it with the
nearest one that takes part, and never with those behind it. A conflict with one further up is
reported all the same, although it may be at another type of the chain: whatever separates the two
ends separates two neighbours in between.

* `Validator.Fails` — the unit that declares a type fails;
* `Validator.exists_nearest_on_chain` — a method with a participating declaration above it on the
  chain is compared with one on the chain;
* `superclass_conflict_caught` — a conflict between the two ends of a chain fails one of the units
  below the upper end.

The induction goes up the chain. A method that conforms to the nearest declaration hands the
conflict on to it, because compatible contracts are compatible with the same ones; a nearest
declaration whose annotations contradict each other fails its own unit, and so does a method that
the policy refuses before any comparison is made. Interfaces never come in between, since the chain
is walked before any of them (`TypeIndex.overridden_prefix`).
-/

namespace OverrideCheck

namespace Validator

/-- The unit that declares the type has failed. -/
def Fails (v : Validator) (t : TypeDecl) : Prop :=
  ∃ i u failure, v.program.units[i]? = some u ∧ (∃ d ∈ u.types, d.node = t) ∧
    v.unitOutcome? i = some (.failed failure)

variable {v : Validator} {p : Program} {settings : Settings} {m a : MethodRef}

/-- A unit that declares a method with a problem fails. -/
theorem fails_of_methodProblems_ne_nil (hm : m ∈ v.program.methods)
    (hproblems : v.methodProblems m ≠ []) : v.Fails m.owner := by
  obtain ⟨u, hu, hmu⟩ := Program.mem_methods_iff.1 hm
  obtain ⟨-, t, ht, howner, -⟩ := SourceUnit.mem_methods_iff.1 hmu
  -- a clean unit has no method with a problem
  have hnot : (v.outcomeOf u m.unitIndex).isClean ≠ true := fun hclean =>
    hproblems (isClean_outcomeOf_iff.1 hclean m hmu)
  have houtcome : v.unitOutcome? m.unitIndex = some (v.outcomeOf u m.unitIndex) := by
    rw [unitOutcome?, hu, Option.map_some]
  cases hcase : v.outcomeOf u m.unitIndex with
  | clean report => exact absurd (by rw [hcase]; rfl) hnot
  | failed failure => exact ⟨m.unitIndex, u, failure, hu, ⟨t, ht, howner⟩, hcase ▸ houtcome⟩

/-- A participating method is compared with a declaration on the chain of its superclasses, if one
of them declares its signature and takes part. -/
theorem exists_nearest_on_chain (hv : ofProgram? p settings = .ok v) {s : TypeDecl}
    {chain : List TypeDecl} (hchain : (m.owner :: s :: chain).IsChain p.Extends)
    (hdistinct : (m.owner :: s :: chain).Nodup) (hmem : a.owner ∈ s :: chain)
    (hfound : a.owner.findMethod? m.method.node.erasedSignature = some a.method)
    (hpart : v.participates a = true) :
    ∃ n ∈ v.nearest m, n ∈ p.methods ∧ v.participates n = true ∧ n.owner ∈ s :: chain ∧
      n.owner.findMethod? m.method.node.erasedSignature = some n.method := by
  obtain ⟨index, h, rfl⟩ := ofProgram?_eq_ok_iff.1 hv
  obtain ⟨es, rest, hes, hlookup⟩ := TypeIndex.overridden_prefix h hchain hdistinct
  rw [← hes, List.mem_map] at hmem
  obtain ⟨e, he, howner⟩ := hmem
  -- the declaration in the superclass is one of those the ancestors start with
  have hfirst : (⟨0, ⟨e.unitIndex, e.decl, a.method⟩⟩ : Ancestor) ∈ es.filterMap fun e =>
      (e.declaration? m.method.node.erasedSignature).map fun decl => ⟨0, decl⟩ := by
    refine List.mem_filterMap.2 ⟨e, he, ?_⟩
    rw [TypeIndex.declaration?_eq_some_iff.2 ⟨a.method, howner ▸ hfound, rfl⟩]
    rfl
  -- and all of those stand on the branch of the superclass
  have hbranch : ∀ x ∈ es.filterMap fun e =>
      (e.declaration? m.method.node.erasedSignature).map fun decl => (⟨0, decl⟩ : Ancestor),
      x.branch = 0 := by
    intro x hx
    obtain ⟨e, -, hdecl⟩ := List.mem_filterMap.1 hx
    obtain ⟨d, -, rfl⟩ := Option.map_eq_some_iff.1 hdecl
    rfl
  obtain ⟨x, hx, hxpart, hnearest⟩ := exists_nearest_of_prefix rest hbranch hfirst hpart
  rw [← hlookup] at hnearest
  have hmethods : x.decl ∈ p.methods :=
    TypeIndex.overridden_mem_methods h (hlookup ▸ List.mem_append_left _ hx)
  -- and the nearest one is declared in a superclass of the chain as well
  obtain ⟨f, hf, hdecl⟩ := List.mem_filterMap.1 hx
  obtain ⟨d, hd, rfl⟩ := Option.map_eq_some_iff.1 hdecl
  obtain ⟨method, hmethod, rfl⟩ := TypeIndex.declaration?_eq_some_iff.1 hd
  exact ⟨_, hnearest, hmethods, hxpart, hes ▸ List.mem_map_of_mem hf, hmethod⟩

/-- A participating method has a problem if it has a contract that is in conflict with that of one
of its nearest participating ancestors, whatever the policy. -/
theorem methodProblems_ne_nil_of_conflict {n : MethodRef} {c d : RebindContract}
    (hpart : v.participates m = true) (hn : n ∈ v.nearest m) (hc : v.contractOf m = .ok c)
    (hd : v.contractOf n = .ok d) (hconflict : ¬ c.Compatible d) : v.methodProblems m ≠ [] := by
  intro hnil
  obtain ⟨c', hc', -, hnone⟩ := (methodProblems_eq_nil_iff hpart).1 hnil
  obtain rfl : c = c' := Except.ok.inj (hc.symm.trans hc')
  have hfree := hnone n hn
  rw [conflicts, hd] at hfree
  simp [hconflict] at hfree

/-- **One step up the chain.** A method in conflict with a declaration further up fails its own
unit, or else the conflict is one of a declaration in between, which fails its unit or has a
contract that conflicts as well. -/
theorem conflict_step (hv : ofProgram? p settings = .ok v) {between : List TypeDecl}
    (hchain : (m.owner :: (between ++ [a.owner])).IsChain p.Extends)
    (hdistinct : (m.owner :: (between ++ [a.owner])).Nodup)
    (hm : m ∈ p.methods) (hpart : v.participates m = true)
    (hfound : a.owner.findMethod? m.method.node.erasedSignature = some a.method)
    (hapart : v.participates a = true) {c d : RebindContract}
    (hc : v.contractOf m = .ok c) (hd : v.contractOf a = .ok d) (hconflict : ¬ c.Compatible d) :
    v.Fails m.owner ∨ ∃ n lower upper, between = lower ++ n.owner :: upper ∧
      n ∈ p.methods ∧ v.participates n = true ∧
      n.method.node.erasedSignature = m.method.node.erasedSignature ∧
      (v.Fails n.owner ∨ ∃ e, v.contractOf n = .ok e ∧ ¬ e.Compatible d) := by
  have hprogram : v.program = p := program_of_ofProgram? hv
  obtain ⟨s, chain, hsplit⟩ : ∃ s chain, between ++ [a.owner] = s :: chain :=
    List.exists_cons_of_ne_nil (by simp)
  have hmem : a.owner ∈ s :: chain := hsplit ▸ List.mem_append_right _ (List.mem_singleton_self _)
  rw [hsplit] at hchain hdistinct
  obtain ⟨n, hnearest, hn, hnpart, howner, hmethod⟩ :=
    exists_nearest_on_chain hv hchain hdistinct hmem hfound hapart
  by_cases hown : v.methodProblems m = []
  · -- without a problem of its own the method conforms to the nearest declaration
    right
    rw [← hsplit, List.mem_append, List.mem_singleton] at howner
    -- otherwise the comparison with it would be a problem of its own
    have hfree (e : RebindContract) (he : v.contractOf n = .ok e) : c.Compatible e := by
      by_contra hnot
      exact methodProblems_ne_nil_of_conflict hpart hnearest hc he hnot hown
    rcases howner with hbetween | htop
    · obtain ⟨lower, upper, hsplit⟩ := List.append_of_mem hbetween
      refine ⟨n, lower, upper, hsplit, hn, hnpart, (TypeDecl.findMethod?_sound hmethod).2, ?_⟩
      cases he : v.contractOf n with
      | error found =>
        -- its annotations contradict each other, which is reported where it stands
        left
        refine fails_of_methodProblems_ne_nil (hprogram ▸ hn) fun hnil => ?_
        obtain ⟨e, he', -⟩ := (methodProblems_eq_nil_iff hnpart).1 hnil
        cases he.symm.trans he'
      | ok e => exact Or.inr ⟨e, rfl, fun hed => hconflict ((hfree e he).trans hed)⟩
    · -- the nearest declaration is the one at the top, which the method conforms to
      rw [htop, hfound] at hmethod
      have hsame : n.method = a.method := (Option.some.inj hmethod).symm
      have hrules : SameRules v v n a := .of_node_eq rfl (congrArg Located.node hsame)
      rcases hrules.contractOf with ⟨found, -, ha⟩ | ⟨e, d', hen, had, hrules⟩
      · cases hd.symm.trans ha
      · obtain rfl : d = d' := Except.ok.inj (hd.symm.trans had)
        exact absurd ((RebindContract.compatible_congr rfl hrules).1 (hfree e hen)) hconflict
  · exact Or.inl (fails_of_methodProblems_ne_nil (hprogram ▸ hm) hown)

end Validator

/-- **Conflicts on a chain of superclasses are caught on the chain.** In an accepted program let
each type of a list be the superclass of the one before, no type occurring twice. If a participating
method of the lowest type and the declaration of its signature in the highest one, which takes part
too, both have contracts, and these are not compatible, then the unit of one of the types below the
highest fails. Interfaces anywhere on the chain, overrides in between that take no part or whose
annotations contradict each other, and the policy on unspecified types make no difference. -/
theorem superclass_conflict_caught {p : Program} {settings : Settings} {v : Validator}
    (hv : Validator.ofProgram? p settings = .ok v)
    {bottom top : TypeDecl} {between : List TypeDecl}
    (hchain : (bottom :: (between ++ [top])).IsChain p.Extends)
    (hdistinct : (bottom :: (between ++ [top])).Nodup)
    {m a : MethodRef} (hm : m ∈ p.methods) (hbottom : m.owner = bottom)
    (hpart : v.participates m = true) (htop : a.owner = top)
    (hfound : top.findMethod? m.method.node.erasedSignature = some a.method)
    (hapart : v.participates a = true) {c d : RebindContract}
    (hc : v.contractOf m = .ok c) (hd : v.contractOf a = .ok d) (hconflict : ¬ c.Compatible d) :
    ∃ s ∈ bottom :: between, v.Fails s := by
  subst hbottom htop
  -- the nearest declaration may be any of those in between, so the induction is on their number
  induction hlength : between.length using Nat.strongRecOn generalizing between m c with
  | ind length ih =>
    rcases Validator.conflict_step hv hchain hdistinct hm hpart hfound hapart hc hd hconflict with
      hfails | ⟨n, lower, upper, rfl, hn, hnpart, hsignature, hfails | ⟨e, he, hconflict⟩⟩
    · exact ⟨m.owner, List.mem_cons_self, hfails⟩
    · exact ⟨n.owner, by simp, hfails⟩
    · -- the conflict is handed on to a shorter chain, which ends at the same declaration
      rw [List.append_assoc, List.cons_append] at hchain hdistinct
      have hupper : (n.owner :: (upper ++ [a.owner])).IsChain p.Extends :=
        hchain.tail.right_of_append
      have hdistinctUpper : (n.owner :: (upper ++ [a.owner])).Nodup :=
        (List.nodup_append'.1 (List.nodup_cons.1 hdistinct).2).2.1
      have hshorter : upper.length < length := by
        rw [← hlength, List.length_append, List.length_cons]
        omega
      have hnfound : a.owner.findMethod? n.method.node.erasedSignature = some a.method := by
        rw [hsignature, hfound]
      obtain ⟨s, hs, hsfails⟩ :=
        ih _ hshorter hn hnpart he hconflict hnfound hupper hdistinctUpper rfl
      exact ⟨s, List.mem_cons_of_mem _ (List.mem_append_right _ hs), hsfails⟩

/-! ### A departure in the middle -/

namespace Departure

/-- A method that names the class it rebinds to. -/
def foo (className : String) (line : UInt32) : Located MethodDecl :=
  ⟨{ name := "foo"
     annotations := [⟨"com.google.gwt.core.shared.Rebind",
       .ofList [("type", .classLiteral className)]⟩] }, .atLine line⟩

/-- An interface in accord with the upper end of the chain. -/
def api : TypeDecl :=
  { name := "test.Api", kind := .interfaceKind, methods := [foo "java.lang.String" 4] }

/-- The upper end of the chain. -/
def base : TypeDecl :=
  { name := "test.Base", kind := .classKind, methods := [foo "java.lang.String" 4] }

/-- The class in the middle, which departs from its superclass. -/
def middle : TypeDecl :=
  { name := "test.Middle", kind := .classKind, superclass := some "test.Base",
    methods := [foo "java.lang.Integer" 4] }

/-- The lower end of the chain, which conforms to its superclass but not to the one above. -/
def impl : TypeDecl :=
  { name := "test.Impl", kind := .classKind, superclass := some "test.Middle",
    interfaces := ["test.Api"], methods := [foo "java.lang.Integer" 6] }

/-- The four types, each in a unit of its own. -/
def program : Program :=
  ⟨[api, base, middle, impl].map fun t => { types := [⟨t, .atLine 3⟩] }⟩

/-- The method at the lower end. -/
def inImpl : MethodRef := ⟨3, impl, foo "java.lang.Integer" 6⟩

/-- The method at the upper end. -/
def inBase : MethodRef := ⟨1, base, foo "java.lang.String" 4⟩

/-- The contract of a method that names a class. -/
def contract (owner className file : String) (line : UInt32) : RebindContract :=
  ⟨owner, ⟨"foo", [], .void⟩, .explicit className, [], ⟨file, line⟩⟩

/-- The class at the lower end is in conflict with the one at the upper end, whose method it is not
compared with, so one of the two lower units fails. -/
theorem conflict_across_middle : ∃ v, Validator.ofProgram? program {} = .ok v ∧
    [impl, middle, base].IsChain program.Extends ∧ [impl, middle, base].Nodup ∧
    inImpl ∈ program.methods ∧ v.participates inImpl = true ∧ v.participates inBase = true ∧
    base.findMethod? inImpl.method.node.erasedSignature = some inBase.method ∧
    (∃ c d, v.contractOf inImpl = .ok c ∧ v.contractOf inBase = .ok d ∧ ¬ c.Compatible d) ∧
    ∃ s ∈ [impl, middle], v.Fails s := by
  obtain ⟨index, h⟩ := TypeIndex.exists_ofProgram?_iff.2 (show program.DistinctTypes by decide)
  have hv : Validator.ofProgram? program {} = .ok _ :=
    Validator.ofProgram?_eq_ok_iff.2 ⟨index, h, rfl⟩
  have htypes : program.types = [api, base, middle, impl] := rfl
  have hchain : [impl, middle, base].IsChain program.Extends :=
    .cons_cons ⟨by simp [htypes], by simp [htypes], rfl⟩
      (.cons_cons ⟨by simp [htypes], by simp [htypes], rfl⟩ (.singleton _))
  have hdistinct : [impl, middle, base].Nodup := List.Nodup.of_map TypeDecl.name (by decide)
  have hmem : inImpl ∈ program.methods := by
    simp [Program.methods, SourceUnit.methods, program, inImpl, api, base, middle, impl]
  have hconflict : ¬ (contract "test.Impl" "java.lang.Integer" "test/Impl.java" 6).Compatible
      (contract "test.Base" "java.lang.String" "test/Base.java" 4) := by decide
  refine ⟨_, hv, hchain, hdistinct, hmem, rfl, rfl, rfl, ⟨_, _, rfl, rfl, hconflict⟩, ?_⟩
  exact @superclass_conflict_caught _ _ _ hv impl base [middle] hchain hdistinct inImpl inBase hmem
    rfl rfl rfl rfl rfl _ _ rfl rfl hconflict

end Departure

end OverrideCheck
