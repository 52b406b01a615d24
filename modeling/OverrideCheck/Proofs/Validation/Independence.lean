import Mathlib.Data.List.Perm.Basic
import OverrideCheck.Proofs.Validation.Outcome

/-!
# Independence of units

A unit's outcome depends on the unit and on the supertypes reachable from it, and on nothing else
of the program. The supertypes that matter are given by name: `Program.Reaches` follows the names
that declarations give as their superclass and interfaces, whether or not anything is declared
under them. Two programs that declare the same under every such name, or nothing
(`SameDeclaration`), give the unit the same outcome.

* `sameDeclaration_agreement` — the type indexes of two such programs agree, in the sense that
  their walks stay in lockstep;
* `nearest_alike` — so the nearest participating ancestors are the same declarations, although the
  units that hold them may stand elsewhere and bear other paths;
* `outcomeOf_eq` — so the outcomes are equal;
* `outcome_independence` — what follows for whole programs, their units rearranged, added, taken
  away or exchanged.
-/

namespace OverrideCheck

/-- A type of the program that is named `sub` names `sup` as a direct supertype. -/
def Program.Names (p : Program) (sub sup : String) : Prop :=
  ∃ t ∈ p.types, t.name = sub ∧ sup ∈ t.directSupertypes

/-- The types of a unit lead to a name by one or more steps from a type to a supertype that it
names, all but the last to types of the program. -/
def Program.Reaches (p : Program) (u : SourceUnit) (name : String) : Prop :=
  ∃ t ∈ u.types, ∃ s ∈ t.node.directSupertypes, Relation.ReflTransGen p.Names s name

/-- A name is declared in both programs with the same declaration, or in neither. -/
def SameDeclaration (p q : Program) (name : String) : Prop :=
  ∀ t : TypeDecl, t.name = name → (t ∈ p.types ↔ t ∈ q.types)

variable {p q : Program} {i j : TypeIndex} {u u' : SourceUnit}

/-- Supertypes of reachable types are reachable. -/
theorem Program.reaches_inherited (h : TypeIndex.ofProgram? p = .ok i) (u : SourceUnit) :
    i.Inherited (p.Reaches u) := by
  rintro name e ⟨t, ht, s, hs, hpath⟩ hfind sup hsup
  refine ⟨t, ht, s, hs, hpath.tail ⟨e.decl, TypeIndex.decl_mem_types h hfind, ?_, hsup⟩⟩
  exact TypeIndex.name_of_find? hfind

/-- Under a name that both programs declare alike, their indexes know the same declaration or
none. -/
theorem SameDeclaration.find?_rel {name : String} (hname : SameDeclaration p q name)
    (hi : TypeIndex.ofProgram? p = .ok i) (hj : TypeIndex.ofProgram? q = .ok j) :
    Option.Rel (fun e f => e.decl = f.decl) (i.find? name) (j.find? name) := by
  -- whatever the first index knows under the name, the second one knows with that declaration
  have hknown {e : TypeEntry} (he : i.find? name = some e) :
      ∃ f, j.find? name = some f ∧ f.decl = e.decl := by
    have hq := (hname e.decl (TypeIndex.name_of_find? he)).1 (TypeIndex.decl_mem_types hi he)
    obtain ⟨f, hf, hdecl⟩ := (TypeIndex.mem_types_iff hj).1 hq
    exact ⟨f, TypeIndex.name_of_find? he ▸ hf, hdecl⟩
  cases hfi : i.find? name with
  | some e =>
    obtain ⟨f, hf, hdecl⟩ := hknown hfi
    rw [hf]
    exact .some hdecl.symm
  | none =>
    cases hfj : j.find? name with
    | none => exact .none
    | some f =>
      -- a type that `q` declares under the name is one that `p` declares there
      have hp := (hname f.decl (TypeIndex.name_of_find? hfj)).2 (TypeIndex.decl_mem_types hj hfj)
      obtain ⟨e, he, -⟩ := (TypeIndex.mem_types_iff hi).1 hp
      rw [show f.decl.name = name from TypeIndex.name_of_find? hfj, hfi] at he
      cases he

/-- Programs that declare alike what is reachable from a unit have indexes that agree on it. -/
theorem sameDeclaration_agreement (hi : TypeIndex.ofProgram? p = .ok i)
    (hj : TypeIndex.ofProgram? q = .ok j)
    (hsame : ∀ name, p.Reaches u name → SameDeclaration p q name) :
    Agreement (fun e f => e.decl = f.decl) (p.Reaches u) i j where
  find? name hname := (hsame name hname).find?_rel hi hj
  inherited := p.reaches_inherited hi u
  superclass _ _ hef := congrArg TypeDecl.superclass hef
  interfaces _ _ hef := congrArg TypeDecl.interfaces hef

/-- Entries of one declaration find the same method under every signature. -/
theorem declaration?_rel (key : ErasedSignature) {e f : TypeEntry} (hef : e.decl = f.decl) :
    Option.Rel (fun a b : MethodRef => a.owner = b.owner ∧ a.method = b.method)
      (e.declaration? key) (f.declaration? key) := by
  rw [TypeEntry.declaration?, TypeEntry.declaration?, ← hef]
  cases e.decl.findMethod? key with
  | none => exact .none
  | some d => exact .some ⟨rfl, rfl⟩

namespace Validator

variable {v w : Validator} {settings : Settings}

/-- A method of a unit has the same nearest participating ancestors in programs that declare alike
what is reachable from the unit. -/
theorem nearest_alike (hv : ofProgram? p settings = .ok v) (hw : ofProgram? q settings = .ok w)
    (hsame : ∀ name, p.Reaches u name → SameDeclaration p q name) {m n : MethodRef}
    (hm : ∃ t ∈ u.types, t.node = m.owner) (howner : m.owner = n.owner)
    (hmethod : m.method = n.method) :
    List.Forall₂ (fun a b => a.method.node = b.method.node) (v.nearest m) (w.nearest n) := by
  obtain ⟨i, hi, rfl⟩ := ofProgram?_eq_ok_iff.1 hv
  obtain ⟨j, hj, rfl⟩ := ofProgram?_eq_ok_iff.1 hw
  obtain ⟨t, ht, htm⟩ := hm
  -- the walk starts at supertypes that the unit itself names, and these are reached in no steps
  have hsupers : ∀ s ∈ m.owner.directSupertypes, p.Reaches u s := fun s hs =>
    ⟨t, ht, s, htm ▸ hs, .refl⟩
  have hfound := (sameDeclaration_agreement hi hj hsame).overridden
    (fun key e f hef => declaration?_rel key hef) (congrArg TypeDecl.name howner)
    (congrArg TypeDecl.directSupertypes howner)
    (congrArg (fun d => d.node.erasedSignature) hmethod) hsupers
  -- the declarations found are the same, in units that need not be
  have hnearest := nearestParticipating_alike (r := settings.names.reader)
    (fun a b hab => congrArg (fun d => settings.names.reader.participates d.node) hab.2) hfound
  exact hnearest.imp fun a b hab => congrArg Located.node hab.2

/-- Units of one path and the same types have equal outcomes, wherever they stand, in programs that
declare alike what is reachable from them. -/
theorem outcomeOf_eq (hv : ofProgram? p settings = .ok v) (hw : ofProgram? q settings = .ok w)
    (hpath : u.path = u'.path) (htypes : u.types = u'.types)
    (hsame : ∀ name, p.Reaches u name → SameDeclaration p q name) (k l : Nat) :
    v.outcomeOf u k = w.outcomeOf u' l := by
  obtain ⟨hreader, hpolicy⟩ := reader_of_ofProgram? hv
  obtain ⟨hreader', hpolicy'⟩ := reader_of_ofProgram? hw
  have hreaders := hreader.trans hreader'.symm
  -- the methods of the two units differ in the index they are known by and in nothing else
  have hmethods : u'.methods l = (u.methods k).map fun m => { m with unitIndex := l } := by
    rw [← u.methods_eq_map k l, SourceUnit.methods, SourceUnit.methods, htypes]
  refine outcomeOf_congr hpath ?_
  rw [hmethods, List.forall₂_map_right_iff, List.forall₂_same]
  intro m hm
  obtain ⟨-, t, ht, howner, -⟩ := SourceUnit.mem_methods_iff.1 hm
  have hmn : SameRules v w m { m with unitIndex := l } := .of_node_eq hreaders rfl
  have hnearest := nearest_alike hv hw hsame (n := { m with unitIndex := l })
    ⟨t, ht, howner⟩ rfl rfl
  refine ⟨rfl, hmn.participates, methodProblems_congr (hpolicy.trans hpolicy'.symm) hmn ?_⟩
  exact hnearest.imp fun a b hab => SameRules.of_node_eq hreaders hab

/-- In a program that declares alike what is reachable from a unit, the same unit standing anywhere
has the same outcome. -/
theorem unitOutcome?_eq (hv : ofProgram? p settings = .ok v) (hw : ofProgram? q settings = .ok w)
    {k l : Nat} (hk : p.units[k]? = some u) (hl : q.units[l]? = some u')
    (hpath : u.path = u'.path) (htypes : u.types = u'.types)
    (hsame : ∀ name, p.Reaches u name → SameDeclaration p q name) :
    v.unitOutcome? k = w.unitOutcome? l := by
  rw [unitOutcome?, unitOutcome?, program_of_ofProgram? hv, program_of_ofProgram? hw, hk, hl,
    Option.map_some, Option.map_some, outcomeOf_eq hv hw hpath htypes hsame]

/-- The outcomes of a report are those the units have wherever they stand. -/
theorem outcomes_report_eq_map (hv : ofProgram? p settings = .ok v) :
    v.report.outcomes = p.units.map fun u => v.outcomeOf u 0 := by
  refine List.ext_getElem? fun k => ?_
  rw [getElem?_outcomes_report, unitOutcome?, program_of_ofProgram? hv, List.getElem?_map]
  refine congrArg (fun f => p.units[k]?.map f) (funext fun u => ?_)
  -- moved within one program a unit keeps its outcome, so index zero may stand for any other
  exact outcomeOf_eq hv hv rfl rfl (fun _ _ _ _ => Iff.rfl) k 0

end Validator

/-! ### Programs rearranged and changed elsewhere -/

/-- Programs of the same units, in any order, declare the same types. -/
theorem types_perm_of_units_perm (h : q.units.Perm p.units) : q.types.Perm p.types :=
  h.flatMap_right _

/-- A rearranged program is accepted if the program is. -/
theorem Validator.exists_ofProgram?_of_perm {v : Validator} {settings : Settings}
    (hv : Validator.ofProgram? p settings = .ok v) (h : q.units.Perm p.units) :
    ∃ w, Validator.ofProgram? q settings = .ok w := by
  have hdistinct : p.DistinctTypes := Validator.exists_ofProgram?_iff.1 ⟨v, hv⟩
  exact Validator.exists_ofProgram?_iff.2
    (((types_perm_of_units_perm h).map _).nodup_iff.2 hdistinct)

/-- A name that no unit taken away and no unit added declares is declared as it was. -/
theorem SameDeclaration.of_units {kept removed added : List SourceUnit} {name : String}
    (hp : p.units.Perm (kept ++ removed)) (hq : q.units.Perm (kept ++ added))
    (hname : ∀ x ∈ removed ++ added, ∀ t ∈ x.types, t.node.name ≠ name) :
    SameDeclaration p q name := by
  -- under the name, either program declares what the kept units declare
  have hkept {r : Program} {others : List SourceUnit} (hr : r.units.Perm (kept ++ others))
      (hothers : others ⊆ removed ++ added) (t : TypeDecl) (ht : t.name = name) :
      t ∈ r.types ↔ ∃ x ∈ kept, ∃ d ∈ x.types, d.node = t := by
    simp only [Program.types, List.mem_flatMap, List.mem_map, hr.mem_iff, List.mem_append]
    constructor
    · rintro ⟨x, hx | hx, d, hd, rfl⟩
      · exact ⟨x, hx, d, hd, rfl⟩
      · exact absurd ht (hname x (hothers hx) d hd)
    · rintro ⟨x, hx, d, hd, rfl⟩
      exact ⟨x, Or.inl hx, d, hd, rfl⟩
  intro t ht
  rw [hkept hp (List.subset_append_left _ _) t ht, hkept hq (List.subset_append_right _ _) t ht]

/-- **A unit's outcome depends only on the unit and on the supertypes reachable from it.** For every
accepted program and all settings:

* the report has one outcome for each unit, in order;
* a unit has the outcome that a unit of its path and types has in any other accepted program,
  wherever the two stand, if the programs declare the same under every name reachable from it;
* rearranging the units rearranges the outcomes with them;
* taking away units, adding some or exchanging them leaves the outcome of every other unit as it
  was, if none of them declares a type that is reachable from it. -/
theorem outcome_independence {p : Program} {settings : Settings} {v : Validator}
    (hv : Validator.ofProgram? p settings = .ok v) :
    (v.report.outcomes.length = p.units.length ∧
      ∀ i, v.report.outcomes[i]? = v.unitOutcome? i) ∧
    (∀ q w, Validator.ofProgram? q settings = .ok w →
      ∀ i j u u', p.units[i]? = some u → q.units[j]? = some u' →
        u.path = u'.path → u.types = u'.types →
        (∀ name, p.Reaches u name → SameDeclaration p q name) →
        v.unitOutcome? i = w.unitOutcome? j) ∧
    (∀ q : Program, q.units.Perm p.units →
      ∃ w f, Validator.ofProgram? q settings = .ok w ∧
        v.report.outcomes = p.units.map f ∧ w.report.outcomes = q.units.map f) ∧
    ∀ q w, Validator.ofProgram? q settings = .ok w →
      ∀ kept removed added, p.units.Perm (kept ++ removed) → q.units.Perm (kept ++ added) →
        ∀ i j u, p.units[i]? = some u → q.units[j]? = some u →
          (∀ x ∈ removed ++ added, ∀ t ∈ x.types, ¬ p.Reaches u t.node.name) →
          v.unitOutcome? i = w.unitOutcome? j := by
  refine ⟨⟨?_, v.getElem?_outcomes_report⟩, ?_, ?_, ?_⟩
  · rw [Validator.outcomes_report_eq_map hv, List.length_map]
  · intro q w hw i j u u' hi hj hpath htypes hsame
    exact Validator.unitOutcome?_eq hv hw hi hj hpath htypes hsame
  · intro q hperm
    obtain ⟨w, hw⟩ := Validator.exists_ofProgram?_of_perm hv hperm
    refine ⟨w, fun u => v.outcomeOf u 0, hw, Validator.outcomes_report_eq_map hv, ?_⟩
    rw [Validator.outcomes_report_eq_map hw]
    refine List.map_congr_left fun u _ => ?_
    -- the types are the same up to order, so every name is declared as it was
    refine Validator.outcomeOf_eq hw hv rfl rfl (fun name _ t _ => ?_) 0 0
    exact (types_perm_of_units_perm hperm).mem_iff
  · intro q w hw kept removed added hp hq i j u hi hj hnone
    refine Validator.unitOutcome?_eq hv hw hi hj rfl rfl fun name hname => ?_
    -- a name reachable from the unit is not one that an exchanged unit declares
    refine SameDeclaration.of_units hp hq fun x hx t ht heq => ?_
    exact hnone x hx t ht (heq ▸ hname)

/-! ### A supertype that moves -/

namespace Moved

/-- A method that takes part in the protocol. -/
def foo : MethodDecl :=
  { name := "foo", annotations := [{ name := "com.google.gwt.core.shared.Rebind" }] }

/-- An interface that declares it. -/
def api : TypeDecl :=
  { name := "test.Api", kind := .interfaceKind, methods := [⟨foo, .atLine 4⟩] }

/-- A class that implements the interface. -/
def impl : TypeDecl :=
  { name := "test.Impl", kind := .classKind, interfaces := ["test.Api"],
    methods := [⟨foo, .atLine 6⟩] }

/-- The unit of the class. -/
def unit : SourceUnit := { types := [⟨impl, .atLine 3⟩] }

/-- The interface comes first, in a unit of its own. -/
def before : Program := ⟨[{ types := [⟨api, .atLine 3⟩] }, unit]⟩

/-- A class that extends the one above. -/
def sub : TypeDecl := { name := "test.Sub", kind := .classKind, superclass := some "test.Impl" }

/-- A unit with a subtype comes first, and the interface last, in a unit of another path. -/
def after : Program :=
  ⟨[{ types := [⟨sub, .atLine 3⟩] }, unit,
    { path? := some "elsewhere/Api.java", types := [⟨api, .atLine 8⟩] }]⟩

/-- The interface is all that is reachable from the unit. -/
theorem eq_of_reaches {name : String} (h : before.Reaches unit name) : name = api.name := by
  obtain ⟨t, ht, s, hs, hpath⟩ := h
  obtain rfl : t = ⟨impl, .atLine 3⟩ := List.mem_singleton.1 ht
  obtain rfl : s = api.name := List.mem_singleton.1 hs
  -- from the interface no path leads on, for it names no supertype
  rcases Relation.ReflTransGen.cases_head hpath with heq | ⟨_, ⟨t, ht, hname, hsup⟩, -⟩
  · exact heq.symm
  · have hmem : t = api ∨ t = impl := by simpa [Program.types, before, unit] using ht
    rcases hmem with rfl | rfl
    · cases hsup
    · exact absurd hname (by decide)

/-- Both programs declare the interface alike. -/
theorem sameDeclaration : SameDeclaration before after api.name := by
  intro t ht
  have hsub : t ≠ sub := fun heq => absurd (heq ▸ ht) (by decide)
  simp [Program.types, before, after, unit, hsub, or_comm]

/-- A class keeps its outcome when the interface it implements moves to another unit behind it, and
a subtype of it comes before. -/
theorem outcome_unmoved : ∃ v w, Validator.ofProgram? before {} = .ok v ∧
    Validator.ofProgram? after {} = .ok w ∧
    (∀ name, before.Reaches unit name → SameDeclaration before after name) ∧
    v.unitOutcome? 1 = w.unitOutcome? 1 := by
  obtain ⟨i, hi⟩ := TypeIndex.exists_ofProgram?_iff.2 (show before.DistinctTypes by decide)
  obtain ⟨j, hj⟩ := TypeIndex.exists_ofProgram?_iff.2 (show after.DistinctTypes by decide)
  have hv : Validator.ofProgram? before {} = .ok _ :=
    Validator.ofProgram?_eq_ok_iff.2 ⟨i, hi, rfl⟩
  have hw : Validator.ofProgram? after {} = .ok _ :=
    Validator.ofProgram?_eq_ok_iff.2 ⟨j, hj, rfl⟩
  have hsame : ∀ name, before.Reaches unit name → SameDeclaration before after name :=
    fun name hname => eq_of_reaches hname ▸ sameDeclaration
  obtain ⟨-, hequal, -, -⟩ := outcome_independence hv
  exact ⟨_, _, hv, hw, hsame, hequal after _ hw 1 1 unit unit rfl rfl rfl rfl hsame⟩

end Moved

end OverrideCheck
