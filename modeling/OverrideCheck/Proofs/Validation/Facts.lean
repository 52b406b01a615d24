import OverrideCheck.Check
import OverrideCheck.Proofs.Validation.Outcome

/-!
# What the check reads

Most of what a front-end hands over has no bearing on the check. `AnnotationNames.facts` keeps of
a program what has: the paths of its units, the names and supertypes of its types, and of each
method its position, its erased signature, the class its first rebind annotation names, and the
marker of each parameter. Programs of equal facts get equal answers (`checkProgram_eq_of_facts_eq`),
be it a report or a refusal.

So there is no way for a verdict to depend on the name of a parameter, on a return type, on the
argument lists and blanks in a parameter's type, on whether a type is a class or an interface, on
the position of a type, on the text of a unit, or on annotations and annotation members other than
the ones that are looked for.

* `AnnotationNames.methodFacts`, `typeFacts`, `unitFacts`, `facts` — what is kept;
* `participates_of_methodFacts_eq`, `rulesOf_of_methodFacts_eq`, `declaration?_rel_of_facts` — what
  is read off a method, and which method is found under a signature, are matters of these facts;
* `sameFacts_agreement` — the indexes of two programs of equal facts agree, so that their walks
  stay in lockstep;
* `Validator.nearest_of_facts_eq`, `Validator.outcomeOf_of_facts_eq` — a method meets ancestors of
  equal facts, and a unit has an equal outcome.
-/

namespace OverrideCheck

/-- What the check reads of a method declaration. -/
structure MethodFacts where
  position : Position
  /-- The name and the erased parameter types. -/
  signature : ErasedSignature
  /-- `none` without a rebind annotation; else the class that the first one names, if any. -/
  rebind : Option (Option String)
  /-- The marker of each parameter. -/
  markers : List (Option ParamMarker)
deriving DecidableEq

/-- What the check reads of a type declaration. -/
structure TypeFacts where
  name : String
  superclass : Option String
  interfaces : List String
  methods : List MethodFacts
deriving DecidableEq

/-- What the check reads of a unit. -/
structure UnitFacts where
  path : String
  types : List TypeFacts
deriving DecidableEq

namespace AnnotationNames

/-- The facts of a method, its annotations being recognised by the given names. -/
def methodFacts (n : AnnotationNames) (m : Located MethodDecl) : MethodFacts where
  position := m.position
  signature := m.node.erasedSignature
  rebind := (findAnnotation? n.rebind m.node.annotations).map n.explicitType?
  markers := m.node.params.map n.markerOf?

/-- The facts of a type. -/
def typeFacts (n : AnnotationNames) (t : TypeDecl) : TypeFacts where
  name := t.name
  superclass := t.superclass
  interfaces := t.interfaces
  methods := t.methods.map n.methodFacts

/-- The facts of a unit. -/
def unitFacts (n : AnnotationNames) (u : SourceUnit) : UnitFacts where
  path := u.path
  types := u.types.map fun t => n.typeFacts t.node

/-- The facts of a program, unit by unit. -/
def facts (n : AnnotationNames) (p : Program) : List UnitFacts := p.units.map n.unitFacts

end AnnotationNames

/-- The part that a parameter of the given marker plays. -/
def roleOfMarker : Option ParamMarker → ParamRole
  | some .typeMarker => .typeCarrier
  | some .paramMarker => .rebindParam
  | none => .plain

section Reading

variable {n : AnnotationNames} {m m' : Located MethodDecl}

/-- The rebind annotation of a method is one of its facts. -/
theorem rebindOf_reader (n : AnnotationNames) (m : Located MethodDecl) :
    n.reader.rebindOf m.node = (n.methodFacts m).rebind.map RebindAnnotation.mk := by
  rw [AnnotationNames.methodFacts, Option.map_map]
  rfl

/-- The parts that a method's parameters play are those of the markers among its facts. -/
theorem map_roleOf_reader (n : AnnotationNames) (m : Located MethodDecl) :
    m.node.params.map n.reader.roleOf = (n.methodFacts m).markers.map roleOfMarker := by
  rw [AnnotationNames.methodFacts, List.map_map]
  rfl

/-- Methods of equal facts take part in the protocol alike. -/
theorem participates_of_methodFacts_eq (h : n.methodFacts m = n.methodFacts m') :
    n.reader.participates m.node = n.reader.participates m'.node := by
  -- of the markers it only matters whether there is one
  have hmarked (d : Located MethodDecl) :
      (d.node.params.any fun q => (n.reader.markerOf q).isSome) =
        (n.methodFacts d).markers.any Option.isSome := by
    rw [AnnotationNames.methodFacts, List.any_map]
    rfl
  rw [n.participates_reader, n.participates_reader, rebindOf_reader, rebindOf_reader, hmarked,
    hmarked, h]

/-- Methods of equal facts lay down the same rules, or contradict themselves alike. -/
theorem rulesOf_of_methodFacts_eq (h : n.methodFacts m = n.methodFacts m') :
    n.reader.rulesOf m.node = n.reader.rulesOf m'.node := by
  rw [AnnotationReader.rulesOf, AnnotationReader.rulesOf, AnnotationReader.explicitTypeOf,
    AnnotationReader.explicitTypeOf, rebindOf_reader, rebindOf_reader, map_roleOf_reader,
    map_roleOf_reader, h]

end Reading

/-! ### Lookup by facts -/

/-- Options of equal images are related. -/
theorem optionRel_of_map_eq {α γ : Type} {f : α → γ} {x y : Option α} (h : x.map f = y.map f) :
    Option.Rel (fun a b => f a = f b) x y := by
  cases x with
  | none =>
    obtain rfl := Option.map_eq_none_iff.1 h.symm
    exact .none
  | some a =>
    obtain ⟨b, rfl, hb⟩ := Option.map_eq_some_iff.1 h.symm
    exact .some hb.symm

/-- The facts of the method under a signature are the facts under that signature. -/
theorem AnnotationNames.map_methodFacts_findMethod? (n : AnnotationNames) (t : TypeDecl)
    (key : ErasedSignature) :
    (t.findMethod? key).map n.methodFacts =
      (n.typeFacts t).methods.find? fun m => decide (m.signature = key) := by
  rw [AnnotationNames.typeFacts, List.find?_map]
  rfl

/-- Entries of equal facts find methods of equal facts under every signature. -/
theorem declaration?_rel_of_facts {n : AnnotationNames} (key : ErasedSignature) {e f : TypeEntry}
    (hef : n.typeFacts e.decl = n.typeFacts f.decl) :
    Option.Rel (fun a b : MethodRef => n.methodFacts a.method = n.methodFacts b.method)
      (e.declaration? key) (f.declaration? key) := by
  have hfound : (e.decl.findMethod? key).map n.methodFacts =
      (f.decl.findMethod? key).map n.methodFacts := by
    rw [n.map_methodFacts_findMethod?, n.map_methodFacts_findMethod?, hef]
  refine optionRel_of_map_eq (f := fun a : MethodRef => n.methodFacts a.method) ?_
  rw [TypeEntry.declaration?, TypeEntry.declaration?, Option.map_map, Option.map_map]
  exact hfound

/-! ### Programs of equal facts -/

section Programs

variable {n : AnnotationNames} {p q : Program} {i j : TypeIndex}

/-- The facts of the types of a program are those of its units. -/
theorem AnnotationNames.map_typeFacts_types (n : AnnotationNames) (p : Program) :
    p.types.map n.typeFacts = (n.facts p).flatMap (·.types) := by
  rw [Program.types, AnnotationNames.facts, List.map_flatMap, List.flatMap_map]
  refine List.flatMap_congr fun u _ => ?_
  rw [List.map_map]
  rfl

/-- Programs of equal facts have the same type names in the same order. -/
theorem map_name_types_of_facts_eq (h : n.facts p = n.facts q) :
    p.types.map (·.name) = q.types.map (·.name) := by
  have hname (r : Program) : r.types.map (·.name) = (r.types.map n.typeFacts).map (·.name) := by
    rw [List.map_map]
    rfl
  rw [hname, hname, n.map_typeFacts_types, n.map_typeFacts_types, h]

/-- The indexes of programs of equal facts agree on every name. -/
theorem sameFacts_agreement (hi : TypeIndex.ofProgram? p = .ok i)
    (hj : TypeIndex.ofProgram? q = .ok j) (h : n.facts p = n.facts q) :
    Agreement (fun e f => n.typeFacts e.decl = n.typeFacts f.decl) (fun _ => True) i j := by
  -- the entries of an index are the types of its program, which are among the facts
  have hentries (r : Program) : r.typeEntries.map (fun e => n.typeFacts e.decl) =
      (n.facts r).flatMap (·.types) := by
    rw [← n.map_typeFacts_types, r.map_typeEntries n.typeFacts]
  refine .of_forall₂ (fun _ _ hef => congrArg TypeFacts.name hef)
    (fun _ _ hef => congrArg TypeFacts.superclass hef)
    (fun _ _ hef => congrArg TypeFacts.interfaces hef) (forall₂_of_map_eq ?_)
  rw [TypeIndex.entries_of_ofProgram? hi, TypeIndex.entries_of_ofProgram? hj, hentries, hentries, h]

end Programs

namespace Validator

variable {p q : Program} {settings : Settings} {v w : Validator} {m n : MethodRef}

/-- Methods of equal facts follow the same rules. -/
theorem SameRules.of_methodFacts_eq (hv : ofProgram? p settings = .ok v)
    (hw : ofProgram? q settings = .ok w)
    (h : settings.names.methodFacts m.method = settings.names.methodFacts n.method) :
    SameRules v w m n where
  participates := by
    rw [participates_of_ofProgram? hv, participates_of_ofProgram? hw,
      participates_of_methodFacts_eq h]
  rules := by
    rw [(reader_of_ofProgram? hv).1, (reader_of_ofProgram? hw).1, rulesOf_of_methodFacts_eq h]

/-- Methods of equal facts, in types of equal facts, have nearest participating ancestors of equal
facts. -/
theorem nearest_of_facts_eq (hv : ofProgram? p settings = .ok v)
    (hw : ofProgram? q settings = .ok w) (h : settings.names.facts p = settings.names.facts q)
    (howner : settings.names.typeFacts m.owner = settings.names.typeFacts n.owner)
    (hmethod : settings.names.methodFacts m.method = settings.names.methodFacts n.method) :
    List.Forall₂
      (fun a b => settings.names.methodFacts a.method = settings.names.methodFacts b.method)
      (v.nearest m) (w.nearest n) := by
  obtain ⟨i, hi, rfl⟩ := ofProgram?_eq_ok_iff.1 hv
  obtain ⟨j, hj, rfl⟩ := ofProgram?_eq_ok_iff.1 hw
  have hsupers : m.owner.directSupertypes = n.owner.directSupertypes := by
    rw [TypeDecl.directSupertypes, TypeDecl.directSupertypes,
      show m.owner.superclass = n.owner.superclass from congrArg TypeFacts.superclass howner,
      show m.owner.interfaces = n.owner.interfaces from congrArg TypeFacts.interfaces howner]
  -- the two walks go in lockstep, so they find declarations of equal facts
  have hfound := (sameFacts_agreement hi hj h).overridden
    (fun key _ _ hef => declaration?_rel_of_facts key hef) (congrArg TypeFacts.name howner)
    hsupers (congrArg MethodFacts.signature hmethod) fun _ _ => trivial
  exact nearestParticipating_alike (fun _ _ hab => participates_of_methodFacts_eq hab) hfound

/-- Units of equal facts have equal outcomes in programs of equal facts, wherever they stand. -/
theorem outcomeOf_of_facts_eq (hv : ofProgram? p settings = .ok v)
    (hw : ofProgram? q settings = .ok w) (h : settings.names.facts p = settings.names.facts q)
    {u u' : SourceUnit} (hu : settings.names.unitFacts u = settings.names.unitFacts u')
    (k l : Nat) : v.outcomeOf u k = w.outcomeOf u' l := by
  have hpolicy := (reader_of_ofProgram? hv).2.trans (reader_of_ofProgram? hw).2.symm
  have htypes := forall₂_of_map_eq (congrArg UnitFacts.types hu)
  refine outcomeOf_congr (congrArg UnitFacts.path hu) ?_
  rw [SourceUnit.methods, SourceUnit.methods]
  -- type by type, and then method by method
  refine List.rel_flatMap htypes fun t t' ht => ?_
  rw [List.forall₂_map_left_iff, List.forall₂_map_right_iff]
  refine (forall₂_of_map_eq (congrArg TypeFacts.methods ht)).imp fun d d' hd => ?_
  have hrules : SameRules v w ⟨k, t.node, d⟩ ⟨l, t'.node, d'⟩ := .of_methodFacts_eq hv hw hd
  have hnearest := nearest_of_facts_eq hv hw h (m := ⟨k, t.node, d⟩) (n := ⟨l, t'.node, d'⟩) ht hd
  refine ⟨congrArg MethodFacts.position hd, hrules.participates, ?_⟩
  exact methodProblems_congr hpolicy hrules
    (hnearest.imp fun _ _ hab => SameRules.of_methodFacts_eq hv hw hab)

/-- Accepted programs of equal facts have equal reports. -/
theorem report_of_facts_eq (hv : ofProgram? p settings = .ok v)
    (hw : ofProgram? q settings = .ok w) (h : settings.names.facts p = settings.names.facts q) :
    v.report = w.report := by
  have houtcome (k : Nat) : v.unitOutcome? k = w.unitOutcome? k := by
    have hunit : p.units[k]?.map settings.names.unitFacts =
        q.units[k]?.map settings.names.unitFacts := by
      rw [← List.getElem?_map, ← List.getElem?_map]
      exact congrArg (·[k]?) h
    -- both programs have a unit at the place, of equal facts, or neither has
    rw [unitOutcome?, unitOutcome?, program_of_ofProgram? hv, program_of_ofProgram? hw]
    have hrel := optionRel_of_map_eq hunit
    generalize p.units[k]? = x, q.units[k]? = y at hrel ⊢
    cases hrel with
    | none => rfl
    | some hu => exact congrArg some (outcomeOf_of_facts_eq hv hw h hu k k)
  exact report_congr houtcome

end Validator

/-- A check of two programs of equal facts has the same answer: the same report, or a refusal for
the same repeated type. -/
theorem checkProgram_eq_of_facts_eq {p q : Program} {settings : Settings}
    (h : settings.names.facts p = settings.names.facts q) :
    checkProgram p settings = checkProgram q settings := by
  have hrefused (name : String) :
      TypeIndex.ofProgram? p = .error name ↔ TypeIndex.ofProgram? q = .error name := by
    rw [TypeIndex.ofProgram?_eq_error_iff, TypeIndex.ofProgram?_eq_error_iff,
      map_name_types_of_facts_eq h]
  rw [checkProgram, checkProgram, validatorFor, validatorFor]
  -- both are refused for the same name, or both are accepted
  cases hi : TypeIndex.ofProgram? p with
  | error name =>
    rw [Validator.ofProgram?, Validator.ofProgram?, hi, (hrefused name).1 hi]
    rfl
  | ok i =>
    cases hj : TypeIndex.ofProgram? q with
    | error name => cases hi.symm.trans ((hrefused name).2 hj)
    | ok j =>
      have hv : Validator.ofProgram? p settings = .ok _ :=
        Validator.ofProgram?_eq_ok_iff.2 ⟨i, hi, rfl⟩
      have hw : Validator.ofProgram? q settings = .ok _ :=
        Validator.ofProgram?_eq_ok_iff.2 ⟨j, hj, rfl⟩
      rw [hv, hw]
      exact congrArg Except.ok (Validator.report_of_facts_eq hv hw h)

/-! ### A program written out and dressed up -/

namespace Dressed

/-- A rebind annotation that names the given class. -/
def naming (className : String) : Annotation :=
  { name := "com.google.gwt.core.shared.Rebind"
    values := .ofList [("type", .classLiteral className)] }

/-- The names of the annotation family, with a class that stands for no type. -/
def settings : Settings := { names := { defaultType := some "java.lang.Void" } }

/-- An interface whose method takes a class, and the method of a class that implements it. -/
def plain : Program :=
  ⟨[{ types := [⟨
      { name := "test.Api", kind := .interfaceKind
        methods := [⟨
          { name := "create"
            params := [{ name := "type", type := ⟨"java.lang.Class"⟩ }]
            annotations := [{ name := "com.google.gwt.core.shared.Rebind" }] }, .atLine 4⟩] },
      .atLine 3⟩] },
    { types := [⟨
      { name := "test.Impl", kind := .classKind, interfaces := ["test.Api"]
        methods := [⟨
          { name := "create"
            params := [{ name := "type", type := ⟨"java.lang.Class"⟩ }]
            annotations := [naming "java.lang.String"] }, .atLine 6⟩] },
      .atLine 5⟩] }]⟩

/-- The same with other parameter names, return types, argument lists, blanks, kinds, positions of
types and texts, and with annotations and members that nobody looks for. -/
def dressed : Program :=
  ⟨[{ path? := some "test/Api.java", source? := some "package test;"
      types := [⟨
        { name := "test.Api", kind := .classKind
          methods := [⟨
            { name := "create", returnType := ⟨"T"⟩
              params := [{ name := "c", type := ⟨"java.lang.Class<? extends T>"⟩ }]
              annotations := [{ name := "java.lang.Deprecated" }, naming "java.lang.Void"] },
            .atLine 4⟩] },
        .atLine 1⟩] },
    { types := [⟨
      { name := "test.Impl", kind := .interfaceKind, interfaces := ["test.Api"]
        methods := [⟨
          { name := "create"
            params := [{ name := "klass", type := ⟨"java.lang.Class< T > "⟩
                         annotations := [{ name := "javax.annotation.Nonnull" }] }]
            annotations :=
              [{ naming "java.lang.String" with
                 values := (naming "java.lang.String").values.insert "note" (.string "new") },
               naming "java.lang.Long"] }, .atLine 6⟩] },
      .atLine 9⟩] }]⟩

/-- Both programs have the same facts, so the check answers alike. -/
theorem same_answer : settings.names.facts plain = settings.names.facts dressed ∧
    checkProgram plain settings = checkProgram dressed settings := by
  have hempty : MemberTable.empty.find? "type" = none := rfl
  have hnote : "type" ≠ "note" := by decide
  have hfacts : settings.names.facts plain = settings.names.facts dressed := by
    simp [AnnotationNames.facts, AnnotationNames.unitFacts, AnnotationNames.typeFacts,
      AnnotationNames.methodFacts, AnnotationNames.explicitType?, AnnotationNames.typeValue?,
      AnnotationNames.markerOf?, findAnnotation?, MemberTable.ofList, SourceUnit.path, pathOfType,
      MethodDecl.erasedSignature, WrittenType.erased, eraseFrom, isBlank, plain, dressed, settings,
      naming, hempty, MemberTable.find?_insert_of_ne hnote]
  exact ⟨hfacts, checkProgram_eq_of_facts_eq hfacts⟩

end Dressed

end OverrideCheck
