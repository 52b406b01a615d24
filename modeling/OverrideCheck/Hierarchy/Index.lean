import OverrideCheck.Program.Basic

/-!
# The type index

Every type of a program by its name, together with the unit that declares it. A program whose
types do not all have different names has no index: the first name that occurs again is reported.

* `TypeEntry` — a declared type and its unit;
* `TypeIndex` — the entries of a program, no name twice;
* `TypeIndex.ofProgram?` — the index, or the first repeated name;
* `TypeIndex.find?` — the entry of a name; `none` for a type outside the program;
* `TypeIndex.unseen` — how many entries are not among the names seen so far, the measure by which
  a walk over supertypes ends.
-/

namespace OverrideCheck

/-- A declared type and the index of the unit that declares it. -/
structure TypeEntry where
  unitIndex : Nat
  decl : TypeDecl
deriving Inhabited

/-- The name of the declared type. -/
def TypeEntry.name (e : TypeEntry) : String := e.decl.name

/-- The types of a program in unit and declaration order, each with the index of its unit. -/
def Program.typeEntries (p : Program) : List TypeEntry :=
  p.units.zipIdx.flatMap fun (unit, index) => unit.types.map fun t => ⟨index, t.node⟩

/-- The first element of a list that occurs among `seen` or before it in the list. -/
def firstRepeated? (seen : List String) : List String → Option String
  | [] => none
  | name :: rest => if name ∈ seen then some name else firstRepeated? (name :: seen) rest

/-- A list repeats nothing exactly when its elements differ from each other and from those seen
before. -/
theorem firstRepeated?_eq_none_iff {seen names : List String} :
    firstRepeated? seen names = none ↔ names.Nodup ∧ ∀ name ∈ names, name ∉ seen := by
  induction names generalizing seen with
  | nil => simp [firstRepeated?]
  | cons name rest ih =>
    simp only [firstRepeated?]
    split
    · next h => simp [h]
    · next h =>
      simp only [ih, List.nodup_cons, List.mem_cons, not_or, forall_eq_or_imp]
      constructor
      · rintro ⟨hnodup, hrest⟩
        exact ⟨⟨fun hmem => (hrest name hmem).1 rfl, hnodup⟩, h, fun a ha => (hrest a ha).2⟩
      · rintro ⟨⟨hnot, hnodup⟩, _, hrest⟩
        exact ⟨hnodup, fun a ha => ⟨fun heq => hnot (heq ▸ ha), hrest a ha⟩⟩

/-- The types of a program by name. -/
structure TypeIndex where
  entries : List TypeEntry
  nodup : (entries.map (·.name)).Nodup

namespace TypeIndex

/-- The index of a program, or the first type name that has already occurred when it is met
again. -/
def ofProgram? (p : Program) : Except String TypeIndex :=
  match h : firstRepeated? [] (p.typeEntries.map (·.name)) with
  | some name => .error name
  | none => .ok ⟨p.typeEntries, (firstRepeated?_eq_none_iff.1 h).1⟩

/-- The entry of a name. A type outside the program, such as one of a library, has none. -/
def find? (index : TypeIndex) (name : String) : Option TypeEntry :=
  index.entries.find? fun e => e.name == name

/-- What is found under a name bears that name. -/
theorem name_of_find? {index : TypeIndex} {name : String} {e : TypeEntry}
    (h : index.find? name = some e) : e.name = name := by
  simpa using List.find?_some h

/-- What is found is an entry of the index. -/
theorem mem_of_find? {index : TypeIndex} {name : String} {e : TypeEntry}
    (h : index.find? name = some e) : e ∈ index.entries :=
  List.mem_of_find?_eq_some h

/-- The number of entries whose names are not among those seen. -/
def unseen (index : TypeIndex) (seen : List String) : Nat :=
  index.entries.countP fun e => decide (e.name ∉ seen)

/-- One more name leaves no more entries unseen. -/
theorem unseen_cons_le (index : TypeIndex) (name : String) (seen : List String) :
    index.unseen (name :: seen) ≤ index.unseen seen := by
  refine List.countP_mono_left fun e _ => ?_
  simp only [List.mem_cons, not_or, decide_eq_true_eq, and_imp]
  exact fun _ h => h

/-- Seeing a type of the program for the first time leaves fewer entries unseen. -/
theorem unseen_cons_lt {index : TypeIndex} {name : String} {seen : List String} {e : TypeEntry}
    (hfind : index.find? name = some e) (hnew : name ∉ seen) :
    index.unseen (name :: seen) < index.unseen seen := by
  have hname := name_of_find? hfind
  obtain ⟨before, after, hsplit⟩ := List.append_of_mem (mem_of_find? hfind)
  have hmono (entries : List TypeEntry) :
      (entries.countP fun e => decide (e.name ∉ name :: seen)) ≤
        entries.countP fun e => decide (e.name ∉ seen) := by
    refine List.countP_mono_left fun e _ => ?_
    simp only [List.mem_cons, not_or, decide_eq_true_eq, and_imp]
    exact fun _ h => h
  have hbefore := hmono before
  have hafter := hmono after
  simp only [unseen, hsplit, List.countP_append, List.countP_cons, hname, List.mem_cons, true_or,
    not_true_eq_false, decide_false, Bool.false_eq_true, if_false, hnew, not_false_eq_true,
    decide_true, if_true] at *
  omega

end TypeIndex

end OverrideCheck
