/-!
# Annotation uses

An annotation use is a qualified name and the values given to its members. Member values are
nested (an array holds values), and the table of members is kept in ascending order of the
members' names with one value for each, so that two tables with the same values are equal.

* `AnnotationValue` — a class literal, a string, an integer, a boolean or an array of values;
* `MemberTable` — values by member name, with `find?` and `insert`;
* `Annotation` — a name and its member table.

Inserting under a name that is taken replaces the value (`MemberTable.find?_insert_self`) and
leaves every other member as it was (`MemberTable.find?_insert_of_ne`).
-/

namespace OverrideCheck

/-- A value given to an annotation member. -/
inductive AnnotationValue
  /-- A class literal, by the qualified name of the class. -/
  | classLiteral (name : String)
  | string (text : String)
  | integer (value : Int64)
  | boolean (value : Bool)
  | array (elements : List AnnotationValue)
deriving Repr, Inhabited

/-- Values by member name, in ascending order of the names and with one value for each. -/
structure MemberTable where
  entries : List (String × AnnotationValue)
  ascending : (entries.map Prod.fst).Pairwise (· < ·)

namespace MemberTable

/-- The table without members. -/
def empty : MemberTable := ⟨[], List.Pairwise.nil⟩

instance : Inhabited MemberTable := ⟨empty⟩

/-- Puts a value under a name into a list of members in ascending order. -/
def insertEntry (name : String) (value : AnnotationValue) :
    List (String × AnnotationValue) → List (String × AnnotationValue)
  | [] => [(name, value)]
  | entry :: rest =>
    if name < entry.1 then (name, value) :: entry :: rest
    else if entry.1 < name then entry :: insertEntry name value rest
    else (name, value) :: rest

/-- An insertion brings in no name but the one inserted. -/
theorem mem_names_insertEntry {name other : String} {value : AnnotationValue}
    {entries : List (String × AnnotationValue)}
    (h : other ∈ (insertEntry name value entries).map Prod.fst) :
    other = name ∨ other ∈ entries.map Prod.fst := by
  induction entries with
  | nil => simpa [insertEntry] using h
  | cons entry rest ih =>
    simp only [insertEntry] at h
    split at h
    · simpa using h
    · split at h
      · simp only [List.map_cons, List.mem_cons] at h ⊢
        rcases h with h | h
        · exact Or.inr (Or.inl h)
        · rcases ih h with h | h
          · exact Or.inl h
          · exact Or.inr (Or.inr h)
      · simp only [List.map_cons, List.mem_cons] at h ⊢
        rcases h with h | h
        · exact Or.inl h
        · exact Or.inr (Or.inr h)

private theorem eq_of_not_lt {a b : String} (hab : ¬ a < b) (hba : ¬ b < a) : a = b :=
  String.le_antisymm (String.not_lt.1 hba) (String.not_lt.1 hab)

/-- An insertion keeps the names in ascending order. -/
theorem ascending_insertEntry {name : String} {value : AnnotationValue}
    {entries : List (String × AnnotationValue)}
    (h : (entries.map Prod.fst).Pairwise (· < ·)) :
    ((insertEntry name value entries).map Prod.fst).Pairwise (· < ·) := by
  induction entries with
  | nil => simp [insertEntry]
  | cons entry rest ih =>
    simp only [List.map_cons, List.pairwise_cons] at h
    simp only [insertEntry]
    split
    · next hlt =>
      simp only [List.map_cons, List.pairwise_cons, List.mem_cons]
      refine ⟨?_, h⟩
      rintro other (rfl | hother)
      · exact hlt
      · exact String.lt_trans hlt (h.1 other hother)
    · next hnlt =>
      split
      · next hlt =>
        simp only [List.map_cons, List.pairwise_cons]
        refine ⟨fun other hother => ?_, ih h.2⟩
        rcases mem_names_insertEntry hother with rfl | hother
        · exact hlt
        · exact h.1 other hother
      · next hngt =>
        -- the names agree, so the new entry takes the old one's place
        have heq : name = entry.1 := eq_of_not_lt hnlt hngt
        simp only [List.map_cons, List.pairwise_cons]
        exact ⟨heq ▸ h.1, h.2⟩

/-- Puts a value under a name, in place of the one that is there. -/
def insert (t : MemberTable) (name : String) (value : AnnotationValue) : MemberTable :=
  ⟨insertEntry name value t.entries, ascending_insertEntry t.ascending⟩

/-- The table of a list of members, later ones winning over earlier ones of the same name. -/
def ofList (entries : List (String × AnnotationValue)) : MemberTable :=
  entries.foldl (fun t entry => t.insert entry.1 entry.2) empty

/-- The value under a name. -/
def find? (t : MemberTable) (name : String) : Option AnnotationValue := t.entries.lookup name

private theorem lookup_insertEntry_self (name : String) (value : AnnotationValue)
    (entries : List (String × AnnotationValue)) :
    (insertEntry name value entries).lookup name = some value := by
  induction entries with
  | nil => simp [insertEntry]
  | cons entry rest ih =>
    simp only [insertEntry]
    split
    · simp
    · split
      · next hlt =>
        have hne : (name == entry.1) = false := by
          simp only [beq_eq_false_iff_ne, ne_eq]
          rintro rfl
          exact String.lt_irrefl _ hlt
        rw [List.lookup_cons, hne]
        exact ih
      · simp

private theorem lookup_insertEntry_of_ne {name other : String} (hne : other ≠ name)
    (value : AnnotationValue) (entries : List (String × AnnotationValue)) :
    (insertEntry name value entries).lookup other = entries.lookup other := by
  have hb : (other == name) = false := by simpa using hne
  induction entries with
  | nil => simp [insertEntry, List.lookup_cons, hb]
  | cons entry rest ih =>
    simp only [insertEntry]
    split
    · rw [List.lookup_cons, hb]
    · next hnlt =>
      split
      · rw [List.lookup_cons, List.lookup_cons, ih]
      · next hngt =>
        have heq : name = entry.1 := eq_of_not_lt hnlt hngt
        rw [List.lookup_cons, List.lookup_cons, hb, ← heq, hb]

/-- An inserted value is found. -/
@[simp] theorem find?_insert_self (t : MemberTable) (name : String) (value : AnnotationValue) :
    (t.insert name value).find? name = some value :=
  lookup_insertEntry_self name value t.entries

/-- An insertion leaves every other member as it was. -/
theorem find?_insert_of_ne {name other : String} (hne : other ≠ name) (t : MemberTable)
    (value : AnnotationValue) : (t.insert name value).find? other = t.find? other :=
  lookup_insertEntry_of_ne hne value t.entries

end MemberTable

/-- One use of an annotation on a method or a parameter. -/
structure Annotation where
  /-- Qualified name of the annotation. -/
  name : String
  values : MemberTable := .empty
deriving Inhabited

end OverrideCheck
