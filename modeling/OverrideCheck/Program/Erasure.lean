import OverrideCheck.Text.Blank

/-!
# Erasure of written types

Two declarations override each other when their parameter types agree after erasure: every
generic argument list and every blank is dropped from the type as it is written, so
`Map<K, List<V>>[]` becomes `Map[]`.

* `eraseFrom` — erasure of the rest of a type, inside a number of open argument lists;
* `WrittenType` — a type as it is written in a signature;
* `WrittenType.erased` — the type without argument lists and blanks;
* `ErasedSignature` — a method's name and the erased types of its parameters.

Brackets need not balance: a `>` that closes nothing is dropped and leaves the count at zero, and
a `<` that is never closed drops all that follows.
-/

namespace OverrideCheck

/-- Erases the rest of a type that stands inside `depth` open argument lists. -/
def eraseFrom : Nat → List Char → List Char
  | _, [] => []
  | depth, c :: rest =>
    if c = '<' then eraseFrom (depth + 1) rest
    else if c = '>' then eraseFrom (depth - 1) rest
    else if depth = 0 ∧ isBlank c = false then c :: eraseFrom depth rest
    else eraseFrom depth rest

/-- A type as it is written in a signature, such as `java.lang.Class<?>`. -/
structure WrittenType where
  text : String
deriving DecidableEq, Repr, Inhabited

namespace WrittenType

/-- The return type of a method that names none. -/
def void : WrittenType := ⟨"void"⟩

/-- The type without argument lists and blanks. -/
def erased (t : WrittenType) : String := String.ofList (eraseFrom 0 t.text.toList)

end WrittenType

/-- A method's name and the erased types of its parameters, in order: what decides whether one
declaration overrides another. -/
structure ErasedSignature where
  name : String
  params : List String
deriving DecidableEq, Repr

/-- The name and the parameter types in parentheses, as in `foo(int, java.lang.Class)`. -/
def ErasedSignature.text (s : ErasedSignature) : String :=
  s.name ++ "(" ++ String.intercalate ", " s.params ++ ")"

end OverrideCheck
