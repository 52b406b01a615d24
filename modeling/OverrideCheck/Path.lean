/-!
# Paths

Paths are texts in which a slash separates the names of folders. They are put together and cut
apart as texts; nothing is looked up.

* `joinPath` — a name in a folder;
* `parentPath?` — a path without its last name;
* `selfAndParents` — a path and its successive parents, which is the way upwards from a folder.

Empty names, and single dots after the first name, stand for nothing and go with the name before
them. Two dots are a name like any other.
-/

namespace OverrideCheck

/-- A name in a folder. A name that starts at the root stands for itself. -/
def joinPath (folder name : String) : String :=
  if folder.isEmpty || name.toList.head? = some '/' then name
  else if folder.toList.getLast? = some '/' then folder ++ name
  else folder ++ "/" ++ name

/-- A text cut at its slashes. -/
def splitPath (path : List Char) : List (List Char) :=
  match path with
  | [] => [[]]
  | c :: rest =>
    match splitPath rest with
    | [] => [[c]]
    | name :: names => if c = '/' then [] :: name :: names else (c :: name) :: names

/-- Names that stand for something: what is left without those at the end that do not. -/
def trimNames (names : List (List Char)) : List (List Char) :=
  (names.reverse.dropWhile fun name => name = [] || name = ['.']).reverse

/-- A path without its last name; `none` if it has no name at all. -/
def parentPath? (path : String) : Option String :=
  match splitPath path.toList with
  | [] => none
  | first :: rest =>
    match (trimNames rest).reverse with
    | [] => if first = [] then none else some ""
    | _ :: before =>
      let names := trimNames before.reverse
      if first = [] && names.isEmpty then some "/"
      else some (String.ofList (List.intercalate ['/'] (first :: names)))

/-- The successive parents of a path, of which there may be `fuel`. -/
def parentsWithin : Nat → String → List String
  | 0, _ => []
  | fuel + 1, path =>
    match parentPath? path with
    | none => []
    | some parent => parent :: parentsWithin fuel parent

/-- A path and its successive parents. Each is shorter than the one before. -/
def selfAndParents (path : String) : List String := path :: parentsWithin path.length path

end OverrideCheck
