import Mathlib.Data.List.DropRight
import OverrideCheck.Path

/-!
# The names of a path

A path is a text, and the same folder can be written in many ways. What counts is the names that its
text holds and whether it starts at the root: a name in a folder is one more name, and the parent is
the same path without the last one.

* `pathNames`, `Rooted` — the names of a path, and whether it starts at the root;
* `pathNames_joinPath` — a name in a folder comes behind the names of the folder;
* `IsParent`, `isParent_parentPath?` — the parent of a path has all its names but the last, and a
  path without names has no parent;
* `getElem?_selfAndParents_succ` — the way upwards goes on to the parent until there is none;
* `pathNames_ne_of_lt` — it never comes to the same folder again.

The way upwards is allowed as many steps as the path has letters. It takes one for each name, and
there are no more names than letters, so it is never cut short (`length_pathNames_le`).
-/

namespace OverrideCheck

/-! ### Pieces of a text -/

/-- There is always a first piece. -/
theorem exists_pieces (cs : List Char) : ∃ first rest, cs.splitOn '/' = first :: rest :=
  List.exists_cons_of_ne_nil (List.splitOn_ne_nil '/' cs)

theorem splitOn_cons_slash (cs : List Char) : ('/' :: cs).splitOn '/' = [] :: cs.splitOn '/' := by
  rw [List.splitOn_cons_eq_if_modifyHead, if_pos (beq_self_eq_true _)]

theorem splitOn_cons_letter {c : Char} (hc : c ≠ '/') {cs first : List Char}
    {rest : List (List Char)} (h : cs.splitOn '/' = first :: rest) :
    (c :: cs).splitOn '/' = (c :: first) :: rest := by
  rw [List.splitOn_cons_eq_if_modifyHead, if_neg (by simpa using hc), h, List.modifyHead_cons]

/-- Cutting a path is splitting it at its slashes. -/
theorem splitPath_eq_splitOn (cs : List Char) : splitPath cs = cs.splitOn '/' := by
  induction cs with
  | nil => rfl
  | cons c cs ih =>
    obtain ⟨first, rest, hpieces⟩ := exists_pieces cs
    rw [splitPath, ih, hpieces]
    -- a slash opens a new piece, and any other letter joins the first one
    by_cases hc : c = '/'
    · rw [hc, splitOn_cons_slash, hpieces]
      rfl
    · rw [splitOn_cons_letter hc hpieces]
      exact if_neg hc

theorem slash_notMem_of_mem_splitOn {cs piece : List Char} (h : piece ∈ cs.splitOn '/') :
    '/' ∉ piece := by
  induction cs generalizing piece with
  | nil =>
    obtain rfl : piece = [] := by simpa using h
    exact List.not_mem_nil
  | cons c cs ih =>
    obtain ⟨first, rest, hpieces⟩ := exists_pieces cs
    rw [hpieces] at ih
    by_cases hc : c = '/'
    · rw [hc, splitOn_cons_slash, hpieces, List.mem_cons] at h
      rcases h with rfl | h
      · exact List.not_mem_nil
      · exact ih h
    · rw [splitOn_cons_letter hc hpieces, List.mem_cons] at h
      rcases h with rfl | h
      · exact List.not_mem_cons_of_ne_of_not_mem (Ne.symm hc) (ih List.mem_cons_self)
      · exact ih (List.mem_cons_of_mem _ h)

/-- A piece of a path that stands for nothing: an empty one, or a single dot. -/
def standsForNothing (piece : List Char) : Bool := piece = [] || piece = ['.']

/-- The names among the pieces behind the first one. -/
def furtherNames (pieces : List (List Char)) : List (List Char) :=
  pieces.filter (! standsForNothing ·)

theorem trimNames_eq_rdropWhile (pieces : List (List Char)) :
    trimNames pieces = pieces.rdropWhile standsForNothing := rfl

theorem trimNames_subset (pieces : List (List Char)) : trimNames pieces ⊆ pieces :=
  (List.rdropWhile_prefix standsForNothing pieces).subset

/-- What is trimmed off is no name. -/
theorem furtherNames_trimNames (pieces : List (List Char)) :
    furtherNames (trimNames pieces) = furtherNames pieces := by
  -- the pieces are what is left of them and what was trimmed off
  conv_rhs => rw [← List.rdropWhile_append_rtakeWhile (p := standsForNothing) (l := pieces)]
  rw [furtherNames, furtherNames, List.filter_append, trimNames_eq_rdropWhile]
  have hnothing : (pieces.rtakeWhile standsForNothing).filter (! standsForNothing ·) = [] := by
    rw [List.filter_eq_nil_iff]
    intro piece hpiece
    simp [List.mem_rtakeWhile_imp hpiece]
  rw [hnothing, List.append_nil]

/-- What is left ends with a name. -/
theorem furtherNames_concat_of_trimNames {pieces before : List (List Char)} {last : List Char}
    (h : trimNames pieces = before ++ [last]) :
    furtherNames pieces = furtherNames before ++ [last] := by
  have hlast : ¬ standsForNothing last := by
    have hne : pieces.rdropWhile standsForNothing ≠ [] := by
      rw [← trimNames_eq_rdropWhile, h]
      simp
    have hnot := List.rdropWhile_last_not standsForNothing pieces hne
    simpa [← trimNames_eq_rdropWhile, h] using hnot
  rw [← furtherNames_trimNames, h, furtherNames, List.filter_append]
  simp [furtherNames, hlast]

/-! ### Names -/

/-- The names that the pieces of a path hold. A single dot is a name only at the start. -/
def namesOfPieces : List (List Char) → List (List Char)
  | [] => []
  | first :: rest => (if first = [] then [] else [first]) ++ furtherNames rest

/-- The names of a path. -/
def pathNames (path : String) : List (List Char) := namesOfPieces (path.toList.splitOn '/')

/-- A path starts at the root. -/
def Rooted (path : String) : Prop := path.toList.head? = some '/'

/-- `parent?` is the parent of a path: it has all the names of the path but the last one and starts
at the root if the path does, and a path without names has none. -/
def IsParent (path : String) : Option String → Prop
  | none => pathNames path = []
  | some parent => pathNames path ≠ [] ∧ pathNames parent = (pathNames path).dropLast ∧
      (Rooted parent ↔ Rooted path)

/-- A path starts at the root when nothing stands before its first slash. -/
theorem rooted_iff {path : String} {first : List Char} {rest : List (List Char)}
    (h : path.toList.splitOn '/' = first :: rest) : Rooted path ↔ first = [] ∧ rest ≠ [] := by
  rw [Rooted]
  cases hpath : path.toList with
  | nil =>
    rw [hpath] at h
    obtain ⟨rfl, rfl⟩ : [] = first ∧ [] = rest := by simpa using h
    simp
  | cons c cs =>
    obtain ⟨name, names, hpieces⟩ := exists_pieces cs
    rw [hpath] at h
    -- without a slash in front the first piece holds a letter
    by_cases hc : c = '/'
    · rw [hc, splitOn_cons_slash, hpieces] at h
      obtain ⟨rfl, rfl⟩ := List.cons.inj h
      simp [hc]
    · rw [splitOn_cons_letter hc hpieces] at h
      obtain ⟨rfl, rfl⟩ := List.cons.inj h
      simp [hc]

/-- Pieces of a path that are put together are what the text they make is cut into. -/
theorem splitOn_put_together (path : String) {pieces : List (List Char)} (hne : pieces ≠ [])
    (hsub : pieces ⊆ path.toList.splitOn '/') :
    (String.ofList (['/'].intercalate pieces)).toList.splitOn '/' = pieces := by
  rw [String.toList_ofList]
  exact List.splitOn_intercalate '/'
    (fun piece hpiece => slash_notMem_of_mem_splitOn (hsub hpiece)) hne

section Parents

variable {path : String} {first last : List Char} {rest before : List (List Char)}

theorem pathNames_of_pieces (h : path.toList.splitOn '/' = first :: rest) :
    pathNames path = (if first = [] then [] else [first]) ++ furtherNames rest := by
  rw [pathNames, h, namesOfPieces]

/-- Without a name behind the first piece, that piece is the only name, if it is one. -/
theorem isParent_of_no_further (hpieces : path.toList.splitOn '/' = first :: rest)
    (htrim : trimNames rest = []) : IsParent path (if first = [] then none else some "") := by
  have hnames := pathNames_of_pieces hpieces
  rw [← furtherNames_trimNames, htrim, furtherNames, List.filter_nil, List.append_nil] at hnames
  split
  · next hfirst =>
    rw [if_pos hfirst] at hnames
    exact hnames
  · next hfirst =>
    rw [if_neg hfirst] at hnames
    refine ⟨by simp [hnames], by rw [hnames]; rfl, ?_⟩
    rw [rooted_iff hpieces]
    simp [Rooted, hfirst]

/-- The last name behind the first piece goes, and with it what stands for nothing before it. -/
theorem isParent_of_further (hpieces : path.toList.splitOn '/' = first :: rest)
    (htrim : trimNames rest = before ++ [last]) :
    IsParent path (if first = [] && (trimNames before).isEmpty then some "/" else
      some (String.ofList (['/'].intercalate (first :: trimNames before)))) := by
  have hnames := pathNames_of_pieces hpieces
  rw [furtherNames_concat_of_trimNames htrim, ← furtherNames_trimNames before,
    ← List.append_assoc] at hnames
  have hsome : pathNames path ≠ [] := by simp [hnames]
  have hdrop : (pathNames path).dropLast =
      (if first = [] then [] else [first]) ++ furtherNames (trimNames before) := by
    rw [hnames, List.dropLast_concat]
  have hbefore : trimNames before ⊆ rest := by
    refine List.Subset.trans (trimNames_subset before) ?_
    refine List.Subset.trans ?_ (trimNames_subset rest)
    rw [htrim]
    exact List.subset_append_left _ _
  -- there is a piece behind the first one, so the first one decides
  have hrooted : Rooted path ↔ first = [] := by
    rw [rooted_iff hpieces, and_iff_left]
    rintro rfl
    simp [trimNames] at htrim
  split
  · next hroot =>
    -- nothing is left but the root, whose slash is kept
    obtain ⟨hfirst, hnone⟩ : first = [] ∧ trimNames before = [] := by simpa using hroot
    rw [if_pos hfirst, hnone] at hdrop
    exact ⟨hsome, hdrop.symm, iff_of_true rfl (hrooted.2 hfirst)⟩
  · next hroot =>
    -- what is put together again is cut where the path was
    have hsplit := splitOn_put_together path (List.cons_ne_nil first (trimNames before))
      (by rw [hpieces]; exact List.cons_subset_cons _ hbefore)
    have hback : first = [] → trimNames before ≠ [] := by simpa using hroot
    refine ⟨hsome, by rw [pathNames_of_pieces hsplit, hdrop], ?_⟩
    rw [rooted_iff hsplit, hrooted]
    exact and_iff_left_of_imp hback

end Parents

/-- The parent of a path has all its names but the last. -/
theorem isParent_parentPath? (path : String) : IsParent path (parentPath? path) := by
  obtain ⟨first, rest, hpieces⟩ := exists_pieces path.toList
  rw [parentPath?, splitPath_eq_splitOn, hpieces]
  dsimp only
  -- the last name is looked for from the end
  rcases List.eq_nil_or_concat (trimNames rest) with htrim | ⟨before, last, htrim⟩
  · rw [htrim, List.reverse_nil]
    exact isParent_of_no_further hpieces htrim
  · rw [List.concat_eq_append] at htrim
    have hparent := isParent_of_further hpieces htrim
    rw [htrim, List.reverse_append, List.reverse_singleton, List.singleton_append]
    dsimp only
    rw [List.reverse_reverse]
    exact hparent

/-! ### Names in a folder -/

/-- What is cut off behind a slash comes behind the other pieces. -/
theorem namesOfPieces_splitOn_behind (front : List Char) {name : List Char} (hslash : '/' ∉ name) :
    namesOfPieces ((front ++ '/' :: name).splitOn '/') =
      namesOfPieces (front.splitOn '/') ++ furtherNames [name] := by
  obtain ⟨first, rest, hpieces⟩ := exists_pieces front
  rw [List.splitOn_append_cons_self, List.splitOn_eq_singleton hslash, hpieces]
  simp [namesOfPieces, furtherNames]

/-- A name in a folder comes behind the names of the folder. -/
theorem pathNames_joinPath (folder : String) {name : String} (hslash : '/' ∉ name.toList)
    (hname : standsForNothing name.toList = false) :
    pathNames (joinPath folder name) = pathNames folder ++ [name.toList] := by
  have hfurther : furtherNames [name.toList] = [name.toList] := by simp [furtherNames, hname]
  have hhead : name.toList.head? ≠ some '/' := fun h => hslash (List.mem_of_mem_head? h)
  rw [joinPath]
  split
  · next hempty =>
    -- what stands in no folder is the name alone
    obtain rfl : folder = "" := by simpa [hhead] using hempty
    have hne : name.toList ≠ [] := by
      rintro h
      simp [standsForNothing, h] at hname
    rw [pathNames, List.splitOn_eq_singleton hslash, namesOfPieces, if_neg hne]
    rfl
  · split
    · next hend =>
      -- the slash at the end of the folder is the one in front of the name
      obtain ⟨front, hfront⟩ := List.getLast?_eq_some_iff.1 hend
      rw [pathNames, pathNames, String.toList_append, hfront, List.append_assoc,
        List.singleton_append, namesOfPieces_splitOn_behind front hslash,
        namesOfPieces_splitOn_behind front List.not_mem_nil, hfurther]
      simp [furtherNames, standsForNothing]
    · rw [pathNames, String.toList_append, String.toList_append, List.append_assoc,
        show "/".toList = ['/'] from rfl, List.singleton_append,
        namesOfPieces_splitOn_behind _ hslash, hfurther, pathNames]

/-- Two names in two folders are at different places if the names differ, or the folders have
different names. -/
theorem joinPath_ne {folder folder' name name' : String}
    (hname : '/' ∉ name.toList ∧ standsForNothing name.toList = false)
    (hname' : '/' ∉ name'.toList ∧ standsForNothing name'.toList = false)
    (h : pathNames folder ≠ pathNames folder' ∨ name ≠ name') :
    joinPath folder name ≠ joinPath folder' name' := by
  intro heq
  have hnames := congrArg pathNames heq
  rw [pathNames_joinPath folder hname.1 hname.2, pathNames_joinPath folder' hname'.1 hname'.2]
    at hnames
  -- one path would have one last name, and one list of names in front of it
  obtain ⟨hfolder, hlast⟩ := List.append_inj' hnames rfl
  exact h.elim (· hfolder) (· (String.toList_inj.1 (List.singleton_inj.1 hlast)))

/-! ### The way upwards -/

/-- A text has no more pieces than letters if the empty ones are left out. -/
theorem length_filter_splitOn_le (cs : List Char) :
    ((cs.splitOn '/').filter (· ≠ [])).length ≤ cs.length := by
  induction cs with
  | nil => simp
  | cons c cs ih =>
    obtain ⟨first, rest, hpieces⟩ := exists_pieces cs
    rw [hpieces] at ih
    rw [List.length_cons]
    by_cases hc : c = '/'
    · rw [hc, splitOn_cons_slash, hpieces, List.filter_cons_of_neg (by simp)]
      exact Nat.le_succ_of_le ih
    · -- the letter comes into the first piece, which may have been empty before
      rw [splitOn_cons_letter hc hpieces, List.filter_cons_of_pos (by simp), List.length_cons]
      have hrest := ((List.sublist_cons_self first rest).filter (· ≠ [])).length_le
      exact Nat.succ_le_succ (hrest.trans ih)

/-- A path has no more names than letters. -/
theorem length_pathNames_le (path : String) : (pathNames path).length ≤ path.length := by
  obtain ⟨first, rest, hpieces⟩ := exists_pieces path.toList
  have hletters := length_filter_splitOn_le path.toList
  have hrest : (furtherNames rest).length ≤ (rest.filter (· ≠ [])).length := by
    refine (List.monotone_filter_right rest fun piece hpiece => ?_).length_le
    have hnot : piece ≠ [] ∧ piece ≠ ['.'] := by simpa [standsForNothing] using hpiece
    simpa using hnot.1
  rw [← String.length_toList, pathNames_of_pieces hpieces, List.length_append]
  rw [hpieces] at hletters
  by_cases hfirst : first = []
  · rw [List.filter_cons_of_neg (by simpa using hfirst)] at hletters
    rw [if_pos hfirst, List.length_nil]
    omega
  · rw [List.filter_cons_of_pos (by simpa using hfirst), List.length_cons] at hletters
    rw [if_neg hfirst, List.length_singleton]
    omega

theorem length_pathNames_parent {path parent : String} (h : parentPath? path = some parent) :
    (pathNames path).length = (pathNames parent).length + 1 := by
  have hparent := isParent_parentPath? path
  rw [h] at hparent
  obtain ⟨hsome, hdrop, -⟩ := hparent
  rw [hdrop, List.length_dropLast, Nat.sub_add_cancel (List.length_pos_iff.2 hsome)]

/-- The first of the parents of a path is its parent, if there may be as many as it has names. -/
theorem getElem?_parentsWithin_zero {fuel : Nat} {path : String}
    (hfuel : (pathNames path).length ≤ fuel) :
    (parentsWithin fuel path)[0]? = parentPath? path := by
  cases hparent : parentPath? path with
  | none => cases fuel <;> simp [parentsWithin, hparent]
  | some parent =>
    have hlength := length_pathNames_parent hparent
    -- a path with a parent has a name, so that one step is allowed at least
    obtain ⟨fuel, rfl⟩ := Nat.exists_eq_add_of_le' (Nat.le_trans (by omega : 1 ≤ _) hfuel)
    simp [parentsWithin, hparent]

/-- On the way upwards, a folder is followed by its parent, and the last one has none. -/
theorem getElem?_parentsWithin {fuel : Nat} {path folder : String} {i : Nat}
    (hfuel : (pathNames path).length ≤ fuel)
    (hi : (path :: parentsWithin fuel path)[i]? = some folder) :
    (path :: parentsWithin fuel path)[i + 1]? = parentPath? folder := by
  induction i generalizing fuel path with
  | zero =>
    obtain rfl : path = folder := by simpa using hi
    exact getElem?_parentsWithin_zero hfuel
  | succ i ih =>
    cases fuel with
    | zero => simp [parentsWithin] at hi
    | succ fuel =>
      -- from the parent on, it is the way upwards from there, with one name less to go
      rw [parentsWithin] at hi ⊢
      cases hparent : parentPath? path with
      | none => simp [hparent] at hi
      | some parent =>
        rw [hparent] at hi
        have hlength := length_pathNames_parent hparent
        exact ih (by omega) hi

/-- The way upwards from a folder begins with it. -/
theorem getElem?_selfAndParents_zero (folder : String) :
    (selfAndParents folder)[0]? = some folder := rfl

/-- On the way upwards, a folder is followed by its parent, and the last one has none. -/
theorem getElem?_selfAndParents_succ {folder d : String} {i : Nat}
    (h : (selfAndParents folder)[i]? = some d) :
    (selfAndParents folder)[i + 1]? = parentPath? d :=
  getElem?_parentsWithin (length_pathNames_le folder) h

/-- With every step upwards there is one name less. -/
theorem length_pathNames_selfAndParents {folder d : String} {i : Nat}
    (h : (selfAndParents folder)[i]? = some d) :
    (pathNames d).length + i = (pathNames folder).length := by
  induction i generalizing d with
  | zero =>
    obtain rfl : folder = d := by simpa [getElem?_selfAndParents_zero] using h
    rfl
  | succ i ih =>
    obtain ⟨hlt, -⟩ := List.getElem?_eq_some_iff.1 h
    have hbelow := List.getElem?_eq_getElem (Nat.lt_of_succ_lt hlt)
    rw [getElem?_selfAndParents_succ hbelow] at h
    rw [← ih hbelow, length_pathNames_parent h]
    omega

/-- A folder is not met twice on the way upwards, be it written in another way. -/
theorem pathNames_ne_of_lt {folder d e : String} {i k : Nat} (hik : i < k)
    (hd : (selfAndParents folder)[i]? = some d) (he : (selfAndParents folder)[k]? = some e) :
    pathNames d ≠ pathNames e := by
  intro heq
  have hdlength := length_pathNames_selfAndParents hd
  have helength := length_pathNames_selfAndParents he
  -- as many names would be left after a different number of steps
  rw [heq] at hdlength
  omega

end OverrideCheck
