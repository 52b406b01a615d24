import Mathlib.Data.List.Forall2
import Mathlib.Logic.Relation
import OverrideCheck.Proofs.Hierarchy.Branches

/-!
# What erasure removes

Erasure drops argument lists and blanks and nothing else. Texts need not be well bracketed: a type
that opens a list and never closes it, or closes one that is not open, is erased all the same, and
an argument list can be put into it anywhere.

* `Balanced` — texts whose angle brackets are paired;
* `WrittenType.Insertion`, `WrittenType.Respelled` — one argument list or blank more, and what comes
  of any number of those, put in or taken out;
* `WrittenType.erased_exact` — what erasure does to every text, and what that means for finding a
  method by its erased signature.

Two facts carry the module. A balanced text is passed over inside an open list, however deep
(`eraseFrom_balanced`), which is by induction on how the brackets are paired. And two continuations
that are erased alike at every depth stay so behind any text (`eraseFrom_append_congr`): the text in
front, balanced or not, decides the depth and nothing else.
-/

namespace OverrideCheck

/-- A text whose angle brackets are paired. -/
inductive Balanced : List Char → Prop
  | nil : Balanced []
  | plain {c : Char} {rest : List Char} (hopen : c ≠ '<') (hclose : c ≠ '>')
    (hrest : Balanced rest) : Balanced (c :: rest)
  | group {inner rest : List Char} (hinner : Balanced inner) (hrest : Balanced rest) :
    Balanced ('<' :: (inner ++ '>' :: rest))

/-- A character that erasure keeps outside of argument lists. -/
def IsKept (c : Char) : Prop := c ≠ '<' ∧ c ≠ '>' ∧ isBlank c = false

instance (c : Char) : Decidable (IsKept c) := inferInstanceAs (Decidable (_ ∧ _))

theorem balanced_of_plain {cs : List Char} (h : ∀ c ∈ cs, c ≠ '<' ∧ c ≠ '>') : Balanced cs := by
  induction cs with
  | nil => exact .nil
  | cons c rest ih =>
    obtain ⟨⟨hopen, hclose⟩, hrest⟩ := List.forall_mem_cons.1 h
    exact .plain hopen hclose (ih hrest)

theorem Balanced.append {x y : List Char} (hx : Balanced x) (hy : Balanced y) :
    Balanced (x ++ y) := by
  induction hx with
  | nil => exact hy
  | plain hopen hclose _ ih => exact .plain hopen hclose ih
  | @group inner rest hinner _ _ ih =>
    rw [List.cons_append, List.append_assoc, List.cons_append]
    exact .group hinner ih

/-! ### Single characters -/

theorem eraseFrom_open (depth : Nat) (rest : List Char) :
    eraseFrom depth ('<' :: rest) = eraseFrom (depth + 1) rest := by
  rw [eraseFrom, if_pos rfl]

theorem eraseFrom_close (depth : Nat) (rest : List Char) :
    eraseFrom depth ('>' :: rest) = eraseFrom (depth - 1) rest := by
  rw [eraseFrom, if_neg (by decide), if_pos rfl]

theorem eraseFrom_kept {c : Char} (hc : IsKept c) (rest : List Char) :
    eraseFrom 0 (c :: rest) = c :: eraseFrom 0 rest := by
  obtain ⟨hopen, hclose, hblank⟩ := hc
  rw [eraseFrom, if_neg hopen, if_neg hclose, if_pos ⟨rfl, hblank⟩]

/-- What is no bracket is dropped inside an argument list. -/
theorem eraseFrom_inside {c : Char} (hopen : c ≠ '<') (hclose : c ≠ '>') (depth : Nat)
    (rest : List Char) : eraseFrom (depth + 1) (c :: rest) = eraseFrom (depth + 1) rest := by
  rw [eraseFrom, if_neg hopen, if_neg hclose, if_neg fun h => Nat.succ_ne_zero depth h.1]

/-- A blank is dropped at every depth. -/
theorem eraseFrom_blank {c : Char} (hc : isBlank c = true) (depth : Nat) (rest : List Char) :
    eraseFrom depth (c :: rest) = eraseFrom depth rest := by
  -- no bracket is a blank, so the blank is taken by the last branch
  have hopen : c ≠ '<' := by
    rintro rfl
    exact absurd hc (by decide)
  have hclose : c ≠ '>' := by
    rintro rfl
    exact absurd hc (by decide)
  rw [eraseFrom, if_neg hopen, if_neg hclose, if_neg]
  rintro ⟨-, hblank⟩
  rw [hc] at hblank
  cases hblank

/-! ### Balanced texts -/

/-- Inside an argument list a balanced text is passed over. -/
theorem eraseFrom_balanced {g : List Char} (hg : Balanced g) (depth : Nat) (rest : List Char) :
    eraseFrom (depth + 1) (g ++ rest) = eraseFrom (depth + 1) rest := by
  induction hg generalizing depth rest with
  | nil => rfl
  | plain hopen hclose _ ih =>
    rw [List.cons_append, eraseFrom_inside hopen hclose]
    exact ih depth rest
  | @group inner behind _ _ ihinner ihrest =>
    -- one level deeper the inner text is passed over, and its bracket leads back
    calc eraseFrom (depth + 1) ('<' :: (inner ++ '>' :: behind) ++ rest)
        = eraseFrom (depth + 2) (inner ++ ('>' :: (behind ++ rest))) := by
          rw [List.cons_append, List.append_assoc, List.cons_append, eraseFrom_open]
      _ = eraseFrom (depth + 1) (behind ++ rest) := by
          rw [ihinner (depth + 1), eraseFrom_close]
          rfl
      _ = eraseFrom (depth + 1) rest := ihrest depth rest

/-- A whole argument list is passed over at every depth. -/
theorem eraseFrom_group {g : List Char} (hg : Balanced g) (depth : Nat) (rest : List Char) :
    eraseFrom depth ('<' :: (g ++ '>' :: rest)) = eraseFrom depth rest := by
  rw [eraseFrom_open, eraseFrom_balanced hg, eraseFrom_close, Nat.add_sub_cancel]

/-- Behind a balanced text erasure starts afresh. -/
theorem eraseFrom_zero_append {x : List Char} (hx : Balanced x) (y : List Char) :
    eraseFrom 0 (x ++ y) = eraseFrom 0 x ++ eraseFrom 0 y := by
  induction hx with
  | nil => rfl
  | @plain c rest hopen hclose _ ih =>
    rw [List.cons_append]
    -- the character is dropped in front of both texts, or kept in front of both
    by_cases hblank : isBlank c = true
    · rw [eraseFrom_blank hblank, eraseFrom_blank hblank, ih]
    · have hkept : IsKept c := ⟨hopen, hclose, Bool.eq_false_iff.2 hblank⟩
      rw [eraseFrom_kept hkept, eraseFrom_kept hkept, ih, List.cons_append]
  | @group inner rest hinner _ _ ih =>
    rw [List.cons_append, List.append_assoc, List.cons_append, eraseFrom_group hinner,
      eraseFrom_group hinner, ih]

/-! ### Any text -/

/-- What is erased alike at every depth is erased alike behind any text. -/
theorem eraseFrom_append_congr {y z : List Char}
    (h : ∀ depth, eraseFrom depth y = eraseFrom depth z) (x : List Char) (depth : Nat) :
    eraseFrom depth (x ++ y) = eraseFrom depth (x ++ z) := by
  induction x generalizing depth with
  | nil => exact h depth
  | cons c rest ih =>
    -- the first character sends both texts on at the same depth
    rw [List.cons_append, List.cons_append]
    unfold eraseFrom
    simp only [ih]

theorem eraseFrom_eq_self {cs : List Char} (h : ∀ c ∈ cs, IsKept c) : eraseFrom 0 cs = cs := by
  induction cs with
  | nil => rfl
  | cons c rest ih =>
    obtain ⟨hc, hrest⟩ := List.forall_mem_cons.1 h
    rw [eraseFrom_kept hc, ih hrest]

/-- Nothing but kept characters is left of a text. -/
theorem isKept_of_mem_eraseFrom {c : Char} {depth : Nat} {cs : List Char}
    (h : c ∈ eraseFrom depth cs) : IsKept c := by
  fun_induction eraseFrom depth cs with
  | case1 => cases h
  | case2 depth rest ih => exact ih h
  | case3 depth rest _ ih => exact ih h
  | case4 depth d rest hopen hclose hkept ih =>
    -- here alone a character is put out
    rcases List.mem_cons.1 h with rfl | hrest
    · exact ⟨hopen, hclose, hkept.2⟩
    · exact ih hrest
  | case5 depth d rest _ _ _ ih => exact ih h

namespace WrittenType

/-- The second type is the first one with an argument list or a blank put in somewhere. -/
inductive Insertion : WrittenType → WrittenType → Prop
  | arguments (x g y : String) (hg : Balanced g.toList) :
    Insertion ⟨x ++ y⟩ ⟨x ++ "<" ++ g ++ ">" ++ y⟩
  | blank (x y : String) {c : Char} (hc : isBlank c = true) :
    Insertion ⟨x ++ y⟩ ⟨x ++ String.singleton c ++ y⟩

/-- The types differ by argument lists and blanks that are put in or taken out. -/
def Respelled : WrittenType → WrittenType → Prop := Relation.EqvGen Insertion

theorem erased_insert_arguments (x y : String) {g : String} (hg : Balanced g.toList) :
    (⟨x ++ "<" ++ g ++ ">" ++ y⟩ : WrittenType).erased = (⟨x ++ y⟩ : WrittenType).erased := by
  unfold erased
  simp only [String.toList_append, List.append_assoc]
  congr 1
  -- what stands in front only decides at which depth the list is met
  exact eraseFrom_append_congr (eraseFrom_group hg · y.toList) x.toList 0

theorem erased_insert_blank (x y : String) {c : Char} (hc : isBlank c = true) :
    (⟨x ++ String.singleton c ++ y⟩ : WrittenType).erased = (⟨x ++ y⟩ : WrittenType).erased := by
  unfold erased
  simp only [String.toList_append, String.toList_singleton, List.append_assoc]
  congr 1
  exact eraseFrom_append_congr (eraseFrom_blank hc · y.toList) x.toList 0

theorem erased_append {x : String} (hx : Balanced x.toList) (y : String) :
    (⟨x ++ y⟩ : WrittenType).erased = (⟨x⟩ : WrittenType).erased ++ (⟨y⟩ : WrittenType).erased := by
  unfold erased
  rw [String.toList_append, eraseFrom_zero_append hx, String.ofList_append]

theorem erased_eq_self {x : String} (h : ∀ c ∈ x.toList, IsKept c) :
    (⟨x⟩ : WrittenType).erased = x := by
  unfold erased
  rw [eraseFrom_eq_self h, String.ofList_toList]

theorem isKept_of_mem_erased (t : WrittenType) : ∀ c ∈ t.erased.toList, IsKept c := by
  intro c hc
  unfold erased at hc
  rw [String.toList_ofList] at hc
  exact isKept_of_mem_eraseFrom hc

theorem Respelled.erased_eq {s t : WrittenType} (h : Respelled s t) : s.erased = t.erased := by
  -- one step leaves the erasure, and so does what equality is closed under
  induction h with
  | rel _ _ h =>
    cases h with
    | arguments x g y hg => exact (erased_insert_arguments x y hg).symm
    | blank x y hc => exact (erased_insert_blank x y hc).symm
  | refl => rfl
  | symm _ _ _ ih => exact ih.symm
  | trans _ _ _ _ _ ih ih' => exact ih.trans ih'

end WrittenType

/-- Respelling parameter types leaves the erased signature as it was. -/
theorem MethodDecl.erasedSignature_eq_of_respelled {m m' : MethodDecl} (hname : m.name = m'.name)
    (hparams : List.Forall₂ (fun p p' => WrittenType.Respelled p.type p'.type) m.params m'.params) :
    m.erasedSignature = m'.erasedSignature := by
  have htypes : m.params.map (·.type.erased) = m'.params.map (·.type.erased) := by
    rw [← List.forall₂_eq_eq_eq, List.forall₂_map_left_iff, List.forall₂_map_right_iff]
    exact hparams.imp fun _ _ h => h.erased_eq
  unfold erasedSignature
  rw [hname, htypes]

namespace WrittenType

/-- **Erasure removes argument lists and blanks, and nothing else.** An argument list, which is any
balanced text in angle brackets, makes no difference wherever it is put in, and neither does a
blank. Behind a balanced text erasure starts afresh. A text without brackets and blanks is its own
erasure; every erasure is such a text. So methods whose parameter types differ only by argument
lists and blanks have one erased signature, and a type that declares one of them finds a method
under the signature of the other. -/
theorem erased_exact :
    (∀ x g y : String, Balanced g.toList →
      (⟨x ++ "<" ++ g ++ ">" ++ y⟩ : WrittenType).erased = (⟨x ++ y⟩ : WrittenType).erased) ∧
    (∀ (x y : String) (c : Char), isBlank c = true →
      (⟨x ++ String.singleton c ++ y⟩ : WrittenType).erased = (⟨x ++ y⟩ : WrittenType).erased) ∧
    (∀ x y : String, Balanced x.toList → (⟨x ++ y⟩ : WrittenType).erased =
      (⟨x⟩ : WrittenType).erased ++ (⟨y⟩ : WrittenType).erased) ∧
    (∀ x : String, (∀ c ∈ x.toList, c ≠ '<' ∧ c ≠ '>' ∧ isBlank c = false) →
      (⟨x⟩ : WrittenType).erased = x) ∧
    (∀ t : WrittenType, (∀ c ∈ t.erased.toList, c ≠ '<' ∧ c ≠ '>' ∧ isBlank c = false) ∧
      (⟨t.erased⟩ : WrittenType).erased = t.erased) ∧
    ∀ m m' : MethodDecl, m.name = m'.name →
      List.Forall₂ (fun p p' => Respelled p.type p'.type) m.params m'.params →
        m.erasedSignature = m'.erasedSignature ∧
          ∀ (t : TypeDecl) (position : Position), ⟨m, position⟩ ∈ t.methods →
            ∃ found ∈ t.methods, t.findMethod? m'.erasedSignature = some found ∧
              found.node.erasedSignature = m'.erasedSignature := by
  refine ⟨fun x g y hg => erased_insert_arguments x y hg,
    fun x y c hc => erased_insert_blank x y hc, fun x y hx => erased_append hx y,
    fun x h => erased_eq_self h, fun t => ⟨t.isKept_of_mem_erased, ?_⟩,
    fun m m' hname hparams => ?_⟩
  · exact erased_eq_self t.isKept_of_mem_erased
  · have hsignature := MethodDecl.erasedSignature_eq_of_respelled hname hparams
    refine ⟨hsignature, fun t position hm => ?_⟩
    have hfinds : (t.findMethod? m'.erasedSignature).isSome = true :=
      TypeDecl.isSome_findMethod?_iff.2 ⟨_, hm, hsignature⟩
    -- it may be another method that is found, but it is one of the same erased signature
    obtain ⟨found, hfound⟩ := Option.isSome_iff_exists.1 hfinds
    obtain ⟨hmem, hkey⟩ := TypeDecl.findMethod?_sound hfound
    exact ⟨found, hmem, hfound, hkey⟩

end WrittenType

/-! An argument list with another one in it, put into a text whose last bracket closes nothing, and
a no-break space. -/

namespace Spelled

def short : MethodDecl := { name := "foo", params := [⟨"p", ⟨"Map[]>"⟩, []⟩] }

def long : MethodDecl := { name := "foo", params := [⟨"q", ⟨"Map<K,List<V>>\u00a0[]>"⟩, []⟩] }

/-- A class that declares the long one. -/
def declaring : TypeDecl := { name := "test.T", kind := .classKind, methods := [⟨long, .atLine 4⟩] }

theorem balanced_arguments : Balanced "K,List<V>".toList := by
  have houter : Balanced "K,List".toList := balanced_of_plain (by simp)
  have hinner : Balanced ['V'] := balanced_of_plain (by simp)
  exact houter.append (.group hinner .nil)

theorem respelled : WrittenType.Respelled ⟨"Map[]>"⟩ ⟨"Map<K,List<V>>\u00a0[]>"⟩ :=
  .trans _ _ _ (.rel _ _ (.arguments "Map" "K,List<V>" "[]>" balanced_arguments))
    (.rel _ _ (.blank "Map<K,List<V>>" "[]>" (c := '\u00a0') (by decide)))

/-- Inside an open list the arguments make no difference either, behind a balanced text erasure
starts afresh, and the class finds its method under the signature of the short one. -/
theorem long_found_for_short :
    (⟨"A<B" ++ "<" ++ "K,List<V>" ++ ">" ++ "C>[]"⟩ : WrittenType).erased =
        (⟨"A<B" ++ "C>[]"⟩ : WrittenType).erased ∧
      (⟨"A>" ++ "\u3000" ++ "<B"⟩ : WrittenType).erased =
        (⟨"A>" ++ "<B"⟩ : WrittenType).erased ∧
      (⟨"K,List<V>" ++ ">[]"⟩ : WrittenType).erased =
        (⟨"K,List<V>"⟩ : WrittenType).erased ++ (⟨">[]"⟩ : WrittenType).erased ∧
      (⟨"int[]"⟩ : WrittenType).erased = "int[]" ∧
      long.erasedSignature = short.erasedSignature ∧
      ∃ found, declaring.findMethod? short.erasedSignature = some found ∧
        found.node.erasedSignature = ⟨"foo", ["Map[]"]⟩ := by
  obtain ⟨harguments, hblank, happend, hkept, -, hmethods⟩ := WrittenType.erased_exact
  have hparams : List.Forall₂ (fun p p' => WrittenType.Respelled p.type p'.type)
      long.params short.params := .cons (.symm _ _ respelled) .nil
  obtain ⟨hsignature, hfind⟩ := hmethods long short rfl hparams
  obtain ⟨found, -, hfound, hkey⟩ := hfind declaring (.atLine 4) List.mem_cons_self
  exact ⟨harguments "A<B" "K,List<V>" "C>[]" balanced_arguments,
    hblank "A>" "<B" '\u3000' (by decide), happend "K,List<V>" ">[]" balanced_arguments,
    hkept "int[]" (by simp [isBlank]), hsignature, found, hfound, hkey.trans (by decide)⟩

end Spelled

end OverrideCheck
