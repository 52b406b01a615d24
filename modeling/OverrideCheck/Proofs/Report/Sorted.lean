import OverrideCheck.Report.Diagnostic

/-!
# Sorted diagnostics

The diagnostics of a failed unit are those found in it, in order of their positions; those at one
position stand in the order in which they were found. `StableSort` says so without naming a
sorting method, and leaves no choice (`StableSort.unique`). `sortDiagnostics_stableSort` says that
`sortDiagnostics` does it.

An insertion puts a diagnostic before every other one of its position, which is what stability
asks for: the list is sorted from its end, so whatever stands at that position already was found
later (`filter_insertDiagnostic`).
-/

namespace OverrideCheck

/-! ### The order of positions -/

namespace Position

variable {a b c : Position}

/-- A position stands on an earlier line, or on the same line and not in a later column. -/
theorem le_iff : a.le b = true ↔ a.line < b.line ∨ a.line = b.line ∧ a.column ≤ b.column := by
  simp [Position.le]

theorem le_refl (a : Position) : a.le a = true := le_iff.2 (Or.inr ⟨rfl, UInt32.le_refl _⟩)

theorem le_trans (hab : a.le b = true) (hbc : b.le c = true) : a.le c = true := by
  simp only [le_iff, UInt32.lt_iff_toNat_lt, UInt32.le_iff_toNat_le, UInt32.toNat_inj.symm] at *
  omega

theorem le_of_not_le (h : ¬ a.le b = true) : b.le a = true := by
  simp only [le_iff, UInt32.lt_iff_toNat_lt, UInt32.le_iff_toNat_le, UInt32.toNat_inj.symm] at *
  omega

theorem le_antisymm (hab : a.le b = true) (hba : b.le a = true) : a = b := by
  obtain ⟨aline, acolumn⟩ := a
  obtain ⟨bline, bcolumn⟩ := b
  simp only [le_iff, UInt32.lt_iff_toNat_lt, UInt32.le_iff_toNat_le, UInt32.toNat_inj.symm,
    mk.injEq] at *
  omega

end Position

/-- `sorted` lists the diagnostics `found` by line and then by column, and keeps the order of those
at one position. -/
structure StableSort (found sorted : List Diagnostic) : Prop where
  /-- Nothing is lost, added or repeated. -/
  perm : sorted.Perm found
  /-- An earlier diagnostic stands on an earlier line, or on the same line and in no later
  column. -/
  ordered : sorted.Pairwise fun a b => a.position.line < b.position.line ∨
    a.position.line = b.position.line ∧ a.position.column ≤ b.position.column
  /-- The diagnostics of one position keep their order. -/
  stable : ∀ pos, sorted.filter (fun d => d.position = pos) = found.filter fun d => d.position = pos

/-! ### Sorting by insertion -/

/-- An insertion adds the diagnostic and nothing else. -/
theorem insertDiagnostic_perm (d : Diagnostic) (ds : List Diagnostic) :
    (insertDiagnostic d ds).Perm (d :: ds) := by
  induction ds with
  | nil => exact List.Perm.refl _
  | cons other rest ih =>
    rw [insertDiagnostic]
    split
    · exact List.Perm.refl _
    · exact (ih.cons other).trans (List.Perm.swap d other rest)

/-- An insertion keeps the order. -/
theorem insertDiagnostic_ordered (d : Diagnostic) {ds : List Diagnostic}
    (h : ds.Pairwise fun a b => a.position.le b.position = true) :
    (insertDiagnostic d ds).Pairwise fun a b => a.position.le b.position = true := by
  induction ds with
  | nil => exact List.pairwise_singleton _ _
  | cons other rest ih =>
    obtain ⟨hother, hrest⟩ := List.pairwise_cons.1 h
    rw [insertDiagnostic]
    split
    · next hle =>
      refine List.pairwise_cons.2 ⟨fun x hx => ?_, h⟩
      rcases List.mem_cons.1 hx with rfl | hx
      · exact hle
      · exact Position.le_trans hle (hother x hx)
    · next hnot =>
      -- what follows the passed diagnostic is the inserted one or stood behind it before
      refine List.pairwise_cons.2 ⟨fun x hx => ?_, ih hrest⟩
      rcases List.mem_cons.1 ((insertDiagnostic_perm d rest).mem_iff.1 hx) with rfl | hx
      · exact Position.le_of_not_le hnot
      · exact hother x hx

/-- An insertion puts the diagnostic before all others of its position. -/
theorem filter_insertDiagnostic (d : Diagnostic) (ds : List Diagnostic) (pos : Position) :
    (insertDiagnostic d ds).filter (fun x => x.position = pos) =
      (d :: ds).filter fun x => x.position = pos := by
  induction ds with
  | nil => rfl
  | cons other rest ih =>
    rw [insertDiagnostic]
    split
    · rfl
    · next hnot =>
      -- the diagnostic that is passed stands earlier, so it cannot be of the same position
      have hne : ¬ (d.position = pos ∧ other.position = pos) := by
        rintro ⟨hd, ho⟩
        exact hnot (by rw [hd, ho]; exact Position.le_refl pos)
      rw [List.filter_cons, ih]
      by_cases hd : d.position = pos
      · have ho : other.position ≠ pos := fun ho => hne ⟨hd, ho⟩
        simp [hd, ho]
      · simp [List.filter_cons, hd]

/-- Sorting loses, adds and repeats nothing. -/
theorem sortDiagnostics_perm (ds : List Diagnostic) : (sortDiagnostics ds).Perm ds := by
  induction ds with
  | nil => exact List.Perm.refl _
  | cons d rest ih => exact (insertDiagnostic_perm d (sortDiagnostics rest)).trans (ih.cons d)

/-- Sorting brings the positions in order. -/
theorem sortDiagnostics_ordered (ds : List Diagnostic) :
    (sortDiagnostics ds).Pairwise fun a b => a.position.le b.position = true := by
  induction ds with
  | nil => exact List.Pairwise.nil
  | cons d rest ih => exact insertDiagnostic_ordered d ih

/-- Sorting keeps the order of the diagnostics of one position. -/
theorem filter_sortDiagnostics (ds : List Diagnostic) (pos : Position) :
    (sortDiagnostics ds).filter (fun d => d.position = pos) =
      ds.filter fun d => d.position = pos := by
  induction ds with
  | nil => rfl
  | cons d rest ih =>
    rw [show sortDiagnostics (d :: rest) = insertDiagnostic d (sortDiagnostics rest) from rfl,
      filter_insertDiagnostic, List.filter_cons, List.filter_cons, ih]

/-- **Diagnostics are sorted stably by position.** -/
theorem sortDiagnostics_stableSort (ds : List Diagnostic) : StableSort ds (sortDiagnostics ds) where
  perm := sortDiagnostics_perm ds
  ordered := (sortDiagnostics_ordered ds).imp Position.le_iff.1
  stable := filter_sortDiagnostics ds

/-! ### There is one way to sort -/

/-- The first of an ordered list stands no later than any other. -/
theorem head_position_le {x y : Diagnostic} {xs : List Diagnostic}
    (h : (x :: xs).Pairwise fun a b => a.position.le b.position = true) (hy : y ∈ x :: xs) :
    x.position.le y.position = true := by
  rcases List.mem_cons.1 hy with rfl | hrest
  · exact Position.le_refl _
  · exact (List.pairwise_cons.1 h).1 y hrest

/-- Two ordered lists that agree at every position are equal. -/
theorem eq_of_filter_position_eq {xs ys : List Diagnostic}
    (hxs : xs.Pairwise fun a b => a.position.le b.position = true)
    (hys : ys.Pairwise fun a b => a.position.le b.position = true)
    (h : ∀ pos, xs.filter (fun d => d.position = pos) = ys.filter fun d => d.position = pos) :
    xs = ys := by
  have hmem {xs ys : List Diagnostic} (h : ∀ pos, xs.filter (fun d => d.position = pos) =
      ys.filter fun d => d.position = pos) (d : Diagnostic) : d ∈ xs ↔ d ∈ ys := by
    simpa using congrArg (d ∈ ·) (h d.position)
  induction xs generalizing ys with
  | nil =>
    cases ys with
    | nil => rfl
    | cons y ys => exact absurd ((hmem h y).2 List.mem_cons_self) List.not_mem_nil
  | cons x xs ih =>
    cases ys with
    | nil => exact absurd ((hmem h x).1 List.mem_cons_self) List.not_mem_nil
    | cons y ys =>
      -- each head stands no later than the other, so both are the first of one position
      have hxy := head_position_le hxs ((hmem h y).2 List.mem_cons_self)
      have hyx := head_position_le hys ((hmem h x).1 List.mem_cons_self)
      have hpos : y.position = x.position := Position.le_antisymm hyx hxy
      obtain rfl : x = y := by
        have hhead := h x.position
        rw [List.filter_cons_of_pos (by simp), List.filter_cons_of_pos (by simp [hpos])] at hhead
        exact (List.cons.inj hhead).1
      -- what is left agrees too: at this position both lose the same head, elsewhere nothing
      have htail : ∀ pos, xs.filter (fun d => d.position = pos) =
          ys.filter fun d => d.position = pos := by
        intro pos
        have hboth := h pos
        by_cases hx : x.position = pos
        · rw [List.filter_cons_of_pos (by simp [hx]), List.filter_cons_of_pos (by simp [hx])]
            at hboth
          exact (List.cons.inj hboth).2
        · rwa [List.filter_cons_of_neg (by simp [hx]), List.filter_cons_of_neg (by simp [hx])]
            at hboth
      rw [ih hxs.of_cons hys.of_cons htail]

/-- A list of diagnostics has one stable sorting. -/
theorem StableSort.unique {found sorted sorted' : List Diagnostic} (h : StableSort found sorted)
    (h' : StableSort found sorted') : sorted = sorted' :=
  eq_of_filter_position_eq (h.ordered.imp Position.le_iff.2) (h'.ordered.imp Position.le_iff.2)
    fun pos => (h.stable pos).trans (h'.stable pos).symm

/-- What is kept of a stable sorting is a stable sorting of what is kept. -/
theorem StableSort.filter {found sorted : List Diagnostic} (h : StableSort found sorted)
    (f : Diagnostic → Bool) : StableSort (found.filter f) (sorted.filter f) where
  perm := h.perm.filter f
  ordered := h.ordered.filter f
  stable pos := by
    have hswap (ds : List Diagnostic) : (ds.filter f).filter (fun d => d.position = pos) =
        (ds.filter fun d => d.position = pos).filter f := by
      rw [List.filter_filter, List.filter_filter]
      exact List.filter_congr fun d _ => Bool.and_comm _ _
    rw [hswap, h.stable, hswap]

/-- Sorting and keeping some of the diagnostics may be done in either order. -/
theorem filter_sortDiagnostics_comm (f : Diagnostic → Bool) (ds : List Diagnostic) :
    (sortDiagnostics ds).filter f = sortDiagnostics (ds.filter f) :=
  ((sortDiagnostics_stableSort ds).filter f).unique (sortDiagnostics_stableSort _)

end OverrideCheck
