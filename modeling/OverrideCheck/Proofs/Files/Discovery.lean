import Mathlib.Order.Bounds.Defs
import OverrideCheck.Files
import OverrideCheck.Proofs.Files.Names

/-!
# The nearest settings file

The search for settings asks two questions in each folder on the way upwards, whether the settings
file is there and whether the folder is the root of a repository, in this order. So the root of a
repository is still searched, and nothing above it is.

* `Layout`, `Layout.access` — which files there are, and a file system in which the questions are
  answered by that, however texts are read;
* `Layout.Reaches` — the settings file of a folder is within reach;
* `Layout.EndsAt` — the folder in which the search ends early;
* `findSettings_of_isLeast`, `findSettings_of_none` — the search finds the first settings file
  within reach, if there is any;
* `SameBut`, `discoverSettings_congr` — what stands above the folder in which the search ends has no
  part in the result;
* `nearest_settings` — which settings hold in a folder.
-/

namespace OverrideCheck

/-- Which files there are, and what else. -/
structure Layout where
  isFile : String → Bool
  isThere : String → Bool

namespace Layout

/-- A file system with these files, whose texts are read in some way. -/
def access {m : Type → Type} [Monad m] (l : Layout)
    (readText : String → m (Except IoProblem String)) : FileAccess m where
  readText
  isFile path := pure (l.isFile path)
  isThere path := pure (l.isThere path)

/-- A folder has a settings file. -/
def HasSettings (l : Layout) (folder : String) : Prop :=
  l.isFile (joinPath folder settingsFile) = true
deriving Decidable

/-- A folder is the root of a repository. -/
def IsRepository (l : Layout) (folder : String) : Prop :=
  l.isThere (joinPath folder repositoryMark) = true
deriving Decidable

/-- The settings file of folder number `i` is within reach: it is there, and no folder before is the
root of a repository. -/
structure Reaches (l : Layout) (folders : List String) (i : Nat) : Prop where
  there : ∃ d, folders[i]? = some d ∧ l.HasSettings d
  below : ∀ j < i, ∀ d, folders[j]? = some d → ¬ l.IsRepository d

/-- The search ends in folder number `i`: with the first settings file within reach, or, if there is
none, because the folder is the first that is the root of a repository. -/
def EndsAt (l : Layout) (folders : List String) (i : Nat) : Prop :=
  IsLeast {i | l.Reaches folders i} i ∨
    (∀ k, ¬ l.Reaches folders k) ∧ IsLeast {i | ∃ d, folders[i]? = some d ∧ l.IsRepository d} i

variable {l : Layout} {d : String} {rest : List String} {i : Nat}

theorem reaches_cons_zero : l.Reaches (d :: rest) 0 ↔ l.HasSettings d :=
  ⟨fun h => by simpa using h.there, fun h => ⟨⟨d, rfl, h⟩, by simp⟩⟩

/-- Nothing is within reach behind the root of a repository. -/
theorem reaches_cons_succ :
    l.Reaches (d :: rest) (i + 1) ↔ ¬ l.IsRepository d ∧ l.Reaches rest i := by
  constructor
  · intro h
    exact ⟨h.below 0 i.succ_pos d rfl, by simpa using h.there,
      fun j hj e he => h.below (j + 1) (Nat.succ_lt_succ hj) e (by simpa using he)⟩
  · rintro ⟨hd, h⟩
    refine ⟨by simpa using h.there, fun j hj e he => ?_⟩
    -- the first of the folders below is the one that was put in front
    cases j with
    | zero =>
      obtain rfl : d = e := by simpa using he
      exact hd
    | succ j => exact h.below j (Nat.lt_of_succ_lt_succ hj) e (by simpa using he)

end Layout

section Search

variable {m : Type → Type} [Monad m] [LawfulMonad m] {l : Layout}
  {readText : String → m (Except IoProblem String)} {folders : List String}

/-- The search in the first of some folders: a settings file there is found, the root of a
repository ends the search, and else it goes on. -/
theorem findSettings_cons (folder : String) : findSettings (l.access readText) (folder :: folders) =
    if l.HasSettings folder then pure (some (joinPath folder settingsFile))
    else if l.IsRepository folder then pure none
    else findSettings (l.access readText) folders := by
  rw [findSettings, Layout.access]
  simp only [pure_bind]
  rfl

/-- The search finds the first settings file that is within reach. -/
theorem findSettings_of_isLeast {i : Nat} {d : String}
    (h : IsLeast {i | l.Reaches folders i} i) (hd : folders[i]? = some d) :
    findSettings (l.access readText) folders = pure (some (joinPath d settingsFile)) := by
  induction folders generalizing i with
  | nil => simp at hd
  | cons folder rest ih =>
    rw [findSettings_cons]
    cases i with
    | zero =>
      obtain rfl : folder = d := by simpa using hd
      rw [if_pos (Layout.reaches_cons_zero.1 h.1)]
    | succ i =>
      -- neither question ends the search here, and behind it the file is the first one still
      obtain ⟨hmark, hreach⟩ := Layout.reaches_cons_succ.1 h.1
      have hfile : ¬ l.HasSettings folder := fun hfile =>
        Nat.not_succ_le_zero i (h.2 (Layout.reaches_cons_zero.2 hfile))
      rw [if_neg hfile, if_neg hmark]
      refine ih ⟨hreach, fun k hk => ?_⟩ hd
      exact Nat.le_of_succ_le_succ (h.2 (Layout.reaches_cons_succ.2 ⟨hmark, hk⟩))

/-- The search finds nothing if no settings file is within reach. -/
theorem findSettings_of_none (h : ∀ i, ¬ l.Reaches folders i) :
    findSettings (l.access readText) folders = pure none := by
  induction folders with
  | nil => rfl
  | cons folder rest ih =>
    have hfile : ¬ l.HasSettings folder := mt Layout.reaches_cons_zero.2 (h 0)
    rw [findSettings_cons, if_neg hfile]
    -- a repository ends the search without a file, or it goes on
    split
    · rfl
    · next hmark => exact ih fun i hi => h (i + 1) (Layout.reaches_cons_succ.2 ⟨hmark, hi⟩)

variable {folder : String}

/-- What holds in a folder is what the first settings file within reach says. -/
theorem discoverSettings_of_isLeast {i : Nat} {d : String}
    (h : IsLeast {i | l.Reaches (selfAndParents folder) i} i)
    (hd : (selfAndParents folder)[i]? = some d) :
    discoverSettings (l.access readText) folder =
      loadSettings (l.access readText) (joinPath d settingsFile) := by
  rw [discoverSettings, findSettings_of_isLeast h hd, pure_bind]

/-- If no settings file is within reach the defaults hold, and no text is read. -/
theorem discoverSettings_of_none (h : ∀ i, ¬ l.Reaches (selfAndParents folder) i) :
    discoverSettings (l.access readText) folder = pure (.ok {}) := by
  rw [discoverSettings, findSettings_of_none h, pure_bind]

end Search

/-! ### Changes further up -/

/-- Two file systems differ in the settings files of the folders behind number `i` only: elsewhere
they have the same files, and the same texts are read. -/
def SameBut {m : Type → Type} (folders : List String) (i : Nat) (l l' : Layout)
    (readText readText' : String → m (Except IoProblem String)) : Prop :=
  ∀ path, (∀ k d, i < k → folders[k]? = some d → path ≠ joinPath d settingsFile) →
    l'.isFile path = l.isFile path ∧ l'.isThere path = l.isThere path ∧
      readText' path = readText path

section Changes

variable {m : Type → Type} {l l' : Layout}
  {readText readText' : String → m (Except IoProblem String)} {folder : String} {i : Nat}

theorem settingsFile_isName :
    '/' ∉ settingsFile.toList ∧ standsForNothing settingsFile.toList = false := by
  decide

theorem repositoryMark_isName :
    '/' ∉ repositoryMark.toList ∧ standsForNothing repositoryMark.toList = false := by
  decide

/-- The settings file of a folder up to number `i` is not that of a folder behind it. -/
theorem SameBut.settings (h : SameBut (selfAndParents folder) i l l' readText readText') {k : Nat}
    (hk : k ≤ i) {d : String} (hd : (selfAndParents folder)[k]? = some d) :
    (l'.HasSettings d ↔ l.HasSettings d) ∧
      readText' (joinPath d settingsFile) = readText (joinPath d settingsFile) := by
  -- the way upwards never returns, so the folders behind have other names
  obtain ⟨hfile, -, hread⟩ := h (joinPath d settingsFile) fun k' e hk' he =>
    joinPath_ne settingsFile_isName settingsFile_isName
      (Or.inl (pathNames_ne_of_lt (Nat.lt_of_le_of_lt hk hk') hd he))
  exact ⟨by rw [Layout.HasSettings, Layout.HasSettings, hfile], hread⟩

/-- No settings file marks the root of a repository. -/
theorem SameBut.isRepository (h : SameBut (selfAndParents folder) i l l' readText readText')
    (d : String) : l'.IsRepository d ↔ l.IsRepository d := by
  obtain ⟨-, hmark, -⟩ := h (joinPath d repositoryMark) fun _ _ _ _ =>
    joinPath_ne repositoryMark_isName settingsFile_isName (Or.inr (by decide))
  rw [Layout.IsRepository, Layout.IsRepository, hmark]

/-- Up to number `i`, the same settings files are within reach. -/
theorem SameBut.reaches (h : SameBut (selfAndParents folder) i l l' readText readText') {k : Nat}
    (hk : k ≤ i) :
    l'.Reaches (selfAndParents folder) k ↔ l.Reaches (selfAndParents folder) k := by
  constructor
  · rintro ⟨⟨d, hd, hfile⟩, hbelow⟩
    exact ⟨⟨d, hd, (h.settings hk hd).1.1 hfile⟩,
      fun j hj e he => mt (h.isRepository e).2 (hbelow j hj e he)⟩
  · rintro ⟨⟨d, hd, hfile⟩, hbelow⟩
    exact ⟨⟨d, hd, (h.settings hk hd).1.2 hfile⟩,
      fun j hj e he => mt (h.isRepository e).1 (hbelow j hj e he)⟩

/-- What stands above the folder in which the search ends has no part in the result. -/
theorem discoverSettings_congr [Monad m] [LawfulMonad m]
    (hends : l.EndsAt (selfAndParents folder) i)
    (h : SameBut (selfAndParents folder) i l l' readText readText') :
    discoverSettings (l'.access readText') folder =
      discoverSettings (l.access readText) folder := by
  rcases hends with hleast | ⟨hnone, ⟨e, he, hmark⟩, -⟩
  · -- the file that was found is still the first within reach
    obtain ⟨d, hd, -⟩ := hleast.1.there
    have hleast' : IsLeast {i | l'.Reaches (selfAndParents folder) i} i := by
      refine ⟨(h.reaches le_rfl).2 hleast.1, fun k hk => ?_⟩
      by_contra hlt
      have hki := Nat.le_of_not_le hlt
      exact hlt (hleast.2 ((h.reaches hki).1 hk))
    rw [discoverSettings_of_isLeast hleast hd, discoverSettings_of_isLeast hleast' hd]
    show (readText' _ >>= _) = (readText _ >>= _)
    rw [(h.settings le_rfl hd).2]
  · -- the repository still keeps out whatever stands behind its root
    have hnone' (k : Nat) : ¬ l'.Reaches (selfAndParents folder) k := by
      intro hk
      by_cases hki : k ≤ i
      · exact hnone k ((h.reaches hki).1 hk)
      · exact hk.below i (Nat.lt_of_not_le hki) e he ((h.isRepository e).2 hmark)
    rw [discoverSettings_of_none hnone, discoverSettings_of_none hnone']

end Changes

/-- **The nearest settings file inside the repository is used.** The way upwards begins with the
folder and goes on to the parent, which has all the names but the last, until there is none. Of the
folders on it, the first whose settings file is within reach decides, and then the result is that of
loading this file; the folder that holds the mark of a repository is still searched, and none behind
it. If there is no such folder the defaults hold, and no text is read, whatever reading would do.
Files and texts of settings behind the folder in which the search ends never change the result. -/
theorem nearest_settings {m : Type → Type} [Monad m] [LawfulMonad m] (l : Layout)
    (readText : String → m (Except IoProblem String)) (folder : String) :
    ((selfAndParents folder)[0]? = some folder ∧
      ∀ i d, (selfAndParents folder)[i]? = some d →
        (selfAndParents folder)[i + 1]? = parentPath? d ∧ IsParent d (parentPath? d)) ∧
    (∀ i d, IsLeast {i | l.Reaches (selfAndParents folder) i} i →
      (selfAndParents folder)[i]? = some d →
        discoverSettings (l.access readText) folder =
          loadSettings (l.access readText) (joinPath d settingsFile)) ∧
    ((∀ i, ¬ l.Reaches (selfAndParents folder) i) →
      discoverSettings (l.access readText) folder = pure (.ok {})) ∧
    ∀ i, l.EndsAt (selfAndParents folder) i → ∀ l' readText',
      SameBut (selfAndParents folder) i l l' readText readText' →
        discoverSettings (l'.access readText') folder =
          discoverSettings (l.access readText) folder :=
  ⟨⟨getElem?_selfAndParents_zero folder,
      fun _ d hd => ⟨getElem?_selfAndParents_succ hd, isParent_parentPath? d⟩⟩,
    fun _ _ hleast hd => discoverSettings_of_isLeast hleast hd,
    discoverSettings_of_none,
    fun _ hends _ _ hsame => discoverSettings_congr hends hsame⟩

/-! ### A project in a repository -/

/-- The same files and one more. -/
def Layout.adding (l : Layout) (file : String) : Layout where
  isFile path := path = file || l.isFile path
  isThere path := path = file || l.isThere path

namespace Project

/-- A project that is a repository, in a folder with settings for all the work of a user. -/
def layout : Layout where
  isFile path := path = "/work/rebind.toml"
  isThere path := path = "/work/rebind.toml" || path = "/work/app/.git"

/-- The project with settings of its own. -/
def configured : Layout := layout.adding "/work/app/rebind.toml"

/-- Reading that keeps a record of the paths, and finds empty texts. -/
def recorded (path : String) : StateM (List String) (Except IoProblem String) := do
  modify (path :: ·)
  return .ok ""

/-- The sources of the project and the folders above them. -/
theorem upwards :
    selfAndParents "/work/app/src" = ["/work/app/src", "/work/app", "/work", "/"] := by
  decide +kernel

/-- The settings of the project come first. -/
theorem isLeast_configured :
    IsLeast {i | configured.Reaches (selfAndParents "/work/app/src") i} 1 := by
  rw [upwards]
  refine ⟨Layout.reaches_cons_succ.2 ⟨by decide, Layout.reaches_cons_zero.2 (by decide)⟩, ?_⟩
  intro k hk
  cases k with
  | zero => exact absurd (Layout.reaches_cons_zero.1 hk) (by decide)
  | succ k => exact Nat.le_add_left 1 k

/-- Without settings of its own, nothing is within reach of the project. -/
theorem not_reaches_layout (i : Nat) :
    ¬ layout.Reaches (selfAndParents "/work/app/src") i := by
  rw [upwards]
  -- nothing is at the sources, and at the project the repository ends the search
  cases i with
  | zero => exact mt Layout.reaches_cons_zero.1 (by decide)
  | succ i =>
    intro h
    obtain ⟨-, h⟩ := Layout.reaches_cons_succ.1 h
    cases i with
    | zero => exact absurd (Layout.reaches_cons_zero.1 h) (by decide)
    | succ i => exact absurd (by decide) (Layout.reaches_cons_succ.1 h).1

/-- A project with settings uses these, though it is a repository, and new settings at the root do
not change that; without them, the settings above the project are not used, and none are read. -/
theorem project_settings_used :
    discoverSettings (configured.access recorded) "/work/app/src" =
      loadSettings (configured.access recorded) "/work/app/rebind.toml" ∧
    discoverSettings ((configured.adding "/rebind.toml").access recorded) "/work/app/src" =
      discoverSettings (configured.access recorded) "/work/app/src" ∧
    discoverSettings (layout.access recorded) "/work/app/src" = pure (.ok {}) := by
  obtain ⟨-, hfound, -, hsame⟩ := nearest_settings configured recorded "/work/app/src"
  refine ⟨hfound 1 "/work/app" isLeast_configured (by rw [upwards]; rfl),
    hsame 1 (Or.inl isLeast_configured) _ _ fun path hpath => ?_,
    (nearest_settings layout recorded "/work/app/src").2.2.1 not_reaches_layout⟩
  have hroot : path ≠ "/rebind.toml" := hpath 3 "/" (by decide) (by rw [upwards]; rfl)
  simp [Layout.adding, hroot]

end Project

end OverrideCheck
