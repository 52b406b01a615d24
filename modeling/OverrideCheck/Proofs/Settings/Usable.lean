import Mathlib.Data.List.TakeWhile
import Mathlib.Tactic.Choose
import OverrideCheck.Files
import OverrideCheck.Proofs.Settings.Given

/-!
# Usable settings

Settings with a blank name, or with one name for both parameter markers, would switch the check off
without a word: no annotation bears a blank name, and a parameter with both markers is a type
carrier. So a settings file is held to that when it is read. What it says is checked name by name
and completed on the way, and the markers are compared at the end, when one of them may be the
default of the other.

* `trimmed` — a text without the blanks around it, and with it what a blank name is;
* `GivenSettings.completed` — given settings with the defaults for what is not given;
* `GivenSettings.FirstBlank` — the key of the first blank name;
* `GivenSettings.ofGiven?_eq_ok_iff`, `GivenSettings.ofGiven?_eq_error_iff` — given settings are
  completed if they are acceptable, and else refused for the first blank name or for their markers;
* `Settings.Usable`, `GivesUsable` — settings that can be worked with, and a computation that gives
  no others;
* `settings_usable` — which files are accepted, what comes of them and of what the others are
  accused.
-/

namespace OverrideCheck

/-! ### Blank names -/

/-- A text without the blanks at its start and at its end. -/
def trimmed (text : String) : List Char := trimBlankEnd (text.toList.dropWhile isBlank)

/-- A text holds blanks only exactly when nothing is left of it without those around it. -/
theorem isBlankText_iff {text : String} : isBlankText text = true ↔ trimmed text = [] := by
  rw [isBlankText, List.all_eq_true, trimmed, trimBlankEnd, List.reverse_eq_nil_iff,
    List.dropWhile_eq_nil_iff]
  constructor
  · intro h c hc
    exact h c ((List.dropWhile_suffix _).subset (List.mem_reverse.1 hc))
  · -- if what is left at the front is blank throughout, then so is what was taken off there
    intro h c hc
    rw [← List.takeWhile_append_dropWhile (p := isBlank) (l := text.toList), List.mem_append] at hc
    rcases hc with hc | hc
    · exact List.mem_takeWhile_imp hc
    · exact h c (List.mem_reverse.2 hc)

namespace GivenNames

variable {n : GivenNames}

/-- The names that must not be blank if they are given, with their keys, in the order in which they
are looked at. -/
def required (n : GivenNames) : List (String × Option String) :=
  [("rebind", n.rebind), ("type_param", n.typeParam), ("rebind_param", n.rebindParam),
    ("type_member", n.typeMember)]

/-- The given names, with the defaults for those that are not given. -/
def completed (n : GivenNames) : AnnotationNames :=
  let default : AnnotationNames := {}
  { rebind := n.rebind.getD default.rebind
    typeParam := n.typeParam.getD default.typeParam
    rebindParam := n.rebindParam.getD default.rebindParam
    typeMember := n.typeMember.getD default.typeMember
    defaultType := n.defaultType }

/-- A name is given under a key and is blank. -/
def blankAt (entry : String × Option String) : Bool := entry.2.any isBlankText

/-- The key of the first blank name. -/
def firstBlank? (n : GivenNames) : Option String := (n.required.find? blankAt).map (·.1)

end GivenNames

/-- A name that may be given is refused if it is blank. -/
theorem givenName_eq (key : String) (given : Option String) (default : String) :
    givenName key given default =
      if given.any isBlankText then .error (.blankName key) else .ok (given.getD default) := by
  cases given with
  | none => rfl
  | some name => rfl

/-- Given names are refused for the first blank one, and else completed. -/
theorem AnnotationNames.ofGiven?_eq (n : GivenNames) :
    ofGiven? n = match n.firstBlank? with
      | some key => .error (.blankName key)
      | none => .ok n.completed := by
  simp only [ofGiven?, givenName_eq, GivenNames.firstBlank?, GivenNames.required,
    List.find?_cons, GivenNames.blankAt, List.find?_nil]
  -- the names are looked at in turn, and the first blank one ends it
  cases n.rebind.any isBlankText
  · cases n.typeParam.any isBlankText
    · cases n.rebindParam.any isBlankText
      · cases n.typeMember.any isBlankText
        · rfl
        · rfl
      · rfl
    · rfl
  · rfl

namespace GivenSettings

/-- The given settings, with the defaults for all that is not given. A table that is not given says
nothing of any of its keys. -/
def completed (g : GivenSettings) : Settings :=
  let validation := g.validation.getD {}
  { names := (g.names.getD {}).completed
    unspecified := validation.unspecified.getD .allow
    parallel := validation.parallel.getD true }

/-- `key` is the key of the first blank name: one is given there, and those that are given under
the keys before it are not blank. -/
def FirstBlank (g : GivenSettings) (key : String) : Prop :=
  ∃ before name after, (g.names.getD {}).required = before ++ (key, some name) :: after ∧
    trimmed name = [] ∧ ∀ k n, (k, some n) ∈ before → trimmed n ≠ []

/-- The first blank name is the one that is found. -/
theorem firstBlank_iff {g : GivenSettings} {key : String} :
    g.FirstBlank key ↔ (g.names.getD {}).firstBlank? = some key := by
  simp only [GivenNames.firstBlank?, Option.map_eq_some_iff, List.find?_eq_some_iff_append]
  constructor
  · rintro ⟨before, name, after, hsplit, hblank, hbefore⟩
    refine ⟨(key, some name), ⟨isBlankText_iff.2 hblank, before, after, hsplit, ?_⟩, rfl⟩
    -- a name that is not given is not blank either
    rintro ⟨k, _ | n⟩ hn
    · rfl
    · have hnot := mt isBlankText_iff.1 (hbefore k n hn)
      simpa [GivenNames.blankAt] using hnot
  · rintro ⟨⟨k, given⟩, ⟨hblank, before, after, hsplit, hbefore⟩, rfl⟩
    -- only what is given can be blank
    obtain ⟨name, rfl, hname⟩ : ∃ name, given = some name ∧ isBlankText name = true := by
      cases given with
      | none => cases hblank
      | some name => exact ⟨name, rfl, hblank⟩
    refine ⟨before, name, after, hsplit, isBlankText_iff.1 hname, fun k n hn => ?_⟩
    have hnot := hbefore _ hn
    rw [Ne, ← isBlankText_iff]
    simpa [GivenNames.blankAt] using hnot

end GivenSettings

/-- Given settings are refused for the first blank name, else for two markers of one name, and else
completed. -/
theorem Settings.ofGiven?_eq (g : GivenSettings) :
    ofGiven? g = match (g.names.getD {}).firstBlank? with
      | some key => .error (.blankName key)
      | none =>
        if g.completed.names.typeParam = g.completed.names.rebindParam then
          .error (.sameMarkers g.completed.names.typeParam)
        else .ok g.completed := by
  -- a table that is not given is one in which nothing is given
  have hnames : ofGiven? g = ofGiven? ⟨some (g.names.getD {}), g.validation⟩ := by
    obtain ⟨names, validation⟩ := g
    cases names with
    | none => rfl
    | some names => rfl
  rw [hnames]
  change (AnnotationNames.ofGiven? (g.names.getD {}) >>= _) = _
  rw [AnnotationNames.ofGiven?_eq]
  cases (g.names.getD {}).firstBlank? with
  | some key => rfl
  | none =>
    show (if g.completed.names.typeParam = g.completed.names.rebindParam then _ else _) = _
    split
    · rfl
    · rfl

/-! ### Accepted settings -/

namespace Settings

/-- Settings that can be worked with: no name is blank, and no annotation is ever found for both
parameter markers. -/
structure Usable (s : Settings) : Prop where
  rebind : trimmed s.names.rebind ≠ []
  typeParam : trimmed s.names.typeParam ≠ []
  rebindParam : trimmed s.names.rebindParam ≠ []
  typeMember : trimmed s.names.typeMember ≠ []
  markers : ∀ annotations a, findAnnotation? s.names.typeParam annotations = some a →
    findAnnotation? s.names.rebindParam annotations ≠ some a

/-- What is found under a name bears that name, so two names find different annotations. -/
theorem markers_of_ne {s t : String} (h : s ≠ t) (annotations : List Annotation) (a : Annotation)
    (hs : findAnnotation? s annotations = some a) : findAnnotation? t annotations ≠ some a := by
  intro ht
  have hname : a.name = s := by simpa using List.find?_some hs
  have hname' : a.name = t := by simpa using List.find?_some ht
  exact h (hname.symm.trans hname')

/-- The defaults can be worked with. -/
theorem usable_default : ({} : Settings).Usable where
  rebind := by decide
  typeParam := by decide
  rebindParam := by decide
  typeMember := by decide
  markers := markers_of_ne (by decide)

end Settings

namespace GivenSettings

variable {g : GivenSettings}

/-- Given settings that are accepted: no name that is given is blank, and the markers differ when
the defaults are taken for those that are not given. -/
structure Acceptable (g : GivenSettings) : Prop where
  names : ∀ key name, (key, some name) ∈ (g.names.getD {}).required → trimmed name ≠ []
  markers : g.completed.names.typeParam ≠ g.completed.names.rebindParam

/-- There is a first blank name unless no name is blank. -/
theorem firstBlank?_eq_none_iff : (g.names.getD {}).firstBlank? = none ↔
    ∀ key name, (key, some name) ∈ (g.names.getD {}).required → trimmed name ≠ [] := by
  rw [GivenNames.firstBlank?, Option.map_eq_none_iff, List.find?_eq_none]
  constructor
  · intro h key name hmem hblank
    exact h _ hmem (isBlankText_iff.2 hblank)
  · rintro h ⟨key, given⟩ hmem hblank
    cases given with
    | none => cases hblank
    | some name => exact h key name hmem (isBlankText_iff.1 hblank)

/-- The settings are accused of `problem`: of the first blank name if there is one, also when the
markers are the same, and else of the markers. -/
inductive AccusedOf (g : GivenSettings) : SettingsProblem → Prop
  | blankName {key : String} (h : g.FirstBlank key) : g.AccusedOf (.blankName key)
  | sameMarkers (hnames : ∀ key, ¬ g.FirstBlank key)
      (hmarkers : g.completed.names.typeParam = g.completed.names.rebindParam) :
      g.AccusedOf (.sameMarkers g.completed.names.typeParam)

/-- What comes of given settings is what they are completed to, if they are acceptable. -/
theorem ofGiven?_eq_ok_iff {s : Settings} :
    Settings.ofGiven? g = .ok s ↔ g.Acceptable ∧ s = g.completed := by
  rw [Settings.ofGiven?_eq]
  -- acceptable settings are those that pass both checks, the names first
  cases hblank : (g.names.getD {}).firstBlank? with
  | some key =>
    have hnot : ¬ g.Acceptable := fun h => by
      simp [firstBlank?_eq_none_iff.2 h.names] at hblank
    simp [hnot]
  | none =>
    have hnames := firstBlank?_eq_none_iff.1 hblank
    by_cases hmarkers : g.completed.names.typeParam = g.completed.names.rebindParam
    · have hnot : ¬ g.Acceptable := fun h => h.markers hmarkers
      simp [hmarkers, hnot]
    · have hyes : g.Acceptable := ⟨hnames, hmarkers⟩
      simp [hmarkers, hyes, eq_comm]

/-- Given settings are refused for what they are accused of. -/
theorem ofGiven?_eq_error_iff {problem : SettingsProblem} :
    Settings.ofGiven? g = .error problem ↔ g.AccusedOf problem := by
  rw [Settings.ofGiven?_eq]
  constructor
  · intro h
    cases hblank : (g.names.getD {}).firstBlank? with
    | some key =>
      rw [hblank] at h
      obtain rfl := Except.error.inj h
      exact .blankName (firstBlank_iff.2 hblank)
    | none =>
      rw [hblank] at h
      -- the markers are looked at when no name was found blank
      have hnone (key : String) : ¬ g.FirstBlank key := by simp [firstBlank_iff, hblank]
      dsimp only at h
      split at h
      · next hmarkers =>
        obtain rfl := Except.error.inj h
        exact .sameMarkers hnone hmarkers
      · cases h
  · rintro (hblank | ⟨hnone, hmarkers⟩)
    · rw [firstBlank_iff.1 hblank]
    · have hblank : (g.names.getD {}).firstBlank? = none :=
        Option.eq_none_iff_forall_ne_some.2 fun key => mt firstBlank_iff.2 (hnone key)
      simp [hblank, hmarkers]

/-- A name that is given or else the default is not blank if neither is. -/
theorem trimmed_getD_ne_nil {given : Option String} {default : String}
    (hgiven : ∀ name, given = some name → trimmed name ≠ []) (hdefault : trimmed default ≠ []) :
    trimmed (given.getD default) ≠ [] := by
  cases given with
  | none => exact hdefault
  | some name => exact hgiven name rfl

/-- Acceptable settings can be worked with when they are completed. -/
theorem Acceptable.usable (h : g.Acceptable) : g.completed.Usable where
  rebind := trimmed_getD_ne_nil (fun name hname => h.names "rebind" name (by
    simp [GivenNames.required, hname])) Settings.usable_default.rebind
  typeParam := trimmed_getD_ne_nil (fun name hname => h.names "type_param" name (by
    simp [GivenNames.required, hname])) Settings.usable_default.typeParam
  rebindParam := trimmed_getD_ne_nil (fun name hname => h.names "rebind_param" name (by
    simp [GivenNames.required, hname])) Settings.usable_default.rebindParam
  typeMember := trimmed_getD_ne_nil (fun name hname => h.names "type_member" name (by
    simp [GivenNames.required, hname])) Settings.usable_default.typeMember
  markers := Settings.markers_of_ne h.markers

end GivenSettings

/-- Settings that are read from a text can be worked with. -/
theorem Settings.usable_of_parse {text : String} {s : Settings} (h : parse text = .ok s) :
    s.Usable := by
  rw [parse] at h
  split at h
  · cases h
  · split at h
    · cases h
    · obtain ⟨hacceptable, rfl⟩ := GivenSettings.ofGiven?_eq_ok_iff.1 h
      exact hacceptable.usable

/-! ### Settings from files -/

section Files

variable {m : Type → Type} [Monad m] [LawfulMonad m]

/-- A computation gives no settings but such as can be worked with: it is one that gives settings
together with the evidence, from which the evidence is taken off. -/
def GivesUsable (x : m (Except Failure Settings)) : Prop :=
  ∃ y : m (Except Failure (Subtype Settings.Usable)), Except.map Subtype.val <$> y = x

theorem GivesUsable.pure {r : Except Failure Settings} (h : ∀ s, r = .ok s → s.Usable) :
    GivesUsable (Pure.pure r : m _) := by
  cases r with
  | error failure => exact ⟨Pure.pure (.error failure), map_pure _ _⟩
  | ok s => exact ⟨Pure.pure (.ok ⟨s, h s rfl⟩), map_pure _ _⟩

/-- Whatever a computation gives, what is done with it gives settings that can be worked with. -/
theorem GivesUsable.bind {α : Type} (x : m α) {f : α → m (Except Failure Settings)}
    (h : ∀ a, GivesUsable (f a)) : GivesUsable (x >>= f) := by
  -- the evidence is chosen for each value that may be given
  choose g hg using h
  exact ⟨x >>= g, by rw [map_bind, funext hg]⟩

theorem givesUsable_loadSettings (files : FileAccess m) (path : String) :
    GivesUsable (loadSettings files path) := by
  refine GivesUsable.bind _ fun r => ?_
  cases r with
  | error problem => exact GivesUsable.pure (by simp)
  | ok text =>
    exact GivesUsable.pure fun s hs => Settings.usable_of_parse (mapError_eq_ok_iff.1 hs)

theorem givesUsable_discoverSettings (files : FileAccess m) (folder : String) :
    GivesUsable (discoverSettings files folder) := by
  refine GivesUsable.bind _ fun found => ?_
  cases found with
  | some path => exact givesUsable_loadSettings files path
  | none =>
    refine GivesUsable.pure fun s hs => ?_
    obtain rfl := Except.ok.inj hs
    exact Settings.usable_default

end Files

/-- **Every accepted settings file is usable, and says what it gives or else the default.** A text
that is a document of known keys is accepted exactly when no given name is blank and the markers
differ, defaults included; what comes of it is what it gives under its keys, and the default for
each key that is absent. It is refused, with the path it was read from, for the first blank name,
and for its markers only if no name is blank. So settings that come from a text, from a file or from
the search for a file can always be worked with, whatever files there are. -/
theorem settings_usable (text path : String) :
    (∀ entries given, Toml.parse? text = some entries → decodeSettings entries = .ok given →
      given.TakenFrom entries ∧
      (∀ s, (Settings.parse text).mapError (Failure.settings path) = .ok s ↔
        given.Acceptable ∧ s = given.completed) ∧
      ∀ failure, (Settings.parse text).mapError (Failure.settings path) = .error failure ↔
        ∃ problem, given.AccusedOf problem ∧ failure = .settings path problem) ∧
    (∀ s, (Settings.parse text).mapError (Failure.settings path) = .ok s → s.Usable) ∧
    ∀ (m : Type → Type) [Monad m] [LawfulMonad m] (files : FileAccess m),
      GivesUsable (loadSettings files path) ∧ GivesUsable (discoverSettings files path) := by
  refine ⟨fun entries given hparse hdecode => ?_, fun s hs => ?_, fun m _ _ files =>
    ⟨givesUsable_loadSettings files path, givesUsable_discoverSettings files path⟩⟩
  · have hread : Settings.parse text = Settings.ofGiven? given := by
      rw [Settings.parse, hparse]
      dsimp only
      rw [hdecode]
    refine ⟨takenFrom_of_decodeSettings hdecode, fun s => ?_, fun failure => ?_⟩
    · rw [mapError_eq_ok_iff, hread]
      exact GivenSettings.ofGiven?_eq_ok_iff
    · rw [mapError_eq_error_iff, hread]
      exact exists_congr fun problem => and_congr GivenSettings.ofGiven?_eq_error_iff eq_comm
  · exact Settings.usable_of_parse (mapError_eq_ok_iff.1 hs)

/-! ### A marker that is the default of the other -/

namespace Marked

/-- A family whose type marker bears the default name of the other marker. -/
def clashing : String :=
  "[annotations]\nrebind = \"my.Rebind\"\n" ++
    "type_param = \"com.google.gwt.core.shared.Rebind.Param\"\n"

/-- The same with a blank name further on. -/
def blank : String := clashing ++ "type_member = \" \"\n"

/-- What the first of the files gives. -/
def given : GivenSettings where
  names := some
    { rebind := some "my.Rebind", typeParam := some "com.google.gwt.core.shared.Rebind.Param" }

/-- What the second one gives. -/
def givenBlank : GivenSettings where
  names := given.names.map fun names => { names with typeMember := some " " }

/-- A document that reads as given settings is there, and says these. -/
theorem reads (text : String) (g : GivenSettings)
    (h : ((Toml.parse? text).bind fun e => (decodeSettings e).toOption) = some g) :
    ∃ entries, Toml.parse? text = some entries ∧ decodeSettings entries = .ok g := by
  obtain ⟨entries, hentries, hgiven⟩ := Option.bind_eq_some_iff.1 h
  cases hdecode : decodeSettings entries with
  | error refusal => simp [hdecode, Except.toOption] at hgiven
  | ok g' => exact ⟨entries, hentries, by simpa [hdecode, Except.toOption] using hgiven⟩

/-- The markers are looked at with the default for the one that is not given, and the blank name
comes before them. -/
theorem blank_before_markers :
    (Settings.parse clashing).mapError (Failure.settings "rebind.toml") = .error
      (.settings "rebind.toml" (.sameMarkers "com.google.gwt.core.shared.Rebind.Param")) ∧
    (Settings.parse blank).mapError (Failure.settings "rebind.toml") = .error
      (.settings "rebind.toml" (.blankName "type_member")) := by
  constructor
  · obtain ⟨entries, hparse, hdecode⟩ := reads clashing given (by decide +kernel)
    have hnone (key : String) : ¬ given.FirstBlank key := by
      have hblank : (given.names.getD {}).firstBlank? = none := by decide
      simp [GivenSettings.firstBlank_iff, hblank]
    exact (((settings_usable clashing "rebind.toml").1 entries given hparse hdecode).2.2 _).2
      ⟨_, .sameMarkers hnone rfl, rfl⟩
  · obtain ⟨entries, hparse, hdecode⟩ := reads blank givenBlank (by decide +kernel)
    have hfirst : givenBlank.FirstBlank "type_member" := GivenSettings.firstBlank_iff.2 (by decide)
    exact (((settings_usable blank "rebind.toml").1 entries givenBlank hparse hdecode).2.2 _).2
      ⟨_, .blankName hfirst, rfl⟩

end Marked

end OverrideCheck
