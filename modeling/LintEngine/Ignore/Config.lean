/-
Ignore configurations: for each linter name, which of its issues are hidden. Either all of them are,
or those with certain ids, and those with certain ids on files that match certain globs. A
configuration is canonical when a linter whose issues are all hidden has no file rules; `canonical`
makes any configuration so. Main statement: `canonical` gives a canonical configuration
(`isCanonical_canonical`).
-/
import LintEngine.Ordered.Map
import LintEngine.Ordered.Set

namespace LintEngine

/-- Which ids of a linter are hidden on every file. -/
inductive IgnoredIds
  | all
  | only (ids : OrderedSet String)
deriving DecidableEq

/-- What is hidden of one linter: ids on every file, and for an id the globs of the files on which
it is hidden. -/
structure IgnoreSpec where
  ids : IgnoredIds := .only ∅
  byFilename : OrderedMap String (OrderedSet String) := ∅
deriving DecidableEq

/-- What is hidden, by linter name. -/
abbrev IgnoreConfig := OrderedMap String IgnoreSpec

/-- The text that stands for every issue of a linter. -/
def wildcard : String := "*"

namespace IgnoreSpec

def empty : IgnoreSpec := {}

def everything : IgnoreSpec := { ids := .all }

/-- A spec that hides everything has no file rules. -/
def IsCanonical (s : IgnoreSpec) : Prop :=
  s.ids = .all → s.byFilename = ∅

instance (s : IgnoreSpec) : Decidable s.IsCanonical :=
  inferInstanceAs (Decidable (s.ids = .all → s.byFilename = ∅))

/-- The same spec without file rules that hide nothing more. -/
def canonical (s : IgnoreSpec) : IgnoreSpec :=
  match s.ids with
  | .all => everything
  | .only _ => s

theorem isCanonical_canonical (s : IgnoreSpec) : s.canonical.IsCanonical := by
  unfold canonical
  split
  · intro; rfl
  · rename_i h; intro h'; rw [h] at h'; cases h'

theorem canonical_of_isCanonical {s : IgnoreSpec} (h : s.IsCanonical) : s.canonical = s := by
  obtain ⟨ids, files⟩ := s
  cases ids with
  | all => have : files = ∅ := h rfl; subst this; rfl
  | only _ => rfl

end IgnoreSpec

namespace IgnoreConfig

def IsCanonical (c : IgnoreConfig) : Prop :=
  ∀ p ∈ c.toList, p.2.IsCanonical

def canonical (c : IgnoreConfig) : IgnoreConfig :=
  c.mapValues IgnoreSpec.canonical

theorem isCanonical_canonical (c : IgnoreConfig) : (canonical c).IsCanonical := by
  intro p hp
  simp only [canonical, OrderedMap.mapValues, List.mem_map] at hp
  obtain ⟨q, -, rfl⟩ := hp
  exact q.2.isCanonical_canonical

end IgnoreConfig

end LintEngine
