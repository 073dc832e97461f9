/-
Layering ignore configurations: the overlay only adds. Ids and globs are united, and a layer that
hides every issue of a linter leaves that linter hidden as a whole, without file rules. The linters
of a merge are those of the base followed by the new ones of the overlay.
-/
import LintEngine.Ignore.Config

namespace LintEngine

/-- Adds the globs of `overlay` to those of `base`, id by id. -/
def uniteGlobs (base overlay : OrderedMap String (OrderedSet String)) :
    OrderedMap String (OrderedSet String) :=
  overlay.toList.foldl (fun acc p => acc.alter p.1 fun old => (old.getD ∅) ∪ p.2) base

/-- The spec that hides what either hides. -/
def IgnoreSpec.merge (base overlay : IgnoreSpec) : IgnoreSpec :=
  match base.ids, overlay.ids with
  | .only a, .only b => ⟨.only (a ∪ b), uniteGlobs base.byFilename overlay.byFilename⟩
  | _, _ => IgnoreSpec.everything

/-- The spec on top of the one that a linter has so far, if it has one. -/
def IgnoreSpec.onTop (s : IgnoreSpec) : Option IgnoreSpec → IgnoreSpec
  | none => s.canonical
  | some old => old.merge s

namespace IgnoreConfig

def addSpec (c : IgnoreConfig) (linter : String) (s : IgnoreSpec) : IgnoreConfig :=
  c.alter linter s.onTop

/-- The configuration that hides what either hides: `overlay` layered on top of `base`. -/
def merge (base overlay : IgnoreConfig) : IgnoreConfig :=
  overlay.toList.foldl (fun acc p => addSpec acc p.1 p.2) (canonical base)

end IgnoreConfig

end LintEngine
