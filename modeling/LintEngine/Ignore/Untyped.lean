/-
Ignore configurations from values of unknown shape, such as a document maps linters to:

    some.linter:
      ids: "*"              # or one id, or a list of ids
      by_filename:
        ID: "*.md"          # or a list of globs

Every value gives a configuration: what has not the expected shape counts as absent.
-/
import LintEngine.Ignore.Config
import LintEngine.Value

namespace LintEngine

/-- The ids that a value names: the text `*` means all of them. -/
def IgnoredIds.ofValue (v : Value) : IgnoredIds :=
  if v.text? = some wildcard then .all else .only (OrderedSet.ofList v.texts)

/-- The globs that a value lists under each id; nothing unless the value is a mapping. -/
def globsOfValue (v : Value) : OrderedMap String (OrderedSet String) :=
  OrderedMap.ofList (v.entries.map fun e => (e.1, OrderedSet.ofList e.2.texts))

def IgnoreSpec.ofValue (v : Value) : IgnoreSpec :=
  match IgnoredIds.ofValue (v.get "ids") with
  | .all => IgnoreSpec.everything
  | .only ids => ⟨.only ids, globsOfValue (v.get "by_filename")⟩

/-- The configuration that a value describes: one spec for each entry that is a mapping. -/
def IgnoreConfig.ofValue (v : Value) : IgnoreConfig :=
  OrderedMap.ofList ((v.entries.filter (·.2.isMapping)).map fun e => (e.1, IgnoreSpec.ofValue e.2))

end LintEngine
