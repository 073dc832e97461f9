/-
The algebra of layering. Exactly, the order in which things are listed included, layering is
associative, layering a configuration on itself or on nothing only makes it canonical, and a layer that
is already there adds nothing; in which order two layers come makes no difference but to the order of
what is listed (`merge_isSemilattice`). A rule is a layer with one entry (`addRule_eq_merge`), so that
lists of rules can be folded in parts: `folding_eq_layering`.
-/
import LintEngine.Proofs.Ignore.Canonical
import Mathlib.Data.List.Induction

namespace LintEngine

/-! ## The same up to order -/

/-- Sets that differ at most in the order of their members. -/
def OrderedSet.SameUpToOrder {α : Type} (s t : OrderedSet α) : Prop :=
  s.toList.Perm t.toList

/-- Maps that differ at most in the order of their keys, given when values count as the same. -/
structure OrderedMap.SameUpToOrder {κ ν : Type} [DecidableEq κ] (same : ν → ν → Prop)
    (m n : OrderedMap κ ν) : Prop where
  keys : m.keySet.SameUpToOrder n.keySet
  values : ∀ {k v w}, m.find? k = some v → n.find? k = some w → same v w

inductive IgnoredIds.SameUpToOrder : IgnoredIds → IgnoredIds → Prop
  | all : SameUpToOrder .all .all
  | only {ids ids' : OrderedSet String} (h : ids.SameUpToOrder ids') :
      SameUpToOrder (.only ids) (.only ids')

structure IgnoreSpec.SameUpToOrder (s t : IgnoreSpec) : Prop where
  ids : s.ids.SameUpToOrder t.ids
  files : s.byFilename.SameUpToOrder OrderedSet.SameUpToOrder t.byFilename

/-- Configurations that differ at most in the order of linters, ids, ids with globs, and globs. -/
def IgnoreConfig.SameUpToOrder (c d : IgnoreConfig) : Prop :=
  OrderedMap.SameUpToOrder IgnoreSpec.SameUpToOrder c d

theorem OrderedSet.SameUpToOrder.refl {α : Type} (s : OrderedSet α) : s.SameUpToOrder s :=
  List.Perm.refl s.toList

theorem OrderedSet.union_sameUpToOrder {α : Type} [DecidableEq α] (s t : OrderedSet α) :
    (s ∪ t).SameUpToOrder (t ∪ s) :=
  (List.perm_ext_iff_of_nodup (s ∪ t).nodup (t ∪ s).nodup).2 fun a => by
    simp only [← OrderedSet.mem_def, OrderedSet.mem_union, or_comm]

theorem OrderedMap.SameUpToOrder.refl {κ ν : Type} [DecidableEq κ] {same : ν → ν → Prop}
    (h : ∀ v, same v v) (m : OrderedMap κ ν) : m.SameUpToOrder same m where
  keys := .refl _
  values hv hw := by
    rw [hv] at hw
    cases hw
    exact h _

theorem IgnoreSpec.SameUpToOrder.refl (s : IgnoreSpec) : s.SameUpToOrder s where
  ids := by
    cases s.ids with
    | all => exact .all
    | only ids => exact .only (.refl ids)
  files := .refl OrderedSet.SameUpToOrder.refl s.byFilename

/-! ## Globs -/

section Globs

variable (a b c : OrderedMap String (OrderedSet String))

theorem keySet_uniteGlobs : (uniteGlobs a b).keySet = a.keySet ∪ b.keySet :=
  OrderedMap.keySet_foldl_alter (fun (globs : OrderedSet String) old => (old.getD ∅) ∪ globs) b.toList a

@[simp] theorem empty_uniteGlobs : uniteGlobs ∅ a = a := by
  refine OrderedMap.ext_find? (by simp [keySet_uniteGlobs]) fun id => ?_
  rw [find?_uniteGlobs]
  cases a.find? id <;> simp

theorem uniteGlobs_assoc : uniteGlobs (uniteGlobs a b) c = uniteGlobs a (uniteGlobs b c) := by
  refine OrderedMap.ext_find? (by simp only [keySet_uniteGlobs, OrderedSet.union_assoc]) fun id => ?_
  simp only [find?_uniteGlobs]
  cases b.find? id <;> cases c.find? id <;> simp [OrderedSet.union_assoc]

@[simp] theorem uniteGlobs_self : uniteGlobs a a = a := by
  refine OrderedMap.ext_find? (by simp [keySet_uniteGlobs]) fun id => ?_
  rw [find?_uniteGlobs]
  cases a.find? id <;> simp

@[simp] theorem uniteGlobs_uniteGlobs_left : uniteGlobs (uniteGlobs a b) a = uniteGlobs a b := by
  refine OrderedMap.ext_find? (by simp [keySet_uniteGlobs]) fun id => ?_
  simp only [find?_uniteGlobs]
  cases a.find? id <;> cases b.find? id <;> simp

theorem uniteGlobs_sameUpToOrder :
    (uniteGlobs a b).SameUpToOrder OrderedSet.SameUpToOrder (uniteGlobs b a) where
  keys := by
    rw [keySet_uniteGlobs, keySet_uniteGlobs]
    exact OrderedSet.union_sameUpToOrder ..
  values {id globs globs'} h h' := by
    rw [find?_uniteGlobs] at h h'
    cases ha : a.find? id <;> cases hb : b.find? id <;>
      simp only [ha, hb, Option.getD_none, Option.getD_some, Option.some.injEq, reduceCtorEq,
        OrderedSet.empty_union] at h h'
    · subst h h'; exact .refl _
    · subst h h'; exact .refl _
    · subst h h'; exact OrderedSet.union_sameUpToOrder ..

end Globs

/-! ## Specs -/

/-- What a rule says of its linter when no other one does. -/
def IgnoreRule.spec (r : IgnoreRule) : IgnoreSpec :=
  if r.id = wildcard then .everything
  else
    match r.glob with
    | none => ⟨.only (.ofList [r.id]), ∅⟩
    | some g => ⟨.only ∅, .ofList [(r.id, .ofList [g])]⟩

namespace IgnoreSpec

variable (s t u : IgnoreSpec)

@[simp] theorem canonical_canonical : s.canonical.canonical = s.canonical :=
  canonical_of_isCanonical s.isCanonical_canonical

@[simp] theorem canonical_merge : (s.merge t).canonical = s.merge t :=
  canonical_of_isCanonical (isCanonical_merge s t)

@[simp] theorem merge_everything : s.merge everything = everything := by
  unfold merge everything
  cases s.ids <;> rfl

/-- File rules of a layer that hides everything are lost, whether they are dropped before or not. -/
@[simp] theorem merge_canonical_left : s.canonical.merge t = s.merge t := by
  obtain ⟨ids, files⟩ := s
  cases ids <;> rfl

@[simp] theorem merge_canonical_right : s.merge t.canonical = s.merge t := by
  obtain ⟨ids, files⟩ := t
  cases ids with
  | all =>
    unfold merge canonical everything
    cases s.ids <;> rfl
  | only ids => rfl

theorem merge_assoc : (s.merge t).merge u = s.merge (t.merge u) := by
  obtain ⟨sids, sfiles⟩ := s
  obtain ⟨tids, tfiles⟩ := t
  obtain ⟨uids, ufiles⟩ := u
  -- a layer that hides everything wins in either bracketing
  cases sids with
  | all => rfl
  | only a =>
    cases tids with
    | all => rfl
    | only b =>
      cases uids with
      | all => rfl
      | only c => simp only [merge, OrderedSet.union_assoc, uniteGlobs_assoc]

@[simp] theorem merge_self : s.merge s = s.canonical := by
  obtain ⟨ids, files⟩ := s
  cases ids with
  | all => rfl
  | only a => simp only [merge, canonical, OrderedSet.union_self, uniteGlobs_self]

@[simp] theorem merge_merge_left : (s.merge t).merge s = s.merge t := by
  obtain ⟨sids, sfiles⟩ := s
  obtain ⟨tids, tfiles⟩ := t
  cases sids with
  | all => rfl
  | only a =>
    cases tids with
    | all => rfl
    | only b => simp only [merge, OrderedSet.union_union_left, uniteGlobs_uniteGlobs_left]

@[simp] theorem merge_merge_right : (s.merge t).merge t = s.merge t := by
  rw [merge_assoc, merge_self, merge_canonical_right]

theorem merge_sameUpToOrder : (s.merge t).SameUpToOrder (t.merge s) := by
  obtain ⟨sids, sfiles⟩ := s
  obtain ⟨tids, tfiles⟩ := t
  cases sids with
  | all => cases tids <;> exact .refl everything
  | only a =>
    cases tids with
    | all => exact .refl everything
    | only b => exact ⟨.only (OrderedSet.union_sameUpToOrder a b), uniteGlobs_sameUpToOrder ..⟩

theorem empty_addRule (r : IgnoreRule) : empty.addRule r = r.spec := by
  unfold IgnoreSpec.addRule IgnoreRule.spec
  split
  · rfl
  · cases r.glob <;> rfl

/-- A rule is layered like a spec with that rule alone. -/
theorem IsCanonical.addRule_eq_merge {s : IgnoreSpec} (h : s.IsCanonical) (r : IgnoreRule) :
    s.addRule r = s.merge (empty.addRule r) := by
  unfold IgnoreSpec.addRule
  by_cases hall : r.id = wildcard
  · rw [if_pos hall, if_pos hall, merge_everything]
  rw [if_neg hall, if_neg hall]
  obtain ⟨ids, files⟩ := s
  cases ids with
  | all =>
    have hnone : files = ∅ := h rfl
    subst hnone
    rfl
  | only ids =>
    cases r.glob with
    | none => rfl
    | some g => rfl

theorem isCanonical_empty_addRule (r : IgnoreRule) : (empty.addRule r).IsCanonical :=
  IsCanonical.addRule (isCanonical_only ∅ ∅) r

end IgnoreSpec

/-! ## Configurations -/

namespace IgnoreConfig

section Merge

variable (a b c : IgnoreConfig)

theorem keySet_merge : (a.merge b).keySet = a.keySet ∪ b.keySet := by
  have h : (a.merge b).keySet = (canonical a).keySet ∪ b.keySet :=
    OrderedMap.keySet_foldl_alter IgnoreSpec.onTop b.toList (canonical a)
  rw [h, canonical, OrderedMap.keySet_mapValues]

theorem merge_assoc : (a.merge b).merge c = a.merge (b.merge c) := by
  refine OrderedMap.ext_find? (by simp only [keySet_merge, OrderedSet.union_assoc]) fun linter => ?_
  simp only [find?_merge]
  cases a.find? linter <;> cases b.find? linter <;> cases c.find? linter <;>
    simp [IgnoreSpec.onTop, IgnoreSpec.merge_assoc]

theorem empty_merge : merge ∅ a = canonical a := by
  refine OrderedMap.ext_find? (by simp [keySet_merge, canonical]) fun linter => ?_
  rw [find?_merge, canonical, OrderedMap.find?_mapValues]
  cases a.find? linter <;> simp [IgnoreSpec.onTop]

theorem merge_empty : a.merge ∅ = canonical a := rfl

theorem merge_self : a.merge a = canonical a := by
  refine OrderedMap.ext_find? (by simp [keySet_merge, canonical]) fun linter => ?_
  rw [find?_merge, canonical, OrderedMap.find?_mapValues]
  cases a.find? linter <;> simp [IgnoreSpec.onTop]

theorem merge_merge_left : (a.merge b).merge a = a.merge b := by
  refine OrderedMap.ext_find? (by simp [keySet_merge]) fun linter => ?_
  simp only [find?_merge]
  cases a.find? linter <;> cases b.find? linter <;> simp [IgnoreSpec.onTop]

theorem merge_merge_right : (a.merge b).merge b = a.merge b := by
  refine OrderedMap.ext_find? ?_ fun linter => ?_
  · simp only [keySet_merge, OrderedSet.union_assoc, OrderedSet.union_self]
  · simp only [find?_merge]
    cases a.find? linter <;> cases b.find? linter <;> simp [IgnoreSpec.onTop]

theorem merge_sameUpToOrder : (a.merge b).SameUpToOrder (b.merge a) where
  keys := by
    rw [keySet_merge, keySet_merge]
    exact OrderedSet.union_sameUpToOrder ..
  values {linter s t} h h' := by
    rw [find?_merge] at h h'
    cases ha : a.find? linter <;> cases hb : b.find? linter <;>
      simp only [ha, hb, IgnoreSpec.onTop, Option.map_some, Option.map_none, Option.some.injEq,
        reduceCtorEq, IgnoreSpec.merge_canonical_left] at h h'
    · subst h h'; exact .refl _
    · subst h h'; exact .refl _
    · subst h h'; exact IgnoreSpec.merge_sameUpToOrder ..

end Merge

/-- Layering is a join that remembers order: for all configurations, canonical or not, it is associative;
what is layered on nothing, under nothing or on itself comes out canonical; a layer that is already there
adds nothing; and two layers the other way round give the same up to order. -/
theorem merge_isSemilattice :
    (∀ a b c : IgnoreConfig, (a.merge b).merge c = a.merge (b.merge c)) ∧
    (∀ a : IgnoreConfig, merge ∅ a = canonical a ∧ a.merge ∅ = canonical a ∧ a.merge a = canonical a) ∧
    (∀ a b : IgnoreConfig, (a.merge b).merge a = a.merge b ∧ (a.merge b).merge b = a.merge b) ∧
    ∀ a b : IgnoreConfig, (a.merge b).SameUpToOrder (b.merge a) :=
  ⟨merge_assoc, fun a => ⟨empty_merge a, merge_empty a, merge_self a⟩,
    fun a b => ⟨merge_merge_left a b, merge_merge_right a b⟩, merge_sameUpToOrder⟩

/-- The order does depend on which layer comes first. -/
example :
    let a := ofRules [⟨"first", "A", none⟩]
    let b := ofRules [⟨"second", "B", none⟩]
    (a.merge b).keys = ["first", "second"] ∧ (b.merge a).keys = ["second", "first"] := by
  decide +kernel

/-! ## Rules -/

theorem IsCanonical.addRule_eq_merge {c : IgnoreConfig} (h : c.IsCanonical) (r : IgnoreRule) :
    c.addRule r = c.merge (ofRules [r]) := by
  have hlayer : c.merge (ofRules [r]) =
      (canonical c).alter r.linter (IgnoreSpec.empty.addRule r).onTop := rfl
  rw [hlayer, canonical_eq_self_iff.2 h]
  refine OrderedMap.alter_congr ?_
  cases hold : c.find? r.linter with
  | none => exact (IgnoreSpec.canonical_of_isCanonical (IgnoreSpec.isCanonical_empty_addRule r)).symm
  | some old => exact (isCanonical_iff_find?.1 h r.linter old hold).addRule_eq_merge r

theorem ofRules_concat (rules : List IgnoreRule) (r : IgnoreRule) :
    ofRules (rules ++ [r]) = (ofRules rules).merge (ofRules [r]) := by
  have hlast : ofRules (rules ++ [r]) = (ofRules rules).addRule r := by
    rw [ofRules, List.foldl_append]
    rfl
  rw [hlast, (isCanonical_ofRules rules).addRule_eq_merge]

theorem ofRules_append (rules more : List IgnoreRule) :
    ofRules (rules ++ more) = (ofRules rules).merge (ofRules more) := by
  induction more using List.reverseRecOn with
  | nil =>
    rw [List.append_nil]
    exact (canonical_eq_self_iff.2 (isCanonical_ofRules rules)).symm
  | append_singleton more r ih =>
    rw [← List.append_assoc, ofRules_concat, ih, merge_assoc, ← ofRules_concat]

theorem toList_ofRules_singleton (r : IgnoreRule) : (ofRules [r]).toList = [(r.linter, r.spec)] := by
  have h : (ofRules [r]).toList = [(r.linter, IgnoreSpec.empty.addRule r)] := rfl
  rw [h, IgnoreSpec.empty_addRule]

/-- Folding a list of rules comes to the same as layering what its parts fold to, wherever it is cut: into
two, or into single rules, each of which says one thing of one linter. -/
theorem folding_eq_layering :
    (∀ rules more, ofRules (rules ++ more) = (ofRules rules).merge (ofRules more)) ∧
    (∀ rules : List IgnoreRule, ofRules rules = (rules.map fun r => ofRules [r]).foldl merge ∅) ∧
    ∀ r : IgnoreRule, (ofRules [r]).toList = [(r.linter, r.spec)] := by
  refine ⟨ofRules_append, fun rules => ?_, toList_ofRules_singleton⟩
  induction rules using List.reverseRecOn with
  | nil => rfl
  | append_singleton rules r ih =>
    rw [List.map_append, List.foldl_append, ← ih, ofRules_concat]
    rfl

end IgnoreConfig

end LintEngine
