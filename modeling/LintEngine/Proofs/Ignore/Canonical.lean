/-
Canonical configurations. However a configuration is built, from a document, from rules, by layering one
on top of another or by loading what a project holds, it lists no linter, id or glob twice, and a linter
that is hidden as a whole has no file rules. One change of one linter preserves this
(`IsCanonical.alter`), and so does any command in a session (`Session.step_isCanonical`). Main statement:
`built_configs_wellFormed`.
-/
import LintEngine.Ignore.Untyped
import LintEngine.Proofs.Ignore.Layers
import LintEngine.Proofs.Run.Isolation

namespace LintEngine

/-! ## What a configuration looks like -/

/-- A spec lists nothing twice, and has no file rules when it hides everything. -/
structure IgnoreSpec.WellFormed (s : IgnoreSpec) : Prop where
  ids : ∀ ids, s.ids = .only ids → ids.toList.Nodup
  filed : (s.byFilename.toList.map Prod.fst).Nodup
  globs : ∀ p ∈ s.byFilename.toList, p.2.toList.Nodup
  everything : s.ids = .all → s.byFilename.toList = []

/-- A configuration lists no linter twice, and its specs are well formed. -/
structure IgnoreConfig.WellFormed (c : IgnoreConfig) : Prop where
  linters : (c.toList.map Prod.fst).Nodup
  specs : ∀ p ∈ c.toList, p.2.WellFormed

/-- Sets and maps list nothing twice by themselves. -/
theorem IgnoreSpec.wellFormed_iff {s : IgnoreSpec} : s.WellFormed ↔ s.IsCanonical :=
  ⟨fun h hall => OrderedMap.ext (h.everything hall),
    fun h => ⟨fun ids _ => ids.nodup, s.byFilename.nodup, fun p _ => p.2.nodup,
      fun hall => congrArg OrderedMap.toList (h hall)⟩⟩

theorem IgnoreConfig.wellFormed_iff {c : IgnoreConfig} : c.WellFormed ↔ c.IsCanonical :=
  ⟨fun h p hp => IgnoreSpec.wellFormed_iff.1 (h.specs p hp),
    fun h => ⟨c.nodup, fun p hp => IgnoreSpec.wellFormed_iff.2 (h p hp)⟩⟩

/-! ## One spec -/

namespace IgnoreSpec

theorem isCanonical_everything : everything.IsCanonical := fun _ => rfl

theorem isCanonical_only (ids : OrderedSet String) (files : OrderedMap String (OrderedSet String)) :
    IsCanonical ⟨.only ids, files⟩ := by
  rintro ⟨⟩

/-- Layering gives a canonical spec, whatever the layers are. -/
theorem isCanonical_merge (a b : IgnoreSpec) : (a.merge b).IsCanonical := by
  unfold merge
  split
  · exact isCanonical_only _ _
  · exact isCanonical_everything

theorem isCanonical_onTop (s : IgnoreSpec) (old : Option IgnoreSpec) : (s.onTop old).IsCanonical := by
  cases old with
  | none => exact s.isCanonical_canonical
  | some old => exact isCanonical_merge old s

theorem IsCanonical.addRule {s : IgnoreSpec} (h : s.IsCanonical) (r : IgnoreRule) :
    (s.addRule r).IsCanonical := by
  unfold IgnoreSpec.addRule
  split
  · exact isCanonical_everything
  split
  -- a rule for a linter that is hidden as a whole is not taken up
  · exact h
  · exact isCanonical_only _ _
  · rename_i ids _ hids _; intro hall; rw [hids] at hall; cases hall

theorem isCanonical_ofValue (v : Value) : (ofValue v).IsCanonical := by
  unfold ofValue
  split
  · exact isCanonical_everything
  · exact isCanonical_only _ _

theorem hides_canonical_eq (s : IgnoreSpec) (issue : Issue) : s.canonical.hides issue = s.hides issue := by
  obtain ⟨ids, files⟩ := s
  cases ids <;> rfl

end IgnoreSpec

/-! ## Configurations -/

namespace IgnoreConfig

variable {c : IgnoreConfig}

theorem isCanonical_iff_find? :
    c.IsCanonical ↔ ∀ linter s, c.find? linter = some s → s.IsCanonical :=
  ⟨fun h linter s hs => h (linter, s) (OrderedMap.find?_eq_some.1 hs),
    fun h p hp => h p.1 p.2 (OrderedMap.find?_eq_some.2 hp)⟩

theorem isCanonical_empty : IsCanonical ∅ := by
  intro p hp; cases hp

/-- One changed spec leaves a configuration canonical if the spec is so. -/
theorem IsCanonical.alter (h : c.IsCanonical) {linter : String} {f : Option IgnoreSpec → IgnoreSpec}
    (hf : (f (c.find? linter)).IsCanonical) : IsCanonical (c.alter linter f) := by
  rw [isCanonical_iff_find?] at h ⊢
  intro name s hs
  rw [OrderedMap.find?_alter] at hs
  split at hs
  · cases hs; exact hf
  · exact h name s hs

theorem isCanonical_ofList {l : List (String × IgnoreSpec)} (h : ∀ p ∈ l, p.2.IsCanonical) :
    IsCanonical (OrderedMap.ofList l) :=
  List.foldlRecOn l _ isCanonical_empty fun _ hc p hp => IsCanonical.alter hc (h p hp)

theorem isCanonical_ofValue (v : Value) : (ofValue v).IsCanonical := by
  refine isCanonical_ofList fun p hp => ?_
  obtain ⟨e, -, rfl⟩ := List.mem_map.1 hp
  exact IgnoreSpec.isCanonical_ofValue e.2

theorem isCanonical_merge (base overlay : IgnoreConfig) : (base.merge overlay).IsCanonical :=
  List.foldlRecOn overlay.toList _ (isCanonical_canonical base)
    fun _ hc p _ => IsCanonical.alter hc (p.2.isCanonical_onTop _)

theorem IsCanonical.addRule (h : c.IsCanonical) (r : IgnoreRule) : (c.addRule r).IsCanonical := by
  refine h.alter ?_
  cases hold : c.find? r.linter with
  | none => exact (IgnoreSpec.isCanonical_only ∅ ∅).addRule r
  | some old => exact (isCanonical_iff_find?.1 h r.linter old hold).addRule r

theorem isCanonical_ofRules (rules : List IgnoreRule) : (ofRules rules).IsCanonical :=
  List.foldlRecOn rules _ isCanonical_empty fun _ hc r _ => IsCanonical.addRule hc r

theorem isCanonical_foldl_merge (layers : List IgnoreConfig) (h : c.IsCanonical) :
    (layers.foldl merge c).IsCanonical :=
  List.foldlRecOn layers _ h fun c _ e _ => isCanonical_merge c e

theorem isCanonical_rulesFor (project : IgnoreConfig) (cli : Option IgnoreConfig) :
    (Strategies.rulesFor project cli).IsCanonical := by
  cases cli with
  | none => exact isCanonical_merge ∅ project
  | some cli => exact isCanonical_merge _ cli

/-! ### Making a configuration canonical -/

theorem canonical_eq_self_iff : canonical c = c ↔ c.IsCanonical := by
  constructor
  · intro h; rw [← h]; exact isCanonical_canonical c
  · intro h
    have hsame : c.toList.map (fun p => (p.1, p.2.canonical)) = c.toList.map id :=
      List.map_congr_left fun p hp => Prod.ext rfl (IgnoreSpec.canonical_of_isCanonical (h p hp))
    exact OrderedMap.ext (hsame.trans (List.map_id _))

theorem hides_canonical_eq (c : IgnoreConfig) (linter : String) (issue : Issue) :
    (canonical c).hides linter issue = c.hides linter issue := by
  unfold hides canonical
  rw [OrderedMap.find?_mapValues]
  cases c.find? linter with
  | none => rfl
  | some s => exact s.hides_canonical_eq issue

end IgnoreConfig

/-! ## Sessions -/

namespace Session

/-- Loading stores a canonical configuration, and nothing else stores any. -/
theorem step_isCanonical {s : Session} {worker : String}
    (h : (s.worker worker).state.ignores.IsCanonical) (c : Command) :
    ((s.step c).1.worker worker).state.ignores.IsCanonical := by
  cases hload : c.loads worker with
  | false => rw [ignores_step s hload]; exact h
  | true =>
    obtain ⟨dir, cli, rfl⟩ := Command.eq_load_of_loads hload
    rw [worker_step]
    simp only [stateAfter, if_pos]
    exact IgnoreConfig.isCanonical_rulesFor _ cli

theorem after_isCanonical {s : Session} {worker : String}
    (h : (s.worker worker).state.ignores.IsCanonical) (commands : List Command) :
    ((s.after commands).worker worker).state.ignores.IsCanonical := by
  induction commands generalizing s with
  | nil => exact h
  | cons c cs ih => exact ih (step_isCanonical h c)

end Session

/-- Every configuration that is built is well formed: the one that a value describes, the canonical form
of any, the layering of any two, that of a list of rules, that of further files, and what an orchestrator
holds after it has loaded its rules, whatever it does otherwise. The canonical form of a configuration is
the configuration itself just when that is well formed, and it hides the same. -/
theorem built_configs_wellFormed :
    (∀ v, (IgnoreConfig.ofValue v).WellFormed) ∧
    (∀ c, (IgnoreConfig.canonical c).WellFormed) ∧
    (∀ base overlay, (IgnoreConfig.merge base overlay).WellFormed) ∧
    (∀ rules, (IgnoreConfig.ofRules rules).WellFormed) ∧
    (∀ f files paths, IgnoreConfig.WellFormed (IgnoreFile.loadExtra f files paths).2) ∧
    (∀ (s : Strategies) o files dir cli, (s.load o files dir cli).2.ignores.WellFormed) ∧
    (∀ (s : Session) worker, (s.worker worker).state.ignores.WellFormed → ∀ commands,
      ((s.after commands).worker worker).state.ignores.WellFormed) ∧
    (∀ c, IgnoreConfig.canonical c = c ↔ c.WellFormed) ∧
    ∀ c linter issue, (IgnoreConfig.canonical c).hides linter issue = c.hides linter issue := by
  simp only [IgnoreConfig.wellFormed_iff]
  refine ⟨IgnoreConfig.isCanonical_ofValue, IgnoreConfig.isCanonical_canonical,
    IgnoreConfig.isCanonical_merge, IgnoreConfig.isCanonical_ofRules, ?_, ?_, ?_, ?_,
    IgnoreConfig.hides_canonical_eq⟩
  · intro f files paths
    rw [IgnoreFile.loadExtra_eq]
    exact IgnoreConfig.isCanonical_foldl_merge _ IgnoreConfig.isCanonical_empty
  · exact fun s o files dir cli => IgnoreConfig.isCanonical_rulesFor _ cli
  · exact fun s worker h commands => Session.after_isCanonical h commands
  · exact fun c => IgnoreConfig.canonical_eq_self_iff

/-- File rules of a linter that is hidden as a whole do not survive being layered. -/
example :
    let files := OrderedMap.ofList [("X", OrderedSet.ofList ["*.md"])]
    let c : IgnoreConfig := OrderedMap.ofList [("a", ⟨.all, files⟩)]
    IgnoreConfig.merge ∅ c = OrderedMap.ofList [("a", IgnoreSpec.everything)] := by
  decide

end LintEngine
