/-
Layers of ignore rules. The rules in effect hide exactly what the project's rules, one of the further
files or one rule of the command line hides (`load_hides_iff`); in which order files and rules are
given is of no account.
-/
import LintEngine.Command.Lint
import LintEngine.Proofs.Ignore.Decision

namespace LintEngine

/-! ## Globs -/

theorem hasGlob_empty (id g : String) : ¬HasGlob ∅ id g := by
  rintro ⟨globs, h, _⟩; cases h

theorem find?_uniteGlobs (a b : OrderedMap String (OrderedSet String)) (id : String) :
    (uniteGlobs a b).find? id =
      match b.find? id with
      | none => a.find? id
      | some globs => some ((a.find? id).getD ∅ ∪ globs) := by
  have h : (uniteGlobs a b).find? id = _ := OrderedMap.find?_foldl_alter
    (fun (globs : OrderedSet String) old => (old.getD ∅) ∪ globs) b.nodup a id
  rw [h, ← OrderedMap.find?]
  cases b.find? id <;> rfl

theorem hasGlob_uniteGlobs {a b : OrderedMap String (OrderedSet String)} {id g : String} :
    HasGlob (uniteGlobs a b) id g ↔ HasGlob a id g ∨ HasGlob b id g := by
  unfold HasGlob
  rw [find?_uniteGlobs]
  cases ha : a.find? id <;> cases hb : b.find? id <;> simp

theorem hasGlob_alter_insert {a : OrderedMap String (OrderedSet String)} {id id' g g' : String} :
    HasGlob (a.alter id' fun old => (old.getD ∅).insert g') id g ↔
      HasGlob a id g ∨ (id' = id ∧ g' = g) := by
  unfold HasGlob
  rw [OrderedMap.find?_alter]
  by_cases h : id = id'
  · subst h
    cases ha : a.find? id <;> simp [eq_comm]
  · rw [if_neg h]; simp [Ne.symm h]

theorem covers_uniteGlobs {a b : OrderedMap String (OrderedSet String)} {id name : String} :
    Covers (uniteGlobs a b) id name ↔ Covers a id name ∨ Covers b id name := by
  unfold Covers
  simp only [hasGlob_uniteGlobs, or_and_right, exists_or]

theorem covers_alter_insert {a : OrderedMap String (OrderedSet String)} {id id' g name : String} :
    Covers (a.alter id' fun old => (old.getD ∅).insert g) id name ↔
      Covers a id name ∨ (id' = id ∧ (Glob.ofString g).matches? name = .ok true) := by
  unfold Covers
  simp only [hasGlob_alter_insert, or_and_right, exists_or]
  refine or_congr_right ⟨?_, ?_⟩
  · rintro ⟨_, ⟨hid, rfl⟩, hm⟩; exact ⟨hid, hm⟩
  · rintro ⟨hid, hm⟩; exact ⟨g, ⟨hid, rfl⟩, hm⟩

theorem globsCompile_empty : GlobsCompile ∅ :=
  fun id g h => absurd h (hasGlob_empty id g)

theorem GlobsCompile.uniteGlobs {a b : OrderedMap String (OrderedSet String)} (ha : GlobsCompile a)
    (hb : GlobsCompile b) : GlobsCompile (uniteGlobs a b) := by
  intro id g h
  rcases hasGlob_uniteGlobs.1 h with h | h
  · exact ha id g h
  · exact hb id g h

theorem GlobsCompile.alter_insert {a : OrderedMap String (OrderedSet String)} (ha : GlobsCompile a)
    {g : String} (hg : (Glob.ofString g).isValid = true) (id : String) :
    GlobsCompile (a.alter id fun old => (old.getD ∅).insert g) := by
  intro id' g' h
  rcases hasGlob_alter_insert.1 h with h | ⟨-, rfl⟩
  · exact ha id' g' h
  · exact hg

/-! ## The spec of one linter -/

namespace IgnoreSpec

theorem hides_everything (issue : Issue) : everything.Hides issue := trivial

theorem not_hides_empty (issue : Issue) : ¬empty.Hides issue := by
  rintro (h | ⟨g, h, _⟩)
  · exact OrderedSet.not_mem_empty _ h
  · exact hasGlob_empty _ _ h

theorem compiles_everything : everything.Compiles := globsCompile_empty

theorem compiles_empty : empty.Compiles := globsCompile_empty

theorem hides_canonical {s : IgnoreSpec} {issue : Issue} : s.canonical.Hides issue ↔ s.Hides issue := by
  obtain ⟨ids, files⟩ := s
  cases ids with
  | all => exact ⟨fun _ => trivial, fun _ => trivial⟩
  | only ids => exact Iff.rfl

theorem Compiles.canonical {s : IgnoreSpec} (h : s.Compiles) : s.canonical.Compiles := by
  obtain ⟨ids, files⟩ := s
  cases ids with
  | all => exact compiles_everything
  | only ids => exact h

theorem hides_merge {a b : IgnoreSpec} {issue : Issue} :
    (a.merge b).Hides issue ↔ a.Hides issue ∨ b.Hides issue := by
  obtain ⟨aids, afiles⟩ := a
  obtain ⟨bids, bfiles⟩ := b
  -- a layer that hides everything wins on either side
  cases aids with
  | all => exact ⟨fun _ => Or.inl trivial, fun _ => trivial⟩
  | only aids =>
    cases bids with
    | all => exact ⟨fun _ => Or.inr trivial, fun _ => trivial⟩
    | only bids =>
      show issue.id ∈ aids ∪ bids ∨ Covers (uniteGlobs afiles bfiles) issue.id issue.filename ↔
        (issue.id ∈ aids ∨ Covers afiles issue.id issue.filename) ∨
          (issue.id ∈ bids ∨ Covers bfiles issue.id issue.filename)
      rw [OrderedSet.mem_union, covers_uniteGlobs, or_or_or_comm]

theorem Compiles.merge {a b : IgnoreSpec} (ha : a.Compiles) (hb : b.Compiles) :
    (a.merge b).Compiles := by
  unfold IgnoreSpec.merge
  split
  · exact GlobsCompile.uniteGlobs ha hb
  · exact compiles_everything

theorem hides_addRule {s : IgnoreSpec} {r : IgnoreRule} {issue : Issue} :
    (s.addRule r).Hides issue ↔ s.Hides issue ∨ r.Meets issue := by
  obtain ⟨ids, files⟩ := s
  unfold addRule IgnoreRule.Meets
  by_cases hw : r.id = wildcard
  · simp [hw, hides_everything]
  rw [if_neg hw]
  -- once everything is hidden, a rule changes nothing
  cases ids with
  | all => exact ⟨fun _ => Or.inl trivial, fun _ => trivial⟩
  | only ids =>
    cases hg : r.glob with
    | none =>
      show issue.id ∈ ids.insert r.id ∨ Covers files issue.id issue.filename ↔
        (issue.id ∈ ids ∨ Covers files issue.id issue.filename) ∨ _
      rw [OrderedSet.mem_insert]
      simp only [hw, false_or, reduceCtorEq, false_imp_iff, implies_true, and_true]
      rw [or_right_comm, eq_comm (a := issue.id)]
    | some g =>
      show issue.id ∈ ids ∨ Covers (files.alter r.id _) issue.id issue.filename ↔
        (issue.id ∈ ids ∨ Covers files issue.id issue.filename) ∨ _
      rw [covers_alter_insert]
      simp only [hw, false_or, Option.some.injEq, forall_eq', or_assoc]

theorem Compiles.addRule {s : IgnoreSpec} (h : s.Compiles) {r : IgnoreRule} (hr : r.Compiles) :
    (s.addRule r).Compiles := by
  obtain ⟨ids, files⟩ := s
  unfold IgnoreSpec.addRule
  by_cases hw : r.id = wildcard
  · rw [if_pos hw]; exact compiles_everything
  rw [if_neg hw]
  cases ids with
  | all => exact h
  | only ids =>
    cases hg : r.glob with
    | none => exact h
    | some g => exact GlobsCompile.alter_insert h (hr g hg) r.id

end IgnoreSpec

/-! ## Configurations -/

namespace IgnoreConfig

theorem find?_merge (a b : IgnoreConfig) (linter : String) :
    (a.merge b).find? linter =
      match b.find? linter with
      | none => (a.find? linter).map IgnoreSpec.canonical
      | some s => some (s.onTop ((a.find? linter).map IgnoreSpec.canonical)) := by
  -- no linter comes twice in `b`, so each is layered at most once
  have h : (a.merge b).find? linter = _ :=
    OrderedMap.find?_foldl_alter IgnoreSpec.onTop b.nodup (canonical a) linter
  rw [h, canonical, OrderedMap.find?_mapValues, ← OrderedMap.find?]
  cases b.find? linter <;> rfl

theorem hides_merge {a b : IgnoreConfig} {linter : String} {issue : Issue} :
    (a.merge b).Hides linter issue ↔ a.Hides linter issue ∨ b.Hides linter issue := by
  unfold Hides
  rw [find?_merge]
  cases ha : a.find? linter <;> cases hb : b.find? linter <;>
    simp [IgnoreSpec.onTop, IgnoreSpec.hides_canonical, IgnoreSpec.hides_merge]

theorem Compiles.merge {a b : IgnoreConfig} (ha : a.Compiles) (hb : b.Compiles) :
    (a.merge b).Compiles := by
  intro linter s hs
  rw [find?_merge] at hs
  cases ha' : a.find? linter with
  | none =>
    cases hb' : b.find? linter with
    | none => rw [ha', hb'] at hs; cases hs
    | some t =>
      rw [ha', hb'] at hs; cases hs
      exact (hb linter t hb').canonical
  | some old =>
    have hold : old.canonical.Compiles := (ha linter old ha').canonical
    cases hb' : b.find? linter with
    | none => rw [ha', hb'] at hs; cases hs; exact hold
    | some t =>
      rw [ha', hb'] at hs; cases hs
      exact hold.merge (hb linter t hb')

theorem not_hides_empty (linter : String) (issue : Issue) : ¬Hides ∅ linter issue := by
  rintro ⟨s, h, _⟩; cases h

theorem compiles_empty : Compiles ∅ := by
  intro linter s h; cases h

theorem hides_foldl_merge {layers : List IgnoreConfig} {c : IgnoreConfig} {linter : String}
    {issue : Issue} : (layers.foldl merge c).Hides linter issue ↔
      c.Hides linter issue ∨ ∃ e ∈ layers, e.Hides linter issue := by
  induction layers generalizing c with
  | nil => simp
  | cons e layers ih =>
    rw [List.foldl_cons, ih, hides_merge, or_assoc]
    simp

theorem compiles_foldl_merge {layers : List IgnoreConfig} (hl : ∀ e ∈ layers, e.Compiles)
    {c : IgnoreConfig} (hc : c.Compiles) : (layers.foldl merge c).Compiles := by
  induction layers generalizing c with
  | nil => exact hc
  | cons e layers ih =>
    have he : e.Compiles := hl e (List.mem_cons_self ..)
    exact ih (fun d hd => hl d (List.mem_cons_of_mem e hd)) (hc.merge he)

/-! ## Rules -/

theorem hides_addRule {c : IgnoreConfig} {r : IgnoreRule} {linter : String} {issue : Issue} :
    (c.addRule r).Hides linter issue ↔ c.Hides linter issue ∨ r.Hides linter issue := by
  unfold Hides IgnoreRule.Hides addRule
  rw [OrderedMap.find?_alter]
  by_cases h : linter = r.linter
  · subst h
    cases hc : c.find? r.linter <;>
      simp [IgnoreSpec.hides_addRule, IgnoreSpec.not_hides_empty]
  · rw [if_neg h]; simp [Ne.symm h]

theorem Compiles.addRule {c : IgnoreConfig} (hc : c.Compiles) {r : IgnoreRule} (hr : r.Compiles) :
    (c.addRule r).Compiles := by
  intro linter s hs
  unfold IgnoreConfig.addRule at hs
  rw [OrderedMap.find?_alter] at hs
  by_cases h : linter = r.linter
  · rw [if_pos h] at hs; cases hs
    cases hold : c.find? r.linter with
    | none => exact IgnoreSpec.compiles_empty.addRule hr
    | some old => exact (hc r.linter old hold).addRule hr
  · rw [if_neg h] at hs; exact hc linter s hs

theorem hides_ofRules {rules : List IgnoreRule} {linter : String} {issue : Issue} :
    (ofRules rules).Hides linter issue ↔ ∃ r ∈ rules, r.Hides linter issue := by
  have general : ∀ c : IgnoreConfig, (rules.foldl addRule c).Hides linter issue ↔
      c.Hides linter issue ∨ ∃ r ∈ rules, r.Hides linter issue := by
    induction rules with
    | nil => simp
    | cons r rules ih =>
      intro c
      rw [List.foldl_cons, ih, hides_addRule, or_assoc]
      simp
  rw [ofRules, general]
  simp [not_hides_empty]

theorem compiles_ofRules {rules : List IgnoreRule} (h : ∀ r ∈ rules, r.Compiles) :
    (ofRules rules).Compiles := by
  have general : ∀ c : IgnoreConfig, c.Compiles → (rules.foldl addRule c).Compiles := by
    induction rules with
    | nil => exact fun c hc => hc
    | cons r rules ih =>
      intro c hc
      have hr : r.Compiles := h r (List.mem_cons_self ..)
      exact ih (fun d hd => h d (List.mem_cons_of_mem r hd)) _ (hc.addRule hr)
  exact general ∅ compiles_empty

/-! ## Layers -/

/-- The rules of the command line: those of further files from first to last, then single rules. -/
def ofCommandLine (extra : List IgnoreConfig) (rules : List IgnoreRule) : IgnoreConfig :=
  (extra.foldl merge ∅).merge (ofRules rules)

theorem hides_ofCommandLine {extra : List IgnoreConfig} {rules : List IgnoreRule} {linter : String}
    {issue : Issue} : (ofCommandLine extra rules).Hides linter issue ↔
      (∃ e ∈ extra, e.Hides linter issue) ∨ ∃ r ∈ rules, r.Hides linter issue := by
  rw [ofCommandLine, hides_merge, hides_foldl_merge, hides_ofRules]
  simp [not_hides_empty]

theorem compiles_ofCommandLine {extra : List IgnoreConfig} {rules : List IgnoreRule}
    (he : ∀ e ∈ extra, e.Compiles) (hr : ∀ r ∈ rules, r.Compiles) :
    (ofCommandLine extra rules).Compiles :=
  (compiles_foldl_merge he compiles_empty).merge (compiles_ofRules hr)

theorem hides_rulesFor {project cli : IgnoreConfig} {linter : String} {issue : Issue} :
    (Strategies.rulesFor project (some cli)).Hides linter issue ↔
      project.Hides linter issue ∨ cli.Hides linter issue := by
  unfold Strategies.rulesFor
  rw [hides_merge, hides_merge]
  simp [not_hides_empty]

theorem compiles_rulesFor {project cli : IgnoreConfig} (hp : project.Compiles) (hc : cli.Compiles) :
    (Strategies.rulesFor project (some cli)).Compiles :=
  (compiles_empty.merge hp).merge hc

theorem hides_layers_eq_ok {project : IgnoreConfig} {extra : List IgnoreConfig} {rules : List IgnoreRule}
    (hp : project.Compiles) (he : ∀ e ∈ extra, e.Compiles) (hr : ∀ r ∈ rules, r.Compiles)
    (linter : String) (issue : Issue) : ∃ answer,
      (Strategies.rulesFor project (some (ofCommandLine extra rules))).hides linter issue = .ok answer ∧
      (answer = true ↔ project.hides linter issue = .ok true ∨
        (∃ e ∈ extra, e.hides linter issue = .ok true) ∨ ∃ r ∈ rules, r.Hides linter issue) := by
  have hcompiles := compiles_rulesFor hp (compiles_ofCommandLine he hr)
  obtain ⟨answer, hanswer, hiff⟩ := hides_eq_ok hcompiles linter issue
  refine ⟨answer, hanswer, ?_⟩
  have hextra : (∃ e ∈ extra, e.hides linter issue = .ok true) ↔ ∃ e ∈ extra, e.Hides linter issue :=
    exists_congr fun e => and_congr_right fun h => hides_eq_true_iff (he e h) linter issue
  rw [hiff, hides_rulesFor, hides_ofCommandLine, hides_eq_true_iff hp, hextra]

end IgnoreConfig

/-- What the ignore files hold that exist among the given ones. -/
def IgnoreFile.configs (f : Formats) (files : FileTree) (paths : List String) : List IgnoreConfig :=
  (paths.filter files.pathExists).map fun path => (IgnoreFile.read f files path).2

theorem IgnoreFile.loadExtra_eq (f : Formats) (files : FileTree) (paths : List String) :
    (IgnoreFile.loadExtra f files paths).2 = (IgnoreFile.configs f files paths).foldl IgnoreConfig.merge ∅ := by
  have general : ∀ acc : List String × IgnoreConfig,
      (paths.foldl (IgnoreFile.addExtra f files) acc).2 =
        (IgnoreFile.configs f files paths).foldl IgnoreConfig.merge acc.2 := by
    induction paths with
    | nil => exact fun acc => rfl
    | cons path paths ih =>
      intro acc
      rw [List.foldl_cons, ih]
      unfold IgnoreFile.addExtra IgnoreFile.configs
      by_cases h : files.pathExists path = true
      · rw [if_pos h, List.filter_cons_of_pos h]; rfl
      · rw [if_neg h, List.filter_cons_of_neg h]
  exact general ([], ∅)

/-- Layered rules hide what one of the layers hides: the rules that are stored for a project
directory, with the rules of the command line as the lint command puts them together. -/
theorem load_hides_iff (s : Strategies) (o : Orchestrator) (files : FileTree) (dir : String)
    (extra : List IgnoreConfig) (rules : List IgnoreRule)
    (hproject : (s.projectIgnores files dir).2.Compiles) (hextra : ∀ e ∈ extra, e.Compiles)
    (hrules : ∀ r ∈ rules, r.Compiles) :
    let project := (s.projectIgnores files dir).2
    let stored := fun extra rules =>
      (s.load o files dir (some (IgnoreConfig.ofCommandLine extra rules))).2.ignores
    (∀ linter issue, ∃ answer, (stored extra rules).hides linter issue = .ok answer ∧
      (answer = true ↔ project.hides linter issue = .ok true ∨
        (∃ e ∈ extra, e.hides linter issue = .ok true) ∨ ∃ r ∈ rules, r.Hides linter issue)) ∧
    (∀ extra' rules', extra'.Perm extra → rules'.Perm rules → ∀ linter issue,
      (stored extra' rules').hides linter issue = (stored extra rules).hides linter issue) ∧
    ∀ (setup : LintSetup) (files : FileTree) (options : LintOptions),
      (setup.cliIgnores files options).2 = IgnoreConfig.ofCommandLine
        (IgnoreFile.configs setup.formats files options.lintIgnoreFiles) options.lintIgnores := by
  intro project stored
  refine ⟨IgnoreConfig.hides_layers_eq_ok hproject hextra hrules, ?_, ?_⟩
  · intro extra' rules' he hr linter issue
    obtain ⟨answer, hanswer, hiff⟩ :=
      IgnoreConfig.hides_layers_eq_ok hproject hextra hrules linter issue
    obtain ⟨answer', hanswer', hiff'⟩ := IgnoreConfig.hides_layers_eq_ok hproject
      (fun e h => hextra e (he.mem_iff.1 h)) (fun r h => hrules r (hr.mem_iff.1 h)) linter issue
    -- neither answer depends on more than which layers there are
    have hsame : answer' = answer := by
      rw [Bool.eq_iff_iff, hiff, hiff']
      simp only [he.mem_iff, hr.mem_iff]
    exact hanswer'.trans (hsame ▸ hanswer.symm)
  · intro setup files options
    unfold LintSetup.cliIgnores IgnoreConfig.ofCommandLine
    rw [← IgnoreFile.loadExtra_eq]

/-- A rule of the last layer hides an id on the files of its glob, a further file hides a linter as a
whole, and the project's own rules still count. -/
theorem load_hides_three_layers :
    let own := IgnoreConfig.ofRules [⟨"spelling", "typo", some "*.md"⟩]
    let s : Strategies := { projectIgnores := fun _ _ => ([], own) }
    let extra := [IgnoreConfig.ofRules [⟨"links", wildcard, none⟩],
      IgnoreConfig.ofRules [⟨"spelling", "typo", some "doc/[a-c]?"⟩]]
    let rules : List IgnoreRule := [⟨"spelling", "case", some "*.py"⟩]
    let stored := (s.load {} {} "." (some (IgnoreConfig.ofCommandLine extra rules))).2.ignores
    stored.hides "spelling" ⟨"typo", "", .error, "a.md", ""⟩ = .ok true ∧
    stored.hides "links" ⟨"dead", "", .error, "b.py", ""⟩ = .ok true ∧
    stored.hides "spelling" ⟨"case", "", .error, "b.py", ""⟩ = .ok true ∧
    stored.hides "spelling" ⟨"case", "", .error, "doc/b1", ""⟩ = .ok false := by
  intro own s extra rules stored
  have h := (load_hides_iff s {} {} "." extra rules (by decide) (by decide) (by decide)).1
  have hidden : ∀ linter issue, (own.hides linter issue = .ok true ∨
      (∃ e ∈ extra, e.hides linter issue = .ok true) ∨ ∃ r ∈ rules, r.Hides linter issue) →
      stored.hides linter issue = .ok true := by
    intro linter issue hlayer
    obtain ⟨answer, hanswer, hiff⟩ := h linter issue
    rw [← hiff.2 hlayer]; exact hanswer
  refine ⟨hidden _ _ (Or.inl rfl), hidden _ _ (Or.inr (Or.inl ⟨_, List.mem_cons_self .., rfl⟩)),
    hidden _ _ (Or.inr (Or.inr ⟨_, List.mem_cons_self .., rfl, Or.inr ⟨rfl, ?_⟩⟩)), rfl⟩
  rintro g ⟨⟩; rfl

end LintEngine
