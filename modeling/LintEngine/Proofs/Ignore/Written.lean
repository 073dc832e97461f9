/-
Configurations written down as values. What a canonical configuration comes to as a value, and so any
list of rules, reads back as the same configuration: nothing changes but the order of linters and of ids
with globs, since an object lists index keys first. So the decisions are the same, faults included, and
rules of the command line can be moved into an ignore file (`written_config_reads_back`).

An object is read through its entries, which are those of the map in another order; everything is
therefore said of what is found under a key (`SameButKeyOrder`).
-/
import LintEngine.Ignore.Untyped
import LintEngine.Proofs.Ignore.Semilattice

namespace LintEngine

/-! ## Writing -/

/-- The list of the texts in a set. -/
def Value.ofTexts (texts : OrderedSet String) : Value :=
  .list (texts.toList.map .text)

/-- The object with an entry for each key of a map. -/
def Value.ofMap {ν : Type} (write : ν → Value) (m : OrderedMap String ν) : Value :=
  .ofEntries (m.mapValues write).toList

/-- What a document says of a linter with these rules. -/
def IgnoreSpec.toValue (s : IgnoreSpec) : Value :=
  match s.ids with
  | .all => .object [("ids", .text "*")]
  | .only ids => .object [("ids", .ofTexts ids), ("by_filename", .ofMap .ofTexts s.byFilename)]

/-- The document with these rules. -/
def IgnoreConfig.toValue (c : IgnoreConfig) : Value :=
  .ofMap IgnoreSpec.toValue c

/-! ## The same but for the order of keys -/

structure IgnoreSpec.SameButKeyOrder (s t : IgnoreSpec) : Prop where
  ids : s.ids = t.ids
  files : ∀ id, s.byFilename.find? id = t.byFilename.find? id

/-- Configurations that differ at most in the order of linters and of ids with globs. -/
def IgnoreConfig.SameButKeyOrder (c d : IgnoreConfig) : Prop :=
  ∀ linter, Option.Rel IgnoreSpec.SameButKeyOrder (c.find? linter) (d.find? linter)

/-- The keys as an object lists them: index keys in front, ascending, the others as they stand. -/
structure Value.KeyOrderOf (keys listed : List String) : Prop where
  perm : listed.Perm keys
  sorted : listed.Pairwise Value.KeyLe
  plain : listed.filter (fun k => (Value.index? k).isNone) = keys.filter fun k => (Value.index? k).isNone

/-- The second configuration lists linters, and ids with globs, as objects list those of the first. -/
structure IgnoreConfig.KeyOrderOf (c d : IgnoreConfig) : Prop where
  linters : Value.KeyOrderOf c.keys d.keys
  files : ∀ {linter s t}, c.find? linter = some s → d.find? linter = some t →
    Value.KeyOrderOf s.byFilename.keys t.byFilename.keys

theorem IgnoreSpec.SameButKeyOrder.hides_eq {s t : IgnoreSpec} (h : s.SameButKeyOrder t) (issue : Issue) :
    s.hides issue = t.hides issue := by
  unfold IgnoreSpec.hides
  rw [h.ids, h.files]

theorem IgnoreConfig.SameButKeyOrder.hides_eq {c d : IgnoreConfig} (h : c.SameButKeyOrder d)
    (linter : String) (issue : Issue) : c.hides linter issue = d.hides linter issue := by
  have hrel := h linter
  unfold IgnoreConfig.hides
  generalize c.find? linter = s at hrel
  generalize d.find? linter = t at hrel
  cases hrel with
  | none => rfl
  | some hsame => exact hsame.hides_eq issue

/-! ### Layers -/

theorem IgnoreSpec.SameButKeyOrder.refl (s : IgnoreSpec) : s.SameButKeyOrder s := ⟨rfl, fun _ => rfl⟩

theorem IgnoreConfig.SameButKeyOrder.refl (c : IgnoreConfig) : c.SameButKeyOrder c := by
  intro linter
  cases c.find? linter with
  | none => exact .none
  | some s => exact .some (.refl s)

theorem IgnoreSpec.SameButKeyOrder.merge {s t s' t' : IgnoreSpec} (h : s.SameButKeyOrder t)
    (h' : s'.SameButKeyOrder t') : (s.merge s').SameButKeyOrder (t.merge t') := by
  unfold IgnoreSpec.merge
  rw [h.ids, h'.ids]
  split
  · refine ⟨rfl, fun id => ?_⟩
    simp only [find?_uniteGlobs, h.files, h'.files]
  · exact .refl _

theorem IgnoreSpec.SameButKeyOrder.canonical {s t : IgnoreSpec} (h : s.SameButKeyOrder t) :
    s.canonical.SameButKeyOrder t.canonical := by
  unfold IgnoreSpec.canonical
  rw [h.ids]
  split
  · exact .refl _
  · exact h

/-- What is layered on, or under, may be listed in another order. -/
theorem IgnoreConfig.SameButKeyOrder.merge {c d c' d' : IgnoreConfig} (h : c.SameButKeyOrder d)
    (h' : c'.SameButKeyOrder d') : (c.merge c').SameButKeyOrder (d.merge d') := by
  intro linter
  have hbase := h linter
  have hlayer := h' linter
  rw [find?_merge, find?_merge]
  generalize c.find? linter = s at hbase
  generalize d.find? linter = t at hbase
  generalize c'.find? linter = s' at hlayer
  generalize d'.find? linter = t' at hlayer
  cases hbase with
  | none =>
    cases hlayer with
    | none => exact .none
    | some hsame' => exact .some hsame'.canonical
  | some hsame =>
    cases hlayer with
    | none => exact .some hsame.canonical
    | some hsame' => exact .some (hsame.canonical.merge hsame')

/-! ## Reading what was written -/

section ReadBack

variable {ν ω : Type} (write : ν → Value) (read : Value → ω) (m : OrderedMap String ν)

theorem Value.entries_ofMap : (Value.ofMap write m).entries = inKeyOrder (m.mapValues write).toList := by
  rw [ofMap, entries_ofEntries, OrderedMap.toList_ofList (m.mapValues write).nodup]

theorem Value.keyOrderOf_ofMap : KeyOrderOf m.keys ((ofMap write m).entries.map Prod.fst) := by
  rw [entries_ofMap, ← OrderedMap.keys_mapValues m write]
  exact ⟨(inKeyOrder_perm _).map Prod.fst, pairwise_inKeyOrder _, filter_inKeyOrder _⟩

theorem Value.wellFormed_ofMap (h : ∀ v, (write v).WellFormed) : (ofMap write m).WellFormed := by
  refine wellFormed_ofEntries fun e he => ?_
  obtain ⟨p, -, rfl⟩ := List.mem_map.1 he
  exact h p.2

theorem Value.nodup_keys_ofMap : ((ofMap write m).entries.map Prod.fst).Nodup :=
  (keyOrderOf_ofMap write m).perm.nodup_iff.2 m.nodup

/-- An object with an entry for each key is read key by key. -/
theorem OrderedMap.find?_readBack (k : String) :
    (ofList ((Value.ofMap write m).entries.map fun e => (e.1, read e.2))).find? k =
      (m.find? k).map fun v => read (write v) := by
  have hkeys := Value.nodup_keys_ofMap write m
  have hsame : lookup k (Value.ofMap write m).entries = (m.mapValues write).find? k := by
    refine lookup_perm hkeys ?_ k
    rw [Value.entries_ofMap]
    exact Value.inKeyOrder_perm _
  rw [find?_ofList_map read hkeys, hsame, find?_mapValues, Option.map_map]
  rfl

theorem OrderedMap.keyOrderOf_readBack :
    Value.KeyOrderOf m.keys (ofList ((Value.ofMap write m).entries.map fun e => (e.1, read e.2))).keys := by
  have hkeys := Value.nodup_keys_ofMap write m
  have hlisted : (ofList ((Value.ofMap write m).entries.map fun e => (e.1, read e.2))).keys =
      (Value.ofMap write m).entries.map Prod.fst := by
    unfold keys
    rw [toList_ofList_map read hkeys, List.map_map]
    rfl
  rw [hlisted]
  exact Value.keyOrderOf_ofMap write m

end ReadBack

@[simp] theorem Value.texts_ofTexts (texts : OrderedSet String) : (ofTexts texts).texts = texts.toList := by
  simp [ofTexts, Value.texts, List.filterMap_map, Function.comp_def, text?]

theorem Value.wellFormed_ofTexts (texts : OrderedSet String) : (ofTexts texts).WellFormed := by
  refine .list fun v hv => ?_
  obtain ⟨s, -, rfl⟩ := List.mem_map.1 hv
  exact .text s

theorem find?_globsOfValue_ofMap (files : OrderedMap String (OrderedSet String)) (id : String) :
    (globsOfValue (.ofMap .ofTexts files)).find? id = files.find? id := by
  rw [globsOfValue, OrderedMap.find?_readBack Value.ofTexts fun w => OrderedSet.ofList w.texts]
  simp

namespace IgnoreSpec

variable {s : IgnoreSpec}

theorem ofValue_toValue_of_all (h : s.ids = .all) : ofValue s.toValue = everything := by
  unfold toValue
  rw [h]
  rfl

theorem ofValue_toValue_of_only {ids : OrderedSet String} (h : s.ids = .only ids) :
    ofValue s.toValue = ⟨.only ids, globsOfValue (.ofMap .ofTexts s.byFilename)⟩ := by
  have hids : IgnoredIds.ofValue (.ofTexts ids) = .only ids := by
    unfold IgnoredIds.ofValue
    rw [Value.texts_ofTexts, OrderedSet.ofList_toList]
    rfl
  unfold toValue
  rw [h]
  show (match IgnoredIds.ofValue (.ofTexts ids) with
    | .all => everything
    | .only ids => (⟨.only ids, globsOfValue (.ofMap .ofTexts s.byFilename)⟩ : IgnoreSpec)) = _
  rw [hids]

theorem wellFormed_toValue (s : IgnoreSpec) : s.toValue.WellFormed := by
  have htexts := Value.wellFormed_ofTexts
  unfold toValue
  split
  · exact .object (by simp) (by simp [Value.WellFormed.text])
  · exact .object (by simp) (by simp [htexts, Value.wellFormed_ofMap])

theorem isMapping_toValue (s : IgnoreSpec) : s.toValue.isMapping = true := by
  unfold toValue
  split <;> rfl

theorem ofValue_toValue_sameButKeyOrder (h : s.IsCanonical) : (ofValue s.toValue).SameButKeyOrder s := by
  cases hids : s.ids with
  | all =>
    rw [ofValue_toValue_of_all hids]
    refine ⟨hids.symm, fun id => ?_⟩
    rw [h hids]
    rfl
  | only ids =>
    rw [ofValue_toValue_of_only hids]
    exact ⟨hids.symm, find?_globsOfValue_ofMap s.byFilename⟩

theorem keyOrderOf_ofValue_toValue (h : s.IsCanonical) :
    Value.KeyOrderOf s.byFilename.keys (ofValue s.toValue).byFilename.keys := by
  cases hids : s.ids with
  | all =>
    rw [ofValue_toValue_of_all hids, h hids]
    exact ⟨.nil, .nil, rfl⟩
  | only ids =>
    rw [ofValue_toValue_of_only hids]
    exact OrderedMap.keyOrderOf_readBack Value.ofTexts (fun w => OrderedSet.ofList w.texts) s.byFilename

theorem hides_ofValue_toValue (s : IgnoreSpec) (issue : Issue) :
    (ofValue s.toValue).hides issue = s.hides issue := by
  -- the globs of a spec that hides everything are not written, nor are they asked for
  have hsame : s.canonical.toValue = s.toValue := by
    obtain ⟨ids, files⟩ := s
    cases ids <;> rfl
  rw [← hsame, ← hides_canonical_eq s]
  exact (ofValue_toValue_sameButKeyOrder s.isCanonical_canonical).hides_eq issue

end IgnoreSpec

namespace IgnoreConfig

variable (c : IgnoreConfig)

theorem wellFormed_toValue : c.toValue.WellFormed :=
  Value.wellFormed_ofMap _ c IgnoreSpec.wellFormed_toValue

theorem ofValue_toValue : ofValue c.toValue =
    .ofList (c.toValue.entries.map fun e => (e.1, IgnoreSpec.ofValue e.2)) := by
  unfold ofValue
  rw [List.filter_eq_self.2]
  intro e he
  rw [toValue, Value.entries_ofMap, (Value.inKeyOrder_perm _).mem_iff] at he
  obtain ⟨p, -, rfl⟩ := List.mem_map.1 he
  exact p.2.isMapping_toValue

theorem find?_ofValue_toValue (linter : String) :
    (ofValue c.toValue).find? linter = (c.find? linter).map fun s => IgnoreSpec.ofValue s.toValue := by
  rw [ofValue_toValue]
  exact OrderedMap.find?_readBack IgnoreSpec.toValue IgnoreSpec.ofValue c linter

theorem hides_ofValue_toValue (linter : String) (issue : Issue) :
    (ofValue c.toValue).hides linter issue = c.hides linter issue := by
  unfold hides
  rw [find?_ofValue_toValue]
  cases c.find? linter with
  | none => rfl
  | some s => exact s.hides_ofValue_toValue issue

variable {c}

theorem ofValue_toValue_sameButKeyOrder (h : c.IsCanonical) : (ofValue c.toValue).SameButKeyOrder c := by
  intro linter
  rw [find?_ofValue_toValue]
  cases hs : c.find? linter with
  | none => exact .none
  | some s => exact .some (s.ofValue_toValue_sameButKeyOrder (isCanonical_iff_find?.1 h linter s hs))

theorem keyOrderOf_ofValue_toValue (h : c.IsCanonical) : c.KeyOrderOf (ofValue c.toValue) where
  linters := by
    rw [ofValue_toValue]
    exact OrderedMap.keyOrderOf_readBack IgnoreSpec.toValue IgnoreSpec.ofValue c
  files {linter s t} hs ht := by
    rw [find?_ofValue_toValue, hs] at ht
    cases ht
    exact IgnoreSpec.keyOrderOf_ofValue_toValue (isCanonical_iff_find?.1 h linter s hs)

/-! ### Moving rules -/

/-- The rules of the command line, as they are layered. -/
theorem cliIgnores_eq (setup : LintSetup) (files : FileTree) (options : LintOptions) :
    (setup.cliIgnores files options).2 =
      ofCommandLine (IgnoreFile.configs setup.formats files options.lintIgnoreFiles) options.lintIgnores := by
  unfold LintSetup.cliIgnores ofCommandLine
  rw [← IgnoreFile.loadExtra_eq]

/-- A configuration that comes last among the files can stand for rules that come first. -/
theorem SameButKeyOrder.ofCommandLine {file : IgnoreConfig} {moved : List IgnoreRule}
    (h : file.SameButKeyOrder (ofRules moved)) (extra : List IgnoreConfig) (kept : List IgnoreRule) :
    (ofCommandLine (extra ++ [file]) kept).SameButKeyOrder (ofCommandLine extra (moved ++ kept)) := by
  unfold IgnoreConfig.ofCommandLine
  rw [List.foldl_append, ofRules_append, ← merge_assoc]
  exact SameButKeyOrder.merge (SameButKeyOrder.merge (.refl _) h) (.refl _)

theorem configs_append_of_read {f : Formats} {files : FileTree} {path : String}
    (hpath : files.pathExists path = true) {rules : List IgnoreRule}
    (hread : f.readDocument files path = .ok (toValue (ofRules rules))) (paths : List String) :
    IgnoreFile.configs f files (paths ++ [path]) =
      IgnoreFile.configs f files paths ++ [ofValue (toValue (ofRules rules))] := by
  have hlast : (IgnoreFile.read f files path).2 = ofValue (toValue (ofRules rules)) := by
    unfold IgnoreFile.read
    rw [hread]
    rfl
  unfold IgnoreFile.configs
  rw [List.filter_append, List.map_append, List.filter_cons_of_pos hpath]
  simp [hlast]

/-- Rules in another order, among layers that compile, hide the same. -/
theorem hides_rulesFor_perm {project : IgnoreConfig} {extra : List IgnoreConfig}
    {rules rules' : List IgnoreRule} (hproject : project.Compiles) (hextra : ∀ e ∈ extra, e.Compiles)
    (hrules : ∀ r ∈ rules, r.Compiles) (hperm : rules'.Perm rules) (linter : String) (issue : Issue) :
    (Strategies.rulesFor project (some (ofCommandLine extra rules'))).hides linter issue =
      (Strategies.rulesFor project (some (ofCommandLine extra rules))).hides linter issue := by
  obtain ⟨answer, hanswer, hiff⟩ := hides_layers_eq_ok hproject hextra hrules linter issue
  obtain ⟨answer', hanswer', hiff'⟩ := hides_layers_eq_ok hproject hextra
    (fun r hr => hrules r (hperm.mem_iff.1 hr)) linter issue
  have hsame : answer' = answer := by
    rw [Bool.eq_iff_iff, hiff, hiff']
    simp only [hperm.mem_iff]
  rw [hanswer, hanswer', hsame]

/-- What a canonical configuration comes to as a value reads back as that configuration, its linters and
its ids with globs listed as objects list them; and what any configuration comes to hides the same, with
the same faults. A rule list folds to a canonical configuration. So rules at the front of the command
line can be moved to one more ignore file at the end of the list, and rules from anywhere among the others
as long as all globs have expressions: the decisions stay as they were. -/
theorem written_config_reads_back :
    (∀ c : IgnoreConfig, c.toValue.WellFormed ∧
      ∀ linter issue, (ofValue c.toValue).hides linter issue = c.hides linter issue) ∧
    (∀ c : IgnoreConfig, c.IsCanonical →
      (ofValue c.toValue).SameButKeyOrder c ∧ c.KeyOrderOf (ofValue c.toValue)) ∧
    (∀ rules, let c := ofRules rules
      (ofValue c.toValue).SameButKeyOrder c ∧ c.KeyOrderOf (ofValue c.toValue)) ∧
    ∀ (setup : LintSetup) (files : FileTree) (options : LintOptions) (path : String)
      (moved kept : List IgnoreRule), files.pathExists path = true →
      setup.formats.readDocument files path = .ok (ofRules moved).toValue →
      let given := fun rules => (setup.cliIgnores files { options with lintIgnores := rules }).2
      let inFile := (setup.cliIgnores files { options with
        lintIgnoreFiles := options.lintIgnoreFiles ++ [path], lintIgnores := kept }).2
      ∀ (project : IgnoreConfig) (linter : String) (issue : Issue),
        let hidden := fun cli => (Strategies.rulesFor project (some cli)).hides linter issue
        hidden inFile = hidden (given (moved ++ kept)) ∧
        ∀ rules, rules.Perm (moved ++ kept) → project.Compiles →
          (∀ e ∈ IgnoreFile.configs setup.formats files options.lintIgnoreFiles, e.Compiles) →
          (∀ r ∈ moved ++ kept, r.Compiles) → hidden inFile = hidden (given rules) := by
  refine ⟨fun c => ⟨wellFormed_toValue c, hides_ofValue_toValue c⟩,
    fun c h => ⟨ofValue_toValue_sameButKeyOrder h, keyOrderOf_ofValue_toValue h⟩, ?_, ?_⟩
  · intro rules c
    have h : c.IsCanonical := isCanonical_ofRules rules
    exact ⟨ofValue_toValue_sameButKeyOrder h, keyOrderOf_ofValue_toValue h⟩
  · intro setup files options path moved kept hpath hread given inFile project linter issue hidden
    have hfile := ofValue_toValue_sameButKeyOrder (isCanonical_ofRules moved)
    have hgiven : ∀ rules, given rules =
        ofCommandLine (IgnoreFile.configs setup.formats files options.lintIgnoreFiles) rules :=
      fun rules => cliIgnores_eq ..
    have hcli : inFile.SameButKeyOrder (given (moved ++ kept)) := by
      rw [hgiven]
      unfold inFile
      rw [cliIgnores_eq, configs_append_of_read hpath hread]
      exact hfile.ofCommandLine _ kept
    have hmoved : hidden inFile = hidden (given (moved ++ kept)) := by
      refine SameButKeyOrder.hides_eq ?_ linter issue
      exact SameButKeyOrder.merge (.refl _) hcli
    refine ⟨hmoved, fun rules hperm hproject hextra hrules => hmoved.trans ?_⟩
    unfold hidden
    rw [hgiven, hgiven]
    exact (hides_rulesFor_perm hproject hextra hrules hperm linter issue).symm

/-- Linters and ids may be called like indices: what comes out of the file stands in another order. -/
theorem written_rules_named_like_indices :
    let moved : List IgnoreRule := [⟨"10", "2", some "*.md"⟩, ⟨"10", "1", some "*"⟩, ⟨"9", "*", none⟩]
    let kept : List IgnoreRule := [⟨"10", "3", none⟩]
    let v := toValue (ofRules moved)
    let setup : LintSetup := { formats := ⟨fun _ => .ok v, fun _ => none⟩, strategies := {}
                               candidates := fun _ => [] }
    let files := ({} : FileTree).put ["extra.yaml"] (.text "")
    let given := (setup.cliIgnores files { lintIgnores := moved ++ kept }).2
    let inFile := (setup.cliIgnores files { lintIgnores := kept, lintIgnoreFiles := ["extra.yaml"] }).2
    given.keys = ["10", "9"] ∧ inFile.keys = ["9", "10"] ∧
    ∀ linter issue, (Strategies.rulesFor ∅ (some inFile)).hides linter issue =
      (Strategies.rulesFor ∅ (some given)).hides linter issue := by
  intro moved kept v setup files given inFile
  obtain ⟨-, -, -, hmove⟩ := written_config_reads_back
  refine ⟨by decide +kernel, by decide +kernel, fun linter issue => ?_⟩
  exact (hmove setup files {} "extra.yaml" moved kept (by decide +kernel) rfl ∅ linter issue).1

end IgnoreConfig

end LintEngine
