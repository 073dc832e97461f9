/-
What a value of unknown shape hides when it is taken for ignore rules, said of the value itself. Only an
object has entries: a list, a set or a map has none under any key. One text stands for itself and a list
or a set for the texts among its members, so that the text `*` hides all ids and a list with `*` in it
the id `*`. Main statement: every value gives a configuration, with a spec for each linter that it has a
mapping for, and a decision hides what the value says (`ofValue_hides_what_value_says`).
-/
import LintEngine.Ignore.Untyped
import LintEngine.Proofs.Ignore.Decision

namespace LintEngine

namespace Value

/-- The value is an object with an entry of its own under the key. -/
def HasEntry (v : Value) (key : String) (w : Value) : Prop :=
  ∃ entries, v = .object entries ∧ (key, w) ∈ entries

/-- The value is a text, or a list or set with the text among its members. -/
def Names (v : Value) (s : String) : Prop :=
  v = .text s ∨ ∃ members, (v = .list members ∨ v = .set members) ∧ .text s ∈ members

/-- Said of one linter, the value lists a glob under an id. -/
def ListsGlob (v : Value) (id g : String) : Prop :=
  ∃ files globs, v.HasEntry "by_filename" files ∧ files.HasEntry id globs ∧ globs.Names g

/-- Said of one linter, the value hides an issue: all of them, those with its id, or those with its id on
the files that match a glob. -/
def HidesIssue (v : Value) (issue : Issue) : Prop :=
  v.HasEntry "ids" (.text "*") ∨
  (∃ ids, v.HasEntry "ids" ids ∧ ids.Names issue.id) ∨
  ∃ g, v.ListsGlob issue.id g ∧ (Glob.ofString g).matches? issue.filename = .ok true

/-! ## Entries and texts -/

theorem hasEntry_iff {v : Value} {key : String} {w : Value} :
    v.HasEntry key w ↔ (key, w) ∈ v.entries := by
  unfold HasEntry
  cases v <;> simp [entries]

theorem names_iff {v : Value} {s : String} : v.Names s ↔ s ∈ v.texts := by
  have hmembers : ∀ members : List Value, s ∈ members.filterMap text? ↔ .text s ∈ members := by
    intro members
    rw [List.mem_filterMap]
    constructor
    · rintro ⟨w, hw, hs⟩
      exact eq_text_of_text? hs ▸ hw
    · exact fun h => ⟨.text s, h, rfl⟩
  unfold Names texts
  cases v <;> simp [hmembers, eq_comm]

theorem HasEntry.unique {v w w' : Value} {key : String} (h : v.WellFormed) (hw : v.HasEntry key w)
    (hw' : v.HasEntry key w') : w = w' := by
  have hfound := OrderedMap.lookup_of_mem h.nodup_keys (hasEntry_iff.1 hw)
  rw [OrderedMap.lookup_of_mem h.nodup_keys (hasEntry_iff.1 hw')] at hfound
  exact (Option.some.inj hfound).symm

/-- As no key comes twice, what an entry holds is what is found under its key. -/
theorem exists_hasEntry_iff {v : Value} (h : v.WellFormed) (key : String) {P : Value → Prop}
    (hmissing : ¬P .missing) : (∃ w, v.HasEntry key w ∧ P w) ↔ P (v.get key) := by
  unfold get
  simp only [hasEntry_iff]
  simp only [← OrderedMap.lookup_eq_some h.nodup_keys]
  cases OrderedMap.lookup key v.entries with
  | none => simp [hmissing]
  | some w => simp

theorem not_names_missing (s : String) : ¬missing.Names s := by
  simp [names_iff, texts]

end Value

/-! ## The spec of one linter -/

theorem IgnoredIds.ofValue_eq_all_iff {v : Value} : ofValue v = .all ↔ v = .text "*" := by
  unfold ofValue
  split
  · rename_i h
    exact ⟨fun _ => Value.eq_text_of_text? h, fun _ => rfl⟩
  · rename_i h
    refine ⟨nofun, ?_⟩
    rintro rfl
    exact absurd rfl h

theorem IgnoredIds.mem_ofValue_iff {v : Value} {ids : OrderedSet String} (h : ofValue v = .only ids)
    (id : String) : id ∈ ids ↔ v.Names id := by
  unfold ofValue at h
  split at h
  · cases h
  · cases h
    rw [OrderedSet.mem_ofList, Value.names_iff]

theorem hasGlob_globsOfValue_iff {v : Value} (h : v.WellFormed) {id g : String} :
    HasGlob (globsOfValue v) id g ↔ ∃ globs, v.HasEntry id globs ∧ globs.Names g := by
  unfold HasGlob globsOfValue
  rw [OrderedMap.find?_ofList_map (fun w => OrderedSet.ofList w.texts) h.nodup_keys]
  constructor
  · rintro ⟨globs, hglobs, hg⟩
    obtain ⟨w, hw, rfl⟩ := Option.map_eq_some_iff.1 hglobs
    exact ⟨w, Value.hasEntry_iff.2 (OrderedMap.mem_of_lookup hw),
      Value.names_iff.2 (OrderedSet.mem_ofList.1 hg)⟩
  · rintro ⟨w, hw, hg⟩
    have hfound := OrderedMap.lookup_of_mem h.nodup_keys (Value.hasEntry_iff.1 hw)
    exact ⟨_, Option.map_eq_some_iff.2 ⟨w, hfound, rfl⟩,
      OrderedSet.mem_ofList.2 (Value.names_iff.1 hg)⟩

theorem Value.listsGlob_iff {v : Value} (h : v.WellFormed) {id g : String} :
    v.ListsGlob id g ↔ HasGlob (globsOfValue (v.get "by_filename")) id g := by
  have hmissing : ¬∃ globs, Value.missing.HasEntry id globs ∧ globs.Names g := by
    rintro ⟨globs, hentry, -⟩
    cases hasEntry_iff.1 hentry
  have hfiles := exists_hasEntry_iff h "by_filename"
    (P := fun files => ∃ globs, files.HasEntry id globs ∧ globs.Names g) hmissing
  rw [hasGlob_globsOfValue_iff (h.get _), ← hfiles]
  unfold ListsGlob
  simp only [exists_and_left]

namespace IgnoreSpec

theorem hides_ofValue_iff {v : Value} (h : v.WellFormed) (issue : Issue) :
    (ofValue v).Hides issue ↔ v.HidesIssue issue := by
  have hall : v.HasEntry "ids" (.text "*") ↔ v.get "ids" = .text "*" := by
    simpa using Value.exists_hasEntry_iff h "ids" (P := (· = .text "*")) nofun
  have hnamed : (∃ ids, v.HasEntry "ids" ids ∧ ids.Names issue.id) ↔ (v.get "ids").Names issue.id :=
    Value.exists_hasEntry_iff h "ids" (Value.not_names_missing _)
  unfold Value.HidesIssue
  rw [hall, hnamed]
  unfold ofValue
  split
  · rename_i hids
    exact ⟨fun _ => .inl (IgnoredIds.ofValue_eq_all_iff.1 hids), fun _ => trivial⟩
  · rename_i ids hids
    have hnot : v.get "ids" ≠ .text "*" := by
      intro heq
      rw [IgnoredIds.ofValue_eq_all_iff.2 heq] at hids
      cases hids
    simp only [IgnoreSpec.Hides, IgnoredIds.mem_ofValue_iff hids, Covers, hnot, false_or,
      Value.listsGlob_iff h]

theorem listsGlob_of_hasGlob {v : Value} (h : v.WellFormed) {id g : String}
    (hglob : HasGlob (ofValue v).byFilename id g) : v.ListsGlob id g := by
  unfold ofValue at hglob
  split at hglob
  -- where everything is hidden, no glob is kept
  · obtain ⟨globs, hglobs, -⟩ := hglob
    cases hglobs
  · exact (Value.listsGlob_iff h).2 hglob

end IgnoreSpec

/-! ## Configurations -/

namespace IgnoreConfig

theorem toList_ofValue {v : Value} (h : v.WellFormed) : (ofValue v).toList =
    (v.entries.filter (·.2.isMapping)).map fun e => (e.1, IgnoreSpec.ofValue e.2) := by
  refine OrderedMap.toList_ofList_map _ (h.nodup_keys.sublist ?_)
  exact List.filter_sublist.map Prod.fst

theorem find?_ofValue_iff {v : Value} (h : v.WellFormed) {linter : String} {s : IgnoreSpec} :
    (ofValue v).find? linter = some s ↔
      ∃ m, v.HasEntry linter m ∧ m.isMapping = true ∧ s = IgnoreSpec.ofValue m := by
  rw [OrderedMap.find?_eq_some, toList_ofValue h, List.mem_map]
  constructor
  · rintro ⟨⟨key, m⟩, he, hpair⟩
    obtain ⟨he, hmapping⟩ := List.mem_filter.1 he
    cases hpair
    exact ⟨m, Value.hasEntry_iff.2 he, hmapping, rfl⟩
  · rintro ⟨m, hm, hmapping, rfl⟩
    exact ⟨(linter, m), List.mem_filter.2 ⟨Value.hasEntry_iff.1 hm, hmapping⟩, rfl⟩

theorem mem_keys_ofValue_iff {v : Value} (h : v.WellFormed) {linter : String} :
    linter ∈ (ofValue v).keys ↔ ∃ m, v.HasEntry linter m ∧ m.isMapping = true := by
  rw [OrderedMap.mem_keys_iff, Option.isSome_iff_exists]
  constructor
  · rintro ⟨s, hs⟩
    obtain ⟨m, hm, hmapping, -⟩ := (find?_ofValue_iff h).1 hs
    exact ⟨m, hm, hmapping⟩
  · rintro ⟨m, hm, hmapping⟩
    exact ⟨_, (find?_ofValue_iff h).2 ⟨m, hm, hmapping, rfl⟩⟩

end IgnoreConfig

/-- What a value says of a linter in its own entry for it decides which of the linter's issues are hidden,
and a decision comes about whenever the globs that it lists under the id of the issue have expressions.
The linters of the configuration are the keys whose values are mappings. -/
theorem ofValue_hides_what_value_says {v : Value} (h : v.WellFormed) :
    (∀ linter, linter ∈ (IgnoreConfig.ofValue v).keys ↔
      ∃ m, v.HasEntry linter m ∧ m.isMapping = true) ∧
    ∀ linter issue,
      (∀ m g, v.HasEntry linter m → m.ListsGlob issue.id g → (Glob.ofString g).isValid = true) →
      ∃ answer, (IgnoreConfig.ofValue v).hides linter issue = .ok answer ∧
        (answer = true ↔ ∃ m, v.HasEntry linter m ∧ m.isMapping = true ∧ m.HidesIssue issue) := by
  refine ⟨fun linter => IgnoreConfig.mem_keys_ofValue_iff h, fun linter issue hglobs => ?_⟩
  unfold IgnoreConfig.hides
  cases hs : (IgnoreConfig.ofValue v).find? linter with
  | none =>
    refine ⟨false, rfl, nofun, ?_⟩
    rintro ⟨m, hm, hmapping, -⟩
    rw [(IgnoreConfig.find?_ofValue_iff h).2 ⟨m, hm, hmapping, rfl⟩] at hs
    cases hs
  | some s =>
    obtain ⟨m, hm, hmapping, rfl⟩ := (IgnoreConfig.find?_ofValue_iff h).1 hs
    have hwell : m.WellFormed := h.of_mem_entries (Value.hasEntry_iff.1 hm)
    have hvalid : ∀ g, HasGlob (IgnoreSpec.ofValue m).byFilename issue.id g →
        (Glob.ofString g).isValid = true :=
      fun g hg => hglobs m g hm (IgnoreSpec.listsGlob_of_hasGlob hwell hg)
    obtain ⟨answer, hanswer, hiff⟩ := IgnoreSpec.hides_eq_ok_of_globs hvalid
    refine ⟨answer, hanswer, ?_⟩
    rw [hiff, IgnoreSpec.hides_ofValue_iff hwell]
    constructor
    · exact fun hhides => ⟨m, hm, hmapping, hhides⟩
    · rintro ⟨m', hm', hmapping', hhides⟩
      exact hm.unique h hm' ▸ hhides

/-- A text `*` in a list is an id like any other, and members that are no texts do not count. -/
theorem ofValue_hides_glob_in_set :
    let docs := Value.object [("ids", .list [.text "*", .bool true]),
      ("by_filename", .object [("D2", .set [.null, .text "*.md"])])]
    let v := Value.object [("docs", docs), ("note", .text "docs"), ("none", .map [(.text "ids", .text "*")])]
    v.WellFormed ∧ (∀ m g, v.HasEntry "docs" m → m.ListsGlob "D2" g → (Glob.ofString g).isValid = true) ∧
    "none" ∈ (IgnoreConfig.ofValue v).keys ∧ "note" ∉ (IgnoreConfig.ofValue v).keys ∧
    (IgnoreConfig.ofValue v).hides "docs" ⟨"D2", "", .error, "a.md", ""⟩ = .ok true := by
  intro docs v
  have hdocs : docs.WellFormed := by
    refine .object (by decide) ?_
    simp only [List.forall_mem_cons, List.not_mem_nil, false_imp_iff, implies_true, and_true]
    refine ⟨.list ?_, .object (by decide) ?_⟩
    · simp [Value.WellFormed.text, Value.WellFormed.bool]
    · simp [Value.WellFormed.set, Value.WellFormed.null, Value.WellFormed.text]
  have h : v.WellFormed := by
    refine .object (by decide) ?_
    simp [hdocs, Value.WellFormed.text, Value.WellFormed.map]
  have hentry : v.HasEntry "docs" docs := ⟨_, rfl, List.mem_cons_self ..⟩
  have hvalid : ∀ m g, v.HasEntry "docs" m → m.ListsGlob "D2" g → (Glob.ofString g).isValid = true := by
    intro m g hm hg
    rw [← hentry.unique h hm] at hg
    obtain ⟨globs, hfound, hmem⟩ := (Value.listsGlob_iff hdocs).1 hg
    cases (show some (.ofList ["*.md"]) = some globs from hfound)
    rw [List.mem_singleton.1 (OrderedSet.mem_ofList.1 hmem)]
    rfl
  obtain ⟨hkeys, hhides⟩ := ofValue_hides_what_value_says h
  obtain ⟨answer, hanswer, hiff⟩ := hhides "docs" ⟨"D2", "", .error, "a.md", ""⟩ hvalid
  have hlists : docs.ListsGlob "D2" "*.md" :=
    (Value.listsGlob_iff hdocs).2 ⟨.ofList ["*.md"], rfl, OrderedSet.mem_ofList.2 (List.mem_singleton_self _)⟩
  have hhidden : answer = true := hiff.2 ⟨docs, hentry, rfl, .inr (.inr ⟨"*.md", hlists, rfl⟩)⟩
  refine ⟨h, hvalid, (hkeys "none").2 ⟨.map [(.text "ids", .text "*")], ?_, rfl⟩, ?_, hhidden ▸ hanswer⟩
  · exact ⟨_, rfl, by simp⟩
  · rw [hkeys]
    rintro ⟨m, hm, hmapping⟩
    have hnote : v.HasEntry "note" (.text "docs") := ⟨_, rfl, by simp⟩
    rw [← hnote.unique h hm] at hmapping
    cases hmapping

end LintEngine
