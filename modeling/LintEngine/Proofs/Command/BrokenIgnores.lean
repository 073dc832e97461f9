/-
Ignore files that are of no use. One that cannot be read, cannot be parsed or holds no mapping has no
rules (`IgnoreFile.Broken`), and in a layer of rules that is the same as to have no such file: what a lint
command comes to and what it prints depends on the rules in effect only (`lint_sameButDebug`). Main
statement: `broken_ignore_files_add_nothing`.
-/
import LintEngine.Proofs.Command.Summary
import LintEngine.Proofs.Ignore.Canonical
import LintEngine.Proofs.Ignore.Layers
import LintEngine.Proofs.Ignore.Semilattice
import LintEngine.Proofs.Run.Reference

namespace LintEngine

/-! ## Files without rules -/

namespace IgnoreFile

variable {f : Formats} {files : FileTree} {path : String}

/-- Why there are no rules to be had from a file: it cannot be read, or its text cannot be parsed, or that
is not the text of a mapping. -/
inductive Broken (f : Formats) (files : FileTree) (path : String) : Prop
  | unreadable {fault : FileFault} (failed : files.read path = .error fault)
  | unparsable {text : String} {fault : Fault} (readable : files.read path = .ok text)
      (failed : f.document text = .error fault)
  | noMapping {text : String} {v : Value} (readable : files.read path = .ok text)
      (parsed : f.document text = .ok v) (other : v.isMapping = false)

theorem Broken.rules_eq (h : Broken f files path) : (read f files path).2 = ∅ := by
  unfold read Formats.readDocument
  cases h with
  | unreadable failed => rw [failed]
  | unparsable readable failed => rw [readable]; simp only [failed]
  | noMapping readable parsed other => rw [readable]; simp [parsed, other]

/-- The file that a project keeps its rules in is the first of the candidates that is there; what comes
behind it in the list of candidates is of no account. -/
theorem find?_spec {dir : String} (h : find? files dir = some path) :
    ∃ front back, candidates.map (Path.join dir) = front ++ path :: back ∧
      (∀ earlier ∈ front, files.pathExists earlier = false) ∧
      ∀ files' : FileTree, (∀ p ∈ front ++ [path], files'.at? p = files.at? p) →
        loadProject f files' dir = loadProject f files dir := by
  obtain ⟨hpath, front, back, hsplit, hfront⟩ := List.find?_eq_some_iff_append.1 h
  refine ⟨front, back, hsplit, fun p hp => by simpa using hfront p hp, ?_⟩
  intro files' hsame
  have hthere : ∀ p ∈ front ++ [path], files'.pathExists p = files.pathExists p :=
    fun p hp => congrArg Option.isSome (hsame p hp)
  have hfound : find? files' dir = some path := by
    refine List.find?_eq_some_iff_append.2 ⟨?_, front, back, hsplit, fun p hp => ?_⟩
    · rw [hthere path (by simp)]; exact hpath
    · rw [hthere p (by simp [hp])]; exact hfront p hp
  obtain ⟨entry, hentry⟩ := Option.isSome_iff_exists.1 hpath
  have hread : read f files' path = read f files path := by
    have hentry' : files'.at? path = some entry := (hsame path (by simp)).trans hentry
    unfold read Formats.readDocument FileTree.read
    rw [FileTree.at?_eq_some_iff.1 hentry, FileTree.at?_eq_some_iff.1 hentry']
  unfold loadProject
  rw [h, hfound]
  simp only [hread]

theorem rules_loadProject {dir : String} (found : find? files dir = some path)
    (h : Broken f files path) : (loadProject f files dir).2 = ∅ := by
  unfold loadProject
  rw [found]
  exact h.rules_eq

/-- Of several files one that is not there or broken can be left out. -/
theorem rules_loadExtra (h : files.pathExists path = false ∨ Broken f files path)
    (front back : List String) :
    (loadExtra f files (front ++ back)).2 = (loadExtra f files (front ++ path :: back)).2 := by
  have hcanonical : ((configs f files front).foldl IgnoreConfig.merge ∅).IsCanonical :=
    IgnoreConfig.isCanonical_foldl_merge _ IgnoreConfig.isCanonical_empty
  simp only [loadExtra_eq, configs] at hcanonical ⊢
  rw [List.filter_append, List.filter_append, List.map_append, List.map_append, List.foldl_append,
    List.foldl_append]
  by_cases hpath : files.pathExists path = true
  -- layering nothing makes a configuration canonical, which the layers in front already are
  · have hbroken := h.resolve_left (by rw [hpath]; decide)
    rw [List.filter_cons_of_pos hpath, List.map_cons, List.foldl_cons, hbroken.rules_eq,
      IgnoreConfig.merge_empty, IgnoreConfig.canonical_eq_self_iff.2 hcanonical]
  · rw [List.filter_cons_of_neg hpath]

end IgnoreFile

/-! ## Commands that differ in debug lines -/

/-- Two ways in which a command ends that nothing tells apart but debug lines. -/
structure LintRun.SameButDebug (run run' : LintRun) : Prop where
  result : run.result = run'.result
  messages : messagesOf run.log = messagesOf run'.log
  events : run.events = run'.events
  state : run.state = run'.state
  files : run.files = run'.files

namespace LintRun

theorem SameButDebug.refl (run : LintRun) : run.SameButDebug run := ⟨rfl, rfl, rfl, rfl, rfl⟩

theorem SameButDebug.afterLog {run run' : LintRun} (h : run.SameButDebug run')
    (before before' : List String) :
    (run.afterLog (before.map .debug)).SameButDebug (run'.afterLog (before'.map .debug)) where
  result := h.result
  messages := by simp [LintRun.afterLog, h.messages]
  events := h.events
  state := h.state
  files := h.files

/-- Debug lines around what is written, a fault behind it, and the file tree that is left keep two ends the
same. -/
theorem SameButDebug.around {run run' : LintRun} (h : run.SameButDebug run')
    (before after before' after' : List String) (raised? : Option Fault) (files : FileTree) :
    SameButDebug
      { run with
        result := Failure.behind raised? run.result
        log := before.map .debug ++ run.log ++ after.map .debug
        files }
      { run' with
        result := Failure.behind raised? run'.result
        log := before'.map .debug ++ run'.log ++ after'.map .debug
        files } where
  result := congrArg (Failure.behind raised?) h.result
  messages := by simp [h.messages]
  events := h.events
  state := h.state
  files := rfl

/-- Commands that are not carried out for one reason end the same. -/
theorem SameButDebug.broken (failure : Failure) (log log' : List String) (state : Orchestrator)
    (files : FileTree) : (LintRun.broken failure (log.map .debug) state files).SameButDebug
      (LintRun.broken failure (log'.map .debug) state files) :=
  ⟨rfl, by simp [LintRun.broken], rfl, rfl, rfl⟩

end LintRun

namespace Artifact

/-- What the consumer of an artifact does has no effect on the file tree in the end. -/
theorem files_withUnpackedBy_congr {α : Type} (tools : Tools) (files : FileTree)
    (artifact tempName : String) (use use' : String → FileTree → α) :
    (withUnpackedBy tools files artifact tempName use).files =
      (withUnpackedBy tools files artifact tempName use').files := by
  unfold withUnpackedBy
  split
  · rfl
  · rfl
  · simp only
    split
    · rfl
    · split <;> rfl

end Artifact

/-- The options with other further files of rules. -/
def LintOptions.withIgnoreFiles (options : LintOptions) (paths : List String) : LintOptions :=
  { options with lintIgnoreFiles := paths }

namespace LintSetup

/-- The setup with other rules of the project. -/
def withProjectIgnores (s : LintSetup) (layer : FileTree → String → List String × IgnoreConfig) :
    LintSetup :=
  { s with strategies := { s.strategies with projectIgnores := layer } }

@[simp] theorem app_withProjectIgnores (s : LintSetup)
    (layer : FileTree → String → List String × IgnoreConfig) : (s.withProjectIgnores layer).app = s.app := rfl

@[simp] theorem tools_withProjectIgnores (s : LintSetup)
    (layer : FileTree → String → List String × IgnoreConfig) :
    (s.withProjectIgnores layer).tools = s.tools := rfl

variable {s t : LintSetup} {o : Orchestrator} {files : FileTree} {options : LintOptions} {r : StageRequest}

theorem events_runStage (s : LintSetup) (o : Orchestrator) (r : StageRequest) :
    (s.runStage o r).events = (s.drained o r).1.flatMap eventsOf := by
  simp only [runStage, drained]
  split <;> rfl

/-- All that tells two ends of a stage apart but debug lines is what its run comes to. -/
theorem runStage_sameButDebug (h : t.drained o r = s.drained o r) :
    (t.runStage o r).SameButDebug (s.runStage o r) := by
  have hresult : (t.runStage o r).result = (s.runStage o r).result := by
    rw [result_runStage, result_runStage, h]
  have hstate : (t.runStage o r).state = (s.runStage o r).state := by
    rw [state_runStage, state_runStage, h]
  refine
    { result := hresult
      messages := ?_
      events := by rw [events_runStage, events_runStage, h]
      state := hstate
      files := by rw [files_runStage, files_runStage] }
  -- what is printed is settled by the result and the state
  cases hs : (s.runStage o r).result with
  | error failure => rw [messagesOf_runStage (hresult.trans hs), messagesOf_runStage hs]
  | ok status => rw [(runStage_ok (hresult.trans hs)).2, (runStage_ok hs).2, hstate]

/-- When they come to the same, it makes no difference to a stage where the rules of a project are from. -/
theorem drained_withProjectIgnores {layer : FileTree → String → List String × IgnoreConfig}
    (h : (layer r.ctx.files r.ctx.projectDir).2 =
      (s.strategies.projectIgnores r.ctx.files r.ctx.projectDir).2) :
    (s.withProjectIgnores layer).drained o r = s.drained o r := by
  have hrules : (s.withProjectIgnores layer).rulesOf r = s.rulesOf r :=
    congrArg (Strategies.rulesFor · _) h
  have htrace := fun rules => Strategies.trace_congr (s := s.strategies)
    (t := (s.withProjectIgnores layer).strategies) rfl rfl rules r.stage.label r.ctx
  unfold drained Strategies.drain
  simp only [hrules, htrace]
  rfl

/-- A command is told by the stage that it starts, when its further files come to the same rules. -/
theorem lint_sameButDebug {layer : FileTree → String → List String × IgnoreConfig} {paths : List String}
    (hcli : (s.cliIgnores files (options.withIgnoreFiles paths)).2 = (s.cliIgnores files options).2)
    (hstage : ∀ r, s.Starts files options r →
      ((s.withProjectIgnores layer).runStage o r).SameButDebug (s.runStage o r)) :
    ((s.withProjectIgnores layer).lint o files (options.withIgnoreFiles paths)).SameButDebug
      (s.lint o files options) := by
  cases located : Project.locate files options.projectPath s.app with
  | error failure =>
    rw [lint_of_unlocated located, lint_of_unlocated (by exact located)]
    exact .refl _
  | ok projectFile =>
    cases packed : options.postArtifact with
    | none =>
      have hrequest : (s.withProjectIgnores layer).sourceRequest files (options.withIgnoreFiles paths)
          projectFile = s.sourceRequest files options projectFile :=
        congrArg (fun cliIgnores => { s.sourceRequest files options projectFile with cliIgnores }) hcli
      have hother := @lint_of_source (s.withProjectIgnores layer) files (options.withIgnoreFiles paths)
        projectFile located packed o
      rw [lint_of_source located packed, hother, hrequest]
      exact (hstage _ (.plain located packed)).afterLog _ _
    | some artifact =>
      cases looked : files.lookFault? artifact with
      | some fault =>
        have hother := @lint_of_unseen (s.withProjectIgnores layer) files (options.withIgnoreFiles paths)
          projectFile artifact located packed fault looked o
        rw [lint_of_unseen located packed looked, hother]
        exact .broken _ _ _ _ _
      | none =>
        rcases Artifact.refuses_or_opens s.tools files artifact (s.app ++ "-lint-") with
          ⟨e, refused⟩ | ⟨dir, tree, opens⟩
        · have hlint := lint_of_artifact located packed looked o
          have hother := @lint_of_artifact (s.withProjectIgnores layer) files
            (options.withIgnoreFiles paths) projectFile artifact located packed looked o
          simp only [app_withProjectIgnores, tools_withProjectIgnores, refused.result_eq,
            ← List.map_append] at hlint hother
          rw [hlint, hother, Artifact.files_withUnpackedBy_congr _ _ _ _ _ fun dir tree =>
            s.runStage o (s.artifactRequest files options projectFile dir tree)]
          exact .broken _ _ _ _ _
        · have hrequest : (s.withProjectIgnores layer).artifactRequest files
              (options.withIgnoreFiles paths) projectFile dir tree =
                s.artifactRequest files options projectFile dir tree := congrArg
            (fun cliIgnores =>
              { s.artifactRequest files options projectFile dir tree with cliIgnores }) hcli
          obtain ⟨before, after, hlint⟩ := lint_of_opens located packed opens o
          obtain ⟨before', after', hother⟩ := @lint_of_opens (s.withProjectIgnores layer) files
            (options.withIgnoreFiles paths) projectFile artifact located packed dir tree opens o
          simp only [hrequest, tools_withProjectIgnores] at hother
          rw [hlint, hother]
          exact (hstage _ (.unpacked located packed opens)).around _ _ _ _ _ _

end LintSetup

/-- Ignore files that are broken add no rules and do no harm. When the file that a project keeps its rules
in is broken, which is the first of the candidates that is there, a lint command comes to what it comes to
without any rules of the project; the candidates behind that one are not looked at. When one of the further
files is not there or broken, wherever it stands among them, the command comes to what it comes to without
that file. Nothing but debug lines is different. -/
theorem broken_ignore_files_add_nothing (s : LintSetup)
    (hs : s.strategies.projectIgnores = IgnoreFile.loadProject s.formats) (o : Orchestrator)
    (files : FileTree) (options : LintOptions) :
    let bare := s.withProjectIgnores fun _ _ => ([], ∅)
    ((∀ r, s.Starts files options r → ∃ path,
        IgnoreFile.find? r.ctx.files r.ctx.projectDir = some path ∧
          IgnoreFile.Broken s.formats r.ctx.files path) →
      (bare.lint o files options).SameButDebug (s.lint o files options)) ∧
    (∀ tree dir path, IgnoreFile.find? tree dir = some path → ∃ front back,
      IgnoreFile.candidates.map (Path.join dir) = front ++ path :: back ∧
      (∀ earlier ∈ front, tree.pathExists earlier = false) ∧
      ∀ tree' : FileTree, (∀ p ∈ front ++ [path], tree'.at? p = tree.at? p) →
        s.strategies.projectIgnores tree' dir = s.strategies.projectIgnores tree dir) ∧
    ∀ front path back, options.lintIgnoreFiles = front ++ path :: back →
      (files.pathExists path = false ∨ IgnoreFile.Broken s.formats files path) →
      (s.lint o files (options.withIgnoreFiles (front ++ back))).SameButDebug (s.lint o files options) := by
  intro bare
  refine ⟨?_, ?_, ?_⟩
  · intro hbroken
    refine LintSetup.lint_sameButDebug (by exact rfl) ?_
    intro r starts
    obtain ⟨path, found, broken⟩ := hbroken r starts
    refine LintSetup.runStage_sameButDebug (LintSetup.drained_withProjectIgnores ?_)
    rw [hs, IgnoreFile.rules_loadProject found broken]
  · intro tree dir path found
    rw [hs]
    exact IgnoreFile.find?_spec found
  · intro front path back hfiles hpath
    have hcli : (s.cliIgnores files (options.withIgnoreFiles (front ++ back))).2 =
        (s.cliIgnores files options).2 := by
      have hextra := IgnoreFile.rules_loadExtra (f := s.formats) hpath front back
      rw [← hfiles] at hextra
      exact congrArg (IgnoreConfig.merge · _) hextra
    exact @LintSetup.lint_sameButDebug s o files options s.strategies.projectIgnores _ hcli fun r _ => .refl _

/-- A directory has the name of the preferred ignore file, the next candidate would hide what is found, and
of the further files one is not there and one cannot be parsed. -/
theorem broken_ignore_files_add_nothing_beside_candidate :
    let rules := Value.object [("testcraft.missing_version", .object [("ids", .text "*")])]
    let document := fun text =>
      if text = "[" then .error .document else .ok (if text = "rules" then rules else .object [])
    let s := Testcraft.setup { document, members := fun _ => none }
    let project : FileTree := FileTree.put {} ["testcraft.yaml"] (.text "")
    let files := ((project.put ["craft-lint.yaml", "old"] (.text "")).put [".craft-lint.yaml"]
      (.text "rules")).put ["more.yaml"] (.text "[")
    let options : LintOptions := { lintIgnoreFiles := ["none.yaml", "more.yaml"] }
    let run := s.lint {} files options
    ((s.withProjectIgnores fun _ _ => ([], ∅)).lint {} files options).SameButDebug run ∧
      (s.lint {} files (options.withIgnoreFiles ["none.yaml"])).SameButDebug run ∧
      (s.lint {} files (options.withIgnoreFiles ["more.yaml"])).SameButDebug run ∧
      run.state.issues = [Testcraft.versionIssue "/testcraft.yaml"] ∧
      (IgnoreFile.read s.formats files "/.craft-lint.yaml").2.hides "testcraft.missing_version"
        (Testcraft.versionIssue "/testcraft.yaml") = .ok true := by
  intro rules document s project files options run
  obtain ⟨hproject, -, hextra⟩ := broken_ignore_files_add_nothing s rfl {} files options
  have hproject' : (Project.locate files options.projectPath s.app).toOption = some "/testcraft.yaml" := by
    decide +kernel
  refine ⟨hproject ?_, ?_, ?_, by decide +kernel, by rfl⟩
  · intro r starts
    cases starts with
    | unpacked _ packed _ => cases packed
    | plain located _ =>
      rw [located] at hproject'
      cases hproject'
      have unread : files.read "/craft-lint.yaml" = .error .isDirectory := by rfl
      exact ⟨"/craft-lint.yaml", by decide +kernel, .unreadable unread⟩
  · have readable : files.read "more.yaml" = .ok "[" := by rfl
    exact hextra ["none.yaml"] "more.yaml" [] rfl (.inr (.unparsable readable rfl))
  · exact hextra [] "none.yaml" ["more.yaml"] rfl (.inl (by decide +kernel))

end LintEngine
