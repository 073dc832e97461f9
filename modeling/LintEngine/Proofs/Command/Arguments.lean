/-
The grammar of the command line. A list of arguments has one reading as segments: empty arguments,
requests for help, positional arguments and flags with their values (`existsUnique_reads`). What the
arguments come to is said of the segments alone, and so is which of them is the first that is not
accepted. Main statements: `parse_follows_grammar`, and on the stage of a packed artifact
`stage_of_artifact_iff`.
-/
import LintEngine.Command.Options
import Mathlib.Data.List.Basic

namespace LintEngine.LintOptions

/-! ## Segments -/

/-- A part of the command line that is read as one. -/
inductive Segment
  /-- An empty argument. -/
  | blank
  | help
  | positional (path : String)
  /-- A flag and its value; there is none when nothing stands behind the flag. -/
  | flag (f : Flag) (value : Option String)
  /-- An option by a name that is no flag's. -/
  | unknown (name : String)
deriving DecidableEq

/-- Arguments begin with a segment, and others stand behind it. A flag has its value behind an equals
sign, or takes the argument behind it, whatever that looks like. -/
inductive Begins : List String → Segment → List String → Prop
  | blank {rest : List String} : Begins ("" :: rest) .blank rest
  | help {arg : String} {rest : List String} (asked : arg = "-h" ∨ arg = "--help") :
      Begins (arg :: rest) .help rest
  | positional {path : String} {rest : List String} (full : path ≠ "")
      (plain : path.toList.head? ≠ some '-') : Begins (path :: rest) (.positional path) rest
  | joined {f : Flag} {value : String} {rest : List String} :
      Begins ((f.text ++ "=" ++ value) :: rest) (.flag f (some value)) rest
  | parted {f : Flag} {value : String} {rest : List String} :
      Begins (f.text :: value :: rest) (.flag f (some value)) rest
  | last {f : Flag} : Begins [f.text] (.flag f none) []
  | unknown {arg name : String} {rest : List String}
      (written : arg = name ∨ ∃ value, arg = name ++ "=" ++ value)
      (noHelp : arg ∉ ["-h", "--help"]) (dash : name.toList.head? = some '-')
      (whole : '=' ∉ name.toList) (noFlag : ∀ f : Flag, name ≠ f.text) :
      Begins (arg :: rest) (.unknown name) rest

/-- The reading of a list of arguments, from left to right. -/
inductive Reads : List String → List Segment → Prop
  | nil : Reads [] []
  | cons {args rest : List String} {s : Segment} {ss : List Segment} (begins : Begins args s rest)
      (reads : Reads rest ss) : Reads args (s :: ss)

/-! ### The one reading -/

/-- The segment that an argument begins, and the arguments behind it. -/
def nextSegment (arg : String) (rest : List String) : Segment × List String :=
  if arg = "" then (.blank, rest)
  else if arg = "-h" ∨ arg = "--help" then (.help, rest)
  else if arg.toList.head? ≠ some '-' then (.positional arg, rest)
  else
    let (name, inline) := splitFlag arg
    match Flag.ofText? name, inline, rest with
    | none, _, _ => (.unknown name, rest)
    | some f, some value, _ => (.flag f (some value), rest)
    | some f, none, [] => (.flag f none, [])
    | some f, none, value :: rest => (.flag f (some value), rest)

theorem equals_not_mem_text (f : Flag) : '=' ∉ f.text.toList := by
  cases f <;> decide

theorem head?_text (f : Flag) : f.text.toList.head? = some '-' := by
  cases f <;> decide

theorem text_not_mem_helps (f : Flag) : f.text ∉ ["-h", "--help"] := by
  cases f <;> decide

theorem head?_joined {name : String} {value : String} :
    (name ++ "=" ++ value).toList.head? = some '-' ↔ name.toList.head? = some '-' := by
  rw [String.append_assoc, String.toList_append]
  cases name.toList with
  | nil => exact iff_of_false (by simp [String.toList_append]) (by simp)
  | cons c cs => rfl

theorem joined_not_mem_helps (name value : String) : name ++ "=" ++ value ∉ ["-h", "--help"] := by
  intro h
  have hequals : '=' ∈ (name ++ "=" ++ value).toList := by simp [String.toList_append]
  rcases List.mem_cons.1 h with h | h
  · rw [h] at hequals; revert hequals; decide
  · rw [List.mem_singleton.1 h] at hequals; revert hequals; decide

/-- An argument that starts with a dash and asks for no help is read as its name says. -/
theorem nextSegment_option {arg : String} (dash : arg.toList.head? = some '-')
    (noHelp : arg ∉ ["-h", "--help"]) (rest : List String) :
    nextSegment arg rest =
      match Flag.ofText? (splitFlag arg).1, (splitFlag arg).2, rest with
      | none, _, _ => (.unknown (splitFlag arg).1, rest)
      | some f, some value, _ => (.flag f (some value), rest)
      | some f, none, [] => (.flag f none, [])
      | some f, none, value :: rest => (.flag f (some value), rest) := by
  have hfull : arg ≠ "" := by rintro rfl; cases dash
  have hhelp : ¬(arg = "-h" ∨ arg = "--help") := by simpa using noHelp
  unfold nextSegment
  rw [if_neg hfull, if_neg hhelp, if_neg (not_not.2 dash)]

theorem nextSegment_of_begins {arg : String} {rest left : List String} {s : Segment}
    (h : Begins (arg :: rest) s left) : nextSegment arg rest = (s, left) := by
  cases h with
  | blank => rfl
  | help asked =>
    have hfull : arg ≠ "" := by rintro rfl; revert asked; decide
    rw [nextSegment, if_neg hfull, if_pos asked]
  | positional full plain =>
    have hhelp : ¬(arg = "-h" ∨ arg = "--help") := by rintro (rfl | rfl) <;> exact plain rfl
    rw [nextSegment, if_neg full, if_neg hhelp, if_pos plain]
  | @joined f value =>
    rw [nextSegment_option (head?_joined.2 (head?_text f)) (joined_not_mem_helps f.text value),
      splitFlag_joined (equals_not_mem_text f), Flag.ofText?_text]
  | @parted f value =>
    rw [nextSegment_option (head?_text f) (text_not_mem_helps f),
      splitFlag_plain (equals_not_mem_text f), Flag.ofText?_text]
  | @last f =>
    rw [nextSegment_option (head?_text f) (text_not_mem_helps f),
      splitFlag_plain (equals_not_mem_text f), Flag.ofText?_text]
  | @unknown _ name _ written noHelp dash whole noFlag =>
    have hname : Flag.ofText? name = none := Flag.ofText?_eq_none_iff.2 noFlag
    rcases written with rfl | ⟨value, rfl⟩
    · rw [nextSegment_option dash noHelp, splitFlag_plain whole, hname]
    · rw [nextSegment_option (head?_joined.2 dash) noHelp, splitFlag_joined whole, hname]

/-- How an option is written, told by the parts that it is split into. -/
theorem splitFlag_spec (arg : String) : '=' ∉ (splitFlag arg).1.toList ∧
    ((splitFlag arg).2 = none ∧ arg = (splitFlag arg).1 ∨
      ∃ value, (splitFlag arg).2 = some value ∧ arg = (splitFlag arg).1 ++ "=" ++ value) := by
  unfold splitFlag
  split
  · rename_i hcut
    exact ⟨IgnoreRule.cutAt_eq_none_iff.1 hcut, .inl ⟨rfl, rfl⟩⟩
  · rename_i front behind hcut
    obtain ⟨hchars, hfront⟩ := IgnoreRule.eq_append_of_cutAt hcut
    refine ⟨by simpa using hfront, .inr ⟨_, rfl, String.toList_inj.1 ?_⟩⟩
    simp [hchars, String.toList_append]

theorem begins_nextSegment (arg : String) (rest : List String) :
    Begins (arg :: rest) (nextSegment arg rest).1 (nextSegment arg rest).2 := by
  unfold nextSegment
  split
  · rename_i hempty; subst hempty; exact .blank
  split
  · rename_i hhelp; exact .help hhelp
  split
  · rename_i hfull _ hplain; exact .positional hfull hplain
  rename_i hfull hhelp hdash
  obtain ⟨whole, hwritten⟩ := splitFlag_spec arg
  have noHelp : arg ∉ ["-h", "--help"] := by simpa using hhelp
  generalize splitFlag arg = parts at whole hwritten
  obtain ⟨name, inline⟩ := parts
  simp only at whole hwritten ⊢
  cases hflag : Flag.ofText? name with
  | none =>
    have hname := Flag.ofText?_eq_none_iff.1 hflag
    rcases hwritten with ⟨rfl, rfl⟩ | ⟨value, rfl, rfl⟩
    · exact .unknown (.inl rfl) noHelp (not_not.1 hdash) whole hname
    · exact .unknown (.inr ⟨value, rfl⟩) noHelp (head?_joined.1 (not_not.1 hdash)) whole hname
  | some f =>
    obtain rfl := Flag.text_of_ofText? hflag
    rcases hwritten with ⟨rfl, rfl⟩ | ⟨value, rfl, rfl⟩
    · cases rest with
      | nil => exact .last
      | cons value rest => exact .parted
    · exact .joined

/-- Arguments begin with one segment. -/
theorem begins_iff {arg : String} {rest left : List String} {s : Segment} :
    Begins (arg :: rest) s left ↔ nextSegment arg rest = (s, left) := by
  refine ⟨nextSegment_of_begins, fun h => ?_⟩
  have hbegins := begins_nextSegment arg rest
  rwa [h] at hbegins

theorem length_lt_of_begins {args rest : List String} {s : Segment} (h : Begins args s rest) :
    rest.length < args.length := by
  cases h <;> simp only [List.length_cons, List.length_nil] <;> omega

theorem exists_reads (args : List String) : ∃ ss, Reads args ss := by
  -- a flag may take two arguments at once, so the induction is on the length
  induction hlen : args.length using Nat.strongRecOn generalizing args with
  | ind n ih =>
    subst hlen
    cases args with
    | nil => exact ⟨[], .nil⟩
    | cons arg rest =>
      have hbegins := begins_nextSegment arg rest
      obtain ⟨ss, hss⟩ := ih _ (length_lt_of_begins hbegins) _ rfl
      exact ⟨_, .cons hbegins hss⟩

theorem Reads.unique {args : List String} {ss ss' : List Segment} (h : Reads args ss)
    (h' : Reads args ss') : ss = ss' := by
  induction h generalizing ss' with
  | nil =>
    cases h' with
    | nil => rfl
    | cons begins => cases begins
  | @cons args rest s ss begins _ ih =>
    cases h' with
    | nil => cases begins
    | @cons _ rest' s' ss' begins' reads' =>
      cases args with
      | nil => cases begins
      | cons arg args =>
        have hsame : (s, rest) = (s', rest') := (begins_iff.1 begins).symm.trans (begins_iff.1 begins')
        obtain ⟨rfl, rfl⟩ := Prod.mk.inj hsame
        rw [ih reads']

theorem existsUnique_reads (args : List String) : ∃! ss, Reads args ss := by
  obtain ⟨ss, hss⟩ := exists_reads args
  exact ⟨ss, hss, fun ss' hss' => hss'.unique hss⟩

/-! ## What segments come to -/

namespace Segment

/-- The project that a segment names. -/
def path? : Segment → Option String
  | .positional path => some path
  | _ => none

/-- The value that a segment gives to a flag. -/
def value? (f : Flag) : Segment → Option String
  | .flag g value => if g = f then value else none
  | _ => none

/-- The stage that a segment decides on: its own value, or the one of packed artifacts. -/
def stage? : Segment → Option Stage
  | .flag .stage value => value.bind Stage.ofLabel?
  | .flag .post _ => some .post
  | _ => none

/-- The ignore rule that a segment gives. -/
def rule? (s : Segment) : Option IgnoreRule :=
  (s.value? .lintIgnore).bind fun value => (IgnoreRule.parse value).toOption

end Segment

/-- What a user asks for with segments. -/
def ofSegments (ss : List Segment) : LintOptions where
  projectPath := (ss.filterMap Segment.path?).getLast?.getD "."
  stage := (ss.filterMap Segment.stage?).getLast?.getD .pre
  postArtifact := (ss.filterMap (Segment.value? .post)).getLast?
  lintIgnores := ss.filterMap Segment.rule?
  lintIgnoreFiles := ss.filterMap (Segment.value? .lintIgnoreFile)
  help := decide (.help ∈ ss)

/-- The values that a flag admits. -/
def Flag.Admits (value : String) : Flag → Prop
  | .stage => value = "pre" ∨ value = "post"
  | .lintIgnore => ∃ rule, IgnoreRule.parse value = .ok rule
  | .post | .lintIgnoreFile => True

/-- A segment that is not wrong by itself. -/
def Segment.IsSound : Segment → Prop
  | .blank | .help | .positional _ => True
  | .flag f (some value) => value ≠ "" ∧ f.Admits value
  | .flag _ none | .unknown _ => False

/-- The segments of a command line that is understood. -/
structure Accepted (ss : List Segment) : Prop where
  sound : ∀ s ∈ ss, s.IsSound
  single : (ss.filterMap Segment.path?).length ≤ 1

/-- What is wrong with a segment that stands behind others. -/
inductive Offends (front : List Segment) : Segment → AppError → Prop
  | unknown {name : String} :
      Offends front (.unknown name) (.usage ("Unknown option '" ++ name ++ "'"))
  | missing {f : Flag} {value : Option String} (empty : value = none ∨ value = some "") :
      Offends front (.flag f value) (.usage ("Option '" ++ f.text ++ "' requires a value"))
  | stage {value : String} (full : value ≠ "") (other : ¬(value = "pre" ∨ value = "post")) :
      Offends front (.flag .stage (some value))
        (.usage ("Invalid stage '" ++ value ++ "': expected 'pre' or 'post'"))
  | rule {value : String} {e : AppError} (full : value ≠ "")
      (malformed : IgnoreRule.parse value = .error e) : Offends front (.flag .lintIgnore (some value)) e
  | extra {path : String} (named : front.filterMap Segment.path? ≠ []) :
      Offends front (.positional path) (.usage ("Unexpected argument '" ++ path ++ "'"))

/-! ### One segment more -/

theorem getLast?_filterMap_concat {α β : Type} (f : α → Option β) (l : List α) (a : α) :
    ((l ++ [a]).filterMap f).getLast? = (f a).or (l.filterMap f).getLast? := by
  cases h : f a <;> simp [h]

/-- The options with what a segment says on top. -/
def adding (o : LintOptions) (s : Segment) : LintOptions where
  projectPath := s.path?.getD o.projectPath
  stage := s.stage?.getD o.stage
  postArtifact := (s.value? .post).or o.postArtifact
  lintIgnores := o.lintIgnores ++ s.rule?.toList
  lintIgnoreFiles := o.lintIgnoreFiles ++ (s.value? .lintIgnoreFile).toList
  help := o.help || decide (s = .help)

section Adding

variable (o : LintOptions)

@[simp] theorem adding_blank : o.adding .blank = o := by
  simp [adding, Segment.path?, Segment.stage?, Segment.value?, Segment.rule?]

@[simp] theorem adding_help : o.adding .help = { o with help := true } := by
  simp [adding, Segment.path?, Segment.stage?, Segment.value?, Segment.rule?]

@[simp] theorem adding_positional (path : String) :
    o.adding (.positional path) = { o with projectPath := path } := by
  simp [adding, Segment.path?, Segment.stage?, Segment.value?, Segment.rule?]

theorem adding_stage {value : String} {stage : Stage} (h : Stage.ofLabel? value = some stage) :
    o.adding (.flag .stage (some value)) = { o with stage } := by
  simp [adding, Segment.path?, Segment.stage?, Segment.value?, Segment.rule?, h]

theorem adding_post (value : String) :
    o.adding (.flag .post (some value)) = { o with postArtifact := some value, stage := .post } := by
  simp [adding, Segment.path?, Segment.stage?, Segment.value?, Segment.rule?]

theorem adding_lintIgnore {value : String} {rule : IgnoreRule} (h : IgnoreRule.parse value = .ok rule) :
    o.adding (.flag .lintIgnore (some value)) =
      { o with lintIgnores := o.lintIgnores ++ [rule] } := by
  simp [adding, Segment.path?, Segment.stage?, Segment.value?, Segment.rule?, h, Except.toOption]

theorem adding_lintIgnoreFile (value : String) :
    o.adding (.flag .lintIgnoreFile (some value)) =
      { o with lintIgnoreFiles := o.lintIgnoreFiles ++ [value] } := by
  simp [adding, Segment.path?, Segment.stage?, Segment.value?, Segment.rule?]

end Adding

theorem ofSegments_concat (front : List Segment) (s : Segment) :
    ofSegments (front ++ [s]) = (ofSegments front).adding s := by
  have hlist {β : Type} (f : Segment → Option β) :
      (front ++ [s]).filterMap f = front.filterMap f ++ (f s).toList := by
    cases h : f s <;> simp [h]
  have hhelp : decide (.help ∈ front ++ [s]) = ((ofSegments front).help || decide (s = .help)) := by
    simp [ofSegments, eq_comm]
  conv_lhs => unfold ofSegments
  rw [getLast?_filterMap_concat, getLast?_filterMap_concat, getLast?_filterMap_concat, hlist, hlist,
    hhelp]
  unfold adding
  cases s.path? <;> cases s.stage? <;> rfl

theorem accepted_concat_iff {front : List Segment} {s : Segment} : Accepted (front ++ [s]) ↔
    Accepted front ∧ s.IsSound ∧ (s.path? ≠ none → front.filterMap Segment.path? = []) := by
  have hlength : ((front ++ [s]).filterMap Segment.path?).length ≤ 1 ↔
      (front.filterMap Segment.path?).length ≤ 1 ∧
        (s.path? ≠ none → front.filterMap Segment.path? = []) := by
    cases h : s.path? with
    | none => simp [h]
    | some path =>
      have hlast : ([s].filterMap Segment.path?).length = 1 := by simp [h]
      rw [List.filterMap_append, List.length_append, hlast]
      constructor
      · intro hle
        exact ⟨by omega, fun _ => List.eq_nil_of_length_eq_zero (by omega)⟩
      · rintro ⟨-, hnone⟩
        rw [hnone (by simp)]; simp
  constructor
  · rintro ⟨hsound, hsingle⟩
    obtain ⟨hfront, hs⟩ := hlength.1 hsingle
    exact ⟨⟨fun t ht => hsound t (List.mem_append_left _ ht), hfront⟩,
      hsound s (List.mem_append_right _ (List.mem_singleton_self s)), hs⟩
  · rintro ⟨⟨hsound, hfront⟩, hs, hnamed⟩
    refine ⟨fun t ht => ?_, hlength.2 ⟨hfront, hnamed⟩⟩
    rcases List.mem_append.1 ht with ht | ht
    · exact hsound t ht
    · rw [List.mem_singleton.1 ht]; exact hs

/-- What one segment adds to the options; `named` when a project was already named. -/
def take (o : LintOptions) (named : Bool) : Segment → Except AppError (LintOptions × Bool)
  | .blank => .ok (o, named)
  | .help => .ok ({ o with help := true }, named)
  | .positional path =>
    if named then .error (.usage ("Unexpected argument '" ++ path ++ "'"))
    else .ok ({ o with projectPath := path }, true)
  | .flag f value => (o.applyValue f.text f value).map (·, named)
  | .unknown name => .error (.usage ("Unknown option '" ++ name ++ "'"))

theorem parseFrom_cons (o : LintOptions) (named : Bool) (arg : String) (rest : List String) :
    parseFrom o named (arg :: rest) =
      match take o named (nextSegment arg rest).1 with
      | .ok (o, named) => parseFrom o named (nextSegment arg rest).2
      | .error e => .error e := by
  unfold nextSegment
  conv_lhs => unfold parseFrom
  split
  · rfl
  split
  · rfl
  split
  · unfold take
    split <;> rfl
  obtain ⟨name, inline⟩ := splitFlag arg
  simp only
  cases hflag : Flag.ofText? name with
  | none => rfl
  | some f =>
    obtain rfl := Flag.text_of_ofText? hflag
    cases inline with
    | some value =>
      simp only [take]
      cases o.applyValue f.text f (some value) <;> rfl
    | none =>
      cases rest with
      | nil =>
        simp only [take]
        cases o.applyValue f.text f none <;> rfl
      | cons value rest =>
        simp only [take]
        cases o.applyValue f.text f (some value) <;> rfl

theorem parseFrom_of_begins {args rest : List String} {s : Segment} (h : Begins args s rest)
    (o : LintOptions) (named : Bool) :
    parseFrom o named args =
      match take o named s with
      | .ok (o, named) => parseFrom o named rest
      | .error e => .error e := by
  cases args with
  | nil => cases h
  | cons arg args => rw [parseFrom_cons, begins_iff.1 h]

/-- Whether segments name a project. -/
def isNamed (front : List Segment) : Bool := !(front.filterMap Segment.path?).isEmpty

theorem isNamed_concat (front : List Segment) (s : Segment) :
    isNamed (front ++ [s]) = (isNamed front || s.path?.isSome) := by
  unfold isNamed
  cases h : s.path? <;> simp [h]

theorem applyValue_missing (o : LintOptions) (text : String) (f : Flag) {value : Option String}
    (h : value = none ∨ value = some "") :
    o.applyValue text f value = .error (.usage ("Option '" ++ text ++ "' requires a value")) := by
  rcases h with rfl | rfl <;> rfl

theorem applyValue_some (o : LintOptions) (text : String) (f : Flag) {value : String} (h : value ≠ "") :
    o.applyValue text f (some value) = o.apply value f := by
  unfold applyValue
  split
  · rename_i hnone; cases hnone
  · rename_i hempty; exact absurd (Option.some.inj hempty) h
  · rename_i hsome; cases hsome; rfl

theorem ofLabel?_eq_none_iff {value : String} :
    Stage.ofLabel? value = none ↔ ¬(value = "pre" ∨ value = "post") := by
  unfold Stage.ofLabel?
  split
  · simp_all
  split <;> simp_all

/-- A value adds something if its flag admits it. -/
theorem apply_spec (o : LintOptions) (front : List Segment) {value : String} (h : value ≠ "") (f : Flag) :
    match o.apply value f with
    | .ok next => f.Admits value ∧ next = o.adding (.flag f (some value))
    | .error e => Offends front (.flag f (some value)) e := by
  cases f with
  | stage =>
    unfold apply
    cases hstage : Stage.ofLabel? value with
    | some stage =>
      have hadmits : value = "pre" ∨ value = "post" := by
        by_contra hother
        rw [ofLabel?_eq_none_iff.2 hother] at hstage; cases hstage
      exact ⟨hadmits, (adding_stage o hstage).symm⟩
    | none =>
      have hmessage : "Invalid stage '" ++ value ++ "': expected '" ++ Stage.pre.label ++ "' or '" ++
          Stage.post.label ++ "'" = "Invalid stage '" ++ value ++ "': expected 'pre' or 'post'" := by
        simp only [String.append_assoc]; rfl
      simp only [hmessage]
      exact .stage h (ofLabel?_eq_none_iff.1 hstage)
  | post => exact ⟨trivial, (adding_post o value).symm⟩
  | lintIgnore =>
    unfold apply
    cases hrule : IgnoreRule.parse value with
    | ok rule => exact ⟨⟨rule, hrule⟩, (adding_lintIgnore o hrule).symm⟩
    | error e => exact .rule h hrule
  | lintIgnoreFile => exact ⟨trivial, (adding_lintIgnoreFile o value).symm⟩

/-- A segment is wrong behind others, or adds what it says. -/
theorem take_spec {front : List Segment} (hfront : Accepted front) (s : Segment) :
    match take (ofSegments front) (isNamed front) s with
    | .ok next => Accepted (front ++ [s]) ∧
        next = (ofSegments (front ++ [s]), isNamed (front ++ [s]))
    | .error e => Offends front s e := by
  rw [accepted_concat_iff, ofSegments_concat, isNamed_concat]
  cases s with
  | blank | help => simp [take, hfront, Segment.IsSound, Segment.path?]
  | positional path =>
    unfold isNamed
    cases hnamed : front.filterMap Segment.path? with
    | nil => simp [take, hfront, Segment.IsSound, Segment.path?]
    | cons first others => exact .extra (by simp [hnamed])
  | flag f value =>
    by_cases hmissing : value = none ∨ value = some ""
    · simp only [take, applyValue_missing _ _ f hmissing]
      exact .missing hmissing
    · obtain ⟨value, rfl⟩ : ∃ v, value = some v :=
        Option.ne_none_iff_exists'.1 fun h => hmissing (.inl h)
      have hfull : value ≠ "" := fun h => hmissing (.inr (congrArg some h))
      have hspec := apply_spec (ofSegments front) front hfull f
      simp only [take, applyValue_some _ _ f hfull]
      cases hresult : (ofSegments front).apply value f with
      | ok next =>
        rw [hresult] at hspec
        obtain ⟨hadmits, rfl⟩ := hspec
        simp [hfront, hadmits, hfull, Except.map, Segment.IsSound, Segment.path?]
      | error e =>
        rw [hresult] at hspec
        exact hspec
  | unknown name => exact .unknown

theorem Offends.unique {front : List Segment} {s : Segment} {e e' : AppError} (h : Offends front s e)
    (h' : Offends front s e') : e = e' := by
  cases h with
  | unknown => cases h'; rfl
  | missing empty =>
    cases h' with
    | missing _ => rfl
    | stage full _ | rule full _ => rcases empty with h | h <;> cases h; exact absurd rfl full
  | stage full other =>
    cases h' with
    | missing empty => rcases empty with h | h <;> cases h; exact absurd rfl full
    | stage _ _ => rfl
  | rule full malformed =>
    cases h' with
    | missing empty => rcases empty with h | h <;> cases h; exact absurd rfl full
    | rule _ malformed' => rw [malformed] at malformed'; cases malformed'; rfl
  | extra _ => cases h'; rfl

theorem Accepted.of_append {front behind : List Segment} (h : Accepted (front ++ behind)) :
    Accepted front where
  sound := fun s hs => h.sound s (List.mem_append_left _ hs)
  single := by
    have hsingle := h.single
    rw [List.filterMap_append, List.length_append] at hsingle
    omega

theorem Offends.not_accepted {front behind : List Segment} {s : Segment} {e : AppError}
    (h : Offends front s e) : ¬Accepted (front ++ s :: behind) := by
  intro haccepted
  rw [List.append_cons] at haccepted
  obtain ⟨-, hsound, hnamed⟩ := accepted_concat_iff.1 haccepted.of_append
  cases h with
  | unknown => exact hsound
  | missing empty =>
    rcases empty with rfl | rfl
    · exact hsound
    · exact hsound.1 rfl
  | stage full other => exact other hsound.2
  | rule full malformed =>
    obtain ⟨rule, hrule⟩ := hsound.2
    rw [hrule] at malformed; cases malformed
  | extra named => exact named (hnamed (by simp [Segment.path?]))

/-- Behind others there is a segment that is wrong where it stands, and all before it are accepted. -/
def FirstOffends (front ss : List Segment) (e : AppError) : Prop :=
  ∃ mid s behind, ss = mid ++ s :: behind ∧ Accepted (front ++ mid) ∧ Offends (front ++ mid) s e

theorem not_firstOffends_nil {front : List Segment} {e : AppError} : ¬FirstOffends front [] e := by
  rintro ⟨mid, s, behind, hempty, -⟩
  cases mid <;> cases hempty

theorem firstOffends_cons_iff {front : List Segment} (hfront : Accepted front) {s : Segment}
    {ss : List Segment} {e : AppError} :
    FirstOffends front (s :: ss) e ↔ Offends front s e ∨ FirstOffends (front ++ [s]) ss e := by
  constructor
  · rintro ⟨mid, t, behind, hmid, haccepted, hoffends⟩
    cases mid with
    | nil =>
      cases hmid
      rw [List.append_nil] at hoffends
      exact .inl hoffends
    | cons u mid =>
      cases hmid
      rw [List.append_cons] at haccepted hoffends
      exact .inr ⟨mid, t, behind, rfl, haccepted, hoffends⟩
  · rintro (hoffends | ⟨mid, t, behind, rfl, haccepted, hoffends⟩)
    · exact ⟨[], s, ss, rfl, by rwa [List.append_nil], by rwa [List.append_nil]⟩
    · rw [← List.append_cons] at haccepted hoffends
      exact ⟨s :: mid, t, behind, rfl, haccepted, hoffends⟩

theorem FirstOffends.accepted {front ss : List Segment} {e : AppError} (h : FirstOffends front ss e) :
    Accepted front := by
  obtain ⟨mid, s, behind, -, haccepted, -⟩ := h
  exact haccepted.of_append

/-- Behind accepted segments, what is read is accepted, or the first segment that is wrong where it
stands is told. -/
theorem parseFrom_iff {args : List String} {ss : List Segment} (h : Reads args ss)
    (front : List Segment) (hfront : Accepted front) :
    (∀ o, parseFrom (ofSegments front) (isNamed front) args = .ok o ↔
      Accepted (front ++ ss) ∧ o = ofSegments (front ++ ss)) ∧
    ∀ e, parseFrom (ofSegments front) (isNamed front) args = .error e ↔ FirstOffends front ss e := by
  induction h generalizing front with
  | nil =>
    rw [List.append_nil]
    refine ⟨fun o => ⟨fun h => ⟨hfront, (Except.ok.inj h).symm⟩, fun h => h.2 ▸ rfl⟩, fun e => ?_⟩
    exact iff_of_false (by rintro ⟨⟩) not_firstOffends_nil
  | @cons args rest s ss begins reads ih =>
    have hspec := take_spec hfront s
    rw [parseFrom_of_begins begins]
    cases hstep : take (ofSegments front) (isNamed front) s with
    | ok next =>
      rw [hstep] at hspec
      obtain ⟨hnext, rfl⟩ := hspec
      obtain ⟨hok, herror⟩ := ih _ hnext
      have hsound {e : AppError} : ¬Offends front s e := fun hoffends => hoffends.not_accepted hnext
      refine ⟨fun o => by rw [List.append_cons front s ss]; exact hok o, fun e => ?_⟩
      rw [firstOffends_cons_iff hfront, or_iff_right hsound]
      exact herror e
    | error e =>
      rw [hstep] at hspec
      have hnext : ¬Accepted (front ++ [s]) := hspec.not_accepted
      refine ⟨fun o => iff_of_false (by rintro ⟨⟩) fun h => hspec.not_accepted h.1, fun e' => ?_⟩
      rw [firstOffends_cons_iff hfront, or_iff_left fun h => hnext h.accepted]
      exact ⟨fun h => Except.error.inj h ▸ hspec, fun h => by rw [hspec.unique h]⟩

theorem parse_iff {args : List String} {ss : List Segment} (h : Reads args ss) :
    (∀ o, parse args = .ok o ↔ Accepted ss ∧ o = ofSegments ss) ∧
    ∀ e, parse args = .error e ↔
      ∃ front s behind, ss = front ++ s :: behind ∧ Accepted front ∧ Offends front s e :=
  parseFrom_iff h [] ⟨by simp, by simp⟩

theorem parse_eq_of_reads {args args' : List String} {ss : List Segment} (h : Reads args ss)
    (h' : Reads args' ss) : parse args' = parse args := by
  cases hparse : parse args with
  | ok o => exact ((parse_iff h').1 o).2 (((parse_iff h).1 o).1 hparse)
  | error e => exact ((parse_iff h').2 e).2 (((parse_iff h).2 e).1 hparse)

/-- The command line follows its grammar. Arguments have one reading as segments, and no more than the
segments counts. They are understood when every segment is sound and at most one names a project, and
then come to what the segments say; else what is told is what is wrong with the first segment that is
wrong behind those before it, whatever stands behind. -/
theorem parse_follows_grammar (args : List String) :
    (∃! ss, Reads args ss) ∧
    ∀ ss, Reads args ss →
      (∀ args', Reads args' ss → parse args' = parse args) ∧
      (∀ o, parse args = .ok o ↔ Accepted ss ∧ o = ofSegments ss) ∧
      ∀ e, parse args = .error e ↔
        ∃ front s behind, ss = front ++ s :: behind ∧ Accepted front ∧ Offends front s e := by
  refine ⟨existsUnique_reads args, fun ss hreads => ⟨fun args' => parse_eq_of_reads hreads, ?_⟩⟩
  exact parse_iff hreads

/-- A flag takes what looks like a request for help, and an empty argument between two others is of no
account. -/
example : parse ["--post", "-h", "", "src"] =
    .ok { projectPath := "src", stage := .post, postArtifact := some "-h" } := rfl

/-! ## The stage of a packed artifact -/

theorem Segment.stage?_eq_pre_iff {s : Segment} :
    s.stage? = some .pre ↔ s = .flag .stage (some "pre") := by
  constructor
  · intro h
    cases s with
    | flag f value =>
      cases f with
      | stage =>
        obtain ⟨text, rfl, htext⟩ := Option.bind_eq_some_iff.1 h
        unfold Stage.ofLabel? at htext
        split at htext
        · rename_i hpre; rw [hpre]
        · split at htext <;> cases htext
      | post | lintIgnore | lintIgnoreFile => cases h
    | blank | help | positional _ | unknown _ => cases h
  · rintro rfl; rfl

/-- The last segment that decides comes before others that do not. -/
theorem getLast?_filterMap_eq_some_iff {α β : Type} {f : α → Option β} {l : List α} {b : β} :
    (l.filterMap f).getLast? = some b ↔
      ∃ front a behind, l = front ++ a :: behind ∧ f a = some b ∧ ∀ x ∈ behind, f x = none := by
  rw [List.getLast?_filterMap, List.findSome?_eq_some_iff]
  constructor
  · rintro ⟨behind, a, front, hl, ha, hbehind⟩
    refine ⟨front.reverse, a, behind.reverse, ?_, ha, fun x hx => hbehind x (List.mem_reverse.1 hx)⟩
    rw [← List.reverse_reverse l, hl]; simp
  · rintro ⟨front, a, behind, rfl, ha, hbehind⟩
    exact ⟨behind.reverse, a, front.reverse, by simp, ha, fun x hx => hbehind x (List.mem_reverse.1 hx)⟩

/-- A packed artifact decides on its stage. -/
theorem exists_stage_of_artifact {ss : List Segment} (h : (ofSegments ss).postArtifact ≠ none) :
    ∃ stage, (ss.filterMap Segment.stage?).getLast? = some stage := by
  obtain ⟨artifact, hartifact⟩ := Option.ne_none_iff_exists'.1 h
  obtain ⟨s, hs, hvalue⟩ := List.mem_filterMap.1 (List.mem_of_getLast? hartifact)
  have hstage : s.stage? = some .post := by
    cases s with
    | flag f value =>
      cases f with
      | post => rfl
      | stage | lintIgnore | lintIgnoreFile => cases hvalue
    | blank | help | positional _ | unknown _ => cases hvalue
  have hmem : Stage.post ∈ ss.filterMap Segment.stage? := List.mem_filterMap.2 ⟨s, hs, hstage⟩
  exact ⟨_, List.getLast?_eq_some_getLast (List.ne_nil_of_mem hmem)⟩

/-- With a packed artifact the stage is that of packed artifacts, unless the last segment that decides on
a stage asks for the other one. -/
theorem stage_of_artifact_iff {args : List String} {o : LintOptions} {ss : List Segment}
    (hparse : parse args = .ok o) (hreads : Reads args ss) (hpacked : o.postArtifact ≠ none) :
    o.stage = .post ↔ ¬∃ front behind, ss = front ++ .flag .stage (some "pre") :: behind ∧
      ∀ s ∈ behind, s.stage? = none := by
  obtain ⟨-, rfl⟩ := ((parse_iff hreads).1 o).1 hparse
  obtain ⟨stage, hstage⟩ := exists_stage_of_artifact hpacked
  have hresult : (ofSegments ss).stage = stage := by
    unfold ofSegments
    rw [hstage]; rfl
  have hpre : stage = .pre ↔ ∃ front behind, ss = front ++ .flag .stage (some "pre") :: behind ∧
      ∀ s ∈ behind, s.stage? = none := by
    rw [← Option.some.injEq, ← hstage, getLast?_filterMap_eq_some_iff]
    constructor
    · rintro ⟨front, s, behind, hss, hs, hbehind⟩
      rw [Segment.stage?_eq_pre_iff.1 hs] at hss
      exact ⟨front, behind, hss, hbehind⟩
    · rintro ⟨front, behind, hss, hbehind⟩
      exact ⟨front, _, behind, hss, rfl, hbehind⟩
  rw [hresult, ← hpre]
  cases stage <;> simp

/-- The artifact is named last, so the stage asked for before is of no account. -/
theorem stage_of_artifact_named_last :
    let args := ["--stage", "pre", "--post=a.tar"]
    let o : LintOptions := { stage := .post, postArtifact := some "a.tar" }
    let ss := [.flag .stage (some "pre"), .flag .post (some "a.tar")]
    parse args = .ok o ∧ Reads args ss ∧ o.postArtifact ≠ none ∧
      (o.stage = .post ↔ ¬∃ front behind, ss = front ++ .flag .stage (some "pre") :: behind ∧
        ∀ s ∈ behind, s.stage? = none) := by
  intro args o ss
  have hparse : parse args = .ok o := rfl
  have hjoined : Flag.text .post ++ "=" ++ "a.tar" = "--post=a.tar" := rfl
  have hpost : Begins ["--post=a.tar"] (.flag .post (some "a.tar")) [] := hjoined ▸ .joined
  have hstage : Begins args (.flag .stage (some "pre")) ["--post=a.tar"] := Begins.parted (f := .stage)
  have hreads : Reads args ss := .cons hstage (.cons hpost .nil)
  have hpacked : o.postArtifact ≠ none := by simp [o]
  exact ⟨hparse, hreads, hpacked, stage_of_artifact_iff hparse hreads hpacked⟩

/-- A stage that is asked for behind the artifact is taken, though it is not that of packed artifacts. -/
theorem stage_asked_behind_artifact :
    let o : LintOptions := { stage := .pre, postArtifact := some "a.tar" }
    parse ["--post", "a.tar", "--stage", "pre"] = .ok o ∧ o.postArtifact ≠ none ∧ o.stage ≠ .post :=
  ⟨rfl, by simp, by simp⟩

end LintEngine.LintOptions
