/-
Where paths lead. Whatever the way in which a system follows them, a look-up that succeeds has come to what
stands at a place (`FileTree.look_eq_ok_iff`). Of the two ways that are spelled out, a walk from directory
to directory gets nowhere but where the text of the path says: `Follow.lexical_of_walking`. The text may say
more, since it does not ask what is on the way.
-/
import LintEngine.Files.Tree

namespace LintEngine

namespace FileTree

variable {t : FileTree} {path : String}

theorem look_eq_ok_iff {e : Entry} :
    t.look path = .ok e ↔ ∃ place, t.locate path = .ok place ∧ t.entry? place = some e := by
  unfold look
  cases t.locate path with
  | error fault => simp
  | ok place => cases hentry : t.entry? place <;> simp [hentry]

theorem at?_eq_some_iff {e : Entry} : t.at? path = some e ↔ t.look path = .ok e := by
  unfold at?
  cases t.look path <;> simp [Except.toOption]

theorem at?_eq_some_of_locate {place : Place} {e : Entry} (h : t.locate path = .ok place)
    (hentry : t.entry? place = some e) : t.at? path = some e :=
  at?_eq_some_iff.2 (look_eq_ok_iff.2 ⟨place, h, hentry⟩)

theorem lookFault?_of_at? {e : Entry} (h : t.at? path = some e) : t.lookFault? path = none := by
  unfold lookFault?
  rw [at?_eq_some_iff.1 h]

theorem isFile_iff : t.isFile path = true ↔ ∃ entry, t.at? path = some entry ∧ entry.isFile = true :=
  Option.any_eq_true ..

theorem pathExists_of_list {names : List String} (h : t.list path = .ok names) : t.pathExists path = true := by
  unfold list at h
  split at h
  · cases h
  rename_i hplace
  split at h
  · cases h
  · rename_i hentry
    exact Option.isSome_iff_exists.2 ⟨_, at?_eq_some_of_locate hplace hentry⟩
  · cases h

end FileTree

/-! ## Two ways to follow a path -/

namespace Path

/-- A name that means an entry of a directory, and not the directory itself or the one above. -/
def IsPlain (name : String) : Prop :=
  name ≠ "" ∧ name ≠ "." ∧ name ≠ ".."

theorem follow_of_isPlain {name : String} (h : IsPlain name) (keepUp : Bool) (stack : List String) :
    follow keepUp stack name = name :: stack := by
  obtain ⟨hempty, hhere, hup⟩ := h
  simp [follow, hempty, hhere, hup]

theorem foldl_follow_of_isPlain {names : List String} (h : ∀ name ∈ names, IsPlain name) (keepUp : Bool)
    (stack : List String) : names.foldl (follow keepUp) stack = names.reverse ++ stack := by
  induction names generalizing stack with
  | nil => rfl
  | cons name names ih =>
    obtain ⟨hname, hnames⟩ := List.forall_mem_cons.1 h
    rw [List.foldl_cons, follow_of_isPlain hname, ih hnames, List.reverse_cons, List.append_assoc]
    rfl

/-- From a directory with plain names a path goes on as it is written. -/
theorem resolve_eq {dir : Place} (h : ∀ name ∈ dir, IsPlain name) (path : String) :
    resolve dir path =
      ((parts path).foldl (follow false) (if isAbsolute path then [] else dir).reverse).reverse := by
  unfold resolve reduce
  split
  · rfl
  · rw [List.foldl_append, foldl_follow_of_isPlain h, List.append_nil]

theorem splitSlash_ne_nil (cs : List Char) : splitSlash cs ≠ [] := by
  cases cs with
  | nil => simp [splitSlash]
  | cons c cs =>
    rw [splitSlash]
    split
    · exact List.cons_ne_nil _ _
    · split <;> exact List.cons_ne_nil _ _

theorem splitSlash_concat (cs : List Char) : splitSlash (cs ++ ['/']) = splitSlash cs ++ [[]] := by
  induction cs with
  | nil => rfl
  | cons c cs ih =>
    rw [List.cons_append, splitSlash, splitSlash, ih]
    by_cases hc : c = '/'
    · rw [if_pos hc, if_pos hc, List.cons_append]
    · rw [if_neg hc, if_neg hc]
      cases hsplit : splitSlash cs with
      | nil => exact absurd hsplit (splitSlash_ne_nil cs)
      | cons part parts => rfl

theorem parts_of_endsInSlash {path : String} (h : endsInSlash path = true) :
    ∃ front, parts path = front ++ [""] := by
  have hlast : path.toList.getLast? = some '/' := by simpa [endsInSlash] using h
  obtain ⟨cs, hcs⟩ := List.getLast?_eq_some_iff.1 hlast
  refine ⟨(splitSlash cs).map String.ofList, ?_⟩
  rw [parts, hcs, splitSlash_concat, List.map_append]
  rfl

end Path

namespace Follow

variable {searchable : Place → Bool} {stands : Place → Option Entry} {dir next place : Place}
variable {name path : String}

/-- What one step of a walk comes to, when it comes to anything: the step that the name says, from a
directory. -/
theorem step_eq_ok (h : step searchable stands dir name = .ok next) (hdir : ∀ n ∈ dir, Path.IsPlain n) :
    next.reverse = Path.follow false dir.reverse name ∧ (∀ n ∈ next, Path.IsPlain n) ∧
      ∃ e, stands dir = some e ∧ e.isFile = false := by
  unfold step at h
  split at h
  · cases h
  rename_i e hentry
  split at h
  · cases h
  rename_i hfile
  have hdirectory : ∃ e, stands dir = some e ∧ e.isFile = false := ⟨e, hentry, by simpa using hfile⟩
  split at h
  · cases h
  split at h
  · rename_i hhere
    cases h
    exact ⟨by simp [Path.follow, hhere], hdir, hdirectory⟩
  rename_i hhere
  split at h
  · rename_i hup
    cases h
    refine ⟨?_, fun n hn => hdir n (List.dropLast_subset _ hn), hdirectory⟩
    subst hup
    rcases List.eq_nil_or_concat dir with rfl | ⟨front, last, rfl⟩
    · rfl
    · have hlast : last ≠ ".." := (hdir last (by simp)).2.2
      simp [Path.follow, hlast]
  rename_i hup
  split at h
  · cases h
  cases h
  obtain ⟨hempty, hdot⟩ := not_or.1 hhere
  have hplain : Path.IsPlain name := ⟨hempty, hdot, hup⟩
  refine ⟨?_, ?_, hdirectory⟩
  · rw [Path.follow_of_isPlain hplain, List.reverse_append]
    rfl
  · intro n hn
    rcases List.mem_append.1 hn with hn | hn
    · exact hdir n hn
    · rw [List.mem_singleton.1 hn]
      exact hplain

theorem exists_of_bind_eq_ok {α β : Type} {first : Except FileFault α} {next : α → Except FileFault β}
    {b : β} (h : first >>= next = .ok b) : ∃ a, first = .ok a ∧ next a = .ok b := by
  cases first with
  | error fault => cases h
  | ok a => exact ⟨a, rfl, h⟩

theorem foldlM_step_eq_ok {names : List String} (h : names.foldlM (step searchable stands) dir = .ok place)
    (hdir : ∀ n ∈ dir, Path.IsPlain n) :
    place.reverse = names.foldl (Path.follow false) dir.reverse ∧ ∀ n ∈ place, Path.IsPlain n := by
  induction names generalizing dir with
  | nil => cases h; exact ⟨rfl, hdir⟩
  | cons name names ih =>
    rw [List.foldlM_cons] at h
    obtain ⟨next, hstep, h⟩ := exists_of_bind_eq_ok h
    obtain ⟨hnext, hplain, -⟩ := step_eq_ok hstep hdir
    rw [List.foldl_cons, ← hnext]
    exact ih h hplain

/-- Behind a last slash there is one step more, which leads from a directory to itself. -/
theorem exists_directory_of_endsInSlash
    (h : (Path.parts path).foldlM (step searchable stands) dir = .ok place)
    (hdir : ∀ n ∈ dir, Path.IsPlain n) (hends : Path.endsInSlash path = true) :
    ∃ e, stands place = some e ∧ e.isFile = false := by
  obtain ⟨front, hparts⟩ := Path.parts_of_endsInSlash hends
  rw [hparts, List.foldlM_append] at h
  obtain ⟨before, hfront, hlast⟩ := exists_of_bind_eq_ok h
  obtain ⟨last, hstep, ⟨⟩⟩ := exists_of_bind_eq_ok hlast
  obtain ⟨hsame, -, hdirectory⟩ := step_eq_ok hstep (foldlM_step_eq_ok hfront hdir).2
  have hbefore : place = before := by simpa [Path.follow] using hsame
  rwa [hbefore]

/-- A walk gets nowhere but where the text of the path says. -/
theorem lexical_of_walking (hdir : ∀ n ∈ dir, Path.IsPlain n)
    (h : walking searchable stands dir path = .ok place) : lexical stands dir path = .ok place := by
  unfold walking at h
  split at h
  · cases h
  split at h
  · cases h
  rename_i hempty
  split at h
  · cases h
  split at h
  · cases h
  rename_i found hwalk
  split at h
  · rename_i hthere
    cases h
    obtain ⟨e, hentry⟩ := Option.isSome_iff_exists.1 hthere
    have hstart : ∀ n ∈ (if Path.isAbsolute path then [] else dir), Path.IsPlain n := by
      split
      · exact List.forall_mem_nil _
      · exact hdir
    have hplace : Path.resolve dir path = place := by
      rw [Path.resolve_eq hdir, ← (foldlM_step_eq_ok hwalk hstart).1, List.reverse_reverse]
    unfold lexical
    simp only [hplace, hentry, if_neg hempty]
    cases hends : Path.endsInSlash path with
    | false => rfl
    | true =>
      obtain ⟨e', hentry', hdirectory⟩ := exists_directory_of_endsInSlash hwalk hstart hends
      rw [hentry] at hentry'
      cases hentry'
      rw [hdirectory]
      rfl
  · cases h

/-- There is a file where the text of the path says, but no way to it. -/
example :
    let files : FileTree := FileTree.put {} ["demo.tar"] (.bytes [])
    let walked := { files with follow := walking }
    files.isFile "nope/../demo.tar" = true ∧ walked.isFile "nope/../demo.tar" = false ∧
      files.isFile "demo.tar/." = true ∧ walked.isFile "demo.tar/." = false ∧
      walked.isFile "../demo.tar" = true := by
  decide +kernel

end Follow

end LintEngine
