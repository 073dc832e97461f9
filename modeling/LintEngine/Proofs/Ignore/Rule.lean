/-
The texts of ignore rules. A rule can be written down when neither its linter nor its id is empty, the
linter has no colon and the id no equals sign, and a glob, if there is one, is not empty; nothing is
asked of the characters otherwise. Main statement: reading accepts exactly the texts of such rules and
gives the rule back, and every other text is refused for its first defect (`reading_inverts_printing`).

The linter ends at the first colon and the id at the first equals sign behind it, so a text can be cut
in one way only.
-/
import LintEngine.Ignore.Rule

namespace LintEngine.IgnoreRule

/-- What the text of a rule needs so that it can be cut again. -/
structure IsWritable (r : IgnoreRule) : Prop where
  linter_ne : r.linter ≠ ""
  colon : ':' ∉ r.linter.toList
  id_ne : r.id ≠ ""
  equals : '=' ∉ r.id.toList
  glob_ne : r.glob ≠ some ""

/-- The first thing that is wrong with a text, from left to right. -/
inductive FirstDefect : String → Defect → Prop
  | noColon {text : String} (colon : ':' ∉ text.toList) : FirstDefect text .noColon
  | emptyPart {linter rest : String} (colon : ':' ∉ linter.toList) (empty : linter = "" ∨ rest = "") :
      FirstDefect (linter ++ ":" ++ rest) .emptyPart
  | emptyGlobPart {linter id glob : String} (linter_ne : linter ≠ "") (colon : ':' ∉ linter.toList)
      (equals : '=' ∉ id.toList) (empty : id = "" ∨ glob = "") :
      FirstDefect (linter ++ ":" ++ id ++ "=" ++ glob) .emptyGlobPart

/-! ## Texts that are read -/

theorem toList_print (r : IgnoreRule) :
    r.print.toList = r.linter.toList ++ ':' :: (r.id.toList ++
      match r.glob with
      | none => []
      | some g => '=' :: g.toList) := by
  unfold print
  cases r.glob <;> simp

theorem read_print {r : IgnoreRule} (h : r.IsWritable) : read r.print.toList = .ok r := by
  obtain ⟨linter, id, glob⟩ := r
  obtain ⟨hlinter, hcolon, hid, hequals, hglob⟩ := h
  rw [toList_print, read, cutAt_append hcolon]
  cases glob with
  | none =>
    have hcut : cutAt '=' id.toList = none := cutAt_eq_none_iff.2 hequals
    simp_all
  | some g =>
    have hcut : cutAt '=' (id.toList ++ '=' :: g.toList) = some (id.toList, g.toList) :=
      cutAt_append hequals g.toList
    simp_all

theorem FirstDefect.read_eq {text : String} {d : Defect} (h : FirstDefect text d) :
    read text.toList = .error d := by
  cases h with
  | noColon colon => rw [read, cutAt_eq_none_iff.2 colon]
  | @emptyPart linter rest colon empty =>
    have hcut : cutAt ':' (linter ++ ":" ++ rest).toList = some (linter.toList, rest.toList) := by
      simpa using cutAt_append colon rest.toList
    rw [read, hcut]
    exact if_pos (by simpa using empty)
  | @emptyGlobPart linter id glob linter_ne colon equals empty =>
    have hcut : cutAt ':' (linter ++ ":" ++ id ++ "=" ++ glob).toList =
        some (linter.toList, id.toList ++ '=' :: glob.toList) := by
      simpa using cutAt_append colon (id.toList ++ '=' :: glob.toList)
    rw [read, hcut]
    simp only [String.toList_eq_nil_iff, linter_ne, List.append_eq_nil_iff, reduceCtorEq, and_false,
      or_self, if_false, cutAt_append equals]
    exact if_pos (by simpa using empty)

/-! ## Every text -/

/-- A text holds a mark or is cut at its first one. -/
theorem exists_cut (c : Char) (text : String) :
    c ∉ text.toList ∨
      ∃ front behind : String, c ∉ front.toList ∧ text.toList = front.toList ++ c :: behind.toList := by
  cases hcut : cutAt c text.toList with
  | none => exact .inl (cutAt_eq_none_iff.1 hcut)
  | some cut =>
    obtain ⟨htext, hfront⟩ := eq_append_of_cutAt hcut
    refine .inr ⟨String.ofList cut.1, String.ofList cut.2, ?_, ?_⟩ <;> simpa

theorem writable_or_defective (text : String) :
    (∃ r : IgnoreRule, r.IsWritable ∧ r.print = text) ∨ ∃ d, FirstDefect text d := by
  obtain hcolon | ⟨linter, rest, hcolon, htext⟩ := exists_cut ':' text
  · exact .inr ⟨_, .noColon hcolon⟩
  obtain rfl : text = linter ++ ":" ++ rest := by rw [← String.toList_inj, htext]; simp
  by_cases hempty : linter = "" ∨ rest = ""
  · exact .inr ⟨_, .emptyPart hcolon hempty⟩
  obtain ⟨hlinter, hrest⟩ := not_or.1 hempty
  obtain hequals | ⟨id, glob, hequals, hid⟩ := exists_cut '=' rest
  · exact .inl ⟨⟨linter, rest, none⟩, ⟨hlinter, hcolon, hrest, hequals, nofun⟩, by simp [print]⟩
  obtain rfl : rest = id ++ "=" ++ glob := by rw [← String.toList_inj, hid]; simp
  have hjoined : linter ++ ":" ++ (id ++ "=" ++ glob) = linter ++ ":" ++ id ++ "=" ++ glob := by
    simp only [String.append_assoc]
  rw [hjoined]
  by_cases hempty : id = "" ∨ glob = ""
  · exact .inr ⟨_, .emptyGlobPart hlinter hcolon hequals hempty⟩
  obtain ⟨hid, hglob⟩ := not_or.1 hempty
  refine .inl ⟨⟨linter, id, some glob⟩, ⟨hlinter, hcolon, hid, hequals, ?_⟩, ?_⟩
  · simpa using hglob
  · simp only [print, String.append_assoc]

theorem parse_print {r : IgnoreRule} (h : r.IsWritable) : parse r.print = .ok r := by
  rw [parse, read_print h]

theorem FirstDefect.parse_eq {text : String} {d : Defect} (h : FirstDefect text d) :
    parse text = .error (.invalidRule text d.reason) := by
  rw [parse, h.read_eq]

theorem FirstDefect.unique {text : String} {d d' : Defect} (h : FirstDefect text d)
    (h' : FirstDefect text d') : d = d' := by
  have hread : Except.error d = (Except.error d' : Except Defect IgnoreRule) :=
    h.read_eq.symm.trans h'.read_eq
  exact Except.error.inj hread

theorem Defect.reason_injective {d d' : Defect} (h : d.reason = d'.reason) : d = d' := by
  cases d <;> cases d' <;> simp_all [Defect.reason]

/-- Reading and printing are inverse to each other between the rules that can be written down and the
texts that are read; no other text is read, and each of them has one first defect, for which it is
refused. -/
theorem reading_inverts_printing :
    (∀ text r, parse text = .ok r ↔ r.IsWritable ∧ r.print = text) ∧
    (∀ text e, parse text = .error e ↔ ∃ d, FirstDefect text d ∧ e = .invalidRule text d.reason) ∧
    (∀ text d d', FirstDefect text d → FirstDefect text d' → d = d') ∧
    ∀ d d' : Defect, d.reason = d'.reason → d = d' := by
  refine ⟨fun text r => ⟨fun h => ?_, ?_⟩, fun text e => ⟨fun h => ?_, ?_⟩,
    fun _ _ _ h h' => h.unique h', ?_⟩
  · obtain ⟨r', hr', rfl⟩ | ⟨d, hd⟩ := writable_or_defective text
    · rw [parse_print hr'] at h
      cases h
      exact ⟨hr', rfl⟩
    · rw [hd.parse_eq] at h
      cases h
  · rintro ⟨hr, rfl⟩
    exact parse_print hr
  · obtain ⟨r, hr, rfl⟩ | ⟨d, hd⟩ := writable_or_defective text
    · rw [parse_print hr] at h
      cases h
    · rw [hd.parse_eq] at h
      cases h
      exact ⟨d, hd, rfl⟩
  · rintro ⟨d, hd, rfl⟩
    exact hd.parse_eq
  · exact fun _ _ h => Defect.reason_injective h

/-- Only the first colon and the first equals sign behind it count. -/
example :
    (parse "a=b:c:d=e:f=g").toOption = some ⟨"a=b", "c:d", some "e:f=g"⟩ ∧
    (parse ":=").toOption = none := by
  decide +kernel

end LintEngine.IgnoreRule
