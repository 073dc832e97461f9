/-
Values of unknown shape, as documents and declarations hold them. An object lists its entries in the
order in which its keys are seen: keys that are array indices first, ascending, then the others by
first insertion. Sets and maps are values of their own and have no entries as objects.
-/
import LintEngine.Ordered.Map
import LintEngine.Number.Shortest

namespace LintEngine

/-- A value of unknown shape. -/
inductive Value
  | null
  | missing
  | bool (b : Bool)
  | number (n : Binary64)
  | text (s : String)
  | list (items : List Value)
  | object (entries : List (String × Value))
  | set (members : List Value)
  | map (entries : List (Value × Value))
deriving Inhabited

namespace Value

/-! ## Order of keys -/

/-- The greatest array index. -/
def maxIndex : Nat := 4294967294

/-- The index that a key spells: decimal digits without a leading zero, at most `maxIndex`. -/
def index? (key : String) : Option Nat :=
  let cs := key.toList
  if cs.isEmpty || !cs.all Char.isDigit || (cs.head? == some '0' && cs.length != 1) then none
  else
    let n := cs.foldl (fun n c => 10 * n + (c.toNat - '0'.toNat)) 0
    if n ≤ maxIndex then some n else none

/-- Inserts an entry with an index key before the first greater index. -/
def insertIndexed (i : Nat) (entry : String × Value) :
    List (Nat × String × Value) → List (Nat × String × Value)
  | [] => [(i, entry)]
  | (j, e) :: r => if i < j then (i, entry) :: (j, e) :: r else (j, e) :: insertIndexed i entry r

/-- The entries in key order: index keys ascending, then the others as they stand. -/
def inKeyOrder (entries : List (String × Value)) : List (String × Value) :=
  let indexed := entries.foldl
    (fun acc e => match index? e.1 with | some i => insertIndexed i e acc | none => acc) []
  indexed.map Prod.snd ++ entries.filter fun e => (index? e.1).isNone

/-- The object of a list of entries: of equal keys the last value counts, at the first one's
place. -/
def ofEntries (entries : List (String × Value)) : Value :=
  .object (inKeyOrder (OrderedMap.ofList entries).toList)

/-! ### What key order is -/

theorem insertIndexed_perm (i : Nat) (entry : String × Value) (l : List (Nat × String × Value)) :
    (insertIndexed i entry l).Perm ((i, entry) :: l) := by
  induction l with
  | nil => exact .refl _
  | cons p l ih =>
    rw [insertIndexed]
    split
    · exact .refl _
    · exact (ih.cons p).trans (.swap ..)

theorem pairwise_insertIndexed {l : List (Nat × String × Value)}
    (h : l.Pairwise fun a b => a.1 ≤ b.1) (i : Nat) (entry : String × Value) :
    (insertIndexed i entry l).Pairwise fun a b => a.1 ≤ b.1 := by
  induction l with
  | nil => exact List.pairwise_singleton ..
  | cons p l ih =>
    obtain ⟨hp, hl⟩ := List.pairwise_cons.1 h
    rw [insertIndexed]
    split
    · rename_i hlt
      refine List.pairwise_cons.2 ⟨fun q hq => ?_, h⟩
      rcases List.mem_cons.1 hq with rfl | hq
      · exact Nat.le_of_lt hlt
      · exact Nat.le_trans (Nat.le_of_lt hlt) (hp q hq)
    · rename_i hle
      refine List.pairwise_cons.2 ⟨fun q hq => ?_, ih hl⟩
      rcases List.mem_cons.1 ((insertIndexed_perm i entry l).mem_iff.1 hq) with rfl | hq
      · exact Nat.le_of_not_lt hle
      · exact hp q hq

/-- The entries with index keys, each with its index, in the order in which they are seen. -/
structure Indexed (entries : List (String × Value)) (indexed : List (Nat × String × Value)) : Prop where
  perm : (indexed.map Prod.snd).Perm (entries.filter fun e => (index? e.1).isSome)
  ascending : indexed.Pairwise fun a b => a.1 ≤ b.1
  index : ∀ p ∈ indexed, index? p.2.1 = some p.1

theorem indexed_foldl (entries : List (String × Value)) {before : List (String × Value)}
    {acc : List (Nat × String × Value)} (h : Indexed before acc) :
    Indexed (before ++ entries) (entries.foldl
      (fun acc e => match index? e.1 with | some i => insertIndexed i e acc | none => acc) acc) := by
  induction entries generalizing before acc with
  | nil => simpa using h
  | cons e entries ih =>
    have hstep : Indexed (before ++ [e])
        (match index? e.1 with | some i => insertIndexed i e acc | none => acc) := by
      cases he : index? e.1 with
      | none => exact ⟨by simpa [List.filter_append, he] using h.perm, h.ascending, h.index⟩
      | some i =>
        refine ⟨?_, pairwise_insertIndexed h.ascending i e, fun p hp => ?_⟩
        · have hput : ((insertIndexed i e acc).map Prod.snd).Perm (e :: acc.map Prod.snd) :=
            (insertIndexed_perm i e acc).map Prod.snd
          rw [List.filter_append]
          simpa [he] using hput.trans ((h.perm.cons e).trans (List.perm_append_singleton ..).symm)
        · rcases List.mem_cons.1 ((insertIndexed_perm i e acc).mem_iff.1 hp) with rfl | hp
          · exact he
          · exact h.index p hp
    simpa using ih hstep

theorem exists_inKeyOrder (entries : List (String × Value)) : ∃ indexed, Indexed entries indexed ∧
    inKeyOrder entries = indexed.map Prod.snd ++ entries.filter fun e => (index? e.1).isNone :=
  have hnone : Indexed [] [] := ⟨.nil, .nil, nofun⟩
  ⟨_, indexed_foldl entries hnone, rfl⟩

theorem inKeyOrder_perm (entries : List (String × Value)) : (inKeyOrder entries).Perm entries := by
  obtain ⟨indexed, h, heq⟩ := exists_inKeyOrder entries
  rw [heq]
  refine (h.perm.append_right _).trans ?_
  simpa [Option.not_isSome] using
    List.filter_append_perm (fun e : String × Value => (index? e.1).isSome) entries

/-- An object may list the key `a` before the key `b`: index keys stand in front, in ascending order. -/
def KeyLe (a b : String) : Prop :=
  ∀ j, index? b = some j → ∃ i, index? a = some i ∧ i ≤ j

theorem pairwise_inKeyOrder (entries : List (String × Value)) :
    ((inKeyOrder entries).map Prod.fst).Pairwise KeyLe := by
  obtain ⟨indexed, h, heq⟩ := exists_inKeyOrder entries
  have hplain : ∀ e ∈ entries.filter fun e => (index? e.1).isNone, index? e.1 = none :=
    fun e he => Option.isNone_iff_eq_none.1 (List.mem_filter.1 he).2
  rw [heq, List.pairwise_map, List.pairwise_append]
  refine ⟨?_, ?_, ?_⟩
  · rw [List.pairwise_map]
    refine h.ascending.imp_of_mem fun ha hb hle j hj => ⟨_, h.index _ ha, ?_⟩
    rw [h.index _ hb] at hj
    cases hj
    exact hle
  · refine List.pairwise_of_forall_mem_list fun a _ b hb j hj => ?_
    rw [hplain b hb] at hj
    cases hj
  · intro a _ b hb j hj
    rw [hplain b hb] at hj
    cases hj

/-- Keys that are no indices stay in the order in which they came in. -/
theorem filter_inKeyOrder (entries : List (String × Value)) :
    ((inKeyOrder entries).map Prod.fst).filter (fun k => (index? k).isNone) =
      (entries.map Prod.fst).filter fun k => (index? k).isNone := by
  obtain ⟨indexed, h, heq⟩ := exists_inKeyOrder entries
  have hnone : (indexed.map Prod.snd).filter (fun e => (index? e.1).isNone) = [] := by
    rw [List.filter_eq_nil_iff]
    intro e he
    obtain ⟨p, hp, rfl⟩ := List.mem_map.1 he
    simp [h.index p hp]
  simp only [List.filter_map, Function.comp_def, heq, List.filter_append, hnone, List.nil_append,
    List.filter_filter, Bool.and_self]

/-! ## Reading -/

/-- Whether the value can hold entries under names: an object, a set or a map, but not a list. -/
def isMapping : Value → Bool
  | .object _ | .set _ | .map _ => true
  | _ => false

/-- The value's own entries; a set or a map has none. -/
def entries : Value → List (String × Value)
  | .object entries => entries
  | _ => []

/-- The value of an entry; `missing` without one. -/
def get (v : Value) (key : String) : Value :=
  (OrderedMap.lookup key v.entries).getD .missing

/-- Whether the value counts as given: everything but nothing, `false`, zero, not-a-number and the
empty text. -/
def isTruthy : Value → Bool
  | .null | .missing => false
  | .bool b => b
  | .number n => !(n.isZero || n == .nan)
  | .text s => !s.isEmpty
  | _ => true

def text? : Value → Option String
  | .text s => some s
  | _ => none

theorem eq_text_of_text? {v : Value} {s : String} (h : v.text? = some s) : v = .text s := by
  cases v <;> simp_all [text?]

/-- The texts that a value stands for: itself, or the texts among the members of a list or set. -/
def texts : Value → List String
  | .text s => [s]
  | .list items => items.filterMap text?
  | .set members => members.filterMap text?
  | _ => []

/-! ## Well-formed values -/

/-- No object within the value lists a key twice. -/
inductive WellFormed : Value → Prop
  | null : WellFormed .null
  | missing : WellFormed .missing
  | bool (b : Bool) : WellFormed (.bool b)
  | number (n : Binary64) : WellFormed (.number n)
  | text (s : String) : WellFormed (.text s)
  | list {items : List Value} (all : ∀ v ∈ items, WellFormed v) : WellFormed (.list items)
  | object {entries : List (String × Value)} (keys : (entries.map Prod.fst).Nodup)
      (values : ∀ e ∈ entries, WellFormed e.2) : WellFormed (.object entries)
  | set {members : List Value} (all : ∀ v ∈ members, WellFormed v) : WellFormed (.set members)
  | map {entries : List (Value × Value)} (keys : ∀ e ∈ entries, WellFormed e.1)
      (values : ∀ e ∈ entries, WellFormed e.2) : WellFormed (.map entries)

theorem WellFormed.nodup_keys {v : Value} (h : v.WellFormed) : (v.entries.map Prod.fst).Nodup := by
  cases h with
  | object keys _ => exact keys
  | _ => exact .nil

theorem WellFormed.of_mem_entries {v : Value} (h : v.WellFormed) {e : String × Value}
    (he : e ∈ v.entries) : e.2.WellFormed := by
  cases h with
  | object _ values => exact values e he
  | _ => cases he

theorem WellFormed.get {v : Value} (h : v.WellFormed) (key : String) : (v.get key).WellFormed := by
  unfold Value.get
  cases hfound : OrderedMap.lookup key v.entries with
  | none => exact .missing
  | some w => exact h.of_mem_entries (OrderedMap.mem_of_lookup hfound)

theorem entries_ofEntries (entries : List (String × Value)) :
    (ofEntries entries).entries = inKeyOrder (OrderedMap.ofList entries).toList := rfl

/-- However its entries are given, an object lists no key twice. -/
theorem wellFormed_ofEntries {entries : List (String × Value)} (h : ∀ e ∈ entries, e.2.WellFormed) :
    (ofEntries entries).WellFormed := by
  have hperm := inKeyOrder_perm (OrderedMap.ofList entries).toList
  refine .object ((hperm.map Prod.fst).nodup_iff.2 (OrderedMap.ofList entries).nodup) fun e he => ?_
  exact h e (OrderedMap.mem_of_mem_ofList (hperm.mem_iff.1 he))

end Value

end LintEngine
