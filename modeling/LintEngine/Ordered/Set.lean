/-
Insertion-ordered finite sets: a set that also remembers in which order its members first came in.
The invariant (no member is listed twice) is part of the type. Main statements: inserting a member
keeps what is there and appends at most the new one (`toList_insert`), a union lists the left operand
first (`toList_union`, `mem_union`), and unions are associative and idempotent, their order included
(`union_assoc`, `union_union_left`).
-/
namespace LintEngine

/-- A finite set whose members are listed in the order of their first insertion. -/
structure OrderedSet (α : Type) where
  /-- The members, oldest first. -/
  toList : List α
  nodup : toList.Nodup := by simp
deriving DecidableEq

namespace OrderedSet

variable {α : Type}

@[ext] theorem ext {s t : OrderedSet α} (h : s.toList = t.toList) : s = t := by
  cases s; cases t; simp_all

def empty : OrderedSet α where
  toList := []

instance : EmptyCollection (OrderedSet α) := ⟨empty⟩

instance : Inhabited (OrderedSet α) := ⟨empty⟩

instance : Membership α (OrderedSet α) := ⟨fun s a => a ∈ s.toList⟩

theorem mem_def {s : OrderedSet α} {a : α} : a ∈ s ↔ a ∈ s.toList := Iff.rfl

@[simp] theorem toList_empty : (∅ : OrderedSet α).toList = [] := rfl

@[simp] theorem not_mem_empty (a : α) : a ∉ (∅ : OrderedSet α) := by simp [mem_def]

variable [DecidableEq α]

instance (s : OrderedSet α) (a : α) : Decidable (a ∈ s) :=
  inferInstanceAs (Decidable (a ∈ s.toList))

/-- Adds a member at the end; a member that is already there keeps its place. -/
def insert (s : OrderedSet α) (a : α) : OrderedSet α :=
  if h : a ∈ s.toList then s
  else ⟨s.toList ++ [a], by
    rw [List.nodup_append]
    refine ⟨s.nodup, by simp, ?_⟩
    intro b hb c hc e
    simp only [List.mem_singleton] at hc
    exact h (hc ▸ e ▸ hb)⟩

theorem toList_insert (s : OrderedSet α) (a : α) :
    (s.insert a).toList = if a ∈ s then s.toList else s.toList ++ [a] := by
  unfold insert
  split <;> rename_i h <;> simp [mem_def, h]

@[simp] theorem mem_insert {s : OrderedSet α} {a b : α} : b ∈ s.insert a ↔ b ∈ s ∨ b = a := by
  rw [mem_def, toList_insert]
  split
  · rename_i h
    exact ⟨Or.inl, fun h' => h'.elim id (fun e => e ▸ h)⟩
  · simp [mem_def]

def insertAll (s : OrderedSet α) (l : List α) : OrderedSet α :=
  l.foldl insert s

/-- The members of `s`, then those of `t` that `s` does not have. -/
def union (s t : OrderedSet α) : OrderedSet α :=
  s.insertAll t.toList

instance : Union (OrderedSet α) := ⟨union⟩

/-- The set of a list's members, in the order of their first occurrence. -/
def ofList (l : List α) : OrderedSet α :=
  insertAll ∅ l

@[simp] theorem mem_insertAll {s : OrderedSet α} {l : List α} {a : α} :
    a ∈ s.insertAll l ↔ a ∈ s ∨ a ∈ l := by
  unfold insertAll
  induction l generalizing s with
  | nil => simp
  | cons b l ih => simp only [List.foldl_cons, ih, mem_insert, List.mem_cons, or_assoc]

@[simp] theorem mem_union {s t : OrderedSet α} {a : α} : a ∈ s ∪ t ↔ a ∈ s ∨ a ∈ t :=
  mem_insertAll

theorem toList_insertAll {s : OrderedSet α} {l : List α} (h : l.Nodup) :
    (s.insertAll l).toList = s.toList ++ l.filter fun a => decide (a ∉ s) := by
  induction l generalizing s with
  | nil => simp [insertAll]
  | cons b l ih =>
    obtain ⟨hb, hl⟩ := List.nodup_cons.mp h
    have later : (l.filter fun a => decide (a ∉ s.insert b)) = l.filter fun a => decide (a ∉ s) := by
      apply List.filter_congr
      intro a ha
      have : a ≠ b := fun e => hb (e ▸ ha)
      simp [this]
    have step : s.insertAll (b :: l) = (s.insert b).insertAll l := rfl
    rw [step, ih hl, later, toList_insert]
    by_cases hs : b ∈ s <;> simp [hs]

theorem toList_union (s t : OrderedSet α) :
    (s ∪ t).toList = s.toList ++ t.toList.filter fun a => decide (a ∉ s) :=
  toList_insertAll t.nodup

/-! ## Unions -/

@[simp] theorem union_empty (s : OrderedSet α) : s ∪ ∅ = s := rfl

@[simp] theorem empty_union (s : OrderedSet α) : ∅ ∪ s = s := by
  ext1
  rw [toList_union, toList_empty, List.nil_append, List.filter_eq_self]
  exact fun a _ => decide_eq_true (not_mem_empty a)

/-- A union with what is already there changes nothing. -/
theorem union_of_subset {s t : OrderedSet α} (h : ∀ a ∈ t, a ∈ s) : s ∪ t = s := by
  have hnew : (t.toList.filter fun a => decide (a ∉ s)) = [] :=
    List.filter_eq_nil_iff.2 fun a ha => by simpa using h a ha
  ext1
  rw [toList_union, hnew, List.append_nil]

@[simp] theorem union_self (s : OrderedSet α) : s ∪ s = s :=
  union_of_subset fun _ h => h

@[simp] theorem union_union_left (s t : OrderedSet α) : s ∪ t ∪ s = s ∪ t :=
  union_of_subset fun _ h => mem_union.2 (.inl h)

/-- Bracketing a union otherwise does not change its order either. -/
theorem union_assoc (s t u : OrderedSet α) : s ∪ t ∪ u = s ∪ (t ∪ u) := by
  have hnew : (u.toList.filter fun a => decide (a ∉ s ∪ t)) =
      (u.toList.filter fun a => decide (a ∉ t)).filter fun a => decide (a ∉ s) := by
    rw [List.filter_filter]
    exact List.filter_congr fun a _ => by simp [not_or]
  ext1
  rw [toList_union, toList_union, toList_union, toList_union, hnew, List.filter_append,
    List.append_assoc]

theorem ofList_concat (l : List α) (a : α) : ofList (l ++ [a]) = (ofList l).insert a := by
  simp only [ofList, insertAll, List.foldl_append, List.foldl_cons, List.foldl_nil]

@[simp] theorem mem_ofList {l : List α} {a : α} : a ∈ ofList l ↔ a ∈ l := by
  simp [ofList]

theorem toList_ofList {l : List α} (h : l.Nodup) : (ofList l).toList = l := by
  rw [ofList, toList_insertAll h]
  simp

@[simp] theorem ofList_toList (s : OrderedSet α) : ofList s.toList = s :=
  ext (toList_ofList s.nodup)

end OrderedSet

end LintEngine
