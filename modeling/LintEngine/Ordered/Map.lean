/-
Insertion-ordered maps: finite maps that remember in which order their keys first came in. The
invariant (no key is listed twice) is part of the type. Every change goes through one operation,
`alter`, which replaces the value of a key in place or appends the key. Main statements: the keys
after one `alter` or many (`keys_alter`, `keySet_foldl_alter`), the look-up (`find?_alter`,
`find?_foldl_alter`), and that keys and look-ups determine a map (`ext_find?`).
-/
import LintEngine.Ordered.Set

namespace LintEngine

/-- A finite map whose keys are listed in the order of their first insertion. -/
structure OrderedMap (κ ν : Type) where
  /-- The pairs of a key and its value, oldest key first. -/
  toList : List (κ × ν)
  nodup : (toList.map Prod.fst).Nodup := by simp
deriving DecidableEq

namespace OrderedMap

variable {κ ν ω : Type}

@[ext] theorem ext {m n : OrderedMap κ ν} (h : m.toList = n.toList) : m = n := by
  cases m; cases n; simp_all

def empty : OrderedMap κ ν where
  toList := []

instance : EmptyCollection (OrderedMap κ ν) := ⟨empty⟩

instance : Inhabited (OrderedMap κ ν) := ⟨empty⟩

def keys (m : OrderedMap κ ν) : List κ :=
  m.toList.map Prod.fst

def size (m : OrderedMap κ ν) : Nat :=
  m.toList.length

/-- The keys as a set, in the same order. -/
def keySet (m : OrderedMap κ ν) : OrderedSet κ :=
  ⟨m.keys, m.nodup⟩

@[simp] theorem toList_empty : (∅ : OrderedMap κ ν).toList = [] := rfl

@[simp] theorem keys_empty : (∅ : OrderedMap κ ν).keys = [] := rfl

def mapValues (m : OrderedMap κ ν) (f : ν → ω) : OrderedMap κ ω where
  toList := m.toList.map fun p => (p.1, f p.2)
  nodup := by simpa [List.map_map, Function.comp_def] using m.nodup

@[simp] theorem keys_mapValues (m : OrderedMap κ ν) (f : ν → ω) : (m.mapValues f).keys = m.keys := by
  simp [keys, mapValues, List.map_map, Function.comp_def]

@[simp] theorem keySet_empty : (∅ : OrderedMap κ ν).keySet = ∅ := rfl

@[simp] theorem keySet_mapValues (m : OrderedMap κ ν) (f : ν → ω) :
    (m.mapValues f).keySet = m.keySet :=
  OrderedSet.ext (keys_mapValues m f)

def filterKeys (m : OrderedMap κ ν) (test : κ → Bool) : OrderedMap κ ν where
  toList := m.toList.filter fun p => test p.1
  nodup := m.nodup.sublist (List.filter_sublist.map Prod.fst)

theorem filterKeys_eq_self {m : OrderedMap κ ν} {test : κ → Bool} (h : ∀ k ∈ m.keys, test k = true) :
    m.filterKeys test = m :=
  ext (List.filter_eq_self.2 fun p hp => h p.1 (List.mem_map_of_mem hp))

/-- A test that is stricter than another leaves nothing for the other to do. -/
theorem filterKeys_filterKeys {test test' : κ → Bool} (h : ∀ k, test' k = true → test k = true)
    (m : OrderedMap κ ν) : (m.filterKeys test).filterKeys test' = m.filterKeys test' := by
  refine ext ?_
  simp only [filterKeys, List.filter_filter]
  refine List.filter_congr fun p _ => ?_
  cases hp : test' p.1 with
  | true => simp [h p.1 hp]
  | false => simp

/-! ## Lists of pairs -/

/-- The value of the first pair with the key. -/
def lookup [DecidableEq κ] (k : κ) : List (κ × ν) → Option ν
  | [] => none
  | (k', v) :: r => if k' = k then some v else lookup k r

/-- Gives the first pair with the key the value `f (some old)`; without one appends `f none`. -/
def alterList [DecidableEq κ] (k : κ) (f : Option ν → ν) : List (κ × ν) → List (κ × ν)
  | [] => [(k, f none)]
  | (k', v) :: r => if k' = k then (k', f (some v)) :: r else (k', v) :: alterList k f r

variable [DecidableEq κ]

theorem map_fst_alterList (k : κ) (f : Option ν → ν) (l : List (κ × ν)) :
    (alterList k f l).map Prod.fst =
      if k ∈ l.map Prod.fst then l.map Prod.fst else l.map Prod.fst ++ [k] := by
  induction l with
  | nil => simp [alterList]
  | cons p l ih =>
    obtain ⟨k', v⟩ := p
    by_cases h : k' = k
    · subst h; simp [alterList]
    · have h' : ¬k = k' := fun e => h e.symm
      simp only [alterList, if_neg h, List.map_cons, ih, List.mem_cons, h', false_or]
      split <;> simp

theorem alterList_of_not_mem {k : κ} {l : List (κ × ν)} (h : k ∉ l.map Prod.fst) (f : Option ν → ν) :
    alterList k f l = l ++ [(k, f none)] := by
  induction l with
  | nil => rfl
  | cons p l ih =>
    obtain ⟨a, v⟩ := p
    rw [List.map_cons, List.mem_cons, not_or] at h
    rw [alterList, if_neg (Ne.symm h.1), ih h.2, List.cons_append]

theorem lookup_alterList (k k' : κ) (f : Option ν → ν) (l : List (κ × ν)) :
    lookup k' (alterList k f l) = if k' = k then some (f (lookup k l)) else lookup k' l := by
  induction l with
  | nil => by_cases h : k = k' <;> simp [alterList, lookup, h, eq_comm]
  | cons p l ih =>
    obtain ⟨a, v⟩ := p
    by_cases h : a = k
    · subst h
      by_cases h' : a = k'
      · subst h'; simp [alterList, lookup]
      · have : ¬k' = a := fun e => h' e.symm
        simp [alterList, lookup, h', this]
    · by_cases h' : a = k'
      · subst h'; simp [alterList, lookup, h]
      · simp [alterList, lookup, h, h', ih]

/-- The pairs with other keys stay as they are. -/
theorem filter_alterList {test : κ → Bool} {k : κ} (h : test k = false) (f : Option ν → ν)
    (l : List (κ × ν)) :
    (alterList k f l).filter (fun p => test p.1) = l.filter fun p => test p.1 := by
  induction l with
  | nil => simp [alterList, h]
  | cons p l ih =>
    obtain ⟨a, v⟩ := p
    by_cases ha : a = k
    · subst ha; simp [alterList, h]
    · simp [alterList, ha, List.filter_cons, ih]

theorem lookup_filter (test : κ → Bool) (k : κ) (l : List (κ × ν)) :
    lookup k (l.filter fun p => test p.1) = if test k then lookup k l else none := by
  induction l with
  | nil => simp [lookup]
  | cons p l ih =>
    obtain ⟨a, v⟩ := p
    by_cases ha : a = k
    · subst ha
      by_cases htest : test a = true <;> simp [lookup, htest, ih]
    · by_cases htest : test a = true <;> simp [lookup, htest, ha, ih]

theorem lookup_eq_none {k : κ} {l : List (κ × ν)} (h : k ∉ l.map Prod.fst) : lookup k l = none := by
  induction l with
  | nil => rfl
  | cons p l ih =>
    obtain ⟨a, v⟩ := p
    rw [List.map_cons, List.mem_cons, not_or] at h
    rw [lookup, if_neg (Ne.symm h.1), ih h.2]

theorem mem_of_lookup {k : κ} {v : ν} {l : List (κ × ν)} (h : lookup k l = some v) : (k, v) ∈ l := by
  induction l with
  | nil => cases h
  | cons p l ih =>
    obtain ⟨a, w⟩ := p
    rw [lookup] at h
    split at h
    · rename_i e; cases e; cases h; exact List.mem_cons_self ..
    · exact List.mem_cons_of_mem _ (ih h)

theorem lookup_of_mem {k : κ} {v : ν} {l : List (κ × ν)} (hl : (l.map Prod.fst).Nodup)
    (h : (k, v) ∈ l) : lookup k l = some v := by
  induction l with
  | nil => cases h
  | cons p l ih =>
    obtain ⟨a, w⟩ := p
    obtain ⟨ha, hl⟩ := List.nodup_cons.1 hl
    rcases List.mem_cons.1 h with e | h
    · cases e; rw [lookup, if_pos rfl]
    · have hk : a ≠ k := fun e => ha (e ▸ List.mem_map.2 ⟨(k, v), h, rfl⟩)
      rw [lookup, if_neg hk, ih hl h]

theorem lookup_eq_some {k : κ} {v : ν} {l : List (κ × ν)} (h : (l.map Prod.fst).Nodup) :
    lookup k l = some v ↔ (k, v) ∈ l :=
  ⟨mem_of_lookup, lookup_of_mem h⟩

/-- In which order pairs are listed makes no difference to what is found. -/
theorem lookup_perm {l l' : List (κ × ν)} (h : (l.map Prod.fst).Nodup) (hp : l.Perm l') (k : κ) :
    lookup k l = lookup k l' := by
  have h' : (l'.map Prod.fst).Nodup := (hp.map Prod.fst).nodup_iff.1 h
  refine Option.ext fun v => ?_
  rw [lookup_eq_some h, lookup_eq_some h', hp.mem_iff]

theorem lookup_map (f : ν → ω) (k : κ) (l : List (κ × ν)) :
    lookup k (l.map fun p => (p.1, f p.2)) = (lookup k l).map f := by
  induction l with
  | nil => rfl
  | cons p l ih =>
    obtain ⟨a, v⟩ := p
    by_cases h : a = k <;> simp [lookup, h, ih]

/-! ## Maps -/

def find? (m : OrderedMap κ ν) (k : κ) : Option ν :=
  lookup k m.toList

@[simp] theorem find?_empty (k : κ) : (∅ : OrderedMap κ ν).find? k = none := rfl

theorem find?_eq_some {m : OrderedMap κ ν} {k : κ} {v : ν} :
    m.find? k = some v ↔ (k, v) ∈ m.toList :=
  ⟨mem_of_lookup, lookup_of_mem m.nodup⟩

/-- Replaces the value of a key in place by `f (some old)`; an absent key is appended with `f none`. -/
def alter (m : OrderedMap κ ν) (k : κ) (f : Option ν → ν) : OrderedMap κ ν where
  toList := alterList k f m.toList
  nodup := by
    rw [map_fst_alterList]
    split
    · exact m.nodup
    · rename_i h
      rw [List.nodup_append]
      refine ⟨m.nodup, by simp, ?_⟩
      intro a ha b hb e
      simp only [List.mem_singleton] at hb
      exact h (hb ▸ e ▸ ha)

/-- Gives a key a value; a present key keeps its place. -/
def insert (m : OrderedMap κ ν) (k : κ) (v : ν) : OrderedMap κ ν :=
  m.alter k fun _ => v

/-- The map of a list of pairs: the last value of a key counts, at the place of its first. -/
def ofList (l : List (κ × ν)) : OrderedMap κ ν :=
  l.foldl (fun m p => m.insert p.1 p.2) ∅

theorem keys_alter (m : OrderedMap κ ν) (k : κ) (f : Option ν → ν) :
    (m.alter k f).keys = if k ∈ m.keys then m.keys else m.keys ++ [k] :=
  map_fst_alterList k f m.toList

theorem find?_alter (m : OrderedMap κ ν) (k k' : κ) (f : Option ν → ν) :
    (m.alter k f).find? k' = if k' = k then some (f (m.find? k)) else m.find? k' :=
  lookup_alterList k k' f m.toList

theorem find?_insert (m : OrderedMap κ ν) (k k' : κ) (v : ν) :
    (m.insert k v).find? k' = if k' = k then some v else m.find? k' :=
  find?_alter m k k' _

/-- A list without repeated keys is listed as it stands. -/
theorem toList_ofList {l : List (κ × ν)} (h : (l.map Prod.fst).Nodup) : (ofList l).toList = l := by
  have general : ∀ (l : List (κ × ν)) (m : OrderedMap κ ν), ((m.toList ++ l).map Prod.fst).Nodup →
      (l.foldl (fun m p => m.insert p.1 p.2) m).toList = m.toList ++ l := by
    intro l
    induction l with
    | nil => intro m _; simp
    | cons p l ih =>
      intro m hm
      have hp : p.1 ∉ m.toList.map Prod.fst := by
        intro hmem
        rw [List.map_append, List.nodup_append] at hm
        exact hm.2.2 _ hmem _ (List.mem_map_of_mem (List.mem_cons_self ..)) rfl
      have hstep : (m.insert p.1 p.2).toList = m.toList ++ [p] := alterList_of_not_mem hp _
      rw [List.foldl_cons, ih _ (by rw [hstep]; simpa using hm), hstep]
      simp
  exact general l ∅ h

theorem mem_of_mem_ofList {l : List (κ × ν)} {p : κ × ν} (h : p ∈ (ofList l).toList) : p ∈ l := by
  have hstep : ∀ m : OrderedMap κ ν, (∀ k v, m.find? k = some v → (k, v) ∈ l) → ∀ q ∈ l,
      ∀ k v, (m.insert q.1 q.2).find? k = some v → (k, v) ∈ l := by
    intro m hm q hq k v hfound
    rw [find?_insert] at hfound
    split at hfound
    · rename_i hk
      cases hfound
      exact hk ▸ hq
    · exact hm k v hfound
  have hall : ∀ k v, (ofList l).find? k = some v → (k, v) ∈ l :=
    List.foldlRecOn l _ (fun k v hfound => nomatch hfound) hstep
  exact hall p.1 p.2 (find?_eq_some.2 h)

theorem toList_ofList_map (f : ν → ω) {l : List (κ × ν)} (h : (l.map Prod.fst).Nodup) :
    (ofList (l.map fun p => (p.1, f p.2))).toList = l.map fun p => (p.1, f p.2) :=
  toList_ofList (by simpa [List.map_map, Function.comp_def] using h)

theorem find?_ofList_map (f : ν → ω) {l : List (κ × ν)} (h : (l.map Prod.fst).Nodup) (k : κ) :
    (ofList (l.map fun p => (p.1, f p.2))).find? k = (lookup k l).map f := by
  rw [find?, toList_ofList_map f h, lookup_map]

theorem filterKeys_insert_of_not {test : κ → Bool} {k : κ} (h : test k = false) (m : OrderedMap κ ν)
    (v : ν) : (m.insert k v).filterKeys test = m.filterKeys test :=
  ext (filter_alterList h _ m.toList)

theorem find?_filterKeys (m : OrderedMap κ ν) (test : κ → Bool) (k : κ) :
    (m.filterKeys test).find? k = if test k then m.find? k else none :=
  lookup_filter test k m.toList

theorem mem_keys_iff {m : OrderedMap κ ν} {k : κ} : k ∈ m.keys ↔ (m.find? k).isSome = true := by
  rw [Option.isSome_iff_exists, keys, List.mem_map]
  constructor
  · rintro ⟨p, hp, rfl⟩
    exact ⟨p.2, find?_eq_some.2 hp⟩
  · rintro ⟨v, hv⟩
    exact ⟨(k, v), find?_eq_some.1 hv, rfl⟩

theorem find?_mapValues (m : OrderedMap κ ν) (f : ν → ω) (k : κ) :
    (m.mapValues f).find? k = (m.find? k).map f :=
  lookup_map f k m.toList

/-- A map is determined by the order of its keys and their values. -/
theorem ext_find? {m n : OrderedMap κ ν} (hkeys : m.keySet = n.keySet)
    (h : ∀ k, m.find? k = n.find? k) : m = n := by
  have hpairs : ∀ m : OrderedMap κ ν,
      m.toList.map (fun p => (p.1, some p.2)) = m.keys.map fun k => (k, m.find? k) := by
    intro m
    rw [keys, List.map_map]
    exact List.map_congr_left fun p hp => Prod.ext rfl (find?_eq_some.2 hp).symm
  have hsame : m.toList.map (fun p => (p.1, some p.2)) = n.toList.map fun p => (p.1, some p.2) := by
    rw [hpairs m, hpairs n, show m.keys = n.keys from congrArg OrderedSet.toList hkeys]
    exact List.map_congr_left fun k _ => Prod.ext rfl (h k)
  refine ext ((List.map_inj_right ?_).1 hsame)
  rintro ⟨a, v⟩ ⟨b, w⟩ hpair
  cases hpair
  rfl

theorem keySet_alter (m : OrderedMap κ ν) (k : κ) (f : Option ν → ν) :
    (m.alter k f).keySet = m.keySet.insert k := by
  refine OrderedSet.ext ?_
  rw [OrderedSet.toList_insert]
  exact keys_alter m k f

/-- What is done to other values than the one at hand is of no account. -/
theorem alter_congr {m : OrderedMap κ ν} {k : κ} {f g : Option ν → ν}
    (h : f (m.find? k) = g (m.find? k)) : m.alter k f = m.alter k g := by
  refine ext_find? (by rw [keySet_alter, keySet_alter]) fun k' => ?_
  rw [find?_alter, find?_alter, h]

/-- Altering one key after the other appends those that are new. -/
theorem keySet_foldl_alter (f : ω → Option ν → ν) (l : List (κ × ω)) (m : OrderedMap κ ν) :
    (l.foldl (fun acc p => acc.alter p.1 (f p.2)) m).keySet =
      m.keySet.insertAll (l.map Prod.fst) := by
  induction l generalizing m with
  | nil => rfl
  | cons p l ih => rw [List.foldl_cons, ih, keySet_alter]; rfl

/-- Altering one key after the other: as no key comes twice, each is altered at most once. -/
theorem find?_foldl_alter (f : ω → Option ν → ν) {l : List (κ × ω)} (hl : (l.map Prod.fst).Nodup)
    (m : OrderedMap κ ν) (k : κ) :
    (l.foldl (fun acc p => acc.alter p.1 (f p.2)) m).find? k =
      match lookup k l with
      | none => m.find? k
      | some v => some (f v (m.find? k)) := by
  induction l generalizing m with
  | nil => rfl
  | cons p l ih =>
    obtain ⟨a, v⟩ := p
    obtain ⟨ha, hl⟩ := List.nodup_cons.1 hl
    rw [List.foldl_cons, ih hl, find?_alter]
    by_cases h : a = k
    · subst h
      rw [lookup_eq_none ha, lookup, if_pos rfl, if_pos rfl]
    · rw [if_neg (Ne.symm h), lookup, if_neg h]

end OrderedMap

end LintEngine
