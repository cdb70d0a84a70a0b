import Mathlib.Data.List.Nodup

/-! # Keyed stores

A store is a list whose items carry a key. It is edited by replacing or
appending an item under its key and by dropping the items a test hits. With
distinct keys, a whole run of edits acts on each key separately: the item
found under a key afterwards is computed from the one found there before.
-/

namespace KjAtlas

theorem mem_snoc {α : Type*} {x a : α} {xs : List α} : x ∈ xs ++ [a] ↔ x ∈ xs ∨ x = a := by
  rw [List.mem_append, List.mem_singleton]

variable {κ α β : Type} [DecidableEq κ]

def findBy (key : α → κ) (k : κ) (items : List α) : Option α :=
  items.find? fun item => decide (key item = k)

/-- Replace the first item with the value's key, or append the value. -/
def upsertBy (key : α → κ) (value : α) : List α → List α
  | [] => [value]
  | item :: items =>
      if key item = key value then value :: items else item :: upsertBy key value items

def insertBy (key : α → κ) (value : α) (items : List α) : Option (List α) :=
  if (findBy key (key value) items).isNone then some (items ++ [value]) else none

variable {item value : α}

section Find

variable (key : α → κ) {k : κ} {items : List α}

@[simp] theorem findBy_nil : findBy key k [] = none := rfl

theorem findBy_cons (head : α) :
    findBy key k (head :: items) = if key head = k then some head else findBy key k items := by
  by_cases hk : key head = k
  · simp [findBy, hk]
  · simp [findBy, hk]

theorem findBy_eq_some (hfind : findBy key k items = some item) : item ∈ items ∧ key item = k := by
  refine ⟨List.mem_of_find?_eq_some hfind, ?_⟩
  simpa using List.find?_some hfind

theorem findBy_eq_none : findBy key k items = none ↔ ∀ item ∈ items, key item ≠ k := by
  simp [findBy, List.find?_eq_none]

theorem findBy_isSome : (findBy key k items).isSome ↔ ∃ item ∈ items, key item = k := by
  simp [findBy, List.find?_isSome]

section

variable (hnodup : (items.map key).Nodup)
include hnodup

theorem findBy_of_mem (hmem : item ∈ items) : findBy key (key item) items = some item := by
  induction items with
  | nil => simp at hmem
  | cons head items ih =>
      simp only [List.map_cons, List.nodup_cons] at hnodup
      rw [findBy_cons]
      rcases List.mem_cons.mp hmem with rfl | htail
      · rw [if_pos rfl]
      · have hne : key head ≠ key item := by
          intro heq
          exact hnodup.1 (heq ▸ List.mem_map_of_mem htail)
        rw [if_neg hne]
        exact ih hnodup.2 htail

theorem filter_key_of_mem (hmem : item ∈ items) :
    items.filter (fun other => decide (key other = key item)) = [item] := by
  induction items with
  | nil => simp at hmem
  | cons head items ih =>
      simp only [List.map_cons, List.nodup_cons] at hnodup
      rcases List.mem_cons.mp hmem with rfl | htail
      · rw [List.filter_cons_of_pos (by simp), List.filter_eq_nil_iff.mpr]
        intro other hother hkey
        exact hnodup.1 (of_decide_eq_true hkey ▸ List.mem_map_of_mem hother)
      · rw [List.filter_cons_of_neg, ih hnodup.2 htail]
        intro hkey
        exact hnodup.1 (of_decide_eq_true hkey ▸ List.mem_map_of_mem htail)

theorem modify_findIdx? {index : Nat}
    (hindex : items.findIdx? (fun item => decide (key item = k)) = some index) (f : α → α) :
    items.modify index f = items.map fun item => if key item = k then f item else item := by
  induction items generalizing index with
  | nil => simp at hindex
  | cons head items ih =>
      simp only [List.map_cons, List.nodup_cons] at hnodup
      rw [List.findIdx?_cons] at hindex
      by_cases hhead : key head = k
      · rw [if_pos (decide_eq_true hhead)] at hindex
        obtain rfl := Option.some.inj hindex
        have hrest : items.map (fun item => if key item = k then f item else item) = items := by
          conv_rhs => rw [← List.map_id items]
          refine List.map_congr_left fun item hitem => if_neg fun hkey => hnodup.1 ?_
          exact hhead.trans hkey.symm ▸ List.mem_map_of_mem hitem
        rw [List.modify_zero_cons, List.map_cons, if_pos hhead, hrest]
      · rw [if_neg (by simpa using hhead), Option.map_eq_some_iff] at hindex
        obtain ⟨rest, hrest, rfl⟩ := hindex
        rw [List.modify_succ_cons, List.map_cons, if_neg hhead, ih hnodup.2 hrest]

theorem mem_iff_findBy : item ∈ items ↔ findBy key (key item) items = some item :=
  ⟨findBy_of_mem key hnodup, fun hfind => (findBy_eq_some key hfind).1⟩

end

end Find

section Edits

variable (key : α → κ)

theorem findBy_upsertBy (k : κ) (value : α) (items : List α) :
    findBy key k (upsertBy key value items) =
      if key value = k then some value else findBy key k items := by
  induction items with
  | nil => rw [upsertBy, findBy_cons]
  | cons head items ih =>
      unfold upsertBy
      split
      next hhead =>
        rw [findBy_cons, findBy_cons, hhead]
        split <;> rfl
      next hhead =>
        rw [findBy_cons, findBy_cons, ih]
        by_cases hk : key value = k
        · have hne : key head ≠ k := fun heq => hhead (heq.trans hk.symm)
          rw [if_neg hne, if_pos hk, if_pos hk]
        · rw [if_neg hk, if_neg hk]

variable {items : List α}

theorem findBy_upsertBy_eq_some {new : α} :
    findBy key (key item) (upsertBy key new items) = some item ↔
      item = new ∨ findBy key (key item) items = some item ∧ key item ≠ key new := by
  rw [findBy_upsertBy]
  by_cases hsame : key new = key item
  · simp [hsame, eq_comm]
  · have hne : item ≠ new := fun heq => hsame (heq ▸ rfl)
    simp [hsame, hne, Ne.symm hsame]

theorem mem_of_mem_upsertBy (hitem : item ∈ upsertBy key value items) :
    item = value ∨ item ∈ items := by
  induction items with
  | nil => exact Or.inl (List.mem_singleton.mp hitem)
  | cons head items ih =>
      unfold upsertBy at hitem
      split at hitem
      · exact (List.mem_cons.mp hitem).imp_right (List.mem_cons_of_mem head)
      · rcases List.mem_cons.mp hitem with rfl | htail
        · exact Or.inr List.mem_cons_self
        · exact (ih htail).imp_right (List.mem_cons_of_mem head)

/-- Items of another form are replaced alike if their keys are the same. -/
theorem map_upsertBy {β : Type} {key' : β → κ} {f : α → β} (hkey : ∀ item, key' (f item) = key item)
    (value : α) (items : List α) :
    (upsertBy key value items).map f = upsertBy key' (f value) (items.map f) := by
  induction items with
  | nil => rfl
  | cons head items ih =>
      rw [upsertBy, List.map_cons, upsertBy, hkey, hkey]
      split
      · rfl
      · rw [List.map_cons, ih]

theorem findBy_map {β : Type} {key' : β → κ} {f : α → β} (hkey : ∀ item, key' (f item) = key item)
    (k : κ) (items : List α) : findBy key' k (items.map f) = (findBy key k items).map f := by
  induction items with
  | nil => rfl
  | cons head items ih =>
      rw [List.map_cons, findBy_cons, findBy_cons, hkey, ih]
      split <;> rfl

theorem insertBy_eq_some {next : List α} :
    insertBy key value items = some next ↔
      findBy key (key value) items = none ∧ next = items ++ [value] := by
  unfold insertBy
  rw [Option.ite_none_right_eq_some, Option.isNone_iff_eq_none, Option.some.injEq]
  exact and_congr_right fun _ => eq_comm

theorem findBy_insertBy {next : List α} (hinsert : insertBy key value items = some next) (k : κ) :
    findBy key k next = if key value = k then some value else findBy key k items := by
  obtain ⟨hnew, rfl⟩ := (insertBy_eq_some key).mp hinsert
  have happend : findBy key k (items ++ [value]) =
      (findBy key k items).or (findBy key k [value]) := List.find?_append
  rw [happend, findBy_cons, findBy_nil]
  split
  next hk => rw [← hk, hnew, Option.none_or]
  next => rw [Option.or_none]

theorem upsertBy_of_not_mem (hnew : key value ∉ items.map key) :
    upsertBy key value items = items ++ [value] := by
  induction items with
  | nil => rfl
  | cons head items ih =>
      simp only [List.map_cons, List.mem_cons, not_or] at hnew
      rw [upsertBy, if_neg (Ne.symm hnew.1), ih hnew.2, List.cons_append]

/-- Of the items under a key, an update replaces the first. -/
theorem filter_key_upsertBy (k : κ) (value : α) (items : List α) :
    (upsertBy key value items).filter (fun item => decide (key item = k)) =
      if key value = k then value :: (items.filter fun item => decide (key item = k)).tail
      else items.filter fun item => decide (key item = k) := by
  induction items with
  | nil => by_cases hk : key value = k <;> simp [upsertBy, hk]
  | cons head items ih =>
      unfold upsertBy
      by_cases hhead : key head = key value
      · rw [if_pos hhead]
        by_cases hk : key value = k
        · simp [hhead, hk]
        · simp [hhead, hk]
      · rw [if_neg hhead, List.filter_cons, ih]
        by_cases hk : key value = k
        · have hne : key head ≠ k := fun heq => hhead (heq.trans hk.symm)
          simp [hk, hne]
        · simp [hk, List.filter_cons]

theorem mem_keys_upsertBy (k : κ) (value : α) (items : List α) :
    k ∈ (upsertBy key value items).map key ↔ k = key value ∨ k ∈ items.map key := by
  induction items with
  | nil => simp [upsertBy]
  | cons head items ih =>
      unfold upsertBy
      split
      next hhead => simp [hhead]
      next hhead =>
        rw [List.map_cons, List.mem_cons, ih, List.map_cons, List.mem_cons]
        tauto

theorem nodup_upsertBy (value : α) (hnodup : (items.map key).Nodup) :
    ((upsertBy key value items).map key).Nodup := by
  induction items with
  | nil => simp [upsertBy]
  | cons head items ih =>
      simp only [List.map_cons, List.nodup_cons] at hnodup
      unfold upsertBy
      split
      next hhead =>
        rw [List.map_cons, List.nodup_cons, ← hhead]
        exact hnodup
      next hhead =>
        rw [List.map_cons, List.nodup_cons, mem_keys_upsertBy]
        exact ⟨fun hmem => hmem.elim hhead hnodup.1, ih hnodup.2⟩

theorem findBy_filter (k : κ) (keep : α → Bool) (hnodup : (items.map key).Nodup) :
    findBy key k (items.filter keep) = (findBy key k items).filter keep := by
  induction items with
  | nil => rfl
  | cons head items ih =>
      simp only [List.map_cons, List.nodup_cons] at hnodup
      rw [findBy_cons, List.filter_cons]
      by_cases hk : key head = k
      · -- no later item has the head's key, so dropping the head leaves nothing under it
        have hnone : findBy key k (items.filter keep) = none := by
          rw [findBy_eq_none]
          intro item hitem heq
          apply hnodup.1
          rw [hk, ← heq]
          exact List.mem_map_of_mem (List.mem_filter.mp hitem).1
        rw [if_pos hk]
        cases hkeep : keep head with
        | true => simp [findBy_cons, Option.filter, hkeep, hk]
        | false => simp [Option.filter, hkeep, hnone]
      · rw [if_neg hk, ← ih hnodup.2]
        split
        · rw [findBy_cons, if_neg hk]
        · rfl

/-- Dropping everything under one key leaves the other keys alone. -/
theorem findBy_filter_key (k k' : κ) (items : List α) :
    findBy key k (items.filter fun item => !decide (key item = k')) =
      if k' = k then none else findBy key k items := by
  induction items with
  | nil => simp
  | cons item items ih =>
      rw [List.filter_cons]
      by_cases hk : key item = k'
      · subst hk
        simp only [decide_true, Bool.not_true, Bool.false_eq_true, if_false, ih, findBy_cons]
        split <;> rfl
      · simp only [hk, decide_false, Bool.not_false, if_true, findBy_cons, ih]
        by_cases hkey : key item = k
        · have hne : k' ≠ k := fun heq => hk (hkey.trans heq.symm)
          simp [hkey, hne]
        · simp [hkey]

/-- Filtering leaves the item found under a key exactly when it passes. -/
theorem findBy_filter_eq_self_iff (k : κ) (keep : α → Bool) (items : List α) :
    findBy key k (items.filter keep) = findBy key k items ↔
      ∀ item ∈ findBy key k items, keep item = true := by
  induction items with
  | nil => simp
  | cons head items ih =>
      rw [findBy_cons, List.filter_cons]
      by_cases hk : key head = k
      · rw [if_pos hk]
        by_cases hkeep : keep head = true
        · rw [if_pos hkeep, findBy_cons, if_pos hk]
          simpa using hkeep
        · rw [if_neg hkeep]
          constructor
          · intro hfind
            exact absurd (List.mem_filter.mp (findBy_eq_some key hfind).1).2 hkeep
          · intro hpass
            exact absurd (hpass head rfl) hkeep
      · rw [if_neg hk, ← ih]
        split
        · rw [findBy_cons, if_neg hk]
        · rfl

/-- Writing under another key does not show in a filtered store. -/
theorem findBy_filter_upsertBy {k : κ} (hne : key value ≠ k) (keep : α → Bool) (items : List α) :
    findBy key k ((upsertBy key value items).filter keep) = findBy key k (items.filter keep) := by
  have hskip : ∀ (head : α) (rest : List α), key head ≠ k →
      findBy key k ((head :: rest).filter keep) = findBy key k (rest.filter keep) := by
    intro head rest hhead
    rw [List.filter_cons]
    split
    · rw [findBy_cons, if_neg hhead]
    · rfl
  induction items with
  | nil => exact hskip value [] hne
  | cons head items ih =>
      unfold upsertBy
      split
      next hhead => rw [hskip value items hne, hskip head items (hhead ▸ hne)]
      next =>
        rw [List.filter_cons, List.filter_cons]
        split
        · rw [findBy_cons, findBy_cons, ih]
        · exact ih

/-- A test leaves the item under a key exactly when the item passes it. -/
theorem filter_eq_self_iff (keep : α → Bool) (cell : Option α) :
    cell.filter keep = cell ↔ ∀ item ∈ cell, keep item = true := by
  cases cell with
  | none => simp
  | some item => simp [Option.filter_some]

end Edits

/-- Either nothing in a list passes a test, or some element does and nothing
after it. -/
theorem none_or_exists_last (p : α → Prop) (items : List α) :
    (∀ item ∈ items, ¬p item) ∨
      ∃ item after, item :: after <:+ items ∧ p item ∧ ∀ later ∈ after, ¬p later := by
  induction items with
  | nil => exact Or.inl (by simp)
  | cons head items ih =>
      rcases ih with hnone | ⟨item, after, hsuffix, hitem, hafter⟩
      · by_cases hhead : p head
        · exact Or.inr ⟨head, items, List.suffix_rfl, hhead, hnone⟩
        · exact Or.inl (List.forall_mem_cons.mpr ⟨hhead, hnone⟩)
      · exact Or.inr ⟨item, after, hsuffix.trans (List.suffix_cons _ _), hitem, hafter⟩

/-- Of two positions in a list, one is before the other unless they coincide. -/
theorem suffix_cases {items left right : List α} {a b : α} (ha : a :: left <:+ items)
    (hb : b :: right <:+ items) : a :: left = b :: right ∨ a ∈ right ∨ b ∈ left := by
  rcases List.suffix_or_suffix_of_suffix ha hb with h | h
  · rcases List.suffix_cons_iff.mp h with heq | hsuffix
    · exact Or.inl heq
    · exact Or.inr (Or.inl (hsuffix.mem List.mem_cons_self))
  · rcases List.suffix_cons_iff.mp h with heq | hsuffix
    · exact Or.inl heq.symm
    · exact Or.inr (Or.inr (hsuffix.mem List.mem_cons_self))

/-! ## Distinct values in order of first occurrence -/

section Distinct

variable [DecidableEq α]

def distinct : List α → List α
  | [] => []
  | value :: values => value :: (distinct values).filter (· ≠ value)

variable {values : List α}

@[simp] theorem mem_distinct : value ∈ distinct values ↔ value ∈ values := by
  induction values with
  | nil => rfl
  | cons head values ih =>
      rw [distinct, List.mem_cons, List.mem_cons, List.mem_filter, ih]
      by_cases heq : value = head <;> simp [heq]

theorem nodup_distinct (values : List α) : (distinct values).Nodup := by
  induction values with
  | nil => exact List.nodup_nil
  | cons head values ih =>
      rw [distinct, List.nodup_cons]
      exact ⟨by simp, ih.filter _⟩

theorem length_distinct_le_one_iff :
    (distinct values).length ≤ 1 ↔ ∀ left ∈ values, ∀ right ∈ values, left = right := by
  have hnodup := nodup_distinct values
  have hmem : ∀ value, value ∈ distinct values ↔ value ∈ values := fun _ => mem_distinct
  revert hnodup hmem
  generalize distinct values = unique
  intro hnodup hmem
  match unique with
  | [] =>
      refine iff_of_true (Nat.zero_le 1) fun left hleft => ?_
      exact absurd ((hmem left).mpr hleft) List.not_mem_nil
  | [value] =>
      refine iff_of_true (Nat.le_refl 1) fun left hleft right hright => ?_
      rw [List.mem_singleton.mp ((hmem left).mpr hleft),
        List.mem_singleton.mp ((hmem right).mpr hright)]
  | first :: second :: rest =>
      refine iff_of_false (by simp) fun hequal => ?_
      have heq := hequal first ((hmem first).mp (by simp)) second ((hmem second).mp (by simp))
      rw [List.nodup_cons, heq] at hnodup
      exact hnodup.1 List.mem_cons_self

theorem distinct_of_nodup (hnodup : values.Nodup) : distinct values = values := by
  induction values with
  | nil => rfl
  | cons head values ih =>
      rw [List.nodup_cons] at hnodup
      rw [distinct, ih hnodup.2, List.filter_eq_self.mpr]
      exact fun value hvalue => decide_eq_true fun heq => hnodup.1 (heq ▸ hvalue)

end Distinct

/-! ## Maps in insertion order -/

/-- A map that keeps its entries in order of first insertion. -/
structure InsertionMap (κ β : Type) where
  entries : List (κ × β)
  nodup : (entries.map Prod.fst).Nodup

namespace InsertionMap

/-- The map without entries. -/
def empty : InsertionMap κ β := ⟨[], List.nodup_nil⟩

/-- The value stored under a key. -/
def get? (map : InsertionMap κ β) (k : κ) : Option β :=
  (findBy Prod.fst k map.entries).map Prod.snd

/-- Whether a key has an entry. -/
def has (map : InsertionMap κ β) (k : κ) : Bool := (map.get? k).isSome

/-- Store a value under a key, in place when the key has an entry. -/
def set (map : InsertionMap κ β) (k : κ) (value : β) : InsertionMap κ β :=
  ⟨upsertBy Prod.fst (k, value) map.entries, nodup_upsertBy _ _ map.nodup⟩

/-- Remove the entry of a key. -/
def delete (map : InsertionMap κ β) (k : κ) : InsertionMap κ β :=
  ⟨map.entries.filter (fun entry => !decide (entry.1 = k)),
    map.nodup.sublist (List.filter_sublist.map _)⟩

/-- The map of a list of entries; of entries with one key the last counts. -/
def ofList (entries : List (κ × β)) : InsertionMap κ β :=
  entries.foldl (fun map entry => map.set entry.1 entry.2) empty

def values (map : InsertionMap κ β) : List β := map.entries.map Prod.snd

def keys (map : InsertionMap κ β) : List κ := map.entries.map Prod.fst

@[simp] theorem get?_empty (k : κ) : (empty : InsertionMap κ β).get? k = none := rfl

@[simp] theorem get?_set (map : InsertionMap κ β) (k k' : κ) (value : β) :
    (map.set k value).get? k' = if k = k' then some value else map.get? k' := by
  simp only [get?, set, findBy_upsertBy]
  split <;> rfl

@[simp] theorem get?_delete (map : InsertionMap κ β) (k k' : κ) :
    (map.delete k).get? k' = if k = k' then none else map.get? k' := by
  simp only [get?, delete, findBy_filter _ _ _ map.nodup]
  cases hfind : findBy Prod.fst k' map.entries with
  | none => simp
  | some entry =>
      have hkey := (findBy_eq_some _ hfind).2
      by_cases heq : k = k'
      · simp [Option.filter, hkey, heq]
      · simp [Option.filter, hkey, heq, Ne.symm heq]

theorem get?_foldl_delete (keys : List κ) (map : InsertionMap κ β) (k : κ) :
    (keys.foldl delete map).get? k = if k ∈ keys then none else map.get? k := by
  induction keys generalizing map with
  | nil => simp
  | cons key keys ih =>
      rw [List.foldl_cons, ih, get?_delete]
      by_cases hmem : k ∈ keys
      · simp [hmem]
      · simp [hmem, eq_comm]

variable {map : InsertionMap κ β}

theorem mem_entries {k : κ} {value : β} : (k, value) ∈ map.entries ↔ map.get? k = some value := by
  rw [mem_iff_findBy Prod.fst map.nodup, get?, Option.map_eq_some_iff]
  constructor
  · exact fun hfind => ⟨_, hfind, rfl⟩
  · rintro ⟨entry, hfind, rfl⟩
    rw [hfind]
    exact congrArg some (Prod.ext (findBy_eq_some _ hfind).2 rfl)

theorem mem_keys {k : κ} : k ∈ map.keys ↔ (map.get? k).isSome := by
  simp only [keys, get?, Option.isSome_map, findBy_isSome, List.mem_map]

theorem mem_values {value : β} : value ∈ map.values ↔ ∃ k, map.get? k = some value := by
  simp only [values, get?, List.mem_map, Option.map_eq_some_iff]
  constructor
  · rintro ⟨entry, hentry, rfl⟩
    exact ⟨entry.1, entry, findBy_of_mem _ map.nodup hentry, rfl⟩
  · rintro ⟨_, entry, hfind, rfl⟩
    exact ⟨entry, (findBy_eq_some _ hfind).1, rfl⟩

theorem get?_foldl_set (entries : List (κ × β)) (map : InsertionMap κ β) (k : κ) :
    (entries.foldl (fun map entry => map.set entry.1 entry.2) map).get? k =
      ((findBy Prod.fst k entries.reverse).map Prod.snd).or (map.get? k) := by
  induction entries generalizing map with
  | nil => rfl
  | cons entry entries ih =>
      rw [List.foldl_cons, ih, get?_set, List.reverse_cons]
      simp only [findBy, List.find?_append, List.find?_cons, List.find?_nil]
      by_cases hk : entry.1 = k
      · cases entries.reverse.find? (fun entry => decide (entry.1 = k)) <;> simp [hk]
      · cases entries.reverse.find? (fun entry => decide (entry.1 = k)) <;> simp [hk]

/-- Of the entries with one key, the last is stored. -/
theorem get?_ofList (entries : List (κ × β)) (k : κ) :
    (ofList entries).get? k = (findBy Prod.fst k entries.reverse).map Prod.snd := by
  rw [ofList, get?_foldl_set]
  simp

theorem exists_get?_ofList {entries : List (κ × β)} {k : κ} (hmem : ∃ value, (k, value) ∈ entries) :
    ∃ value, (ofList entries).get? k = some value ∧ (k, value) ∈ entries := by
  rw [get?_ofList]
  obtain ⟨value, hvalue⟩ := hmem
  have hsome : (findBy Prod.fst k entries.reverse).isSome :=
    (findBy_isSome Prod.fst).mpr ⟨(k, value), List.mem_reverse.mpr hvalue, rfl⟩
  obtain ⟨⟨_, found⟩, hfound⟩ := Option.isSome_iff_exists.mp hsome
  obtain ⟨hentry, rfl⟩ := findBy_eq_some Prod.fst hfound
  exact ⟨found, by rw [hfound]; rfl, List.mem_reverse.mp hentry⟩

/-- Values that are computed from what is stored are found as they are computed. -/
theorem get?_ofList_map_snd {γ : Type} (f : κ → β → γ) (entries : List (κ × β)) (k : κ) :
    (ofList (entries.map fun entry => (entry.1, f entry.1 entry.2))).get? k =
      ((ofList entries).get? k).map (f k) := by
  rw [get?_ofList, get?_ofList, ← List.map_reverse]
  induction entries.reverse with
  | nil => rfl
  | cons entry entries ih =>
      rw [List.map_cons, findBy_cons, findBy_cons]
      by_cases hkey : entry.1 = k
      · simp [hkey]
      · simpa [hkey] using ih

theorem get?_ofList_map (key : α → κ) (value : α → β) {items : List α}
    (hnodup : (items.map key).Nodup) (k : κ) :
    (ofList (items.map fun item => (key item, value item))).get? k =
      (findBy key k items).map value := by
  rw [get?_ofList]
  have hnodup' : (items.reverse.map key).Nodup := by
    rw [List.map_reverse]
    exact List.nodup_reverse.mpr hnodup
  have hrev : findBy key k items.reverse = findBy key k items := by
    cases hfind : findBy key k items with
    | none =>
        rw [findBy_eq_none] at hfind ⊢
        exact fun item hitem => hfind item (List.mem_reverse.mp hitem)
    | some item =>
        obtain ⟨hmem, rfl⟩ := findBy_eq_some key hfind
        exact findBy_of_mem key hnodup' (List.mem_reverse.mpr hmem)
  rw [← hrev, ← List.map_reverse]
  simp only [findBy, List.find?_map, Option.map_map]
  rfl

theorem mem_values_byKey {key : α → κ} {items : List α}
    (hkey : ∀ a ∈ items, ∀ b ∈ items, key a = key b → a = b) :
    value ∈ (ofList (items.map fun item => (key item, item))).values ↔ value ∈ items := by
  have hentry : ∀ {k : κ} {item : α}, (k, item) ∈ items.map (fun item => (key item, item)) →
      item ∈ items ∧ key item = k := by
    intro k item hmem
    obtain ⟨other, hother, heq⟩ := List.mem_map.mp hmem
    obtain ⟨rfl, rfl⟩ := Prod.mk.inj heq
    exact ⟨hother, rfl⟩
  rw [mem_values]
  constructor
  · rintro ⟨k, hget⟩
    rw [get?_ofList, Option.map_eq_some_iff] at hget
    obtain ⟨entry, hfind, rfl⟩ := hget
    exact (hentry (List.mem_reverse.mp (findBy_eq_some Prod.fst hfind).1)).1
  · intro hmem
    obtain ⟨found, hget, hfound⟩ :=
      exists_get?_ofList ⟨value, List.mem_map_of_mem (f := fun item => (key item, item)) hmem⟩
    obtain ⟨hitem, hown⟩ := hentry hfound
    rw [hkey found hitem value hmem hown] at hget
    exact ⟨key value, hget⟩

theorem nodup_values_byKey {key : α → κ} (items : List α) :
    (ofList (items.map fun item => (key item, item))).values.Nodup := by
  apply List.Nodup.of_map key
  have hkeys : ((ofList (items.map fun item => (key item, item))).values.map key) =
      (ofList (items.map fun item => (key item, item))).keys := by
    rw [values, keys, List.map_map]
    apply List.map_congr_left
    intro entry hentry
    have hget := findBy_of_mem Prod.fst (ofList (items.map fun item => (key item, item))).nodup hentry
    have hsome : (ofList (items.map fun item => (key item, item))).get? entry.1 = some entry.2 := by
      rw [get?, hget, Option.map_some]
    rw [get?_ofList, Option.map_eq_some_iff] at hsome
    obtain ⟨other, hfind, heq⟩ := hsome
    obtain ⟨hmem, hown⟩ := findBy_eq_some Prod.fst hfind
    obtain ⟨item, -, rfl⟩ := List.mem_map.mp (List.mem_reverse.mp hmem)
    rw [Function.comp_apply, ← heq, ← hown]
  rw [hkeys]
  exact InsertionMap.nodup _

theorem get?_ofList_snoc (key : α → κ) (value : α → β) (items : List α) (item : α) (k : κ) :
    (ofList ((items ++ [item]).map fun item => (key item, value item))).get? k =
      if key item = k then some (value item)
      else (ofList (items.map fun item => (key item, value item))).get? k := by
  rw [ofList, List.map_append, List.foldl_append]
  exact get?_set ..

theorem has_ofList_map (key : α → κ) (value : α → β) (items : List α) (k : κ) :
    ((ofList (items.map fun item => (key item, value item))).get? k).isSome ↔
      ∃ item ∈ items, key item = k := by
  rw [get?_ofList, Option.isSome_map, findBy_isSome]
  simp

end InsertionMap

end KjAtlas
