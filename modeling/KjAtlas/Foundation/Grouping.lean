import Mathlib.Order.Lattice
import KjAtlas.Foundation.KeyedStore

/-! # Grouping by key

Items are collected in groups of one key. A group depends only on the items of
its key and their order.
-/

namespace KjAtlas

variable {α κ β : Type}

section Collect

variable [DecidableEq κ] (key : α → κ) (start : α → β) (add : β → α → β)

/-- The groups of a list of items, in order of their first items. -/
def collect (items : List α) : InsertionMap κ β :=
  items.foldl (fun groups item =>
    match groups.get? (key item) with
    | none => groups.set (key item) (start item)
    | some group => groups.set (key item) (add group item)) .empty

/-- The group that items of one key form. -/
def groupOf : List α → Option β
  | [] => none
  | first :: rest => some (rest.foldl add (start first))

theorem get?_foldl_collect (items : List α) (groups : InsertionMap κ β) (k : κ) :
    (items.foldl (fun groups item =>
      match groups.get? (key item) with
      | none => groups.set (key item) (start item)
      | some group => groups.set (key item) (add group item)) groups).get? k =
      match groups.get? k with
      | none => groupOf start add (items.filter fun item => decide (key item = k))
      | some group => some ((items.filter fun item => decide (key item = k)).foldl add group) := by
  induction items generalizing groups with
  | nil =>
      rw [List.foldl_nil]
      cases groups.get? k <;> rfl
  | cons item items ih =>
      rw [List.foldl_cons, ih]
      by_cases hkey : key item = k
      · subst hkey
        rw [List.filter_cons, if_pos (decide_eq_true rfl)]
        cases hget : groups.get? (key item) with
        | none => simp [groupOf]
        | some group => simp
      · rw [List.filter_cons, if_neg (by simpa using hkey)]
        cases hget : groups.get? (key item) <;> simp [hkey]

theorem get?_collect (items : List α) (k : κ) :
    (collect key start add items).get? k =
      groupOf start add (items.filter fun item => decide (key item = k)) :=
  get?_foldl_collect key start add items .empty k

end Collect

section Accumulate

variable [DecidableEq κ] (key : α → Option κ) (start : β) (add : β → α → β)

/-- Items are added to the value under their key, if they have one. -/
def accumulate (items : List α) : InsertionMap κ β :=
  items.foldl (fun values item =>
    match key item with
    | none => values
    | some k => values.set k (add ((values.get? k).getD start) item)) .empty

theorem get?_foldl_accumulate (items : List α) (values : InsertionMap κ β) (k : κ) :
    (items.foldl (fun values item =>
      match key item with
      | none => values
      | some k => values.set k (add ((values.get? k).getD start) item)) values).get? k =
      if ∃ item ∈ items, key item = some k then
        some ((items.filter fun item => decide (key item = some k)).foldl add
          ((values.get? k).getD start))
      else values.get? k := by
  induction items generalizing values with
  | nil => simp
  | cons item items ih =>
      rw [List.foldl_cons, ih]
      cases hkey : key item with
      | none => simp [hkey]
      | some own =>
          by_cases hown : own = k
          · subst hown
            by_cases hlater : ∃ later ∈ items, key later = some own
            · simp [hkey, hlater]
            · have hnone : items.filter (fun later => decide (key later = some own)) = [] := by
                rw [List.filter_eq_nil_iff]
                intro later hmem
                rw [decide_eq_true_eq]
                exact fun hsome => hlater ⟨later, hmem, hsome⟩
              simp [hkey, hlater, hnone]
          · simp [hkey, hown]

theorem get?_accumulate (items : List α) (k : κ) :
    (accumulate key start add items).get? k =
      if ∃ item ∈ items, key item = some k then
        some ((items.filter fun item => decide (key item = some k)).foldl add start)
      else none :=
  get?_foldl_accumulate key start add items .empty k

theorem foldl_eq_accumulate {step : InsertionMap κ β → α → InsertionMap κ β}
    (hnone : ∀ values item, key item = none → step values item = values)
    (hsome : ∀ values item k, key item = some k →
      step values item = values.set k (add ((values.get? k).getD start) item)) (items : List α) :
    items.foldl step .empty = accumulate key start add items := by
  apply List.foldl_ext
  intro values item _
  cases hkey : key item with
  | none => exact hnone values item hkey
  | some k => exact hsome values item k hkey

end Accumulate

section Buckets

variable [DecidableEq κ] (key : α → Option κ)

/-- The items of each key, in order. -/
def buckets (items : List α) : InsertionMap κ (List α) :=
  accumulate key [] (fun bucket item => bucket ++ [item]) items

theorem get?_buckets (items : List α) (k : κ) :
    (buckets key items).get? k =
      if ∃ item ∈ items, key item = some k then
        some (items.filter fun item => decide (key item = some k))
      else none := by
  rw [buckets, get?_accumulate]
  congr 2
  have happend : ∀ (rest : List α) (bucket : List α),
      rest.foldl (fun bucket item => bucket ++ [item]) bucket = bucket ++ rest := by
    intro rest
    induction rest with
    | nil => exact fun bucket => (List.append_nil bucket).symm
    | cons item rest ih =>
        intro bucket
        rw [List.foldl_cons, ih, List.append_assoc, List.singleton_append]
  exact happend _ []

variable {key} {items : List α} {bucket : List α}

theorem get?_buckets_eq_some {k : κ} :
    (buckets key items).get? k = some bucket ↔ (∃ item ∈ items, key item = some k) ∧
      bucket = items.filter fun item => decide (key item = some k) := by
  rw [get?_buckets]
  split
  next hsome => simp [hsome, eq_comm]
  next hnone => simp [hnone]

theorem mem_values_buckets :
    bucket ∈ (buckets key items).values ↔ ∃ k, (∃ item ∈ items, key item = some k) ∧
      bucket = items.filter fun item => decide (key item = some k) := by
  simp only [InsertionMap.mem_values, get?_buckets_eq_some]

theorem exists_bucket_iff {left right : α} :
    (∃ bucket ∈ (buckets key items).values, left ∈ bucket ∧ right ∈ bucket) ↔
      left ∈ items ∧ right ∈ items ∧ key left = key right ∧ (key left).isSome := by
  simp only [mem_values_buckets, Option.isSome_iff_exists]
  constructor
  · rintro ⟨_, ⟨k, -, rfl⟩, hleft, hright⟩
    rw [List.mem_filter, decide_eq_true_eq] at hleft hright
    exact ⟨hleft.1, hright.1, hleft.2.trans hright.2.symm, k, hleft.2⟩
  · rintro ⟨hleft, hright, hsame, k, hkey⟩
    refine ⟨_, ⟨k, ⟨left, hleft, hkey⟩, rfl⟩, ?_, ?_⟩
    · exact List.mem_filter.mpr ⟨hleft, decide_eq_true hkey⟩
    · exact List.mem_filter.mpr ⟨hright, decide_eq_true (hsame ▸ hkey)⟩

/-- Items with distinct names are named once among all buckets. -/
theorem nodup_flatMap_buckets {f : α → β} (hnodup : (items.map f).Nodup) :
    ((buckets key items).values.flatMap (List.map f)).Nodup := by
  rw [List.nodup_flatMap]
  refine ⟨fun bucket hbucket => ?_, ?_⟩
  · obtain ⟨k, -, rfl⟩ := mem_values_buckets.mp hbucket
    exact hnodup.sublist (List.filter_sublist.map f)
  · have hkeys := (buckets key items).nodup
    rw [List.Nodup, List.pairwise_map] at hkeys
    rw [InsertionMap.values, List.pairwise_map]
    refine hkeys.imp_of_mem fun {left right} hleft hright hne name hin hin' => hne ?_
    obtain ⟨-, hbucket⟩ := get?_buckets_eq_some.mp (InsertionMap.mem_entries.mp hleft)
    obtain ⟨-, hbucket'⟩ := get?_buckets_eq_some.mp (InsertionMap.mem_entries.mp hright)
    obtain ⟨item, hitem, rfl⟩ := List.mem_map.mp hin
    obtain ⟨item', hitem', hname⟩ := List.mem_map.mp hin'
    rw [hbucket, List.mem_filter, decide_eq_true_eq] at hitem
    rw [hbucket', List.mem_filter, decide_eq_true_eq] at hitem'
    obtain rfl : item' = item := List.inj_on_of_nodup_map hnodup hitem'.1 hitem.1 hname
    exact Option.some.inj (hitem.2.symm.trans hitem'.2)

end Buckets

section FirstByKey

variable [DecidableEq κ] (key : α → Option κ) (value : α → β)

def firstByKey (items : List α) : InsertionMap κ β :=
  items.foldl (fun kept item =>
    match key item with
    | none => kept
    | some k => if kept.has k then kept else kept.set k (value item)) .empty

theorem get?_foldl_firstByKey (items : List α) (kept : InsertionMap κ β) (k : κ) :
    (items.foldl (fun kept item =>
      match key item with
      | none => kept
      | some k => if kept.has k then kept else kept.set k (value item)) kept).get? k =
      (kept.get? k).or ((items.find? fun item => decide (key item = some k)).map value) := by
  induction items generalizing kept with
  | nil => simp
  | cons item items ih =>
      rw [List.foldl_cons, ih]
      cases hkey : key item with
      | none => simp [hkey]
      | some own =>
          by_cases hown : own = k
          · subst hown
            cases hget : kept.get? own with
            | none => simp [InsertionMap.has, hget, hkey]
            | some stored => simp [InsertionMap.has, hget]
          · have hskip : List.find? (fun item => decide (key item = some k)) (item :: items) =
                items.find? fun item => decide (key item = some k) := by
              rw [List.find?_cons_of_neg]
              simpa [hkey] using hown
            rw [hskip]
            dsimp only
            split
            next => rfl
            next => rw [InsertionMap.get?_set, if_neg hown]

theorem get?_firstByKey (items : List α) (k : κ) :
    (firstByKey key value items).get? k =
      (items.find? fun item => decide (key item = some k)).map value := by
  rw [firstByKey, get?_foldl_firstByKey]
  rfl

end FirstByKey

section Order

/-- A weaker condition is met strictly more often. -/
theorem countP_lt_countP {p q : α → Bool} {items : List α}
    (hle : ∀ item ∈ items, q item = true → p item = true) {item : α} (hitem : item ∈ items)
    (hp : p item = true) (hq : q item = false) : items.countP q < items.countP p := by
  obtain ⟨before, after, rfl⟩ := List.append_of_mem hitem
  have hbefore : before.countP q ≤ before.countP p :=
    List.countP_mono_left fun other hother => hle other (List.mem_append_left _ hother)
  have hafter : after.countP q ≤ after.countP p :=
    List.countP_mono_left fun other hother =>
      hle other (List.mem_append_right _ (List.mem_cons_of_mem _ hother))
  rw [List.countP_append, List.countP_append, List.countP_cons_of_pos hp,
    List.countP_cons_of_neg (by rw [hq]; exact Bool.false_ne_true)]
  omega

/-- Two functions, one below the other, take the same values equally often only
when they are equal. -/
theorem eq_of_map_perm_of_le [LinearOrder κ] {f g : α → κ} {items : List α}
    (hle : ∀ item ∈ items, f item ≤ g item) (hperm : (items.map f).Perm (items.map g)) :
    ∀ item ∈ items, f item = g item := by
  intro item hitem
  by_contra hne
  have hlt : f item < g item := lt_of_le_of_ne (hle item hitem) hne
  have hcount := hperm.countP_eq fun k => decide (k ≤ f item)
  rw [List.countP_map, List.countP_map] at hcount
  refine absurd hcount (Nat.ne_of_gt (countP_lt_countP (fun other hother hbelow => ?_) hitem ?_ ?_))
  · exact decide_eq_true (le_trans (hle other hother) (of_decide_eq_true hbelow))
  · exact decide_eq_true le_rfl
  · exact decide_eq_false (not_le.mpr hlt)

end Order

end KjAtlas
