import Mathlib.Data.List.Sort

/-! # Stable sorting by key

A stable sort looks only at the keys of its elements. Two lists with the same
sequence of keys are therefore rearranged in the same way, and the sort loses
nothing about them.
-/

namespace KjAtlas

variable {κ α β : Type}

def sortOn (le : κ → κ → Bool) (key : α → κ) (items : List α) : List α :=
  items.insertionSort fun left right => le (key left) (key right) = true

namespace sortOn

variable (le : κ → κ → Bool) (key : α → κ)

theorem perm (items : List α) : (sortOn le key items).Perm items :=
  List.perm_insertionSort _ items

@[simp] theorem mem {items : List α} {item : α} : item ∈ sortOn le key items ↔ item ∈ items :=
  (perm le key items).mem_iff

@[simp] theorem length (items : List α) : (sortOn le key items).length = items.length :=
  (perm le key items).length_eq

/-- Mapping commutes with sorting when it preserves the keys. -/
theorem map (key' : β → κ) (f : α → β) (hkey : ∀ item, key' (f item) = key item) (items : List α) :
    (sortOn le key items).map f = sortOn le key' (items.map f) := by
  apply List.map_insertionSort
  intro left _ right _
  rw [hkey, hkey]

theorem map_key (items : List α) : (sortOn le key items).map key = sortOn le id (items.map key) :=
  map le key id key (fun _ => rfl) items

private theorem orderedInsert_inj {a b : α} {left right : List α}
    (hhead : key a = key b) (hkeys : left.map key = right.map key)
    (heq : List.orderedInsert (fun x y => le (key x) (key y) = true) a left =
      List.orderedInsert (fun x y => le (key x) (key y) = true) b right) :
    a = b ∧ left = right := by
  induction left generalizing right with
  | nil =>
      cases right with
      | nil => simpa using heq
      | cons => simp at hkeys
  | cons x left ih =>
      cases right with
      | nil => simp at hkeys
      | cons y right =>
          simp only [List.map_cons, List.cons.injEq] at hkeys
          obtain ⟨hxy, hkeys⟩ := hkeys
          simp only [List.orderedInsert_cons, hhead, hxy] at heq
          split at heq
          · simp only [List.cons.injEq] at heq
            exact ⟨heq.1, by rw [heq.2.1, heq.2.2]⟩
          · simp only [List.cons.injEq] at heq
            obtain ⟨hab, htail⟩ := ih hkeys heq.2
            exact ⟨hab, by rw [heq.1, htail]⟩

theorem inj_of_keys {left right : List α} (hkeys : left.map key = right.map key)
    (heq : sortOn le key left = sortOn le key right) : left = right := by
  induction left generalizing right with
  | nil =>
      cases right with
      | nil => rfl
      | cons => simp at hkeys
  | cons a left ih =>
      cases right with
      | nil => simp at hkeys
      | cons b right =>
          simp only [List.map_cons, List.cons.injEq] at hkeys
          have htails : (sortOn le key left).map key = (sortOn le key right).map key := by
            rw [map_key, map_key, hkeys.2]
          obtain ⟨hab, htail⟩ := orderedInsert_inj le key hkeys.1 htails heq
          rw [hab, ih hkeys.2 htail]

theorem map_inj_of_keys (f : α → β) {left right : List α} (hkeys : left.map key = right.map key) :
    (sortOn le key left).map f = (sortOn le key right).map f ↔ left.map f = right.map f := by
  let pair := fun item => (key item, f item)
  have hpairs : ∀ {xs ys : List α}, xs.map key = ys.map key →
      (xs.map f = ys.map f ↔ xs.map pair = ys.map pair) := by
    intro xs ys hkeys
    constructor
    · intro hvalues
      have hzip := congrArg₂ List.zip hkeys hvalues
      rwa [List.zip_map', List.zip_map'] at hzip
    · intro heq
      have hsnd := congrArg (List.map Prod.snd) heq
      rwa [List.map_map, List.map_map] at hsnd
  have hsorted : (sortOn le key left).map key = (sortOn le key right).map key := by
    rw [map_key, map_key, hkeys]
  have hsort : ∀ items, (sortOn le key items).map pair = sortOn le Prod.fst (items.map pair) :=
    map le key Prod.fst pair fun _ => rfl
  rw [hpairs hsorted, hpairs hkeys, hsort, hsort]
  constructor
  · refine inj_of_keys le Prod.fst ?_
    rw [List.map_map, List.map_map]
    exact hkeys
  · exact congrArg _

theorem findSome?_of_key (hrefl : ∀ k, le k k = true) {k : κ} {f : α → Option β}
    (hkey : ∀ item, f item ≠ none → key item = k) (items : List α) :
    (sortOn le key items).findSome? f = items.findSome? f := by
  have hinsert : ∀ (a : α) (rest : List α),
      (List.orderedInsert (fun x y => le (key x) (key y) = true) a rest).findSome? f =
        (f a).or (rest.findSome? f) := by
    intro a rest
    induction rest with
    | nil => cases hf : f a <;> simp [hf]
    | cons b rest ih =>
        rw [List.orderedInsert_cons]
        split
        next hle => cases hf : f a <;> simp [List.findSome?_cons, hf]
        next hle =>
          rw [List.findSome?_cons, ih, List.findSome?_cons]
          cases ha : f a with
          | none => cases f b <;> rfl
          | some value =>
              cases hb : f b with
              | none => rfl
              | some other =>
                  refine absurd ?_ hle
                  rw [hkey a (by simp [ha]), hkey b (by simp [hb])]
                  exact hrefl k
  induction items with
  | nil => rfl
  | cons a items ih =>
      have hstep := hinsert a (sortOn le key items)
      rw [ih] at hstep
      rw [List.findSome?_cons]
      refine hstep.trans ?_
      cases f a <;> rfl

section TotalPreorder

variable (total : ∀ a b, le a b = true ∨ le b a = true)
variable (trans : ∀ a b c, le a b = true → le b c = true → le a c = true)

include total trans in
theorem pairwise (items : List α) :
    (sortOn le key items).Pairwise fun left right => le (key left) (key right) = true := by
  have : Std.Total fun left right : α => le (key left) (key right) = true :=
    ⟨fun _ _ => total _ _⟩
  have : IsTrans α fun left right => le (key left) (key right) = true :=
    ⟨fun _ _ _ => trans _ _ _⟩
  exact List.pairwise_insertionSort _ items

include total trans in
/-- Under a total preorder of keys, sorting again changes nothing. -/
theorem idempotent (items : List α) : sortOn le key (sortOn le key items) = sortOn le key items :=
  (pairwise le key total trans items).insertionSort_eq

include total trans in
/-- Under a total order of keys, the order of items with distinct keys does not
matter. -/
theorem eq_of_perm (antisymm : ∀ a b, le a b = true → le b a = true → a = b)
    {left right : List α} (hnodup : (left.map key).Nodup) (hperm : left.Perm right) :
    sortOn le key left = sortOn le key right := by
  refine List.Perm.eq_of_pairwise ?_ (pairwise le key total trans left)
    (pairwise le key total trans right)
    ((perm le key left).trans (hperm.trans (perm le key right).symm))
  intro a b ha hb hab hba
  have hmem : b ∈ left := hperm.mem_iff.mpr ((mem le key).mp hb)
  exact List.inj_on_of_nodup_map hnodup ((mem le key).mp ha) hmem (antisymm _ _ hab hba)

/-- An item goes in front of items that it is not above. -/
theorem orderedInsert_of_le {r : α → α → Prop} [DecidableRel r] {item : α} {items : List α}
    (hle : ∀ other ∈ items, r item other) : items.orderedInsert r item = item :: items := by
  cases items with
  | nil => rfl
  | cons other items => exact List.orderedInsert_cons_of_le r items (hle other List.mem_cons_self)

theorem filter_orderedInsert {r : α → α → Prop} [DecidableRel r]
    (htrans : ∀ a b c, r a b → r b c → r a c) (p : α → Bool) (item : α) {sorted : List α}
    (hsorted : sorted.Pairwise r) :
    (sorted.orderedInsert r item).filter p =
      if p item = true then (sorted.filter p).orderedInsert r item else sorted.filter p := by
  induction sorted with
  | nil => simp [List.filter_cons]
  | cons other sorted ih =>
      obtain ⟨hfirst, hrest⟩ := List.pairwise_cons.mp hsorted
      by_cases hle : r item other
      · -- the item goes in front of all of them, and of those that are selected
        have hall : ∀ next ∈ (other :: sorted).filter p, r item next := by
          intro next hnext
          rcases List.mem_cons.mp (List.mem_of_mem_filter hnext) with rfl | hmem
          · exact hle
          · exact htrans _ _ _ hle (hfirst next hmem)
        rw [orderedInsert_of_le hall, List.orderedInsert_cons_of_le r sorted hle, List.filter_cons]
      · rw [List.orderedInsert_of_not_le r sorted hle, List.filter_cons, List.filter_cons,
          ih hrest]
        cases p item with
        | false => simp
        | true => cases p other <;> simp [hle]

include total trans in
theorem filter (p : α → Bool) (items : List α) :
    (sortOn le key items).filter p = sortOn le key (items.filter p) := by
  induction items with
  | nil => rfl
  | cons item items ih =>
      have hinsert := filter_orderedInsert (fun a b c => trans (key a) (key b) (key c)) p item
        (pairwise le key total trans items)
      unfold sortOn at ih hinsert ⊢
      rw [List.insertionSort_cons, hinsert, ih, List.filter_cons]
      split
      · rw [List.insertionSort_cons]
      · rfl

end TotalPreorder

end sortOn

end KjAtlas
