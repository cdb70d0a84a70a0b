import Mathlib.Algebra.Order.Ring.Rat
import KjAtlas.Foundation.GraphSearch
import KjAtlas.Ir.RelationIds

/-! # Blocks of the graph

The components of the graph part the cards: two cards are in one component exactly
when relations lead from one to the other. The counts of relations, the
contradictions and the clusters of the summary follow.
-/

namespace KjAtlas.Ir

open Relation (ReflTransGen)

/-! ## The search for components -/

/-- An adjacency between cards, in both directions and without repetitions. -/
structure Undirected (cardIds : List String) (adjacency : String → List String) : Prop where
  nodup : ∀ a, (adjacency a).Nodup
  within : ∀ a, ∀ b ∈ adjacency a, b ∈ cardIds
  symm : ∀ a b, Points adjacency a b → Points adjacency b a

/-- A component is collected: the members have been expanded, and beside `old` the members and
what is queued have been visited. -/
structure Collecting (cardIds : List String) (adjacency : String → List String)
    (old : List String) (start : String) (visited queue members : List String) : Prop where
  nodup : (members ++ queue).Nodup
  within : members ++ queue ⊆ cardIds
  start_mem : start ∈ members ++ queue
  visited_iff : ∀ a, a ∈ visited ↔ a ∈ old ∨ a ∈ members ++ queue
  fresh : ∀ a ∈ members ++ queue, a ∉ old
  closed : ∀ a ∈ members, adjacency a ⊆ visited
  reached : ∀ a ∈ members ++ queue, ReflTransGen (Points adjacency) start a

variable {b a : String} {members : List String} {relation : IrRelation}

section Search

variable {cardIds old : List String} {adjacency : String → List String} {start : String}
  {visited : List String}

theorem Collecting.step (hundirected : Undirected cardIds adjacency) {queue : List String}
    {current : String}
    (hcollecting : Collecting cardIds adjacency old start visited (current :: queue) members) :
    Collecting cardIds adjacency old start
      (visited ++ (adjacency current).filter (· ∉ visited))
      (queue ++ (adjacency current).filter (· ∉ visited)) (members ++ [current]) := by
  have hnew : ∀ a, a ∈ (adjacency current).filter (· ∉ visited) ↔
      a ∈ adjacency current ∧ a ∉ visited := by
    intro a
    rw [List.mem_filter, decide_eq_true_eq]
  have hnodup := (hundirected.nodup current).filter (· ∉ visited)
  generalize (adjacency current).filter (· ∉ visited) = new at hnew hnodup ⊢
  have hlist : members ++ [current] ++ (queue ++ new) = members ++ current :: queue ++ new := by
    simp
  have hcurrent := hcollecting.reached current (by simp)
  constructor
  · rw [hlist, List.nodup_append]
    refine ⟨hcollecting.nodup, hnodup, ?_⟩
    rintro a ha b hb rfl
    exact ((hnew a).mp hb).2 ((hcollecting.visited_iff a).mpr (.inr ha))
  · rw [hlist]
    refine List.append_subset.mpr ⟨hcollecting.within, ?_⟩
    exact fun a ha => hundirected.within current a ((hnew a).mp ha).1
  · rw [hlist]
    exact List.mem_append_left _ hcollecting.start_mem
  · intro a
    rw [hlist, List.mem_append, List.mem_append (t := new), hcollecting.visited_iff, or_assoc]
  · intro a ha hold
    rw [hlist] at ha
    rcases List.mem_append.mp ha with ha | ha
    · exact hcollecting.fresh a ha hold
    · exact ((hnew a).mp ha).2 ((hcollecting.visited_iff a).mpr (.inl hold))
  · intro a ha b hb
    rw [List.mem_append]
    rcases mem_snoc.mp ha with ha | ha
    · exact .inl (hcollecting.closed a ha hb)
    · rw [ha] at hb
      by_cases hvisited : b ∈ visited
      · exact .inl hvisited
      · exact .inr ((hnew b).mpr ⟨hb, hvisited⟩)
  · intro a ha
    rw [hlist] at ha
    rcases List.mem_append.mp ha with ha | ha
    · exact hcollecting.reached a ha
    · exact hcurrent.tail ((hnew a).mp ha).1

theorem Collecting.run (hundirected : Undirected cardIds adjacency) {fuel : Nat}
    {visited queue members : List String}
    (hcollecting : Collecting cardIds adjacency old start visited queue members)
    (hfuel : cardIds.length ≤ members.length + fuel) :
    Collecting cardIds adjacency old start
      (collectComponent adjacency fuel visited queue members).1 []
      (collectComponent adjacency fuel visited queue members).2 := by
  induction fuel generalizing visited queue members with
  | zero =>
      have hlength := (hcollecting.nodup.subperm hcollecting.within).length_le
      rw [List.length_append] at hlength
      have hqueue : queue = [] := List.length_eq_zero_iff.mp (by omega)
      subst hqueue
      exact hcollecting
  | succ fuel ih =>
      cases queue with
      | nil => exact hcollecting
      | cons current queue =>
          apply ih (hcollecting.step hundirected)
          rw [List.length_append, List.length_singleton]
          omega

/-- All cards that the start leads to are collected, if those of `old` lead nowhere else. -/
theorem Collecting.mem_iff (hundirected : Undirected cardIds adjacency)
    (hcollecting : Collecting cardIds adjacency old start visited [] members)
    (hold : ∀ a ∈ old, adjacency a ⊆ old) (a : String) :
    a ∈ members ↔ ReflTransGen (Points adjacency) start a := by
  have hmembers : ∀ b, b ∈ members ↔ b ∈ members ++ [] := by simp
  constructor
  · exact fun ha => hcollecting.reached a ((hmembers a).mp ha)
  · intro hreaches
    induction hreaches with
    | refl => exact (hmembers start).mpr hcollecting.start_mem
    | @tail b c _ hedge ih =>
        rcases (hcollecting.visited_iff c).mp (hcollecting.closed b ih hedge) with hc | hc
        · exact absurd (hold c hc (hundirected.symm b c hedge))
            (hcollecting.fresh b ((hmembers b).mp ih))
        · exact (hmembers c).mpr hc

/-- The cards that one of them leads to. -/
def IsComponent (adjacency : String → List String) (members : List String) : Prop :=
  ∃ start ∈ members, ∀ a, a ∈ members ↔ ReflTransGen (Points adjacency) start a

theorem Undirected.reaches_symm (hundirected : Undirected cardIds adjacency)
    (hreaches : ReflTransGen (Points adjacency) a b) : ReflTransGen (Points adjacency) b a := by
  induction hreaches with
  | refl => exact .refl
  | tail _ hedge ih => exact .head (hundirected.symm _ _ hedge) ih

/-- Any member leads to the others. -/
theorem IsComponent.mem_iff (hundirected : Undirected cardIds adjacency)
    (hcomponent : IsComponent adjacency members) (ha : a ∈ members) (b : String) :
    b ∈ members ↔ ReflTransGen (Points adjacency) a b := by
  obtain ⟨start, -, hmem⟩ := hcomponent
  have hstart := (hmem a).mp ha
  rw [hmem]
  exact ⟨(hundirected.reaches_symm hstart).trans, hstart.trans⟩

/-- The components part what has been visited. -/
structure Parting (cardIds : List String) (adjacency : String → List String)
    (visited : List String) (found : List (List String)) : Prop where
  nodup : found.flatten.Nodup
  within : found.flatten ⊆ cardIds
  visited_iff : ∀ a, a ∈ visited ↔ a ∈ found.flatten
  component : ∀ members ∈ found, IsComponent adjacency members

variable {found : List (List String)}

theorem Parting.closed (hundirected : Undirected cardIds adjacency)
    (hparting : Parting cardIds adjacency visited found) (ha : a ∈ visited) :
    adjacency a ⊆ visited := by
  intro b hb
  obtain ⟨members, hfound, hmember⟩ := List.mem_flatten.mp ((hparting.visited_iff a).mp ha)
  refine (hparting.visited_iff b).mpr (List.mem_flatten.mpr ⟨members, hfound, ?_⟩)
  exact ((hparting.component members hfound).mem_iff hundirected hmember b).mpr (.single hb)

theorem Parting.add (hundirected : Undirected cardIds adjacency)
    (hparting : Parting cardIds adjacency visited found) (hstart : start ∈ cardIds)
    (hfresh : start ∉ visited) :
    Parting cardIds adjacency
      (collectComponent adjacency cardIds.length (visited ++ [start]) [start] []).1
      (found ++ [sortOn codePointLe (fun member => member)
        (collectComponent adjacency cardIds.length (visited ++ [start]) [start] []).2]) ∧
      start ∈ (collectComponent adjacency cardIds.length (visited ++ [start]) [start] []).1 ∧
      visited ⊆ (collectComponent adjacency cardIds.length (visited ++ [start]) [start] []).1 := by
  have hbegin : Collecting cardIds adjacency visited start (visited ++ [start]) [start] [] := {
    nodup := List.nodup_singleton start
    within := fun a ha => List.mem_singleton.mp ha ▸ hstart
    start_mem := List.mem_singleton_self start
    visited_iff := fun a => List.mem_append
    fresh := fun a ha => List.mem_singleton.mp ha ▸ hfresh
    closed := fun a ha => absurd ha List.not_mem_nil
    reached := fun a ha => List.mem_singleton.mp ha ▸ .refl }
  have hend := @Collecting.run _ _ _ _ hundirected cardIds.length _ _ _ hbegin (by simp)
  have hmem := hend.mem_iff hundirected fun a => hparting.closed hundirected
  generalize (collectComponent adjacency cardIds.length (visited ++ [start]) [start] []).1 =
    visited' at hend ⊢
  generalize (collectComponent adjacency cardIds.length (visited ++ [start]) [start] []).2 =
    members at hend hmem ⊢
  have hflatten : (found ++ [sortOn codePointLe (fun member => member) members]).flatten.Perm
      (found.flatten ++ members) := by
    rw [List.flatten_append, List.flatten_singleton]
    exact (sortOn.perm _ _ members).append_left _
  obtain ⟨hnodup, hwithin, hstart', hvisited, hnew, -, -⟩ := hend
  rw [List.append_nil] at hnodup hwithin hstart'
  refine ⟨⟨?_, ?_, ?_, ?_⟩, ?_, ?_⟩
  · rw [hflatten.nodup_iff, List.nodup_append]
    refine ⟨hparting.nodup, hnodup, ?_⟩
    rintro a ha b hb rfl
    exact hnew a (List.mem_append_left _ hb) ((hparting.visited_iff a).mpr ha)
  · intro a ha
    rcases List.mem_append.mp (hflatten.mem_iff.mp ha) with ha | ha
    · exact hparting.within ha
    · exact hwithin ha
  · intro a
    rw [hflatten.mem_iff, hvisited, hparting.visited_iff, List.append_nil, List.mem_append]
  · intro component hcomponent
    rcases mem_snoc.mp hcomponent with hcomponent | hcomponent
    · exact hparting.component component hcomponent
    · rw [hcomponent]
      refine ⟨start, (sortOn.mem _ _).mpr hstart', fun a => ?_⟩
      rw [sortOn.mem, hmem]
  · exact (hvisited start).mpr (.inr (List.mem_append_left _ hstart'))
  · exact fun a ha => (hvisited a).mpr (.inl ha)

end Search

/-- The components list every card once. -/
structure Partition (cardIds : List String) (adjacency : String → List String)
    (found : List (List String)) : Prop where
  perm : found.flatten.Perm cardIds
  component : ∀ members ∈ found, IsComponent adjacency members

/-- The component of a card is added, unless the card has been visited. -/
def addComponent (cardIds : List String) (adjacency : String → List String)
    (state : List String × List (List String)) (cardId : String) :
    List String × List (List String) :=
  if cardId ∈ state.1 then state
  else
    let collected :=
      collectComponent adjacency cardIds.length (state.1 ++ [cardId]) [cardId] []
    (collected.1, state.2 ++ [sortOn codePointLe (fun member => member) collected.2])

theorem components_eq (cardIds : List String) (adjacency : String → List String) :
    components cardIds adjacency = sortOn codePointLe (fun members => members.head?.getD "")
      (cardIds.foldl (addComponent cardIds adjacency) ([], [])).2 := rfl

section Run

variable {cardIds : List String} {adjacency : String → List String}
  (hundirected : Undirected cardIds adjacency)

include hundirected

theorem Parting.foldl (ids : List String) {state : List String × List (List String)}
    (hids : ids ⊆ cardIds) (hparting : Parting cardIds adjacency state.1 state.2) :
    Parting cardIds adjacency (ids.foldl (addComponent cardIds adjacency) state).1
        (ids.foldl (addComponent cardIds adjacency) state).2 ∧
      state.1 ⊆ (ids.foldl (addComponent cardIds adjacency) state).1 ∧
      ids ⊆ (ids.foldl (addComponent cardIds adjacency) state).1 := by
  induction ids generalizing state with
  | nil => exact ⟨hparting, List.Subset.refl _, List.nil_subset _⟩
  | cons cardId ids ih =>
      obtain ⟨hcardId, hids⟩ := List.cons_subset.mp hids
      rw [List.foldl_cons]
      by_cases hvisited : cardId ∈ state.1
      · have hstep : addComponent cardIds adjacency state cardId = state := if_pos hvisited
        rw [hstep]
        obtain ⟨hlast, hgrows, hall⟩ := ih hids hparting
        exact ⟨hlast, hgrows, List.cons_subset.mpr ⟨hgrows hvisited, hall⟩⟩
      · have hstep : addComponent cardIds adjacency state cardId = _ := if_neg hvisited
        obtain ⟨hnext, hself, hkeeps⟩ := hparting.add hundirected hcardId hvisited
        rw [hstep]
        obtain ⟨hlast, hgrows, hall⟩ := @ih (_, _) hids hnext
        exact ⟨hlast, List.Subset.trans hkeeps hgrows,
          List.cons_subset.mpr ⟨hgrows hself, hall⟩⟩

theorem components_partition (hnodup : cardIds.Nodup) :
    Partition cardIds adjacency (components cardIds adjacency) := by
  have hstart : Parting cardIds adjacency [] [] :=
    ⟨List.nodup_nil, List.nil_subset _, fun a => Iff.rfl, fun _ h => absurd h List.not_mem_nil⟩
  obtain ⟨hparting, -, hall⟩ :=
    @Parting.foldl _ _ hundirected cardIds ([], []) (List.Subset.refl _) hstart
  rw [components_eq]
  generalize cardIds.foldl (addComponent cardIds adjacency) ([], []) = state at hparting hall ⊢
  have hperm := sortOn.perm codePointLe (fun members => members.head?.getD "") state.2
  constructor
  · refine hperm.flatten.trans ((List.perm_ext_iff_of_nodup hparting.nodup hnodup).mpr fun a => ?_)
    exact ⟨fun ha => hparting.within ha, fun ha => (hparting.visited_iff a).mp (hall ha)⟩
  · exact fun members hmembers => hparting.component members (hperm.mem_iff.mp hmembers)

end Run

/-! ## Paths of relations -/

/-- Two cards are the ends of one of the relations. -/
def Joined (relations : List IrRelation) (a b : String) : Prop :=
  ∃ relation ∈ relations, (relation.fromId = a ∧ relation.toId = b) ∨
    (relation.fromId = b ∧ relation.toId = a)

/-- The cards are different, and the relations run between them. -/
structure OverCards (cardIds : List String) (relations : List IrRelation) : Prop where
  nodup : cardIds.Nodup
  ends : ∀ relation ∈ relations, relation.fromId ∈ cardIds ∧ relation.toId ∈ cardIds

theorem orderedPair_eq (a b : String) : orderedPair a b = (a, b) ∨ orderedPair a b = (b, a) := by
  unfold orderedPair
  split
  · exact .inl rfl
  · exact .inr rfl

section

variable {relations : List IrRelation} {cardIds : List String}

theorem mem_joinedPairs :
    ((a, b) ∈ joinedPairs relations ∨ (b, a) ∈ joinedPairs relations) ↔
      a ≠ b ∧ Joined relations a b := by
  have hmem : ∀ pair, pair ∈ joinedPairs relations ↔ ∃ relation ∈ relations,
      relation.fromId ≠ relation.toId ∧ orderedPair relation.fromId relation.toId = pair := by
    intro pair
    simp only [joinedPairs, mem_distinct, List.mem_map, List.mem_filter, decide_eq_true_eq,
      and_assoc]
  rw [hmem, hmem]
  constructor
  · rintro (⟨relation, hrelation, hne, hpair⟩ | ⟨relation, hrelation, hne, hpair⟩)
    all_goals
      rcases orderedPair_eq relation.fromId relation.toId with horder | horder
      all_goals
        rw [horder] at hpair
        obtain ⟨rfl, rfl⟩ := Prod.mk.inj hpair
    · exact ⟨hne, relation, hrelation, .inl ⟨rfl, rfl⟩⟩
    · exact ⟨hne.symm, relation, hrelation, .inr ⟨rfl, rfl⟩⟩
    · exact ⟨hne.symm, relation, hrelation, .inr ⟨rfl, rfl⟩⟩
    · exact ⟨hne, relation, hrelation, .inl ⟨rfl, rfl⟩⟩
  · rintro ⟨hne, relation, hrelation, ⟨rfl, rfl⟩ | ⟨rfl, rfl⟩⟩
    · exact (orderedPair_eq relation.fromId relation.toId).imp
        (fun horder => ⟨relation, hrelation, hne, horder⟩)
        fun horder => ⟨relation, hrelation, hne, horder⟩
    · exact (orderedPair_eq relation.fromId relation.toId).symm.imp
        (fun horder => ⟨relation, hrelation, hne.symm, horder⟩)
        fun horder => ⟨relation, hrelation, hne.symm, horder⟩

theorem mem_neighbours {pairs : List (String × String)} :
    b ∈ neighbours pairs a ↔ (a, b) ∈ pairs ∨ (b, a) ∈ pairs := by
  rw [neighbours, sortOn.mem, mem_distinct, List.mem_flatMap]
  constructor
  · rintro ⟨⟨first, second⟩, hpair, hb⟩
    dsimp only at hb
    split at hb
    next hfirst =>
      rw [List.mem_singleton.mp hb, ← hfirst]
      exact .inl hpair
    next =>
      split at hb
      next hsecond =>
        rw [List.mem_singleton.mp hb, ← hsecond]
        exact .inr hpair
      next => exact absurd hb List.not_mem_nil
  · rintro (hpair | hpair)
    · exact ⟨(a, b), hpair, by simp⟩
    · refine ⟨(b, a), hpair, ?_⟩
      by_cases hsame : b = a
      · simp [hsame]
      · simp [hsame]

theorem points_neighbours :
    Points (neighbours (joinedPairs relations)) a b ↔ a ≠ b ∧ Joined relations a b := by
  rw [Points, mem_neighbours, mem_joinedPairs]

theorem Joined.symm (hjoined : Joined relations a b) : Joined relations b a := by
  obtain ⟨relation, hrelation, hends⟩ := hjoined
  exact ⟨relation, hrelation, hends.symm⟩

/-- Relations from a card to itself lead nowhere. -/
theorem reaches_neighbours :
    ReflTransGen (Points (neighbours (joinedPairs relations))) a b ↔
      ReflTransGen (Joined relations) a b := by
  constructor
  · intro hreaches
    induction hreaches with
    | refl => exact .refl
    | tail _ hpoints ih => exact ih.tail (points_neighbours.mp hpoints).2
  · intro hreaches
    induction hreaches with
    | refl => exact .refl
    | @tail b c _ hjoined ih =>
        by_cases hsame : b = c
        · exact hsame ▸ ih
        · exact ih.tail (points_neighbours.mpr ⟨hsame, hjoined⟩)

theorem OverCards.undirected (hover : OverCards cardIds relations) :
    Undirected cardIds (neighbours (joinedPairs relations)) where
  nodup a := (sortOn.perm _ _ _).nodup_iff.mpr (nodup_distinct _)
  within a b hb := by
    obtain ⟨-, relation, hrelation, ⟨-, rfl⟩ | ⟨rfl, -⟩⟩ := points_neighbours.mp hb
    · exact (hover.ends relation hrelation).2
    · exact (hover.ends relation hrelation).1
  symm a b hpoints := by
    obtain ⟨hne, hjoined⟩ := points_neighbours.mp hpoints
    exact points_neighbours.mpr ⟨hne.symm, hjoined.symm⟩

/-- The components of relations. -/
structure PathPartition (cardIds : List String) (relations : List IrRelation)
    (found : List (List String)) : Prop where
  perm : found.flatten.Perm cardIds
  inhabited : ∀ members ∈ found, members ≠ []
  mem_iff : ∀ members ∈ found, ∀ a ∈ members, ∀ b,
    b ∈ members ↔ ReflTransGen (Joined relations) a b

theorem OverCards.partition (hover : OverCards cardIds relations) :
    PathPartition cardIds relations
      (components cardIds (neighbours (joinedPairs relations))) := by
  have hpartition := components_partition hover.undirected hover.nodup
  refine ⟨hpartition.perm, ?_, ?_⟩
  · intro members hmembers
    obtain ⟨start, hstart, -⟩ := hpartition.component members hmembers
    exact List.ne_nil_of_mem hstart
  · intro members hmembers a ha b
    rw [(hpartition.component members hmembers).mem_iff hover.undirected ha, reaches_neighbours]

end

/-! ## Counting components -/

theorem countP_eq_one_iff {α : Type} {p : α → Bool} {items : List α} (hnodup : items.Nodup) :
    items.countP p = 1 ↔ ∃! item, item ∈ items ∧ p item = true := by
  have hmem : ∀ item, item ∈ items ∧ p item = true ↔ item ∈ items.filter p :=
    fun item => List.mem_filter.symm
  simp only [hmem]
  rw [List.countP_eq_length_filter, List.length_eq_one_iff]
  constructor
  · rintro ⟨only, honly⟩
    rw [honly]
    exact ⟨only, List.mem_singleton_self only, fun item => List.mem_singleton.mp⟩
  · rintro ⟨only, honly, hunique⟩
    refine ⟨only, List.perm_singleton.mp ?_⟩
    apply (List.perm_ext_iff_of_nodup (hnodup.filter p) (List.nodup_singleton only)).mpr
    intro item
    rw [List.mem_singleton]
    exact ⟨hunique item, fun hitem => hitem ▸ honly⟩

theorem sum_map_ite {α : Type} (p : α → Bool) (items : List α) :
    (items.map fun item => if p item then 1 else 0).sum = items.countP p := by
  induction items with
  | nil => rfl
  | cons item items ih => rw [List.map_cons, List.sum_cons, List.countP_cons, ih, Nat.add_comm]

theorem countP_mapIdx_eq {α β : Type} {f : Nat → α → β} {p : β → Bool} {q : α → Bool}
    (hview : ∀ index item, p (f index item) = q item) (items : List α) :
    (items.mapIdx f).countP p = items.countP q := by
  have hmap := congrArg (List.countP id) (map_mapIdx_eq_map hview items)
  rw [List.countP_map, List.countP_map] at hmap
  exact hmap

section Partition

variable {cardIds : List String} {relations : List IrRelation} {found : List (List String)}
  (hpartition : PathPartition cardIds relations found)

include hpartition

theorem PathPartition.exists_mem (ha : a ∈ cardIds) : ∃ members ∈ found, a ∈ members :=
  List.mem_flatten.mp (hpartition.perm.mem_iff.mpr ha)

variable (hover : OverCards cardIds relations)

include hover

theorem PathPartition.disjoint : found.Pairwise List.Disjoint := by
  have hflatten := hpartition.perm.nodup_iff.mpr hover.nodup
  exact (List.nodup_flatten.mp hflatten).2

theorem PathPartition.nodup : found.Nodup := by
  refine (hpartition.disjoint hover).imp_of_mem fun {members other} hmembers _ hdisjoint => ?_
  rintro rfl
  obtain ⟨a, ha⟩ := List.exists_mem_of_ne_nil _ (hpartition.inhabited _ hmembers)
  exact hdisjoint ha ha

/-- A card is in one component only. -/
theorem PathPartition.eq_of_mem {other : List String} (hmembers : members ∈ found)
    (hother : other ∈ found) (ha : a ∈ members) (ha' : a ∈ other) : members = other := by
  by_contra hne
  have hsymm : Std.Symm (List.Disjoint : List String → List String → Prop) :=
    ⟨fun _ _ hdisjoint => hdisjoint.symm⟩
  exact (hpartition.disjoint hover).forall hmembers hother hne ha ha'

theorem PathPartition.countP_isInside (hrelation : relation ∈ relations) :
    found.countP (fun members => isInside members relation) = 1 := by
  rw [countP_eq_one_iff (hpartition.nodup hover)]
  obtain ⟨hfrom, -⟩ := hover.ends relation hrelation
  obtain ⟨members, hmembers, hmember⟩ := hpartition.exists_mem hfrom
  refine ⟨members, ⟨hmembers, ?_⟩, ?_⟩
  · have hto : relation.toId ∈ members :=
      (hpartition.mem_iff members hmembers _ hmember _).mpr
        (.single ⟨relation, hrelation, .inl ⟨rfl, rfl⟩⟩)
    simp [isInside, hmember, hto]
  · rintro other ⟨hother, hinside⟩
    rw [isInside, Bool.and_eq_true, List.contains_iff_mem] at hinside
    exact hpartition.eq_of_mem hover hother hmembers hinside.1 hmember

theorem PathPartition.sum_countP :
    (found.map fun members => relations.countP (isInside members)).sum = relations.length := by
  have hsum : ∀ some : List IrRelation,
      (∀ relation ∈ some, found.countP (fun members => isInside members relation) = 1) →
        (found.map fun members => some.countP (isInside members)).sum = some.length := by
    intro some
    induction some with
    | nil => simp
    | cons relation some ih =>
        intro hone
        rw [List.forall_mem_cons] at hone
        have hcons : ∀ members : List String, (relation :: some).countP (isInside members) =
            some.countP (isInside members) + if isInside members relation then 1 else 0 :=
          fun members => List.countP_cons
        simp only [hcons, List.sum_map_add, ih hone.2, List.length_cons, sum_map_ite, hone.1]
  exact hsum relations fun relation => hpartition.countP_isInside hover

end Partition

/-! ## What the blocks say -/

variable {F : Type}

/-- The clusters based on relations are the components of two cards or more of the relations
that join clusters. -/
structure RelationClusters (cardIds : List String) (relations : List IrRelation)
    (clusters : List (ClusterCandidate F)) : Prop where
  component : ∀ cluster ∈ clusters, cluster.basis = "relation" →
    cluster.cardIds.Nodup ∧ 2 ≤ cluster.cardIds.length ∧ ∀ a ∈ cluster.cardIds, ∀ b,
      b ∈ cluster.cardIds ↔ ReflTransGen (Joined relations) a b
  complete : ∀ a ∈ cardIds, (∃ b, b ≠ a ∧ ReflTransGen (Joined relations) a b) →
    clusters.countP (fun cluster => decide (cluster.basis = "relation") &&
      cluster.cardIds.contains a) = 1

def clusterRelations (relations : List IrRelation) : List IrRelation :=
  relations.filter fun relation => ["related", "causal"].contains relation.type

/-- The blocks of the summary part the graph. -/
structure BlocksPart (runtime : Runtime F) (spatial : Bool) (cards : List (NormalizedCard F))
    (relations : List IrRelation) : Prop where
  listed : ((connectedComponents cards relations).flatMap ConnectedComponent.cardIds).Perm
    (cards.map NormalizedCard.id)
  joined : ∀ component ∈ connectedComponents cards relations, ∀ a ∈ component.cardIds, ∀ b,
    b ∈ component.cardIds ↔ ReflTransGen (Joined relations) a b
  counted : ((connectedComponents cards relations).map ConnectedComponent.edgeCount).sum =
    relations.length
  negated : ∀ relation ∈ relations, relation.type = "negate" →
    (contradictionSubgraphs cards relations).countP
      (fun subgraph => subgraph.negationEdges.contains relation.id) = 1
  touched : ∀ subgraph ∈ contradictionSubgraphs cards relations, ∃ edges : List IrRelation,
    (∀ edge ∈ edges, edge ∈ relations ∧ edge.type = "negate") ∧
      subgraph.negationEdges = edges.map IrRelation.id ∧ subgraph.cardIds.Nodup ∧
        ∀ id, id ∈ subgraph.cardIds ↔ ∃ edge ∈ edges, edge.fromId = id ∨ edge.toId = id
  clustered : RelationClusters (cards.map NormalizedCard.id) (clusterRelations relations)
    (clusterCandidates runtime cards relations spatial)

/-- Two contradictions of one id are in one component. -/
def NegationsApart (relations : List IrRelation) : Prop :=
  ∀ left ∈ relations, ∀ right ∈ relations, left.type = "negate" → right.type = "negate" →
    left.id = right.id → ReflTransGen (Joined relations) left.fromId right.fromId

section Blocks

variable {cards : List (NormalizedCard F)} {relations : List IrRelation}
  (hover : OverCards (cards.map NormalizedCard.id) relations)

include hover

theorem OverCards.cards_partition :
    PathPartition (cards.map NormalizedCard.id) relations
      (components (cards.map NormalizedCard.id) (undirectedAdjacency relations)) :=
  hover.partition

omit hover in
theorem map_cardIds_connectedComponents :
    (connectedComponents cards relations).map ConnectedComponent.cardIds =
      components (cards.map NormalizedCard.id) (undirectedAdjacency relations) := by
  have hview := @map_mapIdx_eq_map _ _ _
    (fun index members => ConnectedComponent.mk ("cmp-" ++ padded 3 (index + 1)) members
      (relations.countP (isInside members))) ConnectedComponent.cardIds id fun _ _ => rfl
  exact (hview _).trans (List.map_id _)

theorem OverCards.counted :
    ((connectedComponents cards relations).map ConnectedComponent.edgeCount).sum =
      relations.length := by
  rw [connectedComponents, map_mapIdx_eq_map
    (h := fun members => relations.countP (isInside members)) fun _ _ => rfl]
  exact hover.cards_partition.sum_countP hover

omit hover in
theorem countP_contradictionSubgraphs (id : String) :
    (contradictionSubgraphs cards relations).countP
        (fun subgraph => subgraph.negationEdges.contains id) =
      (components (cards.map NormalizedCard.id) (undirectedAdjacency relations)).countP
        fun members => decide (∃ relation ∈ relations, relation.type = "negate" ∧
          isInside members relation = true ∧ relation.id = id) := by
  have hsubgraph : ∀ index inner, (contradictionSubgraph index inner).negationEdges.contains id =
      decide (∃ relation ∈ inner, relation.id = id) := by
    intro index inner
    rw [Bool.eq_iff_iff, decide_eq_true_eq, List.contains_iff_mem]
    simp only [contradictionSubgraph, List.mem_map, sortOn.mem]
  rw [contradictionSubgraphs, countP_mapIdx_eq (f := contradictionSubgraph)
    (p := fun subgraph => subgraph.negationEdges.contains id) hsubgraph, List.countP_filter,
    List.countP_map]
  apply List.countP_congr
  intro members _
  simp only [Function.comp_apply, Bool.and_eq_true, decide_eq_true_eq, List.mem_filter,
    Bool.not_eq_true', List.isEmpty_eq_false_iff_exists_mem, and_assoc]
  constructor
  · rintro ⟨⟨relation, hrelation⟩, -⟩
    exact ⟨relation, hrelation⟩
  · rintro ⟨relation, hrelation, htype, hinside, hid⟩
    exact ⟨⟨relation, hrelation, htype, hinside, hid⟩, relation, hrelation, htype, hinside⟩

/-- A contradiction is listed once exactly when those of its id are in its component. -/
theorem OverCards.negated_iff (hrelation : relation ∈ relations)
    (htype : relation.type = "negate") :
    (contradictionSubgraphs cards relations).countP
        (fun subgraph => subgraph.negationEdges.contains relation.id) = 1 ↔
      ∀ other ∈ relations, other.type = "negate" → other.id = relation.id →
        ReflTransGen (Joined relations) relation.fromId other.fromId := by
  have hpartition := hover.cards_partition
  rw [countP_contradictionSubgraphs, countP_eq_one_iff (hpartition.nodup hover)]
  simp only [decide_eq_true_eq]
  obtain ⟨members, hmembers, hmember⟩ := hpartition.exists_mem (hover.ends relation hrelation).1
  have hinside : ∀ {members : List String} {other : IrRelation},
      isInside members other = true → other.fromId ∈ members := by
    intro members other hinside
    rw [isInside, Bool.and_eq_true, List.contains_iff_mem] at hinside
    exact hinside.1
  have hthere : ∀ {members : List String} {other : IrRelation}, other ∈ relations →
      members ∈ components (cards.map NormalizedCard.id) (undirectedAdjacency relations) →
      other.fromId ∈ members → isInside members other = true := by
    intro members other hother hmembers hfrom
    rw [isInside, Bool.and_eq_true, List.contains_iff_mem, List.contains_iff_mem]
    exact ⟨hfrom, (hpartition.mem_iff members hmembers _ hfrom _).mpr
      (.single ⟨other, hother, .inl ⟨rfl, rfl⟩⟩)⟩
  constructor
  · intro hone other hother htype' hid
    obtain ⟨members', hmembers', hmember'⟩ := hpartition.exists_mem (hover.ends other hother).1
    have hsame := hone.unique
      ⟨hmembers, relation, hrelation, htype, hthere hrelation hmembers hmember, rfl⟩
      ⟨hmembers', other, hother, htype', hthere hother hmembers' hmember', hid⟩
    exact (hpartition.mem_iff members hmembers _ hmember _).mp (hsame ▸ hmember')
  · intro hall
    refine ⟨members, ⟨hmembers, relation, hrelation, htype,
      hthere hrelation hmembers hmember, rfl⟩, ?_⟩
    rintro members' ⟨hmembers', other, hother, htype', hin, hid⟩
    refine hpartition.eq_of_mem hover hmembers' hmembers (hinside hin) ?_
    exact (hpartition.mem_iff members hmembers _ hmember _).mpr (hall other hother htype' hid)

omit hover in
theorem touched_of_mem {subgraph : ContradictionSubgraph}
    (hsubgraph : subgraph ∈ contradictionSubgraphs cards relations) :
    ∃ edges : List IrRelation,
      (∀ edge ∈ edges, edge ∈ relations ∧ edge.type = "negate") ∧
        subgraph.negationEdges = edges.map IrRelation.id ∧ subgraph.cardIds.Nodup ∧
          ∀ id, id ∈ subgraph.cardIds ↔ ∃ edge ∈ edges, edge.fromId = id ∨ edge.toId = id := by
  obtain ⟨index, hindex, rfl⟩ := List.mem_mapIdx.mp hsubgraph
  have hmem := List.getElem_mem hindex
  generalize (List.filter _ _)[index] = inner at hmem ⊢
  obtain ⟨members, -, rfl⟩ := List.mem_map.mp (List.mem_filter.mp hmem).1
  refine ⟨sortOn relationKeyLe (fun relation => ("", relation.fromId, relation.toId)) _, ?_, rfl,
    (sortOn.perm _ _ _).nodup_iff.mpr (nodup_distinct _), ?_⟩
  · intro edge hedge
    rw [sortOn.mem, List.mem_filter, List.mem_filter, decide_eq_true_eq] at hedge
    exact hedge.1
  · intro id
    simp only [contradictionSubgraph, sortOn.mem, mem_distinct, List.mem_append, List.mem_map]
    rw [← exists_or]
    simp only [and_or_left]

end Blocks

/-! ## Clusters -/

section Clusters

variable {runtime : Runtime F}

theorem foldl_addCluster_of_nodup {clusters merged : List (ClusterCandidate F)}
    (hnodup : ((merged ++ clusters).map ClusterCandidate.cardIds).Nodup) :
    clusters.foldl addCluster merged = merged ++ clusters := by
  induction clusters generalizing merged with
  | nil => simp
  | cons cluster clusters ih =>
      have hnew : ¬ merged.any (fun other => decide (other.cardIds = cluster.cardIds)) = true := by
        intro hany
        obtain ⟨other, hother, hsame⟩ := List.any_eq_true.mp hany
        rw [List.map_append, List.nodup_append] at hnodup
        exact hnodup.2.2 _ (List.mem_map_of_mem hother) _
          (List.mem_map_of_mem List.mem_cons_self) (of_decide_eq_true hsame)
      rw [List.foldl_cons, addCluster, if_neg hnew, ih (by simpa using hnodup)]
      simp

theorem foldl_addCluster_append (clusters merged : List (ClusterCandidate F)) :
    ∃ added, clusters.foldl addCluster merged = merged ++ added ∧ added ⊆ clusters := by
  induction clusters generalizing merged with
  | nil => exact ⟨[], by simp, List.nil_subset _⟩
  | cons cluster clusters ih =>
      rw [List.foldl_cons]
      by_cases hany : merged.any (fun other => decide (other.cardIds = cluster.cardIds)) = true
      · rw [addCluster, if_pos hany]
        obtain ⟨added, heq, hadded⟩ := ih merged
        exact ⟨added, heq, List.subset_cons_of_subset _ hadded⟩
      · rw [addCluster, if_neg hany]
        obtain ⟨added, heq, hadded⟩ := ih (merged ++ [cluster])
        refine ⟨cluster :: added, by rw [heq, List.append_assoc, List.singleton_append], ?_⟩
        exact List.cons_subset.mpr ⟨List.mem_cons_self, List.subset_cons_of_subset _ hadded⟩

variable {relations : List IrRelation}

theorem OverCards.filter {cardIds : List String} (hover : OverCards cardIds relations) :
    OverCards cardIds (clusterRelations relations) :=
  ⟨hover.nodup, fun relation hrelation => hover.ends relation (List.mem_of_mem_filter hrelation)⟩

def ClusterCandidate.view (cluster : ClusterCandidate F) : String × List String :=
  (cluster.basis, cluster.cardIds)

theorem OverCards.clusterCandidates_perm {cards : List (NormalizedCard F)}
    {relations : List IrRelation} (hover : OverCards (cards.map NormalizedCard.id) relations)
    (spatial : Bool) :
    ∃ added : List (ClusterCandidate F), (∀ cluster ∈ added, cluster.basis ≠ "relation") ∧
      ((clusterCandidates runtime cards relations spatial).map ClusterCandidate.view).Perm
        ((((components (cards.map NormalizedCard.id)
          (neighbours (joinedPairs (clusterRelations relations)))).filter
            fun members => 2 ≤ members.length).map fun members => ("relation", members)) ++
          added.map ClusterCandidate.view) := by
  have hpartition := hover.filter.partition
  have hfirst : ∀ basis, (clustersOf runtime (cards.map NormalizedCard.id) (basis,
      joinedPairs (clusterRelations relations))).map ClusterCandidate.view =
      ((components (cards.map NormalizedCard.id)
        (neighbours (joinedPairs (clusterRelations relations)))).filter
          fun members => 2 ≤ members.length).map fun members => (basis, members) := by
    intro basis
    rw [clustersOf, List.map_map]
    rfl
  have hnodup : ((clustersOf runtime (cards.map NormalizedCard.id) ("relation",
      joinedPairs (clusterRelations relations))).map ClusterCandidate.cardIds).Nodup := by
    have hids := congrArg (List.map Prod.snd) (hfirst "relation")
    rw [List.map_map, List.map_map] at hids
    refine hids ▸ ?_
    rw [show (Prod.snd ∘ fun members : List String => ("relation", members)) = id from rfl,
      List.map_id]
    exact (hpartition.nodup hover.filter).filter _
  have hadd := @foldl_addCluster_of_nodup _ _ [] (by rw [List.nil_append]; exact hnodup)
  rw [List.nil_append] at hadd
  obtain ⟨added, hmerged, hadded⟩ := foldl_addCluster_append
    ((if spatial then [("spatial", spatialPairs runtime cards)] else []).flatMap
      (clustersOf runtime (cards.map NormalizedCard.id)))
    (clustersOf runtime (cards.map NormalizedCard.id) ("relation",
      joinedPairs (clusterRelations relations)))
  refine ⟨added, ?_, ?_⟩
  · intro cluster hcluster
    obtain ⟨basis, hbasis, hcluster⟩ := List.mem_flatMap.mp (hadded hcluster)
    obtain ⟨members, -, rfl⟩ := List.mem_map.mp hcluster
    cases spatial with
    | false => exact absurd hbasis List.not_mem_nil
    | true =>
        rw [List.mem_singleton.mp hbasis]
        exact (by decide : "spatial" ≠ "relation")
  · have hall : ((("relation", joinedPairs (clusterRelations relations)) ::
        if spatial then [("spatial", spatialPairs runtime cards)] else []).flatMap
          (clustersOf runtime (cards.map NormalizedCard.id))).foldl addCluster [] =
        clustersOf runtime (cards.map NormalizedCard.id) ("relation",
          joinedPairs (clusterRelations relations)) ++ added := by
      rw [List.flatMap_cons, List.foldl_append, hadd, hmerged]
    have hview := @map_mapIdx_eq_map _ _ _
      (fun index (cluster : ClusterCandidate F) =>
        { cluster with clusterId := "cc-" ++ padded 4 (index + 1) })
      ClusterCandidate.view ClusterCandidate.view fun _ _ => rfl
    unfold clusterCandidates
    dsimp only
    rw [hview, ← hfirst, ← List.map_append]
    exact ((sortOn.perm _ _ _).map _).trans (.of_eq (congrArg _ hall))

theorem OverCards.clustered {cards : List (NormalizedCard F)}
    (hover : OverCards (cards.map NormalizedCard.id) relations) (spatial : Bool) :
    RelationClusters (cards.map NormalizedCard.id) (clusterRelations relations)
      (clusterCandidates runtime cards relations spatial) := by
  have hpartition := hover.filter.partition
  obtain ⟨added, hadded, hperm⟩ := @OverCards.clusterCandidates_perm _ runtime _ _ hover spatial
  constructor
  · intro cluster hcluster hbasis
    rcases List.mem_append.mp (hperm.mem_iff.mp (List.mem_map_of_mem hcluster)) with hmem | hmem
    · obtain ⟨members, hmembers, hview⟩ := List.mem_map.mp hmem
      obtain ⟨hmembers, hlength⟩ := List.mem_filter.mp hmembers
      rw [← (Prod.mk.inj hview).2]
      have hflatten := hpartition.perm.nodup_iff.mpr hover.nodup
      exact ⟨(List.nodup_flatten.mp hflatten).1 members hmembers, of_decide_eq_true hlength,
        hpartition.mem_iff members hmembers⟩
    · obtain ⟨other, hother, hview⟩ := List.mem_map.mp hmem
      exact absurd ((Prod.mk.inj hview).1.trans hbasis) (hadded other hother)
  · intro a ha hother
    have hcount := hperm.countP_eq fun view =>
      decide (view.1 = "relation") && view.2.contains a
    rw [List.countP_map, List.countP_append, List.countP_map, List.countP_map,
      List.countP_filter] at hcount
    have hnone : added.countP ((fun view : String × List String =>
        decide (view.1 = "relation") && view.2.contains a) ∘ ClusterCandidate.view) = 0 := by
      rw [List.countP_eq_zero]
      intro cluster hcluster
      simp [ClusterCandidate.view, hadded cluster hcluster]
    rw [hnone, Nat.add_zero] at hcount
    refine hcount.trans ((countP_eq_one_iff (hpartition.nodup hover.filter)).mpr ?_)
    obtain ⟨members, hmembers, hmember⟩ := hpartition.exists_mem ha
    refine ⟨members, ⟨hmembers, ?_⟩, ?_⟩
    · obtain ⟨b, hne, hreaches⟩ := hother
      have hb := (hpartition.mem_iff members hmembers a hmember b).mpr hreaches
      have hpair : [a, b].Subperm members :=
        List.Nodup.subperm (by simpa using hne.symm) (by simp [hmember, hb])
      have hlength : 2 ≤ members.length := hpair.length_le
      simp [hmember, hlength]
    · rintro other ⟨hfound, hcontains⟩
      rw [Bool.and_eq_true] at hcontains
      apply hpartition.eq_of_mem hover.filter hfound hmembers _ hmember
      simpa using hcontains.1

end Clusters

/-- The blocks part the graph exactly when contradictions of different components have different
ids. -/
theorem blocks_part_iff {runtime : Runtime F} {spatial : Bool} {cards : List (NormalizedCard F)}
    {relations : List IrRelation} (hover : OverCards (cards.map NormalizedCard.id) relations) :
    BlocksPart runtime spatial cards relations ↔ NegationsApart relations := by
  constructor
  · intro hblocks left hleft right hright hnegate hnegate' hid
    exact (hover.negated_iff hleft hnegate).mp (hblocks.negated left hleft hnegate) right hright
      hnegate' hid.symm
  · intro hapart
    have hpartition := hover.cards_partition
    refine ⟨?_, ?_, hover.counted, ?_, fun subgraph => touched_of_mem, hover.clustered spatial⟩
    · rw [List.flatMap_def, map_cardIds_connectedComponents]
      exact hpartition.perm
    · intro component hcomponent
      have hmem := List.mem_map_of_mem (f := ConnectedComponent.cardIds) hcomponent
      rw [map_cardIds_connectedComponents] at hmem
      exact hpartition.mem_iff _ hmem
    · intro relation hrelation hnegate
      refine (hover.negated_iff hrelation hnegate).mpr fun other hother hnegate' hid => ?_
      exact hapart relation hrelation other hother hnegate hnegate' hid.symm

theorem overCards_of_normalize {nfkc : String → String} {sourceCards : List (SourceCard F)}
    {sourceRelations : List SourceRelation} {cards : List (NormalizedCard F)}
    {relations : List IrRelation} (hcards : normalizeCards nfkc sourceCards = .ok cards)
    (hrelations : normalizeRelations sourceRelations (cards.map NormalizedCard.id) =
      .ok relations) : OverCards (cards.map NormalizedCard.id) relations := by
  constructor
  · exact nodup_normalizeCards hcards
  · intro relation hrelation
    obtain ⟨source, -, hprojected, rfl⟩ := ((normalizeRelations_spec hrelations).1 _).mp hrelation
    exact hprojected.within

/-! ## Small graphs -/

namespace NegationInputs

def runtime : Runtime ℚ where
  ofNat n := n
  add := (· + ·)
  sub := (· - ·)
  mul := (· * ·)
  div := (· / ·)
  lt left right := decide (left < right)
  isFinite _ := true
  round value _ := value
  sqrt value := value
  angleDeg _ _ := 0
  dist _ _ := 0
  nfkc text := text

def card (id : String) : SourceCard ℚ := ⟨id, "text", none, none, none, none⟩

def normalized (id : String) : NormalizedCard ℚ :=
  ⟨id, "text", "text", 4, none, none, none, none⟩

def negation (fromId toId : String) : SourceRelation := ⟨fromId, toId, "negate", none, none⟩

/-- One contradiction, beside a card without relations. -/
theorem blocks_part_iff_one :
    BlocksPart runtime false (["a", "b", "c"].map normalized) [(negation "a" "b").toIr] := by
  apply (blocks_part_iff (@overCards_of_normalize _ id (["a", "b", "c"].map card)
    [negation "a" "b"] _ _ (by decide +kernel) (by decide +kernel))).mpr
  intro left hleft right hright _ _ _
  rw [List.mem_singleton.mp hleft, List.mem_singleton.mp hright]

/-- The contradictions of `a` and `b:c` and of `a:b` and `c` have one id. -/
theorem negation_in_two_subgraphs : ∃ cards relations,
    normalizeCards id (["a", "a:b", "c", "b:c"].map card) = .ok cards ∧
      normalizeRelations [negation "a" "b:c", negation "a:b" "c"]
        (cards.map NormalizedCard.id) = .ok relations ∧
      ¬ BlocksPart runtime false cards relations := by
  refine ⟨["a", "a:b", "b:c", "c"].map normalized,
    [(negation "a" "b:c").toIr, (negation "a:b" "c").toIr], by decide +kernel, by decide +kernel,
    fun hblocks => ?_⟩
  have hcount := hblocks.negated _ List.mem_cons_self rfl
  revert hcount
  decide +kernel

end NegationInputs

end KjAtlas.Ir
