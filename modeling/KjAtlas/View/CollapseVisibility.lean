import KjAtlas.Domain.Types
import KjAtlas.Foundation.GraphSearch
import KjAtlas.Foundation.Grouping

/-! # Collapsed islands

Collapsing an island hides the islands below it, with their cards. The islands
below are collected along the parent links, which may dangle or form cycles.
-/

namespace KjAtlas

open Relation (ReflTransGen TransGen)

/-- An empty text is no parent. -/
def Island.parentIslandId (island : Island) : Option String :=
  (island.props.string? "parentIslandId").filter (· ≠ "")

section Collapse

variable (islands : List Island)

def buildIslandsByParentId : InsertionMap String (List Island) :=
  buckets Island.parentIslandId islands

def childIslandIds (islandId : String) : List String :=
  (((buildIslandsByParentId islands).get? islandId).getD []).map Island.id

/-- Visit the islands on the stack and those below them, unless some remain on the stack. -/
def visitIslands (visited stack : List String) : Option (List String) :=
  match collectFrom (childIslandIds islands) (stack.length +
      ((buildIslandsByParentId islands).keys.map fun islandId =>
        (childIslandIds islands islandId).length).sum) visited stack with
  | (visited, []) => some visited
  | (_, _ :: _) => none

def collectCollapsedIslandIds (collapsedIslandIds : List String) : Option (List String) :=
  visitIslands islands []
    ((islands.filter fun island => island.id ∈ collapsedIslandIds).map Island.id).reverse

def collectHiddenDescendantIslandIds (collapsedIslandIds : List String) : Option (List String) :=
  collapsedIslandIds.foldlM (fun hidden islandId =>
    visitIslands islands hidden (childIslandIds islands islandId).reverse) []

def getCollapsedHiddenCardIds (collapsedIslandIds : List String) : Option (List String) :=
  (collectHiddenDescendantIslandIds islands collapsedIslandIds).map fun hidden =>
    distinct ((islands.filter fun island =>
      island.id ∈ collapsedIslandIds ∨ island.id ∈ hidden).flatMap Island.cardIds)

/-! ## What is below -/

def IsParent (parentId childId : String) : Prop :=
  parentId ∈ islands.map Island.id ∧
    ∃ child ∈ islands, child.id = childId ∧ child.parentIslandId = some parentId

def HasCollapsedAncestor (collapsedIslandIds : List String) (islandId : String) : Prop :=
  ∃ ancestor ∈ collapsedIslandIds, TransGen (IsParent islands) ancestor islandId

/-- The islands below a collapsed one are hidden and no others, and so are their cards and those
of the collapsed islands. -/
structure HidesSubtrees (collapsedIslandIds : List String) : Prop where
  hidden : ∃ hidden, collectHiddenDescendantIslandIds islands collapsedIslandIds = some hidden ∧
    ∀ islandId, islandId ∈ hidden ↔ HasCollapsedAncestor islands collapsedIslandIds islandId
  collapsed : ∃ collapsed, collectCollapsedIslandIds islands collapsedIslandIds = some collapsed ∧
    ∀ islandId, islandId ∈ collapsed ↔
      islandId ∈ collapsedIslandIds ∧ islandId ∈ islands.map Island.id ∨
        HasCollapsedAncestor islands collapsedIslandIds islandId
  cards : ∃ hidden, getCollapsedHiddenCardIds islands collapsedIslandIds = some hidden ∧
    ∀ cardId, cardId ∈ hidden ↔ ∃ island ∈ islands, cardId ∈ island.cardIds ∧
      (island.id ∈ collapsedIslandIds ∨
        HasCollapsedAncestor islands collapsedIslandIds island.id)
  settled : ∀ collapsed, collectCollapsedIslandIds islands collapsedIslandIds = some collapsed →
    ∃ again, collectCollapsedIslandIds islands collapsed = some again ∧
      ∀ islandId, islandId ∈ again ↔ islandId ∈ collapsed

variable {islands} {collapsedIslandIds : List String}

theorem mem_childIslandIds {parentId childId : String} :
    childId ∈ childIslandIds islands parentId ↔
      ∃ child ∈ islands, child.id = childId ∧ child.parentIslandId = some parentId := by
  unfold childIslandIds buildIslandsByParentId
  rw [get?_buckets]
  split
  next => grind
  next hnone =>
    push Not at hnone
    simpa using fun child hchild _ => hnone child hchild

theorem childIslandIds_of_not_mem {islandId : String}
    (hnot : islandId ∉ (buildIslandsByParentId islands).keys) :
    childIslandIds islands islandId = [] := by
  have hnone : (buildIslandsByParentId islands).get? islandId = none := by
    simpa [InsertionMap.mem_keys] using hnot
  rw [childIslandIds, hnone]
  rfl

theorem mem_of_points {parentId childId : String}
    (hpoints : Points (childIslandIds islands) parentId childId) :
    childId ∈ islands.map Island.id := by
  obtain ⟨child, hchild, rfl, -⟩ := mem_childIslandIds.mp hpoints
  exact List.mem_map_of_mem hchild

theorem isParent_iff {parentId childId : String} :
    IsParent islands parentId childId ↔
      parentId ∈ islands.map Island.id ∧ Points (childIslandIds islands) parentId childId := by
  rw [IsParent, Points, mem_childIslandIds]

theorem reaches_iff {islandId other : String} (hisland : islandId ∈ islands.map Island.id) :
    ReflTransGen (Points (childIslandIds islands)) islandId other ↔
      ReflTransGen (IsParent islands) islandId other := by
  refine ⟨fun hreaches => ?_, fun hreaches =>
    hreaches.lift id fun _ _ hparent => (isParent_iff.mp hparent).2⟩
  induction hreaches with
  | refl => exact .refl
  | tail hbefore hedge ih =>
      refine ih.tail (isParent_iff.mpr ⟨?_, hedge⟩)
      rcases hbefore.cases_tail with rfl | ⟨_, _, hlast⟩
      · exact hisland
      · exact mem_of_points hlast

/-! ## The walks -/

/-- The children of what has been visited have been visited. -/
def VisitedBelow (islands : List Island) (visited : List String) : Prop :=
  ∀ islandId ∈ visited, childIslandIds islands islandId ⊆ visited

variable {visited : List String}

theorem visitIslands_spec (hvisited : VisitedBelow islands visited) (stack : List String) :
    ∃ result, visitIslands islands visited stack = some result ∧
      VisitedBelow islands result ∧ ∀ islandId, islandId ∈ result ↔ islandId ∈ visited ∨
        ∃ top ∈ stack, ReflTransGen (Points (childIslandIds islands)) top islandId := by
  obtain ⟨hempty, hmem⟩ := collectFrom_spec visited stack
    (fun islandId _ hnot => childIslandIds_of_not_mem hnot)
    (fun islandId hin child hchild => .inl (hvisited islandId hin hchild)) le_rfl
  refine ⟨_, ?_, ?_, hmem⟩
  · rw [visitIslands]
    split
    next heq => rw [heq]
    next heq =>
      rw [heq] at hempty
      exact absurd hempty (List.cons_ne_nil _ _)
  · intro islandId hin child hchild
    rw [hmem] at hin ⊢
    rcases hin with hin | ⟨top, htop, hreaches⟩
    · exact .inl (hvisited islandId hin hchild)
    · exact .inr ⟨top, htop, hreaches.tail hchild⟩

theorem foldlM_visitIslands (collapsed : List String) (hvisited : VisitedBelow islands visited) :
    ∃ hidden, collapsed.foldlM (fun hidden islandId =>
        visitIslands islands hidden (childIslandIds islands islandId).reverse) visited =
          some hidden ∧
      ∀ islandId, islandId ∈ hidden ↔ islandId ∈ visited ∨
        ∃ ancestor ∈ collapsed, TransGen (Points (childIslandIds islands)) ancestor islandId := by
  induction collapsed generalizing visited with
  | nil => exact ⟨visited, rfl, by simp⟩
  | cons first collapsed ih =>
      obtain ⟨result, hresult, hbelow, hmem⟩ :=
        visitIslands_spec hvisited (childIslandIds islands first).reverse
      obtain ⟨hidden, hhidden, hmem'⟩ := ih hbelow
      refine ⟨hidden, by rw [List.foldlM_cons, hresult]; exact hhidden, fun islandId => ?_⟩
      rw [hmem', hmem]
      simp only [List.mem_reverse, List.mem_cons, exists_eq_or_imp, transGen_points_iff, or_assoc]

theorem collectHiddenDescendantIslandIds_spec (islands : List Island)
    (collapsedIslandIds : List String) :
    ∃ hidden, collectHiddenDescendantIslandIds islands collapsedIslandIds = some hidden ∧
      ∀ islandId, islandId ∈ hidden ↔ ∃ ancestor ∈ collapsedIslandIds,
        TransGen (Points (childIslandIds islands)) ancestor islandId := by
  have hnone : VisitedBelow islands [] := fun _ hin => absurd hin List.not_mem_nil
  obtain ⟨hidden, hhidden, hmem⟩ := foldlM_visitIslands collapsedIslandIds hnone
  exact ⟨hidden, hhidden, by simpa using hmem⟩

theorem collectCollapsedIslandIds_spec (islands : List Island) (collapsedIslandIds : List String) :
    ∃ collapsed, collectCollapsedIslandIds islands collapsedIslandIds = some collapsed ∧
      VisitedBelow islands collapsed ∧
      ∀ islandId, islandId ∈ collapsed ↔
        islandId ∈ collapsedIslandIds ∧ islandId ∈ islands.map Island.id ∨
          HasCollapsedAncestor islands collapsedIslandIds islandId := by
  have hnone : VisitedBelow islands [] := fun _ hin => absurd hin List.not_mem_nil
  obtain ⟨collapsed, hcollapsed, hbelow, hmem⟩ := visitIslands_spec hnone
    ((islands.filter fun island => island.id ∈ collapsedIslandIds).map Island.id).reverse
  refine ⟨collapsed, hcollapsed, hbelow, fun islandId => ?_⟩
  have hstack : ∀ top, top ∈ ((islands.filter fun island =>
      island.id ∈ collapsedIslandIds).map Island.id).reverse ↔
        top ∈ collapsedIslandIds ∧ top ∈ islands.map Island.id := by
    intro top
    simp only [List.mem_reverse, List.mem_map, List.mem_filter, decide_eq_true_eq]
    grind
  rw [hmem, HasCollapsedAncestor]
  simp only [hstack, List.not_mem_nil, false_or]
  constructor
  · rintro ⟨top, ⟨hcollapsed, hisland⟩, hreaches⟩
    rcases ((reaches_iff hisland).mp hreaches).cases_head with rfl | ⟨_, hedge, hrest⟩
    · exact .inl ⟨hcollapsed, hisland⟩
    · exact .inr ⟨top, hcollapsed, .head' hedge hrest⟩
  · rintro (hin | ⟨ancestor, hancestor, hbelow⟩)
    · exact ⟨islandId, hin, .refl⟩
    · obtain ⟨_, hedge, -⟩ := Relation.TransGen.head'_iff.mp hbelow
      exact ⟨ancestor, ⟨hancestor, hedge.1⟩, (reaches_iff hedge.1).mpr hbelow.to_reflTransGen⟩

/-- Collapsing what is collapsed once more changes nothing. -/
theorem mem_collectCollapsedIslandIds_again {collapsed again : List String}
    (hcollapsed : collectCollapsedIslandIds islands collapsedIslandIds = some collapsed)
    (hagain : collectCollapsedIslandIds islands collapsed = some again) (islandId : String) :
    islandId ∈ again ↔ islandId ∈ collapsed := by
  obtain ⟨first, hfirst, hbelow, hmem⟩ := collectCollapsedIslandIds_spec islands collapsedIslandIds
  obtain rfl : collapsed = first := Option.some.inj (hcollapsed.symm.trans hfirst)
  obtain ⟨second, hsecond, -, hmem'⟩ := collectCollapsedIslandIds_spec islands collapsed
  obtain rfl : again = second := Option.some.inj (hagain.symm.trans hsecond)
  rw [hmem']
  constructor
  · rintro (⟨hin, -⟩ | ⟨ancestor, hancestor, hreaches⟩)
    · exact hin
    · induction hreaches with
      | single hedge => exact hbelow ancestor hancestor (isParent_iff.mp hedge).2
      | tail _ hedge ih => exact hbelow _ ih (isParent_iff.mp hedge).2
  · intro hin
    refine .inl ⟨hin, ?_⟩
    rcases (hmem islandId).mp hin with ⟨-, hisland⟩ | ⟨_, -, hreaches⟩
    · exact hisland
    · obtain ⟨_, -, hedge⟩ := Relation.TransGen.tail'_iff.mp hreaches
      exact mem_of_points (isParent_iff.mp hedge).2

/-! ## Collapsed ids of no island -/

def CollapsedParentsExist (islands : List Island) (collapsedIslandIds : List String) : Prop :=
  ∀ island ∈ islands, ∀ parentId ∈ collapsedIslandIds,
    island.parentIslandId = some parentId → parentId ∈ islands.map Island.id

theorem CollapsedParentsExist.transGen_iff
    (hexist : CollapsedParentsExist islands collapsedIslandIds) {ancestor : String}
    (hancestor : ancestor ∈ collapsedIslandIds) (islandId : String) :
    TransGen (Points (childIslandIds islands)) ancestor islandId ↔
      TransGen (IsParent islands) ancestor islandId := by
  simp only [Relation.TransGen.head'_iff]
  refine exists_congr fun first => ?_
  have hedge : Points (childIslandIds islands) ancestor first ↔
      IsParent islands ancestor first := by
    rw [isParent_iff, iff_and_self]
    intro hpoints
    obtain ⟨child, hchild, -, hparent⟩ := mem_childIslandIds.mp hpoints
    exact hexist child hchild ancestor hancestor hparent
  rw [← hedge]
  exact and_congr_right fun hpoints => reaches_iff (mem_of_points hpoints)

/-- Collapsing hides the subtrees exactly when every collapsed id that islands have as their
parent is an island's. -/
theorem hidesSubtrees_iff (hunique : (islands.map Island.id).Nodup)
    (collapsedIslandIds : List String) :
    HidesSubtrees islands collapsedIslandIds ↔
      CollapsedParentsExist islands collapsedIslandIds := by
  obtain ⟨hidden, hhidden, hmem⟩ := collectHiddenDescendantIslandIds_spec islands collapsedIslandIds
  constructor
  · intro hhides island hisland parentId hcollapsed hparent
    obtain ⟨_, hhidden', hmem'⟩ := hhides.hidden
    obtain rfl := Option.some.inj (hhidden.symm.trans hhidden')
    have hpoints : Points (childIslandIds islands) parentId island.id :=
      mem_childIslandIds.mpr ⟨island, hisland, rfl, hparent⟩
    obtain ⟨ancestor, -, hreaches⟩ :=
      (hmem' island.id).mp ((hmem island.id).mpr ⟨parentId, hcollapsed, .single hpoints⟩)
    -- The island has one parent only, the last on the way from the ancestor.
    obtain ⟨last, -, hlast, child, hchild, hid, hparent'⟩ :=
      Relation.TransGen.tail'_iff.mp hreaches
    obtain rfl : child = island := List.inj_on_of_nodup_map hunique hchild hisland hid
    obtain rfl : parentId = last := Option.some.inj (hparent.symm.trans hparent')
    exact hlast
  · intro hexist
    have hbelow : ∀ islandId, islandId ∈ hidden ↔
        HasCollapsedAncestor islands collapsedIslandIds islandId := by
      intro islandId
      rw [hmem, HasCollapsedAncestor]
      exact exists_congr fun ancestor => and_congr_right fun hancestor =>
        hexist.transGen_iff hancestor islandId
    obtain ⟨collapsed, hcollapsed, -, hmemCollapsed⟩ :=
      collectCollapsedIslandIds_spec islands collapsedIslandIds
    refine ⟨⟨hidden, hhidden, hbelow⟩, ⟨collapsed, hcollapsed, hmemCollapsed⟩, ?_, ?_⟩
    · refine ⟨_, by rw [getCollapsedHiddenCardIds, hhidden]; rfl, fun cardId => ?_⟩
      simp only [mem_distinct, List.mem_flatMap, List.mem_filter, decide_eq_true_eq, hbelow]
      grind
    · intro collapsed' hcollapsed'
      obtain ⟨again, hagain, -, -⟩ := collectCollapsedIslandIds_spec islands collapsed'
      exact ⟨again, hagain, mem_collectCollapsedIslandIds_again hcollapsed' hagain⟩

end Collapse

/-! ## A parent that is no island -/

namespace DanglingParent

def child : Island where
  props := [("id", some (.string "child")), ("parentIslandId", some (.string "missing")),
    ("cardIds", some (.array []))]
  id := "child"
  cardIds := []
  id_eq := rfl
  cardIds_eq := rfl

theorem hidesSubtrees_iff_child :
    HidesSubtrees [child] ["child"] ↔ CollapsedParentsExist [child] ["child"] :=
  hidesSubtrees_iff (by decide) ["child"]

/-- The child is hidden below an island that does not exist. -/
theorem child_is_hidden :
    ([child].map Island.id).Nodup ∧
      collectHiddenDescendantIslandIds [child] ["missing"] = some ["child"] ∧
      collectCollapsedIslandIds [child] ["missing"] = some [] ∧
      ¬ HidesSubtrees [child] ["missing"] := by
  have hhidden : collectHiddenDescendantIslandIds [child] ["missing"] = some ["child"] := by decide
  refine ⟨by decide, hhidden, by decide, fun hhides => ?_⟩
  obtain ⟨_, hsome, hmem⟩ := hhides.hidden
  obtain rfl := Option.some.inj (hhidden.symm.trans hsome)
  obtain ⟨ancestor, hancestor, hbelow⟩ := (hmem "child").mp List.mem_cons_self
  obtain ⟨_, ⟨hisland, -⟩, -⟩ := Relation.TransGen.head'_iff.mp hbelow
  rw [List.mem_singleton.mp hancestor] at hisland
  exact absurd hisland (by decide)

end DanglingParent

end KjAtlas
