import KjAtlas.Import.Idempotent

/-! # The hierarchy of imported islands

The importer removes the links to parents that are missing or on a cycle. It looks at the
whole way to the root, so a link that is intact is removed as well when a link further up
is not. The hierarchy that it leaves is acyclic in any case.
-/

namespace KjAtlas

open Relation

namespace Importer

open Js

/-! ## Links -/

def islandIds (islands : List JsValue) : List String :=
  islands.filterMap fun island => island.props.string? "id"

/-- An island names its parent. -/
def LinksTo (islands : List JsValue) (a b : String) : Prop :=
  ∃ island ∈ islands, island.props.string? "id" = some a ∧ parentIslandId island = some b

instance (islands : List JsValue) (a b : String) : Decidable (LinksTo islands a b) :=
  inferInstanceAs (Decidable (∃ island ∈ islands, _ ∧ _))

/-- A link that is followed. The empty text names no parent. -/
def Follows (islands : List JsValue) (a b : String) : Prop := LinksTo islands a b ∧ b ≠ ""

/-- A link to an existing island that does not lie on a cycle. -/
structure IsIntact (islands : List JsValue) (a b : String) : Prop where
  link : LinksTo islands a b
  parent : b ∈ islandIds islands
  no_cycle : ¬ReflTransGen (LinksTo islands) b a

/-- The links that are left are acyclic and lead to existing islands, and no intact link
is removed. -/
structure RepairedMinimally (before after : List JsValue) : Prop where
  existing : ∀ {a b}, LinksTo after a b → b ∈ islandIds after
  acyclic : ∀ a, ¬TransGen (LinksTo after) a a
  kept : ∀ {a b}, IsIntact before a b → LinksTo after a b

/-- No link above an intact link is dangling or on a cycle, and no intact link names the
empty text. -/
def IntactAbove (islands : List JsValue) : Prop :=
  ∀ a b, IsIntact islands a b → b ≠ "" ∧
    ∀ c d, ReflTransGen (Follows islands) b c → Follows islands c d →
      d ∈ islandIds islands ∧ ¬ReflTransGen (Follows islands) d c

section Links

variable {islands : List JsValue} {a b : String}

theorem mem_islandIds : a ∈ islandIds islands ↔
    ∃ island ∈ islands, island.props.string? "id" = some a := List.mem_filterMap

theorem islandIds_resolved (islands : List JsValue) :
    islandIds (islands.map (resolveParent islands)) = islandIds islands := by
  rw [islandIds, List.filterMap_map, islandIds]
  apply List.filterMap_congr
  intro island _
  exact id_resolveParent islands island

theorem parentOf_of_mem (hunique : (islandIds islands).Nodup) {island : JsValue}
    (hisland : island ∈ islands) (hid : island.props.string? "id" = some a) :
    parentOf islands a = some (truthy (parentIslandId island)) := by
  have hkeys : ((islands.filterMap parentEntry).map Prod.fst).Nodup := by
    have hmap : (islands.filterMap parentEntry).map Prod.fst = islandIds islands := by
      rw [List.map_filterMap, islandIds]
      apply List.filterMap_congr
      intro other _
      rw [parentEntry, Option.map_map]
      exact Option.map_id'
    rwa [hmap]
  have hmem : (a, truthy (parentIslandId island)) ∈ islands.filterMap parentEntry := by
    refine List.mem_filterMap.mpr ⟨island, hisland, ?_⟩
    rw [parentEntry, hid, Option.map_some]
  have hmap := InsertionMap.get?_ofList_map Prod.fst Prod.snd hkeys a
  rw [List.map_id'] at hmap
  rw [parentOf_eq, hmap, findBy_of_mem Prod.fst hkeys hmem, Option.map_some]

theorem isSome_parentOf : (parentOf islands a).isSome = true ↔ a ∈ islandIds islands := by
  rw [parentOf, Option.isSome_map, islandsById, InsertionMap.get?_ofList, Option.isSome_map,
    findBy_isSome, mem_islandIds]
  constructor
  · rintro ⟨entry, hentry, hkey⟩
    obtain ⟨island, hisland, hid⟩ := List.mem_filterMap.mp (List.mem_reverse.mp hentry)
    obtain ⟨id, hown, rfl⟩ := Option.map_eq_some_iff.mp hid
    exact ⟨island, hisland, hown.trans (congrArg some hkey)⟩
  · rintro ⟨island, hisland, hid⟩
    refine ⟨(a, island), List.mem_reverse.mpr (List.mem_filterMap.mpr ⟨island, hisland, ?_⟩), rfl⟩
    rw [hid, Option.map_some]

/-- The walk of the importer follows the links that name a parent. -/
theorem stepsTo_iff (hunique : (islandIds islands).Nodup) :
    StepsTo (parentOf islands) a b ↔ Follows islands a b := by
  constructor
  · intro hsteps
    have hknown : a ∈ islandIds islands := by
      rw [← isSome_parentOf, hsteps]
      rfl
    obtain ⟨island, hisland, hid⟩ := mem_islandIds.mp hknown
    rw [StepsTo, parentOf_of_mem hunique hisland hid, Option.some.injEq] at hsteps
    obtain ⟨hparent, hne⟩ := truthy_eq_some.mp hsteps
    exact ⟨⟨island, hisland, hid, hparent⟩, hne⟩
  · rintro ⟨⟨island, hisland, hid, hparent⟩, hne⟩
    rw [StepsTo, parentOf_of_mem hunique hisland hid, truthy_eq_some.mpr ⟨hparent, hne⟩]

/-- Exactly the links that start a chain to a root are left. -/
theorem linksTo_resolved :
    LinksTo (islands.map (resolveParent islands)) a b ↔
      LinksTo islands a b ∧ b ≠ "" ∧ Ends (parentOf islands) a (some b) := by
  constructor
  · rintro ⟨resolved, hresolved, hid, hparent⟩
    obtain ⟨island, hisland, rfl⟩ := List.mem_map.mp hresolved
    rw [id_resolveParent] at hid
    rw [parentIslandId_resolveParent, hid, Option.getD_some, resolveParentIslandId_eq_some] at hparent
    exact ⟨⟨island, hisland, hid, hparent.1⟩, hparent.2⟩
  · rintro ⟨⟨island, hisland, hid, hparent⟩, hends⟩
    refine ⟨resolveParent islands island, List.mem_map_of_mem hisland, ?_, ?_⟩
    · rw [id_resolveParent, hid]
    · rw [parentIslandId_resolveParent, hid, Option.getD_some, resolveParentIslandId_eq_some]
      exact ⟨hparent, hends⟩

theorem ends_iff_follows (hunique : (islandIds islands).Nodup) :
    Ends (parentOf islands) a (some b) ↔ ¬ReflTransGen (Follows islands) b a ∧
      ∀ c, ReflTransGen (Follows islands) b c →
        c ∈ islandIds islands ∧ ¬TransGen (Follows islands) c c := by
  have hsteps : StepsTo (parentOf islands) = Follows islands := by
    funext a b
    exact propext (stepsTo_iff hunique)
  rw [ends_iff_reached fun a => isSome_parentOf.mp, hsteps]
  simp only [isSome_parentOf]

end Links

/-! ## What the repair leaves -/

section Repaired

variable {islands : List JsValue} {a b : String}

section

variable (hunique : (islandIds islands).Nodup)
include hunique

theorem existing_resolved (hlink : LinksTo (islands.map (resolveParent islands)) a b) :
    b ∈ islandIds (islands.map (resolveParent islands)) := by
  obtain ⟨-, -, hends⟩ := linksTo_resolved.mp hlink
  rw [islandIds_resolved]
  exact (((ends_iff_follows hunique).mp hends).2 b .refl).1

theorem acyclic_resolved (a : String) :
    ¬TransGen (LinksTo (islands.map (resolveParent islands))) a a := by
  intro hcycle
  have hfollows : ∀ {c d}, LinksTo (islands.map (resolveParent islands)) c d →
      Follows islands c d := by
    intro c d hlink
    obtain ⟨hbefore, hne, -⟩ := linksTo_resolved.mp hlink
    exact ⟨hbefore, hne⟩
  obtain ⟨b, hlink, hback⟩ := TransGen.head'_iff.mp hcycle
  obtain ⟨-, -, hends⟩ := linksTo_resolved.mp hlink
  exact ((ends_iff_follows hunique).mp hends).1 (ReflTransGen.mono (fun _ _ => hfollows) _ _ hback)

theorem ends_of_intactAbove (habove : IntactAbove islands) (hintact : IsIntact islands a b) :
    Ends (parentOf islands) a (some b) := by
  have hlinks : ∀ {c d}, ReflTransGen (Follows islands) c d → ReflTransGen (LinksTo islands) c d :=
    fun hreach => ReflTransGen.mono (fun _ _ hfollows => hfollows.1) _ _ hreach
  rw [ends_iff_follows hunique]
  refine ⟨fun hback => hintact.no_cycle (hlinks hback), fun c hc => ⟨?_, fun hcycle => ?_⟩⟩
  · rcases hc.cases_tail with rfl | ⟨d, hd, hstep⟩
    · exact hintact.parent
    · exact ((habove a b hintact).2 d c hd hstep).1
  · obtain ⟨d, hstep, hback⟩ := TransGen.head'_iff.mp hcycle
    exact ((habove a b hintact).2 c d hc hstep).2 hback

theorem intactAbove_of_kept (hkept : ∀ {a b}, IsIntact islands a b →
      LinksTo (islands.map (resolveParent islands)) a b) : IntactAbove islands := by
  intro a b hintact
  obtain ⟨-, hne, hends⟩ := linksTo_resolved.mp (hkept hintact)
  obtain ⟨-, hreached⟩ := (ends_iff_follows hunique).mp hends
  refine ⟨hne, fun c d hc hstep => ⟨(hreached d (hc.tail hstep)).1, fun hback => ?_⟩⟩
  exact (hreached c hc).2 (.head' hstep hback)

theorem repairedMinimally_iff :
    RepairedMinimally islands (islands.map (resolveParent islands)) ↔ IntactAbove islands := by
  constructor
  · exact fun hrepaired => intactAbove_of_kept hunique hrepaired.kept
  · intro habove
    refine ⟨existing_resolved hunique, acyclic_resolved hunique, fun {a b} hintact => ?_⟩
    exact linksTo_resolved.mpr ⟨hintact.link, (habove a b hintact).1,
      ends_of_intactAbove hunique habove hintact⟩

end

end Repaired

/-- The hierarchy of islands with unique ids is repaired minimally exactly when no link
above an intact link is dangling or on a cycle. -/
theorem parseIslands_repairedMinimally_iff (platform : Platform) (values : List JsValue)
    (hunique : (islandIds (values.filterMap (parseIsland platform))).Nodup) :
    ∃ islands, parseIslands platform (.array values) = some (.array islands) ∧
      (RepairedMinimally (values.filterMap (parseIsland platform)) islands ↔
        IntactAbove (values.filterMap (parseIsland platform))) :=
  ⟨_, rfl, repairedMinimally_iff hunique⟩

/-! ## A dangling link above an intact one -/

namespace DanglingAbove

def platform : Platform where
  dates := .instant "2024-05-01T00:00:00.000Z"
  segmentsIntersect _ _ _ _ := false

def island (id : String) (parent : Option String) : JsValue :=
  .object [("id", some (.string id)), ("cardIds", some (.array [])),
    ("parentIslandId", parent.map .string)]

/-- Three islands in a row. -/
def chained : List JsValue := [island "top" none, island "middle" (some "top"),
  island "leaf" (some "middle")]

theorem chained_repaired :
    ∃ islands, parseIslands platform (.array chained) = some (.array islands) ∧
      (RepairedMinimally (chained.filterMap (parseIsland platform)) islands ↔
        IntactAbove (chained.filterMap (parseIsland platform))) :=
  parseIslands_repairedMinimally_iff platform chained (by decide +kernel)

/-- The parent of the middle island is missing. -/
def dangling : List JsValue := [island "middle" (some "missing"), island "leaf" (some "middle")]

theorem leaf_intact : IsIntact (dangling.filterMap (parseIsland platform)) "leaf" "middle" where
  link := by decide +kernel
  parent := by decide +kernel
  no_cycle hback := by
    obtain heq | ⟨next, hnext, hback⟩ := hback.cases_head
    · exact absurd heq (by decide)
    · -- the middle island names no island, so nothing follows
      have hmissing : next = "missing" := by
        obtain ⟨island, hisland, hid, hparent⟩ := hnext
        have hown : ∀ island ∈ dangling.filterMap (parseIsland platform),
            island.props.string? "id" = some "middle" → parentIslandId island = some "missing" := by
          decide +kernel
        exact (Option.some.inj ((hown island hisland hid).symm.trans hparent)).symm
      subst hmissing
      obtain heq | ⟨after, ⟨island, hisland, hid, -⟩, -⟩ := hback.cases_head
      · exact absurd heq (by decide)
      · have hnone : "missing" ∉ islandIds (dangling.filterMap (parseIsland platform)) := by
          decide +kernel
        exact hnone (mem_islandIds.mpr ⟨island, hisland, hid⟩)

/-- The link of the leaf is removed with the link above it. -/
theorem leaf_removed :
    ¬∀ values : List JsValue, (islandIds (values.filterMap (parseIsland platform))).Nodup →
      ∃ islands, parseIslands platform (.array values) = some (.array islands) ∧
        RepairedMinimally (values.filterMap (parseIsland platform)) islands := by
  intro hrepaired
  obtain ⟨islands, hparse, hminimal⟩ := hrepaired dangling (by decide +kernel)
  cases hparse
  have habove := (repairedMinimally_iff (by decide +kernel)).mp hminimal
  have hmissing := ((habove _ _ leaf_intact).2 "middle" "missing" .refl
    ⟨by decide +kernel, by decide⟩).1
  exact absurd hmissing (by decide +kernel)

end DanglingAbove

end Importer

end KjAtlas
