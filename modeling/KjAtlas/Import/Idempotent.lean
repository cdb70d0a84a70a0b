import KjAtlas.Import.Stable

/-! # Importing what was imported

The normal forms of the parts of a document are normal forms of the whole.
Islands keep the parents they were left with, since every chain of parents that
reaches a top island stays. Cards stay marked as shelved by the shelf that is
kept.
-/

namespace KjAtlas

open Js

namespace Importer

open Reader Property

/-! ## Islands -/

variable {props : Props}

section Islands

variable (platform : Platform)

theorem nodup_islandProperties (outline : IslandGeometry × IslandShape) :
    ((islandProperties outline).map Property.name).Nodup := by
  simp [islandProperties, islandHeadProperties, islandTailProperties, must, may, orElse, always]

theorem stable_islandProperties (outline : IslandGeometry × IslandShape) :
    ∀ property ∈ islandProperties outline, property.Stable := by
  have hdefault : (boolean (.bool false)).getD (.bool false) = .bool false := rfl
  simp [islandProperties, islandHeadProperties, islandTailProperties, hdefault]

/-- An island as the importer makes it. -/
structure ImportedIsland (props : Props) : Prop where
  settled : ∃ outline, Usable platform outline ∧ Settled (islandProperties outline) props

theorem imported_parseIsland {value island : JsValue}
    (hread : parseIsland platform value = some island) :
    ∃ props, island = .object props ∧ ImportedIsland platform props := by
  obtain ⟨-, props, hprops, rfl⟩ := record_eq_some.mp hread
  exact ⟨props, rfl, _, usable_outlineOf platform _,
    settled_readProps (nodup_islandProperties _) (stable_islandProperties _) hprops⟩

theorem parentIslandId_mem (outline : IslandGeometry × IslandShape) :
    may "parentIslandId" text ∈ islandProperties outline := by
  simp [islandProperties, islandHeadProperties]

variable {platform}

theorem ImportedIsland.put {props : Props} (himported : ImportedIsland platform props)
    (parent : Option String) :
    ImportedIsland platform (props.put "parentIslandId" (parent.map .string)) := by
  obtain ⟨outline, husable, hsettled⟩ := himported
  refine ⟨outline, husable, ?_⟩
  apply hsettled.put (nodup_islandProperties outline) (parentIslandId_mem outline)
  cases parent <;> rfl

theorem ImportedIsland.exists_parseIsland (himported : ImportedIsland platform props) :
    ∃ again, parseIsland platform (.object props) = some (.object again) ∧
      (Props.names again).Nodup ∧ SameProps again props := by
  obtain ⟨outline, husable, hsettled⟩ := himported
  have hgeometry : props.get "geometry" = some outline.1.toJs :=
    Option.some.inj (hsettled.fixed (always "geometry" (some outline.1.toJs))
      (by simp [islandProperties])).symm
  have hshape : props.get "shape" = some outline.2.toJs :=
    Option.some.inj (hsettled.fixed (always "shape" (some outline.2.toJs))
      (by simp [islandProperties])).symm
  have hagain : outlineOf platform props = normalizeOutline
      (parseIslandGeometry platform outline.1.toJs) (parseIslandShape platform outline.2.toJs) := by
    rw [outlineOf, hgeometry, hshape]
    rfl
  obtain ⟨hgeometryContent, hshapeContent⟩ := normalizeOutline_toJs platform husable
  rw [← hagain] at hgeometryContent hshapeContent
  have hexists : ∃ again,
      readProps props (islandProperties (outlineOf platform props)) = some again ∧
        (Props.names again).Nodup ∧ SameProps again props := by
    refine exists_record (nodup_islandProperties _) ?_ ?_
    · intro property hproperty
      simp only [islandProperties, List.mem_append, List.mem_cons, List.not_mem_nil, or_false]
        at hproperty
      rcases hproperty with (hhead | rfl | rfl) | htail
      · refine ⟨_, hsettled.fixed property ?_, rfl⟩
        simp only [islandProperties, List.mem_append, hhead, true_or]
      · exact ⟨_, rfl, by rw [always, hgeometry, Option.map_some, Option.map_some, hgeometryContent]⟩
      · exact ⟨_, rfl, by rw [always, hshape, Option.map_some, Option.map_some, hshapeContent]⟩
      · refine ⟨_, hsettled.fixed property ?_, rfl⟩
        simp only [islandProperties, List.mem_append, htail, or_true]
    · exact hsettled.closed
  obtain ⟨again, hread, hnodup, hsame⟩ := hexists
  exact ⟨again, record_eq_some.mpr ⟨rfl, again, hread, rfl⟩, hnodup, hsame⟩

end Islands

/-! ## Parents -/

section Parents

theorem truthy_eq_some {text : Option String} {s : String} :
    truthy text = some s ↔ text = some s ∧ s ≠ "" := by
  rw [truthy, Option.filter_eq_some_iff, decide_eq_true_eq]

theorem follow_parentOf_iff (islands : List JsValue) (id : String) (cursor : Option String) :
    follow (parentOf islands) islands.length [id] cursor = true ↔
      Ends (parentOf islands) id cursor := by
  have hlength : islands.length =
      (islands.map fun island => (island.props.string? "id").getD "").length := by
    rw [List.length_map]
  rw [hlength]
  apply follow_iff_ends
  intro a hknown
  rw [parentOf, Option.isSome_map, islandsById, InsertionMap.get?_ofList, Option.isSome_map,
    findBy_isSome] at hknown
  obtain ⟨entry, hentry, rfl⟩ := hknown
  obtain ⟨island, hisland, hid⟩ := List.mem_filterMap.mp (List.mem_reverse.mp hentry)
  obtain ⟨id, hownId, rfl⟩ := Option.map_eq_some_iff.mp hid
  refine List.mem_map.mpr ⟨island, hisland, ?_⟩
  exact congrArg (Option.getD · "") hownId

theorem resolveParentIslandId_eq_some {islands : List JsValue} {islandId parent : String}
    {parentIslandId : Option String} :
    resolveParentIslandId islands islandId parentIslandId = some parent ↔
      parentIslandId = some parent ∧ parent ≠ "" ∧
        Ends (parentOf islands) islandId (some parent) := by
  rw [resolveParentIslandId]
  constructor
  · intro hresolved
    split at hresolved
    next hfollow =>
      obtain ⟨hparent, hne⟩ := truthy_eq_some.mp hresolved
      rw [follow_parentOf_iff, hresolved] at hfollow
      exact ⟨hparent, hne, hfollow⟩
    next => contradiction
  · rintro ⟨hparent, hne, hends⟩
    have htruthy : truthy parentIslandId = some parent := truthy_eq_some.mpr ⟨hparent, hne⟩
    rw [htruthy, if_pos ((follow_parentOf_iff islands islandId _).mpr hends)]

theorem resolveParentIslandId_none (islands : List JsValue) (islandId : String) :
    resolveParentIslandId islands islandId none = none := by
  rw [resolveParentIslandId]
  split <;> rfl

theorem id_resolveParent (islands : List JsValue) (island : JsValue) :
    (resolveParent islands island).props.string? "id" = island.props.string? "id" := by
  unfold resolveParent
  dsimp only
  split
  · rfl
  · change Props.string? (Props.put _ _ _) _ = _
    rw [Props.string?_put, if_neg (by decide)]

theorem parentIslandId_resolveParent (islands : List JsValue) (island : JsValue) :
    parentIslandId (resolveParent islands island) = resolveParentIslandId islands
      ((island.props.string? "id").getD "") (parentIslandId island) := by
  unfold resolveParent
  dsimp only
  split
  next hresolved => exact hresolved.symm
  next =>
    change Props.string? (Props.put _ _ _) _ = _
    rw [Props.string?_put, if_pos rfl]
    cases resolveParentIslandId islands ((island.props.string? "id").getD "")
      (parentIslandId island) <;> rfl

def parentEntry (island : JsValue) : Option (String × Option String) :=
  (island.props.string? "id").map fun id => (id, truthy (parentIslandId island))

theorem parentOf_eq (islands : List JsValue) (id : String) :
    parentOf islands id = (InsertionMap.ofList (islands.filterMap parentEntry)).get? id := by
  rw [parentOf, islandsById, ← InsertionMap.get?_ofList_map_snd
    fun _ island => truthy (parentIslandId island), List.map_filterMap]
  congr 2
  apply List.filterMap_congr
  intro island _
  rw [parentEntry, Option.map_map]
  rfl

theorem parentOf_resolved (islands : List JsValue) (id : String) :
    parentOf (islands.map (resolveParent islands)) id =
      (parentOf islands id).map (resolveParentIslandId islands id) := by
  rw [parentOf_eq, parentOf_eq, ← InsertionMap.get?_ofList_map_snd, List.filterMap_map,
    List.map_filterMap]
  congr 2
  apply List.filterMap_congr
  intro island _
  rw [Function.comp_apply, parentEntry, parentEntry, id_resolveParent,
    parentIslandId_resolveParent]
  cases island.props.string? "id" with
  | none => rfl
  | some id =>
      rw [Option.map_some, Option.map_some, Option.map_some, Option.getD_some]
      congr 2
      ext parent
      rw [truthy_eq_some, resolveParentIslandId_eq_some, resolveParentIslandId_eq_some,
        truthy_eq_some]
      tauto

/-- A parent that was kept is kept again. -/
theorem resolveParentIslandId_resolved (islands : List JsValue) (islandId : String)
    (parent : Option String) :
    resolveParentIslandId (islands.map (resolveParent islands)) islandId
      (resolveParentIslandId islands islandId parent) =
        resolveParentIslandId islands islandId parent := by
  have hkeep : ∀ a after, parentOf islands a = some after → Ends (parentOf islands) a after →
      parentOf (islands.map (resolveParent islands)) a = some after := by
    intro a after hafter hends
    rw [parentOf_resolved, hafter, Option.map_some]
    cases after with
    | none => rw [resolveParentIslandId_none]
    | some after =>
        rw [Option.some.injEq, resolveParentIslandId_eq_some]
        refine ⟨rfl, ?_, hends⟩
        rw [parentOf, Option.map_eq_some_iff] at hafter
        obtain ⟨_, -, hafter⟩ := hafter
        exact (truthy_eq_some.mp hafter).2
  cases hresolved : resolveParentIslandId islands islandId parent with
  | none => rw [resolveParentIslandId_none]
  | some parent =>
      rw [resolveParentIslandId_eq_some] at hresolved ⊢
      exact ⟨rfl, hresolved.2.1, hresolved.2.2.pruned hkeep⟩

def idAndParent (island : JsValue) : Option String × Option String :=
  (island.props.string? "id", parentIslandId island)

theorem resolveParentIslandId_congr {islands islands' : List JsValue}
    (hsame : islands'.map idAndParent = islands.map idAndParent) (islandId : String)
    (parent : Option String) : resolveParentIslandId islands' islandId parent =
      resolveParentIslandId islands islandId parent := by
  have hentries : islands'.filterMap parentEntry = islands.filterMap parentEntry := by
    have hjoin := congrArg
      (List.filterMap fun pair => pair.1.map fun id => (id, truthy pair.2)) hsame
    rwa [List.filterMap_map, List.filterMap_map] at hjoin
  have hparentOf : parentOf islands' = parentOf islands := by
    funext id
    rw [parentOf_eq, parentOf_eq, hentries]
  ext result
  rw [resolveParentIslandId_eq_some, resolveParentIslandId_eq_some, hparentOf]

variable {platform : Platform}

theorem imported_resolveParent (islands : List JsValue)
    (himported : ImportedIsland platform props) :
    ∃ resolved, resolveParent islands (.object props) = .object resolved ∧
      ImportedIsland platform resolved := by
  unfold resolveParent
  dsimp only
  split
  · exact ⟨props, rfl, himported⟩
  · exact ⟨_, rfl, himported.put _⟩

theorem exists_parseIsland_resolved {values : List JsValue} :
    ∀ island ∈ (values.filterMap (parseIsland platform)).map
      (resolveParent (values.filterMap (parseIsland platform))),
      ∃ again, parseIsland platform island = some again ∧
        (content again, idAndParent again) = (content island, idAndParent island) := by
  intro _ hmem
  obtain ⟨island, hisland, rfl⟩ := List.mem_map.mp hmem
  obtain ⟨_, -, hisland⟩ := List.mem_filterMap.mp hisland
  obtain ⟨props, rfl, himported⟩ := imported_parseIsland platform hisland
  obtain ⟨resolved, hresolved, himported⟩ :=
    imported_resolveParent (values.filterMap (parseIsland platform)) himported
  rw [hresolved]
  obtain ⟨again, hagain, hnodup, hsame⟩ := himported.exists_parseIsland
  obtain ⟨_, -, hsettled⟩ := himported
  have hcontent := (content_object_eq_iff hnodup hsettled.nodup).mpr hsame
  have hpair : idAndParent (.object again) = idAndParent (.object resolved) :=
    Prod.ext (hsame.string? "id") (hsame.string? "parentIslandId")
  exact ⟨_, hagain, by rw [hcontent, hpair]⟩

theorem parseIslands_again {value result : JsValue}
    (hread : parseIslands platform value = some result) :
    ∃ again, parseIslands platform result = some again ∧ content again = content result := by
  cases value with
  | array values =>
      cases hread
      have hmap := map_filterMap_of_forall
        (@exists_parseIsland_resolved platform values)
      generalize values.filterMap (parseIsland platform) = islands at hmap
      refine ⟨_, rfl, ?_⟩
      generalize (islands.map (resolveParent islands)).filterMap (parseIsland platform) = again
        at hmap
      have hcontent := congrArg (List.map Prod.fst) hmap
      have hpairs := congrArg (List.map Prod.snd) hmap
      rw [List.map_map, List.map_map] at hcontent hpairs
      have hparents : ∀ island ∈ again, resolveParent again island = island := by
        intro island hisland
        have hmem := List.mem_map_of_mem (f := idAndParent) hisland
        have hpairs' : again.map idAndParent = (islands.map (resolveParent islands)).map
          idAndParent := hpairs
        rw [hpairs'] at hmem
        obtain ⟨_, hmem, hpair⟩ := List.mem_map.mp hmem
        obtain ⟨source, -, rfl⟩ := List.mem_map.mp hmem
        rw [idAndParent, idAndParent, Prod.mk.injEq, id_resolveParent,
          parentIslandId_resolveParent] at hpair
        unfold resolveParent
        dsimp only
        rw [if_pos]
        rw [resolveParentIslandId_congr hpairs', ← hpair.1, ← hpair.2,
          resolveParentIslandId_resolved]
      rw [content_array, content_array, List.map_congr_left hparents, List.map_id']
      exact congrArg JsValue.array hcontent
  | _ => contradiction

end Parents

section Cards

theorem settled_parseCard {value card : JsValue} (hread : parseCard value = some card) :
    ∃ props, card = .object props ∧ Settled cardProperties props := by
  obtain ⟨-, props, hprops, rfl⟩ := record_eq_some.mp hread
  exact ⟨props, rfl, settled_readProps nodup_cardProperties stable_cardProperties hprops⟩

theorem settled_shelveCard (shelved : List String) (hsettled : Settled cardProperties props) :
    ∃ marked : Props, shelveCard shelved (.object props) = .object marked ∧
      Settled cardProperties marked ∧ marked.string? "id" = props.string? "id" ∧
        ((props.string? "id").any shelved.contains = true →
          marked.get "holdState" = some (.string "shelved")) := by
  by_cases hshelved : (props.string? "id").any shelved.contains = true
  · have hmem : may "holdState" (literal ["held", "pending", "shelved"]) ∈ cardProperties := by
      simp [cardProperties]
    have hvalue : (may "holdState" (literal ["held", "pending", "shelved"])).read
        (some (.string "shelved")) = some (some (.string "shelved")) := by decide
    refine ⟨_, if_pos hshelved, hsettled.put nodup_cardProperties hmem hvalue, ?_, fun _ => ?_⟩
    · exact (Props.string?_put _ _ _ _).trans (if_neg (by decide))
    · exact (Props.get_put _ _ _ _).trans (if_pos rfl)
  · exact ⟨props, if_neg hshelved, hsettled, rfl, fun h => absurd h hshelved⟩

theorem content_shelveCard {shelved : List String} {props marked again : Props}
    (hid : marked.string? "id" = props.string? "id")
    (hshelved : (props.string? "id").any shelved.contains = true →
      marked.get "holdState" = some (.string "shelved"))
    (hnodup : (Props.names marked).Nodup) (hnodupAgain : (Props.names again).Nodup)
    (hsame : SameProps again marked) :
    content (shelveCard shelved (.object again)) = content (.object marked) := by
  have hidAgain : again.string? "id" = props.string? "id" := (hsame.string? "id").trans hid
  unfold shelveCard
  change content (if (again.string? "id").any shelved.contains then _ else _) = _
  rw [hidAgain]
  split
  next hmem =>
    refine (content_object_eq_iff (Props.nodup_names_put hnodupAgain _ _) hnodup).mpr fun key => ?_
    rw [Props.get_put]
    split
    next hkey => rw [hkey, hshelved hmem]
    next => exact hsame key
  next => exact (content_object_eq_iff hnodupAgain hnodup).mpr hsame

/-- Cards are read again as they are marked, up to their content. -/
theorem parseCards_again {value : JsValue} {cards : List JsValue}
    (hread : parseCards value = some cards) (shelved : List String) :
    ∃ again, parseCards (.array (cards.map (shelveCard shelved))) = some again ∧
      cardIds again = cardIds cards ∧
        (again.map (shelveCard shelved)).map content =
          (cards.map (shelveCard shelved)).map content := by
  have hcards : ∀ card ∈ cards, ∃ props, card = .object props ∧ Settled cardProperties props := by
    cases value with
    | array values => exact forall_of_mapM hread fun _ _ _ hcard => settled_parseCard hcard
    | _ => contradiction
  have hagain : ∀ card ∈ cards, ∃ again, parseCard (shelveCard shelved card) = some again ∧
      (again.props.string? "id", content (shelveCard shelved again)) =
        (card.props.string? "id", content (shelveCard shelved card)) := by
    intro card hcard
    obtain ⟨props, rfl, hsettled⟩ := hcards card hcard
    obtain ⟨marked, hmarked, hsettled, hid, hshelved⟩ := settled_shelveCard shelved hsettled
    obtain ⟨again, hagain, hnodup, hsame⟩ := hsettled.exists_readProps nodup_cardProperties
    rw [hmarked]
    refine ⟨.object again, record_eq_some.mpr ⟨rfl, again, hagain, rfl⟩, ?_⟩
    rw [content_shelveCard hid hshelved hsettled.nodup hnodup hsame]
    exact congrArg (·, _) ((hsame.string? "id").trans hid)
  obtain ⟨again, hparse, hmap⟩ := exists_mapM_iff.mpr hagain
  refine ⟨again, ?_, ?_, ?_⟩
  · rw [parseCards, List.mapM_map]
    exact hparse
  · have hids := congrArg (List.filterMap Prod.fst) hmap
    rwa [List.filterMap_map, List.filterMap_map] at hids
  · have hcontent := congrArg (List.map Prod.snd) hmap
    rw [List.map_map, List.map_map] at hcontent
    rw [List.map_map, List.map_map]
    exact hcontent

end Cards

/-! ## Documents -/

section Documents

variable {platform : Platform} {now : String}

/-- A date that can be read is written in one way. -/
theorem parseIsoDate_again {value : Option JsValue}
    (htimestamp : platform.dates.isTimestamp (value.bind JsValue.string?) = true)
    (now now' : String) :
    parseIsoDate platform (some (parseIsoDate platform value now)) now' =
      parseIsoDate platform value now := by
  have hread : ∃ result, value.bind (isoDate platform.dates) = some result := by
    rw [DateFormat.isTimestamp, Option.any_eq_true] at htimestamp
    obtain ⟨text, htext, hparse⟩ := htimestamp
    obtain ⟨time, hparse⟩ := Option.isSome_iff_exists.mp hparse
    obtain ⟨value, rfl, htext⟩ := Option.bind_eq_some_iff.mp htext
    refine ⟨.string (platform.dates.toISOString time), ?_⟩
    rw [Option.bind_some] at htext
    rw [Option.bind_some, isoDate, htext, Option.bind_some, hparse, Option.map_some]
  obtain ⟨result, hresult⟩ := hread
  obtain ⟨_, rfl, hstable⟩ := Option.bind_eq_some_iff.mp hresult
  rw [parseIsoDate, parseIsoDate, hresult, Option.getD_some, Option.bind_some,
    stable_isoDate platform.dates hstable, Option.getD_some]

theorem evidenceLinks_again (value : Option JsValue) :
    (((some ((value.bind parseEvidenceLinks).getD (.array []))).bind parseEvidenceLinks).getD
      (.array [])) = (value.bind parseEvidenceLinks).getD (.array []) := by
  cases hvalue : value.bind parseEvidenceLinks with
  | none => rfl
  | some result =>
      obtain ⟨_, rfl, hread⟩ := Option.bind_eq_some_iff.mp hvalue
      rw [Option.getD_some, Option.bind_some, stable_parseEvidenceLinks hread, Option.getD_some]

variable (platform)

/-- A document that was imported is imported again, and has the same content. -/
theorem validateImportedDocument_idempotent (now now' : String) {value document : JsValue}
    (hcreatedAt : platform.dates.isTimestamp (value.props.string? "createdAt") = true)
    (hupdatedAt : platform.dates.isTimestamp (value.props.string? "updatedAt") = true)
    (haccepted : validateImportedDocument platform now value = .ok document) :
    ∃ again, validateImportedDocument platform now' document = .ok again ∧
      content again = content document := by
  obtain ⟨transform, cards, hvalue, rfl⟩ := validateImportedDocument_eq_ok.mp haccepted
  obtain ⟨id, hid⟩ := hvalue.id
  obtain ⟨_, -, htransform⟩ := Option.bind_eq_some_iff.mp hvalue.transform
  obtain ⟨_, -, hcards⟩ := Option.bind_eq_some_iff.mp hvalue.cards
  obtain ⟨edges, hedges⟩ := hvalue.edges
  obtain ⟨islands, hislands⟩ := hvalue.islands
  obtain ⟨islandsAgain, hislandsAgain, hislandsContent⟩ :=
    @parseIslands_again platform (.array islands) _ rfl
  obtain ⟨cardsAgain, hcardsAgain, hcardIds, hcardsContent⟩ :=
    parseCards_again hcards (shelvedCardIds (shelfOf platform value.props cards))
  have hparts := @documentParts platform now value.props transform cards
  generalize hdocument : literalProps (documentSlots platform now value.props transform cards) =
    document at hparts
  have hshelf : shelfOf platform document cardsAgain = shelfOf platform value.props cards := by
    rw [shelfOf, hparts.shelf, shelfOf, hcardIds]
    exact bind_stable (stable_parseShelf _ _) _
  have hoptionals : (optionalReaders platform).map (fun entry =>
      (⟨entry.1, true, (document.get entry.1).bind entry.2⟩ : Slot)) =
        (optionalReaders platform).map fun entry =>
          ⟨entry.1, true, (value.props.get entry.1).bind entry.2⟩ := by
    apply List.map_congr_left
    intro entry hentry
    rw [hparts.optional entry hentry, bind_stable (stable_optionalReaders platform entry hentry)]
  have hislandsSlot := hparts.islands
  have hedgesSlot := hparts.edges
  rw [hislands] at hislandsSlot
  rw [hedges] at hedgesSlot
  have hagain : Accepted (.object document) transform cardsAgain := {
    isRecord := rfl
    version := hparts.version
    id := ⟨id, hparts.id.trans hid⟩
    transform := by
      change (document.get "transform").bind _ = _
      rw [hparts.transform]
      exact stable_parseTransform htransform
    cards := by
      change (document.get "cards").bind _ = _
      rw [hparts.cards]
      exact hcardsAgain
    edges := ⟨_, hedgesSlot⟩
    islands := ⟨_, hislandsSlot⟩ }
  refine ⟨_, validateImportedDocument_eq_ok.mpr ⟨transform, cardsAgain, hagain, rfl⟩, ?_⟩
  rw [← hdocument]
  apply content_literalProps (nodup_documentSlots _ _ _)
  rw [hdocument]
  change (documentSlots platform now' document transform cardsAgain).map _ = _
  have hislandsSame : ((document.get "islands").bind (parseIslands platform)).map content =
      ((value.props.get "islands").bind (parseIslands platform)).map content := by
    have hcontent := congrArg some hislandsContent
    rw [hislandsSlot, hislands]
    rwa [← Option.map_some, ← hislandsAgain] at hcontent
  unfold documentSlots
  dsimp only
  rw [hoptionals, hshelf, hparts.id, hparts.title, bind_stable stable_text, hparts.createdAt,
    hparts.updatedAt, parseIsoDate_again hcreatedAt, parseIsoDate_again hupdatedAt, hparts.edges,
    bind_stable stable_parseEdges, hparts.evidenceLinks, evidenceLinks_again, hparts.voids,
    bind_stable (stable_parseVoids _)]
  simp only [List.map_append, List.map_cons, Option.map_some, content_array, hcardsContent,
    hislandsSame]

end Documents

namespace ImportInputs

/-- A platform that knows one date, and no segments that meet. -/
def platform : Platform where
  dates := .instant "2024-05-01T00:00:00.000Z"
  segmentsIntersect _ _ _ _ := false

def triangle : JsValue := pointsToJs [⟨.zero, .zero⟩, ⟨.digit 4 (by decide), .zero⟩,
  ⟨.zero, .digit 4 (by decide)⟩]

/-- A document with a card on the shelf, an island with a polygon but no shape,
and an island whose parent is missing. -/
def value : JsValue := .object [
  ("version", some (.number .one)), ("id", some (.string "doc")),
  ("createdAt", some (.string "2024-05-01T00:00:00.000Z")),
  ("updatedAt", some (.string "2024-05-01T00:00:00.000Z")),
  ("transform", some originView),
  ("cards", some (.array [.object [("id", some (.string "c1")), ("text", some (.string "one")),
    ("x", some (.number .zero)), ("y", some (.number .zero)), ("color", some (.string "red"))]])),
  ("edges", some (.array [.null])),
  ("islands", some (.array [
    .object [("id", some (.string "i1")), ("cardIds", some (textArray ["c1"])),
      ("geometry", some (.object [("type", some (.string "polygon")), ("points", some triangle)]))],
    .object [("id", some (.string "i2")), ("cardIds", some (.array [])),
      ("parentIslandId", some (.string "i3"))]])),
  ("shelf", some (.array [.object [("cardId", some (.string "c1")),
    ("shelvedAt", some (.string "2024-05-01T00:00:00.000Z"))]]))]

theorem validateImportedDocument_idempotent_value :
    ∃ document, validateImportedDocument platform "now" value = .ok document ∧
      ∃ again, validateImportedDocument platform "later" document = .ok again ∧
        content again = content document :=
  ⟨_, rfl, @validateImportedDocument_idempotent platform "now" "later" value _ (by decide)
    (by decide) rfl⟩

end ImportInputs

end Importer

end KjAtlas
