import KjAtlas.Patch.Lint

/-! # Merge items

The difference between two documents is a list of items. An item adds an
entity, removes one, or changes one field of an entity that both documents
have. Edges and evidence links have no items for their fields.
-/

namespace KjAtlas

open Js

/-! ## Items -/

inductive MergeEntityKind where
  | card
  | island
  | edge
  | evidence
  | view
  | relationSummary
deriving DecidableEq

def MergeEntityKind.text : MergeEntityKind → String
  | .card => "card"
  | .island => "island"
  | .edge => "edge"
  | .evidence => "evidence"
  | .view => "view"
  | .relationSummary => "relationSummary"

inductive MergeItemKind where
  | cardAdd
  | cardRemove
  | cardField
  | islandAdd
  | islandRemove
  | islandField
  | edgeAdd
  | edgeRemove
  | evidenceAdd
  | evidenceRemove
  | relationSummaryField
  | viewField
deriving DecidableEq

def MergeItemKind.text : MergeItemKind → String
  | .cardAdd => "card.add"
  | .cardRemove => "card.remove"
  | .cardField => "card.field"
  | .islandAdd => "island.add"
  | .islandRemove => "island.remove"
  | .islandField => "island.field"
  | .edgeAdd => "edge.add"
  | .edgeRemove => "edge.remove"
  | .evidenceAdd => "evidence.add"
  | .evidenceRemove => "evidence.remove"
  | .relationSummaryField => "relationSummary.field"
  | .viewField => "view.field"

structure MergeItemRef where
  kind : MergeEntityKind
  id : String
deriving DecidableEq

/-- What an item shows of a document: an entity, the value of a field, or the
reading order. -/
inductive MergeValue where
  | entity (entity : Entity)
  | field (value : Option JsValue)
  | readingOrder (order : List String)
deriving DecidableEq

structure MergeItem where
  id : String
  kind : MergeItemKind
  entityRef : MergeItemRef
  field : Option String := none
  before : Option MergeValue := none
  after : Option MergeValue := none
  prerequisites : List MergeItemRef
deriving DecidableEq

/-- `toRefKey(ref)`, also called `toRefSetKey`. -/
def toRefKey (ref : MergeItemRef) : String := ref.kind.text ++ ":" ++ ref.id

def uniqueRefs (refs : List MergeItemRef) : List MergeItemRef := (mapBy toRefKey refs).values

/-! ## Entities under the names of the items -/

def EntityKind.mergeKind : EntityKind → MergeEntityKind
  | .card => .card
  | .island => .island
  | .edge => .edge
  | .relSummary => .relationSummary
  | .evidenceLink => .evidence

/-- The entity that a reference is about; none for the view. -/
def MergeItemRef.entityKey? (ref : MergeItemRef) : Option EntityKey :=
  match ref.kind with
  | .card => some ⟨.card, ref.id⟩
  | .island => some ⟨.island, ref.id⟩
  | .edge => some ⟨.edge, ref.id⟩
  | .relationSummary => some ⟨.relSummary, ref.id⟩
  | .evidence => some ⟨.evidenceLink, ref.id⟩
  | .view => none

theorem entityKey?_eq_some {ref : MergeItemRef} {key : EntityKey} :
    ref.entityKey? = some key ↔ ref = ⟨key.kind.mergeKind, key.id⟩ := by
  obtain ⟨refKind, refId⟩ := ref
  obtain ⟨kind, id⟩ := key
  cases refKind <;> cases kind <;> simp [MergeItemRef.entityKey?, EntityKind.mergeKind]

def EntityKind.addKind : EntityKind → MergeItemKind
  | .card => .cardAdd
  | .island => .islandAdd
  | .edge => .edgeAdd
  | .evidenceLink => .evidenceAdd
  | .relSummary => .relationSummaryField

def EntityKind.removeKind : EntityKind → MergeItemKind
  | .card => .cardRemove
  | .island => .islandRemove
  | .edge => .edgeRemove
  | .evidenceLink => .evidenceRemove
  | .relSummary => .relationSummaryField

def EntityKind.fieldKind : EntityKind → Option MergeItemKind
  | .card => some .cardField
  | .island => some .islandField
  | .edge => none
  | .evidenceLink => none
  | .relSummary => some .relationSummaryField

/-! ## The difference of two documents -/

/-- `object[key]`. Without an own property of the name, `__proto__` reads the
prototype; the functions that the prototype has are never serialized. -/
def readField (props : Props) (key : String) : Option JsValue :=
  if key = "__proto__" ∧ props.hasOwn key = false then some (.object []) else props.get key

def DocumentV1.entities (doc : DocumentV1) : EntityKind → List Entity
  | .card => doc.cards.map .card
  | .island => doc.islands.map .island
  | .edge => doc.edges.map .edge
  | .relSummary => doc.summaries.map .relationSummary
  | .evidenceLink => doc.links.map .evidenceLink

/-- `byId(items)`, and `relationSummaryBySignature(items)`. -/
def byId (doc : DocumentV1) (kind : EntityKind) : InsertionMap String Entity :=
  mapBy (fun entity => entity.key.id) (doc.entities kind)

section Diff

variable (lc : Collation)

/-- `stableSerialize(object[key])`. -/
def fieldText (props : Props) (key : String) : Option Text :=
  (readField props key).map (stableSerialize lc)

def changedFields (before after : Props) : List String :=
  sortOn lc.le id ((distinct (before.names ++ after.names)).filter fun key =>
    !decide (fieldText lc before key = fieldText lc after key))

def buildEntityItems (scope : String) (baseMap incomingMap : InsertionMap String Entity)
    (entityKind : MergeEntityKind) (addKind removeKind : MergeItemKind)
    (fieldKind : Option MergeItemKind) : List MergeItem :=
  (sortOn lc.le id (distinct (baseMap.keys ++ incomingMap.keys))).flatMap fun id =>
    match baseMap.get? id, incomingMap.get? id with
    | none, some after => [{
        id := addKind.text ++ ":" ++ id
        kind := addKind
        entityRef := ⟨entityKind, id⟩
        after := some (.entity after)
        prerequisites := [] }]
    | some before, none => [{
        id := removeKind.text ++ ":" ++ id
        kind := removeKind
        entityRef := ⟨entityKind, id⟩
        before := some (.entity before)
        prerequisites := [] }]
    | some before, some after =>
        match fieldKind with
        | some fieldKind => (changedFields lc before.props after.props).map fun field => {
            id := scope ++ ".field:" ++ id ++ ":" ++ field
            kind := fieldKind
            entityRef := ⟨entityKind, id⟩
            field := some field
            before := some (.field (readField before.props field))
            after := some (.field (readField after.props field))
            prerequisites := [] }
        | none => []
    | none, none => []

structure DocumentDiff where
  cards : List MergeItem
  islands : List MergeItem
  edges : List MergeItem
  evidence : List MergeItem

def computeDocumentDiff (baseDoc incomingDoc : DocumentV1) : DocumentDiff where
  cards := buildEntityItems lc "card" (byId baseDoc .card) (byId incomingDoc .card)
    .card .cardAdd .cardRemove (some .cardField)
  islands := buildEntityItems lc "island" (byId baseDoc .island) (byId incomingDoc .island)
    .island .islandAdd .islandRemove (some .islandField)
  edges := buildEntityItems lc "edge" (byId baseDoc .edge) (byId incomingDoc .edge)
    .edge .edgeAdd .edgeRemove none
  evidence :=
    buildEntityItems lc "evidence" (byId baseDoc .evidenceLink) (byId incomingDoc .evidenceLink)
      .evidence .evidenceAdd .evidenceRemove none ++
    buildEntityItems lc "relationSummary" (byId baseDoc .relSummary) (byId incomingDoc .relSummary)
      .relationSummary .relationSummaryField .relationSummaryField (some .relationSummaryField)

def flattenDocumentDiff (diff : DocumentDiff) : List MergeItem :=
  diff.cards ++ diff.islands ++ diff.edges ++ diff.evidence

def computeViewDiff (baseView incomingView : DocumentV1) : List MergeItem :=
  let readingOrderBefore := baseView.readingOrder.getD []
  let readingOrderAfter := incomingView.readingOrder.getD []
  if stableSerialize lc (.array (readingOrderBefore.map .string)) =
      stableSerialize lc (.array (readingOrderAfter.map .string)) then []
  else [{
    id := "view.field:readingOrder"
    kind := .viewField
    entityRef := ⟨.view, "document"⟩
    field := some "readingOrder"
    before := some (.readingOrder readingOrderBefore)
    after := some (.readingOrder readingOrderAfter)
    prerequisites := [] }]

end Diff

def computePrerequisites (baseDoc : DocumentV1) (item : MergeItem) : List MergeItemRef :=
  match item.kind with
  | .evidenceAdd =>
      match item.after with
      | some (.entity (.evidenceLink link)) =>
          uniqueRefs (([link.fromCardId, link.toCardId].filter fun cardId =>
            !(baseDoc.cards.any fun card => decide (card.id = cardId))).map fun cardId =>
              ⟨.card, cardId⟩)
      | _ => []
  | .cardRemove =>
      uniqueRefs ((baseDoc.links.filter fun link => link.touches item.entityRef.id).map fun link =>
        ⟨.evidence, link.id⟩)
  | _ => []

def attachPrerequisites (baseDoc : DocumentV1) (items : List MergeItem) : List MergeItem :=
  items.map fun item => { item with prerequisites := computePrerequisites baseDoc item }

def finalizeMergeItems (baseDoc : DocumentV1) (documentDiff viewDiff : List MergeItem) :
    List MergeItem :=
  attachPrerequisites baseDoc (documentDiff ++ viewDiff)

def buildMergeItems (lc : Collation) (baseDoc incomingDoc : DocumentV1) : List MergeItem :=
  finalizeMergeItems baseDoc (flattenDocumentDiff (computeDocumentDiff lc baseDoc incomingDoc))
    (computeViewDiff lc baseDoc incomingDoc)

/-! ## What the items say -/

theorem lookup_eq_findBy (doc : DocumentV1) (kind : EntityKind) (id : String) :
    doc.lookup ⟨kind, id⟩ = findBy (fun entity => entity.key.id) id (doc.entities kind) := by
  cases kind <;>
  · simp only [DocumentV1.lookup, DocumentV1.entities, findBy, List.find?_map]
    rfl

theorem map_entities_id (doc : DocumentV1) (kind : EntityKind) :
    (doc.entities kind).map (fun entity => entity.key.id) = doc.ids kind := by
  cases kind <;> exact List.map_map

variable {kind : EntityKind}

/-- With distinct ids, the map of a kind holds what is found in the document. -/
theorem byId_get? {doc : DocumentV1} (hunique : (doc.ids kind).Nodup) (id : String) :
    (byId doc kind).get? id = doc.lookup ⟨kind, id⟩ := by
  rw [lookup_eq_findBy]
  exact get?_mapBy _ (by rwa [map_entities_id]) id

theorem byId_get?_isSome (doc : DocumentV1) (kind : EntityKind) (id : String) :
    ((byId doc kind).get? id).isSome = (doc.lookup ⟨kind, id⟩).isSome := by
  rw [Bool.eq_iff_iff, lookup_eq_findBy, findBy_isSome]
  exact InsertionMap.has_ofList_map (fun entity : Entity => entity.key.id) (fun entity => entity)
    (doc.entities kind) id

/-- The difference between two documents that an item stands for. -/
inductive Describes (baseDoc incomingDoc : DocumentV1) (item : MergeItem) : Prop where
  | added (kind : EntityKind) (id : String) (hkind : item.kind = kind.addKind)
      (href : item.entityRef = ⟨kind.mergeKind, id⟩) (hbase : baseDoc.lookup ⟨kind, id⟩ = none)
      (hincoming : (incomingDoc.lookup ⟨kind, id⟩).isSome)
  | removed (kind : EntityKind) (id : String) (hkind : item.kind = kind.removeKind)
      (href : item.entityRef = ⟨kind.mergeKind, id⟩) (hbase : (baseDoc.lookup ⟨kind, id⟩).isSome)
      (hincoming : incomingDoc.lookup ⟨kind, id⟩ = none)
  | changed (kind : EntityKind) (id field : String) (hkind : some item.kind = kind.fieldKind)
      (href : item.entityRef = ⟨kind.mergeKind, id⟩) (hfield : item.field = some field)
      (hbase : (baseDoc.lookup ⟨kind, id⟩).isSome)
      (hincoming : (incomingDoc.lookup ⟨kind, id⟩).isSome)
  | view (hkind : item.kind = .viewField) (href : item.entityRef = ⟨.view, "document"⟩)
      (hfield : item.field = some "readingOrder")

section Contents

variable (lc : Collation) {baseDoc incomingDoc : DocumentV1}

def entityItems (baseDoc incomingDoc : DocumentV1) (kind : EntityKind) : List MergeItem :=
  buildEntityItems lc kind.mergeKind.text (byId baseDoc kind) (byId incomingDoc kind)
    kind.mergeKind kind.addKind kind.removeKind kind.fieldKind

theorem flattenDocumentDiff_eq (baseDoc incomingDoc : DocumentV1) :
    flattenDocumentDiff (computeDocumentDiff lc baseDoc incomingDoc) =
      [EntityKind.card, .island, .edge, .evidenceLink, .relSummary].flatMap
        (entityItems lc baseDoc incomingDoc) := by
  simp only [flattenDocumentDiff, List.flatMap_cons, List.flatMap_nil, List.append_nil,
    List.append_assoc]
  rfl

variable {item : MergeItem}

theorem mem_flattenDocumentDiff :
    item ∈ flattenDocumentDiff (computeDocumentDiff lc baseDoc incomingDoc) ↔
      ∃ kind, item ∈ entityItems lc baseDoc incomingDoc kind := by
  rw [flattenDocumentDiff_eq, List.mem_flatMap]
  constructor
  · rintro ⟨kind, -, hitem⟩
    exact ⟨kind, hitem⟩
  · rintro ⟨kind, hitem⟩
    exact ⟨kind, by cases kind <;> decide, hitem⟩

theorem describes_of_mem_entityItems (hitem : item ∈ entityItems lc baseDoc incomingDoc kind) :
    Describes baseDoc incomingDoc item := by
  obtain ⟨id, -, hitem⟩ := List.mem_flatMap.mp hitem
  have hbase := byId_get?_isSome baseDoc kind id
  have hincoming := byId_get?_isSome incomingDoc kind id
  split at hitem
  next after hbefore hafter =>
    rw [hbefore, Option.isSome_none, eq_comm, Option.isSome_eq_false_iff,
      Option.isNone_iff_eq_none] at hbase
    rw [hafter] at hincoming
    rw [List.mem_singleton.mp hitem]
    exact .added kind id rfl rfl hbase hincoming.symm
  next before hbefore hafter =>
    rw [hafter, Option.isSome_none, eq_comm, Option.isSome_eq_false_iff,
      Option.isNone_iff_eq_none] at hincoming
    rw [hbefore] at hbase
    rw [List.mem_singleton.mp hitem]
    exact .removed kind id rfl rfl hbase.symm hincoming
  next before after hbefore hafter =>
    rw [hbefore] at hbase
    rw [hafter] at hincoming
    cases hkind : kind.fieldKind with
    | none => simp [hkind] at hitem
    | some fieldKind =>
        rw [hkind] at hitem
        obtain ⟨field, -, rfl⟩ := List.mem_map.mp hitem
        exact .changed kind id field hkind.symm rfl rfl hbase.symm hincoming.symm
  next => contradiction

theorem entityRef_of_mem_entityItems (hitem : item ∈ entityItems lc baseDoc incomingDoc kind) :
    item.entityRef.kind = kind.mergeKind := by
  obtain ⟨id, -, hitem⟩ := List.mem_flatMap.mp hitem
  split at hitem
  next => rw [List.mem_singleton.mp hitem]
  next => rw [List.mem_singleton.mp hitem]
  next =>
    split at hitem
    next =>
      obtain ⟨field, -, rfl⟩ := List.mem_map.mp hitem
      rfl
    next => contradiction
  next => contradiction

theorem Describes.attach (hitem : Describes baseDoc incomingDoc item)
    (prerequisites : List MergeItemRef) :
    Describes baseDoc incomingDoc { item with prerequisites } := by
  cases hitem with
  | added kind id hkind href hbase hincoming => exact .added kind id hkind href hbase hincoming
  | removed kind id hkind href hbase hincoming => exact .removed kind id hkind href hbase hincoming
  | changed kind id field hkind href hfield hbase hincoming =>
      exact .changed kind id field hkind href hfield hbase hincoming
  | view hkind href hfield => exact .view hkind href hfield

/-- Every item stands for a difference. -/
theorem describes_of_mem_buildMergeItems (hitem : item ∈ buildMergeItems lc baseDoc incomingDoc) :
    Describes baseDoc incomingDoc item := by
  obtain ⟨source, hsource, rfl⟩ := List.mem_map.mp hitem
  apply Describes.attach
  rcases List.mem_append.mp hsource with hentity | hview
  · obtain ⟨kind, hentity⟩ := (mem_flattenDocumentDiff lc).mp hentity
    exact describes_of_mem_entityItems lc hentity
  · unfold computeViewDiff at hview
    dsimp only at hview
    split at hview
    · contradiction
    · rw [List.mem_singleton.mp hview]
      exact .view rfl rfl rfl

/-- Whether the values of every field agree. -/
def SameFields (left right : Entity) : Prop :=
  ∀ field, fieldText lc left.props field = fieldText lc right.props field

theorem readField_of_not_mem {props : Props} {key : String} (hkey : key ∉ props.names) :
    readField props key = if key = "__proto__" then some (.object []) else none := by
  have hown : props.hasOwn key = false := by
    rw [Props.hasOwn, List.any_eq_false]
    intro prop hprop
    rw [decide_eq_true_eq]
    rintro rfl
    exact hkey (List.mem_map_of_mem hprop)
  have hget : props.get key = none := by
    cases hvalue : props.get key with
    | none => rfl
    | some value => exact absurd (List.mem_map_of_mem (Props.mem_of_get hvalue)) hkey
  rw [readField, hown, hget]
  simp only [and_true]

theorem sameFields_of_changedFields {left right : Entity}
    (hnone : changedFields lc left.props right.props = []) : SameFields lc left right := by
  intro field
  by_cases hfield : field ∈ distinct (left.props.names ++ right.props.names)
  · by_contra hdiffers
    have hmem : field ∈ changedFields lc left.props right.props := by
      rw [changedFields, sortOn.mem, List.mem_filter]
      exact ⟨hfield, by simpa using hdiffers⟩
    rw [hnone] at hmem
    contradiction
  · rw [mem_distinct, List.mem_append, not_or] at hfield
    rw [fieldText, fieldText, readField_of_not_mem hfield.1, readField_of_not_mem hfield.2]

theorem exists_item_of_mem_entityItems (hitem : item ∈ entityItems lc baseDoc incomingDoc kind) :
    ∃ other ∈ buildMergeItems lc baseDoc incomingDoc, other.entityRef = item.entityRef :=
  ⟨_, List.mem_map_of_mem (List.mem_append_left _ ((mem_flattenDocumentDiff lc).mpr ⟨kind, hitem⟩)),
    rfl⟩

theorem agree_of_no_item (hbase : baseDoc.UniqueIds) (hincoming : incomingDoc.UniqueIds)
    {id : String} (hnone : ∀ item ∈ buildMergeItems lc baseDoc incomingDoc,
      item.entityRef ≠ ⟨kind.mergeKind, id⟩) :
    Option.Rel (fun before after => kind.fieldKind ≠ none → SameFields lc before after)
      (baseDoc.lookup ⟨kind, id⟩) (incomingDoc.lookup ⟨kind, id⟩) := by
  have hbaseGet := byId_get? (hbase kind) id
  have hincomingGet := byId_get? (hincoming kind) id
  have hno : ∀ item ∈ entityItems lc baseDoc incomingDoc kind,
      item.entityRef ≠ ⟨kind.mergeKind, id⟩ := by
    intro item hitem href
    obtain ⟨other, hother, hotherRef⟩ := exists_item_of_mem_entityItems lc hitem
    exact hnone other hother (hotherRef.trans href)
  have hkeys : ∀ entity, (byId baseDoc kind).get? id = some entity ∨
      (byId incomingDoc kind).get? id = some entity →
        id ∈ sortOn lc.le (fun key => key)
          (distinct ((byId baseDoc kind).keys ++ (byId incomingDoc kind).keys)) := by
    intro entity hentity
    rw [sortOn.mem, mem_distinct, List.mem_append, InsertionMap.mem_keys, InsertionMap.mem_keys]
    rcases hentity with hentity | hentity <;> simp [hentity]
  rw [← hbaseGet, ← hincomingGet]
  cases hbefore : (byId baseDoc kind).get? id with
  | none =>
      cases hafter : (byId incomingDoc kind).get? id with
      | none => exact .none
      | some after =>
          have hadd := fun item hitem =>
            hno item (List.mem_flatMap.mpr ⟨id, hkeys after (.inr hafter), hitem⟩)
          simp only [hbefore, hafter, List.mem_singleton, forall_eq] at hadd
          exact absurd rfl hadd
  | some before =>
      cases hafter : (byId incomingDoc kind).get? id with
      | none =>
          have hremove := fun item hitem =>
            hno item (List.mem_flatMap.mpr ⟨id, hkeys before (.inl hbefore), hitem⟩)
          simp only [hbefore, hafter, List.mem_singleton, forall_eq] at hremove
          exact absurd rfl hremove
      | some after =>
          refine .some fun hfieldKind => ?_
          obtain ⟨fieldKind, hfieldKind⟩ := Option.ne_none_iff_exists'.mp hfieldKind
          apply sameFields_of_changedFields
          rw [List.eq_nil_iff_forall_not_mem]
          intro field hfield
          have hchange := fun item hitem =>
            hno item (List.mem_flatMap.mpr ⟨id, hkeys before (.inl hbefore), hitem⟩)
          simp only [hbefore, hafter, hfieldKind] at hchange
          exact absurd rfl (hchange _ (List.mem_map_of_mem hfield))

theorem readingOrder_of_no_view_item
    (hnone : ∀ item ∈ buildMergeItems lc baseDoc incomingDoc, item.kind ≠ .viewField) :
    baseDoc.readingOrder.getD [] = incomingDoc.readingOrder.getD [] := by
  by_contra hdiffers
  have htexts : stableSerialize lc (.array ((baseDoc.readingOrder.getD []).map .string)) ≠
      stableSerialize lc (.array ((incomingDoc.readingOrder.getD []).map .string)) := by
    intro heq
    apply hdiffers
    have hform : ∀ order : List String,
        finiteForm (sortedForm lc (.array (order.map .string))) = .array (order.map .string) := by
      intro order
      rw [sortedForm_array, finiteForm_array, List.map_map, List.map_map]
      rfl
    rw [stableSerialize_eq_iff, hform, hform, JsValue.array.injEq] at heq
    exact List.map_injective_iff.mpr (fun _ _ => JsValue.string.inj) heq
  have hview : computeViewDiff lc baseDoc incomingDoc ≠ [] := by
    unfold computeViewDiff
    rw [if_neg htexts]
    exact List.cons_ne_nil _ _
  obtain ⟨item, hitem⟩ := List.exists_mem_of_ne_nil _ hview
  have hkind : item.kind = .viewField := by
    unfold computeViewDiff at hitem
    rw [if_neg htexts] at hitem
    rw [List.mem_singleton.mp hitem]
  exact hnone _ (List.mem_map_of_mem (List.mem_append_right _ hitem)) hkind

theorem fieldText_of_stableSerialize {left right : Props}
    (heq : stableSerialize lc (.object left) = stableSerialize lc (.object right))
    (field : String) : fieldText lc left field = fieldText lc right field := by
  rw [stableSerialize_eq_iff, sortedForm_object, sortedForm_object, finiteForm_object,
    finiteForm_object, JsValue.object.injEq] at heq
  have hvalues : (left.get field).map (stableSerialize lc) =
      (right.get field).map (stableSerialize lc) := by
    have hget := congrArg (fun props => Props.get props field) heq
    unfold propForm at hget
    rw [Props.get_map, Props.get_map, Props.get_map, Props.get_map, Props.get_sort,
      Props.get_sort] at hget
    cases hleft : left.get field with
    | none => cases hright : right.get field <;> simp [hleft, hright] at hget ⊢
    | some mine =>
        cases hright : right.get field with
        | none => simp [hleft, hright] at hget
        | some yours =>
            rw [hleft, hright] at hget
            exact congrArg some ((stableSerialize_eq_iff lc).mpr (Option.some.inj hget))
  have hown : left.hasOwn field = right.hasOwn field := by
    have hnames := congrArg (fun props => decide (field ∈ props.map Prod.fst)) heq
    simp only [List.map_map, Function.comp_def, propForm] at hnames
    have hmem : ∀ props : Props, decide (field ∈ (Props.sort lc.le props).map Prod.fst) =
        props.hasOwn field := by
      intro props
      rw [Props.hasOwn_eq_decide]
      exact decide_eq_decide.mpr ((sortOn.perm lc.le Prod.fst props).map _).mem_iff
    rw [← hmem, ← hmem]
    exact hnames
  rw [fieldText, fieldText, readField, readField, hown]
  split
  · rfl
  · exact hvalues

end Contents

end KjAtlas
