import KjAtlas.Patch.Apply
import KjAtlas.Patch.Fingerprint

/-! # What equal fingerprints say about patches

Canonical texts forget the order of the operations. Two patches read from JSON
that have one canonical text, and whose operations have their ids in the same
order, do the same to every document.
-/

namespace KjAtlas

open Js

variable {value : JsValue} {props : Props}

/-- Normalization changes a value read from JSON in the order of properties only. -/
theorem normalizeValue_eq_content (hvalue : jsonValue value = true) :
    normalizeValue value = content value := by
  induction value using JsValue.induction with
  | null => rfl
  | bool b => rfl
  | number n =>
      have hfinite : n.isFinite = true := hvalue
      simp [normalizeValue, content, JsValue.fold, hfinite]
  | string s => rfl
  | array items ih =>
      rw [jsonValue_array, List.all_eq_true] at hvalue
      rw [normalizeValue_array, content_array]
      exact congrArg JsValue.array
        (List.map_congr_left fun item hitem => ih item hitem (hvalue item hitem))
  | object props ih =>
      have hprops := jsonValue_object_iff.mp hvalue
      have hdefined : Props.defined props = props := by
        refine List.filter_eq_self.mpr fun prop hprop => ?_
        obtain ⟨value, hslot, -⟩ := hprops.values prop hprop
        rw [hslot]
        rfl
      rw [normalizeValue_object_of_plain hprops.plain, content_object, contentProps, hdefined]
      congr 2
      apply List.map_congr_left
      rintro ⟨key, value⟩ hprop
      obtain ⟨value, rfl, hvalue⟩ := hprops.values _ hprop
      simp [normalizedSlot, ih key value hprop hvalue]

/-! ## Documents that agree -/

structure Entity.SameContent (left right : Entity) : Prop where
  key : left.key = right.key
  touches : left.touches = right.touches
  content : content left.toJs = content right.toJs

/-- Documents that agree up to the content of their entities. -/
structure DocumentV1.SameContent (left right : DocumentV1) : Prop where
  id : left.id = right.id
  updatedAt : left.updatedAt = right.updatedAt
  readingOrder : left.readingOrder = right.readingOrder
  rest : left.rest = right.rest
  cards : List.Forall₂ (fun card card' => (Entity.card card).SameContent (.card card'))
    left.cards right.cards
  islands : List.Forall₂ (fun island island' =>
    (Entity.island island).SameContent (.island island')) left.islands right.islands
  edges : List.Forall₂ (fun edge edge' => (Entity.edge edge).SameContent (.edge edge'))
    left.edges right.edges
  hasSummaries : left.relationSummaries.isSome = right.relationSummaries.isSome
  summaries : List.Forall₂ (fun summary summary' =>
    (Entity.relationSummary summary).SameContent (.relationSummary summary'))
    left.summaries right.summaries
  hasLinks : left.evidenceLinks.isSome = right.evidenceLinks.isSome
  links : List.Forall₂ (fun link link' =>
    (Entity.evidenceLink link).SameContent (.evidenceLink link')) left.links right.links

theorem Entity.SameContent.refl (entity : Entity) : entity.SameContent entity := ⟨rfl, rfl, rfl⟩

theorem DocumentV1.SameContent.refl (doc : DocumentV1) : doc.SameContent doc where
  id := rfl
  updatedAt := rfl
  readingOrder := rfl
  rest := rfl
  cards := List.forall₂_same.mpr fun _ _ => .refl _
  islands := List.forall₂_same.mpr fun _ _ => .refl _
  edges := List.forall₂_same.mpr fun _ _ => .refl _
  hasSummaries := rfl
  summaries := List.forall₂_same.mpr fun _ _ => .refl _
  hasLinks := rfl
  links := List.forall₂_same.mpr fun _ _ => .refl _

/-- Operations that write one content under one key, or delete one entity. -/
inductive PatchChange.SameContent : PatchChange → PatchChange → Prop where
  | upsertCard {card card' : Card} (h : (Entity.card card).SameContent (.card card')) :
      SameContent (.upsertCard card) (.upsertCard card')
  | deleteCard (cardId : String) : SameContent (.deleteCard cardId) (.deleteCard cardId)
  | upsertIsland {island island' : Island}
      (h : (Entity.island island).SameContent (.island island')) :
      SameContent (.upsertIsland island) (.upsertIsland island')
  | deleteIsland (islandId : String) : SameContent (.deleteIsland islandId) (.deleteIsland islandId)
  | upsertEdge {edge edge' : Edge} (h : (Entity.edge edge).SameContent (.edge edge')) :
      SameContent (.upsertEdge edge) (.upsertEdge edge')
  | deleteEdge (edgeId : String) : SameContent (.deleteEdge edgeId) (.deleteEdge edgeId)
  | upsertRelationSummary {summary summary' : RelationSummary}
      (h : (Entity.relationSummary summary).SameContent (.relationSummary summary')) :
      SameContent (.upsertRelationSummary summary) (.upsertRelationSummary summary')
  | deleteRelationSummary (signature : String) :
      SameContent (.deleteRelationSummary signature) (.deleteRelationSummary signature)
  | upsertEvidenceLink {link link' : EvidenceLink}
      (h : (Entity.evidenceLink link).SameContent (.evidenceLink link')) :
      SameContent (.upsertEvidenceLink link) (.upsertEvidenceLink link')
  | deleteEvidenceLink (linkId : String) :
      SameContent (.deleteEvidenceLink linkId) (.deleteEvidenceLink linkId)

section Step

variable {α : Type} {R : α → α → Prop} (key : α → String)

theorem forall₂_upsertById (hkey : ∀ {x y}, R x y → key x = key y) {xs ys : List α}
    (hitems : List.Forall₂ R xs ys) {value value' : α} (hvalue : R value value') :
    List.Forall₂ R (upsertById key xs value) (upsertById key ys value') := by
  rw [upsertById_eq_upsertBy, upsertById_eq_upsertBy]
  induction hitems with
  | nil => exact .cons hvalue .nil
  | @cons x y xs ys hhead htail ih =>
      rw [upsertBy, upsertBy, hkey hhead, hkey hvalue]
      split
      · exact .cons hvalue htail
      · exact .cons hhead ih

theorem forall₂_filter {keep keep' : α → Bool} (hkeep : ∀ {x y}, R x y → keep x = keep' y)
    {xs ys : List α} (hitems : List.Forall₂ R xs ys) :
    List.Forall₂ R (xs.filter keep) (ys.filter keep') :=
  List.rel_filter (fun _ _ h => iff_of_eq (congrArg (· = true) (hkeep h))) hitems

end Step

theorem Entity.SameContent.id {left right : Entity} (h : left.SameContent right) :
    left.key.id = right.key.id :=
  congrArg EntityKey.id h.key

/-- One operation keeps documents in agreement. -/
theorem DocumentV1.SameContent.applyPatchOp {left right : DocumentV1}
    (hdoc : left.SameContent right) {op op' : PatchOp} (hop : op.change.SameContent op'.change) :
    (applyPatchOp left op).SameContent (applyPatchOp right op') := by
  have hfilter : ∀ {α : Type} {R : α → α → Prop} (idOf : α → String),
      (∀ {x y}, R x y → idOf x = idOf y) → ∀ (id : String) {xs ys : List α},
        List.Forall₂ R xs ys → List.Forall₂ R (xs.filter fun x => !decide (idOf x = id))
          (ys.filter fun y => !decide (idOf y = id)) := by
    intro α R idOf hid id xs ys hitems
    exact forall₂_filter (fun h => by rw [hid h]) hitems
  obtain ⟨id, change⟩ := op
  obtain ⟨id', change'⟩ := op'
  cases hop with
  | upsertCard hcard =>
      exact { hdoc with
        cards := forall₂_upsertById Card.id Entity.SameContent.id hdoc.cards hcard }
  | deleteCard cardId =>
      exact { hdoc with
        cards := hfilter Card.id Entity.SameContent.id cardId hdoc.cards
        hasLinks := rfl
        links := forall₂_filter (fun h => congrArg not (congrFun h.touches cardId)) hdoc.links }
  | upsertIsland hisland =>
      exact { hdoc with
        islands := forall₂_upsertById Island.id Entity.SameContent.id hdoc.islands hisland }
  | deleteIsland islandId =>
      exact { hdoc with
        islands := hfilter Island.id Entity.SameContent.id islandId hdoc.islands }
  | upsertEdge hedge =>
      exact { hdoc with
        edges := forall₂_upsertById Edge.id Entity.SameContent.id hdoc.edges hedge }
  | deleteEdge edgeId =>
      exact { hdoc with edges := hfilter Edge.id Entity.SameContent.id edgeId hdoc.edges }
  | upsertRelationSummary hsummary =>
      exact { hdoc with
        hasSummaries := rfl
        summaries := forall₂_upsertById RelationSummary.sourceSignature Entity.SameContent.id
          hdoc.summaries hsummary }
  | deleteRelationSummary signature =>
      exact { hdoc with
        hasSummaries := rfl
        summaries := hfilter RelationSummary.sourceSignature Entity.SameContent.id signature
          hdoc.summaries }
  | upsertEvidenceLink hlink =>
      exact { hdoc with
        hasLinks := rfl
        links := forall₂_upsertById EvidenceLink.id Entity.SameContent.id hdoc.links hlink }
  | deleteEvidenceLink linkId =>
      exact { hdoc with
        hasLinks := rfl
        links := hfilter EvidenceLink.id Entity.SameContent.id linkId hdoc.links }

/-- Sequences of operations that agree keep documents in agreement. -/
theorem DocumentV1.SameContent.applyPatchOps {left right : DocumentV1}
    (hdoc : left.SameContent right) {ops ops' : List PatchOp}
    (hops : List.Forall₂ (fun op op' => op.change.SameContent op'.change) ops ops') :
    (applyPatchOps ops left).SameContent (applyPatchOps ops' right) :=
  List.rel_foldl (fun _ _ hdoc _ _ hop => hdoc.applyPatchOp hop) hdoc hops

/-! ## Operations read from JSON -/

theorem jsonValue_rebuild {fields : Props} (hrebuild : rebuild fields = some value)
    (hnodup : (Props.names fields).Nodup) (hplain : plainProps fields)
    (hvalues : ∀ prop ∈ fields, ∀ value, prop.2 = some value → jsonValue value = true) :
    jsonValue value = true := by
  unfold rebuild at hrebuild
  split at hrebuild
  · contradiction
  · rw [← Option.some.inj hrebuild, jsonValue_object_iff]
    refine ⟨hnodup.sublist (List.filter_sublist.map _),
      fun hmem => hplain ((List.filter_sublist.map _).mem hmem), fun prop hprop => ?_⟩
    obtain ⟨hmem, hsome⟩ := List.mem_filter.mp hprop
    obtain ⟨value, hvalue⟩ := Option.isSome_iff_exists.mp hsome
    exact ⟨value, hvalue, hvalues prop hmem value hvalue⟩

theorem jsonValue_nonEmptyText? {key : String} (hvalue : nonEmptyText? props key = some value) :
    jsonValue value = true := by
  unfold nonEmptyText? at hvalue
  split at hvalue
  · split at hvalue
    · rw [← Option.some.inj hvalue]
      rfl
    · contradiction
  · contradiction

theorem jsonValue_sanitizedMeta (hvalue : sanitizedMeta props = some value) :
    jsonValue value = true := by
  refine jsonValue_rebuild hvalue (by simp [Props.names]) (by simp [plainProps, Props.names]) ?_
  rw [List.forall_mem_cons, List.forall_mem_singleton]
  refine ⟨fun value hseq => ?_, fun value => jsonValue_nonEmptyText?⟩
  obtain ⟨seq, -, hseq⟩ := Option.bind_eq_some_iff.mp hseq
  obtain ⟨n, hfinite, rfl⟩ := Option.map_eq_some_iff.mp hseq
  unfold JsValue.finite? at hfinite
  split at hfinite
  · split at hfinite
    next hn =>
      rw [← Option.some.inj hfinite]
      exact hn
    next => contradiction
  · contradiction

theorem jsonValue_sanitizedKa (hvalue : sanitizedKa props = some value) :
    jsonValue value = true := by
  refine jsonValue_rebuild hvalue (by simp [Props.names]) (by simp [plainProps, Props.names]) ?_
  rw [List.forall_mem_cons, List.forall_mem_singleton]
  exact ⟨fun value => jsonValue_nonEmptyText?, fun value => jsonValue_nonEmptyText?⟩

theorem jsonProps_sanitize {key : String} {sanitized : Props → Option JsValue} {card card' : Props}
    (hkey : key ≠ "__proto__")
    (hsanitized : ∀ {props value}, sanitized props = some value → jsonValue value = true)
    (hcard : JsonProps card) (hsanitize : sanitize key sanitized card = some card') :
    JsonProps card' := by
  unfold sanitize at hsanitize
  split at hsanitize
  · exact Option.some.inj hsanitize ▸ hcard
  · split at hsanitize
    · split at hsanitize
      next new hnew =>
        have hrest := hcard.filter fun prop => !decide (prop.1 = key)
        rw [← Option.some.inj hsanitize]
        refine ⟨?_, ?_, ?_⟩
        · rw [Props.names, List.map_append, List.nodup_append]
          refine ⟨hrest.nodup, by simp, ?_⟩
          rintro name hname _ hnew rfl
          obtain ⟨prop, hprop, rfl⟩ := List.mem_map.mp hname
          have hne := (List.mem_filter.mp hprop).2
          simp_all
        · rw [plainProps, Props.names, List.map_append, List.mem_append, not_or]
          exact ⟨hrest.plain, by simpa using Ne.symm hkey⟩
        · intro prop hprop
          rcases mem_snoc.mp hprop with hold | hmem
          · exact hrest.values prop hold
          · rw [hmem]
            exact ⟨new, rfl, hsanitized hnew⟩
      next => exact Option.some.inj hsanitize ▸ hcard.filter _
    · contradiction

theorem jsonProps_parseCard {card : Card} (hvalue : jsonValue value = true)
    (hcard : parseCard value = some card) : JsonProps card.props := by
  simp only [parseCard, Option.ite_none_right_eq_some, Option.bind_eq_some_iff] at hcard
  obtain ⟨-, withKa, ⟨withMeta, hmeta, hka⟩, hcard⟩ := hcard
  rw [Card.props_of_ofProps? hcard]
  exact jsonProps_sanitize (by decide) jsonValue_sanitizedKa
    (jsonProps_sanitize (by decide) jsonValue_sanitizedMeta (jsonProps_props hvalue) hmeta) hka

theorem jsonProps_parseEdge {edge : Edge} (hvalue : jsonValue value = true)
    (hedge : parseEdge value = some edge) : JsonProps edge.props := by
  simp only [parseEdge, Option.ite_none_right_eq_some] at hedge
  rw [Edge.props_of_ofProps? hedge.2]
  exact jsonProps_props hvalue

theorem jsonProps_parseIsland {island : Island} (hvalue : jsonValue value = true)
    (hisland : parseIsland value = some island) : JsonProps island.props := by
  simp only [parseIsland, Option.ite_none_right_eq_some] at hisland
  rw [Island.props_of_ofProps? hisland.2]
  exact jsonProps_props hvalue

theorem jsonProps_parseRelationSummary {summary : RelationSummary} (hvalue : jsonValue value = true)
    (hsummary : parseRelationSummary value = some summary) : JsonProps summary.props := by
  simp only [parseRelationSummary, Option.ite_none_right_eq_some] at hsummary
  rw [RelationSummary.props_of_ofProps? hsummary.2]
  exact jsonProps_props hvalue

def parsedLink (id type fromCardId toCardId : String) (note createdAt : Option String) : Props :=
  [("id", some (.string id)), ("type", some (.string type)),
    ("fromCardId", some (.string fromCardId)), ("toCardId", some (.string toCardId)),
    ("note", note.map .string), ("createdAt", createdAt.map .string)]

theorem props_parseEvidenceLink {link : EvidenceLink}
    (hlink : parseEvidenceLink value = some link) :
    ∃ id type fromCardId toCardId note createdAt,
      link.props = parsedLink id type fromCardId toCardId note createdAt := by
  simp only [parseEvidenceLink] at hlink
  split at hlink
  · split at hlink
    · contradiction
    · split at hlink
      · contradiction
      · exact ⟨_, _, _, _, _, _, EvidenceLink.props_of_ofProps? hlink⟩
  · contradiction

theorem normalizedSlot_string_inj {s t : Option String}
    (heq : normalizedSlot (s.map .string) = normalizedSlot (t.map .string)) : s = t := by
  cases s with
  | none =>
      cases t with
      | none => rfl
      | some t => cases heq
  | some s =>
      cases t with
      | none => cases heq
      | some t => exact congrArg some (JsValue.string.inj heq)

theorem parsedLink_inj {id type fromCardId toCardId id' type' fromCardId' toCardId' : String}
    {note createdAt note' createdAt' : Option String}
    (heq : normalizeValue (.object (parsedLink id type fromCardId toCardId note createdAt)) =
      normalizeValue (.object (parsedLink id' type' fromCardId' toCardId' note' createdAt'))) :
    parsedLink id type fromCardId toCardId note createdAt =
      parsedLink id' type' fromCardId' toCardId' note' createdAt' := by
  have hslots := (normalizeValue_object_eq_iff (by simp [parsedLink, Props.names])
    (by simp [parsedLink, Props.names]) (by simp [parsedLink, plainProps, Props.names])
    (by simp [parsedLink, plainProps, Props.names])).mp heq
  have htext : ∀ {s t : String},
      some (normalizedSlot (some (.string s))) = some (normalizedSlot (some (.string t))) →
        s = t :=
    fun h => JsValue.string.inj (Option.some.inj h)
  have hoptional : ∀ {s t : Option String},
      some (normalizedSlot (s.map .string)) = some (normalizedSlot (t.map .string)) → s = t :=
    fun h => normalizedSlot_string_inj (Option.some.inj h)
  rw [htext (hslots "id"), htext (hslots "type"), htext (hslots "fromCardId"),
    htext (hslots "toCardId"), hoptional (hslots "note"), hoptional (hslots "createdAt")]

/-- What is known of an operation that was read from JSON. -/
def PatchOp.FromJson (op : PatchOp) : Prop :=
  match op.change with
  | .upsertCard card => JsonProps card.props
  | .upsertIsland island => JsonProps island.props
  | .upsertEdge edge => JsonProps edge.props
  | .upsertRelationSummary summary => JsonProps summary.props
  | .upsertEvidenceLink link => ∃ id type fromCardId toCardId note createdAt,
      link.props = parsedLink id type fromCardId toCardId note createdAt
  | _ => True

/-- What both branches of a conditional return. -/
theorem forall_of_ite {α : Type} {c : Prop} [Decidable c] {a b : Option α} {P : α → Prop}
    (ha : ∀ x, a = some x → P x) (hb : ∀ x, b = some x → P x) :
    ∀ x, (if c then a else b) = some x → P x := by
  by_cases hc : c
  · rw [if_pos hc]
    exact ha
  · rw [if_neg hc]
    exact hb

theorem forall_of_map {α β : Type} {f : α → β} {a : Option α} {P : β → Prop}
    (ha : ∀ x, a = some x → P (f x)) : ∀ y, a.map f = some y → P y := by
  intro y hy
  obtain ⟨x, hx, rfl⟩ := Option.map_eq_some_iff.mp hy
  exact ha x hx

theorem fromJson_parsePatchOp (hvalue : jsonValue value = true) :
    ∀ op, parsePatchOp value = some op → op.FromJson := by
  have hprops := jsonProps_props hvalue
  have hpayload : ∀ {α : Type} {key : String} {parse : JsValue → Option α} {P : α → Prop},
      (∀ value item, jsonValue value = true → parse value = some item → P item) →
        ∀ item, (value.props.get key).bind parse = some item → P item := by
    intro α key parse P hparse item hitem
    obtain ⟨payload, hget, hitem⟩ := Option.bind_eq_some_iff.mp hitem
    exact hparse payload item (hprops.get hget) hitem
  simp only [parsePatchOp]
  split
  case h_2 =>
    intro op hop
    contradiction
  refine forall_of_ite ?_ <| forall_of_ite ?_ <| forall_of_ite ?_ <| forall_of_ite ?_ <|
    forall_of_ite ?_ <| forall_of_ite ?_ <| forall_of_ite ?_ <| forall_of_ite ?_ <|
    forall_of_ite ?_ <| forall_of_ite ?_ ?_
  · exact forall_of_map (hpayload fun _ _ => jsonProps_parseCard)
  · exact forall_of_map fun _ _ => trivial
  · exact forall_of_map (hpayload fun _ _ => jsonProps_parseIsland)
  · exact forall_of_map fun _ _ => trivial
  · exact forall_of_map (hpayload fun _ _ => jsonProps_parseEdge)
  · exact forall_of_map fun _ _ => trivial
  · exact forall_of_map (hpayload fun _ _ => jsonProps_parseRelationSummary)
  · exact forall_of_map fun _ _ => trivial
  · exact forall_of_map (hpayload fun _ _ _ => props_parseEvidenceLink)
  · exact forall_of_map fun _ _ => trivial
  · intro op hop
    contradiction

theorem fromJson_parsePatchDocument {patch : PatchV1} (hvalue : jsonValue value = true)
    (hpatch : parsePatchDocument value = some patch) : ∀ op ∈ patch.ops, op.FromJson := by
  simp only [parsePatchDocument] at hpatch
  split at hpatch
  · split at hpatch
    next items hitems =>
      split at hpatch
      · obtain ⟨ops, hops, rfl⟩ := Option.map_eq_some_iff.mp hpatch
        have hjson := (jsonProps_props hvalue).get hitems
        rw [jsonValue_array, List.all_eq_true] at hjson
        exact forall_of_mapM hops fun item hitem => fromJson_parsePatchOp (hjson item hitem)
      · contradiction
    next => contradiction
  · contradiction

/-! ## Operations with one canonical text -/

theorem content_of_normalizeValue {left right : Props} (hleft : JsonProps left)
    (hright : JsonProps right)
    (heq : normalizeValue (.object left) = normalizeValue (.object right)) :
    content (.object left) = content (.object right) := by
  rw [← normalizeValue_eq_content (jsonValue_object_iff.mpr hleft),
    ← normalizeValue_eq_content (jsonValue_object_iff.mpr hright), heq]

theorem EvidenceLink.eq_of_props {link link' : EvidenceLink} (heq : link.props = link'.props) :
    link = link' := by
  obtain ⟨props, id, fromCardId, toCardId, hid, hfrom, hto⟩ := link
  obtain ⟨props', id', fromCardId', toCardId', hid', hfrom', hto'⟩ := link'
  subst heq
  rw [hid] at hid'
  rw [hfrom] at hfrom'
  rw [hto] at hto'
  cases hid'
  cases hfrom'
  cases hto'
  rfl

/-- Operations read from JSON that are normalized alike do the same. -/
theorem PatchOp.sameContent_of_normalizeValue {op op' : PatchOp} (hop : op.FromJson)
    (hop' : op'.FromJson) (heq : normalizeValue op.toJs = normalizeValue op'.toJs) :
    op.change.SameContent op'.change := by
  obtain ⟨-, hkind, hpayload⟩ := normalizeValue_toJs_iff.mp heq
  have hkey : ∀ {left right : Props} {key s t}, JsonProps left → JsonProps right →
      content (.object left) = content (.object right) → left.string? key = some s →
        right.string? key = some t → s = t := by
    intro left right key s t hleft hright hcontent hs ht
    rw [string?_eq_of_content hleft.nodup hright.nodup hcontent, ht] at hs
    exact (Option.some.inj hs).symm
  obtain ⟨id, change⟩ := op
  obtain ⟨id', change'⟩ := op'
  cases change with
  | upsertCard card =>
      cases change' with
      | upsertCard card' =>
          have hcontent := content_of_normalizeValue hop hop' hpayload
          have hid := hkey hop hop' hcontent card.id_eq card'.id_eq
          exact .upsertCard ⟨congrArg (EntityKey.mk .card) hid, rfl, hcontent⟩
      | _ => cases hkind
  | upsertIsland island =>
      cases change' with
      | upsertIsland island' =>
          have hcontent := content_of_normalizeValue hop hop' hpayload
          have hid := hkey hop hop' hcontent island.id_eq island'.id_eq
          exact .upsertIsland ⟨congrArg (EntityKey.mk .island) hid, rfl, hcontent⟩
      | _ => cases hkind
  | upsertEdge edge =>
      cases change' with
      | upsertEdge edge' =>
          have hcontent := content_of_normalizeValue hop hop' hpayload
          have hid := hkey hop hop' hcontent edge.id_eq edge'.id_eq
          exact .upsertEdge ⟨congrArg (EntityKey.mk .edge) hid, rfl, hcontent⟩
      | _ => cases hkind
  | upsertRelationSummary summary =>
      cases change' with
      | upsertRelationSummary summary' =>
          have hcontent := content_of_normalizeValue hop hop' hpayload
          have hid := hkey hop hop' hcontent summary.sourceSignature_eq summary'.sourceSignature_eq
          exact .upsertRelationSummary ⟨congrArg (EntityKey.mk .relSummary) hid, rfl, hcontent⟩
      | _ => cases hkind
  | upsertEvidenceLink link =>
      cases change' with
      | upsertEvidenceLink link' =>
          obtain ⟨_, _, _, _, _, _, hprops⟩ := hop
          obtain ⟨_, _, _, _, _, _, hprops'⟩ := hop'
          have hparsed : normalizeValue (.object link.props) =
              normalizeValue (.object link'.props) := hpayload
          rw [hprops, hprops'] at hparsed
          have heq : link.props = link'.props := by
            rw [hprops, hprops', parsedLink_inj hparsed]
          rw [EvidenceLink.eq_of_props heq]
          exact .upsertEvidenceLink (.refl _)
      | _ => cases hkind
  | deleteCard cardId =>
      cases change' with
      | deleteCard cardId' =>
          rw [JsValue.string.inj hpayload]
          exact .deleteCard cardId'
      | _ => cases hkind
  | deleteIsland islandId =>
      cases change' with
      | deleteIsland islandId' =>
          rw [JsValue.string.inj hpayload]
          exact .deleteIsland islandId'
      | _ => cases hkind
  | deleteEdge edgeId =>
      cases change' with
      | deleteEdge edgeId' =>
          rw [JsValue.string.inj hpayload]
          exact .deleteEdge edgeId'
      | _ => cases hkind
  | deleteRelationSummary signature =>
      cases change' with
      | deleteRelationSummary signature' =>
          rw [JsValue.string.inj hpayload]
          exact .deleteRelationSummary signature'
      | _ => cases hkind
  | deleteEvidenceLink linkId =>
      cases change' with
      | deleteEvidenceLink linkId' =>
          rw [JsValue.string.inj hpayload]
          exact .deleteEvidenceLink linkId'
      | _ => cases hkind

/-- Patches read from JSON with one canonical text, whose operations have their
ids in one order, do the same to every document. -/
theorem sameContent_of_canonicalizeJson (lc : Collation) {value value' : JsValue}
    {patch patch' : PatchV1} (hvalue : jsonValue value = true) (hvalue' : jsonValue value' = true)
    (hpatch : parsePatchDocument value = some patch)
    (hpatch' : parsePatchDocument value' = some patch')
    (hcanonical : canonicalizeJson (.object patch.fingerprintPayload) =
      canonicalizeJson (.object patch'.fingerprintPayload))
    (hids : patch.ops.map PatchOp.id = patch'.ops.map PatchOp.id) (doc : DocumentV1)
    (resolutions : String → Option PatchResolution) :
    (applyPatchWithResolutionsDetailed lc doc patch resolutions none none).document.SameContent
      (applyPatchWithResolutionsDetailed lc doc patch' resolutions none none).document := by
  rw [document_of_no_baseline, document_of_no_baseline]
  have hops := (PatchV1.canonicalOps_eq_iff hids).mp (canonicalizeJson_payload_iff.mp hcanonical).2
  have hread := fromJson_parsePatchDocument hvalue hpatch
  have hread' := fromJson_parsePatchDocument hvalue' hpatch'
  refine (DocumentV1.SameContent.refl doc).applyPatchOps ?_
  generalize patch.ops = ops at hops hread
  generalize patch'.ops = ops' at hops hread'
  induction ops generalizing ops' with
  | nil =>
      cases ops' with
      | nil => exact .nil
      | cons op' ops' => contradiction
  | cons op ops ih =>
      cases ops' with
      | nil => contradiction
      | cons op' ops' =>
          rw [List.map_cons, List.map_cons, List.cons.injEq] at hops
          rw [List.forall_mem_cons] at hread hread'
          exact .cons (PatchOp.sameContent_of_normalizeValue hread.1 hread'.1 hops.1)
            (ih hread.2 ops' hops.2 hread'.2)

namespace EffectInputs

/-- A patch as it is read from JSON. -/
def patch (ops : List PatchOp) : PatchV1 :=
  ⟨some none, some none, some none, some none, some none, some none, ops⟩

def card (name : String) (value : Option JsValue) : Card where
  props := (Card.smallest "a" "text").props ++ [(name, value)]
  id := "a"
  id_eq := rfl

def reversed : Card where
  props := (Card.smallest "a" "text").props.reverse
  id := "a"
  id_eq := rfl

theorem reversed_sameContent :
    (applyPatchWithResolutionsDetailed .codeUnit (.smallest [] [])
        (patch [⟨"op", .upsertCard (.smallest "a" "text")⟩])
        (fun _ => none) none none).document.SameContent
      (applyPatchWithResolutionsDetailed .codeUnit (.smallest [] [])
        (patch [⟨"op", .upsertCard reversed⟩]) (fun _ => none) none none).document :=
  @sameContent_of_canonicalizeJson .codeUnit
    (jsonImage (patch [⟨"op", .upsertCard (.smallest "a" "text")⟩]).toJs)
    (jsonImage (patch [⟨"op", .upsertCard reversed⟩]).toJs) _ _ (by decide +kernel)
    (by decide +kernel) rfl rfl (by decide +kernel) rfl _ _

/-- Two values that are read as patches with one canonical text and that do
different things to the empty document. -/
def Differ (value value' : JsValue) : Prop :=
  ∃ patch patch', parsePatchDocument value = some patch ∧
    parsePatchDocument value' = some patch' ∧
      canonicalizeJson (.object patch.fingerprintPayload) =
        canonicalizeJson (.object patch'.fingerprintPayload) ∧
          ¬(applyPatchWithResolutionsDetailed .codeUnit (.smallest [] []) patch (fun _ => none)
            none none).document.SameContent
            (applyPatchWithResolutionsDetailed .codeUnit (.smallest [] []) patch' (fun _ => none)
              none none).document

/-- What canonical texts forget: the order of two operations on one card, the
difference of `undefined` and `null`, and a property named `__proto__`. -/
theorem canonical_texts_collide :
    Differ
        (jsonImage (patch [⟨"op-1", .upsertCard (.smallest "a" "one")⟩,
          ⟨"op-2", .upsertCard (.smallest "a" "two")⟩]).toJs)
        (jsonImage (patch [⟨"op-2", .upsertCard (.smallest "a" "two")⟩,
          ⟨"op-1", .upsertCard (.smallest "a" "one")⟩]).toJs) ∧
      Differ (patch [⟨"op", .upsertCard (card "claimType" none)⟩]).toJs
        (patch [⟨"op", .upsertCard (card "claimType" (some .null))⟩]).toJs ∧
      Differ (jsonImage (patch [⟨"op", .upsertCard (.smallest "a" "text")⟩]).toJs)
        (jsonImage (patch [⟨"op", .upsertCard (card "__proto__" (some .null))⟩]).toJs) := by
  refine ⟨⟨_, _, rfl, rfl, by decide +kernel, fun hsame => ?_⟩,
    ⟨_, _, rfl, rfl, by decide +kernel, fun hsame => ?_⟩,
    ⟨_, _, rfl, rfl, by decide +kernel, fun hsame => ?_⟩⟩ <;>
  · obtain ⟨hcard, -⟩ := List.forall₂_cons.mp hsame.cards
    exact absurd hcard.content (by decide)

end EffectInputs

end KjAtlas
