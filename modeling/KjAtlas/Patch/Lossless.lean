import KjAtlas.Patch.Decode

/-! # Which patches survive a JSON round trip

Most entities are copied by the importer, but evidence links are rebuilt
without their contradiction state, and JSON has no numbers that are not finite.
-/

namespace KjAtlas

open Js Shape

theorem content_rebuild_iff {fields original : Props} (hfields : (Props.names fields).Nodup)
    (horiginal : (Props.names original).Nodup) :
    (rebuild fields).map content = some (content (.object original)) ↔
      (∀ key, (Props.get fields key).map content = (original.get key).map content) ∧
        original.defined ≠ [] := by
  unfold rebuild
  split
  next hnone =>
    rw [Props.defined_ne_nil_iff]
    constructor
    · intro h
      contradiction
    · rintro ⟨hget, key, hsome⟩
      obtain ⟨value, hvalue⟩ := Option.isSome_iff_exists.mp hsome
      have hkey := hget key
      rw [hvalue, Option.map_some, Option.map_eq_some_iff] at hkey
      obtain ⟨field, hfield, -⟩ := hkey
      have hisNone := List.all_eq_true.mp hnone _ (Props.mem_of_get hfield)
      simp at hisNone
  next hsome =>
    rw [Option.map_some, Option.some.injEq]
    refine (content_object_eq_iff (Props.names_defined hfields) horiginal).trans ?_
    simp only [Props.get_defined, iff_self_and]
    intro hget
    rw [Bool.not_eq_true, List.all_eq_false] at hsome
    obtain ⟨⟨key, value⟩, hmem, hvalue⟩ := hsome
    rw [Props.defined_ne_nil_iff]
    refine ⟨key, ?_⟩
    rw [← Option.isSome_map (f := content), ← hget key, Option.isSome_map, Props.get,
      List.findSome?_isSome_iff]
    cases value with
    | none => exact absurd rfl hvalue
    | some value => exact ⟨_, hmem, by simp⟩

/-! ## Cards -/

def noEmptyText (props : Props) : Prop := ∀ name, props.string? name ≠ some ""

def Card.NoEmptyText (card : Card) : Prop :=
  ∀ key ∈ rebuiltNames, ∀ value ∈ card.props.get key, noEmptyText value.props

/-- The rebuilt properties of a card are not empty objects. -/
def Card.Inhabited (card : Card) : Prop :=
  ∀ key ∈ rebuiltNames, ∀ value ∈ card.props.get key, value.props.defined ≠ []

theorem content_rebuilt_iff {original fields : Props} (hnodup : (Props.names original).Nodup)
    (hrebuilds : Rebuilds original fields) (htext : noEmptyText original) :
    (rebuild fields).map content = some (content (.object original)) ↔
      finiteOnly (.object original) = true ∧ original.defined ≠ [] := by
  rw [content_rebuild_iff hrebuilds.nodup hnodup, finiteOnly_object_iff hnodup]
  refine and_congr_left' (forall_congr' fun key => ?_)
  rw [hrebuilds.get]
  cases hget : original.get key with
  | none => simp
  | some value =>
      have hne : value ≠ .string "" := by
        rintro rfl
        exact htext key (by rw [Props.string?, hget]; rfl)
      cases hfinite : finiteOnly value <;> simp [Option.filter, keeps, hne, hfinite]

theorem content_importedField_iff {card : Card} (htyped : Schema.card (.object card.props) = true)
    (htext : card.NoEmptyText) (key : String) :
    (importedField card.props key).map content = (card.props.get key).map content ↔
      (∀ value ∈ card.props.get key, finiteOnly value = true) ∧
        (key ∈ rebuiltNames → ∀ value ∈ card.props.get key, value.props.defined ≠ []) := by
  cases hget : card.props.get key with
  | none =>
      rw [importedField_of_none hget]
      exact iff_of_true rfl ⟨by simp, by simp⟩
  | some value =>
      simp only [Option.mem_def, Option.some.injEq, forall_eq', Option.map_some]
      by_cases hkey : key ∈ rebuiltNames
      · obtain ⟨original, fields, rfl, hnodup, -, himported, hrebuilds⟩ :=
          importedField_rebuilt htyped hkey hget
        rw [himported, content_rebuilt_iff hnodup hrebuilds (htext key hkey _ hget)]
        simp only [hkey, forall_const]
        rfl
      · rw [importedField_copied hkey, hget, Option.map_some, Option.map_some, Option.some.injEq,
          content_jsonImage_iff]
        simp [hkey]

theorem finiteAt_of_finiteOnly {fields : List Field} {props : Props} {key : String}
    (hrecord : record fields (.object props) = true) (hfield : has key number ∈ fields)
    (hunique : ∀ field ∈ fields, field.name = key → field.shape = number)
    (hfinite : finiteOnly (.object props) = true) : finiteAt props key = true := by
  obtain ⟨value, hget, hshape⟩ := record_has hrecord hfield hunique
  obtain ⟨n, rfl⟩ := eq_number hshape
  have hn : n.isFinite = true :=
    (finiteOnly_object_iff (record_nodup hrecord)).mp hfinite key _ hget
  rw [finiteAt, hget, Option.bind_some, JsValue.finite?, if_pos hn]
  rfl

theorem parseCard_lossless {card : Card} (htyped : Schema.card (.object card.props) = true)
    (htext : card.NoEmptyText) :
    (∃ card', parseCard (.object card.props.json) = some card' ∧
        content (.object card'.props) = content (.object card.props)) ↔
      finiteOnly (.object card.props) = true ∧ card.Inhabited := by
  by_cases hcoordinates : finiteAt card.props "x" = true ∧ finiteAt card.props "y" = true
  · obtain ⟨card', hparse, hnodup, -, hget⟩ := parseCard_json card htyped hcoordinates.1
      hcoordinates.2
    rw [hparse]
    simp only [Option.some.injEq, exists_eq_left']
    rw [content_object_eq_iff hnodup (record_nodup htyped),
      finiteOnly_object_iff (record_nodup htyped)]
    simp only [hget, content_importedField_iff htyped htext, forall_and]
    rfl
  · rw [parseCard_json_eq_none card htyped hcoordinates]
    refine iff_of_false (by simp) ?_
    rintro ⟨hfinite, -⟩
    exact hcoordinates
      ⟨finiteAt_of_finiteOnly htyped (by simp) (by simp [has, mayHave]) hfinite,
        finiteAt_of_finiteOnly htyped (by simp) (by simp [has, mayHave]) hfinite⟩

theorem finiteOnly_evidenceLink {props : Props}
    (htyped : Schema.evidenceLink (.object props) = true) : finiteOnly (.object props) = true := by
  refine finiteOnly_of_record ?_ htyped
  intro field hfield value hshape
  simp only [List.mem_cons, List.not_mem_nil, or_false] at hfield
  rcases hfield with rfl | rfl | rfl | rfl | rfl | rfl | rfl
  case inr.inl => obtain ⟨s, -, rfl⟩ := eq_literal hshape; rfl
  case inr.inr.inr.inr.inr.inr => obtain ⟨s, -, rfl⟩ := eq_literal hshape; rfl
  all_goals
    obtain ⟨s, rfl⟩ := eq_string hshape
    rfl

theorem EvidenceLink.content_imported_iff (link : EvidenceLink)
    (htyped : Schema.evidenceLink (.object link.props) = true) :
    content (.object link.imported.props) = content (.object link.props) ↔
      link.props.get "contradictionState" = none := by
  have hnames : (Props.names link.imported.props).Nodup := by simp [imported, Props.names]
  rw [content_object_eq_iff hnames (record_nodup htyped)]
  simp only [link.get_imported htyped]
  constructor
  · intro hget
    have hstate := hget "contradictionState"
    rw [if_pos rfl, Option.map_none, eq_comm, Option.map_eq_none_iff] at hstate
    exact hstate
  · intro hstate key
    split
    next hkey => rw [hkey, hstate]
    next => rfl

/-! ## Operations -/

/-- The payload is of its declared type, and of the values that the type
allows and the program does not produce it has none. -/
structure PatchOp.Conforms (op : PatchOp) : Prop where
  typed : op.typed = true
  card : ∀ card, op.change = .upsertCard card → card.NoEmptyText
  edge : ∀ edge, op.change = .upsertEdge edge → edge.props.string? "type" ≠ some ""
  evidenceLink : ∀ link, op.change = .upsertEvidenceLink link → link.fromCardId ≠ link.toCardId

/-- What has to hold of a payload that arrives unchanged. -/
structure PatchOp.Intact (op : PatchOp) : Prop where
  finite : finiteOnly op.payload.2 = true
  card : ∀ card, op.change = .upsertCard card → card.Inhabited
  evidenceLink : ∀ link, op.change = .upsertEvidenceLink link →
    link.props.get "contradictionState" = none

theorem PatchOp.content_toJs_iff {op op' : PatchOp} (hid : op'.id = op.id)
    (hkind : op'.kind = op.kind) (hname : op'.payload.1 = op.payload.1) :
    content op'.toJs = content op.toJs ↔ content op'.payload.2 = content op.payload.2 := by
  have hfresh : op.payload.1 ≠ "id" ∧ op.payload.1 ≠ "kind" := by
    obtain ⟨id, change⟩ := op
    cases change <;> simp [payload]
  rw [toJs, toJs, content_object_eq_iff op'.nodup_toJs op.nodup_toJs, hid, hkind, hname]
  constructor
  · intro hget
    simpa [Props.get_cons, Ne.symm hfresh.1, Ne.symm hfresh.2] using hget op.payload.1
  · intro hpayload key
    simp only [Props.get_cons, Props.get_nil, Option.or_none, Option.map_or]
    split <;> split <;> split <;> simp [hpayload]

/-- A payload that is copied arrives unchanged exactly when its numbers are finite. -/
theorem PatchOp.copied_iff {op op' : PatchOp} (hid : op'.id = op.id) (hkind : op'.kind = op.kind)
    (hname : op'.payload.1 = op.payload.1) (hpayload : op'.payload.2 = jsonImage op.payload.2) :
    content op'.toJs = content op.toJs ↔ finiteOnly op.payload.2 = true := by
  rw [content_toJs_iff hid hkind hname, hpayload, content_jsonImage_iff]

theorem PatchOp.intact_iff_finite {op : PatchOp} (hcard : ∀ card, op.change ≠ .upsertCard card)
    (hlink : ∀ link, op.change ≠ .upsertEvidenceLink link) :
    op.Intact ↔ finiteOnly op.payload.2 = true where
  mp := Intact.finite
  mpr hfinite :=
    ⟨hfinite, fun card heq => absurd heq (hcard card), fun link heq => absurd heq (hlink link)⟩

/-- An operation arrives unchanged exactly when its payload is intact. -/
theorem PatchOp.lossless_iff (op : PatchOp) (hop : op.Conforms) :
    (∃ op', op.received = some op' ∧ content op'.toJs = content op.toJs) ↔ op.Intact := by
  obtain ⟨id, change⟩ := op
  cases change with
  | upsertCard card =>
      have hcontent : ∀ card' : Card, content (toJs ⟨id, .upsertCard card'⟩) =
          content (toJs ⟨id, .upsertCard card⟩) ↔
            content (.object card'.props) = content (.object card.props) :=
        fun card' => content_toJs_iff rfl rfl rfl
      simp only [received, Option.map_eq_some_iff, exists_exists_and_eq_and, hcontent]
      rw [parseCard_lossless hop.typed (hop.card card rfl)]
      constructor
      · rintro ⟨hfinite, hinhabited⟩
        exact ⟨hfinite, by rintro _ ⟨⟩; exact hinhabited, by rintro _ ⟨⟩⟩
      · exact fun hintact => ⟨hintact.finite, hintact.card card rfl⟩
  | upsertIsland island =>
      simp only [received, parseIsland_json island hop.typed, Option.map_some,
        Option.some.injEq, exists_eq_left']
      rw [intact_iff_finite (by simp) (by simp)]
      exact copied_iff rfl rfl rfl (jsonImage_object _).symm
  | upsertEdge edge =>
      simp only [received, parseEdge_json edge hop.typed, if_neg (hop.edge edge rfl),
        Option.map_some, Option.some.injEq, exists_eq_left']
      rw [intact_iff_finite (by simp) (by simp)]
      exact copied_iff rfl rfl rfl (jsonImage_object _).symm
  | upsertRelationSummary summary =>
      simp only [received, parseRelationSummary_json summary hop.typed, Option.map_some,
        Option.some.injEq, exists_eq_left']
      rw [intact_iff_finite (by simp) (by simp)]
      exact copied_iff rfl rfl rfl (jsonImage_object _).symm
  | upsertEvidenceLink link =>
      have hcontent : content (toJs ⟨id, .upsertEvidenceLink link.imported⟩) =
          content (toJs ⟨id, .upsertEvidenceLink link⟩) ↔
            content (.object link.imported.props) = content (.object link.props) :=
        content_toJs_iff rfl rfl rfl
      simp only [received, parseEvidenceLink_json link hop.typed,
        if_neg (hop.evidenceLink link rfl), Option.map_some, Option.some.injEq, exists_eq_left']
      rw [hcontent, link.content_imported_iff hop.typed]
      constructor
      · intro hstate
        exact ⟨finiteOnly_evidenceLink hop.typed, by rintro _ ⟨⟩, by rintro _ ⟨⟩; exact hstate⟩
      · exact fun hintact => hintact.evidenceLink link rfl
  | _ =>
      refine iff_of_true ⟨_, rfl, rfl⟩ ⟨rfl, ?_, ?_⟩ <;>
      · rintro _ ⟨⟩

/-! ## Patches -/

theorem PatchV1.get_ops (patch : PatchV1) :
    patch.toProps.get "ops" = some (.array (patch.ops.map PatchOp.toJs)) := by
  simp [toProps, Props.get_append, Props.get_cons, OptionalText.get_toProps]

theorem PatchV1.content_toJs_iff {left right : PatchV1}
    (henvelope : ∀ key, key ≠ "ops" → left.toProps.get key = right.toProps.get key) :
    content left.toJs = content right.toJs ↔
      left.ops.map (fun op => content op.toJs) = right.ops.map fun op => content op.toJs := by
  rw [toJs, toJs, content_object_eq_iff left.nodup_names right.nodup_names]
  have hops : ∀ patch : PatchV1, (patch.toProps.get "ops").map content =
      some (.array (patch.ops.map fun op => content op.toJs)) := by
    intro patch
    rw [get_ops, Option.map_some, content_array, List.map_map]
    rfl
  constructor
  · intro hget
    have heq := hget "ops"
    rw [hops, hops, Option.some.injEq, JsValue.array.injEq] at heq
    exact heq
  · intro heq key
    by_cases hkey : key = "ops"
    · rw [hkey, hops, hops, heq]
    · rw [henvelope key hkey]

/-- A patch arrives unchanged exactly when the payloads of its operations are
intact: no evidence link has a contradiction state, no card has an empty `meta`
or `ka`, and every number is finite. -/
theorem decode_lossless_iff (patch : PatchV1) (hops : ∀ op ∈ patch.ops, op.Conforms) :
    (∃ decoded, parsePatchDocument (jsonImage patch.toJs) = some decoded ∧
      content decoded.toJs = content patch.toJs) ↔ ∀ op ∈ patch.ops, op.Intact := by
  rw [parsePatchDocument_json]
  have hreceived : (∃ decoded, patch.received = some decoded ∧
      content decoded.toJs = content patch.toJs) ↔
        ∃ ops, patch.ops.mapM PatchOp.received = some ops ∧
          ops.map (fun op => content op.toJs) = patch.ops.map fun op => content op.toJs := by
    simp only [PatchV1.received, Option.map_eq_some_iff, exists_exists_and_eq_and]
    refine exists_congr fun ops => and_congr_right fun _ => PatchV1.content_toJs_iff ?_
    intro key hkey
    simp [PatchV1.reread, PatchV1.toProps, Props.get_append, Props.get_cons,
      OptionalText.get_toProps, Ne.symm hkey]
  rw [hreceived, exists_mapM_iff]
  exact forall₂_congr fun op hop => op.lossless_iff (hops op hop)

namespace LosslessInputs

/-- A card, and an evidence link between two cards. -/
def plainPatch : PatchV1 :=
  .ofOps [⟨"op1", .upsertCard (.smallest "a" "text")⟩,
    ⟨"op2", .upsertEvidenceLink (.smallest "l" "a" "b")⟩]

theorem plainPatch_arrives :
    ∃ decoded, parsePatchDocument (jsonImage plainPatch.toJs) = some decoded ∧
      content decoded.toJs = content plainPatch.toJs := by
  have hcard : (Card.smallest "a" "text").NoEmptyText ∧ (Card.smallest "a" "text").Inhabited := by
    constructor <;>
    · intro key hkey value hvalue
      rcases List.mem_pair.mp hkey with rfl | rfl <;> cases hvalue
  refine (decode_lossless_iff plainPatch ?_).mpr ?_
  · intro op hop
    rcases List.mem_pair.mp hop with rfl | rfl
    · refine ⟨by decide, ?_, ?_, ?_⟩ <;> rintro _ ⟨⟩
      exact hcard.1
    · refine ⟨by decide, ?_, ?_, ?_⟩ <;> rintro _ ⟨⟩
      decide
  · intro op hop
    rcases List.mem_pair.mp hop with rfl | rfl
    · refine ⟨by decide, ?_, ?_⟩ <;> rintro _ ⟨⟩
      exact hcard.2
    · refine ⟨by decide, ?_, ?_⟩ <;> rintro _ ⟨⟩
      decide

/-- An evidence link that the user has confirmed to be a contradiction. -/
def link : EvidenceLink where
  props := [("id", some (.string "l")), ("type", some (.string "contradicts")),
    ("fromCardId", some (.string "a")), ("toCardId", some (.string "b")),
    ("contradictionState", some (.string "confirmed"))]
  id := "l"
  fromCardId := "a"
  toCardId := "b"
  id_eq := rfl
  fromCardId_eq := rfl
  toCardId_eq := rfl

def patch : PatchV1 := .ofOps [⟨"op", .upsertEvidenceLink link⟩]

theorem patch_conforms : ∀ op ∈ patch.ops, op.Conforms := by
  intro op hop
  rw [List.mem_singleton.mp hop]
  refine ⟨by decide, ?_, ?_, ?_⟩ <;> rintro _ ⟨⟩
  decide

/-- The importer forgets the contradiction state of the link. -/
theorem contradictionState_lost :
    (∀ op ∈ patch.ops, op.Conforms) ∧
      ¬∃ decoded, parsePatchDocument (jsonImage patch.toJs) = some decoded ∧
        content decoded.toJs = content patch.toJs := by
  refine ⟨patch_conforms, ?_⟩
  rintro ⟨decoded, hparse, hcontent⟩
  rw [← Option.some.inj hparse] at hcontent
  exact absurd hcontent (by decide)

end LosslessInputs

end KjAtlas
