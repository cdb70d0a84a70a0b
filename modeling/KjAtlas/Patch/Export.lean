import KjAtlas.Patch.Decode
import KjAtlas.Patch.Fingerprint

/-! # Which exported patches verify when they are imported

A property equal to `undefined` counts as `null` in a fingerprint, JSON drops it,
and the importer adds some of its own. The fingerprint of an exported patch is
therefore the fingerprint of the imported one for some patches only.
-/

namespace KjAtlas

open Js Shape

structure PatchExportMetadata where
  author : Option String
  authorNote : Option String
  sourceApp : Option String

def cleanOptionalText (value : Option String) : Option String :=
  value.bind fun text => if trim text = "" then none else some (trim text)

/-- The patch `next` of `buildPatchForExport`. -/
def PatchV1.withMetadata (patch : PatchV1) (metadata : PatchExportMetadata) : PatchV1 :=
  { patch with
    author := some (cleanOptionalText metadata.author)
    authorNote := some (cleanOptionalText metadata.authorNote)
    sourceApp := some (some ((cleanOptionalText metadata.sourceApp).getD "sui-sensemaking")) }

def buildPatchForExport (hash : HashFunction) (patch : PatchV1) (metadata : PatchExportMetadata) :
    PatchV1 :=
  let next := patch.withMetadata metadata
  { next with patchFingerprint := some (some (computePatchFingerprint hash next)) }

/-- A JSON round trip is not noticed exactly when nothing is `undefined`. -/
theorem normalizeValue_jsonImage_iff {value : JsValue} (hplain : plainNames value = true) :
    normalizeValue (jsonImage value) = normalizeValue value ↔ definedOnly value = true := by
  induction value using JsValue.induction with
  | null => simp [jsonImage, JsValue.fold, definedOnly]
  | bool b => simp [jsonImage, JsValue.fold, definedOnly]
  | number n => cases n <;> simp [jsonImage, JsValue.fold, definedOnly, normalizeValue,
      JsNumber.isFinite]
  | string s => simp [jsonImage, JsValue.fold, definedOnly]
  | array items ih =>
      rw [plainNames_array, List.all_eq_true] at hplain
      rw [jsonImage_array, normalizeValue_array, normalizeValue_array, definedOnly_array,
        JsValue.array.injEq, List.map_map, List.map_inj_left, List.all_eq_true]
      exact forall₂_congr fun item hitem => ih item hitem (hplain item hitem)
  | object props ih =>
      have hplainProps := plainProps_of_plainNames hplain
      have hplainJson : plainProps props.json := by
        rw [plainProps, Props.names_json]
        exact fun hmem => hplainProps ((List.filter_sublist.map _).mem hmem)
      rw [jsonImage_object, normalizeValue_object_of_plain hplainJson,
        normalizeValue_object_of_plain hplainProps, definedOnly_object, JsValue.object.injEq]
      rw [plainNames_object] at hplain
      by_cases hdefined : ∀ prop ∈ props, prop.2.isSome = true
      · have hjson : props.json = props.map fun prop => (prop.1, prop.2.map jsonImage) := by
          rw [Props.json, List.filter_eq_self.mpr]
          intro prop hprop
          obtain ⟨prop, hmem, rfl⟩ := List.mem_map.mp hprop
          rw [Option.isSome_map]
          exact hdefined prop hmem
        have hlists : (props.json.map fun prop => (prop.1, some (normalizedSlot prop.2))) =
            (props.map fun prop => (prop.1, some (normalizedSlot prop.2))) ↔
              (props.all fun prop => (prop.2.map definedOnly).getD false) = true := by
          rw [hjson, List.map_map, List.map_inj_left, List.all_eq_true]
          refine forall₂_congr ?_
          rintro ⟨key, value⟩ hprop
          obtain ⟨value, rfl⟩ := Option.isSome_iff_exists.mp (hdefined _ hprop)
          have hvalue := List.all_eq_true.mp hplain _ hprop
          simp only [Option.map_some, Option.getD_some, Bool.and_eq_true] at hvalue
          simpa [normalizedSlot] using ih key value hprop hvalue.2
        rw [← hlists]
        refine ⟨sortOn.inj_of_keys codeUnitLe Prod.fst ?_, congrArg _⟩
        rw [hjson, List.map_map, List.map_map, List.map_map]
        rfl
      · refine iff_of_false ?_ ?_
        · intro heq
          apply hdefined
          have hlength := congrArg List.length heq
          simp only [Props.sort, sortOn.length, List.length_map] at hlength
          have hnames := congrArg List.length (Props.names_json props)
          simp only [Props.names, List.length_map, Props.defined] at hnames
          exact List.length_filter_eq_length_iff.mp (hnames.symm.trans hlength)
        · intro hall
          apply hdefined
          intro prop hprop
          have hsome := List.all_eq_true.mp hall prop hprop
          cases hvalue : prop.2 with
          | none => simp [hvalue] at hsome
          | some value => rfl

/-! ## Cards -/

/-- An object of which everything is rebuilt: it is not empty, and its
properties are texts that are not empty and numbers that are finite. -/
def Rebuildable (original : Props) : Prop :=
  original ≠ [] ∧ ∀ prop ∈ original, prop.2.any keeps = true

theorem normalizeValue_rebuild_iff {original fields : Props}
    (hnodup : (Props.names original).Nodup) (hplain : plainProps original)
    (hrebuilds : Rebuilds original fields) :
    (rebuild fields).map normalizeValue = some (normalizeValue (.object original)) ↔
      Rebuildable original := by
  have hget : ∀ key, Props.get fields key = (Props.own original key).join.filter keeps := by
    intro key
    rw [hrebuilds.get, Props.get_eq_own hnodup]
  unfold rebuild
  split
  next hnone =>
    refine iff_of_false (by simp) ?_
    rintro ⟨hne, hkeeps⟩
    obtain ⟨⟨key, value⟩, hprop⟩ := List.exists_mem_of_ne_nil _ hne
    have hvalue := hkeeps _ hprop
    cases value with
    | none => contradiction
    | some value =>
        have hfield := hget key
        rw [(Props.own_eq_some hnodup).mpr hprop, Option.join_some, Option.filter_some,
          if_pos (show keeps value = true from hvalue)] at hfield
        have hisNone := List.all_eq_true.mp hnone _ (Props.mem_of_get hfield)
        contradiction
  next hsome =>
    have hplainFields : plainProps (Props.defined fields) :=
      fun hmem => hrebuilds.plain ((List.filter_sublist.map _).mem hmem)
    rw [Option.map_some, Option.some.injEq]
    refine (normalizeValue_object_eq_iff (Props.names_defined hrebuilds.nodup) hnodup hplainFields
      hplain).trans ?_
    have hne : original ≠ [] := by
      rintro rfl
      rw [Bool.not_eq_true, List.all_eq_false] at hsome
      obtain ⟨⟨key, value⟩, hmem, hvalue⟩ := hsome
      have hown := Props.own_defined hrebuilds.nodup key
      rw [hget] at hown
      cases value with
      | none => exact hvalue rfl
      | some value =>
          have hentry := (Props.own_eq_some (Props.names_defined hrebuilds.nodup)).mpr
            (List.mem_filter.mpr ⟨hmem, rfl⟩)
          rw [hown] at hentry
          simp at hentry
    rw [Rebuildable, and_iff_right hne,
      ← @Props.forall_own_iff _ _ hnodup fun _ slot => slot.any keeps = true]
    refine forall_congr' fun key => ?_
    rw [Props.own_defined hrebuilds.nodup, hget]
    cases Props.own original key with
    | none => simp
    | some slot =>
        cases slot with
        | none => simp
        | some value => cases hkeeps : keeps value <;> simp [Option.filter, hkeeps, normalizedSlot]

/-- A property of a card that arrives with the same fingerprint. -/
def portableProp (key : String) (slot : Option JsValue) : Prop :=
  ∃ value, slot = some value ∧
    if key ∈ rebuiltNames then Rebuildable value.props else definedOnly value = true

structure Card.Portable (card : Card) : Prop where
  x : finiteAt card.props "x" = true
  y : finiteAt card.props "y" = true
  props : ∀ prop ∈ card.props, portableProp prop.1 prop.2

theorem normalizeValue_importedField_iff {card : Props}
    (htyped : Schema.card (.object card) = true) (key : String) :
    (importedField card key).map normalizeValue = (Props.own card key).map normalizedSlot ↔
      ∀ slot ∈ Props.own card key, portableProp key slot := by
  have hget := Props.get_eq_own (record_nodup htyped) key
  cases hown : Props.own card key with
  | none =>
      rw [hown] at hget
      rw [importedField_of_none hget]
      exact iff_of_true rfl (by simp)
  | some slot =>
      rw [hown, Option.join_some] at hget
      simp only [Option.mem_def, Option.some.injEq, forall_eq', Option.map_some]
      cases slot with
      | none =>
          rw [importedField_of_none hget]
          exact iff_of_false (by simp) (by rintro ⟨_, ⟨⟩, _⟩)
      | some value =>
          simp only [portableProp, Option.some.injEq, exists_eq_left']
          by_cases hkey : key ∈ rebuiltNames
          · obtain ⟨original, fields, rfl, hnodup, hplain, himported, hrebuilds⟩ :=
              importedField_rebuilt htyped hkey hget
            rw [himported, if_pos hkey]
            exact normalizeValue_rebuild_iff hnodup hplain hrebuilds
          · rw [importedField_copied hkey, hget, if_neg hkey, Option.map_some, Option.map_some,
              Option.some.injEq]
            have hplain := Schema.plain_card _ htyped
            rw [plainNames_object, List.all_eq_true] at hplain
            have hvalue := hplain _ (Props.mem_of_get hget)
            simp only [Option.map_some, Option.getD_some, Bool.and_eq_true] at hvalue
            exact normalizeValue_jsonImage_iff hvalue.2

theorem parseCard_portable_iff {card : Card} (htyped : Schema.card (.object card.props) = true) :
    (∃ card', parseCard (.object card.props.json) = some card' ∧
        normalizeValue (.object card'.props) = normalizeValue (.object card.props)) ↔
      card.Portable := by
  by_cases hcoordinates : finiteAt card.props "x" = true ∧ finiteAt card.props "y" = true
  · obtain ⟨hx, hy⟩ := hcoordinates
    obtain ⟨card', hparse, hnodup, hdefined, hget⟩ := parseCard_json card htyped hx hy
    have hplain : plainProps card.props := plainProps_of_plainNames (Schema.plain_card _ htyped)
    have hown : ∀ key, Props.own card'.props key = (importedField card.props key).map some := by
      intro key
      rw [Props.own_of_all_defined hnodup hdefined, hget]
    have hplain' : plainProps card'.props := by
      refine Props.own_eq_none.mp ?_
      rw [hown, importedField_of_none, Option.map_none]
      rw [Props.get_eq_own (record_nodup htyped), Props.own_eq_none.mpr hplain]
      rfl
    rw [hparse]
    simp only [Option.some.injEq, exists_eq_left']
    rw [normalizeValue_object_eq_iff hnodup (record_nodup htyped) hplain' hplain]
    have hslot : ∀ key, (Props.own card'.props key).map normalizedSlot =
        (importedField card.props key).map normalizeValue := by
      intro key
      rw [hown, Option.map_map]
      rfl
    simp only [hslot, normalizeValue_importedField_iff htyped]
    rw [Props.forall_own_iff (record_nodup htyped)]
    exact ⟨fun hprops => ⟨hx, hy, hprops⟩, Card.Portable.props⟩
  · rw [parseCard_json_eq_none card htyped hcoordinates]
    exact iff_of_false (by simp) fun hportable => hcoordinates ⟨hportable.x, hportable.y⟩

/-- An evidence link that arrives with the same fingerprint. -/
structure EvidenceLink.Portable (link : EvidenceLink) : Prop where
  endpoints : link.fromCardId ≠ link.toCardId
  note : link.props.hasOwn "note" = true
  createdAt : link.props.hasOwn "createdAt" = true
  contradictionState : link.props.hasOwn "contradictionState" = false

theorem EvidenceLink.normalizeValue_imported_iff (link : EvidenceLink)
    (htyped : Schema.evidenceLink (.object link.props) = true) :
    normalizeValue (.object link.imported.props) = normalizeValue (.object link.props) ↔
      link.props.hasOwn "note" = true ∧ link.props.hasOwn "createdAt" = true ∧
        link.props.hasOwn "contradictionState" = false := by
  have hnodup : (Props.names link.imported.props).Nodup := by simp [imported, Props.names]
  have hplain : plainProps link.imported.props := by simp [imported, plainProps, Props.names]
  rw [normalizeValue_object_eq_iff hnodup (record_nodup htyped) hplain
    (plainProps_of_plainNames (Schema.plain_evidenceLink _ htyped))]
  have hrebuilt : ∀ key ∈ ["id", "type", "fromCardId", "toCardId", "note", "createdAt"],
      (Props.own link.imported.props key).map normalizedSlot =
          (Props.own link.props key).map normalizedSlot ↔ link.props.hasOwn key = true := by
    intro key hkey
    have hget := link.get_imported htyped key
    have hstate : key ≠ "contradictionState" := by
      rintro rfl
      simp at hkey
    rw [if_neg hstate, Props.get_eq_own hnodup, Props.get_eq_own (record_nodup htyped)] at hget
    rw [Props.hasOwn_eq_isSome]
    have hown : Props.own link.imported.props key ≠ none := by
      rw [Ne, Props.own_eq_none, not_not]
      exact hkey
    obtain ⟨slot, hslot⟩ := Option.ne_none_iff_exists'.mp hown
    rw [hslot, Option.join_some] at hget
    rw [hslot, hget]
    cases Props.own link.props key <;> simp
  constructor
  · intro hslots
    refine ⟨(hrebuilt _ (by simp)).mp (hslots _), (hrebuilt _ (by simp)).mp (hslots _), ?_⟩
    have hstate := hslots "contradictionState"
    have hnone : Props.own link.imported.props "contradictionState" = none :=
      Props.own_eq_none.mpr (by simp [imported])
    rw [hnone, Option.map_none, eq_comm, Option.map_eq_none_iff] at hstate
    rw [Props.hasOwn_eq_isSome, hstate]
    rfl
  · rintro ⟨hnote, hcreated, hstate⟩ key
    by_cases hkey : key ∈ ["id", "type", "fromCardId", "toCardId", "note", "createdAt"]
    · refine (hrebuilt key hkey).mpr ?_
      simp only [List.mem_cons, List.not_mem_nil, or_false] at hkey
      rcases hkey with rfl | rfl | rfl | rfl | rfl | rfl
      · exact @hasOwn_of_has _ _ htyped _ string (by simp)
      · exact @hasOwn_of_has _ _ htyped _ (literals ["supports", "contradicts"]) (by simp)
      · exact @hasOwn_of_has _ _ htyped _ string (by simp)
      · exact @hasOwn_of_has _ _ htyped _ string (by simp)
      · exact hnote
      · exact hcreated
    · have hnone : Props.own link.imported.props key = none := Props.own_eq_none.mpr hkey
      have hnone' : Props.own link.props key = none := by
        by_cases hkind : key = "contradictionState"
        · subst hkind
          rw [Props.hasOwn_eq_isSome] at hstate
          exact Option.isSome_eq_false_iff.mp hstate |> Option.isNone_iff_eq_none.mp
        · refine record_own htyped ?_
          simp only [List.mem_cons, List.not_mem_nil, or_false, not_or] at hkey
          obtain ⟨hid, htype, hfrom, hto, hnote, hcreated⟩ := hkey
          simp [has, mayHave, Ne.symm hid, Ne.symm htype, Ne.symm hfrom, Ne.symm hto,
            Ne.symm hnote, Ne.symm hcreated, Ne.symm hkind]
      rw [hnone, hnone']

/-- An operation that arrives with the same fingerprint. -/
def PatchOp.Portable (op : PatchOp) : Prop :=
  match op.change with
  | .upsertCard card => card.Portable
  | .upsertIsland island => definedOnly (.object island.props) = true
  | .upsertEdge edge =>
      definedOnly (.object edge.props) = true ∧ edge.props.string? "type" ≠ some ""
  | .upsertRelationSummary summary => definedOnly (.object summary.props) = true
  | .upsertEvidenceLink link => link.Portable
  | _ => True

/-- A payload that is copied arrives with the same fingerprint exactly when
nothing in it is `undefined`. -/
theorem PatchOp.copied_portable_iff {op op' : PatchOp} (hid : op'.id = op.id)
    (hkind : op'.kind = op.kind) (hpayload : op'.payload.2 = jsonImage op.payload.2)
    (hplain : plainNames op.payload.2 = true) :
    normalizeValue op'.toJs = normalizeValue op.toJs ↔ definedOnly op.payload.2 = true := by
  rw [normalizeValue_toJs_iff, and_iff_right hid, and_iff_right hkind, hpayload,
    normalizeValue_jsonImage_iff hplain]

theorem PatchOp.portable_iff (op : PatchOp) (htyped : op.typed = true) :
    (∃ op', op.received = some op' ∧ normalizeValue op'.toJs = normalizeValue op.toJs) ↔
      op.Portable := by
  obtain ⟨id, change⟩ := op
  cases change with
  | upsertCard card =>
      have hnormal : ∀ card' : Card, normalizeValue (toJs ⟨id, .upsertCard card'⟩) =
          normalizeValue (toJs ⟨id, .upsertCard card⟩) ↔
            normalizeValue (.object card'.props) = normalizeValue (.object card.props) :=
        fun card' => normalizeValue_toJs_iff.trans ⟨fun h => h.2.2, fun h => ⟨rfl, rfl, h⟩⟩
      simp only [received, Option.map_eq_some_iff, exists_exists_and_eq_and, hnormal]
      exact parseCard_portable_iff htyped
  | upsertIsland island =>
      simp only [received, parseIsland_json island htyped, Option.map_some, Option.some.injEq,
        exists_eq_left']
      exact copied_portable_iff rfl rfl (jsonImage_object _).symm
        (Schema.plain_island _ htyped)
  | upsertEdge edge =>
      simp only [received, parseEdge_json edge htyped]
      by_cases hempty : edge.props.string? "type" = some ""
      · rw [if_pos hempty]
        exact iff_of_false (by simp) fun hportable => hportable.2 hempty
      · simp only [if_neg hempty, Option.map_some, Option.some.injEq, exists_eq_left']
        have hcopied : normalizeValue (toJs ⟨id, .upsertEdge edge.json⟩) =
            normalizeValue (toJs ⟨id, .upsertEdge edge⟩) ↔
              definedOnly (.object edge.props) = true :=
          copied_portable_iff rfl rfl (jsonImage_object _).symm (Schema.plain_edge _ htyped)
        rw [hcopied]
        exact ⟨fun hdefined => ⟨hdefined, hempty⟩, And.left⟩
  | upsertRelationSummary summary =>
      simp only [received, parseRelationSummary_json summary htyped, Option.map_some,
        Option.some.injEq, exists_eq_left']
      exact copied_portable_iff rfl rfl (jsonImage_object _).symm
        (Schema.plain_relationSummary _ htyped)
  | upsertEvidenceLink link =>
      have hnormal : normalizeValue (toJs ⟨id, .upsertEvidenceLink link.imported⟩) =
          normalizeValue (toJs ⟨id, .upsertEvidenceLink link⟩) ↔
            normalizeValue (.object link.imported.props) = normalizeValue (.object link.props) :=
        normalizeValue_toJs_iff.trans ⟨fun h => h.2.2, fun h => ⟨rfl, rfl, h⟩⟩
      simp only [received, parseEvidenceLink_json link htyped]
      by_cases hself : link.fromCardId = link.toCardId
      · rw [if_pos hself]
        exact iff_of_false (by simp) fun hportable => hportable.endpoints hself
      · simp only [if_neg hself, Option.map_some, Option.some.injEq, exists_eq_left']
        rw [hnormal, link.normalizeValue_imported_iff htyped]
        constructor
        · rintro ⟨hnote, hcreated, hstate⟩
          exact ⟨hself, hnote, hcreated, hstate⟩
        · exact fun hportable =>
            ⟨hportable.note, hportable.createdAt, hportable.contradictionState⟩
  | _ => exact iff_of_true ⟨_, rfl, rfl⟩ trivial

/-! ## Patches -/

theorem PatchOp.id_received {op op' : PatchOp} (hreceived : op.received = some op') :
    op'.id = op.id := by
  obtain ⟨id, change⟩ := op
  cases change <;> simp only [received, Option.map_eq_some_iff, Option.some.injEq] at hreceived
  case upsertCard => obtain ⟨_, -, rfl⟩ := hreceived; rfl
  case upsertIsland => obtain ⟨_, -, rfl⟩ := hreceived; rfl
  case upsertEdge => obtain ⟨_, -, rfl⟩ := hreceived; rfl
  case upsertRelationSummary => obtain ⟨_, -, rfl⟩ := hreceived; rfl
  case upsertEvidenceLink => obtain ⟨_, -, rfl⟩ := hreceived; rfl
  all_goals
    subst hreceived
    rfl

/-- The importer gives every optional text of the envelope to the patch, if
only as `undefined`. -/
theorem PatchV1.envelope_reread_iff (patch : PatchV1) (ops : List PatchOp) :
    (∀ key, key ≠ "ops" →
      (Props.own (patch.reread ops).fingerprintPayload key).map normalizedSlot =
        (Props.own patch.fingerprintPayload key).map normalizedSlot) ↔
      ∀ text ∈ [patch.baseDocSignature, patch.author, patch.authorNote, patch.sourceApp,
        patch.patchId], text.isSome = true := by
  simp only [List.mem_cons, List.not_mem_nil, or_false, forall_eq_or_imp, forall_eq]
  obtain ⟨baseDocSignature, author, authorNote, sourceApp, fingerprint, patchId, patchOps⟩ := patch
  constructor
  · intro hslots
    have hbase := hslots "baseDocSignature" (by simp)
    have hauthor := hslots "author" (by simp)
    have hnote := hslots "authorNote" (by simp)
    have happ := hslots "sourceApp" (by simp)
    have hid := hslots "patchId" (by simp)
    simp only [reread, fingerprintPayload, toProps, Props.own_append, Props.own_cons,
      OptionalText.own_toProps] at hbase hauthor hnote happ hid
    refine ⟨?_, ?_, ?_, ?_, ?_⟩
    · cases baseDocSignature <;> simp_all
    · cases author <;> simp_all
    · cases authorNote <;> simp_all
    · cases sourceApp <;> simp_all
    · cases patchId <;> simp_all
  · simp only [Option.isSome_iff_exists]
    rintro ⟨⟨base, rfl⟩, ⟨author, rfl⟩, ⟨note, rfl⟩, ⟨app, rfl⟩, ⟨id, rfl⟩⟩ key hkey
    simp [reread, fingerprintPayload, toProps, Props.own_append, Props.own_cons,
      OptionalText.own_toProps, Ne.symm hkey]

theorem verifyPatchFingerprint_exported (hash : HashFunction) (next : PatchV1)
    (ops : List PatchOp) :
    verifyPatchFingerprint hash (PatchV1.reread
        { next with patchFingerprint := some (some (computePatchFingerprint hash next)) } ops) =
        true ↔
      canonicalizeJson (.object (next.reread ops).fingerprintPayload) =
        canonicalizeJson (.object next.fingerprintPayload) := by
  rw [verifyPatchFingerprint, PatchV1.reread, Option.join_some, Option.join_some]
  simp only [Bool.and_eq_true, decide_eq_true_eq]
  rw [and_iff_right (show computePatchFingerprint hash next ≠ "" from hash.nonempty _)]
  exact hash.injective.eq_iff

/-- An exported patch verifies after the JSON round trip and the importer
exactly when it has its own `baseDocSignature` and `patchId`, if only
`undefined`, and its operations are portable. -/
theorem fingerprint_survives_iff (hash : HashFunction) (patch : PatchV1)
    (metadata : PatchExportMetadata) (htyped : ∀ op ∈ patch.ops, op.typed = true) :
    (∃ decoded,
      parsePatchDocument (jsonImage (buildPatchForExport hash patch metadata).toJs) =
          some decoded ∧
        verifyPatchFingerprint hash decoded = true) ↔
      patch.baseDocSignature.isSome = true ∧ patch.patchId.isSome = true ∧
        ∀ op ∈ patch.ops, op.Portable := by
  rw [parsePatchDocument_json]
  simp only [PatchV1.received, buildPatchForExport, Option.map_eq_some_iff,
    exists_exists_and_eq_and, verifyPatchFingerprint_exported, canonicalizeJson_payload_iff,
    PatchV1.envelope_reread_iff]
  have henvelope : (∀ text ∈ [(patch.withMetadata metadata).baseDocSignature,
      (patch.withMetadata metadata).author, (patch.withMetadata metadata).authorNote,
      (patch.withMetadata metadata).sourceApp, (patch.withMetadata metadata).patchId],
        text.isSome = true) ↔
      patch.baseDocSignature.isSome = true ∧ patch.patchId.isSome = true := by
    simp [PatchV1.withMetadata]
  have hops : (∃ ops, patch.ops.mapM PatchOp.received = some ops ∧
      ((patch.withMetadata metadata).reread ops).canonicalOps =
        (patch.withMetadata metadata).canonicalOps) ↔ ∀ op ∈ patch.ops, op.Portable := by
    rw [← forall₂_congr fun op hop => op.portable_iff (htyped op hop), ← exists_mapM_iff]
    refine exists_congr fun ops => and_congr_right fun hread => ?_
    exact PatchV1.canonicalOps_eq_iff (map_of_mapM hread fun _ _ => PatchOp.id_received)
  rw [← and_assoc, ← henvelope, ← hops, ← exists_and_left]
  exact exists_congr fun ops => and_left_comm

def HashFunction.marked : HashFunction where
  hex text := .ofList ('#' :: text)
  injective left right heq := by
    have hlist := congrArg String.toList heq
    simpa using hlist
  nonempty text heq := by
    have hlist := congrArg String.toList heq
    simp at hlist

namespace ExportInputs

def metadata : PatchExportMetadata := ⟨some "A", some "note", some "sui-sensemaking"⟩

/-- A patch that was imported itself, so that its envelope is complete. -/
def reexported : PatchV1 :=
  { PatchV1.ofOps [⟨"op-1", .upsertCard (.smallest "c1" "text")⟩] with
    baseDocSignature := some none
    patchId := some none }

theorem reexported_verifies :
    ∃ decoded,
      parsePatchDocument (jsonImage (buildPatchForExport .marked reexported metadata).toJs) =
          some decoded ∧
        verifyPatchFingerprint .marked decoded = true := by
  refine (fingerprint_survives_iff .marked reexported metadata ?_).mpr ⟨rfl, rfl, ?_⟩
  · intro op hop
    rw [List.mem_singleton.mp hop]
    decide
  · intro op hop
    rw [List.mem_singleton.mp hop]
    refine ⟨rfl, rfl, ?_⟩
    intro prop hprop
    simp only [Card.smallest, List.mem_cons, List.not_mem_nil, or_false] at hprop
    rcases hprop with rfl | rfl | rfl | rfl <;> exact ⟨_, rfl, rfl⟩

/-- A patch as the tests export it, without `baseDocSignature` and `patchId`. -/
def patch : PatchV1 := .ofOps [⟨"op-1", .deleteCard "c1"⟩]

theorem not_verified :
    (∀ op ∈ patch.ops, op.typed = true) ∧
      ¬∃ decoded,
        parsePatchDocument (jsonImage (buildPatchForExport .marked patch metadata).toJs) =
            some decoded ∧
          verifyPatchFingerprint .marked decoded = true := by
  refine ⟨by decide, ?_⟩
  rintro ⟨decoded, hparse, hverify⟩
  have hreceived : (buildPatchForExport .marked patch metadata).received =
      some ((buildPatchForExport .marked patch metadata).reread patch.ops) := rfl
  rw [parsePatchDocument_json, hreceived] at hparse
  rw [← Option.some.inj hparse] at hverify
  have htexts := (canonicalizeJson_payload_iff.mp
    ((verifyPatchFingerprint_exported _ (patch.withMetadata metadata) _).mp hverify)).1
  have hbase : Option.isSome (none : OptionalText) = true :=
    (PatchV1.envelope_reread_iff _ _).mp htexts _ List.mem_cons_self
  exact Bool.false_ne_true hbase

end ExportInputs

end KjAtlas
