import KjAtlas.Patch.Parse

/-! # What arrives when a patch is sent as JSON

The entities of a patch are read back from their JSON images. What is read is
described property by property.
-/

namespace KjAtlas

open Js Shape

/-! ## Checks on the JSON image of a record -/

section Checks

variable {fields : List Field} {props : Props} {key : String}

section

variable (hrecord : record fields (.object props) = true)
include hrecord

theorem string?_isSome (hfield : has key string ∈ fields)
    (hunique : ∀ field ∈ fields, field.name = key → field.shape = string) :
    (props.json.string? key).isSome = true := by
  obtain ⟨value, hget, hshape⟩ := record_has hrecord hfield hunique
  obtain ⟨s, rfl⟩ := eq_string hshape
  rw [Props.string?_json, Props.string?, hget]
  rfl

theorem strings?_isSome (hfield : has key (array string) ∈ fields)
    (hunique : ∀ field ∈ fields, field.name = key → field.shape = array string) :
    (props.json.strings? key).isSome = true := by
  obtain ⟨value, hget, hshape⟩ := record_has hrecord hfield hunique
  obtain ⟨texts, htexts⟩ := strings?_of_array hshape
  rw [Props.strings?_json, Props.strings?, hget, Option.bind_some, htexts]
  rfl

theorem bool?_isSome (hfield : has key boolean ∈ fields)
    (hunique : ∀ field ∈ fields, field.name = key → field.shape = boolean) :
    ((props.json.get key).bind JsValue.bool?).isSome = true := by
  obtain ⟨value, hget, hshape⟩ := record_has hrecord hfield hunique
  obtain ⟨b, rfl⟩ := eq_boolean hshape
  rw [Props.get_json, hget]
  rfl

end

theorem optionally_json {shape : Shape} {check : JsValue → Bool}
    (hcheck : ∀ value, shape value = true → check (jsonImage value) = true)
    (hrecord : record fields (.object props) = true)
    (hunique : ∀ field ∈ fields, field.name = key → field.shape = shape) :
    optionally props.json key check = true := by
  rw [optionally, Props.get_json, Option.all_map, Option.all_eq_true]
  exact fun value hget => hcheck value (record_shape hrecord hunique hget)

theorem isString_jsonImage (value : JsValue) (hvalue : string value = true) :
    isString (jsonImage value) = true := by
  obtain ⟨s, rfl⟩ := eq_string hvalue
  rfl

theorem isBoolean_jsonImage (value : JsValue) (hvalue : boolean value = true) :
    isBoolean (jsonImage value) = true := by
  obtain ⟨b, rfl⟩ := eq_boolean hvalue
  rfl

theorem isStringArray_jsonImage (value : JsValue) (hvalue : array string value = true) :
    isStringArray (jsonImage value) = true := by
  obtain ⟨texts, htexts⟩ := strings?_of_array hvalue
  rw [isStringArray, strings?_jsonImage, htexts]
  rfl

theorem endpointKind?_json (hrecord : record fields (.object props) = true)
    (hunique : ∀ field ∈ fields, field.name = key → field.shape = Schema.edgeEndpointKind) :
    (endpointKind? (props.json.get key)).isSome = true := by
  rw [Props.get_json]
  cases hget : props.get key with
  | none => rfl
  | some value =>
      obtain ⟨s, hs, rfl⟩ := eq_literal (record_shape hrecord hunique hget)
      simp only [List.mem_cons, List.not_mem_nil, or_false] at hs
      rcases hs with rfl | rfl <;> rfl

theorem get_of_not_declared (hrecord : record fields (.object props) = true)
    (hkey : ∀ field ∈ fields, field.name ≠ key) : props.get key = none := by
  cases hget : props.get key with
  | none => rfl
  | some value =>
      obtain ⟨field, hfield, hname, -⟩ := record_get hrecord hget
      exact absurd hname (hkey field hfield)

theorem string?_map_string (hrecord : record fields (.object props) = true)
    (hunique : ∀ field ∈ fields, field.name = key → field.shape = string) :
    (props.string? key).map .string = props.get key := by
  rw [Props.string?]
  cases hget : props.get key with
  | none => rfl
  | some value =>
      obtain ⟨s, rfl⟩ := eq_string (record_shape hrecord hunique hget)
      rfl

end Checks

/-! ## Entities that are copied -/

theorem Card.ofProps?_props (card : Card) : Card.ofProps? card.props = some card := by
  obtain ⟨props, id, hid⟩ := card
  unfold ofProps?
  split
  next h =>
    rw [hid] at h
    cases h
    rfl
  next h =>
    rw [hid] at h
    contradiction

theorem Island.ofProps?_props (island : Island) : Island.ofProps? island.props = some island := by
  obtain ⟨props, id, cardIds, hid, hcardIds⟩ := island
  unfold ofProps?
  split
  next h₁ h₂ =>
    rw [hid] at h₁
    rw [hcardIds] at h₂
    cases h₁
    cases h₂
    rfl
  next h => exact (h id cardIds hid hcardIds).elim

theorem Edge.ofProps?_props (edge : Edge) : Edge.ofProps? edge.props = some edge := by
  obtain ⟨props, id, fromId, toId, fromKind, toKind, hid, hfrom, hto, hfromKind, htoKind⟩ := edge
  have hfromKind' := endpointKind?_eq_some.mpr hfromKind
  have htoKind' := endpointKind?_eq_some.mpr htoKind
  unfold ofProps?
  split
  next h₁ h₂ h₃ h₄ h₅ =>
    rw [hid] at h₁
    rw [hfrom] at h₂
    rw [hto] at h₃
    rw [hfromKind'] at h₄
    rw [htoKind'] at h₅
    cases h₁
    cases h₂
    cases h₃
    cases h₄
    cases h₅
    rfl
  next h => exact (h id fromId toId fromKind toKind hid hfrom hto hfromKind' htoKind').elim

theorem EvidenceLink.ofProps?_props (link : EvidenceLink) :
    EvidenceLink.ofProps? link.props = some link := by
  obtain ⟨props, id, fromCardId, toCardId, hid, hfrom, hto⟩ := link
  unfold ofProps?
  split
  next h₁ h₂ h₃ =>
    rw [hid] at h₁
    rw [hfrom] at h₂
    rw [hto] at h₃
    cases h₁
    cases h₂
    cases h₃
    rfl
  next h => exact (h id fromCardId toCardId hid hfrom hto).elim

theorem RelationSummary.ofProps?_props (summary : RelationSummary) :
    RelationSummary.ofProps? summary.props = some summary := by
  obtain ⟨props, sourceSignature, cardIds, edgeIds, hsignature, hcardIds, hedgeIds⟩ := summary
  unfold ofProps?
  split
  next h₁ h₂ h₃ =>
    rw [hsignature] at h₁
    rw [hcardIds] at h₂
    rw [hedgeIds] at h₃
    cases h₁
    cases h₂
    cases h₃
    rfl
  next h => exact (h sourceSignature cardIds edgeIds hsignature hcardIds hedgeIds).elim

theorem parseIsland_json (island : Island) (htyped : Schema.island (.object island.props) = true) :
    parseIsland (.object island.props.json) = some island.json := by
  have htext := fun key => @optionally_json _ _ key _ _ isString_jsonImage htyped
  have htexts := fun key => @optionally_json _ _ key _ _ isStringArray_jsonImage htyped
  have hflag := fun key => @optionally_json _ _ key _ _ isBoolean_jsonImage htyped
  rw [parseIsland, if_pos]
  · exact island.json.ofProps?_props
  · simp only [JsValue.props, Bool.and_eq_true, and_assoc]
    refine ⟨string?_isSome htyped (by simp) ?_, strings?_isSome htyped (by simp) ?_,
      htext _ ?_, htext _ ?_, hflag _ ?_, htext _ ?_, hflag _ ?_, htext _ ?_, hflag _ ?_,
      htexts _ ?_, htext _ ?_, hflag _ ?_, htext _ ?_, htexts _ ?_, hflag _ ?_⟩ <;>
    simp [has, mayHave]

/-- An edge arrives unless its type is empty. -/
theorem parseEdge_json (edge : Edge) (htyped : Schema.edge (.object edge.props) = true) :
    parseEdge (.object edge.props.json) =
      if edge.props.string? "type" = some "" then none else some edge.json := by
  obtain ⟨value, htype, hshape⟩ := record_has htyped
    (show has "type" string ∈ _ by simp) (by simp [has, mayHave])
  obtain ⟨s, rfl⟩ := eq_string hshape
  have htext : edge.props.string? "type" = some s := by rw [Props.string?, htype]; rfl
  have htype' : (nonEmptyText? edge.props.json "type").isSome = decide (s ≠ "") := by
    rw [nonEmptyText?, Props.string?_json, htext]
    by_cases hempty : s = "" <;> simp [hempty]
  by_cases hempty : s = ""
  · rw [htext, if_pos (by rw [hempty]), parseEdge, if_neg]
    simp only [JsValue.props, Bool.and_eq_true, htype']
    simp [hempty]
  · rw [htext, if_neg (by simpa using hempty), parseEdge, if_pos]
    · exact edge.json.ofProps?_props
    · simp only [JsValue.props, Bool.and_eq_true, and_assoc, htype']
      refine ⟨string?_isSome htyped (by simp) ?_, string?_isSome htyped (by simp) ?_,
        string?_isSome htyped (by simp) ?_, by simp [hempty], endpointKind?_json htyped ?_,
        endpointKind?_json htyped ?_⟩ <;>
      simp [has, mayHave]

theorem parseRelationSummary_json (summary : RelationSummary)
    (htyped : Schema.relationSummary (.object summary.props) = true) :
    parseRelationSummary (.object summary.props.json) = some summary.json := by
  obtain ⟨value, htype, hshape⟩ := record_has htyped
    (show has "relationType" (literals (Schema.knownEdgeTypes ++ ["unknown"])) ∈ _ by simp)
    (by simp [has, mayHave])
  obtain ⟨s, hs, rfl⟩ := eq_literal hshape
  rw [parseRelationSummary, if_pos]
  · exact summary.json.ofProps?_props
  · have htext : summary.props.string? "relationType" = some s := by
      rw [Props.string?, htype]
      rfl
    have hknown : (decide (s = "unknown") || Schema.knownEdgeTypes.contains s) = true := by
      rcases mem_snoc.mp hs with hmem | hmem
      · simp [hmem]
      · simp [hmem]
    have htype' : (summary.props.json.string? "relationType").any (fun relationType =>
        decide (relationType = "unknown") || Schema.knownEdgeTypes.contains relationType) =
          true := by
      rw [Props.string?_json, htext]
      exact hknown
    simp only [JsValue.props, Bool.and_eq_true, and_assoc]
    refine ⟨string?_isSome htyped (by simp) ?_, string?_isSome htyped (by simp) ?_,
      string?_isSome htyped (by simp) ?_, string?_isSome htyped (by simp) ?_, htype',
      bool?_isSome htyped (by simp) ?_, string?_isSome htyped (by simp) ?_,
      bool?_isSome htyped (by simp) ?_, strings?_isSome htyped (by simp) ?_,
      strings?_isSome htyped (by simp) ?_, string?_isSome htyped (by simp) ?_,
      optionally_json isStringArray_jsonImage htyped ?_⟩ <;>
    simp [has, mayHave]

def EvidenceLink.imported (link : EvidenceLink) : EvidenceLink where
  props := [("id", some (.string link.id)),
    ("type", (link.props.string? "type").map .string),
    ("fromCardId", some (.string link.fromCardId)), ("toCardId", some (.string link.toCardId)),
    ("note", (link.props.string? "note").map .string),
    ("createdAt", (link.props.string? "createdAt").map .string)]
  id := link.id
  fromCardId := link.fromCardId
  toCardId := link.toCardId
  id_eq := by simp [Props.string?, Props.get_cons, JsValue.string?]
  fromCardId_eq := by simp [Props.string?, Props.get_cons, JsValue.string?]
  toCardId_eq := by simp [Props.string?, Props.get_cons, JsValue.string?]

theorem parseEvidenceLink_json (link : EvidenceLink)
    (htyped : Schema.evidenceLink (.object link.props) = true) :
    parseEvidenceLink (.object link.props.json) =
      if link.fromCardId = link.toCardId then none else some link.imported := by
  obtain ⟨value, htype, hshape⟩ := record_has htyped
    (show has "type" (literals ["supports", "contradicts"]) ∈ _ by simp)
    (by simp [has, mayHave])
  obtain ⟨s, hs, rfl⟩ := eq_literal hshape
  have htext : link.props.string? "type" = some s := by rw [Props.string?, htype]; rfl
  have hknown : ¬(s ≠ "supports" ∧ s ≠ "contradicts") := by
    simp only [List.mem_cons, List.not_mem_nil, or_false] at hs
    rcases hs with rfl | rfl <;> simp
  simp only [parseEvidenceLink, JsValue.props, Props.string?_json, link.id_eq, link.fromCardId_eq,
    link.toCardId_eq, htext, if_neg hknown]
  split
  · rfl
  · have himported := link.imported.ofProps?_props
    simpa only [EvidenceLink.imported, htext, Option.map_some] using himported

theorem EvidenceLink.get_imported (link : EvidenceLink)
    (htyped : Schema.evidenceLink (.object link.props) = true) (key : String) :
    link.imported.props.get key =
      if key = "contradictionState" then none else link.props.get key := by
  have hstring : ∀ {key text}, link.props.string? key = some text →
      link.props.get key = some (.string text) := by
    intro key text htext
    obtain ⟨value, hget, hvalue⟩ := Option.bind_eq_some_iff.mp htext
    cases value <;> simp_all [JsValue.string?]
  have hoptional := fun key => @string?_map_string _ _ key htyped
  have htype : (link.props.string? "type").map .string = link.props.get "type" := by
    obtain ⟨value, hget, hshape⟩ := record_has htyped
      (show has "type" (literals ["supports", "contradicts"]) ∈ _ by simp)
      (by simp [has, mayHave])
    obtain ⟨s, -, rfl⟩ := eq_literal hshape
    rw [Props.string?, hget]
    rfl
  simp only [imported, Props.get_cons, Props.get_nil, Option.or_none, htype,
    ← hstring link.id_eq, ← hstring link.fromCardId_eq, ← hstring link.toCardId_eq,
    hoptional "note" (by simp [has, mayHave]), hoptional "createdAt" (by simp [has, mayHave])]
  by_cases hkey : key ∈ ["id", "type", "fromCardId", "toCardId", "note", "createdAt"]
  · simp only [List.mem_cons, List.not_mem_nil, or_false] at hkey
    rcases hkey with rfl | rfl | rfl | rfl | rfl | rfl <;> simp
  · simp only [List.mem_cons, List.not_mem_nil, or_false, not_or] at hkey
    obtain ⟨hid, htype, hfrom, hto, hnote, hcreated⟩ := hkey
    simp only [Ne.symm hid, Ne.symm htype, Ne.symm hfrom, Ne.symm hto, Ne.symm hnote,
      Ne.symm hcreated, if_false, Option.none_or]
    split
    next => rfl
    next hstate =>
      refine (get_of_not_declared htyped ?_).symm
      simp [has, mayHave, Ne.symm hid, Ne.symm htype, Ne.symm hfrom, Ne.symm hto, Ne.symm hnote,
        Ne.symm hcreated, Ne.symm hstate]

/-! ## Rebuilt properties of cards -/

def keeps (value : JsValue) : Bool := decide (value ≠ .string "") && finiteOnly value

/-- The properties of a rebuilt object are those of the original that are kept. -/
structure Rebuilds (original fields : Props) : Prop where
  nodup : (Props.names fields).Nodup
  plain : plainProps fields
  get : ∀ key, fields.get key = (original.get key).filter keeps

theorem nonEmptyText?_json {fields : List Field} {props : Props} {key : String}
    (hrecord : record fields (.object props) = true)
    (hunique : ∀ field ∈ fields, field.name = key → field.shape = string) :
    nonEmptyText? props.json key = (props.get key).filter keeps := by
  rw [nonEmptyText?, Props.string?_json, Props.string?]
  cases hget : props.get key with
  | none => rfl
  | some value =>
      obtain ⟨s, rfl⟩ := eq_string (record_shape hrecord hunique hget)
      by_cases hempty : s = ""
      · subst hempty
        rfl
      · have hkeeps : keeps (.string s) = true := by
          simp [keeps, hempty, finiteOnly, JsValue.fold]
        rw [Option.filter_some, if_pos hkeeps]
        exact if_pos hempty

theorem finite?_json {fields : List Field} {props : Props} {key : String}
    (hrecord : record fields (.object props) = true)
    (hunique : ∀ field ∈ fields, field.name = key → field.shape = number) :
    ((props.json.get key).bind fun value => value.finite?.map .number) =
      (props.get key).filter keeps := by
  rw [Props.get_json]
  cases hget : props.get key with
  | none => rfl
  | some value =>
      obtain ⟨n, rfl⟩ := eq_number (record_shape hrecord hunique hget)
      cases n <;> rfl

theorem get_pair {left right : Field} {props : Props}
    (hrecord : record [left, right] (.object props) = true) (key : String) :
    Props.get [(left.name, (props.get left.name).filter keeps),
      (right.name, (props.get right.name).filter keeps)] key = (props.get key).filter keeps := by
  simp only [Props.get_cons, Props.get_nil, Option.or_none]
  by_cases hleft : left.name = key
  · subst hleft
    rw [if_pos rfl]
    split
    next heq => rw [heq, Option.or_self]
    next => rw [Option.or_none]
  · rw [if_neg hleft, Option.none_or]
    split
    next hright => rw [hright]
    next hright =>
      rw [get_of_not_declared hrecord (by simp [hleft, hright])]
      rfl

theorem sanitizedKa_json {ka : Props} (htyped : Schema.cardKa (.object ka) = true) :
    ∃ fields, sanitizedKa ka.json = rebuild fields ∧ Rebuilds ka fields := by
  rw [sanitizedKa, nonEmptyText?_json htyped (by simp [mayHave]),
    nonEmptyText?_json htyped (by simp [mayHave])]
  exact ⟨_, rfl, by simp [Props.names], by simp [plainProps, Props.names], get_pair htyped⟩

theorem sanitizedMeta_json {cardMeta : Props} (htyped : Schema.cardMeta (.object cardMeta) = true) :
    ∃ fields, sanitizedMeta cardMeta.json = rebuild fields ∧ Rebuilds cardMeta fields := by
  rw [sanitizedMeta, finite?_json htyped (by simp [mayHave]),
    nonEmptyText?_json htyped (by simp [mayHave])]
  exact ⟨_, rfl, by simp [Props.names], by simp [plainProps, Props.names], get_pair htyped⟩

/-! ## Cards -/

variable {card : Props}

theorem sanitize_spec {key : String} (sanitized : Props → Option JsValue)
    (hnodup : card.names.Nodup) (hdefined : ∀ prop ∈ card, prop.2.isSome = true)
    (hrecord : ∀ value ∈ card.get key, value.isRecord = true) :
    ∃ card', sanitize key sanitized card = some card' ∧ (Props.names card').Nodup ∧
      (∀ prop ∈ card', prop.2.isSome = true) ∧ ∀ key', Props.get card' key' =
        if key' = key then (card.get key).bind fun value => sanitized value.props
        else card.get key' := by
  cases hget : card.get key with
  | none =>
      refine ⟨card, by rw [sanitize, hget], hnodup, hdefined, fun key' => ?_⟩
      split
      next heq => rw [heq, hget]; rfl
      next => rfl
  | some value =>
      have hrest : (Props.names (card.filter fun prop => !decide (prop.1 = key))).Nodup :=
        hnodup.sublist (List.filter_sublist.map _)
      have hkeep : ∀ prop ∈ card.filter fun prop => !decide (prop.1 = key),
          prop.2.isSome = true := fun prop hprop => hdefined prop (List.mem_filter.mp hprop).1
      simp only [sanitize, hget, hrecord value hget, if_true, Option.bind_some]
      cases hsanitized : sanitized value.props with
      | none =>
          refine ⟨_, rfl, hrest, hkeep, fun key' => ?_⟩
          exact Props.get_filter_ne card key key'
      | some new =>
          refine ⟨_, rfl, ?_, ?_, fun key' => ?_⟩
          · rw [Props.names, List.map_append, List.nodup_append]
            refine ⟨hrest, by simp, ?_⟩
            rintro name hname _ hkey rfl
            obtain ⟨prop, hprop, rfl⟩ := List.mem_map.mp hname
            have hne := (List.mem_filter.mp hprop).2
            simp_all
          · intro prop hprop
            rcases mem_snoc.mp hprop with hold | hnew
            · exact hkeep prop hold
            · rw [hnew]
              rfl
          · rw [Props.get_append, Props.get_filter_ne, Props.get_cons]
            by_cases heq : key' = key
            · simp [heq]
            · simp [heq, Ne.symm heq]

def importedField (card : Props) (key : String) : Option JsValue :=
  if key = "ka" then (card.get "ka").bind fun value => sanitizedKa (jsonImage value).props
  else if key = "meta" then (card.get "meta").bind fun value => sanitizedMeta (jsonImage value).props
  else (card.get key).map jsonImage

/-- The properties of a card that are rebuilt. -/
def rebuiltNames : List String := ["meta", "ka"]

theorem importedField_of_none {key : String} (hget : card.get key = none) :
    importedField card key = none := by
  unfold importedField
  split
  next hka => rw [← hka, hget]; rfl
  next =>
    split
    next hmeta => rw [← hmeta, hget]; rfl
    next => rw [hget]; rfl

theorem importedField_copied {key : String} (hkey : key ∉ rebuiltNames) :
    importedField card key = (card.get key).map jsonImage := by
  simp only [rebuiltNames, List.mem_cons, List.not_mem_nil, or_false, not_or] at hkey
  rw [importedField, if_neg hkey.2, if_neg hkey.1]

/-- `meta` and `ka` are objects, and they are rebuilt. -/
theorem importedField_rebuilt (htyped : Schema.card (.object card) = true) {key : String}
    (hkey : key ∈ rebuiltNames) {value : JsValue} (hget : card.get key = some value) :
    ∃ original fields, value = .object original ∧ (Props.names original).Nodup ∧
      plainProps original ∧ importedField card key = rebuild fields ∧
        Rebuilds original fields := by
  rcases List.mem_pair.mp hkey with rfl | rfl
  · have hshape : Schema.cardMeta value = true :=
      record_shape htyped (by simp [has, mayHave]) hget
    obtain ⟨original, rfl⟩ := isObject_of_record hshape
    obtain ⟨fields, hrebuild, hfields⟩ := sanitizedMeta_json hshape
    refine ⟨original, fields, rfl, record_nodup hshape,
      plainProps_of_plainNames (Schema.plain_cardMeta _ hshape), ?_, hfields⟩
    rw [importedField, if_neg (by decide), if_pos rfl, hget, Option.bind_some, jsonImage_object]
    exact hrebuild
  · have hshape : Schema.cardKa value = true :=
      record_shape htyped (by simp [has, mayHave]) hget
    obtain ⟨original, rfl⟩ := isObject_of_record hshape
    obtain ⟨fields, hrebuild, hfields⟩ := sanitizedKa_json hshape
    refine ⟨original, fields, rfl, record_nodup hshape,
      plainProps_of_plainNames (Schema.plain_cardKa _ hshape), ?_, hfields⟩
    rw [importedField, if_pos rfl, hget, Option.bind_some, jsonImage_object]
    exact hrebuild

def finiteAt (props : Props) (key : String) : Bool :=
  ((props.get key).bind JsValue.finite?).isSome

theorem finiteAt_json {fields : List Field} {props : Props} {key : String}
    (hrecord : record fields (.object props) = true)
    (hunique : ∀ field ∈ fields, field.name = key → field.shape = number) :
    finiteAt props.json key = finiteAt props key := by
  rw [finiteAt, finiteAt, Props.get_json]
  cases hget : props.get key with
  | none => rfl
  | some value =>
      obtain ⟨n, rfl⟩ := eq_number (record_shape hrecord hunique hget)
      cases n <;> rfl

theorem isRecord_json {fields : List Field} {props : Props} (key : String) {shape : Shape}
    (hrecord : record fields (.object props) = true)
    (hobject : ∀ value, shape value = true → ∃ inner, value = .object inner)
    (hunique : ∀ field ∈ fields, field.name = key → field.shape = shape) :
    ∀ value ∈ props.json.get key, value.isRecord = true := by
  intro value hvalue
  rw [Props.get_json, Option.mem_map] at hvalue
  obtain ⟨value, hget, rfl⟩ := hvalue
  obtain ⟨inner, rfl⟩ := hobject _ (record_shape hrecord hunique hget)
  rw [jsonImage_object]
  rfl

theorem all_defined_json (props : Props) : ∀ prop ∈ props.json, prop.2.isSome = true :=
  fun _ hprop => (List.mem_filter.mp hprop).2

/-- A card with finite coordinates arrives, with `meta` and `ka` sanitized. -/
theorem parseCard_json (card : Card) (htyped : Schema.card (.object card.props) = true)
    (hx : finiteAt card.props "x" = true) (hy : finiteAt card.props "y" = true) :
    ∃ card', parseCard (.object card.props.json) = some card' ∧
      (Props.names card'.props).Nodup ∧ (∀ prop ∈ card'.props, prop.2.isSome = true) ∧
        ∀ key, card'.props.get key = importedField card.props key := by
  have hnodup : (Props.names card.props.json).Nodup := by
    rw [Props.names_json]
    exact Props.names_defined (record_nodup htyped)
  obtain ⟨withMeta, hmeta, hnodupMeta, hdefinedMeta, hgetMeta⟩ :=
    sanitize_spec sanitizedMeta hnodup (all_defined_json card.props)
      (isRecord_json "meta" htyped
        (fun value (h : Schema.cardMeta value = true) => isObject_of_record h)
        (by simp [has, mayHave]))
  have hkaRecord : ∀ value ∈ Props.get withMeta "ka", value.isRecord = true := by
    rw [hgetMeta, if_neg (by decide)]
    exact isRecord_json "ka" htyped
      (fun value (h : Schema.cardKa value = true) => isObject_of_record h)
      (by simp [has, mayHave])
  obtain ⟨withKa, hka, hnodupKa, hdefinedKa, hgetKa⟩ :=
    sanitize_spec sanitizedKa hnodupMeta hdefinedMeta hkaRecord
  have hget : ∀ key, Props.get withKa key = importedField card.props key := by
    intro key
    rw [hgetKa, hgetMeta "ka", if_neg (show ¬"ka" = "meta" by decide), hgetMeta, importedField]
    simp only [Props.get_json, Option.bind_map, Function.comp_def]
  have hid : Props.string? withKa "id" = some card.id := by
    rw [Props.string?, hget, importedField, if_neg (by decide), if_neg (by decide),
      ← Props.get_json, ← Props.string?, Props.string?_json, card.id_eq]
  refine ⟨⟨withKa, card.id, hid⟩, ?_, hnodupKa, hdefinedKa, hget⟩
  have htext := fun key => @optionally_json _ _ key _ _ isString_jsonImage htyped
  have htexts := fun key => @optionally_json _ _ key _ _ isStringArray_jsonImage htyped
  have hflag := fun key => @optionally_json _ _ key _ _ isBoolean_jsonImage htyped
  rw [parseCard, if_pos]
  · rw [JsValue.props, hmeta, Option.bind_some, hka, Option.bind_some]
    exact Card.ofProps?_props ⟨withKa, card.id, hid⟩
  · simp only [JsValue.props, Bool.and_eq_true, and_assoc]
    refine ⟨string?_isSome htyped (by simp) ?_, string?_isSome htyped (by simp) ?_,
      (finiteAt_json htyped ?_).trans hx, (finiteAt_json htyped ?_).trans hy,
      htext _ ?_, htexts _ ?_, htext _ ?_, htexts _ ?_, hflag _ ?_⟩ <;>
    simp [has, mayHave]

/-- A card with other coordinates does not arrive. -/
theorem parseCard_json_eq_none (card : Card) (htyped : Schema.card (.object card.props) = true)
    (hcoordinates : ¬(finiteAt card.props "x" = true ∧ finiteAt card.props "y" = true)) :
    parseCard (.object card.props.json) = none := by
  have hx : finiteAt card.props.json "x" = finiteAt card.props "x" :=
    finiteAt_json htyped (by simp [has, mayHave])
  have hy : finiteAt card.props.json "y" = finiteAt card.props "y" :=
    finiteAt_json htyped (by simp [has, mayHave])
  rw [parseCard, if_neg]
  simp only [JsValue.props, Bool.and_eq_true, and_assoc]
  rintro ⟨_, _, hx', hy', _⟩
  exact hcoordinates ⟨hx.symm.trans hx', hy.symm.trans hy'⟩

/-! ## Operations and patches -/

/-- The payload of an operation is of its declared type. -/
def PatchOp.typed (op : PatchOp) : Bool :=
  match op.change with
  | .upsertCard card => Schema.card (.object card.props)
  | .upsertIsland island => Schema.island (.object island.props)
  | .upsertEdge edge => Schema.edge (.object edge.props)
  | .upsertRelationSummary summary => Schema.relationSummary (.object summary.props)
  | .upsertEvidenceLink link => Schema.evidenceLink (.object link.props)
  | _ => true

/-- What arrives of an operation. -/
def PatchOp.received (op : PatchOp) : Option PatchOp :=
  match op.change with
  | .upsertCard card =>
      (parseCard (.object card.props.json)).map fun card => ⟨op.id, .upsertCard card⟩
  | .upsertIsland island =>
      (parseIsland (.object island.props.json)).map fun island => ⟨op.id, .upsertIsland island⟩
  | .upsertEdge edge =>
      (parseEdge (.object edge.props.json)).map fun edge => ⟨op.id, .upsertEdge edge⟩
  | .upsertRelationSummary summary =>
      (parseRelationSummary (.object summary.props.json)).map fun summary =>
        ⟨op.id, .upsertRelationSummary summary⟩
  | .upsertEvidenceLink link =>
      (parseEvidenceLink (.object link.props.json)).map fun link =>
        ⟨op.id, .upsertEvidenceLink link⟩
  | _ => some op

theorem PatchOp.props_json (op : PatchOp) :
    (jsonImage op.toJs).props = [("id", some (.string op.id)), ("kind", some (.string op.kind.text)),
      (op.payload.1, some (jsonImage op.payload.2))] := by
  rw [toJs, jsonImage_object]
  rfl

theorem parsePatchOp_json (op : PatchOp) : parsePatchOp (jsonImage op.toJs) = op.received := by
  obtain ⟨id, change⟩ := op
  cases change <;>
    simp [parsePatchOp, PatchOp.props_json, PatchOp.received, PatchOp.kind, PatchOpKind.text,
      PatchOp.payload, Props.string?, Props.get_cons, JsValue.string?, jsonImage_object]

theorem OptionalText.get_toProps (name : String) (field : OptionalText) (key : String) :
    Props.get (field.toProps name) key =
      if name = key then field.join.map .string else none := by
  cases field with
  | none => exact (ite_self _).symm
  | some text => exact (Props.get_cons _ _ _).trans (Option.or_none)

/-- The envelope as it is read back, around operations. -/
def PatchV1.reread (patch : PatchV1) (ops : List PatchOp) : PatchV1 where
  baseDocSignature := some patch.baseDocSignature.join
  author := some patch.author.join
  authorNote := some patch.authorNote.join
  sourceApp := some patch.sourceApp.join
  patchFingerprint := some patch.patchFingerprint.join
  patchId := some patch.patchId.join
  ops

def PatchV1.received (patch : PatchV1) : Option PatchV1 :=
  (patch.ops.mapM PatchOp.received).map patch.reread

/-- What is read under the names of the optional texts of the envelope. -/
theorem PatchV1.get_toProps (patch : PatchV1) :
    patch.toProps.get "baseDocSignature" = patch.baseDocSignature.join.map .string ∧
      patch.toProps.get "author" = patch.author.join.map .string ∧
      patch.toProps.get "authorNote" = patch.authorNote.join.map .string ∧
      patch.toProps.get "sourceApp" = patch.sourceApp.join.map .string ∧
      patch.toProps.get "patchFingerprint" = patch.patchFingerprint.join.map .string ∧
      patch.toProps.get "patchId" = patch.patchId.join.map .string := by
  simp [toProps, Props.get_append, Props.get_cons, OptionalText.get_toProps]

theorem parsePatchDocument_json (patch : PatchV1) :
    parsePatchDocument (jsonImage patch.toJs) = patch.received := by
  have hget : ∀ key, (jsonImage patch.toJs).props.get key =
      (patch.toProps.get key).map jsonImage := by
    intro key
    rw [PatchV1.toJs, jsonImage_object]
    exact Props.get_json _ _
  have hops : (jsonImage patch.toJs).props.get "ops" =
      some (.array ((patch.ops.map PatchOp.toJs).map jsonImage)) := by
    rw [hget, ← jsonImage_array]
    simp [PatchV1.toProps, Props.get_append, Props.get_cons, OptionalText.get_toProps]
  have hkind : (jsonImage patch.toJs).props.get "kind" =
      some (.string "sui-sensemaking-patch") := by
    rw [hget]
    rfl
  have hversion : (jsonImage patch.toJs).props.get "version" = some (.number .one) := by
    rw [hget]
    rfl
  obtain ⟨hbase, hauthor, hnote, happ, hfingerprint, hid⟩ := patch.get_toProps
  have htext : ∀ text : Option String,
      ((text.map JsValue.string).map jsonImage).all isString = true := by
    intro text
    cases text <;> rfl
  have hread : ∀ text : Option String,
      ((text.map JsValue.string).map jsonImage).bind JsValue.string? = text := by
    intro text
    cases text <;> rfl
  have hdecode : (parsePatchOp ∘ jsonImage) ∘ PatchOp.toJs = PatchOp.received :=
    funext parsePatchOp_json
  simp only [parsePatchDocument, hkind, hversion, hops, optionally, hget, hauthor, hnote, happ,
    hfingerprint, hid, htext, Props.string?, hbase, hread, and_self, if_true, Bool.and_self,
    List.mapM_map, hdecode]
  rfl

end KjAtlas
