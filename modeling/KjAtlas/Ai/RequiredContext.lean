import KjAtlas.Ai.Documents

/-! # Required context

Some tasks make no sense of a part of their context. Their projection must carry
the texts of the required cards in full, and the relations and the evidence
between them: where it does not, the request ends before a provider is asked.
-/

namespace KjAtlas.Ai

open Ir (SourceEvidenceLink)

variable {F : Type}

/-- `_is_card_relation`. -/
def IsCardRelation (relation : SourceRelation) : Prop :=
  relation.fromKind ≠ some .island ∧ relation.toKind ≠ some .island ∧
    relation.type ∈ relationTypes

instance (relation : SourceRelation) : Decidable (IsCardRelation relation) :=
  inferInstanceAs (Decidable (_ ∧ _ ∧ _))

/-- What a task requires of its projection. -/
structure RequiredContext where
  cardIds : List String
  relations : List SourceRelation
  evidence : List SourceEvidenceLink

/-- The relations and the evidence at a set of cards, with the cards at their ends. -/
def contextAround (source : Ir.IRSource F) (ids : List String) : RequiredContext :=
  let relations := source.relations.filter fun relation =>
    decide (IsCardRelation relation) && (ids.contains relation.fromId || ids.contains relation.toId)
  let evidence := source.evidenceLinks.filter fun link =>
    ids.contains link.fromCardId || ids.contains link.toCardId
  { cardIds := distinct (ids ++ relations.flatMap (fun relation => [relation.fromId, relation.toId]) ++
      evidence.flatMap fun link => [link.fromCardId, link.toCardId])
    relations
    evidence }

/-- The relations and the evidence between the cards of a set. -/
def contextWithin (source : Ir.IRSource F) (ids : List String) : RequiredContext where
  cardIds := ids
  relations := source.relations.filter fun relation =>
    decide (IsCardRelation relation) && (ids.contains relation.fromId && ids.contains relation.toId)
  evidence := source.evidenceLinks.filter fun link =>
    ids.contains link.fromCardId && ids.contains link.toCardId

/-- The messages for a context that is not complete. -/
structure ContextMessages where
  text : String
  cards : String
  relations : String
  evidence : String

/-- The projection has the cards that are required, and no others if `exactly`. -/
def HasCards (ir : Ir.LlmInputIr F) (ids : List String) (exactly : Bool) : Prop :=
  (∀ id ∈ ids, id ∈ ir.cards.map Ir.IrCard.id) ∧
    (exactly = true → ∀ card ∈ ir.cards, card.id ∈ ids)

instance (ir : Ir.LlmInputIr F) (ids : List String) (exactly : Bool) :
    Decidable (HasCards ir ids exactly) :=
  inferInstanceAs (Decidable (_ ∧ (_ → _)))

def HasRelations (ir : Ir.LlmInputIr F) (relations : List SourceRelation) : Prop :=
  ∀ relation ∈ relations, (relation.fromId, relation.toId, relation.type) ∈
    ir.relations.map fun relation => (relation.fromId, relation.toId, relation.type)

instance (ir : Ir.LlmInputIr F) (relations : List SourceRelation) :
    Decidable (HasRelations ir relations) :=
  inferInstanceAs (Decidable (∀ _ ∈ _, _))

def HasEvidence (ir : Ir.LlmInputIr F) (evidence : List SourceEvidenceLink) : Prop :=
  ∀ link ∈ evidence, link.key ∈ ir.evidenceLinks.map Ir.IrEvidenceLink.key

instance (ir : Ir.LlmInputIr F) (evidence : List SourceEvidenceLink) :
    Decidable (HasEvidence ir evidence) :=
  inferInstanceAs (Decidable (∀ _ ∈ _, _))

/-- The checks of a projection after it is built. -/
def checkContext (messages : ContextMessages) (context : RequiredContext) (exactly : Bool)
    (ir : Ir.LlmInputIr F) : Except IRGenerationError Unit := do
  ensure ("MAX_TEXT_CHARS" ∉ ir.truncation.reasonCodes) ⟨"required_text_truncated", messages.text⟩
  ensure (HasCards ir context.cardIds exactly) ⟨"required_card_context_mismatch", messages.cards⟩
  ensure (HasRelations ir context.relations) ⟨"required_relation_missing", messages.relations⟩
  ensure (HasEvidence ir context.evidence) ⟨"required_evidence_missing", messages.evidence⟩

/-- A projection with a context that it must carry. -/
def buildWithContext (server : Server F) (allowUnreviewedText : Option Bool)
    (messages : ContextMessages) (context : RequiredContext) (exactly : Bool)
    (source : Ir.IRSource F) : Except IRGenerationError (Ir.LlmInputIr F) := do
  let ir ← Ir.buildLlmInputIr server.runtime
    { irOptions server allowUnreviewedText with requiredCardIds := sortedIds context.cardIds }
    source
  checkContext messages context exactly ir
  return ir

/-- The texts are those of the source: the projection did not shorten them. -/
theorem buildWithContext_spec {server : Server F} {allowUnreviewedText : Option Bool}
    {messages : ContextMessages} {context : RequiredContext} {exactly : Bool}
    {source : Ir.IRSource F} {ir : Ir.LlmInputIr F}
    (hbuild : buildWithContext server allowUnreviewedText messages context exactly source = .ok ir) :
    Ir.buildLlmInputIr server.runtime
        { irOptions server allowUnreviewedText with requiredCardIds := sortedIds context.cardIds }
        source = .ok ir ∧
      ir.truncation.overText = false ∧ HasCards ir context.cardIds exactly ∧
        HasRelations ir context.relations ∧ HasEvidence ir context.evidence := by
  unfold buildWithContext checkContext at hbuild
  obtain ⟨built, hbuilt, hbuild⟩ := bind_eq_ok.mp hbuild
  obtain ⟨⟨⟩, hchecked, hbuild⟩ := bind_eq_ok.mp hbuild
  cases hbuild
  obtain ⟨⟨⟩, htext, hchecked⟩ := bind_eq_ok.mp hchecked
  obtain ⟨⟨⟩, hcards, hchecked⟩ := bind_eq_ok.mp hchecked
  obtain ⟨⟨⟩, hrelations, hevidence⟩ := bind_eq_ok.mp hchecked
  refine ⟨hbuilt, ?_, ensure_eq_ok.mp hcards, ensure_eq_ok.mp hrelations, ensure_eq_ok.mp hevidence⟩
  cases hover : ir.truncation.overText with
  | false => rfl
  | true =>
      apply absurd _ (ensure_eq_ok.mp htext)
      simp [Ir.Truncation.reasonCodes, hover]

end KjAtlas.Ai
