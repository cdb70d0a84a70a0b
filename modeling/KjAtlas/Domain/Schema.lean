import KjAtlas.Js.Shape

/-! # The declared types of entities -/

namespace KjAtlas.Schema

open Js Shape

def knownEdgeTypes : List String := ["related", "negate", "causal", "mutual", "equivalence"]

def cardMeta : Shape := record [
  mayHave "seq" number,
  mayHave "source" string]

def cardKa : Shape := record [
  mayHave "voice" string,
  mayHave "value" string]

def card : Shape := record [
  has "id" string,
  has "text" string,
  has "x" number,
  has "y" number,
  mayHave "claimType" (literals ["fact", "claim", "hypothesis", "unknown"]),
  mayHave "mergedIntoCardId" string,
  mayHave "repOf" (array string),
  mayHave "canonicalId" string,
  mayHave "sources" (array string),
  mayHave "critique" string,
  mayHave "critiqueTags" (array string),
  mayHave "textReviewed" boolean,
  mayHave "holdState" (literals ["held", "pending", "shelved"]),
  mayHave "meta" cardMeta,
  mayHave "ka" cardKa]

def edgeEndpointKind : Shape := literals ["card", "island"]

def edge : Shape := record [
  has "id" string,
  has "fromId" string,
  has "toId" string,
  mayHave "fromKind" edgeEndpointKind,
  mayHave "toKind" edgeEndpointKind,
  has "type" string]

def point : Shape := record [
  has "x" number,
  has "y" number]

def islandShapeGeneratedFrom : Shape := record [
  has "cardIds" (array string),
  has "versionToken" string]

def islandShape : Shape := either
  (record [
    has "kind" (literals ["rect"]),
    mayHave "generatedFrom" islandShapeGeneratedFrom])
  (record [
    has "kind" (literals ["polygon"]),
    has "points" (array point),
    mayHave "generatedFrom" islandShapeGeneratedFrom])

def islandGeometry : Shape := either
  (record [
    has "type" (literals ["rect"]),
    mayHave "x" number,
    mayHave "y" number,
    mayHave "w" number,
    mayHave "h" number])
  (record [
    has "type" (literals ["polygon"]),
    has "points" (array point)])

def summaryHistoryEntry : Shape := record [
  has "id" string,
  has "createdAt" string,
  has "fromText" (either string null),
  has "toText" (either string null),
  has "fromReviewed" (either boolean null),
  has "toReviewed" (either boolean null),
  has "changeKind" (literals ["manual", "ai", "import", "unknown"]),
  mayHave "note" string,
  mayHave "groundingIds" (array string)]

def representativeVisualCue : Shape := record [
  has "kind" (literals ["hand_drawn", "user_image", "preset_svg", "emoji"]),
  has "cueId" string,
  has "altText" string,
  mayHave "imageRef" string]

def island : Shape := record [
  has "id" string,
  has "cardIds" (array string),
  mayHave "parentIslandId" string,
  mayHave "placardCardId" string,
  mayHave "collapsed" boolean,
  mayHave "title" string,
  mayHave "titleReviewed" boolean,
  mayHave "summaryText" string,
  mayHave "summaryReviewed" boolean,
  mayHave "summaryGrounding" (array string),
  mayHave "summaryHistory" (array summaryHistoryEntry),
  mayHave "imageUrl" string,
  mayHave "imageReviewed" boolean,
  mayHave "critique" string,
  mayHave "critiqueTags" (array string),
  mayHave "geometry" islandGeometry,
  mayHave "shape" islandShape,
  mayHave "shapeStale" boolean,
  mayHave "representativeCue" representativeVisualCue]

def evidenceLink : Shape := record [
  has "id" string,
  has "type" (literals ["supports", "contradicts"]),
  has "fromCardId" string,
  has "toCardId" string,
  mayHave "note" string,
  mayHave "createdAt" string,
  mayHave "contradictionState" (literals ["unconfirmed", "confirmed", "held", "resolved"])]

def relationSummaryHistoryEntry : Shape := record [
  has "id" string,
  has "createdAt" string,
  has "changeKind" (literals ["ai", "manual", "rollback", "import", "unknown"]),
  has "fromText" (either string null),
  has "toText" (either string null),
  has "fromReviewed" (either boolean null),
  has "toReviewed" (either boolean null),
  mayHave "warningsSnapshot" (array string),
  mayHave "groundingCardIdsSnapshot" (array string),
  mayHave "groundingEdgeIdsSnapshot" (array string),
  mayHave "note" string]

def relationSummary : Shape := record [
  has "id" string,
  has "createdAt" string,
  has "islandAId" string,
  has "islandBId" string,
  has "relationType" (literals (knownEdgeTypes ++ ["unknown"])),
  has "derived" boolean,
  has "text" string,
  has "reviewed" boolean,
  has "groundingCardIds" (array string),
  has "groundingEdgeIds" (array string),
  mayHave "warnings" (array string),
  has "sourceSignature" string,
  mayHave "history" (array relationSummaryHistoryEntry)]

/-! ## Property names -/

@[simp] theorem plain_cardMeta : Plain cardMeta := plain_record (by simp [mayHave])

@[simp] theorem plain_cardKa : Plain cardKa := plain_record (by simp [mayHave])

theorem plain_card : Plain card := plain_record (by simp [has, mayHave])

theorem plain_edge : Plain edge := plain_record (by simp [has, mayHave, edgeEndpointKind])

@[simp] theorem plain_point : Plain point := plain_record (by simp [has])

@[simp] theorem plain_islandShapeGeneratedFrom : Plain islandShapeGeneratedFrom :=
  plain_record (by simp [has])

@[simp] theorem plain_islandShape : Plain islandShape :=
  plain_either (plain_record (by simp [has, mayHave])) (plain_record (by simp [has, mayHave]))

@[simp] theorem plain_islandGeometry : Plain islandGeometry :=
  plain_either (plain_record (by simp [has, mayHave])) (plain_record (by simp [has]))

@[simp] theorem plain_summaryHistoryEntry : Plain summaryHistoryEntry :=
  plain_record (by simp [has, mayHave])

@[simp] theorem plain_representativeVisualCue : Plain representativeVisualCue :=
  plain_record (by simp [has, mayHave])

theorem plain_island : Plain island := plain_record (by simp [has, mayHave])

theorem plain_evidenceLink : Plain evidenceLink := plain_record (by simp [has, mayHave])

@[simp] theorem plain_relationSummaryHistoryEntry : Plain relationSummaryHistoryEntry :=
  plain_record (by simp [has, mayHave])

theorem plain_relationSummary : Plain relationSummary := plain_record (by simp [has, mayHave])

end KjAtlas.Schema
