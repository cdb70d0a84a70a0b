import Mathlib.Data.List.Flatten
import Mathlib.Data.List.Perm.Basic
import KjAtlas.Foundation.Grouping
import KjAtlas.Merge.Representative

/-! # Near duplicates

Without a model, near duplicates are found by their texts: cards of one
normalized text first, and of the rest those with the same longer words. The
normalized text keeps the letters from a to z and the digits; all other letters
are dropped with the punctuation.
-/

namespace KjAtlas

open Js

/-! ## Normalized texts -/

/-- `text.replace(/[…]+/g, replacement)`: each run of such characters is replaced. The flag says
whether the character before belongs to the run. -/
def replaceRuns (inClass : Char → Bool) (replacement : Text) : Bool → Text → Text
  | _, [] => []
  | inRun, c :: rest =>
      if inClass c then
        if inRun then replaceRuns inClass replacement true rest
        else replacement ++ replaceRuns inClass replacement true rest
      else c :: replaceRuns inClass replacement false rest

/-- `[a-z0-9]`. -/
def isAsciiAlnum (c : Char) : Bool :=
  decide ('a' ≤ c ∧ c ≤ 'z') || decide ('0' ≤ c ∧ c ≤ '9')

/-- `Card.text`. -/
def Card.text (card : Card) : String := (card.text? "text").getD ""

variable {c : Char}

section Candidates

variable (lc : Collation) (toLowerCase : String → String)

def normalizeText (text : String) : String :=
  .ofList (replaceRuns isWhiteSpace [' '] false
    (replaceRuns (fun c => decide (c = '-' ∨ c = '_')) [' '] false
      (toLowerCase (trim text)).toList))

def normalizeStrictText (text : String) : String :=
  trim (.ofList (replaceRuns isWhiteSpace [' '] false
    (replaceRuns (fun c => !(isAsciiAlnum c || decide (c = ' '))) [] false
      (normalizeText toLowerCase text).toList)))

/-- `text.split(TOKEN_SPLIT)`. -/
def splitTokens (text : String) : List String :=
  ((replaceRuns (fun c => !isAsciiAlnum c) [' '] false text.toList).splitOn ' ').map String.ofList

def tokenSignature (text : String) : String :=
  let tokens := ((splitTokens (normalizeStrictText toLowerCase text)).map trim).filter
    fun token => decide (3 ≤ (codeUnits token).length)
  if tokens.length = 0 then "" else "|".intercalate (sortedUniqueIds lc tokens)

/-! ## Groups -/

inductive MergeMethod where
  | nearDuplicate
  | kernelFusion

inductive CandidateReason where
  | normalizedText
  | tokenSignature

def CandidateReason.text : CandidateReason → String
  | .normalizedText => "normalized-text"
  | .tokenSignature => "token-signature"

structure CandidateGroup where
  reason : CandidateReason
  cards : List Card
  score : JsNumber

structure ScoreSummary where
  min : JsNumber
  max : JsNumber
  avg : JsNumber

structure DeterministicMergeSuggestion where
  groupId : String
  targetCardId : String
  candidateCardIds : List String
  scoreSummary : ScoreSummary
  reasonCodes : List String
  snapshotVersion : String
  cardIds : List String
  mergedTextDraft : String
  mergeMethod : MergeMethod
  rationale : String

def isEligible (card : Card) : Bool :=
  (card.props.get "canonicalId").isNone && (card.props.get "mergedIntoCardId").isNone &&
    decide (0 < (codeUnits (normalizeText toLowerCase card.text)).length)

/-- `STREAM_B_CONTRACTS.candidateGroup.contractId`. -/
def candidateGroupContractId : String := "CTR-2B-01-CANDIDATE-GROUP-V1"

/-- The longer text comes first. -/
def draftLe (left right : String) : Bool :=
  decide ((codeUnits right).length < (codeUnits left).length) ||
    (decide ((codeUnits left).length = (codeUnits right).length) && lc.le left right)

def CandidateGroup.toSuggestion (group : CandidateGroup) : DeterministicMergeSuggestion :=
  let sortedCards := sortOn lc.le Card.id group.cards
  let mergedTextDraft :=
    ((sortOn (draftLe lc) id (sortedCards.map fun card => trim card.text)).head?).getD ""
  let cardIds := sortedCards.map Card.id
  let targetCardId := cardIds.head?.getD ""
  { groupId := "heuristic-" ++ .ofList (replaceRuns (fun c => !isAsciiAlnum c) ['-'] false
        (normalizeText toLowerCase mergedTextDraft).toList) ++ "-" ++ "-".intercalate cardIds
    targetCardId
    candidateCardIds := cardIds.filter fun cardId => decide (cardId ≠ targetCardId)
    scoreSummary := ⟨group.score, group.score, group.score⟩
    reasonCodes := ["heuristic:" ++ group.reason.text]
    snapshotVersion := candidateGroupContractId
    cardIds
    mergedTextDraft
    mergeMethod := .nearDuplicate
    rationale := "heuristic:" ++ group.reason.text }

def toSuggestions (groups : List CandidateGroup) : List DeterministicMergeSuggestion :=
  sortOn lc.le (fun suggestion => ",".intercalate suggestion.cardIds)
    (groups.map (CandidateGroup.toSuggestion lc toLowerCase))

def bucketsBy (key : Card → String) (cards : List Card) : InsertionMap String (List Card) :=
  cards.foldl (fun buckets card =>
    if key card = "" then buckets
    else
      match buckets.get? (key card) with
      | some list => buckets.set (key card) (list ++ [card])
      | none => buckets.set (key card) [card]) .empty

def threeQuarters : JsNumber := .finite ⟨false, [7, 5], 0, by simp, by simp, by simp⟩

/-- The cards whose normalized texts are equal. -/
def strictGroups (eligibleCards : List Card) : List CandidateGroup :=
  (((bucketsBy (fun card => normalizeStrictText toLowerCase card.text) eligibleCards).values.filter
    fun cards => !decide (cards.length < 2))).map fun cards => ⟨.normalizedText, cards, .one⟩

/-- Of the cards that are in no group yet, those with the same longer words. -/
def tokenGroups (eligibleCards : List Card) (assigned : List String) : List CandidateGroup :=
  ((bucketsBy (fun card => tokenSignature lc toLowerCase card.text)
    (eligibleCards.filter fun card => !assigned.contains card.id)).values.filter
      fun cards => !decide (cards.length < 2)).map fun cards =>
        ⟨.tokenSignature, cards, threeQuarters⟩

def collectMergeCandidates (document : DocumentV1) : List DeterministicMergeSuggestion :=
  let eligibleCards := document.cards.filter (isEligible toLowerCase)
  if eligibleCards.length < 2 then []
  else
    let groups := strictGroups toLowerCase eligibleCards
    let assigned := groups.flatMap fun group => group.cards.map Card.id
    toSuggestions lc toLowerCase (groups ++ tokenGroups lc toLowerCase eligibleCards assigned)

/-! ## What normalized texts keep -/

variable {toLowerCase}

/-- A replacement does not touch characters of another kind. -/
theorem filter_replaceRuns {inClass keep : Char → Bool} {replacement : Text}
    (hclass : ∀ c, inClass c = true → keep c = false)
    (hreplacement : ∀ c ∈ replacement, keep c = false) (inRun : Bool) (text : Text) :
    (replaceRuns inClass replacement inRun text).filter keep = text.filter keep := by
  have hnone : replacement.filter keep = [] := by
    rw [List.filter_eq_nil_iff]
    intro c hc
    rw [hreplacement c hc]
    exact Bool.false_ne_true
  induction text generalizing inRun with
  | nil => rfl
  | cons c rest ih =>
      unfold replaceRuns
      by_cases hc : inClass c = true
      · rw [if_pos hc, List.filter_cons_of_neg (by rw [hclass c hc]; exact Bool.false_ne_true)]
        cases inRun with
        | true =>
            rw [if_pos rfl]
            exact ih true
        | false =>
            rw [if_neg Bool.false_ne_true, List.filter_append, hnone, List.nil_append]
            exact ih true
      · rw [if_neg hc, List.filter_cons, List.filter_cons, ih]

theorem mem_replaceRuns {inClass : Char → Bool} {replacement text : Text} {inRun : Bool}
    (hc : c ∈ replaceRuns inClass replacement inRun text) :
    c ∈ replacement ∨ c ∈ text ∧ inClass c = false := by
  induction text generalizing inRun with
  | nil => exact absurd hc List.not_mem_nil
  | cons head rest ih =>
      have hrest : ∀ {inRun : Bool}, c ∈ replaceRuns inClass replacement inRun rest →
          c ∈ replacement ∨ c ∈ head :: rest ∧ inClass c = false := fun hmem =>
        (ih hmem).imp_right fun hkept => ⟨List.mem_cons_of_mem _ hkept.1, hkept.2⟩
      unfold replaceRuns at hc
      split at hc
      next =>
        split at hc
        next => exact hrest hc
        next =>
          rcases List.mem_append.mp hc with hmem | hmem
          · exact Or.inl hmem
          · exact hrest hmem
      next hhead =>
        rcases List.mem_cons.mp hc with rfl | hmem
        · exact Or.inr ⟨List.mem_cons_self, Bool.eq_false_iff.mpr hhead⟩
        · exact hrest hmem

theorem filter_dropWhile {drop keep : Char → Bool} (hdrop : ∀ c, drop c = true → keep c = false)
    (text : Text) : (text.dropWhile drop).filter keep = text.filter keep := by
  induction text with
  | nil => rfl
  | cons c rest ih =>
      by_cases hc : drop c = true
      · rw [List.dropWhile_cons_of_pos hc, ih, List.filter_cons_of_neg]
        rw [hdrop c hc]
        exact Bool.false_ne_true
      · rw [List.dropWhile_cons_of_neg hc]

theorem filter_trim {keep : Char → Bool} (hkeep : ∀ c, isWhiteSpace c = true → keep c = false)
    (text : String) : (trim text).toList.filter keep = text.toList.filter keep := by
  rw [trim, String.toList_ofList, List.filter_reverse, filter_dropWhile hkeep, List.filter_reverse,
    List.reverse_reverse, filter_dropWhile hkeep]

theorem not_isAsciiAlnum_of_isWhiteSpace (hc : isWhiteSpace c = true) : isAsciiAlnum c = false := by
  have hrange : isAsciiAlnum c = true → 97 ≤ c.toNat ∧ c.toNat ≤ 122 ∨
      48 ≤ c.toNat ∧ c.toNat ≤ 57 := by
    simp only [isAsciiAlnum, Bool.or_eq_true, decide_eq_true_eq, Char.le_def,
      UInt32.le_iff_toNat_le]
    exact id
  rw [Bool.eq_false_iff]
  intro halnum
  have hlimits := hrange halnum
  simp only [isWhiteSpace, Bool.or_eq_true, List.contains_iff_mem, List.mem_cons, List.not_mem_nil,
    or_false, decide_eq_true_eq] at hc
  omega

theorem filter_normalizeStrictText (text : String) :
    (normalizeStrictText toLowerCase text).toList.filter isAsciiAlnum =
      (toLowerCase (trim text)).toList.filter isAsciiAlnum := by
  have hblank : ∀ c ∈ [' '], isAsciiAlnum c = false := by
    intro c hc
    rw [List.mem_singleton.mp hc]
    decide
  rw [normalizeStrictText, filter_trim (fun _ => not_isAsciiAlnum_of_isWhiteSpace),
    String.toList_ofList, filter_replaceRuns (fun _ => not_isAsciiAlnum_of_isWhiteSpace) hblank,
    filter_replaceRuns ?_ (fun c hc => absurd hc List.not_mem_nil), normalizeText,
    String.toList_ofList, filter_replaceRuns (fun _ => not_isAsciiAlnum_of_isWhiteSpace) hblank,
    filter_replaceRuns ?_ hblank]
  · intro c hc
    rw [decide_eq_true_eq] at hc
    rcases hc with rfl | rfl <;> decide
  · intro c hc
    rw [Bool.not_eq_true', Bool.or_eq_false_iff] at hc
    exact hc.1

theorem normalizeStrictText_ne_empty_iff (text : String) :
    normalizeStrictText toLowerCase text ≠ "" ↔
      ∃ c ∈ (toLowerCase (trim text)).toList, isAsciiAlnum c = true := by
  have hsome : (∃ c ∈ (toLowerCase (trim text)).toList, isAsciiAlnum c = true) ↔
      (normalizeStrictText toLowerCase text).toList.filter isAsciiAlnum ≠ [] := by
    rw [filter_normalizeStrictText, Ne, List.filter_eq_nil_iff]
    push Not
    rfl
  rw [hsome]
  constructor
  · intro hne hnil
    apply hne
    rw [normalizeStrictText, filter_trim fun _ => not_isAsciiAlnum_of_isWhiteSpace] at hnil
    rw [normalizeStrictText, trim]
    generalize htext : String.ofList (replaceRuns isWhiteSpace [' '] false _) = kept at hnil
    -- without letters and digits only blanks are left
    have hblank : kept.toList.dropWhile isWhiteSpace = [] := by
      rw [List.dropWhile_eq_nil_iff]
      intro c hc
      have hother := List.filter_eq_nil_iff.mp hnil c hc
      rw [← htext, String.toList_ofList] at hc
      rcases mem_replaceRuns hc with hreplaced | ⟨hkept, -⟩
      · rw [List.mem_singleton.mp hreplaced]
        decide
      · rcases mem_replaceRuns hkept with hnone | ⟨-, hclass⟩
        · exact absurd hnone List.not_mem_nil
        · rw [Bool.not_eq_false', Bool.or_eq_true, decide_eq_true_eq] at hclass
          rcases hclass with halnum | rfl
          · exact absurd halnum hother
          · decide
    rw [hblank]
    rfl
  · intro hne hempty
    apply hne
    rw [hempty]
    rfl

variable {lc}

theorem normalizeStrictText_ne_empty_of_tokenSignature {text : String}
    (hsignature : tokenSignature lc toLowerCase text ≠ "") :
    normalizeStrictText toLowerCase text ≠ "" := by
  intro hempty
  apply hsignature
  have htokens : ((splitTokens "").map trim).filter
      (fun token => decide (3 ≤ (codeUnits token).length)) = [] := by decide +kernel
  rw [tokenSignature, hempty, htokens]
  rfl

/-! ## Buckets of cards -/

def keyOf (key : Card → String) (card : Card) : Option String :=
  if key card = "" then none else some (key card)

theorem bucketsBy_eq (key : Card → String) (cards : List Card) :
    bucketsBy key cards = buckets (keyOf key) cards := by
  apply foldl_eq_accumulate
  · intro values card hkey
    rw [keyOf] at hkey
    split at hkey
    next hempty => rw [if_pos hempty]
    next => cases hkey
  · intro values card k hkey
    rw [keyOf] at hkey
    split at hkey
    next => cases hkey
    next hempty =>
      obtain rfl := Option.some.inj hkey
      rw [if_neg hempty]
      cases values.get? (key card) <;> rfl

variable {key : Card → String} {suggestion : DeterministicMergeSuggestion}

theorem keyOf_eq_iff {left right : Card} :
    keyOf key left = keyOf key right ∧ (keyOf key left).isSome ↔
      key left = key right ∧ key left ≠ "" := by
  unfold keyOf
  by_cases hleft : key left = "" <;> by_cases hright : key right = "" <;> simp_all

theorem exists_bucketsBy_iff {key : Card → String} {cards : List Card} {left right : Card}
    (hne : left ≠ right) :
    (∃ bucket ∈ (bucketsBy key cards).values.filter (fun cards => !decide (cards.length < 2)),
      left ∈ bucket ∧ right ∈ bucket) ↔
      left ∈ cards ∧ right ∈ cards ∧ key left = key right ∧ key left ≠ "" := by
  rw [← keyOf_eq_iff, ← exists_bucket_iff, bucketsBy_eq]
  constructor
  · rintro ⟨bucket, hbucket, hboth⟩
    exact ⟨bucket, List.mem_of_mem_filter hbucket, hboth⟩
  · rintro ⟨bucket, hbucket, hleft, hright⟩
    refine ⟨bucket, List.mem_filter.mpr ⟨hbucket, ?_⟩, hleft, hright⟩
    rw [Bool.not_eq_true', decide_eq_false_iff_not, not_lt]
    have hsub : [left, right].Subperm bucket := by
      apply List.subperm_of_subset
      · simpa using hne
      · intro card hcard
        rcases List.mem_cons.mp hcard with rfl | hcard
        · exact hleft
        · exact List.mem_singleton.mp hcard ▸ hright
    exact hsub.length_le

theorem of_mem_bucketsBy {cards bucket : List Card}
    (hbucket : bucket ∈ (bucketsBy key cards).values) :
    bucket.Sublist cards ∧ ∃ k ≠ "", ∀ card ∈ bucket, key card = k := by
  rw [bucketsBy_eq, mem_values_buckets] at hbucket
  obtain ⟨k, ⟨first, -, hfirst⟩, rfl⟩ := hbucket
  refine ⟨List.filter_sublist, k, ?_, fun card hcard => ?_⟩
  · rintro rfl
    rw [keyOf] at hfirst
    split at hfirst
    next => cases hfirst
    next hne => exact hne (Option.some.inj hfirst)
  · have hkey := of_decide_eq_true (List.mem_filter.mp hcard).2
    rw [keyOf] at hkey
    split at hkey
    next => cases hkey
    next => exact Option.some.inj hkey

/-! ## The groups -/

variable (lc toLowerCase)

def candidateGroups (cards : List Card) : List CandidateGroup :=
  strictGroups toLowerCase cards ++ tokenGroups lc toLowerCase cards
    ((strictGroups toLowerCase cards).flatMap fun group => group.cards.map Card.id)

/-- Another card has the same normalized text. -/
def HasTwin (cards : List Card) (card : Card) : Prop :=
  normalizeStrictText toLowerCase card.text ≠ "" ∧ ∃ other ∈ cards, other.id ≠ card.id ∧
    normalizeStrictText toLowerCase other.text = normalizeStrictText toLowerCase card.text

instance (cards : List Card) (card : Card) : Decidable (HasTwin toLowerCase cards card) :=
  inferInstanceAs (Decidable (_ ∧ _))

variable {lc toLowerCase} {cards : List Card} {group : CandidateGroup}

theorem of_mem_strictGroups (hgroup : group ∈ strictGroups toLowerCase cards) :
    group.reason = .normalizedText ∧ group.cards.Sublist cards ∧ 2 ≤ group.cards.length ∧
      ∃ k ≠ "", ∀ card ∈ group.cards, normalizeStrictText toLowerCase card.text = k := by
  obtain ⟨bucket, hbucket, rfl⟩ := List.mem_map.mp hgroup
  rw [List.mem_filter, Bool.not_eq_true', decide_eq_false_iff_not, not_lt] at hbucket
  obtain ⟨hsublist, hkey⟩ := of_mem_bucketsBy hbucket.1
  exact ⟨rfl, hsublist, hbucket.2, hkey⟩

theorem of_mem_tokenGroups {assigned : List String}
    (hgroup : group ∈ tokenGroups lc toLowerCase cards assigned) :
    group.reason = .tokenSignature ∧
      group.cards.Sublist (cards.filter fun card => !assigned.contains card.id) ∧
        2 ≤ group.cards.length := by
  obtain ⟨bucket, hbucket, rfl⟩ := List.mem_map.mp hgroup
  rw [List.mem_filter, Bool.not_eq_true', decide_eq_false_iff_not, not_lt] at hbucket
  exact ⟨rfl, (of_mem_bucketsBy hbucket.1).1, hbucket.2⟩

theorem of_mem_candidateGroups (hgroup : group ∈ candidateGroups lc toLowerCase cards) :
    group.cards.Sublist cards ∧ 2 ≤ group.cards.length := by
  rcases List.mem_append.mp hgroup with hstrict | htoken
  · obtain ⟨-, hsublist, hlength, -⟩ := of_mem_strictGroups hstrict
    exact ⟨hsublist, hlength⟩
  · obtain ⟨-, hsublist, hlength⟩ := of_mem_tokenGroups htoken
    exact ⟨hsublist.trans List.filter_sublist, hlength⟩

theorem collectMergeCandidates_eq (document : DocumentV1) :
    collectMergeCandidates lc toLowerCase document = toSuggestions lc toLowerCase
      (candidateGroups lc toLowerCase (document.cards.filter (isEligible toLowerCase))) := by
  rw [collectMergeCandidates]
  dsimp only
  split
  next hfew =>
    have hnone : candidateGroups lc toLowerCase
        (document.cards.filter (isEligible toLowerCase)) = [] := by
      rw [List.eq_nil_iff_forall_not_mem]
      intro group hgroup
      obtain ⟨hsublist, hlength⟩ := of_mem_candidateGroups hgroup
      have hle := hsublist.length_le
      omega
    rw [hnone]
    rfl
  next => rfl

theorem exists_strictGroup_iff {left right : Card} (hne : left ≠ right) :
    (∃ group ∈ strictGroups toLowerCase cards, left ∈ group.cards ∧ right ∈ group.cards) ↔
      left ∈ cards ∧ right ∈ cards ∧
        normalizeStrictText toLowerCase left.text = normalizeStrictText toLowerCase right.text ∧
          normalizeStrictText toLowerCase left.text ≠ "" := by
  have hiff := @exists_bucketsBy_iff (fun card => normalizeStrictText toLowerCase card.text) cards
    left right hne
  rw [← hiff, strictGroups]
  simp only [List.mem_map, exists_exists_and_eq_and]

section Distinct

variable (hnodup : (cards.map Card.id).Nodup)
include hnodup

/-- A card is assigned in the first pass when another one has its normalized text. -/
theorem mem_assigned_iff {card : Card} (hcard : card ∈ cards) :
    card.id ∈ ((strictGroups toLowerCase cards).flatMap fun group => group.cards.map Card.id) ↔
      HasTwin toLowerCase cards card := by
  have hinj := List.inj_on_of_nodup_map hnodup
  simp only [List.mem_flatMap, List.mem_map]
  constructor
  · rintro ⟨group, hgroup, member, hmember, hid⟩
    obtain ⟨-, hsublist, hlength, k, hne, hkey⟩ := of_mem_strictGroups hgroup
    obtain rfl : member = card := hinj (hsublist.subset hmember) hcard hid
    refine ⟨(hkey member hmember).trans_ne hne, ?_⟩
    -- of at least two distinct cards one is another
    have hdistinct : group.cards.Nodup := (hnodup.sublist (hsublist.map Card.id)).of_map
    obtain ⟨other, hother, hdiffers⟩ : ∃ other ∈ group.cards, other ≠ member := by
      by_contra! hall
      have hsame : group.cards.length ≤ [member].length :=
        (List.subperm_of_subset hdistinct fun other hother =>
          List.mem_singleton.mpr (hall other hother)).length_le
      rw [List.length_singleton] at hsame
      omega
    refine ⟨other, hsublist.subset hother, fun heq => hdiffers ?_,
      (hkey other hother).trans (hkey member hmember).symm⟩
    exact hinj (hsublist.subset hother) hcard heq
  · rintro ⟨hne, other, hother, hdiffers, hsame⟩
    obtain ⟨group, hgroup, hin, -⟩ := (exists_strictGroup_iff
      (fun heq => hdiffers (congrArg Card.id heq).symm)).mpr ⟨hcard, hother, hsame.symm, hne⟩
    exact ⟨group, hgroup, card, hin, rfl⟩

theorem exists_candidateGroup_iff {left right : Card} (hleft : left ∈ cards)
    (hright : right ∈ cards) (hne : left.id ≠ right.id) :
    (∃ group ∈ candidateGroups lc toLowerCase cards, left ∈ group.cards ∧ right ∈ group.cards) ↔
      (normalizeStrictText toLowerCase left.text = normalizeStrictText toLowerCase right.text ∧
        normalizeStrictText toLowerCase left.text ≠ "") ∨
      (¬HasTwin toLowerCase cards left ∧ ¬HasTwin toLowerCase cards right ∧
        tokenSignature lc toLowerCase left.text = tokenSignature lc toLowerCase right.text ∧
          tokenSignature lc toLowerCase left.text ≠ "") := by
  have hcards : left ≠ right := fun heq => hne (congrArg Card.id heq)
  have hfree : ∀ card ∈ cards, card ∈ cards.filter (fun card =>
      !((strictGroups toLowerCase cards).flatMap fun group => group.cards.map Card.id).contains
        card.id) ↔ ¬HasTwin toLowerCase cards card := by
    intro card hcard
    rw [List.mem_filter, Bool.not_eq_true', ← Bool.not_eq_true, List.contains_iff_mem,
      mem_assigned_iff hnodup hcard]
    exact and_iff_right hcard
  have htoken : (∃ group ∈ tokenGroups lc toLowerCase cards
      ((strictGroups toLowerCase cards).flatMap fun group => group.cards.map Card.id),
        left ∈ group.cards ∧ right ∈ group.cards) ↔
      ¬HasTwin toLowerCase cards left ∧ ¬HasTwin toLowerCase cards right ∧
        tokenSignature lc toLowerCase left.text = tokenSignature lc toLowerCase right.text ∧
          tokenSignature lc toLowerCase left.text ≠ "" := by
    have hiff := @exists_bucketsBy_iff (fun card => tokenSignature lc toLowerCase card.text)
      (cards.filter fun card => !((strictGroups toLowerCase cards).flatMap fun group =>
        group.cards.map Card.id).contains card.id) left right hcards
    rw [← hfree left hleft, ← hfree right hright, ← hiff, tokenGroups]
    simp only [List.mem_map, exists_exists_and_eq_and]
  have hstrict := @exists_strictGroup_iff toLowerCase cards left right hcards
  simp only [hleft, hright, true_and] at hstrict
  rw [← hstrict, ← htoken, candidateGroups]
  simp only [List.mem_append, or_and_right, exists_or]

omit hnodup in
/-- Groups made of the larger buckets name each card once. -/
theorem nodup_groups (hdistinct : (cards.map Card.id).Nodup) (reason : CandidateReason)
    (score : JsNumber) :
    ((((bucketsBy key cards).values.filter fun cards => !decide (cards.length < 2)).map fun cards =>
      (⟨reason, cards, score⟩ : CandidateGroup)).flatMap fun group =>
        group.cards.map Card.id).Nodup := by
  rw [List.flatMap_map, bucketsBy_eq]
  exact (nodup_flatMap_buckets hdistinct).sublist (List.filter_sublist.flatMap (List.map Card.id))

theorem nodup_candidateGroups :
    ((candidateGroups lc toLowerCase cards).flatMap fun group => group.cards.map Card.id).Nodup := by
  rw [candidateGroups, List.flatMap_append, List.nodup_append']
  refine ⟨nodup_groups hnodup _ _, nodup_groups ?_ _ _, ?_⟩
  · exact hnodup.sublist (List.filter_sublist.map Card.id)
  · -- the second pass leaves out what the first one has assigned
    intro id hassigned htoken
    obtain ⟨group, hgroup, hid⟩ := List.mem_flatMap.mp htoken
    obtain ⟨card, hcard, rfl⟩ := List.mem_map.mp hid
    have hfree := (List.mem_filter.mp ((of_mem_tokenGroups hgroup).2.1.subset hcard)).2
    rw [Bool.not_eq_true', ← Bool.not_eq_true, List.contains_iff_mem] at hfree
    exact hfree hassigned

end Distinct

/-! ## Honest groups -/

theorem mem_toSuggestions {groups : List CandidateGroup} :
    suggestion ∈ toSuggestions lc toLowerCase groups ↔
      ∃ group ∈ groups, group.toSuggestion lc toLowerCase = suggestion := by
  rw [toSuggestions, sortOn.mem, List.mem_map]

theorem cardIds_toSuggestion (group : CandidateGroup) :
    (group.toSuggestion lc toLowerCase).cardIds.Perm (group.cards.map Card.id) :=
  (sortOn.perm lc.le Card.id group.cards).map Card.id

theorem flatMap_toSuggestions (groups : List CandidateGroup) :
    ((toSuggestions lc toLowerCase groups).flatMap DeterministicMergeSuggestion.cardIds).Perm
      (groups.flatMap fun group => group.cards.map Card.id) := by
  have hsorted := (sortOn.perm lc.le (fun suggestion => ",".intercalate
    suggestion.cardIds) (groups.map (CandidateGroup.toSuggestion lc toLowerCase))).flatMap_right
      DeterministicMergeSuggestion.cardIds
  refine hsorted.trans ?_
  rw [List.flatMap_map]
  exact List.Perm.flatMap_left groups fun group _ => cardIds_toSuggestion group

variable (lc toLowerCase) (isPunctuation : Char → Bool)

/-- What case, white space, hyphens, underscores and punctuation leave of a text. -/
def letters (text : String) : Text :=
  (toLowerCase (trim text)).toList.filter fun c =>
    !(isWhiteSpace c || decide (c = '-' ∨ c = '_') || isPunctuation c)

/-- The suggestions for a document: disjoint groups of eligible cards, in which every near duplicate
is found, and the cards of one normalized text are near duplicates. -/
structure SuggestsNearDuplicates (document : DocumentV1)
    (suggestions : List DeterministicMergeSuggestion) : Prop where
  eligible : ∀ suggestion ∈ suggestions, 2 ≤ suggestion.cardIds.length ∧
    ∀ id ∈ suggestion.cardIds, ∃ card ∈ document.cards, card.id = id ∧
      isEligible toLowerCase card = true
  disjoint : (suggestions.flatMap DeterministicMergeSuggestion.cardIds).Nodup
  complete : ∀ left ∈ document.cards, isEligible toLowerCase left = true →
    ∀ right ∈ document.cards, isEligible toLowerCase right = true → left.id ≠ right.id →
      letters toLowerCase isPunctuation left.text = letters toLowerCase isPunctuation right.text →
        ∃ suggestion ∈ suggestions, left.id ∈ suggestion.cardIds ∧ right.id ∈ suggestion.cardIds
  honest : ∀ suggestion ∈ suggestions, "heuristic:normalized-text" ∈ suggestion.reasonCodes →
    ∀ left ∈ document.cards, left.id ∈ suggestion.cardIds →
      ∀ right ∈ document.cards, right.id ∈ suggestion.cardIds →
        letters toLowerCase isPunctuation left.text = letters toLowerCase isPunctuation right.text

/-- Eligible cards that share their words of Latin letters and digits have no other letters between
them, and near duplicates have such words, the same ones. -/
structure LatinWordsDecide (document : DocumentV1) : Prop where
  others : ∀ left ∈ document.cards, isEligible toLowerCase left = true →
    ∀ right ∈ document.cards, isEligible toLowerCase right = true →
      normalizeStrictText toLowerCase left.text ≠ "" →
        normalizeStrictText toLowerCase left.text = normalizeStrictText toLowerCase right.text →
          letters toLowerCase isPunctuation left.text =
            letters toLowerCase isPunctuation right.text
  latin : ∀ left ∈ document.cards, isEligible toLowerCase left = true →
    ∀ right ∈ document.cards, isEligible toLowerCase right = true → left.id ≠ right.id →
      letters toLowerCase isPunctuation left.text = letters toLowerCase isPunctuation right.text →
        ∃ c ∈ letters toLowerCase isPunctuation left.text, isAsciiAlnum c = true
  words : ∀ left ∈ document.cards, isEligible toLowerCase left = true →
    ∀ right ∈ document.cards, isEligible toLowerCase right = true → left.id ≠ right.id →
      letters toLowerCase isPunctuation left.text = letters toLowerCase isPunctuation right.text →
        normalizeStrictText toLowerCase left.text = normalizeStrictText toLowerCase right.text ∨
          ¬HasTwin toLowerCase (document.cards.filter (isEligible toLowerCase)) left ∧
            ¬HasTwin toLowerCase (document.cards.filter (isEligible toLowerCase)) right ∧
              tokenSignature lc toLowerCase left.text = tokenSignature lc toLowerCase right.text ∧
                tokenSignature lc toLowerCase left.text ≠ ""

variable {lc toLowerCase isPunctuation}

theorem exists_alnum_letters_iff
    (hpunctuation : ∀ c, isAsciiAlnum c = true → isPunctuation c = false) (text : String) :
    (∃ c ∈ letters toLowerCase isPunctuation text, isAsciiAlnum c = true) ↔
      normalizeStrictText toLowerCase text ≠ "" := by
  rw [normalizeStrictText_ne_empty_iff]
  constructor
  · rintro ⟨c, hc, halnum⟩
    exact ⟨c, List.mem_of_mem_filter hc, halnum⟩
  · rintro ⟨c, hc, halnum⟩
    refine ⟨c, List.mem_filter.mpr ⟨hc, ?_⟩, halnum⟩
    have hspace : isWhiteSpace c = false := by
      rw [Bool.eq_false_iff]
      intro hspace
      rw [not_isAsciiAlnum_of_isWhiteSpace hspace] at halnum
      cases halnum
    have hhyphen : ¬(c = '-' ∨ c = '_') := by
      rintro (rfl | rfl)
      · exact absurd halnum (by decide)
      · exact absurd halnum (by decide)
    rw [hspace, hpunctuation c halnum, decide_eq_false hhyphen]
    rfl

section Document

variable {document : DocumentV1} (hnodup : (document.cards.map Card.id).Nodup)
include hnodup

theorem mem_cardIds_iff {group : CandidateGroup} (hgroup : group ∈ candidateGroups lc toLowerCase
      (document.cards.filter (isEligible toLowerCase))) {card : Card}
    (hcard : card ∈ document.cards) :
    card.id ∈ (group.toSuggestion lc toLowerCase).cardIds ↔ card ∈ group.cards := by
  rw [(cardIds_toSuggestion group).mem_iff, List.mem_map]
  constructor
  · rintro ⟨member, hmember, hid⟩
    have hin := List.mem_of_mem_filter ((of_mem_candidateGroups hgroup).1.subset hmember)
    exact List.inj_on_of_nodup_map hnodup hin hcard hid ▸ hmember
  · exact fun hmember => ⟨card, hmember, rfl⟩

theorem exists_suggestion_iff {left right : Card} (hleft : left ∈ document.cards)
    (hright : right ∈ document.cards) :
    (∃ suggestion ∈ collectMergeCandidates lc toLowerCase document,
      left.id ∈ suggestion.cardIds ∧ right.id ∈ suggestion.cardIds) ↔
      ∃ group ∈ candidateGroups lc toLowerCase (document.cards.filter (isEligible toLowerCase)),
        left ∈ group.cards ∧ right ∈ group.cards := by
  simp only [collectMergeCandidates_eq, mem_toSuggestions]
  constructor
  · rintro ⟨_, ⟨group, hgroup, rfl⟩, hin⟩
    rw [mem_cardIds_iff hnodup hgroup hleft, mem_cardIds_iff hnodup hgroup hright] at hin
    exact ⟨group, hgroup, hin⟩
  · rintro ⟨group, hgroup, hin⟩
    rw [← mem_cardIds_iff hnodup hgroup hleft, ← mem_cardIds_iff hnodup hgroup hright] at hin
    exact ⟨_, ⟨group, hgroup, rfl⟩, hin⟩

theorem disjoint_suggestions :
    ((collectMergeCandidates lc toLowerCase document).flatMap
      DeterministicMergeSuggestion.cardIds).Nodup := by
  rw [collectMergeCandidates_eq, (flatMap_toSuggestions _).nodup_iff]
  exact nodup_candidateGroups (hnodup.sublist (List.filter_sublist.map Card.id))

omit hnodup in
theorem eligible_suggestions
    (hsuggestion : suggestion ∈ collectMergeCandidates lc toLowerCase document) :
    2 ≤ suggestion.cardIds.length ∧ ∀ id ∈ suggestion.cardIds, ∃ card ∈ document.cards,
      card.id = id ∧ isEligible toLowerCase card = true := by
  rw [collectMergeCandidates_eq, mem_toSuggestions] at hsuggestion
  obtain ⟨group, hgroup, rfl⟩ := hsuggestion
  obtain ⟨hsublist, hlength⟩ := of_mem_candidateGroups hgroup
  have hperm := @cardIds_toSuggestion lc toLowerCase group
  constructor
  · rwa [hperm.length_eq, List.length_map]
  · intro id hid
    obtain ⟨card, hcard, rfl⟩ := List.mem_map.mp (hperm.mem_iff.mp hid)
    obtain ⟨hin, heligible⟩ := List.mem_filter.mp (hsublist.subset hcard)
    exact ⟨card, hin, rfl, heligible⟩

omit hnodup in
theorem normalizedText_iff {group : CandidateGroup} :
    "heuristic:normalized-text" ∈ (group.toSuggestion lc toLowerCase).reasonCodes ↔
      group.reason = .normalizedText := by
  cases hreason : group.reason <;>
    simp [CandidateGroup.toSuggestion, hreason, CandidateReason.text]

/-- The suggestions are disjoint and of eligible cards, and they are the near duplicates exactly
when the words of Latin letters and digits decide about these. -/
theorem suggests_near_duplicates_iff
    (hpunctuation : ∀ c, isAsciiAlnum c = true → isPunctuation c = false) :
    SuggestsNearDuplicates toLowerCase isPunctuation document
        (collectMergeCandidates lc toLowerCase document) ↔
      LatinWordsDecide lc toLowerCase isPunctuation document := by
  have hdistinct : ((document.cards.filter (isEligible toLowerCase)).map Card.id).Nodup :=
    hnodup.sublist (List.filter_sublist.map Card.id)
  have htogether : ∀ left ∈ document.cards, isEligible toLowerCase left = true →
      ∀ right ∈ document.cards, isEligible toLowerCase right = true → left.id ≠ right.id → _ :=
    fun left hleft hleftEligible right hright hrightEligible hne =>
      (exists_suggestion_iff hnodup hleft hright).trans (@exists_candidateGroup_iff lc toLowerCase _
        hdistinct left right (List.mem_filter.mpr ⟨hleft, hleftEligible⟩)
          (List.mem_filter.mpr ⟨hright, hrightEligible⟩) hne)
  constructor
  · intro hsuggests
    refine ⟨?_, ?_, ?_⟩
    · intro left hleft hleftEligible right hright hrightEligible hne hsame
      by_cases hid : left.id = right.id
      · rw [List.inj_on_of_nodup_map hnodup hleft hright hid]
      -- the two are in a group of the first pass
      obtain ⟨group, hgroup, hin⟩ := (exists_strictGroup_iff fun heq => hid
        (congrArg Card.id heq)).mpr ⟨List.mem_filter.mpr ⟨hleft, hleftEligible⟩,
          List.mem_filter.mpr ⟨hright, hrightEligible⟩, hsame, hne⟩
      have hcandidate : group ∈ candidateGroups lc toLowerCase
          (document.cards.filter (isEligible toLowerCase)) := List.mem_append_left _ hgroup
      refine hsuggests.honest (group.toSuggestion lc toLowerCase) ?_
        (normalizedText_iff.mpr (of_mem_strictGroups hgroup).1) left hleft
          ((mem_cardIds_iff hnodup hcandidate hleft).mpr hin.1) right hright
            ((mem_cardIds_iff hnodup hcandidate hright).mpr hin.2)
      rw [collectMergeCandidates_eq, mem_toSuggestions]
      exact ⟨group, hcandidate, rfl⟩
    · intro left hleft hleftEligible right hright hrightEligible hne hsame
      rw [exists_alnum_letters_iff hpunctuation]
      rcases (htogether left hleft hleftEligible right hright hrightEligible hne).mp
        (hsuggests.complete left hleft hleftEligible right hright hrightEligible hne hsame) with
          ⟨-, hwords⟩ | ⟨-, -, -, hsignature⟩
      · exact hwords
      · exact normalizeStrictText_ne_empty_of_tokenSignature hsignature
    · intro left hleft hleftEligible right hright hrightEligible hne hsame
      exact ((htogether left hleft hleftEligible right hright hrightEligible hne).mp
        (hsuggests.complete left hleft hleftEligible right hright hrightEligible hne hsame)).imp_left
          And.left
  · intro hdecide
    refine ⟨fun _ => eligible_suggestions, disjoint_suggestions hnodup, ?_, ?_⟩
    · intro left hleft hleftEligible right hright hrightEligible hne hsame
      rw [htogether left hleft hleftEligible right hright hrightEligible hne]
      have hwords := (exists_alnum_letters_iff hpunctuation left.text).mp
        (hdecide.latin left hleft hleftEligible right hright hrightEligible hne hsame)
      exact (hdecide.words left hleft hleftEligible right hright hrightEligible hne hsame).imp_left
        fun hequal => ⟨hequal, hwords⟩
    · intro suggestion hsuggestion hreason left hleft hleftIn right hright hrightIn
      rw [collectMergeCandidates_eq, mem_toSuggestions] at hsuggestion
      obtain ⟨group, hgroup, rfl⟩ := hsuggestion
      rw [mem_cardIds_iff hnodup hgroup hleft] at hleftIn
      rw [mem_cardIds_iff hnodup hgroup hright] at hrightIn
      rw [normalizedText_iff] at hreason
      have hmember := (of_mem_candidateGroups hgroup).1
      have hleftEligible := (List.mem_filter.mp (hmember.subset hleftIn)).2
      have hrightEligible := (List.mem_filter.mp (hmember.subset hrightIn)).2
      rcases List.mem_append.mp hgroup with hstrict | htoken
      · obtain ⟨-, -, -, k, hne, hkey⟩ := of_mem_strictGroups hstrict
        exact hdecide.others left hleft hleftEligible right hright hrightEligible
          ((hkey left hleftIn).trans_ne hne) ((hkey left hleftIn).trans (hkey right hrightIn).symm)
      · rw [(of_mem_tokenGroups htoken).1] at hreason
        cases hreason

end Document

end Candidates

namespace CandidateInputs

def lower (text : String) : String := .ofList (text.toList.map Char.toLower)

/-- The marks of the texts below. -/
def isMark (c : Char) : Bool := ['.', ',', '!', '?'].contains c

/-- Two spellings of one text, and another text. -/
def spellings : DocumentV1 :=
  .smallest [.smallest "c2" "Go-On!", .smallest "c1" "go  on", .smallest "c3" "stop"] []

/-- Two texts that share a label only. -/
def labelled : DocumentV1 := .smallest [.smallest "c1" "猫 a1", .smallest "c2" "犬 a1"] []

theorem isMark_of_isAsciiAlnum (hc : isAsciiAlnum c = true) : isMark c = false := by
  rw [Bool.eq_false_iff]
  intro hmark
  simp only [isMark, List.contains_iff_mem, List.mem_cons, List.not_mem_nil, or_false] at hmark
  rcases hmark with rfl | rfl | rfl | rfl <;> exact absurd hc (by decide)

/-- The spellings are suggested as near duplicates. -/
theorem suggests_near_duplicates_iff_spellings :
    SuggestsNearDuplicates lower isMark spellings
      (collectMergeCandidates .codeUnit lower spellings) := by
  have hiff := @suggests_near_duplicates_iff .codeUnit lower isMark spellings
    (by decide +kernel) fun _ => isMark_of_isAsciiAlnum
  have hwords : ∀ card ∈ spellings.cards, normalizeStrictText lower card.text ≠ "" := by
    decide +kernel
  rw [hiff]
  refine ⟨by decide +kernel, ?_, by decide +kernel⟩
  intro left hleft _ _ _ _ _ _
  exact (exists_alnum_letters_iff (fun _ => isMark_of_isAsciiAlnum) left.text).mpr
    (hwords left hleft)

/-- A cat and a dog are suggested as one text. -/
theorem other_letters_are_ignored :
    ¬SuggestsNearDuplicates lower isMark labelled
      (collectMergeCandidates .codeUnit lower labelled) := by
  intro hsuggests
  obtain ⟨suggestion, hsuggestion, hreason, hleft, hright⟩ : ∃ suggestion ∈
      collectMergeCandidates .codeUnit lower labelled,
        "heuristic:normalized-text" ∈ suggestion.reasonCodes ∧ "c1" ∈ suggestion.cardIds ∧
          "c2" ∈ suggestion.cardIds := by decide +kernel
  have hsame := hsuggests.honest suggestion hsuggestion hreason (.smallest "c1" "猫 a1")
    (by decide +kernel) hleft (.smallest "c2" "犬 a1") (by decide +kernel) hright
  exact absurd hsame (by decide +kernel)

end CandidateInputs

end KjAtlas
