import Mathlib.Algebra.Order.Ring.Rat
import KjAtlas.Foundation.PrefixCode
import KjAtlas.Ir.Graph
import KjAtlas.Merge.Candidates

/-! # Near duplicates on the server

The server lists groups of cards with one text, up to case and white space, and
groups of cards with the same words. A group of both kinds is listed once. The id
of a group joins its text and its first card with hyphens, which both may contain
themselves.
-/

namespace KjAtlas.SimilarCandidates

/-- What the server takes from its runtime: foldings of case, the characters of words (`\w`), and
the hash of a payload. -/
structure Runtime where
  casefold : String → String
  isWord : Char → Bool
  etag : String → String

/-- The fields of a card that are read. -/
structure Card where
  id : String
  text : String
  mergedIntoCardId : Option String
  canonicalId : Option String
  sources : Option (List String)
deriving DecidableEq

/-- The fields of `DocumentPayload` that are read, with the time as a text. -/
structure DocumentPayload where
  updatedAt : String
  cards : List Card

structure ScoreSummary where
  min : ℚ
  max : ℚ
  avg : ℚ

structure SimilarCandidateGroup where
  groupId : String
  targetCardId : String
  candidateCardIds : List String
  scoreSummary : ScoreSummary
  reasonCodes : List String
  snapshotVersion : String

structure CandidateListViewModel where
  generatedAt : String
  groups : List SimilarCandidateGroup
  totalGroupCount : Nat

section Build

variable (runtime : Runtime)

/-! ## Keys -/

/-- The parts of a text between runs of separators, without empty ones. -/
def splitRuns (isSeparator : Char → Bool) (text : String) : List String :=
  ((text.toList.splitOnP isSeparator).filter (· ≠ [])).map String.ofList

/-- `_normalize_text_for_candidate_key`. -/
def normalizeTextForCandidateKey (rawText : String) : String :=
  " ".intercalate (splitRuns isPythonSpace (runtime.casefold rawText))

/-- The words of a text, each once. -/
def tokens (rawText : String) : List String :=
  distinct (splitRuns (fun c => !runtime.isWord c) (normalizeTextForCandidateKey runtime rawText))

/-- `_token_signature`. -/
def tokenSignature (rawText : String) : String :=
  if normalizeTextForCandidateKey runtime rawText = "" then ""
  else "|".intercalate (sortOn codePointLe id (tokens runtime rawText))

/-- `_is_candidate_eligible`. -/
def isCandidateEligible (card : Card) : Bool :=
  card.mergedIntoCardId.isNone && card.canonicalId.isNone && decide ((card.sources.getD []) = [])

/-- `re.sub(r"[^a-z0-9_-]+", "-", key.casefold()).strip("-") or "unknown"`. -/
def encodedKey (key : String) : String :=
  let isHyphen := fun c => decide (c = '-')
  let replaced := replaceRuns (fun c => !(isAsciiAlnum c || ['_', '-'].contains c)) ['-'] false
    (runtime.casefold key).toList
  let stripped := ((replaced.dropWhile isHyphen).reverse.dropWhile isHyphen).reverse
  if stripped = [] then "unknown" else .ofList stripped

/-! ## Groups -/

/-- Cards that share a key, for a reason. -/
structure Registration where
  reasonCode : String
  key : String
  candidates : List Card
  score : ℚ
deriving DecidableEq

def orderedIds (candidates : List Card) : List String :=
  (sortOn codePointLe Card.id candidates).map Card.id

def groupId (reasonCode key targetCardId : String) : String :=
  "heuristic-" ++ reasonCode ++ "-" ++ encodedKey runtime key ++ "-" ++ targetCardId

def newGroup (payloadJson : String) (registration : Registration) : SimilarCandidateGroup :=
  let ids := orderedIds registration.candidates
  { groupId := groupId runtime registration.reasonCode registration.key (ids.headD "")
    targetCardId := ids.headD ""
    candidateCardIds := ids.tail
    scoreSummary := ⟨registration.score, registration.score, registration.score⟩
    reasonCodes := [registration.reasonCode]
    snapshotVersion := .ofList ((runtime.etag payloadJson).toList.take 12) }

def addReason (group : SimilarCandidateGroup) (reasonCode : String) : SimilarCandidateGroup :=
  if reasonCode ∈ group.reasonCodes then group
  else { group with reasonCodes := sortOn codePointLe id (group.reasonCodes ++ [reasonCode]) }

/-- `register_group`. -/
def registerGroup (payloadJson : String)
    (groups : InsertionMap (List String) SimilarCandidateGroup) (registration : Registration) :
    InsertionMap (List String) SimilarCandidateGroup :=
  let ids := orderedIds registration.candidates
  if registration.candidates.length < 2 then groups
  else
    match groups.get? ids with
    | some existing => groups.set ids (addReason existing registration.reasonCode)
    | none => groups.set ids (newGroup runtime payloadJson registration)

def keyOf (key : String → String) (card : Card) : Option String :=
  if key card.text = "" then none else some (key card.text)

def registrations (reasonCode : String) (score : ℚ) (key : String → String) (cards : List Card) :
    List Registration :=
  (buckets (keyOf key) cards).entries.map fun entry => ⟨reasonCode, entry.1, entry.2, score⟩

def eligibleCards (document : DocumentPayload) : List Card :=
  sortOn codePointLe Card.id (document.cards.filter isCandidateEligible)

def allRegistrations (document : DocumentPayload) : List Registration :=
  registrations "normalized_text" 1 (normalizeTextForCandidateKey runtime) (eligibleCards document) ++
    registrations "token_signature" (3 / 4) (tokenSignature runtime) (eligibleCards document)

/-- The comparison of `(targetCardId, candidateCardIds, groupId)`. -/
def groupLe (left right : SimilarCandidateGroup) : Bool :=
  if left.targetCardId ≠ right.targetCardId then
    codePointLe left.targetCardId right.targetCardId
  else if left.candidateCardIds ≠ right.candidateCardIds then
    Ir.idsLe left.candidateCardIds right.candidateCardIds
  else codePointLe left.groupId right.groupId

/-- `_build_similar_candidate_groups`. -/
def buildSimilarCandidateGroups (document : DocumentPayload) (payloadJson : String) :
    CandidateListViewModel :=
  let groups := (allRegistrations runtime document).foldl (registerGroup runtime payloadJson) .empty
  let orderedGroups := sortOn groupLe id groups.values
  { generatedAt := document.updatedAt
    groups := orderedGroups
    totalGroupCount := orderedGroups.length }

end Build

/-! ## What is registered -/

section Registered

variable {runtime : Runtime} {payloadJson : String}

def Registration.fits (ids : List String) (registration : Registration) : Bool :=
  decide (2 ≤ registration.candidates.length ∧ orderedIds registration.candidates = ids)

variable {registration : Registration}

theorem Registration.fits_iff {ids : List String} :
    registration.fits ids = true ↔
      2 ≤ registration.candidates.length ∧ orderedIds registration.candidates = ids :=
  decide_eq_true_iff

variable (runtime payloadJson) in
def registered (entry : Option SimilarCandidateGroup) (registration : Registration) :
    Option SimilarCandidateGroup :=
  some (match entry with
    | some existing => addReason existing registration.reasonCode
    | none => newGroup runtime payloadJson registration)

theorem get?_registerGroup (groups : InsertionMap (List String) SimilarCandidateGroup)
    (registration : Registration) (ids : List String) :
    (registerGroup runtime payloadJson groups registration).get? ids =
      if registration.fits ids then registered runtime payloadJson (groups.get? ids) registration
      else groups.get? ids := by
  unfold registerGroup Registration.fits
  dsimp only
  by_cases hlength : registration.candidates.length < 2
  · rw [if_pos hlength, decide_eq_false (fun hfits => absurd hlength (not_lt.mpr hfits.1)),
      if_neg Bool.false_ne_true]
  · rw [if_neg hlength]
    by_cases hids : orderedIds registration.candidates = ids
    · subst hids
      rw [decide_eq_true ⟨not_lt.mp hlength, rfl⟩, if_pos rfl]
      cases hentry : groups.get? (orderedIds registration.candidates) with
      | none => rw [InsertionMap.get?_set, if_pos rfl, registered]
      | some existing => rw [InsertionMap.get?_set, if_pos rfl, registered]
    · rw [decide_eq_false (fun hfits => hids hfits.2), if_neg Bool.false_ne_true]
      cases groups.get? (orderedIds registration.candidates) with
      | none => rw [InsertionMap.get?_set, if_neg hids]
      | some existing => rw [InsertionMap.get?_set, if_neg hids]

theorem get?_foldl_registerGroup (registrations : List Registration)
    (groups : InsertionMap (List String) SimilarCandidateGroup) (ids : List String) :
    (registrations.foldl (registerGroup runtime payloadJson) groups).get? ids =
      (registrations.filter (Registration.fits ids)).foldl (registered runtime payloadJson)
        (groups.get? ids) := by
  induction registrations generalizing groups with
  | nil => rfl
  | cons registration registrations ih =>
      rw [List.foldl_cons, ih, get?_registerGroup, List.filter_cons]
      split <;> rfl

/-- A group is the one of its first registration, but for the reasons. -/
structure IsOf (group : SimilarCandidateGroup) (runtime : Runtime) (payloadJson : String)
    (first : Registration) : Prop where
  eq : group = { newGroup runtime payloadJson first with reasonCodes := group.reasonCodes }
  reason : first.reasonCode ∈ group.reasonCodes

variable {group : SimilarCandidateGroup}

theorem mem_addReason {reasonCode code : String} :
    code ∈ (addReason group reasonCode).reasonCodes ↔
      code = reasonCode ∨ code ∈ group.reasonCodes := by
  unfold addReason
  split
  next hmem => exact ⟨Or.inr, fun hcode => hcode.elim (fun heq => heq ▸ hmem) id⟩
  next =>
    rw [sortOn.mem, List.mem_append, List.mem_singleton]
    exact or_comm

theorem IsOf.addReason {first : Registration} (hof : IsOf group runtime payloadJson first)
    (reasonCode : String) : IsOf (addReason group reasonCode) runtime payloadJson first where
  eq := by
    unfold SimilarCandidates.addReason
    split
    · exact hof.eq
    · dsimp only
      rw [hof.eq]
  reason := mem_addReason.mpr (Or.inr hof.reason)

theorem foldl_registered {first : Registration} (rest : List Registration)
    (hof : IsOf group runtime payloadJson first) :
    ∃ result, rest.foldl (registered runtime payloadJson) (some group) = some result ∧
      IsOf result runtime payloadJson first ∧
      ∀ code, code ∈ group.reasonCodes ∨ code ∈ rest.map Registration.reasonCode →
        code ∈ result.reasonCodes := by
  induction rest generalizing group with
  | nil => exact ⟨group, rfl, hof, fun code hcode => hcode.resolve_right List.not_mem_nil⟩
  | cons registration rest ih =>
      obtain ⟨result, hresult, hresultOf, hcodes⟩ := ih (hof.addReason registration.reasonCode)
      refine ⟨result, hresult, hresultOf, fun code hcode => hcodes code ?_⟩
      rw [mem_addReason]
      rcases hcode with hgroup | hrest
      · exact Or.inl (Or.inr hgroup)
      · rw [List.map_cons, List.mem_cons] at hrest
        rcases hrest with hself | hrest
        · exact Or.inl (Or.inl hself)
        · exact Or.inr hrest

def Founds (registrations : List Registration) (first : Registration) : Prop :=
  registrations.find? (Registration.fits (orderedIds first.candidates)) = some first

variable {registrations : List Registration} {first : Registration}

theorem Founds.mem (hfounds : Founds registrations first) : first ∈ registrations :=
  List.mem_of_find?_eq_some hfounds

theorem Founds.two_le (hfounds : Founds registrations first) : 2 ≤ first.candidates.length :=
  (Registration.fits_iff.mp (List.find?_some hfounds)).1

theorem exists_founds (hmem : registration ∈ registrations)
    (hlength : 2 ≤ registration.candidates.length) :
    ∃ first, Founds registrations first ∧
      orderedIds first.candidates = orderedIds registration.candidates := by
  have hfits : registration.fits (orderedIds registration.candidates) = true :=
    decide_eq_true ⟨hlength, rfl⟩
  obtain ⟨first, hfirst⟩ := Option.isSome_iff_exists.mp (List.find?_isSome.mpr ⟨_, hmem, hfits⟩)
  have hids := (Registration.fits_iff.mp (List.find?_some hfirst)).2
  exact ⟨first, by rw [Founds, hids, hfirst], hids⟩

theorem get?_registerAll (ids : List String) :
    (∀ group, (registrations.foldl (registerGroup runtime payloadJson) .empty).get? ids =
      some group → ∃ first, Founds registrations first ∧ orderedIds first.candidates = ids ∧
        IsOf group runtime payloadJson first) ∧
    ∀ first, Founds registrations first → orderedIds first.candidates = ids →
      ∃ group, (registrations.foldl (registerGroup runtime payloadJson) .empty).get? ids =
        some group ∧ IsOf group runtime payloadJson first ∧
          ∀ registration ∈ registrations, registration.fits ids = true →
            registration.reasonCode ∈ group.reasonCodes := by
  rw [get?_foldl_registerGroup, InsertionMap.get?_empty]
  have hhead := @List.head?_filter _ (Registration.fits ids) registrations
  cases hfilter : registrations.filter (Registration.fits ids) with
  | nil =>
      rw [hfilter] at hhead
      constructor
      · intro group hnone
        cases hnone
      · intro first hfounds hids
        rw [Founds, hids, ← hhead] at hfounds
        cases hfounds
  | cons founder rest =>
      rw [hfilter] at hhead
      have hids := (Registration.fits_iff.mp (List.find?_some hhead.symm)).2
      have hfounder : Founds registrations founder := by
        rw [Founds, hids]
        exact hhead.symm
      have hnew : IsOf (newGroup runtime payloadJson founder) runtime payloadJson founder :=
        ⟨rfl, List.mem_singleton_self _⟩
      obtain ⟨result, hresult, hof, hcodes⟩ := foldl_registered rest hnew
      rw [List.foldl_cons]
      constructor
      · intro group hgroup
        obtain rfl : result = group := Option.some.inj (hresult.symm.trans hgroup)
        exact ⟨founder, hfounder, hids, hof⟩
      · intro first hfounds hfirst
        obtain rfl : first = founder := by
          rw [Founds, hfirst, ← hhead] at hfounds
          exact (Option.some.inj hfounds).symm
        refine ⟨result, hresult, hof, fun registration hmem hfits => hcodes _ ?_⟩
        have hfiltered : registration ∈ first :: rest :=
          hfilter ▸ List.mem_filter.mpr ⟨hmem, hfits⟩
        rcases List.mem_cons.mp hfiltered with rfl | hrest
        · exact Or.inl (List.mem_singleton_self _)
        · exact Or.inr (List.mem_map_of_mem hrest)

end Registered

/-! ## Registrations of a document -/

section Cards

variable {reasonCode : String} {score : ℚ} {key : String → String} {cards : List Card}
  {registration : Registration}

theorem mem_registrations :
    registration ∈ registrations reasonCode score key cards ↔
      (∃ card ∈ cards, keyOf key card = some registration.key) ∧
        registration = ⟨reasonCode, registration.key,
          cards.filter fun card => decide (keyOf key card = some registration.key), score⟩ := by
  unfold registrations
  rw [List.mem_map]
  constructor
  · rintro ⟨⟨k, bucket⟩, hentry, rfl⟩
    obtain ⟨hcard, hbucket⟩ := get?_buckets_eq_some.mp (InsertionMap.mem_entries.mp hentry)
    exact ⟨hcard, by rw [hbucket]⟩
  · rintro ⟨hcard, heq⟩
    refine ⟨(registration.key, _), InsertionMap.mem_entries.mpr
      (get?_buckets_eq_some.mpr ⟨hcard, rfl⟩), heq.symm⟩

theorem mem_candidates (hregistration : registration ∈ registrations reasonCode score key cards)
    {card : Card} :
    card ∈ registration.candidates ↔ card ∈ cards ∧ keyOf key card = some registration.key := by
  rw [(mem_registrations.mp hregistration).2, List.mem_filter, decide_eq_true_eq]

theorem eq_of_mem_candidates {other : Registration}
    (hregistration : registration ∈ registrations reasonCode score key cards)
    (hother : other ∈ registrations reasonCode score key cards) {card : Card}
    (hcard : card ∈ registration.candidates) (hcard' : card ∈ other.candidates) :
    registration = other := by
  have hkey := ((mem_candidates hregistration).mp hcard).2
  have hkey' := ((mem_candidates hother).mp hcard').2
  have hsame : registration.key = other.key := Option.some.inj (hkey.symm.trans hkey')
  rw [(mem_registrations.mp hregistration).2, (mem_registrations.mp hother).2, hsame]

theorem exists_registration {left right : Card} (hleft : left ∈ cards) (hright : right ∈ cards)
    (hsame : key left.text = key right.text) (hne : key left.text ≠ "") :
    ∃ registration ∈ registrations reasonCode score key cards,
      registration.reasonCode = reasonCode ∧ left ∈ registration.candidates ∧
        right ∈ registration.candidates := by
  have hkey : keyOf key left = some (key left.text) := if_neg hne
  have hkey' : keyOf key right = some (key left.text) := by
    rw [hsame] at hne ⊢
    exact if_neg hne
  refine ⟨⟨reasonCode, key left.text,
    cards.filter fun card => decide (keyOf key card = some (key left.text)), score⟩,
    mem_registrations.mpr ⟨⟨left, hleft, hkey⟩, rfl⟩, rfl, ?_, ?_⟩
  · exact List.mem_filter.mpr ⟨hleft, decide_eq_true hkey⟩
  · exact List.mem_filter.mpr ⟨hright, decide_eq_true hkey'⟩

theorem orderedIds_eq (candidates : List Card) :
    orderedIds candidates = sortOn codePointLe id (candidates.map Card.id) :=
  sortOn.map_key codePointLe Card.id candidates

variable {candidates : List Card}

theorem mem_orderedIds {id : String} :
    id ∈ orderedIds candidates ↔ ∃ card ∈ candidates, card.id = id := by
  rw [orderedIds_eq, sortOn.mem, List.mem_map]

theorem nodup_orderedIds (hnodup : (candidates.map Card.id).Nodup) :
    (orderedIds candidates).Nodup := by
  rw [orderedIds_eq]
  exact (sortOn.perm codePointLe id _).nodup_iff.mpr hnodup

theorem length_orderedIds (candidates : List Card) :
    (orderedIds candidates).length = candidates.length := by
  rw [orderedIds, List.length_map, sortOn.length]

theorem orderedIds_eq_of_mem_iff {left right : List Card} (hleft : (left.map Card.id).Nodup)
    (hright : (right.map Card.id).Nodup)
    (hsame : ∀ id, id ∈ orderedIds left ↔ id ∈ orderedIds right) :
    orderedIds left = orderedIds right := by
  rw [orderedIds_eq, orderedIds_eq] at *
  apply sortOn.eq_of_perm codePointLe id codePointLe_total codePointLe_trans codePointLe_antisymm
  · rwa [List.map_id]
  · apply (List.perm_ext_iff_of_nodup hleft hright).mpr
    intro id
    simpa only [sortOn.mem] using hsame id

end Cards

/-! ## The groups of a document -/

section Groups

variable {runtime : Runtime} {document : DocumentPayload}

theorem mem_eligibleCards {card : Card} :
    card ∈ eligibleCards document ↔ card ∈ document.cards ∧ isCandidateEligible card = true := by
  rw [eligibleCards, sortOn.mem, List.mem_filter]

theorem nodup_eligibleCards (hdistinct : (document.cards.map Card.id).Nodup) :
    ((eligibleCards document).map Card.id).Nodup :=
  ((sortOn.perm codePointLe Card.id _).map Card.id).nodup_iff.mpr
    (hdistinct.sublist (List.filter_sublist.map Card.id))

variable {registration first : Registration}

theorem exists_of_mem_all (hmem : registration ∈ allRegistrations runtime document) :
    ∃ reasonCode ∈ ["normalized_text", "token_signature"], ∃ score key,
      registration ∈ registrations reasonCode score key (eligibleCards document) ∧
        ∀ other ∈ allRegistrations runtime document, other.reasonCode = reasonCode →
          other ∈ registrations reasonCode score key (eligibleCards document) := by
  have hreason : ∀ {reasonCode score key} {other : Registration},
      other ∈ registrations reasonCode score key (eligibleCards document) →
        other.reasonCode = reasonCode := by
    intro reasonCode score key other hother
    exact congrArg Registration.reasonCode (mem_registrations.mp hother).2
  have hne : "normalized_text" ≠ "token_signature" := by decide
  rcases List.mem_append.mp hmem with htext | htokens
  · refine ⟨_, by simp, _, _, htext, fun other hother hcode => ?_⟩
    rcases List.mem_append.mp hother with hother | hother
    · exact hother
    · exact absurd (hcode.symm.trans (hreason hother)) hne
  · refine ⟨_, by simp, _, _, htokens, fun other hother hcode => ?_⟩
    rcases List.mem_append.mp hother with hother | hother
    · exact absurd ((hreason hother).symm.trans hcode) hne
    · exact hother

theorem candidates_sublist (hmem : registration ∈ allRegistrations runtime document) :
    registration.candidates.Sublist (eligibleCards document) := by
  obtain ⟨_, -, _, _, hregistration, -⟩ := exists_of_mem_all hmem
  rw [(mem_registrations.mp hregistration).2]
  exact List.filter_sublist

theorem nodup_candidates (hdistinct : (document.cards.map Card.id).Nodup)
    (hmem : registration ∈ allRegistrations runtime document) :
    (registration.candidates.map Card.id).Nodup :=
  (nodup_eligibleCards hdistinct).sublist ((candidates_sublist hmem).map Card.id)

def SimilarCandidateGroup.cardIds (group : SimilarCandidateGroup) : List String :=
  group.targetCardId :: group.candidateCardIds

variable (runtime) in
/-- The groups, in the order in which they are made. -/
def groupMap (document : DocumentPayload) (payloadJson : String) :
    InsertionMap (List String) SimilarCandidateGroup :=
  (allRegistrations runtime document).foldl (registerGroup runtime payloadJson) .empty

variable {payloadJson : String} {group : SimilarCandidateGroup}

theorem mem_groups :
    group ∈ (buildSimilarCandidateGroups runtime document payloadJson).groups ↔
      ∃ ids, (groupMap runtime document payloadJson).get? ids = some group := by
  rw [buildSimilarCandidateGroups, sortOn.mem, InsertionMap.mem_values]
  rfl

theorem cardIds_eq (hfounds : Founds (allRegistrations runtime document) first)
    (hof : IsOf group runtime payloadJson first) : group.cardIds = orderedIds first.candidates := by
  have hlength := hfounds.two_le
  rw [← length_orderedIds] at hlength
  rw [SimilarCandidateGroup.cardIds, hof.eq]
  change (orderedIds first.candidates).headD "" :: (orderedIds first.candidates).tail = _
  cases hids : orderedIds first.candidates with
  | nil =>
      rw [hids] at hlength
      cases hlength
  | cons id ids => rfl

theorem exists_founds_of_mem
    (hgroup : group ∈ (buildSimilarCandidateGroups runtime document payloadJson).groups) :
    ∃ first, Founds (allRegistrations runtime document) first ∧
      IsOf group runtime payloadJson first ∧ group.cardIds = orderedIds first.candidates ∧
        (groupMap runtime document payloadJson).get? group.cardIds = some group := by
  obtain ⟨ids, hget⟩ := mem_groups.mp hgroup
  obtain ⟨first, hfounds, rfl, hof⟩ := (get?_registerAll ids).1 group hget
  have hids := cardIds_eq hfounds hof
  exact ⟨first, hfounds, hof, hids, hids ▸ hget⟩

theorem exists_group_of_founds {first : Registration}
    (hfounds : Founds (allRegistrations runtime document) first) :
    ∃ group ∈ (buildSimilarCandidateGroups runtime document payloadJson).groups,
      IsOf group runtime payloadJson first ∧ group.cardIds = orderedIds first.candidates := by
  obtain ⟨group, hget, hof, -⟩ := (get?_registerAll _).2 first hfounds rfl
  exact ⟨group, mem_groups.mpr ⟨_, hget⟩, hof, cardIds_eq hfounds hof⟩

theorem exists_group (hmem : registration ∈ allRegistrations runtime document)
    (hlength : 2 ≤ registration.candidates.length) :
    ∃ group ∈ (buildSimilarCandidateGroups runtime document payloadJson).groups,
      registration.reasonCode ∈ group.reasonCodes ∧
        group.cardIds = orderedIds registration.candidates := by
  obtain ⟨first, hfounds, hids⟩ := exists_founds hmem hlength
  obtain ⟨group, hget, hof, hcodes⟩ := (get?_registerAll _).2 first hfounds hids
  refine ⟨group, mem_groups.mpr ⟨_, hget⟩, ?_, (cardIds_eq hfounds hof).trans hids⟩
  exact hcodes registration hmem (Registration.fits_iff.mpr ⟨hlength, rfl⟩)

theorem nodup_map_cardIds :
    ((buildSimilarCandidateGroups runtime document payloadJson).groups.map
      SimilarCandidateGroup.cardIds).Nodup := by
  have hperm : ((buildSimilarCandidateGroups runtime document payloadJson).groups.map
      SimilarCandidateGroup.cardIds).Perm (groupMap runtime document payloadJson).keys := by
    refine ((sortOn.perm groupLe id _).map _).trans (List.Perm.of_eq ?_)
    rw [InsertionMap.values, InsertionMap.keys, List.map_map]
    apply List.map_congr_left
    intro entry hentry
    obtain ⟨first, hfounds, hids, hof⟩ :=
      (get?_registerAll entry.1).1 entry.2 (InsertionMap.mem_entries.mp hentry)
    exact (cardIds_eq hfounds hof).trans hids
  exact hperm.nodup_iff.mpr (groupMap runtime document payloadJson).nodup

/-- A key and the first card of a registration, as they are joined. -/
def Registration.label (runtime : Runtime) (registration : Registration) : String × String :=
  (encodedKey runtime registration.key, (orderedIds registration.candidates).headD "")

theorem IsOf.groupId_eq (hof : IsOf group runtime payloadJson first) :
    group.groupId = "heuristic-" ++ (first.reasonCode ++ "-" ++
      ((first.label runtime).1 ++ '-'.toString ++ (first.label runtime).2)) := by
  rw [hof.eq]
  change "heuristic-" ++ first.reasonCode ++ "-" ++ _ ++ "-" ++ _ = _
  simp only [String.append_assoc]
  rfl

variable {second : Registration}

theorem groupId_eq_iff {left right : SimilarCandidateGroup}
    (hleft : IsOf left runtime payloadJson first) (hright : IsOf right runtime payloadJson second)
    (hfirst : first ∈ allRegistrations runtime document)
    (hsecond : second ∈ allRegistrations runtime document) :
    left.groupId = right.groupId ↔ first.reasonCode = second.reasonCode ∧
      (first.label runtime = second.label runtime ∨
        Shifted '-' (first.label runtime) (second.label runtime) ∨
          Shifted '-' (second.label runtime) (first.label runtime)) := by
  have hplain : ∀ {registration : Registration},
      registration ∈ allRegistrations runtime document → '-' ∉ registration.reasonCode.toList := by
    intro registration hmem
    obtain ⟨reasonCode, hcode, _, _, hregistration, -⟩ := exists_of_mem_all hmem
    have hcodes : ∀ code ∈ ["normalized_text", "token_signature"], '-' ∉ code.toList := by decide
    rw [(mem_registrations.mp hregistration).2]
    exact hcodes reasonCode hcode
  rw [hleft.groupId_eq, hright.groupId_eq, ← join_eq_iff]
  constructor
  · intro heq
    exact separated_inj rfl (hplain hfirst) (hplain hsecond) (String.append_right_inj _ |>.mp heq)
  · rintro ⟨hreason, hlabel⟩
    rw [hreason, hlabel]

/-! ## Well-formed groups -/

variable (runtime) in
/-- What a list of groups should be: groups of eligible cards, each once under an id of its own,
with all the cards of one text or of the same words, in whatever order the cards come. -/
structure WellFormed (document : DocumentPayload) (payloadJson : String) : Prop where
  members : ∀ group ∈ (buildSimilarCandidateGroups runtime document payloadJson).groups,
    2 ≤ group.cardIds.length ∧ group.cardIds.Nodup ∧ ∀ id ∈ group.cardIds,
      ∃ card ∈ document.cards, card.id = id ∧ isCandidateEligible card = true
  cardSets : (buildSimilarCandidateGroups runtime document payloadJson).groups.Pairwise
    fun left right => ¬ ∀ id, id ∈ left.cardIds ↔ id ∈ right.cardIds
  groupIds : ((buildSimilarCandidateGroups runtime document payloadJson).groups.map
    SimilarCandidateGroup.groupId).Nodup
  sameText : ∀ left ∈ eligibleCards document, ∀ right ∈ eligibleCards document, left ≠ right →
    normalizeTextForCandidateKey runtime left.text = normalizeTextForCandidateKey runtime right.text →
      normalizeTextForCandidateKey runtime left.text ≠ "" →
        ∃ group ∈ (buildSimilarCandidateGroups runtime document payloadJson).groups,
          "normalized_text" ∈ group.reasonCodes ∧ left.id ∈ group.cardIds ∧
            right.id ∈ group.cardIds
  sameTokens : ∀ left ∈ eligibleCards document, ∀ right ∈ eligibleCards document, left ≠ right →
    (∀ token, token ∈ tokens runtime left.text ↔ token ∈ tokens runtime right.text) →
      tokens runtime left.text ≠ [] →
        ∃ group ∈ (buildSimilarCandidateGroups runtime document payloadJson).groups,
          "token_signature" ∈ group.reasonCodes ∧ left.id ∈ group.cardIds ∧
            right.id ∈ group.cardIds
  unordered : ∀ other : DocumentPayload, other.updatedAt = document.updatedAt →
    other.cards.Perm document.cards → buildSimilarCandidateGroups runtime other payloadJson =
      buildSimilarCandidateGroups runtime document payloadJson

variable (runtime) in
/-- No two groups that are made for one reason have labels that are joined to one text. -/
def NoLabelsConfused (document : DocumentPayload) : Prop :=
  ∀ first second, Founds (allRegistrations runtime document) first →
    Founds (allRegistrations runtime document) second → first.reasonCode = second.reasonCode →
      ¬ Shifted '-' (first.label runtime) (second.label runtime)

theorem members_of_group (hdistinct : (document.cards.map Card.id).Nodup)
    (hgroup : group ∈ (buildSimilarCandidateGroups runtime document payloadJson).groups) :
    2 ≤ group.cardIds.length ∧ group.cardIds.Nodup ∧ ∀ id ∈ group.cardIds,
      ∃ card ∈ document.cards, card.id = id ∧ isCandidateEligible card = true := by
  obtain ⟨first, hfounds, -, hids, -⟩ := exists_founds_of_mem hgroup
  rw [hids]
  refine ⟨?_, nodup_orderedIds (nodup_candidates hdistinct hfounds.mem), fun id hid => ?_⟩
  · rw [length_orderedIds]
    exact hfounds.two_le
  · obtain ⟨card, hcard, hid⟩ := mem_orderedIds.mp hid
    have heligible := (candidates_sublist hfounds.mem).subset hcard
    rw [mem_eligibleCards] at heligible
    exact ⟨card, heligible.1, hid, heligible.2⟩

theorem pairwise_cardSets (hdistinct : (document.cards.map Card.id).Nodup) :
    (buildSimilarCandidateGroups runtime document payloadJson).groups.Pairwise
      fun left right => ¬ ∀ id, id ∈ left.cardIds ↔ id ∈ right.cardIds := by
  refine (List.pairwise_map.mp nodup_map_cardIds).imp_of_mem fun hleft hright hne hsame => hne ?_
  obtain ⟨first, hfirst, -, hids, -⟩ := exists_founds_of_mem hleft
  obtain ⟨second, hsecond, -, hids', -⟩ := exists_founds_of_mem hright
  rw [hids, hids'] at hsame ⊢
  exact orderedIds_eq_of_mem_iff (nodup_candidates hdistinct hfirst.mem)
    (nodup_candidates hdistinct hsecond.mem) hsame

theorem exists_group_of_key {reasonCode : String} {score : ℚ} {key : String → String}
    (hall : ∀ registration ∈ registrations reasonCode score key (eligibleCards document),
      registration ∈ allRegistrations runtime document)
    {left right : Card} (hleft : left ∈ eligibleCards document)
    (hright : right ∈ eligibleCards document) (hne : left ≠ right)
    (hsame : key left.text = key right.text) (hkey : key left.text ≠ "") :
    ∃ group ∈ (buildSimilarCandidateGroups runtime document payloadJson).groups,
      reasonCode ∈ group.reasonCodes ∧ left.id ∈ group.cardIds ∧ right.id ∈ group.cardIds := by
  obtain ⟨registration, hmem, rfl, hcard, hcard'⟩ :=
    @exists_registration reasonCode score key _ _ _ hleft hright hsame hkey
  have hlength : 2 ≤ registration.candidates.length := by
    have hsub : [left, right] ⊆ registration.candidates := by
      simp only [List.cons_subset, hcard, hcard', List.nil_subset, and_self]
    have hnodup : [left, right].Nodup := by simpa using hne
    exact (List.subperm_of_subset hnodup hsub).length_le
  obtain ⟨group, hgroup, hcode, hids⟩ := exists_group (hall registration hmem) hlength
  refine ⟨group, hgroup, hcode, ?_, ?_⟩
  · exact hids ▸ mem_orderedIds.mpr ⟨left, hcard, rfl⟩
  · exact hids ▸ mem_orderedIds.mpr ⟨right, hcard', rfl⟩

theorem not_nil_of_mem_splitRuns {isSeparator : Char → Bool} {text part : String}
    (hpart : part ∈ splitRuns isSeparator text) : part ≠ "" := by
  obtain ⟨chars, hchars, rfl⟩ := List.mem_map.mp hpart
  intro hempty
  have hne := of_decide_eq_true (List.mem_filter.mp hchars).2
  apply hne
  have hlist := congrArg String.toList hempty
  rwa [String.toList_ofList] at hlist

theorem intercalate_ne_empty {separator text : String} {texts : List String} (htext : text ≠ "") :
    separator.intercalate (text :: texts) ≠ "" := by
  cases texts with
  | nil => rwa [String.intercalate_singleton]
  | cons next texts =>
      intro hempty
      rw [String.intercalate_cons_cons, String.append_eq_empty_iff,
        String.append_eq_empty_iff] at hempty
      exact htext hempty.1.1

theorem normalizeText_ne_empty {text : String} (htokens : tokens runtime text ≠ []) :
    normalizeTextForCandidateKey runtime text ≠ "" := by
  intro hempty
  apply htokens
  rw [tokens, hempty]
  rfl

/-- The words decide the signature, and are not all lost in it. -/
theorem tokenSignature_eq_of_tokens {left right : String}
    (hsame : ∀ token, token ∈ tokens runtime left ↔ token ∈ tokens runtime right)
    (hne : tokens runtime left ≠ []) :
    tokenSignature runtime left = tokenSignature runtime right ∧
      tokenSignature runtime left ≠ "" := by
  obtain ⟨token, htoken⟩ := List.exists_mem_of_ne_nil _ hne
  have hne' : tokens runtime right ≠ [] := List.ne_nil_of_mem ((hsame token).mp htoken)
  have hsorted : sortOn codePointLe id (tokens runtime left) =
      sortOn codePointLe id (tokens runtime right) := by
    apply sortOn.eq_of_perm codePointLe id codePointLe_total codePointLe_trans codePointLe_antisymm
    · rw [List.map_id]
      exact nodup_distinct _
    · exact (List.perm_ext_iff_of_nodup (nodup_distinct _) (nodup_distinct _)).mpr hsame
  unfold tokenSignature
  rw [if_neg (normalizeText_ne_empty hne), if_neg (normalizeText_ne_empty hne'), ← hsorted]
  refine ⟨rfl, ?_⟩
  cases hwords : sortOn codePointLe id (tokens runtime left) with
  | nil =>
      rw [← sortOn.mem codePointLe id, hwords] at htoken
      cases htoken
  | cons word words =>
      apply intercalate_ne_empty
      have hword : word ∈ tokens runtime left := by
        rw [← sortOn.mem codePointLe id, hwords]
        exact List.mem_cons_self
      exact not_nil_of_mem_splitRuns (mem_distinct.mp hword)

theorem eligibleCards_eq {other : DocumentPayload}
    (hdistinct : (document.cards.map Card.id).Nodup) (hperm : other.cards.Perm document.cards) :
    eligibleCards other = eligibleCards document := by
  apply sortOn.eq_of_perm codePointLe Card.id codePointLe_total codePointLe_trans
    codePointLe_antisymm
  · exact ((hperm.map Card.id).nodup_iff.mpr hdistinct).sublist (List.filter_sublist.map Card.id)
  · exact hperm.filter _

theorem eq_of_label (hdistinct : (document.cards.map Card.id).Nodup)
    (hfirst : Founds (allRegistrations runtime document) first)
    (hsecond : Founds (allRegistrations runtime document) second)
    (hreason : first.reasonCode = second.reasonCode)
    (hlabel : first.label runtime = second.label runtime) : first = second := by
  have hhead : ∀ {registration}, Founds (allRegistrations runtime document) registration →
      ∃ card ∈ registration.candidates, card.id = (registration.label runtime).2 := by
    intro registration hfounds
    have hlength := hfounds.two_le
    rw [← length_orderedIds] at hlength
    apply mem_orderedIds.mp
    change (orderedIds registration.candidates).headD "" ∈ orderedIds registration.candidates
    cases hids : orderedIds registration.candidates with
    | nil =>
        rw [hids] at hlength
        cases hlength
    | cons id ids => exact List.mem_cons_self
  obtain ⟨card, hcard, hid⟩ := hhead hfirst
  obtain ⟨other, hother, hid'⟩ := hhead hsecond
  obtain rfl : card = other := List.inj_on_of_nodup_map (nodup_eligibleCards hdistinct)
    ((candidates_sublist hfirst.mem).subset hcard) ((candidates_sublist hsecond.mem).subset hother)
    (by rw [hid, hid', hlabel])
  obtain ⟨reasonCode, -, _, _, hregistration, hall⟩ := exists_of_mem_all hfirst.mem
  have hcode : first.reasonCode = reasonCode :=
    congrArg Registration.reasonCode (mem_registrations.mp hregistration).2
  exact eq_of_mem_candidates hregistration (hall second hsecond.mem (hreason.symm.trans hcode))
    hcard hother

theorem nodup_groupIds_iff (hdistinct : (document.cards.map Card.id).Nodup) :
    ((buildSimilarCandidateGroups runtime document payloadJson).groups.map
      SimilarCandidateGroup.groupId).Nodup ↔ NoLabelsConfused runtime document := by
  constructor
  · intro hnodup first second hfirst hsecond hreason hshifted
    obtain ⟨left, hleft, hof, hids⟩ := @exists_group_of_founds _ _ payloadJson _ hfirst
    obtain ⟨right, hright, hof', hids'⟩ := @exists_group_of_founds _ _ payloadJson _ hsecond
    have hid := (groupId_eq_iff hof hof' hfirst.mem hsecond.mem).mpr
      ⟨hreason, Or.inr (Or.inl hshifted)⟩
    obtain rfl : left = right := List.inj_on_of_nodup_map hnodup hleft hright hid
    obtain ⟨middle, -, hlonger⟩ := hshifted
    have hlength := congrArg String.length hlonger
    rw [Registration.label, Registration.label, ← hids, ← hids'] at hlength
    simp only [String.length_append, Char.toString_eq_singleton, String.length_singleton] at hlength
    omega
  · intro hnone
    apply List.Nodup.map_on _ (List.Nodup.of_map _ nodup_map_cardIds)
    intro left hleft right hright hid
    obtain ⟨first, hfirst, hof, hids, hget⟩ := exists_founds_of_mem hleft
    obtain ⟨second, hsecond, hof', hids', hget'⟩ := exists_founds_of_mem hright
    obtain ⟨hreason, hlabel⟩ := (groupId_eq_iff hof hof' hfirst.mem hsecond.mem).mp hid
    rcases hlabel with hlabel | hshifted | hshifted
    · rw [eq_of_label hdistinct hfirst hsecond hreason hlabel] at hids
      rw [hids, ← hids', hget'] at hget
      exact (Option.some.inj hget).symm
    · exact absurd hshifted (hnone first second hfirst hsecond hreason)
    · exact absurd hshifted (hnone second first hsecond hfirst hreason.symm)

/-- Only the ids can fail, and they do exactly where labels are joined to one text. -/
theorem similar_groups_are_well_formed_iff (payloadJson : String)
    (hdistinct : (document.cards.map Card.id).Nodup) :
    WellFormed runtime document payloadJson ↔ NoLabelsConfused runtime document := by
  rw [← nodup_groupIds_iff hdistinct]
  constructor
  · exact WellFormed.groupIds
  · intro hids
    refine ⟨fun group => members_of_group hdistinct, pairwise_cardSets hdistinct, hids, ?_, ?_, ?_⟩
    · intro left hleft right hright hne hsame hkey
      exact exists_group_of_key (fun _ => List.mem_append_left _) hleft hright hne hsame hkey
    · intro left hleft right hright hne hsame htokens
      obtain ⟨hsignature, hkey⟩ := tokenSignature_eq_of_tokens hsame htokens
      exact exists_group_of_key (fun _ => List.mem_append_right _) hleft hright hne hsignature hkey
    · intro other htime hperm
      rw [buildSimilarCandidateGroups, buildSimilarCandidateGroups, allRegistrations,
        allRegistrations, eligibleCards_eq hdistinct hperm, htime]

end Groups

namespace HyphenIds

def ascii : Runtime where
  casefold text := .ofList (text.toList.map Char.toLower)
  isWord c := c.isAlphanum || decide (c = '_')
  etag _ := "0123456789abcdef"

def card (id text : String) : Card := ⟨id, text, none, none, none⟩

/-- Two cards with one text, and two with another one, whose ids have hyphens. -/
def twins : DocumentPayload where
  updatedAt := "2026-01-01T00:00:00Z"
  cards := [card "b-1" "Plan", card "c-1" "a plan", card "b-2" "plan ", card "c-2" "A  Plan"]

/-- The text `a` before the card `b-c`, and the text `a b` before the card `c`. -/
def hyphens : DocumentPayload where
  updatedAt := "2026-01-01T00:00:00Z"
  cards := [card "b-c" "a", card "d" "a", card "c" "a b", card "e" "a b"]

theorem similar_groups_are_well_formed_iff_twins :
    (buildSimilarCandidateGroups ascii twins "").groups.map SimilarCandidateGroup.groupId =
      ["heuristic-normalized_text-plan-b-1", "heuristic-normalized_text-a-plan-c-1"] ∧
    WellFormed ascii twins "" := by
  refine ⟨by decide +kernel, (similar_groups_are_well_formed_iff "" (by decide)).mpr ?_⟩
  have hlabels : ∀ first ∈ allRegistrations ascii twins, ∀ second ∈ allRegistrations ascii twins,
      first.reasonCode = second.reasonCode →
      (first.label ascii).1 ++ '-'.toString ++ (first.label ascii).2 =
        (second.label ascii).1 ++ '-'.toString ++ (second.label ascii).2 →
        first.label ascii = second.label ascii := by
    decide +kernel
  intro first second hfirst hsecond hreason hshifted
  exact hshifted.ne (hlabels first hfirst.mem second hsecond.mem hreason
    (join_eq_iff.mpr (Or.inr (Or.inl hshifted))))

/-- Both groups have the id `heuristic-normalized_text-a-b-c`. -/
theorem two_groups_one_id :
    (hyphens.cards.map Card.id).Nodup ∧ ¬ WellFormed ascii hyphens "" := by
  refine ⟨by decide, fun hformed => ?_⟩
  have hids : (buildSimilarCandidateGroups ascii hyphens "").groups.map
      SimilarCandidateGroup.groupId =
        ["heuristic-normalized_text-a-b-c", "heuristic-normalized_text-a-b-c"] := by
    decide +kernel
  have hnodup := hformed.groupIds
  rw [hids] at hnodup
  exact absurd hnodup (by decide)

end HyphenIds

end KjAtlas.SimilarCandidates
