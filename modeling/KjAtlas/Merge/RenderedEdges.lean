import KjAtlas.Foundation.Grouping
import KjAtlas.Merge.Lineage

/-! # Rendered edges

Where source cards are hidden, their edges are drawn at the cards that they were
merged into. Edges that are redirected to the same ends are drawn as one, with
their number. An end is redirected along one link: a chain of links ends at a card
that is hidden itself.
-/

namespace KjAtlas

open Js Relation

/-! ## Aggregation -/

structure RenderEdge where
  id : String
  fromId : String
  toId : String
  type : String
  fromKind : EdgeEndpointKind
  toKind : EdgeEndpointKind
  isDerived : Option Bool
  aggregateCount : Option Nat
deriving DecidableEq

structure Endpoint where
  kind : EdgeEndpointKind
  id : String
deriving DecidableEq

def getEndpoint (rawKind : Option EdgeEndpointKind) (id : String) : Endpoint where
  kind := if rawKind = some .island then .island else .card
  id := id

def Endpoint.key (endpoint : Endpoint) : String := endpoint.kind.text ++ ":" ++ endpoint.id

structure EdgeEnds where
  source : Endpoint
  target : Endpoint
  type : String
deriving DecidableEq

/-- `edgeKey`. -/
def EdgeEnds.key (ends : EdgeEnds) : String :=
  ends.source.key ++ "|" ++ ends.target.key ++ "|" ++ ends.type

def Edge.ends (edge : Edge) : EdgeEnds where
  source := getEndpoint edge.fromKind edge.fromId
  target := getEndpoint edge.toKind edge.toId
  type := edge.type

def RenderEdge.ends (edge : RenderEdge) : EdgeEnds where
  source := ⟨edge.fromKind, edge.fromId⟩
  target := ⟨edge.toKind, edge.toId⟩
  type := edge.type

structure AggregateValue where
  ends : EdgeEnds
  count : Nat

def isSourceCard (card : Card) : Bool := (card.props.get "canonicalId").isSome

section Render

variable (document : DocumentV1) (hideSourceCards : Bool)

def hiddenSourceCardIds : List String :=
  if hideSourceCards then (document.cards.filter isSourceCard).map Card.id else []

def IsHidden (endpoint : Endpoint) : Prop :=
  endpoint.kind = .card ∧ endpoint.id ∈ hiddenSourceCardIds document hideSourceCards

instance (endpoint : Endpoint) : Decidable (IsHidden document hideSourceCards endpoint) :=
  inferInstanceAs (Decidable (_ ∧ _))

/-- `cardById.get(id)`: the last card with an id. -/
def lastCardById (id : String) : Option Card := findBy Card.id id document.cards.reverse

def mappedEndpoint (endpoint : Endpoint) : Endpoint :=
  if IsHidden document hideSourceCards endpoint then
    getEndpoint (some .card) (((lastCardById document endpoint.id).bind Card.canonicalId).getD endpoint.id)
  else endpoint

def mappedEnds (edge : Edge) : EdgeEnds where
  source := mappedEndpoint document hideSourceCards edge.ends.source
  target := mappedEndpoint document hideSourceCards edge.ends.target
  type := edge.type

def TouchesHidden (edge : Edge) : Prop :=
  IsHidden document hideSourceCards edge.ends.source ∨
    IsHidden document hideSourceCards edge.ends.target

instance (edge : Edge) : Decidable (TouchesHidden document hideSourceCards edge) :=
  inferInstanceAs (Decidable (_ ∨ _))

def visibleEdges : List Edge :=
  document.edges.filter fun edge => decide (¬ TouchesHidden document hideSourceCards edge)

def redirectedEdges : List Edge :=
  document.edges.filter fun edge => decide (TouchesHidden document hideSourceCards edge ∧
    (mappedEnds document hideSourceCards edge).source ≠
      (mappedEnds document hideSourceCards edge).target)

def Edge.toRender (edge : Edge) : RenderEdge where
  id := edge.id
  fromId := edge.ends.source.id
  toId := edge.ends.target.id
  type := edge.type
  fromKind := edge.ends.source.kind
  toKind := edge.ends.target.kind
  isDerived := none
  aggregateCount := none

def AggregateValue.toRender (key : String) (value : AggregateValue) : RenderEdge where
  id := "agg:" ++ key
  fromId := value.ends.source.id
  toId := value.ends.target.id
  type := value.ends.type
  fromKind := value.ends.source.kind
  toKind := value.ends.target.kind
  isDerived := some true
  aggregateCount := some value.count

/-- `aggregateMap`: the redirected edges of each key, with the ends of the first one. -/
def aggregateMap : InsertionMap String AggregateValue :=
  collect (fun edge => (mappedEnds document hideSourceCards edge).key)
    (fun edge => ⟨mappedEnds document hideSourceCards edge, 1⟩)
    (fun value _ => { value with count := value.count + 1 })
    (redirectedEdges document hideSourceCards)

def getEdgesToRender : List RenderEdge :=
  (visibleEdges document hideSourceCards).map Edge.toRender ++
    (aggregateMap document hideSourceCards).entries.map fun entry =>
      entry.2.toRender entry.1

end Render

/-! ## What should be rendered -/

/-- An end becomes itself, or for a card the one without a canonical card at the end of its
chain. -/
def Becomes (document : DocumentV1) (endpoint result : Endpoint) : Prop :=
  match endpoint.kind with
  | .island => result = endpoint
  | .card => result.kind = .card ∧ ReflTransGen (PointsTo document) endpoint.id result.id ∧
      IsRoot (PointsTo document) result.id

structure EndsBecome (document : DocumentV1) (ends result : EdgeEnds) : Prop where
  source : Becomes document ends.source result.source
  target : Becomes document ends.target result.target
  type : result.type = ends.type

/-- A rendered edge stands for an edge: it is the edge itself, or was aggregated from it, and has
the ends that the edge should have. -/
structure Represents (document : DocumentV1) (rendered : RenderEdge) (edge : Edge) : Prop where
  ends : EndsBecome document edge.ends rendered.ends
  drawn : ¬ TouchesHidden document true edge →
    rendered.isDerived = none ∧ rendered.id = edge.id
  aggregated : TouchesHidden document true edge →
    rendered.isDerived = some true ∧ rendered.id = "agg:" ++ (mappedEnds document true edge).key

open Classical in
noncomputable def representedEdges (document : DocumentV1) (rendered : RenderEdge) : List Edge :=
  document.edges.filter fun edge => decide (Represents document rendered edge)

/-- No end is hidden and no edge is lost. -/
structure Redirects (document : DocumentV1) : Prop where
  visible : ∀ rendered ∈ getEdgesToRender document true,
    ¬ IsHidden document true rendered.ends.source ∧ ¬ IsHidden document true rendered.ends.target
  represented : ∀ edge ∈ document.edges,
    (¬ ∃ endpoint, Becomes document edge.ends.source endpoint ∧
      Becomes document edge.ends.target endpoint) →
        ∃! rendered, rendered ∈ getEdgesToRender document true ∧ Represents document rendered edge
  counts : ∀ rendered ∈ getEdgesToRender document true, rendered.isDerived = some true →
    rendered.aggregateCount = some (representedEdges document rendered).length
  ids : ((getEdgesToRender document true).map RenderEdge.id).Nodup

/-- A document whose cards and edges have ids of their own, and whose links between merged cards
name cards and form no cycle. -/
structure LinkedDocument (document : DocumentV1) : Prop where
  cards : (document.cards.map Card.id).Nodup
  edges : (document.edges.map Edge.id).Nodup
  known : ∀ card ∈ document.cards, isSourceCard card = true →
    ∃ canonicalId ∈ document.cardIds, card.canonicalId = some canonicalId
  acyclic : ∀ id, ¬ TransGen (PointsTo document) id id

/-- The redirected edges of one key have the same ends in the end, and these are where the first
one of them is redirected to; and no visible edge has the id of an aggregate. -/
structure OneLinkSuffices (document : DocumentV1) : Prop where
  ends : ∀ edge ∈ redirectedEdges document true, ∀ first,
    (redirectedEdges document true).find? (fun other =>
      decide ((mappedEnds document true other).key = (mappedEnds document true edge).key)) =
        some first →
      EndsBecome document edge.ends (mappedEnds document true first)
  ids : ∀ edge ∈ visibleEdges document true, ∀ other ∈ redirectedEdges document true,
    edge.id ≠ "agg:" ++ (mappedEnds document true other).key

/-! ## Chains of links -/

theorem isSourceCard_of_canonicalId {card : Card} {canonicalId : String}
    (hcanonical : card.canonicalId = some canonicalId) : isSourceCard card = true := by
  rw [Card.canonicalId, Card.text?, Js.Props.string?] at hcanonical
  obtain ⟨value, hvalue, -⟩ := Option.bind_eq_some_iff.mp hcanonical
  rw [isSourceCard, hvalue]
  rfl

section Links

variable {document : DocumentV1} (hlinked : LinkedDocument document)

include hlinked

theorem LinkedDocument.card_eq {card other : Card} (hcard : card ∈ document.cards)
    (hother : other ∈ document.cards) (hid : card.id = other.id) : card = other :=
  List.inj_on_of_nodup_map hlinked.cards hcard hother hid

theorem LinkedDocument.forest : IsForest document.cardIds (PointsTo document) where
  source := by
    rintro a b ⟨card, hcard, rfl, -⟩
    exact ⟨card, hcard, rfl⟩
  target := by
    rintro a b ⟨card, hcard, -, hpoints⟩
    obtain ⟨canonicalId, hmem, hcanonical⟩ :=
      hlinked.known card hcard (isSourceCard_of_canonicalId hpoints)
    rw [hpoints] at hcanonical
    exact Option.some.inj hcanonical ▸ hmem
  functional := by
    rintro a b c ⟨card, hcard, rfl, hb⟩ ⟨other, hother, hid, hc⟩
    obtain rfl := hlinked.card_eq hother hcard hid
    exact Option.some.inj (hb.symm.trans hc)
  wellFounded := by
    have hfinite : document.cardIds.Finite := by
      refine (document.cards.map Card.id).finite_toSet.subset ?_
      rintro id ⟨card, hcard, rfl⟩
      exact List.mem_map_of_mem hcard
    apply wellFounded_of_acyclic hfinite _ hlinked.acyclic
    rintro a b ⟨card, hcard, rfl, -⟩
    exact ⟨card, hcard, rfl⟩

variable {endpoint : Endpoint} {edge : Edge}

theorem LinkedDocument.isHidden_iff :
    IsHidden document true endpoint ↔
      endpoint.kind = .card ∧ ¬ IsRoot (PointsTo document) endpoint.id := by
  unfold IsHidden hiddenSourceCardIds
  rw [if_pos rfl, List.mem_map]
  simp only [IsRoot, not_forall, not_not]
  refine and_congr_right fun _ => ?_
  constructor
  · rintro ⟨card, hcard, hid⟩
    obtain ⟨hcard, hsource⟩ := List.mem_filter.mp hcard
    obtain ⟨canonicalId, -, hcanonical⟩ := hlinked.known card hcard hsource
    exact ⟨canonicalId, card, hcard, hid, hcanonical⟩
  · rintro ⟨canonicalId, card, hcard, hid, hcanonical⟩
    exact ⟨card, List.mem_filter.mpr ⟨hcard, isSourceCard_of_canonicalId hcanonical⟩, hid⟩

theorem LinkedDocument.mapped (hhidden : IsHidden document true endpoint) :
    ∃ canonicalId, mappedEndpoint document true endpoint = ⟨.card, canonicalId⟩ ∧
      PointsTo document endpoint.id canonicalId := by
  have hroot := (hlinked.isHidden_iff.mp hhidden).2
  simp only [IsRoot, not_forall, not_not] at hroot
  obtain ⟨canonicalId, card, hcard, hid, hcanonical⟩ := hroot
  refine ⟨canonicalId, ?_, card, hcard, hid, hcanonical⟩
  have hnodup : (document.cards.reverse.map Card.id).Nodup := by
    rw [List.map_reverse, List.nodup_reverse]
    exact hlinked.cards
  rw [mappedEndpoint, if_pos hhidden, lastCardById, ← hid,
    findBy_of_mem Card.id hnodup (List.mem_reverse.mpr hcard), Option.bind_some, hcanonical]
  rfl

theorem LinkedDocument.exists_becomes (endpoint : Endpoint) :
    ∃ result, Becomes document endpoint result := by
  unfold Becomes
  cases hkind : endpoint.kind with
  | island => exact ⟨endpoint, rfl⟩
  | card =>
      obtain ⟨root, ⟨hreaches, hroot⟩, -⟩ := hlinked.forest.existsUnique_root endpoint.id
      exact ⟨⟨.card, root⟩, rfl, hreaches, hroot⟩

theorem LinkedDocument.becomes_unique {first second : Endpoint}
    (hfirst : Becomes document endpoint first) (hsecond : Becomes document endpoint second) :
    first = second := by
  unfold Becomes at hfirst hsecond
  cases hkind : endpoint.kind with
  | island =>
      rw [hkind] at hfirst hsecond
      exact hfirst.trans hsecond.symm
  | card =>
      rw [hkind] at hfirst hsecond
      obtain ⟨root, -, hunique⟩ := hlinked.forest.existsUnique_root endpoint.id
      have hid := (hunique _ hfirst.2).trans (hunique _ hsecond.2).symm
      cases first
      cases second
      cases hfirst.1
      cases hsecond.1
      cases hid
      rfl

theorem LinkedDocument.becomes_mapped {result : Endpoint}
    (hbecomes : Becomes document (mappedEndpoint document true endpoint) result) :
    Becomes document endpoint result := by
  by_cases hhidden : IsHidden document true endpoint
  · obtain ⟨canonicalId, hmapped, hpoints⟩ := hlinked.mapped hhidden
    rw [hmapped] at hbecomes
    unfold Becomes at hbecomes ⊢
    rw [(hlinked.isHidden_iff.mp hhidden).1]
    exact ⟨hbecomes.1, .head hpoints hbecomes.2.1, hbecomes.2.2⟩
  · rwa [mappedEndpoint, if_neg hhidden] at hbecomes

theorem LinkedDocument.not_isHidden {result : Endpoint}
    (hbecomes : Becomes document endpoint result) : ¬ IsHidden document true result := by
  rw [hlinked.isHidden_iff, not_and, not_not]
  intro hcard
  unfold Becomes at hbecomes
  cases hkind : endpoint.kind with
  | island =>
      rw [hkind] at hbecomes
      rw [hbecomes, hkind] at hcard
      cases hcard
  | card =>
      rw [hkind] at hbecomes
      exact hbecomes.2.2

theorem LinkedDocument.becomes_self (hvisible : ¬ IsHidden document true endpoint) :
    Becomes document endpoint endpoint := by
  rw [hlinked.isHidden_iff, not_and, not_not] at hvisible
  unfold Becomes
  cases hkind : endpoint.kind with
  | island => rfl
  | card => exact ⟨rfl, .refl, hvisible hkind⟩

theorem LinkedDocument.mapped_ne (hends : ¬ ∃ endpoint, Becomes document edge.ends.source endpoint ∧
      Becomes document edge.ends.target endpoint) :
    (mappedEnds document true edge).source ≠ (mappedEnds document true edge).target := by
  intro hsame
  obtain ⟨result, hresult⟩ := hlinked.exists_becomes (mappedEnds document true edge).source
  have htarget := hresult
  rw [hsame] at htarget
  exact hends ⟨result, hlinked.becomes_mapped hresult, hlinked.becomes_mapped htarget⟩

end Links

/-! ## The rendered edges -/

section Rendered

variable {document : DocumentV1} {hideSourceCards : Bool} {edge : Edge} {value : AggregateValue}

theorem mem_visibleEdges : edge ∈ visibleEdges document hideSourceCards ↔
    edge ∈ document.edges ∧ ¬ TouchesHidden document hideSourceCards edge := by
  rw [visibleEdges, List.mem_filter, decide_eq_true_eq]

theorem mem_redirectedEdges : edge ∈ redirectedEdges document hideSourceCards ↔
    edge ∈ document.edges ∧ TouchesHidden document hideSourceCards edge ∧
      (mappedEnds document hideSourceCards edge).source ≠
        (mappedEnds document hideSourceCards edge).target := by
  rw [redirectedEdges, List.mem_filter, decide_eq_true_eq]

theorem get?_aggregateMap (key : String) :
    (aggregateMap document hideSourceCards).get? key =
      ((redirectedEdges document hideSourceCards).find? fun other =>
        decide ((mappedEnds document hideSourceCards other).key = key)).map fun first =>
          { ends := mappedEnds document hideSourceCards first
            count := (redirectedEdges document hideSourceCards).countP fun other =>
              decide ((mappedEnds document hideSourceCards other).key = key) } := by
  have hcount : ∀ (rest : List Edge) (value : AggregateValue),
      rest.foldl (fun value _ => { value with count := value.count + 1 }) value =
        { value with count := value.count + rest.length } := by
    intro rest
    induction rest with
    | nil => exact fun value => rfl
    | cons edge rest ih =>
        intro value
        rw [List.foldl_cons, ih, List.length_cons]
        simp only [AggregateValue.mk.injEq, true_and]
        omega
  rw [aggregateMap, get?_collect, ← List.head?_filter, List.countP_eq_length_filter]
  cases (redirectedEdges document hideSourceCards).filter fun other =>
      decide ((mappedEnds document hideSourceCards other).key = key) with
  | nil => rfl
  | cons first rest =>
      rw [groupOf, hcount, List.head?_cons, Option.map_some, List.length_cons, Nat.add_comm]

theorem mem_getEdgesToRender {rendered : RenderEdge} :
    rendered ∈ getEdgesToRender document hideSourceCards ↔
      (∃ edge ∈ visibleEdges document hideSourceCards, rendered = edge.toRender) ∨
        ∃ key value, (aggregateMap document hideSourceCards).get? key = some value ∧
          rendered = value.toRender key := by
  rw [getEdgesToRender, List.mem_append, List.mem_map, List.mem_map]
  apply or_congr
  · exact exists_congr fun edge => and_congr_right fun _ => eq_comm
  · constructor
    · rintro ⟨⟨key, value⟩, hentry, rfl⟩
      exact ⟨key, value, InsertionMap.mem_entries.mp hentry, rfl⟩
    · rintro ⟨key, value, hget, rfl⟩
      exact ⟨⟨key, value⟩, InsertionMap.mem_entries.mpr hget, rfl⟩

theorem aggregate_of_mem (hedge : edge ∈ redirectedEdges document hideSourceCards) :
    ∃ value, (aggregateMap document hideSourceCards).get?
      (mappedEnds document hideSourceCards edge).key = some value := by
  rw [get?_aggregateMap]
  cases hfirst : (redirectedEdges document hideSourceCards).find? fun other =>
      decide ((mappedEnds document hideSourceCards other).key =
        (mappedEnds document hideSourceCards edge).key) with
  | none => exact absurd (decide_eq_true rfl) (List.find?_eq_none.mp hfirst edge hedge)
  | some first => exact ⟨_, rfl⟩

theorem aggregate_eq {key : String}
    (hget : (aggregateMap document hideSourceCards).get? key = some value) :
    ∃ first ∈ redirectedEdges document hideSourceCards,
      (redirectedEdges document hideSourceCards).find? (fun other =>
        decide ((mappedEnds document hideSourceCards other).key = key)) = some first ∧
      (mappedEnds document hideSourceCards first).key = key ∧
      value.ends = mappedEnds document hideSourceCards first ∧
      value.count = (redirectedEdges document hideSourceCards).countP fun other =>
        decide ((mappedEnds document hideSourceCards other).key = key) := by
  rw [get?_aggregateMap] at hget
  obtain ⟨first, hfirst, rfl⟩ := Option.map_eq_some_iff.mp hget
  have hkey := List.find?_some hfirst
  exact ⟨first, List.mem_of_find?_eq_some hfirst, hfirst, of_decide_eq_true hkey, rfl, rfl⟩

end Rendered

theorem OneLinkSuffices.represents {document : DocumentV1} (hone : OneLinkSuffices document)
    {edge : Edge} {key : String} {value : AggregateValue}
    (hget : (aggregateMap document true).get? key = some value)
    (hedge : edge ∈ redirectedEdges document true)
    (hkey : (mappedEnds document true edge).key = key) :
    Represents document (value.toRender key) edge := by
  obtain ⟨first, -, hfirst, -, hends, -⟩ := aggregate_eq hget
  have htouches := (mem_redirectedEdges.mp hedge).2.1
  have hbecome : EndsBecome document edge.ends value.ends := by
    rw [hends]
    apply hone.ends edge hedge
    rw [hkey]
    exact hfirst
  exact {
    ends := ⟨hbecome.source, hbecome.target, hbecome.type⟩
    drawn := fun hvisible => absurd htouches hvisible
    aggregated := fun _ => ⟨rfl, by rw [hkey]; rfl⟩ }

section Counting

variable {document : DocumentV1} {edge : Edge} {value : AggregateValue}
  (hlinked : LinkedDocument document)

include hlinked

theorem LinkedDocument.redirected_of_represents {key : String}
    (hget : (aggregateMap document true).get? key = some value) (hedge : edge ∈ document.edges)
    (hrepresents : Represents document (value.toRender key) edge) :
    edge ∈ redirectedEdges document true ∧ (mappedEnds document true edge).key = key := by
  have htouches : TouchesHidden document true edge := by
    by_contra hvisible
    exact Option.some_ne_none true (hrepresents.drawn hvisible).1
  obtain ⟨first, hfirst, -, -, hends, -⟩ := aggregate_eq hget
  refine ⟨mem_redirectedEdges.mpr ⟨hedge, htouches, hlinked.mapped_ne ?_⟩, ?_⟩
  · rintro ⟨result, hsource, htarget⟩
    apply (mem_redirectedEdges.mp hfirst).2.2
    rw [← hends]
    exact (hlinked.becomes_unique hrepresents.ends.source hsource).trans
      (hlinked.becomes_unique hrepresents.ends.target htarget).symm
  · exact (String.append_right_inj "agg:").mp (hrepresents.aggregated htouches).2.symm

theorem LinkedDocument.visible_represents (hedge : edge ∈ visibleEdges document true) :
    Represents document edge.toRender edge := by
  have hvisible := (mem_visibleEdges.mp hedge).2
  have hends := hvisible
  rw [TouchesHidden, not_or] at hends
  exact {
    ends := ⟨hlinked.becomes_self hends.1, hlinked.becomes_self hends.2, rfl⟩
    drawn := fun _ => ⟨rfl, rfl⟩
    aggregated := fun htouches => absurd htouches hvisible }

section OneLink

variable (hone : OneLinkSuffices document)

include hone

theorem LinkedDocument.ends_visible {rendered : RenderEdge}
    (hrendered : rendered ∈ getEdgesToRender document true) :
    ¬ IsHidden document true rendered.ends.source ∧
      ¬ IsHidden document true rendered.ends.target := by
  rcases mem_getEdgesToRender.mp hrendered with ⟨edge, hedge, rfl⟩ | ⟨key, value, hget, rfl⟩
  · have hvisible := (mem_visibleEdges.mp hedge).2
    rw [TouchesHidden, not_or] at hvisible
    exact hvisible
  · obtain ⟨first, hfirst, -, hkey, -⟩ := aggregate_eq hget
    have hbecome := (hone.represents hget hfirst hkey).ends
    exact ⟨hlinked.not_isHidden hbecome.source, hlinked.not_isHidden hbecome.target⟩

theorem LinkedDocument.existsUnique_represents (hedge : edge ∈ document.edges)
    (hends : ¬ ∃ endpoint, Becomes document edge.ends.source endpoint ∧
      Becomes document edge.ends.target endpoint) :
    ∃! rendered, rendered ∈ getEdgesToRender document true ∧
      Represents document rendered edge := by
  by_cases htouches : TouchesHidden document true edge
  · have hredirected : edge ∈ redirectedEdges document true :=
      mem_redirectedEdges.mpr ⟨hedge, htouches, hlinked.mapped_ne hends⟩
    obtain ⟨value, hget⟩ := aggregate_of_mem hredirected
    refine ⟨value.toRender _, ⟨mem_getEdgesToRender.mpr (.inr ⟨_, value, hget, rfl⟩),
      hone.represents hget hredirected rfl⟩, ?_⟩
    rintro other ⟨hother, hrepresents⟩
    have hderived := (hrepresents.aggregated htouches).1
    rcases mem_getEdgesToRender.mp hother with ⟨drawn, -, rfl⟩ | ⟨key, value', hget', rfl⟩
    · exact absurd hderived.symm (Option.some_ne_none true)
    · obtain ⟨-, rfl⟩ := hlinked.redirected_of_represents hget' hedge hrepresents
      rw [hget] at hget'
      rw [Option.some.inj hget']
  · have hvisible := mem_visibleEdges.mpr ⟨hedge, htouches⟩
    refine ⟨edge.toRender, ⟨mem_getEdgesToRender.mpr (.inl ⟨edge, hvisible, rfl⟩),
      hlinked.visible_represents hvisible⟩, ?_⟩
    rintro other ⟨hother, hrepresents⟩
    obtain ⟨hderived, hid⟩ := hrepresents.drawn htouches
    rcases mem_getEdgesToRender.mp hother with ⟨drawn, hdrawn, rfl⟩ | ⟨key, value, -, rfl⟩
    · rw [List.inj_on_of_nodup_map hlinked.edges (mem_visibleEdges.mp hdrawn).1 hedge hid]
    · exact absurd hderived (Option.some_ne_none true)

end OneLink

end Counting

/-- The number of edges that an aggregate stands for, against the number that it counts. -/
theorem length_representedEdges {document : DocumentV1} (rendered : RenderEdge) (key : String)
    (hsame : ∀ edge ∈ document.edges, Represents document rendered edge ↔
      edge ∈ redirectedEdges document true ∧ (mappedEnds document true edge).key = key) :
    (representedEdges document rendered).length =
      (redirectedEdges document true).countP fun other =>
        decide ((mappedEnds document true other).key = key) := by
  classical
  rw [representedEdges, ← List.countP_eq_length_filter, redirectedEdges, List.countP_filter]
  apply List.countP_congr
  intro edge hedge
  rw [decide_eq_true_eq, hsame edge hedge, mem_redirectedEdges, Bool.and_eq_true,
    decide_eq_true_eq, decide_eq_true_eq]
  exact ⟨fun h => ⟨h.2, h.1.2⟩, fun h => ⟨⟨hedge, h.2⟩, h.1⟩⟩

/-- The rendered ids are distinct unless an edge is named like an aggregate. -/
theorem nodup_ids_iff {document : DocumentV1} (hlinked : LinkedDocument document) :
    ((getEdgesToRender document true).map RenderEdge.id).Nodup ↔
      ∀ edge ∈ visibleEdges document true, ∀ other ∈ redirectedEdges document true,
        edge.id ≠ "agg:" ++ (mappedEnds document true other).key := by
  have hvisible : ((visibleEdges document true).map Edge.id).Nodup :=
    hlinked.edges.sublist (List.filter_sublist.map Edge.id)
  have hderived : ((aggregateMap document true).entries.map fun entry =>
      "agg:" ++ entry.1).Nodup := by
    have hkeys := (aggregateMap document true).nodup.map
      fun key key' hid => (String.append_right_inj "agg:").mp hid
    rwa [List.map_map] at hkeys
  have hids : (getEdgesToRender document true).map RenderEdge.id =
      (visibleEdges document true).map Edge.id ++
        (aggregateMap document true).entries.map fun entry => "agg:" ++ entry.1 := by
    rw [getEdgesToRender, List.map_append, List.map_map, List.map_map]
    rfl
  rw [hids, List.nodup_append]
  simp only [hvisible, hderived, true_and]
  constructor
  · intro hdisjoint edge hedge other hother
    obtain ⟨value, hget⟩ := aggregate_of_mem hother
    exact hdisjoint _ (List.mem_map_of_mem hedge) _
      (List.mem_map.mpr ⟨_, InsertionMap.mem_entries.mpr hget, rfl⟩)
  · intro hne id hid id' hid'
    obtain ⟨edge, hedge, rfl⟩ := List.mem_map.mp hid
    obtain ⟨⟨key, value⟩, hentry, rfl⟩ := List.mem_map.mp hid'
    obtain ⟨first, hfirst, -, rfl, -⟩ := aggregate_eq (InsertionMap.mem_entries.mp hentry)
    exact hne edge hedge first hfirst

/-- Edges are redirected to visible cards, none is lost and all are counted, exactly when one
link suffices. -/
theorem edges_are_redirected_iff {document : DocumentV1} (hlinked : LinkedDocument document) :
    Redirects document ↔ OneLinkSuffices document := by
  classical
  constructor
  · intro hredirects
    refine ⟨?_, (nodup_ids_iff hlinked).mp hredirects.ids⟩
    intro edge hedge first hfirst
    obtain ⟨value, hget⟩ := aggregate_of_mem hedge
    obtain ⟨first', -, hfirst', -, hends, hcount⟩ := aggregate_eq hget
    rw [hfirst, Option.some.injEq] at hfirst'
    subst hfirst'
    have hlength : (representedEdges document (value.toRender _)).length = value.count :=
      (Option.some.inj (hredirects.counts _
        (mem_getEdgesToRender.mpr (.inr ⟨_, value, hget, rfl⟩)) rfl)).symm
    have hrepresents : Represents document
        (value.toRender (mappedEnds document true edge).key) edge := by
      by_contra hnot
      -- The aggregate counts the edge and would stand for fewer edges than it counts.
      rw [hcount, representedEdges, ← List.countP_eq_length_filter, redirectedEdges,
        List.countP_filter] at hlength
      refine absurd hlength (Nat.ne_of_lt (countP_lt_countP (fun other hother h => ?_)
        (mem_redirectedEdges.mp hedge).1 ?_ (decide_eq_false hnot)))
      · obtain ⟨hother, hkey⟩ :=
          hlinked.redirected_of_represents hget hother (of_decide_eq_true h)
        rw [Bool.and_eq_true, decide_eq_true_eq, decide_eq_true_eq]
        exact ⟨hkey, (mem_redirectedEdges.mp hother).2⟩
      · rw [Bool.and_eq_true, decide_eq_true_eq, decide_eq_true_eq]
        exact ⟨rfl, (mem_redirectedEdges.mp hedge).2⟩
    rw [← hends]
    exact ⟨hrepresents.ends.source, hrepresents.ends.target, hrepresents.ends.type⟩
  · intro hone
    refine ⟨fun _ => hlinked.ends_visible hone, fun _ => hlinked.existsUnique_represents hone, ?_,
      (nodup_ids_iff hlinked).mpr hone.ids⟩
    intro rendered hrendered hderived
    rcases mem_getEdgesToRender.mp hrendered with ⟨edge, -, rfl⟩ | ⟨key, value, hget, rfl⟩
    · exact absurd hderived.symm (Option.some_ne_none true)
    · obtain ⟨-, -, -, -, -, hcount⟩ := aggregate_eq hget
      have hlength := length_representedEdges (value.toRender key) key fun edge hedge =>
        ⟨hlinked.redirected_of_represents hget hedge,
          fun h => hone.represents hget h.1 h.2⟩
      rw [hlength, ← hcount]
      rfl

/-! ## Small documents -/

namespace SourceCards

def canonicalCard (id : String) : Card := .smallest id "text"

def sourceCard (id canonicalId : String) : Card :=
  (Card.smallest id "text").put "canonicalId" (some (.string canonicalId)) id_ne_canonicalId

def edge (id fromId toId : String) : Edge := .smallest id fromId toId "related"

/-- `merged` was merged into `middle`; `target` has an edge to it. -/
def oneMerge : DocumentV1 :=
  { DocumentV1.smallest
      [sourceCard "merged" "middle", canonicalCard "middle", canonicalCard "target"] [] with
    edges := [edge "e" "merged" "target"] }

/-- Then `middle` was merged into `top`. -/
def twoMerges : DocumentV1 :=
  { DocumentV1.smallest [sourceCard "merged" "middle", sourceCard "middle" "top",
      canonicalCard "target", canonicalCard "top"] [] with
    edges := [edge "e" "merged" "target"] }

theorem linked_of_order {document : DocumentV1} (order : String → Nat)
    (hcards : (document.cards.map Card.id).Nodup) (hedges : (document.edges.map Edge.id).Nodup)
    (hknown : ∀ card ∈ document.cards, isSourceCard card = true →
      ∃ canonicalId ∈ document.cardIds, card.canonicalId = some canonicalId)
    (horder : ∀ card ∈ document.cards, ∀ canonicalId, card.canonicalId = some canonicalId →
      order card.id < order canonicalId) : LinkedDocument document := by
  refine ⟨hcards, hedges, hknown, fun id hcycle => ?_⟩
  have hlt : ∀ {a b}, TransGen (PointsTo document) a b → order a < order b := by
    intro a b hreaches
    induction hreaches with
    | single hpoints =>
        obtain ⟨card, hcard, rfl, hcanonical⟩ := hpoints
        exact horder card hcard _ hcanonical
    | tail _ hpoints ih =>
        obtain ⟨card, hcard, rfl, hcanonical⟩ := hpoints
        exact ih.trans (horder card hcard _ hcanonical)
  exact lt_irrefl _ (hlt hcycle)

def height (id : String) : Nat := if id = "merged" then 0 else if id = "middle" then 1 else 2

theorem canonicalId_sourceCard (id canonicalId : String) :
    (sourceCard id canonicalId).canonicalId = some canonicalId := by
  simp [sourceCard, Card.put, Card.canonicalId, Card.text?, Props.string?_put, JsValue.string?]

theorem not_isSourceCard_of_mem_pair {card : Card} {left right : String}
    (hcard : card ∈ [canonicalCard left, canonicalCard right]) : ¬ isSourceCard card = true := by
  rcases List.mem_pair.mp hcard with rfl | rfl
  all_goals simp [canonicalCard, Card.smallest, isSourceCard, Props.get_cons]

theorem linked_oneMerge : LinkedDocument oneMerge := by
  apply linked_of_order height (by decide) (by decide)
  · intro card hcard hsource
    rcases List.mem_cons.mp hcard with rfl | hcard
    · exact ⟨"middle", ⟨canonicalCard "middle", .tail _ (.head _), rfl⟩,
        canonicalId_sourceCard _ _⟩
    · exact absurd hsource (not_isSourceCard_of_mem_pair hcard)
  · intro card hcard canonicalId hcanonical
    rcases List.mem_cons.mp hcard with rfl | hcard
    · rw [canonicalId_sourceCard] at hcanonical
      obtain rfl := Option.some.inj hcanonical
      decide
    · exact absurd (isSourceCard_of_canonicalId hcanonical) (not_isSourceCard_of_mem_pair hcard)

theorem linked_twoMerges : LinkedDocument twoMerges := by
  apply linked_of_order height (by decide) (by decide)
  · intro card hcard hsource
    rcases List.mem_cons.mp hcard with rfl | hcard
    · exact ⟨"middle", ⟨sourceCard "middle" "top", .tail _ (.head _), rfl⟩,
        canonicalId_sourceCard _ _⟩
    rcases List.mem_cons.mp hcard with rfl | hcard
    · exact ⟨"top", ⟨canonicalCard "top", .tail _ (.tail _ (.tail _ (.head _))), rfl⟩,
        canonicalId_sourceCard _ _⟩
    · exact absurd hsource (not_isSourceCard_of_mem_pair hcard)
  · intro card hcard canonicalId hcanonical
    rcases List.mem_cons.mp hcard with rfl | hcard
    · rw [canonicalId_sourceCard] at hcanonical
      obtain rfl := Option.some.inj hcanonical
      decide
    rcases List.mem_cons.mp hcard with rfl | hcard
    · rw [canonicalId_sourceCard] at hcanonical
      obtain rfl := Option.some.inj hcanonical
      decide
    · exact absurd (isSourceCard_of_canonicalId hcanonical) (not_isSourceCard_of_mem_pair hcard)

/-- After one merge the edge is drawn at the merged card. -/
theorem edges_are_redirected_iff_oneMerge : Redirects oneMerge := by
  apply (edges_are_redirected_iff linked_oneMerge).mpr
  have hvisible : visibleEdges oneMerge true = [] := by decide
  have hredirected : redirectedEdges oneMerge true = [edge "e" "merged" "target"] := by decide
  have hmapped : mappedEnds oneMerge true (edge "e" "merged" "target") =
      ⟨⟨.card, "middle"⟩, ⟨.card, "target"⟩, "related"⟩ := by decide
  refine ⟨?_, by rw [hvisible]; exact fun edge hedge => absurd hedge List.not_mem_nil⟩
  rw [hredirected]
  intro only honly first hfirst
  obtain rfl := List.mem_singleton.mp honly
  obtain rfl := List.mem_singleton.mp (List.mem_of_find?_eq_some hfirst)
  have hroot : ∀ id ∈ ["middle", "target"], IsRoot (PointsTo oneMerge) id := by
    rintro id hid other ⟨card, hcard, rfl, hcanonical⟩
    rcases List.mem_cons.mp hcard with rfl | hcard
    · exact absurd hid (by decide)
    · exact absurd (isSourceCard_of_canonicalId hcanonical) (not_isSourceCard_of_mem_pair hcard)
  rw [hmapped]
  refine ⟨⟨rfl, .single ?_, hroot _ (by simp)⟩, ⟨rfl, .refl, hroot _ (by simp)⟩, rfl⟩
  exact ⟨sourceCard "merged" "middle", .head _, rfl, canonicalId_sourceCard _ _⟩

/-- After two merges the edge is drawn at `middle`, which is hidden. -/
theorem edge_at_hidden_card : LinkedDocument twoMerges ∧ ¬ Redirects twoMerges := by
  refine ⟨linked_twoMerges, fun hredirects => ?_⟩
  have hrendered : getEdgesToRender twoMerges true =
      [⟨"agg:card:middle|card:target|related", "middle", "target", "related", .card, .card,
        some true, some 1⟩] := by
    decide
  have hvisible := hredirects.visible
  rw [hrendered] at hvisible
  exact (hvisible _ List.mem_cons_self).1 (by decide)

end SourceCards

end KjAtlas
