import KjAtlas.Foundation.Traverse
import KjAtlas.Inquiry.Growth

/-! # Tracing the lineage of a card

The trace of a card lists the cards that it comes from, in the order of the
number of lineage edges between them. Addresses are compared by their keys, and
two addresses can have one key: the trace is right if the keys tell apart what
it meets.
-/

namespace KjAtlas.Inquiry

open Js (DateFormat)
open Relation (ReflTransGen TransGen)

/-- The kind of a lineage edge. -/
inductive LineageKind where
  | oneToOne (kind : OneToOneLineageKind)
  | derived
  | split
  | merged
  | new
  | retired
deriving DecidableEq

def Lineage.kind : Lineage → LineageKind
  | .oneToOne kind _ _ => .oneToOne kind
  | .derived _ _ => .derived
  | .split _ _ => .split
  | .merged _ _ => .merged
  | .new _ => .new
  | .retired _ => .retired

structure LineageRound where
  roundId : String
  stage : String
  iteration : Int
deriving DecidableEq

structure InquiryCardLineageNode where
  address : CardAddressV1
  text : String
  source : Option String
  round : Option LineageRound
  viaKind : Option LineageKind
deriving DecidableEq

/-! ## The trace -/

/-- Of the rounds that put out a snapshot, the last counts. -/
def roundsBySnapshot (rounds : List RoundRecordV1) : InsertionMap String RoundRecordV1 :=
  .ofList (rounds.filterMap fun round => round.output.map fun snapshotId => (snapshotId, round))

def buildNode (bundle : InquiryBundleV1) (address : CardAddressV1) (viaKind : Option LineageKind) :
    Option InquiryCardLineageNode := do
  let snapshot ← (snapshotsById bundle.snapshots).get? address.snapshotId
  let card ← findBy Card.id address.cardId snapshot.document.cards
  let round := (roundsBySnapshot bundle.journey.roundRecords).get? address.snapshotId
  return {
    address
    text := card.text
    source := card.source.filter (· ≠ "")
    round := round.map fun round => ⟨round.roundId, round.stage, round.iteration⟩
    viaKind
  }

/-- What has been visited, by key, what has been found, and what is still to be followed. -/
structure Tracing where
  visited : List String
  ancestors : List InquiryCardLineageNode
  queue : List CardAddressV1

/-- Look at a source, under the kind of its edge. -/
def Tracing.visit (bundle : InquiryBundleV1) (state : Tracing)
    (candidate : LineageKind × CardAddressV1) : Tracing :=
  let key := addressKey candidate.2
  if key ∈ state.visited then state
  else
    match buildNode bundle candidate.2 (some candidate.1) with
    | none => { state with visited := state.visited ++ [key] }
    | some node =>
        ⟨state.visited ++ [key], state.ancestors ++ [node], state.queue ++ [candidate.2]⟩

/-- The sources of the edges that have a target with the key of an address. -/
def lineageCandidates (bundle : InquiryBundleV1) (current : CardAddressV1) :
    List (LineageKind × CardAddressV1) :=
  bundle.cardLineage.flatMap fun edge =>
    if edge.targets.any fun address => addressKey address = addressKey current then
      edge.sources.map fun source => (edge.lineage.kind, source)
    else []

/-- Follow what is queued, in order; nothing is returned if the fuel does not suffice. -/
def Tracing.follow (bundle : InquiryBundleV1) : Nat → Tracing → Option (List InquiryCardLineageNode)
  | _, ⟨_, ancestors, []⟩ => some ancestors
  | 0, _ => none
  | fuel + 1, ⟨visited, ancestors, current :: queue⟩ =>
      follow bundle fuel
        ((lineageCandidates bundle current).foldl (visit bundle) ⟨visited, ancestors, queue⟩)

inductive TraceFailure where
  | cardNotFound
deriving DecidableEq

/-- The node of a card and its ancestors; `none` if the fuel does not suffice. -/
def traceInquiryCardLineage (fuel : Nat) (bundle : InquiryBundleV1) (target : CardAddressV1) :
    Option (Except TraceFailure (InquiryCardLineageNode × List InquiryCardLineageNode)) :=
  match buildNode bundle target none with
  | none => some (.error .cardNotFound)
  | some node =>
      (Tracing.follow bundle fuel ⟨[addressKey target], [], [target]⟩).map fun ancestors =>
        .ok (node, ancestors)

/-- Fuel for following every source once. -/
def traceFuel (bundle : InquiryBundleV1) : Nat :=
  (bundle.cardLineage.flatMap CardLineageEdgeV1.sources).length + 1

/-! ## What a trace should be -/

/-- An edge leads from the second address to the first. -/
def ComesFrom (bundle : InquiryBundleV1) (target source : CardAddressV1) : Prop :=
  ∃ edge ∈ bundle.cardLineage, target ∈ edge.targets ∧ source ∈ edge.sources

def sourcesOf (bundle : InquiryBundleV1) (target : CardAddressV1) : List CardAddressV1 :=
  bundle.cardLineage.flatMap fun edge => if target ∈ edge.targets then edge.sources else []

theorem points_sourcesOf {bundle : InquiryBundleV1} {target source : CardAddressV1} :
    Points (sourcesOf bundle) target source ↔ ComesFrom bundle target source := by
  simp only [Points, sourcesOf, ComesFrom, List.mem_flatMap]
  constructor
  · rintro ⟨edge, hedge, hsource⟩
    split at hsource
    next htarget => exact ⟨edge, hedge, htarget, hsource⟩
    next => simp at hsource
  · rintro ⟨edge, hedge, htarget, hsource⟩
    exact ⟨edge, hedge, by rwa [if_pos htarget]⟩

theorem points_sourcesOf_eq (bundle : InquiryBundleV1) :
    Points (sourcesOf bundle) = ComesFrom bundle := by
  funext target source
  exact propext points_sourcesOf

/-- An address lies in an origin, or an ancestor of a round that put out the target put it out. -/
def LiesBefore (journey : InquiryJourneyV1) (target address : CardAddressV1) : Prop :=
  ∃ round ∈ journey.roundRecords, round.outputSnapshotId = some target.snapshotId ∧
    (address.snapshotId ∈ journey.originSnapshotIds ∨
      ∃ ancestor ∈ journey.roundRecords, ancestor.outputSnapshotId = some address.snapshotId ∧
        TransGen (roundsById journey.roundRecords).HasParent round.roundId ancestor.roundId)

/-- The addresses that a target comes from, each once and without the target, in the order of the
distance. -/
structure IsAncestry (bundle : InquiryBundleV1) (target : CardAddressV1)
    (ancestors : List CardAddressV1) : Prop where
  nodup : ancestors.Nodup
  mem_iff : ∀ address, address ∈ ancestors ↔
    address ≠ target ∧ TransGen (ComesFrom bundle) target address
  sorted : ancestors.Pairwise fun near far =>
    distance (sourcesOf bundle) target near ≤ distance (sourcesOf bundle) target far
  before : ∀ address ∈ ancestors, LiesBefore bundle.journey target address

def KeysDiffer (bundle : InquiryBundleV1) (target : CardAddressV1) : Prop :=
  ∀ left right, ReflTransGen (ComesFrom bundle) target left →
    ReflTransGen (ComesFrom bundle) target right → addressKey left = addressKey right → left = right

/-- No edge leads to another address with the key of an address that a target comes from. -/
def TargetsDiffer (bundle : InquiryBundleV1) (target : CardAddressV1) : Prop :=
  ∀ address, ReflTransGen (ComesFrom bundle) target address →
    ∀ edge ∈ bundle.cardLineage, ∀ other ∈ edge.targets,
      addressKey other = addressKey address → other = address

variable {address : CardAddressV1} {state : Tracing}

section Location

variable {dates : DateFormat} {bundle : InquiryBundleV1}

theorem Valid.ownerOf_origin (hvalid : Valid dates bundle) {snapshotId : String}
    (horigin : snapshotId ∈ bundle.journey.originSnapshotIds) :
    ownerOf bundle.journey.roundRecords snapshotId = none := by
  cases howner : ownerOf bundle.journey.roundRecords snapshotId with
  | none => rfl
  | some ownerId =>
      obtain ⟨round, hround, -, houtput⟩ := ownerOf_eq_some howner
      obtain ⟨before, after, hsplit⟩ := List.append_of_mem hround
      exact absurd horigin (hvalid.outputs before round after hsplit snapshotId houtput).no_origin

theorem Valid.isBefore (hvalid : Valid dates bundle) {target : CardAddressV1}
    (hcomes : TransGen (ComesFrom bundle) target address) :
    ∃ ownerId ∈ ownerOf bundle.journey.roundRecords target.snapshotId,
      IsBefore bundle.journey address.snapshotId ownerId := by
  induction hcomes with
  | single hedge =>
      obtain ⟨edge, hedge, htarget, hsource⟩ := hedge
      obtain ⟨ownerId, howner, hbefore⟩ := (hvalid.lineage edge hedge).direction _ htarget
      exact ⟨ownerId, howner, hbefore _ hsource⟩
  | tail _ hedge ih =>
      obtain ⟨ownerId, howner, hbefore⟩ := ih
      obtain ⟨edge, hedge, htarget, hsource⟩ := hedge
      obtain ⟨middleId, hmiddle, hsources⟩ := (hvalid.lineage edge hedge).direction _ htarget
      refine ⟨ownerId, howner, ?_⟩
      rcases hbefore with horigin | ⟨otherId, hother, hancestor⟩
      · rw [hvalid.ownerOf_origin horigin] at hmiddle
        contradiction
      · obtain rfl : otherId = middleId := Option.some.inj (hother.symm.trans hmiddle)
        rcases hsources _ hsource with horigin | ⟨sourceId, hsourceId, hfurther⟩
        · exact .inl horigin
        · exact .inr ⟨sourceId, hsourceId, hancestor.trans hfurther⟩

theorem Valid.liesBefore (hvalid : Valid dates bundle) {target : CardAddressV1}
    (hcomes : TransGen (ComesFrom bundle) target address) :
    LiesBefore bundle.journey target address := by
  obtain ⟨ownerId, howner, hbefore⟩ := hvalid.isBefore hcomes
  obtain ⟨round, hround, rfl, houtput⟩ := ownerOf_eq_some howner
  refine ⟨round, hround, (output_eq_some.mp houtput).1, ?_⟩
  rcases hbefore with horigin | ⟨ancestorId, hancestor, hreaches⟩
  · exact .inl horigin
  · obtain ⟨ancestor, hmem, rfl, hputOut⟩ := ownerOf_eq_some hancestor
    exact .inr ⟨ancestor, hmem, (output_eq_some.mp hputOut).1, hreaches⟩

end Location

/-! ## The trace is a breadth-first search -/

variable {candidate : LineageKind × CardAddressV1} {fuel : Nat}

section Simulation

variable {bundle : InquiryBundleV1} {target : CardAddressV1} {viaKind : Option LineageKind}
  {search : BreadthFirst CardAddressV1}

theorem buildNode_isSome :
    (buildNode bundle address viaKind).isSome ↔
      hasCard (snapshotsById bundle.snapshots) address := by
  unfold buildNode hasCard
  cases (snapshotsById bundle.snapshots).get? address.snapshotId with
  | none => simp
  | some snapshot =>
      simp only [Option.bind_eq_bind, Option.bind_some, Option.any_some, List.any_eq_true,
        decide_eq_true_eq]
      rw [← findBy_isSome]
      cases findBy Card.id address.cardId snapshot.document.cards with
      | none => simp
      | some card => simp

theorem buildNode_address {node : InquiryCardLineageNode}
    (hnode : buildNode bundle address viaKind = some node) : node.address = address := by
  simp only [buildNode, Option.bind_eq_bind, Option.bind_eq_some_iff, Option.pure_def,
    Option.some.injEq] at hnode
  obtain ⟨-, -, -, -, rfl⟩ := hnode
  rfl

/-- The trace has visited the keys of what the search has found. -/
structure Simulates (target : CardAddressV1) (state : Tracing)
    (search : BreadthFirst CardAddressV1) : Prop where
  visited : state.visited = search.found.map addressKey
  found : search.found = target :: state.ancestors.map InquiryCardLineageNode.address
  queue : state.queue = search.queue

theorem Simulates.visit (hkeys : KeysDiffer bundle target)
    (hsimulates : Simulates target state search)
    (hreached : ∀ address ∈ search.found, ReflTransGen (ComesFrom bundle) target address)
    (hcandidate : ReflTransGen (ComesFrom bundle) target candidate.2)
    (hcard : hasCard (snapshotsById bundle.snapshots) candidate.2) :
    Simulates target (state.visit bundle candidate) (search.discover candidate.2) := by
  have hvisited : addressKey candidate.2 ∈ state.visited ↔ candidate.2 ∈ search.found := by
    rw [hsimulates.visited, List.mem_map]
    constructor
    · rintro ⟨address, haddress, hkey⟩
      rwa [← hkeys address candidate.2 (hreached address haddress) hcandidate hkey]
    · exact fun hmem => ⟨candidate.2, hmem, rfl⟩
  unfold Tracing.visit BreadthFirst.discover
  by_cases hfound : candidate.2 ∈ search.found
  · rw [if_pos (hvisited.mpr hfound), if_pos hfound]
    exact hsimulates
  · rw [if_neg (fun hmem => hfound (hvisited.mp hmem)), if_neg hfound]
    cases hnode : buildNode bundle candidate.2 (some candidate.1) with
    | none =>
        have hsome : (buildNode bundle candidate.2 (some candidate.1)).isSome :=
          buildNode_isSome.mpr hcard
        rw [hnode] at hsome
        contradiction
    | some node =>
        refine ⟨?_, ?_, ?_⟩
        · simp [hsimulates.visited]
        · simp [hsimulates.found, buildNode_address hnode]
        · simp [hsimulates.queue]

theorem Simulates.foldl (hkeys : KeysDiffer bundle target)
    {candidates : List (LineageKind × CardAddressV1)}
    (hcandidates : ∀ candidate ∈ candidates, ReflTransGen (ComesFrom bundle) target candidate.2 ∧
      hasCard (snapshotsById bundle.snapshots) candidate.2)
    {state : Tracing} {search : BreadthFirst CardAddressV1}
    (hsimulates : Simulates target state search)
    (hreached : ∀ address ∈ search.found, ReflTransGen (ComesFrom bundle) target address) :
    Simulates target (candidates.foldl (Tracing.visit bundle) state)
        ((candidates.map Prod.snd).foldl BreadthFirst.discover search) ∧
      ∀ address ∈ ((candidates.map Prod.snd).foldl BreadthFirst.discover search).found,
        ReflTransGen (ComesFrom bundle) target address := by
  induction candidates generalizing state search with
  | nil => exact ⟨hsimulates, hreached⟩
  | cons candidate candidates ih =>
      rw [List.forall_mem_cons] at hcandidates
      apply ih hcandidates.2 (hsimulates.visit hkeys hreached hcandidates.1.1 hcandidates.1.2)
      intro address haddress
      unfold BreadthFirst.discover at haddress
      split at haddress
      next => exact hreached address haddress
      next =>
        rcases mem_snoc.mp haddress with hfound | hnew
        · exact hreached address hfound
        · rw [hnew]
          exact hcandidates.1.1

theorem map_snd_lineageCandidates (htargets : TargetsDiffer bundle target)
    (hreached : ReflTransGen (ComesFrom bundle) target address) :
    (lineageCandidates bundle address).map Prod.snd = sourcesOf bundle address := by
  rw [lineageCandidates, sourcesOf, List.map_flatMap]
  apply List.flatMap_congr
  intro edge hedge
  have htarget : (edge.targets.any fun other => addressKey other = addressKey address) = true ↔
      address ∈ edge.targets := by
    rw [List.any_eq_true]
    constructor
    · rintro ⟨other, hother, hkey⟩
      rwa [← htargets address hreached edge hedge other hother (of_decide_eq_true hkey)]
    · exact fun hmem => ⟨address, hmem, decide_eq_true rfl⟩
  by_cases hmem : address ∈ edge.targets
  · rw [if_pos (htarget.mpr hmem), if_pos hmem, List.map_map]
    exact List.map_id _
  · rw [if_neg (fun hany => hmem (htarget.mp hany)), if_neg hmem]
    rfl

theorem Simulates.follow (hkeys : KeysDiffer bundle target) (htargets : TargetsDiffer bundle target)
    (hcards : ∀ edge ∈ bundle.cardLineage, ∀ source ∈ edge.sources,
      hasCard (snapshotsById bundle.snapshots) source) (hsimulates : Simulates target state search)
    (hreached : ∀ address ∈ search.found, ReflTransGen (ComesFrom bundle) target address)
    (hqueue : search.queue ⊆ search.found)
    (hends : (BreadthFirst.run (sourcesOf bundle) fuel search).queue = []) :
    ∃ ancestors, state.follow bundle fuel = some ancestors ∧
      (BreadthFirst.run (sourcesOf bundle) fuel search).found =
        target :: ancestors.map InquiryCardLineageNode.address := by
  induction fuel generalizing state search with
  | zero =>
      obtain ⟨visited, ancestors, queue⟩ := state
      have hempty : queue = [] := hsimulates.queue.trans hends
      subst hempty
      exact ⟨ancestors, rfl, hsimulates.found⟩
  | succ fuel ih =>
      obtain ⟨visited, ancestors, queue⟩ := state
      obtain ⟨found, queue'⟩ := search
      obtain rfl : queue = queue' := hsimulates.queue
      cases queue with
      | nil => exact ⟨ancestors, rfl, hsimulates.found⟩
      | cons current queue =>
          have hcurrent := hreached current (hqueue List.mem_cons_self)
          have hmap := map_snd_lineageCandidates htargets hcurrent
          have hcandidates : ∀ candidate ∈ lineageCandidates bundle current,
              ReflTransGen (ComesFrom bundle) target candidate.2 ∧
                hasCard (snapshotsById bundle.snapshots) candidate.2 := by
            intro candidate hmem
            have hsource : candidate.2 ∈ sourcesOf bundle current := by
              rw [← hmap]
              exact List.mem_map_of_mem hmem
            obtain ⟨edge, hedge, htarget, hsource⟩ := points_sourcesOf.mp hsource
            exact ⟨hcurrent.tail ⟨edge, hedge, htarget, hsource⟩, hcards edge hedge _ hsource⟩
          have hpopped : Simulates target ⟨visited, ancestors, queue⟩ ⟨found, queue⟩ :=
            ⟨hsimulates.visited, hsimulates.found, rfl⟩
          obtain ⟨hnext, hnextReached⟩ := hpopped.foldl hkeys hcandidates hreached
          rw [hmap] at hnext hnextReached
          apply ih hnext hnextReached ?_ hends
          exact BreadthFirst.queue_subset_found _
            (fun address haddress => hqueue (List.mem_cons_of_mem _ haddress))

end Simulation

/-! ## The loop -/

section Loop

variable {bundle : InquiryBundleV1} {target : CardAddressV1}

theorem Tracing.visit_cases (state : Tracing) (candidate : LineageKind × CardAddressV1) :
    addressKey candidate.2 ∈ state.visited ∧ state.visit bundle candidate = state ∨
      addressKey candidate.2 ∉ state.visited ∧
        (state.visit bundle candidate =
            { state with visited := state.visited ++ [addressKey candidate.2] } ∨
          ∃ node, node.address = candidate.2 ∧ state.visit bundle candidate =
            ⟨state.visited ++ [addressKey candidate.2], state.ancestors ++ [node],
              state.queue ++ [candidate.2]⟩) := by
  by_cases hmem : addressKey candidate.2 ∈ state.visited
  · exact .inl ⟨hmem, by simp [Tracing.visit, hmem]⟩
  · refine .inr ⟨hmem, ?_⟩
    cases hnode : buildNode bundle candidate.2 (some candidate.1) with
    | none => exact .inl (by simp [Tracing.visit, hmem, hnode])
    | some node =>
        exact .inr ⟨node, buildNode_address hnode, by simp [Tracing.visit, hmem, hnode]⟩

/-- The rounds that a trace can still take: what is queued, and the keys that were not visited. -/
def Tracing.room (bundle : InquiryBundleV1) (state : Tracing) : Nat :=
  state.queue.length +
    (((bundle.cardLineage.flatMap CardLineageEdgeV1.sources).map addressKey).toFinset \
      state.visited.toFinset).card

variable {state : Tracing} {ancestors : List InquiryCardLineageNode}

theorem Tracing.room_visit_le
    (hcandidate : candidate.2 ∈ bundle.cardLineage.flatMap CardLineageEdgeV1.sources) :
    (state.visit bundle candidate).room bundle ≤ state.room bundle := by
  rcases state.visit_cases candidate with ⟨-, hvisit⟩ | ⟨hnew, hvisit⟩
  · rw [hvisit]
  · have hless :
        (((bundle.cardLineage.flatMap CardLineageEdgeV1.sources).map addressKey).toFinset \
            (state.visited ++ [addressKey candidate.2]).toFinset).card <
          (((bundle.cardLineage.flatMap CardLineageEdgeV1.sources).map addressKey).toFinset \
            state.visited.toFinset).card := by
      apply Finset.card_lt_card
      rw [Finset.ssubset_iff_of_subset]
      · refine ⟨addressKey candidate.2, ?_, by simp⟩
        rw [Finset.mem_sdiff, List.mem_toFinset, List.mem_toFinset]
        exact ⟨List.mem_map_of_mem hcandidate, hnew⟩
      · apply Finset.sdiff_subset_sdiff (Finset.Subset.refl _)
        rw [List.toFinset_append]
        exact Finset.subset_union_left
    rcases hvisit with hvisit | ⟨node, -, hvisit⟩
    · rw [hvisit]
      exact Nat.add_le_add_left hless.le _
    · rw [hvisit]
      simp only [Tracing.room, List.length_append, List.length_singleton]
      omega

theorem mem_sources_of_mem_lineageCandidates {current : CardAddressV1}
    (hmem : candidate ∈ lineageCandidates bundle current) :
    candidate.2 ∈ bundle.cardLineage.flatMap CardLineageEdgeV1.sources := by
  rw [lineageCandidates, List.mem_flatMap] at hmem
  obtain ⟨edge, hedge, hmem⟩ := hmem
  split at hmem
  next =>
    obtain ⟨source, hsource, rfl⟩ := List.mem_map.mp hmem
    exact List.mem_flatMap.mpr ⟨edge, hedge, hsource⟩
  next => simp at hmem

theorem Tracing.follow_of_visit {P : Tracing → Prop}
    (hvisit : ∀ state candidate, P state → P (state.visit bundle candidate))
    (hpop : ∀ visited ancestors current queue,
      P ⟨visited, ancestors, current :: queue⟩ → P ⟨visited, ancestors, queue⟩) (hstate : P state)
    (hfollow : state.follow bundle fuel = some ancestors) :
    ∃ visited, P ⟨visited, ancestors, []⟩ := by
  induction fuel generalizing state with
  | zero =>
      obtain ⟨visited, found, queue⟩ := state
      cases queue with
      | nil =>
          obtain rfl : found = ancestors := Option.some.inj hfollow
          exact ⟨visited, hstate⟩
      | cons current queue => simp [Tracing.follow] at hfollow
  | succ fuel ih =>
      obtain ⟨visited, found, queue⟩ := state
      cases queue with
      | nil =>
          obtain rfl : found = ancestors := Option.some.inj hfollow
          exact ⟨visited, hstate⟩
      | cons current queue =>
          refine ih ?_ hfollow
          exact List.foldlRecOn (motive := P) (lineageCandidates bundle current)
            (Tracing.visit bundle) (hpop visited found current queue hstate)
            fun state hstate candidate _ => hvisit state candidate hstate

theorem Tracing.follow_isSome (hfuel : state.room bundle ≤ fuel) :
    (state.follow bundle fuel).isSome := by
  induction fuel generalizing state with
  | zero =>
      obtain ⟨visited, found, queue⟩ := state
      have hempty : queue = [] := by
        rw [Tracing.room] at hfuel
        exact List.length_eq_zero_iff.mp (by simpa using Nat.le_trans (Nat.le_add_right _ _) hfuel)
      subst hempty
      rfl
  | succ fuel ih =>
      obtain ⟨visited, found, queue⟩ := state
      cases queue with
      | nil => rfl
      | cons current queue =>
          apply ih
          have hpopped : Tracing.room bundle ⟨visited, found, queue⟩ ≤ fuel := by
            simp only [Tracing.room, List.length_cons] at hfuel ⊢
            omega
          refine List.foldlRecOn
            (motive := fun state : Tracing => state.room bundle ≤ fuel)
            (lineageCandidates bundle current) (Tracing.visit bundle) hpopped ?_
          intro state hstate candidate hmem
          exact (Tracing.room_visit_le (mem_sources_of_mem_lineageCandidates hmem)).trans hstate

/-- The keys of what has been found are among those visited, each once. -/
structure Tracing.Distinct (target : CardAddressV1) (state : Tracing) : Prop where
  nodup : state.visited.Nodup
  sublist : (addressKey target ::
    state.ancestors.map fun node => addressKey node.address).Sublist state.visited

theorem Tracing.Distinct.visit (hdistinct : state.Distinct target)
    (candidate : LineageKind × CardAddressV1) : (state.visit bundle candidate).Distinct target := by
  rcases state.visit_cases candidate with ⟨-, hvisit⟩ | ⟨hnew, hvisit⟩
  · rwa [hvisit]
  · have hnodup : (state.visited ++ [addressKey candidate.2]).Nodup := by
      rw [List.nodup_append]
      refine ⟨hdistinct.nodup, List.nodup_singleton _, ?_⟩
      rintro key hkey other hother rfl
      rw [List.mem_singleton] at hother
      exact hnew (hother ▸ hkey)
    rcases hvisit with hvisit | ⟨node, haddress, hvisit⟩
    · rw [hvisit]
      exact ⟨hnodup, hdistinct.sublist.trans (List.sublist_append_left _ _)⟩
    · rw [hvisit]
      refine ⟨hnodup, ?_⟩
      rw [List.map_append, List.map_singleton, haddress, ← List.cons_append]
      exact hdistinct.sublist.append (List.Sublist.refl _)

theorem Tracing.follow_distinct
    (hfollow : Tracing.follow bundle fuel ⟨[addressKey target], [], [target]⟩ = some ancestors) :
    ((target :: ancestors.map InquiryCardLineageNode.address).map addressKey).Nodup := by
  obtain ⟨visited, hdistinct⟩ := Tracing.follow_of_visit (P := Tracing.Distinct target)
    (fun _ candidate hstate => hstate.visit candidate) (fun _ _ _ _ hstate => ⟨hstate.1, hstate.2⟩)
    ⟨List.nodup_singleton _, List.Sublist.refl _⟩ hfollow
  rw [List.map_cons, List.map_map]
  exact hdistinct.nodup.sublist hdistinct.sublist

end Loop

/-- Snapshot ids without the separator make the keys of addresses differ. -/
theorem addressKey_inj {left right : CardAddressV1} (hleft : '\x00' ∉ left.snapshotId.toList)
    (hright : '\x00' ∉ right.snapshotId.toList) (hkey : addressKey left = addressKey right) :
    left = right := by
  obtain ⟨leftSnapshot, leftCard⟩ := left
  obtain ⟨rightSnapshot, rightCard⟩ := right
  have hlist := congrArg String.toList hkey
  simp only [addressKey, String.toList_append] at hlist
  obtain ⟨hsnapshot, hcard⟩ := append_cons_inj hleft hright (by simpa using hlist)
  rw [String.toList_inj] at hsnapshot hcard
  exact congrArg₂ CardAddressV1.mk hsnapshot hcard

section Plain

variable {dates : DateFormat} {bundle : InquiryBundleV1} {target : CardAddressV1}

theorem plain_of_hasCard
    (hplain : ∀ snapshot ∈ bundle.snapshots, '\x00' ∉ snapshot.snapshotId.toList)
    (hcard : hasCard (snapshotsById bundle.snapshots) address) :
    '\x00' ∉ address.snapshotId.toList := by
  have hknown : (snapshotsById bundle.snapshots).has address.snapshotId := by
    unfold hasCard at hcard
    unfold InsertionMap.has
    cases hget : (snapshotsById bundle.snapshots).get? address.snapshotId with
    | none => simp [hget] at hcard
    | some snapshot => rfl
  obtain ⟨snapshot, hsnapshot, heq⟩ := List.mem_map.mp (has_snapshotsById.mp hknown)
  rw [← heq]
  exact hplain snapshot hsnapshot

theorem Valid.hasCard_of_reaches (hvalid : Valid dates bundle)
    (hcard : hasCard (snapshotsById bundle.snapshots) target)
    (hreaches : ReflTransGen (ComesFrom bundle) target address) :
    hasCard (snapshotsById bundle.snapshots) address := by
  cases hreaches with
  | refl => exact hcard
  | tail _ hedge =>
      obtain ⟨edge, hedge, -, hsource⟩ := hedge
      exact (hvalid.lineage edge hedge).cards _ (List.mem_append_left _ hsource)

/-- If no snapshot id contains the separator, the keys tell all addresses apart. -/
theorem Valid.keys_differ (hvalid : Valid dates bundle)
    (hplain : ∀ snapshot ∈ bundle.snapshots, '\x00' ∉ snapshot.snapshotId.toList)
    (hcard : hasCard (snapshotsById bundle.snapshots) target) :
    KeysDiffer bundle target ∧ TargetsDiffer bundle target := by
  constructor
  · intro left right hleft hright
    exact addressKey_inj (plain_of_hasCard hplain (hvalid.hasCard_of_reaches hcard hleft))
      (plain_of_hasCard hplain (hvalid.hasCard_of_reaches hcard hright))
  · intro address haddress edge hedge other hother
    exact addressKey_inj
      (plain_of_hasCard hplain ((hvalid.lineage edge hedge).cards other
        (List.mem_append_right _ hother)))
      (plain_of_hasCard hplain (hvalid.hasCard_of_reaches hcard haddress))

end Plain

/-! ## The ancestry of a card -/

theorem reaches_iff {bundle : InquiryBundleV1} {target : CardAddressV1} :
    ReflTransGen (ComesFrom bundle) target address ↔
      address = target ∨ TransGen (ComesFrom bundle) target address :=
  Relation.reflTransGen_iff_eq_or_transGen

theorem isAncestry_of_finds {dates : DateFormat} {bundle : InquiryBundleV1}
    (hvalid : Valid dates bundle) {target : CardAddressV1} {ancestors : List CardAddressV1}
    (hfinds : BreadthFirst.Finds (sourcesOf bundle) target (target :: ancestors)) :
    IsAncestry bundle target ancestors := by
  obtain ⟨hnew, hnodup⟩ := List.nodup_cons.mp hfinds.nodup
  have hmem : ∀ address, address ∈ ancestors ↔
      address ≠ target ∧ TransGen (ComesFrom bundle) target address := by
    intro address
    have hfound := hfinds.mem_iff address
    rw [points_sourcesOf_eq, reaches_iff, List.mem_cons] at hfound
    constructor
    · intro haddress
      have hne : address ≠ target := fun heq => hnew (heq ▸ haddress)
      exact ⟨hne, (hfound.mp (.inr haddress)).resolve_left hne⟩
    · rintro ⟨hne, hcomes⟩
      exact (hfound.mpr (.inr hcomes)).resolve_left hne
  exact ⟨hnodup, hmem, (List.pairwise_cons.mp hfinds.sorted).2,
    fun address haddress => hvalid.liesBefore ((hmem address).mp haddress).2⟩

/-- A trace of a card ends. If the keys tell apart the addresses that it meets, it is the ancestry of
the card; if it is the ancestry, the keys of the ancestors differ. -/
theorem trace_isAncestry (dates : DateFormat) (bundle : InquiryBundleV1) (target : CardAddressV1)
    (hvalid : validateInquiryBundle dates bundle = [])
    (hcard : hasCard (snapshotsById bundle.snapshots) target)
    (fuel : Nat) (hfuel : traceFuel bundle ≤ fuel) :
    ∃ node ancestors,
      traceInquiryCardLineage fuel bundle target = some (.ok (node, ancestors)) ∧
        node.address = target ∧
        (KeysDiffer bundle target → TargetsDiffer bundle target →
          IsAncestry bundle target (ancestors.map InquiryCardLineageNode.address)) ∧
        (IsAncestry bundle target (ancestors.map InquiryCardLineageNode.address) →
          KeysDiffer bundle target) := by
  have hvalid := validateInquiryBundle_eq_nil.mp hvalid
  have hsome : (buildNode bundle target none).isSome := buildNode_isSome.mpr hcard
  obtain ⟨node, hnode⟩ := Option.isSome_iff_exists.mp hsome
  have hroom : Tracing.room bundle ⟨[addressKey target], [], [target]⟩ ≤ fuel := by
    have hkeys := (Finset.card_le_card
      (Finset.sdiff_subset (t := [addressKey target].toFinset))).trans
      (List.toFinset_card_le
        ((bundle.cardLineage.flatMap CardLineageEdgeV1.sources).map addressKey))
    rw [List.length_map] at hkeys
    simp only [Tracing.room, List.length_singleton]
    unfold traceFuel at hfuel
    omega
  obtain ⟨ancestors, hfollow⟩ := Option.isSome_iff_exists.mp (Tracing.follow_isSome hroom)
  refine ⟨node, ancestors, ?_, buildNode_address hnode, ?_, ?_⟩
  · rw [traceInquiryCardLineage, hnode]
    simp only [hfollow, Option.map_some]
  · intro hkeys htargets
    have hvertices : ∀ a b, Points (sourcesOf bundle) a b →
        b ∈ bundle.cardLineage.flatMap CardLineageEdgeV1.sources := by
      intro a b hedge
      obtain ⟨edge, hedge, -, hsource⟩ := points_sourcesOf.mp hedge
      exact List.mem_flatMap.mpr ⟨edge, hedge, hsource⟩
    obtain ⟨hends, hfinds⟩ := BreadthFirst.run_finds hvertices hfuel target
    have hstart : Simulates target ⟨[addressKey target], [], [target]⟩ ⟨[target], [target]⟩ :=
      ⟨rfl, rfl, rfl⟩
    obtain ⟨found, hfound, hrun⟩ := hstart.follow hkeys htargets
      (fun edge hedge source hsource => (hvalid.lineage edge hedge).cards source
        (List.mem_append_left _ hsource))
      (by simp [ReflTransGen.refl]) (List.Subset.refl _) hends
    obtain rfl : found = ancestors := Option.some.inj (hfound.symm.trans hfollow)
    exact isAncestry_of_finds hvalid (hrun ▸ hfinds)
  · intro hancestry left right hleft hright hkey
    have hmem : ∀ address, ReflTransGen (ComesFrom bundle) target address →
        address ∈ target :: ancestors.map InquiryCardLineageNode.address := by
      intro address haddress
      by_cases heq : address = target
      · exact List.mem_cons.mpr (.inl heq)
      · exact List.mem_cons_of_mem _ ((hancestry.mem_iff address).mpr
          ⟨heq, (reaches_iff.mp haddress).resolve_left heq⟩)
    exact List.inj_on_of_nodup_map (Tracing.follow_distinct hfollow) (hmem left hleft)
      (hmem right hright) hkey

/-! ## Keys that collide

A card of one origin and a card of another have one key, and both became one
card.
-/

namespace CollidingKeys

open OneDay (dates snapshot)

/-- A journey with one round, from two origins with one card each. -/
def bundle (first second : CardAddressV1) : InquiryBundleV1 :=
  OneDay.bundle [first.snapshotId, second.snapshotId]
    [OneDay.round "round" "r1_problem_setting" [] [first.snapshotId, second.snapshotId] "output"
      none] "round"
    [snapshot first.snapshotId [first.cardId], snapshot second.snapshotId [second.cardId],
      snapshot "output" ["card"]]
    [⟨"lineage-1", .derived [first] ⟨"output", "card"⟩⟩,
      ⟨"lineage-2", .derived [second] ⟨"output", "card"⟩⟩] none

def target : CardAddressV1 := ⟨"output", "card"⟩

/-- Two origins with plain ids. -/
theorem plain_ancestry : ∃ node ancestors,
    traceInquiryCardLineage 3 (bundle ⟨"a", "c"⟩ ⟨"b", "c"⟩) target =
      some (.ok (node, ancestors)) ∧
    IsAncestry (bundle ⟨"a", "c"⟩ ⟨"b", "c"⟩) target
      (ancestors.map InquiryCardLineageNode.address) := by
  have hvalid : validateInquiryBundle dates (bundle ⟨"a", "c"⟩ ⟨"b", "c"⟩) = [] := by decide
  have hcard : hasCard (snapshotsById (bundle ⟨"a", "c"⟩ ⟨"b", "c"⟩).snapshots) target := by decide
  obtain ⟨node, ancestors, htrace, -, hancestry, -⟩ :=
    trace_isAncestry dates (bundle ⟨"a", "c"⟩ ⟨"b", "c"⟩) target hvalid hcard 3 (by decide)
  obtain ⟨hkeys, htargets⟩ :=
    (validateInquiryBundle_eq_nil.mp hvalid).keys_differ (by decide) hcard
  exact ⟨node, ancestors, htrace, hancestry hkeys htargets⟩

def first : CardAddressV1 := ⟨"a", "b\x00c"⟩

def second : CardAddressV1 := ⟨"a\x00b", "c"⟩

/-- The second source is taken for the first. -/
theorem source_missing :
    validateInquiryBundle dates (bundle first second) = [] ∧
    hasCard (snapshotsById (bundle first second).snapshots) target ∧
    ComesFrom (bundle first second) target second ∧
    ∃ node ancestors,
      traceInquiryCardLineage (traceFuel (bundle first second)) (bundle first second) target =
        some (.ok (node, ancestors)) ∧
      second ∉ ancestors.map InquiryCardLineageNode.address ∧
      ¬ IsAncestry (bundle first second) target
        (ancestors.map InquiryCardLineageNode.address) := by
  have hcomes : ComesFrom (bundle first second) target second :=
    ⟨⟨"lineage-2", .derived [second] target⟩, by decide, by decide, by decide⟩
  refine ⟨by decide, by decide, hcomes, ⟨target, "text", none,
    some ⟨"round", "r1_problem_setting", 1⟩, none⟩, [⟨first, "text", none, none, some .derived⟩],
    by decide, by decide, ?_⟩
  intro hancestry
  have hmissing : second ∉ [first] := by decide
  exact hmissing ((hancestry.mem_iff second).mpr ⟨by decide, .single hcomes⟩)

end CollidingKeys

end KjAtlas.Inquiry
