import Mathlib.Algebra.GroupWithZero.Nat
import Mathlib.Order.Lattice.Nat

/-! # Searches of a graph

A graph lists, for every vertex, the vertices that it points to. A search with a
stack collects what is reachable. A breadth-first search lists what is reachable
in the order of the distance from its start. Both take fuel; with fuel for the
edges, or for the vertices, they end with nothing left to visit.
-/

namespace KjAtlas

open Relation (ReflTransGen TransGen)

section Graph

variable {α : Type} {next : α → List α}

/-- A vertex points to another. -/
def Points (next : α → List α) (a b : α) : Prop := b ∈ next a

variable {a : α} {vertices : List α}

/-- What a vertex points to is reached by one edge or more. -/
theorem transGen_points_iff {b : α} :
    TransGen (Points next) a b ↔ ∃ first ∈ next a, ReflTransGen (Points next) first b := by
  rw [Relation.TransGen.head'_iff]
  rfl

/-! ## Collecting with a stack -/

section Collect

variable [DecidableEq α]

/-- Visit what is on the stack, the top first, and put what it points to on the stack. What is
left on the stack is returned along. -/
def collectFrom (next : α → List α) : Nat → List α → List α → List α × List α
  | 0, visited, pending => (visited, pending)
  | _ + 1, visited, [] => (visited, [])
  | fuel + 1, visited, top :: pending =>
      if top ∈ visited then collectFrom next fuel visited pending
      else collectFrom next fuel (visited ++ [top]) ((next top).reverse ++ pending)

omit [DecidableEq α] in
theorem reaches_of_visited {visited pending : List α}
    (hclosed : ∀ a ∈ visited, ∀ b ∈ next a, b ∈ visited ∨ b ∈ pending) {b : α} (ha : a ∈ visited)
    (hreaches : ReflTransGen (Points next) a b) :
    b ∈ visited ∨ ∃ top ∈ pending, ReflTransGen (Points next) top b := by
  induction hreaches with
  | refl => exact .inl ha
  | tail _ hedge ih =>
      rcases ih with hvisited | ⟨top, htop, hreaches⟩
      · rcases hclosed _ hvisited _ hedge with hvisited | hpending
        · exact .inl hvisited
        · exact .inr ⟨_, hpending, .refl⟩
      · exact .inr ⟨top, htop, hreaches.tail hedge⟩

/-- With fuel for the stack and for the edges of the rest, everything reachable is visited. -/
theorem collectFrom_spec {fuel : Nat} (visited pending : List α) {rest : List α}
    (hrest : ∀ a ∉ visited, a ∉ rest → next a = [])
    (hclosed : ∀ a ∈ visited, ∀ b ∈ next a, b ∈ visited ∨ b ∈ pending)
    (hfuel : pending.length + (rest.map fun a => (next a).length).sum ≤ fuel) :
    (collectFrom next fuel visited pending).2 = [] ∧
      ∀ a, a ∈ (collectFrom next fuel visited pending).1 ↔
        a ∈ visited ∨ ∃ top ∈ pending, ReflTransGen (Points next) top a := by
  induction fuel generalizing visited pending rest with
  | zero =>
      have hpending : pending = [] := List.length_eq_zero_iff.mp (by omega)
      simp [collectFrom, hpending]
  | succ fuel ih =>
      cases pending with
      | nil => simp [collectFrom]
      | cons top pending =>
          unfold collectFrom
          rw [List.length_cons] at hfuel
          split
          next htop =>
            have hstill : ∀ a ∈ visited, ∀ b ∈ next a, b ∈ visited ∨ b ∈ pending := by
              intro a ha b hb
              rcases hclosed a ha b hb with hvisited | hpending
              · exact .inl hvisited
              · rcases List.mem_cons.mp hpending with rfl | hpending
                · exact .inl htop
                · exact .inr hpending
            obtain ⟨hempty, hmem⟩ := ih visited pending hrest hstill (by omega)
            refine ⟨hempty, fun a => (hmem a).trans ?_⟩
            simp only [List.mem_cons, exists_eq_or_imp]
            constructor
            · exact Or.imp_right .inr
            · rintro (hvisited | hreaches | hreaches)
              · exact .inl hvisited
              · exact reaches_of_visited hstill htop hreaches
              · exact .inr hreaches
          next htop =>
            have hrest' : ∀ a ∉ visited ++ [top], a ∉ rest.erase top → next a = [] := by
              intro a hvisited hleft
              rw [List.mem_append, List.mem_singleton, not_or] at hvisited
              rw [List.mem_erase_of_ne hvisited.2] at hleft
              exact hrest a hvisited.1 hleft
            have hclosed' : ∀ a ∈ visited ++ [top], ∀ b ∈ next a,
                b ∈ visited ++ [top] ∨ b ∈ (next top).reverse ++ pending := by
              intro a ha b hb
              rcases List.mem_append.mp ha with hvisited | htop
              · have := hclosed a hvisited b hb
                grind
              · rw [List.mem_singleton.mp htop] at hb
                exact .inr (List.mem_append_left _ (List.mem_reverse.mpr hb))
            have hspent : (next top).length +
                ((rest.erase top).map fun a => (next a).length).sum =
                  (rest.map fun a => (next a).length).sum := by
              by_cases hmem : top ∈ rest
              · exact List.sum_map_erase (fun a => (next a).length) hmem
              · rw [hrest top htop hmem, List.erase_of_not_mem hmem, List.length_nil, Nat.zero_add]
            have hfuel' : ((next top).reverse ++ pending).length +
                ((rest.erase top).map fun a => (next a).length).sum ≤ fuel := by
              rw [List.length_append, List.length_reverse]
              omega
            obtain ⟨hempty, hmem⟩ := ih _ _ hrest' hclosed' hfuel'
            refine ⟨hempty, fun a => (hmem a).trans ?_⟩
            have htop : ReflTransGen (Points next) top a ↔
                a = top ∨ ∃ first ∈ next top, ReflTransGen (Points next) first a := by
              rw [Relation.ReflTransGen.cases_head_iff, eq_comm]
              rfl
            rw [List.mem_append, List.mem_singleton]
            simp only [List.mem_cons, exists_eq_or_imp, htop]
            simp only [List.mem_append, List.mem_reverse, or_and_right, exists_or, or_assoc]

/-- Everything that a vertex leads to, the vertex itself only if it lies on a cycle. -/
def reachableFrom (next : α → List α) (vertices : List α) (start : α) : List α :=
  (collectFrom next ((next start).length + (vertices.map fun a => (next a).length).sum) []
    (next start).reverse).1

theorem mem_reachableFrom (hvertices : ∀ a ∉ vertices, next a = []) {start : α} :
    a ∈ reachableFrom next vertices start ↔ TransGen (Points next) start a := by
  have hspec := collectFrom_spec [] (next start).reverse
    (fun a _ ha => hvertices a ha) (by simp) (le_of_eq rfl)
  rw [List.length_reverse] at hspec
  rw [reachableFrom, hspec.2, transGen_points_iff]
  simp

end Collect

/-! ## Distance -/

/-- A vertex is reached by a number of edges. -/
inductive Walk (next : α → List α) (start : α) : Nat → α → Prop
  | start : Walk next start 0 start
  | step {length : Nat} {a b : α} :
      Walk next start length a → Points next a b → Walk next start (length + 1) b

/-- The least number of edges from a start to a vertex. -/
noncomputable def distance (next : α → List α) (start a : α) : Nat :=
  sInf {length | Walk next start length a}

theorem exists_walk_iff {start : α} :
    (∃ length, Walk next start length a) ↔ ReflTransGen (Points next) start a := by
  constructor
  · rintro ⟨length, hwalk⟩
    induction hwalk with
    | start => exact .refl
    | step _ hedge ih => exact ih.tail hedge
  · intro hreaches
    induction hreaches with
    | refl => exact ⟨0, .start⟩
    | tail _ hedge ih =>
        obtain ⟨length, hwalk⟩ := ih
        exact ⟨length + 1, hwalk.step hedge⟩

theorem Walk.distance_le {start : α} {length : Nat} (hwalk : Walk next start length a) :
    distance next start a ≤ length := Nat.sInf_le hwalk

theorem walk_distance {start : α} (hreaches : ReflTransGen (Points next) start a) :
    Walk next start (distance next start a) a :=
  Nat.sInf_mem (s := {length | Walk next start length a}) (exists_walk_iff.mpr hreaches)

@[simp] theorem distance_self (start : α) : distance next start start = 0 :=
  Nat.le_zero.mp (Walk.start : Walk next start 0 start).distance_le

/-! ## Breadth first -/

/-- What has been found, in order, and what of it has still to be expanded. -/
structure BreadthFirst (α : Type) where
  found : List α
  queue : List α

namespace BreadthFirst

variable [DecidableEq α]

/-- Find a vertex, unless it has been found. -/
def discover (state : BreadthFirst α) (a : α) : BreadthFirst α :=
  if a ∈ state.found then state else ⟨state.found ++ [a], state.queue ++ [a]⟩

variable {state : BreadthFirst α} {current : α}

theorem queue_subset_found (targets : List α) (hqueue : state.queue ⊆ state.found) :
    (targets.foldl discover state).queue ⊆ (targets.foldl discover state).found := by
  induction targets generalizing state with
  | nil => exact hqueue
  | cons a targets ih =>
      apply ih
      unfold discover
      split
      next => exact hqueue
      next =>
        intro b hb
        rcases List.mem_append.mp hb with hb | hb
        · exact List.mem_append_left _ (hqueue hb)
        · exact List.mem_append_right _ hb

/-- Expand what is queued, in order. -/
def run (next : α → List α) : Nat → BreadthFirst α → BreadthFirst α
  | 0, state => state
  | _ + 1, ⟨found, []⟩ => ⟨found, []⟩
  | fuel + 1, ⟨found, current :: queue⟩ =>
      run next fuel ((next current).foldl discover ⟨found, queue⟩)

/-- What has been found is ordered by distance, none is further than `bound`, and what is queued
is no nearer than the last layer but one. -/
structure Searching (next : α → List α) (start : α) (expanded queue found : List α)
    (bound : Nat) : Prop where
  found_eq : found = expanded ++ queue
  nodup : found.Nodup
  head : found.head? = some start
  closed : ∀ a ∈ expanded, ∀ b ∈ next a, b ∈ found
  reached : ∀ a ∈ found, ReflTransGen (Points next) start a
  sorted : found.Pairwise fun a b => distance next start a ≤ distance next start b
  within : ∀ a ∈ found, distance next start a ≤ bound
  near : ∀ a ∈ queue, bound ≤ distance next start a + 1

variable {start : α} {expanded queue found : List α} {bound : Nat}

omit [DecidableEq α] in
/-- What is nearer than the first of the queue has been expanded. -/
theorem Searching.expanded_of_walk
    (hsearching : Searching next start expanded (current :: queue) found bound) {length : Nat}
    (hwalk : Walk next start length a) (hnearer : length < distance next start current) :
    a ∈ expanded := by
  have hqueued : ∀ b ∈ current :: queue, distance next start current ≤ distance next start b := by
    have hsorted := hsearching.sorted
    rw [hsearching.found_eq, List.pairwise_append] at hsorted
    intro b hb
    rcases List.mem_cons.mp hb with rfl | hb
    · exact le_rfl
    · exact (List.pairwise_cons.mp hsorted.2.1).1 b hb
  -- Only what has been expanded is found and nearer than the queue.
  have hsplit : ∀ b ∈ found, distance next start b < distance next start current →
      b ∈ expanded := by
    intro b hb hless
    rw [hsearching.found_eq] at hb
    refine (List.mem_append.mp hb).resolve_right fun hb => ?_
    have := hqueued b hb
    omega
  induction hwalk with
  | start => exact hsplit start (List.mem_of_head? hsearching.head) (by simpa using hnearer)
  | step hwalk hedge ih =>
      have hfound := hsearching.closed _ (ih (by omega)) _ hedge
      exact hsplit _ hfound ((hwalk.step hedge).distance_le.trans_lt hnearer)

omit [DecidableEq α] in
/-- What the first of the queue leads to and has not been found is one edge further away. -/
theorem Searching.distance_eq
    (hsearching : Searching next start expanded (current :: queue) found bound)
    (hedge : Points next current a) (hnew : a ∉ found) :
    distance next start a = distance next start current + 1 := by
  have hcurrent : ReflTransGen (Points next) start current :=
    hsearching.reached current (by simp [hsearching.found_eq])
  apply le_antisymm ((walk_distance hcurrent).step hedge).distance_le
  by_contra hnearer
  have hwalk := walk_distance (hcurrent.tail hedge)
  generalize distance next start a = length at hwalk hnearer
  cases hwalk with
  | start => exact hnew (List.mem_of_head? hsearching.head)
  | step hwalk hlast =>
      exact hnew (hsearching.closed _ (hsearching.expanded_of_walk hwalk (by omega)) _ hlast)

/-- The search after some of what the first of the queue points to has been looked at. -/
structure Expanding (next : α → List α) (start : α) (expanded : List α) (current : α)
    (state : BreadthFirst α) (vertices : List α) (limit : Nat) : Prop where
  searching : Searching next start expanded (current :: state.queue) state.found
    (distance next start current + 1)
  room : state.queue.length + (vertices.toFinset \ state.found.toFinset).card ≤ limit

theorem Expanding.discover {limit : Nat}
    (hexpanding : Expanding next start expanded current state vertices limit)
    (hedge : Points next current a) (ha : a ∈ vertices) :
    Expanding next start expanded current (state.discover a) vertices limit ∧
      state.found ⊆ (state.discover a).found ∧ a ∈ (state.discover a).found := by
  unfold BreadthFirst.discover
  split
  next hfound => exact ⟨hexpanding, List.Subset.refl _, hfound⟩
  next hnew =>
    obtain ⟨hsearching, hroom⟩ := hexpanding
    have hdistance := hsearching.distance_eq hedge hnew
    refine ⟨⟨?_, ?_⟩, List.subset_append_left _ _, by simp⟩
    · refine ⟨?_, ?_, ?_, ?_, ?_, ?_, ?_, ?_⟩
      · simp [hsearching.found_eq]
      · exact List.nodup_append.mpr ⟨hsearching.nodup, List.nodup_singleton a, by
          rintro b hb _ hmem rfl
          rw [List.mem_singleton] at hmem
          exact hnew (hmem ▸ hb)⟩
      · rw [List.head?_append_of_ne_nil _ (by simp [hsearching.found_eq])]
        exact hsearching.head
      · exact fun b hb c hc => List.mem_append_left _ (hsearching.closed b hb c hc)
      · intro b hb
        rcases List.mem_append.mp hb with hb | hb
        · exact hsearching.reached b hb
        · rw [List.mem_singleton.mp hb]
          exact (hsearching.reached current (by simp [hsearching.found_eq])).tail hedge
      · rw [List.pairwise_append]
        refine ⟨hsearching.sorted, List.pairwise_singleton _ _, ?_⟩
        intro b hb c hc
        rw [List.mem_singleton.mp hc, hdistance]
        exact hsearching.within b hb
      · intro b hb
        rcases List.mem_append.mp hb with hb | hb
        · exact hsearching.within b hb
        · rw [List.mem_singleton.mp hb, hdistance]
      · intro b hb
        rw [List.mem_cons, List.mem_append, List.mem_singleton] at hb
        rcases hb with rfl | hb | rfl
        · exact le_rfl
        · exact hsearching.near b (List.mem_cons_of_mem _ hb)
        · omega
    · have hless : (vertices.toFinset \ (state.found ++ [a]).toFinset).card <
          (vertices.toFinset \ state.found.toFinset).card := by
        apply Finset.card_lt_card
        rw [Finset.ssubset_iff_of_subset (by
          apply Finset.sdiff_subset_sdiff (Finset.Subset.refl _)
          rw [List.toFinset_append]
          exact Finset.subset_union_left)]
        exact ⟨a, by simp [ha, hnew], by simp⟩
      show (state.queue ++ [a]).length +
        (vertices.toFinset \ (state.found ++ [a]).toFinset).card ≤ limit
      rw [List.length_append, List.length_singleton]
      omega

theorem Expanding.foldl {current : α} {vertices : List α} (targets : List α) {limit : Nat}
    (htargets : ∀ a ∈ targets, Points next current a ∧ a ∈ vertices) {state : BreadthFirst α}
    (hexpanding : Expanding next start expanded current state vertices limit) :
    Expanding next start expanded current (targets.foldl BreadthFirst.discover state) vertices
        limit ∧
      state.found ⊆ (targets.foldl BreadthFirst.discover state).found ∧
      targets ⊆ (targets.foldl BreadthFirst.discover state).found := by
  induction targets generalizing state with
  | nil => exact ⟨hexpanding, List.Subset.refl _, List.nil_subset _⟩
  | cons a targets ih =>
      rw [List.forall_mem_cons] at htargets
      obtain ⟨hnext, hgrows, hfound⟩ := hexpanding.discover htargets.1.1 htargets.1.2
      obtain ⟨hlast, hgrows', htargets'⟩ := ih htargets.2 hnext
      exact ⟨hlast, List.Subset.trans hgrows hgrows', List.cons_subset.mpr ⟨hgrows' hfound, htargets'⟩⟩

/-- What a breadth-first search should find: all that can be reached, each once, in the order of
the distance. -/
structure Finds (next : α → List α) (start : α) (found : List α) : Prop where
  head : found.head? = some start
  nodup : found.Nodup
  mem_iff : ∀ a, a ∈ found ↔ ReflTransGen (Points next) start a
  sorted : found.Pairwise fun a b => distance next start a ≤ distance next start b

omit [DecidableEq α] in
/-- With nothing left to expand, everything reachable has been found. -/
theorem Searching.finds (hsearching : Searching next start expanded [] found bound) :
    Finds next start found := by
  refine ⟨hsearching.head, hsearching.nodup, fun a => ⟨hsearching.reached a, ?_⟩,
    hsearching.sorted⟩
  intro hreaches
  induction hreaches with
  | refl => exact List.mem_of_head? hsearching.head
  | tail _ hedge ih =>
      rw [hsearching.found_eq, List.append_nil] at ih
      exact hsearching.closed _ ih _ hedge

theorem Searching.run_finds (hvertices : ∀ a b, Points next a b → b ∈ vertices) {fuel : Nat}
    (hsearching : Searching next start expanded queue found bound)
    (hfuel : queue.length + (vertices.toFinset \ found.toFinset).card ≤ fuel) :
    (run next fuel ⟨found, queue⟩).queue = [] ∧
      Finds next start (run next fuel ⟨found, queue⟩).found := by
  induction fuel generalizing expanded queue found bound with
  | zero =>
      have hqueue : queue = [] := List.length_eq_zero_iff.mp (by omega)
      subst hqueue
      exact ⟨rfl, hsearching.finds⟩
  | succ fuel ih =>
      cases queue with
      | nil => exact ⟨rfl, hsearching.finds⟩
      | cons current queue =>
          unfold run
          rw [List.length_cons] at hfuel
          have hcurrent : current ∈ found := by simp [hsearching.found_eq]
          have hnear := hsearching.near current List.mem_cons_self
          have hstart : Expanding next start expanded current ⟨found, queue⟩ vertices fuel := by
            have hqueued : ∀ a ∈ queue, distance next start current ≤ distance next start a := by
              have hsorted := hsearching.sorted
              rw [hsearching.found_eq, List.pairwise_append] at hsorted
              exact (List.pairwise_cons.mp hsorted.2.1).1
            refine ⟨{ hsearching with within := ?_, near := ?_ }, by
              show queue.length + (vertices.toFinset \ found.toFinset).card ≤ fuel
              omega⟩
            · exact fun a ha => (hsearching.within a ha).trans hnear
            · intro a ha
              rcases List.mem_cons.mp ha with rfl | ha
              · exact le_rfl
              · have := hqueued a ha
                omega
          obtain ⟨hlast, hgrows, htargets⟩ :=
            hstart.foldl (next current) fun a ha => ⟨ha, hvertices current a ha⟩
          have hsearching' : Searching next start (expanded ++ [current])
              ((next current).foldl discover ⟨found, queue⟩).queue
              ((next current).foldl discover ⟨found, queue⟩).found
              (distance next start current + 1) := by
            refine { hlast.searching with found_eq := ?_, closed := ?_, near := ?_ }
            · rw [hlast.searching.found_eq]
              simp
            · intro a ha b hb
              rcases List.mem_append.mp ha with ha | ha
              · exact hlast.searching.closed a ha b hb
              · rw [List.mem_singleton.mp ha] at hb
                exact htargets hb
            · exact fun a ha => hlast.searching.near a (List.mem_cons_of_mem _ ha)
          exact ih hsearching' hlast.room

/-- A breadth-first search ends, with fuel for the vertices, and finds what it should. -/
theorem run_finds (hvertices : ∀ a b, Points next a b → b ∈ vertices) {fuel : Nat}
    (hfuel : vertices.length + 1 ≤ fuel) (start : α) :
    (run next fuel ⟨[start], [start]⟩).queue = [] ∧
      Finds next start (run next fuel ⟨[start], [start]⟩).found := by
  have hsearching : Searching next start [] [start] [start] 0 :=
    ⟨rfl, List.nodup_singleton start, rfl, by simp, by simp [ReflTransGen.refl],
      List.pairwise_singleton _ _, by simp, by simp⟩
  refine hsearching.run_finds hvertices ?_
  have hcard : (vertices.toFinset \ [start].toFinset).card ≤ vertices.length :=
    (Finset.card_le_card Finset.sdiff_subset).trans (List.toFinset_card_le vertices)
  rw [List.length_singleton]
  omega

end BreadthFirst

end Graph

end KjAtlas
