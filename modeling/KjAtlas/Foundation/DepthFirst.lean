import KjAtlas.Foundation.GraphSearch

/-! # Depth-first search for cycles

Every vertex is visited after the path to it has been marked, and marked as done
after what it points to. The search meets a vertex of its own path exactly if
the graph has a cycle.
-/

namespace KjAtlas

open Relation (ReflTransGen TransGen)

section Graph

variable {α : Type} {next : α → List α}

/-- Whether a vertex is on the path of the search, or done. -/
inductive Mark where
  | visiting
  | visited

/-- The marks of the vertices, and the vertices at which a cycle was met. -/
structure DepthFirst (α : Type) where
  marks : α → Option Mark
  cycles : List α

namespace DepthFirst

variable [DecidableEq α]

def mark (state : DepthFirst α) (a : α) (as : Mark) : DepthFirst α :=
  { state with marks := Function.update state.marks a (some as) }

omit [DecidableEq α] in
theorem foldl_cycles_grow {step : DepthFirst α → α → DepthFirst α}
    (hstep : ∀ state a, state.cycles <+: (step state a).cycles) (targets : List α)
    (state : DepthFirst α) : state.cycles <+: (targets.foldl step state).cycles := by
  induction targets generalizing state with
  | nil => exact List.prefix_refl _
  | cons target targets ih => exact (hstep state target).trans (ih _)

@[simp] theorem mark_marks (state : DepthFirst α) (a : α) (as : Mark) (b : α) :
    (state.mark a as).marks b = if b = a then some as else state.marks b :=
  Function.update_apply ..

/-- Visit a vertex and what it points to, unless it has a mark. -/
def visit (next : α → List α) : Nat → DepthFirst α → α → DepthFirst α
  | 0, state, _ => state
  | fuel + 1, state, a =>
      match state.marks a with
      | some .visiting => { state with cycles := state.cycles ++ [a] }
      | some .visited => state
      | none => ((next a).foldl (visit next fuel) (state.mark a .visiting)).mark a .visited

variable {state : DepthFirst α} {order : List α}

/-- Without cycles, a vertex on the path is never met again. -/
theorem visit_quiet (hacyclic : ∀ a, ¬ TransGen (Points next) a a) (fuel : Nat) {a : α}
    (hpath : ∀ b, state.marks b = some .visiting → TransGen (Points next) b a) :
    (visit next fuel state a).cycles = state.cycles ∧
      ∀ b, (visit next fuel state a).marks b = some .visiting ↔
        state.marks b = some .visiting := by
  induction fuel generalizing state a with
  | zero => exact ⟨rfl, fun _ => Iff.rfl⟩
  | succ fuel ih =>
      unfold visit
      split
      next hvisiting => exact absurd (hpath a hvisiting) (hacyclic a)
      next => exact ⟨rfl, fun _ => Iff.rfl⟩
      next hnone =>
        have hfold : ∀ targets : List α, (∀ b ∈ targets, Points next a b) →
            ∀ inner : DepthFirst α,
              (∀ b, inner.marks b = some .visiting ↔
                b = a ∨ state.marks b = some .visiting) →
              (targets.foldl (visit next fuel) inner).cycles = inner.cycles ∧
                ∀ b, (targets.foldl (visit next fuel) inner).marks b = some .visiting ↔
                  b = a ∨ state.marks b = some .visiting := by
          intro targets
          induction targets with
          | nil => exact fun _ inner hinner => ⟨rfl, hinner⟩
          | cons target targets ihTargets =>
              intro htargets inner hinner
              rw [List.forall_mem_cons] at htargets
              have hinnerPath : ∀ b, inner.marks b = some .visiting →
                  TransGen (Points next) b target := by
                intro b hb
                rcases (hinner b).mp hb with rfl | hb
                · exact .single htargets.1
                · exact (hpath b hb).tail htargets.1
              obtain ⟨hcycles, hmarks⟩ := ih hinnerPath
              obtain ⟨hcycles', hmarks'⟩ :=
                ihTargets htargets.2 (visit next fuel inner target)
                  fun b => (hmarks b).trans (hinner b)
              exact ⟨hcycles'.trans hcycles, hmarks'⟩
        have hstart : ∀ b, (state.mark a .visiting).marks b = some .visiting ↔
            b = a ∨ state.marks b = some .visiting := by
          intro b
          by_cases hb : b = a
          · simp [hb]
          · simp [hb]
        obtain ⟨hcycles, hmarks⟩ := hfold (next a) (fun _ hb => hb) _ hstart
        refine ⟨hcycles, fun b => ?_⟩
        by_cases hb : b = a
        · simp [hb, hnone]
        · simpa [hb] using hmarks b

variable (next) in
/-- Cycles that were met are not forgotten. -/
theorem cycles_grow (fuel : Nat) (state : DepthFirst α) (a : α) :
    state.cycles <+: (visit next fuel state a).cycles := by
  induction fuel generalizing state a with
  | zero => exact List.prefix_refl _
  | succ fuel ih =>
      unfold visit
      split
      next => exact List.prefix_append _ _
      next => exact List.prefix_refl _
      next =>
        exact foldl_cycles_grow ih (next a) (state.mark a .visiting)

/-- Every vertex comes before all that it points to. -/
def PostOrder (next : α → List α) : List α → Prop
  | [] => True
  | a :: rest => a ∉ rest ∧ (∀ b ∈ next a, b ∈ rest) ∧ PostOrder next rest

omit [DecidableEq α] in
theorem PostOrder.closed (horder : PostOrder next order) :
    ∀ a ∈ order, ∀ b ∈ next a, b ∈ order := by
  induction order with
  | nil => simp
  | cons first rest ih =>
      obtain ⟨-, hfirst, hrest⟩ := horder
      intro a ha b hb
      rcases List.mem_cons.mp ha with rfl | ha
      · exact List.mem_cons_of_mem _ (hfirst b hb)
      · exact List.mem_cons_of_mem _ (ih hrest a ha b hb)

omit [DecidableEq α] in
/-- No cycle runs through vertices that can be ordered. -/
theorem PostOrder.acyclic (horder : PostOrder next order) {a : α} (ha : a ∈ order) :
    ¬ TransGen (Points next) a a := by
  induction order with
  | nil => simp at ha
  | cons first rest ih =>
      obtain ⟨hnew, hfirst, hrest⟩ := horder
      rcases List.mem_cons.mp ha with rfl | ha
      · intro hcycle
        obtain ⟨b, hb, hreaches⟩ := transGen_points_iff.mp hcycle
        have hstays : ∀ c, ReflTransGen (Points next) b c → c ∈ rest := by
          intro c hc
          induction hc with
          | refl => exact hfirst b hb
          | tail _ hedge ih => exact hrest.closed _ ih _ hedge
        exact hnew (hstays a hreaches)
      · exact ih hrest ha

/-- The vertices that are done, in the order in which they were, the last first. -/
structure Finished (next : α → List α) (state : DepthFirst α) (order : List α) : Prop where
  marked : ∀ a, state.marks a = some .visited ↔ a ∈ order
  ordered : PostOrder next order

/-- The number of vertices without a mark. -/
def unmarked (vertices : List α) (state : DepthFirst α) : Nat :=
  (vertices.toFinset.filter fun a => state.marks a = none).card

/-- A visit from one state to another: it only adds to what is done, and leaves the path. -/
structure Visits (next : α → List α) (before : DepthFirst α) (order : List α)
    (after : DepthFirst α) (order' : List α) : Prop where
  finished : Finished next after order'
  grows : order ⊆ order'
  path : ∀ a, before.marks a = some .visiting → after.marks a = some .visiting
  kept : ∀ a, after.marks a = none → before.marks a = none

omit [DecidableEq α] in
theorem Visits.refl (hfinished : Finished next state order) : Visits next state order state order :=
  ⟨hfinished, List.Subset.refl _, fun _ h => h, fun _ h => h⟩

omit [DecidableEq α] in
theorem Visits.trans {first second third : DepthFirst α} {order' order'' : List α}
    (hleft : Visits next first order second order')
    (hright : Visits next second order' third order'') : Visits next first order third order'' :=
  ⟨hright.finished, List.Subset.trans hleft.grows hright.grows,
    fun a ha => hright.path a (hleft.path a ha), fun a ha => hleft.kept a (hright.kept a ha)⟩

theorem Visits.unmarked_le {before after : DepthFirst α} {order' : List α}
    (hvisits : Visits next before order after order') (vertices : List α) :
    unmarked vertices after ≤ unmarked vertices before := by
  apply Finset.card_le_card
  intro a ha
  rw [Finset.mem_filter] at ha ⊢
  exact ⟨ha.1, hvisits.kept a ha.2⟩

/-- A visit that meets no cycle leaves its vertex done. -/
theorem visit_visits {vertices : List α} (hvertices : ∀ a b, Points next a b → b ∈ vertices)
    {fuel : Nat} {a : α} (ha : a ∈ vertices) (hfinished : Finished next state order)
    (hfuel : unmarked vertices state < fuel)
    (hcycles : (visit next fuel state a).cycles = state.cycles) :
    ∃ order', Visits next state order (visit next fuel state a) order' ∧ a ∈ order' := by
  induction fuel generalizing state order a with
  | zero => omega
  | succ fuel ih =>
      revert hcycles
      unfold visit
      split
      next hvisiting => simp
      next hvisited => exact fun _ => ⟨order, .refl hfinished, (hfinished.marked a).mp hvisited⟩
      next hnone =>
        intro hcycles
        have hstart : Visits next state order (state.mark a .visiting) order := by
          refine ⟨⟨fun b => ?_, hfinished.ordered⟩, List.Subset.refl _, fun b hb => ?_,
            fun b hb => ?_⟩
          · by_cases hb : b = a
            · simp [hb, ← hfinished.marked, hnone]
            · simp [hb, hfinished.marked]
          · by_cases hba : b = a
            · simp [hba]
            · simpa [hba] using hb
          · by_cases hba : b = a
            · simp [hba] at hb
            · simpa [hba] using hb
        have hless : unmarked vertices (state.mark a .visiting) < unmarked vertices state := by
          apply Finset.card_lt_card
          rw [Finset.ssubset_iff_of_subset]
          · exact ⟨a, by simp [ha, hnone], by simp⟩
          · intro b hb
            rw [Finset.mem_filter] at hb ⊢
            exact ⟨hb.1, hstart.kept b hb.2⟩
        have hfold : ∀ targets : List α, (∀ b ∈ targets, b ∈ vertices) →
            ∀ (inner : DepthFirst α) (orderInner : List α), Finished next inner orderInner →
              unmarked vertices inner < fuel →
              (targets.foldl (visit next fuel) inner).cycles = inner.cycles →
              ∃ order', Visits next inner orderInner (targets.foldl (visit next fuel) inner)
                order' ∧ targets ⊆ order' := by
          intro targets
          induction targets with
          | nil =>
              exact fun _ inner orderInner hinner _ _ =>
                ⟨orderInner, .refl hinner, List.nil_subset _⟩
          | cons target targets ihTargets =>
              intro htargets inner orderInner hinner hroom hquiet
              rw [List.forall_mem_cons] at htargets
              rw [List.foldl_cons] at hquiet ⊢
              -- No target of the rest meets a cycle, so the first does not either.
              have hlater := foldl_cycles_grow (cycles_grow next fuel) targets
                (visit next fuel inner target)
              rw [hquiet] at hlater
              have hfirst : (visit next fuel inner target).cycles = inner.cycles :=
                hlater.eq_of_length_le (cycles_grow next fuel inner target).length_le
              obtain ⟨order', hvisits, htarget⟩ := ih htargets.1 hinner hroom hfirst
              obtain ⟨order'', hrest, hdone⟩ := ihTargets htargets.2 _ order' hvisits.finished
                ((hvisits.unmarked_le vertices).trans_lt hroom) (hquiet.trans hfirst.symm)
              exact ⟨order'', hvisits.trans hrest, List.cons_subset.mpr ⟨hrest.grows htarget, hdone⟩⟩
        obtain ⟨order', hvisits, hdone⟩ :=
          hfold (next a) (hvertices a) _ order hstart.finished (by omega) hcycles
        have hpath := hvisits.path a (by simp)
        have hnew : a ∉ order' := by
          rw [← hvisits.finished.marked, hpath]
          simp
        refine ⟨a :: order', ⟨⟨fun b => ?_, hnew, fun b hb => hdone hb,
          hvisits.finished.ordered⟩, fun b hb => List.mem_cons_of_mem _ (hvisits.grows hb),
          fun b hb => ?_, fun b hb => ?_⟩, List.mem_cons_self⟩
        · by_cases hb : b = a
          · simp [hb]
          · simp [hb, hvisits.finished.marked]
        · have hba : b ≠ a := by
            rintro rfl
            rw [hnone] at hb
            contradiction
          have := hvisits.path b (hstart.path b hb)
          simpa [hba] using this
        · by_cases hba : b = a
          · rw [hba]
            exact hnone
          · exact hstart.kept b (hvisits.kept b (by simpa [hba] using hb))

def visitAll (next : α → List α) (vertices : List α) : DepthFirst α :=
  vertices.foldl (visit next (vertices.length + 1)) ⟨fun _ => none, []⟩

/-- A cycle is met exactly if there is one. -/
theorem visitAll_cycles_eq_nil {vertices : List α}
    (hvertices : ∀ a b, Points next a b → b ∈ vertices) :
    (visitAll next vertices).cycles = [] ↔ ∀ a, ¬ TransGen (Points next) a a := by
  constructor
  · intro hquiet
    have hprefix : ∀ targets : List α, targets ⊆ vertices → ∀ (state : DepthFirst α)
        (order : List α), Finished next state order → state.cycles = [] →
        (targets.foldl (visit next (vertices.length + 1)) state).cycles = [] →
        ∃ order', Finished next (targets.foldl (visit next (vertices.length + 1)) state) order' ∧
          order ⊆ order' ∧ targets ⊆ order' := by
      intro targets
      induction targets with
      | nil => exact fun _ state order hstate _ _ => ⟨order, hstate, List.Subset.refl _, by simp⟩
      | cons target targets ih =>
          intro htargets state order hstate hstart hquiet
          rw [List.cons_subset] at htargets
          rw [List.foldl_cons] at hquiet ⊢
          have hlater := foldl_cycles_grow (cycles_grow next (vertices.length + 1)) targets
            (visit next (vertices.length + 1) state target)
          rw [hquiet, List.prefix_nil] at hlater
          have hroom : unmarked vertices state < vertices.length + 1 :=
            Nat.lt_succ_of_le ((Finset.card_filter_le _ _).trans (List.toFinset_card_le vertices))
          obtain ⟨order', hvisits, htarget⟩ :=
            visit_visits hvertices htargets.1 hstate hroom (hlater.trans hstart.symm)
          obtain ⟨order'', hfinished, hgrows, hdone⟩ :=
            ih htargets.2 _ order' hvisits.finished hlater hquiet
          exact ⟨order'', hfinished, List.Subset.trans hvisits.grows hgrows,
            List.cons_subset.mpr ⟨hgrows htarget, hdone⟩⟩
    obtain ⟨order, hfinished, -, hdone⟩ :=
      hprefix vertices (List.Subset.refl _) ⟨fun _ => none, []⟩ [] ⟨by simp, trivial⟩ rfl hquiet
    intro a hcycle
    -- A vertex on a cycle is pointed to.
    obtain ⟨b, -, hedge⟩ := Relation.TransGen.tail'_iff.mp hcycle
    exact hfinished.ordered.acyclic (hdone (hvertices b a hedge)) hcycle
  · intro hacyclic
    have hquiet : ∀ targets : List α, ∀ state : DepthFirst α,
        (∀ b, state.marks b ≠ some .visiting) →
        (targets.foldl (visit next (vertices.length + 1)) state).cycles = state.cycles := by
      intro targets
      induction targets with
      | nil => exact fun _ _ => rfl
      | cons target targets ih =>
          intro state hstate
          obtain ⟨hcycles, hmarks⟩ := visit_quiet hacyclic (vertices.length + 1) (a := target)
            fun b hb => absurd hb (hstate b)
          rw [List.foldl_cons, ih _ fun b hb => hstate b ((hmarks b).mp hb), hcycles]
    exact hquiet vertices _ (by simp)

end DepthFirst

end Graph

end KjAtlas
