import Mathlib.Data.Set.Finite.Basic
import Mathlib.Order.WellFounded

/-! # Following pointers to the end

Each known node points to another node or to nothing. A chain follows the
pointers from a node to a node that points to nothing. Chains that meet no node
twice are found with as many steps as there are nodes, and they stay when the
pointers that do not start such a chain are removed.
-/

namespace KjAtlas

open Relation

variable {κ : Type}

/-- The nodes that are met from a cursor to the end. Every one of them is known. -/
def IsChain (next : κ → Option (Option κ)) : Option κ → List κ → Prop
  | none, [] => True
  | some a, b :: rest => a = b ∧ ∃ after, next a = some after ∧ IsChain next after rest
  | none, _ :: _ | some _, [] => False

/-- Whether a pointer from a node starts a chain that meets no node twice. -/
def Ends (next : κ → Option (Option κ)) (a : κ) (cursor : Option κ) : Prop :=
  ∃ chain, IsChain next cursor chain ∧ (a :: chain).Nodup

variable {cursor : Option κ} {nodes : List κ}

theorem IsChain.known {next : κ → Option (Option κ)} {chain : List κ}
    (hchain : IsChain next cursor chain) : ∀ a ∈ chain, (next a).isSome = true := by
  induction chain generalizing cursor with
  | nil => simp
  | cons b rest ih =>
      cases cursor with
      | none => exact hchain.elim
      | some a =>
          obtain ⟨rfl, after, hnext, hrest⟩ := hchain
          exact List.forall_mem_cons.mpr ⟨by rw [hnext]; rfl, ih hrest⟩

section Follow

variable [DecidableEq κ] (next : κ → Option (Option κ))

/-- The loop that follows the pointers and remembers the nodes it has met. -/
def follow : Nat → List κ → Option κ → Bool
  | _, _, none => true
  | 0, _, some _ => false
  | steps + 1, visited, some a =>
      if visited.contains a then false
      else match next a with
        | none => false
        | some after => follow steps (a :: visited) after

theorem follow_iff {steps : Nat} {visited : List κ} :
    follow next steps visited cursor = true ↔
      ∃ chain, IsChain next cursor chain ∧ chain.Nodup ∧ (∀ a ∈ chain, a ∉ visited) ∧
        chain.length ≤ steps := by
  induction steps generalizing visited cursor with
  | zero =>
      cases cursor with
      | none => simp [follow, IsChain]
      | some a =>
          simp only [follow, Bool.false_eq_true, false_iff, not_exists]
          rintro chain ⟨hchain, -, -, hlength⟩
          rw [Nat.le_zero, List.length_eq_zero_iff] at hlength
          subst hlength
          exact hchain
  | succ steps ih =>
      cases cursor with
      | none =>
          simp only [follow, true_iff]
          exact ⟨[], trivial, List.nodup_nil, by simp, Nat.zero_le _⟩
      | some a =>
          rw [follow]
          by_cases hvisited : a ∈ visited
          · rw [if_pos (List.contains_iff_mem.mpr hvisited)]
            refine ⟨nofun, ?_⟩
            rintro ⟨chain, hchain, -, hfresh, -⟩
            cases chain with
            | nil => exact hchain.elim
            | cons b rest =>
                obtain ⟨rfl, -⟩ := hchain
                exact absurd hvisited (hfresh a List.mem_cons_self)
          · rw [if_neg (mt List.contains_iff_mem.mp hvisited)]
            constructor
            · intro hfollow
              split at hfollow
              · contradiction
              next after hnext =>
                obtain ⟨chain, hchain, hnodup, hfresh, hlength⟩ := ih.mp hfollow
                refine ⟨a :: chain, ⟨rfl, after, hnext, hchain⟩, ?_, ?_, ?_⟩
                · exact List.nodup_cons.mpr ⟨fun ha => hfresh a ha List.mem_cons_self, hnodup⟩
                · refine List.forall_mem_cons.mpr ⟨hvisited, fun b hb hmem => ?_⟩
                  exact hfresh b hb (List.mem_cons_of_mem _ hmem)
                · exact Nat.succ_le_succ hlength
            · rintro ⟨chain, hchain, hnodup, hfresh, hlength⟩
              cases chain with
              | nil => exact hchain.elim
              | cons b rest =>
                  obtain ⟨rfl, after, hnext, hrest⟩ := hchain
                  rw [List.nodup_cons] at hnodup
                  rw [List.forall_mem_cons] at hfresh
                  rw [hnext]
                  refine ih.mpr ⟨rest, hrest, hnodup.2, fun b hb hmem => ?_,
                    Nat.le_of_succ_le_succ hlength⟩
                  rcases List.mem_cons.mp hmem with rfl | hmem
                  · exact hnodup.1 hb
                  · exact hfresh.2 b hb hmem

/-- With a step for each known node, the loop decides whether the pointer of a
node starts a chain. -/
theorem follow_iff_ends (hnodes : ∀ a, (next a).isSome = true → a ∈ nodes) (a : κ)
    (cursor : Option κ) : follow next nodes.length [a] cursor = true ↔ Ends next a cursor := by
  rw [follow_iff]
  constructor
  · rintro ⟨chain, hchain, hnodup, hfresh, -⟩
    exact ⟨chain, hchain, List.nodup_cons.mpr
      ⟨fun ha => hfresh a ha (List.mem_singleton_self a), hnodup⟩⟩
  · rintro ⟨chain, hchain, hnodup⟩
    rw [List.nodup_cons] at hnodup
    refine ⟨chain, hchain, hnodup.2, fun b hb hmem => ?_, ?_⟩
    · rw [List.mem_singleton] at hmem
      exact hnodup.1 (hmem ▸ hb)
    · exact (hnodup.2.subperm fun b hb => hnodes b (hchain.known b hb)).length_le

end Follow

/-- A chain stays when every node of it keeps a pointer that starts a chain. -/
theorem IsChain.pruned {next next' : κ → Option (Option κ)}
    (hkeep : ∀ a after, next a = some after → Ends next a after → next' a = some after)
    {chain : List κ} (hchain : IsChain next cursor chain) (hnodup : chain.Nodup) :
    IsChain next' cursor chain := by
  induction chain generalizing cursor with
  | nil =>
      cases cursor with
      | none => trivial
      | some a => exact hchain.elim
  | cons b rest ih =>
      cases cursor with
      | none => exact hchain.elim
      | some a =>
          obtain ⟨rfl, after, hnext, hrest⟩ := hchain
          exact ⟨rfl, after, hkeep a after hnext ⟨rest, hrest, hnodup⟩,
            ih hrest (List.nodup_cons.mp hnodup).2⟩

/-- Pointers that start chains still do when the others are removed. -/
theorem Ends.pruned {next next' : κ → Option (Option κ)}
    (hkeep : ∀ a after, next a = some after → Ends next a after → next' a = some after) {a : κ}
    (hends : Ends next a cursor) : Ends next' a cursor := by
  obtain ⟨chain, hchain, hnodup⟩ := hends
  exact ⟨chain, hchain.pruned hkeep (List.nodup_cons.mp hnodup).2, hnodup⟩

/-! ## Chains and cycles -/

/-- A node points to the node that follows it. -/
def StepsTo (next : κ → Option (Option κ)) (a b : κ) : Prop := next a = some (some b)

section Cycles

variable {next : κ → Option (Option κ)} {a b c : κ} {chain : List κ}

/-- A chain holds what is reached from its first node. -/
theorem IsChain.mem_iff (hchain : IsChain next (some b) chain) :
    c ∈ chain ↔ ReflTransGen (StepsTo next) b c := by
  induction chain generalizing b with
  | nil => exact hchain.elim
  | cons first rest ih =>
      obtain ⟨rfl, after, hnext, hrest⟩ := hchain
      rw [List.mem_cons, ReflTransGen.cases_head_iff, eq_comm]
      apply or_congr_right
      cases after with
      | none =>
          cases rest with
          | nil => simp [StepsTo, hnext]
          | cons _ _ => exact hrest.elim
      | some after =>
          rw [ih hrest]
          constructor
          · exact fun hreach => ⟨after, hnext, hreach⟩
          · intro ⟨d, hd, hreach⟩
            rw [StepsTo, hnext] at hd
            cases hd
            exact hreach

/-- No node of a chain without repetition is met again from itself. -/
theorem IsChain.acyclic (hchain : IsChain next (some b) chain) (hnodup : chain.Nodup)
    (hc : c ∈ chain) : ¬TransGen (StepsTo next) c c := by
  induction chain generalizing b with
  | nil => nomatch hc
  | cons first rest ih =>
      obtain ⟨rfl, after, hnext, hrest⟩ := hchain
      obtain ⟨hfirst, hnodup⟩ := List.nodup_cons.mp hnodup
      cases after with
      | none =>
          cases rest with
          | nil =>
              obtain rfl := List.mem_singleton.mp hc
              intro hcycle
              obtain ⟨d, hd, -⟩ := TransGen.head'_iff.mp hcycle
              rw [StepsTo, hnext] at hd
              nomatch hd
          | cons _ _ => exact hrest.elim
      | some after =>
          rcases List.mem_cons.mp hc with rfl | hc
          · intro hcycle
            obtain ⟨d, hd, hback⟩ := TransGen.head'_iff.mp hcycle
            rw [StepsTo, hnext] at hd
            cases hd
            exact hfirst (hrest.mem_iff.mpr hback)
          · exact ih hrest hnodup hc

/-- Where finitely many nodes are reached, all of them known and none from itself, a chain
follows the pointers. -/
theorem exists_chain (hnodes : ∀ a, (next a).isSome = true → a ∈ nodes)
    (hreached : ∀ c, ReflTransGen (StepsTo next) b c →
      (next c).isSome = true ∧ ¬TransGen (StepsTo next) c c) :
    ∃ chain, IsChain next (some b) chain ∧ chain.Nodup := by
  let Reached := { c // ReflTransGen (StepsTo next) b c }
  have hfinite : Finite Reached := by
    have hsubset : {c | ReflTransGen (StepsTo next) b c} ⊆ {c | c ∈ nodes} :=
      fun c hc => hnodes c (hreached c hc).1
    exact (nodes.finite_toSet.subset hsubset).to_subtype
  let later (c d : Reached) : Prop := TransGen (StepsTo next) d.1 c.1
  have htrans : IsTrans Reached later := ⟨fun _ _ _ hcd hde => hde.trans hcd⟩
  have hirrefl : Std.Irrefl later := ⟨fun c => (hreached c.1 c.2).2⟩
  have hwf : WellFounded later := Finite.wellFounded_of_trans_of_irrefl later
  have hall : ∀ c : Reached, ∃ chain, IsChain next (some c.1) chain ∧ chain.Nodup := by
    intro c
    induction c using hwf.induction with
    | _ c ih =>
        obtain ⟨c, hc⟩ := c
        obtain ⟨after, hnext⟩ := Option.isSome_iff_exists.mp (hreached c hc).1
        cases after with
        | none => exact ⟨[c], ⟨rfl, none, hnext, trivial⟩, List.nodup_singleton c⟩
        | some d =>
            have hpoints : StepsTo next c d := hnext
            obtain ⟨chain, hchain, hnodup⟩ := ih ⟨d, hc.tail hpoints⟩ (.single hpoints)
            refine ⟨c :: chain, ⟨rfl, some d, hnext, hchain⟩, List.nodup_cons.mpr ⟨?_, hnodup⟩⟩
            intro hmem
            exact (hreached c hc).2 (.head' hpoints (hchain.mem_iff.mp hmem))
  exact hall ⟨b, .refl⟩

/-- A pointer starts a chain when all that is reached over it is known and on no cycle, and
it does not lead back. -/
theorem ends_iff_reached (hnodes : ∀ a, (next a).isSome = true → a ∈ nodes) :
    Ends next a (some b) ↔ ¬ReflTransGen (StepsTo next) b a ∧
      ∀ c, ReflTransGen (StepsTo next) b c →
        (next c).isSome = true ∧ ¬TransGen (StepsTo next) c c := by
  constructor
  · intro ⟨chain, hchain, hnodup⟩
    obtain ⟨hfresh, hnodup⟩ := List.nodup_cons.mp hnodup
    refine ⟨fun hback => hfresh (hchain.mem_iff.mpr hback), fun c hc => ?_⟩
    have hmem := hchain.mem_iff.mpr hc
    exact ⟨hchain.known c hmem, hchain.acyclic hnodup hmem⟩
  · intro ⟨hback, hreached⟩
    obtain ⟨chain, hchain, hnodup⟩ := exists_chain hnodes hreached
    exact ⟨chain, hchain, List.nodup_cons.mpr ⟨fun hmem => hback (hchain.mem_iff.mp hmem), hnodup⟩⟩

end Cycles

end KjAtlas
