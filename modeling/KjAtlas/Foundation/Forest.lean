import Mathlib.Order.WellFoundedSet

/-! # Forests that grow at the roots

Each node of a forest points to at most one node, and following the pointers
always ends in a root. A forest grows by pointing some of its roots to a new
node.
-/

namespace KjAtlas

open Relation

variable {ι : Type}

/-- No node points to two nodes, and following pointers ends. -/
structure IsForest (nodes : Set ι) (points : ι → ι → Prop) : Prop where
  source : ∀ {a b}, points a b → a ∈ nodes
  target : ∀ {a b}, points a b → b ∈ nodes
  functional : ∀ {a b c}, points a b → points a c → b = c
  wellFounded : WellFounded fun b a => points a b

/-- Whether nothing follows a node. -/
def IsRoot (points : ι → ι → Prop) (a : ι) : Prop := ∀ b, ¬points a b

/-- Some nodes now point to a new node. -/
def Grown (points : ι → ι → Prop) (selected : Set ι) (new : ι) (a b : ι) : Prop :=
  points a b ∨ a ∈ selected ∧ b = new

theorem isForest_of_no_pointer {nodes : Set ι} {points : ι → ι → Prop}
    (hnone : ∀ a, IsRoot points a) : IsForest nodes points where
  source hpoints := absurd hpoints (hnone _ _)
  target hpoints := absurd hpoints (hnone _ _)
  functional hpoints := absurd hpoints (hnone _ _)
  wellFounded := ⟨fun _ => Acc.intro _ fun _ hpoints => absurd hpoints (hnone _ _)⟩

/-- Where finitely many nodes point to something, following pointers ends if it never leads back. -/
theorem wellFounded_of_acyclic {nodes : Set ι} {points : ι → ι → Prop} (hfinite : nodes.Finite)
    (hsource : ∀ {a b}, points a b → a ∈ nodes) (hacyclic : ∀ a, ¬TransGen points a a) :
    WellFounded fun b a => points a b := by
  have hback : ∀ {a b}, TransGen (fun b a => points a b) a b → TransGen points b a :=
    fun hpath => transGen_swap.mp hpath
  have : Std.Irrefl (TransGen fun b a => points a b) := ⟨fun a hcycle => hacyclic a (hback hcycle)⟩
  have : IsStrictOrder ι (TransGen fun b a => points a b) :=
    { trans := fun _ _ _ => TransGen.trans }
  have hnodes : nodes.WellFoundedOn (TransGen fun b a => points a b) := hfinite.wellFoundedOn
  have houtside : ∀ {a}, a ∉ nodes → Acc (fun b a => points a b) a :=
    fun hout => Acc.intro _ fun b hpoints => absurd (hsource hpoints) hout
  have hinside : ∀ {a}, a ∈ nodes → Acc (fun b a => points a b) a := by
    intro a ha
    apply hnodes.induction ha
    intro b _ ih
    refine Acc.intro b fun c hpoints => ?_
    by_cases hc : c ∈ nodes
    · exact ih c hc (.single hpoints)
    · exact houtside hc
  refine ⟨fun a => ?_⟩
  by_cases ha : a ∈ nodes
  · exact hinside ha
  · exact houtside ha

namespace IsForest

variable {nodes : Set ι} {points : ι → ι → Prop} (hforest : IsForest nodes points)

include hforest

/-- Following the pointers never leads back. -/
theorem acyclic (a : ι) : ¬TransGen points a a := by
  intro hcycle
  have hwf : WellFounded (TransGen fun b a => points a b) := hforest.wellFounded.transGen
  have hback : TransGen (fun b a => points a b) a a := transGen_swap.mpr hcycle
  exact hwf.irrefl.irrefl a hback

theorem mem_of_reaches {a b : ι} (ha : a ∈ nodes) (hreaches : ReflTransGen points a b) :
    b ∈ nodes := by
  induction hreaches with
  | refl => exact ha
  | tail _ hpoints _ => exact hforest.target hpoints

/-- Every node reaches one root. -/
theorem existsUnique_root (a : ι) : ∃! root, ReflTransGen points a root ∧ IsRoot points root := by
  have hexists : ∃ root, ReflTransGen points a root ∧ IsRoot points root := by
    induction a using hforest.wellFounded.induction with
    | _ a ih =>
        by_cases hroot : IsRoot points a
        · exact ⟨a, .refl, hroot⟩
        · simp only [IsRoot, not_forall, not_not] at hroot
          obtain ⟨b, hpoints⟩ := hroot
          obtain ⟨root, hreaches, hroot⟩ := ih b hpoints
          exact ⟨root, .head hpoints hreaches, hroot⟩
  obtain ⟨root, hreaches, hroot⟩ := hexists
  refine ⟨root, ⟨hreaches, hroot⟩, ?_⟩
  rintro other ⟨hother, hotherRoot⟩
  have hunique : Relator.RightUnique points := fun _ _ _ hb hc => hforest.functional hb hc
  rcases ReflTransGen.total_of_right_unique hunique hother hreaches with hpath | hpath
  · rcases hpath.cases_head with rfl | ⟨next, hnext, -⟩
    · rfl
    · exact absurd hnext (hotherRoot next)
  · rcases hpath.cases_head with rfl | ⟨next, hnext, -⟩
    · rfl
    · exact absurd hnext (hroot next)

theorem grow {selected : Set ι} {new : ι} (hnew : new ∉ nodes)
    (hselected : ∀ a ∈ selected, a ∈ nodes ∧ IsRoot points a) :
    IsForest (insert new nodes) (Grown points selected new) where
  source := by
    rintro a b (hpoints | ⟨ha, -⟩)
    · exact Or.inr (hforest.source hpoints)
    · exact Or.inr (hselected a ha).1
  target := by
    rintro a b (hpoints | ⟨-, rfl⟩)
    · exact Or.inr (hforest.target hpoints)
    · exact Or.inl rfl
  functional := by
    rintro a b c (hb | ⟨ha, rfl⟩) (hc | ⟨ha', rfl⟩)
    · exact hforest.functional hb hc
    · exact absurd hb ((hselected a ha').2 b)
    · exact absurd hc ((hselected a ha).2 c)
    · rfl
  wellFounded := by
    have hnewAcc : Acc (fun b a => Grown points selected new a b) new := by
      refine Acc.intro _ fun b hb => ?_
      rcases hb with hpoints | ⟨hsel, -⟩
      · exact absurd (hforest.source hpoints) hnew
      · exact absurd (hselected new hsel).1 hnew
    refine ⟨fun a => ?_⟩
    induction a using hforest.wellFounded.induction with
    | _ a ih =>
        refine Acc.intro _ fun b hb => ?_
        rcases hb with hpoints | ⟨-, rfl⟩
        · exact ih b hpoints
        · exact hnewAcc

end IsForest

theorem reaches_grown {points : ι → ι → Prop} {a b : ι} (selected : Set ι) (new : ι)
    (hreaches : ReflTransGen points a b) : ReflTransGen (Grown points selected new) a b :=
  ReflTransGen.mono (fun _ _ hpoints => Or.inl hpoints) _ _ hreaches

theorem reaches_new {points : ι → ι → Prop} {selected : Set ι} {a b : ι} (new : ι)
    (hreaches : ReflTransGen points a b) (hb : b ∈ selected) :
    ReflTransGen (Grown points selected new) a new :=
  (reaches_grown selected new hreaches).tail (Or.inr ⟨hb, rfl⟩)

end KjAtlas
