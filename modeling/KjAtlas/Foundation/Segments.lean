import Mathlib.Analysis.Convex.Segment
import Mathlib.Data.Sign.Basic
import Mathlib.Tactic.Linarith
import Mathlib.Tactic.LinearCombination

/-! # Segments in the plane

Whether two segments share a point is decided by on which sides of each the ends
of the other lie, and, where an end lies on the line of the other segment, by the
box around that segment.
-/

namespace KjAtlas

open AffineMap (lineMap)

variable {𝕜 : Type*} [Field 𝕜] {a b c d p q : 𝕜 × 𝕜}

/-- Positive if the way over three points turns to the left, and negative if to the right. -/
def turn (a b c : 𝕜 × 𝕜) : 𝕜 := (b.1 - a.1) * (c.2 - a.2) - (b.2 - a.2) * (c.1 - a.1)

@[simp] theorem turn_left : turn a b a = 0 := by simp [turn]

@[simp] theorem turn_right : turn a b b = 0 := by
  unfold turn
  ring

theorem turn_lineMap (t : 𝕜) : turn a b (lineMap p q t) = lineMap (turn a b p) (turn a b q) t := by
  simp only [turn, AffineMap.lineMap_apply, vsub_eq_sub, vadd_eq_add, smul_eq_mul, Prod.fst_add,
    Prod.snd_add, Prod.smul_fst, Prod.smul_snd, Prod.fst_sub, Prod.snd_sub]
  ring

theorem turn_sub_turn : turn a b c - turn a b d = turn c d b - turn c d a := by
  unfold turn
  ring

/-- Two lines that are not parallel have one point in common. -/
theorem eq_of_turn_eq (hne : turn a b c ≠ turn a b d) (hab : turn a b p = turn a b q)
    (hcd : turn c d p = turn c d q) : p = q := by
  have hdet : turn a b c - turn a b d ≠ 0 := sub_ne_zero.mpr hne
  unfold turn at hdet hab hcd
  refine Prod.ext (mul_left_cancel₀ hdet ?_) (mul_left_cancel₀ hdet ?_)
  · linear_combination (b.1 - a.1) * hcd - (d.1 - c.1) * hab
  · linear_combination (b.2 - a.2) * hcd - (d.2 - c.2) * hab

theorem exists_lineMap (hne : a ≠ b) (hturn : turn a b p = 0) : ∃ t : 𝕜, lineMap a b t = p := by
  have hcross : (b.1 - a.1) * (p.2 - a.2) = (b.2 - a.2) * (p.1 - a.1) := sub_eq_zero.mp hturn
  by_cases hfirst : b.1 - a.1 = 0
  · have hsecond : b.2 - a.2 ≠ 0 := by
      intro hsecond
      exact hne (Prod.ext (sub_eq_zero.mp hfirst).symm (sub_eq_zero.mp hsecond).symm)
    refine ⟨(p.2 - a.2) / (b.2 - a.2), Prod.ext ?_ ?_⟩
    · have hp : p.1 - a.1 = 0 := by
        rw [hfirst, zero_mul, zero_eq_mul] at hcross
        exact hcross.resolve_left hsecond
      simp [AffineMap.lineMap_apply, hfirst, sub_eq_zero.mp hp]
    · simp [AffineMap.lineMap_apply, hsecond]
  · refine ⟨(p.1 - a.1) / (b.1 - a.1), Prod.ext ?_ ?_⟩
    · simp [AffineMap.lineMap_apply, hfirst]
    · simp only [AffineMap.lineMap_apply, vsub_eq_sub, vadd_eq_add, smul_eq_mul, Prod.snd_add,
        Prod.smul_snd, Prod.snd_sub]
      rw [div_mul_eq_mul_div, mul_comm, ← hcross, mul_div_cancel_left₀ _ hfirst, sub_add_cancel]

variable [LinearOrder 𝕜] [IsStrictOrderedRing 𝕜]

/-- In the box around two points. -/
def InBox (a b p : 𝕜 × 𝕜) : Prop := p.1 ∈ Set.uIcc a.1 b.1 ∧ p.2 ∈ Set.uIcc a.2 b.2

theorem turn_mem_segment (hp : p ∈ segment 𝕜 c d) :
    turn a b p ∈ segment 𝕜 (turn a b c) (turn a b d) := by
  rw [segment_eq_image_lineMap] at hp ⊢
  obtain ⟨t, ht, rfl⟩ := hp
  exact ⟨t, ht, (turn_lineMap t).symm⟩

theorem turn_eq_zero_of_mem_segment (hp : p ∈ segment 𝕜 a b) : turn a b p = 0 := by
  have hturn := turn_mem_segment (a := a) (b := b) hp
  simpa using hturn

theorem mem_segment_iff_turn : p ∈ segment 𝕜 a b ↔ turn a b p = 0 ∧ InBox a b p := by
  constructor
  · intro hp
    obtain ⟨hfirst, hsecond⟩ := Prod.segment_subset a b hp
    rw [segment_eq_uIcc] at hfirst hsecond
    exact ⟨turn_eq_zero_of_mem_segment hp, hfirst, hsecond⟩
  · rintro ⟨hturn, hfirst, hsecond⟩
    by_cases hne : a = b
    · subst hne
      simp only [Set.uIcc_self, Set.mem_singleton_iff] at hfirst hsecond
      rw [segment_same]
      exact Prod.ext hfirst hsecond
    · obtain ⟨t, rfl⟩ := exists_lineMap hne hturn
      apply lineMap_mem_segment
      have hin : ∀ {x y : 𝕜}, x ≠ y → lineMap x y t ∈ Set.uIcc x y → t ∈ Set.Icc (0 : 𝕜) 1 := by
        intro x y hxy hmem
        rw [← segment_eq_uIcc, segment_eq_image_lineMap] at hmem
        obtain ⟨s, hs, heq⟩ := hmem
        exact AffineMap.lineMap_injective 𝕜 hxy heq ▸ hs
      by_cases hx : a.1 = b.1
      · exact hin (fun hy => hne (Prod.ext hx hy)) (by simpa [AffineMap.lineMap_apply] using hsecond)
      · exact hin hx (by simpa [AffineMap.lineMap_apply] using hfirst)

theorem sign_ne_sign_iff {x y : 𝕜} :
    SignType.sign x ≠ SignType.sign y ↔ x ≠ y ∧ (0 : 𝕜) ∈ segment 𝕜 x y := by
  rw [segment_eq_uIcc, Set.mem_uIcc]
  rcases lt_trichotomy x 0 with hx | rfl | hx <;> rcases lt_trichotomy y 0 with hy | rfl | hy <;>
    simp [sign_neg, sign_pos, *, le_of_lt, ne_of_lt, ne_of_gt, not_le_of_gt]
  · exact (hx.trans hy).ne
  · exact (hy.trans hx).ne'

/-- Of two segments on one line that share a point, one has an end in the other. -/
theorem uIcc_meet {s u v : 𝕜} (hs : s ∈ Set.Icc (0 : 𝕜) 1) (huv : s ∈ Set.uIcc u v) :
    u ∈ Set.Icc (0 : 𝕜) 1 ∨ (0 : 𝕜) ∈ Set.uIcc u v ∨ (1 : 𝕜) ∈ Set.uIcc u v := by
  simp only [Set.mem_uIcc, Set.mem_Icc] at *
  grind

theorem exists_turn_eq_zero (hzero : (0 : 𝕜) ∈ segment 𝕜 (turn a b c) (turn a b d)) :
    ∃ p ∈ segment 𝕜 c d, turn a b p = 0 := by
  rw [segment_eq_image_lineMap] at hzero
  obtain ⟨t, ht, heq⟩ := hzero
  exact ⟨lineMap c d t, lineMap_mem_segment 𝕜 c d ht, (turn_lineMap t).trans heq⟩

/-- Of two segments on one line that share a point, one has an end in the other. -/
theorem exists_end_mem (hc : turn a b c = 0) (hd : turn a b d = 0) (hab : p ∈ segment 𝕜 a b)
    (hcd : p ∈ segment 𝕜 c d) : c ∈ segment 𝕜 a b ∨ a ∈ segment 𝕜 c d ∨ b ∈ segment 𝕜 c d := by
  by_cases hne : a = b
  · subst hne
    rw [segment_same, Set.mem_singleton_iff] at hab
    exact .inr (.inl (hab ▸ hcd))
  · obtain ⟨u, rfl⟩ := exists_lineMap hne hc
    obtain ⟨v, rfl⟩ := exists_lineMap hne hd
    rw [segment_eq_image_lineMap] at hab
    obtain ⟨s, hs, rfl⟩ := hab
    have hmem : ∀ t : 𝕜, lineMap a b t ∈ segment 𝕜 (lineMap a b u) (lineMap a b v) ↔
        t ∈ Set.uIcc u v := by
      intro t
      rw [← image_segment, segment_eq_uIcc]
      exact (AffineMap.lineMap_injective 𝕜 hne).mem_set_image
    rcases uIcc_meet hs ((hmem s).mp hcd) with hu | hzero | hone
    · exact .inl (lineMap_mem_segment 𝕜 a b hu)
    · have := (hmem 0).mpr hzero
      rw [AffineMap.lineMap_apply_zero] at this
      exact .inr (.inl this)
    · have := (hmem 1).mpr hone
      rw [AffineMap.lineMap_apply_one] at this
      exact .inr (.inr this)

/-- Two segments share a point exactly when the ends of each lie on different sides of the other,
or an end lies on the other. -/
theorem segments_meet_iff :
    (segment 𝕜 a b ∩ segment 𝕜 c d).Nonempty ↔
      SignType.sign (turn a b c) ≠ SignType.sign (turn a b d) ∧
          SignType.sign (turn c d a) ≠ SignType.sign (turn c d b) ∨
        c ∈ segment 𝕜 a b ∨ d ∈ segment 𝕜 a b ∨ a ∈ segment 𝕜 c d ∨ b ∈ segment 𝕜 c d := by
  rw [sign_ne_sign_iff, sign_ne_sign_iff]
  constructor
  · rintro ⟨p, hab, hcd⟩
    have hzero := turn_mem_segment (a := a) (b := b) hcd
    rw [turn_eq_zero_of_mem_segment hab] at hzero
    by_cases hparallel : turn a b c = turn a b d
    · rw [← hparallel, segment_same, Set.mem_singleton_iff] at hzero
      have hend := exists_end_mem hzero.symm (hparallel ▸ hzero.symm) hab hcd
      tauto
    · have hzero' := turn_mem_segment (a := c) (b := d) hab
      rw [turn_eq_zero_of_mem_segment hcd] at hzero'
      refine .inl ⟨⟨hparallel, hzero⟩, ?_, hzero'⟩
      intro heq
      exact hparallel (sub_eq_zero.mp (turn_sub_turn.trans (sub_eq_zero.mpr heq.symm)))
  · rintro (⟨⟨hne, hzero⟩, -, hzero'⟩ | hc | hd | ha | hb)
    · obtain ⟨p, hp, hturn⟩ := exists_turn_eq_zero hzero
      obtain ⟨q, hq, hturn'⟩ := exists_turn_eq_zero hzero'
      obtain rfl : p = q := eq_of_turn_eq hne
        (hturn.trans (turn_eq_zero_of_mem_segment hq).symm)
        ((turn_eq_zero_of_mem_segment hp).trans hturn'.symm)
      exact ⟨p, hq, hp⟩
    · exact ⟨c, hc, left_mem_segment 𝕜 c d⟩
    · exact ⟨d, hd, right_mem_segment 𝕜 c d⟩
    · exact ⟨a, left_mem_segment 𝕜 a b, ha⟩
    · exact ⟨b, right_mem_segment 𝕜 a b, hb⟩

end KjAtlas
