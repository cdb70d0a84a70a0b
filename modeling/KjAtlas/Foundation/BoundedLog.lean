import Mathlib.Data.List.Chain

/-! # Bounded logs

A bounded log keeps the last entries that were recorded. Consecutive entries
stay consecutive, the last entry is the one recorded last, and nothing has been
dropped from a log that is not full.
-/

namespace KjAtlas.BoundedLog

variable {α : Type} {limit : Nat} {log : List α} {entry : α}

/-- Record an entry, keeping the last `limit` ones. -/
def record (limit : Nat) (log : List α) (entry : α) : List α :=
  let next := log ++ [entry]
  if limit < next.length then next.drop (next.length - limit) else next

theorem record_eq_drop (limit : Nat) (log : List α) (entry : α) :
    record limit log entry = (log ++ [entry]).drop ((log ++ [entry]).length - limit) := by
  rw [record]
  split
  next => rfl
  next hfits => rw [Nat.sub_eq_zero_of_le (Nat.le_of_not_lt hfits), List.drop_zero]

theorem length_record_le : (record limit log entry).length ≤ limit := by
  rw [record_eq_drop, List.length_drop]
  omega

theorem getLast?_record (hlimit : 0 < limit) : (record limit log entry).getLast? = some entry := by
  rw [record_eq_drop, List.getLast?_drop, List.getLast?_concat, if_neg]
  rw [List.length_append, List.length_singleton]
  omega

theorem record_ne_nil (hlimit : 0 < limit) : record limit log entry ≠ [] := by
  intro hnil
  have hlast := @getLast?_record α limit log entry hlimit
  rw [hnil] at hlast
  cases hlast

theorem isChain_record {R : α → α → Prop} (hlog : log.IsChain R)
    (hnext : ∀ last ∈ log.getLast?, R last entry) : (record limit log entry).IsChain R := by
  rw [record_eq_drop]
  apply List.IsChain.drop
  refine List.isChain_append.mpr ⟨hlog, List.isChain_singleton entry, ?_⟩
  intro last hlast first hfirst
  rw [List.head?_cons, Option.mem_some_iff] at hfirst
  rw [← hfirst]
  exact hnext last hlast

theorem record_of_not_full (hlength : (record limit log entry).length < limit) :
    record limit log entry = log ++ [entry] := by
  rw [record_eq_drop, List.length_drop] at hlength
  rw [record_eq_drop, Nat.sub_eq_zero_of_le (by omega), List.drop_zero]

end KjAtlas.BoundedLog
