import ASNPrefixMap.Lib.LastWriter

/-!
# Delivery at least once

A log is read from a cursor that may be put back at any time, so that parts of
it are delivered again, but that never skips anything (`Delivers`). For a map in
which the last writer wins nothing is lost and nothing is spoilt by that: once
the cursor has reached the end of the log, the map is what one reading of the
log makes it (`applyWrites_delivered`).

The log does not change while it is read, and the cursor is put back only to
where it has been. Delivery at most once, where messages are lost, is another
matter: nothing is said of it.
-/

namespace ASNPrefixMap.Lib

variable {α K V : Type} [DecidableEq K]

/-- What has been delivered of a log, in order, and where its cursor stands.
Putting it back delivers nothing; the next step delivers what stands there. -/
inductive Delivers (log : List α) : List α → Nat → Prop
  | start : Delivers log [] 0
  | back {delivered : List α} {cursor cursor' : Nat} :
    Delivers log delivered cursor → cursor' ≤ cursor → Delivers log delivered cursor'
  | next {delivered : List α} {cursor : Nat} {a : α} :
    Delivers log delivered cursor → log[cursor]? = some a →
    Delivers log (delivered ++ [a]) (cursor + 1)

variable {log delivered : List α} {cursor : Nat}

/-- What stands before a cursor that has moved on by one. -/
theorem take_succ_of_getElem? {a : α} (h : log[cursor]? = some a) :
    log.take (cursor + 1) = log.take cursor ++ [a] := by
  rw [List.take_add_one, h, Option.toList_some]

/-- Only what is on the log is delivered, however often the feed is put back. -/
theorem Delivers.subset (h : Delivers log delivered cursor) : delivered ⊆ log := by
  induction h with
  | start => exact List.nil_subset _
  | back _ _ ih => exact ih
  | next _ ha ih =>
    refine List.append_subset.mpr ⟨ih, fun b hb => ?_⟩
    rw [List.mem_singleton.mp hb]
    exact List.mem_of_getElem? ha

/-- All that stands before the cursor has been delivered. -/
theorem Delivers.take_subset (h : Delivers log delivered cursor) : log.take cursor ⊆ delivered := by
  induction h with
  | start => exact List.nil_subset _
  | back _ hle ih => exact List.Subset.trans (List.take_prefix_take_left hle).subset ih
  | next _ ha ih =>
    rw [take_succ_of_getElem? ha]
    exact List.append_subset.mpr
      ⟨List.Subset.trans ih (List.subset_append_left _ _), List.subset_append_right _ _⟩

/-- A cursor that has reached the end has delivered everything, and nothing
else. -/
theorem Delivers.mem_iff (h : Delivers log delivered log.length) {a : α} : a ∈ delivered ↔ a ∈ log := by
  refine ⟨fun ha => h.subset ha, fun ha => h.take_subset ?_⟩
  rwa [List.take_length]

/-! ## Writes -/

/-- An entry depends on the last write to its key, if there is one. -/
theorem applyWrites_again (m m' : K → Option V) (ws : List (Write K V)) (k : K)
    (h : writesTo k ws = [] → m k = m' k) : applyWrites m ws k = applyWrites m' ws k := by
  rw [applyWrites_eq, applyWrites_eq]
  cases hlast : (writesTo k ws).getLast? with
  | some w => rfl
  | none => exact h (List.getLast?_eq_none_iff.mp hlast)

/-- At any time an entry is what some reading has left that has come as far as
the cursor. The reading differs from key to key: it is the one that ends with
the last delivery of a write to the key. -/
theorem Delivers.applyWrites_take (h : Delivers log delivered cursor)
    (writes : α → List (Write K V)) (m : K → Option V) (k : K) :
    ∃ reached, cursor ≤ reached ∧ applyWrites m (delivered.flatMap writes) k =
      applyWrites m ((log.take reached).flatMap writes) k := by
  induction h with
  | start => exact ⟨0, Nat.le_refl 0, rfl⟩
  | back _ hle ih =>
    obtain ⟨reached, hreached, hentry⟩ := ih
    exact ⟨reached, Nat.le_trans hle hreached, hentry⟩
  | @next delivered cursor a _ ha ih =>
    obtain ⟨reached, hreached, hentry⟩ := ih
    rw [List.flatMap_append, List.flatMap_singleton, applyWrites_append]
    by_cases hwritten : writesTo k (writes a) = [] ∧ cursor < reached
    · -- the cursor has been further, and this item does not touch the entry
      obtain ⟨hnone, hlt⟩ := hwritten
      refine ⟨reached, hlt, ?_⟩
      rw [← hentry, applyWrites_eq k (writes a), hnone]
      rfl
    · refine ⟨cursor + 1, Nat.le_refl _, ?_⟩
      rw [take_succ_of_getElem? ha, List.flatMap_append, List.flatMap_singleton, applyWrites_append]
      refine applyWrites_again _ _ _ _ fun hnone => ?_
      obtain rfl : reached = cursor :=
        Nat.le_antisymm (Nat.le_of_not_lt fun hlt => hwritten ⟨hnone, hlt⟩) hreached
      exact hentry

/-- **At least once is once.** With the cursor at the end, a map that was
written by all that was delivered is the one a single reading of the log
makes. -/
theorem applyWrites_delivered (h : Delivers log delivered log.length) (writes : α → List (Write K V))
    (m : K → Option V) :
    applyWrites m (delivered.flatMap writes) = applyWrites m (log.flatMap writes) := by
  funext k
  obtain ⟨reached, hreached, hentry⟩ := h.applyWrites_take writes m k
  rw [hentry, List.take_of_length_le hreached]

end ASNPrefixMap.Lib
