import Mathlib.Data.List.DropRight
import Mathlib.Order.Basic

/-!
# Sliding windows and latches

A window keeps the last `n` entries of a growing list (`List.rtake`): what one
more entry does to it needs only the window, not the whole list. A latch is set
the first time a history has some property (`FirstAt`) and stays set: one more
entry sets it, or leaves it as it was.

In C++ the window is a `deque` from which the oldest entry is popped, and the
latch a flag beside a timestamp. Here both are read off the whole history, which
the code does not keep; the lemmas say that what the code keeps is enough to
update them.
-/

namespace ASNPrefixMap.Lib

variable {A : Type}

/-! ## Windows -/

/-- A window is full, or as long as the history. -/
theorem length_rtake (n : Nat) (xs : List A) : (xs.rtake n).length = min n xs.length := by
  unfold List.rtake
  rw [List.length_drop]
  omega

/-- A history that is no longer than the window is the window. -/
theorem rtake_of_length_le {n : Nat} {xs : List A} (h : xs.length ≤ n) : xs.rtake n = xs := by
  unfold List.rtake
  rw [Nat.sub_eq_zero_of_le h, List.drop_zero]

/-- An entry in front of a full window does not show. -/
theorem rtake_cons_of_le {n : Nat} {xs : List A} (h : n ≤ xs.length) (x : A) :
    (x :: xs).rtake n = xs.rtake n := by
  unfold List.rtake
  have hlen : (x :: xs).length - n = (xs.length - n) + 1 := by
    rw [List.length_cons]
    omega
  rw [hlen, List.drop_succ_cons]

/-- The window after one more entry, from the window before. So the entries that
have left it are never needed again. -/
theorem rtake_rtake_concat (n : Nat) (xs : List A) (x : A) :
    (xs.rtake n ++ [x]).rtake n = (xs ++ [x]).rtake n := by
  cases n with
  | zero => rw [List.rtake_zero, List.rtake_zero]
  | succ n =>
    rw [List.rtake_concat_succ, List.rtake_concat_succ]
    congr 1
    unfold List.rtake
    rw [List.drop_drop, List.length_drop]
    congr 1
    omega

/-! ## Latches -/

/-- The first moment at which a history has a property: its first `n` entries
have it, and no fewer do. -/
structure FirstAt (P : List A → Prop) (log : List A) (n : Nat) : Prop where
  le : n ≤ log.length
  holds : P (log.take n)
  not_before : ∀ m < n, ¬ P (log.take m)

variable {P : List A → Prop} {log : List A} {n m : Nat}

theorem FirstAt.unique (hn : FirstAt P log n) (hm : FirstAt P log m) : n = m := by
  rcases Nat.lt_trichotomy n m with hlt | heq | hgt
  · exact absurd hn.holds (hm.not_before n hlt)
  · exact heq
  · exact absurd hm.holds (hn.not_before m hgt)

/-- A history that has the property at some moment has it at a first one. -/
theorem exists_firstAt (hn : n ≤ log.length) (h : P (log.take n)) :
    ∃ m ≤ n, FirstAt P log m := by
  induction n using Nat.strongRecOn with
  | ind n ih =>
    by_cases hbefore : ∃ m < n, P (log.take m)
    · obtain ⟨m, hm, hholds⟩ := hbefore
      obtain ⟨k, hk, hfirst⟩ := ih m hm (by omega) hholds
      exact ⟨k, by omega, hfirst⟩
    · exact ⟨n, Nat.le_refl n, hn, h, fun m hm hholds => hbefore ⟨m, hm, hholds⟩⟩

/-- Later entries do not change a moment that has passed. -/
theorem firstAt_concat_of_le (hn : n ≤ log.length) (x : A) :
    FirstAt P (log ++ [x]) n ↔ FirstAt P log n := by
  have htake : ∀ m ≤ n, (log ++ [x]).take m = log.take m := fun m hm =>
    List.take_append_of_le_length (Nat.le_trans hm hn)
  constructor
  · intro h
    refine ⟨hn, ?_, fun m hm => ?_⟩
    · rw [← htake n (Nat.le_refl n)]
      exact h.holds
    · rw [← htake m (Nat.le_of_lt hm)]
      exact h.not_before m hm
  · intro h
    refine ⟨?_, ?_, fun m hm => ?_⟩
    · rw [List.length_append]
      omega
    · rw [htake n (Nat.le_refl n)]
      exact h.holds
    · rw [htake m (Nat.le_of_lt hm)]
      exact h.not_before m hm

/-- The last entry is the first moment iff the property holds then and the latch
was open. -/
theorem firstAt_concat_length (x : A) :
    FirstAt P (log ++ [x]) (log ++ [x]).length ↔ P (log ++ [x]) ∧ ∀ m, ¬ FirstAt P log m := by
  have hlen : (log ++ [x]).length = log.length + 1 := by
    rw [List.length_append, List.length_singleton]
  constructor
  · intro h
    refine ⟨?_, fun m hm => ?_⟩
    · have hholds := h.holds
      rwa [List.take_length] at hholds
    · have hle := hm.le
      have heq := h.unique ((firstAt_concat_of_le hle x).mpr hm)
      omega
  · rintro ⟨hholds, hopen⟩
    refine ⟨Nat.le_refl _, ?_, fun m hm hbefore => ?_⟩
    · rwa [List.take_length]
    · have hle : m ≤ log.length := by omega
      rw [List.take_append_of_le_length hle] at hbefore
      obtain ⟨k, -, hfirst⟩ := exists_firstAt hle hbefore
      exact hopen k hfirst

/-- One more entry: the latch was set already, or is set now. This is the law
the flag of the code obeys. -/
theorem exists_firstAt_concat (x : A) :
    (∃ n, FirstAt P (log ++ [x]) n) ↔ (∃ n, FirstAt P log n) ∨ P (log ++ [x]) := by
  constructor
  · rintro ⟨n, hn⟩
    by_cases hle : n ≤ log.length
    · exact Or.inl ⟨n, (firstAt_concat_of_le hle x).mp hn⟩
    · have hlen := hn.le
      rw [List.length_append, List.length_singleton] at hlen
      have hholds := hn.holds
      rw [List.take_of_length_le (by rw [List.length_append, List.length_singleton]; omega)] at hholds
      exact Or.inr hholds
  · rintro (⟨n, hn⟩ | hholds)
    · exact ⟨n, (firstAt_concat_of_le hn.le x).mpr hn⟩
    · rw [← List.take_length (l := log ++ [x])] at hholds
      obtain ⟨m, -, hfirst⟩ := exists_firstAt (Nat.le_refl _) hholds
      exact ⟨m, hfirst⟩

end ASNPrefixMap.Lib
