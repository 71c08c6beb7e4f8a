import Mathlib.Data.List.Perm.Basic
import Mathlib.Data.List.Perm.Subperm
import Mathlib.Data.List.Zip
import Mathlib.Data.List.Nodup

/-!
# Packed arrays

Removal from a packed array moves the last element into the hole and drops the
tail: `swapRemove`. It is `eraseIdx` up to the order of what remains
(`swapRemove_perm`). Two arrays that are kept in parallel can be read as one
array of pairs: writing, appending and removing at the same position in both is
the same operation on their `zip` (`zip_set`, `zip_concat`, `zip_swapRemove`),
so no pair is ever torn apart.

In C++ the removal is `v[i] = v.back(); v.pop_back();`, made in each of the
parallel vectors. That the element at `i` may be the last one is an explicit
test in the source and in `swapRemove`. The last part is about arrays whose
entries have keys: with distinct keys, looking one up does not depend on the
order a swap removal has disturbed.
-/

namespace ASNPrefixMap.Lib

variable {α β : Type}

/-- Overwrite position `i` with the last element (unless it is the last) and
drop the tail. The other elements stay where they are. -/
def swapRemove (l : List α) (i : Nat) : List α :=
  let last := l.length - 1
  let moved := if i ≠ last then
      match l[last]? with
      | some x => l.set i x
      | none => l
    else l
  moved.dropLast

/-- A position before the last takes the last element. -/
theorem swapRemove_concat_lt {l : List α} {i : Nat} (h : i < l.length) (x : α) :
    swapRemove (l ++ [x]) i = l.set i x := by
  have hlen : (l ++ [x]).length - 1 = l.length := by simp
  rw [swapRemove, hlen]
  simp only [List.getElem?_concat_length, ne_eq]
  rw [if_pos (Nat.ne_of_lt h), List.set_append, if_pos h, List.dropLast_concat]

theorem swapRemove_concat_self (l : List α) (x : α) : swapRemove (l ++ [x]) l.length = l := by
  have hlen : (l ++ [x]).length - 1 = l.length := by simp
  rw [swapRemove, hlen]
  simp only [ne_eq, not_true_eq_false, if_false]
  rw [List.dropLast_concat]

/-- Splitting off the last element of a list that has a position `i`. -/
theorem exists_concat_of_lt {l : List α} {i : Nat} (h : i < l.length) :
    ∃ front x, l = front ++ [x] ∧ i ≤ front.length := by
  have hne : l ≠ [] := by
    intro hnil
    rw [hnil] at h
    exact absurd h (Nat.not_lt_zero i)
  refine ⟨l.dropLast, l.getLast hne, (List.dropLast_append_getLast hne).symm, ?_⟩
  rw [List.length_dropLast]
  omega

/-- Up to order, a swap removal removes exactly the element at `i`. This is the
lemma that makes the order of the array immaterial. -/
theorem swapRemove_perm {l : List α} {i : Nat} (h : i < l.length) :
    (swapRemove l i).Perm (l.eraseIdx i) := by
  obtain ⟨front, x, rfl, hi⟩ := exists_concat_of_lt h
  rcases Nat.lt_or_eq_of_le hi with hlt | rfl
  · rw [swapRemove_concat_lt hlt, List.eraseIdx_append_of_lt_length hlt]
    refine (List.set_perm_cons_eraseIdx hlt x).trans ?_
    exact (List.perm_append_singleton x _).symm
  · rw [swapRemove_concat_self, List.eraseIdx_append_of_length_le (Nat.le_refl _), Nat.sub_self]
    simp

theorem length_swapRemove {l : List α} {i : Nat} (h : i < l.length) :
    (swapRemove l i).length = l.length - 1 := by
  rw [(swapRemove_perm h).length_eq, List.length_eraseIdx_of_lt h]

/-- A list is the element at `i` and the rest, up to order. -/
theorem perm_cons_eraseIdx {l : List α} {i : Nat} (h : i < l.length) :
    l.Perm (l[i] :: l.eraseIdx i) :=
  (List.getElem_cons_eraseIdx_perm h).symm

/-! ## Parallel arrays -/

/-- Writing at one position of both arrays writes one pair. -/
theorem zip_set : ∀ (l : List α) (l' : List β) (i : Nat) (a : α) (b : β),
    (l.set i a).zip (l'.set i b) = (l.zip l').set i (a, b) := by
  intro l
  induction l with
  | nil => intro l' i a b; rfl
  | cons x l ih =>
    intro l' i a b
    cases l' with
    | nil =>
      rw [List.set_nil, List.zip_nil_right, List.zip_nil_right, List.set_nil]
    | cons y l' =>
      cases i with
      | zero => rfl
      | succ i =>
        rw [List.set_cons_succ, List.set_cons_succ, List.zip_cons_cons, List.zip_cons_cons,
          List.set_cons_succ, ih]

theorem zip_concat {l : List α} {l' : List β} (h : l.length = l'.length) (a : α) (b : β) :
    (l ++ [a]).zip (l' ++ [b]) = l.zip l' ++ [(a, b)] := by
  rw [List.zip_append h]
  rfl

/-- Swap removal at one position of both arrays removes one pair: none is torn
apart. -/
theorem zip_swapRemove {l : List α} {l' : List β} (hlen : l.length = l'.length) {i : Nat}
    (h : i < l.length) :
    (swapRemove l i).zip (swapRemove l' i) = swapRemove (l.zip l') i := by
  obtain ⟨front, x, rfl, hi⟩ := exists_concat_of_lt h
  obtain ⟨front', x', rfl, hi'⟩ := exists_concat_of_lt (hlen ▸ h)
  have hlen' : front.length = front'.length := by simpa using hlen
  have hzip : (front.zip front').length = front.length := by
    rw [List.length_zip, ← hlen', Nat.min_self]
  rw [zip_concat hlen']
  rcases Nat.lt_or_eq_of_le hi with hlt | heq
  · rw [swapRemove_concat_lt hlt, swapRemove_concat_lt (hlen' ▸ hlt),
      swapRemove_concat_lt (hzip.symm ▸ hlt), zip_set]
  · subst heq
    rw [swapRemove_concat_self]
    conv_lhs => rw [hlen', swapRemove_concat_self]
    conv_rhs => rw [← hzip, swapRemove_concat_self]

/-! ## Keyed entries -/

section Keyed

variable {K : Type} [DecidableEq K] {key : α → K}

/-- The entry with key `k`, the first one if there are several. -/
def lookupKey (key : α → K) (k : K) (l : List α) : Option α := l.find? fun x => key x = k

theorem lookupKey_cons (k : K) (x : α) (l : List α) :
    lookupKey key k (x :: l) = if key x = k then some x else lookupKey key k l := by
  rw [lookupKey, List.find?_cons]
  by_cases h : key x = k
  · rw [if_pos h, decide_eq_true h]
  · rw [if_neg h, decide_eq_false h]
    rfl

/-- A key that no entry has is not found. -/
theorem lookupKey_eq_none {k : K} {l : List α} (h : k ∉ l.map key) : lookupKey key k l = none := by
  rw [lookupKey, List.find?_eq_none]
  intro x hx hk
  exact h (List.mem_map.mpr ⟨x, hx, of_decide_eq_true hk⟩)

/-- With distinct keys, looking up is being a member with that key. -/
theorem lookupKey_eq_some_iff {l : List α} (hnd : (l.map key).Nodup) {k : K} {x : α} :
    lookupKey key k l = some x ↔ x ∈ l ∧ key x = k := by
  constructor
  · intro h
    exact ⟨List.mem_of_find?_eq_some h, of_decide_eq_true (List.find?_some h :)⟩
  · rintro ⟨hx, hk⟩
    cases hf : lookupKey key k l with
    | none =>
      rw [lookupKey, List.find?_eq_none] at hf
      exact absurd (decide_eq_true hk) (hf x hx)
    | some y =>
      have hy := List.mem_of_find?_eq_some hf
      have hyk : key y = k := of_decide_eq_true (List.find?_some hf :)
      rw [List.inj_on_of_nodup_map hnd hy hx (hyk.trans hk.symm)]

/-- With distinct keys, the order of the entries does not matter. So a swap
removal, which disturbs it, can be read as a removal. -/
theorem lookupKey_perm {l₁ l₂ : List α} (h : l₁.Perm l₂) (hnd : (l₁.map key).Nodup) (k : K) :
    lookupKey key k l₁ = lookupKey key k l₂ := by
  have hnd₂ : (l₂.map key).Nodup := (h.map key).nodup_iff.mp hnd
  ext x
  rw [lookupKey_eq_some_iff hnd, lookupKey_eq_some_iff hnd₂, h.mem_iff]

/-- Appending an entry under a fresh key. -/
theorem lookupKey_concat {l : List α} {x : α} (hnd : ((l ++ [x]).map key).Nodup) (k : K) :
    lookupKey key k (l ++ [x]) = if key x = k then some x else lookupKey key k l := by
  rw [lookupKey_perm (List.perm_append_singleton x l) hnd, lookupKey_cons]

/-- Overwriting the entry at `i` with one of the same key. -/
theorem lookupKey_set {l : List α} {i : Nat} (hi : i < l.length) {x : α} (hx : key x = key l[i])
    (hnd : (l.map key).Nodup) (k : K) :
    lookupKey key k (l.set i x) = if key x = k then some x else lookupKey key k l := by
  have hsplit := perm_cons_eraseIdx hi
  have hset : (l.set i x).Perm (x :: l.eraseIdx i) := List.set_perm_cons_eraseIdx hi x
  have hnd₁ : ((l[i] :: l.eraseIdx i).map key).Nodup := (hsplit.map key).nodup_iff.mp hnd
  have hnd₂ : ((l.set i x).map key).Nodup := by
    refine (hset.map key).nodup_iff.mpr ?_
    rw [List.map_cons, hx]
    exact hnd₁
  rw [lookupKey_perm hset hnd₂, lookupKey_cons, lookupKey_perm hsplit hnd, lookupKey_cons, hx]
  split <;> rfl

/-- Removing the entry at `i` removes its key and no other. -/
theorem lookupKey_swapRemove {l : List α} {i : Nat} (hi : i < l.length)
    (hnd : (l.map key).Nodup) (k : K) :
    lookupKey key k (swapRemove l i) = if key l[i] = k then none else lookupKey key k l := by
  have hsplit := perm_cons_eraseIdx hi
  have hnd₁ : ((l[i] :: l.eraseIdx i).map key).Nodup := (hsplit.map key).nodup_iff.mp hnd
  obtain ⟨hfresh, hrest⟩ := List.nodup_cons.mp hnd₁
  have hnd₂ : ((swapRemove l i).map key).Nodup :=
    ((swapRemove_perm hi).map key).nodup_iff.mpr hrest
  rw [lookupKey_perm (swapRemove_perm hi) hnd₂, lookupKey_perm hsplit hnd, lookupKey_cons]
  split
  next h =>
    rw [← h]
    exact lookupKey_eq_none hfresh
  next => rfl

end Keyed

end ASNPrefixMap.Lib
