import Mathlib.Data.List.Perm.Basic

/-!
# Scanning a list for its best element

The loop `for x in l: if better(x, best) then best := x`, over an arbitrary
strict preference. `scanBest_spec` says what it returns (an element, or the
initial value, that nothing scanned beats), `scanBest_unique` that this
describes it completely, and `scanBest_perm` that the order of the scan does not
matter, which is what makes the loop meaningful over a hash map.

The preference is a function that is asked about two elements at a time, as a
loop in C++ asks; no order on the type is assumed. A preference that does not
rank two different elements would make the result depend on the order they are
met in, so `StrictPreference` excludes it.
-/

namespace ASNPrefixMap.Lib

variable {α : Type} {better : α → α → Bool}

/-- `better` is a strict linear preference: nothing is better than itself, it is
transitive, and any two different elements are ranked. -/
structure StrictPreference (better : α → α → Bool) : Prop where
  irrefl : ∀ a, better a a = false
  trans : ∀ {a b c}, better a b = true → better b c = true → better a c = true
  connected : ∀ {a b}, a ≠ b → better a b = true ∨ better b a = true

/-- Keep the best element met so far. An element replaces it only if it is
strictly better. -/
def scanBest (better : α → α → Bool) (init : α) (l : List α) : α :=
  l.foldl (fun best x => if better x best then x else best) init

/-- The scan goes on with the better of the first two. -/
theorem scanBest_cons (init x : α) (l : List α) :
    scanBest better init (x :: l) = scanBest better (if better x init then x else init) l := rfl

/-- The scan returns the initial value or one of the elements. -/
theorem scanBest_mem : ∀ (l : List α) (init : α), scanBest better init l ∈ init :: l := by
  intro l
  induction l with
  | nil => exact fun init => List.mem_cons_self
  | cons x l ih =>
    intro init
    rw [scanBest_cons]
    have h := ih (if better x init then x else init)
    split at h
    next hx =>
      rw [if_pos hx]
      exact List.mem_cons_of_mem _ h
    next hx =>
      rw [if_neg hx]
      rcases List.mem_cons.mp h with h | h
      · rw [h]
        exact List.mem_cons_self
      · exact List.mem_cons_of_mem _ (List.mem_cons_of_mem _ h)

/-- What the current best is not beaten by, a better one is not beaten by
either. -/
theorem StrictPreference.not_better_of_better (hp : StrictPreference better) {x a b : α}
    (hxa : better x a = false) (hba : better b a = true) : better x b = false := by
  by_contra h
  rw [Bool.not_eq_false] at h
  rw [hp.trans h hba] at hxa
  exact Bool.noConfusion hxa

/-- Nothing scanned beats the result, and neither does anything the initial
value held off. -/
theorem scanBest_unbeaten (hp : StrictPreference better) :
    ∀ (l : List α) (init x : α), better x init = false ∨ x ∈ l →
      better x (scanBest better init l) = false := by
  intro l
  induction l with
  | nil =>
    intro init x h
    exact h.resolve_right List.not_mem_nil
  | cons y l ih =>
    intro init x h
    rw [scanBest_cons]
    by_cases hy : better y init = true
    · -- `y` takes over, and holds off what `init` held off
      rw [if_pos hy]
      apply ih
      rcases h with h | h
      · exact Or.inl (hp.not_better_of_better h hy)
      · rcases List.mem_cons.mp h with rfl | h
        · exact Or.inl (hp.irrefl x)
        · exact Or.inr h
    · rw [if_neg hy]
      apply ih
      rcases h with h | h
      · exact Or.inl h
      · rcases List.mem_cons.mp h with rfl | h
        · exact Or.inl (Bool.not_eq_true _ ▸ hy)
        · exact Or.inr h

/-- The scan returns one of the candidates, and no candidate beats it. -/
theorem scanBest_spec (hp : StrictPreference better) (init : α) (l : List α) :
    scanBest better init l ∈ init :: l ∧
      ∀ x ∈ init :: l, better x (scanBest better init l) = false := by
  refine ⟨scanBest_mem l init, ?_⟩
  intro x hx
  rcases List.mem_cons.mp hx with rfl | hx
  · exact scanBest_unbeaten hp l x x (Or.inl (hp.irrefl x))
  · exact scanBest_unbeaten hp l init x (Or.inr hx)

/-- An unbeaten candidate is the result. -/
theorem scanBest_unique (hp : StrictPreference better) {init r : α} {l : List α}
    (hr : r ∈ init :: l) (hmax : ∀ x ∈ init :: l, better x r = false) :
    scanBest better init l = r := by
  obtain ⟨hmem, hunb⟩ := scanBest_spec hp init l
  by_contra hne
  rcases hp.connected hne with h | h
  · rw [hmax _ hmem] at h
    exact Bool.noConfusion h
  · rw [hunb _ hr] at h
    exact Bool.noConfusion h

/-- The order of the scan does not matter, so the loop means the same over every
iteration order of a hash map. -/
theorem scanBest_perm (hp : StrictPreference better) (init : α) {l₁ l₂ : List α}
    (h : l₁.Perm l₂) : scanBest better init l₁ = scanBest better init l₂ := by
  obtain ⟨hmem, hunb⟩ := scanBest_spec hp init l₂
  have hcons : (init :: l₁).Perm (init :: l₂) := h.cons init
  apply scanBest_unique hp
  · exact hcons.mem_iff.mpr hmem
  · exact fun x hx => hunb x (hcons.mem_iff.mp hx)

end ASNPrefixMap.Lib
