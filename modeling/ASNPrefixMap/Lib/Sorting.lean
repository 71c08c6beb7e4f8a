import ASNPrefixMap.Lib.Scan
import Mathlib.Data.List.Sort
import Mathlib.Logic.Function.Basic

/-!
# Sorting by a strict preference

A sort by a preference that ranks any two different elements has one result:
whatever order the elements come in, and whatever the sort does with elements it
takes for equal (`sortBy_perm`, `sortBy_unique`). Such preferences are built
from the orders of the fields: `strictPreference_lt` for one field,
`StrictPreference.lex` for two of them, the second of which decides where the
first sees no difference, and `StrictPreference.comap` for the record they are
the fields of.

`std::sort` needs a strict weak order and is not stable; what it does with
elements it takes for equal is up to the library. None of it matters for a
preference that ranks any two different elements, so the model may use an
insertion sort (`sortBy_unique`).
-/

namespace ASNPrefixMap.Lib

variable {α β : Type}

/-! ## Building preferences -/

theorem strictPreference_lt [LT α] [LE α] [DecidableLT α] [Std.IsLinearOrder α]
    [Std.LawfulOrderLT α] : StrictPreference fun a b : α => decide (a < b) where
  irrefl _ := decide_eq_false Std.lt_irrefl
  trans hab hbc := decide_eq_true (Std.lt_trans (of_decide_eq_true hab) (of_decide_eq_true hbc))
  connected {a b} hne := by
    by_contra h
    rw [not_or, decide_eq_true_eq, decide_eq_true_eq, Std.not_lt, Std.not_lt] at h
    exact hne (Std.le_antisymm h.2 h.1)

/-- An increasing list is known by its elements: it has no repetitions, and they
stand in one order. -/
theorem increasing_unique [LT α] [LE α] [DecidableLT α] [Std.IsLinearOrder α] [Std.LawfulOrderLT α]
    {l₁ l₂ : List α} (h₁ : l₁.Pairwise (· < ·)) (h₂ : l₂.Pairwise (· < ·))
    (h : ∀ a, a ∈ l₁ ↔ a ∈ l₂) : l₁ = l₂ := by
  have hnodup : ∀ {l : List α}, l.Pairwise (· < ·) → l.Nodup := by
    intro l hl
    refine hl.imp fun {a b} hab heq => ?_
    rw [heq] at hab
    exact Std.lt_irrefl hab
  refine List.Perm.eq_of_pairwise (fun a b _ _ hab hba => absurd (Std.lt_trans hab hba) Std.lt_irrefl)
    h₁ h₂ ?_
  exact (List.perm_ext_iff_of_nodup (hnodup h₁) (hnodup h₂)).mpr h

/-- A preference of the fields is one of the records, if the fields tell the
records apart. -/
theorem StrictPreference.comap {better : β → β → Bool} (h : StrictPreference better) {key : α → β}
    (hkey : Function.Injective key) : StrictPreference fun a b => better (key a) (key b) where
  irrefl a := h.irrefl (key a)
  trans hab hbc := h.trans hab hbc
  connected hne := h.connected (hkey.ne hne)

/-- By the first component, and by the second where the first is the same. -/
def lexBetter [DecidableEq α] (better : α → α → Bool) (better' : β → β → Bool) (a b : α × β) : Bool :=
  if a.1 ≠ b.1 then better a.1 b.1 else better' a.2 b.2

/-- What is better in the lexicographic order: in the first component, or in the
second where the first is the same. -/
theorem lexBetter_eq_true [DecidableEq α] {better : α → α → Bool} {better' : β → β → Bool}
    (h : StrictPreference better) {a b : α × β} :
    lexBetter better better' a b = true ↔
      better a.1 b.1 = true ∨ (a.1 = b.1 ∧ better' a.2 b.2 = true) := by
  unfold lexBetter
  by_cases hab : a.1 = b.1
  · rw [if_neg (not_not.mpr hab), hab, h.irrefl]
    simp
  · rw [if_pos hab]
    simp [hab]

/-- Two preferences, the second of which decides where the first sees no
difference, are one. -/
theorem StrictPreference.lex [DecidableEq α] {better : α → α → Bool} {better' : β → β → Bool}
    (h : StrictPreference better) (h' : StrictPreference better') :
    StrictPreference (lexBetter better better') where
  irrefl a := by
    rw [lexBetter, if_neg (not_not.mpr rfl)]
    exact h'.irrefl a.2
  trans {a b c} hab hbc := by
    rw [lexBetter_eq_true h] at hab hbc ⊢
    rcases hab with hab | ⟨hab, hab'⟩
    · rcases hbc with hbc | ⟨hbc, -⟩
      · exact Or.inl (h.trans hab hbc)
      · exact Or.inl (hbc ▸ hab)
    · rcases hbc with hbc | ⟨hbc, hbc'⟩
      · exact Or.inl (hab ▸ hbc)
      · exact Or.inr ⟨hab.trans hbc, h'.trans hab' hbc'⟩
  connected {a b} hne := by
    rw [lexBetter_eq_true h, lexBetter_eq_true h]
    by_cases hfst : a.1 = b.1
    · have hsnd : a.2 ≠ b.2 := fun e => hne (Prod.ext hfst e)
      exact (h'.connected hsnd).imp (fun hb => Or.inr ⟨hfst, hb⟩) fun hb => Or.inr ⟨hfst.symm, hb⟩
    · exact (h.connected hfst).imp Or.inl Or.inl

/-! ## Sorting -/

variable {better : α → α → Bool}

/-- What a sort by `better` leaves: no element is beaten by a later one.
Elements it takes for equal may stand in any order. -/
def SortedBy (better : α → α → Bool) (l : List α) : Prop :=
  l.Pairwise fun left right => better right left = false

/-- A sorted list of the elements is the only one, because no two different
elements are taken for equal. -/
theorem sortBy_unique (hp : StrictPreference better) {l₁ l₂ : List α} (h₁ : SortedBy better l₁)
    (h₂ : SortedBy better l₂) (h : l₁.Perm l₂) : l₁ = l₂ := by
  refine List.Perm.eq_of_pairwise ?_ h₁ h₂ h
  intro a b _ _ hab hba
  by_contra hne
  rcases hp.connected hne with hlt | hlt
  · rw [hlt] at hba
    cases hba
  · rw [hlt] at hab
    cases hab

theorem sortedBy_insertionSort (hp : StrictPreference better) (l : List α) :
    SortedBy better (l.insertionSort fun left right => better right left = false) := by
  have htotal : Std.Total fun left right => better right left = false := by
    refine ⟨fun a b => ?_⟩
    by_contra h
    rw [not_or, Bool.not_eq_false, Bool.not_eq_false] at h
    have hself := hp.trans h.1 h.2
    rw [hp.irrefl] at hself
    cases hself
  have htrans : IsTrans α fun left right => better right left = false := by
    refine ⟨fun a b c hab hbc => ?_⟩
    by_contra hac
    rw [Bool.not_eq_false] at hac
    -- `b` would be before `a` or the same, and both are excluded
    by_cases hab' : a = b
    · rw [hab', hbc] at hac
      cases hac
    · rcases hp.connected hab' with hlt | hlt
      · rw [hp.trans hac hlt] at hbc
        cases hbc
      · rw [hlt] at hab
        cases hab
  exact List.pairwise_insertionSort _ l

/-- Without repetitions every element is before all later ones. -/
theorem SortedBy.strict (hp : StrictPreference better) {l : List α} (h : SortedBy better l)
    (hnodup : l.Nodup) : l.Pairwise fun left right => better left right = true := by
  refine (List.Pairwise.and h hnodup).imp fun {a b} hab => ?_
  refine (hp.connected hab.2).resolve_right fun hba => ?_
  rw [hab.1] at hba
  cases hba

/-- The order the elements come in does not matter. A sorted file does not show
in which order a hash map was walked. -/
theorem sortBy_perm (hp : StrictPreference better) {l₁ l₂ : List α} (h : l₁.Perm l₂) :
    l₁.insertionSort (fun left right => better right left = false) =
      l₂.insertionSort fun left right => better right left = false :=
  sortBy_unique hp (sortedBy_insertionSort hp l₁) (sortedBy_insertionSort hp l₂)
    (((List.perm_insertionSort _ l₁).trans h).trans (List.perm_insertionSort _ l₂).symm)

end ASNPrefixMap.Lib
