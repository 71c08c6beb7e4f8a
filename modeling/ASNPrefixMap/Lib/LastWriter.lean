import ASNPrefixMap.Lib.FiniteMap
import Mathlib.Data.List.Induction
import Mathlib.Logic.Function.Basic

/-!
# Last-writer-wins maps

A map whose entries are set and deleted one key at a time: an entry is what the
last write to its key left. `applyWrites_eq` says so, `applyWrites_congr` draws
the consequence that two histories with the same writes to each key, in the same
order for each key but interleaved in any way, leave the same map. When no key
is written twice the order does not matter at all (`applyWrites_of_mem`,
`applyWrites_of_notMem`).

The map is a function, as an abstract map is: there is nothing about how it is
stored. A removal is a write of `none`, so that setting and deleting obey one
law. Reading is not an operation here; a program that reads before it writes is
related to such a map only if what it reads does not decide what it writes.
-/

namespace ASNPrefixMap.Lib

variable {K V : Type} [DecidableEq K]

/-- A write: a new value for a key, or `none` to delete it. A history is a list
of them, the latest at its end. -/
structure Write (K V : Type) where
  key : K
  value : Option V

/-- What one write makes of a map: the entry of its key, and no other. -/
def applyWrite (m : K → Option V) (w : Write K V) : K → Option V :=
  Function.update m w.key w.value

/-- What some writes make of a map, one after the other. -/
def applyWrites (m : K → Option V) (ws : List (Write K V)) : K → Option V :=
  ws.foldl applyWrite m

theorem applyWrite_apply (m : K → Option V) (w : Write K V) (k : K) :
    applyWrite m w k = if k = w.key then w.value else m k := by
  rw [applyWrite, Function.update_apply]

/-- Writing on is applying the rest of the writes to what was reached. -/
theorem applyWrites_append (m : K → Option V) (ws ws' : List (Write K V)) :
    applyWrites m (ws ++ ws') = applyWrites (applyWrites m ws) ws' :=
  List.foldl_append

theorem applyWrites_singleton (m : K → Option V) (w : Write K V) :
    applyWrites m [w] = applyWrite m w := rfl

/-- The writes to one key, in their order. -/
def writesTo (k : K) (ws : List (Write K V)) : List (Write K V) := ws.filter fun w => w.key = k

/-- An entry is the value of the last write to its key, and what it was before
if there is none. -/
theorem applyWrites_eq (k : K) : ∀ (ws : List (Write K V)) (m : K → Option V),
    applyWrites m ws k =
      match (writesTo k ws).getLast? with
      | some w => w.value
      | none => m k := by
  intro ws
  induction ws using List.reverseRecOn with
  | nil => exact fun _ => rfl
  | append_singleton ws w ih =>
    intro m
    rw [applyWrites_append, applyWrites_singleton, applyWrite_apply, writesTo, List.filter_append]
    by_cases h : w.key = k
    · rw [if_pos h.symm, List.filter_cons_of_pos (by simpa using h), List.filter_nil,
        List.getLast?_concat]
    · rw [if_neg fun e => h e.symm, List.filter_cons_of_neg (by simpa using h), List.filter_nil,
        List.append_nil, ih]
      rfl

/-- The interleaving of writes to different keys does not matter: only the order
of the writes to each single key does. -/
theorem applyWrites_congr {ws₁ ws₂ : List (Write K V)}
    (h : ∀ k, writesTo k ws₁ = writesTo k ws₂) (m : K → Option V) :
    applyWrites m ws₁ = applyWrites m ws₂ := by
  funext k
  rw [applyWrites_eq, applyWrites_eq, h k]

/-- An entry whose key is not written stays. -/
theorem applyWrites_of_notMem {k : K} {ws : List (Write K V)} (h : ∀ w ∈ ws, w.key ≠ k)
    (m : K → Option V) : applyWrites m ws k = m k := by
  have hnone : writesTo k ws = [] := by
    unfold writesTo
    rw [List.filter_eq_nil_iff]
    intro w hw heq
    exact h w hw (of_decide_eq_true heq)
  rw [applyWrites_eq, hnone]
  rfl

/-- A key that is written once holds what was written, wherever in the history
the write stands. -/
theorem applyWrites_of_mem {ws : List (Write K V)} (hnodup : (ws.map Write.key).Nodup)
    {w : Write K V} (hw : w ∈ ws) (m : K → Option V) : applyWrites m ws w.key = w.value := by
  obtain ⟨before, after, rfl, -, hafter⟩ := exists_split_of_nodup hnodup hw
  rw [applyWrites_append]
  show applyWrites (applyWrite _ w) after w.key = w.value
  rw [applyWrites_of_notMem hafter, applyWrite_apply, if_pos rfl]

/-- When no key is written twice, the entries of the map are the writes. -/
theorem applyWrites_eq_some_iff {ws : List (Write K V)} (hnodup : (ws.map Write.key).Nodup)
    {k : K} {v : V} :
    applyWrites (fun _ => none) ws k = some v ↔ (⟨k, some v⟩ : Write K V) ∈ ws := by
  constructor
  · intro h
    by_cases hw : ∃ w ∈ ws, w.key = k
    · obtain ⟨⟨k', value⟩, hw, rfl⟩ := hw
      rw [applyWrites_of_mem hnodup hw] at h
      exact h ▸ hw
    · rw [applyWrites_of_notMem fun w hmem hk => hw ⟨w, hmem, hk⟩] at h
      cases h
  · intro hw
    exact applyWrites_of_mem hnodup hw _

end ASNPrefixMap.Lib
