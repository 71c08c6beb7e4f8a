import ASNPrefixMap.Lib.FiniteMap

/-!
# Grouping values under keys

A map from keys to lists that is filled one pair at a time, each value put at
the end of the list of its key. `lookup_groups` says what it holds: under each
key that occurs the values that came with it, in order, and nothing under any
other. So the groups of a list of pairs, in any order, are the pairs again
(`mem_groups_iff`).

The map is filled the way `map[key].push_back(value)` fills an `unordered_map`
of vectors: an entry is made when its key first comes. Keys meet in the order of
the pairs, but the map does not remember it; only within a group is the order of
the pairs kept.
-/

namespace ASNPrefixMap.Lib

variable {K V : Type} [DecidableEq K]

/-- `map[key].push_back(value)`. -/
def pushBack (m : FiniteMap K (List V)) (key : K) (value : V) : FiniteMap K (List V) :=
  m.insert key ((m.lookup key).getD [] ++ [value])

/-- Some pairs put into a map, one after the other. -/
def pushAll (m : FiniteMap K (List V)) (pairs : List (K × V)) : FiniteMap K (List V) :=
  pairs.foldl (fun m pair => pushBack m pair.1 pair.2) m

/-- The map filled with some pairs, from the empty one. -/
def groups (pairs : List (K × V)) : FiniteMap K (List V) := pushAll ∅ pairs

/-- The values that come with a key, in the order of the pairs. -/
def valuesOf (pairs : List (K × V)) (key : K) : List V :=
  (pairs.filter fun pair => pair.1 = key).map Prod.snd

/-- A value comes with a key iff the pair is there. -/
theorem mem_valuesOf {pairs : List (K × V)} {key : K} {value : V} :
    value ∈ valuesOf pairs key ↔ (key, value) ∈ pairs := by
  unfold valuesOf
  rw [List.mem_map]
  constructor
  · rintro ⟨⟨k, v⟩, hmem, rfl⟩
    obtain ⟨hpair, hkey⟩ := List.mem_filter.mp hmem
    rwa [← (of_decide_eq_true hkey : k = key)]
  · exact fun h => ⟨(key, value), List.mem_filter.mpr ⟨h, decide_eq_true rfl⟩, rfl⟩

/-- The values of one key are some of all values, in their order. -/
theorem valuesOf_sublist (pairs : List (K × V)) (key : K) :
    (valuesOf pairs key).Sublist (pairs.map Prod.snd) := List.filter_sublist.map _

/-- A key that comes once comes with one value. -/
theorem filter_key_eq_singleton {pairs : List (K × V)} (hnodup : (pairs.map Prod.fst).Nodup) {key : K}
    {value : V} (hmem : (key, value) ∈ pairs) :
    pairs.filter (fun pair => pair.1 = key) = [(key, value)] := by
  obtain ⟨before, after, rfl, hbefore, hafter⟩ := exists_split_of_nodup hnodup hmem
  have hnone : ∀ {l : List (K × V)}, (∀ pair ∈ l, pair.1 ≠ key) →
      l.filter (fun pair => pair.1 = key) = [] := by
    intro l hl
    exact List.filter_eq_nil_iff.mpr fun pair hpair heq => hl pair hpair (of_decide_eq_true heq)
  rw [List.filter_append, List.filter_cons, if_pos (decide_eq_true rfl), hnone hbefore, hnone hafter,
    List.nil_append]

theorem pushAll_append (m : FiniteMap K (List V)) (pairs₁ pairs₂ : List (K × V)) :
    pushAll m (pairs₁ ++ pairs₂) = pushAll (pushAll m pairs₁) pairs₂ := List.foldl_append

/-- What a map holds after some pairs: under each key what it held before, and
behind it the values that came with the key. The induction is on the pairs, over
every map they may be put into. -/
theorem lookup_pushAll (key : K) : ∀ (pairs : List (K × V)) (m : FiniteMap K (List V)),
    (pushAll m pairs).lookup key =
      if valuesOf pairs key = [] then m.lookup key
      else some ((m.lookup key).getD [] ++ valuesOf pairs key) := by
  intro pairs
  induction pairs with
  | nil => exact fun _ => rfl
  | cons pair pairs ih =>
    intro m
    have hstep : pushAll m (pair :: pairs) = pushAll (pushBack m pair.1 pair.2) pairs := rfl
    rw [hstep, ih, pushBack, lookup_insert_eq]
    by_cases hkey : key = pair.1
    · -- the value goes in front of those that follow it
      have hvalues : valuesOf (pair :: pairs) key = pair.2 :: valuesOf pairs key := by
        unfold valuesOf
        rw [List.filter_cons, if_pos (decide_eq_true hkey.symm), List.map_cons]
      rw [if_pos hkey, hvalues, if_neg (List.cons_ne_nil _ _), ← hkey]
      split
      next hnil => rw [hnil]
      next => rw [Option.getD_some, List.append_assoc, List.singleton_append]
    · have hvalues : valuesOf (pair :: pairs) key = valuesOf pairs key := by
        unfold valuesOf
        rw [List.filter_cons, if_neg fun h => hkey (of_decide_eq_true h).symm]
      rw [if_neg hkey, hvalues]

/-- **What the groups are.** Under each key that occurs stand the values that
came with it, in order, and under any other key there is nothing. -/
theorem lookup_groups (pairs : List (K × V)) (key : K) :
    (groups pairs).lookup key =
      if valuesOf pairs key = [] then none else some (valuesOf pairs key) := by
  unfold groups
  rw [lookup_pushAll, Finmap.lookup_empty, Option.getD_none, List.nil_append]

/-- A group that is found is that of its key, and it is not empty. -/
theorem lookup_groups_eq_some {pairs : List (K × V)} {key : K} {values : List V} :
    (groups pairs).lookup key = some values ↔ values = valuesOf pairs key ∧ values ≠ [] := by
  rw [lookup_groups]
  split
  next hnil =>
    exact ⟨fun h => (nomatch h), fun ⟨heq, hne⟩ => absurd (heq.trans hnil) hne⟩
  next hne =>
    constructor
    · intro h
      obtain rfl := Option.some.inj h
      exact ⟨rfl, hne⟩
    · rintro ⟨rfl, -⟩
      rfl

/-- Listing the groups gives the pairs again, in whatever order the keys are
met. -/
theorem mem_groups_iff {pairs : List (K × V)} {l : List (K × List V)} (h : Listing (groups pairs) l)
    (key : K) (value : V) :
    (key, value) ∈ pairs ↔ ∃ row ∈ l, row.1 = key ∧ value ∈ row.2 := by
  constructor
  · intro hmem
    have hvalue := mem_valuesOf.mpr hmem
    refine ⟨(key, valuesOf pairs key), ?_, rfl, hvalue⟩
    rw [h.mem_iff, lookup_groups_eq_some]
    exact ⟨rfl, List.ne_nil_of_mem hvalue⟩
  · rintro ⟨⟨k, values⟩, hmem, rfl, hvalue⟩
    rw [h.mem_iff, lookup_groups_eq_some] at hmem
    rw [hmem.1] at hvalue
    exact mem_valuesOf.mp hvalue

end ASNPrefixMap.Lib
