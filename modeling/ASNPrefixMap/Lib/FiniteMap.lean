import Mathlib.Data.Finmap
import Mathlib.Data.List.Sort

/-!
# Finite maps and their iteration orders

A hash map is seen through its contents: a `Finmap`, whose equality is "the same
value at every key". What a `Finmap` leaves out, the order in which a
range-based loop meets the entries, is a value of its own here:

* `Listing m l`: the list `l` visits every entry of `m` exactly once;
* `IterOrder K V`: a choice of a listing for every map. Code that loops over a
  hash map takes one as an argument, so that a theorem about it which quantifies
  over the order holds for every bucket layout.

`IterOrder.byKey` is a computable order (ascending in a numeric key), for
running examples. `lookup_insert_eq` and `lookup_erase_eq` are the
read-over-write equations the rest of the development rewrites with.

Buckets, load factors and rehashing have no counterpart: they show only through
the iteration order. Nothing is assumed of an order but that it is a listing, so
it may differ from map to map and need not depend on the contents in any regular
way. A C++ iterator that is kept over a change of the map has no counterpart
either; the source keeps none.
-/

namespace ASNPrefixMap.Lib

/-- An element of a list without two equal keys stands between elements with
other keys. -/
theorem exists_split_of_nodup {A B : Type} {key : A → B} {l : List A} (hnodup : (l.map key).Nodup)
    {a : A} (ha : a ∈ l) :
    ∃ before after, l = before ++ a :: after ∧ (∀ x ∈ before, key x ≠ key a) ∧
      ∀ x ∈ after, key x ≠ key a := by
  obtain ⟨before, after, rfl⟩ := List.append_of_mem ha
  rw [List.map_append, List.map_cons] at hnodup
  obtain ⟨-, htail, hapart⟩ := List.nodup_append.mp hnodup
  refine ⟨before, after, rfl, fun x hx => ?_, fun x hx heq => ?_⟩
  · exact hapart (key x) (List.mem_map_of_mem hx) (key a) List.mem_cons_self
  · have hkey := List.mem_map_of_mem (f := key) hx
    rw [heq] at hkey
    exact (List.nodup_cons.mp htail).1 hkey

/-- The contents of a hash map from `K` to `V`: which keys it has, and one value
for each. -/
abbrev FiniteMap (K V : Type) := Finmap fun _ : K => V

variable {K V : Type}

/-- `l` meets every entry of `m` exactly once, and nothing else. This is all
that a range-based loop over a hash map promises. -/
structure Listing [DecidableEq K] (m : FiniteMap K V) (l : List (K × V)) : Prop where
  nodup : (l.map Prod.fst).Nodup
  mem_iff : ∀ k v, (k, v) ∈ l ↔ m.lookup k = some v

/-- An iteration order: for every map, the list of entries a loop over it meets.
Two maps with equal contents are one map here, so an order is a function of the
contents; code that meets one map twice in two orders takes two of them. -/
structure IterOrder (K V : Type) [DecidableEq K] where
  entries : FiniteMap K V → List (K × V)
  listing : ∀ m, Listing m (entries m)

variable [DecidableEq K]

/-! ## Reading after a write -/

/-- Reading after a write, at the key written and at any other. -/
theorem lookup_insert_eq (m : FiniteMap K V) (k k' : K) (v : V) :
    (m.insert k v).lookup k' = if k' = k then some v else m.lookup k' := by
  by_cases h : k' = k
  · subst h
    rw [if_pos rfl, Finmap.lookup_insert]
  · rw [if_neg h, Finmap.lookup_insert_of_ne _ h]

/-- Reading after a removal, at the key removed and at any other. -/
theorem lookup_erase_eq (m : FiniteMap K V) (k k' : K) :
    (m.erase k).lookup k' = if k' = k then none else m.lookup k' := by
  by_cases h : k' = k
  · subst h
    rw [if_pos rfl, Finmap.lookup_erase]
  · rw [if_neg h, Finmap.lookup_erase_ne h]

/-- A write adds its key, if it is new. -/
theorem keys_insert (m : FiniteMap K V) (k : K) (v : V) :
    (m.insert k v).keys = insert k m.keys := by
  ext k'
  rw [Finmap.mem_keys, Finmap.mem_insert, Finset.mem_insert, Finmap.mem_keys]

/-- A key is one at which a value is found. -/
theorem mem_keys_iff (m : FiniteMap K V) (k : K) : k ∈ m.keys ↔ (m.lookup k).isSome := by
  rw [Finmap.mem_keys, Finmap.lookup_isSome]

/-- Writing back the value a key already holds changes nothing: maps with the
same contents are equal. -/
theorem insert_lookup_self {m : FiniteMap K V} {k : K} {v : V} (h : m.lookup k = some v) :
    m.insert k v = m := by
  apply Finmap.ext_lookup
  intro k'
  rw [lookup_insert_eq]
  split
  next heq => rw [heq, h]
  next => rfl

/-- The number of entries, `size()`. -/
def FiniteMap.size (m : FiniteMap K V) : Nat := m.keys.card

omit [DecidableEq K] in
theorem size_empty : FiniteMap.size (∅ : FiniteMap K V) = 0 := by
  rw [FiniteMap.size, Finmap.keys_empty, Finset.card_empty]

theorem size_insert_le (m : FiniteMap K V) (k : K) (v : V) :
    FiniteMap.size (m.insert k v) ≤ FiniteMap.size m + 1 := by
  rw [FiniteMap.size, keys_insert]
  exact Finset.card_insert_le _ _

/-! ## Listings -/

/-- A listing meets a key iff a value is found at it. -/
theorem Listing.mem_fst_iff {m : FiniteMap K V} {l : List (K × V)} (h : Listing m l) (k : K) :
    k ∈ l.map Prod.fst ↔ (m.lookup k).isSome := by
  rw [List.mem_map, Option.isSome_iff_exists]
  constructor
  · rintro ⟨⟨k', v⟩, hmem, rfl⟩
    exact ⟨v, (h.mem_iff k' v).mp hmem⟩
  · rintro ⟨v, hv⟩
    exact ⟨(k, v), (h.mem_iff k v).mpr hv, rfl⟩

/-- The entries of a listing are pairwise distinct. -/
theorem Listing.nodup_entries {m : FiniteMap K V} {l : List (K × V)} (h : Listing m l) :
    l.Nodup :=
  List.Nodup.of_map _ h.nodup

/-- Two listings of one map are permutations of each other. -/
theorem Listing.perm {m : FiniteMap K V} {l₁ l₂ : List (K × V)}
    (h₁ : Listing m l₁) (h₂ : Listing m l₂) : l₁.Perm l₂ := by
  rw [List.perm_ext_iff_of_nodup h₁.nodup_entries h₂.nodup_entries]
  rintro ⟨k, v⟩
  rw [h₁.mem_iff, h₂.mem_iff]

/-- The other way round: with every order there is the one that meets the
entries backwards. -/
def IterOrder.reversed (order : IterOrder K V) : IterOrder K V where
  entries m := (order.entries m).reverse
  listing m :=
    { nodup := by
        rw [List.map_reverse, List.nodup_reverse]
        exact (order.listing m).nodup
      mem_iff := fun k v => List.mem_reverse.trans ((order.listing m).mem_iff k v) }

/-! ## A computable order -/

/-- Ascending order of entries in a numeric key. -/
private abbrev keyLe (key : K → Nat) (a b : Sigma fun _ : K => V) : Prop := key a.1 ≤ key b.1

/-- The entries of an association list, ascending in `key`. -/
private def sortedEntries (key : K → Nat) (l : List (Sigma fun _ : K => V)) : List (K × V) :=
  (l.insertionSort (keyLe key)).map fun e => (e.1, e.2)

omit [DecidableEq K] in
/-- Sorting puts the entries in ascending order of their keys. -/
private theorem sorted_keyLe (key : K → Nat) (l : List (Sigma fun _ : K => V)) :
    (l.insertionSort (keyLe key)).Pairwise (keyLe key) := by
  have : Std.Total (keyLe (V := V) key) := ⟨fun _ _ => Nat.le_total _ _⟩
  have : IsTrans (Sigma fun _ : K => V) (keyLe key) := ⟨fun _ _ _ => Nat.le_trans⟩
  exact List.pairwise_insertionSort _ l

omit [DecidableEq K] in
/-- The sorted list does not depend on the order the entries arrived in. -/
private theorem sortedEntries_perm {key : K → Nat} (hkey : Function.Injective key)
    {l₁ l₂ : List (Sigma fun _ : K => V)} (h : l₁.Perm l₂) (hnd : l₁.NodupKeys) :
    sortedEntries key l₁ = sortedEntries key l₂ := by
  have hperm : (l₁.insertionSort (keyLe key)).Perm (l₂.insertionSort (keyLe key)) :=
    ((List.perm_insertionSort _ l₁).trans h).trans (List.perm_insertionSort _ l₂).symm
  rw [sortedEntries, sortedEntries]
  congr 1
  refine List.Perm.eq_of_pairwise ?_ (sorted_keyLe key l₁) (sorted_keyLe key l₂) hperm
  rintro ⟨ka, va⟩ ⟨kb, vb⟩ ha hb hab hba
  obtain rfl : ka = kb := hkey (Nat.le_antisymm hab hba)
  have ha' := (List.perm_insertionSort _ l₁).mem_iff.mp ha
  have hb' := (List.perm_insertionSort _ l₁).mem_iff.mp (hperm.mem_iff.mpr hb)
  rw [hnd.eq_of_mk_mem ha' hb']

/-- Ascending in an injective numeric key. It is computable, so that a run in
this order can be evaluated; the proofs of the development never unfold it. -/
def IterOrder.byKey (key : K → Nat) (hkey : Function.Injective key) : IterOrder K V where
  entries m := m.liftOn (fun a => sortedEntries key a.entries)
    fun a _ h => sortedEntries_perm hkey h a.nodupKeys
  listing m := by
    induction m using Finmap.induction_on with
    | H a =>
      have hperm : (sortedEntries key a.entries).Perm (a.entries.map fun e => (e.1, e.2)) :=
        (List.perm_insertionSort _ _).map _
      constructor
      · refine (hperm.map Prod.fst).nodup_iff.mpr ?_
        rw [List.map_map]
        exact a.nodupKeys
      · intro k v
        rw [Finmap.liftOn_toFinmap, hperm.mem_iff, Finmap.lookup_toFinmap, AList.lookup,
          ← Option.mem_def, List.mem_dlookup_iff a.nodupKeys, List.mem_map]
        constructor
        · rintro ⟨⟨k', v'⟩, hmem, heq⟩
          cases heq
          exact hmem
        · intro hmem
          exact ⟨⟨k, v⟩, hmem, rfl⟩

end ASNPrefixMap.Lib
