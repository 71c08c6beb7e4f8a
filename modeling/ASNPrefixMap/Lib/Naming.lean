import Mathlib.Data.List.Chain

/-!
# Names that stay

A naming says which name stands for which thing. Two of them are consistent if
neither gives a name to another thing, or a thing another name (`Consistent`);
one that is consistent with itself is one to one. Consistency is not transitive:
what is missing from a naming in between may come back under another name. But
along a list of namings, each consistent with the next, what is named by all has
one name in all (`one_name`).

A naming is a relation, so that nothing is said of names that are not in use. It
is what a stored table of identifiers says; the documents are the tables stored
one after the other.
-/

namespace ASNPrefixMap.Lib

variable {I P D : Type}

/-- No name stands for two things, and nothing has two names, taken over both
namings together. -/
def Consistent (naming naming' : I → P → Prop) : Prop :=
  ∀ i p j q, naming i p → naming' j q → (i = j ↔ p = q)

/-- Things may be taken for the names of their names: consistency says the same
both ways. -/
theorem Consistent.swap {naming naming' : I → P → Prop} (h : Consistent naming naming') :
    Consistent (fun p i => naming i p) fun p i => naming' i p :=
  fun p i q j hi hj => (h i p j q hi hj).symm

/-- In a naming that is one to one, a thing has one name. -/
theorem Consistent.name_iff {naming : I → P → Prop} (h : Consistent naming naming) {i : I} {p : P}
    (hi : naming i p) (j : I) : naming j p ↔ j = i := by
  refine ⟨fun hj => (h j p i p hj hi).mpr rfl, fun heq => ?_⟩
  rw [heq]
  exact hi

/-- Documents with a naming each, which is one to one and consistent with that
of the next. Nothing is said of documents that are further apart. -/
structure InStep (names : D → I → P → Prop) (documents : List D) : Prop where
  one : ∀ document ∈ documents, Consistent (names document) (names document)
  chain : documents.IsChain fun document next => Consistent (names document) (names next)

theorem InStep.swap {names : D → I → P → Prop} {documents : List D} (h : InStep names documents) :
    InStep (fun document p i => names document i p) documents :=
  ⟨fun document hmem => (h.one document hmem).swap, h.chain.imp fun _ _ hnext => hnext.swap⟩

/-- **What is always named keeps its name.** By induction on the documents: the
name in the first is the one in the second, and that one stays. -/
theorem InStep.one_name {names : D → I → P → Prop} {p : P} : ∀ {document : D} {documents : List D},
    InStep names (document :: documents) →
    (∀ other ∈ document :: documents, ∃ i, names other i p) →
    ∃ i, ∀ other ∈ document :: documents, ∀ j, names other j p ↔ j = i := by
  intro document documents
  induction documents generalizing document with
  | nil =>
    intro h hp
    obtain ⟨i, hi⟩ := hp document List.mem_cons_self
    refine ⟨i, fun other hmem => ?_⟩
    rw [List.mem_singleton.mp hmem]
    exact (h.one document List.mem_cons_self).name_iff hi
  | cons next rest ih =>
    intro h hp
    obtain ⟨hnext, hrest⟩ := List.isChain_cons_cons.mp h.chain
    obtain ⟨i, hi⟩ := ih ⟨fun other hmem => h.one other (List.mem_cons_of_mem _ hmem), hrest⟩
      fun other hmem => hp other (List.mem_cons_of_mem _ hmem)
    -- the name in the first is the one in the second, which is that of all the others
    obtain ⟨k, hk⟩ := hp document List.mem_cons_self
    have hki : k = i :=
      (hnext k p i p hk ((hi next List.mem_cons_self i).mpr rfl)).mpr rfl
    refine ⟨i, fun other hmem => ?_⟩
    rcases List.mem_cons.mp hmem with rfl | hmem
    · exact (h.one _ List.mem_cons_self).name_iff (hki ▸ hk)
    · exact hi other hmem

end ASNPrefixMap.Lib
