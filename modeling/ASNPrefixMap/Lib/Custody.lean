import ASNPrefixMap.Lib.Trace

/-!
# A resource at a time

The events of a trace may take a resource, use it, or give it back. `holder` is
the resource that is out after a trace, and a trace is `Orderly` if a resource
is only taken for the first time and while none is out, and only used or given
back while it is out itself. In an orderly trace a resource has been taken at
most once and given back as often, but for the one that is still out
(`Orderly.taken_eq`).

The trace is the only record: there is no state beside it, and the resource that
is out is computed from the events. So the results hold of any program whose
events can be given roles, and a program proves them by keeping `Orderly` over
each event it appends. That each resource is taken for the first time is part of
`Permitted`; a program that numbers its resources upwards meets it for free.
-/

namespace ASNPrefixMap.Lib

/-- What an event is to a resource: it takes one, uses the one that is out,
gives it back, or has nothing to do with any. -/
inductive Role (R : Type)
  | takes (r : R)
  | uses (r : R)
  | givesBack (r : R)
  | unrelated
  deriving DecidableEq

/-- The resource that is out after an event, when `out` was out before it. -/
def Role.next {R : Type} (out : Option R) : Role R → Option R
  | .takes r => some r
  | .givesBack _ => none
  | _ => out

section Roles

variable {A R : Type} (role : A → Role R)

/-- The resource that is out after a trace, if any. It begins with none. -/
def holder (trace : List A) : Option R := trace.foldl (fun out event => (role event).next out) none

/-- What an event may do, given what came before it: take a resource that was
never taken while none is out, or use or give back the one that is out. -/
def Permitted (past : List A) (event : A) : Prop :=
  match role event with
  | .takes r => holder role past = none ∧ ∀ earlier ∈ past, role earlier ≠ .takes r
  | .uses r => holder role past = some r
  | .givesBack r => holder role past = some r
  | .unrelated => True

/-- Every event of the trace was permitted by what came before it. -/
def Orderly (trace : List A) : Prop := EveryEvent (Permitted role) trace

variable [DecidableEq R]

/-- How often a resource has been taken in a trace. -/
def taken (trace : List A) (r : R) : Nat := trace.countP fun event => decide (role event = .takes r)

/-- How often a resource has been given back in a trace. -/
def returned (trace : List A) (r : R) : Nat :=
  trace.countP fun event => decide (role event = .givesBack r)

end Roles

variable {A R : Type} {role : A → Role R}

theorem holder_concat (trace : List A) (event : A) :
    holder role (trace ++ [event]) = (role event).next (holder role trace) := by
  unfold holder
  rw [List.foldl_append]
  rfl

/-- A trace goes on in order when its next event is permitted. -/
theorem orderly_concat {trace : List A} {event : A} :
    Orderly role (trace ++ [event]) ↔ Orderly role trace ∧ Permitted role trace event :=
  everyEvent_concat

/-- What came first in an orderly trace is orderly itself. -/
theorem Orderly.past {before rest : List A} (h : Orderly role (before ++ rest)) :
    Orderly role before := by
  intro past event after heq
  refine h past event (after ++ rest) ?_
  rw [heq, List.append_assoc, List.cons_append]

/-- What each event of an orderly trace was permitted by: what came before it,
which is orderly too. -/
theorem Orderly.permitted {trace before after : List A} {event : A} (h : Orderly role trace)
    (htrace : trace = before ++ event :: after) : Orderly role before ∧ Permitted role before event :=
  ⟨@Orderly.past _ _ _ before (event :: after) (htrace ▸ h), h before event after htrace⟩

section Counts

variable [DecidableEq R]

/-- One more event takes a resource once more or not at all. -/
theorem taken_concat (trace : List A) (event : A) (r : R) :
    taken role (trace ++ [event]) r = taken role trace r + if role event = .takes r then 1 else 0 := by
  unfold taken
  rw [List.countP_append, List.countP_singleton]
  simp only [decide_eq_true_eq]

/-- One more event gives a resource back once more or not at all. -/
theorem returned_concat (trace : List A) (event : A) (r : R) :
    returned role (trace ++ [event]) r =
      returned role trace r + if role event = .givesBack r then 1 else 0 := by
  unfold returned
  rw [List.countP_append, List.countP_singleton]
  simp only [decide_eq_true_eq]

/-- What has been taken is back, or out. This is the balance that one event
keeps and that the other results are read off. -/
theorem Orderly.taken_eq {trace : List A} (h : Orderly role trace) (r : R) :
    taken role trace r = returned role trace r + if holder role trace = some r then 1 else 0 := by
  induction trace using List.reverseRecOn with
  | nil => rfl
  | append_singleton trace event ih =>
    obtain ⟨hpast, hevent⟩ := orderly_concat.mp h
    have hsame := ih hpast
    unfold Permitted at hevent
    rw [taken_concat, returned_concat, holder_concat]
    cases hrole : role event with
    | takes s =>
      rw [hrole] at hevent
      rw [hevent.1, if_neg (by simp)] at hsame
      show _ + (if Role.takes s = Role.takes r then 1 else 0) =
        _ + (if Role.takes s = Role.givesBack r then 1 else 0) + if some s = some r then 1 else 0
      by_cases hs : s = r
      · rw [if_pos (congrArg Role.takes hs), if_neg (by simp), if_pos (congrArg some hs), hsame]
      · rw [if_neg (by simpa using hs), if_neg (by simp), if_neg (by simpa using hs), hsame]
    | uses s =>
      show _ + (if Role.uses s = Role.takes r then 1 else 0) =
        _ + (if Role.uses s = Role.givesBack r then 1 else 0) +
          if holder role trace = some r then 1 else 0
      rw [if_neg (by simp), if_neg (by simp)]
      exact hsame
    | givesBack s =>
      rw [hrole] at hevent
      have hout : holder role trace = some s := hevent
      rw [hout] at hsame
      show _ + (if Role.givesBack s = Role.takes r then 1 else 0) =
        _ + (if Role.givesBack s = Role.givesBack r then 1 else 0) + if none = some r then 1 else 0
      by_cases hs : s = r
      · rw [if_pos (congrArg some hs)] at hsame
        rw [if_neg (by simp), if_pos (congrArg Role.givesBack hs), if_neg (by simp), hsame]
      · rw [if_neg (by simpa using hs)] at hsame
        rw [if_neg (by simp), if_neg (by simpa using hs), if_neg (by simp), hsame]
    | unrelated =>
      show _ + (if Role.unrelated = Role.takes r then 1 else 0) =
        _ + (if Role.unrelated = Role.givesBack r then 1 else 0) +
          if holder role trace = some r then 1 else 0
      rw [if_neg (by simp), if_neg (by simp)]
      exact hsame

theorem Orderly.taken_le_one {trace : List A} (h : Orderly role trace) (r : R) :
    taken role trace r ≤ 1 := by
  induction trace using List.reverseRecOn with
  | nil => exact Nat.zero_le 1
  | append_singleton trace event ih =>
    obtain ⟨hpast, hevent⟩ := orderly_concat.mp h
    rw [taken_concat]
    by_cases hrole : role event = .takes r
    · unfold Permitted at hevent
      rw [hrole] at hevent
      -- what is taken has never been taken before
      have hnever : taken role trace r = 0 := by
        refine List.countP_eq_zero.mpr fun earlier hmem => ?_
        rw [decide_eq_true_eq]
        exact hevent.2 earlier hmem
      exact Nat.le_of_eq (by rw [hnever, if_pos hrole])
    · rw [if_neg hrole]
      exact ih hpast

/-- When none is out, everything is back: each resource as often as it was
taken. -/
theorem Orderly.allBack {trace : List A} (h : Orderly role trace) (hout : holder role trace = none)
    (r : R) : returned role trace r = taken role trace r := by
  have heq := h.taken_eq r
  rw [hout, if_neg (by simp)] at heq
  exact heq.symm

/-- The resource that is out has been taken and is not back. -/
theorem Orderly.out {trace : List A} (h : Orderly role trace) {r : R}
    (hout : holder role trace = some r) : taken role trace r = 1 ∧ returned role trace r = 0 := by
  have heq := h.taken_eq r
  have hle := h.taken_le_one r
  rw [if_pos hout] at heq
  omega

/-- The resource that is out is the one that was taken and has not been given
back. -/
theorem Orderly.out_iff {trace : List A} (h : Orderly role trace) {r : R} :
    holder role trace = some r ↔ 0 < taken role trace r ∧ returned role trace r = 0 := by
  constructor
  · intro hout
    obtain ⟨htaken, hreturned⟩ := h.out hout
    exact ⟨htaken ▸ Nat.one_pos, hreturned⟩
  · intro hcounts
    have heq := h.taken_eq r
    by_contra hout
    rw [if_neg hout] at heq
    omega

end Counts

end ASNPrefixMap.Lib
