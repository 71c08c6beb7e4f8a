import ASNPrefixMap.Lib.Bytes

/-!
# Exceptions

The C++ exceptions a program throws, as the error type of `Except`, and the
equations that take an `Except` computation apart: a `bind` that returned came
from two steps that returned (`bind_eq_ok`), and a failed step ends the whole
(`error_bind`). `exists_mapM_ok` is the same for a loop that fills a vector.

An exception is a value here: it carries its `what()`, and two exceptions are
the same if type and text are. Stack unwinding is the business of the model:
what a destructor does during it has to be written out where it matters.
-/

namespace ASNPrefixMap.Lib

/-- The exceptions that occur, with their `what()`: three of the standard
library, and the `out_of_range` of a JSON library, which is none of the standard
one's types. -/
inductive Exception
  | runtimeError (what : Bytes)
  | invalidArgument (what : Bytes)
  | outOfRange (what : Bytes)
  | jsonOutOfRange (what : Bytes)
  deriving DecidableEq

variable {ε α β : Type}

@[simp] theorem ok_bind (a : α) (f : α → Except ε β) : (Except.ok a >>= f) = f a := rfl

/-- A step that threw ends the whole, with its exception. -/
@[simp] theorem error_bind (e : ε) (f : α → Except ε β) :
    (Except.error e >>= f) = Except.error e := rfl

/-- Returning a value is one of the two outcomes. -/
@[simp] theorem pure_eq_ok (a : α) : (pure a : Except ε α) = Except.ok a := rfl

/-- A sequence of two steps returned iff both did, the second on the value of
the first. -/
theorem bind_eq_ok {x : Except ε α} {f : α → Except ε β} {b : β} :
    (x >>= f) = .ok b ↔ ∃ a, x = .ok a ∧ f a = .ok b := by
  cases x with
  | error e =>
    rw [error_bind]
    constructor
    · intro h
      cases h
    · rintro ⟨a, ha, -⟩
      cases ha
  | ok a =>
    rw [ok_bind]
    constructor
    · exact fun h => ⟨a, rfl, h⟩
    · rintro ⟨a', ha, h⟩
      cases ha
      exact h

/-- A loop over a list returns when every step does, with results that relate to
their elements one by one and in order. -/
theorem exists_mapM_ok {f : α → Except ε β} {R : α → β → Prop} : ∀ {l : List α},
    (∀ a ∈ l, ∃ b, f a = .ok b ∧ R a b) → ∃ r, l.mapM f = .ok r ∧ List.Forall₂ R l r := by
  intro l
  induction l with
  | nil => exact fun _ => ⟨[], rfl, List.Forall₂.nil⟩
  | cons a l ih =>
    intro h
    obtain ⟨b, hb, hR⟩ := h a List.mem_cons_self
    obtain ⟨r, hr, hrest⟩ := ih fun a' ha' => h a' (List.mem_cons_of_mem _ ha')
    refine ⟨b :: r, ?_, List.Forall₂.cons hR hrest⟩
    rw [List.mapM_cons, hb, ok_bind, hr, ok_bind, pure_eq_ok]

/-- The same loop, when the results are a function of the elements. -/
theorem mapM_eq_ok {f : α → Except ε β} {g : α → β} : ∀ {l : List α},
    (∀ a ∈ l, f a = .ok (g a)) → l.mapM f = .ok (l.map g) := by
  intro l
  induction l with
  | nil => exact fun _ => rfl
  | cons a l ih =>
    intro h
    rw [List.mapM_cons, h a List.mem_cons_self, ok_bind,
      ih fun a' ha' => h a' (List.mem_cons_of_mem _ ha'), ok_bind, pure_eq_ok, List.map_cons]

/-- Steps that agree on the elements make loops that agree. -/
theorem mapM_congr {f g : α → Except ε β} : ∀ {l : List α}, (∀ a ∈ l, f a = g a) →
    l.mapM f = l.mapM g := by
  intro l
  induction l with
  | nil => exact fun _ => rfl
  | cons a l ih =>
    intro h
    rw [List.mapM_cons, List.mapM_cons, h a List.mem_cons_self,
      ih fun a' ha' => h a' (List.mem_cons_of_mem _ ha')]

/-- A loop over a list that throws does so at one of its elements: the first
that throws, and its exception is the loop's. -/
theorem exists_of_mapM_error {f : α → Except ε β} {e : ε} : ∀ {l : List α},
    l.mapM f = .error e → ∃ a ∈ l, f a = .error e := by
  intro l
  induction l with
  | nil =>
    intro h
    cases h
  | cons a l ih =>
    intro h
    rw [List.mapM_cons] at h
    cases ha : f a with
    | error e' =>
      rw [ha, error_bind] at h
      cases h
      exact ⟨a, List.mem_cons_self, ha⟩
    | ok b =>
      rw [ha, ok_bind] at h
      cases hl : l.mapM f with
      | error e' =>
        rw [hl, error_bind] at h
        cases h
        obtain ⟨a', ha', he⟩ := ih hl
        exact ⟨a', List.mem_cons_of_mem _ ha', he⟩
      | ok r =>
        rw [hl] at h
        cases h

/-- What each step of a loop that returned keeps holds at its end. This is the
rule for loops that fill something and may throw on the way. -/
theorem foldlM_invariant {f : β → α → Except ε β} {Inv : β → Prop} : ∀ {l : List α},
    (∀ b, ∀ a ∈ l, ∀ b', Inv b → f b a = .ok b' → Inv b') →
    ∀ {b b' : β}, Inv b → l.foldlM f b = .ok b' → Inv b' := by
  intro l
  induction l with
  | nil =>
    intro _ b b' h hf
    rw [List.foldlM_nil] at hf
    cases hf
    exact h
  | cons a l ih =>
    intro hstep b b' h hf
    rw [List.foldlM_cons] at hf
    obtain ⟨b₁, h₁, hrest⟩ := bind_eq_ok.mp hf
    exact ih (fun b a ha b' => hstep b a (List.mem_cons_of_mem _ ha) b')
      (hstep b a List.mem_cons_self b₁ h h₁) hrest

/-- Whether a call returned, whatever it returned. -/
def Returns (x : Except ε α) : Prop := ∃ a, x = .ok a

/-- A loop over a list that returned did so at each element. Together with
`exists_mapM_ok` this says that such a loop returns iff all its steps do. -/
theorem returns_of_mapM {f : α → Except ε β} : ∀ {l : List α}, Returns (l.mapM f) →
    ∀ a ∈ l, Returns (f a) := by
  intro l
  induction l with
  | nil => exact fun _ a ha => absurd ha List.not_mem_nil
  | cons a l ih =>
    rintro ⟨r, h⟩ a' ha'
    rw [List.mapM_cons] at h
    obtain ⟨b, hb, hrest⟩ := bind_eq_ok.mp h
    obtain ⟨bs, hbs, -⟩ := bind_eq_ok.mp hrest
    rcases List.mem_cons.mp ha' with rfl | hmem
    · exact ⟨b, hb⟩
    · exact ih ⟨bs, hbs⟩ a' hmem

/-- A loop that returned would have done so in any other order, and with the
same results in that order. -/
theorem mapM_perm {f : α → Except ε β} {l l' : List α} (h : l.Perm l') : ∀ {bs : List β},
    l.mapM f = .ok bs → ∃ bs', l'.mapM f = .ok bs' ∧ bs.Perm bs' := by
  induction h with
  | nil => exact fun hbs => ⟨_, hbs, List.Perm.refl _⟩
  | cons a _ ih =>
    intro bs hbs
    rw [List.mapM_cons] at hbs
    obtain ⟨b, hb, hrest⟩ := bind_eq_ok.mp hbs
    obtain ⟨rest, hok, heq⟩ := bind_eq_ok.mp hrest
    obtain ⟨rest', hok', hperm⟩ := ih hok
    cases heq
    exact ⟨b :: rest', by rw [List.mapM_cons, hb, ok_bind, hok', ok_bind, pure_eq_ok], hperm.cons b⟩
  | swap a a' l =>
    intro bs hbs
    rw [List.mapM_cons, List.mapM_cons] at hbs
    obtain ⟨b', hb', hrest'⟩ := bind_eq_ok.mp hbs
    obtain ⟨tail, htail, heq⟩ := bind_eq_ok.mp hrest'
    obtain ⟨b, hb, hrest⟩ := bind_eq_ok.mp htail
    obtain ⟨rest, hok, heq'⟩ := bind_eq_ok.mp hrest
    cases heq'
    cases heq
    refine ⟨b :: b' :: rest, ?_, List.Perm.swap b b' rest⟩
    rw [List.mapM_cons, List.mapM_cons, hb, hb', hok]
    rfl
  | trans _ _ ih ih' =>
    intro bs hbs
    obtain ⟨bs', hbs', hperm⟩ := ih hbs
    obtain ⟨bs'', hbs'', hperm'⟩ := ih' hbs'
    exact ⟨bs'', hbs'', hperm.trans hperm'⟩

/-- A fold returns when each of its steps does. -/
theorem returns_foldlM {f : β → α → Except ε β} : ∀ {l : List α} (b : β),
    (∀ b, ∀ a ∈ l, Returns (f b a)) → Returns (l.foldlM f b) := by
  intro l
  induction l with
  | nil => exact fun b _ => ⟨b, List.foldlM_nil⟩
  | cons a l ih =>
    intro b h
    obtain ⟨b', hb'⟩ := h b a List.mem_cons_self
    rw [List.foldlM_cons, hb', ok_bind]
    exact ih b' fun b a ha => h b a (List.mem_cons_of_mem _ ha)

instance (x : Except ε α) : Decidable (Returns x) :=
  match x with
  | .ok a => isTrue ⟨a, rfl⟩
  | .error _ => isFalse fun ⟨_, h⟩ => nomatch h

/-! ## Exceptions over a state -/

section Stateful

variable {σ : Type}

/-- A first half that returned hands its value and its state to the rest. -/
theorem run_bind_ok {x : EStateM ε σ α} {a : α} {s s' : σ} (h : x.run s = .ok a s')
    (f : α → EStateM ε σ β) : (x >>= f).run s = (f a).run s' := by
  rw [EStateM.run_bind, h]

/-- A first half that threw is the end of the whole, in the state the throw
left. -/
theorem run_bind_error {x : EStateM ε σ α} {e : ε} {s s' : σ} (h : x.run s = .error e s')
    (f : α → EStateM ε σ β) : (x >>= f).run s = .error e s' := by
  rw [EStateM.run_bind, h]

end Stateful

end ASNPrefixMap.Lib
