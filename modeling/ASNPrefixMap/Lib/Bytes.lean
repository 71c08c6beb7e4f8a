import Mathlib.Algebra.Group.Nat.Defs
import Mathlib.Data.List.Basic
import Mathlib.Data.List.DropRight

/-!
# Byte strings

A `std::string` is a list of bytes; any byte may occur in it, `NUL` included.
`bytes "..."` is a string literal. Three readings of a byte string matter here:

* as a C string (`CString`): what a C function given `s.c_str()` sees, that is
  the bytes before the first `NUL`;
* as text lines (`getLines`): what successive calls of `std::getline` return.
  `getLines_unlines` is the round trip for lines without a newline byte, and
  `newline_notMem_of_mem_getLines` says that no line ever contains one;
* as tab-separated fields: `List.splitOn tab`, with `sep_notMem_of_mem_splitOn`.

What is left out of the library: encodings (a byte is a byte), the capacity of a
string, and the state bits of a stream. `std::getline` fails only at the end of
the input here, so a text is the list of its lines.
-/

namespace ASNPrefixMap.Lib

/-- A `std::string`: any bytes, of any number. -/
abbrev Bytes := List UInt8

/-- The bytes of a string literal. The source uses ASCII literals only, so the
encoding does not matter. -/
def bytes (s : String) : Bytes := s.toUTF8.data.toList

/-- The separator of all tables the program writes, `'\t'`. -/
def tab : UInt8 := 9
/-- The end of a line, `'\n'`. A carriage return is a byte like any other. -/
def newline : UInt8 := 10

/-- `std::isspace` in the C locale: space, `\t`, `\n`, `\v`, `\f`, `\r`. -/
def isSpace (c : UInt8) : Bool := c == 32 || (9 ≤ c && c ≤ 13)

/-- Drop the bytes satisfying `blank` at both ends. The loops that trim in the
source differ in what they take for blank, so this is a parameter. -/
def trimWhere (blank : UInt8 → Bool) (s : Bytes) : Bytes := (s.dropWhile blank).rdropWhile blank

/-- A string whose first byte is not blank keeps that byte as its first. -/
theorem trimWhere_cons {blank : UInt8 → Bool} {c : UInt8} (h : blank c = false) (s : Bytes) :
    trimWhere blank (c :: s) = c :: s.rdropWhile blank := by
  have hdrop : (c :: s).dropWhile blank = c :: s := by
    rw [List.dropWhile_cons_of_neg (by rw [h]; exact Bool.false_ne_true)]
  rw [trimWhere, hdrop]
  induction s using List.reverseRecOn with
  | nil =>
    rw [List.rdropWhile_nil, List.rdropWhile_singleton, if_neg (by rw [h]; exact Bool.false_ne_true)]
  | append_singleton s x ih =>
    rw [← List.cons_append]
    by_cases hx : blank x = true
    · have hdrop' : (c :: s).dropWhile blank = c :: s := by
        rw [List.dropWhile_cons_of_neg (by rw [h]; exact Bool.false_ne_true)]
      rw [List.rdropWhile_concat_pos _ _ _ hx, List.rdropWhile_concat_pos _ _ _ hx, ih hdrop']
    · rw [List.rdropWhile_concat_neg _ _ _ hx, List.rdropWhile_concat_neg _ _ _ hx,
        List.cons_append]

/-! ## Cutting at a separator -/

/-- What stands before the first separator: of a text built as `l`, separator,
`rest` it is `l`, if `l` has no separator itself. -/
theorem takeWhile_ne_sep {sep : UInt8} {l : Bytes} (h : sep ∉ l) (rest : Bytes) :
    (l ++ sep :: rest).takeWhile (· != sep) = l := by
  have hne : ∀ x ∈ l, (x != sep) = true := fun x hx =>
    bne_iff_ne.mpr fun e => h (e ▸ hx)
  rw [List.takeWhile_append_of_pos hne]
  simp

/-- The separator and what follows it, the other half of `takeWhile_ne_sep`. -/
theorem dropWhile_ne_sep {sep : UInt8} {l : Bytes} (h : sep ∉ l) (rest : Bytes) :
    (l ++ sep :: rest).dropWhile (· != sep) = sep :: rest := by
  have hne : ∀ x ∈ l, (x != sep) = true := fun x hx =>
    bne_iff_ne.mpr fun e => h (e ▸ hx)
  rw [List.dropWhile_append_of_pos hne]
  simp

/-- A string is cut at its last separator in one way. This is what makes the
reading of a key from the right unambiguous, whatever stands before the
separator. -/
theorem append_sep_inj {sep : UInt8} {a₁ a₂ b₁ b₂ : Bytes} (h₁ : sep ∉ b₁) (h₂ : sep ∉ b₂)
    (h : a₁ ++ sep :: b₁ = a₂ ++ sep :: b₂) : a₁ = a₂ ∧ b₁ = b₂ := by
  have hrev : ∀ a b : Bytes, (a ++ sep :: b).reverse = b.reverse ++ sep :: a.reverse := by
    intro a b
    rw [List.reverse_append, List.reverse_cons, List.append_assoc, List.singleton_append]
  have hb : b₁.reverse = b₂.reverse := by
    rw [← takeWhile_ne_sep (fun hmem => h₁ (List.mem_reverse.mp hmem)) a₁.reverse,
      ← takeWhile_ne_sep (fun hmem => h₂ (List.mem_reverse.mp hmem)) a₂.reverse, ← hrev, ← hrev, h]
  obtain rfl := List.reverse_injective hb
  exact ⟨List.append_cancel_right h, rfl⟩

/-! ## C strings -/

/-- A `NUL`-terminated string, without its terminator. The field keeps a second
`NUL` out, so a value of this type is what a C function can tell apart. -/
structure CString where
  text : Bytes
  noNul : 0 ∉ text
  deriving DecidableEq

/-- `s.c_str()` as a C function reads it: up to the first `NUL`. -/
def cStr (s : Bytes) : CString where
  text := s.takeWhile (· != 0)
  noNul := by
    intro h
    exact absurd (List.mem_takeWhile_imp h) (by decide)

/-- Going through a C string loses nothing when there is no `NUL` in it: the
conversion cuts at the first `NUL` and there is none. -/
theorem text_cStr {s : Bytes} (h : 0 ∉ s) : (cStr s).text = s := by
  show s.takeWhile (· != 0) = s
  rw [List.takeWhile_eq_self_iff]
  intro x hx
  rw [bne_iff_ne]
  intro hx0
  exact h (hx0 ▸ hx)

/-- A C string is what a C function reads of its own text. -/
theorem cStr_text (c : CString) : cStr c.text = c := by
  obtain ⟨text, hnul⟩ := c
  have htext := text_cStr hnul
  unfold cStr at htext ⊢
  congr 1

/-! ## Lines -/

/-- The lines `std::getline` returns until it fails: a final newline ends the
last line and starts no other, and a text that does not end in a newline has its
rest as a last line. -/
def getLines : Bytes → List Bytes
  | [] => []
  | c :: cs =>
    if c = newline then [] :: getLines cs
    else
      match getLines cs with
      | [] => [[c]]
      | l :: ls => (c :: l) :: ls

/-- The first line is what stands before the first newline, the others are the
lines of what follows. -/
theorem getLines_line : ∀ (l rest : Bytes), newline ∉ l →
    getLines (l ++ newline :: rest) = l :: getLines rest := by
  intro l
  induction l with
  | nil =>
    intro rest _
    rw [List.nil_append, getLines, if_pos rfl]
  | cons c l ih =>
    intro rest h
    rw [List.mem_cons, not_or] at h
    rw [List.cons_append, getLines, if_neg (fun e => h.1 e.symm), ih rest h.2]

/-- Each line followed by a newline, which is how the program writes every
file. -/
def unlines (ls : List Bytes) : Bytes := ls.flatMap fun l => l ++ [newline]

theorem unlines_append (ls₁ ls₂ : List Bytes) : unlines (ls₁ ++ ls₂) = unlines ls₁ ++ unlines ls₂ :=
  List.flatMap_append

theorem unlines_singleton (l : Bytes) : unlines [l] = l ++ [newline] := List.append_nil _

/-- Lines made from values, written one after the other. -/
theorem unlines_map {α : Type} (f : α → Bytes) (l : List α) :
    unlines (l.map f) = l.flatMap fun a => f a ++ [newline] := by
  unfold unlines
  rw [List.flatMap_map]

/-- Reading back what was written line by line, as long as no line contains a
newline. -/
theorem getLines_unlines : ∀ (ls : List Bytes), (∀ l ∈ ls, newline ∉ l) →
    getLines (unlines ls) = ls := by
  intro ls
  induction ls with
  | nil => exact fun _ => rfl
  | cons l ls ih =>
    intro h
    have hun : unlines (l :: ls) = l ++ newline :: unlines ls := by
      rw [unlines, List.flatMap_cons, List.append_assoc]
      rfl
    rw [hun, getLines_line l _ (h l List.mem_cons_self),
      ih fun l' hl' => h l' (List.mem_cons_of_mem _ hl')]

/-- A text with a byte in it has a line. -/
theorem getLines_ne_nil (c : UInt8) (cs : Bytes) : getLines (c :: cs) ≠ [] := by
  rw [getLines]
  split
  next => exact List.cons_ne_nil _ _
  next =>
    split
    next => exact List.cons_ne_nil _ _
    next => exact List.cons_ne_nil _ _

/-- Lines do not run over a newline. -/
theorem getLines_append_newline (l rest : Bytes) :
    getLines (l ++ newline :: rest) = getLines (l ++ [newline]) ++ getLines rest := by
  induction l with
  | nil => rfl
  | cons c l ih =>
    rw [List.cons_append, List.cons_append, getLines, getLines, ih]
    by_cases hc : c = newline
    · rw [if_pos hc, if_pos hc, List.cons_append]
    · rw [if_neg hc, if_neg hc]
      cases hlines : getLines (l ++ [newline]) with
      | nil =>
        cases l with
        | nil => exact absurd hlines (getLines_ne_nil _ _)
        | cons c' l' => exact absurd hlines (getLines_ne_nil _ _)
      | cons first others => rfl

/-- The lines of two texts are the same, in some order. This is what is left of
a table when the order of its lines is up to a hash map. -/
def SameLines (text text' : Bytes) : Prop := (getLines text).Perm (getLines text')

theorem SameLines.refl (text : Bytes) : SameLines text text := List.Perm.refl _

/-- What is written line by line may be written in any order, also if some of it
is several lines. -/
theorem sameLines_unlines {ls ls' : List Bytes} (h : ls.Perm ls') :
    SameLines (unlines ls) (unlines ls') := by
  have hcut : ∀ ls, getLines (unlines ls) = ls.flatMap fun l => getLines (l ++ [newline]) := by
    intro ls
    induction ls with
    | nil => rfl
    | cons l ls ih =>
      have hun : unlines (l :: ls) = l ++ newline :: unlines ls := by
        rw [unlines, List.flatMap_cons, List.append_assoc]
        rfl
      rw [hun, getLines_append_newline, ih, List.flatMap_cons]
  unfold SameLines
  rw [hcut, hcut]
  exact h.flatMap_right _

/-- A line contains no newline. -/
theorem newline_notMem_of_mem_getLines : ∀ (text l : Bytes), l ∈ getLines text → newline ∉ l := by
  intro text
  induction text with
  | nil =>
    intro l h
    exact absurd h List.not_mem_nil
  | cons c cs ih =>
    intro l h
    rw [getLines] at h
    split at h
    next hc =>
      rcases List.mem_cons.mp h with rfl | h
      · exact List.not_mem_nil
      · exact ih l h
    next hc =>
      have hhead : ∀ rest : Bytes, newline ∉ rest → newline ∉ c :: rest := by
        intro rest hrest hmem
        rcases List.mem_cons.mp hmem with heq | hmem
        · exact hc heq.symm
        · exact hrest hmem
      split at h
      next hnil =>
        obtain rfl := List.mem_singleton.mp h
        exact hhead [] List.not_mem_nil
      next l₀ ls hcons =>
        rw [hcons] at ih
        rcases List.mem_cons.mp h with rfl | h
        · exact hhead l₀ (ih l₀ List.mem_cons_self)
        · exact ih l (List.mem_cons_of_mem _ h)

/-! ## Fields -/

/-- Joined fields hold the separator and the bytes of the fields, nothing
else. -/
theorem mem_intercalate {sep c : UInt8} : ∀ {fields : List Bytes},
    c ∈ [sep].intercalate fields → c = sep ∨ ∃ f ∈ fields, c ∈ f := by
  intro fields
  induction fields with
  | nil =>
    intro h
    cases h
  | cons f fs ih =>
    intro h
    cases fs with
    | nil =>
      rw [List.intercalate_singleton] at h
      exact Or.inr ⟨f, List.mem_cons_self, h⟩
    | cons g gs =>
      rw [List.intercalate_cons_cons, List.mem_append, List.mem_append, List.mem_singleton] at h
      rcases h with (h | h) | h
      · exact Or.inr ⟨f, List.mem_cons_self, h⟩
      · exact Or.inl h
      · rcases ih h with h | ⟨f', hf', h⟩
        · exact Or.inl h
        · exact Or.inr ⟨f', List.mem_cons_of_mem _ hf', h⟩

/-- A field contains no separator, wherever in the line it stands. -/
theorem sep_notMem_of_mem_splitOn (sep : UInt8) : ∀ (s f : Bytes), f ∈ s.splitOn sep → sep ∉ f := by
  intro s
  induction s with
  | nil =>
    intro f h
    rw [List.splitOn_nil, List.mem_singleton] at h
    rw [h]
    exact List.not_mem_nil
  | cons c s ih =>
    intro f h
    rw [List.splitOn_cons_eq_if_modifyHead] at h
    split at h
    next hc =>
      rcases List.mem_cons.mp h with rfl | h
      · exact List.not_mem_nil
      · exact ih f h
    next hc =>
      cases hs : s.splitOn sep with
      | nil =>
        rw [hs] at h
        exact absurd h List.not_mem_nil
      | cons f₀ fs =>
        rw [hs] at h ih
        rcases List.mem_cons.mp h with rfl | h
        · intro hmem
          rcases List.mem_cons.mp hmem with heq | hmem
          · exact hc (beq_iff_eq.mpr heq.symm)
          · exact ih f₀ List.mem_cons_self hmem
        · exact ih f (List.mem_cons_of_mem _ h)

/-- The fields of a line hold only bytes of the line: cutting invents
nothing. -/
theorem mem_of_mem_splitOn (sep : UInt8) : ∀ (s f : Bytes), f ∈ s.splitOn sep →
    ∀ c ∈ f, c ∈ s := by
  intro s
  induction s with
  | nil =>
    intro f h c hc
    rw [List.splitOn_nil, List.mem_singleton] at h
    rw [h] at hc
    exact hc
  | cons x s ih =>
    intro f h c hc
    rw [List.splitOn_cons_eq_if_modifyHead] at h
    split at h
    next =>
      rcases List.mem_cons.mp h with rfl | h
      · exact absurd hc List.not_mem_nil
      · exact List.mem_cons_of_mem _ (ih f h c hc)
    next =>
      cases hs : s.splitOn sep with
      | nil =>
        rw [hs] at h
        exact absurd h List.not_mem_nil
      | cons f₀ fs =>
        rw [hs] at h ih
        rcases List.mem_cons.mp h with rfl | h
        · rcases List.mem_cons.mp hc with rfl | hc
          · exact List.mem_cons_self
          · exact List.mem_cons_of_mem _ (ih f₀ List.mem_cons_self c hc)
        · exact List.mem_cons_of_mem _ (ih f (List.mem_cons_of_mem _ h) c hc)

/-! ## Lines of fields -/

/-- Fields joined by a separator, the first one written out. -/
theorem intercalate_cons_eq_flatMap (sep : UInt8) (f : Bytes) : ∀ (fs : List Bytes),
    [sep].intercalate (f :: fs) = f ++ fs.flatMap fun g => sep :: g := by
  intro fs
  induction fs generalizing f with
  | nil => rw [List.intercalate_singleton, List.flatMap_nil, List.append_nil]
  | cons g gs ih =>
    rw [List.intercalate_cons_cons, ih, List.flatMap_cons, List.append_assoc, List.singleton_append,
      List.cons_append]

/-- **Reading a table.** Lines of separated fields come back as these fields
when no field holds the separator or a newline. The rows are given by a
function, so that one lemma serves all tables. -/
theorem getLines_map_splitOn {sep : UInt8} (hsep : sep ≠ newline) {α : Type} {fields : α → List Bytes}
    (hne : ∀ a, fields a ≠ []) {l : List α} (h : ∀ a ∈ l, ∀ f ∈ fields a, sep ∉ f ∧ newline ∉ f) :
    (getLines (unlines (l.map fun a => [sep].intercalate (fields a)))).map (List.splitOn sep) =
      l.map fields := by
  have hlines : ∀ line ∈ l.map fun a => [sep].intercalate (fields a), newline ∉ line := by
    intro line hline hmem
    obtain ⟨a, ha, rfl⟩ := List.mem_map.mp hline
    rcases mem_intercalate hmem with heq | ⟨f, hf, hmem⟩
    · exact hsep heq.symm
    · exact (h a ha f hf).2 hmem
  rw [getLines_unlines _ hlines, List.map_map]
  refine List.map_congr_left fun a ha => ?_
  exact List.splitOn_intercalate sep (fun f hf => (h a ha f hf).1) (hne a)

/-- Reading a table of tab-separated fields, which is what all tables of the
program are. -/
theorem splitOn_getLines_unlines {α : Type} {fields : α → List Bytes} (hne : ∀ a, fields a ≠ [])
    {l : List α} (h : ∀ a ∈ l, ∀ f ∈ fields a, tab ∉ f ∧ newline ∉ f) :
    (getLines (unlines (l.map fun a => [tab].intercalate (fields a)))).map (List.splitOn tab) =
      l.map fields :=
  getLines_map_splitOn (by decide) hne h

end ASNPrefixMap.Lib
