import ASNPrefixMap.Lib.Exception

/-!
# Decimal numerals: `std::to_string`, `std::stoul`, `std::stoull`

`toDec` is what `std::to_string` and `operator<<` print for an unsigned number.
`stoul` and `stoull` read one back the way `strtoul` does: blanks are skipped,
an optional sign is taken, the longest run of digits is converted, a `-` negates
modulo `2^64` and whatever follows the digits is ignored. `unsigned long` is
taken as 64 bits wide.

`stoul_toDec` / `stoull_toDec`: a printed number is read back exactly.
`strtoull_ok_iff` says which texts are converted, and to what (`Converts`): a
numeral as a whole (`IsNumeral`), or one with something before (`Led`) or behind
its digits (`Trailed`).
-/

namespace ASNPrefixMap.Lib

/-- `std::to_string` of an unsigned number, and what `operator<<` prints for it:
the decimal digits, without leading zeros. -/
def toDec (n : Nat) : Bytes := (Nat.toDigits 10 n).map fun c => c.toNat.toUInt8

/-- `std::isdigit` in the C locale. -/
def isDigit (c : UInt8) : Bool := 48 ≤ c && c ≤ 57

/-- The number a run of digits denotes, of any length. What does not fit into a
type is up to whoever reads it. -/
def digitsValue (ds : Bytes) : Nat := ds.foldl (fun v c => 10 * v + (c.toNat - 48)) 0

/-- `std::stoul` / `std::stoull`, which differ in the `what()` of what they
throw. Both skip white space, take a sign, convert the longest run of digits and
ignore what follows; a minus sign negates in the unsigned type, which is not an
error in C++. -/
def strtoull (name : Bytes) (text : Bytes) : Except Exception UInt64 :=
  let afterBlanks := text.dropWhile isSpace
  let (negative, afterSign) :=
    match afterBlanks with
    | [] => (false, [])
    | c :: rest =>
      if c = 45 then (true, rest) else if c = 43 then (false, rest) else (false, c :: rest)
  let digits := afterSign.takeWhile isDigit
  if digits = [] then
    .error (.invalidArgument name)
  else if digitsValue digits < 2 ^ 64 then
    let value := UInt64.ofNat (digitsValue digits)
    .ok (if negative then -value else value)
  else
    .error (.outOfRange name)

/-- `std::stoul`, for an `unsigned long` of 64 bits. -/
def stoul (text : Bytes) : Except Exception UInt64 := strtoull (bytes "stoul") text

/-- `std::stoull`. -/
def stoull (text : Bytes) : Except Exception UInt64 := strtoull (bytes "stoull") text

example : stoul (bytes " -1x") = .ok 18446744073709551615 := by decide

/-! ## What `toDec` prints -/

/-- The character of a digit is its code in ASCII. -/
private theorem digitChar_toUInt8 : ∀ d < 10, (Nat.digitChar d).toNat.toUInt8 = UInt8.ofNat (48 + d) := by
  decide

theorem toDec_of_lt {n : Nat} (h : n < 10) : toDec n = [UInt8.ofNat (48 + n)] := by
  rw [toDec, Nat.toDigits_of_lt_base h, List.map_singleton, digitChar_toUInt8 n h]

/-- A greater number is the one without its last digit, and that digit. This is
the recursion the proofs about numerals follow. -/
theorem toDec_of_ge {n : Nat} (h : 10 ≤ n) :
    toDec n = toDec (n / 10) ++ [UInt8.ofNat (48 + n % 10)] := by
  rw [toDec, Nat.toDigits_of_base_le (by decide) h, List.map_append, List.map_singleton,
    digitChar_toUInt8 _ (Nat.mod_lt n (by decide)), toDec]

private theorem isDigit_ofNat : ∀ d < 10, isDigit (UInt8.ofNat (48 + d)) = true := by decide

/-- The difference of a printed digit to `'0'` is the digit. -/
private theorem toNat_digit : ∀ d < 10, (UInt8.ofNat (48 + d)).toNat - 48 = d := by decide

theorem isDigit_of_mem_toDec (n : Nat) : ∀ c ∈ toDec n, isDigit c = true := by
  induction n using Nat.strong_induction_on with
  | _ n ih =>
    intro c hc
    rcases Nat.lt_or_ge n 10 with h | h
    · rw [toDec_of_lt h, List.mem_singleton] at hc
      rw [hc]
      exact isDigit_ofNat n h
    · rw [toDec_of_ge h, List.mem_append, List.mem_singleton] at hc
      rcases hc with hc | rfl
      · exact ih (n / 10) (by omega) c hc
      · exact isDigit_ofNat _ (Nat.mod_lt n (by decide))

theorem digitsValue_concat (ds : Bytes) (c : UInt8) :
    digitsValue (ds ++ [c]) = 10 * digitsValue ds + (c.toNat - 48) := by
  rw [digitsValue, List.foldl_append]
  rfl

theorem digitsValue_toDec (n : Nat) : digitsValue (toDec n) = n := by
  induction n using Nat.strong_induction_on with
  | _ n ih =>
    rcases Nat.lt_or_ge n 10 with h | h
    · rw [toDec_of_lt h]
      show 10 * 0 + ((UInt8.ofNat (48 + n)).toNat - 48) = n
      rw [toNat_digit n h]
      omega
    · rw [toDec_of_ge h, digitsValue_concat, ih (n / 10) (by omega),
        toNat_digit _ (Nat.mod_lt n (by decide))]
      omega

theorem toDec_injective : Function.Injective toDec := by
  intro m n h
  rw [← digitsValue_toDec m, h, digitsValue_toDec]

theorem toDec_ne_nil (n : Nat) : toDec n ≠ [] := by
  intro h
  rw [toDec, List.map_eq_nil_iff] at h
  exact Nat.toDigits_ne_nil h

/-- A printed number starts with a digit: there is no blank and no sign to skip
when it is read. -/
theorem exists_toDec_cons (n : Nat) : ∃ d ds, toDec n = d :: ds ∧ isDigit d = true := by
  cases h : toDec n with
  | nil => exact absurd h (toDec_ne_nil n)
  | cons d ds => exact ⟨d, ds, rfl, isDigit_of_mem_toDec n d (h ▸ List.mem_cons_self)⟩

/-- A byte that is no digit does not occur in a printed number. -/
theorem notMem_toDec {c : UInt8} (h : isDigit c = false) (n : Nat) : c ∉ toDec n := by
  intro hc
  rw [isDigit_of_mem_toDec n c hc] at h
  exact Bool.noConfusion h

/-! ## What is converted -/

/-- A digit is neither white space nor a sign. -/
theorem not_isSpace_of_isDigit {c : UInt8} (h : isDigit c = true) :
    isSpace c = false ∧ c ≠ 45 ∧ c ≠ 43 := by
  simp only [isDigit, isSpace, Bool.and_eq_true, decide_eq_true_eq, Bool.or_eq_false_iff,
    beq_eq_false_iff_ne, Bool.and_eq_false_iff, decide_eq_false_iff_not,
    UInt8.le_iff_toNat_le] at h ⊢
  have h48 : (48 : UInt8).toNat = 48 := rfl
  have h13 : (13 : UInt8).toNat = 13 := rfl
  rw [h48] at h
  refine ⟨⟨?_, Or.inr (by omega)⟩, ?_, ?_⟩ <;>
    (rintro rfl; exact absurd h.1 (by decide))

/-- The parts `strtoull` finds in a text: white space, a sign, digits, and
whatever follows. The digits are all there are at that place, so the parts are
determined by the text. -/
structure Spelling (text blanks sign digits rest : Bytes) : Prop where
  parts : text = blanks ++ (sign ++ (digits ++ rest))
  blank : ∀ c ∈ blanks, isSpace c = true
  signed : sign = [] ∨ sign = [43] ∨ sign = [45]
  nonempty : digits ≠ []
  digits : ∀ c ∈ digits, isDigit c = true
  stops : ∀ c, rest.head? = some c → isDigit c = false

/-- What a sign and digits denote in 64 bits; a minus sign negates modulo
`2^64`. -/
def signedValue (sign digits : Bytes) : Nat :=
  if sign = [45] then (2 ^ 64 - digitsValue digits) % 2 ^ 64 else digitsValue digits

/-- The text is converted, to `n`: its digits are in the range of 64 bits, and
the sign has been applied. -/
def Converts (text : Bytes) (n : Nat) : Prop :=
  ∃ blanks sign digits rest, Spelling text blanks sign digits rest ∧
    digitsValue digits < 2 ^ 64 ∧ n = signedValue sign digits

/-- The whole text is the unsigned decimal numeral of `n`: digits and nothing
else, at least one of them. Leading zeros are allowed. -/
structure IsNumeral (text : Bytes) (n : Nat) : Prop where
  nonempty : text ≠ []
  digits : ∀ c ∈ text, isDigit c = true
  value : digitsValue text = n

/-- The digits that are converted are those of the spelling. -/
theorem Spelling.takeWhile_isDigit {text blanks sign digits rest : Bytes}
    (h : Spelling text blanks sign digits rest) :
    (digits ++ rest).takeWhile isDigit = digits := by
  rw [List.takeWhile_append_of_pos h.digits]
  cases hrest : rest with
  | nil => simp
  | cons c after =>
    have hc := h.stops c (by rw [hrest]; rfl)
    rw [List.takeWhile_cons_of_neg (by rw [hc]; exact Bool.false_ne_true), List.append_nil]

/-- What follows the blanks starts with the sign or a digit, so no more blanks
are skipped. -/
theorem Spelling.dropWhile_isSpace {text blanks sign digits rest : Bytes}
    (h : Spelling text blanks sign digits rest) :
    text.dropWhile isSpace = sign ++ (digits ++ rest) := by
  rw [h.parts, List.dropWhile_append_of_pos h.blank]
  cases hdigits : digits with
  | nil => exact absurd hdigits h.nonempty
  | cons d ds =>
    have hd := (not_isSpace_of_isDigit (h.digits d (hdigits ▸ List.mem_cons_self))).1
    rcases h.signed with rfl | rfl | rfl
    · exact List.dropWhile_cons_of_neg (by rw [hd]; exact Bool.false_ne_true)
    · rfl
    · rfl

/-- What `strtoull` makes of a text once blanks and sign are told apart from the
rest. -/
private theorem strtoull_signed {name text sign after : Bytes}
    (hsign : sign = [] ∨ sign = [43] ∨ sign = [45]) (htext : text.dropWhile isSpace = sign ++ after)
    (hafter : sign = [] → ∀ c, after.head? = some c → c ≠ 45 ∧ c ≠ 43) :
    strtoull name text =
      if after.takeWhile isDigit = [] then .error (.invalidArgument name)
      else if digitsValue (after.takeWhile isDigit) < 2 ^ 64 then
        .ok (if sign = [45] then -UInt64.ofNat (digitsValue (after.takeWhile isDigit))
          else UInt64.ofNat (digitsValue (after.takeWhile isDigit)))
      else .error (.outOfRange name) := by
  rcases hsign with rfl | rfl | rfl
  · rw [List.nil_append] at htext
    cases hcases : after with
    | nil =>
      rw [hcases] at htext
      simp [strtoull, htext]
    | cons c rest =>
      obtain ⟨hminus, hplus⟩ := hafter rfl c (by rw [hcases]; rfl)
      rw [hcases] at htext
      simp [strtoull, htext, hminus, hplus]
  · simp [strtoull, htext]
  · simp [strtoull, htext]

/-- Every text has an optional sign behind its blanks. -/
private theorem exists_sign (after : Bytes) :
    ∃ sign rest, after = sign ++ rest ∧ (sign = [] ∨ sign = [43] ∨ sign = [45]) ∧
      (sign = [] → ∀ c, rest.head? = some c → c ≠ 45 ∧ c ≠ 43) := by
  cases after with
  | nil => exact ⟨[], [], rfl, Or.inl rfl, fun _ c hc => by cases hc⟩
  | cons d rest =>
    by_cases hminus : d = 45
    · exact ⟨[45], rest, by rw [hminus]; rfl, Or.inr (Or.inr rfl), fun h => by cases h⟩
    · by_cases hplus : d = 43
      · exact ⟨[43], rest, by rw [hplus]; rfl, Or.inr (Or.inl rfl), fun h => by cases h⟩
      · refine ⟨[], d :: rest, rfl, Or.inl rfl, fun _ c hc => ?_⟩
        cases hc
        exact ⟨hminus, hplus⟩

private theorem toNat_signed {sign digits : Bytes} (h : digitsValue digits < 2 ^ 64) :
    (if sign = [45] then -UInt64.ofNat (digitsValue digits)
      else UInt64.ofNat (digitsValue digits)).toNat = signedValue sign digits := by
  unfold signedValue
  split
  · have hsize : UInt64.size = 2 ^ 64 := rfl
    simp only [UInt64.toNat_neg, UInt64.toNat_ofNat_of_lt' h, hsize]
  · exact UInt64.toNat_ofNat_of_lt' h

/-- **The converted texts**, and the number each one gives. Every other text
throws: `invalid_argument` if there are no digits, `out_of_range` if there are
too many. -/
theorem strtoull_ok_iff {name text : Bytes} {value : UInt64} :
    strtoull name text = .ok value ↔ Converts text value.toNat := by
  constructor
  · intro h
    obtain ⟨sign, after, hafter, hsign, hhead⟩ := exists_sign (text.dropWhile isSpace)
    rw [strtoull_signed hsign hafter hhead] at h
    split at h
    next => cases h
    next hne =>
      split at h
      next hlt =>
        cases h
        refine ⟨text.takeWhile isSpace, sign, after.takeWhile isDigit, after.dropWhile isDigit,
          ⟨?_, fun c hc => List.mem_takeWhile_imp hc, hsign, hne,
            fun c hc => List.mem_takeWhile_imp hc, fun c hc => ?_⟩, hlt, toNat_signed hlt⟩
        · rw [List.takeWhile_append_dropWhile, ← hafter, List.takeWhile_append_dropWhile]
        · have hstop := List.head?_dropWhile_not isDigit after
          rw [hc] at hstop
          exact hstop
      next => cases h
  · rintro ⟨blanks, sign, digits, rest, hspelling, hlt, hvalue⟩
    rw [strtoull_signed hspelling.signed hspelling.dropWhile_isSpace ?_,
      hspelling.takeWhile_isDigit, if_neg hspelling.nonempty, if_pos hlt]
    · congr 1
      apply UInt64.toNat_inj.mp
      rw [toNat_signed hlt, hvalue]
    · intro _ c hc
      cases hdigits : digits with
      | nil => exact absurd hdigits hspelling.nonempty
      | cons d ds =>
        rw [hdigits] at hc
        cases hc
        exact (not_isSpace_of_isDigit (hspelling.digits c (hdigits ▸ List.mem_cons_self))).2

/-- A numeral in range is converted to what it denotes. -/
theorem IsNumeral.converts {text : Bytes} {n : Nat} (h : IsNumeral text n) (hlt : n < 2 ^ 64) :
    Converts text n :=
  ⟨[], [], text, [], ⟨by simp, fun _ hc => absurd hc List.not_mem_nil, Or.inl rfl, h.nonempty,
    h.digits, fun _ hc => by cases hc⟩, by rw [h.value]; exact hlt, h.value.symm⟩

/-! ## Reading back -/

/-- What is printed is a numeral of the number. -/
theorem isNumeral_toDec (n : Nat) : IsNumeral (toDec n) n where
  nonempty := toDec_ne_nil n
  digits := isDigit_of_mem_toDec n
  value := digitsValue_toDec n

/-- A printed number is read back, if it is in range. -/
theorem strtoull_toDec (name : Bytes) {n : Nat} (h : n < 2 ^ 64) :
    strtoull name (toDec n) = .ok (UInt64.ofNat n) := by
  rw [strtoull_ok_iff, UInt64.toNat_ofNat_of_lt' h]
  exact (isNumeral_toDec n).converts h

theorem stoul_toDec {n : Nat} (h : n < 2 ^ 64) : stoul (toDec n) = .ok (UInt64.ofNat n) :=
  strtoull_toDec _ h

theorem stoull_toDec {n : Nat} (h : n < 2 ^ 64) : stoull (toDec n) = .ok (UInt64.ofNat n) :=
  strtoull_toDec _ h

/-! ## Numerals and other texts -/

/-- The text starts with white space or a sign. -/
def Led (text : Bytes) : Prop :=
  ∃ c rest, text = c :: rest ∧ (isSpace c = true ∨ c = 45 ∨ c = 43)

/-- Something that is no digit comes after the first digits of the text. -/
def Trailed (text : Bytes) : Prop :=
  ∃ digits c rest, text = digits ++ c :: rest ∧ digits ≠ [] ∧ (∀ d ∈ digits, isDigit d = true) ∧
    isDigit c = false

/-- A numeral starts with a digit, so nothing is skipped when it is read. -/
theorem IsNumeral.not_led {text : Bytes} {n : Nat} (h : IsNumeral text n) : ¬ Led text := by
  rintro ⟨c, rest, rfl, hc⟩
  obtain ⟨hspace, hminus, hplus⟩ := not_isSpace_of_isDigit (h.digits c List.mem_cons_self)
  rcases hc with hc | hc | hc
  · rw [hspace] at hc
    cases hc
  · exact hminus hc
  · exact hplus hc

theorem IsNumeral.not_trailed {text : Bytes} {n : Nat} (h : IsNumeral text n) : ¬ Trailed text := by
  rintro ⟨digits, c, rest, rfl, -, -, hc⟩
  rw [h.digits c (List.mem_append_right _ List.mem_cons_self)] at hc
  cases hc

/-- A text that is converted is a numeral in the range of the type, or has
something before or behind its digits. These are the texts a careful reader
would refuse and the library takes. -/
theorem Converts.led_or_trailed_or_numeral {text : Bytes} {n : Nat} (h : Converts text n) :
    Led text ∨ Trailed text ∨ IsNumeral text n := by
  obtain ⟨blanks, sign, digits, rest, hspelling, -, hvalue⟩ := h
  cases hblanks : blanks with
  | cons c blanks =>
    refine Or.inl ⟨c, blanks ++ (sign ++ (digits ++ rest)), ?_, Or.inl ?_⟩
    · rw [hspelling.parts, hblanks, List.cons_append]
    · exact hspelling.blank c (hblanks ▸ List.mem_cons_self)
  | nil =>
    have htext : text = sign ++ (digits ++ rest) := by
      rw [hspelling.parts, hblanks, List.nil_append]
    rcases hspelling.signed with rfl | rfl | rfl
    · cases hrest : rest with
      | nil =>
        rw [hrest, List.append_nil, List.nil_append] at htext
        exact Or.inr (Or.inr (htext ▸ ⟨hspelling.nonempty, hspelling.digits, hvalue.symm⟩))
      | cons c after =>
        exact Or.inr (Or.inl ⟨digits, c, after, by rw [htext, hrest, List.nil_append],
          hspelling.nonempty, hspelling.digits, hspelling.stops c (by rw [hrest]; rfl)⟩)
    · exact Or.inl ⟨43, digits ++ rest, htext, Or.inr (Or.inr rfl)⟩
    · exact Or.inl ⟨45, digits ++ rest, htext, Or.inr (Or.inl rfl)⟩

theorem strtoull_eq_ok {name text : Bytes} {value : UInt64} (h : strtoull name text = .ok value) :
    Led text ∨ Trailed text ∨ IsNumeral text value.toNat :=
  (strtoull_ok_iff.mp h).led_or_trailed_or_numeral

end ASNPrefixMap.Lib
