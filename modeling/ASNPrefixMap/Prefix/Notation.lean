import ASNPrefixMap.Prefix.Normal

/-!
# CIDR notation and the texts `parse_prefix` accepts

A CIDR text is an address literal, a slash and a decimal numeral (`IsCidr`). The
code converts the length with `std::stoul`, which takes more than numerals, and
passes `address.c_str()` to `inet_pton`, which ends at a `NUL`. So it also
accepts texts with something around the digits, or behind a `NUL` of the address
(`LaxCidr`); on every other text it is exact (`readsCidrOnly_iff`).

The definition of CIDR notation is this development's own; the source gives
none. `inet_pton` decides what an address literal is, so the notation is
relative to it (`Inet.ReadsLiterals` says what is assumed: that it reads only
texts with the characters of their family). `LaxCidr` is written with the parts
of a text and the readings of `strtoull`, not with the parser.
-/

namespace ASNPrefixMap.Prefix

open Lib

/-- What `inet_pton` reads are address literals: dotted quads, and groups with
colons. In particular it reads no text with a slash in it. -/
structure Inet.ReadsLiterals (net : Inet) : Prop where
  v4 : ∀ c a, net.ptonV4 c = some a → dot ∈ c.text ∧ colon ∉ c.text ∧ slash ∉ c.text
  v6 : ∀ c a, net.ptonV6 c = some a → colon ∈ c.text ∧ slash ∉ c.text

/-- A literal of the family, and a length in the family's range. -/
def Inet.Accepts (net : Inet) : PrefixFamily → CString → Nat → Prop
  | .v4, literal, n => (∃ a, net.ptonV4 literal = some a) ∧ n ≤ 32
  | .v6, literal, n => (∃ a, net.ptonV6 literal = some a) ∧ n ≤ 128

/-- The text is CIDR notation with the length `n`: an address literal, a slash,
and the numeral of a length in range. -/
def IsCidr (net : Inet) (t : Bytes) (n : Nat) : Prop :=
  ∃ (literal : CString) (lengthText : Bytes) (family : PrefixFamily),
    t = literal.text ++ slash :: lengthText ∧ IsNumeral lengthText n ∧
      net.Accepts family literal n

/-- The text is accepted exactly as CIDR notation: if and only if it is that,
and with the length it has there. Both a text wrongly accepted and one wrongly
refused break this. -/
def ReadsCidrOnly (net : Inet) (t : Bytes) : Prop :=
  ((∃ p, parsePrefix net t = .ok p) ↔ ∃ n, IsCidr net t n) ∧
    ∀ p, parsePrefix net t = .ok p → IsCidr net t p.length.toNat

/-- A literal and a length in range, with a `NUL` and more before the slash,
white space or a sign before the digits, or something that is no digit behind
them. A colon behind the `NUL` would change the family that is inferred, so an
IPv4 literal has none there. -/
def LaxCidr (net : Inet) (t : Bytes) : Prop :=
  ∃ (literal : CString) (junk lengthText : Bytes) (family : PrefixFamily) (n : Nat),
    t = (literal.text ++ junk) ++ slash :: lengthText ∧ slash ∉ junk ∧
      (∀ c, junk.head? = some c → c = 0) ∧ (family = .v4 → colon ∉ junk) ∧
      Converts lengthText n ∧ net.Accepts family literal n ∧
      (junk ≠ [] ∨ Led lengthText ∨ Trailed lengthText)

/-! ## What is accepted -/

/-- Every text with a slash splits at the first one. -/
theorem exists_split {t : Bytes} (h : slash ∈ t) :
    ∃ address lengthText, t = address ++ slash :: lengthText ∧ slash ∉ address := by
  refine ⟨t.takeWhile (· != slash), (t.dropWhile (· != slash)).tail, ?_, fun hmem => ?_⟩
  · cases hdrop : t.dropWhile (· != slash) with
    | nil =>
      have hall := List.dropWhile_eq_nil_iff.mp hdrop slash h
      exact absurd hall (by decide)
    | cons c rest =>
      have hhead := List.head?_dropWhile_not (· != slash) t
      rw [hdrop] at hhead
      have hc : c = slash := by simpa using hhead
      have hsplit : slash :: rest = t.dropWhile (· != slash) := by rw [hdrop, hc]
      rw [List.tail_cons, hsplit]
      exact List.takeWhile_append_dropWhile.symm
  · exact absurd (List.mem_takeWhile_imp hmem) (by decide)

/-- A text splits at its first slash in one way only. -/
theorem split_unique {address₁ address₂ rest₁ rest₂ : Bytes} (h₁ : slash ∉ address₁)
    (h₂ : slash ∉ address₂) (h : address₁ ++ slash :: rest₁ = address₂ ++ slash :: rest₂) :
    address₁ = address₂ ∧ rest₁ = rest₂ := by
  have haddress := takeWhile_ne_sep h₁ rest₁
  have hrest := dropWhile_ne_sep h₁ rest₁
  rw [h, takeWhile_ne_sep h₂] at haddress
  rw [h, dropWhile_ne_sep h₂] at hrest
  exact ⟨haddress.symm, (List.cons.inj hrest).2.symm⟩

/-- Splitting at the slash leaves the part behind it to `stoul`, which throws if
it finds no number. -/
theorem splitCidr_append {address : Bytes} (haddress : slash ∉ address) (lengthText : Bytes) :
    splitCidr (address ++ slash :: lengthText) =
      stoul lengthText >>= fun lengthValue =>
        if lengthValue > 255 then
          .error (.runtimeError (bytes "Invalid CIDR length: " ++
            (address ++ slash :: lengthText)))
        else .ok (address, lengthValue.toUInt8) := by
  rw [splitCidr, if_neg (not_not_intro (List.mem_append_right _ List.mem_cons_self))]
  simp only [takeWhile_ne_sep haddress, dropWhile_ne_sep haddress, List.tail_cons]

/-- The length is what `stoul` makes of everything behind the first slash, and
the address is everything before it. -/
theorem splitCidr_eq_ok {t address : Bytes} {length : UInt8} :
    splitCidr t = .ok (address, length) ↔
      ∃ lengthText, t = address ++ slash :: lengthText ∧ slash ∉ address ∧
        Converts lengthText length.toNat := by
  constructor
  · intro h
    by_cases hmem : slash ∈ t
    · obtain ⟨address', lengthText, rfl, haddress⟩ := exists_split hmem
      rw [splitCidr_append haddress] at h
      obtain ⟨value, hvalue, h⟩ := bind_eq_ok.mp h
      split at h
      next => cases h
      next hle =>
        cases h
        have hlt : value.toNat < 256 := by
          rw [gt_iff_lt, UInt64.lt_iff_toNat_lt] at hle
          have h255 : (255 : UInt64).toNat = 255 := rfl
          omega
        refine ⟨lengthText, rfl, haddress, ?_⟩
        rw [UInt64.toNat_toUInt8, Nat.mod_eq_of_lt hlt]
        exact strtoull_ok_iff.mp hvalue
    · rw [splitCidr, if_pos hmem] at h
      cases h
  · rintro ⟨lengthText, rfl, haddress, hconverts⟩
    have hlt : length.toNat < 256 := length.toNat_lt
    have hvalue : stoul lengthText = .ok length.toUInt64 :=
      strtoull_ok_iff.mpr (by rw [UInt8.toNat_toUInt64]; exact hconverts)
    have hle : ¬ length.toUInt64 > 255 := by
      rw [gt_iff_lt, UInt64.lt_iff_toNat_lt, UInt8.toNat_toUInt64]
      exact Nat.not_lt.mpr (Nat.le_of_lt_succ hlt)
    rw [splitCidr_append haddress, hvalue, ok_bind, if_neg hle, UInt8.toUInt8_toUInt64]

variable {net : Inet}

/-- The family is read off the part before the first slash. -/
theorem inferFamily_append {address : Bytes} (haddress : slash ∉ address) (rest : Bytes)
    (family : PrefixFamily) :
    inferFamilyFromText (address ++ slash :: rest) = .ok family ↔
      match family with
      | .v4 => colon ∉ address ∧ dot ∈ address
      | .v6 => colon ∈ address := by
  unfold inferFamilyFromText
  simp only [takeWhile_ne_sep haddress]
  split
  next hcolon => cases family <;> simp [colon, hcolon]
  next hcolon =>
    split
    next hdot => cases family <;> simp [colon, dot, hcolon, hdot]
    next hdot => cases family <;> simp [colon, dot, hcolon, hdot]

/-- **The accepted texts**: what is read before the slash is a C string in the
family its characters suggest, what is converted behind it a length in that
family's range. Nothing else is looked at. -/
theorem parsePrefix_length_iff {t : Bytes} {n : Nat} :
    (∃ p, parsePrefix net t = .ok p ∧ p.length.toNat = n) ↔
      ∃ address lengthText family, t = address ++ slash :: lengthText ∧ slash ∉ address ∧
        inferFamilyFromText t = .ok family ∧ Converts lengthText n ∧
        net.Accepts family (cStr address) n := by
  constructor
  · rintro ⟨p, hp, rfl⟩
    obtain ⟨a, length, ⟨hfamily, address, hsplit, hdecoded⟩, hwidth, rfl⟩ := parsePrefix_eq_ok.mp hp
    obtain ⟨lengthText, ht, haddress, hconverts⟩ := splitCidr_eq_ok.mp hsplit
    rw [length_masked]
    refine ⟨address, lengthText, a.family, ht, haddress, hfamily, hconverts, ?_⟩
    cases a with
    | v4 hostOrder => exact ⟨⟨hostOrder, hdecoded⟩, hwidth⟩
    | v6 octets => exact ⟨⟨octets, hdecoded⟩, hwidth⟩
  · rintro ⟨address, lengthText, family, ht, haddress, hfamily, hconverts, haccepts⟩
    have hlt : n < 256 := by
      cases family with
      | v4 => exact Nat.lt_of_le_of_lt haccepts.2 (by decide)
      | v6 => exact Nat.lt_of_le_of_lt haccepts.2 (by decide)
    have hlength : (UInt8.ofNat n).toNat = n := UInt8.toNat_ofNat_of_lt' hlt
    have hsplit : splitCidr t = .ok (address, UInt8.ofNat n) :=
      splitCidr_eq_ok.mpr ⟨lengthText, ht, haddress, by rw [hlength]; exact hconverts⟩
    have haddr : ∃ a : Address, a.family = family ∧ a.DecodedBy net (cStr address) ∧ n ≤ a.width := by
      cases family with
      | v4 =>
        obtain ⟨⟨a, ha⟩, hle⟩ := haccepts
        exact ⟨.v4 a, rfl, ha, hle⟩
      | v6 =>
        obtain ⟨⟨a, ha⟩, hle⟩ := haccepts
        exact ⟨.v6 a, rfl, ha, hle⟩
    obtain ⟨a, rfl, hdecoded, hwidth⟩ := haddr
    refine ⟨a.masked (UInt8.ofNat n), parsePrefix_eq_ok.mpr ⟨a, UInt8.ofNat n,
      ⟨hfamily, address, hsplit, hdecoded⟩, by rw [hlength]; exact hwidth, rfl⟩, ?_⟩
    rw [length_masked, hlength]

/-! ## CIDR notation and the rest -/

/-- The C string a function is given, and what of the text it does not see: the
part from the first `NUL` on, if there is one. -/
theorem exists_junk (address : Bytes) :
    ∃ junk, address = (cStr address).text ++ junk ∧ ∀ c, junk.head? = some c → c = 0 := by
  refine ⟨address.dropWhile (· != 0), List.takeWhile_append_dropWhile.symm, fun c hc => ?_⟩
  have hhead := List.head?_dropWhile_not (· != 0) address
  rw [hc] at hhead
  simpa using hhead

/-- A C string followed by nothing or by a `NUL` is read as itself. -/
theorem cStr_append (literal : CString) {junk : Bytes} (h : ∀ c, junk.head? = some c → c = 0) :
    cStr (literal.text ++ junk) = literal := by
  cases junk with
  | nil => rw [List.append_nil, cStr_text]
  | cons c junk =>
    obtain rfl := h c rfl
    obtain ⟨text, hnul⟩ := literal
    unfold cStr
    congr 1
    exact takeWhile_ne_sep hnul junk

/-- A literal has no slash, so the first slash of the text is behind it. -/
theorem Inet.ReadsLiterals.slash_notMem (hnet : net.ReadsLiterals) {family : PrefixFamily}
    {literal : CString} {n : Nat} (h : net.Accepts family literal n) : slash ∉ literal.text := by
  cases family with
  | v4 =>
    obtain ⟨⟨a, ha⟩, -⟩ := h
    exact (hnet.v4 literal a ha).2.2
  | v6 =>
    obtain ⟨⟨a, ha⟩, -⟩ := h
    exact (hnet.v6 literal a ha).2

/-- A literal's characters tell its family, unless a colon stands behind an IPv4
one. -/
theorem Inet.ReadsLiterals.inferFamily (hnet : net.ReadsLiterals) {family : PrefixFamily}
    {literal : CString} {n : Nat} (h : net.Accepts family literal n) {junk : Bytes}
    (hslash : slash ∉ junk) (hcolon : family = .v4 → colon ∉ junk) (rest : Bytes) :
    inferFamilyFromText ((literal.text ++ junk) ++ slash :: rest) = .ok family := by
  have haddress : slash ∉ literal.text ++ junk := by
    rw [List.mem_append, not_or]
    exact ⟨hnet.slash_notMem h, hslash⟩
  rw [inferFamily_append haddress]
  cases family with
  | v4 =>
    obtain ⟨⟨a, ha⟩, -⟩ := h
    obtain ⟨hdot, hno, -⟩ := hnet.v4 literal a ha
    refine ⟨?_, List.mem_append_left _ hdot⟩
    rw [List.mem_append, not_or]
    exact ⟨hno, hcolon rfl⟩
  | v6 =>
    obtain ⟨⟨a, ha⟩, -⟩ := h
    exact List.mem_append_left _ (hnet.v6 literal a ha).1

/-- A length in range fits into any integer type. -/
theorem Inet.Accepts.lt_size {family : PrefixFamily} {literal : CString} {n : Nat}
    (h : net.Accepts family literal n) : n < 2 ^ 64 := by
  cases family with
  | v4 => exact Nat.lt_of_le_of_lt h.2 (by decide)
  | v6 => exact Nat.lt_of_le_of_lt h.2 (by decide)

/-- CIDR notation is accepted, with the length it has. -/
theorem IsCidr.accepted (hnet : net.ReadsLiterals) {t : Bytes} {n : Nat} (h : IsCidr net t n) :
    ∃ p, parsePrefix net t = .ok p ∧ p.length.toNat = n := by
  obtain ⟨literal, lengthText, family, rfl, hnumeral, haccepts⟩ := h
  have hfamily := hnet.inferFamily haccepts List.not_mem_nil (fun _ => List.not_mem_nil) lengthText
  rw [List.append_nil] at hfamily
  refine parsePrefix_length_iff.mpr ⟨literal.text, lengthText, family, rfl,
    hnet.slash_notMem haccepts, hfamily, hnumeral.converts haccepts.lt_size, ?_⟩
  rw [cStr_text]
  exact haccepts

/-- A lax text is accepted as well, and is no CIDR notation: its parts are
determined by the first slash, and one of them is no literal or no numeral. -/
theorem LaxCidr.accepted (hnet : net.ReadsLiterals) {t : Bytes} (h : LaxCidr net t) :
    (∃ p, parsePrefix net t = .ok p) ∧ ∀ n, ¬ IsCidr net t n := by
  obtain ⟨literal, junk, lengthText, family, n, rfl, hslash, hnul, hcolon, hconverts, haccepts,
    hlax⟩ := h
  have haddress : slash ∉ literal.text ++ junk := by
    rw [List.mem_append, not_or]
    exact ⟨hnet.slash_notMem haccepts, hslash⟩
  constructor
  · obtain ⟨p, hp, -⟩ := parsePrefix_length_iff.mpr ⟨literal.text ++ junk, lengthText, family, rfl,
      haddress, hnet.inferFamily haccepts hslash hcolon lengthText, hconverts,
      (cStr_append literal hnul).symm ▸ haccepts⟩
    exact ⟨p, hp⟩
  · rintro m ⟨literal', lengthText', family', ht, hnumeral, haccepts'⟩
    -- both split at the first slash, so the parts are the same
    obtain ⟨hsame, rfl⟩ := split_unique haddress (hnet.slash_notMem haccepts') ht
    rcases hlax with hjunk | hled | htrailed
    · cases hcases : junk with
      | nil => exact hjunk hcases
      | cons c rest =>
        have hc : c = 0 := hnul c (by rw [hcases]; rfl)
        apply literal'.noNul
        rw [← hsame, hcases, hc]
        exact List.mem_append_right _ List.mem_cons_self
    · exact hnumeral.not_led hled
    · exact hnumeral.not_trailed htrailed

/-- An accepted text is CIDR notation or a lax form of it. There is no third
kind, so the two definitions together describe the parser. -/
theorem isCidr_or_laxCidr {t : Bytes} {p : BinaryPrefix} (hp : parsePrefix net t = .ok p) :
    IsCidr net t p.length.toNat ∨ LaxCidr net t := by
  obtain ⟨address, lengthText, family, rfl, haddress, hfamily, hconverts, haccepts⟩ :=
    parsePrefix_length_iff.mp ⟨p, hp, rfl⟩
  obtain ⟨junk, hjunk, hnul⟩ := exists_junk address
  have hslash : slash ∉ junk := fun h => haddress (hjunk ▸ List.mem_append_right _ h)
  have hcolon : family = .v4 → colon ∉ junk := by
    rintro rfl h
    exact ((inferFamily_append haddress lengthText _).mp hfamily).1
      (hjunk ▸ List.mem_append_right _ h)
  have hlax : (junk ≠ [] ∨ Led lengthText ∨ Trailed lengthText) →
      LaxCidr net (address ++ slash :: lengthText) := fun h =>
    ⟨cStr address, junk, lengthText, family, p.length.toNat, by rw [← hjunk], hslash, hnul, hcolon,
      hconverts, haccepts, h⟩
  by_cases hnil : junk = []
  · rcases hconverts.led_or_trailed_or_numeral with hled | htrailed | hnumeral
    · exact Or.inr (hlax (Or.inr (Or.inl hled)))
    · exact Or.inr (hlax (Or.inr (Or.inr htrailed)))
    · refine Or.inl ⟨cStr address, lengthText, family, ?_, hnumeral, haccepts⟩
      rw [hnil, List.append_nil] at hjunk
      rw [← hjunk]
  · exact Or.inr (hlax (Or.inl hnil))

/-! ## A library that reads so -/

/-- What is read as a dotted quad has a dot, and neither a colon nor a slash. -/
theorem readQuad_literal {text : Bytes} {a : UInt32} (h : readQuad text = some a) :
    dot ∈ text ∧ colon ∉ text ∧ slash ∉ text := by
  have htext : [dot].intercalate (text.splitOn dot) = text := List.intercalate_splitOn dot
  unfold readQuad at h
  split at h
  next p₁ p₂ p₃ p₄ hparts =>
    rw [hparts] at htext
    simp only [Option.bind_eq_bind, Option.bind_eq_some_iff] at h
    obtain ⟨n₁, h₁, n₂, h₂, n₃, h₃, n₄, h₄, -⟩ := h
    have hdigits : ∀ part ∈ [p₁, p₂, p₃, p₄], ∃ n, part = toDec n := by
      have hoctet : ∀ {part n}, readOctet part = some n → part = toDec (digitsValue part) := by
        intro part n hpart
        unfold readOctet at hpart
        split at hpart
        next hok => exact hok.1.symm
        next => cases hpart
      intro part hpart
      simp only [List.mem_cons, List.not_mem_nil, or_false] at hpart
      rcases hpart with rfl | rfl | rfl | rfl
      · exact ⟨_, hoctet h₁⟩
      · exact ⟨_, hoctet h₂⟩
      · exact ⟨_, hoctet h₃⟩
      · exact ⟨_, hoctet h₄⟩
    have hnot : ∀ c, isDigit c = false → c ≠ dot → c ∉ text := by
      intro c hdigit hdot hc
      rw [← htext] at hc
      rcases mem_intercalate hc with hc | ⟨part, hpart, hc⟩
      · exact hdot hc
      · obtain ⟨n, rfl⟩ := hdigits part hpart
        exact notMem_toDec hdigit n hc
    refine ⟨?_, hnot colon (by decide) (by decide), hnot slash (by decide) (by decide)⟩
    rw [← htext]
    exact sep_mem_intercalate _ _ _
  next => cases h

/-- What is read as groups has two bytes to a group, all of them hexadecimal
digits. -/
theorem readGroups_eq_some : ∀ (groups : List Bytes) (octets : List UInt8),
    readGroups groups = some octets →
      octets.length = 2 * groups.length ∧ ∀ group ∈ groups, slash ∉ group := by
  intro groups
  induction groups with
  | nil =>
    intro octets h
    cases h
    exact ⟨rfl, fun group h => absurd h List.not_mem_nil⟩
  | cons group rest ih =>
    intro octets h
    rw [readGroups.eq_def] at h
    dsimp only at h
    split at h
    next c₁ c₂ c₃ c₄ =>
      simp only [readHexByte, Option.bind_eq_bind, Option.bind_eq_some_iff] at h
      obtain ⟨_, ⟨_, h₁, _, h₂, -⟩, _, ⟨_, h₃, _, h₄, -⟩, tail, htail, hoctets⟩ := h
      cases hoctets
      obtain ⟨hlength, hslash⟩ := ih tail htail
      refine ⟨by simp only [List.length_cons, hlength]; omega, fun group hgroup => ?_⟩
      rcases List.mem_cons.mp hgroup with rfl | hgroup
      · have hhex : ∀ {c v}, hexValue c = some v → slash ≠ c := by
          rintro c v hv rfl
          have hnone : hexValue slash = none := by decide
          rw [hnone] at hv
          cases hv
        simp only [List.mem_cons, List.not_mem_nil, or_false, not_or]
        exact ⟨hhex h₁, hhex h₂, hhex h₃, hhex h₄⟩
      · exact hslash group hgroup
    next => cases h

/-- What is read as groups has a colon and no slash. -/
theorem readAddressV6_literal {text : Bytes} {a : Vector UInt8 16}
    (h : readAddressV6 text = some a) : colon ∈ text ∧ slash ∉ text := by
  have htext : [colon].intercalate (text.splitOn colon) = text := List.intercalate_splitOn colon
  unfold readAddressV6 at h
  simp only [Option.bind_eq_bind, Option.bind_eq_some_iff] at h
  obtain ⟨octets, hgroups, h⟩ := h
  split at h
  next hlength =>
    obtain ⟨htwice, hslash⟩ := readGroups_eq_some _ _ hgroups
    constructor
    · match hparts : text.splitOn colon, htwice with
      | [], htwice =>
        rw [List.length_nil] at htwice
        omega
      | [_], htwice =>
        rw [List.length_singleton] at htwice
        omega
      | _ :: _ :: _, _ =>
        rw [← htext, hparts]
        exact sep_mem_intercalate _ _ _
    · intro hc
      rw [← htext] at hc
      rcases mem_intercalate hc with hc | ⟨group, hgroup, hc⟩
      · exact absurd hc (by decide)
      · exact hslash group hgroup hc
  next => cases h

theorem standard_readsLiterals : Inet.standard.ReadsLiterals where
  v4 _ _ h := readQuad_literal h
  v6 _ _ h := readAddressV6_literal h

/-! ## What the code makes of a text -/

/-- **Accepted texts are CIDR notation, but for lax ones.** A text is accepted
exactly as the CIDR notation it is, unless it has a literal and a length in
range with something more between them or around the digits: blanks, a sign, or
anything at the end. Both directions are about all texts. -/
theorem readsCidrOnly_iff (hnet : net.ReadsLiterals) (t : Bytes) :
    ReadsCidrOnly net t ↔ ¬ LaxCidr net t := by
  constructor
  · rintro ⟨hiff, -⟩ hlax
    obtain ⟨haccepted, hno⟩ := hlax.accepted hnet
    obtain ⟨n, hn⟩ := hiff.mp haccepted
    exact hno n hn
  · intro hlax
    have hread : ∀ p, parsePrefix net t = .ok p → IsCidr net t p.length.toNat := fun p hp =>
      (isCidr_or_laxCidr hp).resolve_right hlax
    refine ⟨⟨fun ⟨p, hp⟩ => ⟨_, hread p hp⟩, fun ⟨n, hn⟩ => ?_⟩, hread⟩
    obtain ⟨p, hp, -⟩ := hn.accepted hnet
    exact ⟨p, hp⟩

/-- Something behind the digits: not CIDR notation, and accepted. `std::stoul`
stops at the first byte that is no digit, and nobody asks where it stopped. -/
theorem not_readsCidrOnly_trailed : ¬ ReadsCidrOnly Inet.standard (bytes "8.8.8.0/24x") := by
  have hlax : LaxCidr Inet.standard (bytes "8.8.8.0/24x") := by
    refine ⟨cStr (bytes "8.8.8.0"), [], bytes "24x", .v4, 24, by decide, List.not_mem_nil,
      fun _ h => (nomatch h), fun _ => List.not_mem_nil, ?_, ⟨⟨0x08080800, by decide⟩, by decide⟩,
      Or.inr (Or.inr ?_)⟩
    · exact strtoull_ok_iff.mp (show stoul (bytes "24x") = .ok 24 by decide)
    · exact ⟨bytes "24", 120, [], rfl, by decide, List.all_eq_true.mp (by decide), by decide⟩
  rintro ⟨hiff, -⟩
  obtain ⟨haccepted, hno⟩ := hlax.accepted standard_readsLiterals
  obtain ⟨n, hn⟩ := hiff.mp haccepted
  exact hno n hn

theorem readsCidrOnly_iff_documentation : ReadsCidrOnly Inet.standard (bytes "192.0.2.129/24") := by
  refine (readsCidrOnly_iff standard_readsLiterals _).mpr fun hlax =>
    (hlax.accepted standard_readsLiterals).2 24 ?_
  exact ⟨cStr (bytes "192.0.2.129"), bytes "24", .v4, by decide,
    ⟨by decide, List.all_eq_true.mp (by decide), by decide⟩, ⟨0xC0000281, by decide⟩, by decide⟩

end ASNPrefixMap.Prefix
