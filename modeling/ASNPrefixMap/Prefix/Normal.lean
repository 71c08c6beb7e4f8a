import ASNPrefixMap.Prefix.Bits

/-!
# Prefix texts in normal form

Printing is driven by the type of a key, reading by the characters of a text:
the family is guessed from a colon or a dot before the slash. What is asked of
the C library is `Inet.Prints`: `inet_pton` inverts `inet_ntop`, an IPv4 text
has a dot and no colon, an IPv6 text has a colon, neither has a slash. Then the
text of a key reads as that key again (`readAs_printed`), so on the keys that
texts denote, the canonical ones, printing and parsing are inverse
(`parsePrefix_toString_inverse`).

Two things are asked of the library apart: `Inet.Prints` for reading back what
was printed, and `Inet.TellsApart` for what the tables need, where texts are
compared and not read. The second follows from the first. Nothing is assumed of
texts the library did not print; that is the business of
`ASNPrefixMap.Prefix.Notation`.
-/

namespace ASNPrefixMap.Prefix

open Lib

/-- `inet_pton` inverts `inet_ntop` on every address, and the texts tell the
family: an IPv4 text has a dot and no colon, an IPv6 text has a colon, and
neither has a slash. -/
structure Inet.Prints (net : Inet) : Prop where
  v4 : ∀ a, ∃ c, net.ntopV4 a = some c ∧ net.ptonV4 c = some a ∧
    dot ∈ c.text ∧ colon ∉ c.text ∧ slash ∉ c.text
  v6 : ∀ a, ∃ c, net.ntopV6 a = some c ∧ net.ptonV6 c = some a ∧ colon ∈ c.text ∧ slash ∉ c.text

/-- `to_string` after `parse_prefix`: the text a prefix has in all files of the
program, whatever text it came in. -/
def normalise (net : Inet) (cidrText : Bytes) : Except Exception Bytes := do
  let p ← parsePrefix net cidrText
  p.toString net

/-- The parser of one family, its key as a `BinaryPrefix`. A snapshot line names
its family, so the loader asks this parser and does not infer. -/
def parsePrefixOf (net : Inet) : PrefixFamily → Bytes → Except Exception BinaryPrefix
  | .v4, cidrText => do return .v4 (← parsePrefixV4 net cidrText)
  | .v6, cidrText => do return .v6 (← parsePrefixV6 net cidrText)

/-- `parse_prefix` is the parser of the inferred family, or the error of the
inference. -/
theorem parsePrefix_eq (net : Inet) (t : Bytes) :
    parsePrefix net t = inferFamilyFromText t >>= fun family => parsePrefixOf net family t := by
  unfold parsePrefix
  congr 1
  funext family
  cases family <;> rfl

/-- A text that `parse_prefix` accepts is accepted by the parser of its key's
family, with the same key. -/
theorem parsePrefixOf_family {net : Inet} {t : Bytes} {p : BinaryPrefix}
    (h : parsePrefix net t = .ok p) : parsePrefixOf net (familyOf p) t = .ok p := by
  obtain ⟨a, length, hread, -, rfl⟩ := parsePrefix_eq_ok.mp h
  rw [parsePrefix_eq, hread.family, ok_bind] at h
  rw [familyOf_masked, h]

/-! ## Canonical keys are the keys of texts -/

/-- A canonical key has no more bits that count than its address has. -/
theorem length_le_width {p : BinaryPrefix} (hp : p.Canonical) :
    p.length.toNat ≤ p.network.width := by
  cases p with
  | v4 p => exact UInt8.le_iff_toNat_le.mp hp.length_le
  | v6 p => exact UInt8.le_iff_toNat_le.mp hp.length_le

/-- Masking a canonical key's own network changes nothing. -/
theorem masked_network {p : BinaryPrefix} (hp : p.Canonical) : p.network.masked p.length = p := by
  cases p with
  | v4 p => exact congrArg BinaryPrefix.v4 (congrArg (PrefixV4.mk · p.length) hp.masked)
  | v6 p => exact congrArg BinaryPrefix.v6 (congrArg (PrefixV6.mk · p.length) hp.masked)

/-- A masked key is canonical, whatever the address was. -/
theorem canonical_masked {a : Address} {length : UInt8} (h : length.toNat ≤ a.width) :
    (a.masked length).Canonical := by
  cases a with
  | v4 hostOrder => exact ⟨UInt8.le_iff_toNat_le.mpr h, applyMaskV4_idem hostOrder length⟩
  | v6 octets => exact ⟨UInt8.le_iff_toNat_le.mpr h, applyMaskV6_idem octets length⟩

/-! ## Printing -/

/-- A colon before the slash makes a text IPv6, whatever else is in it. -/
theorem inferFamilyFromText_of_colon {t : Bytes} (h : colon ∈ t.takeWhile (· != slash)) :
    inferFamilyFromText t = .ok .v6 := if_pos h

/-- A dot and no colon before the slash make it IPv4. -/
theorem inferFamilyFromText_of_dot {t : Bytes} (hcolon : colon ∉ t.takeWhile (· != slash))
    (hdot : dot ∈ t.takeWhile (· != slash)) : inferFamilyFromText t = .ok .v4 :=
  (if_neg hcolon).trans (if_pos hdot)

/-- The part of a printed key before the slash is the printed address. -/
theorem takeWhile_printed {c : CString} (hc : slash ∉ c.text) (length : UInt8) :
    (c.text ++ bytes "/" ++ toDec length.toNat).takeWhile (· != slash) = c.text := by
  have hslash : bytes "/" = [slash] := by decide
  rw [hslash, List.append_assoc]
  exact takeWhile_ne_sep hc _

variable {net : Inet}

/-- A key prints, and its text names the key's own family, network and length.
The characters of the text and the type of the key tell the same family. -/
theorem readAs_printed (hnet : net.Prints) (p : BinaryPrefix) :
    ∃ s, p.toString net = .ok s ∧ ReadAs net s p.network p.length := by
  cases p with
  | v4 p =>
    obtain ⟨c, hntop, hpton, hdot, hcolon, hslash⟩ := hnet.v4 p.network
    have htake := takeWhile_printed hslash p.length
    refine ⟨c.text ++ bytes "/" ++ toDec p.length.toNat, ?_, ?_,
      c.text, splitCidr_printed hslash p.length, ?_⟩
    · show toStringWith _ (net.ntopV4 p.network) p.length = _
      rw [hntop, toStringWith]
    · exact inferFamilyFromText_of_dot (by rw [htake]; exact hcolon) (by rw [htake]; exact hdot)
    · rw [cStr_text]
      exact hpton
  | v6 p =>
    obtain ⟨c, hntop, hpton, hcolon, hslash⟩ := hnet.v6 p.network
    have htake := takeWhile_printed hslash p.length
    refine ⟨c.text ++ bytes "/" ++ toDec p.length.toNat, ?_, ?_,
      c.text, splitCidr_printed hslash p.length, ?_⟩
    · show toStringWith _ (net.ntopV6 p.network) p.length = _
      rw [hntop, toStringWith]
    · exact inferFamilyFromText_of_colon (by rw [htake]; exact hcolon)
    · rw [cStr_text]
      exact hpton

/-- The text of a canonical key parses to the key. -/
theorem parsePrefix_printed (hnet : net.Prints) {p : BinaryPrefix} (hp : p.Canonical) :
    ∃ s, p.toString net = .ok s ∧ parsePrefix net s = .ok p := by
  obtain ⟨s, hs, hread⟩ := readAs_printed hnet p
  exact ⟨s, hs, parsePrefix_eq_ok.mpr
    ⟨p.network, p.length, hread, length_le_width hp, (masked_network hp).symm⟩⟩

/-- What a text can denote is exactly a canonical key, so any network of any
length in range. The parser leaves none of them out. -/
theorem canonical_iff_parsed (hnet : net.Prints) {p : BinaryPrefix} :
    p.Canonical ↔ ∃ t, parsePrefix net t = .ok p := by
  constructor
  · intro hp
    obtain ⟨s, -, hparse⟩ := parsePrefix_printed hnet hp
    exact ⟨s, hparse⟩
  · rintro ⟨t, ht⟩
    exact parsePrefix_canonical ht

/-- **Printing and parsing are inverse on stored keys.** The text of a key that
some text denotes is accepted by `parse_prefix` and by the parser of the key's
own family, and both give the key back; so different stored keys have different
texts, and a normalised text is its own normal form. Every address masked to
every length in range is such a key, and a text with a colon before the slash is
IPv6 with or without a dot. -/
theorem parsePrefix_toString_inverse (hnet : net.Prints) :
    (∀ t p, parsePrefix net t = .ok p → ∃ s, p.toString net = .ok s ∧
      parsePrefix net s = .ok p ∧ parsePrefixOf net (familyOf p) s = .ok p) ∧
    (∀ t₁ t₂ p₁ p₂, parsePrefix net t₁ = .ok p₁ → parsePrefix net t₂ = .ok p₂ →
      p₁.toString net = p₂.toString net → p₁ = p₂) ∧
    (∀ t s, normalise net t = .ok s → normalise net s = .ok s) ∧
    (∀ (a : Address) (length : UInt8), length.toNat ≤ a.width → ∃ t, parsePrefix net t = .ok (a.masked length)) ∧
    (∀ t p, parsePrefix net t = .ok p → colon ∈ t.takeWhile (· != slash) →
      familyOf p = .v6) := by
  refine ⟨fun t p ht => ?_, fun t₁ t₂ p₁ p₂ h₁ h₂ heq => ?_, fun t s hs => ?_,
    fun a length hle => (canonical_iff_parsed hnet).mp (canonical_masked hle),
    fun t p ht hcolon => ?_⟩
  · obtain ⟨s, hs, hparse⟩ := parsePrefix_printed hnet (parsePrefix_canonical ht)
    exact ⟨s, hs, hparse, parsePrefixOf_family hparse⟩
  · obtain ⟨s₁, hs₁, hparse₁⟩ := parsePrefix_printed hnet (parsePrefix_canonical h₁)
    obtain ⟨s₂, hs₂, hparse₂⟩ := parsePrefix_printed hnet (parsePrefix_canonical h₂)
    rw [hs₁, hs₂] at heq
    cases heq
    rw [hparse₁] at hparse₂
    cases hparse₂
    rfl
  · obtain ⟨p, hp, hprint⟩ := bind_eq_ok.mp hs
    obtain ⟨s', hs', hparse⟩ := parsePrefix_printed hnet (parsePrefix_canonical hp)
    rw [hprint] at hs'
    cases hs'
    exact bind_eq_ok.mpr ⟨p, hparse, hprint⟩
  · obtain ⟨a, length, hread, -, rfl⟩ := parsePrefix_eq_ok.mp ht
    have hfamily := hread.family
    rw [inferFamilyFromText_of_colon hcolon] at hfamily
    rw [familyOf_masked]
    exact (Except.ok.inj hfamily).symm

/-! ## Different keys print differently -/

/-- `inet_ntop` prints every address, different ones differently, and no text is
of both families. This is what makes a row of a table stand for one prefix. -/
structure Inet.TellsApart (net : Inet) : Prop where
  v4 : ∀ a, ∃ c, net.ntopV4 a = some c
  v6 : ∀ a, ∃ c, net.ntopV6 a = some c
  v4_injective : Function.Injective net.ntopV4
  v6_injective : Function.Injective net.ntopV6
  apart : ∀ a b, net.ntopV4 a ≠ net.ntopV6 b

/-- A library that reads back what it prints tells addresses apart: equal texts
are read as one address, and the colon separates the families. -/
theorem Inet.Prints.tellsApart (hnet : net.Prints) : net.TellsApart where
  v4 a := by
    obtain ⟨c, hc, -⟩ := hnet.v4 a
    exact ⟨c, hc⟩
  v6 a := by
    obtain ⟨c, hc, -⟩ := hnet.v6 a
    exact ⟨c, hc⟩
  v4_injective a b h := by
    obtain ⟨c, hc, hread, -⟩ := hnet.v4 a
    obtain ⟨d, hd, hread', -⟩ := hnet.v4 b
    rw [hc, hd] at h
    cases h
    exact Option.some.inj (hread.symm.trans hread')
  v6_injective a b h := by
    obtain ⟨c, hc, hread, -⟩ := hnet.v6 a
    obtain ⟨d, hd, hread', -⟩ := hnet.v6 b
    rw [hc, hd] at h
    cases h
    exact Option.some.inj (hread.symm.trans hread')
  apart a b h := by
    obtain ⟨c, hc, -, -, hno, -⟩ := hnet.v4 a
    obtain ⟨d, hd, -, hcolon, -⟩ := hnet.v6 b
    rw [hc, hd] at h
    cases h
    exact hno hcolon

/-- What `inet_ntop` makes of a key's network. -/
def BinaryPrefix.ntop (net : Inet) : BinaryPrefix → Option CString
  | .v4 p => net.ntopV4 p.network
  | .v6 p => net.ntopV6 p.network

theorem Inet.TellsApart.ntop (hnet : net.TellsApart) (p : BinaryPrefix) :
    ∃ c, p.ntop net = some c := by
  cases p with
  | v4 p => exact hnet.v4 p.network
  | v6 p => exact hnet.v6 p.network

/-- Keys of one length whose networks are printed alike are equal. -/
theorem Inet.TellsApart.eq_of_ntop (hnet : net.TellsApart) {p q : BinaryPrefix}
    (hntop : p.ntop net = q.ntop net) (hlength : p.length = q.length) : p = q := by
  cases p with
  | v4 p =>
    cases q with
    | v4 q =>
      obtain ⟨network, length⟩ := p
      obtain rfl := hnet.v4_injective hntop
      exact congrArg (fun l => BinaryPrefix.v4 ⟨q.network, l⟩) hlength
    | v6 q => exact absurd hntop (hnet.apart _ _)
  | v6 p =>
    cases q with
    | v4 q => exact absurd hntop.symm (hnet.apart _ _)
    | v6 q =>
      obtain ⟨network, length⟩ := p
      obtain rfl := hnet.v6_injective hntop
      exact congrArg (fun l => BinaryPrefix.v6 ⟨q.network, l⟩) hlength

/-- The text of a key, given that of its network. -/
theorem toString_of_ntop {p : BinaryPrefix} {c : CString} (h : p.ntop net = some c) :
    p.toString net = .ok (c.text ++ slash :: toDec p.length.toNat) := by
  have hslash : ∀ l, c.text ++ bytes "/" ++ toDec l = c.text ++ slash :: toDec l := by
    intro l
    rw [List.append_assoc]
    rfl
  rw [← hslash]
  cases p with
  | v4 p =>
    have h' : net.ntopV4 p.network = some c := h
    rw [BinaryPrefix.toString, PrefixV4.toString, h']
    rfl
  | v6 p =>
    have h' : net.ntopV6 p.network = some c := h
    rw [BinaryPrefix.toString, PrefixV6.toString, h']
    rfl

theorem Inet.TellsApart.toString_eq_ok (hnet : net.TellsApart) (p : BinaryPrefix) :
    ∃ text, p.toString net = .ok text := by
  obtain ⟨c, hc⟩ := hnet.ntop p
  exact ⟨_, toString_of_ntop hc⟩

/-- No two keys have the same text, masked or not: the slash separates the
printed network from the length. -/
theorem Inet.TellsApart.toString_inj (hnet : net.TellsApart) {p q : BinaryPrefix} {text : Bytes}
    (hp : p.toString net = .ok text) (hq : q.toString net = .ok text) : p = q := by
  obtain ⟨c, hc⟩ := hnet.ntop p
  obtain ⟨d, hd⟩ := hnet.ntop q
  rw [toString_of_ntop hc] at hp
  rw [toString_of_ntop hd] at hq
  have htext := Except.ok.inj (hp.trans hq.symm)
  obtain ⟨haddress, hlength⟩ := append_sep_inj (notMem_toDec (by decide) _)
    (notMem_toDec (by decide) _) htext
  have hcd : c = d := by rw [← cStr_text c, haddress, cStr_text]
  rw [← hcd] at hd
  exact hnet.eq_of_ntop (hc.trans hd.symm) (UInt8.toNat_inj.mp (toDec_injective hlength))

/-! ## A library that prints so -/

theorem sep_mem_intercalate {sep : UInt8} (l₁ l₂ : Bytes) (ls : List Bytes) :
    sep ∈ [sep].intercalate (l₁ :: l₂ :: ls) := by
  rw [List.intercalate_cons_cons]
  exact List.mem_append_left _ (List.mem_append_right _ List.mem_cons_self)

theorem dot_mem_printQuad (a : UInt32) : dot ∈ printQuad a := sep_mem_intercalate _ _ _

/-- The groups of an IPv6 address have a colon between them, so such a text is
taken for IPv6. -/
theorem colon_mem_printGroups (a : Vector UInt8 16) : colon ∈ printGroups a := by
  unfold printGroups
  have hlength : a.toList.length = 16 := Vector.length_toList
  match a.toList, hlength with
  | _ :: _ :: _ :: _ :: _, _ => exact sep_mem_intercalate _ _ _

theorem standard_prints : Inet.standard.Prints where
  v4 a := by
    obtain ⟨c, hntop, hpton, hslash, -, -⟩ := standard_roundTrips.v4 a
    have htext : c.text = printQuad a := by
      rw [← Option.some.inj hntop, text_cStr (notMem_printQuad (by decide) (by decide) a)]
    refine ⟨c, hntop, hpton, ?_, ?_, hslash⟩
    · rw [htext]
      exact dot_mem_printQuad a
    · rw [htext]
      exact notMem_printQuad (by decide) (by decide) a
  v6 a := by
    obtain ⟨c, hntop, hpton, hslash, -, -⟩ := standard_roundTrips.v6 a
    have htext : c.text = printGroups a := by
      rw [← Option.some.inj hntop, text_cStr (notMem_printGroups (Or.inl rfl) a)]
    refine ⟨c, hntop, hpton, ?_, hslash⟩
    rw [htext]
    exact colon_mem_printGroups a

theorem parsePrefix_toString_inverse_documentation :
    let p : BinaryPrefix := .v4 ⟨0xC0000200, 24⟩
    parsePrefix Inet.standard (bytes "192.0.2.129/24") = .ok p ∧
      ∃ s, p.toString Inet.standard = .ok s ∧ parsePrefix Inet.standard s = .ok p ∧
        parsePrefixOf Inet.standard (familyOf p) s = .ok p := by
  have h : parsePrefix Inet.standard (bytes "192.0.2.129/24") = .ok (.v4 ⟨0xC0000200, 24⟩) := by
    decide
  exact ⟨h, (parsePrefix_toString_inverse standard_prints).1 _ _ h⟩

end ASNPrefixMap.Prefix
