import ASNPrefixMap.Prefix.InetText

/-!
# The bits of a prefix key

What masking does, bit by bit. A bit of an address is counted from the most
significant one; `applyMaskV4` cuts with one shifted word, `applyMaskV6` with a
byte loop and its `bits_left` counter, and both keep exactly the first `length`
bits and clear the others (`bit_masked`). So two accepted texts give the same
key exactly when they name the same network (`parsePrefix_eq_iff`): same family,
same length, and addresses that agree on that many bits.

Mirroring notes:

- the source has no notion of bit `i` of an address; `bit` is this development's
  own, and the statement about equality of keys is made with it;
- the `int` arithmetic of the shift count (`32 - length` after integer
  promotion) is written out as `shiftCountV4`, because a count outside `0..31`
  would be undefined behaviour;
- `inet_pton` leaves an IPv4 address in network byte order and `ntohl` turns it
  round; the model has the address in host order from the start.
-/

namespace ASNPrefixMap.Prefix

open Lib

/-! ## Words and byte strings, most significant bit first -/

/-- A word of ones shifted left by `w - n` keeps the first `n` bits of what
it masks. This is the only fact about shifts that the two masking functions
need. -/
theorem getMsbD_and_shiftLeft {w n : Nat} (hn : n ≤ w) (x : BitVec w) (i : Nat) :
    (x &&& BitVec.allOnes w <<< (w - n)).getMsbD i = (decide (i < n) && x.getMsbD i) := by
  have hlt : i + (w - n) < w ↔ i < n := by omega
  rw [BitVec.getMsbD_and, BitVec.getMsbD_shiftLeft, BitVec.getMsbD_allOnes, decide_eq_decide.mpr hlt,
    Bool.and_comm]

/-- Bit `i` of a byte string, counted from the most significant bit of its first
byte; behind the end all bits are clear. -/
def byteBit (l : List UInt8) (i : Nat) : Bool := (l.getD (i / 8) 0).toBitVec.getMsbD (i % 8)

/-- The first eight positions are those of the first byte. -/
theorem byteBit_cons_of_lt {i : Nat} (hi : i < 8) (byte : UInt8) (rest : List UInt8) :
    byteBit (byte :: rest) i = byte.toBitVec.getMsbD i := by
  rw [byteBit, Nat.div_eq_of_lt hi, Nat.mod_eq_of_lt hi, List.getD_cons_zero]

/-- The others are those of the rest, eight further on. -/
theorem byteBit_cons_add (byte : UInt8) (rest : List UInt8) (i : Nat) :
    byteBit (byte :: rest) (i + 8) = byteBit rest i := by
  rw [byteBit, Nat.add_div_right _ (by decide), Nat.add_mod_right, List.getD_cons_succ, byteBit]

/-- The positions of a byte string are those of its first byte and, eight
further, those of the others. So a statement about all positions is proved byte
by byte. -/
theorem byteBit_cons_cases {p : Nat → Prop} (hhead : ∀ i < 8, p i) (htail : ∀ i, p (i + 8)) :
    ∀ i, p i := by
  intro i
  by_cases hi : i < 8
  · exact hhead i hi
  · have h := htail (i - 8)
    rwa [Nat.sub_add_cancel (Nat.le_of_not_lt hi)] at h

/-- Byte strings of one length that agree on every bit are equal. -/
theorem eq_of_byteBit_eq : ∀ (l₁ l₂ : List UInt8), l₁.length = l₂.length →
    (∀ i < 8 * l₁.length, byteBit l₁ i = byteBit l₂ i) → l₁ = l₂ := by
  intro l₁
  induction l₁ with
  | nil => exact fun l₂ hlen _ => (List.length_eq_zero_iff.mp hlen.symm).symm
  | cons byte₁ rest₁ ih =>
    intro l₂ hlen hbits
    match l₂ with
    | [] => cases hlen
    | byte₂ :: rest₂ =>
      rw [List.length_cons, List.length_cons] at hlen
      rw [List.length_cons] at hbits
      have hbyte : byte₁ = byte₂ := by
        apply UInt8.toBitVec_inj.mp
        apply BitVec.eq_of_getMsbD_eq
        intro i hi
        have h := hbits i (by omega)
        rwa [byteBit_cons_of_lt hi, byteBit_cons_of_lt hi] at h
      have hrest : rest₁ = rest₂ := by
        refine ih rest₂ (by omega) fun i hi => ?_
        have h := hbits (i + 8) (by omega)
        rwa [byteBit_cons_add, byteBit_cons_add] at h
      rw [hbyte, hrest]

/-! ## The two masking functions -/

/-- The shift count of `apply_mask_v4`, an `int`; a count outside `0..31` is
undefined. -/
def shiftCountV4 (length : UInt8) : Int := 32 - (length.toNat : Int)

/-- As a natural number the count is the difference, cut off at zero. -/
theorem toNat_shiftCountV4 (length : UInt8) : (shiftCountV4 length).toNat = 32 - length.toNat := by
  unfold shiftCountV4
  omega

/-- For a length between 1 and 32 the count is between 0 and 31, so the shift is
defined. The length 0 is taken apart in the code for this reason. -/
theorem shiftCountV4_defined {length : UInt8} (h0 : length ≠ 0) (h32 : length ≤ 32) :
    0 ≤ shiftCountV4 length ∧ shiftCountV4 length < 32 := by
  have hpos : length.toNat ≠ 0 := fun h => h0 (UInt8.toNat_inj.mp h)
  have hle : length.toNat ≤ 32 := UInt8.le_iff_toNat_le.mp h32
  unfold shiftCountV4
  omega

/-- Where the code shifts, it shifts by that count. For length 0 it does not
come to the shift. -/
theorem applyMaskV4_of_ne_zero {length : UInt8} (h0 : length ≠ 0) (network : UInt32) :
    applyMaskV4 network length =
      network &&& 0xFFFFFFFF <<< UInt32.ofNat (shiftCountV4 length).toNat := by
  rw [applyMaskV4, if_neg h0, toNat_shiftCountV4]

/-- The mask of a word keeps the first `length` bits and clears the rest. -/
theorem getMsbD_applyMaskV4 {length : UInt8} (h32 : length ≤ 32) (network : UInt32) (i : Nat) :
    (applyMaskV4 network length).toBitVec.getMsbD i =
      (decide (i < length.toNat) && network.toBitVec.getMsbD i) := by
  have hle : length.toNat ≤ 32 := UInt8.le_iff_toNat_le.mp h32
  by_cases h0 : length = 0
  · -- the guarded case: every bit is cleared
    have hzero : (applyMaskV4 network length).toBitVec = 0#32 := by
      rw [applyMaskV4, if_pos h0]
      rfl
    rw [hzero, BitVec.getMsbD_zero, h0]
    rfl
  · have hpos : length.toNat ≠ 0 := fun h => h0 (UInt8.toNat_inj.mp h)
    have hshift : ((0xFFFFFFFF : UInt32) <<< UInt32.ofNat (32 - length.toNat)).toBitVec =
        BitVec.allOnes 32 <<< (32 - length.toNat) := by
      have hcount : (UInt32.ofNat (32 - length.toNat)).toBitVec % 32 =
          BitVec.ofNat 32 (32 - length.toNat) := by
        apply BitVec.eq_of_toNat_eq
        rw [BitVec.toNat_umod, BitVec.toNat_ofNat, UInt32.toNat_toBitVec, UInt32.toNat_ofNat']
        show (32 - length.toNat) % 2 ^ 32 % 32 = (32 - length.toNat) % 2 ^ 32
        omega
      rw [UInt32.toBitVec_shiftLeft, hcount, BitVec.shiftLeft_eq', BitVec.toNat_ofNat,
        Nat.mod_eq_of_lt (by omega)]
      rfl
    rw [applyMaskV4_of_ne_zero h0, toNat_shiftCountV4, UInt32.toBitVec_and, hshift,
      getMsbD_and_shiftLeft hle]

/-- The mask `apply_mask_v6` builds for the byte where the length ends. -/
theorem getMsbD_partialByte {bitsLeft : UInt8} (h8 : ¬ bitsLeft ≥ 8) (h0 : bitsLeft ≠ 0)
    (byte : UInt8) (i : Nat) :
    (byte &&& 0xFF <<< (8 - bitsLeft)).toBitVec.getMsbD i =
      (decide (i < bitsLeft.toNat) && byte.toBitVec.getMsbD i) := by
  have hlt : bitsLeft.toNat < 8 := UInt8.lt_iff_toNat_lt.mp (UInt8.not_le.mp h8)
  have hpos : bitsLeft.toNat ≠ 0 := fun h => h0 (UInt8.toNat_inj.mp h)
  have hshift : ((0xFF : UInt8) <<< (8 - bitsLeft)).toBitVec =
      BitVec.allOnes 8 <<< (8 - bitsLeft.toNat) := by
    have hsub : (8 - bitsLeft).toBitVec.toNat = 8 - bitsLeft.toNat := by
      rw [UInt8.toNat_toBitVec, UInt8.toNat_sub_of_le _ _ (UInt8.le_iff_toNat_le.mpr (Nat.le_of_lt hlt))]
      rfl
    have hcount : ((8 - bitsLeft).toBitVec % 8).toNat = 8 - bitsLeft.toNat := by
      rw [BitVec.toNat_umod, hsub]
      exact Nat.mod_eq_of_lt (by omega : 8 - bitsLeft.toNat < 8)
    rw [UInt8.toBitVec_shiftLeft, BitVec.shiftLeft_eq', hcount]
    rfl
  rw [UInt8.toBitVec_and, hshift, getMsbD_and_shiftLeft (Nat.le_of_lt hlt)]

/-- The byte loop keeps the first `bitsLeft` bits, wherever the length falls in
a byte. By induction on the bytes: a whole byte takes eight from the counter,
the byte that is cut takes all that is left. -/
theorem byteBit_maskBytes : ∀ (l : List UInt8) (bitsLeft : UInt8) (i : Nat),
    byteBit (maskBytes bitsLeft l) i = (decide (i < bitsLeft.toNat) && byteBit l i) := by
  intro l
  induction l with
  | nil =>
    intro bitsLeft i
    rw [maskBytes, byteBit, List.getD_nil]
    show (0#8).getMsbD (i % 8) = (decide (i < bitsLeft.toNat) && (0#8).getMsbD (i % 8))
    rw [BitVec.getMsbD_zero, Bool.and_false]
  | cons byte rest ih =>
    intro bitsLeft
    by_cases h8 : bitsLeft ≥ 8
    · -- a whole byte is kept, and the counter goes down by eight
      have hle : 8 ≤ bitsLeft.toNat := UInt8.le_iff_toNat_le.mp h8
      have hsub : (bitsLeft - 8).toNat = bitsLeft.toNat - 8 := UInt8.toNat_sub_of_le _ _ h8
      rw [maskBytes, if_pos h8]
      refine byteBit_cons_cases (fun i hi => ?_) (fun i => ?_)
      · rw [byteBit_cons_of_lt hi, byteBit_cons_of_lt hi, decide_eq_true (by omega), Bool.true_and]
      · have hlt : i < bitsLeft.toNat - 8 ↔ i + 8 < bitsLeft.toNat := by omega
        rw [byteBit_cons_add, byteBit_cons_add, ih, hsub, decide_eq_decide.mpr hlt]
    · by_cases h0 : bitsLeft = 0
      · -- past the length every byte is cleared
        rw [maskBytes, if_neg h8, if_pos h0, h0]
        refine byteBit_cons_cases (fun i hi => ?_) (fun i => ?_)
        · rw [byteBit_cons_of_lt hi]
          exact BitVec.getMsbD_zero
        · rw [byteBit_cons_add, byteBit_cons_add, ih]
          rfl
      · -- the byte the length ends in; the counter drops to zero behind it
        have hlt : bitsLeft.toNat < 8 := UInt8.lt_iff_toNat_lt.mp (UInt8.not_le.mp h8)
        rw [maskBytes, if_neg h8, if_neg h0]
        refine byteBit_cons_cases (fun i hi => ?_) (fun i => ?_)
        · rw [byteBit_cons_of_lt hi, byteBit_cons_of_lt hi, getMsbD_partialByte h8 h0]
        · rw [byteBit_cons_add, byteBit_cons_add, ih, decide_eq_false (by omega : ¬ i + 8 < bitsLeft.toNat)]
          rfl

/-! ## Addresses -/

/-- An address as `inet_pton` decodes it, before masking. The bits behind the
length may be anything; the parser of the family clears them. -/
inductive Address
  | v4 (hostOrder : UInt32)
  | v6 (octets : Vector UInt8 16)
  deriving DecidableEq

namespace Address

/-- The family an address is of. -/
def family : Address → PrefixFamily
  | .v4 _ => .v4
  | .v6 _ => .v6

/-- The number of bits of an address, which bounds the length of its
prefixes. -/
def width : Address → Nat
  | .v4 _ => 32
  | .v6 _ => 128

/-- Bit `i` of an address, the most significant first. -/
def bit : Address → Nat → Bool
  | .v4 hostOrder, i => hostOrder.toBitVec.getMsbD i
  | .v6 octets, i => byteBit octets.toList i

/-- The key the parser of the family builds from an address and a length. -/
def masked : Address → UInt8 → BinaryPrefix
  | .v4 hostOrder, length => .v4 ⟨applyMaskV4 hostOrder length, length⟩
  | .v6 octets, length => .v6 ⟨applyMaskV6 octets length, length⟩

/-- `inet_pton` of the address's family decodes the text to it. An IPv6 address
is decoded to its octets, an IPv4 address to a number. -/
def DecodedBy (net : Inet) (text : CString) : Address → Prop
  | .v4 hostOrder => net.ptonV4 text = some hostOrder
  | .v6 octets => net.ptonV6 text = some octets

/-- Addresses of one family that agree on every bit are equal: nothing else is
stored of them. -/
theorem eq_of_bit_eq {a b : Address} (hfamily : a.family = b.family)
    (hbits : ∀ i < a.width, a.bit i = b.bit i) : a = b := by
  cases a with
  | v4 x =>
    cases b with
    | v6 _ => cases hfamily
    | v4 y =>
      have hxy : x = y :=
        UInt32.toBitVec_inj.mp (BitVec.eq_of_getMsbD_eq fun {i} hi => hbits i hi)
      rw [hxy]
  | v6 x =>
    cases b with
    | v4 _ => cases hfamily
    | v6 y =>
      have hxy : x = y := by
        apply Vector.toList_inj.mp
        refine eq_of_byteBit_eq _ _ (by rw [Vector.length_toList, Vector.length_toList]) ?_
        intro i hi
        rw [Vector.length_toList] at hi
        exact hbits i hi
      rw [hxy]

end Address

/-- The network field of a key, as an address. -/
def BinaryPrefix.network : BinaryPrefix → Address
  | .v4 p => .v4 p.network
  | .v6 p => .v6 p.network

/-- The length field of a key. -/
def BinaryPrefix.length : BinaryPrefix → UInt8
  | .v4 p => p.length
  | .v6 p => p.length

theorem BinaryPrefix.eq_of_network_length {p q : BinaryPrefix} (hnetwork : p.network = q.network)
    (hlength : p.length = q.length) : p = q := by
  cases p with
  | v4 p =>
    cases q with
    | v6 _ => cases hnetwork
    | v4 q =>
      obtain ⟨n, l⟩ := p
      obtain ⟨m, k⟩ := q
      cases hnetwork
      cases hlength
      rfl
  | v6 p =>
    cases q with
    | v4 _ => cases hnetwork
    | v6 q =>
      obtain ⟨n, l⟩ := p
      obtain ⟨m, k⟩ := q
      cases hnetwork
      cases hlength
      rfl

section Masked

variable {a b : Address} {length : UInt8}

/-- The key has the length it was built with. -/
theorem length_masked (a : Address) (length : UInt8) : (a.masked length).length = length := by
  cases a <;> rfl

theorem familyOf_masked (a : Address) (length : UInt8) :
    familyOf (a.masked length) = a.family := by
  cases a <;> rfl

theorem family_network_masked (a : Address) (length : UInt8) :
    (a.masked length).network.family = a.family := by
  cases a <;> rfl

/-- Masking keeps the first `length` bits of an address and clears the rest, in
either family. What the two masking functions do differently does not show. -/
theorem bit_masked (hlength : length.toNat ≤ a.width) (i : Nat) :
    (a.masked length).network.bit i = (decide (i < length.toNat) && a.bit i) := by
  cases a with
  | v4 hostOrder => exact getMsbD_applyMaskV4 (UInt8.le_iff_toNat_le.mpr hlength) hostOrder i
  | v6 octets =>
    show byteBit (applyMaskV6 octets length).toList i = _
    rw [toList_applyMaskV6]
    exact byteBit_maskBytes octets.toList length i

/-- Two masked keys are the same exactly when they denote the same network: one
family, one length, and the same bits up to there. The bits behind do not
count. -/
theorem masked_eq_masked {k : UInt8} (ha : length.toNat ≤ a.width) (hb : k.toNat ≤ b.width) :
    a.masked length = b.masked k ↔
      a.family = b.family ∧ length = k ∧ ∀ i < length.toNat, a.bit i = b.bit i := by
  constructor
  · intro h
    have hlen : length = k := by
      rw [← length_masked a length, h, length_masked]
    refine ⟨?_, hlen, fun i hi => ?_⟩
    · rw [← familyOf_masked a length, h, familyOf_masked]
    · have hbit := bit_masked ha i
      rw [h, bit_masked hb, ← hlen, decide_eq_true hi] at hbit
      exact hbit.symm
  · rintro ⟨hfamily, rfl, hbits⟩
    refine BinaryPrefix.eq_of_network_length (Address.eq_of_bit_eq ?_ fun i _ => ?_) ?_
    · rw [family_network_masked, family_network_masked, hfamily]
    · rw [bit_masked ha, bit_masked hb]
      by_cases hi : i < length.toNat
      · rw [hbits i hi]
      · rw [decide_eq_false hi, Bool.false_and, Bool.false_and]
    · rw [length_masked, length_masked]

end Masked

/-! ## Accepted texts -/

/-- What the code reads off a text: the family it infers from the characters
before the slash, the length after it, and the address `inet_pton` decodes from
the part before it. -/
structure ReadAs (net : Inet) (t : Bytes) (a : Address) (length : UInt8) : Prop where
  family : inferFamilyFromText t = .ok a.family
  split : ∃ address, splitCidr t = .ok (address, length) ∧ a.DecodedBy net (cStr address)

variable {net : Inet}

/-- The accepted texts, and the key each one gives. A text is accepted if it can
be read and its length is in range for its family; then its key is the masked
address. -/
theorem parsePrefix_eq_ok {t : Bytes} {p : BinaryPrefix} :
    parsePrefix net t = .ok p ↔
      ∃ a length, ReadAs net t a length ∧ length.toNat ≤ a.width ∧ p = a.masked length := by
  constructor
  · intro h
    obtain ⟨family, hfamily, h⟩ := bind_eq_ok.mp h
    cases family with
    | v4 =>
      obtain ⟨q, hq, h⟩ := bind_eq_ok.mp h
      cases h
      obtain ⟨address, length, a, hsplit, hlen, ha, rfl⟩ := parsePrefixWith_eq_ok.mp hq
      exact ⟨.v4 a, length, ⟨hfamily, address, hsplit, ha⟩, UInt8.le_iff_toNat_le.mp hlen, rfl⟩
    | v6 =>
      obtain ⟨q, hq, h⟩ := bind_eq_ok.mp h
      cases h
      obtain ⟨address, length, a, hsplit, hlen, ha, rfl⟩ := parsePrefixWith_eq_ok.mp hq
      exact ⟨.v6 a, length, ⟨hfamily, address, hsplit, ha⟩, UInt8.le_iff_toNat_le.mp hlen, rfl⟩
  · rintro ⟨a, length, ⟨hfamily, address, hsplit, ha⟩, hlen, rfl⟩
    refine bind_eq_ok.mpr ⟨a.family, hfamily, ?_⟩
    cases a with
    | v4 hostOrder =>
      exact bind_eq_ok.mpr ⟨_, parsePrefixWith_eq_ok.mpr
        ⟨address, length, hostOrder, hsplit, UInt8.le_iff_toNat_le.mpr hlen, ha, rfl⟩, rfl⟩
    | v6 octets =>
      exact bind_eq_ok.mpr ⟨_, parsePrefixWith_eq_ok.mpr
        ⟨address, length, octets, hsplit, UInt8.le_iff_toNat_le.mpr hlen, ha, rfl⟩, rfl⟩

/-- **Keys are canonical.** Two accepted texts give the same key exactly when
they have the same family and length and their addresses agree on that many
bits; a key's network holds those bits and no others; and where the IPv4 shift
is evaluated its count is in range. -/
theorem parsePrefix_eq_iff (net : Inet) {t₁ t₂ : Bytes} {p₁ p₂ : BinaryPrefix}
    (h₁ : parsePrefix net t₁ = .ok p₁) (h₂ : parsePrefix net t₂ = .ok p₂) :
    ∃ a₁ length₁ a₂ length₂, ReadAs net t₁ a₁ length₁ ∧ ReadAs net t₂ a₂ length₂ ∧
      (p₁ = p₂ ↔ a₁.family = a₂.family ∧ length₁ = length₂ ∧
        ∀ i < length₁.toNat, a₁.bit i = a₂.bit i) ∧
      familyOf p₁ = a₁.family ∧ p₁.length = length₁ ∧ length₁.toNat ≤ a₁.width ∧
      (∀ i < a₁.width, p₁.network.bit i = (decide (i < length₁.toNat) && a₁.bit i)) ∧
      (∀ hostOrder, a₁ = .v4 hostOrder → length₁ ≠ 0 →
        applyMaskV4 hostOrder length₁ =
            hostOrder &&& 0xFFFFFFFF <<< UInt32.ofNat (shiftCountV4 length₁).toNat ∧
          0 ≤ shiftCountV4 length₁ ∧ shiftCountV4 length₁ < 32) := by
  obtain ⟨a₁, length₁, hread₁, hle₁, rfl⟩ := parsePrefix_eq_ok.mp h₁
  obtain ⟨a₂, length₂, hread₂, hle₂, rfl⟩ := parsePrefix_eq_ok.mp h₂
  refine ⟨a₁, length₁, a₂, length₂, hread₁, hread₂, masked_eq_masked hle₁ hle₂,
    familyOf_masked a₁ length₁, length_masked a₁ length₁, hle₁, fun i _ => bit_masked hle₁ i, ?_⟩
  rintro hostOrder rfl h0
  exact ⟨applyMaskV4_of_ne_zero h0 hostOrder,
    shiftCountV4_defined h0 (UInt8.le_iff_toNat_le.mpr hle₁)⟩

theorem parsePrefix_eq_iff_documentation :
    let p : BinaryPrefix := .v4 ⟨0xC0000200, 24⟩
    parsePrefix Inet.standard (bytes "192.0.2.129/24") = .ok p ∧
      parsePrefix Inet.standard (bytes "192.0.2.7/24") = .ok p ∧
      ∃ a₁ length₁ a₂ length₂, ReadAs Inet.standard (bytes "192.0.2.129/24") a₁ length₁ ∧
        ReadAs Inet.standard (bytes "192.0.2.7/24") a₂ length₂ ∧
        (p = p ↔ a₁.family = a₂.family ∧ length₁ = length₂ ∧
          ∀ i < length₁.toNat, a₁.bit i = a₂.bit i) := by
  have h₁ : parsePrefix Inet.standard (bytes "192.0.2.129/24") = .ok (.v4 ⟨0xC0000200, 24⟩) := by
    decide
  have h₂ : parsePrefix Inet.standard (bytes "192.0.2.7/24") = .ok (.v4 ⟨0xC0000200, 24⟩) := by
    decide
  obtain ⟨a₁, length₁, a₂, length₂, hread₁, hread₂, hiff, -⟩ := parsePrefix_eq_iff _ h₁ h₂
  exact ⟨h₁, h₂, a₁, length₁, a₂, length₂, hread₁, hread₂, hiff⟩

end ASNPrefixMap.Prefix
