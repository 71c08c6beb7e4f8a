import ASNPrefixMap.Lib.Bytes

/-!
# Binary prefixes

The prefix keys of `src/prefix/prefix.h`: a masked network and its length, IPv4
and IPv6 as two different types, `BinaryPrefix` as their variant. The two
masking functions keep the first `length` bits of an address and clear the rest;
masking twice is masking once (`applyMaskV4_idem`, `applyMaskV6_idem`), which is
why a printed key parses back to itself.

Mirroring notes:

- the source stores an IPv6 network as `std::array<uint8_t, 16>`, here a vector
  of that length; the IPv4 network is a `uint32_t` in host byte order on both
  sides;
- `std::hash` and `operator==` of the keys are left out: a hash map is seen
  through its contents, and equality is equality of the fields;
- the shift by `32 - length` is one of `int` in the source; that its count is in
  range where it is evaluated is proved in `ASNPrefixMap.Prefix.Bits`.
-/

namespace ASNPrefixMap.Prefix

/-- `PrefixV4`: the network in host byte order, and the number of its bits that
count. Nothing keeps the other bits clear but the parser
(`PrefixV4.Canonical`). -/
structure PrefixV4 where
  network : UInt32
  length : UInt8
  deriving DecidableEq

/-- `PrefixV6`: the sixteen octets in network order, and the number of bits that
count. -/
structure PrefixV6 where
  network : Vector UInt8 16
  length : UInt8
  deriving DecidableEq

/-- The key of the routing state: `std::variant<PrefixV4, PrefixV6>`. So a
prefix of one family is never equal to one of the other, whatever their bits
are. -/
inductive BinaryPrefix
  | v4 (value : PrefixV4)
  | v6 (value : PrefixV6)
  deriving DecidableEq

/-- `PrefixFamily`, the tag that stands in a snapshot line and decides which
parser a text goes to. -/
inductive PrefixFamily
  | v4
  | v6
  deriving DecidableEq

/-- The family of a key, which is the alternative its variant holds. -/
def familyOf : BinaryPrefix → PrefixFamily
  | .v4 _ => .v4
  | .v6 _ => .v6

/-- `apply_mask_v4`: clear the bits behind the first `length`. The shift is by
32 bits at most, and the length of an IPv4 prefix has been checked before. -/
def applyMaskV4 (network : UInt32) (length : UInt8) : UInt32 :=
  -- a shift by 32 is undefined, so the code takes length 0 apart
  if length = 0 then 0
  else
    let mask := (0xFFFFFFFF : UInt32) <<< UInt32.ofNat (32 - length.toNat)
    network &&& mask

/-- The byte loop of `apply_mask_v6`, with its `bits_left` counter: whole bytes
are kept while eight bits or more are left, the byte in which the length ends is
masked, and the others are cleared. -/
def maskBytes : UInt8 → List UInt8 → List UInt8
  | _, [] => []
  | bitsLeft, byte :: rest =>
    if bitsLeft ≥ 8 then byte :: maskBytes (bitsLeft - 8) rest
    else if bitsLeft = 0 then 0 :: maskBytes bitsLeft rest
    else
      let mask : UInt8 := 0xFF <<< (8 - bitsLeft)
      (byte &&& mask) :: maskBytes 0 rest

/-- The loop visits each byte once and puts one in its place. -/
theorem length_maskBytes : ∀ (l : List UInt8) (bitsLeft : UInt8),
    (maskBytes bitsLeft l).length = l.length := by
  intro l
  induction l with
  | nil => exact fun _ => rfl
  | cons byte rest ih =>
    intro bitsLeft
    rw [maskBytes]
    split
    next => rw [List.length_cons, ih, List.length_cons]
    next =>
      split
      next => rw [List.length_cons, ih, List.length_cons]
      next => simp only [List.length_cons, ih]

/-- `apply_mask_v6`: clear the bits behind the first `length`. The array has its
length in its type, so it is carried along. -/
def applyMaskV6 (network : Vector UInt8 16) (length : UInt8) : Vector UInt8 16 :=
  ⟨(maskBytes length network.toList).toArray, by
    rw [List.size_toArray, length_maskBytes, Vector.length_toList]⟩

/-- Masking twice is masking once: what is cleared stays cleared. -/
theorem applyMaskV4_idem (network : UInt32) (length : UInt8) :
    applyMaskV4 (applyMaskV4 network length) length = applyMaskV4 network length := by
  unfold applyMaskV4
  split
  next => rfl
  next => simp only [UInt32.and_assoc, UInt32.and_self]

/-- The same of the byte loop. The induction is on the bytes, with the counter
that is left for each. -/
theorem maskBytes_idem : ∀ (l : List UInt8) (bitsLeft : UInt8),
    maskBytes bitsLeft (maskBytes bitsLeft l) = maskBytes bitsLeft l := by
  intro l
  induction l with
  | nil => exact fun _ => rfl
  | cons byte rest ih =>
    intro bitsLeft
    by_cases h8 : bitsLeft ≥ 8
    · simp only [maskBytes, if_pos h8, ih]
    · by_cases h0 : bitsLeft = 0
      · simp only [maskBytes, if_neg h8, if_pos h0, ih]
      · simp only [maskBytes, if_neg h8, if_neg h0, ih, UInt8.and_assoc, UInt8.and_self]

/-- The octets of a masked address are what the loop makes of the octets. -/
theorem toList_applyMaskV6 (network : Vector UInt8 16) (length : UInt8) :
    (applyMaskV6 network length).toList = maskBytes length network.toList := by
  rw [applyMaskV6, Vector.toList_mk]

/-- Masking twice is masking once, of all sixteen octets. -/
theorem applyMaskV6_idem (network : Vector UInt8 16) (length : UInt8) :
    applyMaskV6 (applyMaskV6 network length) length = applyMaskV6 network length := by
  apply Vector.toList_inj.mp
  rw [toList_applyMaskV6, toList_applyMaskV6, maskBytes_idem]

/-! ## Canonical keys -/

/-- A key as the parser builds it: a length in range and no bit set past it. The
routing state never checks this, it holds because every key in it was parsed. -/
structure PrefixV4.Canonical (p : PrefixV4) : Prop where
  length_le : p.length ≤ 32
  masked : applyMaskV4 p.network p.length = p.network

/-- The same of an IPv6 key. -/
structure PrefixV6.Canonical (p : PrefixV6) : Prop where
  length_le : p.length ≤ 128
  masked : applyMaskV6 p.network p.length = p.network

/-- A key of either family as the parser builds it. -/
def BinaryPrefix.Canonical : BinaryPrefix → Prop
  | .v4 p => p.Canonical
  | .v6 p => p.Canonical

/-! ## Numbering the keys -/

/-- The number a byte string denotes in base 256. -/
private def byteValue (l : List UInt8) : Nat := l.foldl (fun n b => 256 * n + b.toNat) 0

private theorem byteValue_concat (l : List UInt8) (b : UInt8) :
    byteValue (l ++ [b]) = 256 * byteValue l + b.toNat := by
  rw [byteValue, List.foldl_append]
  rfl

/-- Byte strings of one length are told apart by their numbers. -/
private theorem byteValue_injective : ∀ (l₁ l₂ : List UInt8), l₁.length = l₂.length →
    byteValue l₁ = byteValue l₂ → l₁ = l₂ := by
  intro l₁
  induction l₁ using List.reverseRecOn with
  | nil =>
    intro l₂ hlen _
    exact (List.length_eq_zero_iff.mp hlen.symm).symm
  | append_singleton l₁ b₁ ih =>
    intro l₂ hlen hval
    induction l₂ using List.reverseRecOn with
    | nil => simp at hlen
    | append_singleton l₂ b₂ _ =>
      rw [byteValue_concat, byteValue_concat] at hval
      have h₁ := b₁.toNat_lt
      have h₂ := b₂.toNat_lt
      simp only [List.length_append, List.length_singleton, Nat.add_right_cancel_iff] at hlen
      rw [ih l₂ hlen (by omega), UInt8.toNat_inj.mp (show b₁.toNat = b₂.toNat by omega)]

/-- A different number for every IPv4 key. It serves for a computable iteration
order, as the hash of the source serves for its buckets, but without
collisions. -/
def PrefixV4.rank (p : PrefixV4) : Nat := 256 * p.network.toNat + p.length.toNat

/-- The length is in the last byte and the network before it, so the number
gives both back. -/
theorem PrefixV4.rank_injective : Function.Injective PrefixV4.rank := by
  rintro ⟨n₁, l₁⟩ ⟨n₂, l₂⟩ h
  simp only [PrefixV4.rank] at h
  have h₁ := l₁.toNat_lt
  have h₂ := l₂.toNat_lt
  rw [UInt32.toNat_inj.mp (show n₁.toNat = n₂.toNat by omega),
    UInt8.toNat_inj.mp (show l₁.toNat = l₂.toNat by omega)]

/-- A different number for every IPv6 key. -/
def PrefixV6.rank (p : PrefixV6) : Nat := 256 * byteValue p.network.toList + p.length.toNat

/-- The same of IPv6 keys, whose networks are of one length. -/
theorem PrefixV6.rank_injective : Function.Injective PrefixV6.rank := by
  rintro ⟨n₁, l₁⟩ ⟨n₂, l₂⟩ h
  simp only [PrefixV6.rank] at h
  have h₁ := l₁.toNat_lt
  have h₂ := l₂.toNat_lt
  have hn : n₁.toList = n₂.toList :=
    byteValue_injective _ _ (by rw [Vector.length_toList, Vector.length_toList]) (by omega)
  rw [Vector.toList_inj.mp hn, UInt8.toNat_inj.mp (show l₁.toNat = l₂.toNat by omega)]

end ASNPrefixMap.Prefix
