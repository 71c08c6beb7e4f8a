import ASNPrefixMap.Prefix.Cidr

/-!
# A concrete `inet_pton` and `inet_ntop`

`Inet.RoundTrips` is what the development asks of the C library. `Inet.standard`
meets it (`standard_roundTrips`), so that theorems under that hypothesis can be
run on examples: IPv4 addresses are dotted quads of canonical decimal numerals,
exactly as the C library reads and prints them; IPv6 addresses are eight groups
of four hexadecimal digits, the form without the `::` abbreviation, which is
among those the C library reads.

It is one of the libraries the theorems allow, not a model of a particular one:
it reads fewer IPv6 texts than `inet_pton` does (no `::`, no dotted quad at the
end, no capitals) and prints longer ones. On the texts of the examples it does
what the real functions do. It is computable, and no proof outside this file
unfolds it.
-/

namespace ASNPrefixMap.Prefix

open Lib

/-- The separator of a dotted quad, `'.'`. -/
def dot : UInt8 := 46
/-- The separator of the groups of an IPv6 address, `':'`. -/
def colon : UInt8 := 58

/-! ## IPv4 -/

/-- A canonical decimal numeral below 256. `inet_pton` refuses leading zeros,
and so does this. -/
def readOctet (part : Bytes) : Option Nat :=
  if toDec (digitsValue part) = part ∧ digitsValue part < 256 then some (digitsValue part) else none

theorem readOctet_toDec {n : Nat} (h : n < 256) : readOctet (toDec n) = some n := by
  unfold readOctet
  rw [digitsValue_toDec, if_pos ⟨rfl, h⟩]

/-- The four octets of an address, the most significant first, in decimal. -/
def quadParts (a : UInt32) : List Bytes :=
  [toDec (a.toNat / 16777216), toDec (a.toNat / 65536 % 256), toDec (a.toNat / 256 % 256),
    toDec (a.toNat % 256)]

/-- The dotted quad of an address. -/
def printQuad (a : UInt32) : Bytes := [dot].intercalate (quadParts a)

/-- The address of a dotted quad: four octets between three dots, and nothing
else. -/
def readQuad (text : Bytes) : Option UInt32 :=
  match text.splitOn dot with
  | [a, b, c, d] => do
    let a ← readOctet a
    let b ← readOctet b
    let c ← readOctet c
    let d ← readOctet d
    return UInt32.ofNat (16777216 * a + 65536 * b + 256 * c + d)
  | _ => none

theorem mem_quadParts {a : UInt32} {part : Bytes} (h : part ∈ quadParts a) :
    ∃ n, part = toDec n := by
  simp only [quadParts, List.mem_cons, List.not_mem_nil, or_false] at h
  rcases h with h | h | h | h <;> exact ⟨_, h⟩

/-- A byte that is neither a digit nor the dot is in no dotted quad. -/
theorem notMem_printQuad {c : UInt8} (hdigit : isDigit c = false) (hdot : c ≠ dot) (a : UInt32) :
    c ∉ printQuad a := by
  intro h
  rcases mem_intercalate h with h | ⟨part, hpart, h⟩
  · exact hdot h
  · obtain ⟨n, rfl⟩ := mem_quadParts hpart
    exact notMem_toDec hdigit n h

/-- A dotted quad that was printed is read back: the four octets are the digits
of the address in base 256. -/
theorem readQuad_printQuad (a : UInt32) : readQuad (printQuad a) = some a := by
  have hlt := a.toNat_lt
  have hsplit : (printQuad a).splitOn dot = quadParts a := by
    refine List.splitOn_intercalate dot ?_ (List.cons_ne_nil _ _)
    intro part hpart
    obtain ⟨n, rfl⟩ := mem_quadParts hpart
    exact notMem_toDec (by decide) n
  unfold readQuad
  rw [hsplit]
  unfold quadParts
  dsimp only
  rw [readOctet_toDec (by omega), readOctet_toDec (by omega), readOctet_toDec (by omega),
    readOctet_toDec (by omega)]
  have hval : 16777216 * (a.toNat / 16777216) + 65536 * (a.toNat / 65536 % 256) +
      256 * (a.toNat / 256 % 256) + a.toNat % 256 = a.toNat := by omega
  simp only [Option.bind_eq_bind, Option.bind_some, hval, UInt32.ofNat_toNat]
  rfl

/-! ## IPv6 -/

/-- A hexadecimal digit, in lower case. -/
def hexDigit (n : UInt8) : UInt8 := if n < 10 then 48 + n else 87 + n

/-- What a hexadecimal digit denotes; capitals are not read. -/
def hexValue (c : UInt8) : Option UInt8 :=
  if 48 ≤ c ∧ c ≤ 57 then some (c - 48)
  else if 97 ≤ c ∧ c ≤ 102 then some (c - 87)
  else none

/-- A byte as two hexadecimal digits. -/
def hexByte (b : UInt8) : Bytes := [hexDigit (b / 16), hexDigit (b % 16)]

/-- Two hexadecimal digits as a byte. -/
def readHexByte (hi lo : UInt8) : Option UInt8 := do
  let hi ← hexValue hi
  let lo ← hexValue lo
  return 16 * hi + lo

/-- The groups of an address, two bytes each. -/
def hexGroups : List UInt8 → List Bytes
  | a :: b :: rest => (hexByte a ++ hexByte b) :: hexGroups rest
  | _ => []

/-- The bytes of some groups of four digits. A group of another length is
refused. -/
def readGroups : List Bytes → Option (List UInt8)
  | [] => some []
  | group :: rest =>
    match group with
    | [c₁, c₂, c₃, c₄] => do
      let a ← readHexByte c₁ c₂
      let b ← readHexByte c₃ c₄
      let tail ← readGroups rest
      return a :: b :: tail
    | _ => none

/-- A digit is read back, and it is none of the bytes that separate groups,
prefixes, fields or lines. -/
theorem hexDigit_spec {n : UInt8} (hn : n.toNat < 16) :
    hexValue (hexDigit n) = some n ∧ hexDigit n ≠ 0 ∧ hexDigit n ≠ slash ∧ hexDigit n ≠ tab ∧
      hexDigit n ≠ newline ∧ hexDigit n ≠ colon := by
  have hall : ∀ i : Fin 16,
      hexValue (hexDigit (UInt8.ofNat i)) = some (UInt8.ofNat i) ∧ hexDigit (UInt8.ofNat i) ≠ 0 ∧
        hexDigit (UInt8.ofNat i) ≠ slash ∧ hexDigit (UInt8.ofNat i) ≠ tab ∧
        hexDigit (UInt8.ofNat i) ≠ newline ∧ hexDigit (UInt8.ofNat i) ≠ colon := by decide
  have hn' := hall ⟨n.toNat, hn⟩
  rw [UInt8.ofNat_toNat] at hn'
  exact hn'

/-- The same of the two digits of a byte. -/
theorem hexByte_spec (b : UInt8) :
    readHexByte (hexDigit (b / 16)) (hexDigit (b % 16)) = some b ∧
      ∀ c ∈ hexByte b, c ≠ 0 ∧ c ≠ slash ∧ c ≠ tab ∧ c ≠ newline ∧ c ≠ colon := by
  have hdiv : (b / 16).toNat = b.toNat / 16 := UInt8.toNat_div b 16
  have hmod : (b % 16).toNat = b.toNat % 16 := UInt8.toNat_mod b 16
  have hlt : b.toNat < 256 := b.toNat_lt
  obtain ⟨hhi, hhi'⟩ := hexDigit_spec (n := b / 16) (by omega)
  obtain ⟨hlo, hlo'⟩ := hexDigit_spec (n := b % 16) (by omega)
  have hval : 16 * (b / 16) + b % 16 = b := by
    apply UInt8.toNat_inj.mp
    have h16 : (16 : UInt8).toNat = 16 := rfl
    rw [UInt8.toNat_add, UInt8.toNat_mul, hdiv, hmod, h16]
    omega
  refine ⟨?_, fun c hc => ?_⟩
  · unfold readHexByte
    rw [hhi, hlo]
    exact congrArg some hval
  · rcases List.mem_pair.mp hc with rfl | rfl
    · exact hhi'
    · exact hlo'

/-- Groups that were printed are read back, two bytes at a time. -/
theorem readGroups_hexGroups : ∀ (n : Nat) (l : List UInt8), l.length = 2 * n →
    readGroups (hexGroups l) = some l := by
  intro n
  induction n with
  | zero =>
    intro l hl
    obtain rfl := List.length_eq_zero_iff.mp hl
    rfl
  | succ n ih =>
    intro l hl
    match l, hl with
    | a :: b :: rest, hl =>
      have hrest : rest.length = 2 * n := by
        rw [List.length_cons, List.length_cons] at hl
        omega
      show (do
        let a ← readHexByte (hexDigit (a / 16)) (hexDigit (a % 16))
        let b ← readHexByte (hexDigit (b / 16)) (hexDigit (b % 16))
        let tail ← readGroups (hexGroups rest)
        return a :: b :: tail) = some (a :: b :: rest)
      rw [(hexByte_spec a).1, (hexByte_spec b).1, ih rest hrest]
      rfl

/-- The bytes of the groups are hexadecimal digits. -/
theorem mem_hexGroups {c : UInt8} : ∀ (n : Nat) (l : List UInt8), l.length = 2 * n →
    ∀ group ∈ hexGroups l, c ∈ group → c ≠ 0 ∧ c ≠ slash ∧ c ≠ tab ∧ c ≠ newline ∧ c ≠ colon := by
  intro n
  induction n with
  | zero =>
    intro l hl group hgroup
    obtain rfl := List.length_eq_zero_iff.mp hl
    cases hgroup
  | succ n ih =>
    intro l hl group hgroup hc
    match l, hl with
    | a :: b :: rest, hl =>
      have hrest : rest.length = 2 * n := by
        rw [List.length_cons, List.length_cons] at hl
        omega
      rcases List.mem_cons.mp hgroup with rfl | hgroup
      · rcases List.mem_append.mp hc with hc | hc
        · exact (hexByte_spec a).2 c hc
        · exact (hexByte_spec b).2 c hc
      · exact ih rest hrest group hgroup hc

/-- The eight groups of an address, with colons between them. -/
def printGroups (a : Vector UInt8 16) : Bytes := [colon].intercalate (hexGroups a.toList)

/-- The address of eight groups. The number of octets is checked, so that they
make an address. -/
def readAddressV6 (text : Bytes) : Option (Vector UInt8 16) := do
  let octets ← readGroups (text.splitOn colon)
  if h : octets.length = 16 then some ⟨octets.toArray, h⟩ else none

/-- No separator is in the text of an IPv6 address, and no `NUL`. -/
theorem notMem_printGroups {c : UInt8} (hc : c = 0 ∨ c = slash ∨ c = tab ∨ c = newline)
    (a : Vector UInt8 16) : c ∉ printGroups a := by
  intro h
  rcases mem_intercalate h with h | ⟨group, hgroup, h⟩
  · rcases hc with rfl | rfl | rfl | rfl <;> exact absurd h (by decide)
  · obtain ⟨h0, hs, ht, hn, -⟩ := mem_hexGroups 8 a.toList (by rw [Vector.length_toList]) group hgroup h
    rcases hc with hc | hc | hc | hc
    · exact h0 hc
    · exact hs hc
    · exact ht hc
    · exact hn hc

/-- An IPv6 address that was printed is read back. -/
theorem readAddressV6_printGroups (a : Vector UInt8 16) :
    readAddressV6 (printGroups a) = some a := by
  have hlen : a.toList.length = 2 * 8 := by rw [Vector.length_toList]
  have hsplit : (printGroups a).splitOn colon = hexGroups a.toList := by
    refine List.splitOn_intercalate colon ?_ ?_
    · intro group hgroup hc
      exact (mem_hexGroups 8 a.toList hlen group hgroup hc).2.2.2.2 rfl
    · intro hnil
      match hl : a.toList, hlen with
      | x :: y :: rest, _ =>
        rw [hl] at hnil
        cases hnil
  unfold readAddressV6
  rw [hsplit, readGroups_hexGroups 8 a.toList hlen]
  show (if h : a.toList.length = 16 then some (⟨a.toList.toArray, h⟩ : Vector UInt8 16) else none) =
    some a
  rw [dif_pos (Vector.length_toList)]
  rfl

/-! ## The library -/

/-- Dotted quads and eight groups of hexadecimal digits. -/
def Inet.standard : Inet where
  ptonV4 c := readQuad c.text
  ptonV6 c := readAddressV6 c.text
  ntopV4 a := some (cStr (printQuad a))
  ntopV6 a := some (cStr (printGroups a))

/-- The library meets what is asked of one: it prints every address in a text
that it reads back and that can be embedded. So the hypothesis `RoundTrips` is
not empty. -/
theorem standard_roundTrips : Inet.standard.RoundTrips where
  v4 a := by
    have htext := text_cStr (notMem_printQuad (by decide) (by decide) a)
    refine ⟨cStr (printQuad a), rfl, ?_, ?_⟩
    · show readQuad (cStr (printQuad a)).text = some a
      rw [htext, readQuad_printQuad]
    · unfold Embeddable
      rw [htext]
      exact ⟨notMem_printQuad (by decide) (by decide) a, notMem_printQuad (by decide) (by decide) a,
        notMem_printQuad (by decide) (by decide) a⟩
  v6 a := by
    have htext := text_cStr (notMem_printGroups (Or.inl rfl) a)
    refine ⟨cStr (printGroups a), rfl, ?_, ?_⟩
    · show readAddressV6 (cStr (printGroups a)).text = some a
      rw [htext, readAddressV6_printGroups]
    · unfold Embeddable
      rw [htext]
      exact ⟨notMem_printGroups (Or.inr (Or.inl rfl)) a,
        notMem_printGroups (Or.inr (Or.inr (Or.inl rfl))) a,
        notMem_printGroups (Or.inr (Or.inr (Or.inr rfl))) a⟩

example : parsePrefix Inet.standard (bytes "192.0.2.129/24") =
    .ok (.v4 ⟨0xC0000200, 24⟩) := by decide

end ASNPrefixMap.Prefix
