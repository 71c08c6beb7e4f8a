import ASNPrefixMap.Lib.Numeral
import ASNPrefixMap.Prefix.Basic

/-!
# CIDR texts

`src/prefix/prefix.cpp`: reading a prefix from its text and printing it. The
address part goes to the C library's `inet_pton` and comes from `inet_ntop`;
these are the fields of `Inet`, on C strings, since the code passes
`address.c_str()` and copies a `char` buffer back. What the code relies on is
`Inet.RoundTrips`: an address that was printed is read back, and its text holds
none of the bytes that delimit prefixes, fields and lines.

Results: whatever a parser accepts is canonical (`parsePrefixV4_canonical`,
`parsePrefixV6_canonical`), and printing a canonical key and parsing the text
gives the key back (`parsePrefixV4_toString`, `parsePrefixV6_toString`).

Mirroring notes:

- an exception carries its text; what the parsers throw themselves ends in the
  text that was to be parsed, and `std::stoul` throws its own;
- `parse_prefix_v4` and `parse_prefix_v6` are two functions of the source with
  one shape; the shape is `parsePrefixWith`, and each keeps its own bound and
  messages;
- `ntohl` and `htonl` are left out: `Inet` has IPv4 addresses in host byte
  order;
- the buffer of `inet_ntop` is long enough for every address, so a failure is a
  failure of the library; the code throws then, and so does the model.
-/

namespace ASNPrefixMap.Prefix

open Lib

/-- The C library's address conversions, IPv4 addresses in host byte order. Each
may refuse its argument: `inet_pton` a text that is no literal, `inet_ntop` for
reasons of its own. -/
structure Inet where
  ptonV4 : CString → Option UInt32
  ptonV6 : CString → Option (Vector UInt8 16)
  ntopV4 : UInt32 → Option CString
  ntopV6 : Vector UInt8 16 → Option CString

/-- What stands between the address and the length, `'/'`. -/
def slash : UInt8 := 47

/-- Text that can be embedded in a prefix, a snapshot field and a snapshot line,
since it holds none of the bytes that end one of these. -/
def Embeddable (c : CString) : Prop := slash ∉ c.text ∧ tab ∉ c.text ∧ newline ∉ c.text

/-- `inet_ntop` prints every address, and `inet_pton` reads the text back. This
is what the development asks of the library where it saves a state and loads it
again. -/
structure Inet.RoundTrips (net : Inet) : Prop where
  v4 : ∀ a, ∃ c, net.ntopV4 a = some c ∧ net.ptonV4 c = some a ∧ Embeddable c
  v6 : ∀ a, ∃ c, net.ntopV6 a = some c ∧ net.ptonV6 c = some a ∧ Embeddable c

/-- `split_cidr`: the text before the first slash, and the number behind it,
which must fit into eight bits. `std::stoul` decides what a number is. -/
def splitCidr (cidrText : Bytes) : Except Exception (Bytes × UInt8) :=
  if slash ∉ cidrText then
    .error (.runtimeError (bytes "Prefix is missing CIDR length: " ++ cidrText))
  else do
    let address := cidrText.takeWhile (· != slash)
    let lengthText := (cidrText.dropWhile (· != slash)).tail
    let lengthValue ← stoul lengthText
    -- the `uint8_t` range; the range of the family is its parser's to check
    if lengthValue > 255 then
      .error (.runtimeError (bytes "Invalid CIDR length: " ++ cidrText))
    else
      .ok (address, lengthValue.toUInt8)

/-- `infer_family_from_text`: a colon before the slash means IPv6, else a dot
means IPv4. A text without either is refused. -/
def inferFamilyFromText (cidrText : Bytes) : Except Exception PrefixFamily :=
  let address := cidrText.takeWhile (· != slash)
  -- a colon decides before a dot: an IPv6 address may end in a dotted quad
  if 58 ∈ address then .ok .v6
  else if 46 ∈ address then .ok .v4
  else .error (.runtimeError (bytes "Unable to infer prefix family: " ++ cidrText))

/-- The body `parse_prefix_v4` and `parse_prefix_v6` share: split, check the
length, decode the address, build the key. The length bound, the two messages,
`inet_pton` and how the masked key is built differ. -/
def parsePrefixWith {A P : Type} (maxLength : UInt8) (outOfRange invalid : String)
    (pton : CString → Option A) (mk : A → UInt8 → P) (cidrText : Bytes) : Except Exception P := do
  let (address, length) ← splitCidr cidrText
  if length > maxLength then
    .error (.runtimeError (bytes outOfRange ++ cidrText))
  else
    match pton (cStr address) with
    | none => .error (.runtimeError (bytes invalid ++ cidrText))
    | some a => .ok (mk a length)

/-- The body the two `to_string` functions share: the printed address, a slash
and the length in decimal. -/
def toStringWith (failed : String) (buffer : Option CString) (length : UInt8) :
    Except Exception Bytes :=
  match buffer with
  | none => .error (.runtimeError (bytes failed))
  | some buffer => .ok (buffer.text ++ bytes "/" ++ toDec length.toNat)

variable (net : Inet)

/-- `parse_prefix_v4`: lengths up to 32, and an address in host byte order. -/
def parsePrefixV4 (cidrText : Bytes) : Except Exception PrefixV4 :=
  parsePrefixWith 32 "IPv4 prefix length out of range: " "Invalid IPv4 prefix: " net.ptonV4
    (fun hostOrder length => ⟨applyMaskV4 hostOrder length, length⟩) cidrText

/-- `parse_prefix_v6`: lengths up to 128, and sixteen octets. -/
def parsePrefixV6 (cidrText : Bytes) : Except Exception PrefixV6 :=
  parsePrefixWith 128 "IPv6 prefix length out of range: " "Invalid IPv6 prefix: " net.ptonV6
    (fun octets length => ⟨applyMaskV6 octets length, length⟩) cidrText

/-- `parse_prefix`: infer the family, then ask its parser. The parser splits the
text once more. -/
def parsePrefix (cidrText : Bytes) : Except Exception BinaryPrefix := do
  match ← inferFamilyFromText cidrText with
  | .v4 => return .v4 (← parsePrefixV4 net cidrText)
  | .v6 => return .v6 (← parsePrefixV6 net cidrText)

/-- `to_string` of an IPv4 key. The network is printed as it is stored. -/
def PrefixV4.toString (p : PrefixV4) : Except Exception Bytes :=
  toStringWith "Failed to stringify IPv4 prefix" (net.ntopV4 p.network) p.length

/-- `to_string` of an IPv6 key. -/
def PrefixV6.toString (p : PrefixV6) : Except Exception Bytes :=
  toStringWith "Failed to stringify IPv6 prefix" (net.ntopV6 p.network) p.length

/-- `to_string` of a key, by its alternative. -/
def BinaryPrefix.toString : BinaryPrefix → Except Exception Bytes
  | .v4 p => p.toString net
  | .v6 p => p.toString net

/-- `family_to_string`: how a family is written in a snapshot line. -/
def familyToString : PrefixFamily → Bytes
  | .v4 => bytes "v4"
  | .v6 => bytes "v6"

/-- `parse_family`: the two words, and nothing else; blanks and capitals are
refused. -/
def parseFamily (familyText : Bytes) : Except Exception PrefixFamily :=
  if familyText = bytes "v4" then .ok .v4
  else if familyText = bytes "v6" then .ok .v6
  else .error (.runtimeError (bytes "Unknown prefix family: " ++ familyText))

theorem parseFamily_familyToString (f : PrefixFamily) :
    parseFamily (familyToString f) = .ok f := by
  cases f <;> decide

/-! ## What a parser accepts is canonical -/

/-- An accepted text splits at a slash into an address and a length in range,
and `inet_pton` decodes the address. There is no other way through the body. -/
theorem parsePrefixWith_eq_ok {A P : Type} {maxLength : UInt8} {outOfRange invalid : String}
    {pton : CString → Option A} {mk : A → UInt8 → P} {t : Bytes} {p : P} :
    parsePrefixWith maxLength outOfRange invalid pton mk t = .ok p ↔
      ∃ address length a, splitCidr t = .ok (address, length) ∧ length ≤ maxLength ∧
        pton (cStr address) = some a ∧ mk a length = p := by
  rw [parsePrefixWith, bind_eq_ok]
  constructor
  · rintro ⟨⟨address, length⟩, hs, h⟩
    dsimp only at h
    split at h
    next => cases h
    next hlen =>
      split at h
      next => cases h
      next a ha =>
        cases h
        exact ⟨address, length, a, hs, UInt8.not_lt.mp hlen, ha, rfl⟩
  · rintro ⟨address, length, a, hs, hlen, ha, rfl⟩
    refine ⟨(address, length), hs, ?_⟩
    dsimp only
    rw [if_neg (UInt8.not_lt.mpr hlen), ha]

variable {net}

/-- Whatever is accepted is canonical: the length was checked and the address
masked by it. -/
theorem parsePrefixV4_canonical {t : Bytes} {p : PrefixV4} (h : parsePrefixV4 net t = .ok p) :
    p.Canonical := by
  obtain ⟨address, length, a, -, hlen, -, rfl⟩ := parsePrefixWith_eq_ok.mp h
  exact ⟨hlen, applyMaskV4_idem a length⟩

/-- Whatever is accepted as IPv6 is canonical, for the same reason. -/
theorem parsePrefixV6_canonical {t : Bytes} {p : PrefixV6} (h : parsePrefixV6 net t = .ok p) :
    p.Canonical := by
  obtain ⟨address, length, a, -, hlen, -, rfl⟩ := parsePrefixWith_eq_ok.mp h
  exact ⟨hlen, applyMaskV6_idem a length⟩

/-- All texts `parse_prefix` accepts have canonical keys. So all keys of a
routing state are canonical. -/
theorem parsePrefix_canonical {t : Bytes} {p : BinaryPrefix} (h : parsePrefix net t = .ok p) :
    p.Canonical := by
  obtain ⟨family, -, h⟩ := bind_eq_ok.mp h
  cases family with
  | v4 =>
    obtain ⟨q, hq, h⟩ := bind_eq_ok.mp h
    cases h
    exact parsePrefixV4_canonical hq
  | v6 =>
    obtain ⟨q, hq, h⟩ := bind_eq_ok.mp h
    cases h
    exact parsePrefixV6_canonical hq

/-! ## Printing and parsing back -/

/-- The text printed for an address and a length splits into the two again, as
long as the address has no slash in it. -/
theorem splitCidr_printed {c : CString} (hc : slash ∉ c.text) (length : UInt8) :
    splitCidr (c.text ++ bytes "/" ++ toDec length.toNat) = .ok (c.text, length) := by
  have hslash : bytes "/" = [slash] := by decide
  have htext : c.text ++ bytes "/" ++ toDec length.toNat =
      c.text ++ slash :: toDec length.toNat := by
    rw [hslash, List.append_assoc]
    rfl
  have hlt : length.toNat < 256 := length.toNat_lt
  have hsize : length.toNat < UInt64.size := Nat.lt_of_lt_of_le hlt (by decide)
  have hval : ¬ UInt64.ofNat length.toNat > 255 := by
    rw [gt_iff_lt, UInt64.lt_iff_toNat_lt, UInt64.toNat_ofNat_of_lt' hsize]
    exact Nat.not_lt.mpr (Nat.le_of_lt_succ hlt)
  have hback : (UInt64.ofNat length.toNat).toUInt8 = length := by
    apply UInt8.toNat_inj.mp
    rw [UInt64.toNat_toUInt8, UInt64.toNat_ofNat_of_lt' hsize]
    exact Nat.mod_eq_of_lt hlt
  rw [htext, splitCidr, if_neg (not_not_intro (List.mem_append_right _ List.mem_cons_self))]
  simp only [takeWhile_ne_sep hc, dropWhile_ne_sep hc, List.tail_cons]
  rw [stoul_toDec (Nat.lt_trans hlt (by decide)), ok_bind, if_neg hval, hback]

/-- A canonical key is printed, its text is accepted by the parser of its family
and gives the key back, and it can stand in a field of a line. -/
theorem parsePrefixV4_toString (hnet : net.RoundTrips) {p : PrefixV4} (hp : p.Canonical) :
    ∃ t, p.toString net = .ok t ∧ parsePrefixV4 net t = .ok p ∧ tab ∉ t ∧ newline ∉ t := by
  obtain ⟨c, hntop, hpton, hslash, htab, hnl⟩ := hnet.v4 p.network
  refine ⟨c.text ++ bytes "/" ++ toDec p.length.toNat, ?_, ?_, ?_, ?_⟩
  · rw [PrefixV4.toString, hntop, toStringWith]
  · refine parsePrefixWith_eq_ok.mpr ⟨c.text, p.length, p.network, splitCidr_printed hslash _,
      hp.length_le, ?_, ?_⟩
    · rw [cStr_text, hpton]
    · rw [hp.masked]
  · simp only [List.mem_append, not_or]
    exact ⟨⟨htab, by decide⟩, notMem_toDec (by decide) _⟩
  · simp only [List.mem_append, not_or]
    exact ⟨⟨hnl, by decide⟩, notMem_toDec (by decide) _⟩

theorem parsePrefixV6_toString (hnet : net.RoundTrips) {p : PrefixV6} (hp : p.Canonical) :
    ∃ t, p.toString net = .ok t ∧ parsePrefixV6 net t = .ok p ∧ tab ∉ t ∧ newline ∉ t := by
  obtain ⟨c, hntop, hpton, hslash, htab, hnl⟩ := hnet.v6 p.network
  refine ⟨c.text ++ bytes "/" ++ toDec p.length.toNat, ?_, ?_, ?_, ?_⟩
  · rw [PrefixV6.toString, hntop, toStringWith]
  · refine parsePrefixWith_eq_ok.mpr ⟨c.text, p.length, p.network, splitCidr_printed hslash _,
      hp.length_le, ?_, ?_⟩
    · rw [cStr_text, hpton]
    · rw [hp.masked]
  · simp only [List.mem_append, not_or]
    exact ⟨⟨htab, by decide⟩, notMem_toDec (by decide) _⟩
  · simp only [List.mem_append, not_or]
    exact ⟨⟨hnl, by decide⟩, notMem_toDec (by decide) _⟩

end ASNPrefixMap.Prefix
