import ASNPrefixMap.Peer.Registry
import Mathlib.Tactic.TFAE

/-!
# Peer keys

`make_key` prints a peer with bars between its fields, and `parse_key` cuts a
text at its first two bars. Host and address are whatever strings a message
carries, so a bar may stand in them: a peer is read back from its key unless one
does, and then there is no key it could be read from (`parseKey_tfae`).

In the source a key is only printed, in the text of an exception and by the
demo, and `parse_key` is called by nobody; the registry is keyed by the peer
itself. Mirroring notes: `find('|')` and `substr` are `takeWhile` and
`dropWhile`, and the AS number is cut to 32 bits by a cast after `std::stoul`.
-/

namespace ASNPrefixMap.Peer

open Lib

/-- The separator of a key, `'|'`. -/
def bar : UInt8 := 124

/-- `parse_key`; `find` and `substr` from the first bar on, and from the second.
A third bar would be left to `std::stoul`, which ends at it. -/
def PeerRegistry.parseKey (key : Bytes) : Except Exception PeerInfo :=
  match key.dropWhile (· != bar) with
  | [] => .error (.runtimeError (bytes "Malformed peer key: " ++ key))
  | _ :: rest =>
    match rest.dropWhile (· != bar) with
    | [] => .error (.runtimeError (bytes "Malformed peer key: " ++ key))
    | _ :: asnText => do
      -- an AS number is cut to 32 bits
      let asn ← stoul asnText
      return { host := key.takeWhile (· != bar)
               peerIp := rest.takeWhile (· != bar)
               peerAsn := asn.toUInt32 }

example : PeerRegistry.parseKey (bytes "rrc00|192.0.2.1|64500|x") =
    .ok ⟨bytes "rrc00", bytes "192.0.2.1", 64500⟩ := by decide

theorem makeKey_eq (peer : PeerInfo) : PeerRegistry.makeKey peer =
    peer.host ++ bar :: (peer.peerIp ++ bar :: toDec peer.peerAsn.toNat) := by
  show peer.host ++ [bar] ++ peer.peerIp ++ [bar] ++ toDec peer.peerAsn.toNat = _
  rw [List.append_assoc, List.append_assoc, List.append_assoc, List.singleton_append,
    List.singleton_append]

theorem bar_notMem_takeWhile (text : Bytes) : bar ∉ text.takeWhile (· != bar) := by
  intro hmem
  have hne := List.mem_takeWhile_imp hmem
  rw [bne_self_eq_false] at hne
  cases hne

/-- What is read from a key has no bars: each field ends at the first bar. -/
theorem bar_notMem_of_parseKey {key : Bytes} {peer : PeerInfo}
    (h : PeerRegistry.parseKey key = .ok peer) : bar ∉ peer.host ∧ bar ∉ peer.peerIp := by
  unfold PeerRegistry.parseKey at h
  split at h
  next => cases h
  next =>
    split at h
    next => cases h
    next =>
      obtain ⟨asn, -, hpeer⟩ := bind_eq_ok.mp h
      cases hpeer
      exact ⟨bar_notMem_takeWhile _, bar_notMem_takeWhile _⟩

/-- A peer without bars is read back from its key. The printed AS number fits
into 32 bits, so the cast takes nothing away. -/
theorem parseKey_makeKey {peer : PeerInfo} (hhost : bar ∉ peer.host) (hip : bar ∉ peer.peerIp) :
    PeerRegistry.parseKey (PeerRegistry.makeKey peer) = .ok peer := by
  have hasn : peer.peerAsn.toNat < 2 ^ 64 :=
    Nat.lt_trans (UInt32.toNat_lt _) (by decide)
  have hcut : (UInt64.ofNat peer.peerAsn.toNat).toUInt32 = peer.peerAsn := by
    rw [← UInt32.toNat_inj, UInt64.toNat_toUInt32, UInt64.toNat_ofNat_of_lt' hasn,
      Nat.mod_eq_of_lt (UInt32.toNat_lt _)]
  unfold PeerRegistry.parseKey
  rw [makeKey_eq, dropWhile_ne_sep hhost]
  dsimp only
  rw [dropWhile_ne_sep hip]
  dsimp only
  rw [stoul_toDec hasn, ok_bind, takeWhile_ne_sep hhost, takeWhile_ne_sep hip, hcut]
  rfl

/-- **Keys and peers.** A peer is read back from its own key iff it is read from
any key, and this is iff no bar stands in its host or address. A bar in one of
them moves the cuts to the left, and what is read is another peer, or none. -/
theorem parseKey_tfae (peer : PeerInfo) : List.TFAE
    [PeerRegistry.parseKey (PeerRegistry.makeKey peer) = .ok peer,
      ∃ key, PeerRegistry.parseKey key = .ok peer,
      bar ∉ peer.host ∧ bar ∉ peer.peerIp] := by
  tfae_have 1 → 2 := fun h => ⟨_, h⟩
  tfae_have 2 → 3 := fun ⟨_, h⟩ => bar_notMem_of_parseKey h
  tfae_have 3 → 1 := fun h => parseKey_makeKey h.1 h.2
  tfae_finish

end ASNPrefixMap.Peer
