import Mathlib.Algebra.Group.Nat.Basic
import Lodp.Ntor

/-! The builders `lodp_send_*_pkt` and their common tail, which seals and calls `sendto_fn`. -/
namespace Lodp

variable (z : Sizes) (c : Crypto)

/-- A `size_t` sum as C computes it, modulo `2^(8 * sizeof(size_t))`. -/
def Sizes.sizeT (n : Nat) : Nat := n % 2 ^ (8 * z.sizeLen)

/-- The tail of every builder: `ret = encrypt_then_mac(...); if (ret) goto out;
ret = sendto_fn(...)`, as the status and the effects. -/
def sealAndSend (ep : Endpoint) (h : Host) (keys : SymmetricKey) (pt : Bytes)
    (addr : SockAddr) : Int × List Effect :=
  let e := encryptThenMac z c ep h keys pt
  if e.ret ≠ 0 then (e.ret, e.effects) else (h.sendto, e.effects ++ [.sendto e.ciphertext addr])

/-- The common body of `lodp_send_data_pkt` and `lodp_send_heartbeat_pkt`, which differ
only in the type they write: the size check in `size_t`, then the packet sealed under
`tx_key`. -/
def sendPayloadPkt (type : PktType) (ep : Endpoint) (s : Session) (payload : Bytes) (h : Host) :
    Outcome :=
  let pre := Effect.assert .caller (decide (s.state = .established))
  if z.sizeT (z.pktHdrLen + payload.length) > z.mss then ⟨lodpErrMsgsize, ep, some s, [pre]⟩
  else if !h.bufAlloc then ⟨lodpErrNobufs, ep, some s, [pre]⟩
  else
    let chk := Effect.assert .bufLen (decide (z.sizeT (z.pktHdrLen + payload.length) < z.mss))
    let r := sealAndSend z c ep h s.txKey (tlv type (pktTlvLen + payload.length) ++ payload)
      s.peerAddr
    ⟨r.1, ep, some s, [pre, chk] ++ r.2⟩

/-- `lodp_send_data_pkt`. -/
def lodpSendDataPkt (ep : Endpoint) (s : Session) (payload : Bytes) (h : Host) : Outcome :=
  sendPayloadPkt z c .data ep s payload h

/-- `lodp_send_init_pkt`: the session's own intro keys, kept in `rx_key`, sealed under
`tx_key`. -/
def lodpSendInitPkt (ep : Endpoint) (s : Session) (h : Host) : Outcome :=
  let pre := Effect.assert .caller (decide (s.isInitiator = true ∧ s.state = .init))
  if !h.bufAlloc then ⟨lodpErrNobufs, ep, some s, [pre]⟩
  else
    let chk := Effect.assert .bufLen (decide (z.pktInitLen < z.mss))
    let r := sealAndSend z c ep h s.txKey (tlv .init z.pktHdrInitLen ++
      s.rxKey.macKey.take z.macKeyLen ++ s.rxKey.bulkKey.take z.macKeyLen) s.peerAddr
    ⟨r.1, ep, some s, [pre, chk] ++ r.2⟩

/-- The HANDSHAKE an initiator builds: its intro keys, its ephemeral public key and the
stored cookie. -/
def handshakePkt (s : Session) : Bytes :=
  tlv .handshake (z.pktHdrHandshakeLen + s.cookieLen) ++ s.rxKey.macKey.take z.macKeyLen ++
    s.rxKey.bulkKey.take z.macKeyLen ++ s.sessionEcdhKeypair.publicKey.take z.ecdhPublicKeyLen ++
    (s.cookie.getD []).take s.cookieLen

/-- `lodp_send_handshake_pkt`. Its `out` label returns `0`, whatever `ret` holds. -/
def lodpSendHandshakePkt (ep : Endpoint) (s : Session) (h : Host) : Outcome :=
  let pre := Effect.assert .caller (decide (s.isInitiator = true ∧ s.state = .handshake))
  if !h.bufAlloc then ⟨lodpErrNobufs, ep, some s, [pre]⟩
  else
    let chk := Effect.assert .bufLen (decide (z.pktHandshakeLen + s.cookieLen < z.mss))
    let r := sealAndSend z c ep h s.txKey (handshakePkt z s) s.peerAddr
    ⟨0, ep, some s, [pre, chk] ++ r.2⟩

/-- `lodp_send_heartbeat_pkt`. -/
def lodpSendHeartbeatPkt (ep : Endpoint) (s : Session) (payload : Bytes) (h : Host) : Outcome :=
  sendPayloadPkt z c .heartbeat ep s payload h

/-- Modelled from the spec: `lodp_handshake` of `lodp.c`, which is not in the repository.
§4.8 has `on_init_ack_pkt` trigger the outbound HANDSHAKE of §4.11, which is
`lodp_send_handshake_pkt`. -/
def lodpHandshake (ep : Endpoint) (s : Session) (h : Host) : Outcome :=
  lodpSendHandshakePkt z c ep s h

variable {z c}

theorem sealAndSend_sendto {ep : Endpoint} {h : Host} {keys : SymmetricKey} {pt : Bytes}
    {addr : SockAddr} {b : Bytes} {a : SockAddr} :
    Effect.sendto b a ∈ (sealAndSend z c ep h keys pt addr).2 ↔
      (encryptThenMac z c ep h keys pt).ret = 0 ∧
        b = (encryptThenMac z c ep h keys pt).ciphertext ∧ a = addr := by
  simp only [sealAndSend]
  split_ifs with he <;> simp_all [eq_comm]

theorem sealAndSend_effects {ep : Endpoint} {h : Host} {keys : SymmetricKey} {pt : Bytes}
    {addr : SockAddr} {e : Effect} (he : e ∈ (sealAndSend z c ep h keys pt addr).2) :
    (∃ b, e = .sendto b addr) ∨ ∃ ok, e = .assert .encryptLen ok := by
  simp only [sealAndSend] at he
  split_ifs at he <;> simp only [encryptThenMac_effects, List.mem_append, List.mem_singleton,
    List.mem_cons, List.not_mem_nil, or_false] at he
  · exact .inr ⟨_, he⟩
  · rcases he with he | he
    · exact .inr ⟨_, he⟩
    · exact .inl ⟨_, he⟩

/-- The `assert`s, the effects that call nothing out of the core. -/
def Effect.isAssert : Effect → Bool
  | .assert _ _ => true
  | _ => false

theorem sealAndSend_cases (ep : Endpoint) (h : Host) (keys : SymmetricKey) (pt : Bytes)
    (addr : SockAddr) :
    ((sealAndSend z c ep h keys pt addr).1 = (encryptThenMac z c ep h keys pt).ret ∧
      (sealAndSend z c ep h keys pt addr).2 = (encryptThenMac z c ep h keys pt).effects) ∨
    ((sealAndSend z c ep h keys pt addr).1 = h.sendto ∧
      Effect.sendto (encryptThenMac z c ep h keys pt).ciphertext addr ∈
        (sealAndSend z c ep h keys pt addr).2) := by
  simp only [sealAndSend]
  split_ifs
  · exact .inl ⟨rfl, rfl⟩
  · exact .inr ⟨rfl, by simp⟩

theorem sealAndSend_encryptLen (ep : Endpoint) (h : Host) (keys : SymmetricKey) (pt : Bytes)
    (addr : SockAddr) :
    Effect.assert .encryptLen (decide (0 < z.pktTagLen + pt.length ∧
      z.pktTagLen + pt.length ≤ z.mss)) ∈ (sealAndSend z c ep h keys pt addr).2 := by
  simp only [sealAndSend]
  split_ifs <;> simp [-Sizes.pktTagLen]

theorem not_mem_sealAndSend {ep : Endpoint} {h : Host} {keys : SymmetricKey} {pt : Bytes}
    {addr : SockAddr} {e : Effect} (hc : e.isCallback = true) :
    e ∉ (sealAndSend z c ep h keys pt addr).2 := fun he => by
  rcases sealAndSend_effects he with ⟨_, rfl⟩ | ⟨_, rfl⟩ <;> cases hc

@[simp] theorem lodpSendHandshakePkt_session (ep : Endpoint) (s : Session) (h : Host) :
    (lodpSendHandshakePkt z c ep s h).session = some s := by
  simp only [lodpSendHandshakePkt]
  split_ifs <;> rfl

theorem not_mem_lodpSendHandshakePkt {ep : Endpoint} {s : Session} {h : Host} {e : Effect}
    (hc : e.isCallback = true) : e ∉ (lodpSendHandshakePkt z c ep s h).effects := fun he => by
  simp only [lodpSendHandshakePkt] at he
  split_ifs at he
  · rw [List.mem_singleton] at he
    subst he
    cases hc
  · rcases List.mem_append.mp he with he | he
    · simp only [List.mem_cons, List.mem_singleton, List.not_mem_nil, or_false] at he
      rcases he with rfl | rfl <;> cases hc
    · exact not_mem_sealAndSend hc he

section Sent
variable {ep : Endpoint} {s : Session} {h : Host} {b : Bytes} {a : SockAddr}

theorem sendPayloadPkt_sendto {type : PktType} {payload : Bytes}
    (hb : Effect.sendto b a ∈ (sendPayloadPkt z c type ep s payload h).effects) :
    z.sizeT (z.pktHdrLen + payload.length) ≤ z.mss ∧
      (encryptThenMac z c ep h s.txKey (tlv type (pktTlvLen + payload.length) ++ payload)).ret = 0 ∧
      b = (encryptThenMac z c ep h s.txKey
        (tlv type (pktTlvLen + payload.length) ++ payload)).ciphertext ∧ a = s.peerAddr := by
  simp only [sendPayloadPkt] at hb
  split_ifs at hb with h1
  · simp at hb
  · simp at hb
  · exact ⟨not_lt.mp h1, sealAndSend_sendto.mp (by simpa using hb)⟩

/-- The size check of `lodp_send_data_pkt` and `lodp_send_heartbeat_pkt` at its two edges. A
payload that fills the datagram to exactly `LODP_MSS` passes `PKT_DATA_LEN + len > LODP_MSS`
and then fails `assert(buf->len < LODP_MSS)`. A payload for which the `size_t` sum
`PKT_DATA_LEN + len` wraps to `0` exceeds `LODP_MSS` but passes the check; the buffer is
allocated, and `encrypt_then_mac` fails its `assert` on the length. -/
theorem sendPayloadPkt_size_edges (type : PktType) (ep : Endpoint) (s : Session) (h : Host)
    {p q : Bytes} (hp : z.pktHdrLen + p.length = z.mss)
    (hq : z.pktHdrLen + q.length = 2 ^ (8 * z.sizeLen)) (hw : z.mss < 2 ^ (8 * z.sizeLen))
    (hb : h.bufAlloc = true) :
    Effect.assert .bufLen false ∈ (sendPayloadPkt z c type ep s p h).effects ∧
    z.mss < z.pktHdrLen + q.length ∧
    Effect.assert .bufLen true ∈ (sendPayloadPkt z c type ep s q h).effects ∧
    Effect.assert .encryptLen false ∈ (sendPayloadPkt z c type ep s q h).effects := by
  have hmss : 0 < z.mss := by
    have := z.fixed_lt
    omega
  have hp' : z.sizeT (z.pktHdrLen + p.length) = z.mss := by
    rw [hp, Sizes.sizeT, Nat.mod_eq_of_lt hw]
  have hq' : z.sizeT (z.pktHdrLen + q.length) = 0 := by
    rw [hq, Sizes.sizeT, Nat.mod_self]
  have hlen : ¬ (0 < z.pktTagLen + (tlv type (pktTlvLen + q.length) ++ q).length ∧
      z.pktTagLen + (tlv type (pktTlvLen + q.length) ++ q).length ≤ z.mss) := by
    simp only [List.length_append, tlv_length]
    simp only [Sizes.pktHdrLen, pktTlvLen] at hq
    omega
  have henc := sealAndSend_encryptLen (z := z) (c := c) ep h s.txKey
    (tlv type (pktTlvLen + q.length) ++ q) s.peerAddr
  rw [decide_eq_false hlen] at henc
  refine ⟨?_, by omega, ?_, ?_⟩ <;>
    simp only [sendPayloadPkt, hp', hq', hb, Nat.lt_irrefl, Nat.not_lt_zero, hmss, if_false,
      Bool.not_true, Bool.false_eq_true, gt_iff_lt]
  · simp
  · simp
  · exact List.mem_append_right _ henc

/-- The failing inputs: under `Sizes.small` (`LODP_MSS = 16`, `PKT_DATA_LEN = 7`, 8-byte
`size_t`), a 9-byte payload, and one of `2^64 - 7` bytes. -/
theorem sendPayloadPkt_size_edges_small :
    Effect.assert .bufLen false ∈ (sendPayloadPkt Sizes.small Crypto.toy .data plainEndpoint
      ⟨.other 0, false, .established, ⟨[], []⟩, [], ⟨[0, 0], [0, 0]⟩, ⟨[0, 0], [0, 0]⟩, [], [],
        none, 0, true⟩ (List.replicate 9 0) zeroHost).effects ∧
    Sizes.small.mss < Sizes.small.pktHdrLen + (List.replicate (2 ^ 64 - 7) (0 : UInt8)).length ∧
    Effect.assert .bufLen true ∈ (sendPayloadPkt Sizes.small Crypto.toy .data plainEndpoint
      ⟨.other 0, false, .established, ⟨[], []⟩, [], ⟨[0, 0], [0, 0]⟩, ⟨[0, 0], [0, 0]⟩, [], [],
        none, 0, true⟩ (List.replicate (2 ^ 64 - 7) 0) zeroHost).effects ∧
    Effect.assert .encryptLen false ∈ (sendPayloadPkt Sizes.small Crypto.toy .data plainEndpoint
      ⟨.other 0, false, .established, ⟨[], []⟩, [], ⟨[0, 0], [0, 0]⟩, ⟨[0, 0], [0, 0]⟩, [], [],
        none, 0, true⟩ (List.replicate (2 ^ 64 - 7) 0) zeroHost).effects :=
  sendPayloadPkt_size_edges .data plainEndpoint _ zeroHost rfl
    (by rw [List.length_replicate]; decide) (by decide) rfl

theorem lodpSendInitPkt_sendto (hb : Effect.sendto b a ∈ (lodpSendInitPkt z c ep s h).effects) :
    (encryptThenMac z c ep h s.txKey (tlv .init z.pktHdrInitLen ++
      s.rxKey.macKey.take z.macKeyLen ++ s.rxKey.bulkKey.take z.macKeyLen)).ret = 0 ∧
    b = (encryptThenMac z c ep h s.txKey (tlv .init z.pktHdrInitLen ++
      s.rxKey.macKey.take z.macKeyLen ++ s.rxKey.bulkKey.take z.macKeyLen)).ciphertext ∧
    a = s.peerAddr := by
  simp only [lodpSendInitPkt] at hb
  split_ifs at hb
  · simp at hb
  · exact sealAndSend_sendto.mp (by simpa using hb)

end Sent

end Lodp
