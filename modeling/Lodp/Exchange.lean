import Lodp.RoundTrip
import Lodp.Responder

/-! Two endpoints talking: DATA, the HEARTBEAT echo and the handshake, delivered end to end. -/
namespace Lodp

/-- The crypto laws an exchange between two honest endpoints rests on: `lodp_decrypt` undoes
`lodp_encrypt`, and `lodp_encrypt`, `lodp_mac` and `lodp_derive_sessionkeys` succeed. -/
structure Crypto.Reliable (c : Crypto) : Prop where
  inverts : c.Inverts
  encrypt_ok : ∀ k iv m, (c.encrypt k iv m).1 = 0
  mac_ok : ∀ k m n, (c.mac k m n).1 = 0
  derive_ok : ∀ k, (c.deriveSessionkeys k).1 = 0

theorem Crypto.toy_reliable : Crypto.toy.Reliable :=
  ⟨fun _ _ _ _ => rfl, fun _ _ _ => rfl, fun _ _ _ => rfl, fun _ => rfl⟩

variable {z : Sizes} {c : Crypto}

theorem encryptThenMac_ok (hc : c.Reliable) (ep : Endpoint) (h : Host) (keys : SymmetricKey)
    (pt : Bytes) : (encryptThenMac z c ep h keys pt).ret = 0 := by
  simp [encryptThenMac, hc.encrypt_ok, hc.mac_ok]

theorem Delivers.incoming {ep : Endpoint} {session : Option Session} {ct : Bytes} {hd : Handler}
    {P : Pkt → Prop} (hdl : Delivers z c ep session ct hd P) (old : Bytes) (addr : SockAddr)
    (h : Host) : ∃ pkt, P pkt ∧
      lodpOnIncomingPkt z c ep session ⟨ct, old⟩ addr h = runHandler z c ep addr h pkt hd := by
  obtain ⟨pkt, hd', hp⟩ := hdl old
  exact ⟨pkt, hp, by simp only [lodpOnIncomingPkt, hd']⟩

/-- The `assert`s a call reaches all hold. -/
def AssertsHold (o : Outcome) : Prop := ∀ k ok, Effect.assert k ok ∈ o.effects → ok = true

section Handlers
variable {ep : Endpoint} {s : Session} {pkt : Pkt} {h : Host}

theorem onDataPkt_established (hst : s.state = .established) :
    (onDataPkt z ep s pkt h).ret = h.onRecv ∧
    (∀ q, Effect.onRecv q ∈ (onDataPkt z ep s pkt h).effects ↔ q = pkt.body) ∧
    ∃ s', (onDataPkt z ep s pkt h).session = some s' ∧ s'.seenPeerData = true := by
  unfold onDataPkt
  rw [if_neg (not_not.mpr hst)]
  have hq : ∀ q s', Effect.onRecv q ∉ (scrubHandshakeMaterial z s').2 :=
    fun _ _ => not_mem_scrubHandshakeMaterial rfl
  refine ⟨rfl, fun q => ?_, _, rfl, ?_⟩ <;>
    cases hp : s.seenPeerData <;> cases s.isInitiator <;> simp [hq, hp]

theorem onHeartbeatAckPkt_established (hst : s.state = .established) :
    (onHeartbeatAckPkt ep s pkt).ret = 0 ∧ ∀ q,
      Effect.onHeartbeatAck q ∈ (onHeartbeatAckPkt ep s pkt).effects ↔
        ep.callbacks.onHeartbeatAckFn = true ∧ q = pkt.body := by
  unfold onHeartbeatAckPkt
  rw [if_neg (not_not.mpr hst)]
  refine ⟨rfl, fun q => ?_⟩
  cases ep.callbacks.onHeartbeatAckFn <;> simp [eq_comm]

end Handlers

/-- Two ESTABLISHED sessions whose keys mirror each other, for the small evaluations: an
initiator with `tx_key = ([1, 2], [3, 4])` and `rx_key = ([5, 6], [7, 8])`, and its peer. -/
def smallPeer : Session := ⟨smallAddr, true, .established, ⟨[0, 3], [0, 3]⟩, [0, 5],
  ⟨[1, 2], [3, 4]⟩, ⟨[5, 6], [7, 8]⟩, [0, 0], [0, 0], none, 0, true⟩

/-- The responder side of `smallPeer`, which has seen no DATA yet. -/
def smallPeer' : Session := ⟨smallAddr, false, .established, ⟨[0, 4], [0, 4]⟩, [],
  ⟨[5, 6], [7, 8]⟩, ⟨[1, 2], [3, 4]⟩, [0, 0], [0, 0], none, 0, false⟩

section Payload
variable {ep ep' : Endpoint} {s r : Session} {p b : Bytes} {a addr : SockAddr} {h h' : Host}

theorem sealAndSend_assert {keys : SymmetricKey} {pt : Bytes} {k : Check} {ok : Bool}
    (he : Effect.assert k ok ∈ (sealAndSend z c ep h keys pt addr).2) :
    ok = decide (0 < z.pktTagLen + pt.length ∧ z.pktTagLen + pt.length ≤ z.mss) := by
  simp only [sealAndSend] at he
  split_ifs at he <;> simp only [encryptThenMac_effects, List.mem_append, List.mem_singleton,
    Effect.assert.injEq, reduceCtorEq, or_false] at he <;> exact he.2

theorem sendPayloadPkt_asserts {type : PktType} (hst : s.state = .established)
    (hsz : z.pktHdrLen + p.length < z.mss) : AssertsHold (sendPayloadPkt z c type ep s p h) := by
  have hle : z.sizeT (z.pktHdrLen + p.length) < z.mss :=
    lt_of_le_of_lt (Nat.mod_le _ _) hsz
  intro k ok he
  simp only [sendPayloadPkt, not_lt.mpr hle.le, if_false] at he
  split_ifs at he
  · simp [hst] at he
    exact he.2
  · simp only [List.cons_append, List.singleton_append, List.mem_cons] at he
    rcases he with ⟨-, rfl⟩ | ⟨-, rfl⟩ | he
    · simp [hst]
    · exact decide_eq_true hle
    · rw [List.nil_append] at he
      rw [sealAndSend_assert he]
      simp only [List.length_append, tlv_length, decide_eq_true_eq]
      simp only [Sizes.pktHdrLen, pktTlvLen] at hsz
      omega

/-- End-to-end DATA. What `lodp_send_data_pkt` hands to `sendto_fn`, for a payload whose
size does not wrap `size_t`, reaches an ESTABLISHED session whose `rx_key` is the sender's
`tx_key`: `on_recv_fn` gets exactly the payload and nothing else, whatever padding
`pre_encrypt_fn` added and whatever the receive buffer held, the call returns the status of
`on_recv_fn`, and the session has now seen DATA. -/
theorem data_delivered (hinv : c.Inverts) (hw : z.pktHdrLen + p.length < 2 ^ (8 * z.sizeLen))
    (hb : Effect.sendto b a ∈ (lodpSendDataPkt z c ep s p h).effects) (hr : r.rxKey = s.txKey)
    (hst : r.state = .established) (old : Bytes) :
    (lodpOnIncomingPkt z c ep' (some r) ⟨b, old⟩ addr h').ret = h'.onRecv ∧
    (∀ q, Effect.onRecv q ∈ (lodpOnIncomingPkt z c ep' (some r) ⟨b, old⟩ addr h').effects ↔
      q = p) ∧
    ∃ r', (lodpOnIncomingPkt z c ep' (some r) ⟨b, old⟩ addr h').session = some r' ∧
      r'.seenPeerData = true := by
  obtain ⟨pkt, ⟨hbody, -⟩, hin⟩ := (roundTrip_payload hinv hw hb hr rfl).incoming old addr h'
  rw [hin, runHandler, ← hbody]
  exact onDataPkt_established hst

/-- The DATA `[9]` that `smallPeer` sends, delivered to `smallPeer'`. -/
theorem data_delivered_small :
    (lodpOnIncomingPkt Sizes.small Crypto.toy smallResponder (some smallPeer')
        ⟨[17, 17, 0, 0, 0, 0, 5, 9], []⟩ smallAddr smallHost).ret = smallHost.onRecv ∧
    (∀ q, Effect.onRecv q ∈ (lodpOnIncomingPkt Sizes.small Crypto.toy smallResponder
        (some smallPeer') ⟨[17, 17, 0, 0, 0, 0, 5, 9], []⟩ smallAddr smallHost).effects ↔
      q = [9]) ∧
    ∃ r', (lodpOnIncomingPkt Sizes.small Crypto.toy smallResponder (some smallPeer')
        ⟨[17, 17, 0, 0, 0, 0, 5, 9], []⟩ smallAddr smallHost).session = some r' ∧
      r'.seenPeerData = true :=
  @data_delivered Sizes.small Crypto.toy smallResponder smallResponder smallPeer smallPeer' [9]
    [17, 17, 0, 0, 0, 0, 5, 9] smallAddr smallAddr smallHost smallHost (fun _ _ _ _ => rfl)
    (by decide) (by decide) rfl rfl []

theorem onHeartbeatPkt_echo (hc : c.Reliable) {pkt : Pkt} (hst : s.state = .established)
    (hb : h.bufAlloc = true) (hl : pkt.length - pktTlvLen = pkt.body.length)
    (hsz : z.pktHdrLen + pkt.body.length < z.mss) :
    AssertsHold (onHeartbeatPkt z c ep s pkt h) ∧ (onHeartbeatPkt z c ep s pkt h).ret = h.sendto ∧
    Effect.sendto (encryptThenMac z c ep h s.txKey
      (tlv .heartbeatAck (pktTlvLen + pkt.body.length) ++ pkt.body)).ciphertext s.peerAddr ∈
        (onHeartbeatPkt z c ep s pkt h).effects := by
  have he := encryptThenMac_ok (z := z) hc ep h s.txKey
    (tlv .heartbeatAck (pktTlvLen + pkt.body.length) ++ pkt.body)
  unfold onHeartbeatPkt
  rw [if_neg (not_not.mpr hst), hb, if_neg (by decide : ¬(!true) = true), hl]
  simp only [sealAndSend, he, ne_eq, not_true_eq_false, if_false]
  refine ⟨fun k ok hk => ?_, by simp, by simp⟩
  simp only [encryptThenMac_effects, List.mem_cons, List.mem_append, List.mem_singleton,
    Effect.assert.injEq, reduceCtorEq, List.not_mem_nil, or_false] at hk
  rcases hk with ⟨-, rfl⟩ | ⟨-, rfl⟩
  · exact decide_eq_true hsz
  · simp only [Sizes.pktHdrLen, pktTlvLen] at hsz
    simp only [List.length_append, tlv_length, decide_eq_true_eq]
    omega

/-- The HEARTBEAT echo, end to end. A HEARTBEAT that `lodp_send_heartbeat_pkt` sends on an
ESTABLISHED session, for a payload whose packet stays below the MSS, reaches the peer's
ESTABLISHED session whose keys mirror the sender's. Every `assert` on both paths holds, the
peer returns the status of `sendto_fn` after sending a HEARTBEAT ACK to its `peer_addr`, and
that datagram, delivered to the sender, returns `0` and hands exactly the payload to
`on_heartbeat_ack_fn` when it is registered, whatever padding either side added. -/
theorem heartbeat_round_trip (hc : c.Reliable) {epB : Endpoint} {addr' : SockAddr} {hB hA : Host}
    (hs : s.state = .established) (hr : r.state = .established) (hrx : r.rxKey = s.txKey)
    (htx : r.txKey = s.rxKey) (hsz : z.pktHdrLen + p.length < z.mss) (hbB : hB.bufAlloc = true)
    (hb : Effect.sendto b a ∈ (lodpSendHeartbeatPkt z c ep s p h).effects) (old : Bytes) :
    AssertsHold (lodpSendHeartbeatPkt z c ep s p h) ∧
    AssertsHold (lodpOnIncomingPkt z c epB (some r) ⟨b, old⟩ addr hB) ∧
    (lodpOnIncomingPkt z c epB (some r) ⟨b, old⟩ addr hB).ret = hB.sendto ∧
    ∃ b', Effect.sendto b' r.peerAddr ∈
        (lodpOnIncomingPkt z c epB (some r) ⟨b, old⟩ addr hB).effects ∧
      ∀ old', (lodpOnIncomingPkt z c ep (some s) ⟨b', old'⟩ addr' hA).ret = 0 ∧ ∀ q,
        Effect.onHeartbeatAck q ∈ (lodpOnIncomingPkt z c ep (some s) ⟨b', old'⟩ addr' hA).effects ↔
          ep.callbacks.onHeartbeatAckFn = true ∧ q = p := by
  have hfit : z.pktTagLen + (pktTlvLen + p.length) ≤ z.mss := by
    simp only [Sizes.pktHdrLen] at hsz
    omega
  obtain ⟨-, h0, rfl, -⟩ := sendPayloadPkt_sendto hb
  obtain ⟨pkt, ⟨pad, rfl⟩, hin⟩ :=
    (delivers_session hc.inverts rfl hfit h0 hrx rfl).incoming old addr hB
  have hbody : Pkt.body ⟨PktType.heartbeat.toByte, 0, pktTlvLen + p.length, p ++ pad⟩ = p :=
    Pkt.body_append
  obtain ⟨hass, hret, hsent⟩ := @onHeartbeatPkt_echo z c epB r hB hc _ hr hbB
    (by rw [hbody]; simp) (by rwa [hbody])
  rw [hbody] at hsent
  rw [hin, runHandler]
  refine ⟨sendPayloadPkt_asserts hs hsz, hass, hret, _, hsent, fun old' => ?_⟩
  obtain ⟨pkt', ⟨pad', rfl⟩, hin'⟩ := (delivers_session hc.inverts rfl hfit
    (encryptThenMac_ok hc epB hB r.txKey (tlv .heartbeatAck (pktTlvLen + p.length) ++ p))
    htx.symm rfl).incoming old' addr' hA
  have hbody' : Pkt.body ⟨PktType.heartbeatAck.toByte, 0, pktTlvLen + p.length, p ++ pad'⟩ = p :=
    Pkt.body_append
  rw [hin', runHandler]
  exact ⟨(onHeartbeatAckPkt_established hs).1,
    fun q => by rw [(onHeartbeatAckPkt_established hs).2, hbody']⟩

/-- The HEARTBEAT `[9]` that `smallPeer` sends, echoed by `smallPeer'`, with
`on_heartbeat_ack_fn` not registered on `smallResponder`. -/
theorem heartbeat_round_trip_small :
    AssertsHold (lodpSendHeartbeatPkt Sizes.small Crypto.toy smallResponder smallPeer [9]
      smallHost) ∧
    AssertsHold (lodpOnIncomingPkt Sizes.small Crypto.toy smallResponder (some smallPeer')
      ⟨[22, 22, 0, 5, 0, 0, 5, 9], []⟩ smallAddr smallHost) ∧
    (lodpOnIncomingPkt Sizes.small Crypto.toy smallResponder (some smallPeer')
      ⟨[22, 22, 0, 5, 0, 0, 5, 9], []⟩ smallAddr smallHost).ret = smallHost.sendto ∧
    ∃ b', Effect.sendto b' smallPeer'.peerAddr ∈ (lodpOnIncomingPkt Sizes.small Crypto.toy
        smallResponder (some smallPeer') ⟨[22, 22, 0, 5, 0, 0, 5, 9], []⟩ smallAddr
          smallHost).effects ∧
      ∀ old', (lodpOnIncomingPkt Sizes.small Crypto.toy smallResponder (some smallPeer)
          ⟨b', old'⟩ smallAddr smallHost).ret = 0 ∧ ∀ q,
        Effect.onHeartbeatAck q ∈ (lodpOnIncomingPkt Sizes.small Crypto.toy smallResponder
          (some smallPeer) ⟨b', old'⟩ smallAddr smallHost).effects ↔
          smallResponder.callbacks.onHeartbeatAckFn = true ∧ q = [9] :=
  @heartbeat_round_trip Sizes.small Crypto.toy smallResponder smallPeer smallPeer' [9]
    [22, 22, 0, 5, 0, 0, 5, 9] smallAddr smallAddr smallHost Crypto.toy_reliable smallResponder
    smallAddr smallHost smallHost rfl rfl rfl rfl (by decide) rfl (by decide) []

end Payload

section Handshake
variable {ep ep' : Endpoint} {s : Session} {pkt : Pkt} {addr : SockAddr} {h h' : Host}

theorem cookieBlob_append {a m b r : Bytes} {t f : UInt8} {n : Nat} (hm : m.length = z.macKeyLen)
    (hb : b.length = z.macKeyLen) : cookieBlob z a ⟨t, f, n, m ++ (b ++ r)⟩ = a ++ (m ++ b) := by
  rw [cookieBlob, z.bulk_eq_mac, ← List.append_assoc, slice_append_left (by simp [hm, hb])]

theorem onInitPkt_reply (hc : c.Reliable) {a m b r : Bytes} (hm : m.length = z.macKeyLen)
    (hk : b.length = z.macKeyLen)
    (hp : pkt = ⟨PktType.init.toByte, 0, z.pktHdrInitLen, m ++ (b ++ r)⟩)
    (hb : h.bufAlloc = true) (ha : addr.blob = some a) :
    (onInitPkt z c ep pkt addr h).session = none ∧
    (onInitPkt z c ep pkt addr h).ep = rotateIfDue z ep h ∧
    Effect.sendto (encryptThenMac z c (rotateIfDue z ep h) h ⟨m, b⟩
      (tlv .initAck (pktTlvLen + z.cookieLen) ++ memwipePrefix z.pointerLen
        (c.mac (rotateIfDue z ep h).cookieKey (a ++ (m ++ b)) z.cookieLen).2)).ciphertext addr ∈
      (onInitPkt z c ep pkt addr h).effects := by
  have hck := @issuedCookie_eq z c ep pkt addr h (by rw [hp]) (by rw [hp])
  simp only [ha, hp, cookieBlob_append hm hk] at hck
  subst hp
  refine ⟨?_, ?_, ?_⟩ <;> simp [onInitPkt, hb, sealAndSend, encryptThenMac_ok hc, hck,
    Pkt.introMacKey_append hm, Pkt.introBulkKey_append hm hk, -Sizes.cookieLen,
    -Sizes.pktHdrInitLen]

theorem onInitAckPkt_handshake (hc : c.Reliable) {ck pad : Bytes} (hi : s.isInitiator = true)
    (hs : s.state = .init) (hd : 0 < z.cookieLen) (hck : ck.length = z.cookieLen)
    (hca : h.cookieAlloc = true) (hb : h.bufAlloc = true) :
    (onInitAckPkt z c ep s ⟨PktType.initAck.toByte, 0, pktTlvLen + z.cookieLen, ck ++ pad⟩
        h).session =
      some { s with cookie := some ck, cookieLen := z.cookieLen, state := .handshake } ∧
    Effect.sendto (encryptThenMac z c ep h s.txKey (handshakePkt z
        { s with cookie := some ck, cookieLen := z.cookieLen, state := .handshake })).ciphertext
      s.peerAddr ∈ (onInitAckPkt z c ep s
        ⟨PktType.initAck.toByte, 0, pktTlvLen + z.cookieLen, ck ++ pad⟩ h).effects := by
  have hbody : Pkt.body ⟨PktType.initAck.toByte, 0, pktTlvLen + z.cookieLen, ck ++ pad⟩ = ck := by
    rw [← hck]
    exact Pkt.body_append
  simp only [onInitAckPkt]
  rw [if_neg (by simp [hi, hs]), Nat.add_sub_cancel_left, if_neg hd.ne', hca,
    if_neg (by decide : ¬(!true) = true), hbody, lodpHandshake, lodpSendHandshakePkt, hb,
    if_neg (by decide : ¬(!true) = true)]
  simp [sealAndSend, encryptThenMac_ok hc, -Sizes.cookieLen]

theorem validateCookie_current (hc : c.Reliable) {a : Bytes}
    (hdue : ¬ h.now > ep.cookieRotateTime + cookieRotateInterval) (ha : addr.blob = some a)
    (ht : pkt.type = PktType.handshake.toByte) (hl : 4 + z.macKeyLen + z.bulkKeyLen ≤ pkt.length)
    (hck : pkt.cookie z = memwipePrefix z.pointerLen
      (c.mac ep.cookieKey (cookieBlob z a pkt) z.cookieLen).2) :
    validateCookie z c ep pkt addr h = (0, ep) := by
  have hr : rotateIfDue z ep h = ep := by simp [rotateIfDue, hdue]
  simp [validateCookie, generateCookie, hr, ha, ht, not_lt.mpr hl, hc.mac_ok, hck, memcmp,
    -Sizes.cookieLen]

theorem cookieBlob_introKeys {a : Bytes} :
    cookieBlob z a pkt = a ++ (pkt.introMacKey z ++ pkt.introBulkKey z) := by
  simp only [cookieBlob, Pkt.introMacKey, Pkt.introBulkKey, slice, List.drop_zero, z.bulk_eq_mac,
    List.take_add]

/-- The cookie round trip. The cookie `on_init_pkt` places in its INIT ACK for an INIT from an
`AF_INET` or `AF_INET6` source passes the check of `on_handshake_pkt` on the endpoint that
`generate_cookie` left, at any time before the next rotation is due, for a HANDSHAKE from the
same source that carries the same intro keys and echoes the cookie. -/
theorem issuedCookie_accepted (hc : c.Reliable) {init : Pkt} {h0 : Host} {a : Bytes}
    (ht0 : init.type = PktType.init.toByte) (hl0 : z.pktHdrInitLen = init.length)
    (ha : addr.blob = some a) (ht : pkt.type = PktType.handshake.toByte)
    (hl : 4 + z.macKeyLen + z.bulkKeyLen ≤ pkt.length)
    (hm : pkt.introMacKey z = init.introMacKey z) (hb : pkt.introBulkKey z = init.introBulkKey z)
    (hck : pkt.cookie z = issuedCookie z c ep init addr h0)
    (hdue : ¬ h.now > (rotateIfDue z ep h0).cookieRotateTime + cookieRotateInterval) :
    validateCookie z c (rotateIfDue z ep h0) pkt addr h = (0, rotateIfDue z ep h0) := by
  have hi := @issuedCookie_eq z c ep init addr h0 ht0 hl0
  simp only [ha] at hi
  refine validateCookie_current hc hdue ha ht hl ?_
  rw [hck, hi, cookieBlob_introKeys, cookieBlob_introKeys, hm, hb]

/-- `smallHandshake` echoes the cookie `smallResponder` issues to `smallAddr` for the INIT
with intro keys `[1, 1]`. -/
theorem issuedCookie_accepted_small :
    validateCookie Sizes.small Crypto.toy (rotateIfDue Sizes.small smallResponder smallHost)
      smallHandshake smallAddr smallHost =
        (0, rotateIfDue Sizes.small smallResponder smallHost) :=
  @issuedCookie_accepted Sizes.small Crypto.toy smallResponder smallHandshake smallAddr smallHost
    Crypto.toy_reliable ⟨PktType.init.toByte, 0, 8, [1, 1, 1, 1]⟩ smallHost [10, 0, 0, 1, 0, 80]
    rfl rfl rfl rfl (by decide) rfl rfl (by decide) (by decide)

theorem onHandshakePkt_accepted (hc : c.Reliable) {a m b X ck r : Bytes} {kp : EcdhKeypair}
    (hm : m.length = z.macKeyLen) (hk : b.length = z.macKeyLen)
    (hX : X.length = z.ecdhPublicKeyLen)
    (hck : ck = memwipePrefix z.pointerLen (c.mac ep.cookieKey (a ++ (m ++ b)) z.cookieLen).2)
    (hp : pkt = ⟨PktType.handshake.toByte, 0, z.pktHdrHandshakeLen + z.cookieLen,
      m ++ (b ++ (X ++ (ck ++ r)))⟩)
    (hdue : ¬ h.now > ep.cookieRotateTime + cookieRotateInterval) (ha : addr.blob = some a)
    (hb : h.bufAlloc = true) (hn : h.newSession = some kp)
    (hr : (ntorHandshake z c ep.introEcdhKeypair h.uninit (lodpSessionInit z addr
      (draw (fun i => h.stale (pktTlvLen + i)) z.ecdhPublicKeyLen) kp) X).1 = 0) :
    (onHandshakePkt z c ep none pkt addr h).session = some (ntorHandshake z c ep.introEcdhKeypair
      h.uninit (lodpSessionInit z addr (draw (fun i => h.stale (pktTlvLen + i))
        z.ecdhPublicKeyLen) kp) X).2 ∧
    Effect.sendto (encryptThenMac z c ep h ⟨m, b⟩ (handshakeAckPkt z (ntorHandshake z c
        ep.introEcdhKeypair h.uninit (lodpSessionInit z addr
          (draw (fun i => h.stale (pktTlvLen + i)) z.ecdhPublicKeyLen) kp) X).2)).ciphertext addr ∈
      (onHandshakePkt z c ep none pkt addr h).effects ∧
    Effect.onAccept addr ∈ (onHandshakePkt z c ep none pkt addr h).effects := by
  have hckl : ck.length = z.cookieLen := by simp [hck, c.mac_length]
  have hv := @validateCookie_current z c ep pkt addr h hc a hdue ha (by rw [hp])
    (by simp only [hp, z.bulk_eq_mac, Sizes.pktHdrHandshakeLen, Sizes.pktHandshakeLen,
      Sizes.pktInitLen, Sizes.pktHdrLen, pktTlvLen]; omega)
    (by rw [hp, Pkt.cookie_append hm hk hX hckl, cookieBlob_append hm hk, hck])
  have hr' : rotateIfDue z ep h = ep := by simp [rotateIfDue, hdue]
  subst hp
  refine ⟨?_, ?_, ?_⟩ <;> simp [onHandshakePkt, hv, hb, hn, Pkt.publicKey_append hm hk hX, hr,
    handshakeXmit, encryptThenMac_ok hc, hr', Pkt.introMacKey_append hm,
    Pkt.introBulkKey_append hm hk, -Sizes.cookieLen, -Sizes.pktHdrHandshakeLen]


theorem init_delivered (hc : c.Reliable) {a b : Bytes} {a' : SockAddr}
    (hm : s.rxKey.macKey.length = z.macKeyLen) (hk : s.rxKey.bulkKey.length = z.macKeyLen)
    (hb : Effect.sendto b a' ∈ (lodpSendInitPkt z c ep s h).effects)
    (hi : ep'.hasIntroKeys = true) (he : ep'.introSymKeys = s.txKey) (ha : addr.blob = some a)
    (hb' : h'.bufAlloc = true) (old : Bytes) :
    (lodpOnIncomingPkt z c ep' none ⟨b, old⟩ addr h').session = none ∧
    (lodpOnIncomingPkt z c ep' none ⟨b, old⟩ addr h').ep = rotateIfDue z ep' h' ∧
    Effect.sendto (encryptThenMac z c (rotateIfDue z ep' h') h' s.rxKey
      (tlv .initAck (pktTlvLen + z.cookieLen) ++ memwipePrefix z.pointerLen
        (c.mac (rotateIfDue z ep' h').cookieKey (a ++ (s.rxKey.macKey ++ s.rxKey.bulkKey))
          z.cookieLen).2)).ciphertext addr ∈
      (lodpOnIncomingPkt z c ep' none ⟨b, old⟩ addr h').effects := by
  have hfix := z.fixed_lt
  obtain ⟨h0, rfl, -⟩ := lodpSendInitPkt_sendto hb
  rw [List.take_of_length_le hm.le, List.take_of_length_le hk.le, List.append_assoc] at h0 ⊢
  obtain ⟨pkt, ⟨pad, rfl⟩, hin⟩ := (delivers_intro hc.inverts
    (by simp [hm, hk, pktTlvLen]; omega) (by simp [pktTlvLen]; omega) h0 hi he
    (.inl ⟨rfl, rfl⟩)).incoming old addr h'
  rw [hin, runHandler]
  exact onInitPkt_reply hc hm hk (by rw [List.append_assoc]) hb' ha

theorem initAck_delivered (hc : c.Reliable) {ck : Bytes} (hi : s.isInitiator = true)
    (hs : s.state = .init) (hd : 0 < z.cookieLen) (hck : ck.length = z.cookieLen)
    (hca : h'.cookieAlloc = true) (hb : h'.bufAlloc = true) (old : Bytes) :
    (lodpOnIncomingPkt z c ep' (some s) ⟨(encryptThenMac z c ep h s.rxKey
      (tlv .initAck (pktTlvLen + z.cookieLen) ++ ck)).ciphertext, old⟩ addr h').session =
      some { s with cookie := some ck, cookieLen := z.cookieLen, state := .handshake } ∧
    Effect.sendto (encryptThenMac z c ep' h' s.txKey (handshakePkt z
        { s with cookie := some ck, cookieLen := z.cookieLen, state := .handshake })).ciphertext
      s.peerAddr ∈ (lodpOnIncomingPkt z c ep' (some s) ⟨(encryptThenMac z c ep h s.rxKey
        (tlv .initAck (pktTlvLen + z.cookieLen) ++ ck)).ciphertext, old⟩ addr h').effects := by
  have hfix := z.fixed_lt
  obtain ⟨pkt, ⟨pad, rfl⟩, hin⟩ := (delivers_session hc.inverts (by rw [hck])
    (by simp [pktTlvLen]; omega) (encryptThenMac_ok (z := z) hc ep h s.rxKey
      (tlv .initAck (pktTlvLen + z.cookieLen) ++ ck)) rfl rfl).incoming old addr h'
  rw [hin, runHandler]
  exact onInitAckPkt_handshake hc hi hs hd hck hca hb


theorem handshake_delivered (hc : c.Reliable) {a : Bytes} {kp : EcdhKeypair}
    (hm : s.rxKey.macKey.length = z.macKeyLen) (hk : s.rxKey.bulkKey.length = z.macKeyLen)
    (hX : s.sessionEcdhKeypair.publicKey.length = z.ecdhPublicKeyLen)
    (hck : s.cookie = some (memwipePrefix z.pointerLen
      (c.mac ep'.cookieKey (a ++ (s.rxKey.macKey ++ s.rxKey.bulkKey)) z.cookieLen).2))
    (hcl : s.cookieLen = z.cookieLen) (hi : ep'.hasIntroKeys = true)
    (he : ep'.introSymKeys = s.txKey)
    (hdue : ¬ h'.now > ep'.cookieRotateTime + cookieRotateInterval) (ha : addr.blob = some a)
    (hb : h'.bufAlloc = true) (hn : h'.newSession = some kp)
    (hr : (ntorHandshake z c ep'.introEcdhKeypair h'.uninit (lodpSessionInit z addr
      (draw (fun i => h'.stale (pktTlvLen + i)) z.ecdhPublicKeyLen) kp)
        s.sessionEcdhKeypair.publicKey).1 = 0) (old : Bytes) :
    (lodpOnIncomingPkt z c ep' none
      ⟨(encryptThenMac z c ep h s.txKey (handshakePkt z s)).ciphertext, old⟩ addr h').session =
      some (ntorHandshake z c ep'.introEcdhKeypair h'.uninit
        (lodpSessionInit z addr (draw (fun i => h'.stale (pktTlvLen + i)) z.ecdhPublicKeyLen) kp)
          s.sessionEcdhKeypair.publicKey).2 ∧
    Effect.sendto (encryptThenMac z c ep' h' s.rxKey (handshakeAckPkt z (ntorHandshake z c
        ep'.introEcdhKeypair h'.uninit (lodpSessionInit z addr (draw (fun i =>
          h'.stale (pktTlvLen + i)) z.ecdhPublicKeyLen) kp)
            s.sessionEcdhKeypair.publicKey).2)).ciphertext addr ∈
      (lodpOnIncomingPkt z c ep' none ⟨(encryptThenMac z c ep h s.txKey
        (handshakePkt z s)).ciphertext, old⟩ addr h').effects ∧
    Effect.onAccept addr ∈ (lodpOnIncomingPkt z c ep' none ⟨(encryptThenMac z c ep h s.txKey
      (handshakePkt z s)).ciphertext, old⟩ addr h').effects := by
  have hfix := z.fixed_lt
  have hckl : (memwipePrefix z.pointerLen (c.mac ep'.cookieKey
      (a ++ (s.rxKey.macKey ++ s.rxKey.bulkKey)) z.cookieLen).2).length = z.cookieLen := by
    simp [c.mac_length]
  have h0 := encryptThenMac_ok (z := z) hc ep h s.txKey (handshakePkt z s)
  simp only [handshakePkt, hck, hcl, Option.getD_some, List.take_of_length_le hm.le,
    List.take_of_length_le hk.le, List.take_of_length_le hX.le, List.take_of_length_le hckl.le,
    List.append_assoc] at h0 ⊢
  obtain ⟨pkt, ⟨pad, rfl⟩, hin⟩ := (delivers_intro hc.inverts
    (by simp only [List.length_append, hm, hk, hX, hckl]; simp [pktTlvLen]; omega)
    (by simp [pktTlvLen]; omega) h0 hi he (.inr ⟨rfl, rfl⟩)).incoming old addr h'
  rw [hin, runHandler]
  exact onHandshakePkt_accepted hc hm hk hX rfl (by simp only [List.append_assoc]; rfl) hdue ha hb
    hn hr

theorem handshakeAck_delivered (hc : c.Reliable) {r : Session} (hi : s.isInitiator = true)
    (hs : s.state = .handshake) (hY : r.sessionEcdhKeypair.publicKey.length = z.ecdhPublicKeyLen)
    (hV : r.sessionSecretVerifier.length = z.macDigestLen)
    (hr : (ntorHandshake z c ep'.introEcdhKeypair h'.uninit s
      r.sessionEcdhKeypair.publicKey).1 = 0)
    (hv : (ntorHandshake z c ep'.introEcdhKeypair h'.uninit s
      r.sessionEcdhKeypair.publicKey).2.sessionSecretVerifier = r.sessionSecretVerifier)
    (old : Bytes) :
    lodpOnIncomingPkt z c ep' (some s)
        ⟨(encryptThenMac z c ep h s.rxKey (handshakeAckPkt z r)).ciphertext, old⟩ addr h' =
      let sc := scrubHandshakeMaterial z { (ntorHandshake z c ep'.introEcdhKeypair h'.uninit s
        r.sessionEcdhKeypair.publicKey).2 with state := .established }
      ⟨0, ep', some sc.1, sc.2 ++ [.onConnect 0]⟩ := by
  have hfix := z.fixed_lt
  have h0 := encryptThenMac_ok (z := z) hc ep h s.rxKey (handshakeAckPkt z r)
  simp only [handshakeAckPkt, List.take_of_length_le hY.le, List.take_of_length_le hV.le,
    List.append_assoc] at h0 ⊢
  obtain ⟨pkt, ⟨pad, hp⟩, hin⟩ := (delivers_session hc.inverts
    (by simp only [List.length_append, hY, hV]; simp [pktTlvLen]; omega)
    (by simp [pktTlvLen]; omega) h0 rfl rfl).incoming old addr h'
  rw [List.append_assoc] at hp
  have hY' : pkt.ackPublicKey z = r.sessionEcdhKeypair.publicKey := by
    rw [hp, Pkt.ackPublicKey_append hY]
  have hd : pkt.digest z = r.sessionSecretVerifier := by rw [hp, Pkt.digest_append hY hV]
  rw [hin, runHandler, @onHandshakeAckPkt_accept z c ep' s pkt h' hi hs (by rw [hp])
    (by rw [hY']; exact hr) (by rw [hY', hd, hv]; simp [memcmp]), hY']

end Handshake

/-- The four-message handshake between two endpoints, end to end, each datagram delivered
once. With reliable crypto, the Diffie-Hellman laws, validating keys, the responder's identity
key known, allocations succeeding and no rotation due: the responder answers the INIT
statelessly, creates an ESTABLISHED session on the HANDSHAKE and calls `on_accept_fn`; the
initiator ends ESTABLISHED with the responder's keys mirrored and `on_connect_fn(0)`. -/
theorem handshake_completes (hc : c.Reliable) {epI epR : Endpoint} {si : Session}
    {kp : EcdhKeypair} {addr addr' : SockAddr} {a : Bytes} {h1 h2 h3 h4 h5 : Host}
    (hd : 0 < z.macDigestLen) (hi : si.isInitiator = true) (hs : si.state = .init)
    (hm : si.rxKey.macKey.length = z.macKeyLen) (hk : si.rxKey.bulkKey.length = z.macKeyLen)
    (hX : si.sessionEcdhKeypair.publicKey.length = z.ecdhPublicKeyLen)
    (hY : kp.publicKey.length = z.ecdhPublicKeyLen)
    (hik : epR.hasIntroKeys = true) (he : epR.introSymKeys = si.txKey)
    (hB : si.remotePublicKey = epR.introEcdhKeypair.publicKey)
    (hvX : c.validatePubkey si.sessionEcdhKeypair.publicKey)
    (hvY : c.validatePubkey kp.publicKey) (hvB : c.validatePubkey epR.introEcdhKeypair.publicKey)
    (hdh1 : c.ecdh si.sessionEcdhKeypair.privateKey kp.publicKey =
      c.ecdh kp.privateKey si.sessionEcdhKeypair.publicKey)
    (hdh2 : c.ecdh si.sessionEcdhKeypair.privateKey epR.introEcdhKeypair.publicKey =
      c.ecdh epR.introEcdhKeypair.privateKey si.sessionEcdhKeypair.publicKey)
    (ha : addr.blob = some a) (hb1 : h1.bufAlloc = true) (hb2 : h2.bufAlloc = true)
    (hb3 : h3.bufAlloc = true) (hca : h3.cookieAlloc = true) (hb4 : h4.bufAlloc = true)
    (hn : h4.newSession = some kp)
    (hdue : ¬ h4.now > (rotateIfDue z epR h2).cookieRotateTime + cookieRotateInterval)
    (o1 o2 o3 o4 : Bytes) :
    ∃ b1 b2 b3 b4 si' sr,
      Effect.sendto b1 si.peerAddr ∈ (lodpSendInitPkt z c epI si h1).effects ∧
      (lodpOnIncomingPkt z c epR none ⟨b1, o1⟩ addr h2).session = none ∧
      Effect.sendto b2 addr ∈ (lodpOnIncomingPkt z c epR none ⟨b1, o1⟩ addr h2).effects ∧
      (lodpOnIncomingPkt z c epI (some si) ⟨b2, o2⟩ addr' h3).session = some si' ∧
      si'.state = .handshake ∧
      Effect.sendto b3 si.peerAddr ∈
        (lodpOnIncomingPkt z c epI (some si) ⟨b2, o2⟩ addr' h3).effects ∧
      (lodpOnIncomingPkt z c (lodpOnIncomingPkt z c epR none ⟨b1, o1⟩ addr h2).ep none
        ⟨b3, o3⟩ addr h4).session = some sr ∧ sr.state = .established ∧
      Effect.sendto b4 addr ∈ (lodpOnIncomingPkt z c
        (lodpOnIncomingPkt z c epR none ⟨b1, o1⟩ addr h2).ep none ⟨b3, o3⟩ addr h4).effects ∧
      Effect.onAccept addr ∈ (lodpOnIncomingPkt z c
        (lodpOnIncomingPkt z c epR none ⟨b1, o1⟩ addr h2).ep none ⟨b3, o3⟩ addr h4).effects ∧
      (lodpOnIncomingPkt z c epI (some si') ⟨b4, o4⟩ addr' h5).ret = 0 ∧
      (∀ st, Effect.onConnect st ∈
        (lodpOnIncomingPkt z c epI (some si') ⟨b4, o4⟩ addr' h5).effects ↔ st = 0) ∧
      ∃ si'', (lodpOnIncomingPkt z c epI (some si') ⟨b4, o4⟩ addr' h5).session = some si'' ∧
        si''.state = .established ∧ si''.txKey = sr.rxKey ∧ si''.rxKey = sr.txKey := by
  have hsent : Effect.sendto (encryptThenMac z c epI h1 si.txKey (tlv .init z.pktHdrInitLen ++
      si.rxKey.macKey.take z.macKeyLen ++ si.rxKey.bulkKey.take z.macKeyLen)).ciphertext
        si.peerAddr ∈ (lodpSendInitPkt z c epI si h1).effects := by
    simp [lodpSendInitPkt, hb1, sealAndSend, encryptThenMac_ok hc, -Sizes.pktHdrInitLen]
  obtain ⟨hr2, hep, hack⟩ := init_delivered hc hm hk hsent hik he ha hb2 o1
  set ck := memwipePrefix z.pointerLen (c.mac (rotateIfDue z epR h2).cookieKey
    (a ++ (si.rxKey.macKey ++ si.rxKey.bulkKey)) z.cookieLen).2
  have hckl : ck.length = z.cookieLen := by simp [ck, c.mac_length]
  obtain ⟨hi3, hhs⟩ := @initAck_delivered z c (rotateIfDue z epR h2) epI si addr' h2 h3 hc ck hi
    hs hd hckl hca hb3 o2
  set si' := { si with cookie := some ck, cookieLen := z.cookieLen, state := .handshake }
  set s0 := lodpSessionInit z addr (draw (fun i => h4.stale (pktTlvLen + i)) z.ecdhPublicKeyLen) kp
  obtain ⟨hti, htr⟩ :
      secretInput c epI.introEcdhKeypair si' s0.sessionEcdhKeypair.publicKey = some _ ∧
      secretInput c epR.introEcdhKeypair s0 si'.sessionEcdhKeypair.publicKey = some _ :=
    secretInput_agree hi rfl rfl rfl hB hvX hvY hvB hdh1 hdh2 _
  obtain ⟨hri, hrr, -, hver, htx, hrx⟩ :=
    ntorHandshake_agree (z := z) h5.uninit h4.uninit (show si'.isInitiator = true from hi) rfl hti
      htr hc.mac_ok hc.derive_ok
  obtain ⟨hr4, hack4, hacc⟩ := @handshake_delivered z c epI (rotateIfDue z epR h2) si' addr h3 h4
    hc a kp hm hk hX rfl rfl (by simpa using hik) (by simpa using he) hdue ha hb4 hn
    (by simpa using hrr) o3
  simp only [rotateIfDue_introEcdhKeypair] at hr4 hack4
  set sr := (ntorHandshake z c epR.introEcdhKeypair h4.uninit s0 si'.sessionEcdhKeypair.publicKey).2
  have hYr : sr.sessionEcdhKeypair.publicKey = s0.sessionEcdhKeypair.publicKey := by simp [sr]
  have hVr : sr.sessionSecretVerifier.length = z.macDigestLen := by
    simp only [sr]
    rw [ntorHandshake_ok htr hc.mac_ok hc.derive_ok]
    simp [s0, lodpSessionInit, c.mac_length]
  have hD := @handshakeAck_delivered z c (rotateIfDue z epR h2) epI si' addr' h4 h5 hc sr hi rfl
    (by simp [hYr, s0, lodpSessionInit, hY]) hVr (by rw [hYr]; exact hri) (by rw [hYr]; exact hver)
    o4
  rw [hYr] at hD
  refine ⟨_, _, _, (encryptThenMac z c (rotateIfDue z epR h2) h4 si.rxKey
    (handshakeAckPkt z sr)).ciphertext, si', sr, hsent, hr2, hack, hi3, rfl, hhs, ?_⟩
  rw [hep, hD]
  exact ⟨hr4, by simp [sr, s0, lodpSessionInit], hack4, hacc, rfl, fun st => onConnect_mem_scrub,
    _, rfl, by simp, by simp [htx], by simp [hrx]⟩

/-- An initiator in INIT with ephemeral key `3`, intro keys `[1, 1]`, that knows the
responder's key `5` and seals under `smallResponder`'s intro keys. -/
def smallConnecting : Session :=
  ⟨smallAddr, true, .init, ⟨[0, 3], [0, 3]⟩, [0, 5], ⟨[0, 0], [0, 0]⟩, ⟨[1, 1], [1, 1]⟩,
    [0, 0], [0, 0], none, 0, false⟩

/-- The handshake of `smallConnecting` with `smallResponder`, every call at `smallHost`. -/
theorem handshake_completes_small :
    ∃ b1 b2 b3 b4 si' sr,
      Effect.sendto b1 smallConnecting.peerAddr ∈ (lodpSendInitPkt Sizes.small Crypto.toy
        smallResponder smallConnecting smallHost).effects ∧
      (lodpOnIncomingPkt Sizes.small Crypto.toy smallResponder none ⟨b1, []⟩ smallAddr
        smallHost).session = none ∧
      Effect.sendto b2 smallAddr ∈ (lodpOnIncomingPkt Sizes.small Crypto.toy smallResponder none
        ⟨b1, []⟩ smallAddr smallHost).effects ∧
      (lodpOnIncomingPkt Sizes.small Crypto.toy smallResponder (some smallConnecting) ⟨b2, []⟩
        smallAddr smallHost).session = some si' ∧
      si'.state = .handshake ∧
      Effect.sendto b3 smallConnecting.peerAddr ∈ (lodpOnIncomingPkt Sizes.small Crypto.toy
        smallResponder (some smallConnecting) ⟨b2, []⟩ smallAddr smallHost).effects ∧
      (lodpOnIncomingPkt Sizes.small Crypto.toy (lodpOnIncomingPkt Sizes.small Crypto.toy
        smallResponder none ⟨b1, []⟩ smallAddr smallHost).ep none ⟨b3, []⟩ smallAddr
          smallHost).session = some sr ∧ sr.state = .established ∧
      Effect.sendto b4 smallAddr ∈ (lodpOnIncomingPkt Sizes.small Crypto.toy
        (lodpOnIncomingPkt Sizes.small Crypto.toy smallResponder none ⟨b1, []⟩ smallAddr
          smallHost).ep none ⟨b3, []⟩ smallAddr smallHost).effects ∧
      Effect.onAccept smallAddr ∈ (lodpOnIncomingPkt Sizes.small Crypto.toy
        (lodpOnIncomingPkt Sizes.small Crypto.toy smallResponder none ⟨b1, []⟩ smallAddr
          smallHost).ep none ⟨b3, []⟩ smallAddr smallHost).effects ∧
      (lodpOnIncomingPkt Sizes.small Crypto.toy smallResponder (some si') ⟨b4, []⟩ smallAddr
        smallHost).ret = 0 ∧
      (∀ st, Effect.onConnect st ∈ (lodpOnIncomingPkt Sizes.small Crypto.toy smallResponder
        (some si') ⟨b4, []⟩ smallAddr smallHost).effects ↔ st = 0) ∧
      ∃ si'', (lodpOnIncomingPkt Sizes.small Crypto.toy smallResponder (some si') ⟨b4, []⟩
          smallAddr smallHost).session = some si'' ∧
        si''.state = .established ∧ si''.txKey = sr.rxKey ∧ si''.rxKey = sr.txKey :=
  @handshake_completes Sizes.small Crypto.toy Crypto.toy_reliable smallResponder smallResponder
    smallConnecting ⟨[0, 4], [0, 4]⟩ smallAddr smallAddr [10, 0, 0, 1, 0, 80] smallHost smallHost
    smallHost smallHost smallHost (by decide) rfl rfl rfl rfl rfl rfl rfl rfl rfl rfl rfl rfl rfl
    rfl rfl rfl rfl rfl rfl rfl rfl (by decide) [] [] [] []

end Lodp
