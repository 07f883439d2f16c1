import Lodp.Handshake

/-! The responder's side of the handshake: issued cookies, created sessions, repeated HANDSHAKEs. -/
namespace Lodp

variable {z : Sizes} {c : Crypto}

section Responder
variable {ep : Endpoint} {pkt : Pkt} {addr : SockAddr} {h : Host}

theorem issuedCookie_eq (ht : pkt.type = PktType.init.toByte)
    (hl : z.pktHdrInitLen = pkt.length) :
    issuedCookie z c ep pkt addr h = match addr.blob with
      | some a => memwipePrefix z.pointerLen
          (c.mac (rotateIfDue z ep h).cookieKey (cookieBlob z a pkt) z.cookieLen).2
      | none => draw (fun i => h.stale (pktTlvLen + i)) z.cookieLen := by
  have hlen : ¬ pkt.length < 4 + z.macKeyLen + z.bulkKeyLen := by
    have := z.bulk_eq_mac
    simp only [← hl, Sizes.pktHdrInitLen, Sizes.pktInitLen, Sizes.pktHdrLen, Sizes.pktTagLen,
      pktTlvLen]
    omega
  unfold issuedCookie generateCookie
  rcases addr.blob with _ | a
  · simp [ht]
  · simp [ht, hlen]

/-- Issued cookie content. For an INIT of the right length whose INIT ACK seals, `on_init_pkt`
sends that INIT ACK and returns the status of `sendto_fn`, whatever the source's address
family and whatever `generate_cookie` returned, and the cookie it carries is the one of
`issuedCookie_eq`: never the plain MAC, since `generate_cookie` wipes its first
`sizeof(lodp_cookie *)` bytes, and for a family other than `AF_INET` and `AF_INET6` not a MAC
at all. -/
theorem onInitPkt_issued_cookie (ht : pkt.type = PktType.init.toByte)
    (hl : z.pktHdrInitLen = pkt.length) (hb : h.bufAlloc = true)
    (he : (encryptThenMac z c (rotateIfDue z ep h) h ⟨pkt.introMacKey z, pkt.introBulkKey z⟩
      (tlv .initAck (pktTlvLen + z.cookieLen) ++ issuedCookie z c ep pkt addr h)).ret = 0) :
    (onInitPkt z c ep pkt addr h).ret = h.sendto ∧
    Effect.sendto (encryptThenMac z c (rotateIfDue z ep h) h ⟨pkt.introMacKey z,
      pkt.introBulkKey z⟩ (tlv .initAck (pktTlvLen + z.cookieLen) ++
        issuedCookie z c ep pkt addr h)).ciphertext addr ∈ (onInitPkt z c ep pkt addr h).effects ∧
    issuedCookie z c ep pkt addr h = match addr.blob with
      | some a => memwipePrefix z.pointerLen
          (c.mac (rotateIfDue z ep h).cookieKey (cookieBlob z a pkt) z.cookieLen).2
      | none => draw (fun i => h.stale (pktTlvLen + i)) z.cookieLen := by
  refine ⟨?_, ?_, issuedCookie_eq ht hl⟩ <;>
    simp [onInitPkt, ← hl, hb, sealAndSend, he, -Sizes.cookieLen]

/-- The failing input: an INIT from `smallAddr` with intro keys `[1, 1]` gets the cookie
`[0, 109]`, whose first byte the wipe zeroed in the MAC `[109, 109]`; one from a source of
another family gets an INIT ACK too. -/
theorem onInitPkt_issued_cookie_small :
    ((onInitPkt Sizes.small Crypto.toy smallResponder
        ⟨PktType.init.toByte, 0, 8, [1, 1, 1, 1]⟩ smallAddr smallHost).ret = smallHost.sendto ∧
      Effect.sendto (encryptThenMac Sizes.small Crypto.toy (rotateIfDue Sizes.small smallResponder
        smallHost) smallHost ⟨[1, 1], [1, 1]⟩ (tlv .initAck 6 ++ issuedCookie Sizes.small
          Crypto.toy smallResponder ⟨PktType.init.toByte, 0, 8, [1, 1, 1, 1]⟩ smallAddr
            smallHost)).ciphertext smallAddr ∈ (onInitPkt Sizes.small Crypto.toy smallResponder
              ⟨PktType.init.toByte, 0, 8, [1, 1, 1, 1]⟩ smallAddr smallHost).effects ∧
      issuedCookie Sizes.small Crypto.toy smallResponder ⟨PktType.init.toByte, 0, 8,
        [1, 1, 1, 1]⟩ smallAddr smallHost = memwipePrefix 1 [109, 109]) ∧
    ((onInitPkt Sizes.small Crypto.toy smallResponder
        ⟨PktType.init.toByte, 0, 8, [1, 1, 1, 1]⟩ (.other 0) smallHost).ret = smallHost.sendto ∧
      Effect.sendto (encryptThenMac Sizes.small Crypto.toy (rotateIfDue Sizes.small smallResponder
        smallHost) smallHost ⟨[1, 1], [1, 1]⟩ (tlv .initAck 6 ++ issuedCookie Sizes.small
          Crypto.toy smallResponder ⟨PktType.init.toByte, 0, 8, [1, 1, 1, 1]⟩ (.other 0)
            smallHost)).ciphertext (.other 0) ∈ (onInitPkt Sizes.small Crypto.toy smallResponder
              ⟨PktType.init.toByte, 0, 8, [1, 1, 1, 1]⟩ (.other 0) smallHost).effects ∧
      issuedCookie Sizes.small Crypto.toy smallResponder ⟨PktType.init.toByte, 0, 8,
        [1, 1, 1, 1]⟩ (.other 0) smallHost = [0, 0]) :=
  ⟨onInitPkt_issued_cookie rfl rfl rfl (by decide),
    onInitPkt_issued_cookie rfl rfl rfl (by decide)⟩

theorem onHandshakePkt_created {s : Session}
    (hs : (onHandshakePkt z c ep none pkt addr h).session = some s) :
    s.isInitiator = false ∧ s.state = .established ∧ s.seenPeerData = false ∧
      s.peerAddr = addr ∧
      s.remotePublicKey = draw (fun i => h.stale (pktTlvLen + i)) z.ecdhPublicKeyLen := by
  obtain ⟨-, -, -, kp, -, hr⟩ := onHandshakePkt_none_session hs
  obtain rfl : _ = s := congrArg Prod.snd hr
  simp [lodpSessionInit]

/-- Responder session creation. For a HANDSHAKE that passes the length and cookie checks with
no session, a failed `lodp_session_init` returns `0`, the status the cookie check left, and
keeps no session; a session that is kept is a responder for the source address, but its
`remote_public_key` is the stale content of the HANDSHAKE ACK buffer, not the `X` the
HANDSHAKE carries. -/
theorem onHandshakePkt_new_session (hl : z.pktHdrHandshakeLen + z.cookieLen = pkt.length)
    (hv : (validateCookie z c ep pkt addr h).1 = 0) (hb : h.bufAlloc = true) :
    (h.newSession = none → (onHandshakePkt z c ep none pkt addr h).ret = 0 ∧
      (onHandshakePkt z c ep none pkt addr h).session = none) ∧
    ∀ s, (onHandshakePkt z c ep none pkt addr h).session = some s →
      s.isInitiator = false ∧ s.peerAddr = addr ∧
      s.remotePublicKey = draw (fun i => h.stale (pktTlvLen + i)) z.ecdhPublicKeyLen := by
  refine ⟨fun hn => ?_, fun s hs => ?_⟩
  · simp [onHandshakePkt, ← hl, hv, hb, hn]
  · obtain ⟨hi, -, -, ha, hk⟩ := onHandshakePkt_created hs
    exact ⟨hi, ha, hk⟩

/-- The failing input: `smallHandshake`, which carries `X = [0, 3]`, from `smallAddr`; when
`lodp_session_init` fails the call returns `0`, and when it succeeds the session's
`remote_public_key` is `[0, 0]`, the bytes the fresh buffer held. -/
theorem onHandshakePkt_new_session_small :
    ((onHandshakePkt Sizes.small Crypto.toy smallResponder none smallHandshake smallAddr
        { smallHost with newSession := none }).ret = 0 ∧
      (onHandshakePkt Sizes.small Crypto.toy smallResponder none smallHandshake smallAddr
        { smallHost with newSession := none }).session = none) ∧
    (((onHandshakePkt Sizes.small Crypto.toy smallResponder none smallHandshake smallAddr
        smallHost).session.getD smallInitiator).isInitiator = false ∧
      ((onHandshakePkt Sizes.small Crypto.toy smallResponder none smallHandshake smallAddr
        smallHost).session.getD smallInitiator).peerAddr = smallAddr ∧
      ((onHandshakePkt Sizes.small Crypto.toy smallResponder none smallHandshake smallAddr
        smallHost).session.getD smallInitiator).remotePublicKey = [0, 0]) :=
  ⟨(@onHandshakePkt_new_session Sizes.small Crypto.toy smallResponder smallHandshake smallAddr
      { smallHost with newSession := none } rfl (by decide) rfl).1 rfl,
    (@onHandshakePkt_new_session Sizes.small Crypto.toy smallResponder smallHandshake smallAddr
      smallHost rfl (by decide) rfl).2 _ (by decide)⟩

theorem onHandshakePkt_some_checked {s : Session}
    (hl : z.pktHdrHandshakeLen + z.cookieLen = pkt.length)
    (hv : (validateCookie z c ep pkt addr h).1 = 0) (hb : h.bufAlloc = true) :
    onHandshakePkt z c ep (some s) pkt addr h =
      if !s.seenPeerData then handshakeXmit z c (rotateIfDue z ep h) h
        ⟨pkt.introMacKey z, pkt.introBulkKey z⟩ addr
        [.assert .bufLen (decide (z.pktHandshakeAckLen < z.mss)),
          .assert .responder !s.isInitiator, .assert .notEstablished (s.state != .established)] s
      else ⟨lodpErrBadPacket, rotateIfDue z ep h, some s,
        [.assert .bufLen (decide (z.pktHandshakeAckLen < z.mss)),
          .assert .responder !s.isInitiator, .assert .notEstablished (s.state != .established)]⟩ := by
  simp only [onHandshakePkt, validateCookie_ep]
  rw [if_neg (not_not.mpr hl), if_neg (not_not.mpr hv), hb, if_neg (by decide : ¬(!true) = true)]

theorem mem_handshakeXmit_of_mem {s : Session} {key : SymmetricKey} {pre : List Effect}
    {e : Effect} (he : e ∈ pre) : e ∈ (handshakeXmit z c ep h key addr pre s).effects := by
  simp only [handshakeXmit]
  split_ifs <;> simp [he]

/-- Lost-ACK retransmission. A HANDSHAKE that passes the length and cookie checks for a
responder session `on_handshake_pkt` created reaches `assert(STATE_ESTABLISHED !=
session->state)` with the session in ESTABLISHED, so the assertion fails, before
`seen_peer_data` is read. Before the first DATA the answer is `do_xmit` of the same session,
hence the same `public_key` and `digest`, with no new session; after the DATA that scrubs it,
the HANDSHAKE is dropped with `LODP_ERR_BAD_PACKET` and nothing is sent. -/
theorem handshake_retransmit_asserts {ep' : Endpoint} {pkt' : Pkt} {addr' : SockAddr}
    {h' : Host} {s : Session} (hs : (onHandshakePkt z c ep none pkt addr h).session = some s)
    (hl : z.pktHdrHandshakeLen + z.cookieLen = pkt'.length)
    (hv : (validateCookie z c ep' pkt' addr' h').1 = 0) (hb : h'.bufAlloc = true) :
    Effect.assert .notEstablished false ∈ (onHandshakePkt z c ep' (some s) pkt' addr' h').effects ∧
    (∃ pre, onHandshakePkt z c ep' (some s) pkt' addr' h' = handshakeXmit z c
        (rotateIfDue z ep' h') h' ⟨pkt'.introMacKey z, pkt'.introBulkKey z⟩ addr' pre s ∧
      ∀ a, Effect.sessionInit a ∉ pre) ∧
    Effect.assert .notEstablished false ∈ (onHandshakePkt z c ep'
      (some (scrubHandshakeMaterial z { s with seenPeerData := true }).1) pkt' addr' h').effects ∧
    (onHandshakePkt z c ep' (some (scrubHandshakeMaterial z { s with seenPeerData := true }).1)
      pkt' addr' h').ret = lodpErrBadPacket ∧
    ∀ b a, Effect.sendto b a ∉ (onHandshakePkt z c ep'
      (some (scrubHandshakeMaterial z { s with seenPeerData := true }).1) pkt' addr' h').effects := by
  obtain ⟨-, hst, hseen, -, -⟩ := onHandshakePkt_created hs
  rw [onHandshakePkt_some_checked hl hv hb, onHandshakePkt_some_checked hl hv hb, hseen]
  refine ⟨mem_handshakeXmit_of_mem ?_, ⟨_, rfl, by simp⟩, ?_, rfl, by simp⟩ <;> simp [hst]

/-- The failing input: `smallHandshake` delivered a second time, for the session its first
copy created, at the same time and from the same address. -/
theorem handshake_retransmit_asserts_small :
    Effect.assert .notEstablished false ∈ (onHandshakePkt Sizes.small Crypto.toy smallResponder
      (some ((onHandshakePkt Sizes.small Crypto.toy smallResponder none smallHandshake smallAddr
        smallHost).session.getD smallInitiator)) smallHandshake smallAddr smallHost).effects ∧
    (∃ pre, onHandshakePkt Sizes.small Crypto.toy smallResponder
        (some ((onHandshakePkt Sizes.small Crypto.toy smallResponder none smallHandshake
          smallAddr smallHost).session.getD smallInitiator)) smallHandshake smallAddr smallHost =
      handshakeXmit Sizes.small Crypto.toy (rotateIfDue Sizes.small smallResponder smallHost)
        smallHost ⟨smallHandshake.introMacKey Sizes.small, smallHandshake.introBulkKey Sizes.small⟩
        smallAddr pre ((onHandshakePkt Sizes.small Crypto.toy smallResponder none smallHandshake
          smallAddr smallHost).session.getD smallInitiator) ∧
      ∀ a, Effect.sessionInit a ∉ pre) ∧
    Effect.assert .notEstablished false ∈ (onHandshakePkt Sizes.small Crypto.toy smallResponder
      (some (scrubHandshakeMaterial Sizes.small { (onHandshakePkt Sizes.small Crypto.toy
        smallResponder none smallHandshake smallAddr smallHost).session.getD smallInitiator with
          seenPeerData := true }).1) smallHandshake smallAddr smallHost).effects ∧
    (onHandshakePkt Sizes.small Crypto.toy smallResponder
      (some (scrubHandshakeMaterial Sizes.small { (onHandshakePkt Sizes.small Crypto.toy
        smallResponder none smallHandshake smallAddr smallHost).session.getD smallInitiator with
          seenPeerData := true }).1) smallHandshake smallAddr smallHost).ret = lodpErrBadPacket ∧
    ∀ b a, Effect.sendto b a ∉ (onHandshakePkt Sizes.small Crypto.toy smallResponder
      (some (scrubHandshakeMaterial Sizes.small { (onHandshakePkt Sizes.small Crypto.toy
        smallResponder none smallHandshake smallAddr smallHost).session.getD smallInitiator with
          seenPeerData := true }).1) smallHandshake smallAddr smallHost).effects :=
  @handshake_retransmit_asserts Sizes.small Crypto.toy smallResponder smallHandshake smallAddr
    smallHost smallResponder smallHandshake smallAddr smallHost _ (by decide) rfl (by decide) rfl

end Responder

end Lodp
