import Lodp.Handshake

/-! The initiator's side of the handshake: the HANDSHAKE it sends and its scrub. -/
namespace Lodp

variable {z : Sizes} {c : Crypto}

section Initiator
variable {ep : Endpoint} {s : Session} {buf : Buf} {addr : SockAddr} {h : Host}

/-- An INIT ACK the dispatcher admits for an initiator in INIT. `on_init_ack_pkt` stores its
cookie and `lodp_send_handshake_pkt` sizes the HANDSHAKE as `PKT_HANDSHAKE_LEN + cookie_len`,
but the header checks bound the cookie only by `len - PKT_TAG_LEN - 4`: for a cookie of
`LODP_MSS - PKT_HANDSHAKE_LEN` bytes or more, `assert(buf->len < LODP_MSS)` fails. The call
returns `0` whatever `encrypt_then_mac` and `sendto_fn` returned. -/
theorem initAck_cookie_overflow (hi : s.isInitiator = true) (hs : s.state = .init)
    (hm : (macThenDecrypt z c s.rxKey buf).1 = 0)
    (ht : (Pkt.parse (macThenDecrypt z c s.rxKey buf).2.plaintext).type =
      PktType.initAck.toByte)
    (hf : (Pkt.parse (macThenDecrypt z c s.rxKey buf).2.plaintext).flags = 0)
    (hmin : pktTlvLen < (Pkt.parse (macThenDecrypt z c s.rxKey buf).2.plaintext).length)
    (hmax : (Pkt.parse (macThenDecrypt z c s.rxKey buf).2.plaintext).length ≤
      buf.ciphertext.length - z.pktTagLen)
    (hbig : z.mss ≤ z.pktHandshakeLen +
      ((Pkt.parse (macThenDecrypt z c s.rxKey buf).2.plaintext).length - pktTlvLen))
    (hca : h.cookieAlloc = true) (hb : h.bufAlloc = true) :
    Effect.assert .bufLen false ∈ (lodpOnIncomingPkt z c ep (some s) buf addr h).effects ∧
      (lodpOnIncomingPkt z c ep (some s) buf addr h).ret = 0 := by
  have hd : demux z c ep (some s) buf = _ := demux_session_ok (Prod.ext hm rfl)
    ((route_session hmin.le hmax hf).trans (by rw [ht]; rfl))
  generalize Pkt.parse (macThenDecrypt z c s.rxKey buf).2.plaintext = pkt at hd hmin hbig
  have hc : pkt.length - pktTlvLen ≠ 0 := by omega
  have hover : decide (z.pktHandshakeLen + (pkt.length - pktTlvLen) < z.mss) = false :=
    decide_eq_false (Nat.not_lt.mpr hbig)
  simp only [lodpOnIncomingPkt, hd, runHandler, onInitAckPkt, hi, hs, hc, hca, lodpHandshake,
    lodpSendHandshakePkt, hb, hover]
  simp

/-- The failing input: under `Sizes.small` (`PKT_HANDSHAKE_LEN = 13`, `LODP_MSS = 16`), an
initiator in INIT receives, sealed under its intro keys, an INIT ACK with a 3-byte cookie in
a 10-byte datagram; `sendto_fn` returns `-9`. -/
theorem initAck_cookie_overflow_small :
    Effect.assert .bufLen false ∈ (lodpOnIncomingPkt Sizes.small Crypto.toy smallResponder
      (some { smallInitiator with state := .init, cookie := none, cookieLen := 0 })
      ⟨[17, 17, 0, 2, 0, 0, 7, 1, 2, 3], []⟩ smallAddr { smallHost with sendto := -9 }).effects ∧
    (lodpOnIncomingPkt Sizes.small Crypto.toy smallResponder
      (some { smallInitiator with state := .init, cookie := none, cookieLen := 0 })
      ⟨[17, 17, 0, 2, 0, 0, 7, 1, 2, 3], []⟩ smallAddr { smallHost with sendto := -9 }).ret = 0 :=
  initAck_cookie_overflow rfl rfl rfl rfl rfl (by decide) (by decide) (by decide) rfl rfl

variable {pkt : Pkt}

theorem onInitAckPkt_nobufs (hi : s.isInitiator = true) (hs : s.state = .init)
    (hc : pkt.length - pktTlvLen ≠ 0) (hca : h.cookieAlloc = false) :
    onInitAckPkt z c ep s pkt h =
      ⟨lodpErrNobufs, ep, some { s with state := .error }, [.onConnect lodpErrNobufs]⟩ := by
  simp [onInitAckPkt, hi, hs, hc, hca]

theorem onHandshakeAckPkt_freeCookie {ck : Bytes} (hi : s.isInitiator = true)
    (hs : s.state = .handshake) (hck : s.cookie = some ck)
    (hl : z.pktHdrHandshakeAckLen = pkt.length) :
    Effect.freeCookie (List.replicate (min z.sizeLen ck.length) 0 ++ ck.drop z.sizeLen) ∈
      (onHandshakeAckPkt z c ep s pkt h).effects := by
  simp [onHandshakeAckPkt, hi, hs, ← hl, scrubHandshakeMaterial, hck, memwipePrefix_eq]

/-- Scrub discipline, where it is broken. An initiator in INIT whose cookie allocation fails
ends in ERROR with its ephemeral key pair, secret and verifier as they were, since
`on_init_ack_pkt` returns without `scrub_handshake_material`. An initiator in HANDSHAKE that
processes a HANDSHAKE ACK releases its cookie buffer with only its first
`sizeof(session->cookie_len)` bytes zeroed; the bytes past them are released as they were. -/
theorem initiator_scrub_incomplete {s2 : Session} {pkt2 : Pkt} {h2 : Host} {ck : Bytes}
    (hi : s.isInitiator = true) (hs : s.state = .init) (hc : pkt.length - pktTlvLen ≠ 0)
    (hca : h.cookieAlloc = false) (hi2 : s2.isInitiator = true) (hs2 : s2.state = .handshake)
    (hck : s2.cookie = some ck) (hl2 : z.pktHdrHandshakeAckLen = pkt2.length) :
    (∃ s', (onInitAckPkt z c ep s pkt h).session = some s' ∧ s'.isInitiator = true ∧
      s'.state = .error ∧ s'.sessionEcdhKeypair = s.sessionEcdhKeypair ∧
      s'.sessionSecret = s.sessionSecret ∧ s'.sessionSecretVerifier = s.sessionSecretVerifier) ∧
    Effect.freeCookie (List.replicate (min z.sizeLen ck.length) 0 ++ ck.drop z.sizeLen) ∈
      (onHandshakeAckPkt z c ep s2 pkt2 h2).effects := by
  rw [onInitAckPkt_nobufs hi hs hc hca]
  exact ⟨⟨_, rfl, hi, rfl, rfl, rfl, rfl⟩, onHandshakeAckPkt_freeCookie hi2 hs2 hck hl2⟩

/-- A parameter set whose `COOKIE_LEN` (9) exceeds `sizeof(size_t)` (8), as the real constants
do (32 and 8), with room for a HANDSHAKE carrying such a cookie. -/
def Sizes.wide : Sizes := ⟨9, 1, 2, 2, 2, 9, 64, 8, 8, rfl, rfl, by decide, by decide⟩

/-- The failing input: under `Sizes.wide`, `smallInitiator` in INIT, with ephemeral key pair
`[0, 3]`, meets a failed cookie allocation; in HANDSHAKE with a `COOKIE_LEN` cookie whose last
byte is `7`, it releases that byte unwiped. -/
theorem initiator_scrub_incomplete_small :
    (∃ s', (onInitAckPkt Sizes.wide Crypto.toy smallResponder
        { smallInitiator with state := .init, cookie := none, cookieLen := 0 }
        ⟨PktType.initAck.toByte, 0, 6, [0, 109]⟩ { smallHost with cookieAlloc := false }).session =
          some s' ∧ s'.isInitiator = true ∧ s'.state = .error ∧
        s'.sessionEcdhKeypair = smallInitiator.sessionEcdhKeypair ∧
        s'.sessionSecret = smallInitiator.sessionSecret ∧
        s'.sessionSecretVerifier = smallInitiator.sessionSecretVerifier) ∧
    Effect.freeCookie (List.replicate (min Sizes.wide.sizeLen
      [0, 0, 0, 0, 0, 0, 0, 0, 7].length) 0 ++ [0, 0, 0, 0, 0, 0, 0, 0, 7].drop Sizes.wide.sizeLen) ∈
      (onHandshakeAckPkt Sizes.wide Crypto.toy smallResponder
        { smallInitiator with cookie := some [0, 0, 0, 0, 0, 0, 0, 0, 7], cookieLen := 9 }
        ⟨PktType.handshakeAck.toByte, 0, 15, List.replicate 11 0⟩ smallHost).effects :=
  @initiator_scrub_incomplete Sizes.wide Crypto.toy smallResponder
    { smallInitiator with state := .init, cookie := none, cookieLen := 0 }
    { smallHost with cookieAlloc := false } ⟨PktType.initAck.toByte, 0, 6, [0, 109]⟩
    { smallInitiator with cookie := some [0, 0, 0, 0, 0, 0, 0, 0, 7], cookieLen := 9 }
    ⟨PktType.handshakeAck.toByte, 0, 15, List.replicate 11 0⟩ smallHost
    [0, 0, 0, 0, 0, 0, 0, 0, 7] rfl rfl (by decide) rfl rfl rfl rfl rfl

end Initiator

end Lodp
