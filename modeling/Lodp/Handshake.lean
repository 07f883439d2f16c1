import Lodp.Ingress

/-! The handshake across both roles: the responder's answer and what the initiator makes of it. -/
namespace Lodp

variable {z : Sizes} {c : Crypto}

theorem parse_handshakeAckPkt {s : Session}
    (hY : s.sessionEcdhKeypair.publicKey.length = z.ecdhPublicKeyLen)
    (hV : s.sessionSecretVerifier.length = z.macDigestLen) :
    Pkt.parse (handshakeAckPkt z s) = ⟨PktType.handshakeAck.toByte, 0, z.pktHdrHandshakeAckLen,
      s.sessionEcdhKeypair.publicKey ++ s.sessionSecretVerifier⟩ := by
  have hlt : z.pktHdrHandshakeAckLen < 65536 := by
    have := z.mss_lt
    have := z.fixed_lt
    simp only [Sizes.pktHdrHandshakeAckLen, Sizes.pktHandshakeAckLen, Sizes.pktHdrLen,
      Sizes.pktTagLen, pktTlvLen]
    omega
  simp only [handshakeAckPkt, List.append_assoc, Pkt.parse_tlv, Nat.mod_eq_of_lt hlt,
    List.take_of_length_le hY.le, List.take_of_length_le hV.le]

theorem handshakeAckPkt_fields {s : Session}
    (hY : s.sessionEcdhKeypair.publicKey.length = z.ecdhPublicKeyLen)
    (hV : s.sessionSecretVerifier.length = z.macDigestLen) :
    z.pktHdrHandshakeAckLen = (Pkt.parse (handshakeAckPkt z s)).length ∧
    (Pkt.parse (handshakeAckPkt z s)).ackPublicKey z = s.sessionEcdhKeypair.publicKey ∧
    (Pkt.parse (handshakeAckPkt z s)).digest z = s.sessionSecretVerifier := by
  rw [parse_handshakeAckPkt hY hV]
  exact ⟨rfl, Pkt.ackPublicKey_append hY, by simpa using Pkt.digest_append (r := []) hY hV⟩

theorem onHandshakePkt_fresh {ep : Endpoint} {pkt : Pkt} {addr : SockAddr} {h : Host}
    {kp : EcdhKeypair} (hl : z.pktHdrHandshakeLen + z.cookieLen = pkt.length)
    (hv : (validateCookie z c ep pkt addr h).1 = 0) (hb : h.bufAlloc = true)
    (hn : h.newSession = some kp)
    (hr : (ntorHandshake z c ep.introEcdhKeypair h.uninit (lodpSessionInit z addr
      (draw (fun i => h.stale (pktTlvLen + i)) z.ecdhPublicKeyLen) kp) (pkt.publicKey z)).1 = 0) :
    (onHandshakePkt z c ep none pkt addr h).session = some (ntorHandshake z c ep.introEcdhKeypair
      h.uninit (lodpSessionInit z addr (draw (fun i => h.stale (pktTlvLen + i))
        z.ecdhPublicKeyLen) kp) (pkt.publicKey z)).2 := by
  simp [onHandshakePkt, ← hl, hv, hb, hn, hr]

theorem onHandshakeAckPkt_accept {ep : Endpoint} {s : Session} {pkt : Pkt} {h : Host}
    (hi : s.isInitiator = true) (hs : s.state = .handshake)
    (hl : z.pktHdrHandshakeAckLen = pkt.length)
    (hr : (ntorHandshake z c ep.introEcdhKeypair h.uninit s (pkt.ackPublicKey z)).1 = 0)
    (hd : memcmp (pkt.digest z) (ntorHandshake z c ep.introEcdhKeypair h.uninit s
      (pkt.ackPublicKey z)).2.sessionSecretVerifier z.macDigestLen = false) :
    onHandshakeAckPkt z c ep s pkt h =
      let sc := scrubHandshakeMaterial z
        { (ntorHandshake z c ep.introEcdhKeypair h.uninit s (pkt.ackPublicKey z)).2 with
          state := .established }
      ⟨0, ep, some sc.1, sc.2 ++ [.onConnect 0]⟩ := by
  simp [onHandshakeAckPkt, hi, hs, ← hl, hr, hd]

theorem onHandshakeAckPkt_rejects {ep : Endpoint} {s : Session} {pkt : Pkt} {h : Host}
    (hi : s.isInitiator = true) (hs : s.state = .handshake)
    (hl : z.pktHdrHandshakeAckLen = pkt.length) :
    ((onHandshakeAckPkt z c ep s pkt h).ret = lodpErrBadHandshake ∧
      ∃ s', (onHandshakeAckPkt z c ep s pkt h).session = some s' ∧ s'.state = .error) ∨
    ((ntorHandshake z c ep.introEcdhKeypair h.uninit s (pkt.ackPublicKey z)).1 = 0 ∧
      memcmp (pkt.digest z) (ntorHandshake z c ep.introEcdhKeypair h.uninit s
        (pkt.ackPublicKey z)).2.sessionSecretVerifier z.macDigestLen = false) := by
  have hret := ntorHandshake_ret (z := z) (c := c) ep.introEcdhKeypair h.uninit s
    (pkt.ackPublicKey z)
  simp only [onHandshakeAckPkt, hi, hs, ← hl, Bool.not_true, Bool.false_eq_true, ne_eq,
    not_true_eq_false, or_self, if_false]
  generalize ntorHandshake z c ep.introEcdhKeypair h.uninit s (pkt.ackPublicKey z) = r at hret ⊢
  by_cases h3 : r.1 = 0
  swap
  · rw [if_pos h3]
    exact .inl ⟨hret.resolve_left h3, _, rfl, rfl⟩
  rw [if_neg (not_not.mpr h3)]
  cases hm : memcmp (pkt.digest z) r.2.sessionSecretVerifier z.macDigestLen
  · exact .inr ⟨h3, rfl⟩
  · rw [if_pos rfl]
    exact .inl ⟨rfl, _, rfl, rfl⟩

theorem onConnect_mem_scrub {s : Session} {st st' : Int} :
    Effect.onConnect st' ∈ (scrubHandshakeMaterial z s).2 ++ [.onConnect st] ↔ st' = st := by
  constructor
  · intro he
    rcases List.mem_append.mp he with he | he
    · obtain ⟨_, hb⟩ := scrubHandshakeMaterial_effects he
      cases hb
    · simpa using he
  · rintro rfl
    simp

/-- Handshake agreement. A responder with identity pair `(b, B)` answers an initiator's
HANDSHAKE carrying `X`; the initiator, in HANDSHAKE with `remote_public_key = B`, then
processes the HANDSHAKE ACK the responder built. Both build the same `secret_input` (hence
the same `auth_input`), derive the same secret and verifier, the initiator's digest check
passes, it ends ESTABLISHED with `on_connect_fn(0)`, and the two key pairs are mirrored. -/
theorem handshake_agreement {ep epI : Endpoint} {si : Session} {kp : EcdhKeypair} {pkt : Pkt}
    {addr : SockAddr} {h hI : Host}
    (hi : si.isInitiator = true) (hst : si.state = .handshake)
    (hB : si.remotePublicKey = ep.introEcdhKeypair.publicKey)
    (hl : z.pktHdrHandshakeLen + z.cookieLen = pkt.length)
    (hX : pkt.publicKey z = si.sessionEcdhKeypair.publicKey)
    (hv : (validateCookie z c ep pkt addr h).1 = 0) (hb : h.bufAlloc = true)
    (hn : h.newSession = some kp) (hY : kp.publicKey.length = z.ecdhPublicKeyLen)
    (hvX : c.validatePubkey si.sessionEcdhKeypair.publicKey)
    (hvY : c.validatePubkey kp.publicKey) (hvB : c.validatePubkey ep.introEcdhKeypair.publicKey)
    (hdh1 : c.ecdh si.sessionEcdhKeypair.privateKey kp.publicKey =
      c.ecdh kp.privateKey si.sessionEcdhKeypair.publicKey)
    (hdh2 : c.ecdh si.sessionEcdhKeypair.privateKey ep.introEcdhKeypair.publicKey =
      c.ecdh ep.introEcdhKeypair.privateKey si.sessionEcdhKeypair.publicKey)
    (hmac : ∀ k m n, (c.mac k m n).1 = 0) (hder : ∀ k, (c.deriveSessionkeys k).1 = 0) :
    ∃ sr ack t, (onHandshakePkt z c ep none pkt addr h).session = some sr ∧
      ack = Pkt.parse (handshakeAckPkt z sr) ∧
      secretInput c epI.introEcdhKeypair si (ack.ackPublicKey z) = some t ∧
      secretInput c ep.introEcdhKeypair sr (pkt.publicKey z) = some t ∧
      (ntorHandshake z c epI.introEcdhKeypair hI.uninit si (ack.ackPublicKey z)).2.sessionSecret =
        sr.sessionSecret ∧
      (ntorHandshake z c epI.introEcdhKeypair hI.uninit si
        (ack.ackPublicKey z)).2.sessionSecretVerifier = sr.sessionSecretVerifier ∧
      (onHandshakeAckPkt z c epI si ack hI).ret = 0 ∧
      (∀ st, Effect.onConnect st ∈ (onHandshakeAckPkt z c epI si ack hI).effects ↔ st = 0) ∧
      ∃ s', (onHandshakeAckPkt z c epI si ack hI).session = some s' ∧ s'.state = .established ∧
        s'.txKey = sr.rxKey ∧ s'.rxKey = sr.txKey := by
  set s0 := lodpSessionInit z addr (draw (fun i => h.stale (pktTlvLen + i)) z.ecdhPublicKeyLen) kp
  obtain ⟨hti, htr⟩ :
      secretInput c epI.introEcdhKeypair si s0.sessionEcdhKeypair.publicKey = some _ ∧
      secretInput c ep.introEcdhKeypair s0 si.sessionEcdhKeypair.publicKey = some _ :=
    secretInput_agree hi rfl rfl rfl hB hvX hvY hvB hdh1 hdh2 _
  obtain ⟨hri, hrr, hsec, hver, htx, hrx⟩ :=
    ntorHandshake_agree (z := z) hI.uninit h.uninit hi rfl hti htr hmac hder
  have hVr : (ntorHandshake z c ep.introEcdhKeypair h.uninit s0
      si.sessionEcdhKeypair.publicKey).2.sessionSecretVerifier.length = z.macDigestLen := by
    rw [ntorHandshake_ok htr hmac hder]
    simp [s0, lodpSessionInit, c.mac_length]
  have hYr : (ntorHandshake z c ep.introEcdhKeypair h.uninit s0
      si.sessionEcdhKeypair.publicKey).2.sessionEcdhKeypair.publicKey.length =
        z.ecdhPublicKeyLen := by
    simp [s0, lodpSessionInit, hY]
  set sr := (ntorHandshake z c ep.introEcdhKeypair h.uninit s0 si.sessionEcdhKeypair.publicKey).2
  have hsr : (onHandshakePkt z c ep none pkt addr h).session = some sr := by
    have := onHandshakePkt_fresh hl hv hb hn (by rw [hX]; exact hrr)
    rwa [hX] at this
  obtain ⟨hlen, hYa, hd⟩ := handshakeAckPkt_fields hYr hVr
  have hY' :
      (Pkt.parse (handshakeAckPkt z sr)).ackPublicKey z = s0.sessionEcdhKeypair.publicKey := by
    simpa [sr] using hYa
  have hacc := @onHandshakeAckPkt_accept z c epI si _ hI hi hst hlen (by rw [hY']; exact hri)
    (by simp [hY', hd, hver, memcmp])
  refine ⟨sr, _, _, hsr, rfl, by rw [hY']; exact hti,
    by rw [hX, secretInput_ntorHandshake]; exact htr, by rw [hY', hsec], by rw [hY', hver],
    by rw [hacc], ?_, _, by rw [hacc], by simp, by simp [hY', htx], by simp [hY', hrx]⟩
  intro st
  rw [hacc]
  exact onConnect_mem_scrub

/-! Concrete values under `Sizes.small` and `Crypto.toy`. -/

/-- An IPv4 peer address, for the small evaluations. -/
def smallAddr : SockAddr := .inet ⟨[10, 0, 0, 1], rfl⟩ ⟨[0, 80], rfl⟩

/-- A responder with identity key `5` and cookie key `[7, 7]`, under `Crypto.toy`. -/
def smallResponder : Endpoint :=
  ⟨⟨[0, 5], [0, 5]⟩, ⟨[0, 0], [0, 0]⟩, true, [7, 7], [0, 0], 0, 0, ⟨false, false⟩⟩

/-- An initiator in HANDSHAKE with ephemeral key `3` that knows the responder's key `5`. -/
def smallInitiator : Session :=
  ⟨smallAddr, true, .handshake, ⟨[0, 3], [0, 3]⟩, [0, 5], ⟨[1, 1], [1, 1]⟩, ⟨[1, 1], [1, 1]⟩,
    [0, 0], [0, 0], some [0, 109], 2, false⟩

/-- The initiator's HANDSHAKE: intro keys `[1, 1]`, `X = [0, 3]` and the cookie
`smallResponder` issues to `smallAddr` for those keys. -/
def smallHandshake : Pkt := ⟨PktType.handshake.toByte, 0, 12, [1, 1, 1, 1, 0, 3, 0, 109]⟩

/-- A call at time `10` whose allocations succeed and whose fresh ephemeral key is `4`. -/
def smallHost : Host :=
  ⟨10, true, true, some ⟨[0, 4], [0, 4]⟩, fun _ => 0, fun _ => 0, fun _ => 0, fun _ => 0, 0, 0,
    0, 0⟩

theorem handshake_agreement_small :
    ∃ sr ack t, (onHandshakePkt Sizes.small Crypto.toy smallResponder none smallHandshake smallAddr
        smallHost).session = some sr ∧
      ack = Pkt.parse (handshakeAckPkt Sizes.small sr) ∧
      secretInput Crypto.toy smallResponder.introEcdhKeypair smallInitiator
        (ack.ackPublicKey Sizes.small) = some t ∧
      secretInput Crypto.toy smallResponder.introEcdhKeypair sr
        (smallHandshake.publicKey Sizes.small) = some t ∧
      (ntorHandshake Sizes.small Crypto.toy smallResponder.introEcdhKeypair smallHost.uninit
        smallInitiator (ack.ackPublicKey Sizes.small)).2.sessionSecret = sr.sessionSecret ∧
      (ntorHandshake Sizes.small Crypto.toy smallResponder.introEcdhKeypair smallHost.uninit
        smallInitiator (ack.ackPublicKey Sizes.small)).2.sessionSecretVerifier =
          sr.sessionSecretVerifier ∧
      (onHandshakeAckPkt Sizes.small Crypto.toy smallResponder smallInitiator ack
        smallHost).ret = 0 ∧
      (∀ st, Effect.onConnect st ∈ (onHandshakeAckPkt Sizes.small Crypto.toy smallResponder
        smallInitiator ack smallHost).effects ↔ st = 0) ∧
      ∃ s', (onHandshakeAckPkt Sizes.small Crypto.toy smallResponder smallInitiator ack
          smallHost).session = some s' ∧ s'.state = .established ∧
        s'.txKey = sr.rxKey ∧ s'.rxKey = sr.txKey :=
  handshake_agreement rfl rfl rfl rfl rfl (by decide) rfl rfl rfl rfl rfl rfl rfl rfl
    (fun _ _ _ => rfl) (fun _ => rfl)

/-- A received key that fails validation makes `ntor_handshake` jump to `out` with `ret`
unset; when the stack held `0` there, an initiator in HANDSHAKE accepts any HANDSHAKE ACK
whose digest repeats its current verifier: it reports `0`, ends ESTABLISHED, and keeps the
keys it had before, with no shared secret derived. -/
theorem onHandshakeAckPkt_unvalidated {ep : Endpoint} {s : Session} {pkt : Pkt} {h : Host}
    (hi : s.isInitiator = true) (hs : s.state = .handshake)
    (hl : z.pktHdrHandshakeAckLen = pkt.length)
    (hY : c.validatePubkey (pkt.ackPublicKey z) = false) (hu : h.uninit = 0)
    (hd : pkt.digest z = s.sessionSecretVerifier.take z.macDigestLen) :
    (onHandshakeAckPkt z c ep s pkt h).ret = 0 ∧
    (∀ st, Effect.onConnect st ∈ (onHandshakeAckPkt z c ep s pkt h).effects ↔ st = 0) ∧
    ∃ s', (onHandshakeAckPkt z c ep s pkt h).session = some s' ∧ s'.state = .established ∧
      s'.txKey = s.txKey ∧ s'.rxKey = s.rxKey := by
  have hr : ntorHandshake z c ep.introEcdhKeypair h.uninit s (pkt.ackPublicKey z) = (0, s) := by
    simp [ntorHandshake, secretInput, hi, hY, hu]
  have hacc := @onHandshakeAckPkt_accept z c ep s pkt h hi hs hl (by rw [hr])
    (by simp [hr, hd, memcmp, List.take_take])
  refine ⟨by rw [hacc], fun st => by rw [hacc]; exact onConnect_mem_scrub, _, by rw [hacc],
    by simp [hr], by simp [hr], by simp [hr]⟩

/-- The failing input: `smallInitiator` receives a HANDSHAKE ACK with the all-zero key,
which `Crypto.toy` rejects, and the all-zero digest its verifier holds. -/
theorem onHandshakeAckPkt_unvalidated_small :
    (onHandshakeAckPkt Sizes.small Crypto.toy smallResponder smallInitiator
      ⟨PktType.handshakeAck.toByte, 0, 8, [0, 0, 0, 0]⟩ smallHost).ret = 0 ∧
    (∀ st, Effect.onConnect st ∈ (onHandshakeAckPkt Sizes.small Crypto.toy smallResponder
      smallInitiator ⟨PktType.handshakeAck.toByte, 0, 8, [0, 0, 0, 0]⟩ smallHost).effects ↔
        st = 0) ∧
    ∃ s', (onHandshakeAckPkt Sizes.small Crypto.toy smallResponder smallInitiator
        ⟨PktType.handshakeAck.toByte, 0, 8, [0, 0, 0, 0]⟩ smallHost).session = some s' ∧
      s'.state = .established ∧ s'.txKey = smallInitiator.txKey ∧
      s'.rxKey = smallInitiator.rxKey :=
  onHandshakeAckPkt_unvalidated rfl rfl rfl rfl rfl rfl

/-- Responder identity binding. An initiator in HANDSHAKE that expects the identity key `B'`
processes the HANDSHAKE ACK built by a responder whose identity key is `B ≠ B'`, for a
HANDSHAKE carrying the initiator's `X`. When `B'` and both ephemeral keys pass validation,
the initiator ends in ERROR with `LODP_ERR_BAD_HANDSHAKE`, unless `lodp_mac` under `auth_key`
collides on the two `auth_input`s of this exchange, the initiator's and the responder's. -/
theorem handshake_identity_binding {ep epI : Endpoint} {si sr : Session} {pkt : Pkt}
    {addr : SockAddr} {h hI : Host} (hi : si.isInitiator = true) (hst : si.state = .handshake)
    (hB : si.remotePublicKey ≠ ep.introEcdhKeypair.publicKey)
    (hvB : c.validatePubkey si.remotePublicKey)
    (hX : pkt.publicKey z = si.sessionEcdhKeypair.publicKey)
    (hvX : c.validatePubkey si.sessionEcdhKeypair.publicKey)
    (hsr : (onHandshakePkt z c ep none pkt addr h).session = some sr)
    (hY : sr.sessionEcdhKeypair.publicKey.length = z.ecdhPublicKeyLen)
    (hvY : c.validatePubkey sr.sessionEcdhKeypair.publicKey) :
    ((onHandshakeAckPkt z c epI si (Pkt.parse (handshakeAckPkt z sr)) hI).ret =
        lodpErrBadHandshake ∧
      ∃ s', (onHandshakeAckPkt z c epI si (Pkt.parse (handshakeAckPkt z sr)) hI).session =
        some s' ∧ s'.state = .error) ∨
    ∃ mI mR, ntorAuthInput z c epI.introEcdhKeypair si sr.sessionEcdhKeypair.publicKey = some mI ∧
      ntorAuthInput z c ep.introEcdhKeypair sr si.sessionEcdhKeypair.publicKey = some mR ∧
      c.Collides (authKey z) z.macDigestLen mI mR := by
  obtain ⟨-, -, -, kp, -, hr⟩ := onHandshakePkt_none_session hsr
  set s0 := lodpSessionInit z addr (draw (fun i => h.stale (pktTlvLen + i)) z.ecdhPublicKeyLen) kp
  have hs0 : (ntorHandshake z c ep.introEcdhKeypair h.uninit s0 (pkt.publicKey z)).2 = sr :=
    congrArg Prod.snd hr
  have hkp : sr.sessionEcdhKeypair = kp := by rw [← hs0, ntorHandshake_sessionEcdhKeypair]; rfl
  -- the responder's `secret_input` and verifier
  have htr : secretInput c ep.introEcdhKeypair s0 (pkt.publicKey z) =
      some ⟨c.ecdh kp.privateKey (pkt.publicKey z), c.ecdh ep.introEcdhKeypair.privateKey
        (pkt.publicKey z), ep.introEcdhKeypair.publicKey, pkt.publicKey z, kp.publicKey⟩ := by
    simp [secretInput, s0, lodpSessionInit, hX, hvX]
  have hVr := ntorHandshake_verifier htr (by rw [hr])
  rw [hr] at hVr
  have hV : sr.sessionSecretVerifier.length = z.macDigestLen := by rw [hVr, c.mac_length]
  -- the initiator's `secret_input`, on the `Y` the ACK carries
  have hti : secretInput c epI.introEcdhKeypair si sr.sessionEcdhKeypair.publicKey =
      some ⟨c.ecdh si.sessionEcdhKeypair.privateKey sr.sessionEcdhKeypair.publicKey,
        c.ecdh si.sessionEcdhKeypair.privateKey si.remotePublicKey, si.remotePublicKey,
        si.sessionEcdhKeypair.publicKey, sr.sessionEcdhKeypair.publicKey⟩ := by
    simp [secretInput, hi, hvY, hvB]
  obtain ⟨hlen, hYa, hDa⟩ := handshakeAckPkt_fields hY hV
  rcases @onHandshakeAckPkt_rejects z c epI si _ hI hi hst hlen with hrej | ⟨h0, hm⟩
  · exact .inl hrej
  rw [hYa] at h0 hm
  rw [hDa, memcmp_eq_false hV (by rw [ntorHandshake_verifier hti h0, c.mac_length]),
    ntorHandshake_verifier hti h0, hVr] at hm
  refine .inr ⟨_, _, by rw [ntorAuthInput, hti]; rfl,
    by rw [ntorAuthInput, ← hs0, secretInput_ntorHandshake, ← hX, htr, ← hkp]; rfl,
    fun he => hB (SecretInput.authInput_B hX.symm (by rw [hkp]) (by simp only [c.mac_length]) he),
    hm.symm⟩

/-- An initiator that expects the identity key `[0, 6]` rejects the HANDSHAKE ACK of
`smallResponder`, whose identity key is `[0, 5]`. -/
theorem handshake_identity_binding_small :
    ((onHandshakeAckPkt Sizes.small Crypto.toy smallResponder
        { smallInitiator with remotePublicKey := [0, 6] }
        (Pkt.parse (handshakeAckPkt Sizes.small ((onHandshakePkt Sizes.small Crypto.toy
          smallResponder none smallHandshake smallAddr smallHost).session.getD smallInitiator)))
        smallHost).ret = lodpErrBadHandshake ∧
      ∃ s', (onHandshakeAckPkt Sizes.small Crypto.toy smallResponder
        { smallInitiator with remotePublicKey := [0, 6] }
        (Pkt.parse (handshakeAckPkt Sizes.small ((onHandshakePkt Sizes.small Crypto.toy
          smallResponder none smallHandshake smallAddr smallHost).session.getD smallInitiator)))
        smallHost).session = some s' ∧ s'.state = .error) ∨
    ∃ mI mR, ntorAuthInput Sizes.small Crypto.toy smallResponder.introEcdhKeypair
        { smallInitiator with remotePublicKey := [0, 6] } ((onHandshakePkt Sizes.small Crypto.toy
          smallResponder none smallHandshake smallAddr smallHost).session.getD
            smallInitiator).sessionEcdhKeypair.publicKey = some mI ∧
      ntorAuthInput Sizes.small Crypto.toy smallResponder.introEcdhKeypair
        ((onHandshakePkt Sizes.small Crypto.toy smallResponder none smallHandshake smallAddr
          smallHost).session.getD smallInitiator) smallInitiator.sessionEcdhKeypair.publicKey =
            some mR ∧
      Crypto.toy.Collides (authKey Sizes.small) Sizes.small.macDigestLen mI mR :=
  @handshake_identity_binding Sizes.small Crypto.toy smallResponder smallResponder
    { smallInitiator with remotePublicKey := [0, 6] } _ smallHandshake smallAddr smallHost smallHost
    rfl rfl (by decide) rfl rfl rfl (by decide) rfl rfl

end Lodp
