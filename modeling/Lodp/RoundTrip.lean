import Lodp.Handshake

/-! The wire codec round trip: each packet built, sealed and sent is read back by its handler. -/
namespace Lodp

/-- Whatever the receive buffer's plaintext view held, the dispatcher passes the datagram
`ct` to handler `hd`, with a packet that satisfies `P`. -/
def Delivers (z : Sizes) (c : Crypto) (ep : Endpoint) (session : Option Session) (ct : Bytes)
    (hd : Handler) (P : Pkt → Prop) : Prop :=
  ∀ old, ∃ pkt, demux z c ep session ⟨ct, old⟩ = .ok (hd, pkt) ∧ P pkt

variable {z : Sizes} {c : Crypto}

section Sealed
variable (hinv : c.Inverts) {ep ep' : Endpoint} {h : Host} {k : SymmetricKey} {t : PktType}
  {L : Nat} {body : Bytes}
include hinv

theorem sealed_received (hL : L = pktTlvLen + body.length) (hfit : z.pktTagLen + L ≤ z.mss)
    (h0 : (encryptThenMac z c ep h k (tlv t L ++ body)).ret = 0) (old : Bytes) :
    ∃ b pad, macThenDecrypt z c k ⟨(encryptThenMac z c ep h k (tlv t L ++ body)).ciphertext, old⟩ =
        (0, b) ∧ Pkt.parse b.plaintext = ⟨t.toByte, 0, L, body ++ pad⟩ ∧ pktTlvLen ≤ L ∧
      L ≤ (encryptThenMac z c ep h k (tlv t L ++ body)).ciphertext.length - z.pktTagLen := by
  have hlen := encryptThenMac_ciphertext_length z c h0
  have hlt : L < 65536 := by
    have := z.mss_lt
    simp only [Sizes.pktTagLen] at hfit
    omega
  refine ⟨_, draw h.randPad (padLen z ep h (z.pktTagLen + (tlv t L ++ body).length)),
    macThenDecrypt_encryptThenMac hinv h0 old, ?_, by omega, ?_⟩
  · rw [List.append_assoc, Pkt.parse_tlv, Nat.mod_eq_of_lt hlt]
  · simp only [pktTlvLen] at hL
    simp only [hlen, List.length_append, tlv_length]
    omega

theorem delivers_session (hL : L = pktTlvLen + body.length) (hfit : z.pktTagLen + L ≤ z.mss)
    (h0 : (encryptThenMac z c ep h k (tlv t L ++ body)).ret = 0) {r : Session} (hr : r.rxKey = k)
    {hd : Handler} (hh : sessionHandler r (some t) = .ok hd) :
    Delivers z c ep' (some r) (encryptThenMac z c ep h k (tlv t L ++ body)).ciphertext hd
      (fun pkt => ∃ pad, pkt = ⟨t.toByte, 0, L, body ++ pad⟩) := by
  intro old
  obtain ⟨b, pad, hm, hp, h1, h2⟩ := sealed_received hinv hL hfit h0 old
  refine ⟨_, demux_session_ok (hr ▸ hm) ?_, pad, hp⟩
  rw [hp, route_session h1 h2 rfl, PktType.ofByte_toByte, hh]

theorem delivers_intro (hL : L = pktTlvLen + body.length) (hfit : z.pktTagLen + L ≤ z.mss)
    (h0 : (encryptThenMac z c ep h k (tlv t L ++ body)).ret = 0) (hk : ep'.hasIntroKeys = true)
    (he : ep'.introSymKeys = k) {hd : Handler}
    (hh : t = .init ∧ hd = .onInitPkt ∨ t = .handshake ∧ hd = .onHandshakePkt none) :
    Delivers z c ep' none (encryptThenMac z c ep h k (tlv t L ++ body)).ciphertext hd
      (fun pkt => ∃ pad, pkt = ⟨t.toByte, 0, L, body ++ pad⟩) := by
  intro old
  obtain ⟨b, pad, hm, hp, h1, h2⟩ := sealed_received hinv hL hfit h0 old
  refine ⟨_, demux_none_ok hk (he ▸ hm) ?_, pad, hp⟩
  rw [hp, route_none h1 h2 rfl]
  rcases hh with ⟨rfl, rfl⟩ | ⟨rfl, rfl⟩ <;> rfl

end Sealed

theorem Delivers.mono {ep : Endpoint} {session : Option Session} {ct : Bytes} {hd : Handler}
    {P Q : Pkt → Prop} (hd' : Delivers z c ep session ct hd P) (hPQ : ∀ pkt, P pkt → Q pkt) :
    Delivers z c ep session ct hd Q := fun old =>
  let ⟨pkt, h1, h2⟩ := hd' old
  ⟨pkt, h1, hPQ pkt h2⟩

section Builders
variable (hinv : c.Inverts)
include hinv

theorem roundTrip_payload {type : PktType} {ep ep' : Endpoint} {s r : Session} {p b : Bytes}
    {h : Host} {a : SockAddr} {hd : Handler} (hw : z.pktHdrLen + p.length < 2 ^ (8 * z.sizeLen))
    (hb : Effect.sendto b a ∈ (sendPayloadPkt z c type ep s p h).effects) (hr : r.rxKey = s.txKey)
    (hh : sessionHandler r (some type) = .ok hd) :
    Delivers z c ep' (some r) b hd
      (fun pkt => pkt.body = p ∧ pkt.length - pktTlvLen = p.length) := by
  obtain ⟨hs, h0, rfl, -⟩ := sendPayloadPkt_sendto hb
  rw [Sizes.sizeT, Nat.mod_eq_of_lt hw] at hs
  refine (delivers_session hinv rfl (by simp only [Sizes.pktHdrLen] at hs; omega) h0 hr hh).mono ?_
  rintro _ ⟨pad, rfl⟩
  exact ⟨Pkt.body_append, by simp⟩

end Builders

end Lodp
