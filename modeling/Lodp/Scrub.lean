import Lodp.Table

/-! The scrub discipline: a session past its handshake holds no handshake material. -/
namespace Lodp

/-- Every byte is zero, as `lodp_memwipe` leaves it. -/
def Wiped (b : Bytes) : Prop := ∀ x ∈ b, x = 0

/-- What `scrub_handshake_material` leaves: the cookie released, and the ephemeral key pair,
the shared secret and the verifier wiped. -/
structure Session.Scrubbed (s : Session) : Prop where
  cookie : s.cookie = none
  publicKey : Wiped s.sessionEcdhKeypair.publicKey
  privateKey : Wiped s.sessionEcdhKeypair.privateKey
  secret : Wiped s.sessionSecret
  verifier : Wiped s.sessionSecretVerifier

/-- A session past the point where its handshake material is needed: an ESTABLISHED
initiator, or a responder that has seen DATA and so will not resend its HANDSHAKE ACK. -/
def Session.Settled (s : Session) : Prop :=
  s.isInitiator = true ∧ s.state = .established ∨ s.isInitiator = false ∧ s.seenPeerData = true

/-- Every settled session of the table is scrubbed. -/
def System.Scrubbed (sys : System) : Prop := sys.All fun s => s.Settled → s.Scrubbed

variable {z : Sizes} {c : Crypto}

theorem wiped_memwipe (b : Bytes) : Wiped (memwipe b) := by
  simp [Wiped, memwipe]

theorem scrubbed_scrubHandshakeMaterial (s : Session) : (scrubHandshakeMaterial z s).1.Scrubbed :=
  ⟨rfl, wiped_memwipe _, wiped_memwipe _, wiped_memwipe _, wiped_memwipe _⟩

section Handlers
variable {ep : Endpoint} {s : Session} {pkt : Pkt} {h : Host}

theorem onDataPkt_scrubbed (hc : s.Settled → s.Scrubbed) :
    ∃ s', (onDataPkt z ep s pkt h).session = some s' ∧ (s'.Settled → s'.Scrubbed) := by
  unfold onDataPkt
  by_cases hs : s.state ≠ .established
  · rw [if_pos hs]
    exact ⟨s, rfl, hc⟩
  rw [if_neg hs]
  refine ⟨_, rfl, ?_⟩
  cases hp : s.seenPeerData <;> cases hi : s.isInitiator <;>
    simp only [Bool.not_false, Bool.not_true, ↓reduceIte, Bool.false_eq_true]
  · exact fun _ => scrubbed_scrubHandshakeMaterial _
  · have hsc := hc (.inl ⟨hi, not_not.mp hs⟩)
    exact fun _ => ⟨hsc.cookie, hsc.publicKey, hsc.privateKey, hsc.secret, hsc.verifier⟩
  · exact hc
  · exact hc

theorem onInitAckPkt_scrubbed (hc : s.Settled → s.Scrubbed) :
    ∃ s', (onInitAckPkt z c ep s pkt h).session = some s' ∧ (s'.Settled → s'.Scrubbed) := by
  obtain ⟨s', hs', hr, -, rfl | ⟨hi, -, hst⟩⟩ := @onInitAckPkt_session z c ep s pkt h
  · exact ⟨_, hs', hc⟩
  · refine ⟨s', hs', fun hset => absurd hset ?_⟩
    rintro (⟨-, he⟩ | ⟨hi', -⟩)
    · rcases hst with h1 | ⟨h1, -⟩ <;> simp [h1] at he
    · simp [hr, hi] at hi'

theorem onHandshakeAckPkt_scrubbed (hc : s.Settled → s.Scrubbed) :
    ∃ s', (onHandshakeAckPkt z c ep s pkt h).session = some s' ∧ (s'.Settled → s'.Scrubbed) := by
  unfold onHandshakeAckPkt
  by_cases h1 : (!s.isInitiator) = true ∨ s.state ≠ .handshake
  · rw [if_pos h1]
    exact ⟨s, rfl, hc⟩
  by_cases h2 : z.pktHdrHandshakeAckLen ≠ pkt.length
  · rw [if_neg h1, if_pos h2]
    exact ⟨s, rfl, hc⟩
  rw [if_neg h1, if_neg h2]
  exact ⟨_, rfl, fun _ => scrubbed_scrubHandshakeMaterial _⟩

end Handlers

theorem keptBy_scrubbed : KeptBy z c fun s => s.Settled → s.Scrubbed :=
  keptBy_of_handlers
    (fun _ hi _ hseen hset => by rcases hset with ⟨h1, -⟩ | ⟨-, h1⟩ <;> simp_all)
    (fun _ _ _ _ => onDataPkt_scrubbed) (fun _ _ _ _ _ => onInitAckPkt_scrubbed)
    (fun _ _ _ _ => onHandshakeAckPkt_scrubbed)

/-- The scrub discipline where the handshake succeeds, over every run: from a table whose
settled sessions are scrubbed, every ESTABLISHED initiator and every responder that has seen
DATA holds no cookie, and a wiped ephemeral key pair, shared secret and verifier. -/
theorem settled_sessions_scrubbed {sys : System} (hc : sys.Scrubbed) (es : List Event) :
    (run z c sys es).1.Scrubbed :=
  run_all keptBy_scrubbed hc es

/-- A responder that has seen no DATA yet, given a DATA datagram. -/
theorem settled_sessions_scrubbed_small :
    (run Sizes.small Crypto.toy
      ⟨smallResponder, Function.update (fun _ => none) smallAddr (some smallPeer')⟩
      [.packet smallAddr ⟨[17, 17, 0, 0, 0, 0, 5, 9], []⟩ smallHost]).1.Scrubbed :=
  settled_sessions_scrubbed (fun a s hs hset => by
    by_cases ha : a = smallAddr
    · subst ha
      obtain rfl : smallPeer' = s := by simpa using hs
      simp [Session.Settled, smallPeer'] at hset
    · simp [ha] at hs) _

end Lodp
