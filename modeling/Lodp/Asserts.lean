import Lodp.Exchange

/-! The `assert`s of the receive path: three a peer can make fail, and every other one holds. -/
namespace Lodp

variable {z : Sizes} {c : Crypto}

theorem Pkt.body_length_le (p : Pkt) : p.body.length ≤ p.length - pktTlvLen := by
  simp only [Pkt.body, slice, List.drop_zero]
  exact List.length_take_le _ _

theorem handshakeAckPkt_length_le (s : Session) :
    (handshakeAckPkt z s).length ≤ pktTlvLen + z.ecdhPublicKeyLen + z.macDigestLen := by
  simp only [handshakeAckPkt, List.length_append, tlv_length, List.length_take, pktTlvLen]
  omega

theorem handshakePkt_length_le (s : Session) :
    (handshakePkt z s).length ≤ z.pktHdrHandshakeLen + s.cookieLen := by
  simp only [handshakePkt, List.length_append, tlv_length, List.length_take, Sizes.pktHdrHandshakeLen,
    Sizes.pktHandshakeLen, Sizes.pktInitLen, Sizes.pktHdrLen, Sizes.pktTagLen, pktTlvLen]
  omega

section Sealed
variable {ep : Endpoint} {h : Host} {keys : SymmetricKey} {pt : Bytes} {addr : SockAddr}

theorem sealAndSend_holds (hpos : 0 < pt.length) (hle : z.pktTagLen + pt.length ≤ z.mss)
    {k : Check} {ok : Bool} (he : Effect.assert k ok ∈ (sealAndSend z c ep h keys pt addr).2) :
    ok = true := by
  rw [sealAndSend_assert he]
  exact decide_eq_true ⟨by omega, hle⟩

theorem handshakeXmit_asserts {s : Session} {pre : List Effect}
    (hpre : ∀ k ok, Effect.assert k ok ∈ pre → ok = true) :
    AssertsHold (handshakeXmit z c ep h keys addr pre s) := by
  have hfix := z.fixed_lt
  have hlen := handshakeAckPkt_length_le (z := z) s
  have hseal : z.pktTagLen + (handshakeAckPkt z s).length ≤ z.mss := by
    simp only [Sizes.pktTagLen, pktTlvLen] at hlen ⊢
    omega
  have hpos : 0 < (handshakeAckPkt z s).length := by
    simp only [handshakeAckPkt, List.length_append, tlv_length]
    omega
  intro k ok he
  simp only [handshakeXmit] at he
  split_ifs at he <;>
    simp only [List.mem_append, encryptThenMac_effects, List.mem_singleton, List.mem_cons,
      Effect.assert.injEq, reduceCtorEq, List.not_mem_nil, or_false] at he <;>
    rcases he with he | ⟨-, rfl⟩
  all_goals first | exact hpre k ok he | exact decide_eq_true ⟨by omega, hseal⟩

end Sealed

section Handlers
variable {ep : Endpoint} {s : Session} {pkt : Pkt} {addr : SockAddr} {h : Host}

theorem onInitPkt_asserts : AssertsHold (onInitPkt z c ep pkt addr h) := by
  have hfix := z.fixed_lt
  intro k ok he
  simp only [onInitPkt] at he
  split_ifs at he
  · cases he
  · cases he
  · rcases List.mem_cons.mp he with he | he
    · cases he
      simp only [Sizes.pktHdrLen, Sizes.cookieLen, Sizes.pktTagLen, pktTlvLen, decide_eq_true_eq]
      omega
    · refine sealAndSend_holds (by simp only [List.length_append, tlv_length]; omega) ?_ he
      simp only [List.length_append, tlv_length, issuedCookie_length, Sizes.pktTagLen,
        Sizes.cookieLen]
      omega

theorem onHandshakePkt_none_asserts : AssertsHold (onHandshakePkt z c ep none pkt addr h) := by
  have hfix := z.fixed_lt
  have hchk : decide (z.pktHandshakeAckLen < z.mss) = true := by
    simp only [Sizes.pktHandshakeAckLen, Sizes.pktHdrLen, Sizes.pktTagLen, pktTlvLen,
      decide_eq_true_eq]
    omega
  intro k ok he
  simp only [onHandshakePkt] at he
  split_ifs at he
  · cases he
  · cases he
  · cases he
  · split at he
    · simp only [List.mem_singleton, Effect.assert.injEq] at he
      exact he.2 ▸ hchk
    · split_ifs at he
      · simp only [List.mem_cons, Effect.assert.injEq, reduceCtorEq, List.not_mem_nil,
          or_false] at he
        exact he.2 ▸ hchk
      · refine handshakeXmit_asserts (fun k ok hm => ?_) k ok he
        simp only [List.mem_cons, Effect.assert.injEq, reduceCtorEq, List.not_mem_nil,
          or_false] at hm
        exact hm.2 ▸ hchk

theorem onDataPkt_asserts : AssertsHold (onDataPkt z ep s pkt h) := by
  intro k ok he
  simp only [onDataPkt] at he
  split_ifs at he <;> simp only [List.mem_append, List.mem_singleton, reduceCtorEq, or_false,
    List.not_mem_nil] at he
  all_goals obtain ⟨_, hb⟩ := scrubHandshakeMaterial_effects he; cases hb

theorem onHandshakeAckPkt_asserts : AssertsHold (onHandshakeAckPkt z c ep s pkt h) := by
  intro k ok he
  simp only [onHandshakeAckPkt] at he
  split_ifs at he <;> simp only [List.mem_append, List.mem_singleton, reduceCtorEq, or_false,
    List.not_mem_nil] at he
  all_goals obtain ⟨_, hb⟩ := scrubHandshakeMaterial_effects he; cases hb

theorem onHeartbeatPkt_asserts (hsz : z.pktHdrLen + (pkt.length - pktTlvLen) < z.mss) :
    AssertsHold (onHeartbeatPkt z c ep s pkt h) := by
  have hbody := pkt.body_length_le
  intro k ok he
  simp only [onHeartbeatPkt] at he
  split_ifs at he
  · cases he
  · cases he
  · rcases List.mem_cons.mp he with he | he
    · cases he
      exact decide_eq_true hsz
    · refine sealAndSend_holds (by simp only [List.length_append, tlv_length]; omega) ?_ he
      simp only [List.length_append, tlv_length]
      simp only [Sizes.pktHdrLen, pktTlvLen] at hsz hbody
      omega

theorem lodpSendHandshakePkt_asserts (hr : s.isInitiator = true ∧ s.state = .handshake)
    (hsz : z.pktHandshakeLen + s.cookieLen < z.mss) :
    AssertsHold (lodpSendHandshakePkt z c ep s h) := by
  have hlen := handshakePkt_length_le (z := z) s
  intro k ok he
  simp only [lodpSendHandshakePkt] at he
  split_ifs at he
  · simp only [List.mem_singleton, Effect.assert.injEq] at he
    exact he.2 ▸ decide_eq_true hr
  · simp only [List.cons_append, List.singleton_append, List.mem_cons, Effect.assert.injEq] at he
    rcases he with ⟨-, rfl⟩ | ⟨-, rfl⟩ | he
    · exact decide_eq_true hr
    · exact decide_eq_true hsz
    · refine sealAndSend_holds (by simp only [handshakePkt, List.length_append, tlv_length]; omega)
        ?_ he
      simp only [Sizes.pktHdrHandshakeLen, Sizes.pktHandshakeLen, Sizes.pktInitLen,
        Sizes.pktHdrLen, Sizes.pktTagLen, pktTlvLen] at hlen hsz ⊢
      omega

theorem onInitAckPkt_asserts (hsz : z.pktHandshakeLen + (pkt.length - pktTlvLen) < z.mss) :
    AssertsHold (onInitAckPkt z c ep s pkt h) := by
  intro k ok he
  unfold onInitAckPkt at he
  by_cases h1 : (!s.isInitiator) = true ∨ s.state ≠ .init
  · rw [if_pos h1] at he
    cases he
  by_cases h2 : pkt.length - pktTlvLen = 0
  · rw [if_neg h1, if_pos h2] at he
    cases he
  rw [if_neg h1, if_neg h2] at he
  simp only [not_or, Bool.not_eq_true', Bool.not_eq_false, not_not] at h1
  cases hb : h.cookieAlloc
  · rw [hb, if_pos (by decide : (!false) = true), List.mem_singleton] at he
    cases he
  · rw [hb, if_neg (by decide : ¬(!true) = true), lodpHandshake] at he
    exact lodpSendHandshakePkt_asserts (by exact ⟨h1.1, rfl⟩) hsz k ok he

end Handlers

/-- The `assert`s of the receive path. Whatever the endpoint, the session, the datagram and
the host, an `assert` that `lodp_on_incoming_pkt` reaches fails only at one of three places:
the HEARTBEAT ACK bound, for a HEARTBEAT whose echo reaches the MSS; the checks of
`on_handshake_pkt` for a HANDSHAKE that reaches an existing session; or the HANDSHAKE bound,
for an INIT ACK whose cookie does not fit in a HANDSHAKE. -/
theorem ingress_assert_sites (ep : Endpoint) (session : Option Session) (buf : Buf)
    (addr : SockAddr) (h : Host) {k : Check}
    (he : Effect.assert k false ∈ (lodpOnIncomingPkt z c ep session buf addr h).effects) :
    ∃ s pkt, session = some s ∧
      (demux z c ep session buf = .ok (.onHeartbeatPkt s, pkt) ∧
          z.mss ≤ z.pktHdrLen + (pkt.length - pktTlvLen) ∨
        demux z c ep session buf = .ok (.onHandshakePkt (some s), pkt) ∨
        demux z c ep session buf = .ok (.onInitAckPkt s, pkt) ∧
          z.mss ≤ z.pktHandshakeLen + (pkt.length - pktTlvLen)) := by
  unfold lodpOnIncomingPkt at he
  split at he
  · cases he
  · rename_i hd pkt hdm
    have hfail : ∀ o : Outcome, AssertsHold o → Effect.assert k false ∉ o.effects :=
      fun o ho hm => Bool.false_ne_true (ho k false hm)
    rcases session with _ | s
    · rcases demux_none hdm with rfl | ⟨rfl, -⟩
      · exact absurd he (hfail _ onInitPkt_asserts)
      · exact absurd he (hfail _ onHandshakePkt_none_asserts)
    · refine ⟨s, pkt, rfl, ?_⟩
      rcases demux_some hdm with ⟨rfl, -⟩ | rfl | rfl | rfl | rfl | rfl
      · exact .inr (.inl hdm)
      · exact absurd he (hfail _ onDataPkt_asserts)
      · by_cases hsz : z.pktHandshakeLen + (pkt.length - pktTlvLen) < z.mss
        · exact absurd he (hfail _ (onInitAckPkt_asserts hsz))
        · exact .inr (.inr ⟨hdm, not_lt.mp hsz⟩)
      · exact absurd he (hfail _ onHandshakeAckPkt_asserts)
      · by_cases hsz : z.pktHdrLen + (pkt.length - pktTlvLen) < z.mss
        · exact absurd he (hfail _ (onHeartbeatPkt_asserts hsz))
        · exact .inl ⟨hdm, not_lt.mp hsz⟩
      · obtain ⟨_, h1⟩ := onHeartbeatAckPkt_callback he
        cases h1

/-- An ESTABLISHED responder whose keys are all zero. -/
def echoSession : Session :=
  ⟨.other 0, false, .established, ⟨[], []⟩, [], ⟨[0, 0], [0, 0]⟩, ⟨[0, 0], [0, 0]⟩, [], [], none,
    0, true⟩

/-- An MSS-sized HEARTBEAT for `echoSession`, with `length = len - PKT_TAG_LEN`. -/
def echoDatagram : Buf := ⟨[18, 18, 0, 5, 0, 0, 13, 0, 0, 0, 0, 0, 0, 0, 0, 0], []⟩

/-- The HEARTBEAT whose echo reaches the MSS fails an `assert` at the first of the three
places. -/
theorem ingress_assert_sites_small :
    ∃ s pkt, some echoSession = some s ∧
      (demux Sizes.small Crypto.toy plainEndpoint (some echoSession) echoDatagram =
          .ok (.onHeartbeatPkt s, pkt) ∧
          Sizes.small.mss ≤ Sizes.small.pktHdrLen + (pkt.length - pktTlvLen) ∨
        demux Sizes.small Crypto.toy plainEndpoint (some echoSession) echoDatagram =
          .ok (.onHandshakePkt (some s), pkt) ∨
        demux Sizes.small Crypto.toy plainEndpoint (some echoSession) echoDatagram =
          .ok (.onInitAckPkt s, pkt) ∧
          Sizes.small.mss ≤ Sizes.small.pktHandshakeLen + (pkt.length - pktTlvLen)) :=
  @ingress_assert_sites Sizes.small Crypto.toy plainEndpoint (some echoSession) echoDatagram
    (.other 0) zeroHost .bufLen (by decide)

end Lodp
