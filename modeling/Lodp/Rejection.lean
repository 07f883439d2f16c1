import Lodp.Run

/-! Rejected packets: what a call that returns a rejection status leaves behind. -/
namespace Lodp

/-- `LODP_ERR_INVALID_MAC`, `LODP_ERR_BAD_PACKET`, `LODP_ERR_INVALID_COOKIE`,
`LODP_ERR_NOT_RESPONDER` and `LODP_ERR_AFNOTSUPPORT`: the statuses by which the core drops a
packet. -/
def rejectCodes : List Int :=
  [lodpErrInvalidMac, lodpErrBadPacket, lodpErrInvalidCookie, lodpErrNotResponder,
    lodpErrAfnotsupport]

/-- A call that leaves the session it was given as it was and reaches nothing but `assert`s:
no session is created or destroyed, no callback is called, and `sendto_fn` is not. -/
def Unaffected (session : Option Session) (o : Outcome) : Prop :=
  o.session = session ∧ o.effects.all Effect.isAssert = true

/-- A status the core passes back from `sendto_fn` or `on_recv_fn`, after calling it. -/
def PassedBack (h : Host) (o : Outcome) : Prop :=
  (o.ret = h.sendto ∧ ∃ b a, Effect.sendto b a ∈ o.effects) ∨
  (o.ret = h.onRecv ∧ ∃ p, Effect.onRecv p ∈ o.effects)

/-- `do_xmit` failed to seal the HANDSHAKE ACK of the session the call keeps: the status is
that of `encrypt_then_mac` on that ACK, and no callback or `sendto_fn` is reached. -/
def AckSealFailed (z : Sizes) (c : Crypto) (h : Host) (o : Outcome) : Prop :=
  ∃ s keys, o.session = some s ∧
    o.ret = (encryptThenMac z c o.ep h keys (handshakeAckPkt z s)).ret ∧
    o.effects.all Effect.isQuiet = true

/-- A call that returns a rejection status leaves no trace, unless the status was passed back
from the host, or a session given none was created and its ACK failed to seal. -/
def QuietRejection (z : Sizes) (c : Crypto) (h : Host) (session : Option Session) (o : Outcome) :
    Prop :=
  o.ret ∈ rejectCodes →
    Unaffected session o ∨ PassedBack h o ∨ (session = none ∧ AckSealFailed z c h o)

theorem zero_not_mem_rejectCodes : (0 : Int) ∉ rejectCodes := by decide

theorem lodpErrNobufs_not_mem_rejectCodes : lodpErrNobufs ∉ rejectCodes := by decide

theorem lodpErrBadHandshake_not_mem_rejectCodes : lodpErrBadHandshake ∉ rejectCodes := by decide

section Quiet
variable {z : Sizes} {c : Crypto} {h : Host} {session : Option Session} {o : Outcome}

theorem QuietRejection.of_unaffected (hu : Unaffected session o) :
    QuietRejection z c h session o :=
  fun _ => .inl hu

theorem QuietRejection.of_passedBack (hp : PassedBack h o) : QuietRejection z c h session o :=
  fun _ => .inr (.inl hp)

theorem QuietRejection.of_not_mem (hr : o.ret ∉ rejectCodes) : QuietRejection z c h session o :=
  fun hm => absurd hm hr

end Quiet

variable {z : Sizes} {c : Crypto}

theorem ntorHandshake_not_mem_rejectCodes (intro : EcdhKeypair) (uninit : Int) (s : Session)
    (pubKey : Bytes) : (ntorHandshake z c intro uninit s pubKey).1 ∉ rejectCodes := by
  rcases ntorHandshake_ret (z := z) (c := c) intro uninit s pubKey with hr | hr <;> rw [hr] <;>
    decide

/-! Each handler rejects quietly. -/

section Handlers
variable {ep : Endpoint} {s : Session} {pkt : Pkt} {addr : SockAddr} {h : Host}

theorem quiet_of_sealAndSend {session : Option Session} {o : Outcome} {keys : SymmetricKey}
    {pt : Bytes} (pre : List Effect) (hr : o.ret = (sealAndSend z c ep h keys pt addr).1)
    (hs : o.session = session) (he : o.effects = pre ++ (sealAndSend z c ep h keys pt addr).2)
    (hpre : pre.all Effect.isAssert = true) : QuietRejection z c h session o := by
  rcases sealAndSend_cases (z := z) (c := c) ep h keys pt addr with ⟨hr', he'⟩ | ⟨hr', hm⟩
  · refine .of_unaffected ⟨hs, ?_⟩
    rw [he, he', encryptThenMac_effects, List.all_append, hpre]
    rfl
  · exact .of_passedBack (.inl ⟨hr.trans hr', _, _, he ▸ List.mem_append_right _ hm⟩)

theorem handshakeXmit_fresh_quiet {key : SymmetricKey} {pre : List Effect}
    (hpre : pre.all Effect.isQuiet = true) :
    QuietRejection z c h none (handshakeXmit z c ep h key addr pre s) := by
  rcases @handshakeXmit_cases z c ep s addr h key pre with ⟨hr, he⟩ | ⟨hr, hm⟩
  · refine fun _ => .inr (.inr ⟨rfl, s, key, handshakeXmit_session .., ?_, ?_⟩)
    · rw [hr, handshakeXmit_ep]
    · rw [he, encryptThenMac_effects, List.all_append, hpre]
      rfl
  · exact .of_passedBack (.inl ⟨hr, _, _, hm⟩)

theorem handshakeXmit_quiet {key : SymmetricKey} {pre : List Effect}
    (hpre : pre.all Effect.isAssert = true) :
    QuietRejection z c h (some s) (handshakeXmit z c ep h key addr pre s) := by
  rcases @handshakeXmit_cases z c ep s addr h key pre with ⟨-, he⟩ | ⟨hr, hm⟩
  · refine .of_unaffected ⟨handshakeXmit_session .., ?_⟩
    rw [he, encryptThenMac_effects, List.all_append, hpre]
    rfl
  · exact .of_passedBack (.inl ⟨hr, _, _, hm⟩)

theorem onInitPkt_quiet : QuietRejection z c h none (onInitPkt z c ep pkt addr h) := by
  simp only [onInitPkt]
  by_cases hl : z.pktHdrInitLen ≠ pkt.length
  · rw [if_pos hl]
    exact .of_unaffected ⟨rfl, rfl⟩
  rw [if_neg hl]
  cases h.bufAlloc
  · rw [if_pos (by decide : (!false) = true)]
    exact .of_unaffected ⟨rfl, rfl⟩
  rw [if_neg (by decide : ¬(!true) = true)]
  exact quiet_of_sealAndSend [_] rfl rfl rfl rfl

theorem onHandshakePkt_quiet {session : Option Session} :
    QuietRejection z c h session (onHandshakePkt z c ep session pkt addr h) := by
  simp only [onHandshakePkt]
  by_cases hl : z.pktHdrHandshakeLen + z.cookieLen ≠ pkt.length
  · rw [if_pos hl]
    exact .of_unaffected ⟨rfl, rfl⟩
  rw [if_neg hl]
  by_cases hv : (validateCookie z c ep pkt addr h).1 ≠ 0
  · rw [if_pos hv]
    exact .of_unaffected ⟨rfl, rfl⟩
  rw [if_neg hv]
  cases h.bufAlloc
  · rw [if_pos (by decide : (!false) = true)]
    exact .of_unaffected ⟨rfl, rfl⟩
  rw [if_neg (by decide : ¬(!true) = true)]
  rcases session with _ | s
  · dsimp only
    rcases h.newSession with _ | kp
    · exact .of_not_mem zero_not_mem_rejectCodes
    dsimp only
    split
    · exact .of_not_mem (ntorHandshake_not_mem_rejectCodes _ _ _ _)
    · exact handshakeXmit_fresh_quiet rfl
  · dsimp only
    cases s.seenPeerData
    · rw [if_pos (by decide : (!false) = true)]
      exact handshakeXmit_quiet rfl
    · rw [if_neg (by decide : ¬(!true) = true)]
      exact .of_unaffected ⟨rfl, rfl⟩

theorem onDataPkt_quiet : QuietRejection z c h (some s) (onDataPkt z ep s pkt h) := by
  unfold onDataPkt
  by_cases hs : s.state ≠ .established
  · rw [if_pos hs]
    exact .of_unaffected ⟨rfl, rfl⟩
  rw [if_neg hs]
  exact .of_passedBack (.inr ⟨rfl, _, List.mem_append_right _ (List.mem_singleton_self _)⟩)

theorem onInitAckPkt_quiet : QuietRejection z c h (some s) (onInitAckPkt z c ep s pkt h) := by
  unfold onInitAckPkt
  by_cases h1 : (!s.isInitiator) = true ∨ s.state ≠ .init
  · rw [if_pos h1]
    exact .of_unaffected ⟨rfl, rfl⟩
  rw [if_neg h1]
  by_cases h2 : pkt.length - pktTlvLen = 0
  · rw [if_pos h2]
    exact .of_unaffected ⟨rfl, rfl⟩
  rw [if_neg h2]
  refine .of_not_mem ?_
  cases h.cookieAlloc
  · rw [if_pos (by decide : (!false) = true)]
    exact lodpErrNobufs_not_mem_rejectCodes
  · rw [if_neg (by decide : ¬(!true) = true)]
    simp only [lodpHandshake, lodpSendHandshakePkt]
    split_ifs
    · exact lodpErrNobufs_not_mem_rejectCodes
    · exact zero_not_mem_rejectCodes

theorem onHandshakeAckPkt_quiet :
    QuietRejection z c h (some s) (onHandshakeAckPkt z c ep s pkt h) := by
  simp only [onHandshakeAckPkt]
  by_cases h1 : (!s.isInitiator) = true ∨ s.state ≠ .handshake
  · rw [if_pos h1]
    exact .of_unaffected ⟨rfl, rfl⟩
  by_cases h2 : z.pktHdrHandshakeAckLen ≠ pkt.length
  · rw [if_neg h1, if_pos h2]
    exact .of_unaffected ⟨rfl, rfl⟩
  rw [if_neg h1, if_neg h2]
  refine .of_not_mem ?_
  simp only [apply_ite Prod.fst]
  split_ifs
  · exact ntorHandshake_not_mem_rejectCodes _ _ _ _
  · exact lodpErrBadHandshake_not_mem_rejectCodes
  · exact zero_not_mem_rejectCodes

theorem onHeartbeatPkt_quiet : QuietRejection z c h (some s) (onHeartbeatPkt z c ep s pkt h) := by
  simp only [onHeartbeatPkt]
  by_cases hs : s.state ≠ .established
  · rw [if_pos hs]
    exact .of_unaffected ⟨rfl, rfl⟩
  rw [if_neg hs]
  cases h.bufAlloc
  · rw [if_pos (by decide : (!false) = true)]
    exact .of_unaffected ⟨rfl, rfl⟩
  rw [if_neg (by decide : ¬(!true) = true)]
  exact quiet_of_sealAndSend [_] rfl rfl rfl rfl

theorem onHeartbeatAckPkt_quiet : QuietRejection z c h (some s) (onHeartbeatAckPkt ep s pkt) := by
  unfold onHeartbeatAckPkt
  by_cases hs : s.state ≠ .established
  · rw [if_pos hs]
    exact .of_unaffected ⟨rfl, rfl⟩
  rw [if_neg hs]
  exact .of_not_mem zero_not_mem_rejectCodes

end Handlers

/-- Rejected packets have no effect. Whenever `lodp_on_incoming_pkt`, or the handler it
calls, returns `LODP_ERR_INVALID_MAC`, `LODP_ERR_BAD_PACKET`, `LODP_ERR_INVALID_COOKIE`,
`LODP_ERR_NOT_RESPONDER` or `LODP_ERR_AFNOTSUPPORT`, the session it was given is left as it
was, no session is created, and nothing but `assert`s is reached: no callback and no
`sendto_fn`. The exceptions are a status of `sendto_fn` or `on_recv_fn` passed back after
calling it, and a HANDSHAKE that created a session whose ACK `encrypt_then_mac` then failed
to seal with that status: the session is kept, and nothing is called. -/
theorem rejection_no_effect (ep : Endpoint) (session : Option Session) (buf : Buf)
    (addr : SockAddr) (h : Host) :
    (lodpOnIncomingPkt z c ep session buf addr h).ret ∈ rejectCodes →
      Unaffected session (lodpOnIncomingPkt z c ep session buf addr h) ∨
        PassedBack h (lodpOnIncomingPkt z c ep session buf addr h) ∨
        session = none ∧ AckSealFailed z c h (lodpOnIncomingPkt z c ep session buf addr h) := by
  show QuietRejection z c h session _
  unfold lodpOnIncomingPkt
  split
  · exact .of_unaffected ⟨rfl, rfl⟩
  rename_i hd pkt hdm
  rcases session with _ | s
  · rcases demux_none hdm with rfl | ⟨rfl, -⟩
    · exact onInitPkt_quiet
    · exact onHandshakePkt_quiet
  · rcases demux_some hdm with ⟨rfl, -⟩ | rfl | rfl | rfl | rfl | rfl
    · exact onHandshakePkt_quiet
    · exact onDataPkt_quiet
    · exact onInitAckPkt_quiet
    · exact onHandshakeAckPkt_quiet
    · exact onHeartbeatPkt_quiet
    · exact onHeartbeatAckPkt_quiet

/-- A datagram whose tag `smallResponder`'s intro keys do not verify is dropped with
`LODP_ERR_INVALID_MAC`. -/
theorem rejection_no_effect_small :
    (lodpOnIncomingPkt Sizes.small Crypto.toy smallResponder none ⟨[1, 1, 0, 0, 0, 0, 0], []⟩
      smallAddr smallHost).ret ∈ rejectCodes ∧
    (Unaffected none (lodpOnIncomingPkt Sizes.small Crypto.toy smallResponder none
        ⟨[1, 1, 0, 0, 0, 0, 0], []⟩ smallAddr smallHost) ∨
      PassedBack smallHost (lodpOnIncomingPkt Sizes.small Crypto.toy smallResponder
        none ⟨[1, 1, 0, 0, 0, 0, 0], []⟩ smallAddr smallHost) ∨
      (none : Option Session) = none ∧ AckSealFailed Sizes.small Crypto.toy smallHost
        (lodpOnIncomingPkt Sizes.small Crypto.toy smallResponder none ⟨[1, 1, 0, 0, 0, 0, 0], []⟩
          smallAddr smallHost)) :=
  have hr : (lodpOnIncomingPkt Sizes.small Crypto.toy smallResponder none
      ⟨[1, 1, 0, 0, 0, 0, 0], []⟩ smallAddr smallHost).ret ∈ rejectCodes := by decide
  ⟨hr, rejection_no_effect _ _ _ _ _ hr⟩

set_option maxRecDepth 4000 in
/-- With a `lodp_encrypt` that fails with the value of `LODP_ERR_INVALID_MAC`, a fresh
`smallResponder` returns that status for `smallHandshakeDatagram` and still keeps the
session the HANDSHAKE created. -/
theorem rejection_creates_session_small :
    (lodpOnIncomingPkt Sizes.small Crypto.sealFails smallResponder none smallHandshakeDatagram
      smallAddr smallHost).ret = lodpErrInvalidMac ∧
    (lodpOnIncomingPkt Sizes.small Crypto.sealFails smallResponder none smallHandshakeDatagram
      smallAddr smallHost).session.isSome := by
  decide

end Lodp
