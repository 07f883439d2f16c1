import Lodp.Egress

/-! The packet type handlers `on_*_pkt` of `lodp_pkt.c`. -/
namespace Lodp

variable (z : Sizes) (c : Crypto)

/-- Modelled from the spec: `lodp_session_init` of `lodp.c`, which is not in the
repository, as `on_handshake_pkt` calls it (`is_initiator = 0`). By §3 and §4.6 it stores
its arguments, takes a fresh ephemeral key pair, and starts the session in ESTABLISHED;
the other fields are zero. -/
def lodpSessionInit (addr : SockAddr) (remotePublicKey : Bytes) (kp : EcdhKeypair) : Session where
  peerAddr := addr
  isInitiator := false
  state := .established
  sessionEcdhKeypair := kp
  remotePublicKey := remotePublicKey
  txKey := ⟨List.replicate z.macKeyLen 0, List.replicate z.bulkKeyLen 0⟩
  rxKey := ⟨List.replicate z.macKeyLen 0, List.replicate z.bulkKeyLen 0⟩
  sessionSecret := List.replicate z.ecdhSecretLen 0
  sessionSecretVerifier := List.replicate z.macDigestLen 0
  cookie := none
  cookieLen := 0
  seenPeerData := false

/-- The cookie `on_init_pkt` places in its INIT ACK. The status of `generate_cookie` is not
checked: when it fails, the cookie bytes are whatever the fresh buffer held. -/
def issuedCookie (ep : Endpoint) (pkt : Pkt) (addr : SockAddr) (h : Host) : Bytes :=
  (generateCookie z c false ep pkt addr h).cookie.getD
    (draw (fun i => h.stale (pktTlvLen + i)) z.cookieLen)

/-- `on_init_pkt`: answers a well-sized INIT with an INIT ACK carrying a cookie, sealed
under the intro keys the INIT carries. -/
def onInitPkt (ep : Endpoint) (pkt : Pkt) (addr : SockAddr) (h : Host) : Outcome :=
  if z.pktHdrInitLen ≠ pkt.length then ⟨lodpErrBadPacket, ep, none, []⟩
  else if !h.bufAlloc then ⟨lodpErrNobufs, ep, none, []⟩
  else
    let key : SymmetricKey := ⟨pkt.introMacKey z, pkt.introBulkKey z⟩
    let chk := Effect.assert .bufLen (decide (z.pktHdrLen + z.cookieLen < z.mss))
    let r := sealAndSend z c (rotateIfDue z ep h) h key
      (tlv .initAck (pktTlvLen + z.cookieLen) ++ issuedCookie z c ep pkt addr h) addr
    ⟨r.1, rotateIfDue z ep h, none, chk :: r.2⟩

/-- The HANDSHAKE ACK a responder sends for a session: `public_key` is the session's
ephemeral public key and `digest` its verifier. -/
def handshakeAckPkt (s : Session) : Bytes :=
  tlv .handshakeAck z.pktHdrHandshakeAckLen ++
    s.sessionEcdhKeypair.publicKey.take z.ecdhPublicKeyLen ++
    s.sessionSecretVerifier.take z.macDigestLen

/-- The `do_xmit` label of `on_handshake_pkt`: seal the ACK; when that fails return at
`out`, otherwise send it and call `on_accept_fn`, since `should_callback` is never
cleared. -/
def handshakeXmit (ep : Endpoint) (h : Host) (key : SymmetricKey) (addr : SockAddr)
    (pre : List Effect) (s : Session) : Outcome :=
  let e := encryptThenMac z c ep h key (handshakeAckPkt z s)
  if e.ret ≠ 0 then ⟨e.ret, ep, some s, pre ++ e.effects⟩
  else ⟨h.sendto, ep, some s, pre ++ e.effects ++ [.sendto e.ciphertext addr, .onAccept addr]⟩

@[simp] theorem handshakeXmit_session (ep : Endpoint) (h : Host) (key : SymmetricKey)
    (addr : SockAddr) (pre : List Effect) (s : Session) :
    (handshakeXmit z c ep h key addr pre s).session = some s := by
  simp only [handshakeXmit]
  split_ifs <;> rfl

/-- `on_handshake_pkt`. The new session's `remote_public_key` is read from the
`public_key` field of the not yet written HANDSHAKE ACK buffer, and a failed
`lodp_session_init` returns the `0` left in `ret` by the cookie check. -/
def onHandshakePkt (ep : Endpoint) (session : Option Session) (pkt : Pkt) (addr : SockAddr)
    (h : Host) : Outcome :=
  if z.pktHdrHandshakeLen + z.cookieLen ≠ pkt.length then ⟨lodpErrBadPacket, ep, session, []⟩
  else
    let v := validateCookie z c ep pkt addr h
    if v.1 ≠ 0 then ⟨v.1, v.2, session, []⟩
    else if !h.bufAlloc then ⟨lodpErrNobufs, v.2, session, []⟩
    else
      let key : SymmetricKey := ⟨pkt.introMacKey z, pkt.introBulkKey z⟩
      let chk := Effect.assert .bufLen (decide (z.pktHandshakeAckLen < z.mss))
      match session with
      | some s =>
        let pre := [chk, .assert .responder !s.isInitiator,
          .assert .notEstablished (s.state != .established)]
        if !s.seenPeerData then handshakeXmit z c v.2 h key addr pre s
        else ⟨lodpErrBadPacket, v.2, some s, pre⟩
      | none =>
        match h.newSession with
        | none => ⟨0, v.2, none, [chk]⟩
        | some kp =>
          let s := lodpSessionInit z addr (draw (fun i => h.stale (pktTlvLen + i))
            z.ecdhPublicKeyLen) kp
          let r := ntorHandshake z c v.2.introEcdhKeypair h.uninit s (pkt.publicKey z)
          if r.1 ≠ 0 then ⟨r.1, v.2, none, [chk, .sessionInit addr, .sessionDestroy]⟩
          else handshakeXmit z c v.2 h key addr [chk, .sessionInit addr] r.2

/-- `on_data_pkt`: the first DATA marks `seen_peer_data`, and a responder then scrubs its
handshake material; the payload goes to `on_recv_fn`. -/
def onDataPkt (ep : Endpoint) (s : Session) (pkt : Pkt) (h : Host) : Outcome :=
  if s.state ≠ .established then ⟨lodpErrBadPacket, ep, some s, []⟩
  else
    let sc : Session × List Effect :=
      if !s.seenPeerData then
        if !s.isInitiator then scrubHandshakeMaterial z { s with seenPeerData := true }
        else ({ s with seenPeerData := true }, [])
      else (s, [])
    ⟨h.onRecv, ep, some sc.1, sc.2 ++ [.onRecv pkt.body]⟩

/-- `on_init_ack_pkt`: an initiator in INIT stores the cookie, moves to HANDSHAKE and sends
the HANDSHAKE; a failed allocation ends the session in ERROR. -/
def onInitAckPkt (ep : Endpoint) (s : Session) (pkt : Pkt) (h : Host) : Outcome :=
  if !s.isInitiator ∨ s.state ≠ .init then ⟨lodpErrBadPacket, ep, some s, []⟩
  else
    let cookieLen := pkt.length - pktTlvLen
    if cookieLen = 0 then ⟨lodpErrBadPacket, ep, some s, []⟩
    else if !h.cookieAlloc then
      ⟨lodpErrNobufs, ep, some { s with state := .error }, [.onConnect lodpErrNobufs]⟩
    else
      lodpHandshake z c ep
        { s with cookie := some pkt.body, cookieLen := cookieLen, state := .handshake } h

/-- `on_handshake_ack_pkt`: an initiator in HANDSHAKE completes ntor and compares the
digest with its verifier; either way the handshake material is scrubbed and
`on_connect_fn` gets the status. -/
def onHandshakeAckPkt (ep : Endpoint) (s : Session) (pkt : Pkt) (h : Host) : Outcome :=
  if !s.isInitiator ∨ s.state ≠ .handshake then ⟨lodpErrBadPacket, ep, some s, []⟩
  else if z.pktHdrHandshakeAckLen ≠ pkt.length then ⟨lodpErrBadPacket, ep, some s, []⟩
  else
    let r := ntorHandshake z c ep.introEcdhKeypair h.uninit s (pkt.ackPublicKey z)
    let res : Int × SessionState :=
      if r.1 ≠ 0 then (r.1, .error)
      else if memcmp (pkt.digest z) r.2.sessionSecretVerifier z.macDigestLen then
        (lodpErrBadHandshake, .error)
      else (0, .established)
    let sc := scrubHandshakeMaterial z { r.2 with state := res.2 }
    ⟨res.1, ep, some sc.1, sc.2 ++ [.onConnect res.1]⟩

/-- `on_heartbeat_pkt`: echoes the payload in a HEARTBEAT ACK sealed under `tx_key`. -/
def onHeartbeatPkt (ep : Endpoint) (s : Session) (pkt : Pkt) (h : Host) : Outcome :=
  if s.state ≠ .established then ⟨lodpErrBadPacket, ep, some s, []⟩
  else if !h.bufAlloc then ⟨lodpErrNobufs, ep, some s, []⟩
  else
    let payloadLen := pkt.length - pktTlvLen
    let chk := Effect.assert .bufLen (decide (z.pktHdrLen + payloadLen < z.mss))
    let r := sealAndSend z c ep h s.txKey
      (tlv .heartbeatAck (pktTlvLen + payloadLen) ++ pkt.body) s.peerAddr
    ⟨r.1, ep, some s, chk :: r.2⟩

/-- `on_heartbeat_ack_pkt`: hands the payload to `on_heartbeat_ack_fn` when registered. -/
def onHeartbeatAckPkt (ep : Endpoint) (s : Session) (pkt : Pkt) : Outcome :=
  if s.state ≠ .established then ⟨lodpErrBadPacket, ep, some s, []⟩
  else ⟨0, ep, some s, if ep.callbacks.onHeartbeatAckFn then [.onHeartbeatAck pkt.body] else []⟩

variable {z c}

/-- The effects that are neither a `sendto_fn` nor a callback: `assert`s, and a session
created or destroyed. -/
def Effect.isQuiet : Effect → Bool
  | .assert _ _ | .sessionInit _ | .sessionDestroy => true
  | _ => false

theorem Effect.isCallback_of_isQuiet {e : Effect} (h : e.isQuiet = true) :
    e.isCallback = false := by
  cases e <;> first | rfl | cases h

@[simp] theorem handshakeXmit_ep (ep : Endpoint) (h : Host) (key : SymmetricKey) (addr : SockAddr)
    (pre : List Effect) (s : Session) : (handshakeXmit z c ep h key addr pre s).ep = ep := by
  simp only [handshakeXmit]
  split_ifs <;> rfl

section Cases
variable {ep : Endpoint} {pkt : Pkt} {addr : SockAddr} {h : Host}

theorem onHandshakePkt_cases {session : Option Session} {o : Outcome}
    (ho : onHandshakePkt z c ep session pkt addr h = o) :
    (o.effects = [] ∧ o.session = session ∧ (o.ep = ep ∨ o.ep = rotateIfDue z ep h)) ∨
    (z.pktHdrHandshakeLen + z.cookieLen = pkt.length ∧ (validateCookie z c ep pkt addr h).1 = 0 ∧
      h.bufAlloc = true ∧
      ((o.ep = rotateIfDue z ep h ∧ o.session = session ∧ o.effects.all Effect.isQuiet) ∨
       ∃ s pre, o = handshakeXmit z c (rotateIfDue z ep h) h
            ⟨pkt.introMacKey z, pkt.introBulkKey z⟩ addr pre s ∧
          pre.all Effect.isQuiet ∧ s.seenPeerData = false ∧
          (session = some s ∨ session = none ∧ s.isInitiator = false ∧ ∃ kp,
            h.newSession = some kp ∧ ntorHandshake z c ep.introEcdhKeypair h.uninit
              (lodpSessionInit z addr (draw (fun i => h.stale (pktTlvLen + i))
                z.ecdhPublicKeyLen) kp) (pkt.publicKey z) = (0, s)))) := by
  simp only [onHandshakePkt, validateCookie_ep] at ho
  by_cases hl : z.pktHdrHandshakeLen + z.cookieLen = pkt.length
  swap
  · rw [if_pos hl] at ho
    subst ho
    exact .inl ⟨rfl, rfl, .inl rfl⟩
  rw [if_neg (not_not.mpr hl)] at ho
  by_cases hv : (validateCookie z c ep pkt addr h).1 = 0
  swap
  · rw [if_pos hv] at ho
    subst ho
    exact .inl ⟨rfl, rfl, .inr rfl⟩
  rw [if_neg (not_not.mpr hv)] at ho
  cases hb : h.bufAlloc
  · rw [hb, if_pos (by decide : (!false) = true)] at ho
    subst ho
    exact .inl ⟨rfl, rfl, .inr rfl⟩
  rw [hb, if_neg (by decide : ¬(!true) = true)] at ho
  refine .inr ⟨hl, hv, rfl, ?_⟩
  subst ho
  rcases session with _ | s
  · rcases hn : h.newSession with _ | kp
    · exact .inl ⟨rfl, rfl, rfl⟩
    · simp only
      split
      · exact .inl ⟨rfl, rfl, rfl⟩
      · rename_i h0
        simp only [rotateIfDue_introEcdhKeypair] at h0 ⊢
        exact .inr ⟨_, _, rfl, rfl, by simp [lodpSessionInit], .inr ⟨trivial,
          by simp [lodpSessionInit], kp, rfl, Prod.ext (not_not.mp h0) rfl⟩⟩
  · simp only
    split
    · rename_i hs
      exact .inr ⟨s, _, rfl, rfl, by simpa using hs, .inl rfl⟩
    · exact .inl ⟨rfl, rfl, rfl⟩

end Cases

section Sent
variable {ep : Endpoint} {s : Session} {pkt : Pkt} {addr : SockAddr} {h : Host} {b : Bytes}
  {a : SockAddr}

theorem issuedCookie_length : (issuedCookie z c ep pkt addr h).length = z.cookieLen := by
  unfold issuedCookie generateCookie
  rcases addr.blob with _ | a <;> simp only <;> split_ifs <;> simp [c.mac_length]

theorem onInitPkt_sendto (hb : Effect.sendto b a ∈ (onInitPkt z c ep pkt addr h).effects) :
    z.pktHdrInitLen = pkt.length ∧
    (encryptThenMac z c (rotateIfDue z ep h) h ⟨pkt.introMacKey z, pkt.introBulkKey z⟩
      (tlv .initAck (pktTlvLen + z.cookieLen) ++ issuedCookie z c ep pkt addr h)).ret = 0 ∧
    b = (encryptThenMac z c (rotateIfDue z ep h) h ⟨pkt.introMacKey z, pkt.introBulkKey z⟩
      (tlv .initAck (pktTlvLen + z.cookieLen) ++ issuedCookie z c ep pkt addr h)).ciphertext ∧
    a = addr := by
  simp only [onInitPkt] at hb
  split_ifs at hb with h1
  · simp at hb
  · simp at hb
  · exact ⟨not_not.mp h1, sealAndSend_sendto.mp (by simpa using hb)⟩

theorem handshakeXmit_sendto {key : SymmetricKey} {pre : List Effect}
    (hpre : ∀ b a, Effect.sendto b a ∉ pre)
    (hb : Effect.sendto b a ∈ (handshakeXmit z c ep h key addr pre s).effects) :
    (encryptThenMac z c ep h key (handshakeAckPkt z s)).ret = 0 ∧
      b = (encryptThenMac z c ep h key (handshakeAckPkt z s)).ciphertext ∧ a = addr := by
  simp only [handshakeXmit] at hb
  split_ifs at hb with he
  · simp only [encryptThenMac_effects, List.mem_append, List.mem_singleton] at hb
    rcases hb with hb | hb
    · exact absurd hb (hpre b a)
    · cases hb
  · simp only [encryptThenMac_effects, List.mem_append, List.mem_cons, List.mem_singleton,
      List.not_mem_nil, or_false] at hb
    rcases hb with (hb | hb) | hb | hb
    · exact absurd hb (hpre b a)
    · cases hb
    · cases hb
      exact ⟨not_not.mp he, rfl, rfl⟩
    · cases hb

theorem onHandshakePkt_sendto {session : Option Session}
    (hb : Effect.sendto b a ∈ (onHandshakePkt z c ep session pkt addr h).effects) :
    ∃ s', (onHandshakePkt z c ep session pkt addr h).session = some s' ∧
      (encryptThenMac z c (rotateIfDue z ep h) h ⟨pkt.introMacKey z, pkt.introBulkKey z⟩
        (handshakeAckPkt z s')).ret = 0 ∧
      b = (encryptThenMac z c (rotateIfDue z ep h) h ⟨pkt.introMacKey z, pkt.introBulkKey z⟩
        (handshakeAckPkt z s')).ciphertext ∧ a = addr := by
  rcases onHandshakePkt_cases (o := onHandshakePkt z c ep session pkt addr h) rfl with
    ⟨he, -⟩ | ⟨-, -, -, ⟨-, -, hq⟩ | ⟨s, pre, ho, hpre, -⟩⟩
  · simp [he] at hb
  · cases List.all_eq_true.mp hq _ hb
  · rw [ho] at hb ⊢
    exact ⟨s, handshakeXmit_session ..,
      handshakeXmit_sendto (fun _ _ hm => by cases List.all_eq_true.mp hpre _ hm) hb⟩

theorem onHeartbeatPkt_sendto (hb : Effect.sendto b a ∈ (onHeartbeatPkt z c ep s pkt h).effects) :
    (encryptThenMac z c ep h s.txKey
      (tlv .heartbeatAck (pktTlvLen + (pkt.length - pktTlvLen)) ++ pkt.body)).ret = 0 ∧
    b = (encryptThenMac z c ep h s.txKey
      (tlv .heartbeatAck (pktTlvLen + (pkt.length - pktTlvLen)) ++ pkt.body)).ciphertext ∧
    a = s.peerAddr := by
  simp only [onHeartbeatPkt] at hb
  split_ifs at hb
  · simp at hb
  · simp at hb
  · exact sealAndSend_sendto.mp (by simpa using hb)

end Sent

/-! What each handler does to the session it is given. -/

section Session
variable {ep : Endpoint} {s : Session} {pkt : Pkt} {addr : SockAddr} {h : Host}

@[simp] theorem onHandshakePkt_some_session :
    (onHandshakePkt z c ep (some s) pkt addr h).session = some s := by
  rcases onHandshakePkt_cases (o := onHandshakePkt z c ep (some s) pkt addr h) rfl with
    ⟨-, hs, -⟩ | ⟨-, -, -, ⟨-, hs, -⟩ | ⟨s', pre, ho, -, -, hs | ⟨hs, -⟩⟩⟩
  · exact hs
  · exact hs
  · cases hs
    rw [ho, handshakeXmit_session]
  · cases hs

@[simp] theorem onHeartbeatPkt_session : (onHeartbeatPkt z c ep s pkt h).session = some s := by
  simp only [onHeartbeatPkt]
  split_ifs <;> rfl

@[simp] theorem onHeartbeatAckPkt_session : (onHeartbeatAckPkt ep s pkt).session = some s := by
  simp only [onHeartbeatAckPkt]
  split_ifs <;> rfl

theorem onDataPkt_session : ∃ s', (onDataPkt z ep s pkt h).session = some s' ∧
    s'.state = s.state ∧ s'.isInitiator = s.isInitiator ∧
    (s'.seenPeerData = s.seenPeerData ∨ s.state = .established ∧ s'.seenPeerData = true) := by
  unfold onDataPkt
  by_cases hs : s.state ≠ .established
  · rw [if_pos hs]
    exact ⟨s, rfl, rfl, rfl, .inl rfl⟩
  rw [if_neg hs]
  refine ⟨_, rfl, ?_⟩
  cases hp : s.seenPeerData <;> cases hi : s.isInitiator <;> simp_all

theorem onInitAckPkt_session : ∃ s', (onInitAckPkt z c ep s pkt h).session = some s' ∧
    s'.isInitiator = s.isInitiator ∧ s'.seenPeerData = s.seenPeerData ∧
    (s' = s ∨ s.isInitiator = true ∧ s.state = .init ∧
      (s'.state = .handshake ∨ s'.state = .error ∧ h.cookieAlloc = false)) := by
  unfold onInitAckPkt
  by_cases h1 : (!s.isInitiator) = true ∨ s.state ≠ .init
  · rw [if_pos h1]
    exact ⟨s, rfl, rfl, rfl, .inl rfl⟩
  rw [if_neg h1]
  simp only [not_or, Bool.not_eq_true', Bool.not_eq_false, not_not] at h1
  by_cases h2 : pkt.length - pktTlvLen = 0
  · rw [if_pos h2]
    exact ⟨s, rfl, rfl, rfl, .inl rfl⟩
  rw [if_neg h2]
  cases hb : h.cookieAlloc
  · rw [if_pos (by decide : (!false) = true)]
    exact ⟨_, rfl, rfl, rfl, .inr ⟨h1.1, h1.2, .inr ⟨rfl, rfl⟩⟩⟩
  · rw [if_neg (by decide : ¬(!true) = true)]
    exact ⟨_, lodpSendHandshakePkt_session .., rfl, rfl, .inr ⟨h1.1, h1.2, .inl rfl⟩⟩

theorem onHandshakeAckPkt_session : ∃ s', (onHandshakeAckPkt z c ep s pkt h).session = some s' ∧
    s'.isInitiator = s.isInitiator ∧ s'.seenPeerData = s.seenPeerData ∧
    (s' = s ∨ s.isInitiator = true ∧ s.state = .handshake ∧
      (s'.state = .established ∨ s'.state = .error)) := by
  unfold onHandshakeAckPkt
  by_cases h1 : (!s.isInitiator) = true ∨ s.state ≠ .handshake
  · rw [if_pos h1]
    exact ⟨s, rfl, rfl, rfl, .inl rfl⟩
  by_cases h2 : z.pktHdrHandshakeAckLen ≠ pkt.length
  · rw [if_neg h1, if_pos h2]
    exact ⟨s, rfl, rfl, rfl, .inl rfl⟩
  rw [if_neg h1, if_neg h2]
  simp only [not_or, Bool.not_eq_true', Bool.not_eq_false, not_not] at h1
  refine ⟨_, rfl, by simp, by simp, .inr ⟨h1.1, h1.2, ?_⟩⟩
  simp only [scrubHandshakeMaterial_state]
  split_ifs <;> simp

theorem onDataPkt_onRecv {p : Bytes} (he : Effect.onRecv p ∈ (onDataPkt z ep s pkt h).effects) :
    s.state = .established := by
  simp only [onDataPkt] at he
  split_ifs at he with h1 <;> first | exact not_not.mp h1 | simp at he

theorem onHeartbeatAckPkt_onHeartbeatAck {p : Bytes}
    (he : Effect.onHeartbeatAck p ∈ (onHeartbeatAckPkt ep s pkt).effects) :
    s.state = .established := by
  simp only [onHeartbeatAckPkt] at he
  split_ifs at he with h1 <;> first | exact not_not.mp h1 | simp at he

theorem onHeartbeatPkt_sendto_established {b : Bytes} {a : SockAddr}
    (he : Effect.sendto b a ∈ (onHeartbeatPkt z c ep s pkt h).effects) :
    s.state = .established := by
  simp only [onHeartbeatPkt] at he
  split_ifs at he with h1 <;> first | exact not_not.mp h1 | simp at he

/-! Each handler calls only its own callback. -/

theorem onInitPkt_callback {e : Effect} (hc : e.isCallback = true) :
    e ∉ (onInitPkt z c ep pkt addr h).effects := by
  simp only [onInitPkt]
  split_ifs <;> simp [not_mem_sealAndSend hc]
  rintro rfl
  cases hc

theorem handshakeXmit_callback {key : SymmetricKey} {pre : List Effect} {e : Effect}
    (hpre : ∀ x ∈ pre, x.isCallback = false) (hc : e.isCallback = true)
    (he : e ∈ (handshakeXmit z c ep h key addr pre s).effects) : e = .onAccept addr := by
  have hne : e ∉ pre := fun hm => by simp [hpre e hm] at hc
  simp only [handshakeXmit] at he
  split_ifs at he <;> simp [hne] at he
  · subst he
    cases hc
  · rcases he with rfl | rfl | rfl
    · cases hc
    · cases hc
    · rfl

theorem onHandshakePkt_callback {session : Option Session} {e : Effect}
    (hc : e.isCallback = true) (he : e ∈ (onHandshakePkt z c ep session pkt addr h).effects) :
    e = .onAccept addr := by
  rcases onHandshakePkt_cases (o := onHandshakePkt z c ep session pkt addr h) rfl with
    ⟨he', -⟩ | ⟨-, -, -, ⟨-, -, hq⟩ | ⟨s, pre, ho, hpre, -⟩⟩
  · simp [he'] at he
  · simp [Effect.isCallback_of_isQuiet (List.all_eq_true.mp hq e he)] at hc
  · rw [ho] at he
    exact handshakeXmit_callback
      (fun x hx => Effect.isCallback_of_isQuiet (List.all_eq_true.mp hpre x hx)) hc he

theorem onDataPkt_callback {e : Effect} (hc : e.isCallback = true)
    (he : e ∈ (onDataPkt z ep s pkt h).effects) : ∃ p, e = .onRecv p := by
  simp only [onDataPkt] at he
  split_ifs at he <;> simp [not_mem_scrubHandshakeMaterial hc] at he
  all_goals exact ⟨_, he⟩

theorem onInitAckPkt_callback {e : Effect} (hc : e.isCallback = true)
    (he : e ∈ (onInitAckPkt z c ep s pkt h).effects) : ∃ st, e = .onConnect st := by
  unfold onInitAckPkt at he
  by_cases h1 : (!s.isInitiator) = true ∨ s.state ≠ .init
  · rw [if_pos h1] at he
    cases he
  by_cases h2 : pkt.length - pktTlvLen = 0
  · rw [if_neg h1, if_pos h2] at he
    cases he
  rw [if_neg h1, if_neg h2] at he
  cases hb : h.cookieAlloc
  · rw [hb, if_pos (by decide : (!false) = true), List.mem_singleton] at he
    exact ⟨_, he⟩
  · rw [hb, if_neg (by decide : ¬(!true) = true)] at he
    exact absurd he (not_mem_lodpSendHandshakePkt hc)

theorem onHandshakeAckPkt_callback {e : Effect} (hc : e.isCallback = true)
    (he : e ∈ (onHandshakeAckPkt z c ep s pkt h).effects) : ∃ st, e = .onConnect st := by
  unfold onHandshakeAckPkt at he
  by_cases h1 : (!s.isInitiator) = true ∨ s.state ≠ .handshake
  · rw [if_pos h1] at he
    cases he
  by_cases h2 : z.pktHdrHandshakeAckLen ≠ pkt.length
  · rw [if_neg h1, if_pos h2] at he
    cases he
  rw [if_neg h1, if_neg h2, List.mem_append, List.mem_singleton] at he
  exact ⟨_, he.resolve_left (not_mem_scrubHandshakeMaterial hc)⟩

theorem onHeartbeatPkt_callback {e : Effect} (hc : e.isCallback = true) :
    e ∉ (onHeartbeatPkt z c ep s pkt h).effects := by
  simp only [onHeartbeatPkt]
  split_ifs <;> simp [not_mem_sealAndSend hc]
  rintro rfl
  cases hc

theorem onHeartbeatAckPkt_callback {e : Effect} (he : e ∈ (onHeartbeatAckPkt ep s pkt).effects) :
    ∃ p, e = .onHeartbeatAck p := by
  simp only [onHeartbeatAckPkt] at he
  split_ifs at he <;> simp at he
  exact ⟨_, he⟩

/-! What the INIT and HANDSHAKE handlers do to the endpoint and the session table. -/

@[simp] theorem onInitPkt_session : (onInitPkt z c ep pkt addr h).session = none := by
  simp only [onInitPkt]
  split_ifs <;> rfl

theorem onInitPkt_ep :
    (onInitPkt z c ep pkt addr h).ep = ep ∨
      (onInitPkt z c ep pkt addr h).ep = rotateIfDue z ep h := by
  simp only [onInitPkt]
  split_ifs <;> simp

theorem onInitPkt_sessionInit {a : SockAddr} :
    Effect.sessionInit a ∉ (onInitPkt z c ep pkt addr h).effects := by
  simp only [onInitPkt]
  split_ifs <;> simp
  intro he
  rcases sealAndSend_effects he with ⟨_, he⟩ | ⟨_, he⟩ <;> cases he

theorem onHandshakePkt_ep {session : Option Session} :
    (onHandshakePkt z c ep session pkt addr h).ep = ep ∨
      (onHandshakePkt z c ep session pkt addr h).ep = rotateIfDue z ep h := by
  rcases onHandshakePkt_cases (o := onHandshakePkt z c ep session pkt addr h) rfl with
    ⟨-, -, hep⟩ | ⟨-, -, -, ⟨hep, -⟩ | ⟨s, pre, ho, -⟩⟩
  · exact hep
  · exact .inr hep
  · rw [ho]
    exact .inr (handshakeXmit_ep ..)

theorem onHandshakePkt_admitted {a : SockAddr}
    (hs : (∃ s, (onHandshakePkt z c ep none pkt addr h).session = some s) ∨
      Effect.sessionInit a ∈ (onHandshakePkt z c ep none pkt addr h).effects) :
    z.pktHdrHandshakeLen + z.cookieLen = pkt.length ∧ (validateCookie z c ep pkt addr h).1 = 0 := by
  rcases onHandshakePkt_cases (o := onHandshakePkt z c ep none pkt addr h) rfl with
    ⟨he, hs', -⟩ | ⟨hl, hv, -⟩
  · rw [he, hs'] at hs
    simp at hs
  · exact ⟨hl, hv⟩

theorem onHandshakePkt_none_session {s : Session}
    (hs : (onHandshakePkt z c ep none pkt addr h).session = some s) :
    z.pktHdrHandshakeLen + z.cookieLen = pkt.length ∧ (validateCookie z c ep pkt addr h).1 = 0 ∧
      h.bufAlloc = true ∧ ∃ kp, h.newSession = some kp ∧
        ntorHandshake z c ep.introEcdhKeypair h.uninit (lodpSessionInit z addr
          (draw (fun i => h.stale (pktTlvLen + i)) z.ecdhPublicKeyLen) kp) (pkt.publicKey z) =
            (0, s) := by
  rcases onHandshakePkt_cases (o := onHandshakePkt z c ep none pkt addr h) rfl with
    ⟨-, hs', -⟩ | ⟨hl, hv, hb, ⟨-, hs', -⟩ | ⟨s', pre, ho, -, -, hs' | ⟨-, -, hkp⟩⟩⟩
  · cases hs.symm.trans hs'
  · cases hs.symm.trans hs'
  · cases hs'
  · rw [ho, handshakeXmit_session] at hs
    cases hs
    exact ⟨hl, hv, hb, hkp⟩

theorem handshakeXmit_cases (key : SymmetricKey) (pre : List Effect) :
    ((handshakeXmit z c ep h key addr pre s).ret = (encryptThenMac z c ep h key
        (handshakeAckPkt z s)).ret ∧ (handshakeXmit z c ep h key addr pre s).effects =
          pre ++ (encryptThenMac z c ep h key (handshakeAckPkt z s)).effects) ∨
    ((handshakeXmit z c ep h key addr pre s).ret = h.sendto ∧
      Effect.sendto (encryptThenMac z c ep h key (handshakeAckPkt z s)).ciphertext addr ∈
        (handshakeXmit z c ep h key addr pre s).effects) := by
  simp only [handshakeXmit]
  split_ifs
  · exact .inl ⟨rfl, rfl⟩
  · exact .inr ⟨rfl, by simp⟩

theorem handshakeXmit_onAccept {key : SymmetricKey} {pre : List Effect} {a : SockAddr}
    (hpre : Effect.onAccept a ∉ pre)
    (he : Effect.onAccept a ∈ (handshakeXmit z c ep h key addr pre s).effects) :
    (encryptThenMac z c ep h key (handshakeAckPkt z s)).ret = 0 := by
  simp only [handshakeXmit] at he
  split_ifs at he with h1
  · simp [hpre] at he
  · exact not_not.mp h1

theorem onHandshakePkt_none_onAccept {a : SockAddr}
    (he : Effect.onAccept a ∈ (onHandshakePkt z c ep none pkt addr h).effects) :
    z.pktHdrHandshakeLen + z.cookieLen = pkt.length ∧ (validateCookie z c ep pkt addr h).1 = 0 ∧
      h.bufAlloc = true ∧ ∃ s', (onHandshakePkt z c ep none pkt addr h).session = some s' ∧
        s'.isInitiator = false ∧ s'.seenPeerData = false ∧
        (encryptThenMac z c (rotateIfDue z ep h) h ⟨pkt.introMacKey z, pkt.introBulkKey z⟩
          (handshakeAckPkt z s')).ret = 0 := by
  rcases onHandshakePkt_cases (o := onHandshakePkt z c ep none pkt addr h) rfl with
    ⟨he', -⟩ | ⟨hl, hv, hb, ⟨-, -, hq⟩ | ⟨s, pre, ho, hpre, hseen, hs | ⟨-, hi, -⟩⟩⟩
  · simp [he'] at he
  · cases List.all_eq_true.mp hq _ he
  · cases hs
  · rw [ho] at he ⊢
    exact ⟨hl, hv, hb, s, handshakeXmit_session .., hi, hseen,
      handshakeXmit_onAccept (fun hm => by cases List.all_eq_true.mp hpre _ hm) he⟩

theorem onHandshakePkt_some_onAccept (hl : z.pktHdrHandshakeLen + z.cookieLen = pkt.length)
    (hv : (validateCookie z c ep pkt addr h).1 = 0) (hb : h.bufAlloc = true)
    (hs : s.seenPeerData = false)
    (he : (encryptThenMac z c (rotateIfDue z ep h) h ⟨pkt.introMacKey z, pkt.introBulkKey z⟩
      (handshakeAckPkt z s)).ret = 0) :
    Effect.onAccept addr ∈ (onHandshakePkt z c ep (some s) pkt addr h).effects := by
  simp [onHandshakePkt, ← hl, hv, hb, hs, handshakeXmit, he]

end Session

end Lodp
