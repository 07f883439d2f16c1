import Lodp.Handlers

/-! The ingress dispatcher `lodp_on_incoming_pkt`: key selection, header checks and routing. -/
namespace Lodp

variable (z : Sizes) (c : Crypto)

/-- The handler `lodp_on_incoming_pkt` calls, with the session it passes. -/
inductive Handler where
  | onInitPkt
  | onHandshakePkt (session : Option Session)
  | onDataPkt (s : Session)
  | onInitAckPkt (s : Session)
  | onHandshakeAckPkt (s : Session)
  | onHeartbeatPkt (s : Session)
  | onHeartbeatAckPkt (s : Session)
  deriving DecidableEq

/-- The endpoint-keys attempt of `lodp_on_incoming_pkt` (lines 112 to 117). -/
def decryptWithIntroKeys (ep : Endpoint) (buf : Buf) : Except Int (Bool × Buf) :=
  if !ep.hasIntroKeys then .error lodpErrNotResponder
  else
    let r := macThenDecrypt z c ep.introSymKeys buf
    if r.1 ≠ 0 then .error r.1 else .ok (false, r.2)

/-- Lines 98 to 117: the session keys first; on `LODP_ERR_INVALID_MAC`, or with no
session, the endpoint's intro keys. The result is `used_session_keys` and the buffer. -/
def decryptIncoming (ep : Endpoint) (session : Option Session) (buf : Buf) :
    Except Int (Bool × Buf) :=
  match session with
  | none => decryptWithIntroKeys z c ep buf
  | some s =>
    let r := macThenDecrypt z c s.rxKey buf
    if r.1 = 0 then .ok (true, r.2)
    else if lodpErrInvalidMac ≠ r.1 then .error r.1
    else decryptWithIntroKeys z c ep r.2

/-- The `switch` for packets under a session's own keys (lines 177 to 198). -/
def sessionHandler (s : Session) : Option PktType → Except Int Handler
  | some .data => .ok (.onDataPkt s)
  | some .initAck => .ok (.onInitAckPkt s)
  | some .handshakeAck => .ok (.onHandshakeAckPkt s)
  | some .heartbeat => .ok (.onHeartbeatPkt s)
  | some .heartbeatAck => .ok (.onHeartbeatAckPkt s)
  | _ => .error lodpErrBadPacket

/-- Lines 137 to 218: the header checks against `len = buf->len`, then the handler by
session, keys and type. -/
def route (session : Option Session) (usedSessionKeys : Bool) (len : Nat) (pkt : Pkt) :
    Except Int Handler :=
  if pkt.length < pktTlvLen then .error lodpErrBadPacket
  else if pkt.length > len - z.pktTagLen then .error lodpErrBadPacket
  else if pkt.flags ≠ 0 then .error lodpErrBadPacket
  else
    match session with
    | some s =>
      if !usedSessionKeys then
        if PktType.handshake.toByte ≠ pkt.type then .error lodpErrBadPacket
        else if s.isInitiator then .error lodpErrNotResponder
        else .ok (.onHandshakePkt (some s))
      else sessionHandler s (PktType.ofByte pkt.type)
    | none =>
      match PktType.ofByte pkt.type with
      | some .init => .ok .onInitPkt
      | some .handshake => .ok (.onHandshakePkt none)
      | _ => .error lodpErrBadPacket

/-- `lodp_on_incoming_pkt` up to the handler call: the handler and the decrypted packet,
or the status it returns without calling one. -/
def demux (ep : Endpoint) (session : Option Session) (buf : Buf) : Except Int (Handler × Pkt) :=
  match decryptIncoming z c ep session buf with
  | .error e => .error e
  | .ok (used, b) =>
    match route z session used buf.ciphertext.length (Pkt.parse b.plaintext) with
    | .error e => .error e
    | .ok hd => .ok (hd, Pkt.parse b.plaintext)

/-- The handler call of `lodp_on_incoming_pkt`. -/
def runHandler (ep : Endpoint) (addr : SockAddr) (h : Host) (pkt : Pkt) : Handler → Outcome
  | .onInitPkt => onInitPkt z c ep pkt addr h
  | .onHandshakePkt session => onHandshakePkt z c ep session pkt addr h
  | .onDataPkt s => onDataPkt z ep s pkt h
  | .onInitAckPkt s => onInitAckPkt z c ep s pkt h
  | .onHandshakeAckPkt s => onHandshakeAckPkt z c ep s pkt h
  | .onHeartbeatPkt s => onHeartbeatPkt z c ep s pkt h
  | .onHeartbeatAckPkt s => onHeartbeatAckPkt ep s pkt

/-- `lodp_on_incoming_pkt`, for a buffer whose `len` the caller has checked. -/
def lodpOnIncomingPkt (ep : Endpoint) (session : Option Session) (buf : Buf) (addr : SockAddr)
    (h : Host) : Outcome :=
  match demux z c ep session buf with
  | .error e => ⟨e, ep, session, []⟩
  | .ok (hd, pkt) => runHandler z c ep addr h pkt hd

variable {z c}

theorem macThenDecrypt_plaintext {keys : SymmetricKey} {ct p : Bytes} (p' : Bytes)
    (h0 : (macThenDecrypt z c keys ⟨ct, p⟩).1 = 0) :
    macThenDecrypt z c keys ⟨ct, p'⟩ = macThenDecrypt z c keys ⟨ct, p⟩ := by
  simp only [macThenDecrypt] at h0 ⊢
  split_ifs at h0 ⊢ with h1 h2
  · exact absurd h0 h1
  · simp [lodpErrInvalidMac] at h0
  · rfl

theorem macThenDecrypt_ciphertext (keys : SymmetricKey) (buf : Buf) :
    (macThenDecrypt z c keys buf).2.ciphertext = buf.ciphertext := by
  simp only [macThenDecrypt]
  split_ifs <;> rfl

theorem decryptWithIntroKeys_ok {ep : Endpoint} {buf b : Buf} {used : Bool}
    (h : decryptWithIntroKeys z c ep buf = .ok (used, b)) :
    used = false ∧ ep.hasIntroKeys = true ∧ macThenDecrypt z c ep.introSymKeys buf = (0, b) := by
  simp only [decryptWithIntroKeys] at h
  split_ifs at h with h1 h2
  cases h
  exact ⟨rfl, by simpa using h1, Prod.ext (not_not.mp h2) rfl⟩

theorem decryptIncoming_ok {ep : Endpoint} {session : Option Session} {buf b : Buf}
    {used : Bool} (h : decryptIncoming z c ep session buf = .ok (used, b)) :
    (used = true ∧ ∃ s, session = some s ∧ macThenDecrypt z c s.rxKey buf = (0, b)) ∨
      (used = false ∧ ep.hasIntroKeys = true ∧
        macThenDecrypt z c ep.introSymKeys buf = (0, b) ∧
        ∀ s, session = some s → (macThenDecrypt z c s.rxKey buf).1 = lodpErrInvalidMac) := by
  rcases session with _ | s
  · obtain ⟨h1, h2, h3⟩ := decryptWithIntroKeys_ok h
    exact .inr ⟨h1, h2, h3, by simp⟩
  · simp only [decryptIncoming] at h
    split_ifs at h with h1 h2
    · cases h
      exact .inl ⟨rfl, s, rfl, Prod.ext h1 rfl⟩
    · obtain ⟨h3, h4, h5⟩ := decryptWithIntroKeys_ok h
      have hct : (macThenDecrypt z c s.rxKey buf).2 =
          ⟨buf.ciphertext, (macThenDecrypt z c s.rxKey buf).2.plaintext⟩ := by
        rw [← macThenDecrypt_ciphertext s.rxKey buf]
      rw [hct] at h5
      refine .inr ⟨h3, h4, (macThenDecrypt_plaintext buf.plaintext (by rw [h5])).trans h5,
        fun s' hs => ?_⟩
      cases hs
      exact (not_not.mp h2).symm

theorem sessionHandler_ok {s : Session} {t : Option PktType} {hd : Handler}
    (h : sessionHandler s t = .ok hd) :
    t = some .data ∧ hd = .onDataPkt s ∨ t = some .initAck ∧ hd = .onInitAckPkt s ∨
      t = some .handshakeAck ∧ hd = .onHandshakeAckPkt s ∨
      t = some .heartbeat ∧ hd = .onHeartbeatPkt s ∨
      t = some .heartbeatAck ∧ hd = .onHeartbeatAckPkt s := by
  rcases t with _ | t
  · cases h
  · cases t <;> cases h <;> simp

theorem route_ok {session : Option Session} {used : Bool} {len : Nat} {pkt : Pkt}
    {hd : Handler} (h : route z session used len pkt = .ok hd) :
    pkt.flags = 0 ∧ pktTlvLen ≤ pkt.length ∧ pkt.length ≤ len - z.pktTagLen ∧
      ((∃ s, session = some s ∧ used = true ∧ sessionHandler s (PktType.ofByte pkt.type) = .ok hd) ∨
       (∃ s, session = some s ∧ used = false ∧ s.isInitiator = false ∧
          pkt.type = PktType.handshake.toByte ∧ hd = .onHandshakePkt (some s)) ∨
       (session = none ∧ (PktType.ofByte pkt.type = some .init ∧ hd = .onInitPkt ∨
          PktType.ofByte pkt.type = some .handshake ∧ hd = .onHandshakePkt none))) := by
  unfold route at h
  by_cases h1 : pkt.length < pktTlvLen
  · rw [if_pos h1] at h
    cases h
  rw [if_neg h1] at h
  by_cases h2 : pkt.length > len - z.pktTagLen
  · rw [if_pos h2] at h
    cases h
  rw [if_neg h2] at h
  by_cases h3 : pkt.flags = 0
  swap
  · rw [if_pos h3] at h
    cases h
  rw [if_neg (not_not.mpr h3)] at h
  refine ⟨h3, by omega, by omega, ?_⟩
  rcases session with _ | s <;> dsimp only at h
  · refine .inr (.inr ⟨rfl, ?_⟩)
    split at h <;> cases h <;> simp_all
  cases hu : used
  · rw [hu, if_pos (by decide : (!false) = true)] at h
    by_cases h5 : PktType.handshake.toByte = pkt.type
    swap
    · rw [if_pos h5] at h
      cases h
    rw [if_neg (not_not.mpr h5)] at h
    cases hi : s.isInitiator
    · rw [hi, if_neg Bool.false_ne_true] at h
      cases h
      exact .inr (.inl ⟨s, rfl, rfl, hi, h5.symm, rfl⟩)
    · rw [hi, if_pos rfl] at h
      cases h
  · rw [hu, if_neg (by decide : ¬(!true) = true)] at h
    exact .inl ⟨s, rfl, rfl, h⟩

theorem demux_ok {ep : Endpoint} {session : Option Session} {buf : Buf} {hd : Handler}
    {pkt : Pkt} (h : demux z c ep session buf = .ok (hd, pkt)) :
    ∃ used b, decryptIncoming z c ep session buf = .ok (used, b) ∧ pkt = Pkt.parse b.plaintext ∧
      route z session used buf.ciphertext.length pkt = .ok hd := by
  unfold demux at h
  split at h
  · cases h
  · split at h
    · cases h
    · cases h
      exact ⟨_, _, ‹_›, rfl, ‹_›⟩

theorem demux_some {ep : Endpoint} {s : Session} {buf : Buf} {hd : Handler} {pkt : Pkt}
    (h : demux z c ep (some s) buf = .ok (hd, pkt)) :
    (hd = .onHandshakePkt (some s) ∧ s.isInitiator = false) ∨ hd = .onDataPkt s ∨
      hd = .onInitAckPkt s ∨ hd = .onHandshakeAckPkt s ∨ hd = .onHeartbeatPkt s ∨
      hd = .onHeartbeatAckPkt s := by
  obtain ⟨_, _, -, -, hr⟩ := demux_ok h
  obtain ⟨-, -, -, ⟨s', hs, -, hh⟩ | ⟨s', hs, -, hi, -, rfl⟩ | ⟨hs, -⟩⟩ := route_ok hr
  · cases hs
    rcases sessionHandler_ok hh with ⟨-, rfl⟩ | ⟨-, rfl⟩ | ⟨-, rfl⟩ | ⟨-, rfl⟩ | ⟨-, rfl⟩ <;> simp
  · cases hs
    exact .inl ⟨rfl, hi⟩
  · cases hs

theorem demux_none {ep : Endpoint} {buf : Buf} {hd : Handler} {pkt : Pkt}
    (h : demux z c ep none buf = .ok (hd, pkt)) :
    hd = .onInitPkt ∨ (hd = .onHandshakePkt none ∧ pkt.type = PktType.handshake.toByte) := by
  obtain ⟨_, _, -, -, hr⟩ := demux_ok h
  obtain ⟨-, -, -, ⟨s', hs, -⟩ | ⟨s', hs, -⟩ | ⟨-, ⟨-, rfl⟩ | ⟨ht, rfl⟩⟩⟩ := route_ok hr
  · cases hs
  · cases hs
  · exact .inl rfl
  · exact .inr ⟨rfl, PktType.toByte_of_ofByte ht⟩

theorem demux_retransmit {ep ep' : Endpoint} {s : Session} {buf : Buf} {pkt : Pkt}
    (h : demux z c ep none buf = .ok (.onHandshakePkt none, pkt))
    (hk : ep'.hasIntroKeys = ep.hasIntroKeys) (he : ep'.introSymKeys = ep.introSymKeys)
    (hm : (macThenDecrypt z c s.rxKey buf).1 = lodpErrInvalidMac) (hi : s.isInitiator = false) :
    demux z c ep' (some s) buf = .ok (.onHandshakePkt (some s), pkt) := by
  obtain ⟨used, b, hdec, rfl, hr⟩ := demux_ok h
  obtain ⟨rfl, hk0, hb⟩ := decryptWithIntroKeys_ok hdec
  obtain ⟨hf, hl, hu, ⟨_, hs, -⟩ | ⟨_, hs, -⟩ | ⟨-, ⟨-, hd⟩ | ⟨ht, -⟩⟩⟩ := route_ok hr
  · cases hs
  · cases hs
  · cases hd
  have hct : (macThenDecrypt z c s.rxKey buf).2 =
      ⟨buf.ciphertext, (macThenDecrypt z c s.rxKey buf).2.plaintext⟩ := by
    rw [← macThenDecrypt_ciphertext s.rxKey buf]
  have hb' : macThenDecrypt z c ep'.introSymKeys (macThenDecrypt z c s.rxKey buf).2 = (0, b) := by
    rw [hct, he, macThenDecrypt_plaintext _ (by rw [hb]), hb]
  have hdec' : decryptIncoming z c ep' (some s) buf = .ok (false, b) := by
    simp [decryptIncoming, hm, lodpErrInvalidMac, decryptWithIntroKeys, hk, hk0, hb']
  have hr' : route z (some s) false buf.ciphertext.length (Pkt.parse b.plaintext) =
      .ok (.onHandshakePkt (some s)) := by
    rw [route, if_neg (by omega), if_neg (by omega), if_neg (by simp [hf])]
    simp [hi, (PktType.toByte_of_ofByte ht).symm]
  simp only [demux, hdec', hr']

/-- Key separation in the dispatcher: `lodp_on_incoming_pkt` calls a handler only for a
packet with `flags = 0` and `4 <= length <= len - PKT_TAG_LEN`, and either (a) the
session's `rx_key` verified it, and the handler is the one its type selects among DATA,
INIT ACK, HANDSHAKE ACK, HEARTBEAT and HEARTBEAT ACK, any other type giving
`LODP_ERR_BAD_PACKET`; or (b) the endpoint has intro keys, they verified it, the session's
keys (if any) failed with exactly `LODP_ERR_INVALID_MAC`, and the handler is `on_init_pkt`
or `on_handshake_pkt` with no session, or `on_handshake_pkt` for a responder session and a
HANDSHAKE. -/
theorem demux_key_separation (ep : Endpoint) (session : Option Session) (buf : Buf) :
    (∀ hd pkt, demux z c ep session buf = .ok (hd, pkt) →
      pkt.flags = 0 ∧ pktTlvLen ≤ pkt.length ∧ pkt.length ≤ buf.ciphertext.length - z.pktTagLen ∧
      ((∃ s b, session = some s ∧ macThenDecrypt z c s.rxKey buf = (0, b) ∧
          pkt = Pkt.parse b.plaintext ∧ sessionHandler s (PktType.ofByte pkt.type) = .ok hd) ∨
       (∃ b, ep.hasIntroKeys = true ∧ macThenDecrypt z c ep.introSymKeys buf = (0, b) ∧
          pkt = Pkt.parse b.plaintext ∧
          (∀ s, session = some s → (macThenDecrypt z c s.rxKey buf).1 = lodpErrInvalidMac) ∧
          ((session = none ∧ (PktType.ofByte pkt.type = some .init ∧ hd = .onInitPkt ∨
              PktType.ofByte pkt.type = some .handshake ∧ hd = .onHandshakePkt none)) ∨
           ∃ s, session = some s ∧ s.isInitiator = false ∧
              pkt.type = PktType.handshake.toByte ∧ hd = .onHandshakePkt (some s))))) ∧
    (∀ s b, session = some s → macThenDecrypt z c s.rxKey buf = (0, b) →
      PktType.ofByte (Pkt.parse b.plaintext).type ∉
        [some .data, some .initAck, some .handshakeAck, some .heartbeat, some .heartbeatAck] →
      demux z c ep session buf = .error lodpErrBadPacket) := by
  constructor
  · intro hd pkt h
    obtain ⟨used, b, hdec, rfl, hr⟩ := demux_ok h
    obtain ⟨hf, hl, hu, hcase⟩ := route_ok hr
    refine ⟨hf, hl, hu, ?_⟩
    rcases decryptIncoming_ok hdec with ⟨rfl, s, rfl, hm⟩ | ⟨rfl, hk, hm, hinv⟩
    · rcases hcase with ⟨s', hs', -, hh⟩ | ⟨s', -, hu', -⟩ | ⟨hs', -⟩
      · cases hs'
        exact .inl ⟨s, b, rfl, hm, rfl, hh⟩
      · cases hu'
      · cases hs'
    · refine .inr ⟨b, hk, hm, rfl, hinv, ?_⟩
      rcases hcase with ⟨s', -, hu', -⟩ | ⟨s', hs', -, hi, ht, rfl⟩ | hn
      · cases hu'
      · exact .inr ⟨s', hs', hi, ht, rfl⟩
      · exact .inl hn
  · rintro s b rfl hm ht
    have hdec : decryptIncoming z c ep (some s) buf = .ok (true, b) := by
      simp [decryptIncoming, hm]
    simp only [demux, hdec, route, Bool.not_true, Bool.false_eq_true, ↓reduceIte]
    split_ifs
    · rfl
    · rfl
    · rfl
    · rcases hs : PktType.ofByte (Pkt.parse b.plaintext).type with _ | t
      · rfl
      · rw [hs] at ht
        cases t <;> first | rfl | exact absurd (by decide) ht

theorem route_session {s : Session} {len : Nat} {pkt : Pkt} (hmin : pktTlvLen ≤ pkt.length)
    (hmax : pkt.length ≤ len - z.pktTagLen) (hf : pkt.flags = 0) :
    route z (some s) true len pkt = sessionHandler s (PktType.ofByte pkt.type) := by
  rw [route, if_neg (by omega), if_neg (by omega), if_neg (by simp [hf])]
  rfl

theorem route_none {len : Nat} {pkt : Pkt} (hmin : pktTlvLen ≤ pkt.length)
    (hmax : pkt.length ≤ len - z.pktTagLen) (hf : pkt.flags = 0) :
    route z none false len pkt = match PktType.ofByte pkt.type with
      | some .init => .ok .onInitPkt
      | some .handshake => .ok (.onHandshakePkt none)
      | _ => .error lodpErrBadPacket := by
  rw [route, if_neg (by omega), if_neg (by omega), if_neg (by simp [hf])]

theorem demux_session_ok {ep : Endpoint} {s : Session} {buf b : Buf} {hd : Handler}
    (hm : macThenDecrypt z c s.rxKey buf = (0, b))
    (hr : route z (some s) true buf.ciphertext.length (Pkt.parse b.plaintext) = .ok hd) :
    demux z c ep (some s) buf = .ok (hd, Pkt.parse b.plaintext) := by
  simp [demux, decryptIncoming, hm, hr]

theorem demux_none_ok {ep : Endpoint} {buf b : Buf} {hd : Handler} (hk : ep.hasIntroKeys = true)
    (hm : macThenDecrypt z c ep.introSymKeys buf = (0, b))
    (hr : route z none false buf.ciphertext.length (Pkt.parse b.plaintext) = .ok hd) :
    demux z c ep none buf = .ok (hd, Pkt.parse b.plaintext) := by
  simp [demux, decryptIncoming, decryptWithIntroKeys, hk, hm, hr]

/-- A HEARTBEAT that fills an MSS-sized datagram passes every header check, and the
HEARTBEAT ACK that echoes it is `LODP_MSS` long, so `assert(buf->len < LODP_MSS)` in
`on_heartbeat_pkt` fails. -/
theorem heartbeat_echo_at_mss {ep : Endpoint} {s : Session} {buf : Buf} {addr : SockAddr}
    {h : Host} (hs : s.state = .established) (hlen : buf.ciphertext.length = z.mss)
    (hmin : z.pktTagLen + pktTlvLen ≤ z.mss) (hm : (macThenDecrypt z c s.rxKey buf).1 = 0)
    (ht : (Pkt.parse (macThenDecrypt z c s.rxKey buf).2.plaintext).type =
      PktType.heartbeat.toByte)
    (hf : (Pkt.parse (macThenDecrypt z c s.rxKey buf).2.plaintext).flags = 0)
    (hl : (Pkt.parse (macThenDecrypt z c s.rxKey buf).2.plaintext).length = z.mss - z.pktTagLen)
    (hb : h.bufAlloc = true) :
    Effect.assert .bufLen false ∈ (lodpOnIncomingPkt z c ep (some s) buf addr h).effects := by
  have hd : demux z c ep (some s) buf = _ := demux_session_ok (Prod.ext hm rfl)
    ((route_session (by omega) (by omega) hf).trans (by rw [ht]; rfl))
  generalize Pkt.parse (macThenDecrypt z c s.rxKey buf).2.plaintext = pkt at hd hl
  simp only [Sizes.pktTagLen, pktTlvLen] at hl hmin
  simp [lodpOnIncomingPkt, hd, runHandler, onHeartbeatPkt, hs, hb, pktTlvLen]
  exact .inl (by omega)

/-- The failing input: under `Sizes.small` (`LODP_MSS = 16`), a 16-byte datagram whose
plaintext is a HEARTBEAT of `length = 13`. -/
theorem heartbeat_echo_at_mss_small :
    Effect.assert .bufLen false ∈ (lodpOnIncomingPkt Sizes.small Crypto.toy ⟨⟨[], []⟩,
      ⟨[], []⟩, false, [], [], 0, 0, ⟨false, false⟩⟩
      (some ⟨.other 0, false, .established, ⟨[], []⟩, [], ⟨[0, 0], [0, 0]⟩, ⟨[0, 0], [0, 0]⟩,
        [], [], none, 0, true⟩)
      ⟨[18, 18, 0, 5, 0, 0, 13, 0, 0, 0, 0, 0, 0, 0, 0, 0], []⟩ (.other 0)
      ⟨0, true, true, none, fun _ => 0, fun _ => 0, fun _ => 0, fun _ => 0, 0, 0, 0, 0⟩).effects :=
  heartbeat_echo_at_mss rfl rfl (by decide) rfl rfl rfl rfl rfl

end Lodp
