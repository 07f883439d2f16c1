import Mathlib.Logic.Relation
import Lodp.Handshake

/-! One endpoint over a run: the session table, the events the host hands it, and the step. -/
namespace Lodp

/-- Modelled from the spec: the endpoint-owned session table of `lodp.c`, which is not in the
repository, keyed by peer address (§8). -/
structure System where
  ep : Endpoint
  sessions : SockAddr → Option Session

/-- What the host does to an endpoint: hand it a datagram from `addr`, or call
`lodp_rotate_cookie_key`. Each carries what the host supplies during that call. -/
inductive Event where
  | packet (addr : SockAddr) (buf : Buf) (h : Host)
  | rotate (h : Host)

variable (z : Sizes) (c : Crypto)

/-- Modelled from the spec: the receive path of `lodp.c`, which is not in the repository,
looks up the session of the source address, calls `lodp_on_incoming_pkt`, and keeps the
session the call leaves (§8). -/
def step (sys : System) : Event → System × List Effect
  | .packet addr buf h =>
    let o := lodpOnIncomingPkt z c sys.ep (sys.sessions addr) buf addr h
    (⟨o.ep, Function.update sys.sessions addr o.session⟩, o.effects)
  | .rotate h => (⟨lodpRotateCookieKey z sys.ep h, sys.sessions⟩, [])

/-- A run: the final state, and the effects of every step in order. -/
def run (sys : System) : List Event → System × List Effect
  | [] => (sys, [])
  | e :: es =>
    let r := run (step z c sys e).1 es
    (r.1, (step z c sys e).2 ++ r.2)

@[simp] theorem run_nil (sys : System) : run z c sys [] = (sys, []) := rfl

@[simp] theorem run_cons (sys : System) (e : Event) (es : List Event) :
    run z c sys (e :: es) =
      ((run z c (step z c sys e).1 es).1,
        (step z c sys e).2 ++ (run z c (step z c sys e).1 es).2) :=
  rfl

/-- One step of a session as the state machine of §4 draws it: the state moves along
INIT → HANDSHAKE, INIT → ERROR, HANDSHAKE → ESTABLISHED or HANDSHAKE → ERROR, or stays; the
role never changes and a responder's state never does; `seen_peer_data` only goes from 0 to
1, in ESTABLISHED. -/
structure SessionStep (s s' : Session) : Prop where
  edge : s'.state = s.state ∨ s.state = .init ∧ (s'.state = .handshake ∨ s'.state = .error) ∨
    s.state = .handshake ∧ (s'.state = .established ∨ s'.state = .error)
  role : s'.isInitiator = s.isInitiator
  responder : s.isInitiator = false → s'.state = s.state
  seen : s'.seenPeerData = s.seenPeerData ∨
    s.seenPeerData = false ∧ s'.seenPeerData = true ∧ s.state = .established

theorem SessionStep.refl (s : Session) : SessionStep s s :=
  ⟨.inl rfl, rfl, fun _ => rfl, .inl rfl⟩

variable {z c}

theorem SessionStep.of_initiator {s s' : Session} (hi : s.isInitiator = true)
    (hr : s'.isInitiator = s.isInitiator) (hs : s'.seenPeerData = s.seenPeerData)
    (he : s.state = .init ∧ (s'.state = .handshake ∨ s'.state = .error) ∨
      s.state = .handshake ∧ (s'.state = .established ∨ s'.state = .error)) :
    SessionStep s s' :=
  ⟨.inr he, hr, fun h => by simp [hi] at h, .inl hs⟩

section Dispatch
variable {ep : Endpoint} {s : Session} {buf : Buf} {addr : SockAddr} {h : Host}

theorem lodpOnIncomingPkt_some :
    ∃ s', (lodpOnIncomingPkt z c ep (some s) buf addr h).session = some s' ∧ SessionStep s s' ∧
      (s'.seenPeerData ≠ s.seenPeerData →
        ∃ pkt, demux z c ep (some s) buf = .ok (.onDataPkt s, pkt)) ∧
      (s'.state ≠ s.state → ∃ pkt,
        demux z c ep (some s) buf = .ok (.onInitAckPkt s, pkt) ∧ s.state = .init ∧
          (s'.state = .handshake ∨ s'.state = .error ∧ h.cookieAlloc = false) ∨
        demux z c ep (some s) buf = .ok (.onHandshakeAckPkt s, pkt) ∧ s.state = .handshake) := by
  unfold lodpOnIncomingPkt
  split
  · exact ⟨s, rfl, .refl s, fun h => absurd rfl h, fun h => absurd rfl h⟩
  · rename_i hd pkt hdm
    rcases demux_some hdm with ⟨rfl, -⟩ | rfl | rfl | rfl | rfl | rfl
    · exact ⟨s, by simp [runHandler], .refl s, fun h => absurd rfl h, fun h => absurd rfl h⟩
    · obtain ⟨s', hs', hst, hr, hseen⟩ := @onDataPkt_session z ep s pkt h
      refine ⟨s', hs', ⟨.inl hst, hr, fun _ => hst, ?_⟩, fun _ => ⟨pkt, hdm⟩,
        fun h => absurd hst h⟩
      rcases hseen with hseen | ⟨hest, hseen⟩
      · exact .inl hseen
      · cases hsd : s.seenPeerData
        · exact .inr ⟨rfl, hseen, hest⟩
        · exact .inl hseen
    · obtain ⟨s', hs', hr, hseen, rfl | ⟨hi, hst, he⟩⟩ :=
        @onInitAckPkt_session z c ep s pkt h
      · exact ⟨_, hs', .refl _, fun h => absurd rfl h, fun h => absurd rfl h⟩
      · exact ⟨s', hs', .of_initiator hi hr hseen (.inl ⟨hst, he.imp_right And.left⟩),
          fun h => absurd hseen h, fun _ => ⟨pkt, .inl ⟨hdm, hst, he⟩⟩⟩
    · obtain ⟨s', hs', hr, hseen, rfl | ⟨hi, he⟩⟩ :=
        @onHandshakeAckPkt_session z c ep s pkt h
      · exact ⟨_, hs', .refl _, fun h => absurd rfl h, fun h => absurd rfl h⟩
      · exact ⟨s', hs', .of_initiator hi hr hseen (.inr he), fun h => absurd hseen h,
          fun _ => ⟨pkt, .inr ⟨hdm, he.1⟩⟩⟩
    · exact ⟨s, by simp [runHandler], .refl s, fun h => absurd rfl h, fun h => absurd rfl h⟩
    · exact ⟨s, by simp [runHandler], .refl s, fun h => absurd rfl h, fun h => absurd rfl h⟩

theorem lodpOnIncomingPkt_onRecv {session : Option Session} {p : Bytes}
    (he : Effect.onRecv p ∈ (lodpOnIncomingPkt z c ep session buf addr h).effects) :
    ∃ s pkt, session = some s ∧ demux z c ep session buf = .ok (.onDataPkt s, pkt) ∧
      s.state = .established := by
  unfold lodpOnIncomingPkt at he
  split at he
  · simp at he
  · rename_i hd pkt hdm
    cases hd with
    | onDataPkt s =>
      rcases session with _ | s0
      · rcases demux_none hdm with h1 | ⟨h1, -⟩ <;> cases h1
      · rcases demux_some hdm with ⟨h1, -⟩ | h1 | h1 | h1 | h1 | h1 <;> cases h1
        exact ⟨_, pkt, rfl, hdm, onDataPkt_onRecv he⟩
    | onInitPkt => exact absurd he (onInitPkt_callback rfl)
    | onHandshakePkt _ => cases onHandshakePkt_callback (e := .onRecv p) rfl he
    | onInitAckPkt _ =>
      obtain ⟨_, h1⟩ := onInitAckPkt_callback (e := .onRecv p) rfl he
      cases h1
    | onHandshakeAckPkt _ =>
      obtain ⟨_, h1⟩ := onHandshakeAckPkt_callback (e := .onRecv p) rfl he
      cases h1
    | onHeartbeatPkt _ => exact absurd he (onHeartbeatPkt_callback rfl)
    | onHeartbeatAckPkt _ => obtain ⟨_, h1⟩ := onHeartbeatAckPkt_callback he; cases h1

theorem lodpOnIncomingPkt_onHeartbeatAck {session : Option Session} {p : Bytes}
    (he : Effect.onHeartbeatAck p ∈ (lodpOnIncomingPkt z c ep session buf addr h).effects) :
    ∃ s pkt, session = some s ∧ demux z c ep session buf = .ok (.onHeartbeatAckPkt s, pkt) ∧
      s.state = .established := by
  unfold lodpOnIncomingPkt at he
  split at he
  · simp at he
  · rename_i hd pkt hdm
    cases hd with
    | onHeartbeatAckPkt s =>
      rcases session with _ | s0
      · rcases demux_none hdm with h1 | ⟨h1, -⟩ <;> cases h1
      · rcases demux_some hdm with ⟨h1, -⟩ | h1 | h1 | h1 | h1 | h1 <;> cases h1
        exact ⟨_, pkt, rfl, hdm, onHeartbeatAckPkt_onHeartbeatAck he⟩
    | onInitPkt => exact absurd he (onInitPkt_callback rfl)
    | onHandshakePkt _ => cases onHandshakePkt_callback (e := .onHeartbeatAck p) rfl he
    | onDataPkt _ =>
      obtain ⟨_, h1⟩ := onDataPkt_callback (e := .onHeartbeatAck p) rfl he
      cases h1
    | onInitAckPkt _ =>
      obtain ⟨_, h1⟩ := onInitAckPkt_callback (e := .onHeartbeatAck p) rfl he
      cases h1
    | onHandshakeAckPkt _ =>
      obtain ⟨_, h1⟩ := onHandshakeAckPkt_callback (e := .onHeartbeatAck p) rfl he
      cases h1
    | onHeartbeatPkt _ => exact absurd he (onHeartbeatPkt_callback rfl)

end Dispatch

theorem SessionStep.rtg {s s' : Session} (h : Relation.ReflTransGen SessionStep s s') :
    s'.isInitiator = s.isInitiator ∧ (s.state = .established → s'.state = .established) ∧
      (s.state = .error → s'.state = .error) ∧ (s.isInitiator = false → s'.state = s.state) ∧
      (s.seenPeerData = true → s'.seenPeerData = true) := by
  induction h with
  | refl => exact ⟨rfl, id, id, fun _ => rfl, id⟩
  | tail _ hst ih =>
    obtain ⟨hr, he, hx, hi, hs⟩ := ih
    obtain ⟨edge, role, resp, seen⟩ := hst
    refine ⟨role.trans hr, fun h => ?_, fun h => ?_, fun h => (resp (hr.trans h)).trans (hi h),
      fun h => ?_⟩
    · rcases edge with e | ⟨e, -⟩ | ⟨e, -⟩ <;> simp_all
    · rcases edge with e | ⟨e, -⟩ | ⟨e, -⟩ <;> simp_all
    · rcases seen with e | ⟨-, e, -⟩ <;> simp_all

theorem step_sessions {sys : System} {a : SockAddr} {s : Session} (e : Event)
    (hs : sys.sessions a = some s) :
    ∃ s', (step z c sys e).1.sessions a = some s' ∧ SessionStep s s' := by
  cases e with
  | packet a' buf h =>
    by_cases ha : a = a'
    · subst ha
      obtain ⟨s', h1, h2, -⟩ := @lodpOnIncomingPkt_some z c sys.ep s buf a h
      exact ⟨s', by simp [step, hs, h1], h2⟩
    · exact ⟨s, by simp [step, Function.update_noteq ha, hs], .refl s⟩
  | rotate h => exact ⟨s, hs, .refl s⟩

theorem run_sessions {sys : System} {a : SockAddr} {s : Session} (es : List Event)
    (hs : sys.sessions a = some s) :
    ∃ s', (run z c sys es).1.sessions a = some s' ∧ Relation.ReflTransGen SessionStep s s' := by
  induction es generalizing sys s with
  | nil => exact ⟨s, hs, .refl⟩
  | cons e es ih =>
    obtain ⟨s₁, h₁, hst⟩ := step_sessions (z := z) (c := c) e hs
    obtain ⟨s', h', hrt⟩ := ih h₁
    exact ⟨s', h', .head hst hrt⟩

/-- The session state machine, for every session and every packet the dispatcher processes
for it, and over every run of the endpoint. -/
structure SessionMachine (z : Sizes) (c : Crypto) : Prop where
  /-- A packet for a session moves it one `SessionStep`; only `on_data_pkt` changes
  `seen_peer_data`, and only `on_init_ack_pkt` (INIT to HANDSHAKE, or to ERROR when the cookie
  allocation fails) and `on_handshake_ack_pkt` (from HANDSHAKE) change the state. -/
  move : ∀ ep s buf addr h, ∃ s', (lodpOnIncomingPkt z c ep (some s) buf addr h).session = some s' ∧
    SessionStep s s' ∧
    (s'.seenPeerData ≠ s.seenPeerData →
      ∃ pkt, demux z c ep (some s) buf = .ok (.onDataPkt s, pkt)) ∧
    (s'.state ≠ s.state → ∃ pkt,
      demux z c ep (some s) buf = .ok (.onInitAckPkt s, pkt) ∧ s.state = .init ∧
        (s'.state = .handshake ∨ s'.state = .error ∧ h.cookieAlloc = false) ∨
      demux z c ep (some s) buf = .ok (.onHandshakeAckPkt s, pkt) ∧ s.state = .handshake)
  /-- Over a run, ESTABLISHED and ERROR are never left, a responder's state never changes, and
  `seen_peer_data` is never cleared. -/
  lifetime : ∀ sys es a s, sys.sessions a = some s → ∃ s', (run z c sys es).1.sessions a = some s' ∧
    Relation.ReflTransGen SessionStep s s' ∧ s'.isInitiator = s.isInitiator ∧
    (s.state = .established → s'.state = .established) ∧ (s.state = .error → s'.state = .error) ∧
    (s.isInitiator = false → s'.state = s.state) ∧ (s.seenPeerData = true → s'.seenPeerData = true)
  /-- `on_recv_fn` is called only by `on_data_pkt`, in ESTABLISHED. -/
  recv : ∀ ep session buf addr h p,
    Effect.onRecv p ∈ (lodpOnIncomingPkt z c ep session buf addr h).effects →
    ∃ s pkt, session = some s ∧ demux z c ep session buf = .ok (.onDataPkt s, pkt) ∧
      s.state = .established
  /-- `on_heartbeat_ack_fn` is called only by `on_heartbeat_ack_pkt`, in ESTABLISHED. -/
  heartbeatAck : ∀ ep session buf addr h p,
    Effect.onHeartbeatAck p ∈ (lodpOnIncomingPkt z c ep session buf addr h).effects →
    ∃ s pkt, session = some s ∧ demux z c ep session buf = .ok (.onHeartbeatAckPkt s, pkt) ∧
      s.state = .established
  /-- A HEARTBEAT ACK is sent only in ESTABLISHED. -/
  echo : ∀ ep s buf addr h pkt b a, demux z c ep (some s) buf = .ok (.onHeartbeatPkt s, pkt) →
    Effect.sendto b a ∈ (lodpOnIncomingPkt z c ep (some s) buf addr h).effects →
    s.state = .established

theorem session_state_machine : SessionMachine z c where
  move _ _ _ _ _ := lodpOnIncomingPkt_some
  lifetime _ es _ _ hs := by
    obtain ⟨s', h1, h2⟩ := run_sessions (z := z) (c := c) es hs
    exact ⟨s', h1, h2, SessionStep.rtg h2⟩
  recv _ _ _ _ _ _ he := lodpOnIncomingPkt_onRecv he
  heartbeatAck _ _ _ _ _ _ he := lodpOnIncomingPkt_onHeartbeatAck he
  echo _ _ _ _ _ _ _ _ hd he := by
    simp only [lodpOnIncomingPkt, hd, runHandler] at he
    exact onHeartbeatPkt_sendto_established he

/-! The responder side: no state before the cookie round trip, cookies only of the current
key, and a HANDSHAKE that can be replayed. -/

section Responder
variable {ep : Endpoint} {buf : Buf} {addr : SockAddr} {h : Host}

theorem ep_of_rotateIfDue {ep' : Endpoint} (he : ep' = ep ∨ ep' = rotateIfDue z ep h) :
    ep' = ep ∨ (h.now > ep.cookieRotateTime + cookieRotateInterval ∧
      ep' = lodpRotateCookieKey z ep h) := by
  rcases he with rfl | rfl
  · exact .inl rfl
  · exact rotateIfDue_cases

/-- Stateless until the cookie round trip: without a session, the dispatcher keeps a new
session, or calls `lodp_session_init`, only for a HANDSHAKE of length
`PKT_HDR_HANDSHAKE_LEN + COOKIE_LEN` whose cookie passed the check; an INIT, or any packet
rejected before that point, creates none. The endpoint changes only by a rotation of its
cookie key that was due. -/
theorem stateless_responder (ep : Endpoint) (buf : Buf) (addr : SockAddr) (h : Host) :
    ((∃ s, (lodpOnIncomingPkt z c ep none buf addr h).session = some s) ∨
        (∃ a, Effect.sessionInit a ∈ (lodpOnIncomingPkt z c ep none buf addr h).effects) →
      ∃ pkt, demux z c ep none buf = .ok (.onHandshakePkt none, pkt) ∧
        pkt.type = PktType.handshake.toByte ∧ z.pktHdrHandshakeLen + z.cookieLen = pkt.length ∧
        (validateCookie z c ep pkt addr h).1 = 0) ∧
    ((lodpOnIncomingPkt z c ep none buf addr h).ep = ep ∨
      (h.now > ep.cookieRotateTime + cookieRotateInterval ∧
        (lodpOnIncomingPkt z c ep none buf addr h).ep = lodpRotateCookieKey z ep h)) := by
  unfold lodpOnIncomingPkt
  split
  · exact ⟨by simp, .inl rfl⟩
  · rename_i hd pkt hdm
    rcases demux_none hdm with rfl | ⟨rfl, ht⟩
    · refine ⟨?_, ep_of_rotateIfDue onInitPkt_ep⟩
      rintro (⟨_, hs⟩ | ⟨_, hs⟩)
      · simp [runHandler] at hs
      · exact absurd hs onInitPkt_sessionInit
    · refine ⟨fun hs => ?_, ep_of_rotateIfDue onHandshakePkt_ep⟩
      have hadm : z.pktHdrHandshakeLen + z.cookieLen = pkt.length ∧
          (validateCookie z c ep pkt addr h).1 = 0 := by
        rcases hs with hs | ⟨_, ha⟩
        · exact onHandshakePkt_admitted (a := addr) (.inl hs)
        · exact onHandshakePkt_admitted (.inr ha)
      exact ⟨pkt, hdm, ht, hadm⟩

/-- Cookie freshness: a cookie the check of `on_handshake_pkt` accepts at time `t1` is the
one `on_init_pkt` places in its INIT ACK, in the same endpoint state and at the same time
`t0 = t1`, for an INIT from the same address carrying the same intro keys. Every state a run
passes through is such an endpoint state. -/
theorem handshake_cookie_fresh {pkt : Pkt} (hv : (validateCookie z c ep pkt addr h).1 = 0) :
    ∃ (init : Pkt) (h0 : Host), h.now - (cookieRotateInterval + cookieGraceWindow) ≤ h0.now ∧
      h0.now ≤ h.now ∧ init.type = PktType.init.toByte ∧ init.length = z.pktHdrInitLen ∧
      init.introMacKey z = pkt.introMacKey z ∧ init.introBulkKey z = pkt.introBulkKey z ∧
      (issuedCookie z c ep init addr h0).take z.cookieLen = (pkt.cookie z).take z.cookieLen := by
  obtain ⟨a, ha, -, -, hm, hc⟩ := validateCookie_ok hv
  have hlen : ¬ z.pktHdrInitLen < 4 + z.macKeyLen + z.bulkKeyLen := by
    have := z.bulk_eq_mac
    simp only [Sizes.pktHdrInitLen, Sizes.pktInitLen, Sizes.pktHdrLen, Sizes.pktTagLen, pktTlvLen]
    omega
  have hblob : cookieBlob z a ⟨PktType.init.toByte, 0, z.pktHdrInitLen, pkt.payload⟩ =
      cookieBlob z a pkt := rfl
  refine ⟨⟨PktType.init.toByte, 0, z.pktHdrInitLen, pkt.payload⟩, h,
    by simp only [cookieRotateInterval, cookieGraceWindow]; omega, Int.le_refl _,
    rfl, rfl, rfl, rfl, ?_⟩
  simp only [issuedCookie, generateCookie, ha, hblob, if_neg hlen]
  simpa [hm] using hc

theorem handshake_cookie_fresh_small :
    ∃ (init : Pkt) (h0 : Host),
      smallHost.now - (cookieRotateInterval + cookieGraceWindow) ≤ h0.now ∧
      h0.now ≤ smallHost.now ∧ init.type = PktType.init.toByte ∧
      init.length = Sizes.small.pktHdrInitLen ∧
      init.introMacKey Sizes.small = smallHandshake.introMacKey Sizes.small ∧
      init.introBulkKey Sizes.small = smallHandshake.introBulkKey Sizes.small ∧
      (issuedCookie Sizes.small Crypto.toy smallResponder init smallAddr h0).take
          Sizes.small.cookieLen =
        (smallHandshake.cookie Sizes.small).take Sizes.small.cookieLen :=
  handshake_cookie_fresh (by decide)

theorem lodpOnIncomingPkt_none_onAccept {a : SockAddr}
    (he : Effect.onAccept a ∈ (lodpOnIncomingPkt z c ep none buf addr h).effects) :
    ∃ pkt, demux z c ep none buf = .ok (.onHandshakePkt none, pkt) ∧
      lodpOnIncomingPkt z c ep none buf addr h = onHandshakePkt z c ep none pkt addr h := by
  unfold lodpOnIncomingPkt at he ⊢
  split at he
  · simp at he
  · rename_i hd pkt hdm
    rcases demux_none hdm with rfl | ⟨rfl, -⟩
    · exact absurd he (onInitPkt_callback rfl)
    · exact ⟨pkt, hdm, rfl⟩

/-- A retransmitted HANDSHAKE calls `on_accept_fn` again: when a HANDSHAKE from `addr`
with no session calls `on_accept_fn`, and the new session's keys do not verify the datagram,
the same datagram at the same time calls it a second time, for the same responder session. -/
theorem handshake_replay_accepted {sys : System} (hnone : sys.sessions addr = none)
    (h1 : Effect.onAccept addr ∈ (step z c sys (.packet addr buf h)).2)
    (hmac : ∀ s ∈ (step z c sys (.packet addr buf h)).1.sessions addr,
      (macThenDecrypt z c s.rxKey buf).1 = lodpErrInvalidMac) :
    ∃ s, (step z c sys (.packet addr buf h)).1.sessions addr = some s ∧
      (run z c sys [.packet addr buf h, .packet addr buf h]).1.sessions addr = some s ∧
      s.isInitiator = false ∧
      2 ≤ (run z c sys [.packet addr buf h, .packet addr buf h]).2.count (.onAccept addr) := by
  simp only [step, hnone, Function.update_same] at h1 hmac
  obtain ⟨pkt, hdm, ho⟩ := lodpOnIncomingPkt_none_onAccept h1
  rw [ho] at h1 hmac
  obtain ⟨hl, hv, hb, s', hs', hi, hseen, he⟩ := onHandshakePkt_none_onAccept h1
  rw [hs'] at hmac
  set ep1 := (onHandshakePkt z c sys.ep none pkt addr h).ep
  have hep : validateCookie z c ep1 pkt addr h = validateCookie z c sys.ep pkt addr h ∧
      rotateIfDue z ep1 h = rotateIfDue z sys.ep h ∧ ep1.hasIntroKeys = sys.ep.hasIntroKeys ∧
      ep1.introSymKeys = sys.ep.introSymKeys := by
    rcases (onHandshakePkt_ep : ep1 = sys.ep ∨ ep1 = rotateIfDue z sys.ep h) with h2 | h2 <;>
      simp [ep1, h2]
  have hdm2 := demux_retransmit hdm hep.2.2.1 hep.2.2.2 (hmac s' rfl) hi
  have h2 : Effect.onAccept addr ∈ (onHandshakePkt z c ep1 (some s') pkt addr h).effects :=
    onHandshakePkt_some_onAccept hl (by rw [hep.1]; exact hv) hb hseen (by rw [hep.2.1]; exact he)
  have ho2 : lodpOnIncomingPkt z c ep1 (some s') buf addr h =
      onHandshakePkt z c ep1 (some s') pkt addr h := by
    simp only [lodpOnIncomingPkt, hdm2]; rfl
  simp only [run_cons, run_nil, step, hnone, Function.update_same, ho, hs', ho2, List.append_nil,
    List.count_append]
  refine ⟨s', rfl, by simp, hi, ?_⟩
  have := List.count_pos_iff.mpr h1
  have := List.count_pos_iff.mpr h2
  omega

/-- `smallHandshake` as it arrives: sealed under `smallResponder`'s intro keys with IV `[0]`. -/
def smallHandshakeDatagram : Buf := ⟨[131, 131, 0, 3, 0, 0, 12, 1, 1, 1, 1, 0, 3, 0, 109], []⟩

/-- The façade of `Crypto.toy` with a `lodp_encrypt` that always fails. -/
def Crypto.sealFails : Crypto := { Crypto.toy with encrypt := fun _ _ m => (-1, m) }

set_option maxRecDepth 4000 in
theorem handshake_replay_accepted_small :
    ∃ s, (step Sizes.small Crypto.toy ⟨smallResponder, fun _ => none⟩
          (.packet smallAddr smallHandshakeDatagram smallHost)).1.sessions smallAddr = some s ∧
      (run Sizes.small Crypto.toy ⟨smallResponder, fun _ => none⟩
        [.packet smallAddr smallHandshakeDatagram smallHost,
          .packet smallAddr smallHandshakeDatagram smallHost]).1.sessions smallAddr = some s ∧
      s.isInitiator = false ∧
      2 ≤ (run Sizes.small Crypto.toy ⟨smallResponder, fun _ => none⟩
        [.packet smallAddr smallHandshakeDatagram smallHost,
          .packet smallAddr smallHandshakeDatagram smallHost]).2.count (.onAccept smallAddr) :=
  handshake_replay_accepted rfl (by decide) (by decide)

end Responder

end Lodp
