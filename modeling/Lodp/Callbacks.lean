import Lodp.Connect

/-! The host's view of a run: traffic callbacks come only after the session is announced open. -/
namespace Lodp

/-- A call that tells the host a session is open: `on_accept_fn`, or `on_connect_fn` with
status 0. -/
def Effect.opens : Effect → Bool
  | .onAccept _ => true
  | .onConnect st => st == 0
  | _ => false

/-- A call that hands the host a session's traffic: `on_recv_fn` or `on_heartbeat_ack_fn`. -/
def Effect.isTraffic : Effect → Bool
  | .onRecv _ | .onHeartbeatAck _ => true
  | _ => false

theorem Effect.isTraffic_cases {f : Effect} (h : f.isTraffic = true) :
    (∃ p, f = .onRecv p) ∨ ∃ p, f = .onHeartbeatAck p := by
  cases f <;> first | exact .inl ⟨_, rfl⟩ | exact .inr ⟨_, rfl⟩ | cases h

/-- The effects of a step, each with the peer whose datagram the step processed. -/
def Event.tag : Event → List Effect → List (SockAddr × Effect)
  | .packet a _ _, fs => fs.map (a, ·)
  | .rotate _, _ => []

theorem Event.mem_tag {e : Event} {fs : List Effect} {a : SockAddr} {f : Effect}
    (hm : (a, f) ∈ e.tag fs) : e.source = some a ∧ f ∈ fs := by
  cases e with
  | packet a' _ _ =>
    obtain ⟨f', hf', he⟩ := List.mem_map.mp hm
    cases he
    exact ⟨rfl, hf'⟩
  | rotate _ => cases hm

variable (z : Sizes) (c : Crypto)

/-- The effects of a run, each with its peer, in order. -/
def calls (sys : System) : List Event → List (SockAddr × Effect)
  | [] => []
  | e :: es => e.tag (step z c sys e).2 ++ calls (step z c sys e).1 es

variable {z c}

@[simp] theorem calls_nil (sys : System) : calls z c sys [] = [] := rfl

/-- Peer `a` has an ESTABLISHED session. -/
def System.Established (sys : System) (a : SockAddr) : Prop :=
  ∃ s, sys.sessions a = some s ∧ s.state = .established

section Handlers
variable {ep : Endpoint} {s s' : Session} {pkt : Pkt} {buf : Buf} {addr : SockAddr} {h : Host}

theorem handshakeXmit_accepts {key : SymmetricKey} {pre : List Effect}
    (h0 : (encryptThenMac z c ep h key (handshakeAckPkt z s)).ret = 0) :
    Effect.onAccept addr ∈ (handshakeXmit z c ep h key addr pre s).effects := by
  simp [handshakeXmit, h0]

theorem onHandshakePkt_accepts_iff
    (hs : (onHandshakePkt z c ep none pkt addr h).session = some s') :
    Effect.onAccept addr ∈ (onHandshakePkt z c ep none pkt addr h).effects ↔
      (encryptThenMac z c (rotateIfDue z ep h) h ⟨pkt.introMacKey z, pkt.introBulkKey z⟩
        (handshakeAckPkt z s')).ret = 0 := by
  refine ⟨fun he => ?_, fun h0 => ?_⟩
  · obtain ⟨-, -, -, s'', hs'', -, -, h0⟩ := onHandshakePkt_none_onAccept he
    cases hs.symm.trans hs''
    exact h0
  · rcases onHandshakePkt_cases (o := onHandshakePkt z c ep none pkt addr h) rfl with
      ⟨-, hs', -⟩ | ⟨-, -, -, ⟨-, hs', -⟩ | ⟨s, pre, ho, -, -, hs0 | -⟩⟩
    · cases hs.symm.trans hs'
    · cases hs.symm.trans hs'
    · cases hs0
    · rw [ho, handshakeXmit_session] at hs
      cases hs
      rw [ho]
      exact handshakeXmit_accepts h0

theorem lodpOnIncomingPkt_none_handshake
    (hs : (lodpOnIncomingPkt z c ep none buf addr h).session = some s') :
    ∃ pkt, demux z c ep none buf = .ok (.onHandshakePkt none, pkt) ∧
      lodpOnIncomingPkt z c ep none buf addr h = onHandshakePkt z c ep none pkt addr h := by
  cases hdm : demux z c ep none buf with
  | error e => simp [lodpOnIncomingPkt, hdm] at hs
  | ok r =>
    obtain ⟨hd, pkt⟩ := r
    simp only [lodpOnIncomingPkt, hdm] at hs ⊢
    rcases demux_none hdm with rfl | ⟨rfl, -⟩
    · simp [runHandler] at hs
    · exact ⟨pkt, rfl, rfl⟩

theorem lodpOnIncomingPkt_none_opens (hc : c.Reliable)
    (hs : (lodpOnIncomingPkt z c ep none buf addr h).session = some s') :
    Effect.onAccept addr ∈ (lodpOnIncomingPkt z c ep none buf addr h).effects := by
  obtain ⟨pkt, -, ho⟩ := lodpOnIncomingPkt_none_handshake hs
  rw [ho] at hs ⊢
  exact (onHandshakePkt_accepts_iff hs).mpr (encryptThenMac_ok hc ..)

theorem onHandshakeAckPkt_opens (hst : s.state ≠ .established)
    (hs : (onHandshakeAckPkt z c ep s pkt h).session = some s') (hst' : s'.state = .established) :
    Effect.onConnect 0 ∈ (onHandshakeAckPkt z c ep s pkt h).effects := by
  obtain ⟨st, hm⟩ : ∃ st, Effect.onConnect st ∈ (onHandshakeAckPkt z c ep s pkt h).effects := by
    unfold onHandshakeAckPkt at hs ⊢
    by_cases h1 : (!s.isInitiator) = true ∨ s.state ≠ .handshake
    · rw [if_pos h1] at hs
      cases hs
      exact absurd hst' hst
    by_cases h2 : z.pktHdrHandshakeAckLen ≠ pkt.length
    · rw [if_neg h1, if_pos h2] at hs
      cases hs
      exact absurd hst' hst
    rw [if_neg h1, if_neg h2]
    exact ⟨_, List.mem_append_right _ (List.mem_singleton_self _)⟩
  obtain ⟨-, s'', hs'', -, hiff⟩ := onHandshakeAckPkt_onConnect hm
  cases hs.symm.trans hs''
  rwa [hiff.mpr hst'] at hm

theorem lodpOnIncomingPkt_some_opens (hst : s.state ≠ .established)
    (hs : (lodpOnIncomingPkt z c ep (some s) buf addr h).session = some s')
    (hst' : s'.state = .established) :
    Effect.onConnect 0 ∈ (lodpOnIncomingPkt z c ep (some s) buf addr h).effects := by
  obtain ⟨s'', hs'', -, -, hch⟩ := @lodpOnIncomingPkt_some z c ep s buf addr h
  cases hs.symm.trans hs''
  obtain ⟨pkt, ⟨-, -, hst2 | ⟨hst2, -⟩⟩ | ⟨hdm, -⟩⟩ := hch fun he => hst (he ▸ hst')
  · rw [hst'] at hst2
    cases hst2
  · rw [hst'] at hst2
    cases hst2
  · simp only [lodpOnIncomingPkt, hdm, runHandler] at hs ⊢
    exact onHandshakeAckPkt_opens hst hs hst'

end Handlers

section Run
variable {sys : System} {e : Event} {a : SockAddr} {f : Effect}

theorem step_traffic (hm : (a, f) ∈ e.tag (step z c sys e).2) (hf : f.isTraffic) :
    sys.Established a := by
  obtain ⟨hsrc, hf'⟩ := Event.mem_tag hm
  cases e with
  | rotate h => cases hsrc
  | packet a' buf h =>
    cases hsrc
    rcases Effect.isTraffic_cases hf with ⟨p, rfl⟩ | ⟨p, rfl⟩
    · obtain ⟨s, -, hs, -, hst⟩ := lodpOnIncomingPkt_onRecv hf'
      exact ⟨s, hs, hst⟩
    · obtain ⟨s, -, hs, -, hst⟩ := lodpOnIncomingPkt_onHeartbeatAck hf'
      exact ⟨s, hs, hst⟩

theorem step_established (hc : c.Reliable) (h : (step z c sys e).1.Established a) :
    sys.Established a ∨ ∃ g, (a, g) ∈ e.tag (step z c sys e).2 ∧ g.opens := by
  obtain ⟨s', hs', hst'⟩ := h
  cases e with
  | rotate h => exact .inl ⟨s', hs', hst'⟩
  | packet a' buf h =>
    by_cases ha : a = a'
    · subst ha
      dsimp only [step] at hs'
      rw [Function.update_same] at hs'
      rcases h0 : sys.sessions a with _ | s
      · rw [h0] at hs'
        refine .inr ⟨.onAccept a, List.mem_map_of_mem _ ?_, rfl⟩
        simpa only [step, h0] using lodpOnIncomingPkt_none_opens hc hs'
      · by_cases hst : s.state = .established
        · exact .inl ⟨s, h0, hst⟩
        · rw [h0] at hs'
          refine .inr ⟨.onConnect 0, List.mem_map_of_mem _ ?_, rfl⟩
          simpa only [step, h0] using lodpOnIncomingPkt_some_opens hst hs' hst'
    · dsimp only [step] at hs'
      rw [Function.update_noteq ha] at hs'
      exact .inl ⟨s', hs', hst'⟩

theorem run_established_opens (hc : c.Reliable) (sys : System) (es : List Event)
    (h : (run z c sys es).1.Established a) :
    sys.Established a ∨ ∃ g, (a, g) ∈ calls z c sys es ∧ g.opens := by
  induction es generalizing sys with
  | nil => exact .inl h
  | cons e es ih =>
    rw [calls]
    rcases ih _ h with h1 | ⟨g, hg, ho⟩
    · rcases step_established hc h1 with h0 | ⟨g, hg, ho⟩
      · exact .inl h0
      · exact .inr ⟨g, List.mem_append_left _ hg, ho⟩
    · exact .inr ⟨g, List.mem_append_right _ hg, ho⟩

/-- Traffic after the handshake's announcement. Under reliable sealing, over every run
`pre ++ e :: post`, every call of `on_recv_fn` or `on_heartbeat_ack_fn` for a peer made while
processing `e` comes after an `on_accept_fn`, or an `on_connect_fn` with status 0, for the
same peer, made while processing an earlier datagram, unless the peer's session was already
ESTABLISHED when the run began. -/
theorem traffic_after_open (hc : c.Reliable) (sys : System) (pre : List Event) (e : Event)
    {a : SockAddr} {f : Effect} (hm : (a, f) ∈ e.tag (step z c (run z c sys pre).1 e).2)
    (hf : f.isTraffic) :
    sys.Established a ∨ ∃ g, (a, g) ∈ calls z c sys pre ∧ g.opens :=
  run_established_opens hc sys pre (step_traffic hm hf)

/-- The DATA `[9]`, sealed under the `rx_key` of the session that `smallHandshakeDatagram`
creates at `smallResponder`. -/
def smallDataDatagram : Buf := ⟨[12, 12, 0, 0, 0, 0, 5, 9], []⟩

set_option maxRecDepth 4000 in
/-- A fresh responder takes the HANDSHAKE, then the DATA: `on_recv_fn` gets `[9]` after
`on_accept_fn`. -/
theorem traffic_after_open_small :
    System.Established ⟨smallResponder, fun _ => none⟩ smallAddr ∨
      ∃ g, (smallAddr, g) ∈ calls Sizes.small Crypto.toy ⟨smallResponder, fun _ => none⟩
        [.packet smallAddr smallHandshakeDatagram smallHost] ∧ g.opens :=
  @traffic_after_open Sizes.small Crypto.toy Crypto.toy_reliable _
    [.packet smallAddr smallHandshakeDatagram smallHost]
    (.packet smallAddr smallDataDatagram smallHost) smallAddr (.onRecv [9]) (by decide) rfl

/-- A new session is announced exactly when its HANDSHAKE ACK is sealed. A session that a
datagram from a peer without one leaves in the table is an ESTABLISHED responder, and
`on_accept_fn` is called for it exactly when `encrypt_then_mac` sealed the HANDSHAKE ACK:
on a failed seal `on_handshake_pkt` returns at `out`, keeping the session it created, so
the table holds an ESTABLISHED session the host was never told of. -/
theorem new_session_announced_iff_sealed {sys : System} {buf : Buf} {h : Host} {s : Session}
    (hnone : sys.sessions a = none) (hs : (step z c sys (.packet a buf h)).1.sessions a = some s) :
    s.isInitiator = false ∧ s.state = .established ∧
      ∃ pkt, demux z c sys.ep none buf = .ok (.onHandshakePkt none, pkt) ∧
        (Effect.onAccept a ∈ (step z c sys (.packet a buf h)).2 ↔
          (encryptThenMac z c (rotateIfDue z sys.ep h) h ⟨pkt.introMacKey z, pkt.introBulkKey z⟩
            (handshakeAckPkt z s)).ret = 0) := by
  simp only [step, Function.update_same, hnone] at hs ⊢
  obtain ⟨pkt, hdm, ho⟩ := lodpOnIncomingPkt_none_handshake hs
  rw [ho] at hs ⊢
  obtain ⟨hi, hst, -⟩ := onHandshakePkt_created hs
  exact ⟨hi, hst, pkt, hdm, onHandshakePkt_accepts_iff hs⟩

set_option maxRecDepth 4000 in
/-- With sealing failing, a fresh `smallResponder` keeps the responder session the HANDSHAKE
creates without calling `on_accept_fn`, and hands the DATA that follows to `on_recv_fn`. -/
theorem new_session_announced_iff_sealed_small :
    ∃ s, (step Sizes.small Crypto.sealFails ⟨smallResponder, fun _ => none⟩
        (.packet smallAddr smallHandshakeDatagram smallHost)).1.sessions smallAddr = some s ∧
      s.isInitiator = false ∧ s.state = .established ∧
      Effect.onAccept smallAddr ∉ (step Sizes.small Crypto.sealFails ⟨smallResponder, fun _ => none⟩
        (.packet smallAddr smallHandshakeDatagram smallHost)).2 ∧
      (smallAddr, .onRecv [9]) ∈ calls Sizes.small Crypto.sealFails ⟨smallResponder, fun _ => none⟩
        [.packet smallAddr smallHandshakeDatagram smallHost,
          .packet smallAddr smallDataDatagram smallHost] := by
  obtain ⟨s, hs⟩ : ∃ s, (step Sizes.small Crypto.sealFails ⟨smallResponder, fun _ => none⟩
      (.packet smallAddr smallHandshakeDatagram smallHost)).1.sessions smallAddr = some s :=
    Option.isSome_iff_exists.mp (by decide)
  obtain ⟨hi, hst, pkt, -, hiff⟩ := new_session_announced_iff_sealed rfl hs
  exact ⟨s, hs, hi, hst,
    fun he => absurd (hiff.mp he) (by simp [encryptThenMac, Crypto.sealFails]), by decide⟩

end Run

end Lodp
