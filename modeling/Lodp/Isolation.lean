import Lodp.Callbacks

/-! An ESTABLISHED initiator is isolated from the datagrams of every other peer. -/
namespace Lodp

/-- An initiator whose handshake succeeded. -/
def Session.Connected (s : Session) : Prop := s.isInitiator = true ∧ s.state = .established

variable {z : Sizes} {c : Crypto}

section Handlers
variable {ep ep' : Endpoint} {s : Session} {pkt : Pkt} {buf : Buf} {addr : SockAddr} {h : Host}

theorem encryptThenMac_callbacks (hcb : ep'.callbacks = ep.callbacks) (keys : SymmetricKey)
    (pt : Bytes) : encryptThenMac z c ep' h keys pt = encryptThenMac z c ep h keys pt := by
  simp only [encryptThenMac, padLen, hcb]

theorem demux_initiator (hi : s.isInitiator = true) {r : Handler × Pkt}
    (hd : demux z c ep' (some s) buf = .ok r) : demux z c ep (some s) buf = .ok r := by
  obtain ⟨hd', pkt⟩ := r
  obtain ⟨used, b, hdec, rfl, hr⟩ := demux_ok hd
  rcases decryptIncoming_ok hdec with ⟨rfl, s', hs', hm⟩ | ⟨rfl, -⟩
  · cases hs'
    simp [demux, decryptIncoming, hm, hr]
  · obtain ⟨-, -, -, ⟨_, -, h1, -⟩ | ⟨_, hs, -, hi', -⟩ | ⟨hs, -⟩⟩ := route_ok hr
    · cases h1
    · cases hs
      simp [hi] at hi'
    · cases hs

theorem runHandler_connected (hs : s.Connected) (hcb : ep'.callbacks = ep.callbacks)
    {hd : Handler} (hh : hd = .onDataPkt s ∨ hd = .onInitAckPkt s ∨ hd = .onHandshakeAckPkt s ∨
      hd = .onHeartbeatPkt s ∨ hd = .onHeartbeatAckPkt s) :
    (runHandler z c ep' addr h pkt hd).session = (runHandler z c ep addr h pkt hd).session ∧
      (runHandler z c ep' addr h pkt hd).effects = (runHandler z c ep addr h pkt hd).effects := by
  rcases hh with rfl | rfl | rfl | rfl | rfl
  · simp only [runHandler, onDataPkt]
    split_ifs <;> exact ⟨rfl, rfl⟩
  · simp [runHandler, onInitAckPkt, hs.2]
  · simp [runHandler, onHandshakeAckPkt, hs.2]
  · simp only [runHandler, onHeartbeatPkt, sealAndSend, encryptThenMac_callbacks hcb]
    split_ifs <;> exact ⟨rfl, rfl⟩
  · simp [runHandler, onHeartbeatAckPkt, hcb, hs.2]

theorem lodpOnIncomingPkt_connected (hs : s.Connected) (hcb : ep'.callbacks = ep.callbacks) :
    (lodpOnIncomingPkt z c ep' (some s) buf addr h).session =
        (lodpOnIncomingPkt z c ep (some s) buf addr h).session ∧
      (lodpOnIncomingPkt z c ep' (some s) buf addr h).effects =
        (lodpOnIncomingPkt z c ep (some s) buf addr h).effects := by
  cases hd : demux z c ep (some s) buf with
  | ok r =>
    obtain ⟨hd', pkt⟩ := r
    have hd2 : demux z c ep' (some s) buf = .ok (hd', pkt) := demux_initiator hs.1 hd
    simp only [lodpOnIncomingPkt, hd, hd2]
    refine runHandler_connected hs hcb ?_
    rcases demux_some hd with ⟨-, hi⟩ | hh
    · simp [hs.1] at hi
    · exact hh
  | error e =>
    cases hd2 : demux z c ep' (some s) buf with
    | ok r => cases hd.symm.trans (demux_initiator hs.1 hd2)
    | error e' => simp only [lodpOnIncomingPkt, hd, hd2, and_self]

end Handlers

section Run
variable {a : SockAddr}

theorem filter_tag_self (buf : Buf) (h : Host) (fs : List Effect) :
    ((Event.packet a buf h).tag fs).filter (fun p => p.1 = a) = (Event.packet a buf h).tag fs :=
  List.filter_eq_self.mpr fun p hp => by
    obtain ⟨hsrc, -⟩ := Event.mem_tag (a := p.1) (f := p.2) hp
    simp [Event.source] at hsrc
    simp [hsrc]

theorem filter_tag_other {e : Event} (he : e.source ≠ some a) (fs : List Effect) :
    (e.tag fs).filter (fun p => p.1 = a) = [] :=
  List.filter_eq_nil_iff.mpr fun p hp => by
    obtain ⟨hsrc, -⟩ := Event.mem_tag (a := p.1) (f := p.2) hp
    simpa [hsrc] using he

theorem run_connected_isolated :
    ∀ (es : List Event) (sys sys' : System) (s : Session), sys.sessions a = some s →
      sys'.sessions a = some s → s.Connected → sys'.ep.callbacks = sys.ep.callbacks →
      (run z c sys es).1.sessions a =
          (run z c sys' (es.filter fun e => e.source = some a)).1.sessions a ∧
        (calls z c sys es).filter (fun p => p.1 = a) =
          calls z c sys' (es.filter fun e => e.source = some a)
  | [], _, _, _, hs, hs', _, _ => ⟨hs.trans hs'.symm, rfl⟩
  | e :: es, sys, sys', s, hs, hs', hc, hcb => by
    have hcb1 := @step_callbacks z c sys e
    by_cases he : e.source = some a
    · cases e with
      | rotate h => cases he
      | packet a' buf h =>
        cases he
        obtain ⟨s₁, hs₁, hf⟩ := @lodpOnIncomingPkt_frame z c sys.ep s buf a h
        obtain ⟨hse, hef⟩ := @lodpOnIncomingPkt_connected z c sys.ep sys'.ep s buf a h hc hcb
        have hst : (step z c sys (.packet a buf h)).1.sessions a = some s₁ := by
          simp only [step, Function.update_same, hs, hs₁]
        have hst' : (step z c sys' (.packet a buf h)).1.sessions a = some s₁ := by
          simp only [step, Function.update_same, hs', hse, hs₁]
        have hc₁ : s₁.Connected := ⟨hf.role.trans hc.1, (hf.established hc.2).1⟩
        have hcb₁ := @step_callbacks z c sys' (.packet a buf h)
        obtain ⟨ih1, ih2⟩ := run_connected_isolated es _ _ s₁ hst hst' hc₁
          (hcb₁.trans (hcb.trans hcb1.symm))
        refine ⟨by rw [run_cons, ih1, List.filter_cons_of_pos (by simp [Event.source]), run_cons],
          ?_⟩
        rw [List.filter_cons_of_pos (by simp [Event.source]), calls, calls, List.filter_append,
          filter_tag_self, ih2]
        simp only [step, hs, hs', hef]
    · have hst : (step z c sys e).1.sessions a = some s := by
        cases e with
        | packet a' buf h =>
          simp only [step, Function.update_noteq (fun ha : a = a' => he (by rw [ha]; rfl)), hs]
        | rotate h => exact hs
      obtain ⟨ih1, ih2⟩ := run_connected_isolated es _ sys' s hst hs' hc (hcb.trans hcb1.symm)
      rw [List.filter_cons_of_neg (by simpa using he)]
      refine ⟨by rw [run_cons, ih1], ?_⟩
      rw [calls, List.filter_append, filter_tag_other he, ih2, List.nil_append]

/-- Isolation of an ESTABLISHED initiator. Over every run, whatever other peers send and
whenever cookie keys rotate, the session of a peer whose handshake succeeded, and every call
the endpoint makes for that peer (callbacks, `sendto_fn` and `assert`s, in order), are those
of the run of that peer's datagrams alone. -/
theorem connected_isolated {sys : System} {s : Session} (hs : sys.sessions a = some s)
    (hc : s.Connected) (es : List Event) :
    (run z c sys es).1.sessions a =
        (run z c sys (es.filter fun e => e.source = some a)).1.sessions a ∧
      (calls z c sys es).filter (fun p => p.1 = a) =
        calls z c sys (es.filter fun e => e.source = some a) :=
  run_connected_isolated es sys sys s hs hs hc rfl

/-- The ESTABLISHED initiator `smallPeer` gets a DATA between a HANDSHAKE from another
address and a key rotation. -/
theorem connected_isolated_small :
    (run Sizes.small Crypto.toy
        ⟨smallResponder, Function.update (fun _ => none) smallAddr (some smallPeer)⟩
        [.packet (.other 7) smallHandshakeDatagram smallHost,
          .packet smallAddr ⟨[25, 25, 0, 0, 0, 0, 5, 9], []⟩ smallHost, .rotate smallHost]).1.sessions
        smallAddr =
      (run Sizes.small Crypto.toy
        ⟨smallResponder, Function.update (fun _ => none) smallAddr (some smallPeer)⟩
        ([.packet (.other 7) smallHandshakeDatagram smallHost,
          .packet smallAddr ⟨[25, 25, 0, 0, 0, 0, 5, 9], []⟩ smallHost, .rotate smallHost].filter
            fun e => e.source = some smallAddr)).1.sessions smallAddr ∧
    (calls Sizes.small Crypto.toy
        ⟨smallResponder, Function.update (fun _ => none) smallAddr (some smallPeer)⟩
        [.packet (.other 7) smallHandshakeDatagram smallHost,
          .packet smallAddr ⟨[25, 25, 0, 0, 0, 0, 5, 9], []⟩ smallHost, .rotate smallHost]).filter
        (fun p => p.1 = smallAddr) =
      calls Sizes.small Crypto.toy
        ⟨smallResponder, Function.update (fun _ => none) smallAddr (some smallPeer)⟩
        ([.packet (.other 7) smallHandshakeDatagram smallHost,
          .packet smallAddr ⟨[25, 25, 0, 0, 0, 0, 5, 9], []⟩ smallHost, .rotate smallHost].filter
            fun e => e.source = some smallAddr) :=
  connected_isolated (s := smallPeer) (by simp) ⟨rfl, rfl⟩ _

end Run

end Lodp
