import Lodp.Table

/-! Retransmission: the cookie an initiator resends and the HANDSHAKE ACK a responder resends. -/
namespace Lodp

/-- An initiator in HANDSHAKE holds a cookie of exactly `cookie_len` bytes, and `cookie_len`
is positive. -/
def Session.HoldsCookie (s : Session) : Prop :=
  s.isInitiator = true → s.state = .handshake →
    ∃ ck, s.cookie = some ck ∧ ck.length = s.cookieLen ∧ 0 < s.cookieLen

/-- Every session of the table that resends HANDSHAKEs holds its cookie. -/
def System.HoldsCookies (sys : System) : Prop := sys.All Session.HoldsCookie

variable {z : Sizes} {c : Crypto}

theorem handshakePkt_cookie {s : Session} {ck : Bytes} (hck : s.cookie = some ck)
    (hl : ck.length = s.cookieLen) : ck <:+ handshakePkt z s := by
  rw [handshakePkt, hck, Option.getD_some, List.take_of_length_le hl.le]
  exact List.suffix_append _ _

theorem onInitAckPkt_holdsCookie {ep : Endpoint} {s : Session} {pkt : Pkt} {h : Host}
    (hp : pkt.length - pktTlvLen ≤ pkt.payload.length) (hc : s.HoldsCookie) :
    ∃ s', (onInitAckPkt z c ep s pkt h).session = some s' ∧ s'.HoldsCookie := by
  unfold onInitAckPkt
  by_cases h1 : (!s.isInitiator) = true ∨ s.state ≠ .init
  · rw [if_pos h1]
    exact ⟨s, rfl, hc⟩
  rw [if_neg h1]
  by_cases h2 : pkt.length - pktTlvLen = 0
  · rw [if_pos h2]
    exact ⟨s, rfl, hc⟩
  rw [if_neg h2]
  cases h.cookieAlloc
  · rw [if_pos (show (!false) = true from rfl)]
    exact ⟨_, rfl, fun _ hst => by cases hst⟩
  · rw [if_neg (show ¬(!true) = true by decide), lodpHandshake, lodpSendHandshakePkt_session]
    refine ⟨_, rfl, fun _ _ => ?_⟩
    refine ⟨pkt.body, rfl, ?_, Nat.pos_of_ne_zero h2⟩
    simp only [Pkt.body, slice, List.drop_zero, List.length_take]
    omega

theorem onHandshakeAckPkt_holdsCookie {ep : Endpoint} {s : Session} {pkt : Pkt} {h : Host}
    (hc : s.HoldsCookie) :
    ∃ s', (onHandshakeAckPkt z c ep s pkt h).session = some s' ∧ s'.HoldsCookie := by
  obtain ⟨s', hs', -, -, rfl | ⟨-, -, hst⟩⟩ := @onHandshakeAckPkt_session z c ep s pkt h
  · exact ⟨_, hs', hc⟩
  · exact ⟨s', hs', fun _ h' => by rcases hst with hst | hst <;> rw [hst] at h' <;> cases h'⟩

theorem onDataPkt_holdsCookie {ep : Endpoint} {s : Session} {pkt : Pkt} {h : Host}
    (hc : s.HoldsCookie) : ∃ s', (onDataPkt z ep s pkt h).session = some s' ∧ s'.HoldsCookie := by
  unfold onDataPkt
  by_cases hs : s.state ≠ .established
  · rw [if_pos hs]
    exact ⟨s, rfl, hc⟩
  rw [if_neg hs]
  refine ⟨_, rfl, fun _ h' => absurd h' ?_⟩
  split_ifs <;> simp [not_not.mp hs]

theorem keptBy_holdsCookie : KeptBy z c Session.HoldsCookie :=
  keptBy_of_handlers (fun _ hi _ _ hi' => by simp [hi] at hi')
    (fun _ _ _ _ => onDataPkt_holdsCookie) (fun _ _ _ _ => onInitAckPkt_holdsCookie)
    (fun _ _ _ _ => onHandshakeAckPkt_holdsCookie)

/-- The cookie a HANDSHAKE resends is whole. Over every run, from a table whose initiators in
HANDSHAKE hold their cookies (an initiator starts in INIT), every initiator in HANDSHAKE holds
a cookie of exactly `cookie_len > 0` bytes, and the HANDSHAKE `lodp_send_handshake_pkt`
builds for it ends with that whole cookie: the copy out of `session->cookie` stays inside
the buffer `on_init_ack_pkt` filled. -/
theorem handshake_cookie_held {sys : System} (hc : sys.HoldsCookies) (es : List Event)
    (a : SockAddr) {s : Session} (hs : (run z c sys es).1.sessions a = some s)
    (hi : s.isInitiator = true) (hst : s.state = .handshake) :
    ∃ ck, s.cookie = some ck ∧ ck.length = s.cookieLen ∧ 0 < s.cookieLen ∧
      ck <:+ handshakePkt z s := by
  obtain ⟨ck, hck, hl, hpos⟩ := run_all keptBy_holdsCookie hc es a s hs hi hst
  exact ⟨ck, hck, hl, hpos, handshakePkt_cookie hck hl⟩

/-- `smallConnecting` after an INIT ACK with the cookie `[7, 7]`. -/
def smallWaiting : Session :=
  { smallConnecting with cookie := some [7, 7], cookieLen := 2, state := .handshake }

/-- `smallConnecting` receives an INIT ACK sealed under its `rx_key`. -/
theorem handshake_cookie_held_small :
    ∃ ck, smallWaiting.cookie = some ck ∧ ck.length = smallWaiting.cookieLen ∧
      0 < smallWaiting.cookieLen ∧ ck <:+ handshakePkt Sizes.small smallWaiting :=
  @handshake_cookie_held Sizes.small Crypto.toy
    ⟨smallResponder, Function.update (fun _ => none) smallAddr (some smallConnecting)⟩
    (fun a s hs hi hst => by
      by_cases ha : a = smallAddr
      · subst ha
        obtain rfl : smallConnecting = s := by simpa using hs
        cases hst
      · simp [ha] at hs)
    [.packet smallAddr ⟨(encryptThenMac Sizes.small Crypto.toy smallResponder smallHost
      ⟨[1, 1], [1, 1]⟩ (tlv .initAck 6 ++ [7, 7])).ciphertext, []⟩ smallHost]
    smallAddr smallWaiting (by decide) rfl rfl

/-! The HANDSHAKE ACK a responder resends. -/

/-- The responder `s'` is `s` as it was, or has seen DATA. -/
def Session.Retains (s' s : Session) : Prop :=
  s'.isInitiator = false ∧ (s' = s ∨ s'.seenPeerData = true)

section Resend
variable {ep : Endpoint} {buf : Buf} {pkt : Pkt} {addr : SockAddr} {h : Host}

theorem onHandshakePkt_sendto_unseen {s : Session} {b : Bytes} {a : SockAddr}
    (hb : Effect.sendto b a ∈ (onHandshakePkt z c ep (some s) pkt addr h).effects) :
    s.seenPeerData = false := by
  rcases onHandshakePkt_cases (o := onHandshakePkt z c ep (some s) pkt addr h) rfl with
    ⟨he, -⟩ | ⟨-, -, -, ⟨-, -, hq⟩ | ⟨s', pre, -, -, hseen, hs | ⟨hs, -⟩⟩⟩
  · simp [he] at hb
  · cases List.all_eq_true.mp hq _ hb
  · cases hs
    exact hseen
  · cases hs

theorem lodpOnIncomingPkt_retains {s s₀ : Session} (hs : s₀.Retains s) :
    ∃ s₁, (lodpOnIncomingPkt z c ep (some s₀) buf addr h).session = some s₁ ∧ s₁.Retains s := by
  obtain ⟨hr, hu⟩ := hs
  suffices ∃ s₁, (lodpOnIncomingPkt z c ep (some s₀) buf addr h).session = some s₁ ∧
      s₁.isInitiator = false ∧ (s₁ = s₀ ∨ s₁.seenPeerData = true) by
    obtain ⟨s₁, h1, hr1, rfl | hu1⟩ := this
    exacts [⟨s₁, h1, hr1, hu⟩, ⟨s₁, h1, hr1, .inr hu1⟩]
  unfold lodpOnIncomingPkt
  split
  · exact ⟨s₀, rfl, hr, .inl rfl⟩
  · rename_i hd pkt hdm
    rcases demux_some hdm with ⟨rfl, -⟩ | rfl | rfl | rfl | rfl | rfl
    · exact ⟨s₀, onHandshakePkt_some_session, hr, .inl rfl⟩
    · simp only [runHandler, onDataPkt]
      split_ifs <;> simp [hr]
    all_goals simp [runHandler, onInitAckPkt, onHandshakeAckPkt, hr]

end Resend

section ResendRun
variable {sys : System} {a : SockAddr} {s : Session}

theorem step_retains {s₀ : Session} (hs : sys.sessions a = some s₀) (hk : s₀.Retains s)
    (e : Event) : ∃ s₁, (step z c sys e).1.sessions a = some s₁ ∧ s₁.Retains s := by
  cases e with
  | packet a' buf h =>
    by_cases ha : a = a'
    · subst ha
      obtain ⟨s₁, h1, hk1⟩ := @lodpOnIncomingPkt_retains z c sys.ep buf a h s s₀ hk
      exact ⟨s₁, by simp [step, hs, h1], hk1⟩
    · exact ⟨s₀, by simp [step, Function.update_noteq ha, hs], hk⟩
  | rotate h => exact ⟨s₀, hs, hk⟩

theorem run_retains {s₀ : Session} (hs : sys.sessions a = some s₀) (hk : s₀.Retains s)
    (es : List Event) : ∃ s₁, (run z c sys es).1.sessions a = some s₁ ∧ s₁.Retains s := by
  induction es generalizing sys s₀ with
  | nil => exact ⟨s₀, hs, hk⟩
  | cons e es ih =>
    obtain ⟨s₁, h1, hk1⟩ := step_retains (z := z) (c := c) hs hk e
    exact ih h1 hk1

/-- The HANDSHAKE ACK a responder resends carries the ntor material of the first. Over every
run from a table holding the responder `s` for `a` (the table just after the HANDSHAKE that
created it, say), whatever other peers send and whenever cookie keys rotate, every datagram
the endpoint hands to `sendto_fn` when a later HANDSHAKE from `a` reaches `on_handshake_pkt`
goes back to `a` and is the HANDSHAKE ACK of `s` itself, sealed under the intro keys that
HANDSHAKE carries on the step's endpoint. After the first DATA from `a` none is sent. -/
theorem handshakeAck_resent (hs : sys.sessions a = some s) (hr : s.isInitiator = false)
    (es : List Event) (buf : Buf) (h : Host) {o : Option Session} {pkt : Pkt}
    (hd : demux z c (run z c sys es).1.ep ((run z c sys es).1.sessions a) buf =
      .ok (.onHandshakePkt o, pkt)) :
    ∀ b a', Effect.sendto b a' ∈ (step z c (run z c sys es).1 (.packet a buf h)).2 →
      a' = a ∧ b = (encryptThenMac z c (rotateIfDue z (run z c sys es).1.ep h) h
        ⟨pkt.introMacKey z, pkt.introBulkKey z⟩ (handshakeAckPkt z s)).ciphertext := by
  obtain ⟨s₁, h1, hr1, hu⟩ := run_retains (z := z) (c := c) hs ⟨hr, .inl rfl⟩ es
  rw [h1] at hd
  intro b a' hb
  simp only [step, h1, lodpOnIncomingPkt, hd, runHandler] at hb
  rcases demux_some hd with ⟨ho, -⟩ | ho | ho | ho | ho | ho <;> cases ho
  obtain ⟨s', hs', -, rfl, rfl⟩ := onHandshakePkt_sendto hb
  rw [onHandshakePkt_some_session] at hs'
  cases hs'
  rcases hu with rfl | hu
  · exact ⟨rfl, rfl⟩
  · simp [onHandshakePkt_sendto_unseen hb] at hu

/-- The responder `smallPeer'` gets a HANDSHAKE from another address, then the HANDSHAKE
that created it again: the answer seals its own HANDSHAKE ACK. -/
theorem handshakeAck_resent_small :
    Effect.sendto [18, 18, 0, 4, 0, 0, 8, 0, 4, 0, 0] smallAddr ∈
        (step Sizes.small Crypto.toy (run Sizes.small Crypto.toy
          ⟨smallResponder, Function.update (fun _ => none) smallAddr (some smallPeer')⟩
          [.packet (.other 7) smallHandshakeDatagram smallHost]).1
          (.packet smallAddr smallHandshakeDatagram smallHost)).2 ∧
      ∀ b a', Effect.sendto b a' ∈ (step Sizes.small Crypto.toy (run Sizes.small Crypto.toy
          ⟨smallResponder, Function.update (fun _ => none) smallAddr (some smallPeer')⟩
          [.packet (.other 7) smallHandshakeDatagram smallHost]).1
          (.packet smallAddr smallHandshakeDatagram smallHost)).2 →
        a' = smallAddr ∧ b = (encryptThenMac Sizes.small Crypto.toy
          (rotateIfDue Sizes.small (run Sizes.small Crypto.toy
            ⟨smallResponder, Function.update (fun _ => none) smallAddr (some smallPeer')⟩
            [.packet (.other 7) smallHandshakeDatagram smallHost]).1.ep smallHost) smallHost
          ⟨smallHandshake.introMacKey Sizes.small, smallHandshake.introBulkKey Sizes.small⟩
          (handshakeAckPkt Sizes.small smallPeer')).ciphertext :=
  ⟨by decide, handshakeAck_resent (by simp) rfl _ _ _ (o := some smallPeer') rfl⟩

end ResendRun

end Lodp
