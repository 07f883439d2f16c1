import Lodp.Table
import Lodp.Asserts

/-! No amplification: a responder answers with at most one datagram, no longer save for padding. -/
namespace Lodp

/-- The padding the host's `pre_encrypt_fn` may ask `encrypt_then_mac` to append. -/
def Callbacks.padAllowance (cb : Callbacks) (h : Host) : Nat :=
  if cb.preEncryptFn then h.preEncrypt.toNat else 0

/-- The length of the datagram an effect hands to `sendto_fn`. -/
def Effect.sentLength : Effect → Nat
  | .sendto b _ => b.length
  | _ => 0

/-- The bytes a list of effects hands to `sendto_fn`. -/
def sentBytes : List Effect → Nat
  | [] => 0
  | f :: es => f.sentLength + sentBytes es

/-- What an event lets the endpoint send: the length of the datagram it brings, and the
padding the host may ask for on the reply. -/
def Event.budget (cb : Callbacks) : Event → Nat
  | .packet _ buf h => buf.ciphertext.length + cb.padAllowance h
  | .rotate _ => 0

/-- What the events of a run let the endpoint send, in all. -/
def totalBudget (cb : Callbacks) : List Event → Nat
  | [] => 0
  | e :: es => e.budget cb + totalBudget cb es

@[simp] theorem sentBytes_nil : sentBytes [] = 0 := rfl

@[simp] theorem sentBytes_cons (f : Effect) (es : List Effect) :
    sentBytes (f :: es) = f.sentLength + sentBytes es := rfl

@[simp] theorem sentBytes_append (es es' : List Effect) :
    sentBytes (es ++ es') = sentBytes es + sentBytes es' := by
  induction es with
  | nil => simp
  | cons f es ih => rw [List.cons_append, sentBytes_cons, sentBytes_cons, ih, Nat.add_assoc]

theorem mem_sentTo {es : List Effect} {b : Bytes} {a : SockAddr}
    (h : Effect.sendto b a ∈ es) : a ∈ sentTo es :=
  List.mem_filterMap.mpr ⟨_, h, rfl⟩

theorem sentBytes_eq_zero {es : List Effect} (h : sentTo es = []) : sentBytes es = 0 := by
  induction es with
  | nil => rfl
  | cons f es ih =>
    rw [sentTo_cons, List.append_eq_nil] at h
    rw [sentBytes_cons, ih h.2]
    cases f <;> first | rfl | cases h.1

theorem sentBytes_le {es : List Effect} {n : Nat} (h1 : (sentTo es).length ≤ 1)
    (h2 : ∀ b a, Effect.sendto b a ∈ es → b.length ≤ n) : sentBytes es ≤ n := by
  induction es with
  | nil => exact Nat.zero_le _
  | cons f es ih =>
    rw [sentBytes_cons]
    cases f with
    | sendto b a =>
      rw [sentBytes_eq_zero (by simpa [Effect.sentAddr] using h1)]
      exact h2 b a (.head _)
    | _ =>
      exact (Nat.zero_add _).trans_le
        (ih (by simpa [Effect.sentAddr] using h1) fun b a hb => h2 b a (.tail _ hb))

variable {z : Sizes} {c : Crypto}

theorem padLen_le_padAllowance (ep : Endpoint) (h : Host) (len : Nat) :
    padLen z ep h len ≤ ep.callbacks.padAllowance h := by
  unfold padLen Callbacks.padAllowance
  by_cases hp : ep.callbacks.preEncryptFn = true
  · simp only [hp, true_and, if_true]
    split_ifs with h1 h2
    · have := Int.toNat_of_nonneg (by omega : 0 ≤ h.preEncrypt)
      omega
    · exact le_rfl
    · exact Nat.zero_le _
  · simp [hp]

theorem demux_length {ep : Endpoint} {session : Option Session} {buf : Buf} {hd : Handler}
    {pkt : Pkt} (h : demux z c ep session buf = .ok (hd, pkt)) :
    pktTlvLen ≤ pkt.length ∧ z.pktTagLen + pkt.length ≤ buf.ciphertext.length := by
  obtain ⟨_, _, -, rfl, hr⟩ := demux_ok h
  obtain ⟨-, hmin, hle, -⟩ := route_ok hr
  simp only [pktTlvLen] at hmin ⊢
  omega

theorem lodpOnIncomingPkt_sendto_le (hz : z.cookieLen ≤ z.macKeyLen + z.macKeyLen)
    {ep : Endpoint} {session : Option Session} {buf : Buf} {addr : SockAddr} {h : Host}
    (hr : ∀ s, session = some s → s.isInitiator = false) {b : Bytes} {a : SockAddr}
    (hb : Effect.sendto b a ∈ (lodpOnIncomingPkt z c ep session buf addr h).effects) :
    b.length ≤ buf.ciphertext.length + ep.callbacks.padAllowance h := by
  unfold lodpOnIncomingPkt at hb
  split at hb
  · cases hb
  rename_i hd pkt hdm
  obtain ⟨hmin, hlen⟩ := demux_length hdm
  have hpad := fun len => padLen_le_padAllowance (z := z) (rotateIfDue z ep h) h len
  rw [rotateIfDue_callbacks] at hpad
  cases hd with
  | onInitPkt =>
    obtain ⟨hl, h0, rfl, -⟩ := onInitPkt_sendto hb
    have := hpad (z.pktTagLen + (pktTlvLen + z.cookieLen))
    simp only [encryptThenMac_ciphertext_length z c h0, List.length_append, tlv_length,
      issuedCookie_length] at this ⊢
    simp only [Sizes.pktHdrInitLen, Sizes.pktInitLen, Sizes.pktHdrLen, pktTlvLen] at hl this ⊢
    omega
  | onHandshakePkt session' =>
    rcases onHandshakePkt_cases (o := onHandshakePkt z c ep session' pkt addr h) rfl with
      ⟨he, -⟩ | ⟨hl, -⟩
    · simp [runHandler, he] at hb
    obtain ⟨s', -, h0, rfl, -⟩ := onHandshakePkt_sendto hb
    have := hpad (z.pktTagLen + (handshakeAckPkt z s').length)
    have hack := handshakeAckPkt_length_le (z := z) s'
    rw [encryptThenMac_ciphertext_length z c h0]
    simp only [Sizes.pktHdrHandshakeLen, Sizes.pktHandshakeLen, Sizes.pktInitLen,
      Sizes.pktHdrLen, Sizes.cookieLen, pktTlvLen] at hl hack hz ⊢
    omega
  | onDataPkt s =>
    have := mem_sentTo hb
    rw [runHandler, sentTo_onDataPkt] at this
    cases this
  | onInitAckPkt s =>
    obtain ⟨s0, rfl, -⟩ : ∃ s0, session = some s0 ∧ True := by
      rcases session with _ | s0
      · rcases demux_none hdm with h1 | ⟨h1, -⟩ <;> cases h1
      · exact ⟨s0, rfl, trivial⟩
    rcases demux_some hdm with ⟨h1, -⟩ | h1 | h1 | h1 | h1 | h1 <;> cases h1
    simp [runHandler, onInitAckPkt, hr _ rfl] at hb
  | onHandshakeAckPkt s =>
    obtain ⟨s0, rfl, -⟩ : ∃ s0, session = some s0 ∧ True := by
      rcases session with _ | s0
      · rcases demux_none hdm with h1 | ⟨h1, -⟩ <;> cases h1
      · exact ⟨s0, rfl, trivial⟩
    rcases demux_some hdm with ⟨h1, -⟩ | h1 | h1 | h1 | h1 | h1 <;> cases h1
    simp [runHandler, onHandshakeAckPkt, hr _ rfl] at hb
  | onHeartbeatPkt s =>
    obtain ⟨h0, rfl, -⟩ := onHeartbeatPkt_sendto hb
    have := padLen_le_padAllowance (z := z) ep h
      (z.pktTagLen + (tlv .heartbeatAck (pktTlvLen + (pkt.length - pktTlvLen)) ++ pkt.body).length)
    have hbody := Pkt.body_length_le pkt
    rw [encryptThenMac_ciphertext_length z c h0]
    simp only [List.length_append, tlv_length, pktTlvLen] at this hbody hmin ⊢
    omega
  | onHeartbeatAckPkt s =>
    have := mem_sentTo hb
    rw [runHandler, sentTo_onHeartbeatAckPkt] at this
    cases this

section Run
variable {sys : System}

theorem step_sentBytes_le (hz : z.cookieLen ≤ z.macKeyLen + z.macKeyLen) (hr : sys.Responders)
    (e : Event) : sentBytes (step z c sys e).2 ≤ e.budget sys.ep.callbacks := by
  have h1 : (sentTo (step z c sys e).2).length ≤ 1 :=
    ((step_sentTo e fun a s hs => (hr a s hs).1).length_le).trans (by cases e.source <;> simp)
  refine sentBytes_le h1 fun b a hb => ?_
  cases e with
  | packet a' buf h =>
    exact lodpOnIncomingPkt_sendto_le hz (fun s hs => (hr a' s hs).2.1) hb
  | rotate h => cases hb

/-- No amplification by a responder. Over every run from a responder's table (the empty
table, say), the endpoint hands `sendto_fn` no more bytes than the datagrams it was handed
bring, plus the padding the host's `pre_encrypt_fn` asked for on each reply; with no
`pre_encrypt_fn`, no more bytes than it received. -/
theorem responder_no_amplification (hz : z.cookieLen ≤ z.macKeyLen + z.macKeyLen)
    (hr : sys.Responders) (es : List Event) :
    sentBytes (run z c sys es).2 ≤ totalBudget sys.ep.callbacks es := by
  induction es generalizing sys with
  | nil => exact Nat.zero_le _
  | cons e es ih =>
    have h1 := step_sentBytes_le (c := c) hz hr e
    have h2 := ih (step_responders (z := z) (c := c) e hr)
    rw [step_callbacks] at h2
    rw [run_cons, sentBytes_append, totalBudget]
    omega

/-- An INIT from `smallAddr` with the intro keys `[1, 1]`, sealed under the intro keys of
`smallResponder`. -/
def smallInitDatagram : Buf := ⟨[13, 13, 0, 1, 0, 0, 8, 1, 1, 1, 1], []⟩

/-- A fresh `smallResponder` answers an INIT and a HANDSHAKE. -/
theorem responder_no_amplification_small :
    sentBytes (run Sizes.small Crypto.toy ⟨smallResponder, fun _ => none⟩
        [.packet smallAddr smallInitDatagram smallHost,
          .packet smallAddr smallHandshakeDatagram smallHost]).2 ≤
      totalBudget smallResponder.callbacks
        [.packet smallAddr smallInitDatagram smallHost,
          .packet smallAddr smallHandshakeDatagram smallHost] :=
  responder_no_amplification (by decide) (fun _ _ h => by cases h) _

end Run

end Lodp
