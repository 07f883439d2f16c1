import Lodp.Table

/-! Datagram sizes: when its `assert`s hold, a call sends nothing longer than `LODP_MSS`. -/
namespace Lodp

/-- Every datagram of `es` comes with the length check of the `encrypt_then_mac` that sealed
it, and fits in the MSS once that check holds. -/
def Sizes.Checked (z : Sizes) (es : List Effect) : Prop :=
  ∀ b a, Effect.sendto b a ∈ es →
    ∃ ok, Effect.assert .encryptLen ok ∈ es ∧ (ok = true → b.length ≤ z.mss)

/-- When every `assert` of `es` holds, every datagram of `es` fits in the MSS. -/
def Sizes.Fits (z : Sizes) (es : List Effect) : Prop :=
  (∀ k ok, Effect.assert k ok ∈ es → ok = true) → ∀ b a, Effect.sendto b a ∈ es → b.length ≤ z.mss

variable {z : Sizes} {c : Crypto}

namespace Sizes.Checked

theorem fits {es : List Effect} (h : z.Checked es) : z.Fits es := fun hk b a hb => by
  obtain ⟨ok, hm, hl⟩ := h b a hb
  exact hl (hk _ ok hm)

theorem of_sentTo {es : List Effect} (h : sentTo es = []) : z.Checked es := fun b a hb => by
  have : a ∈ sentTo es := List.mem_filterMap.mpr ⟨_, hb, rfl⟩
  simp [h] at this

theorem append {es es' : List Effect} (h : z.Checked es) (h' : z.Checked es') :
    z.Checked (es ++ es') := by
  intro b a hb
  rcases List.mem_append.mp hb with hb | hb
  · obtain ⟨ok, hm, hl⟩ := h b a hb
    exact ⟨ok, List.mem_append_left _ hm, hl⟩
  · obtain ⟨ok, hm, hl⟩ := h' b a hb
    exact ⟨ok, List.mem_append_right _ hm, hl⟩

theorem unsent_append {es : List Effect} (pre : List Effect) (hpre : sentTo pre = [])
    (h : z.Checked es) :
    z.Checked (pre ++ es) :=
  (of_sentTo hpre).append h

end Sizes.Checked

section Sealed
variable {ep : Endpoint} {s : Session} {pkt : Pkt} {addr : SockAddr} {h : Host}

theorem checked_sealed {keys : SymmetricKey} {pt : Bytes}
    (h0 : (encryptThenMac z c ep h keys pt).ret = 0) :
    z.Checked ((encryptThenMac z c ep h keys pt).effects ++
      [.sendto (encryptThenMac z c ep h keys pt).ciphertext addr]) := by
  intro b a hb
  simp only [encryptThenMac_effects, List.singleton_append, List.mem_cons, reduceCtorEq,
    Effect.sendto.injEq, List.not_mem_nil, or_false, false_or] at hb
  obtain ⟨rfl, -⟩ := hb
  refine ⟨decide (0 < z.pktTagLen + pt.length ∧ z.pktTagLen + pt.length ≤ z.mss),
    List.mem_append_left _ (by rw [encryptThenMac_effects]; exact List.mem_singleton_self _),
    fun hok => ?_⟩
  have hle := (of_decide_eq_true hok).2
  rw [encryptThenMac_ciphertext_length z c h0]
  exact padLen_le z ep h hle

theorem checked_sealAndSend (keys : SymmetricKey) (pt : Bytes) :
    z.Checked (sealAndSend z c ep h keys pt addr).2 := by
  simp only [sealAndSend]
  split_ifs with he
  · exact .of_sentTo (by simp [Effect.sentAddr])
  · exact checked_sealed (not_not.mp he)

theorem checked_handshakeXmit {key : SymmetricKey} {pre : List Effect} (hpre : sentTo pre = []) :
    z.Checked (handshakeXmit z c ep h key addr pre s).effects := by
  simp only [handshakeXmit]
  split_ifs with he
  · exact .of_sentTo (by simp [hpre, Effect.sentAddr])
  · have hsplit : ∀ (l l' : List Effect) (x y : Effect),
        l ++ l' ++ [x, y] = l ++ (l' ++ [x]) ++ [y] := by simp
    rw [hsplit]
    exact (Sizes.Checked.unsent_append _ hpre (checked_sealed (not_not.mp he))).append
      (.of_sentTo (by simp [Effect.sentAddr]))


/-! Each handler and builder: its datagrams are checked. -/

theorem checked_onInitPkt : z.Checked (onInitPkt z c ep pkt addr h).effects := by
  simp only [onInitPkt]
  split_ifs
  · exact .of_sentTo rfl
  · exact .of_sentTo rfl
  · exact Sizes.Checked.unsent_append [_] rfl (checked_sealAndSend _ _)

theorem checked_onHandshakePkt {session : Option Session} :
    z.Checked (onHandshakePkt z c ep session pkt addr h).effects := by
  rcases onHandshakePkt_cases (o := onHandshakePkt z c ep session pkt addr h) rfl with
    ⟨he, -⟩ | ⟨-, -, -, ⟨-, -, hq⟩ | ⟨s, pre, ho, hpre, -⟩⟩
  · exact .of_sentTo (by simp [he])
  · exact .of_sentTo (sentTo_of_quiet hq)
  · rw [ho]
    exact checked_handshakeXmit (sentTo_of_quiet hpre)

theorem checked_lodpSendHandshakePkt : z.Checked (lodpSendHandshakePkt z c ep s h).effects := by
  simp only [lodpSendHandshakePkt]
  split_ifs
  · exact .of_sentTo rfl
  · exact Sizes.Checked.unsent_append [_, _] rfl (checked_sealAndSend _ _)

theorem checked_onInitAckPkt : z.Checked (onInitAckPkt z c ep s pkt h).effects := by
  simp only [onInitAckPkt, lodpHandshake]
  split_ifs
  · exact .of_sentTo rfl
  · exact .of_sentTo rfl
  · exact .of_sentTo rfl
  · exact checked_lodpSendHandshakePkt

theorem checked_onHeartbeatPkt : z.Checked (onHeartbeatPkt z c ep s pkt h).effects := by
  simp only [onHeartbeatPkt]
  split_ifs
  · exact .of_sentTo rfl
  · exact .of_sentTo rfl
  · exact Sizes.Checked.unsent_append [_] rfl (checked_sealAndSend _ _)

theorem checked_lodpOnIncomingPkt {session : Option Session} {buf : Buf} :
    z.Checked (lodpOnIncomingPkt z c ep session buf addr h).effects := by
  unfold lodpOnIncomingPkt
  split
  · exact .of_sentTo rfl
  · rename_i hd pkt _
    cases hd with
    | onInitPkt => exact checked_onInitPkt
    | onHandshakePkt => exact checked_onHandshakePkt
    | onDataPkt => exact .of_sentTo sentTo_onDataPkt
    | onInitAckPkt => exact checked_onInitAckPkt
    | onHandshakeAckPkt => exact .of_sentTo sentTo_onHandshakeAckPkt
    | onHeartbeatPkt => exact checked_onHeartbeatPkt
    | onHeartbeatAckPkt => exact .of_sentTo sentTo_onHeartbeatAckPkt

theorem checked_sendPayloadPkt {type : PktType} {p : Bytes} :
    z.Checked (sendPayloadPkt z c type ep s p h).effects := by
  simp only [sendPayloadPkt]
  split_ifs
  · exact .of_sentTo rfl
  · exact .of_sentTo rfl
  · exact Sizes.Checked.unsent_append [_, _] rfl (checked_sealAndSend _ _)

theorem checked_lodpSendInitPkt : z.Checked (lodpSendInitPkt z c ep s h).effects := by
  simp only [lodpSendInitPkt]
  split_ifs
  · exact .of_sentTo rfl
  · exact Sizes.Checked.unsent_append [_, _] rfl (checked_sealAndSend _ _)

end Sealed

theorem checked_step (sys : System) (e : Event) : z.Checked (step z c sys e).2 := by
  cases e with
  | packet a buf h => exact checked_lodpOnIncomingPkt
  | rotate h => exact .of_sentTo rfl

theorem checked_run (sys : System) (es : List Event) : z.Checked (run z c sys es).2 := by
  induction es generalizing sys with
  | nil => exact .of_sentTo rfl
  | cons e es ih => exact (checked_step sys e).append (ih _)

/-- Datagram sizes at every entry point of the core and over every run: when the `assert`s a
call reaches hold, every datagram it hands to `sendto_fn` is at most `LODP_MSS` bytes long. -/
structure FitsMss (z : Sizes) (c : Crypto) : Prop where
  incoming : ∀ ep session buf addr h, z.Fits (lodpOnIncomingPkt z c ep session buf addr h).effects
  data : ∀ ep s p h, z.Fits (lodpSendDataPkt z c ep s p h).effects
  heartbeat : ∀ ep s p h, z.Fits (lodpSendHeartbeatPkt z c ep s p h).effects
  init : ∀ ep s h, z.Fits (lodpSendInitPkt z c ep s h).effects
  handshake : ∀ ep s h, z.Fits (lodpSendHandshakePkt z c ep s h).effects
  run : ∀ sys es, z.Fits (run z c sys es).2

/-- No datagram exceeds the MSS unless an `assert` fails: the padding `pre_encrypt_fn` asks
for is clamped to `LODP_MSS - buf->len`, and every datagram is sealed after the `assert` of
`encrypt_then_mac` that `buf->len ≤ LODP_MSS`. -/
theorem datagrams_fit_mss : FitsMss z c where
  incoming _ _ _ _ _ := checked_lodpOnIncomingPkt.fits
  data _ _ _ _ := checked_sendPayloadPkt.fits
  heartbeat _ _ _ _ := checked_sendPayloadPkt.fits
  init _ _ _ := checked_lodpSendInitPkt.fits
  handshake _ _ _ := checked_lodpSendHandshakePkt.fits
  run sys es := (checked_run sys es).fits

/-- The DATA `[9]` that `smallPeer` sends reaches three `assert`s, all holding, and its
datagram fits in the MSS. -/
theorem datagrams_fit_mss_small :
    (lodpSendDataPkt Sizes.small Crypto.toy smallResponder smallPeer [9] smallHost).effects =
        [.assert .caller true, .assert .bufLen true, .assert .encryptLen true,
          .sendto [17, 17, 0, 0, 0, 0, 5, 9] smallAddr] ∧
      [17, 17, 0, 0, 0, 0, 5, 9].length ≤ Sizes.small.mss := by
  have he : (lodpSendDataPkt Sizes.small Crypto.toy smallResponder smallPeer [9] smallHost).effects =
      [.assert .caller true, .assert .bufLen true, .assert .encryptLen true,
        .sendto [17, 17, 0, 0, 0, 0, 5, 9] smallAddr] := by decide
  refine ⟨he, datagrams_fit_mss.data smallResponder smallPeer [9] smallHost ?_
    [17, 17, 0, 0, 0, 0, 5, 9] smallAddr (by rw [he]; simp)⟩
  rw [he]
  simp

end Lodp
