import Lodp.Table

/-! DATA over whole runs: delivered in arrival order, once per copy, with no deduplication (§5). -/
namespace Lodp

/-- The payload an effect hands to `on_recv_fn`. -/
def Effect.recvPayload : Effect → Option Bytes
  | .onRecv p => some p
  | _ => none

/-- The payloads handed to `on_recv_fn`, in order. -/
def delivered (es : List Effect) : List Bytes := es.filterMap Effect.recvPayload

@[simp] theorem delivered_nil : delivered [] = [] := rfl

@[simp] theorem delivered_append (es es' : List Effect) :
    delivered (es ++ es') = delivered es ++ delivered es' :=
  List.filterMap_append ..

/-- Event `e` brings from `a` a datagram that `lodp_send_data_pkt` handed to `sendto_fn`,
with payload `p`, for a session whose `tx_key` is `k`. -/
def DataFrom (z : Sizes) (c : Crypto) (a : SockAddr) (k : SymmetricKey) (p : Bytes)
    (e : Event) : Prop :=
  ∃ ep s h b a' old h', s.txKey = k ∧ z.pktHdrLen + p.length < 2 ^ (8 * z.sizeLen) ∧
    Effect.sendto b a' ∈ (lodpSendDataPkt z c ep s p h).effects ∧ e = .packet a ⟨b, old⟩ h'

variable {z : Sizes} {c : Crypto}

theorem delivered_scrubHandshakeMaterial (s : Session) :
    delivered (scrubHandshakeMaterial z s).2 = [] := by
  unfold scrubHandshakeMaterial
  split <;> rfl

theorem delivered_onDataPkt {ep : Endpoint} {s : Session} {pkt : Pkt} {h : Host}
    (hst : s.state = .established) : delivered (onDataPkt z ep s pkt h).effects = [pkt.body] := by
  unfold onDataPkt
  rw [if_neg (not_not.mpr hst)]
  cases s.seenPeerData <;> cases s.isInitiator <;>
    simp only [Bool.not_false, Bool.not_true, ↓reduceIte, Bool.false_eq_true, delivered_append,
      delivered_scrubHandshakeMaterial, List.nil_append] <;> rfl

section Run
variable (hinv : c.Inverts) {sys : System} {a : SockAddr} {r : Session} {k : SymmetricKey}
include hinv

theorem step_dataFrom {p : Bytes} {e : Event} (hs : sys.sessions a = some r)
    (hst : r.state = .established) (hr : r.rxKey = k) (hd : DataFrom z c a k p e) :
    delivered (step z c sys e).2 = [p] ∧
      ∃ r', (step z c sys e).1.sessions a = some r' ∧ r'.state = .established ∧ r'.rxKey = k := by
  obtain ⟨ep, s, h, b, a', old, h', hk, hw, hb, rfl⟩ := hd
  have hdel : Delivers z c sys.ep (some r) b (.onDataPkt r) _ :=
    roundTrip_payload hinv hw hb (hr.trans hk.symm) rfl
  obtain ⟨pkt, ⟨hbody, -⟩, hin⟩ := hdel.incoming old a h'
  obtain ⟨r', hr', hf⟩ := @onDataPkt_frame z sys.ep r pkt h'
  obtain ⟨he, -, hrx⟩ := hf.established hst
  simp only [step, hs, hin, runHandler, Function.update_same]
  exact ⟨by rw [delivered_onDataPkt hst, hbody], r', hr', he, hrx.trans hr⟩

/-- In-order delivery without deduplication. When an ESTABLISHED session receives, one after
another, datagrams that `lodp_send_data_pkt` sent under its peer's `tx_key`, `on_recv_fn`
gets exactly their payloads, in the order the datagrams arrive, a duplicated datagram once
per copy, whatever padding each carries and whatever the receive buffers held; and after
every such run, so after each of its prefixes, the session is ESTABLISHED under the same
`rx_key`. -/
theorem data_in_arrival_order (hs : sys.sessions a = some r) (hst : r.state = .established)
    (hr : r.rxKey = k) {ps : List Bytes} {es : List Event}
    (hd : List.Forall₂ (DataFrom z c a k) ps es) :
    delivered (run z c sys es).2 = ps ∧
      ∃ r', (run z c sys es).1.sessions a = some r' ∧ r'.state = .established ∧ r'.rxKey = k := by
  induction hd generalizing sys r with
  | nil => exact ⟨rfl, r, hs, hst, hr⟩
  | cons hpe _ ih =>
    obtain ⟨h1, r', hs', hst', hr'⟩ := step_dataFrom hinv hs hst hr hpe
    obtain ⟨hdel, hrun⟩ := ih hs' hst' hr'
    rw [run_cons, delivered_append, h1, hdel, List.singleton_append]
    exact ⟨rfl, hrun⟩

end Run

/-- The DATA `[9]` that `smallPeer` sends, arriving twice at `smallPeer'`: delivered twice. -/
theorem data_in_arrival_order_small :
    delivered (run Sizes.small Crypto.toy
      ⟨smallResponder, Function.update (fun _ => none) smallAddr (some smallPeer')⟩
      [.packet smallAddr ⟨[17, 17, 0, 0, 0, 0, 5, 9], []⟩ smallHost,
        .packet smallAddr ⟨[17, 17, 0, 0, 0, 0, 5, 9], []⟩ smallHost]).2 = [[9], [9]] ∧
      ∃ r', (run Sizes.small Crypto.toy
        ⟨smallResponder, Function.update (fun _ => none) smallAddr (some smallPeer')⟩
        [.packet smallAddr ⟨[17, 17, 0, 0, 0, 0, 5, 9], []⟩ smallHost,
          .packet smallAddr ⟨[17, 17, 0, 0, 0, 0, 5, 9], []⟩ smallHost]).1.sessions smallAddr =
        some r' ∧ r'.state = .established ∧ r'.rxKey = smallPeer.txKey :=
  data_in_arrival_order (r := smallPeer') (k := smallPeer.txKey) (fun _ _ _ _ => rfl) (by simp)
    rfl rfl
    (.cons ⟨smallResponder, smallPeer, smallHost, [17, 17, 0, 0, 0, 0, 5, 9], smallAddr, [],
        smallHost, rfl, by decide, by decide, rfl⟩
      (.cons ⟨smallResponder, smallPeer, smallHost, [17, 17, 0, 0, 0, 0, 5, 9], smallAddr, [],
        smallHost, rfl, by decide, by decide, rfl⟩ .nil))

end Lodp
