import Lodp.Table

/-! An endpoint without intro keys is a client only: strangers' datagrams change nothing. -/
namespace Lodp

variable {z : Sizes} {c : Crypto}

theorem lodpOnIncomingPkt_client {ep : Endpoint} {buf : Buf} {addr : SockAddr} {h : Host}
    (hk : ep.hasIntroKeys = false) :
    lodpOnIncomingPkt z c ep none buf addr h = ⟨lodpErrNotResponder, ep, none, []⟩ := by
  simp [lodpOnIncomingPkt, demux, decryptIncoming, decryptWithIntroKeys, hk]

section Run
variable {sys : System}

theorem step_hasIntroKeys (e : Event) :
    (step z c sys e).1.ep.hasIntroKeys = sys.ep.hasIntroKeys := by
  obtain ⟨k, pk, rt, et, he⟩ := @step_ep z c sys e
  rw [he]

theorem step_client {a : SockAddr} (hk : sys.ep.hasIntroKeys = false)
    (hs : sys.sessions a = none) (buf : Buf) (h : Host) :
    step z c sys (.packet a buf h) = (sys, []) := by
  simp only [step, hs, lodpOnIncomingPkt_client hk]
  rw [← hs, Function.update_eq_self]

theorem step_held (hk : sys.ep.hasIntroKeys = false) (e : Event) (a : SockAddr) :
    ((step z c sys e).1.sessions a).isSome = (sys.sessions a).isSome := by
  cases hs : sys.sessions a with
  | none =>
    cases e with
    | packet a' buf h =>
      by_cases ha : a' = a
      · subst ha
        rw [step_client hk hs, hs]
      · simp only [step, Function.update_noteq (Ne.symm ha), hs]
    | rotate h => simp only [step, hs]
  | some s =>
    obtain ⟨s', hs', -⟩ := step_frame (z := z) (c := c) e hs
    rw [hs']
    rfl

/-- A client endpoint is closed to strangers. Over every run of an endpoint without intro
keys, from any table, the table holds a session for exactly the addresses it held one for,
and the datagrams from every other address can be dropped without changing the final
table, the endpoint or any effect of the run: none is answered, reaches a callback or
creates a session. -/
theorem client_endpoint_closed (hk : sys.ep.hasIntroKeys = false) (es : List Event) :
    (fun a => ((run z c sys es).1.sessions a).isSome) = (fun a => (sys.sessions a).isSome) ∧
      run z c sys (es.filter fun e => e.source.all fun a => (sys.sessions a).isSome) =
        run z c sys es := by
  induction es generalizing sys with
  | nil => exact ⟨rfl, rfl⟩
  | cons e es ih =>
    have hk' : (step z c sys e).1.ep.hasIntroKeys = false := (step_hasIntroKeys e).trans hk
    have hheld : (fun a => ((step z c sys e).1.sessions a).isSome) =
        (fun a => (sys.sessions a).isSome) := funext (step_held hk e)
    obtain ⟨ih1, ih2⟩ := ih hk'
    rw [hheld] at ih2
    refine ⟨by rw [run_cons, ih1, hheld], ?_⟩
    cases hp : e.source.all fun a => (sys.sessions a).isSome
    · obtain ⟨a, buf, h, rfl, hs⟩ : ∃ a buf h, e = .packet a buf h ∧ sys.sessions a = none := by
        cases e with
        | packet a buf h => exact ⟨a, buf, h, rfl, by simpa [Event.source] using hp⟩
        | rotate h => cases hp
      rw [step_client hk hs] at ih2
      rw [List.filter_cons_of_neg (by simp [hp]), run_cons, step_client hk hs]
      exact ih2.trans (by rw [List.nil_append])
    · rw [List.filter_cons, if_pos hp, run_cons, run_cons, ih2]

/-- `smallResponder` without intro keys, holding the ESTABLISHED initiator `smallPeer`. -/
def smallClient : System :=
  ⟨{ smallResponder with hasIntroKeys := false }, Function.update (fun _ => none) smallAddr (some smallPeer)⟩

/-- A HANDSHAKE from another address, then a DATA from `smallAddr` under the `rx_key` of
`smallPeer`. -/
theorem client_endpoint_closed_small :
    (fun a => ((run Sizes.small Crypto.toy smallClient
        [.packet (.other 7) smallHandshakeDatagram smallHost,
          .packet smallAddr ⟨[25, 25, 0, 0, 0, 0, 5, 9], []⟩ smallHost]).1.sessions a).isSome) =
        (fun a => (smallClient.sessions a).isSome) ∧
      run Sizes.small Crypto.toy smallClient
          ([.packet (.other 7) smallHandshakeDatagram smallHost,
            .packet smallAddr ⟨[25, 25, 0, 0, 0, 0, 5, 9], []⟩ smallHost].filter
              fun e => e.source.all fun a => (smallClient.sessions a).isSome) =
        run Sizes.small Crypto.toy smallClient
          [.packet (.other 7) smallHandshakeDatagram smallHost,
            .packet smallAddr ⟨[25, 25, 0, 0, 0, 0, 5, 9], []⟩ smallHost] :=
  client_endpoint_closed rfl _

end Run

end Lodp
