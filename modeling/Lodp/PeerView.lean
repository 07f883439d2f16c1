import Lodp.Failure
import Lodp.Isolation

/-! The host's view of a peer: a peer machine over callbacks that every run refines. -/
namespace Lodp

/-- What the host can know of a peer: no session; an initiator in INIT (connecting), in
HANDSHAKE (waiting for the HANDSHAKE ACK), ESTABLISHED (connected) or in ERROR (failed); or a
responder's session. -/
inductive PeerView where
  | absent | connecting | waiting | connected | failed | accepted
  deriving DecidableEq

/-- The view of a session. -/
def Session.view (s : Session) : PeerView :=
  if s.isInitiator then
    match s.state with
    | .init => .connecting
    | .handshake => .waiting
    | .established => .connected
    | .error => .failed
  else .accepted

/-- The view of a peer's entry in the table. -/
def PeerView.of : Option Session → PeerView
  | none => .absent
  | some s => s.view

namespace PeerView

/-- The moves the host is not told of: a responder session kept although its HANDSHAKE ACK
could not be sealed, and an initiator moving on to send its HANDSHAKE. -/
inductive Silent : PeerView → PeerView → Prop
  | created : Silent absent accepted
  | handshake : Silent connecting waiting

/-- The moves the host is told of, labelled by the callback: a responder session is accepted
(again, for a retransmitted HANDSHAKE), a waiting initiator connects with status 0, a
connecting or waiting one fails with a nonzero status, and an open session gets traffic. -/
inductive Step : PeerView → Effect → PeerView → Prop
  | accept (a : SockAddr) : Step absent (.onAccept a) accepted
  | reaccept (a : SockAddr) : Step accepted (.onAccept a) accepted
  | connect : Step waiting (.onConnect 0) connected
  | fail {v : PeerView} {st : Int} (hv : v = connecting ∨ v = waiting) (hst : st ≠ 0) :
      Step v (.onConnect st) failed
  | traffic {v : PeerView} {f : Effect} (hv : v = connected ∨ v = accepted) (hf : f.isTraffic) :
      Step v f v

/-- A path of the peer machine from `u` to `w`, with the callbacks of its labelled moves in
order. -/
inductive Trace : PeerView → List Effect → PeerView → Prop
  | refl (v : PeerView) : Trace v [] v
  | silent {u v w : PeerView} {fs : List Effect} : Silent u v → Trace v fs w → Trace u fs w
  | step {u v w : PeerView} {f : Effect} {fs : List Effect} :
      Step u f v → Trace v fs w → Trace u (f :: fs) w

theorem Step.trace {u v : PeerView} {f : Effect} (h : Step u f v) : Trace u [f] v :=
  .step h (.refl v)

theorem Silent.trace {u v : PeerView} (h : Silent u v) : Trace u [] v :=
  .silent h (.refl v)

theorem Trace.append {u v w : PeerView} {fs gs : List Effect} (h : Trace u fs v)
    (h' : Trace v gs w) : Trace u (fs ++ gs) w := by
  induction h with
  | refl => exact h'
  | silent hs _ ih => exact .silent hs (ih h')
  | step hs _ ih => exact .step hs (ih h')

theorem Trace.of_failed {fs : List Effect} {w : PeerView} (h : Trace failed fs w) :
    fs = [] ∧ w = failed := by
  cases h with
  | refl => exact ⟨rfl, rfl⟩
  | silent hs => cases hs
  | step hs =>
    cases hs with
    | fail hv => rcases hv with hv | hv <;> cases hv
    | traffic hv => rcases hv with hv | hv <;> cases hv

theorem Trace.of_connected {u w : PeerView} {fs : List Effect} (h : Trace u fs w)
    (hu : u = connected) : (∀ f ∈ fs, f.isTraffic) ∧ w = connected := by
  induction h with
  | refl => exact ⟨fun _ h => (nomatch h), hu⟩
  | silent hs => subst hu; cases hs
  | step hs _ ih =>
    subst hu
    cases hs with
    | fail hv => rcases hv with hv | hv <;> cases hv
    | traffic _ hf =>
      obtain ⟨h1, h2⟩ := ih rfl
      exact ⟨List.forall_mem_cons.mpr ⟨hf, h1⟩, h2⟩

theorem Trace.initiator {u w : PeerView} {fs : List Effect} (hu : u = connecting ∨ u = waiting)
    (h : Trace u fs w) :
    (fs = [] ∧ (w = connecting ∨ w = waiting)) ∨
      (∃ st, st ≠ 0 ∧ fs = [.onConnect st] ∧ w = failed) ∨
      ∃ ts, fs = .onConnect 0 :: ts ∧ (∀ f ∈ ts, f.isTraffic) ∧ w = connected := by
  induction h with
  | refl => exact .inl ⟨rfl, hu⟩
  | silent hs _ ih =>
    cases hs with
    | created => rcases hu with hu | hu <;> cases hu
    | handshake => exact ih (.inr rfl)
  | @step u v w f fs hs ht _ =>
    cases hs with
    | accept => rcases hu with hu | hu <;> cases hu
    | reaccept => rcases hu with hu | hu <;> cases hu
    | connect =>
      obtain ⟨h1, h2⟩ := ht.of_connected rfl
      exact .inr (.inr ⟨fs, rfl, h1, h2⟩)
    | @fail _ st _ hst =>
      obtain ⟨rfl, rfl⟩ := ht.of_failed
      exact .inr (.inl ⟨st, hst, rfl, rfl⟩)
    | traffic hv => rcases hu with rfl | rfl <;> rcases hv with hv | hv <;> cases hv

end PeerView

/-- The callbacks in a list of effects, in order. -/
def callbacks (fs : List Effect) : List Effect := fs.filter Effect.isCallback

/-- The callbacks the host gets for peer `a`, in order. -/
def callbacksFor (a : SockAddr) (t : List (SockAddr × Effect)) : List Effect :=
  callbacks ((t.filter fun p => p.1 = a).map Prod.snd)

@[simp] theorem callbacks_nil : callbacks [] = [] := rfl

@[simp] theorem callbacks_append (fs gs : List Effect) :
    callbacks (fs ++ gs) = callbacks fs ++ callbacks gs :=
  List.filter_append ..

theorem callbacks_eq_nil {fs : List Effect} (h : ∀ f, f.isCallback = true → f ∉ fs) :
    callbacks fs = [] :=
  List.filter_eq_nil_iff.mpr fun f hf hc => h f hc hf

theorem callbacks_of_quiet {fs : List Effect} (h : fs.all Effect.isQuiet = true) :
    callbacks fs = [] :=
  callbacks_eq_nil fun f hc hf => by
    simp [Effect.isCallback_of_isQuiet (List.all_eq_true.mp h f hf)] at hc

theorem callbacksFor_append (a : SockAddr) (t t' : List (SockAddr × Effect)) :
    callbacksFor a (t ++ t') = callbacksFor a t ++ callbacksFor a t' := by
  simp only [callbacksFor, List.filter_append, List.map_append, callbacks_append]

variable {z : Sizes} {c : Crypto}

/-! Each handler is a path of the peer machine, from the view of the session it is given to
the view of the session it leaves, labelled by the callbacks it makes. -/

section Handlers
open PeerView
variable {ep : Endpoint} {s : Session} {pkt : Pkt} {addr : SockAddr} {h : Host}

theorem Session.view_responder (hr : s.isInitiator = false) : s.view = .accepted := by
  simp [Session.view, hr]

theorem Session.view_established (hst : s.state = .established) :
    s.view = .connected ∨ s.view = .accepted := by
  unfold Session.view
  cases s.isInitiator <;> simp [hst]

theorem handshakeXmit_trace {key : SymmetricKey} {pre : List Effect} {u : PeerView}
    (hpre : callbacks pre = []) (hr : s.isInitiator = false) (hu : u = .absent ∨ u = .accepted) :
    Trace u (callbacks (handshakeXmit z c ep h key addr pre s).effects) s.view := by
  have hq : callbacks (encryptThenMac z c ep h key (handshakeAckPkt z s)).effects = [] := by
    simp [callbacks, Effect.isCallback]
  rw [Session.view_responder hr]
  simp only [handshakeXmit]
  split_ifs
  · rw [callbacks_append, hpre, hq]
    rcases hu with rfl | rfl
    exacts [Silent.created.trace, .refl _]
  · simp only [callbacks_append, hpre, hq]
    rcases hu with rfl | rfl
    exacts [(Step.accept addr).trace, (Step.reaccept addr).trace]

theorem onHandshakePkt_trace {session : Option Session}
    (hr : ∀ s, session = some s → s.isInitiator = false) :
    Trace (PeerView.of session) (callbacks (onHandshakePkt z c ep session pkt addr h).effects)
      (PeerView.of (onHandshakePkt z c ep session pkt addr h).session) := by
  rcases onHandshakePkt_cases (o := onHandshakePkt z c ep session pkt addr h) rfl with
    ⟨he, hs, -⟩ | ⟨-, -, -, ⟨-, hs, hq⟩ | ⟨s, pre, ho, hpre, -, hs⟩⟩
  · rw [he, hs]
    exact .refl _
  · rw [hs, callbacks_of_quiet hq]
    exact .refl _
  · rw [ho, handshakeXmit_session]
    rcases hs with rfl | ⟨rfl, hr', -⟩
    · exact handshakeXmit_trace (callbacks_of_quiet hpre) (hr s rfl)
        (.inr (Session.view_responder (hr s rfl)))
    · exact handshakeXmit_trace (callbacks_of_quiet hpre) hr' (.inl rfl)

theorem onDataPkt_trace :
    Trace s.view (callbacks (onDataPkt z ep s pkt h).effects)
      (PeerView.of (onDataPkt z ep s pkt h).session) := by
  unfold onDataPkt
  by_cases hst : s.state = .established
  · rw [if_neg (not_not.mpr hst)]
    have hrecv : ∀ (t : Session) (fs : List Effect), callbacks fs = [] → t.view = s.view →
        Trace s.view (callbacks (fs ++ [.onRecv pkt.body])) (PeerView.of (some t)) :=
      fun t fs hfs hv => by
        rw [callbacks_append, hfs, PeerView.of, hv]
        exact (Step.traffic (f := .onRecv pkt.body) (Session.view_established hst) rfl).trace
    split_ifs
    · exact hrecv _ _ (callbacks_eq_nil fun _ hc => not_mem_scrubHandshakeMaterial hc)
        (by simp [Session.view])
    · exact hrecv _ [] rfl (by simp [Session.view])
    · exact hrecv _ [] rfl rfl
  · rw [if_pos hst]
    exact .refl _

theorem onInitAckPkt_trace :
    Trace s.view (callbacks (onInitAckPkt z c ep s pkt h).effects)
      (PeerView.of (onInitAckPkt z c ep s pkt h).session) := by
  unfold onInitAckPkt
  by_cases h1 : (!s.isInitiator) = true ∨ s.state ≠ .init
  · rw [if_pos h1]
    exact .refl _
  by_cases h2 : pkt.length - pktTlvLen = 0
  · rw [if_neg h1, if_pos h2]
    exact .refl _
  rw [if_neg h1, if_neg h2]
  simp only [not_or, Bool.not_eq_true', Bool.not_eq_false, not_not] at h1
  have hv : s.view = .connecting := by simp [Session.view, h1.1, h1.2]
  rw [hv]
  cases h.cookieAlloc
  · rw [if_pos (by decide : (!false) = true)]
    simp only [callbacks, List.filter, Effect.isCallback, PeerView.of, Session.view, h1.1, if_true]
    exact (Step.fail (.inl rfl) (by simp [lodpErrNobufs])).trace
  · rw [if_neg (by decide : ¬(!true) = true), lodpHandshake, lodpSendHandshakePkt_session,
      callbacks_eq_nil fun _ hc => not_mem_lodpSendHandshakePkt hc]
    simp only [PeerView.of, Session.view, h1.1, if_true]
    exact Silent.handshake.trace

theorem onHandshakeAckPkt_trace :
    Trace s.view (callbacks (onHandshakeAckPkt z c ep s pkt h).effects)
      (PeerView.of (onHandshakeAckPkt z c ep s pkt h).session) := by
  unfold onHandshakeAckPkt
  by_cases h1 : (!s.isInitiator) = true ∨ s.state ≠ .handshake
  · rw [if_pos h1]
    exact .refl _
  by_cases h2 : z.pktHdrHandshakeAckLen ≠ pkt.length
  · rw [if_neg h1, if_pos h2]
    exact .refl _
  rw [if_neg h1, if_neg h2, callbacks_append,
    callbacks_eq_nil fun _ hc => not_mem_scrubHandshakeMaterial hc]
  simp only [not_or, Bool.not_eq_true', Bool.not_eq_false, not_not] at h1
  have hv : s.view = .waiting := by simp [Session.view, h1.1, h1.2]
  rw [hv]
  dsimp only
  split_ifs with h3 h4 <;>
    simp only [callbacks, List.filter, Effect.isCallback, PeerView.of, Session.view,
      scrubHandshakeMaterial_isInitiator, scrubHandshakeMaterial_state, ntorHandshake_isInitiator,
      h1.1, if_true, List.nil_append]
  · exact (Step.fail (.inr rfl) h3).trace
  · exact (Step.fail (.inr rfl) (by simp [lodpErrBadHandshake])).trace
  · exact Step.connect.trace

theorem onHeartbeatAckPkt_trace :
    Trace s.view (callbacks (onHeartbeatAckPkt ep s pkt).effects)
      (PeerView.of (onHeartbeatAckPkt ep s pkt).session) := by
  rw [onHeartbeatAckPkt_session]
  unfold onHeartbeatAckPkt
  split_ifs with hst
  · exact .refl _
  · exact (Step.traffic (f := .onHeartbeatAck pkt.body)
      (Session.view_established (not_not.mp hst)) rfl).trace
  · exact .refl _

theorem lodpOnIncomingPkt_trace {session : Option Session} {buf : Buf} :
    Trace (PeerView.of session) (callbacks (lodpOnIncomingPkt z c ep session buf addr h).effects)
      (PeerView.of (lodpOnIncomingPkt z c ep session buf addr h).session) := by
  unfold lodpOnIncomingPkt
  split
  · exact .refl _
  · rename_i hd pkt hdm
    rcases session with _ | s
    · rcases demux_none hdm with rfl | ⟨rfl, -⟩
      · rw [runHandler, onInitPkt_session, callbacks_eq_nil fun _ hc => onInitPkt_callback hc]
        exact .refl _
      · exact onHandshakePkt_trace fun _ h => by cases h
    · rcases demux_some hdm with ⟨rfl, hr⟩ | rfl | rfl | rfl | rfl | rfl
      · exact onHandshakePkt_trace fun _ h => Option.some.inj h ▸ hr
      · exact onDataPkt_trace
      · exact onInitAckPkt_trace
      · exact onHandshakeAckPkt_trace
      · rw [runHandler, onHeartbeatPkt_session,
          callbacks_eq_nil fun _ hc => onHeartbeatPkt_callback hc]
        exact .refl _
      · exact onHeartbeatAckPkt_trace

end Handlers

section Run
open PeerView
variable {sys : System} {a : SockAddr}

theorem callbacksFor_tag_self (buf : Buf) (h : Host) (fs : List Effect) :
    callbacksFor a ((Event.packet a buf h).tag fs) = callbacks fs := by
  rw [callbacksFor, filter_tag_self]
  simp [Event.tag]

theorem callbacksFor_tag_other {e : Event} (he : e.source ≠ some a) (fs : List Effect) :
    callbacksFor a (e.tag fs) = [] := by
  rw [callbacksFor, filter_tag_other he]
  rfl

theorem step_trace (e : Event) :
    Trace (PeerView.of (sys.sessions a)) (callbacksFor a (e.tag (step z c sys e).2))
      (PeerView.of ((step z c sys e).1.sessions a)) := by
  by_cases he : e.source = some a
  · cases e with
    | rotate h => cases he
    | packet a' buf h =>
      cases he
      rw [callbacksFor_tag_self]
      simpa only [step, Function.update_same] using lodpOnIncomingPkt_trace
  · rw [callbacksFor_tag_other he]
    cases e with
    | rotate h => exact .refl _
    | packet a' buf h =>
      simp only [step, Function.update_noteq (fun ha : a = a' => he (by rw [ha]; rfl))]
      exact .refl _

theorem run_trace (sys : System) (es : List Event) :
    Trace (PeerView.of (sys.sessions a)) (callbacksFor a (calls z c sys es))
      (PeerView.of ((run z c sys es).1.sessions a)) := by
  induction es generalizing sys with
  | nil => exact .refl _
  | cons e es ih =>
    rw [calls, callbacksFor_append, run_cons]
    exact step_trace e |>.append (ih _)

/-- The endpoint refines the peer machine. Over every run, from any table, the callbacks the
host gets for a peer, in order, label a path of the peer machine from the view of the peer's
session when the run began to its view when the run ends; every change of view the host is
not told of is a silent move. -/
theorem peer_machine_refinement (sys : System) (es : List Event) (a : SockAddr) :
    Trace (PeerView.of (sys.sessions a)) (callbacksFor a (calls z c sys es))
      (PeerView.of ((run z c sys es).1.sessions a)) :=
  run_trace sys es

/-! What the host hears of an initiator, read off the peer machine. -/

theorem Session.view_connecting {s : Session} (hc : s.Connecting) :
    s.view = .connecting ∨ s.view = .waiting := by
  obtain ⟨hi, hst | hst⟩ := hc <;> simp [Session.view, hi, hst]

theorem PeerView.of_connecting {o : Option Session}
    (h : PeerView.of o = .connecting ∨ PeerView.of o = .waiting) : ∃ s, o = some s ∧ s.Connecting := by
  rcases o with _ | s
  · rcases h with h | h <;> cases h
  · refine ⟨s, rfl, ?_⟩
    simp only [PeerView.of, Session.view] at h
    cases hi : s.isInitiator <;> cases hs : s.state <;> simp_all [Session.Connecting]

theorem PeerView.of_eq_failed {o : Option Session} (h : PeerView.of o = .failed) :
    ∃ s, o = some s ∧ s.Failed := by
  rcases o with _ | s
  · cases h
  · refine ⟨s, rfl, ?_⟩
    simp only [PeerView.of, Session.view] at h
    cases hi : s.isInitiator <;> cases hs : s.state <;> simp_all [Session.Failed]

theorem PeerView.of_eq_connected {o : Option Session} (h : PeerView.of o = .connected) :
    ∃ s, o = some s ∧ s.Connected := by
  rcases o with _ | s
  · cases h
  · refine ⟨s, rfl, ?_⟩
    simp only [PeerView.of, Session.view] at h
    cases hi : s.isInitiator <;> cases hs : s.state <;> simp_all [Session.Connected]

/-- What the host hears of an initiator. Over every run, from a table whose session for `a`
is an initiator in INIT or HANDSHAKE, the callbacks the host gets for `a` are exactly one of:
none, with the session still in INIT or HANDSHAKE; one `on_connect_fn` with a nonzero status,
with the session in ERROR; or `on_connect_fn` with status 0 followed by traffic only, with the
session ESTABLISHED. -/
theorem initiator_callbacks {s : Session} (hs : sys.sessions a = some s) (hc : s.Connecting)
    (es : List Event) :
    (callbacksFor a (calls z c sys es) = [] ∧ (run z c sys es).1.Connecting a) ∨
      (∃ st, st ≠ 0 ∧ callbacksFor a (calls z c sys es) = [.onConnect st] ∧
        (run z c sys es).1.Failed a) ∨
      ∃ ts, callbacksFor a (calls z c sys es) = .onConnect 0 :: ts ∧ (∀ f ∈ ts, f.isTraffic) ∧
        ∃ s', (run z c sys es).1.sessions a = some s' ∧ s'.Connected := by
  have ht := run_trace (z := z) (c := c) (a := a) sys es
  rw [hs] at ht
  rcases ht.initiator (Session.view_connecting hc) with
    ⟨h1, h2⟩ | ⟨st, hst, h1, h2⟩ | ⟨ts, h1, h2, h3⟩
  · exact .inl ⟨h1, PeerView.of_connecting h2⟩
  · exact .inr (.inl ⟨st, hst, h1, PeerView.of_eq_failed h2⟩)
  · exact .inr (.inr ⟨ts, h1, h2, PeerView.of_eq_connected h3⟩)

/-- `smallConnecting` gets its INIT ACK when no cookie buffer can be allocated. -/
theorem initiator_callbacks_small :
    (callbacksFor smallAddr (calls Sizes.small Crypto.toy
        ⟨smallResponder, Function.update (fun _ => none) smallAddr (some smallConnecting)⟩
        [.packet smallAddr smallInitAckDatagram { smallHost with cookieAlloc := false }]) = [] ∧
      (run Sizes.small Crypto.toy
        ⟨smallResponder, Function.update (fun _ => none) smallAddr (some smallConnecting)⟩
        [.packet smallAddr smallInitAckDatagram { smallHost with cookieAlloc := false }]).1.Connecting
        smallAddr) ∨
    (∃ st, st ≠ 0 ∧ callbacksFor smallAddr (calls Sizes.small Crypto.toy
        ⟨smallResponder, Function.update (fun _ => none) smallAddr (some smallConnecting)⟩
        [.packet smallAddr smallInitAckDatagram { smallHost with cookieAlloc := false }]) =
        [.onConnect st] ∧
      (run Sizes.small Crypto.toy
        ⟨smallResponder, Function.update (fun _ => none) smallAddr (some smallConnecting)⟩
        [.packet smallAddr smallInitAckDatagram { smallHost with cookieAlloc := false }]).1.Failed
        smallAddr) ∨
    ∃ ts, callbacksFor smallAddr (calls Sizes.small Crypto.toy
        ⟨smallResponder, Function.update (fun _ => none) smallAddr (some smallConnecting)⟩
        [.packet smallAddr smallInitAckDatagram { smallHost with cookieAlloc := false }]) =
        .onConnect 0 :: ts ∧ (∀ f ∈ ts, f.isTraffic) ∧
      ∃ s', (run Sizes.small Crypto.toy
        ⟨smallResponder, Function.update (fun _ => none) smallAddr (some smallConnecting)⟩
        [.packet smallAddr smallInitAckDatagram { smallHost with cookieAlloc := false }]).1.sessions
        smallAddr = some s' ∧ s'.Connected :=
  initiator_callbacks (s := smallConnecting) (by simp) ⟨rfl, .inl rfl⟩ _

end Run

end Lodp
