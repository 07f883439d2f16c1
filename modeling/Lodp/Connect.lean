import Lodp.Table

/-! `on_connect_fn` over whole runs: an initiator hears the outcome of its handshake once. -/
namespace Lodp

/-- An initiator whose handshake has not finished: the sessions `on_connect_fn` is for. -/
def Session.Connecting (s : Session) : Prop :=
  s.isInitiator = true ∧ (s.state = .init ∨ s.state = .handshake)

instance (s : Session) : Decidable s.Connecting := inferInstanceAs (Decidable (_ ∧ _))

/-- The peer `a` has a session that is still connecting. -/
def System.Connecting (sys : System) (a : SockAddr) : Prop :=
  ∃ s, sys.sessions a = some s ∧ s.Connecting

/-- A call of `on_connect_fn`. -/
def Effect.isOnConnect : Effect → Bool
  | .onConnect _ => true
  | _ => false

variable (z : Sizes) (c : Crypto)

/-- The sources of the steps of a run that call `on_connect_fn`, in order. -/
def connects (sys : System) : List Event → List SockAddr
  | [] => []
  | e :: es =>
    (if (step z c sys e).2.any Effect.isOnConnect then e.source.toList else []) ++
      connects (step z c sys e).1 es

variable {z c}

theorem SessionStep.connecting {s s' : Session} (h : SessionStep s s') (hc : s'.Connecting) :
    s.Connecting := by
  obtain ⟨edge, role, -, -⟩ := h
  refine ⟨role.symm.trans hc.1, ?_⟩
  rcases edge with he | ⟨he, -⟩ | ⟨he, -⟩
  · exact he ▸ hc.2
  · exact .inl he
  · exact .inr he

section Handlers
variable {ep : Endpoint} {s : Session} {pkt : Pkt} {buf : Buf} {addr : SockAddr} {h : Host}
  {st : Int}

theorem onInitAckPkt_onConnect
    (he : Effect.onConnect st ∈ (onInitAckPkt z c ep s pkt h).effects) :
    s.Connecting ∧ ∃ s', (onInitAckPkt z c ep s pkt h).session = some s' ∧
      ¬ s'.Connecting ∧ (st = 0 ↔ s'.state = .established) := by
  unfold onInitAckPkt at he ⊢
  by_cases h1 : (!s.isInitiator) = true ∨ s.state ≠ .init
  · rw [if_pos h1] at he
    cases he
  by_cases h2 : pkt.length - pktTlvLen = 0
  · rw [if_neg h1, if_pos h2] at he
    cases he
  rw [if_neg h1, if_neg h2] at he ⊢
  simp only [not_or, Bool.not_eq_true', Bool.not_eq_false, not_not] at h1
  cases hb : h.cookieAlloc
  · rw [hb, if_pos (by decide : (!false) = true), List.mem_singleton,
      Effect.onConnect.injEq] at he
    rw [if_pos (by decide : (!false) = true)]
    subst he
    exact ⟨⟨h1.1, .inl h1.2⟩, _, rfl, by simp [Session.Connecting], by simp [lodpErrNobufs]⟩
  · rw [hb, if_neg (by decide : ¬(!true) = true)] at he
    exact absurd he (not_mem_lodpSendHandshakePkt rfl)

theorem onHandshakeAckPkt_onConnect
    (he : Effect.onConnect st ∈ (onHandshakeAckPkt z c ep s pkt h).effects) :
    s.Connecting ∧ ∃ s', (onHandshakeAckPkt z c ep s pkt h).session = some s' ∧
      ¬ s'.Connecting ∧ (st = 0 ↔ s'.state = .established) := by
  unfold onHandshakeAckPkt at he ⊢
  by_cases h1 : (!s.isInitiator) = true ∨ s.state ≠ .handshake
  · rw [if_pos h1] at he
    cases he
  by_cases h2 : z.pktHdrHandshakeAckLen ≠ pkt.length
  · rw [if_neg h1, if_pos h2] at he
    cases he
  rw [if_neg h1, if_neg h2, List.mem_append, List.mem_singleton] at he
  rw [if_neg h1, if_neg h2]
  simp only [not_or, Bool.not_eq_true', Bool.not_eq_false, not_not] at h1
  obtain rfl := Effect.onConnect.inj (he.resolve_left (not_mem_scrubHandshakeMaterial rfl))
  refine ⟨⟨h1.1, .inr h1.2⟩, _, rfl, ?_⟩
  simp only [scrubHandshakeMaterial_state, Session.Connecting]
  split_ifs <;> simp_all [lodpErrBadHandshake]

end Handlers

section Dispatch
variable {ep : Endpoint} {session : Option Session} {buf : Buf} {addr : SockAddr} {h : Host}

theorem lodpOnIncomingPkt_onConnect {st : Int}
    (he : Effect.onConnect st ∈ (lodpOnIncomingPkt z c ep session buf addr h).effects) :
    ∃ s, session = some s ∧ s.Connecting ∧
      ∃ s', (lodpOnIncomingPkt z c ep session buf addr h).session = some s' ∧
        ¬ s'.Connecting ∧ (st = 0 ↔ s'.state = .established) := by
  unfold lodpOnIncomingPkt at he ⊢
  split at he
  · simp at he
  · rename_i hd pkt hdm
    cases hd with
    | onInitAckPkt s =>
      rcases session with _ | s0
      · rcases demux_none hdm with h1 | ⟨h1, -⟩ <;> cases h1
      · rcases demux_some hdm with ⟨h1, -⟩ | h1 | h1 | h1 | h1 | h1 <;> cases h1
        exact ⟨_, rfl, onInitAckPkt_onConnect he⟩
    | onHandshakeAckPkt s =>
      rcases session with _ | s0
      · rcases demux_none hdm with h1 | ⟨h1, -⟩ <;> cases h1
      · rcases demux_some hdm with ⟨h1, -⟩ | h1 | h1 | h1 | h1 | h1 <;> cases h1
        exact ⟨_, rfl, onHandshakeAckPkt_onConnect he⟩
    | onInitPkt => exact absurd he (onInitPkt_callback rfl)
    | onHandshakePkt _ => cases onHandshakePkt_callback (e := .onConnect st) rfl he
    | onDataPkt _ => obtain ⟨_, h1⟩ := onDataPkt_callback (e := .onConnect st) rfl he; cases h1
    | onHeartbeatPkt _ => exact absurd he (onHeartbeatPkt_callback rfl)
    | onHeartbeatAckPkt _ => obtain ⟨_, h1⟩ := onHeartbeatAckPkt_callback he; cases h1

theorem lodpOnIncomingPkt_connecting {s' : Session}
    (hs : (lodpOnIncomingPkt z c ep session buf addr h).session = some s') (hc : s'.Connecting) :
    ∃ s, session = some s ∧ s.Connecting := by
  rcases session with _ | s
  · have hr := (lodpOnIncomingPkt_none_session hs).2.1
    simp [Session.Connecting, hr] at hc
  · obtain ⟨s'', hs'', hstep, -⟩ := @lodpOnIncomingPkt_some z c ep s buf addr h
    obtain rfl := Option.some.inj (hs''.symm.trans hs)
    exact ⟨s, rfl, hstep.connecting hc⟩

end Dispatch

section Run
variable {sys : System} {e : Event}

theorem step_connecting {a : SockAddr} (h : (step z c sys e).1.Connecting a) :
    sys.Connecting a := by
  cases e with
  | packet addr buf h' =>
    obtain ⟨s', hs', hc⟩ := h
    by_cases ha : a = addr
    · subst ha
      dsimp only [step] at hs'
      rw [Function.update_same] at hs'
      exact lodpOnIncomingPkt_connecting hs' hc
    · dsimp only [step] at hs'
      rw [Function.update_noteq ha] at hs'
      exact ⟨s', hs', hc⟩
  | rotate h' => exact h

theorem step_onConnect (h : (step z c sys e).2.any Effect.isOnConnect = true) :
    ∃ a, e.source = some a ∧ sys.Connecting a ∧ ¬ (step z c sys e).1.Connecting a := by
  obtain ⟨eff, hm, hc⟩ := List.any_eq_true.mp h
  cases e with
  | packet addr buf h' =>
    obtain ⟨st, rfl⟩ : ∃ st, eff = .onConnect st := by
      cases eff <;> first | exact ⟨_, rfl⟩ | cases hc
    obtain ⟨s, hs, hcs, s', hs', hnc, -⟩ := lodpOnIncomingPkt_onConnect hm
    refine ⟨addr, rfl, ⟨s, hs, hcs⟩, fun ⟨s'', h'', hc''⟩ => hnc ?_⟩
    dsimp only [step] at h''
    rw [Function.update_same, hs'] at h''
    exact Option.some.inj h'' ▸ hc''
  | rotate h' => cases hm

/-- `on_connect_fn` at most once per peer: over every run, from every state, the steps that
call `on_connect_fn` come from distinct peers, and each from a peer whose session was an
initiator in INIT or HANDSHAKE when the run began. -/
theorem onConnect_once_per_peer (sys : System) (es : List Event) :
    (connects z c sys es).Nodup ∧ ∀ a ∈ connects z c sys es, sys.Connecting a := by
  induction es generalizing sys with
  | nil => simp [connects]
  | cons e es ih =>
    obtain ⟨hnd, horig⟩ := ih (step z c sys e).1
    simp only [connects]
    split_ifs with hc
    · obtain ⟨a, hsrc, hcon, hncon⟩ := step_onConnect hc
      simp only [hsrc, Option.toList_some, List.singleton_append, List.nodup_cons,
        List.mem_cons, forall_eq_or_imp]
      exact ⟨⟨fun hm => hncon (horig a hm), hnd⟩, hcon,
        fun b hb => step_connecting (horig b hb)⟩
    · exact ⟨hnd, fun b hb => step_connecting (horig b hb)⟩

end Run

end Lodp
