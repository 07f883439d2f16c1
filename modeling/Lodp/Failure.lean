import Lodp.Callbacks

/-! A failed handshake is final: an initiator in ERROR is inert whatever its peer sends. -/
namespace Lodp

/-- An initiator whose handshake failed. -/
def Session.Failed (s : Session) : Prop := s.isInitiator = true ∧ s.state = .error

/-- The session of peer `a` is a failed initiator. -/
def System.Failed (sys : System) (a : SockAddr) : Prop :=
  ∃ s, sys.sessions a = some s ∧ s.Failed

variable {z : Sizes} {c : Crypto}

theorem lodpOnIncomingPkt_failed {ep : Endpoint} {s : Session} {buf : Buf} {addr : SockAddr}
    {h : Host} (hf : s.Failed) :
    (lodpOnIncomingPkt z c ep (some s) buf addr h).ep = ep ∧
      (lodpOnIncomingPkt z c ep (some s) buf addr h).session = some s ∧
      (lodpOnIncomingPkt z c ep (some s) buf addr h).effects = [] := by
  unfold lodpOnIncomingPkt
  split
  · exact ⟨rfl, rfl, rfl⟩
  · rename_i hd pkt hdm
    rcases demux_some hdm with ⟨rfl, hi⟩ | rfl | rfl | rfl | rfl | rfl
    · simp [hf.1] at hi
    all_goals simp [runHandler, onDataPkt, onInitAckPkt, onHandshakeAckPkt, onHeartbeatPkt,
      onHeartbeatAckPkt, hf.2]

section Run
variable {sys : System} {a : SockAddr}

theorem step_failed {s : Session} (hs : sys.sessions a = some s) (hf : s.Failed) (buf : Buf)
    (h : Host) : step z c sys (.packet a buf h) = (sys, []) := by
  obtain ⟨he, hs', hfx⟩ := @lodpOnIncomingPkt_failed z c sys.ep s buf a h hf
  simp only [step, hs, he, hs', hfx]
  rw [← hs, Function.update_eq_self]

theorem step_failed_kept (e : Event) (hf : sys.Failed a) : (step z c sys e).1.Failed a := by
  obtain ⟨s, hs, hfs⟩ := hf
  cases e with
  | packet a' buf h =>
    by_cases ha : a = a'
    · subst ha
      rw [step_failed hs hfs]
      exact ⟨s, hs, hfs⟩
    · exact ⟨s, by simpa only [step, Function.update_noteq ha] using hs, hfs⟩
  | rotate h => exact ⟨s, hs, hfs⟩

theorem run_failed_kept (es : List Event) (hf : sys.Failed a) : (run z c sys es).1.Failed a := by
  induction es generalizing sys with
  | nil => exact hf
  | cons e es ih => exact ih (step_failed_kept e hf)

/-- A failed peer is cut off. When the session of `a` is an initiator in ERROR, the
datagrams from `a` can be dropped from any run without changing the table, the endpoint or
any effect of the run. -/
theorem failed_peer_inert (hf : sys.Failed a) (es : List Event) :
    run z c sys (es.filter fun e => e.source ≠ some a) = run z c sys es := by
  induction es generalizing sys with
  | nil => rfl
  | cons e es ih =>
    by_cases he : e.source = some a
    · cases e with
      | packet a' buf h =>
        cases he
        obtain ⟨s, hs, hfs⟩ := hf
        rw [List.filter_cons_of_neg (by simp [Event.source]), ih ⟨s, hs, hfs⟩, run_cons, step_failed hs hfs]
        rfl
      | rotate h => cases he
    · rw [List.filter_cons_of_pos (by simpa using he), run_cons, run_cons,
        ih (step_failed_kept e hf)]

/-- `smallConnecting` after its handshake failed. -/
def smallFailed : Session := { smallConnecting with state := .error }

/-- `smallFailed` is handed a DATA and the endpoint a rotation. -/
theorem failed_peer_inert_small :
    run Sizes.small Crypto.toy
        ⟨smallResponder, Function.update (fun _ => none) smallAddr (some smallFailed)⟩
        ([.packet smallAddr smallDataDatagram smallHost, .rotate smallHost].filter
          fun e => e.source ≠ some smallAddr) =
      run Sizes.small Crypto.toy
        ⟨smallResponder, Function.update (fun _ => none) smallAddr (some smallFailed)⟩
        [.packet smallAddr smallDataDatagram smallHost, .rotate smallHost] :=
  failed_peer_inert ⟨smallFailed, by simp, rfl, rfl⟩ _

theorem calls_failed (hf : sys.Failed a) (es : List Event) (f : Effect) :
    (a, f) ∉ calls z c sys es := by
  induction es generalizing sys with
  | nil => exact List.not_mem_nil _
  | cons e es ih =>
    rw [calls, List.mem_append, not_or]
    refine ⟨fun hm => ?_, ih (step_failed_kept e hf)⟩
    obtain ⟨hsrc, hf'⟩ := Event.mem_tag hm
    cases e with
    | packet a' buf h =>
      cases hsrc
      obtain ⟨s, hs, hfs⟩ := hf
      rw [step_failed hs hfs] at hf'
      cases hf'
    | rotate h => cases hsrc

theorem step_report_failed {e : Event} {st : Int}
    (hm : (a, .onConnect st) ∈ e.tag (step z c sys e).2) (hst : st ≠ 0) :
    (step z c sys e).1.Failed a := by
  obtain ⟨hsrc, he⟩ := Event.mem_tag hm
  cases e with
  | packet a' buf h =>
    cases hsrc
    obtain ⟨s, hs, ⟨hi, -⟩, s', hs', hnc, hiff⟩ := lodpOnIncomingPkt_onConnect he
    obtain ⟨s'', hs'', hstep, -⟩ := @lodpOnIncomingPkt_some z c sys.ep s buf a h
    rw [← hs] at hs''
    cases hs'.symm.trans hs''
    have hi' : s'.isInitiator = true := hstep.role.trans hi
    refine ⟨s', by simp only [step, Function.update_same, hs'], hi', ?_⟩
    cases hst' : s'.state
    · exact absurd ⟨hi', .inl hst'⟩ hnc
    · exact absurd ⟨hi', .inr hst'⟩ hnc
    · exact absurd (hiff.mpr hst') hst
    · rfl
  | rotate h => cases hsrc

theorem calls_report_failed {es : List Event} {st : Int}
    (hm : (a, .onConnect st) ∈ calls z c sys es) (hst : st ≠ 0) : (run z c sys es).1.Failed a := by
  induction es generalizing sys with
  | nil => cases hm
  | cons e es ih =>
    rcases List.mem_append.mp hm with hm | hm
    · exact run_failed_kept es (step_report_failed hm hst)
    · exact ih hm

/-- A reported failure is final. Once `on_connect_fn` has reported a failure for a peer, no
later part of the run makes any call for that peer: no callback, no `sendto_fn`, and no
`assert`. -/
theorem failure_is_final (sys : System) (es es' : List Event) {st : Int}
    (hm : (a, .onConnect st) ∈ calls z c sys es) (hst : st ≠ 0) :
    a ∉ (calls z c (run z c sys es).1 es').map Prod.fst := fun ha => by
  obtain ⟨⟨_, f⟩, hf, rfl⟩ := List.mem_map.mp ha
  exact calls_failed (calls_report_failed hm hst) es' f hf

/-- The INIT ACK with cookie `[7, 7]` that `smallConnecting` expects, sealed under its
`rx_key`. -/
def smallInitAckDatagram : Buf := ⟨[24, 24, 0, 2, 0, 0, 6, 7, 7], []⟩

/-- `smallConnecting` gets its INIT ACK when no cookie buffer can be allocated, and then the
same datagram again. -/
theorem failure_is_final_small :
    smallAddr ∉ (calls Sizes.small Crypto.toy
      (run Sizes.small Crypto.toy
        ⟨smallResponder, Function.update (fun _ => none) smallAddr (some smallConnecting)⟩
        [.packet smallAddr smallInitAckDatagram { smallHost with cookieAlloc := false }]).1
      [.packet smallAddr smallInitAckDatagram smallHost]).map Prod.fst :=
  @failure_is_final Sizes.small Crypto.toy smallAddr _ _ _ lodpErrNobufs (by decide) (by decide)

end Run

end Lodp
