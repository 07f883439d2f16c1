import Lodp.Run
import Lodp.Exchange

/-! The endpoint over whole runs: replies, the table's addresses and frames, kept invariants. -/
namespace Lodp

/-- The destination of a datagram handed to `sendto_fn`. -/
def Effect.sentAddr : Effect → Option SockAddr
  | .sendto _ a => some a
  | _ => none

/-- The destinations of the datagrams a list of effects hands to `sendto_fn`, in order. -/
def sentTo (es : List Effect) : List SockAddr := es.filterMap Effect.sentAddr

@[simp] theorem sentTo_nil : sentTo [] = [] := rfl

@[simp] theorem sentTo_cons (e : Effect) (es : List Effect) :
    sentTo (e :: es) = e.sentAddr.toList ++ sentTo es := by
  cases h : e.sentAddr <;> simp [sentTo, List.filterMap_cons, h]

@[simp] theorem sentTo_append (es es' : List Effect) :
    sentTo (es ++ es') = sentTo es ++ sentTo es' :=
  List.filterMap_append ..

theorem sentTo_of_quiet {es : List Effect} (h : es.all Effect.isQuiet = true) : sentTo es = [] := by
  induction es with
  | nil => rfl
  | cons e es ih =>
    simp only [List.all_cons, Bool.and_eq_true] at h
    rw [sentTo_cons, ih h.2]
    cases e <;> first | rfl | cases h.1

/-- The source of the datagram an event hands the endpoint. -/
def Event.source : Event → Option SockAddr
  | .packet addr _ _ => some addr
  | .rotate _ => none

variable {z : Sizes} {c : Crypto}

/-! Each handler sends at most one datagram, to the source of the packet or to the peer of
the session it is given. -/

section Sent
variable {ep : Endpoint} {s : Session} {pkt : Pkt} {addr : SockAddr} {h : Host}

theorem sentTo_sealAndSend (keys : SymmetricKey) (pt : Bytes) :
    (sentTo (sealAndSend z c ep h keys pt addr).2).Sublist [addr] := by
  simp only [sealAndSend]
  split_ifs <;> simp [Effect.sentAddr]

theorem sentTo_scrubHandshakeMaterial : sentTo (scrubHandshakeMaterial z s).2 = [] := by
  unfold scrubHandshakeMaterial
  split <;> rfl

theorem sentTo_handshakeXmit {key : SymmetricKey} {pre : List Effect} (hpre : sentTo pre = []) :
    (sentTo (handshakeXmit z c ep h key addr pre s).effects).Sublist [addr] := by
  simp only [handshakeXmit]
  split_ifs <;> simp [hpre, Effect.sentAddr]

theorem sentTo_onInitPkt : (sentTo (onInitPkt z c ep pkt addr h).effects).Sublist [addr] := by
  simp only [onInitPkt]
  split_ifs
  · simp
  · simp
  · simpa [Effect.sentAddr] using sentTo_sealAndSend (z := z) (c := c) _ _

theorem sentTo_onHandshakePkt {session : Option Session} :
    (sentTo (onHandshakePkt z c ep session pkt addr h).effects).Sublist [addr] := by
  rcases onHandshakePkt_cases (o := onHandshakePkt z c ep session pkt addr h) rfl with
    ⟨he, -⟩ | ⟨-, -, -, ⟨-, -, hq⟩ | ⟨s, pre, ho, hpre, -⟩⟩
  · simp [he]
  · simp [sentTo_of_quiet hq]
  · rw [ho]
    exact sentTo_handshakeXmit (sentTo_of_quiet hpre)

theorem sentTo_onDataPkt : sentTo (onDataPkt z ep s pkt h).effects = [] := by
  simp only [onDataPkt]
  split_ifs <;> simp [sentTo_scrubHandshakeMaterial, Effect.sentAddr]

theorem sentTo_onInitAckPkt :
    (sentTo (onInitAckPkt z c ep s pkt h).effects).Sublist [s.peerAddr] := by
  simp only [onInitAckPkt, lodpHandshake, lodpSendHandshakePkt]
  split_ifs
  · simp
  · simp
  · simp [Effect.sentAddr]
  · simp [Effect.sentAddr]
  · simpa [Effect.sentAddr] using sentTo_sealAndSend (z := z) (c := c) _ _

theorem sentTo_onHandshakeAckPkt : sentTo (onHandshakeAckPkt z c ep s pkt h).effects = [] := by
  simp only [onHandshakeAckPkt]
  split_ifs <;> simp [sentTo_scrubHandshakeMaterial, Effect.sentAddr]

theorem sentTo_onHeartbeatPkt :
    (sentTo (onHeartbeatPkt z c ep s pkt h).effects).Sublist [s.peerAddr] := by
  simp only [onHeartbeatPkt]
  split_ifs
  · simp
  · simp
  · exact sentTo_sealAndSend _ _

theorem sentTo_onHeartbeatAckPkt : sentTo (onHeartbeatAckPkt ep s pkt).effects = [] := by
  simp only [onHeartbeatAckPkt]
  split_ifs <;> simp [Effect.sentAddr]

end Sent

/-! What one call of the dispatcher does to the table and the endpoint. -/

/-- What a call keeps of a session it is given: the peer and the role, and for an
ESTABLISHED session the state and both keys. -/
structure SessionFrame (s s' : Session) : Prop where
  peer : s'.peerAddr = s.peerAddr
  role : s'.isInitiator = s.isInitiator
  established : s.state = .established →
    s'.state = .established ∧ s'.txKey = s.txKey ∧ s'.rxKey = s.rxKey

theorem SessionFrame.refl (s : Session) : SessionFrame s s := ⟨rfl, rfl, fun h => ⟨h, rfl, rfl⟩⟩

theorem SessionFrame.trans {s s' s'' : Session} (h : SessionFrame s s') (h' : SessionFrame s' s'') :
    SessionFrame s s'' := by
  refine ⟨h'.peer.trans h.peer, h'.role.trans h.role, fun he => ?_⟩
  obtain ⟨h1, h2, h3⟩ := h.established he
  obtain ⟨h1', h2', h3'⟩ := h'.established h1
  exact ⟨h1', h2'.trans h2, h3'.trans h3⟩

theorem SessionFrame.of_moved {s s' : Session} (hs : s.state ≠ .established)
    (hp : s'.peerAddr = s.peerAddr) (hr : s'.isInitiator = s.isInitiator) : SessionFrame s s' :=
  ⟨hp, hr, fun h => absurd h hs⟩

section Frame
variable {ep : Endpoint} {s : Session} {pkt : Pkt} {buf : Buf} {addr : SockAddr} {h : Host}

theorem onDataPkt_frame : ∃ s', (onDataPkt z ep s pkt h).session = some s' ∧ SessionFrame s s' := by
  unfold onDataPkt
  split_ifs <;> exact ⟨_, rfl, by simp, by simp, fun he => ⟨by simpa using he, by simp, by simp⟩⟩

theorem onInitAckPkt_frame :
    ∃ s', (onInitAckPkt z c ep s pkt h).session = some s' ∧ SessionFrame s s' := by
  obtain ⟨s', hs', hr, -, rfl | ⟨-, hst, -⟩⟩ := @onInitAckPkt_session z c ep s pkt h
  · exact ⟨_, hs', .refl _⟩
  · refine ⟨s', hs', .of_moved (by simp [hst]) ?_ hr⟩
    simp only [onInitAckPkt, lodpHandshake] at hs'
    split_ifs at hs' <;> simp at hs' <;> rw [← hs']

theorem onHandshakeAckPkt_frame :
    ∃ s', (onHandshakeAckPkt z c ep s pkt h).session = some s' ∧ SessionFrame s s' := by
  obtain ⟨s', hs', hr, -, rfl | ⟨-, hst, -⟩⟩ := @onHandshakeAckPkt_session z c ep s pkt h
  · exact ⟨_, hs', .refl _⟩
  · refine ⟨s', hs', .of_moved (by simp [hst]) ?_ hr⟩
    simp only [onHandshakeAckPkt] at hs'
    split_ifs at hs' <;> simp at hs' <;> rw [← hs'] <;> simp


theorem lodpOnIncomingPkt_frame :
    ∃ s', (lodpOnIncomingPkt z c ep (some s) buf addr h).session = some s' ∧ SessionFrame s s' := by
  unfold lodpOnIncomingPkt
  split
  · exact ⟨s, rfl, .refl s⟩
  · rename_i hd pkt hdm
    rcases demux_some hdm with ⟨rfl, -⟩ | rfl | rfl | rfl | rfl | rfl
    · exact ⟨s, onHandshakePkt_some_session, .refl s⟩
    · exact onDataPkt_frame
    · exact onInitAckPkt_frame
    · exact onHandshakeAckPkt_frame
    · exact ⟨s, onHeartbeatPkt_session, .refl s⟩
    · exact ⟨s, onHeartbeatAckPkt_session, .refl s⟩

theorem lodpOnIncomingPkt_none_session
    (hs : (lodpOnIncomingPkt z c ep none buf addr h).session = some s) :
    s.peerAddr = addr ∧ s.isInitiator = false ∧ s.state = .established := by
  unfold lodpOnIncomingPkt at hs
  split at hs
  · cases hs
  · rename_i hd pkt hdm
    rcases demux_none hdm with rfl | ⟨rfl, -⟩
    · simp [runHandler] at hs
    · obtain ⟨-, -, -, kp, -, hr⟩ := onHandshakePkt_none_session hs
      obtain rfl := congrArg Prod.snd hr
      simp [lodpSessionInit]

theorem sentTo_lodpOnIncomingPkt {session : Option Session}
    (hs : ∀ s, session = some s → s.peerAddr = addr) :
    (sentTo (lodpOnIncomingPkt z c ep session buf addr h).effects).Sublist [addr] := by
  unfold lodpOnIncomingPkt
  split
  · simp
  · rename_i hd pkt hdm
    rcases session with _ | s
    · rcases demux_none hdm with rfl | ⟨rfl, -⟩
      · exact sentTo_onInitPkt
      · exact sentTo_onHandshakePkt
    · obtain rfl := hs s rfl
      rcases demux_some hdm with ⟨rfl, -⟩ | rfl | rfl | rfl | rfl | rfl
      · exact sentTo_onHandshakePkt
      · simp [runHandler, sentTo_onDataPkt]
      · exact sentTo_onInitAckPkt
      · simp [runHandler, sentTo_onHandshakeAckPkt]
      · exact sentTo_onHeartbeatPkt
      · simp [runHandler, sentTo_onHeartbeatAckPkt]

theorem lodpOnIncomingPkt_ep {session : Option Session} :
    (lodpOnIncomingPkt z c ep session buf addr h).ep = ep ∨
      (lodpOnIncomingPkt z c ep session buf addr h).ep = rotateIfDue z ep h := by
  unfold lodpOnIncomingPkt
  split
  · exact .inl rfl
  · rename_i hd pkt _
    cases hd with
    | onInitPkt => exact onInitPkt_ep
    | onHandshakePkt => exact onHandshakePkt_ep
    | onDataPkt => exact .inl (by simp only [runHandler, onDataPkt]; split_ifs <;> rfl)
    | onInitAckPkt =>
      exact .inl (by
        simp only [runHandler, onInitAckPkt, lodpHandshake, lodpSendHandshakePkt]
        split_ifs <;> rfl)
    | onHandshakeAckPkt => exact .inl (by simp only [runHandler, onHandshakeAckPkt]; split_ifs <;> rfl)
    | onHeartbeatPkt => exact .inl (by simp only [runHandler, onHeartbeatPkt]; split_ifs <;> rfl)
    | onHeartbeatAckPkt =>
      exact .inl (by simp only [runHandler, onHeartbeatAckPkt]; split_ifs <;> rfl)

end Frame

/-! Per-session invariants. A property of single sessions that every call of the dispatcher
keeps holds of every session of the table over every run; it is kept when the sessions the
dispatcher creates have it and the three handlers that change a session keep it. -/

/-- Every session of the table satisfies `P`. -/
def System.All (P : Session → Prop) (sys : System) : Prop :=
  ∀ a s, sys.sessions a = some s → P s

/-- The dispatcher keeps `P`: the session a call leaves satisfies `P` when the session it was
given did. -/
def KeptBy (z : Sizes) (c : Crypto) (P : Session → Prop) : Prop :=
  ∀ ep session buf addr h, (∀ s, session = some s → P s) →
    ∀ s', (lodpOnIncomingPkt z c ep session buf addr h).session = some s' → P s'

theorem demux_payload {ep : Endpoint} {session : Option Session} {buf : Buf} {hd : Handler}
    {pkt : Pkt} (h : demux z c ep session buf = .ok (hd, pkt)) :
    pkt.length - pktTlvLen ≤ pkt.payload.length := by
  obtain ⟨used, b, hdec, rfl, hr⟩ := demux_ok h
  obtain ⟨-, -, hle, -⟩ := route_ok hr
  have hpt : b.plaintext.length = buf.ciphertext.length - z.pktTagLen := by
    rcases decryptIncoming_ok hdec with ⟨-, s, -, hm⟩ | ⟨-, -, hm, -⟩
    · have hl := (macThenDecrypt_ok (show (macThenDecrypt z c s.rxKey buf).1 = 0 by rw [hm])).2.2
      rwa [hm] at hl
    · have hl := (macThenDecrypt_ok
        (show (macThenDecrypt z c ep.introSymKeys buf).1 = 0 by rw [hm])).2.2
      rwa [hm] at hl
  show (Pkt.parse b.plaintext).length - pktTlvLen ≤ (b.plaintext.drop 4).length
  rw [List.length_drop, hpt]
  simp only [pktTlvLen] at hle ⊢
  omega

section Kept
variable {P : Session → Prop}

theorem keptBy_of_handlers
    (hnew : ∀ s : Session, s.isInitiator = false → s.state = .established →
      s.seenPeerData = false → P s)
    (hdata : ∀ ep s pkt h, P s → ∃ s', (onDataPkt z ep s pkt h).session = some s' ∧ P s')
    (hinit : ∀ ep s (pkt : Pkt) h, pkt.length - pktTlvLen ≤ pkt.payload.length → P s →
      ∃ s', (onInitAckPkt z c ep s pkt h).session = some s' ∧ P s')
    (hack : ∀ ep s pkt h, P s → ∃ s', (onHandshakeAckPkt z c ep s pkt h).session = some s' ∧ P s') :
    KeptBy z c P := by
  intro ep session buf addr h hc s' hs
  unfold lodpOnIncomingPkt at hs
  split at hs
  · exact hc s' hs
  · rename_i hd pkt hdm
    rcases session with _ | s0
    · rcases demux_none hdm with rfl | ⟨rfl, -⟩
      · simp [runHandler] at hs
      · obtain ⟨hi, hst, hseen, -⟩ := onHandshakePkt_created hs
        exact hnew s' hi hst hseen
    · have hc0 := hc s0 rfl
      have hkeep : ∀ o : Outcome, o.session = some s0 → o.session = some s' → P s' :=
        fun o h1 h2 => Option.some.inj (h1.symm.trans h2) ▸ hc0
      have hstep : ∀ o : Outcome, (∃ s1, o.session = some s1 ∧ P s1) → o.session = some s' →
          P s' := fun o ⟨s1, h1, hp⟩ h2 => Option.some.inj (h1.symm.trans h2) ▸ hp
      rcases demux_some hdm with ⟨rfl, -⟩ | rfl | rfl | rfl | rfl | rfl
      · exact hkeep _ onHandshakePkt_some_session hs
      · exact hstep _ (hdata ep s0 pkt h hc0) hs
      · exact hstep _ (hinit ep s0 pkt h (demux_payload hdm) hc0) hs
      · exact hstep _ (hack ep s0 pkt h hc0) hs
      · exact hkeep _ onHeartbeatPkt_session hs
      · exact hkeep _ onHeartbeatAckPkt_session hs

theorem step_all (hP : KeptBy z c P) {sys : System} (hc : sys.All P) (e : Event) :
    (step z c sys e).1.All P := by
  cases e with
  | packet addr buf h =>
    intro a s hs
    dsimp only [step] at hs
    by_cases ha : a = addr
    · subst ha
      rw [Function.update_same] at hs
      exact hP _ _ _ _ _ (fun s hs' => hc a s hs') s hs
    · rw [Function.update_noteq ha] at hs
      exact hc a s hs
  | rotate h => exact hc

theorem run_all (hP : KeptBy z c P) {sys : System} (hc : sys.All P) (es : List Event) :
    (run z c sys es).1.All P := by
  induction es generalizing sys with
  | nil => exact hc
  | cons e es ih => exact ih (step_all hP hc e)

end Kept

/-! The table over a run: one lemma for what a step keeps, and the run lemma by induction
over the events. -/

/-- Every session of the table is kept under its peer's address. -/
def System.Addressed (sys : System) : Prop := ∀ a s, sys.sessions a = some s → s.peerAddr = a

/-- A responder's table: every session is an ESTABLISHED responder kept under its peer's
address. -/
def System.Responders (sys : System) : Prop :=
  ∀ a s, sys.sessions a = some s → s.peerAddr = a ∧ s.isInitiator = false ∧ s.state = .established

section Table
variable {sys : System} {a : SockAddr} {s : Session}

theorem step_frame (e : Event) (hs : sys.sessions a = some s) :
    ∃ s', (step z c sys e).1.sessions a = some s' ∧ SessionFrame s s' := by
  cases e with
  | packet a' buf h =>
    by_cases ha : a = a'
    · subst ha
      obtain ⟨s', h1, h2⟩ := @lodpOnIncomingPkt_frame z c sys.ep s buf a h
      exact ⟨s', by simp [step, hs, h1], h2⟩
    · exact ⟨s, by simp [step, Function.update_noteq ha, hs], .refl s⟩
  | rotate h => exact ⟨s, hs, .refl s⟩

theorem run_frame (es : List Event) (hs : sys.sessions a = some s) :
    ∃ s', (run z c sys es).1.sessions a = some s' ∧ SessionFrame s s' := by
  induction es generalizing sys s with
  | nil => exact ⟨s, hs, .refl s⟩
  | cons e es ih =>
    obtain ⟨s₁, h₁, hf⟩ := step_frame (z := z) (c := c) e hs
    obtain ⟨s', h', hf'⟩ := ih h₁
    exact ⟨s', h', hf.trans hf'⟩

theorem step_new (e : Event) (hnone : sys.sessions a = none)
    (hs : (step z c sys e).1.sessions a = some s) :
    s.peerAddr = a ∧ s.isInitiator = false ∧ s.state = .established := by
  cases e with
  | packet a' buf h =>
    by_cases ha : a = a'
    · subst ha
      simp only [step, Function.update_same, hnone] at hs
      exact lodpOnIncomingPkt_none_session hs
    · simp [step, Function.update_noteq ha, hnone] at hs
  | rotate h => simp [step, hnone] at hs

theorem step_addressed (e : Event) (hw : sys.Addressed) : (step z c sys e).1.Addressed := by
  intro a s hs
  rcases ho : sys.sessions a with _ | s₀
  · exact (step_new e ho hs).1
  · obtain ⟨s', h', hf⟩ := step_frame (z := z) (c := c) e ho
    rw [hs] at h'
    cases h'
    exact hf.peer.trans (hw a s₀ ho)

theorem step_responders (e : Event) (hw : sys.Responders) : (step z c sys e).1.Responders := by
  intro a s hs
  rcases ho : sys.sessions a with _ | s₀
  · exact step_new e ho hs
  · obtain ⟨s', h', hf⟩ := step_frame (z := z) (c := c) e ho
    rw [hs] at h'
    cases h'
    obtain ⟨hp, hi, hst⟩ := hw a s₀ ho
    exact ⟨hf.peer.trans hp, hf.role.trans hi, (hf.established hst).1⟩

theorem run_responders (es : List Event) (hw : sys.Responders) :
    (run z c sys es).1.Responders := by
  induction es generalizing sys with
  | nil => exact hw
  | cons e es ih => exact ih (step_responders e hw)

theorem step_sentTo (e : Event) (hw : sys.Addressed) :
    (sentTo (step z c sys e).2).Sublist e.source.toList := by
  cases e with
  | packet a' buf h => exact sentTo_lodpOnIncomingPkt fun s hs => hw a' s hs
  | rotate h => exact List.nil_sublist _

/-- No amplification and no reflection. Over any run from a table that keeps each session
under its peer's address (the empty table, say), the destinations of all the datagrams the
endpoint hands to `sendto_fn`, in order, are a sublist of the sources of the datagrams it was
handed: each datagram in yields at most one datagram out, sent back to its source, and a key
rotation sends nothing. -/
theorem run_sentTo (es : List Event) (hw : sys.Addressed) :
    (sentTo (run z c sys es).2).Sublist (es.filterMap Event.source) := by
  induction es generalizing sys with
  | nil => exact List.nil_sublist _
  | cons e es ih =>
    rw [run_cons, sentTo_append, List.filterMap_cons]
    cases hsrc : e.source with
    | none =>
      have h0 := step_sentTo (z := z) (c := c) e hw
      rw [hsrc, Option.toList_none, List.sublist_nil] at h0
      rw [h0, List.nil_append]
      exact ih (step_addressed e hw)
    | some a =>
      have h0 := step_sentTo (z := z) (c := c) e hw
      rw [hsrc, Option.toList_some] at h0
      exact (h0.append (ih (step_addressed e hw))).trans (by simp)

/-- `smallHandshakeDatagram` handed twice to a fresh `smallResponder`: two HANDSHAKE ACKs,
both to `smallAddr`. -/
theorem run_sentTo_small :
    (sentTo (run Sizes.small Crypto.toy ⟨smallResponder, fun _ => none⟩
      [.packet smallAddr smallHandshakeDatagram smallHost,
        .packet smallAddr smallHandshakeDatagram smallHost]).2).Sublist
      ([Event.packet smallAddr smallHandshakeDatagram smallHost,
        .packet smallAddr smallHandshakeDatagram smallHost].filterMap Event.source) :=
  run_sentTo _ fun _ _ h => by cases h


/-- A fresh endpoint's table. Over any run of an endpoint that starts with no session, every
session of the table is an ESTABLISHED responder kept under the address of its peer: sessions
come only from a HANDSHAKE with no session, and nothing the dispatcher does moves a responder
out of ESTABLISHED or to another peer. -/
theorem fresh_endpoint_responders (ep : Endpoint) (es : List Event) :
    (run z c ⟨ep, fun _ => none⟩ es).1.Responders :=
  run_responders es fun _ _ h => by cases h

/-- Session keys are fixed once ESTABLISHED. Whatever the endpoint is handed, an ESTABLISHED
session at an address stays there, for the same peer and in the same role, ESTABLISHED, with
the keys it had: no packet rekeys it, and only its `seen_peer_data` and the scrubbed
handshake material change. -/
theorem run_established_frame (es : List Event) (hs : sys.sessions a = some s)
    (hst : s.state = .established) :
    ∃ s', (run z c sys es).1.sessions a = some s' ∧ s'.peerAddr = s.peerAddr ∧
      s'.isInitiator = s.isInitiator ∧ s'.state = .established ∧ s'.txKey = s.txKey ∧
      s'.rxKey = s.rxKey := by
  obtain ⟨s', h', hf⟩ := run_frame (z := z) (c := c) es hs
  exact ⟨s', h', hf.peer, hf.role, hf.established hst⟩

/-- The ESTABLISHED initiator `smallPeer` at `smallAddr`, handed a datagram and a rotation. -/
theorem run_established_frame_small :
    ∃ s', (run Sizes.small Crypto.toy
        ⟨smallResponder, Function.update (fun _ => none) smallAddr (some smallPeer)⟩
        [.packet smallAddr ⟨[17, 17, 0, 0, 0, 0, 5, 9], []⟩ smallHost, .rotate smallHost]).1.sessions
          smallAddr = some s' ∧
      s'.peerAddr = smallPeer.peerAddr ∧ s'.isInitiator = smallPeer.isInitiator ∧
      s'.state = .established ∧ s'.txKey = smallPeer.txKey ∧ s'.rxKey = smallPeer.rxKey :=
  @run_established_frame Sizes.small Crypto.toy
    ⟨smallResponder, Function.update (fun _ => none) smallAddr (some smallPeer)⟩ smallAddr
    smallPeer _ (by simp) rfl

theorem step_ep (e : Event) : ∃ k pk rt et, (step z c sys e).1.ep =
    { sys.ep with
      cookieKey := k, prevCookieKey := pk, cookieRotateTime := rt, cookieExpireTime := et } := by
  cases e with
  | packet a buf h =>
    rcases @lodpOnIncomingPkt_ep z c sys.ep buf a h (sys.sessions a) with he | he
    · exact ⟨_, _, _, _, he⟩
    · obtain ⟨k, pk, rt, et, hr⟩ := rotateIfDue_frame z sys.ep h
      exact ⟨k, pk, rt, et, he.trans hr⟩
  | rotate h => exact ⟨_, _, _, _, rfl⟩

theorem step_callbacks (e : Event) : (step z c sys e).1.ep.callbacks = sys.ep.callbacks := by
  obtain ⟨k, pk, rt, et, he⟩ := @step_ep z c sys e
  rw [he]

/-- The endpoint's identity over a run. Whatever the endpoint is handed, only its cookie key,
previous cookie key, rotation time and expiry time change: its identity key pair, its intro
keys, whether it has them, and its callbacks stay those it started with. -/
theorem run_ep_frame (es : List Event) : ∃ k pk rt et, (run z c sys es).1.ep =
    { sys.ep with
      cookieKey := k, prevCookieKey := pk, cookieRotateTime := rt, cookieExpireTime := et } := by
  induction es generalizing sys with
  | nil => exact ⟨_, _, _, _, rfl⟩
  | cons e es ih =>
    obtain ⟨k, pk, rt, et, he⟩ := @step_ep z c sys e
    obtain ⟨k', pk', rt', et', he'⟩ := @ih (step z c sys e).1
    exact ⟨k', pk', rt', et', by rw [run_cons, he', he]⟩

end Table

end Lodp
