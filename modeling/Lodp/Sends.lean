import Lodp.Table

/-! The host's sends over a run: builders write nothing, so sends commute with datagrams. -/
namespace Lodp

/-- What the host calls on an endpoint: an event of the receive path or a rotation, or a
builder on the session it keeps for a peer. -/
inductive Call where
  | event (e : Event)
  | sendData (addr : SockAddr) (payload : Bytes) (h : Host)
  | sendHeartbeat (addr : SockAddr) (payload : Bytes) (h : Host)
  | sendInit (addr : SockAddr) (h : Host)
  | sendHandshake (addr : SockAddr) (h : Host)

/-- The event of a call that is not a send. -/
def Call.event? : Call → Option Event
  | .event e => some e
  | _ => none

variable (z : Sizes) (c : Crypto)

/-- Modelled from the spec: a send of `lodp.c`, which is not in the repository, calls the
builder on the session the host keeps for `addr`, serialized with every other entry point
(§5), and keeps the session the call leaves; with no session there is nothing to call it
on. -/
def egress (sys : System) (addr : SockAddr) (f : Session → Outcome) : System × List Effect :=
  match sys.sessions addr with
  | none => (sys, [])
  | some s => ((⟨(f s).ep, Function.update sys.sessions addr (f s).session⟩ : System), (f s).effects)

/-- One call of the host. -/
def hostStep (sys : System) : Call → System × List Effect
  | .event e => step z c sys e
  | .sendData a p h => egress sys a fun s => lodpSendDataPkt z c sys.ep s p h
  | .sendHeartbeat a p h => egress sys a fun s => lodpSendHeartbeatPkt z c sys.ep s p h
  | .sendInit a h => egress sys a fun s => lodpSendInitPkt z c sys.ep s h
  | .sendHandshake a h => egress sys a fun s => lodpSendHandshakePkt z c sys.ep s h

/-- A run of host calls: the final state, and the effects of every call in order. -/
def hostRun (sys : System) : List Call → System × List Effect
  | [] => (sys, [])
  | k :: ks =>
    let r := hostRun (hostStep z c sys k).1 ks
    (r.1, (hostStep z c sys k).2 ++ r.2)

variable {z c}

/-- The call leaves the endpoint and the session as they were. -/
def Outcome.Keeps (ep : Endpoint) (s : Session) (o : Outcome) : Prop :=
  o.ep = ep ∧ o.session = some s

section Builders
variable {ep : Endpoint} {s : Session} {p : Bytes} {h : Host}

theorem sendPayloadPkt_keeps (type : PktType) : (sendPayloadPkt z c type ep s p h).Keeps ep s := by
  unfold sendPayloadPkt
  split_ifs <;> exact ⟨rfl, rfl⟩

theorem lodpSendInitPkt_keeps : (lodpSendInitPkt z c ep s h).Keeps ep s := by
  unfold lodpSendInitPkt
  split_ifs <;> exact ⟨rfl, rfl⟩

theorem lodpSendHandshakePkt_keeps : (lodpSendHandshakePkt z c ep s h).Keeps ep s := by
  unfold lodpSendHandshakePkt
  split_ifs <;> exact ⟨rfl, rfl⟩

end Builders

section Run
variable {sys : System}

theorem egress_keeps {a : SockAddr} {f : Session → Outcome} (hf : ∀ s, (f s).Keeps sys.ep s) :
    (egress sys a f).1 = sys := by
  unfold egress
  split
  · rfl
  · rename_i s hs
    obtain ⟨he, hs'⟩ := hf s
    rw [he, hs', ← hs, Function.update_eq_self]

theorem hostStep_send {k : Call} (hk : k.event? = none) : (hostStep z c sys k).1 = sys := by
  cases k with
  | event e => cases hk
  | sendData a p h => exact egress_keeps fun _ => sendPayloadPkt_keeps _
  | sendHeartbeat a p h => exact egress_keeps fun _ => sendPayloadPkt_keeps _
  | sendInit a h => exact egress_keeps fun _ => lodpSendInitPkt_keeps
  | sendHandshake a h => exact egress_keeps fun _ => lodpSendHandshakePkt_keeps

/-- Sends commute with everything. Over every interleaving of host calls, the table and the
endpoint are those of the run of its datagrams and rotations alone: the builders never
change a session or the endpoint, so every invariant of the table over runs holds of the
host's runs too. -/
theorem hostRun_state (sys : System) (ks : List Call) :
    (hostRun z c sys ks).1 = (run z c sys (ks.filterMap Call.event?)).1 := by
  induction ks generalizing sys with
  | nil => rfl
  | cons k ks ih =>
    cases hk : k.event? with
    | none =>
      simp only [List.filterMap_cons, hk]
      show (hostRun z c (hostStep z c sys k).1 ks).1 = _
      rw [ih, hostStep_send hk]
    | some e =>
      cases k <;> cases hk
      show (hostRun z c (step z c sys e).1 ks).1 = _
      rw [ih]
      rfl

end Run

end Lodp
