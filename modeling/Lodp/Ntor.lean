import Lodp.Cookie

/-! The modified ntor handshake of `ntor_handshake`, and `scrub_handshake_material`. -/
namespace Lodp

variable (z : Sizes) (c : Crypto)

/-- The bytes of an ASCII string constant. -/
def ascii (s : String) : Bytes := s.toList.map fun ch => UInt8.ofNat ch.toNat

/-- `PROTOID`. -/
def protoid : Bytes := ascii "lodp-ntor-1"

/-- `RESPONDER`. -/
def responderTag : Bytes := ascii "Responder"

/-- A `static const lodp_mac_key` initialised from a string: its bytes, a NUL and zeros, as
`LODP_MAC_KEY_LEN` bytes. C rejects an initialiser longer than the array, so at the sizes C
compiles nothing is cut. -/
def macKeyOf (s : String) : Bytes := (ascii s ++ List.replicate z.macKeyLen 0).take z.macKeyLen

/-- `ss_key`. -/
def ssKey : Bytes := macKeyOf z "lodp-ntor-1:key_extract"

/-- `verify_key`. -/
def verifyKey : Bytes := macKeyOf z "lodp-ntor-1:key_expand"

/-- `auth_key`. -/
def authKey : Bytes := macKeyOf z "lodp-ntor-1:mac"

/-- The packed `secret_input` of `ntor_handshake`, but for its constant `id` field. -/
structure SecretInput where
  secret1 : Bytes
  secret2 : Bytes
  B : Bytes
  X : Bytes
  Y : Bytes
  deriving DecidableEq

namespace SecretInput

/-- `secret_input` as MACed: `EXP(.) | EXP(.) | B | X | Y | PROTOID`. -/
def bytes (si : SecretInput) : Bytes := si.secret1 ++ si.secret2 ++ si.B ++ si.X ++ si.Y ++ protoid

/-- `auth_input`: `verify | B | X | Y | PROTOID | RESPONDER`, in the struct's order. -/
def authInput (si : SecretInput) (verify : Bytes) : Bytes :=
  verify ++ si.B ++ si.X ++ si.Y ++ protoid ++ responderTag

theorem authInput_B {t t' : SecretInput} {v v' : Bytes} (hX : t.X = t'.X) (hY : t.Y = t'.Y)
    (hv : v.length = v'.length) (he : t.authInput v = t'.authInput v') : t.B = t'.B := by
  simp only [authInput, List.append_assoc, hX, hY] at he
  exact List.append_cancel_right (List.append_inj he hv).2

end SecretInput

/-- The role-dependent half of `ntor_handshake` (lines 618 to 669). The initiator takes
`Y = pub_key` and `B = remote_public_key` with its ephemeral pair (x, X); the responder
takes `X = pub_key` with its ephemeral pair (y, Y) and the endpoint's identity pair (b, B).
`none` when a received public key fails `lodp_ecdh_validate_pubkey`. -/
def secretInput (intro : EcdhKeypair) (s : Session) (pubKey : Bytes) : Option SecretInput :=
  if s.isInitiator then
    let x := s.sessionEcdhKeypair.privateKey
    if !c.validatePubkey pubKey then none
    else if !c.validatePubkey s.remotePublicKey then none
    else some ⟨c.ecdh x pubKey, c.ecdh x s.remotePublicKey, s.remotePublicKey,
      s.sessionEcdhKeypair.publicKey, pubKey⟩
  else
    if !c.validatePubkey pubKey then none
    else some ⟨c.ecdh s.sessionEcdhKeypair.privateKey pubKey, c.ecdh intro.privateKey pubKey,
      intro.publicKey, pubKey, s.sessionEcdhKeypair.publicKey⟩

/-- `ntor_handshake`, given the endpoint's identity pair and the value `uninit` that `ret`
holds before its first assignment: a failed validation jumps to `out` with `ret` unset,
and `out` returns `(0 == ret) ? ret : LODP_ERR_BAD_HANDSHAKE`. -/
def ntorHandshake (intro : EcdhKeypair) (uninit : Int) (s : Session) (pubKey : Bytes) :
    Int × Session :=
  match secretInput c intro s pubKey with
  | none => (if uninit = 0 then 0 else lodpErrBadHandshake, s)
  | some si =>
    let secret := c.mac (ssKey z) si.bytes z.ecdhSecretLen
    let verify := c.mac (verifyKey z) si.bytes z.macDigestLen
    if secret.1 ≠ 0 then (lodpErrBadHandshake, s)
    else if verify.1 ≠ 0 then (lodpErrBadHandshake, s)
    else
      let auth := c.mac (authKey z) (si.authInput verify.2) z.macDigestLen
      let s := { s with sessionSecret := secret.2, sessionSecretVerifier := auth.2 }
      if auth.1 ≠ 0 then (lodpErrBadHandshake, s)
      else
        let keys := c.deriveSessionkeys secret.2
        let s := if s.isInitiator then { s with txKey := keys.2.1, rxKey := keys.2.2 }
          else { s with rxKey := keys.2.1, txKey := keys.2.2 }
        (if keys.1 = 0 then 0 else lodpErrBadHandshake, s)

/-- The `auth_input` string that `ntor_handshake` MACs under `auth_key`, when the keys validate. -/
def ntorAuthInput (intro : EcdhKeypair) (s : Session) (pubKey : Bytes) : Option Bytes :=
  (secretInput c intro s pubKey).map fun si =>
    si.authInput (c.mac (verifyKey z) si.bytes z.macDigestLen).2

/-- `scrub_handshake_material`: the cookie buffer is released after a wipe of its first
`sizeof(session->cookie_len)` bytes, and the ephemeral key pair, the shared secret and the
verifier are wiped. The effect records the released buffer's bytes. -/
def scrubHandshakeMaterial (s : Session) : Session × List Effect :=
  ({ s with
      cookie := none
      sessionEcdhKeypair :=
        ⟨memwipe s.sessionEcdhKeypair.publicKey, memwipe s.sessionEcdhKeypair.privateKey⟩
      sessionSecret := memwipe s.sessionSecret
      sessionSecretVerifier := memwipe s.sessionSecretVerifier },
    match s.cookie with
    | some ck => [.freeCookie (memwipePrefix z.sizeLen ck)]
    | none => [])

variable {z c}

theorem ntorHandshake_frame (intro : EcdhKeypair) (uninit : Int) (s : Session) (pubKey : Bytes) :
    ∃ secret verifier tx rx, (ntorHandshake z c intro uninit s pubKey).2 = { s with
      sessionSecret := secret, sessionSecretVerifier := verifier, txKey := tx, rxKey := rx } := by
  unfold ntorHandshake
  split
  · exact ⟨_, _, _, _, rfl⟩
  rename_i si _
  dsimp only
  by_cases h1 : (c.mac (ssKey z) si.bytes z.ecdhSecretLen).1 ≠ 0
  · rw [if_pos h1]
    exact ⟨_, _, _, _, rfl⟩
  rw [if_neg h1]
  by_cases h2 : (c.mac (verifyKey z) si.bytes z.macDigestLen).1 ≠ 0
  · rw [if_pos h2]
    exact ⟨_, _, _, _, rfl⟩
  rw [if_neg h2]
  by_cases h3 : (c.mac (authKey z) (si.authInput (c.mac (verifyKey z) si.bytes z.macDigestLen).2)
      z.macDigestLen).1 ≠ 0
  · rw [if_pos h3]
    exact ⟨_, _, _, _, rfl⟩
  rw [if_neg h3]
  cases s.isInitiator <;> exact ⟨_, _, _, _, rfl⟩

theorem ntorHandshake_ret (intro : EcdhKeypair) (uninit : Int) (s : Session) (pubKey : Bytes) :
    (ntorHandshake z c intro uninit s pubKey).1 = 0 ∨
      (ntorHandshake z c intro uninit s pubKey).1 = lodpErrBadHandshake := by
  unfold ntorHandshake
  split
  · by_cases hu : uninit = 0
    · exact .inl (if_pos hu)
    · exact .inr (if_neg hu)
  rename_i si _
  dsimp only
  by_cases h1 : (c.mac (ssKey z) si.bytes z.ecdhSecretLen).1 ≠ 0
  · rw [if_pos h1]
    exact .inr rfl
  rw [if_neg h1]
  by_cases h2 : (c.mac (verifyKey z) si.bytes z.macDigestLen).1 ≠ 0
  · rw [if_pos h2]
    exact .inr rfl
  rw [if_neg h2]
  by_cases h3 : (c.mac (authKey z) (si.authInput (c.mac (verifyKey z) si.bytes z.macDigestLen).2)
      z.macDigestLen).1 ≠ 0
  · rw [if_pos h3]
    exact .inr rfl
  rw [if_neg h3]
  by_cases h4 : (c.deriveSessionkeys (c.mac (ssKey z) si.bytes z.ecdhSecretLen).2).1 = 0
  · exact .inl (if_pos h4)
  · exact .inr (if_neg h4)

section Frame
variable {intro : EcdhKeypair} {uninit : Int} {s : Session} {pubKey : Bytes}

@[simp] theorem ntorHandshake_state :
    (ntorHandshake z c intro uninit s pubKey).2.state = s.state := by
  obtain ⟨_, _, _, _, he⟩ := ntorHandshake_frame (z := z) (c := c) intro uninit s pubKey
  rw [he]

@[simp] theorem ntorHandshake_isInitiator :
    (ntorHandshake z c intro uninit s pubKey).2.isInitiator = s.isInitiator := by
  obtain ⟨_, _, _, _, he⟩ := ntorHandshake_frame (z := z) (c := c) intro uninit s pubKey
  rw [he]

@[simp] theorem ntorHandshake_sessionEcdhKeypair :
    (ntorHandshake z c intro uninit s pubKey).2.sessionEcdhKeypair = s.sessionEcdhKeypair := by
  obtain ⟨_, _, _, _, he⟩ := ntorHandshake_frame (z := z) (c := c) intro uninit s pubKey
  rw [he]

@[simp] theorem ntorHandshake_seenPeerData :
    (ntorHandshake z c intro uninit s pubKey).2.seenPeerData = s.seenPeerData := by
  obtain ⟨_, _, _, _, he⟩ := ntorHandshake_frame (z := z) (c := c) intro uninit s pubKey
  rw [he]

@[simp] theorem ntorHandshake_peerAddr :
    (ntorHandshake z c intro uninit s pubKey).2.peerAddr = s.peerAddr := by
  obtain ⟨_, _, _, _, he⟩ := ntorHandshake_frame (z := z) (c := c) intro uninit s pubKey
  rw [he]

@[simp] theorem ntorHandshake_remotePublicKey :
    (ntorHandshake z c intro uninit s pubKey).2.remotePublicKey = s.remotePublicKey := by
  obtain ⟨_, _, _, _, he⟩ := ntorHandshake_frame (z := z) (c := c) intro uninit s pubKey
  rw [he]

@[simp] theorem ntorHandshake_cookie :
    (ntorHandshake z c intro uninit s pubKey).2.cookie = s.cookie := by
  obtain ⟨_, _, _, _, he⟩ := ntorHandshake_frame (z := z) (c := c) intro uninit s pubKey
  rw [he]

@[simp] theorem secretInput_ntorHandshake (intro' : EcdhKeypair) (q : Bytes) :
    secretInput c intro' (ntorHandshake z c intro uninit s pubKey).2 q =
      secretInput c intro' s q := by
  obtain ⟨_, _, _, _, he⟩ := ntorHandshake_frame (z := z) (c := c) intro uninit s pubKey
  rw [he]
  rfl

@[simp] theorem scrubHandshakeMaterial_state : (scrubHandshakeMaterial z s).1.state = s.state := rfl

@[simp] theorem scrubHandshakeMaterial_isInitiator :
    (scrubHandshakeMaterial z s).1.isInitiator = s.isInitiator := rfl

@[simp] theorem scrubHandshakeMaterial_seenPeerData :
    (scrubHandshakeMaterial z s).1.seenPeerData = s.seenPeerData := rfl

@[simp] theorem scrubHandshakeMaterial_txKey : (scrubHandshakeMaterial z s).1.txKey = s.txKey := rfl

@[simp] theorem scrubHandshakeMaterial_rxKey : (scrubHandshakeMaterial z s).1.rxKey = s.rxKey := rfl

@[simp] theorem scrubHandshakeMaterial_peerAddr :
    (scrubHandshakeMaterial z s).1.peerAddr = s.peerAddr := rfl

theorem scrubHandshakeMaterial_effects {e : Effect} (he : e ∈ (scrubHandshakeMaterial z s).2) :
    ∃ b, e = .freeCookie b := by
  unfold scrubHandshakeMaterial at he
  split at he <;> simp_all

theorem not_mem_scrubHandshakeMaterial {e : Effect} (hc : e.isCallback = true) :
    e ∉ (scrubHandshakeMaterial z s).2 := fun he => by
  obtain ⟨_, rfl⟩ := scrubHandshakeMaterial_effects he
  cases hc

end Frame

theorem ntorHandshake_ok {intro : EcdhKeypair} {uninit : Int} {s : Session} {pubKey : Bytes}
    {si : SecretInput} (hsi : secretInput c intro s pubKey = some si)
    (hmac : ∀ k m n, (c.mac k m n).1 = 0) (hder : ∀ k, (c.deriveSessionkeys k).1 = 0) :
    ntorHandshake z c intro uninit s pubKey =
      (0, let secret := (c.mac (ssKey z) si.bytes z.ecdhSecretLen).2
          let keys := (c.deriveSessionkeys secret).2
          let s := { s with
            sessionSecret := secret
            sessionSecretVerifier := (c.mac (authKey z) (si.authInput
              (c.mac (verifyKey z) si.bytes z.macDigestLen).2) z.macDigestLen).2 }
          if s.isInitiator then { s with txKey := keys.1, rxKey := keys.2 }
          else { s with rxKey := keys.1, txKey := keys.2 }) := by
  simp [ntorHandshake, hsi, hmac, hder]

theorem ntorHandshake_verifier {intro : EcdhKeypair} {uninit : Int} {s : Session}
    {pubKey : Bytes} {si : SecretInput} (hsi : secretInput c intro s pubKey = some si)
    (h0 : (ntorHandshake z c intro uninit s pubKey).1 = 0) :
    (ntorHandshake z c intro uninit s pubKey).2.sessionSecretVerifier = (c.mac (authKey z)
      (si.authInput (c.mac (verifyKey z) si.bytes z.macDigestLen).2) z.macDigestLen).2 := by
  have hbad : lodpErrBadHandshake ≠ 0 := by decide
  unfold ntorHandshake at h0 ⊢
  rw [hsi] at h0 ⊢
  dsimp only at h0 ⊢
  by_cases h1 : (c.mac (ssKey z) si.bytes z.ecdhSecretLen).1 ≠ 0
  · rw [if_pos h1] at h0
    exact absurd h0 hbad
  rw [if_neg h1] at h0 ⊢
  by_cases h2 : (c.mac (verifyKey z) si.bytes z.macDigestLen).1 ≠ 0
  · rw [if_pos h2] at h0
    exact absurd h0 hbad
  rw [if_neg h2] at h0 ⊢
  by_cases h3 : (c.mac (authKey z) (si.authInput (c.mac (verifyKey z) si.bytes z.macDigestLen).2)
      z.macDigestLen).1 ≠ 0
  · rw [if_pos h3] at h0
    exact absurd h0 hbad
  rw [if_neg h3]
  cases s.isInitiator <;> rfl

theorem secretInput_agree {intro : EcdhKeypair} {si sr : Session} {X Y : Bytes}
    (hi : si.isInitiator = true) (hr : sr.isInitiator = false)
    (hX : si.sessionEcdhKeypair.publicKey = X) (hY : sr.sessionEcdhKeypair.publicKey = Y)
    (hB : si.remotePublicKey = intro.publicKey)
    (hvX : c.validatePubkey X) (hvY : c.validatePubkey Y)
    (hvB : c.validatePubkey intro.publicKey)
    (hdh1 : c.ecdh si.sessionEcdhKeypair.privateKey Y = c.ecdh sr.sessionEcdhKeypair.privateKey X)
    (hdh2 : c.ecdh si.sessionEcdhKeypair.privateKey intro.publicKey =
      c.ecdh intro.privateKey X) (intro' : EcdhKeypair) :
    secretInput c intro' si Y = some ⟨c.ecdh sr.sessionEcdhKeypair.privateKey X,
        c.ecdh intro.privateKey X, intro.publicKey, X, Y⟩ ∧
      secretInput c intro sr X = some ⟨c.ecdh sr.sessionEcdhKeypair.privateKey X,
        c.ecdh intro.privateKey X, intro.publicKey, X, Y⟩ := by
  simp [secretInput, hi, hr, hX, hY, hB, hvX, hvY, hvB, hdh1, hdh2]

theorem ntorHandshake_agree {intro intro' : EcdhKeypair} (ui ur : Int) {si sr : Session}
    {X Y : Bytes} {t : SecretInput} (hi : si.isInitiator = true) (hr : sr.isInitiator = false)
    (hti : secretInput c intro' si Y = some t) (htr : secretInput c intro sr X = some t)
    (hmac : ∀ k m n, (c.mac k m n).1 = 0) (hder : ∀ k, (c.deriveSessionkeys k).1 = 0) :
    (ntorHandshake z c intro' ui si Y).1 = 0 ∧ (ntorHandshake z c intro ur sr X).1 = 0 ∧
      (ntorHandshake z c intro' ui si Y).2.sessionSecret =
        (ntorHandshake z c intro ur sr X).2.sessionSecret ∧
      (ntorHandshake z c intro' ui si Y).2.sessionSecretVerifier =
        (ntorHandshake z c intro ur sr X).2.sessionSecretVerifier ∧
      (ntorHandshake z c intro' ui si Y).2.txKey = (ntorHandshake z c intro ur sr X).2.rxKey ∧
      (ntorHandshake z c intro' ui si Y).2.rxKey = (ntorHandshake z c intro ur sr X).2.txKey := by
  rw [ntorHandshake_ok hti hmac hder, ntorHandshake_ok htr hmac hder]
  simp [hi, hr]

end Lodp
