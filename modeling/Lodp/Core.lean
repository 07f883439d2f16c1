import Mathlib.Data.Vector.Defs
import Lodp.Wire

/-! Endpoint and session records, the crypto façade, and what the host supplies to one call. -/
namespace Lodp

/-- `lodp_symmetric_key`: a MAC key and a bulk cipher key. -/
structure SymmetricKey where
  macKey : Bytes
  bulkKey : Bytes
  deriving DecidableEq, Repr

/-- `lodp_ecdh_keypair`. -/
structure EcdhKeypair where
  publicKey : Bytes
  privateKey : Bytes
  deriving DecidableEq, Repr

/-- `STATE_INIT`, `STATE_HANDSHAKE`, `STATE_ESTABLISHED` and `STATE_ERROR`. -/
inductive SessionState where
  | init | handshake | established | error
  deriving DecidableEq, Repr

/-- A peer's `struct sockaddr` by `sa_family`, with the address and port bytes in network
byte order as `generate_cookie` copies them. -/
inductive SockAddr where
  | inet (addr : Mathlib.Vector UInt8 4) (port : Mathlib.Vector UInt8 2)
  | inet6 (addr : Mathlib.Vector UInt8 16) (port : Mathlib.Vector UInt8 2)
  | other (family : Nat)
  deriving DecidableEq

/-- The address and port bytes at the front of the cookie blob, or `none` for a family
other than `AF_INET` and `AF_INET6`. -/
def SockAddr.blob : SockAddr → Option Bytes
  | .inet a p => some (a.toList ++ p.toList)
  | .inet6 a p => some (a.toList ++ p.toList)
  | .other _ => none

/-- Which optional callbacks of `ep->callbacks` the host registered. -/
structure Callbacks where
  preEncryptFn : Bool
  onHeartbeatAckFn : Bool
  deriving DecidableEq, Repr

/-- The fields of `lodp_endpoint` that the packet code reads or writes. -/
structure Endpoint where
  introEcdhKeypair : EcdhKeypair
  introSymKeys : SymmetricKey
  hasIntroKeys : Bool
  cookieKey : Bytes
  prevCookieKey : Bytes
  cookieRotateTime : Int
  cookieExpireTime : Int
  callbacks : Callbacks
  deriving DecidableEq

/-- The fields of `lodp_session` that the packet code reads or writes; `cookie = none` is
a `NULL` pointer. -/
structure Session where
  peerAddr : SockAddr
  isInitiator : Bool
  state : SessionState
  sessionEcdhKeypair : EcdhKeypair
  remotePublicKey : Bytes
  txKey : SymmetricKey
  rxKey : SymmetricKey
  sessionSecret : Bytes
  sessionSecretVerifier : Bytes
  cookie : Option Bytes
  cookieLen : Nat
  seenPeerData : Bool
  deriving DecidableEq

/-- The primitives of `lodp_crypto.h`. A call with a status returns it with the bytes it
writes, `0` being success, and writes as many bytes as its interface says. -/
structure Crypto where
  /-- `lodp_mac(out, msg, key, out_len, msg_len)` as `mac key msg out_len`. -/
  mac : Bytes → Bytes → Nat → Int × Bytes
  /-- `lodp_encrypt(out, key, iv, in, len)` as `encrypt key iv in`. -/
  encrypt : Bytes → Bytes → Bytes → Int × Bytes
  /-- `lodp_decrypt(out, key, iv, in, len)` as `decrypt key iv in`. -/
  decrypt : Bytes → Bytes → Bytes → Int × Bytes
  /-- `lodp_ecdh(out, priv, pub)`, whose status the packet code ignores. -/
  ecdh : Bytes → Bytes → Bytes
  /-- Whether `lodp_ecdh_validate_pubkey(pub)` returns `0`. -/
  validatePubkey : Bytes → Bool
  /-- `lodp_derive_sessionkeys(dst_a, dst_b, secret)`. -/
  deriveSessionkeys : Bytes → Int × SymmetricKey × SymmetricKey
  mac_length : ∀ k m n, (mac k m n).2.length = n
  encrypt_length : ∀ k iv m, (encrypt k iv m).2.length = m.length
  decrypt_length : ∀ k iv m, (decrypt k iv m).2.length = m.length

/-- An insecure façade that obeys the length laws, under which the model evaluates: the
MAC is a byte sum of key and message, the cipher is the identity, a public key is its own
private key with `ecdh` their product, and the all-zero key is the one invalid key. -/
def Crypto.toy : Crypto where
  mac k m n := (0, List.replicate n ((k ++ m).foldl (· + ·) 0))
  encrypt _ _ m := (0, m)
  decrypt _ _ m := (0, m)
  ecdh priv pub := [priv.foldl (· + ·) 0 * pub.foldl (· + ·) 0]
  validatePubkey k := k.any (· != 0)
  deriveSessionkeys k := (0, ⟨k, k.reverse⟩, ⟨k.reverse, k⟩)
  mac_length _ _ _ := List.length_replicate _ _
  encrypt_length _ _ _ := rfl
  decrypt_length _ _ _ := rfl

/-- What the host and the C runtime supply during one call into the core: the clock,
whether each allocation succeeds, the bytes each `lodp_rand_bytes` draws, what a fresh
buffer holds, the value of an uninitialised local, and what each callback returns. -/
structure Host where
  now : Int
  bufAlloc : Bool
  cookieAlloc : Bool
  /-- The fresh ephemeral key pair of `lodp_session_init`, or `none` when it fails. -/
  newSession : Option EcdhKeypair
  randKey : Nat → UInt8
  randIv : Nat → UInt8
  randPad : Nat → UInt8
  /-- A fresh buffer's plaintext view, counted from `PKT_TAG_LEN`. -/
  stale : Nat → UInt8
  /-- What `ret` holds in `ntor_handshake` before its first assignment. -/
  uninit : Int
  preEncrypt : Int
  sendto : Int
  onRecv : Int

/-- The first `n` bytes of a stream. -/
def draw (r : Nat → UInt8) (n : Nat) : Bytes := (List.range n).map r

@[simp] theorem draw_length (r : Nat → UInt8) (n : Nat) : (draw r n).length = n := by
  simp [draw]

/-- `lodp_memwipe` of a whole array. -/
def memwipe (b : Bytes) : Bytes := b.map fun _ => 0

/-- `lodp_memwipe(p, n)` of the first `n` bytes of an array. -/
def memwipePrefix (n : Nat) (b : Bytes) : Bytes := memwipe (b.take n) ++ b.drop n

@[simp] theorem memwipePrefix_length (n : Nat) (b : Bytes) :
    (memwipePrefix n b).length = b.length := by
  simp only [memwipePrefix, memwipe, List.length_append, List.length_map, List.length_take,
    List.length_drop]
  omega

theorem memwipePrefix_eq (n : Nat) (b : Bytes) :
    memwipePrefix n b = List.replicate (min n b.length) 0 ++ b.drop n := by
  simp [memwipePrefix, memwipe, List.map_const']

/-- `lodp_memcmp(a, b, n) != 0`: the first `n` bytes differ. -/
def memcmp (a b : Bytes) (n : Nat) : Bool := a.take n != b.take n

theorem memcmp_eq_false {a b : Bytes} {n : Nat} (ha : a.length = n) (hb : b.length = n) :
    memcmp a b n = false ↔ a = b := by
  simp [memcmp, List.take_of_length_le (le_of_eq ha), List.take_of_length_le (le_of_eq hb)]

/-- The data-dependent `assert`s of `lodp_pkt.c`, by what they check. -/
inductive Check where
  /-- `assert(buf->len < LODP_MSS)` after a builder sizes its buffer. -/
  | bufLen
  /-- `assert(buf->len > 0)` and `assert(buf->len <= LODP_MSS)` in `encrypt_then_mac`. -/
  | encryptLen
  /-- `assert(!session->is_initiator)` in `on_handshake_pkt`. -/
  | responder
  /-- `assert(STATE_ESTABLISHED != session->state)` in `on_handshake_pkt`. -/
  | notEstablished
  /-- The role and state a caller of a `lodp_send_*_pkt` guarantees. -/
  | caller
  deriving DecidableEq, Repr

/-- A call from the core out to the host, a released cookie buffer, or an `assert`
reached, in program order. -/
inductive Effect where
  | sendto (bytes : Bytes) (addr : SockAddr)
  | onAccept (addr : SockAddr)
  | onConnect (status : Int)
  | onRecv (payload : Bytes)
  | onHeartbeatAck (payload : Bytes)
  | sessionInit (addr : SockAddr)
  | sessionDestroy
  /-- `free(session->cookie)`, with the bytes the buffer holds when released. -/
  | freeCookie (bytes : Bytes)
  | assert (check : Check) (holds : Bool)
  deriving DecidableEq

/-- The calls of `on_accept_fn`, `on_connect_fn`, `on_recv_fn` and `on_heartbeat_ack_fn`. -/
def Effect.isCallback : Effect → Bool
  | .onAccept _ | .onConnect _ | .onRecv _ | .onHeartbeatAck _ => true
  | _ => false

/-- What a call into the core leaves: its return value, the endpoint and the session as it
leaves them, and its effects in order. -/
structure Outcome where
  ret : Int
  ep : Endpoint
  session : Option Session
  effects : List Effect

/-- Modelled from the spec: `LODP_ERR_INVALID_MAC` of `lodp.h`, which is not in the
repository; §7 lists the error kinds as distinct integers, numbered here in its order. -/
def lodpErrInvalidMac : Int := -1

/-- Modelled from the spec: `LODP_ERR_BAD_PACKET` of `lodp.h`. -/
def lodpErrBadPacket : Int := -2

/-- Modelled from the spec: `LODP_ERR_INVALID_COOKIE` of `lodp.h`. -/
def lodpErrInvalidCookie : Int := -3

/-- Modelled from the spec: `LODP_ERR_BAD_HANDSHAKE` of `lodp.h`. -/
def lodpErrBadHandshake : Int := -4

/-- Modelled from the spec: `LODP_ERR_NOT_RESPONDER` of `lodp.h`. -/
def lodpErrNotResponder : Int := -5

/-- Modelled from the spec: `LODP_ERR_NOBUFS` of `lodp.h`. -/
def lodpErrNobufs : Int := -6

/-- Modelled from the spec: `LODP_ERR_MSGSIZE` of `lodp.h`. -/
def lodpErrMsgsize : Int := -7

/-- Modelled from the spec: `LODP_ERR_AFNOTSUPPORT` of `lodp.h`. -/
def lodpErrAfnotsupport : Int := -8

end Lodp
