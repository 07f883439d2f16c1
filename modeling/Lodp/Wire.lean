import Mathlib.Data.List.Basic

/-! Wire constants, packet types and the TLV header overlay of `lodp_pkt.h`. -/
namespace Lodp

/-- A byte string. A fixed-size array of the C structs is one of its declared length. -/
abbrev Bytes := List UInt8

/-- The constants of `lodp_crypto.h` and `lodp_impl.h`, which are not in the repository,
and the two platform `sizeof`s the code uses, as parameters. -/
structure Sizes where
  macDigestLen : Nat
  bulkIvLen : Nat
  macKeyLen : Nat
  bulkKeyLen : Nat
  ecdhPublicKeyLen : Nat
  ecdhSecretLen : Nat
  mss : Nat
  /-- `sizeof(lodp_cookie *)`, what `generate_cookie` wipes. -/
  pointerLen : Nat
  /-- `sizeof(size_t)`. -/
  sizeLen : Nat
  /-- `ntor_handshake` copies a digest into `auth_input.verify[LODP_ECDH_SECRET_LEN]`. -/
  secret_eq_digest : ecdhSecretLen = macDigestLen
  /-- The packets declare `intro_bulk_key` with `LODP_MAC_KEY_LEN` bytes: the copy from a
  bulk key in `lodp_send_init_pkt` and the cookie blob's copy of both intro keys in
  `generate_cookie` stay in bounds only when the two lengths agree. -/
  bulk_eq_mac : bulkKeyLen = macKeyLen
  /-- The TLV `length` field has 16 bits, and an MSS-sized datagram fits in it. -/
  mss_lt : mss < 65536
  /-- The largest packet of fixed size, a HANDSHAKE with a `COOKIE_LEN` cookie, is shorter
  than `LODP_MSS`: the builders' `assert(buf->len < LODP_MSS)` expect it of the constants. -/
  fixed_lt : macDigestLen + bulkIvLen + 4 + macKeyLen + macKeyLen + ecdhPublicKeyLen +
    macDigestLen < mss

/-- A small parameter set that meets both invariants, under which the model evaluates. -/
def Sizes.small : Sizes :=
  ⟨2, 1, 2, 2, 2, 2, 16, 1, 8, rfl, rfl, by decide, by decide⟩

/-- `PKT_TLV_LEN`. -/
def pktTlvLen : Nat := 4

/-- `COOKIE_ROTATE_INTERVAL`, in seconds. -/
def cookieRotateInterval : Int := 30

/-- `COOKIE_GRACE_WINDOW`, in seconds. -/
def cookieGraceWindow : Int := 15

namespace Sizes
variable (z : Sizes)

/-- `PKT_TAG_LEN`: the MAC tag and the IV in front of the TLV header. -/
@[simp] def pktTagLen : Nat := z.macDigestLen + z.bulkIvLen

/-- `PKT_HDR_LEN`, `sizeof(lodp_hdr)`; also `PKT_DATA_LEN`, `PKT_INIT_ACK_LEN`,
`PKT_HEARTBEAT_LEN` and `PKT_HEARTBEAT_ACK_LEN`, whose structs add only a flexible array. -/
@[simp] def pktHdrLen : Nat := z.pktTagLen + pktTlvLen

/-- `PKT_INIT_LEN`: both intro keys are declared `LODP_MAC_KEY_LEN` long. -/
@[simp] def pktInitLen : Nat := z.pktHdrLen + z.macKeyLen + z.macKeyLen

/-- `PKT_HANDSHAKE_LEN`, without the variable cookie. -/
@[simp] def pktHandshakeLen : Nat := z.pktInitLen + z.ecdhPublicKeyLen

/-- `PKT_HANDSHAKE_ACK_LEN`. -/
@[simp] def pktHandshakeAckLen : Nat := z.pktHdrLen + z.ecdhPublicKeyLen + z.macDigestLen

/-- `PKT_HDR_INIT_LEN`. -/
@[simp] def pktHdrInitLen : Nat := z.pktInitLen - z.pktTagLen

/-- `PKT_HDR_HANDSHAKE_LEN`. -/
@[simp] def pktHdrHandshakeLen : Nat := z.pktHandshakeLen - z.pktTagLen

/-- `PKT_HDR_HANDSHAKE_ACK_LEN`. -/
@[simp] def pktHdrHandshakeAckLen : Nat := z.pktHandshakeAckLen - z.pktTagLen

/-- `COOKIE_LEN`. -/
@[simp] def cookieLen : Nat := z.macDigestLen

end Sizes

/-- `lodp_pkt_type`. -/
inductive PktType where
  | data | init | initAck | handshake | handshakeAck | heartbeat | heartbeatAck
  | rekey | rekeyAck
  deriving DecidableEq, Repr

namespace PktType

/-- The numeric value of each packet type on the wire. -/
def toByte : PktType → UInt8
  | data => 0 | init => 1 | initAck => 2 | handshake => 3 | handshakeAck => 4
  | heartbeat => 5 | heartbeatAck => 6 | rekey => 7 | rekeyAck => 8

/-- The case label of the dispatcher's `switch (hdr->type)` that a type byte selects. -/
def ofByte (b : UInt8) : Option PktType :=
  match b.toNat with
  | 0 => some data | 1 => some init | 2 => some initAck | 3 => some handshake
  | 4 => some handshakeAck | 5 => some heartbeat | 6 => some heartbeatAck
  | 7 => some rekey | 8 => some rekeyAck | _ => none

@[simp] theorem ofByte_toByte (t : PktType) : ofByte t.toByte = some t := by
  cases t <;> rfl

theorem toByte_of_ofByte {b : UInt8} {t : PktType} (h : ofByte b = some t) : b = t.toByte := by
  unfold ofByte at h
  apply UInt8.toNat.inj
  split at h <;> cases h <;> exact ‹_›

end PktType

theorem toNat_ofNat_uint8 (n : Nat) : (UInt8.ofNat n).toNat = n % 256 := by
  simp [UInt8.ofNat, UInt8.toNat, BitVec.toNat_ofNat]

/-- `n` bytes from offset `off`: a field of a packed struct overlaid on a buffer. -/
def slice (off n : Nat) (b : Bytes) : Bytes := (b.drop off).take n

@[simp] theorem slice_append_left {a b : Bytes} {n : Nat} (h : a.length = n) :
    slice 0 n (a ++ b) = a := by
  simp [slice, List.take_left' h]

theorem slice_append_right {a b : Bytes} (off n : Nat) (h : a.length = off) :
    slice off n (a ++ b) = slice 0 n b := by
  simp [slice, List.drop_left' h]

theorem slice_append_offset {a b : Bytes} {k : Nat} (off n : Nat) (h : a.length = k) :
    slice (k + off) n (a ++ b) = slice off n b := by
  rw [slice, ← h, List.drop_append, slice]

/-- The four bytes a builder writes after the tag: `type`, `flags = 0` and
`htons(length)`, which keeps the low 16 bits. -/
def tlv (type : PktType) (length : Nat) : Bytes :=
  [type.toByte, 0, UInt8.ofNat (length / 256), UInt8.ofNat length]

@[simp] theorem tlv_length (type : PktType) (length : Nat) : (tlv type length).length = 4 := rfl

/-- A decrypted packet as the handlers see it through the `lodp_hdr` overlay, after the
dispatcher's in-place `ntohs` of `length`; `payload` is everything after the TLV. -/
structure Pkt where
  type : UInt8
  flags : UInt8
  length : Nat
  payload : Bytes
  deriving DecidableEq, Repr

namespace Pkt

/-- Reads the TLV header from the plaintext that starts at offset `PKT_TAG_LEN`. -/
def parse (pt : Bytes) : Pkt :=
  ⟨pt.getD 0 0, pt.getD 1 0, (pt.getD 2 0).toNat * 256 + (pt.getD 3 0).toNat, pt.drop 4⟩

@[simp] theorem parse_tlv (type : PktType) (length : Nat) (rest : Bytes) :
    parse (tlv type length ++ rest) = ⟨type.toByte, 0, length % 65536, rest⟩ := by
  simp only [parse, tlv, List.cons_append, List.getD_cons_succ, List.getD_cons_zero,
    List.drop_succ_cons, List.drop_zero, mk.injEq, true_and]
  simp only [toNat_ofNat_uint8, List.nil_append, and_true]
  omega

variable (z : Sizes) (p : Pkt)

/-- `intro_mac_key` of an INIT or HANDSHAKE packet. -/
def introMacKey : Bytes := slice 0 z.macKeyLen p.payload

/-- `intro_bulk_key` of an INIT or HANDSHAKE packet, declared `LODP_MAC_KEY_LEN` long. -/
def introBulkKey : Bytes := slice z.macKeyLen z.macKeyLen p.payload

/-- `public_key` of a HANDSHAKE packet. -/
def publicKey : Bytes := slice (z.macKeyLen + z.macKeyLen) z.ecdhPublicKeyLen p.payload

/-- The `COOKIE_LEN` bytes of a HANDSHAKE's `cookie` that the responder compares. -/
def cookie : Bytes :=
  slice (z.macKeyLen + z.macKeyLen + z.ecdhPublicKeyLen) z.cookieLen p.payload

/-- `public_key` of a HANDSHAKE ACK packet. -/
def ackPublicKey : Bytes := slice 0 z.ecdhPublicKeyLen p.payload

/-- `digest` of a HANDSHAKE ACK packet. -/
def digest : Bytes := slice z.ecdhPublicKeyLen z.macDigestLen p.payload

/-- The `length - PKT_TLV_LEN` bytes of the flexible array of a DATA, INIT ACK,
HEARTBEAT or HEARTBEAT ACK packet. -/
def body : Bytes := slice 0 (p.length - pktTlvLen) p.payload

/-! Each reader returns the field a builder wrote in its place, whatever follows it. -/

variable {z} {t f : UInt8} {n : Nat} {m b k q r : Bytes}

theorem introMacKey_append (hm : m.length = z.macKeyLen) :
    introMacKey z ⟨t, f, n, m ++ r⟩ = m := by
  simp only [introMacKey, slice_append_left hm]

theorem introBulkKey_append (hm : m.length = z.macKeyLen) (hb : b.length = z.macKeyLen) :
    introBulkKey z ⟨t, f, n, m ++ (b ++ r)⟩ = b := by
  simp only [introBulkKey]
  rw [slice_append_right _ _ hm, slice_append_left hb]

theorem publicKey_append (hm : m.length = z.macKeyLen) (hb : b.length = z.macKeyLen)
    (hk : k.length = z.ecdhPublicKeyLen) :
    publicKey z ⟨t, f, n, m ++ (b ++ (k ++ r))⟩ = k := by
  simp only [publicKey]
  rw [slice_append_offset _ _ hm, slice_append_right _ _ hb, slice_append_left hk]

theorem cookie_append (hm : m.length = z.macKeyLen) (hb : b.length = z.macKeyLen)
    (hk : k.length = z.ecdhPublicKeyLen) (hq : q.length = z.cookieLen) :
    cookie z ⟨t, f, n, m ++ (b ++ (k ++ (q ++ r)))⟩ = q := by
  simp only [cookie]
  rw [Nat.add_assoc, slice_append_offset _ _ hm, slice_append_offset _ _ hb,
    slice_append_right _ _ hk, slice_append_left hq]

theorem ackPublicKey_append (hk : k.length = z.ecdhPublicKeyLen) :
    ackPublicKey z ⟨t, f, n, k ++ r⟩ = k := by
  simp only [ackPublicKey, slice_append_left hk]

theorem digest_append (hk : k.length = z.ecdhPublicKeyLen) (hq : q.length = z.macDigestLen) :
    digest z ⟨t, f, n, k ++ (q ++ r)⟩ = q := by
  simp only [digest]
  rw [slice_append_right _ _ hk, slice_append_left hq]

theorem body_append : body ⟨t, f, pktTlvLen + b.length, b ++ r⟩ = b := by
  simp only [body, Nat.add_sub_cancel_left, slice_append_left]

end Pkt

end Lodp
