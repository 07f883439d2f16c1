import Lodp.Core

/-! The encrypt-then-MAC envelope: `encrypt_then_mac` and `mac_then_decrypt`. -/
namespace Lodp

variable (z : Sizes) (c : Crypto)

/-- What `encrypt_then_mac` leaves: its status, the `buf->len` bytes of the ciphertext
view, and the `assert` it reaches on entry. -/
structure Sealed where
  ret : Int
  ciphertext : Bytes
  effects : List Effect

/-- The padding `encrypt_then_mac` appends to a `len`-byte buffer: what `pre_encrypt_fn`
asks for when positive, clamped to `LODP_MSS - len`. -/
def padLen (ep : Endpoint) (h : Host) (len : Nat) : Nat :=
  if ep.callbacks.preEncryptFn = true ∧ 0 < h.preEncrypt then
    if h.preEncrypt + len > z.mss then z.mss - len else h.preEncrypt.toNat
  else 0

theorem padLen_le (ep : Endpoint) (h : Host) {len : Nat} (hl : len ≤ z.mss) :
    len + padLen z ep h len ≤ z.mss := by
  unfold padLen
  split_ifs <;> omega

theorem padLen_eq_min (ep : Endpoint) (h : Host) {len : Nat} (hl : len ≤ z.mss) :
    padLen z ep h len =
      if ep.callbacks.preEncryptFn then min h.preEncrypt.toNat (z.mss - len) else 0 := by
  unfold padLen
  cases ep.callbacks.preEncryptFn
  · simp
  · rw [Nat.min_def]
    simp only [true_and, if_true]
    split_ifs <;> omega

/-- `encrypt_then_mac` on the plaintext view `pt` counted from `PKT_TAG_LEN`, so that
`buf->len = PKT_TAG_LEN + pt.length`: padding, a random IV, the bytes after the IV
encrypted, and the MAC over IV and ciphertext written in front. -/
def encryptThenMac (ep : Endpoint) (h : Host) (keys : SymmetricKey) (pt : Bytes) : Sealed :=
  let len := z.pktTagLen + pt.length
  let chk := Effect.assert .encryptLen (decide (0 < len ∧ len ≤ z.mss))
  let iv := draw h.randIv z.bulkIvLen
  let enc := c.encrypt keys.bulkKey iv (pt ++ draw h.randPad (padLen z ep h len))
  if enc.1 ≠ 0 then ⟨enc.1, [], [chk]⟩
  else
    let tag := c.mac keys.macKey (iv ++ enc.2) z.macDigestLen
    ⟨tag.1, tag.2 ++ iv ++ enc.2, [chk]⟩

@[simp] theorem encryptThenMac_effects (ep : Endpoint) (h : Host) (keys : SymmetricKey)
    (pt : Bytes) : (encryptThenMac z c ep h keys pt).effects =
      [.assert .encryptLen (decide (0 < z.pktTagLen + pt.length ∧
        z.pktTagLen + pt.length ≤ z.mss))] := by
  simp only [encryptThenMac]
  split_ifs <;> rfl

theorem encryptThenMac_ciphertext_length {ep : Endpoint} {h : Host} {keys : SymmetricKey}
    {pt : Bytes} (h0 : (encryptThenMac z c ep h keys pt).ret = 0) :
    (encryptThenMac z c ep h keys pt).ciphertext.length =
      z.pktTagLen + pt.length + padLen z ep h (z.pktTagLen + pt.length) := by
  simp only [encryptThenMac] at h0 ⊢
  split_ifs at h0 ⊢ with he
  · exact absurd h0 he
  · simp [c.mac_length, c.encrypt_length]
    omega

theorem encryptThenMac_ret (ep : Endpoint) (h : Host) (keys : SymmetricKey) (pt : Bytes) :
    (∃ k iv m, (c.encrypt k iv m).1 = (encryptThenMac z c ep h keys pt).ret) ∨
      ∃ k m n, (c.mac k m n).1 = (encryptThenMac z c ep h keys pt).ret := by
  simp only [encryptThenMac]
  split_ifs
  · exact .inl ⟨_, _, _, rfl⟩
  · exact .inr ⟨_, _, _, rfl⟩

/-- `lodp_buf` as the dispatcher gets it: the datagram in the ciphertext view, whose
length is `buf->len`, and the plaintext view counted from `PKT_TAG_LEN`. -/
structure Buf where
  ciphertext : Bytes
  plaintext : Bytes
  deriving DecidableEq

/-- `mac_then_decrypt`: the MAC over `[MAC_LEN, len)` is compared with the tag in front,
and only then are the bytes after the IV decrypted into the plaintext view. -/
def macThenDecrypt (keys : SymmetricKey) (buf : Buf) : Int × Buf :=
  let ct := buf.ciphertext
  let digest := c.mac keys.macKey (ct.drop z.macDigestLen) z.macDigestLen
  if digest.1 ≠ 0 then (digest.1, buf)
  else if memcmp digest.2 ct z.macDigestLen then (lodpErrInvalidMac, buf)
  else
    let pt := c.decrypt keys.bulkKey (slice z.macDigestLen z.bulkIvLen ct) (ct.drop z.pktTagLen)
    (pt.1, { buf with plaintext := pt.2 })

variable {z c}

theorem macThenDecrypt_ok {keys : SymmetricKey} {buf : Buf}
    (h : (macThenDecrypt z c keys buf).1 = 0) :
    memcmp (c.mac keys.macKey (buf.ciphertext.drop z.macDigestLen) z.macDigestLen).2
      buf.ciphertext z.macDigestLen = false ∧
    (macThenDecrypt z c keys buf).2.ciphertext = buf.ciphertext ∧
    (macThenDecrypt z c keys buf).2.plaintext.length = buf.ciphertext.length - z.pktTagLen := by
  simp only [macThenDecrypt] at h ⊢
  split_ifs at h ⊢ with h1 h2
  · exact absurd h h1
  · simp [lodpErrInvalidMac] at h
  · simp [c.decrypt_length, h2]

/-- `lodp_decrypt(k, iv, .)` undoes a successful `lodp_encrypt(k, iv, .)`. -/
def Crypto.Inverts (c : Crypto) : Prop :=
  ∀ k iv m, (c.encrypt k iv m).1 = 0 → c.decrypt k iv (c.encrypt k iv m).2 = (0, m)

theorem macThenDecrypt_sealed {keys : SymmetricKey} {tag iv e old : Bytes}
    (hiv : iv.length = z.bulkIvLen)
    (hmac : c.mac keys.macKey (iv ++ e) z.macDigestLen = (0, tag)) :
    macThenDecrypt z c keys ⟨tag ++ iv ++ e, old⟩ =
      ((c.decrypt keys.bulkKey iv e).1, ⟨tag ++ iv ++ e, (c.decrypt keys.bulkKey iv e).2⟩) := by
  have htag : tag.length = z.macDigestLen := by
    simpa [hmac] using c.mac_length keys.macKey (iv ++ e) z.macDigestLen
  have hmac' : (tag ++ (iv ++ e)).drop z.macDigestLen = iv ++ e := List.drop_left' htag
  have hmem : memcmp tag (tag ++ (iv ++ e)) z.macDigestLen = false := by
    simp [memcmp, List.take_left' htag, List.take_of_length_le htag.le]
  have hiv' : slice z.macDigestLen z.bulkIvLen (tag ++ (iv ++ e)) = iv := by
    rw [slice_append_right _ _ htag, slice_append_left hiv]
  have he : (tag ++ (iv ++ e)).drop (z.macDigestLen + z.bulkIvLen) = e := by
    rw [← List.drop_drop, hmac', List.drop_left' hiv]
  simp [macThenDecrypt, hmac', hmac, hmem, hiv', he]

theorem macThenDecrypt_encryptThenMac (hinv : c.Inverts) {ep : Endpoint} {h : Host}
    {keys : SymmetricKey} {pt : Bytes} (h0 : (encryptThenMac z c ep h keys pt).ret = 0)
    (old : Bytes) :
    macThenDecrypt z c keys ⟨(encryptThenMac z c ep h keys pt).ciphertext, old⟩ =
      (0, ⟨(encryptThenMac z c ep h keys pt).ciphertext,
        pt ++ draw h.randPad (padLen z ep h (z.pktTagLen + pt.length))⟩) := by
  simp only [encryptThenMac] at h0 ⊢
  split_ifs at h0 ⊢ with he
  · exact absurd h0 he
  · rw [not_not] at he
    rw [macThenDecrypt_sealed (draw_length _ _) (Prod.ext h0 rfl), hinv _ _ _ he]

/-- Two different messages to which `lodp_mac` gives the same `n`-byte digest under `k`; an
injective MAC has none. -/
def Crypto.Collides (c : Crypto) (k : Bytes) (n : Nat) (m m' : Bytes) : Prop :=
  m ≠ m' ∧ (c.mac k m n).2 = (c.mac k m' n).2

theorem encryptThenMac_tagged {ep : Endpoint} {h : Host} {keys : SymmetricKey} {pt : Bytes}
    (h0 : (encryptThenMac z c ep h keys pt).ret = 0) :
    ∃ body, (encryptThenMac z c ep h keys pt).ciphertext =
      (c.mac keys.macKey body z.macDigestLen).2 ++ body ∧
        (c.mac keys.macKey body z.macDigestLen).1 = 0 := by
  simp only [encryptThenMac] at h0 ⊢
  split_ifs at h0 ⊢ with he
  · exact absurd h0 he
  · exact ⟨_, List.append_assoc .., h0⟩

/-- MAC integrity. A datagram that differs from what a successful `encrypt_then_mac` sent
only in the tag, or only in the MACed bytes `[MAC_LEN, len)` and their number, is refused
before anything is decrypted: `mac_then_decrypt` returns `LODP_ERR_INVALID_MAC`, or the
failure status of `lodp_mac`, and leaves the plaintext view as it was, unless the MAC
collides on the two MACed ranges. -/
theorem macThenDecrypt_tampered {ep : Endpoint} {h : Host} {keys : SymmetricKey} {pt : Bytes}
    (h0 : (encryptThenMac z c ep h keys pt).ret = 0) {ct old : Bytes}
    (hne : ct ≠ (encryptThenMac z c ep h keys pt).ciphertext)
    (hpart : ct.take z.macDigestLen =
        (encryptThenMac z c ep h keys pt).ciphertext.take z.macDigestLen ∨
      ct.drop z.macDigestLen = (encryptThenMac z c ep h keys pt).ciphertext.drop z.macDigestLen) :
    ((macThenDecrypt z c keys ⟨ct, old⟩).2 = ⟨ct, old⟩ ∧
      ((macThenDecrypt z c keys ⟨ct, old⟩).1 = lodpErrInvalidMac ∨
        (macThenDecrypt z c keys ⟨ct, old⟩).1 =
          (c.mac keys.macKey (ct.drop z.macDigestLen) z.macDigestLen).1 ∧
        (macThenDecrypt z c keys ⟨ct, old⟩).1 ≠ 0)) ∨
    c.Collides keys.macKey z.macDigestLen (ct.drop z.macDigestLen)
      ((encryptThenMac z c ep h keys pt).ciphertext.drop z.macDigestLen) := by
  obtain ⟨body, hB, -⟩ := encryptThenMac_tagged h0
  have htag := c.mac_length keys.macKey body z.macDigestLen
  rw [hB] at hne hpart ⊢
  rw [List.take_left' htag, List.drop_left' htag] at hpart
  rw [List.drop_left' htag]
  simp only [macThenDecrypt]
  by_cases h1 : (c.mac keys.macKey (ct.drop z.macDigestLen) z.macDigestLen).1 ≠ 0
  · rw [if_pos h1]
    exact .inl ⟨rfl, .inr ⟨rfl, h1⟩⟩
  rw [if_neg h1]
  cases hm : memcmp (c.mac keys.macKey (ct.drop z.macDigestLen) z.macDigestLen).2 ct
      z.macDigestLen
  · -- the tag matched: the received tag is the MAC of the received body
    have hdig : (c.mac keys.macKey (ct.drop z.macDigestLen) z.macDigestLen).2 =
        ct.take z.macDigestLen := by
      simpa [memcmp, List.take_of_length_le (c.mac_length ..).le] using hm
    rcases hpart with ht | hd
    · refine .inr ⟨fun he => hne ?_, hdig.trans ht⟩
      rw [← List.take_append_drop z.macDigestLen ct, ht, he]
    · refine absurd ?_ hne
      rw [← List.take_append_drop z.macDigestLen ct, ← hdig, hd]
  · exact .inl ⟨rfl, .inl rfl⟩

/-- An endpoint without `pre_encrypt_fn`, for the small evaluations of the envelope. -/
def plainEndpoint : Endpoint := ⟨⟨[], []⟩, ⟨[], []⟩, false, [], [], 0, 0, ⟨false, false⟩⟩

/-- A call whose random streams and callbacks all give `0`. -/
def zeroHost : Host :=
  ⟨0, true, true, none, fun _ => 0, fun _ => 0, fun _ => 0, fun _ => 0, 0, 0, 0, 0⟩

/-- The failing input: the datagram sealed for `[0, 0, 0, 5, 7]` with its last byte changed
and its tag kept is refused with `LODP_ERR_INVALID_MAC`. -/
theorem macThenDecrypt_tampered_small :
    ((macThenDecrypt Sizes.small Crypto.toy ⟨[1, 1], [1, 1]⟩
        ⟨[14, 14, 0, 0, 0, 0, 5, 8], []⟩).2 = ⟨[14, 14, 0, 0, 0, 0, 5, 8], []⟩ ∧
      ((macThenDecrypt Sizes.small Crypto.toy ⟨[1, 1], [1, 1]⟩
          ⟨[14, 14, 0, 0, 0, 0, 5, 8], []⟩).1 = lodpErrInvalidMac ∨
        (macThenDecrypt Sizes.small Crypto.toy ⟨[1, 1], [1, 1]⟩
          ⟨[14, 14, 0, 0, 0, 0, 5, 8], []⟩).1 =
          (Crypto.toy.mac [1, 1] ([14, 14, 0, 0, 0, 0, 5, 8].drop 2) 2).1 ∧
        (macThenDecrypt Sizes.small Crypto.toy ⟨[1, 1], [1, 1]⟩
          ⟨[14, 14, 0, 0, 0, 0, 5, 8], []⟩).1 ≠ 0)) ∨
    Crypto.toy.Collides [1, 1] 2 ([14, 14, 0, 0, 0, 0, 5, 8].drop 2)
      ((encryptThenMac Sizes.small Crypto.toy plainEndpoint zeroHost ⟨[1, 1], [1, 1]⟩
        [0, 0, 0, 5, 7]).ciphertext.drop 2) :=
  macThenDecrypt_tampered (by decide) (by decide) (.inl (by decide))

/-- The MAC binds a datagram to its own tag, not to the first datagram sent: a second
datagram `encrypt_then_mac` seals under the same keys differs from the first in tag and
body, and `mac_then_decrypt` accepts it and overwrites the plaintext view. -/
theorem macThenDecrypt_resealed_small :
    (encryptThenMac Sizes.small Crypto.toy plainEndpoint zeroHost ⟨[1, 1], [1, 1]⟩
        [0, 0, 0, 5, 7]).ciphertext ≠
      (encryptThenMac Sizes.small Crypto.toy plainEndpoint zeroHost ⟨[1, 1], [1, 1]⟩
        [0, 0, 0, 5, 9]).ciphertext ∧
    macThenDecrypt Sizes.small Crypto.toy ⟨[1, 1], [1, 1]⟩
      ⟨(encryptThenMac Sizes.small Crypto.toy plainEndpoint zeroHost ⟨[1, 1], [1, 1]⟩
        [0, 0, 0, 5, 9]).ciphertext, []⟩ =
      (0, ⟨[16, 16, 0, 0, 0, 0, 5, 9], [0, 0, 0, 5, 9]⟩) :=
  ⟨by decide, by decide⟩

end Lodp
