import Lodp.Envelope

/-! The stateless cookie: key rotation, `generate_cookie`, and the cookie check of a HANDSHAKE. -/
namespace Lodp

variable (z : Sizes) (c : Crypto)

/-- `lodp_rotate_cookie_key`. -/
def lodpRotateCookieKey (ep : Endpoint) (h : Host) : Endpoint :=
  { ep with
    prevCookieKey := ep.cookieKey
    cookieKey := draw h.randKey z.macKeyLen
    cookieRotateTime := h.now
    cookieExpireTime := h.now + cookieGraceWindow }

/-- The rotation `generate_cookie` starts with, once `COOKIE_ROTATE_INTERVAL` has passed. -/
def rotateIfDue (ep : Endpoint) (h : Host) : Endpoint :=
  if h.now > ep.cookieRotateTime + cookieRotateInterval then lodpRotateCookieKey z ep h else ep

/-- The blob `generate_cookie` MACs: peer address and port, then the two intro keys the
packet carries. -/
def cookieBlob (a : Bytes) (pkt : Pkt) : Bytes :=
  a ++ slice 0 (z.macKeyLen + z.bulkKeyLen) pkt.payload

/-- What `generate_cookie` leaves: its status, the endpoint after a due rotation, and the
`COOKIE_LEN` bytes it writes, or `none` when it returns before writing. -/
structure GeneratedCookie where
  ret : Int
  ep : Endpoint
  cookie : Option Bytes

/-- `generate_cookie`. It never reads `prev_key`: both calls MAC with `ep->cookie_key`.
Its final `lodp_memwipe(cookie, sizeof(cookie))` zeroes `sizeof(lodp_cookie *)` bytes of
the cookie it has just written. -/
def generateCookie (_prevKey : Bool) (ep : Endpoint) (pkt : Pkt) (addr : SockAddr)
    (h : Host) : GeneratedCookie :=
  let ep := rotateIfDue z ep h
  if pkt.type ≠ PktType.init.toByte ∧ pkt.type ≠ PktType.handshake.toByte then
    ⟨lodpErrBadPacket, ep, none⟩
  else
    match addr.blob with
    | none => ⟨lodpErrAfnotsupport, ep, none⟩
    | some a =>
      if pkt.length < 4 + z.macKeyLen + z.bulkKeyLen then ⟨lodpErrBadPacket, ep, none⟩
      else
        let m := c.mac ep.cookieKey (cookieBlob z a pkt) z.cookieLen
        ⟨m.1, ep, some (memwipePrefix z.pointerLen m.2)⟩

/-- The cookie check of `on_handshake_pkt` (its lines 820 to 839): the status, and the
endpoint after the calls to `generate_cookie`. -/
def validateCookie (ep : Endpoint) (pkt : Pkt) (addr : SockAddr) (h : Host) : Int × Endpoint :=
  let g := generateCookie z c false ep pkt addr h
  if g.ret ≠ 0 then (g.ret, g.ep)
  else if !memcmp (g.cookie.getD []) (pkt.cookie z) z.cookieLen then (0, g.ep)
  else if h.now > g.ep.cookieExpireTime then (lodpErrInvalidCookie, g.ep)
  else
    let g' := generateCookie z c true g.ep pkt addr h
    if g'.ret ≠ 0 then (g'.ret, g'.ep)
    else if memcmp (g'.cookie.getD []) (pkt.cookie z) z.cookieLen then
      (lodpErrInvalidCookie, g'.ep)
    else (0, g'.ep)

variable {z c} {ep : Endpoint} {h : Host} {pkt : Pkt} {addr : SockAddr}

@[simp] theorem rotateIfDue_rotateIfDue :
    rotateIfDue z (rotateIfDue z ep h) h = rotateIfDue z ep h := by
  have hnot : ¬ h.now > h.now + cookieRotateInterval := by simp only [cookieRotateInterval]; omega
  by_cases hd : h.now > ep.cookieRotateTime + cookieRotateInterval
  · simp only [rotateIfDue, if_pos hd, lodpRotateCookieKey, hnot, if_false]
  · simp only [rotateIfDue, if_neg hd]

theorem rotateIfDue_frame (z : Sizes) (ep : Endpoint) (h : Host) :
    ∃ k pk rt et, rotateIfDue z ep h =
      { ep with
        cookieKey := k, prevCookieKey := pk, cookieRotateTime := rt, cookieExpireTime := et } := by
  unfold rotateIfDue lodpRotateCookieKey
  split_ifs <;> exact ⟨_, _, _, _, rfl⟩

@[simp] theorem rotateIfDue_introEcdhKeypair :
    (rotateIfDue z ep h).introEcdhKeypair = ep.introEcdhKeypair := by
  obtain ⟨_, _, _, _, he⟩ := rotateIfDue_frame z ep h
  rw [he]

@[simp] theorem rotateIfDue_introSymKeys : (rotateIfDue z ep h).introSymKeys = ep.introSymKeys := by
  obtain ⟨_, _, _, _, he⟩ := rotateIfDue_frame z ep h
  rw [he]

@[simp] theorem rotateIfDue_hasIntroKeys : (rotateIfDue z ep h).hasIntroKeys = ep.hasIntroKeys := by
  obtain ⟨_, _, _, _, he⟩ := rotateIfDue_frame z ep h
  rw [he]

@[simp] theorem rotateIfDue_callbacks : (rotateIfDue z ep h).callbacks = ep.callbacks := by
  obtain ⟨_, _, _, _, he⟩ := rotateIfDue_frame z ep h
  rw [he]

theorem rotateIfDue_cases : rotateIfDue z ep h = ep ∨
    (h.now > ep.cookieRotateTime + cookieRotateInterval ∧
      rotateIfDue z ep h = lodpRotateCookieKey z ep h) := by
  unfold rotateIfDue
  split_ifs with hd
  · exact .inr ⟨hd, rfl⟩
  · exact .inl rfl

@[simp] theorem generateCookie_rotateIfDue (b : Bool) :
    generateCookie z c b (rotateIfDue z ep h) pkt addr h = generateCookie z c b ep pkt addr h := by
  simp only [generateCookie, rotateIfDue_rotateIfDue]

@[simp] theorem validateCookie_rotateIfDue :
    validateCookie z c (rotateIfDue z ep h) pkt addr h = validateCookie z c ep pkt addr h := by
  simp only [validateCookie, generateCookie_rotateIfDue]

@[simp] theorem generateCookie_ep (b : Bool) :
    (generateCookie z c b ep pkt addr h).ep = rotateIfDue z ep h := by
  unfold generateCookie
  rcases addr.blob with _ | a <;> split_ifs <;> rfl

theorem generateCookie_eq_mac {b : Bool} (h0 : (generateCookie z c b ep pkt addr h).ret = 0) :
    ∃ a, addr.blob = some a ∧ ¬ pkt.length < 4 + z.macKeyLen + z.bulkKeyLen ∧
      (pkt.type = PktType.init.toByte ∨ pkt.type = PktType.handshake.toByte) ∧
      (c.mac (rotateIfDue z ep h).cookieKey (cookieBlob z a pkt) z.cookieLen).1 = 0 ∧
      (generateCookie z c b ep pkt addr h).cookie = some (memwipePrefix z.pointerLen
        (c.mac (rotateIfDue z ep h).cookieKey (cookieBlob z a pkt) z.cookieLen).2) := by
  unfold generateCookie at h0 ⊢
  rcases hb : addr.blob with _ | a <;> simp only [hb] at h0 ⊢ <;> split_ifs at h0 ⊢
  all_goals first
    | exact ⟨a, rfl, by assumption, by tauto, h0, rfl⟩
    | simp [lodpErrBadPacket, lodpErrAfnotsupport] at h0

@[simp] theorem validateCookie_ep : (validateCookie z c ep pkt addr h).2 = rotateIfDue z ep h := by
  simp only [validateCookie, apply_ite Prod.snd, generateCookie_ep, rotateIfDue_rotateIfDue,
    ite_self]

theorem validateCookie_ok (h0 : (validateCookie z c ep pkt addr h).1 = 0) :
    ∃ a, addr.blob = some a ∧ ¬ pkt.length < 4 + z.macKeyLen + z.bulkKeyLen ∧
      (pkt.type = PktType.init.toByte ∨ pkt.type = PktType.handshake.toByte) ∧
      (c.mac (rotateIfDue z ep h).cookieKey (cookieBlob z a pkt) z.cookieLen).1 = 0 ∧
      (memwipePrefix z.pointerLen
        (c.mac (rotateIfDue z ep h).cookieKey (cookieBlob z a pkt) z.cookieLen).2).take
          z.cookieLen = (pkt.cookie z).take z.cookieLen := by
  have key : ∀ {b e}, rotateIfDue z e h = rotateIfDue z ep h →
      (generateCookie z c b e pkt addr h).ret = 0 →
      memcmp ((generateCookie z c b e pkt addr h).cookie.getD []) (pkt.cookie z) z.cookieLen
        = false → ∃ a, addr.blob = some a ∧ ¬ pkt.length < 4 + z.macKeyLen + z.bulkKeyLen ∧
      (pkt.type = PktType.init.toByte ∨ pkt.type = PktType.handshake.toByte) ∧
      (c.mac (rotateIfDue z ep h).cookieKey (cookieBlob z a pkt) z.cookieLen).1 = 0 ∧
      (memwipePrefix z.pointerLen
        (c.mac (rotateIfDue z ep h).cookieKey (cookieBlob z a pkt) z.cookieLen).2).take
          z.cookieLen = (pkt.cookie z).take z.cookieLen := by
    intro b e he hr hm
    obtain ⟨a, ha, hl, ht, hmac, hc⟩ := generateCookie_eq_mac hr
    rw [he] at hmac hc
    exact ⟨a, ha, hl, ht, hmac, by simpa [hc, memcmp] using hm⟩
  simp only [validateCookie, generateCookie_ep] at h0
  generalize hg : generateCookie z c false ep pkt addr h = g at h0
  generalize hg' : generateCookie z c true (rotateIfDue z ep h) pkt addr h = g' at h0
  by_cases h1 : g.ret = 0
  swap
  · rw [if_pos h1] at h0
    exact absurd h0 h1
  rw [if_neg (not_not.mpr h1)] at h0
  cases hm : memcmp (g.cookie.getD []) (pkt.cookie z) z.cookieLen
  · exact key rfl (hg ▸ h1) (hg ▸ hm)
  rw [hm, if_neg (by decide : ¬(!true) = true)] at h0
  by_cases h3 : h.now > (rotateIfDue z ep h).cookieExpireTime
  · rw [if_pos h3] at h0
    cases h0
  rw [if_neg h3] at h0
  by_cases h4 : g'.ret = 0
  swap
  · rw [if_pos h4] at h0
    exact absurd h0 h4
  rw [if_neg (not_not.mpr h4)] at h0
  cases hm' : memcmp (g'.cookie.getD []) (pkt.cookie z) z.cookieLen
  · exact key rotateIfDue_rotateIfDue (hg' ▸ h4) (hg' ▸ hm')
  rw [hm', if_pos rfl] at h0
  cases h0

/-- The grace window is never used: with no rotation due, a HANDSHAKE whose cookie
`prev_cookie_key` made is rejected whenever the current key makes a different one, at any
time, inside the window that `cookie_expire_time` closes or not. -/
theorem validateCookie_prev_key {a : Bytes} (ha : addr.blob = some a)
    (hl : 4 + z.macKeyLen + z.bulkKeyLen ≤ pkt.length) (ht : pkt.type = PktType.handshake.toByte)
    (hdue : h.now ≤ ep.cookieRotateTime + cookieRotateInterval)
    (hmac : (c.mac ep.cookieKey (cookieBlob z a pkt) z.cookieLen).1 = 0)
    (hc : (pkt.cookie z).take z.cookieLen = (memwipePrefix z.pointerLen
      (c.mac ep.prevCookieKey (cookieBlob z a pkt) z.cookieLen).2).take z.cookieLen)
    (hdiff : (memwipePrefix z.pointerLen
      (c.mac ep.cookieKey (cookieBlob z a pkt) z.cookieLen).2).take z.cookieLen ≠
        (memwipePrefix z.pointerLen
          (c.mac ep.prevCookieKey (cookieBlob z a pkt) z.cookieLen).2).take z.cookieLen) :
    (validateCookie z c ep pkt addr h).1 = lodpErrInvalidCookie := by
  simp only [Sizes.cookieLen] at hmac hc hdiff
  have hr : rotateIfDue z ep h = ep := by
    unfold rotateIfDue
    exact if_neg (Int.not_lt.mpr hdue)
  have hg : ∀ b, generateCookie z c b ep pkt addr h = ⟨0, ep, some (memwipePrefix z.pointerLen
      (c.mac ep.cookieKey (cookieBlob z a pkt) z.cookieLen).2)⟩ := by
    intro b
    simp only [generateCookie, hr, ht, ha]
    simp [hmac, show ¬ pkt.length < 4 + z.macKeyLen + z.bulkKeyLen by omega]
  have hm : memcmp (memwipePrefix z.pointerLen (c.mac ep.cookieKey (cookieBlob z a pkt)
      z.cookieLen).2) (pkt.cookie z) z.cookieLen = true := by
    simpa [memcmp, hc] using hdiff
  simp only [validateCookie, hg, hm, Option.getD_some]
  simp

/-- The failing input: the previous key `[1, 1]` made the cookie `[0, 97]` for this
HANDSHAKE, at time `10`, inside the window that closes at `15`; the current key `[7, 7]`
makes `[0, 109]`. -/
theorem validateCookie_prev_key_small :
    (validateCookie Sizes.small Crypto.toy
      ⟨⟨[0, 5], [0, 5]⟩, ⟨[0, 0], [0, 0]⟩, true, [7, 7], [1, 1], 0, 15, ⟨false, false⟩⟩
      ⟨PktType.handshake.toByte, 0, 12, [1, 1, 1, 1, 0, 3, 0, 97]⟩
      (.inet ⟨[10, 0, 0, 1], rfl⟩ ⟨[0, 80], rfl⟩)
      ⟨10, true, true, none, fun _ => 0, fun _ => 0, fun _ => 0, fun _ => 0, 0, 0, 0, 0⟩).1 =
        lodpErrInvalidCookie :=
  validateCookie_prev_key rfl (by decide) rfl (by decide) rfl (by decide) (by decide)

end Lodp
