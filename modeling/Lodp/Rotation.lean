import Lodp.Amplification

/-! How often datagrams rotate the cookie key: at most once per `COOKIE_ROTATE_INTERVAL`. -/
namespace Lodp

variable (z : Sizes) (c : Crypto)

/-- The `cookie_rotate_time` of each step of a run that changes it, in order. -/
def rotationTimes (sys : System) : List Event → List Int
  | [] => []
  | e :: es =>
    (if (step z c sys e).1.ep.cookieRotateTime = sys.ep.cookieRotateTime then []
      else [(step z c sys e).1.ep.cookieRotateTime]) ++ rotationTimes (step z c sys e).1 es

variable {z c}

theorem step_cookieRotateTime (sys : System) (a : SockAddr) (buf : Buf) (h : Host) :
    (step z c sys (.packet a buf h)).1.ep.cookieRotateTime = sys.ep.cookieRotateTime ∨
      ((step z c sys (.packet a buf h)).1.ep.cookieRotateTime = h.now ∧
        h.now > sys.ep.cookieRotateTime + cookieRotateInterval) := by
  rcases @lodpOnIncomingPkt_ep z c sys.ep buf a h (sys.sessions a) with he | he
  · exact .inl (by simp only [step, he])
  · rcases @rotateIfDue_cases z sys.ep h with hr | ⟨hd, hr⟩
    · exact .inl (by simp only [step, he, hr])
    · exact .inr ⟨by simp only [step, he, hr, lodpRotateCookieKey], hd⟩

/-- Datagrams rotate the cookie key at most once per interval. Over every run of datagrams,
from any endpoint and whatever the times the host supplies, each rotation the datagrams
trigger happens more than `COOKIE_ROTATE_INTERVAL` seconds after the previous one (after the
endpoint's last rotation, for the first). -/
theorem rotations_spaced (sys : System) (es : List Event) (hp : ∀ e ∈ es, e.source.isSome) :
    List.Chain (fun t t' => t + cookieRotateInterval < t') sys.ep.cookieRotateTime
      (rotationTimes z c sys es) := by
  induction es generalizing sys with
  | nil => exact .nil
  | cons e es ih =>
    have ih' := ih (step z c sys e).1 fun e' he' => hp e' (.tail _ he')
    obtain ⟨a, buf, h, rfl⟩ : ∃ a buf h, e = .packet a buf h := by
      cases e with
      | packet a buf h => exact ⟨a, buf, h, rfl⟩
      | rotate h => cases hp _ (.head _)
    rw [rotationTimes]
    split_ifs with ht
    · rwa [← ht]
    · rcases step_cookieRotateTime (z := z) (c := c) sys a buf h with ht' | ⟨ht', hd⟩
      · exact absurd ht' ht
      · rw [ht'] at ih' ⊢
        exact .cons hd ih'

/-- The INIT `smallInitDatagram` at times `31`, `40` and `62` to `smallResponder`, whose key
was rotated at `0`: the first and the last rotate it. -/
theorem rotations_spaced_small :
    List.Chain (fun t t' => t + cookieRotateInterval < t') smallResponder.cookieRotateTime
      (rotationTimes Sizes.small Crypto.toy ⟨smallResponder, fun _ => none⟩
        [.packet smallAddr smallInitDatagram { smallHost with now := 31 },
          .packet smallAddr smallInitDatagram { smallHost with now := 40 },
          .packet smallAddr smallInitDatagram { smallHost with now := 62 }]) :=
  rotations_spaced ⟨smallResponder, fun _ => none⟩
    [.packet smallAddr smallInitDatagram { smallHost with now := 31 },
      .packet smallAddr smallInitDatagram { smallHost with now := 40 },
      .packet smallAddr smallInitDatagram { smallHost with now := 62 }] (by decide)

end Lodp
