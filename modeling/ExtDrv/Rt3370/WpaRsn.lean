import ExtDrv.Rt3370.WpaGroupKey

/-!
# The security element in message 3

The element the access point had in its beacons is stored with the entry, and
`RTMPCheckRSNIE` compares an element of the key data with it. Nothing calls it: the
key data of message 3 is parsed for a group key only.
-/

namespace ExtDrv.Rt3370.Wpa

open Memory

/-- `WPA_OUI` and `RSN_OUI`. -/
def wpaOui : List (BitVec 8) := [0x00, 0x50, 0xf2, 0x01]

def rsnOui : List (BitVec 8) := [0x00, 0x0f, 0xac]

/-- The comparison of `RTMPCheckRSNIE` for the element at `o` with the stored `RSN_IE`. Of RSN the
capabilities are not compared. -/
def rsnIeEqual (authMode : AuthMode) (rsnIe : List (BitVec 8)) (keyData : Mem) (o : Nat) : Bool :=
  let len := (keyData (o + 1)).toNat
  if keyData o = 0xdd ∧ segment keyData (o + 2) 4 = wpaOui then
    decide ((authMode = .wpa ∨ authMode = .wpaPsk) ∧ segment keyData o rsnIe.length = rsnIe ∧
      rsnIe.length = len + 2)
  else if keyData o = 0x30 ∧ segment keyData (o + 4) 3 = rsnOui then
    decide ((authMode = .wpa2 ∨ authMode = .wpa2Psk) ∧ rsnIe.head? = some (keyData o) ∧
      rsnIe.length ≤ len + 2 ∧
      segment keyData (o + 2) (rsnIe.length - 4) = (rsnIe.drop 2).take (rsnIe.length - 4))
  else false

/-- The decrypted key data of the frame has an element that equals the stored one. -/
def HasRsnIe (env : Env) (g : Grants) (s : Station) (p : Mem) (rsnIe : List (BitVec 8)) : Prop :=
  ∃ heap keyData len, g.keyData = some heap ∧
    keyDataOf env.toCrypto g heap s.entry.PTK p .pairMsg3 s.entry.AuthMode.isWpa2
      = .ok (some (keyData, len)) ∧
    ∃ o ∈ elements keyData (len % 256) 0, rsnIeEqual s.entry.AuthMode rsnIe keyData o = true

/-- **Downgrade protection**: a message 3 is answered, and its keys are installed, only if it has
the stored element. -/
def RsnProtected (env : Env) (s : Station) (rsnIe : List (BitVec 8)) : Prop :=
  ∀ g e, Accepts3 env g s e → HasRsnIe env g s e.packet rsnIe

/-! ## A message 3 without elements -/

/-- A message 3 of the version the entry's cipher asks for, without key data; its counter is all
zero. -/
def bareMessage3 (s : Station) : KeyFrame where
  addr := s.entry.Addr
  info0 := 0x01
  info1 := if s.entry.WepStatus = .encryption2Enabled then 0x89 else 0x8a
  counter := .zero 8
  nonce := s.entry.ANonce
  data := []
  short := short_nil

theorem keyInfo_bareMessage3 (s : Station) (mic : Bytes 16) :
    keyInfo ((bareMessage3 s).elem mic).packet
      = ⟨true, false, false, false,
          if s.entry.WepStatus = .encryption2Enabled then 1 else 2, true, 0, true⟩ := by
  simp only [keyInfo, elem_info0, elem_info1, bareMessage3]
  split
  · decide
  · decide

variable {env : Env} {s : Station}

/-- Whatever the entry's state is, it is accepted. -/
theorem bareMessage3_accepted (hs : s.entry.handshakes = true) :
    Accepts3 env (enough (.zero 32)) s ((bareMessage3 s).signed env.toCrypto s.entry.PTK) := by
  have hreaches : Reaches s (bareMessage3 s) := by
    refine ⟨hs, rfl, ?_⟩
    rw [keyInfo_bareMessage3, descVerOk]
    dsimp only
    split
    · rfl
    · split
      · rfl
      · rfl
  have hheard : Heard env (enough (.zero 32)) s
      ((bareMessage3 s).signed env.toCrypto s.entry.PTK) .pairMsg3 s := by
    refine heard_of_noData (fun _ => 0) ?_ ⟨rfl, ?_, fun _ => signed_mic _ _ _⟩ ?_
    · rw [KeyFrame.signed, hreaches.dispatch, keyInfo_bareMessage3]
      rfl
    · rw [KeyFrame.signed, replayDiff_eq_false rfl, elem_replayCounter]
      exact Or.inr rfl
    · rw [KeyFrame.signed, elem_keyDataLen]
      rfl
  exact ⟨⟨s, hheard⟩, minLen_elem _ _, (elem_keyNonce (bareMessage3 s) _).symm, rfl⟩

theorem bareMessage3_noRsnIe {g : Grants} {rsnIe : List (BitVec 8)} :
    ¬ HasRsnIe env g s ((bareMessage3 s).signed env.toCrypto s.entry.PTK).packet rsnIe := by
  rintro ⟨heap, keyData, len, -, hdata, -⟩
  have hempty : (bareMessage3 s).data.length = 0 := rfl
  rw [keyDataOf, KeyFrame.signed, elem_keyDataLen, if_pos hempty] at hdata
  cases hdata

/-- **The security element is never looked at**: a station is protected exactly when its entry
takes part in no handshake. -/
theorem rsnProtected_iff (env : Env) (s : Station) (rsnIe : List (BitVec 8)) :
    RsnProtected env s rsnIe ↔ s.entry.handshakes = false := by
  constructor
  · intro h
    by_contra hs
    exact bareMessage3_noRsnIe (h _ _ (bareMessage3_accepted (Bool.not_eq_false _ ▸ hs)))
  · rintro hs g e ⟨⟨s₁, hheard⟩, -, -, -⟩
    have htrue := hheard.handshakes
    rw [hs] at htrue
    cases htrue

/-- **No downgrade protection**: whatever the hash functions are, and whatever is stored. -/
theorem rsnProtected_broken :
    ¬ ∃ c : Crypto, ∀ sharedKey as s rsnIe,
      Run.gexec (step (wpa2Aes c)) (.start sharedKey) as = some s →
        RsnProtected (wpa2Aes c) s rsnIe := by
  rintro ⟨c, h⟩
  have hj := associated_joined c (fun _ => .zero) (.zero 6)
  have hsafe := h (fun _ => .zero) [.associate (.zero 6) true] _ [] rfl
  exact bareMessage3_noRsnIe (hsafe _ _ (bareMessage3_accepted hj.handshakes))

end ExtDrv.Rt3370.Wpa
