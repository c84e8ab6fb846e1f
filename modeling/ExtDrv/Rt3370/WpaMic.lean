import ExtDrv.Rt3370.WpaFrames

/-!
# The MIC of EAPOL-Key frames

`PeerWpaMessageSanity` computes a MIC for two descriptor versions only, and compares
the frame's with zero for the others. The dispatcher lets these through unless the
entry's cipher is TKIP or AES.
-/

namespace ExtDrv.Rt3370.Wpa

open Run

/-- The MIC is the front of the digest. -/
theorem mic_le_digest : 0 + 16 ≤ 20 := by decide

/-- The frame has descriptor version 1 or 2, and the MIC of that version under `ptk`. -/
def MicHolds (c : Crypto) (ptk : Bytes 64) (p : Memory.Mem) : Prop :=
  ((keyInfo p).KeyDescVer = keyDescTkip ∧ keyMic p = c.rtHmacMd5 (kck ptk) (micText p)) ∨
    ((keyInfo p).KeyDescVer = keyDescAes ∧
      keyMic p = (c.rtHmacSha1 (List.ofFn (kck ptk)) (micText p)).sub 0 16 mic_le_digest)

/-- **Authentication**: whatever the kernel gives, every frame but message 1 that is accepted
has the MIC of its version. -/
def Authenticated (env : Env) (s : Station) : Prop :=
  ∀ g e ty s', ty ≠ .pairMsg1 → Heard env g s e ty s' →
    MicHolds env.toCrypto s.entry.PTK e.packet

theorem micHolds_of_version {c : Crypto} {ptk : Bytes 64} {p : Memory.Mem}
    (hver : (keyInfo p).KeyDescVer = keyDescTkip ∨ (keyInfo p).KeyDescVer = keyDescAes)
    (hmic : keyMic p = desiredMic c ptk p) : MicHolds c ptk p := by
  rcases hver with htkip | haes
  · refine Or.inl ⟨htkip, ?_⟩
    rw [hmic, desiredMic, if_pos htkip]
  · refine Or.inr ⟨haes, ?_⟩
    have hne : ¬ (keyInfo p).KeyDescVer = keyDescTkip := by
      rw [haes]
      decide
    rw [hmic, desiredMic, if_neg hne, if_pos haes]

/-- With a cipher of WPA the version is one that has a MIC. -/
theorem version_of_descVerOk {w : WepStatus} {ver : BitVec 3}
    (hw : w = .encryption2Enabled ∨ w = .encryption3Enabled) (h : descVerOk w ver = true) :
    ver = keyDescTkip ∨ ver = keyDescAes := by
  rcases hw with rfl | rfl
  · exact Or.inl (eq_of_beq h)
  · exact Or.inr (eq_of_beq h)

/-! ## A frame without a version -/

/-- A message 3 of descriptor version 0, its MIC and its counter all zero. -/
def unsigned (s : Station) : KeyFrame where
  addr := s.entry.Addr
  info0 := 0x01
  info1 := 0x88
  counter := .zero 8
  nonce := .zero 32
  data := []
  short := short_nil

theorem keyInfo_unsigned (s : Station) (mic : Bytes 16) :
    keyInfo ((unsigned s).elem mic).packet
      = ⟨true, false, false, false, 0, true, 0, true⟩ := by
  simp only [keyInfo, elem_info0, elem_info1, unsigned]
  decide

/-- An entry with another cipher accepts it, whatever its PTK is. -/
theorem unsigned_heard {env : Env} {s : Station} (hs : s.entry.handshakes = true)
    (hw : ¬ (s.entry.WepStatus = .encryption2Enabled ∨
      s.entry.WepStatus = .encryption3Enabled)) {g : Grants} {heap : Memory.Mem}
    (hg : g.keyData = some heap) :
    Heard env g s ((unsigned s).elem (.zero 16)) .pairMsg3 s := by
  have hreaches : Reaches s (unsigned s) := by
    refine ⟨hs, rfl, ?_⟩
    rw [descVerOk, if_neg fun h => hw (Or.inl h), if_neg fun h => hw (Or.inr h)]
  refine heard_of_noData heap ?_ ⟨hg, ?_, ?_⟩ ?_
  · rw [hreaches.dispatch, keyInfo_unsigned]
    rfl
  · rw [replayDiff_eq_false rfl, elem_replayCounter]
    exact Or.inr rfl
  · intro _
    rw [elem_keyMic, desiredMic, keyInfo_unsigned]
    rfl
  · rw [elem_keyDataLen]
    rfl

/-- **Authentication of EAPOL-Key frames**: it holds exactly for entries that take part in
no handshake or have the cipher TKIP or AES. -/
theorem authenticated_iff (env : Env) (s : Station) :
    Authenticated env s ↔
      (s.entry.handshakes = true →
        s.entry.WepStatus = .encryption2Enabled ∨ s.entry.WepStatus = .encryption3Enabled) := by
  constructor
  · intro h hs
    by_contra hw
    let g : Grants := ⟨some fun _ => 0, true, true, true, .zero 32, .zero 64⟩
    have hheard : Heard env g s ((unsigned s).elem (.zero 16)) .pairMsg3 s :=
      unsigned_heard hs hw rfl
    have hmic := h g _ _ _ (by decide) hheard
    rw [MicHolds, keyInfo_unsigned] at hmic
    rcases hmic with ⟨hver, -⟩ | ⟨hver, -⟩
    · exact absurd hver (by decide)
    · exact absurd hver (by decide)
  · intro hw g e ty s' hty hheard
    obtain ⟨hs, hdesc⟩ := dispatch_some hheard.dispatched
    obtain ⟨heap, hchecked⟩ := hheard.checked
    exact micHolds_of_version (version_of_descVerOk (hw hs) hdesc) (hchecked.mic hty)

/-- A station that is configured for WPA2 with WEP as its cipher. -/
def wpaWithWep (c : Crypto) : Env where
  toCrypto := c
  CurrentAddress := .zero 6
  PMK := .zero 32
  AuthMode := .wpa2Psk
  WepStatus := .encryption1Enabled
  GroupCipher := .groupWep104Enabled

/-- **Without a MIC**: once such a station is associated, its entry is not safe. -/
theorem authenticated_broken :
    ¬ ∃ c : Crypto, ∀ sharedKey as s,
      gexec (step (wpaWithWep c)) (.start sharedKey) as = some s →
        Authenticated (wpaWithWep c) s := by
  rintro ⟨c, h⟩
  have hsafe := h (fun _ => .zero) [.associate (.zero 6) true] _ rfl
  let g : Grants := ⟨some fun _ => 0, true, true, true, .zero 32, .zero 64⟩
  have hw : ¬ (WepStatus.encryption1Enabled = .encryption2Enabled ∨
      WepStatus.encryption1Enabled = .encryption3Enabled) := by decide
  have hmic := hsafe g _ .pairMsg3 _ (by decide) (unsigned_heard rfl hw rfl)
  rw [MicHolds, keyInfo_unsigned] at hmic
  rcases hmic with ⟨hver, -⟩ | ⟨hver, -⟩
  · exact absurd hver (by decide)
  · exact absurd hver (by decide)

end ExtDrv.Rt3370.Wpa
