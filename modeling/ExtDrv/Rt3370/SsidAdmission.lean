import ExtDrv.Rt3370.SsidSort

/-!
# Admission with a name and with any

`BssTableSsidSort` has its security checks twice, for entries of the requested name and for those of
any name. When they admit the same, and when a decision goes by the suites of its own protocol.
-/

namespace ExtDrv.Rt3370.Bss

open Memory

/-! ## Admission -/

/-- Wherever the entry is in the scan table, it comes to be in the result. -/
def Wanted.Admits (w : Wanted) (e : BssEntry) : Prop :=
  ∀ (alloc : Bool) (scan : BssTable) (t : Pool × BssTable), scan.BssNr ≤ maxLenOfBssTable →
    e ∈ scan.entries → e ∈ (bssTableSsidSort alloc w scan t).2.entries

/-- The name of the entry is requested. -/
def Wanted.requests (w : Wanted) (e : BssEntry) : Wanted :=
  { w with SsidLen := e.SsidLen, Ssid := e.Ssid }

/-- Any name is allowed. -/
def Wanted.anySsid (w : Wanted) : Wanted :=
  { w with SsidLen := 0, bAutoConnectIfNoSSID := true }

/-- A named entry of the station's type and a configuration of the `WPA` family, for which no radar
check lets hidden entries in. -/
structure Candidate where
  w : Wanted
  e : BssEntry
  named : e.SsidLen ≠ 0
  family : AuthMode.wpa.toNat ≤ w.AuthMode.toNat
  type : e.BssType = w.BssType
  no_override : w.isHiddenApIncluded e = false

namespace Candidate

/-- The entry with another security. -/
def secured (c : Candidate) (sec : Security) : BssEntry := { c.e with security := sec }

/-- The AKMs of two parses are the same. -/
def SameAkms (s s' : Security) : Prop :=
  s'.AuthMode = s.AuthMode ∧ s'.AuthModeAux = s.AuthModeAux

/-- Both decisions are the same for the two securities. -/
def SameDecisions (c : Candidate) (sec : Security) : Prop :=
  ((c.w.requests c.e).Admits (c.secured sec) ↔ (c.w.requests c.e).Admits c.e) ∧
    (c.w.anySsid.Admits (c.secured sec) ↔ c.w.anySsid.Admits c.e)

/-- **Consistent admission**: the entry is admitted under its name as under any, by the suites and the
AKMs of the configured protocol alone. -/
structure Consistent (c : Candidate) : Prop where
  agree : (c.w.requests c.e).Admits c.e ↔ c.w.anySsid.Admits c.e
  wpa : c.w.AuthMode = .wpa ∨ c.w.AuthMode = .wpaPsk → ∀ sec, sec.WPA = c.e.security.WPA →
    SameAkms c.e.security sec → c.SameDecisions sec
  wpa2 : c.w.AuthMode = .wpa2 ∨ c.w.AuthMode = .wpa2Psk → ∀ sec, sec.WPA2 = c.e.security.WPA2 →
    SameAkms c.e.security sec → c.SameDecisions sec

/-! ## Where it is consistent -/

/-- All checks but that of the strength of the group cipher. -/
def Passes (c : Candidate) (s : CipherSuite) : Prop :=
  c.w.htFits c.e = true ∧ c.w.authFits c.e = true ∧ c.w.mixFits s = true ∧ c.w.pairFits s = true

instance (c : Candidate) (s : CipherSuite) : Decidable (c.Passes s) :=
  inferInstanceAs (Decidable (_ ∧ _ ∧ _ ∧ _))

/-- Where only the strength of the group cipher is left to decide: for `WPA` it is not a WEP cipher
above the configured one; for `WPA2` the suite of `WPA` has a group cipher above the
configured one if and only if that of `WPA2` has, and then that of `WPA2` is not WEP. -/
def Agrees (c : Candidate) : Prop :=
  (c.w.AuthMode = .wpa ∨ c.w.AuthMode = .wpaPsk → c.Passes c.e.security.WPA →
    c.w.groupBelow c.e.security.WPA = true → Wanted.isGroupWep c.e.security.WPA = false) ∧
  (c.w.AuthMode = .wpa2 ∨ c.w.AuthMode = .wpa2Psk → c.Passes c.e.security.WPA2 →
    ((c.w.groupBelow c.e.security.WPA = true ∧ Wanted.isGroupWep c.e.security.WPA2 = false) ↔
      c.w.groupBelow c.e.security.WPA2 = true))

/-- For `WPA2`, the group cipher is WEP, or there is none above the configured one. -/
def OwnSuite (c : Candidate) : Prop :=
  c.w.AuthMode = .wpa2 ∨ c.w.AuthMode = .wpa2Psk → c.Passes c.e.security.WPA2 →
    Wanted.isGroupWep c.e.security.WPA2 = true ∨ c.w.WepStatus = .groupWep104Enabled

end Candidate

/-! ## One decision -/

/-- The table of one entry. -/
def BssTable.one (e : Bss.BssEntry) : BssTable := ⟨1, 0, fun _ => e⟩

/-- An entry is admitted by the selection conditions alone. -/
theorem Wanted.admits_iff (w : Wanted) (e : BssEntry) :
    w.Admits e ↔ w.goesOn = true ∧ w.selects e = true := by
  have hmem : ∀ (scan : BssTable), e ∈ w.candidates scan ↔
      w.goesOn = true ∧ e ∈ scan.entries ∧ w.selects e = true := by
    intro scan
    unfold Wanted.candidates
    split
    case isTrue h => simp [h]
    case isFalse h => simp [h]
  constructor
  · intro h
    have hone : e ∈ (BssTable.one e).entries := List.mem_cons_self
    have hroom : (BssTable.one e).BssNr ≤ maxLenOfBssTable := Nat.le_of_ble_eq_true rfl
    have hin := h false (.one e) (fun _ _ => 0, .one e) hroom hone
    rw [(ssidSort_once false w (.one e) _ hroom).mem_iff, hmem] at hin
    exact ⟨hin.1, hin.2.2⟩
  · intro h alloc scan t hnr he
    rw [(ssidSort_once alloc w scan t hnr).mem_iff, hmem]
    exact ⟨h.1, he, h.2⟩

namespace Candidate

variable (c : Candidate) {sec : Security}

theorem SameAkms.refl (s : Security) : SameAkms s s := ⟨rfl, rfl⟩

/-- Under its name. -/
theorem requests_iff (sec : Security) :
    (c.w.requests c.e).Admits (c.secured sec) ↔
      c.w.htFits c.e = true ∧ c.w.namedSecurityFits (c.secured sec) = true := by
  have hssid : (c.w.requests c.e).ssidEqual (c.secured sec) = true := by
    simp [Wanted.ssidEqual, Wanted.requests, secured]
  have htype : (c.secured sec).BssType = (c.w.requests c.e).BssType := c.type
  have hlen : (c.w.requests c.e).SsidLen ≠ 0 := c.named
  rw [Wanted.admits_iff, Wanted.goesOn, Wanted.selects, hssid]
  simp only [hlen, htype, ne_eq, not_false_eq_true, decide_true, Bool.true_or, true_and, if_true,
    Bool.and_true, Bool.and_eq_true]
  exact Iff.rfl

/-- Under any. -/
theorem anySsid_iff (sec : Security) :
    c.w.anySsid.Admits (c.secured sec) ↔
      c.w.htFits c.e = true ∧ c.w.anySecurityFits (c.secured sec) = true := by
  have hssid : c.w.anySsid.ssidEqual (c.secured sec) = false := by
    have hne : ¬ 0 = c.e.SsidLen := fun h => c.named h.symm
    simp [Wanted.ssidEqual, Wanted.anySsid, secured, hne]
  have hhidden : c.w.anySsid.isHiddenApIncluded (c.secured sec) = false := c.no_override
  have htype : (c.secured sec).BssType = c.w.anySsid.BssType := c.type
  rw [Wanted.admits_iff, Wanted.goesOn, Wanted.selects, hssid, hhidden]
  simp only [htype, Bool.or_false, Bool.false_eq_true, and_false, if_false, true_and,
    show c.w.anySsid.SsidLen = 0 from rfl, show c.w.anySsid.bAutoConnectIfNoSSID = true from rfl,
    and_self, if_true, Bool.or_true, Bool.and_eq_true]
  exact Iff.rfl

theorem authFits_eq (h : SameAkms c.e.security sec) :
    c.w.authFits (c.secured sec) = c.w.authFits c.e := by
  unfold Wanted.authFits secured
  rw [h.1, h.2]

/-- The two decisions of the `WPA` protocols. -/
theorem wpa_iff (hmode : c.w.AuthMode = .wpa ∨ c.w.AuthMode = .wpaPsk)
    (h : SameAkms c.e.security sec) :
    ((c.w.requests c.e).Admits (c.secured sec) ↔
        c.Passes sec.WPA ∧ (c.w.groupBelow sec.WPA = true → Wanted.isGroupWep sec.WPA = true)) ∧
      (c.w.anySsid.Admits (c.secured sec) ↔
        c.Passes sec.WPA ∧ c.w.groupBelow sec.WPA = false) := by
  have hauth := c.authFits_eq h
  rw [requests_iff, anySsid_iff, Wanted.namedSecurityFits, Wanted.anySecurityFits,
    if_pos c.family, if_pos c.family, if_pos hmode, if_pos hmode, hauth]
  unfold Passes
  rw [show (c.secured sec).security = sec from rfl]
  cases c.w.groupBelow sec.WPA <;> cases Wanted.isGroupWep sec.WPA <;> simp

theorem wpa2_ne_wpa (hmode : c.w.AuthMode = .wpa2 ∨ c.w.AuthMode = .wpa2Psk) :
    ¬ (c.w.AuthMode = .wpa ∨ c.w.AuthMode = .wpaPsk) := by
  rcases hmode with h | h <;> simp [h]

/-- The two decisions of the `WPA2` protocols. -/
theorem wpa2_iff (hmode : c.w.AuthMode = .wpa2 ∨ c.w.AuthMode = .wpa2Psk)
    (h : SameAkms c.e.security sec) :
    ((c.w.requests c.e).Admits (c.secured sec) ↔
        c.Passes sec.WPA2 ∧ (c.w.groupBelow sec.WPA = true → Wanted.isGroupWep sec.WPA2 = true)) ∧
      (c.w.anySsid.Admits (c.secured sec) ↔
        c.Passes sec.WPA2 ∧ c.w.groupBelow sec.WPA2 = false) := by
  have hauth := c.authFits_eq h
  have hnot := c.wpa2_ne_wpa hmode
  rw [requests_iff, anySsid_iff, Wanted.namedSecurityFits, Wanted.anySecurityFits,
    if_pos c.family, if_pos c.family, if_neg hnot, if_neg hnot, if_pos hmode, if_pos hmode, hauth]
  unfold Passes
  rw [show (c.secured sec).security = sec from rfl]
  cases c.w.groupBelow sec.WPA <;> cases c.w.groupBelow sec.WPA2 <;>
    cases Wanted.isGroupWep sec.WPA2 <;> simp

/-- Those of the family's other members go by the AKMs. -/
theorem other_iff (hwpa : ¬ (c.w.AuthMode = .wpa ∨ c.w.AuthMode = .wpaPsk))
    (hwpa2 : ¬ (c.w.AuthMode = .wpa2 ∨ c.w.AuthMode = .wpa2Psk)) :
    (c.w.requests c.e).Admits (c.secured sec) ↔ c.w.anySsid.Admits (c.secured sec) := by
  rw [requests_iff, anySsid_iff, Wanted.namedSecurityFits, Wanted.anySecurityFits,
    if_pos c.family, if_pos c.family, if_neg hwpa, if_neg hwpa, if_neg hwpa2, if_neg hwpa2]

/-! ## Both parts -/

theorem secured_self : c.secured c.e.security = c.e := rfl

theorem agree_iff :
    ((c.w.requests c.e).Admits c.e ↔ c.w.anySsid.Admits c.e) ↔ c.Agrees := by
  have hsame := SameAkms.refl c.e.security
  unfold Agrees
  by_cases hwpa : c.w.AuthMode = .wpa ∨ c.w.AuthMode = .wpaPsk
  · have hwpa2 : ¬ (c.w.AuthMode = .wpa2 ∨ c.w.AuthMode = .wpa2Psk) :=
      fun h => c.wpa2_ne_wpa h hwpa
    have hiff := c.wpa_iff hwpa hsame
    rw [secured_self] at hiff
    rw [hiff.1, hiff.2]
    simp only [hwpa, hwpa2, forall_const, false_implies, and_true]
    cases c.w.groupBelow c.e.security.WPA <;> cases Wanted.isGroupWep c.e.security.WPA <;>
      simp
  · by_cases hwpa2 : c.w.AuthMode = .wpa2 ∨ c.w.AuthMode = .wpa2Psk
    · have hiff := c.wpa2_iff hwpa2 hsame
      rw [secured_self] at hiff
      rw [hiff.1, hiff.2]
      simp only [hwpa, hwpa2, forall_const, false_implies, true_and]
      cases c.w.groupBelow c.e.security.WPA <;> cases c.w.groupBelow c.e.security.WPA2 <;>
        cases Wanted.isGroupWep c.e.security.WPA2 <;> simp
    · simp only [hwpa, hwpa2, false_implies, and_self, iff_true]
      exact @other_iff c c.e.security hwpa hwpa2

/-- For `WPA` a decision goes by the suites of `WPA`. -/
theorem wpa_own (hmode : c.w.AuthMode = .wpa ∨ c.w.AuthMode = .wpaPsk)
    (hsuite : sec.WPA = c.e.security.WPA) (h : SameAkms c.e.security sec) :
    c.SameDecisions sec := by
  have hiff := c.wpa_iff hmode h
  have hself := c.wpa_iff hmode (SameAkms.refl c.e.security)
  rw [secured_self] at hself
  exact ⟨by rw [hiff.1, hself.1, hsuite], by rw [hiff.2, hself.2, hsuite]⟩

/-- The entry with another group cipher for `WPA`. -/
def withGroup (c : Candidate) (cipher : WepStatus) : Security :=
  { c.e.security with WPA := { c.e.security.WPA with GroupCipher := cipher } }

theorem wpa2_own_iff (hmode : c.w.AuthMode = .wpa2 ∨ c.w.AuthMode = .wpa2Psk) :
    (∀ sec, sec.WPA2 = c.e.security.WPA2 → SameAkms c.e.security sec → c.SameDecisions sec) ↔
      c.OwnSuite := by
  have hself := c.wpa2_iff hmode (SameAkms.refl c.e.security)
  rw [secured_self] at hself
  constructor
  · intro h _ hpasses
    by_contra hno
    rw [not_or] at hno
    obtain ⟨hwep, hstatus⟩ := hno
    have hdecide : ∀ cipher, ((c.w.requests c.e).Admits c.e ↔
        (c.w.groupBelow (c.withGroup cipher).WPA = false)) := by
      intro cipher
      have hsame : SameAkms c.e.security (c.withGroup cipher) := ⟨rfl, rfl⟩
      have hiff := c.wpa2_iff hmode hsame
      rw [← (h (c.withGroup cipher) rfl ⟨rfl, rfl⟩).1, hiff.1]
      rw [show (c.withGroup cipher).WPA2 = c.e.security.WPA2 from rfl]
      simp [hpasses, hwep]
    have hlow : c.w.groupBelow (c.withGroup .encryption1Enabled).WPA = false := by
      simp [Wanted.groupBelow, withGroup, cipherRank]
    have hhigh : c.w.groupBelow (c.withGroup .groupWep104Enabled).WPA = true := by
      unfold Wanted.groupBelow withGroup
      cases hw : c.w.WepStatus <;> first | rfl | exact absurd hw hstatus
    have hadmits := (hdecide .encryption1Enabled).mpr hlow
    have hrefused := (hdecide .groupWep104Enabled).mp hadmits
    rw [hhigh] at hrefused
    cases hrefused
  · intro h sec hsuite hsame
    have hiff := c.wpa2_iff hmode hsame
    have hown := h hmode
    refine ⟨?_, by rw [hiff.2, hself.2, hsuite]⟩
    rw [hiff.1, hself.1, hsuite]
    refine and_congr_right fun hpasses => ?_
    rcases hown hpasses with hwep | hstatus
    · simp [hwep]
    · have hnone : ∀ s, c.w.groupBelow s = false := by
        intro s
        unfold Wanted.groupBelow
        rw [hstatus]
        cases s.GroupCipher <;> rfl
      simp [hnone]

/-- **Consistent admission.** -/
theorem admission_consistent_iff : c.Consistent ↔ c.Agrees ∧ c.OwnSuite := by
  constructor
  · intro h
    refine ⟨(c.agree_iff).mp h.agree, fun hmode => ?_⟩
    exact (c.wpa2_own_iff hmode).mp (h.wpa2 hmode) hmode
  · intro h
    refine ⟨(c.agree_iff).mpr h.1, fun hmode sec => c.wpa_own hmode, fun hmode => ?_⟩
    exact (c.wpa2_own_iff hmode).mpr h.2

/-- A station that wants TKIP, in the mode `mode`, and an entry with what was parsed. -/
def ofParsed (mode : AuthMode) (family : AuthMode.wpa.toNat ≤ mode.toNat) (security : Security) :
    Candidate where
  w :=
    { SsidLen := 0
      Ssid := fun _ => 0
      BssType := .infra
      bAutoConnectIfNoSSID := true
      bIEEE80211H := false
      Channel := 1
      ChannelList := []
      PhyMode := .phy11bg_mixed
      AuthMode := mode
      WepStatus := .encryption2Enabled }
  e :=
    { BssEntry.zero none with
      BssType := .infra
      SsidLen := 1
      security := security }
  named := Nat.one_ne_zero
  family := family
  type := rfl
  no_override := rfl

/-- TKIP and a WEP group cipher for `WPA`. -/
def wepGroup : Candidate :=
  ofParsed .wpaPsk (by decide) ⟨.encryption2Enabled, some .wpaPsk, some .openSystem,
    ⟨.encryption2Enabled, .encryptionDisabled, .groupWep104Enabled, 0, true⟩, noSuite⟩

/-- CCMP and TKIP, with TKIP for the group, for `WPA2`, and, in an element behind it, CCMP for the
group of `WPA`. -/
def otherGroup : Candidate :=
  ofParsed .wpa2Psk (by decide) ⟨.encryption3Enabled, some .wpa2Psk, some .wpaPsk,
    ⟨.encryption3Enabled, .encryption2Enabled, .encryption3Enabled, 0, false⟩,
    ⟨.encryption3Enabled, .encryption2Enabled, .encryption2Enabled, 0, true⟩⟩

theorem admission_broken : ¬ wepGroup.Consistent ∧ ¬ otherGroup.Consistent := by
  constructor
  · intro h
    have hagrees := wepGroup.agree_iff.mp h.agree
    exact absurd (hagrees.1 (by decide) (by decide) (by decide)) (by decide)
  · intro h
    have hown := (otherGroup.wpa2_own_iff (Or.inr rfl)).mp (h.wpa2 (Or.inr rfl))
    exact absurd (hown (Or.inr rfl) (by decide)) (by decide)

end Candidate

end ExtDrv.Rt3370.Bss
