import ExtDrv.Rt3370.EapolKeyData
import ExtDrv.Rt3370.WpaFrames

/-!
# Installing the group key

The group key is installed while the sanity check parses the key data. A frame that
fails the check leaves the shared keys as they were; one that is accepted, with a
group key the cipher takes, leaves exactly that key in its slot. Message 3 also
copies the pairwise key to the first slot.
-/

namespace ExtDrv.Rt3370.Wpa

open Memory

/-! ## The group key of a frame -/

/-- The offsets of the elements in key data, from `o` on. -/
def elements (keyData : Mem) (keyDataLength o : Nat) : List Nat :=
  if o + 2 + (keyData (o + 1)).toNat ≤ keyDataLength then
    o :: elements keyData keyDataLength (o + 2 + (keyData (o + 1)).toNat)
  else []
termination_by keyDataLength - o

/-- A group key: its index and its bytes. -/
structure GroupKey where
  idx : Nat
  key : List (BitVec 8)

/-- The group key in the KDE at `o`. -/
def gtkAt (keyData : Mem) (o : Nat) : GroupKey where
  idx := (keyData (o + 6) &&& 3).toNat
  key := segment keyData (o + 8) ((keyData (o + 1)).toNat - 6)

/-- The last group key in key data from `o` on. -/
def lastGtk (keyData : Mem) (keyDataLength o : Nat) : Option GroupKey :=
  (((elements keyData keyDataLength o).filter (isGtkKde keyData)).getLast?).map (gtkAt keyData)

/-- The decrypted key data of the frame carries this group key: with WPA2 in a KDE, with WPA it
is the key, and the index is in `KEY_INFO`. -/
inductive CarriesGtk (env : Env) (g : Grants) (s : Station) (p : Mem) : MsgType → GroupKey → Prop
  | wpa2 {ty : MsgType} {gtk : GroupKey} (heap keyData : Mem) (len : Nat) :
      g.keyData = some heap → s.entry.AuthMode.isWpa2 = true →
      keyDataOf env.toCrypto g heap s.entry.PTK p ty true = .ok (some (keyData, len)) →
      lastGtk keyData (len % 256) 0 = some gtk → CarriesGtk env g s p ty gtk
  | wpa (heap keyData : Mem) (len : Nat) :
      g.keyData = some heap → s.entry.AuthMode.isWpa2 = false →
      keyDataOf env.toCrypto g heap s.entry.PTK p .groupMsg1 false = .ok (some (keyData, len)) →
      CarriesGtk env g s p .groupMsg1
        ⟨(keyInfo p).KeyIndex.toNat, segment keyData 0 (len % 256)⟩

/-- The lengths a group cipher takes: 5 and 13 bytes of WEP, a TKIP key with its two MIC keys,
and at least a temporal key of AES. -/
def takes (groupCipher : WepStatus) (len : Nat) : Bool :=
  match groupCipherAlg groupCipher with
  | .none => false
  | .wep64 => len == 5
  | .wep128 => len == 13
  | .tkip => len == 32
  | .aes => decide (16 ≤ len ∧ len ≤ 32)

/-- A shared key that is exactly this group key. -/
def exactKey (groupCipher : WepStatus) (key : List (BitVec 8)) : CipherKey where
  CipherAlg := groupCipherAlg groupCipher
  KeyLen := if groupCipherAlg groupCipher = .wep64 ∨ groupCipherAlg groupCipher = .wep128 then
    key.length else lenTk
  Key := fun i => if (i : Nat) < min key.length lenTk then key.getD i 0 else 0
  RxMic := fun i => if groupCipherAlg groupCipher = .tkip then key.getD (16 + i) 0 else 0
  TxMic := fun i => if groupCipherAlg groupCipher = .tkip then key.getD (24 + i) 0 else 0

/-! ## The property -/

/-- The group keys are as they were. -/
structure SameGroupKeys (s s' : Station) : Prop where
  sharedKey : s'.SharedKey = s.SharedKey
  gtk : s'.GTK = s.GTK
  defaultKeyId : s'.DefaultKeyId = s.DefaultKeyId

/-- The frame is one that may carry a group key, long enough, and passes the sanity check. -/
structure Passes (env : Env) (g : Grants) (s : Station) (e : MlmeElem) (ty : MsgType) : Prop where
  kind : ty = .pairMsg3 ∨ ty = .groupMsg1
  long : ty = .pairMsg3 → minLenOfKeyFrame ≤ e.MsgLen.toNat
  heard : ∃ s₁, Heard env g s e ty s₁

/-- It is accepted as a whole: message 3 has the right nonce too, and memory for the answer. -/
structure AcceptedWhole (env : Env) (g : Grants) (s : Station) (e : MlmeElem) (ty : MsgType) :
    Prop extends Passes env g s e ty where
  nonce : ty = .pairMsg3 → s.entry.ANonce = keyNonce e.packet
  memory : ty = .pairMsg3 → g.mpool = true

/-- The key data is not looked at for a group key. -/
def Unread (s : Station) (p : Mem) (ty : MsgType) : Prop :=
  keyDataLen p = 0 ∨ (ty = .pairMsg3 ∧ s.entry.AuthMode.isWpa2 = false)

/-- The shared keys after an accepted message: of message 3 the first is the pairwise key. -/
def sharedKeysAfter (ty : MsgType) (pairwiseKey : CipherKey) (keys : Fin 4 → CipherKey) :
    Fin 4 → CipherKey :=
  if ty = .pairMsg3 then Function.update keys 0 pairwiseKey else keys

/-- **Group keys change all or nothing**, by a frame that makes `s'` of `s`. -/
structure AllOrNothing (env : Env) (g : Grants) (s : Station) (e : MlmeElem) (s' : Station) :
    Prop where
  rejected : (∀ ty, ¬ Passes env g s e ty) → SameGroupKeys s s'
  left : ∀ ty, Passes env g s e ty → ¬ AcceptedWhole env g s e ty → Unread s e.packet ty →
    SameGroupKeys s s'
  unread : ∀ ty, AcceptedWhole env g s e ty → Unread s e.packet ty →
    s'.GTK = s.GTK ∧ s'.DefaultKeyId = s.DefaultKeyId ∧
      s'.SharedKey = sharedKeysAfter ty s'.entry.PairwiseKey s.SharedKey
  installed : ∀ ty gtk, AcceptedWhole env g s e ty → CarriesGtk env g s e.packet ty gtk →
    takes env.GroupCipher gtk.key.length = true →
      s'.GTK = putGtk s.GTK gtk.key ∧ (s'.DefaultKeyId : Nat) = gtk.idx ∧
      s'.SharedKey = sharedKeysAfter ty s'.entry.PairwiseKey
        (Function.update s.SharedKey s'.DefaultKeyId (exactKey env.GroupCipher gtk.key))

/-! ## Parsing -/

section Parsing

variable {keyData : Mem} {len o : Nat}

theorem lastGtk_kde (hfits : o + 2 + (keyData (o + 1)).toNat ≤ len)
    (hkde : isGtkKde keyData o = true) :
    lastGtk keyData len o = some
      ((lastGtk keyData len (o + 2 + (keyData (o + 1)).toNat)).getD (gtkAt keyData o)) := by
  unfold lastGtk
  rw [elements, if_pos hfits, List.filter_cons_of_pos hkde, List.getLast?_cons]
  cases ((elements keyData len (o + 2 + (keyData (o + 1)).toNat)).filter
    (isGtkKde keyData)).getLast? with
  | none => rfl
  | some o' => rfl

theorem lastGtk_other (hfits : o + 2 + (keyData (o + 1)).toNat ≤ len)
    (hkde : ¬ isGtkKde keyData o = true) :
    lastGtk keyData len o = lastGtk keyData len (o + 2 + (keyData (o + 1)).toNat) := by
  unfold lastGtk
  rw [elements, if_pos hfits, List.filter_cons_of_neg hkde]

theorem lastGtk_end (hfits : ¬ o + 2 + (keyData (o + 1)).toNat ≤ len) :
    lastGtk keyData len o = none := by
  unfold lastGtk
  rw [elements, if_neg hfits]
  rfl

/-- The length of a group key that is not too long has not wrapped. -/
theorem gtkLen_eq {n : BitVec 8} (hlong : ¬ 32 < (n - 6).toNat) : (n - 6).toNat = n.toNat - 6 := by
  have hn := n.isLt
  have hsub : (n - 6).toNat = (2 ^ 8 - 6 + n.toNat) % 2 ^ 8 := BitVec.toNat_sub n 6
  omega

/-- What the loop has found is the last group key. -/
theorem kdeLoop_found {acc r : FoundGtk} (h : kdeLoop keyData len o acc = .found r) :
    r = (lastGtk keyData len o).elim acc fun gtk => ⟨gtk.idx, gtk.key⟩ := by
  fun_induction kdeLoop keyData len o acc with
  | case1 o acc l hfits hkde gtkLen hshort => cases h
  | case2 o acc l hfits hkde gtkLen hshort hlong => cases h
  | case3 o acc l hfits hkde gtkLen hshort hlong ih =>
      rw [ih h, lastGtk_kde hfits hkde]
      cases lastGtk keyData len (o + 2 + (keyData (o + 1)).toNat) with
      | none =>
          show FoundGtk.mk _ (segment keyData (o + 8) gtkLen) = _
          rw [show gtkLen = (keyData (o + 1)).toNat - 6 from gtkLen_eq hlong]
          rfl
      | some gtk => rfl
  | case4 o acc l hfits hkde ih =>
      rw [ih h, lastGtk_other hfits hkde]
  | case5 o acc l hfits =>
      cases h
      rw [lastGtk_end hfits]
      rfl

end Parsing

/-! ## Installing -/

theorem putGtk_lt {old : Bytes 32} {key : List (BitVec 8)} {i : Fin 32} (h : (i : Nat) < key.length) :
    putGtk old key i = key.getD i 0 := by
  rw [putGtk, if_pos h]

theorem gtkPrefix_putGtk {old : Bytes 32} {key : List (BitVec 8)} {n : Nat} (hn : n ≤ key.length) :
    gtkPrefix (putGtk old key) n = fun i : Fin 16 => if (i : Nat) < n then key.getD i 0 else 0 := by
  funext i
  unfold gtkPrefix
  split
  · rename_i hi
    exact putGtk_lt (Nat.lt_of_lt_of_le hi hn)
  · rfl

/-- The MIC keys of a TKIP key. -/
theorem sub_putGtk {old : Bytes 32} {key : List (BitVec 8)} (hlen : key.length = 32) (o : Nat)
    (ho : o + 8 ≤ 32) : (putGtk old key).sub o 8 ho = fun i : Fin 8 => key.getD (o + i) 0 := by
  funext i
  have hi : o + (i : Nat) < key.length := by omega
  exact putGtk_lt hi

/-- **A group key the cipher takes** is exactly what its slot holds. -/
theorem sharedKeyOf_putGtk {groupCipher : WepStatus} {old : Bytes 32} {key : List (BitVec 8)}
    (h : takes groupCipher key.length = true) :
    sharedKeyOf groupCipher (putGtk old key) key.length = exactKey groupCipher key := by
  have hzero : Bytes.zero 8 = fun _ => 0#8 := rfl
  unfold takes at h
  unfold sharedKeyOf exactKey
  cases halg : groupCipherAlg groupCipher with
  | none =>
      rw [halg] at h
      cases h
  | wep64 =>
      rw [halg] at h
      have hlen : key.length = 5 := eq_of_beq h
      simp [hlen, gtkPrefix_putGtk (Nat.le_of_eq hlen.symm), CipherKey.zero, hzero]
  | wep128 =>
      rw [halg] at h
      have hlen : key.length = 13 := eq_of_beq h
      simp [hlen, gtkPrefix_putGtk (Nat.le_of_eq hlen.symm), CipherKey.zero, hzero]
  | tkip =>
      rw [halg] at h
      have hlen : key.length = 32 := eq_of_beq h
      have htk : lenTk ≤ key.length := by
        rw [hlen]
        decide
      have hno : ¬ 32 < lenTk := by decide
      have hin : ∀ i : Fin 16, (i : Nat) < 32 := fun i => by omega
      simp [hlen, gtkPrefix_putGtk htk, sub_putGtk hlen, hno, hin]
  | aes =>
      rw [halg] at h
      obtain ⟨hge, hle⟩ := of_decide_eq_true h
      have hno : ¬ key.length < lenTk := Nat.not_lt.mpr hge
      simp [gtkPrefix_putGtk hge, hge, hno, CipherKey.zero, hzero]

/-! ## One frame -/

section Frames

variable {env : Env} {g : Grants} {s s₁ s' : Station} {e : MlmeElem} {ty : MsgType}

/-- A frame that passes the sanity check had its key data parsed, or it has none. -/
theorem Heard.keyData (h : Heard env g s e ty s₁) :
    ∃ heap, g.keyData = some heap ∧
      ((keyDataOf env.toCrypto g heap s.entry.PTK e.packet ty s.entry.AuthMode.isWpa2 = .ok none ∧
        s₁ = s) ∨
      ∃ keyData len, keyDataOf env.toCrypto g heap s.entry.PTK e.packet ty s.entry.AuthMode.isWpa2
          = .ok (some (keyData, len)) ∧
        rtmpParseEapolKeyData env s keyData (len % 256)
          (if !s.entry.AuthMode.isWpa2 && ty == .groupMsg1 then
            (keyInfo e.packet).KeyIndex.toNat else 0) ty s.entry.AuthMode.isWpa2
          = .ok (true, s₁)) := by
  obtain ⟨heap, hchecked⟩ := h.checked
  have hsane := h.sane
  have hmic : ¬ (ty ≠ .pairMsg1 ∧
      keyMic e.packet ≠ desiredMic env.toCrypto s.entry.PTK e.packet) :=
    fun h => h.2 (hchecked.mic h.1)
  simp only [peerWpaMessageSanity, hchecked.memory, hchecked.fresh, Bool.false_eq_true, if_false,
    if_neg hmic] at hsane
  refine ⟨heap, hchecked.memory, ?_⟩
  split at hsane
  · cases hsane
  · rename_i hnone
    cases hsane
    exact Or.inl ⟨hnone, rfl⟩
  · rename_i keyData len hsome
    exact Or.inr ⟨keyData, len, hsome, hsane⟩

/-- Only message 3 and group message 1 have their key data looked at for a group key. -/
theorem Heard.unread (h : Heard env g s e ty s₁)
    (hunread : (ty ≠ .pairMsg3 ∧ ty ≠ .groupMsg1) ∨ Unread s e.packet ty) : s₁ = s := by
  obtain ⟨heap, -, ⟨-, heq⟩ | ⟨keyData, len, hdata, hparse⟩⟩ := h.keyData
  · exact heq
  have hlen : keyDataLen e.packet ≠ 0 := by
    intro hzero
    rw [keyDataOf, hzero, if_pos rfl] at hdata
    cases hdata
  have hty : ty = .pairMsg2 ∨ ty = .pairMsg3 ∧ s.entry.AuthMode.isWpa2 = false := by
    rcases hunread with ⟨h3, h1⟩ | hzero | hwpa
    · cases ty with
      | pairMsg2 => exact Or.inl rfl
      | pairMsg3 => exact absurd rfl h3
      | groupMsg1 => exact absurd rfl h1
      | pairMsg1 =>
          simp [keyDataOf, hlen, keyDataEncrypted] at hdata
      | pairMsg4 =>
          simp [keyDataOf, hlen, keyDataEncrypted] at hdata
      | groupMsg2 =>
          simp [keyDataOf, hlen, keyDataEncrypted] at hdata
    · exact absurd hzero hlen
    · exact Or.inr hwpa
  have hreturns : (ty = .pairMsg2 ∨ ty = .pairMsg3) ∧
      ¬ (s.entry.AuthMode.isWpa2 = true ∧ ty = .pairMsg3) := by
    rcases hty with rfl | ⟨rfl, hwpa⟩
    · exact ⟨Or.inl rfl, fun h => by cases h.2⟩
    · refine ⟨Or.inr rfl, fun h => ?_⟩
      rw [hwpa] at h
      cases h.1
  rw [rtmpParseEapolKeyData, if_pos hreturns] at hparse
  cases hparse
  rfl

/-- The group key the key data carries is the one that is installed. -/
theorem Heard.carries {gtk : GroupKey} (h : Heard env g s e ty s₁)
    (hty : ty = .pairMsg3 ∨ ty = .groupMsg1) (hcarries : CarriesGtk env g s e.packet ty gtk) :
    installGtk env s ⟨gtk.idx, gtk.key⟩ = (true, s₁) := by
  obtain ⟨heap', hheap', hcase⟩ := h.keyData
  cases hcarries with
  | wpa2 heap keyData len hheap hwpa2 hdata hlast =>
      obtain rfl := Option.some.inj (hheap.symm.trans hheap')
      rw [hwpa2, hdata] at hcase
      obtain ⟨hnone, -⟩ | ⟨keyData', len', hsome, hparse⟩ := hcase
      · cases hnone
      cases hsome
      have hnot : ¬ ((ty = .pairMsg2 ∨ ty = .pairMsg3) ∧ ¬ (true = true ∧ ty = .pairMsg3)) := by
        rcases hty with rfl | rfl
        · exact fun h => h.2 ⟨rfl, rfl⟩
        · rintro ⟨h2 | h3, -⟩
          · cases h2
          · cases h3
      rw [rtmpParseEapolKeyData, if_neg hnot, if_pos ⟨rfl, hty⟩] at hparse
      split at hparse
      · cases hparse
      · cases hparse
      · rename_i r hfound
        have hr := kdeLoop_found hfound
        rw [hlast] at hr
        rw [← Except.ok.inj hparse, hr]
        rfl
  | wpa heap keyData len hheap hwpa hdata =>
      obtain rfl := Option.some.inj (hheap.symm.trans hheap')
      rw [hwpa, hdata] at hcase
      obtain ⟨hnone, -⟩ | ⟨keyData', len', hsome, hparse⟩ := hcase
      · cases hnone
      cases hsome
      have hno : ¬ ((MsgType.groupMsg1 = .pairMsg2 ∨ MsgType.groupMsg1 = .pairMsg3) ∧
          ¬ (false = true ∧ MsgType.groupMsg1 = .pairMsg3)) := by decide
      have hno' : ¬ (false = true ∧ (MsgType.groupMsg1 = .pairMsg3 ∨
          MsgType.groupMsg1 = .groupMsg1)) := by decide
      rw [rtmpParseEapolKeyData, if_neg hno, if_neg hno', if_pos ⟨rfl, rfl⟩] at hparse
      split at hparse
      · cases hparse
      · exact Except.ok.inj hparse

theorem SameGroupKeys.of_unread (h : s₁ = s) (hs : SameGroupKeys s₁ s') : SameGroupKeys s s' :=
  h ▸ hs

/-- Message 3 copies the pairwise key to the first slot. -/
theorem installMessage3_groupKeys (s : Station) :
    (installMessage3 s).GTK = s.GTK ∧ (installMessage3 s).DefaultKeyId = s.DefaultKeyId ∧
      (installMessage3 s).SharedKey
        = Function.update s.SharedKey 0 (installMessage3 s).entry.PairwiseKey := by
  have hcases := wpaInstallPairwiseKey_cases
    { s with entry := { s.entry with WpaState := .ptkInitDone }, PTK := s.entry.PTK }
    .pairMsg3 false
  unfold installMessage3
  dsimp only
  rcases hcases with ⟨-, heq⟩ | ⟨-, key, -, heq⟩
  · rw [heq]
    split
    · exact ⟨rfl, rfl, rfl⟩
    · exact ⟨rfl, rfl, rfl⟩
  · rw [heq]
    split
    · exact ⟨rfl, rfl, rfl⟩
    · exact ⟨rfl, rfl, rfl⟩

theorem installMessage4_groupKeys (s : Station) : SameGroupKeys s (installMessage4 s) := by
  unfold installMessage4
  rcases wpaInstallPairwiseKey_cases s .pairMsg4 true with ⟨-, heq⟩ | ⟨-, key, -, heq⟩
  · rw [heq]
    exact ⟨rfl, rfl, rfl⟩
  · rw [heq]
    exact ⟨rfl, rfl, rfl⟩

/-- A frame whose key data is not parsed for a group key leaves the group keys. -/
theorem Did.sameGroupKeys (hdid : Did env g s e s') (hno : ∀ ty, ¬ Passes env g s e ty) :
    SameGroupKeys s s' := by
  cases hdid with
  | nothing => exact ⟨rfl, rfl, rfl⟩
  | message1 hheard _ =>
      have hs₁ := hheard.unread (Or.inl ⟨by decide, by decide⟩)
      refine .of_unread hs₁ ?_
      unfold answer
      split
      · exact ⟨rfl, rfl, rfl⟩
      · exact ⟨rfl, rfl, rfl⟩
  | message3Left hheard hlong _ => exact absurd ⟨Or.inl rfl, fun _ => hlong, ⟨_, hheard⟩⟩ (hno _)
  | message3 hheard hacc => exact absurd ⟨Or.inl rfl, fun _ => hacc.long, ⟨_, hheard⟩⟩ (hno _)
  | message4 established hheard _ =>
      have hs₁ := hheard.unread (Or.inl ⟨by decide, by decide⟩)
      have hsame := installMessage4_groupKeys s
      rw [hs₁]
      exact ⟨hsame.sharedKey, hsame.gtk, hsame.defaultKeyId⟩
  | group1 hheard _ => exact absurd ⟨Or.inr rfl, fun h => (by cases h), ⟨_, hheard⟩⟩ (hno _)
  | group1Left hheard _ => exact absurd ⟨Or.inr rfl, fun h => (by cases h), ⟨_, hheard⟩⟩ (hno _)
  | group2 hheard =>
      have hs₁ := hheard.unread (Or.inl ⟨by decide, by decide⟩)
      exact .of_unread hs₁ ⟨rfl, rfl, rfl⟩

/-- What a message accepted as a whole makes of the group keys the parser has left. -/
theorem AcceptedWhole.groupKeys (hacc : AcceptedWhole env g s e ty)
    (hheard : Heard env g s e ty s₁) (hstep : step env s (.eapolKey e g) = some s') :
    s'.GTK = s₁.GTK ∧ s'.DefaultKeyId = s₁.DefaultKeyId ∧
      s'.SharedKey = sharedKeysAfter ty s'.entry.PairwiseKey s₁.SharedKey := by
  rcases hacc.kind with rfl | rfl
  · have hs' := Option.some.inj (hstep.symm.trans
      (step_message3 hheard (hacc.long rfl) (hacc.nonce rfl) (hacc.memory rfl)))
    rw [hs', sharedKeysAfter, if_pos rfl]
    exact installMessage3_groupKeys _
  · rw [sharedKeysAfter, if_neg (by decide)]
    cases hmpool : g.mpool with
    | true =>
        have hs' := Option.some.inj (hstep.symm.trans (step_group1 hheard hmpool))
        rw [hs']
        exact ⟨rfl, rfl, rfl⟩
    | false =>
        have hs' := Option.some.inj (hstep.symm.trans (step_group1Left hheard hmpool))
        rw [hs']
        exact ⟨rfl, rfl, rfl⟩

theorem Passes.left (hpasses : Passes env g s e ty) (hno : ¬ AcceptedWhole env g s e ty) :
    ty = .pairMsg3 ∧ (s.entry.ANonce ≠ keyNonce e.packet ∨ g.mpool = false) := by
  rcases hpasses.kind with rfl | rfl
  · refine ⟨rfl, ?_⟩
    by_contra hboth
    obtain ⟨hnonce, hmpool⟩ := not_or.mp hboth
    exact hno ⟨hpasses, fun _ => not_not.mp hnonce, fun _ => Bool.not_eq_false _ ▸ hmpool⟩
  · exact absurd ⟨hpasses, fun h => (by cases h), fun h => (by cases h)⟩ hno

end Frames

/-- **Group key installation**: of any state, whatever the frame is. -/
theorem groupKeys_allOrNothing (env : Env) (g : Grants) (s s' : Station) (e : MlmeElem)
    (hstep : step env s (.eapolKey e g) = some s') : AllOrNothing env g s e s' where
  rejected hno := (step_eapolKey hstep).sameGroupKeys hno
  left ty hpasses hno hunread := by
    obtain ⟨rfl, hleft⟩ := hpasses.left hno
    obtain ⟨s₁, hheard⟩ := hpasses.heard
    have hs₁ := hheard.unread (Or.inr hunread)
    have hs' := Option.some.inj (hstep.symm.trans
      (step_message3Left hheard (hpasses.long rfl) hleft))
    rw [hs']
    exact .of_unread hs₁ ⟨rfl, rfl, rfl⟩
  unread ty hacc hunread := by
    obtain ⟨s₁, hheard⟩ := hacc.heard
    have hs₁ := hheard.unread (Or.inr hunread)
    have hkeys := hacc.groupKeys hheard hstep
    rw [hs₁] at hkeys
    exact hkeys
  installed ty gtk hacc hcarries htakes := by
    obtain ⟨s₁, hheard⟩ := hacc.heard
    have hinstall := hheard.carries hacc.kind hcarries
    obtain ⟨hgtk, hid, hshared⟩ := hacc.groupKeys hheard hstep
    unfold installGtk at hinstall
    split at hinstall
    · cases hinstall
    · obtain ⟨-, rfl⟩ := Prod.mk.inj hinstall
      refine ⟨hgtk, congrArg Fin.val hid, ?_⟩
      rw [hshared, hid]
      dsimp only
      rw [sharedKeyOf_putGtk htakes]

/-- An unwrapping that drops the first block. -/
def clearWrap : Crypto := { noCrypto with aesKeyUnwrap := fun _ text => text.drop 8 }

def gtk16 : GroupKey := ⟨1, List.replicate 16 0x5a⟩

/-- Its KDE. -/
def gtkKde : List (BitVec 8) := [0xdd, 22, 0x00, 0x0f, 0xac, 0x01, 0x01, 0x00] ++ gtk16.key

def gtkKeyData : Mem := store (fun _ => 0) 0 gtkKde

def handshake3Gtk : MlmeElem :=
  KeyFrame.elem ⟨.zero 6, 0x13, 0xca, smallCounter 2, .zero 32, List.replicate 8 0 ++ gtkKde,
    by decide⟩ (.zero 16)

theorem gtkKeyData_found : kdeLoop gtkKeyData 24 0 ⟨0, []⟩ = .found ⟨gtk16.idx, gtk16.key⟩ ∧
    lastGtk gtkKeyData 24 0 = some gtk16 := by
  have hkde : isGtkKde gtkKeyData 0 = true := by decide
  have hnext : 0 + 2 + (gtkKeyData (0 + 1)).toNat = 24 := by decide
  have hend : ¬ 24 + 2 + (gtkKeyData (24 + 1)).toNat ≤ 24 := by omega
  have hidx : (gtkKeyData (0 + 6) &&& 3).toNat = gtk16.idx := by decide
  have hlen : (gtkKeyData (0 + 1) - 6).toNat = 16 := by decide
  have hkey : segment gtkKeyData (0 + 8) 16 = gtk16.key := by decide
  constructor
  · rw [kdeLoop, if_pos (Nat.le_of_eq hnext), if_pos hkde, hnext, hidx, hlen]
    show kdeLoop gtkKeyData 24 24 ⟨gtk16.idx, segment gtkKeyData (0 + 8) 16⟩ = _
    rw [kdeLoop, if_neg hend, hkey]
  · rw [lastGtk_kde (Nat.le_of_eq hnext) hkde, hnext, lastGtk_end hend]
    exact congrArg some (GroupKey.mk.injEq .. ▸ ⟨hidx, hkey⟩)

/-- The group key goes to its slot. -/
theorem groupKeys_allOrNothing_handshake :
    ∃ s', step (wpa2Aes clearWrap) (handshaking clearWrap fun _ => .zero)
        (.eapolKey handshake3Gtk (enough (.zero 32))) = some s' ∧
      CarriesGtk (wpa2Aes clearWrap) (enough (.zero 32)) (handshaking clearWrap fun _ => .zero)
        handshake3Gtk.packet .pairMsg3 gtk16 ∧
      AllOrNothing (wpa2Aes clearWrap) (enough (.zero 32)) (handshaking clearWrap fun _ => .zero)
        handshake3Gtk s' := by
  let s := handshaking clearWrap fun _ => .zero
  have hlen : keyDataLen handshake3Gtk.packet = 32 := elem_keyDataLen _ _
  have hver : (keyInfo handshake3Gtk.packet).KeyDescVer = keyDescAes := by decide
  have htext : (keyData handshake3Gtk.packet 32).drop 8 = gtkKde := by decide
  have hkeys : keyDataOf clearWrap (enough (.zero 32)) (fun _ => 0) s.entry.PTK handshake3Gtk.packet
      .pairMsg3 true = .ok (some (gtkKeyData, 24)) := by
    simp [keyDataOf, hlen, hver, keyDataEncrypted, enough, clearWrap, htext, gtkKeyData]
  have hfresh : replayDiff s.entry handshake3Gtk.packet .pairMsg3 = false := by decide
  have hmic : keyMic handshake3Gtk.packet = desiredMic clearWrap s.entry.PTK handshake3Gtk.packet := by
    decide
  have hsane : peerWpaMessageSanity (wpa2Aes clearWrap) (enough (.zero 32)) s handshake3Gtk.packet
      .pairMsg3 = .ok (installGtk (wpa2Aes clearWrap) s ⟨gtk16.idx, gtk16.key⟩) := by
    rw [peerWpaMessageSanity_eq rfl hfresh fun _ => hmic, decryptAndParse]
    refine (congrArg _ hkeys).trans ?_
    show rtmpParseEapolKeyData _ _ gtkKeyData 24 0 .pairMsg3 true = _
    rw [rtmpParseEapolKeyData, if_neg (by decide), if_pos (by decide), gtkKeyData_found.1]
  have hheard : Heard (wpa2Aes clearWrap) (enough (.zero 32)) s handshake3Gtk .pairMsg3 _ :=
    ⟨by decide, hsane⟩
  have hstep := step_message3 hheard (by decide) (by decide) rfl
  exact ⟨_, hstep, .wpa2 _ _ 24 rfl rfl hkeys gtkKeyData_found.2,
    groupKeys_allOrNothing _ _ _ _ _ hstep⟩

/-- **The first slot**: message 3 without any key data changes it. -/
theorem groupKeys_changed :
    ¬ ∃ c : Crypto, ∀ sharedKey as s e g s',
      Run.gexec (step (wpa2Aes c)) (.start sharedKey) as = some s →
        step (wpa2Aes c) s (.eapolKey e g) = some s' → keyDataLen e.packet = 0 →
          s'.SharedKey = s.SharedKey := by
  rintro ⟨c, h⟩
  obtain ⟨h₁, h₃⟩ := handshake_steps c fun _ => .zero
  have hrun : Run.gexec (step (wpa2Aes c)) (.start fun _ => .zero) [.associate (.zero 6) true, _]
      = some _ := Run.gexec_cons.mpr ⟨_, rfl, Run.gexec_cons.mpr ⟨_, h₁, Run.gexec_nil _⟩⟩
  have hsame := h _ _ _ _ _ _ hrun h₃ (elem_keyDataLen _ _)
  have halg := congrArg CipherKey.CipherAlg (congrFun hsame 0)
  cases halg

end ExtDrv.Rt3370.Wpa
