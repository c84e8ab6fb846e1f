import ExtDrv.Rt3370.KeyDataParse
import ExtDrv.Rt3370.WpaFrames

/-!
# The round trip of key data

What the authenticator puts into key data is decrypted and parsed by the station: the key that is
installed is the group key, with its index, exactly if the key data fits into `KEYDATA`, no RSN
element looks like a short or long group key, and the padding gets no OUI from the bytes behind it.
-/

namespace ExtDrv.Rt3370.Wpa

open KeyWrap Memory

/-! ## Fields of the message -/

section Fields

variable {p : Mem} {o n i : Nat}

theorem store_out {bs : List (BitVec 8)} (h : i < o ∨ o + bs.length ≤ i) : store p o bs i = p i := by
  unfold store
  rw [if_neg (by omega)]

theorem putWord16_out (h : i < o ∨ o + 2 ≤ i) : putWord16 p o n i = p i := store_out h

theorem word16_putWord16 (hn : n < 65536) : word16 (putWord16 p o n) o = n := by
  have h0 : putWord16 p o n o = BitVec.ofNat 8 (n / 256) := by
    unfold putWord16 store
    rw [if_pos ⟨Nat.le_refl o, Nat.lt_add_of_pos_right (Nat.succ_pos 1)⟩, Nat.sub_self]
    rfl
  have h1 : putWord16 p o n (o + 1) = BitVec.ofNat 8 n := by
    unfold putWord16 store
    rw [if_pos ⟨Nat.le_add_right o 1, Nat.add_lt_add_left (Nat.lt_succ_self 1) o⟩,
      Nat.add_sub_cancel_left]
    rfl
  unfold word16
  rw [h0, h1, BitVec.toNat_ofNat, BitVec.toNat_ofNat]
  omega

theorem word16_congr {q : Mem} (h0 : q o = p o) (h1 : q (o + 1) = p (o + 1)) :
    word16 q o = word16 p o := by
  unfold word16
  rw [h0, h1]

theorem field_congr {q : Mem} (h : ∀ i < n, q (o + i) = p (o + i)) : field q o n = field p o n :=
  funext fun i => h i i.isLt

end Fields

/-- What the station reads in a built message. -/
structure Built (a : KeyDataArgs) (bytes : List (BitVec 8)) (p q : Mem) : Prop where
  len : keyDataLen q = bytes.length
  data : keyData q bytes.length = bytes
  iv : keyIv q = keyIv p
  ver : (keyInfo q).KeyDescVer = a.keyDescVer
  index : a.bWPA2 = false → a.MsgType = .groupMsg1 →
    (keyInfo q).KeyIndex = BitVec.ofNat 2 a.DefaultKeyIdx

theorem length_plainKeyData_le (a : KeyDataArgs) : a.plainKeyData.length ≤ 297 := by
  have hlt := a.RSNIE_LEN.isLt
  have hrsn : a.rsnPart.length ≤ 257 := by
    unfold KeyDataArgs.rsnPart
    split
    · unfold rtmpInsertRsnie
      rw [List.length_cons, List.length_cons, length_segment]
      omega
    · exact Nat.zero_le _
  have hgtk : a.gtkLen = 16 ∨ a.gtkLen = 32 := gtkLenOf_cases a.GroupKeyWepStatus
  unfold KeyDataArgs.plainKeyData
  rw [List.length_append]
  split
  · rw [List.length_append, length_gtk]
    split
    · rw [length_kdeHead]
      omega
    · rw [List.length_nil]
      omega
  · rw [List.length_nil]
    omega

theorem length_padded (n : Nat) : 8 ∣ n + (padding n).length := by
  rw [length_padding]
  omega

/-- The text of the AES key wrap. -/
def paddedKeyData (a : KeyDataArgs) : List (BitVec 8) :=
  a.plainKeyData ++ padding a.plainKeyData.length

theorem length_paddedKeyData (a : KeyDataArgs) : (paddedKeyData a).length
    = a.plainKeyData.length + (padding a.plainKeyData.length).length := List.length_append

theorem length_builtKeyData (r : Mem) {a : KeyDataArgs} (iv : Bytes 16)
    (henc : keyDataEncrypted a.MsgType a.bWPA2 = true) :
    (builtKeyData r a iv).length = if a.keyDescVer = keyDescAes then (paddedKeyData a).length + 8
      else a.plainKeyData.length := by
  have hdvd := length_padded a.plainKeyData.length
  rw [← length_paddedKeyData] at hdvd
  unfold builtKeyData
  rw [if_pos henc]
  split
  · show (aesGtkKeyWrap r (kek a.PTK) (paddedKeyData a)).length = _
    rw [length_aesGtkKeyWrap]
    omega
  · exact Arc4.length_tkipGtkKeyWrap _ _

/-- The two fields in the second byte of `KEY_INFO`. -/
theorem keyInfo_byte : ∀ (ack install ty : BitVec 1) (index : BitVec 2) (ver : BitVec 3),
    (ack ++ install ++ index ++ ty ++ ver : BitVec 8).extractLsb' 0 3 = ver ∧
      (ack ++ install ++ index ++ ty ++ ver : BitVec 8).extractLsb' 4 2 = index := by
  decide

theorem built_constructEapolKeyData (r : Mem) {a : KeyDataArgs} (p : Mem)
    (henc : keyDataEncrypted a.MsgType a.bWPA2 = true) :
    Built a (builtKeyData r a (keyIv p)) p
      (constructEapolKeyData r a (constructKeyInfo a p)) := by
  have hiv : keyIv (constructKeyInfo a p) = keyIv p :=
    field_congr fun i hi => store_out (Or.inr (by show 5 + 2 ≤ _; omega))
  have hlen : (builtKeyData r a (keyIv p)).length < 65536 := by
    have hplain := length_plainKeyData_le a
    have hpad := length_paddedKeyData a
    rw [length_padding] at hpad
    rw [length_builtKeyData r _ henc]
    split <;> omega
  have hty : ¬ (a.MsgType = .pairMsg1 ∨ a.MsgType = .pairMsg4 ∨ a.MsgType = .groupMsg2) := by
    rintro (h | h | h) <;>
    · rw [h] at henc
      cases henc
  have hq : constructEapolKeyData r a (constructKeyInfo a p)
      = putWord16 (putWord16 (store (constructKeyInfo a p) 99 (builtKeyData r a (keyIv p))) 97
          (builtKeyData r a (keyIv p)).length) 2
          (bodyLen (putWord16 (store (constructKeyInfo a p) 99 (builtKeyData r a (keyIv p))) 97
            (builtKeyData r a (keyIv p)).length) + (builtKeyData r a (keyIv p)).length) := by
    unfold constructEapolKeyData
    rw [if_neg hty, hiv]
  rw [hq]
  generalize builtKeyData r a (keyIv p) = bytes at hlen ⊢
  generalize bodyLen _ + bytes.length = body
  -- in front of the key data, the message is the one with its `KEY_INFO`
  have hfront : ∀ i, 4 ≤ i → i < 97 → putWord16 (putWord16 (store (constructKeyInfo a p) 99 bytes) 97
      bytes.length) 2 body i = constructKeyInfo a p i := by
    intro i hlo hhi
    rw [putWord16_out (Or.inr (by omega)), putWord16_out (Or.inl hhi), store_out (Or.inl (by omega))]
  have hsix : putWord16 (putWord16 (store (constructKeyInfo a p) 99 bytes) 97 bytes.length) 2 body 6
      = constructKeyInfo a p 6 := hfront 6 (by decide) (by decide)
  refine ⟨?_, ?_, ?_, ?_, fun hwpa hgroup => ?_⟩
  · refine (word16_congr ?_ ?_).trans
      (word16_putWord16 (p := store (constructKeyInfo a p) 99 bytes) (o := 97) hlen)
    · exact putWord16_out (Or.inr (by decide))
    · exact putWord16_out (Or.inr (by decide))
  · refine Eq.trans ?_ (segment_store_self (constructKeyInfo a p) 99 bytes)
    refine segment_congr fun i hi => ?_
    rw [putWord16_out (Or.inr (by omega)), putWord16_out (Or.inr (by omega))]
  · refine (field_congr fun i hi => ?_).trans hiv
    exact hfront _ (by omega) (by omega)
  · show BitVec.extractLsb' 0 3 (putWord16 _ 2 body 6) = _
    rw [hsix]
    exact (keyInfo_byte _ _ _ _ _).1
  · show BitVec.extractLsb' 4 2 (putWord16 _ 2 body 6) = _
    rw [hsix]
    refine (keyInfo_byte _ _ _ _ _).2.trans ?_
    rw [if_pos ⟨hwpa, Or.inl hgroup⟩]

/-! ## Decrypting -/

/-- `KEYDATA`, once the key data is decrypted. -/
theorem keyDataOf_built (env : Env) (g : Grants) (hg : g.unwrap = true) (heap r r' : Mem)
    {a : KeyDataArgs} (p : Mem) (henc : keyDataEncrypted a.MsgType a.bWPA2 = true) :
    keyDataOf (withCiphers env r').toCrypto g heap a.PTK
        (constructEapolKeyData r a (constructKeyInfo a p)) a.MsgType a.bWPA2
      = if a.keyDescVer = keyDescAes then
          if 240 < a.plainKeyData.length then
            .error (.keyDataOverrun ((paddedKeyData a).length + 8))
          else .ok (some (store heap 0 (paddedKeyData a ++ segment r' (paddedKeyData a).length 8),
            (paddedKeyData a).length))
        else if 255 < a.plainKeyData.length then .error (.keyDataOverrun a.plainKeyData.length)
        else .ok (some (store heap 0 a.plainKeyData, a.plainKeyData.length)) := by
  have hbuilt := built_constructEapolKeyData r p henc
  have hlen := length_builtKeyData r (keyIv p) henc
  have hpad := length_paddedKeyData a
  have hdvd := length_padded a.plainKeyData.length
  rw [length_padding] at hpad hdvd
  have hgtk : 0 < a.plainKeyData.length := by
    have hlen : a.gtkLen = 16 ∨ a.gtkLen = 32 := gtkLenOf_cases a.GroupKeyWepStatus
    unfold KeyDataArgs.plainKeyData
    rw [if_pos henc, List.length_append, List.length_append, length_gtk]
    omega
  unfold keyDataOf
  dsimp only
  rw [hbuilt.len, hbuilt.data, hbuilt.iv, hbuilt.ver, hg, henc]
  by_cases hver : a.keyDescVer = keyDescAes
  · rw [if_pos hver] at hlen
    rw [if_neg (by omega), if_pos rfl, if_pos hver, if_pos hver, if_neg (by decide)]
    by_cases hlong : 240 < a.plainKeyData.length
    · rw [if_pos hlong, if_pos (by omega), hlen]
    · rw [if_neg hlong, if_neg (by omega), hlen, Nat.add_sub_cancel]
      have hbytes : builtKeyData r a (keyIv p) = aesGtkKeyWrap r (kek a.PTK) (paddedKeyData a) := by
        unfold builtKeyData
        rw [if_pos henc]
        exact if_pos hver
      have htext : (withCiphers env r').aesKeyUnwrap (kek a.PTK) (builtKeyData r a (keyIv p))
          = paddedKeyData a ++ segment r' (paddedKeyData a).length 8 := by
        rw [hbytes]
        exact aesGtkKeyUnwrap_aesGtkKeyWrap r r' (kek a.PTK) (by omega)
      rw [htext]
  · rw [if_neg hver] at hlen
    rw [if_neg (by omega), if_pos rfl, if_neg hver, if_neg hver, if_neg (by decide), hlen]
    by_cases hlong : 255 < a.plainKeyData.length
    · rw [if_pos hlong, if_pos hlong]
    · rw [if_neg hlong, if_neg hlong]
      have hbytes : builtKeyData r a (keyIv p)
          = Arc4.tkipGtkKeyWrap (List.ofFn (keyIv p) ++ List.ofFn (kek a.PTK)) a.plainKeyData := by
        unfold builtKeyData
        rw [if_pos henc]
        exact if_neg hver
      have htext : (withCiphers env r').arc4Compute (List.ofFn (keyIv p) ++ List.ofFn (kek a.PTK))
          (builtKeyData r a (keyIv p)) = a.plainKeyData := by
        rw [hbytes]
        exact Arc4.tkipGtkKeyWrap_tkipGtkKeyWrap _ _
      rw [htext]

/-! ## The round trip -/

/-- The station whose entry has the keys the authenticator uses. -/
def Station.peerOf (s : Station) (a : KeyDataArgs) : Station :=
  { s with entry := { s.entry with PTK := a.PTK, AuthMode := a.AuthMode } }

/-- **The round trip**: the station, which has memory for the unwrapping, installs the group key
under its index. -/
def Delivered (env : Env) (g : Grants) (heap : Mem) (s : Station) (r r' p : Mem)
    (a : KeyDataArgs) : Prop :=
  decryptAndParse (withCiphers env r') { g with unwrap := true } heap (s.peerOf a)
      (constructEapolKeyData r a (constructKeyInfo a p)) a.MsgType
    = .ok (installGtk (withCiphers env r') (s.peerOf a) ⟨a.DefaultKeyIdx, a.gtk⟩)

/-- When the key data is delivered; `r'` is what the `R` of the unwrapping held. -/
structure Deliverable (r' : Mem) (a : KeyDataArgs) : Prop where
  fits : a.plainKeyData.length ≤ if a.keyDescVer = keyDescAes then 240 else 255
  rsn : RsnKde a → RsnLenGood a
  tail : a.keyDescVer = keyDescAes → ¬ TailKde r' a.plainKeyData.length

/-- What the parser gets, and how many bytes of it. -/
structure Decrypted (r' : Mem) (a : KeyDataArgs) (k : Mem) (n : Nat) : Prop where
  text : segment k 0 a.plainKeyData.length = a.plainKeyData
  len : n = a.plainKeyData.length +
    if a.keyDescVer = keyDescAes then (padding a.plainKeyData.length).length else 0
  lt : n < 256
  padded : a.keyDescVer = keyDescAes → Padded r' k a.plainKeyData.length

theorem decrypted_plain (r' heap : Mem) {a : KeyDataArgs} (hver : a.keyDescVer ≠ keyDescAes)
    (hfits : a.plainKeyData.length ≤ 255) :
    Decrypted r' a (store heap 0 a.plainKeyData) a.plainKeyData.length where
  text := segment_store_self heap 0 a.plainKeyData
  len := by rw [if_neg hver, Nat.add_zero]
  lt := Nat.lt_succ_of_le hfits
  padded := fun h => absurd h hver

theorem decrypted_padded (r' heap : Mem) {a : KeyDataArgs} (hver : a.keyDescVer = keyDescAes)
    (hfits : a.plainKeyData.length ≤ 240) :
    Decrypted r' a (store heap 0 (paddedKeyData a ++ segment r' (paddedKeyData a).length 8))
      (paddedKeyData a).length := by
  have hlen := length_paddedKeyData a
  have hpad := length_padding a.plainKeyData.length
  obtain ⟨k, hk⟩ : ∃ k, store heap 0 (paddedKeyData a ++ segment r' (paddedKeyData a).length 8) = k :=
    ⟨_, rfl⟩
  have hall : segment k 0 (paddedKeyData a ++ segment r' (paddedKeyData a).length 8).length
      = paddedKeyData a ++ segment r' (paddedKeyData a).length 8 := by
    rw [← hk]
    exact segment_store_self heap 0 _
  have htext : segment k 0 (paddedKeyData a).length = paddedKeyData a := segment_head hall
  have hbehind := segment_tail hall
  rw [length_segment] at hbehind
  rw [hk]
  refine ⟨segment_head htext, ?_, by omega, fun _ => ⟨?_, fun i hi => ?_⟩⟩
  · rw [if_pos hver, hlen]
  · have hback := segment_tail htext
    rw [Nat.zero_add] at hback
    exact hback
  · have hleft := getElem?_segment (o := 0 + (paddedKeyData a).length) k hi
    rw [hbehind, getElem?_segment _ hi, hlen, Nat.zero_add] at hleft
    exact (Option.some.inj hleft).symm

/-- The elements of the key data are harmless to the parser. -/
def KdesHarmless (r' : Mem) (a : KeyDataArgs) : Prop :=
  (RsnKde a → RsnLenGood a) ∧ (a.keyDescVer = keyDescAes → ¬ TailKde r' a.plainKeyData.length)

/-- **WPA2**: the elements of the key data, one after the other. -/
theorem kdeLoop_decrypted {r' k : Mem} {a : KeyDataArgs} {n : Nat} (h : Decrypted r' a k n)
    (henc : keyDataEncrypted a.MsgType a.bWPA2 = true) (hwpa2 : a.bWPA2 = true) :
    (KdesHarmless r' a → kdeLoop k n 0 ⟨0, []⟩ = .found ⟨a.DefaultKeyIdx, a.gtk⟩) ∧
      (¬ KdesHarmless r' a → ∀ found, kdeLoop k n 0 ⟨0, []⟩ ≠ .found found) := by
  have hplain : a.plainKeyData = a.rsnPart ++ (a.kdeHead ++ a.gtk) := by
    unfold KeyDataArgs.plainKeyData
    rw [if_pos henc, if_pos hwpa2]
  have hlen : a.plainKeyData.length = a.rsnPart.length + (8 + a.gtkLen) := by
    rw [hplain, List.length_append, List.length_append, length_kdeHead, length_gtk]
  have hn := h.len
  have htext := h.text
  rw [hplain] at htext
  have hkde := segment_tail htext
  rw [Nat.zero_add] at hkde
  obtain ⟨hpass, hstuck⟩ := kdeLoop_rsn a ⟨0, []⟩ (n := n) htext (by omega)
  by_cases hrsn : RsnKde a → RsnLenGood a
  · obtain ⟨acc, hacc⟩ := hpass hrsn
    rw [hacc, kdeLoop_kde a hkde (by omega), ← hlen]
    by_cases hver : a.keyDescVer = keyDescAes
    · rw [if_pos hver] at hn
      obtain ⟨hend, hover⟩ := kdeLoop_padding (h.padded hver) ⟨a.DefaultKeyIdx, a.gtk⟩
      rw [hn]
      constructor
      · intro hgood
        exact hend (hgood.2 hver)
      · intro hbad found
        have htail : TailKde r' a.plainKeyData.length :=
          by_contra fun hno => hbad ⟨hrsn, fun _ => hno⟩
        rw [hover htail]
        nofun
    · rw [if_neg hver] at hn
      rw [kdeLoop_stop (by omega)]
      exact ⟨fun _ => rfl, fun hbad => absurd ⟨hrsn, fun hv => absurd hv hver⟩ hbad⟩
  · obtain ⟨hk, hbad⟩ : RsnKde a ∧ ¬ RsnLenGood a := Classical.not_imp.mp hrsn
    exact ⟨fun hgood => absurd hgood.1 hrsn, fun _ => hstuck hk hbad⟩

theorem length_gtk_bounds (a : KeyDataArgs) : 16 ≤ a.gtk.length ∧ a.gtk.length ≤ 32 := by
  rw [length_gtk]
  rcases gtkLenOf_cases a.GroupKeyWepStatus with h | h <;>
  · rw [show a.gtkLen = _ from h]
    decide

/-- **WPA**: the key data is the group key. -/
theorem plainKeyData_wpa {a : KeyDataArgs} (henc : keyDataEncrypted a.MsgType a.bWPA2 = true)
    (hwpa : a.bWPA2 = false) : a.MsgType = .groupMsg1 ∧ a.rsnPart = [] ∧ a.plainKeyData = a.gtk := by
  have hgroup : a.MsgType = .groupMsg1 := by
    rw [hwpa] at henc
    unfold keyDataEncrypted at henc
    rw [Bool.and_false, Bool.false_or] at henc
    exact eq_of_beq henc
  have hrsn : a.rsnPart = [] := by
    unfold KeyDataArgs.rsnPart
    rw [hgroup]
    exact if_neg fun h => by rcases h.2 with h | h <;> cases h
  refine ⟨hgroup, hrsn, ?_⟩
  unfold KeyDataArgs.plainKeyData
  rw [if_pos henc, hwpa, hrsn]
  rfl

theorem not_tailKde_gtk (r : Mem) (a : KeyDataArgs) : ¬ TailKde r a.gtk.length := by
  have hmod : a.gtk.length % 8 = 0 := by
    rw [length_gtk]
    rcases gtkLenOf_cases a.GroupKeyWepStatus with h | h <;>
    · rw [show a.gtkLen = _ from h]
  rintro (⟨h, -⟩ | ⟨h, -⟩) <;> omega

/-- **What is installed** from the decrypted key data. -/
theorem parseDecrypted_decrypted (env : Env) {s : Station} {q r' k : Mem} {a : KeyDataArgs} {n : Nat}
    (h : Decrypted r' a k n) (henc : keyDataEncrypted a.MsgType a.bWPA2 = true)
    (hindex : a.bWPA2 = false → a.MsgType = .groupMsg1 →
      (keyInfo q).KeyIndex = BitVec.ofNat 2 a.DefaultKeyIdx) :
    parseDecrypted env (s.peerOf a) q a.MsgType (.ok (some (k, n)))
        = .ok (installGtk env (s.peerOf a) ⟨a.DefaultKeyIdx, a.gtk⟩) ↔
      KdesHarmless r' a := by
  have htrue : (installGtk env (s.peerOf a) ⟨a.DefaultKeyIdx, a.gtk⟩).1 = true := by
    unfold installGtk
    rw [dif_neg (by have := a.DefaultKeyIdx.isLt; simp only; omega)]
  have hmod : n % 256 = n := Nat.mod_eq_of_lt h.lt
  have hpeer : (s.peerOf a).entry.AuthMode.isWpa2 = a.bWPA2 := rfl
  unfold parseDecrypted
  dsimp only
  rw [hmod, hpeer]
  cases hwpa2 : a.bWPA2 with
  | true =>
    obtain ⟨hgood, hbad⟩ := kdeLoop_decrypted h henc hwpa2
    have hty : a.MsgType = .pairMsg3 ∨ a.MsgType = .groupMsg1 := by
      rw [hwpa2] at henc
      unfold keyDataEncrypted at henc
      simpa using henc
    unfold rtmpParseEapolKeyData
    rw [if_neg (by
      rintro ⟨h2 | h3, hnot⟩
      · rcases hty with h | h <;>
        · rw [h] at h2
          cases h2
      · exact hnot ⟨rfl, h3⟩), if_pos ⟨rfl, hty⟩]
    by_cases hh : KdesHarmless r' a
    · rw [hgood hh]
      exact iff_of_true rfl hh
    · refine iff_of_false ?_ hh
      have hno := hbad hh
      revert hno
      generalize kdeLoop k n 0 ⟨0, []⟩ = found
      intro hno heq
      cases found with
      | tooShort =>
        have hfalse := congrArg Prod.fst (Except.ok.inj heq)
        rw [htrue] at hfalse
        cases hfalse
      | overrun len => cases heq
      | found gtk => exact hno gtk rfl
  | false =>
    obtain ⟨hgroup, hrsn, hplain⟩ := plainKeyData_wpa henc hwpa2
    have htail := not_tailKde_gtk r' a
    have hbounds := length_gtk_bounds a
    have hn := h.len
    have hpad : (padding a.plainKeyData.length).length = 0 := by
      rw [length_padding, hplain, length_gtk]
      rcases gtkLenOf_cases a.GroupKeyWepStatus with h | h <;>
      · rw [show a.gtkLen = _ from h]
    rw [hpad, ite_self, Nat.add_zero, hplain] at hn
    have htext := h.text
    rw [hplain] at htext
    refine iff_of_true ?_ ⟨fun hk => absurd hrsn hk.1, fun _ => hplain ▸ htail⟩
    unfold rtmpParseEapolKeyData
    rw [hgroup, hindex hwpa2 hgroup, if_neg (by rintro ⟨h | h, -⟩ <;> cases h),
      if_neg (by rintro ⟨h, -⟩; cases h), if_pos ⟨rfl, rfl⟩, if_neg (by omega), hn, htext]
    have hidx : (BitVec.ofNat 2 (a.DefaultKeyIdx : Nat)).toNat = a.DefaultKeyIdx := by
      rw [BitVec.toNat_ofNat]
      exact Nat.mod_eq_of_lt a.DefaultKeyIdx.isLt
    rw [hidx]
    rfl

/-- **When the key data is delivered**. -/
theorem delivered_of_encrypted (env : Env) (g : Grants) (heap : Mem) (s : Station) (r r' p : Mem)
    {a : KeyDataArgs} (henc : keyDataEncrypted a.MsgType a.bWPA2 = true) :
    Delivered env g heap s r r' p a ↔ Deliverable r' a := by
  have hbuilt := built_constructEapolKeyData r p henc
  have hdata := keyDataOf_built env { g with unwrap := true } rfl heap r r' p henc
  have hparts : Deliverable r' a ↔
      a.plainKeyData.length ≤ (if a.keyDescVer = keyDescAes then 240 else 255) ∧ KdesHarmless r' a :=
    ⟨fun h => ⟨h.fits, h.rsn, h.tail⟩, fun h => ⟨h.1, h.2.1, h.2.2⟩⟩
  unfold Delivered decryptAndParse
  rw [hparts, show keyDataOf _ _ _ (s.peerOf a).entry.PTK _ _ (s.peerOf a).entry.AuthMode.isWpa2 = _
    from hdata]
  by_cases hver : a.keyDescVer = keyDescAes
  · rw [if_pos hver, if_pos hver]
    by_cases hfits : a.plainKeyData.length ≤ 240
    · rw [if_neg (by omega), parseDecrypted_decrypted _ (decrypted_padded r' heap hver hfits) henc
        hbuilt.index]
      exact (and_iff_right hfits).symm
    · rw [if_pos (by omega)]
      exact iff_of_false nofun fun h => hfits h.1
  · rw [if_neg hver, if_neg hver]
    by_cases hfits : a.plainKeyData.length ≤ 255
    · rw [if_neg (by omega), parseDecrypted_decrypted _ (decrypted_plain r' heap hver hfits) henc
        hbuilt.index]
      exact (and_iff_right hfits).symm
    · rw [if_pos (by omega)]
      exact iff_of_false nofun fun h => hfits h.1

/-- **Group keys are delivered** exactly if the key data fits, no RSN element is taken for a key
that is too short or too long, and the padding is not taken for a key. -/
theorem delivered_iff (env : Env) (g : Grants) (heap : Mem) (s : Station) (r r' p : Mem)
    {a : KeyDataArgs} (henc : keyDataEncrypted a.MsgType a.bWPA2 = true) :
    Delivered env g heap s r r' p a ↔ Deliverable r' a :=
  delivered_of_encrypted env g heap s r r' p henc

/-- Message 3 of a WPA2 handshake, with an RSN element of that many bytes. -/
def message3Args (rsnieLen : BitVec 8) : KeyDataArgs where
  PTK := .zero 64
  AuthMode := .wpa2Psk
  GroupKeyWepStatus := .encryption3Enabled
  keyDescVer := keyDescAes
  MsgType := .pairMsg3
  DefaultKeyIdx := 1
  GTK := .zero 32
  RSNIE := fun _ => 0
  RSNIE_LEN := rsnieLen

theorem length_message3Args {rsnieLen : BitVec 8} (h : rsnieLen ≠ 0) :
    (message3Args rsnieLen).plainKeyData.length = rsnieLen.toNat + 26 := by
  have hrsn : (message3Args rsnieLen).rsnPart = rtmpInsertRsnie (fun _ => 0) rsnieLen :=
    if_pos ⟨h, Or.inr rfl⟩
  have hplain : (message3Args rsnieLen).plainKeyData = (message3Args rsnieLen).rsnPart
      ++ ((message3Args rsnieLen).kdeHead ++ (message3Args rsnieLen).gtk) := rfl
  rw [hplain, hrsn, List.length_append, List.length_append, length_gtk, length_kdeHead]
  unfold rtmpInsertRsnie
  rw [List.length_cons, List.length_cons, length_segment]
  show rsnieLen.toNat + 1 + 1 + (8 + 16) = _
  omega

/-- A station for WPA2; what the ciphers are is replaced. -/
def wpa2Env : Env :=
  wpa2Aes ⟨fun _ _ => .zero 16, fun _ _ => .zero 20, fun _ c => c, fun _ c => c⟩

theorem delivered_iff_usual :
    Delivered wpa2Env (enough (.zero 32)) (fun _ => 0) (.start fun _ => .zero) (fun _ => 0)
      (fun _ => 0) (fun _ => 0) (message3Args 20) := by
  have hlen : (message3Args 20).plainKeyData.length = 46 := length_message3Args (by decide)
  refine (delivered_iff _ _ _ _ _ _ _ rfl).mpr ⟨?_, fun hk => ?_, fun _ => ?_⟩
  · rw [hlen, if_pos (show (message3Args 20).keyDescVer = keyDescAes from rfl)]
    decide
  · have hzero : segment (message3Args 20).RSNIE 0 4 = [0x00, 0x00, 0x00, 0x00] := rfl
    rw [hk.2.1] at hzero
    exact absurd hzero (by decide)
  · rw [hlen]
    rintro (⟨-, h⟩ | ⟨h, -⟩)
    · exact absurd h (by decide)
    · exact absurd h (by decide)

/-- **Key data of 249 bytes** is lost: unwrapped it fills 264 bytes of a buffer of 255. -/
theorem delivered_broken : ¬ ∀ env g heap s r r' p a, keyDataEncrypted a.MsgType a.bWPA2 = true →
    a.plainKeyData.length ≤ 255 → Delivered env g heap s r r' p a := by
  intro h
  have hlen : (message3Args 223).plainKeyData.length = 249 := length_message3Args (by decide)
  have hall := h wpa2Env (enough (.zero 32)) (fun _ => 0) (.start fun _ => .zero) (fun _ => 0)
    (fun _ => 0) (fun _ => 0) (message3Args 223) rfl (by omega)
  have hfits := ((delivered_of_encrypted _ _ _ _ _ _ _ rfl).mp hall).fits
  rw [hlen, if_pos (show (message3Args 223).keyDescVer = keyDescAes from rfl)] at hfits
  exact absurd hfits (by decide)

end ExtDrv.Rt3370.Wpa
