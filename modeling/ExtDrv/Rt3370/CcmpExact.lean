import ExtDrv.Rt3370.Ccmp
import ExtDrv.Rt3370.RtAes
import Mathlib.Data.List.GetD

/-!
# CCMP seals and opens

The loops of `crypt_aes.c` are counter mode with CBC-MAC under one scheme for a key,
a nonce and associated data, also where the text is deciphered to an earlier place of
the same memory. From the laws of the scheme: what `RTMPSoftEncryptCCMP` makes of a
payload is taken back by `RTMPSoftDecryptCCMP`, and nothing else is.
-/

namespace ExtDrv.Rt3370

open Memory Ccm

/-! ## The MAC -/

theorem pad_append_getD (pre bs : List Byte) (i : Fin 16) :
    pad (pre ++ bs) i
      = if i.val < pre.length then pre.getD i 0 else bs.getD (i.val - pre.length) 0 := by
  rw [pad]
  by_cases h : i.val < pre.length
  · rw [if_pos h, List.getD_append _ _ _ _ h]
  · rw [if_neg h, List.getD_append_right _ _ _ _ (Nat.not_lt.mp h)]

/-- The block a turn of the MAC loops makes: what was in front, and bytes of the text
as far as there are any. -/
theorem macLoop_block (pre bytes : List Byte) (index : Nat) (hpre : pre.length < 16) :
    (fun i : Fin 16 =>
      if pre.length ≤ i.val ∧ i.val < pre.length + min (bytes.length - index) (16 - pre.length) then
        bytes.getD (index + (i.val - pre.length)) 0
      else pad pre i) = pad (pre ++ bytes.drop index) := by
  funext i
  rw [pad_append_getD]
  by_cases h : i.val < pre.length
  · rw [if_neg (by omega), if_pos h]
    rfl
  rw [if_neg h]
  have hdrop : (bytes.drop index).getD (i.val - pre.length) 0
      = bytes.getD (index + (i.val - pre.length)) 0 := by
    simp [List.getD_eq_getElem?_getD, List.getElem?_drop]
  rw [hdrop]
  split_ifs with hin
  · rfl
  · -- behind the end of the text there is nothing but padding
    have hend : bytes.length ≤ index + (i.val - pre.length) := by omega
    have hpad : pre.length ≤ i.val := Nat.not_lt.mp h
    rw [pad, List.getD_eq_default _ _ hpad, List.getD_eq_default _ _ hend]

/-- **The MAC loops** chain the blocks of what is left of the text, the first of them
behind the bytes that are already set. -/
theorem macLoop_eq (E : Block → Block) (bytes : List Byte) (turns index : Nat) (pre : List Byte)
    (hpre : pre.length < 16) (hturns : bytes.length - index ≤ turns) (x : Block) :
    macLoop E bytes turns index (pad pre) pre.length x
      = if index < bytes.length then cbcMac E x (blocks (pre ++ bytes.drop index)) else x := by
  induction turns generalizing index pre x with
  | zero => rw [macLoop, if_neg (by omega)]
  | succ turns ih =>
    rw [macLoop]
    by_cases hidx : index < bytes.length
    case neg => rw [if_neg hidx, if_neg hidx]
    rw [if_pos hidx, if_pos hidx]
    have hcopy : (if 16 < min (bytes.length - index) 16 + pre.length then 16 - pre.length
        else min (bytes.length - index) 16) = min (bytes.length - index) (16 - pre.length) := by
      split_ifs <;> omega
    have hne : pre ++ bytes.drop index ≠ [] := by
      simp only [ne_eq, List.append_eq_nil_iff, List.drop_eq_nil_iff, not_and]
      omega
    have hnext := fun x => ih (index + min (bytes.length - index) (16 - pre.length)) []
      (by simp) (by omega) x
    dsimp only
    rw [hcopy, macLoop_block pre bytes index hpre]
    refine (hnext _).trans ?_
    rw [blocks_cons hne, cbcMac_cons, List.nil_append]
    -- the bytes left after this turn
    have hrest : (pre ++ bytes.drop index).drop 16
        = bytes.drop (index + min (bytes.length - index) (16 - pre.length)) := by
      rw [List.drop_append, List.drop_eq_nil_of_le (by omega), List.nil_append, List.drop_drop]
      by_cases hall : bytes.length - index ≤ 16 - pre.length
      · rw [List.drop_eq_nil_of_le (by omega), List.drop_eq_nil_of_le (by omega)]
      · congr 1
        omega
    rw [hrest]
    split_ifs with hmore
    · rfl
    · rw [List.drop_eq_nil_of_le (Nat.not_lt.mp hmore), blocks_nil, cbcMac_nil]

/-- The loop over the payload. -/
theorem macLoop_text (E : Block → Block) (bytes : List Byte) (x : Block) :
    macLoop E bytes bytes.length 0 (fun _ => 0) 0 x = cbcMac E x (blocks bytes) := by
  have h := macLoop_eq E bytes bytes.length 0 [] (by decide) (by omega) x
  refine Eq.trans h ?_
  cases bytes with
  | nil => rfl
  | cons b bs => rw [if_pos (by simp), List.nil_append, List.drop_zero]

/-! ## The scheme -/

theorem counterAt_zero {nonce : List Byte} (h : nonce.length ≤ 13) :
    counterAt nonce 0 = counterBlock nonce := by
  refine Function.update_eq_self_iff.mpr ?_
  show BitVec.ofNat 8 0 = nonce.getD 14 0
  rw [List.getD_eq_default _ _ (by omega)]
  rfl

theorem counterAt_succ (nonce : List Byte) (k : Nat) :
    Function.update (counterAt nonce k) 15 (counterAt nonce k 15 + 1) = counterAt nonce (k + 1) := by
  rw [counterAt, Function.update_self, Function.update_idem, counterAt, BitVec.ofNat_add]
  rfl

/-- The scheme that a key, a nonce and associated data stand for. -/
def ccmScheme (E : Block → Block) (nonce aad : List Byte) (macLength : Nat) : Scheme where
  E := E
  first n := controlBlock (BitVec.ofNat 32 n) nonce aad.length macLength
  aad := if aad = [] then [] else blocks (aadLengthBytes aad.length ++ aad)
  ctr := counterAt nonce
  tagLen := macLength

theorem length_aadLengthBytes (n : Nat) : (aadLengthBytes n).length < 16 := by
  unfold aadLengthBytes
  split_ifs <;> simp

variable (rtAesEncrypt : Block → Block → Block)

/-- **The MAC** is the one of the scheme. -/
theorem aesCcmMac_eq (payload : List Byte) (key : Block) (nonce aad : List Byte)
    (macLength : Nat) :
    aesCcmMac rtAesEncrypt payload key nonce aad macLength
      = prefixOf ((ccmScheme (rtAesEncrypt key) nonce aad macLength).mac payload) macLength := by
  have haad := macLoop_eq (rtAesEncrypt key) aad aad.length 0 (aadLengthBytes aad.length)
    (length_aadLengthBytes aad.length) (by omega)
  simp only [aesCcmMac, haad, macLoop_text, Scheme.mac, cbcMac_append, ccmScheme, List.drop_zero]
  by_cases ha : aad = []
  · simp [ha]
  · simp [ha, List.length_pos_iff.mpr ha]

/-- The MAC under the first bytes of a key stream block. -/
theorem zipWith_prefixOf (a b : Block) (n : Nat) :
    List.zipWith (· ^^^ ·) (prefixOf a n) (prefixOf b n) = (List.ofFn (xorBlock a b)).take n := by
  rw [prefixOf, prefixOf, ← List.take_zipWith]
  rfl

/-! ## The text -/

/-- **The inner loop** enciphers up to a block more. -/
theorem copyXor_ciphered {m₀ m : Mem} {src dst : Nat} {ks : Nat → Byte} {i : Nat} {b : Block}
    (h : Ciphered m₀ m src dst ks i) (n : Nat) (hle : dst ≤ src ∨ src + (i + n) ≤ dst)
    (hks : ∀ t, t < n → at16 b t = ks (i + t)) :
    Ciphered m₀ (copyXor b (src + i) (dst + i) n m) src dst ks (i + n) := by
  induction n with
  | zero => exact h
  | succ n ih =>
    have hn := (ih (by omega) fun t ht => hks t (Nat.lt_succ_of_lt ht)).succ (by omega)
    rw [copyXor, List.range_succ, List.foldl_append, List.foldl_cons, List.foldl_nil,
      hks n (Nat.lt_succ_self n), Nat.add_assoc, Nat.add_assoc]
    exact hn

/-- **The loop over the blocks** enciphers the text, to a place that is not ahead of
it, or behind it. -/
theorem cipherLoop_ciphered {E : Block → Block} {nonce aad : List Byte} {t : Nat} {m₀ : Mem}
    {src dst len : Nat} (hle : dst ≤ src ∨ src + len ≤ dst) (turns k : Nat) (m : Mem)
    (hturns : len - 16 * k ≤ turns)
    (h : Ciphered m₀ m src dst (ccmScheme E nonce aad t).stream (min (16 * k) len)) :
    Ciphered m₀ (cipherLoop E src dst len turns (min (16 * k) len) (counterAt nonce k) m) src dst
      (ccmScheme E nonce aad t).stream len := by
  induction turns generalizing k m with
  | zero =>
    rw [show min (16 * k) len = len by omega] at h
    exact h
  | succ turns ih =>
    rw [cipherLoop]
    by_cases hmore : min (16 * k) len < len
    case neg =>
      rw [show min (16 * k) len = len by omega] at h
      rwa [if_neg hmore]
    rw [if_pos hmore]
    have hidx : min (16 * k) len = 16 * k := by omega
    have hnext : 16 * k + min (len - 16 * k) 16 = min (16 * (k + 1)) len := by omega
    dsimp only
    rw [hidx] at h ⊢
    rw [counterAt_succ, hnext]
    refine ih (k + 1) _ (by omega) ?_
    rw [← hnext]
    refine copyXor_ciphered h _ (by omega) fun j hj => ?_
    -- byte `16 k + j` of the key stream
    have hdiv : (16 * k + j) / 16 = k := by omega
    have hmod : (16 * k + j) % 16 = j := by omega
    have hj16 : j < 16 := by omega
    rw [at16, dif_pos hj16, Scheme.stream]
    simp only [hdiv, hmod]
    rfl

/-- The text, from its first byte on. -/
theorem cipherLoop_all {E : Block → Block} {nonce : List Byte} (aad : List Byte) (t : Nat)
    (hnonce : nonce.length ≤ 13) (m : Mem) {src dst len : Nat}
    (hle : dst ≤ src ∨ src + len ≤ dst) :
    Ciphered m (cipherLoop E src dst len len 0 (counterBlock nonce) m) src dst
      (ccmScheme E nonce aad t).stream len := by
  have hzero : Ciphered m m src dst (ccmScheme E nonce aad t).stream (min (16 * 0) len) := by
    rw [Nat.mul_zero, Nat.zero_min]
    exact Ciphered.zero m src dst _
  have h := cipherLoop_ciphered hle len 0 m (by omega) hzero
  rwa [Nat.mul_zero, Nat.zero_min, counterAt_zero hnonce] at h

/-! ## Sealing and opening in memory -/

theorem length_prefixOf {n : Nat} (h : n ≤ 16) (b : Block) : (prefixOf b n).length = n := by
  simpa [prefixOf] using h

/-- What the checks of the lengths leave. -/
theorem ccmLengths_eq_zero {k n t : Nat} (h : ccmLengths k n t = 0) : n ≤ 13 ∧ t ≤ 16 := by
  unfold ccmLengths at h
  split_ifs at h with hkey hnonce hmac
  simp only [List.mem_cons, List.not_mem_nil, or_false] at hmac
  omega

/-- A byte string under another is a third exactly if the third under it is the
first. -/
theorem zipWith_xor_eq_iff {x y k : List Byte} (hx : x.length = k.length) (hy : y.length = k.length) :
    List.zipWith (· ^^^ ·) x k = y ↔ x = List.zipWith (· ^^^ ·) y k := by
  have hback : ∀ {u v : List Byte}, u.length = k.length → List.zipWith (· ^^^ ·) u k = v →
      u = List.zipWith (· ^^^ ·) v k := by
    rintro u v hu rfl
    refine List.ext_getElem (by simp [hu]) fun i h1 h2 => ?_
    simp only [List.getElem_zipWith, BitVec.xor_assoc, BitVec.xor_self, BitVec.xor_zero]
  exact ⟨hback hx, fun h => (hback hy h.symm).symm⟩

/-- Comparing the MACs is comparing the tags. -/
theorem compareMac_iff (S : Scheme) (ht : S.tagLen ≤ 16) (p : List Byte) {t : List Byte}
    (hlen : t.length = S.tagLen) :
    List.zipWith (· ^^^ ·) t (prefixOf (S.E (S.ctr 0)) S.tagLen) = prefixOf (S.mac p) S.tagLen
      ↔ t = S.tag p := by
  rw [zipWith_xor_eq_iff, zipWith_prefixOf, Scheme.tag]
  · rw [hlen, length_prefixOf ht]
  · rw [length_prefixOf ht, length_prefixOf ht]

section

variable (key : Block) (aad : List Byte) {keyLength t : Nat} {nonce : List Byte}

theorem tag_eq (p : List Byte) (hnonce : nonce.length ≤ 13) :
    List.zipWith (· ^^^ ·) (aesCcmMac rtAesEncrypt p key nonce aad t)
        (prefixOf (rtAesEncrypt key (counterBlock nonce)) t)
      = (ccmScheme (rtAesEncrypt key) nonce aad t).tag p := by
  rw [aesCcmMac_eq, zipWith_prefixOf, Scheme.tag, ← counterAt_zero hnonce]
  rfl

/-- **`AES_CCM_Encrypt`** seals the text. -/
theorem aesCcmEncrypt_seals (hlen : ccmLengths keyLength nonce.length t = 0) {src dst : Nat}
    {n : BitVec 32} (hle : dst ≤ src ∨ src + n.toNat ≤ dst) (out : BitVec 32) (hfit : n.toNat + t < 2 ^ 32)
    (hroom : n.toNat + t ≤ out.toNat) (m : Mem) :
    ∃ m', aesCcmEncrypt rtAesEncrypt src n key keyLength nonce aad t dst out m
        = (0, m', n + BitVec.ofNat 32 t) ∧
      segment m' dst (n.toNat + t)
        = (ccmScheme (rtAesEncrypt key) nonce aad t).seal (segment m src n.toNat) := by
  obtain ⟨hnonce, ht⟩ := ccmLengths_eq_zero hlen
  have hsum : (n + BitVec.ofNat 32 t).toNat = n.toNat + t := by
    rw [BitVec.toNat_add, BitVec.toNat_ofNat, Nat.add_mod_mod, Nat.mod_eq_of_lt hfit]
  have hgo : ¬ out.toNat < (n + BitVec.ofNat 32 t).toNat := by omega
  have htext := cipherLoop_all (E := rtAesEncrypt key) aad t hnonce m hle
  refine ⟨store (cipherLoop (rtAesEncrypt key) src dst n.toNat n.toNat 0 (counterBlock nonce) m)
    (dst + n.toNat) (List.zipWith (· ^^^ ·)
      (aesCcmMac rtAesEncrypt (segment m src n.toNat) key nonce aad t)
      (prefixOf (rtAesEncrypt key (counterBlock nonce)) t)), ?_, ?_⟩
  · rw [aesCcmEncrypt, if_neg (not_not_intro hlen), if_neg hgo]
  · have hbehind := segment_store_behind
      (cipherLoop (rtAesEncrypt key) src dst n.toNat n.toNat 0 (counterBlock nonce) m) dst n.toNat
      ((ccmScheme (rtAesEncrypt key) nonce aad t).tag (segment m src n.toNat))
    rw [Scheme.length_tag (S := ccmScheme (rtAesEncrypt key) nonce aad t) ht] at hbehind
    rw [tag_eq rtAesEncrypt key aad _ hnonce]
    refine Eq.trans hbehind ?_
    rw [htext.segment]
    rfl

/-- **`AES_CCM_Decrypt`** opens a text that is as long as the MAC at least, to a place
that is not ahead of it. -/
theorem aesCcmDecrypt_opens (hlen : ccmLengths keyLength nonce.length t = 0) {src dst : Nat}
    (hle : dst ≤ src) {n : BitVec 32} (out : BitVec 32) (hmac : t ≤ n.toNat)
    (hroom : n.toNat - t ≤ out.toNat) (m : Mem) :
    ∃ r m', aesCcmDecrypt rtAesEncrypt src n key keyLength nonce aad t dst out m
        = (r, m', n - BitVec.ofNat 32 t) ∧
      (ccmScheme (rtAesEncrypt key) nonce aad t).unseal (segment m src n.toNat)
        = if r = 0 then some (segment m' dst (n.toNat - t)) else none := by
  obtain ⟨hnonce, ht⟩ := ccmLengths_eq_zero hlen
  have hdiff : (n - BitVec.ofNat 32 t).toNat = n.toNat - t := by
    have := n.isLt
    rw [BitVec.toNat_sub, BitVec.toNat_ofNat]
    omega
  have htext := cipherLoop_all (E := rtAesEncrypt key) aad t hnonce m
    (.inl hle : dst ≤ src ∨ src + (n.toNat - t) ≤ dst)
  have hunseal := (ccmScheme (rtAesEncrypt key) nonce aad t).unseal_segment htext
  have hcmp := compareMac_iff (ccmScheme (rtAesEncrypt key) nonce aad t) ht
    (segment (cipherLoop (rtAesEncrypt key) src dst (n.toNat - t) (n.toNat - t) 0
      (counterBlock nonce) m) dst (n.toNat - t))
    (length_segment m (src + (n.toNat - t)) t)
  generalize hm' : cipherLoop (rtAesEncrypt key) src dst (n.toNat - t) (n.toNat - t) 0
    (counterBlock nonce) m = m' at hunseal hcmp
  have hsum : n.toNat - t + (ccmScheme (rtAesEncrypt key) nonce aad t).tagLen = n.toNat :=
    Nat.sub_add_cancel hmac
  have hctr : (ccmScheme (rtAesEncrypt key) nonce aad t).ctr 0 = counterBlock nonce :=
    counterAt_zero hnonce
  have hgo : ¬ out.toNat < n.toNat - t := by omega
  rw [hsum] at hunseal
  rw [hctr] at hcmp
  rw [hunseal, aesCcmDecrypt]
  simp only [if_neg (not_not_intro hlen), hdiff, if_neg hgo, hm', aesCcmMac_eq]
  by_cases heq : segment m (src + (n.toNat - t)) t
      = (ccmScheme (rtAesEncrypt key) nonce aad t).tag (segment m' dst (n.toNat - t))
  · refine ⟨0, m', if_neg (not_not_intro (hcmp.mpr heq)), ?_⟩
    exact (if_pos heq).trans (if_pos rfl).symm
  · refine ⟨-5, m', if_pos (mt hcmp.mp heq), ?_⟩
    exact (if_neg heq).trans (if_neg (by decide)).symm

/-- A text shorter than the MAC is refused: its length wraps. -/
theorem aesCcmDecrypt_short (hlen : ccmLengths keyLength nonce.length t = 0) {src dst : Nat}
    {n out : BitVec 32} (hwrap : out.toNat < (n - BitVec.ofNat 32 t).toNat) (m : Mem) :
    aesCcmDecrypt rtAesEncrypt src n key keyLength nonce aad t dst out m = (-4, m, out) := by
  rw [aesCcmDecrypt]
  simp only [if_neg (not_not_intro hlen), if_pos hwrap]

end

/-! ## The header -/

/-- The length of a header. -/
def FrameKind.headerLength (k : FrameKind) : Nat :=
  24 + (if k.a4Exists then 6 else 0) + (if k.qcExists then 2 else 0)

/-- The header at `pHdr` is also the one at `pHdr'` in `m'`. -/
def SameHeader (m m' : Mem) (pHdr pHdr' : Nat) : Prop :=
  segment m' pHdr' (frameKind m pHdr).headerLength = segment m pHdr (frameKind m pHdr).headerLength

namespace SameHeader

variable {m m' : Mem} {pHdr pHdr' : Nat}

theorem byte (h : SameHeader m m' pHdr pHdr') {i : Nat}
    (hi : i < (frameKind m pHdr).headerLength) : m' (pHdr' + i) = m (pHdr + i) := by
  have hat := congrArg (fun l => l[i]?) h
  simpa only [getElem?_segment _ hi, Option.some.injEq] using hat

/-- The bytes every header has. -/
theorem byte_of_lt (h : SameHeader m m' pHdr pHdr') {i : Nat} (hi : i < 24) :
    m' (pHdr' + i) = m (pHdr + i) := by
  refine h.byte (Nat.lt_of_lt_of_le hi ?_)
  unfold FrameKind.headerLength
  omega

theorem frameKind_eq (h : SameHeader m m' pHdr pHdr') : frameKind m' pHdr' = frameKind m pHdr := by
  have h0 : m' pHdr' = m pHdr := h.byte_of_lt (i := 0) (by decide)
  rw [frameKind, frameKind, h0, h.byte_of_lt (i := 1) (by decide)]

theorem segment_eq (h : SameHeader m m' pHdr pHdr') {o n : Nat}
    (hin : o + n ≤ (frameKind m pHdr).headerLength) :
    segment m' (pHdr' + o) n = segment m (pHdr + o) n := by
  refine segment_congr fun i hi => ?_
  rw [Nat.add_assoc, Nat.add_assoc]
  exact h.byte (by omega)

/-- The associated data depends on the header only. -/
theorem aad_eq (h : SameHeader m m' pHdr pHdr') (isDataFrame : Bool) :
    rtmpConstructCcmpAad m' pHdr' isDataFrame (frameKind m pHdr).a4Exists (frameKind m pHdr).qcExists
      = rtmpConstructCcmpAad m pHdr isDataFrame (frameKind m pHdr).a4Exists
        (frameKind m pHdr).qcExists := by
  have h0 : m' pHdr' = m pHdr := h.byte_of_lt (i := 0) (by decide)
  have h1 := h.byte_of_lt (i := 1) (by decide)
  have h22 := h.byte_of_lt (i := 22) (by decide)
  have hlen : (frameKind m pHdr).headerLength = 24 + (if (frameKind m pHdr).a4Exists then 6 else 0)
    + (if (frameKind m pHdr).qcExists then 2 else 0) := rfl
  have haddr : segment m' (pHdr' + 4) 18 = segment m (pHdr + 4) 18 := h.segment_eq (by omega)
  rw [rtmpConstructCcmpAad, rtmpConstructCcmpAad, h0, h1, h22, haddr]
  cases ha : (frameKind m pHdr).a4Exists <;> cases hq : (frameKind m pHdr).qcExists <;>
    simp only [ha, hq, if_true, if_false, Bool.false_eq_true] at hlen
  case false.false => rfl
  case false.true =>
    have h24 := h.byte (i := 24) (by omega)
    simp [h24]
  case true.false =>
    have hA4 : segment m' (pHdr' + 24) 6 = segment m (pHdr + 24) 6 := h.segment_eq (by omega)
    simp [hA4]
  case true.true =>
    have hA4 : segment m' (pHdr' + 24) 6 = segment m (pHdr + 24) 6 := h.segment_eq (by omega)
    have h30 := h.byte (i := 30) (by omega)
    simp [hA4, h30]

/-- So does the nonce, beside the packet number. -/
theorem nonce_eq (h : SameHeader m m' pHdr pHdr') {pn pn' : List Byte}
    (hpn : ∀ i, i < 6 → pn'.getD i 0 = pn.getD i 0) :
    rtmpConstructCcmpNonce m' pHdr' (frameKind m pHdr).a4Exists (frameKind m pHdr).qcExists pn'
      = rtmpConstructCcmpNonce m pHdr (frameKind m pHdr).a4Exists (frameKind m pHdr).qcExists
        pn := by
  have hlen : (frameKind m pHdr).headerLength = 24 + (if (frameKind m pHdr).a4Exists then 6 else 0)
    + (if (frameKind m pHdr).qcExists then 2 else 0) := rfl
  have hA2 : segment m' (pHdr' + 10) 6 = segment m (pHdr + 10) 6 := h.segment_eq (by omega)
  have hrev : ((List.range 6).map fun i => pn'.getD (5 - i) 0)
      = (List.range 6).map fun i => pn.getD (5 - i) 0 :=
    List.map_congr_left fun i _ => hpn (5 - i) (by omega)
  rw [rtmpConstructCcmpNonce, rtmpConstructCcmpNonce, hA2, hrev]
  cases ha : (frameKind m pHdr).a4Exists <;> cases hq : (frameKind m pHdr).qcExists <;>
    simp only [ha, hq, if_true, if_false, Bool.false_eq_true] at hlen
  case false.false => rfl
  case false.true =>
    have h24 := h.byte (i := 24) (by omega)
    simp [h24]
  case true.false => rfl
  case true.true =>
    have h30 := h.byte (i := 30) (by omega)
    simp [h30]

end SameHeader

/-! ## The frame -/

/-- The packet number in a CCMP header. -/
def receivedPn (m : Mem) (pData : Nat) : List Byte :=
  [m pData, m (pData + 1), m (pData + 4), m (pData + 5), m (pData + 6), m (pData + 7)]

/-- The scheme of a frame. -/
def frameScheme (m : Mem) (pHdr : Nat) (key : Block) (pn : List Byte) : Scheme :=
  let k := frameKind m pHdr
  ccmScheme (rtAesEncrypt key) (rtmpConstructCcmpNonce m pHdr k.a4Exists k.qcExists pn)
    (rtmpConstructCcmpAad m pHdr (k.frameType = btypeData) k.a4Exists k.qcExists) lenCcmpMic

/-- The header, the packet number and the key fix the scheme. -/
theorem frameScheme_congr {m m' : Mem} {pHdr pHdr' : Nat} (h : SameHeader m m' pHdr pHdr')
    (key : Block) {pn pn' : List Byte} (hpn : ∀ i, i < 6 → pn'.getD i 0 = pn.getD i 0) :
    frameScheme rtAesEncrypt m' pHdr' key pn' = frameScheme rtAesEncrypt m pHdr key pn := by
  simp only [frameScheme, h.frameKind_eq, h.aad_eq, h.nonce_eq hpn]

@[simp] theorem length_rtmpConstructCcmpNonce (m : Mem) (pHdr : Nat) (a4Exists qcExists : Bool)
    (pn : List Byte) : (rtmpConstructCcmpNonce m pHdr a4Exists qcExists pn).length = 13 := by
  simp [rtmpConstructCcmpNonce]

/-- The lengths the routines pass on. -/
theorem ccmLengths_frame (m : Mem) (pHdr : Nat) (a4Exists qcExists : Bool) (pn : List Byte) :
    ccmLengths 16 (rtmpConstructCcmpNonce m pHdr a4Exists qcExists pn).length lenCcmpMic = 0 := by
  rw [length_rtmpConstructCcmpNonce]
  decide

theorem rtmpSoftEncryptCcmp_seals (pHdr : Nat) (pn : List Byte) (key : Block) (pData : Nat)
    {n : BitVec 32} (hn : n.toNat + 8 < 2 ^ 32) (m : Mem) :
    (rtmpSoftEncryptCcmp rtAesEncrypt pHdr pn key pData n m).1 = true ∧
      segment (rtmpSoftEncryptCcmp rtAesEncrypt pHdr pn key pData n m).2 pData (n.toNat + 8)
        = (frameScheme rtAesEncrypt m pHdr key pn).seal (segment m pData n.toNat) := by
  have hroom : n.toNat + lenCcmpMic ≤ (n + 8).toNat := by
    rw [BitVec.toNat_add]
    exact (Nat.mod_eq_of_lt hn).ge
  obtain ⟨m', hrun, hseal⟩ := aesCcmEncrypt_seals rtAesEncrypt key
    (rtmpConstructCcmpAad m pHdr ((frameKind m pHdr).frameType = btypeData)
      (frameKind m pHdr).a4Exists (frameKind m pHdr).qcExists)
    (ccmLengths_frame m pHdr (frameKind m pHdr).a4Exists (frameKind m pHdr).qcExists pn)
    (.inl (Nat.le_refl pData)) (n + 8) hn hroom m
  simp only [rtmpSoftEncryptCcmp, hrun]
  exact ⟨rfl, hseal⟩

theorem rtmpSoftDecryptCcmp_opens {key : CipherKey} (hkey : key.KeyLen ≠ 0) (pHdr pData : Nat)
    (dataLen : BitVec 16) (hlen : 16 ≤ dataLen.toNat) (m : Mem) :
    ∃ ok m', rtmpSoftDecryptCcmp rtAesEncrypt pHdr key pData dataLen m
        = (ok, m', if ok then dataLen - 16 else dataLen) ∧
      (frameScheme rtAesEncrypt m pHdr key.Key (receivedPn m pData)).unseal
          (segment m (pData + 8) (dataLen.toNat - 8))
        = if ok then some (segment m' pData (dataLen.toNat - 16)) else none := by
  have hlt := dataLen.isLt
  have hcipher : (dataLen.setWidth 32 - BitVec.ofNat 32 lenCcmpHdr).toNat = dataLen.toNat - 8 := by
    show (dataLen.setWidth 32 - 8#32).toNat = dataLen.toNat - 8
    bv_omega
  have hout : (dataLen.setWidth 32).toNat = dataLen.toNat := by
    rw [BitVec.toNat_setWidth]
    omega
  have hmac : lenCcmpMic ≤ dataLen.toNat - 8 := Nat.le_sub_of_add_le hlen
  have hroom : (dataLen.setWidth 32 - BitVec.ofNat 32 lenCcmpHdr).toNat - lenCcmpMic
      ≤ (dataLen.setWidth 32).toNat := by
    rw [hcipher, hout, Nat.sub_sub]
    exact Nat.sub_le dataLen.toNat 16
  obtain ⟨r, m', hrun, hopen⟩ := aesCcmDecrypt_opens rtAesEncrypt key.Key
    (rtmpConstructCcmpAad m pHdr ((frameKind m pHdr).frameType = btypeData)
      (frameKind m pHdr).a4Exists (frameKind m pHdr).qcExists)
    (ccmLengths_frame m pHdr (frameKind m pHdr).a4Exists (frameKind m pHdr).qcExists
      (receivedPn m pData))
    (Nat.le_add_right pData lenCcmpHdr) (dataLen.setWidth 32) (hcipher ▸ hmac) hroom m
  rw [hcipher, Nat.sub_sub] at hopen
  have htext : (dataLen.setWidth 32 - BitVec.ofNat 32 lenCcmpHdr - BitVec.ofNat 32 lenCcmpMic).setWidth
      16 = dataLen - 16 := by
    show (dataLen.setWidth 32 - 8#32 - 8#32).setWidth 16 = dataLen - 16
    bv_omega
  have hdef : rtmpSoftDecryptCcmp rtAesEncrypt pHdr key pData dataLen m
      = if r ≠ 0 then (false, m', dataLen) else (true, m', dataLen - 16) := by
    rw [rtmpSoftDecryptCcmp, if_neg hkey]
    simp only [receivedPn] at hrun
    simp only [hrun, htext]
  by_cases hr : r = 0
  · refine ⟨true, m', ?_, ?_⟩
    · rw [hdef, if_neg (not_not_intro hr), if_pos rfl]
    · rw [if_pos hr] at hopen
      exact hopen
  · refine ⟨false, m', ?_, ?_⟩
    · rw [hdef, if_pos hr]
      rfl
    · rw [if_neg hr] at hopen
      exact hopen

/-- A body without room for the CCMP header and the MIC is refused. -/
theorem rtmpSoftDecryptCcmp_short (key : CipherKey) (pHdr pData : Nat) {dataLen : BitVec 16}
    (hlen : dataLen.toNat < 16) (m : Mem) :
    rtmpSoftDecryptCcmp rtAesEncrypt pHdr key pData dataLen m = (false, m, dataLen) := by
  -- the length of the text wraps, and is more than there is room for
  have hwrap : (dataLen.setWidth 32).toNat
      < (dataLen.setWidth 32 - BitVec.ofNat 32 lenCcmpHdr - BitVec.ofNat 32 lenCcmpMic).toNat := by
    show (dataLen.setWidth 32).toNat < (dataLen.setWidth 32 - 8#32 - 8#32).toNat
    bv_omega
  rw [rtmpSoftDecryptCcmp]
  split_ifs with hkey
  · rfl
  simp only [aesCcmDecrypt_short rtAesEncrypt key.Key _ (ccmLengths_frame m pHdr
    (frameKind m pHdr).a4Exists (frameKind m pHdr).qcExists _) hwrap]
  rfl

/-- The packet number that is read back from a CCMP header. -/
theorem receivedPn_getD {m : Mem} {pData n : Nat} {keyIdx : BitVec 8} {pn body : List Byte}
    (h : segment m pData (8 + n) = rtmpConstructCcmpHdr keyIdx pn ++ body) :
    ∀ i, i < 6 → (receivedPn m pData).getD i 0 = pn.getD i 0 := by
  have hbyte : ∀ i, i < 8 → some (m (pData + i)) = (rtmpConstructCcmpHdr keyIdx pn)[i]? := by
    intro i hi
    rw [← getElem?_segment m (show i < 8 + n by omega), h]
    exact List.getElem?_append_left hi
  have h0 := Option.some.inj (hbyte 0 (by decide))
  have h1 := Option.some.inj (hbyte 1 (by decide))
  have h4 := Option.some.inj (hbyte 4 (by decide))
  have h5 := Option.some.inj (hbyte 5 (by decide))
  have h6 := Option.some.inj (hbyte 6 (by decide))
  have h7 := Option.some.inj (hbyte 7 (by decide))
  intro i hi
  rw [Nat.add_zero] at h0
  rw [receivedPn, h0, h1, h4, h5, h6, h7]
  match i, hi with
  | 0, _ | 1, _ | 2, _ | 3, _ | 4, _ | 5, _ => rfl

theorem lenCcmpMic_le : lenCcmpMic ≤ 16 := by decide

section Exact

variable {key : CipherKey} {m m' : Mem} {pHdr pHdr' : Nat}

/-- What is sealed opens. -/
theorem softCcmp_opens (hkey : key.KeyLen ≠ 0) (hhdr : SameHeader m m' pHdr pHdr')
    (pData pData' : Nat) (pn : List Byte) (keyIdx : BitVec 8) {n : Nat} (hn : n + 16 < 2 ^ 16) :
    (rtmpSoftEncryptCcmp rtAesEncrypt pHdr pn key.Key pData (BitVec.ofNat 32 n) m).1 = true ∧
      (segment m' pData' (8 + (n + 8)) = rtmpConstructCcmpHdr keyIdx pn ++ segment
          (rtmpSoftEncryptCcmp rtAesEncrypt pHdr pn key.Key pData (BitVec.ofNat 32 n) m).2
          pData (n + 8) →
        ∃ m'', rtmpSoftDecryptCcmp rtAesEncrypt pHdr' key pData' (BitVec.ofNat 16 (n + 16)) m'
            = (true, m'', BitVec.ofNat 16 n) ∧
          segment m'' pData' n = segment m pData n) := by
  have hn32 : (BitVec.ofNat 32 n).toNat = n := Nat.mod_eq_of_lt (by omega)
  have hlen : (BitVec.ofNat 16 (n + 16)).toNat = n + 16 := Nat.mod_eq_of_lt hn
  obtain ⟨hok, hseal⟩ := rtmpSoftEncryptCcmp_seals rtAesEncrypt pHdr pn key.Key pData
    (n := BitVec.ofNat 32 n) (by omega) m
  rw [hn32] at hseal
  refine ⟨hok, fun hrecv => ?_⟩
  have hscheme := frameScheme_congr rtAesEncrypt hhdr key.Key (receivedPn_getD hrecv)
  have hbody : segment m' (pData' + 8) (n + 8)
      = (frameScheme rtAesEncrypt m pHdr key.Key pn).seal (segment m pData n) := by
    rw [segment_add, hseal] at hrecv
    exact (List.append_inj hrecv rfl).2
  obtain ⟨ok, m'', hdec, hopen⟩ := rtmpSoftDecryptCcmp_opens rtAesEncrypt hkey pHdr' pData'
    (BitVec.ofNat 16 (n + 16)) (by omega) m'
  rw [hlen, Nat.add_sub_cancel, show n + 16 - 8 = n + 8 by omega, hscheme, hbody,
    Scheme.unseal_seal lenCcmpMic_le] at hopen
  cases ok with
  | false => exact absurd hopen (by simp)
  | true =>
    refine ⟨m'', ?_, (Option.some.inj hopen).symm⟩
    rw [hdec, if_pos rfl, BitVec.ofNat_add]
    simp

/-- What opens was sealed. -/
theorem softCcmp_sealed (hkey : key.KeyLen ≠ 0) (hhdr : SameHeader m m' pHdr pHdr')
    (pData pData' : Nat) {dataLen dataLen' : BitVec 16} {m'' : Mem}
    (hrun : rtmpSoftDecryptCcmp rtAesEncrypt pHdr' key pData' dataLen m' =
      (true, m'', dataLen')) :
    16 ≤ dataLen.toNat ∧ dataLen'.toNat = dataLen.toNat - 16 ∧
      (segment m pData dataLen'.toNat = segment m'' pData' dataLen'.toNat →
        (rtmpSoftEncryptCcmp rtAesEncrypt pHdr (receivedPn m' pData') key.Key pData
          (dataLen'.setWidth 32) m).1 = true ∧
        segment m' (pData' + 8) (dataLen.toNat - 8) = segment
          (rtmpSoftEncryptCcmp rtAesEncrypt pHdr (receivedPn m' pData') key.Key pData
            (dataLen'.setWidth 32) m).2 pData (dataLen.toNat - 8)) := by
  have hlong : 16 ≤ dataLen.toNat := by
    by_contra hshort
    rw [rtmpSoftDecryptCcmp_short rtAesEncrypt key pHdr' pData' (Nat.not_le.mp hshort)] at hrun
    exact absurd (congrArg Prod.fst hrun) (by simp)
  obtain ⟨ok, m₁, hdec, hopen⟩ := rtmpSoftDecryptCcmp_opens rtAesEncrypt hkey pHdr' pData' dataLen
    hlong m'
  rw [hrun] at hdec
  obtain ⟨rfl, hm, hlen⟩ : ok = true ∧ m'' = m₁ ∧ dataLen' = dataLen - 16 := by
    simp only [Prod.mk.injEq] at hdec
    obtain ⟨rfl, hm, hlen⟩ := hdec
    exact ⟨rfl, hm, hlen⟩
  subst hm
  have hdiff : dataLen'.toNat = dataLen.toNat - 16 := by
    subst hlen
    bv_omega
  refine ⟨hlong, hdiff, fun htext => ?_⟩
  have hwide : (dataLen'.setWidth 32).toNat = dataLen'.toNat := by
    have := dataLen'.isLt
    rw [BitVec.toNat_setWidth]
    omega
  obtain ⟨hok, hseal⟩ := rtmpSoftEncryptCcmp_seals rtAesEncrypt pHdr (receivedPn m' pData') key.Key
    pData (n := dataLen'.setWidth 32) (by omega) m
  refine ⟨hok, ?_⟩
  rw [if_pos rfl, Scheme.unseal_eq_some_iff lenCcmpMic_le] at hopen
  rw [hwide, htext, hdiff, show dataLen.toNat - 16 + 8 = dataLen.toNat - 8 by omega,
    ← frameScheme_congr rtAesEncrypt hhdr key.Key (fun _ _ => rfl)] at hseal
  rw [hopen, hseal]

end Exact

/-- **CCMP in software**, between a frame in `m` and one in `m'` with the same header. What
is sealed in `m` opens in `m'`, to the same payload and length. What opens in `m'` is at
least a CCMP header and a MIC long, and behind the header it is what the payload it opened
to seals to in `m`. `RT_AES_Encrypt` is any function of key and block: its allocation is
granted. -/
theorem softCcmp_exact (key : CipherKey) (hkey : key.KeyLen ≠ 0) (m m' : Mem)
    (pHdr pHdr' pData pData' : Nat) (hhdr : SameHeader m m' pHdr pHdr') :
    (∀ (pn : List Byte) (keyIdx : BitVec 8) (n : Nat), n + 16 < 2 ^ 16 →
      (rtmpSoftEncryptCcmp rtAesEncrypt pHdr pn key.Key pData (BitVec.ofNat 32 n) m).1 = true ∧
      (segment m' pData' (8 + (n + 8)) = rtmpConstructCcmpHdr keyIdx pn ++ segment
          (rtmpSoftEncryptCcmp rtAesEncrypt pHdr pn key.Key pData (BitVec.ofNat 32 n) m).2
          pData (n + 8) →
        ∃ m'', rtmpSoftDecryptCcmp rtAesEncrypt pHdr' key pData' (BitVec.ofNat 16 (n + 16)) m'
            = (true, m'', BitVec.ofNat 16 n) ∧
          segment m'' pData' n = segment m pData n)) ∧
    (∀ (dataLen dataLen' : BitVec 16) (m'' : Mem),
      rtmpSoftDecryptCcmp rtAesEncrypt pHdr' key pData' dataLen m' = (true, m'', dataLen') →
        16 ≤ dataLen.toNat ∧ dataLen'.toNat = dataLen.toNat - 16 ∧
        (segment m pData dataLen'.toNat = segment m'' pData' dataLen'.toNat →
          (rtmpSoftEncryptCcmp rtAesEncrypt pHdr (receivedPn m' pData') key.Key pData
            (dataLen'.setWidth 32) m).1 = true ∧
          segment m' (pData' + 8) (dataLen.toNat - 8) = segment
            (rtmpSoftEncryptCcmp rtAesEncrypt pHdr (receivedPn m' pData') key.Key pData
              (dataLen'.setWidth 32) m).2 pData (dataLen.toNat - 8))) ∧
    (∀ dataLen : BitVec 16, dataLen.toNat < 16 →
      (rtmpSoftDecryptCcmp rtAesEncrypt pHdr' key pData' dataLen m').1 = false) := by
  refine ⟨fun pn keyIdx n hn => ?_, fun dataLen dataLen' m'' hrun => ?_, fun dataLen hshort => ?_⟩
  · exact softCcmp_opens rtAesEncrypt hkey hhdr pData pData' pn keyIdx hn
  · exact softCcmp_sealed rtAesEncrypt hkey hhdr pData pData' hrun
  · rw [rtmpSoftDecryptCcmp_short rtAesEncrypt key pHdr' pData' hshort]

/-! ## The frame of `CCMP_test_vector` -/

namespace CcmpTestVector

def HDR : List Byte :=
  [0x08, 0x48, 0xc3, 0x2c, 0x0f, 0xd2, 0xe1, 0x28, 0xa5, 0x7c, 0x50, 0x30, 0xf1, 0x84, 0x44, 0x08,
    0xab, 0xae, 0xa5, 0xb8, 0xfc, 0xba, 0x80, 0x33]

def TK : List Byte :=
  [0xc9, 0x7c, 0x1f, 0x67, 0xce, 0x37, 0x11, 0x85, 0x51, 0x4a, 0x8a, 0x19, 0xf2, 0xbd, 0xd5, 0x2f]

def PN : List Byte := [0x0c, 0xe7, 0x76, 0x97, 0x03, 0xb5]

def P_TEXT_DATA : List Byte :=
  [0xf8, 0xba, 0x1a, 0x55, 0xd0, 0x2f, 0x85, 0xae, 0x96, 0x7b, 0xb6, 0x2f, 0xb6, 0xcd, 0xa8, 0xeb,
    0x7e, 0x78, 0xa0, 0x50]

/-- A frame: the header and what comes behind it. -/
def frame (body : List Byte) : Mem := store (store (fun _ => 0) 0 HDR) 24 body

example : rtmpConstructCcmpAad (frame []) 0 true false false
    = [0x08, 0x40, 0x0f, 0xd2, 0xe1, 0x28, 0xa5, 0x7c, 0x50, 0x30, 0xf1, 0x84, 0x44, 0x08, 0xab,
      0xae, 0xa5, 0xb8, 0xfc, 0xba, 0x00, 0x00] := by decide

example : rtmpConstructCcmpNonce (frame []) 0 false false PN
    = [0x00, 0x50, 0x30, 0xf1, 0x84, 0x44, 0x08, 0xb5, 0x03, 0x97, 0x76, 0xe7, 0x0c] := by decide

example : rtmpConstructCcmpHdr 0 PN = [0x0c, 0xe7, 0x00, 0x20, 0x76, 0x97, 0x03, 0xb5] := by decide

theorem frame_of_lt (body : List Byte) {i : Nat} (hi : i < 24) : frame body i = HDR.getD i 0 := by
  have hfront : ¬ (24 ≤ i ∧ i < 24 + body.length) := by omega
  have hhdr : 0 ≤ i ∧ i < 0 + HDR.length := ⟨Nat.zero_le i, hi⟩
  rw [frame, store, if_neg hfront, store, if_pos hhdr, Nat.sub_zero]

theorem frameKind_frame (body : List Byte) : frameKind (frame body) 0 = ⟨2, false, false⟩ := by
  rw [frameKind, frame_of_lt body (by decide), frame_of_lt body (by decide)]
  rfl

theorem sameHeader (body body' : List Byte) : SameHeader (frame body) (frame body') 0 0 := by
  rw [SameHeader, frameKind_frame]
  refine segment_congr fun i hi => ?_
  rw [Nat.zero_add, frame_of_lt body hi, frame_of_lt body' hi]

theorem segment_frame {body : List Byte} {n : Nat} (h : body.length = n) :
    segment (frame body) 24 n = body := by
  subst h
  exact segment_store_self _ 24 body

/-- `RT_AES_Encrypt` with a key of sixteen bytes. -/
def aesOf (key : Block) : Block → Block := RtAes.aesBlock (fun i => key (Fin.ofNat 16 i)) 16

/-- What is received when the test frame is sent. -/
def received : List Byte :=
  rtmpConstructCcmpHdr 0 PN ++ segment
    (rtmpSoftEncryptCcmp aesOf 0 PN (pad TK) 24 20 (frame P_TEXT_DATA)).2 24 28

end CcmpTestVector

open CcmpTestVector in
theorem softCcmp_exact_test_vector :
    ∃ m'', rtmpSoftDecryptCcmp aesOf 0 ⟨16, pad TK⟩ 24 36 (frame received) = (true, m'', 20) ∧
      segment m'' 24 20 = P_TEXT_DATA := by
  have h := (softCcmp_exact aesOf ⟨16, pad TK⟩ (by decide) (frame P_TEXT_DATA) (frame received)
    0 0 24 24 (sameHeader P_TEXT_DATA received)).1 PN 0 20 (by decide)
  have htext : segment (frame P_TEXT_DATA) 24 20 = P_TEXT_DATA := segment_frame rfl
  rw [htext] at h
  exact h.2 (segment_frame (by simp [received, rtmpConstructCcmpHdr]))

end ExtDrv.Rt3370
