import ExtDrv.Rt3370.EapolKeyData

/-!
# Parsing built key data

The loop of `RTMPParseEapolKeyData` over the elements `ConstructEapolKeyData` puts behind each
other: the RSN element, the KDE of the group key, and the padding, of which the first byte is the
type of a KDE.
-/

namespace ExtDrv.Rt3370.Wpa

open KeyWrap Memory

/-! ## The loop -/

section Loop

variable {k : Mem} {n o : Nat} {acc : FoundGtk}

theorem kdeLoop_stop (h : ¬ o + 2 + (k (o + 1)).toNat ≤ n) : kdeLoop k n o acc = .found acc := by
  rw [kdeLoop, if_neg h]

theorem kdeLoop_other (h : o + 2 + (k (o + 1)).toNat ≤ n) (hk : ¬ isGtkKde k o = true) :
    kdeLoop k n o acc = kdeLoop k n (o + 2 + (k (o + 1)).toNat) acc := by
  rw [kdeLoop, if_pos h, if_neg hk]

theorem kdeLoop_short (h : o + 2 + (k (o + 1)).toNat ≤ n) (hk : isGtkKde k o = true)
    (hlen : (k (o + 1) - 6).toNat < 5) : kdeLoop k n o acc = .tooShort := by
  rw [kdeLoop, if_pos h, if_pos hk, if_pos hlen]

theorem kdeLoop_long (h : o + 2 + (k (o + 1)).toNat ≤ n) (hk : isGtkKde k o = true)
    (hlen : 32 < (k (o + 1) - 6).toNat) :
    kdeLoop k n o acc = .overrun (k (o + 1) - 6).toNat := by
  rw [kdeLoop, if_pos h, if_pos hk, if_neg (by omega), if_pos hlen]

theorem kdeLoop_gtk (h : o + 2 + (k (o + 1)).toNat ≤ n) (hk : isGtkKde k o = true)
    (hge : 5 ≤ (k (o + 1) - 6).toNat) (hle : (k (o + 1) - 6).toNat ≤ 32) :
    kdeLoop k n o acc = kdeLoop k n (o + 2 + (k (o + 1)).toNat)
      ⟨(k (o + 6) &&& 3).toNat, segment k (o + 8) (k (o + 1) - 6).toNat⟩ := by
  rw [kdeLoop, if_pos h, if_pos hk, if_neg (by omega), if_neg (by omega)]

theorem isGtkKde_iff : isGtkKde k o = true ↔
    k o = 0xdd ∧ segment k (o + 2) 3 = [0x00, 0x0f, 0xac] ∧ k (o + 5) = 0x01 := by
  unfold isGtkKde
  simp only [Bool.and_eq_true, beq_iff_eq, and_assoc]
  exact Iff.rfl

/-- Zeros are elements of no meaning. -/
theorem kdeLoop_zeros : (∀ i, o ≤ i → i < n → k i = 0) → kdeLoop k n o acc = .found acc := by
  induction hd : n - o using Nat.strongRecOn generalizing o with
  | _ d ih =>
    intro hzero
    by_cases h : o + 2 + (k (o + 1)).toNat ≤ n
    · have hno : ¬ isGtkKde k o = true := by
        intro hk
        have hdd := (isGtkKde_iff.mp hk).1
        rw [hzero o (Nat.le_refl o) (by omega)] at hdd
        exact absurd hdd (by decide)
      rw [kdeLoop_other h hno]
      exact ih _ (by omega) rfl fun i hi hlt => hzero i (by omega) hlt
    · exact kdeLoop_stop h

end Loop

/-! ## Bytes of a segment -/

section Bytes

variable {k : Mem} {o : Nat}

theorem segment_head {as bs : List (BitVec 8)}
    (h : segment k o (as ++ bs).length = as ++ bs) : segment k o as.length = as := by
  rw [List.length_append, segment_add] at h
  exact (List.append_inj h (length_segment _ _ _)).1

theorem segment_tail {as bs : List (BitVec 8)}
    (h : segment k o (as ++ bs).length = as ++ bs) :
    segment k (o + as.length) bs.length = bs := by
  rw [List.length_append, segment_add] at h
  exact (List.append_inj h (length_segment _ _ _)).2

theorem byte_of_segment {bs : List (BitVec 8)} (h : segment k o bs.length = bs) {i : Nat}
    (hi : i < bs.length) : k (o + i) = bs.getD i 0 := by
  have hget := getElem?_segment (o := o) k hi
  rw [h] at hget
  rw [List.getD_eq_getElem?_getD, hget]
  rfl

end Bytes

/-! ## The KDE -/

theorem gtkLenOf_cases (status : WepStatus) : gtkLenOf status = 16 ∨ gtkLenOf status = 32 := by
  unfold gtkLenOf
  split
  · exact Or.inl rfl
  · exact Or.inr rfl

theorem length_gtk (a : KeyDataArgs) : a.gtk.length = a.gtkLen := by
  have hle : a.gtkLen ≤ 32 := by
    rcases gtkLenOf_cases a.GroupKeyWepStatus with h | h <;>
    · unfold KeyDataArgs.gtkLen
      omega
  unfold KeyDataArgs.gtk
  rw [List.length_take, List.length_ofFn, Nat.min_eq_left hle]

theorem length_kdeHead (a : KeyDataArgs) : a.kdeHead.length = 8 := rfl

/-- **The group key is found** in its KDE, whatever was found before. -/
theorem kdeLoop_kde (a : KeyDataArgs) {k : Mem} {n o : Nat} {acc : FoundGtk}
    (hin : segment k o (a.kdeHead ++ a.gtk).length = a.kdeHead ++ a.gtk)
    (hfits : o + (8 + a.gtkLen) ≤ n) :
    kdeLoop k n o acc = kdeLoop k n (o + (8 + a.gtkLen)) ⟨a.DefaultKeyIdx, a.gtk⟩ := by
  have hhead := segment_head hin
  have hgtk := segment_tail hin
  rw [length_kdeHead, length_gtk] at hgtk
  have hbyte : ∀ i < 8, k (o + i) = a.kdeHead.getD i 0 := fun i hi => byte_of_segment hhead hi
  have hlen : (k (o + 1)).toNat = 6 + a.gtkLen ∧ (k (o + 1) - 6).toNat = a.gtkLen := by
    rw [hbyte 1 (by decide)]
    show (4 + (2 + BitVec.ofNat 8 a.gtkLen)).toNat = 6 + a.gtkLen ∧
      (4 + (2 + BitVec.ofNat 8 a.gtkLen) - 6).toNat = a.gtkLen
    rcases gtkLenOf_cases a.GroupKeyWepStatus with h | h <;>
    · rw [show a.gtkLen = _ from h]
      decide
  have hge : 16 ≤ a.gtkLen ∧ a.gtkLen ≤ 32 := by
    rcases gtkLenOf_cases a.GroupKeyWepStatus with h | h <;>
    · rw [show a.gtkLen = _ from h]
      decide
  have hkde : isGtkKde k o = true := by
    refine isGtkKde_iff.mpr ⟨hbyte 0 (by decide), ?_, hbyte 5 (by decide)⟩
    show [k (o + 2 + 0), k (o + 2 + 1), k (o + 2 + 2)] = _
    rw [show k (o + 2 + 0) = _ from hbyte 2 (by decide),
      show k (o + 2 + 1) = _ from hbyte 3 (by decide),
      show k (o + 2 + 2) = _ from hbyte 4 (by decide)]
    rfl
  have hidx : (k (o + 6) &&& 3).toNat = a.DefaultKeyIdx := by
    rw [hbyte 6 (by decide)]
    show ((BitVec.ofNat 8 a.DefaultKeyIdx &&& 0x03) &&& 3).toNat = a.DefaultKeyIdx
    generalize a.DefaultKeyIdx = idx
    revert idx
    decide
  rw [kdeLoop_gtk (by omega) hkde (by omega) (by omega), hlen.1, hlen.2, hidx, hgtk,
    show o + 2 + (6 + a.gtkLen) = o + (8 + a.gtkLen) by omega]

/-! ## The RSN element -/

/-- The RSN element looks like the KDE of a group key. -/
def RsnKde (a : KeyDataArgs) : Prop :=
  a.rsnPart ≠ [] ∧ segment a.RSNIE 0 4 = [0x00, 0x0f, 0xac, 0x01] ∧ 4 ≤ a.RSNIE_LEN.toNat

/-- What stands at the head of the key data: the RSN element, and the type of the KDE. -/
structure RsnHead (a : KeyDataArgs) (k : Mem) : Prop where
  type : k 0 = if segment a.RSNIE 2 3 = [0x00, 0x0f, 0xac] then 0x30 else 0xdd
  len : k 1 = a.RSNIE_LEN
  pos : 0 < a.RSNIE_LEN.toNat
  body : ∀ i < a.RSNIE_LEN.toNat, k (2 + i) = a.RSNIE i
  behind : k (2 + a.RSNIE_LEN.toNat) = 0xdd

theorem rsnHead_of_segment {a : KeyDataArgs} {k : Mem} (hne : a.rsnPart ≠ [])
    (hin : segment k 0 (a.rsnPart ++ (a.kdeHead ++ a.gtk)).length
      = a.rsnPart ++ (a.kdeHead ++ a.gtk)) :
    RsnHead a k ∧ a.rsnPart.length = 2 + a.RSNIE_LEN.toNat := by
  have hpart : a.rsnPart = rtmpInsertRsnie a.RSNIE a.RSNIE_LEN ∧ a.RSNIE_LEN ≠ 0 := by
    unfold KeyDataArgs.rsnPart at hne ⊢
    split at hne
    · rename_i h
      exact ⟨if_pos h, h.1⟩
    · exact absurd rfl hne
  have hlen : a.rsnPart.length = 2 + a.RSNIE_LEN.toNat := by
    rw [hpart.1]
    unfold rtmpInsertRsnie
    rw [List.length_cons, List.length_cons, length_segment]
    omega
  have hrsn := segment_head hin
  have hkde := segment_tail hin
  rw [hlen] at hkde
  have hbyte : ∀ i < 2 + a.RSNIE_LEN.toNat, k i = (rtmpInsertRsnie a.RSNIE a.RSNIE_LEN).getD i 0 := by
    intro i hi
    rw [← hpart.1, ← byte_of_segment hrsn (by omega), Nat.zero_add]
  have hpos : 0 < a.RSNIE_LEN.toNat := by
    refine Nat.pos_of_ne_zero fun hz => hpart.2 ?_
    exact BitVec.eq_of_toNat_eq hz
  refine ⟨⟨hbyte 0 (by omega), hbyte 1 (by omega), hpos, fun i hi => ?_, ?_⟩, hlen⟩
  · rw [hbyte _ (by omega), show 2 + i = i + 1 + 1 by omega]
    unfold rtmpInsertRsnie
    rw [List.getD_cons_succ, List.getD_cons_succ, List.getD_eq_getElem?_getD,
      getElem?_segment _ hi, Nat.zero_add]
    rfl
  · have hfirst := byte_of_segment hkde (i := 0) (Nat.succ_pos _)
    rw [Nat.zero_add, Nat.add_zero] at hfirst
    exact hfirst

theorem RsnHead.isGtkKde_iff {a : KeyDataArgs} {k : Mem} (h : RsnHead a k) :
    isGtkKde k 0 = true ↔
      segment a.RSNIE 0 4 = [0x00, 0x0f, 0xac, 0x01] ∧ 4 ≤ a.RSNIE_LEN.toNat := by
  have hseg : segment a.RSNIE 0 4 = [a.RSNIE 0, a.RSNIE 1, a.RSNIE 2, a.RSNIE 3] := rfl
  have hkde : isGtkKde k 0 = true ↔ k 0 = 0xdd ∧
      k (2 + 0) = 0x00 ∧ k (2 + 1) = 0x0f ∧ k (2 + 2) = 0xac ∧ k (2 + 3) = 0x01 := by
    have hthree : segment k (0 + 2) 3 = [k 2, k 3, k 4] := rfl
    rw [Wpa.isGtkKde_iff, hthree]
    simp only [List.cons.injEq, and_true, and_assoc]
  rw [hkde, hseg]
  by_cases h4 : 4 ≤ a.RSNIE_LEN.toNat
  · rw [h.body 0 (by omega), h.body 1 (by omega), h.body 2 (by omega), h.body 3 (by omega)]
    simp only [List.cons.injEq, and_true, h4]
    refine ⟨fun hk => hk.2, fun hk => ⟨?_, hk⟩⟩
    rw [h.type, if_neg ?_]
    intro houi
    have hac : a.RSNIE 2 = 0x00 := (List.cons.inj houi).1
    rw [hk.2.2.1] at hac
    exact absurd hac (by decide)
  · -- the KDE behind a short element is none of an OUI
    refine iff_of_false (fun hk => ?_) fun hk => h4 hk.2
    have hpos := h.pos
    have hbehind := h.behind
    rcases (by omega : a.RSNIE_LEN.toNat = 1 ∨ a.RSNIE_LEN.toNat = 2 ∨ a.RSNIE_LEN.toNat = 3)
      with h1 | h2 | h3
    · rw [h1, hk.2.2.1] at hbehind
      exact absurd hbehind (by decide)
    · rw [h2, hk.2.2.2.1] at hbehind
      exact absurd hbehind (by decide)
    · rw [h3, hk.2.2.2.2] at hbehind
      exact absurd hbehind (by decide)

/-- The lengths of an RSN element like a KDE that are a group key's, to be replaced by the one
that follows. -/
def RsnLenGood (a : KeyDataArgs) : Prop := 11 ≤ a.RSNIE_LEN.toNat ∧ a.RSNIE_LEN.toNat ≤ 38

/-- **The RSN element** is passed over, or ends the parsing. -/
theorem kdeLoop_rsn (a : KeyDataArgs) {k : Mem} {n : Nat} (acc : FoundGtk)
    (hin : segment k 0 (a.rsnPart ++ (a.kdeHead ++ a.gtk)).length
      = a.rsnPart ++ (a.kdeHead ++ a.gtk))
    (hfits : a.rsnPart.length ≤ n) :
    ((RsnKde a → RsnLenGood a) → ∃ acc', kdeLoop k n 0 acc = kdeLoop k n a.rsnPart.length acc') ∧
      (RsnKde a → ¬ RsnLenGood a → ∀ found, kdeLoop k n 0 acc ≠ .found found) := by
  by_cases hne : a.rsnPart = []
  · rw [hne]
    exact ⟨fun _ => ⟨acc, rfl⟩, fun hk => absurd hne hk.1⟩
  · obtain ⟨hhead, hlen⟩ := rsnHead_of_segment hne hin
    have hone : k (0 + 1) = a.RSNIE_LEN := hhead.len
    have hfits' : 0 + 2 + (k (0 + 1)).toNat ≤ n := by
      rw [hone]
      omega
    have hnext : 0 + 2 + (k (0 + 1)).toNat = a.rsnPart.length := by
      rw [hone]
      omega
    have hsub : (k (0 + 1) - 6).toNat = (2 ^ 8 - 6 + a.RSNIE_LEN.toNat) % 2 ^ 8 := by
      rw [hone]
      exact BitVec.toNat_sub a.RSNIE_LEN 6
    have hlt := a.RSNIE_LEN.isLt
    have hkde : isGtkKde k 0 = true ↔ RsnKde a :=
      hhead.isGtkKde_iff.trans ⟨fun h => ⟨hne, h⟩, fun h => h.2⟩
    unfold RsnLenGood
    constructor
    · intro hgood
      by_cases hk : isGtkKde k 0 = true
      · have hrange := hgood (hkde.mp hk)
        exact ⟨_, by rw [kdeLoop_gtk hfits' hk (by omega) (by omega), hnext]⟩
      · exact ⟨acc, by rw [kdeLoop_other hfits' hk, hnext]⟩
    · intro hk hbad found hfound
      have hlong := hk.2.2
      by_cases hshort : (k (0 + 1) - 6).toNat < 5
      · rw [kdeLoop_short hfits' (hkde.mpr hk) hshort] at hfound
        cases hfound
      · rw [kdeLoop_long hfits' (hkde.mpr hk) (by omega)] at hfound
        cases hfound

/-! ## The padding -/

/-- The padding starts a KDE of its own, with bytes behind the text. -/
def TailKde (r : Mem) (n : Nat) : Prop :=
  (n % 8 = 6 ∧ segment r (n + 2) 4 = [0x00, 0x0f, 0xac, 0x01]) ∨
    (n % 8 = 5 ∧ segment r (n + 3) 3 = [0x0f, 0xac, 0x01])

theorem length_padding (n : Nat) : (padding n).length = (8 - n % 8) % 8 := by
  unfold padding
  split
  · rw [List.length_cons, List.length_replicate]
    omega
  · rw [List.length_nil]
    omega

/-- What stands where the padding starts. -/
structure Padded (r k : Mem) (n : Nat) : Prop where
  pad : segment k n (padding n).length = padding n
  behind : ∀ i < 8, k (n + (padding n).length + i) = r (n + (padding n).length + i)

theorem Padded.first {r k : Mem} {n : Nat} (h : Padded r k n) (hn : n % 8 ≠ 0) : k n = 0xdd := by
  have hpos : 0 < (padding n).length := by
    rw [length_padding]
    omega
  refine (byte_of_segment h.pad hpos).trans ?_
  unfold padding
  rw [if_pos hn]
  rfl

theorem Padded.zero {r k : Mem} {n i : Nat} (h : Padded r k n) (hi : 0 < i)
    (hlt : i < (padding n).length) : k (n + i) = 0 := by
  have hn : n % 8 ≠ 0 := by
    rw [length_padding] at hlt
    omega
  refine (byte_of_segment h.pad hlt).trans ?_
  unfold padding at hlt ⊢
  rw [if_pos hn] at hlt ⊢
  obtain ⟨j, rfl⟩ := Nat.exists_eq_succ_of_ne_zero (Nat.pos_iff_ne_zero.mp hi)
  rw [List.length_cons, Nat.succ_lt_succ_iff, List.length_replicate] at hlt
  rw [List.getD_cons_succ, List.getD_eq_getElem?_getD, List.getElem?_replicate, if_pos hlt]
  rfl

/-- A padding of two bytes or more is an element; it is a KDE if the bytes behind make it one. -/
theorem Padded.isGtkKde_iff {r k : Mem} {n : Nat} (h : Padded r k n)
    (hlen : 2 ≤ (padding n).length) : isGtkKde k n = true ↔ TailKde r n := by
  have hn := length_padding n
  have hne : n % 8 ≠ 0 := by omega
  have hbytes : isGtkKde k n = true ↔
      k (n + 2) = 0x00 ∧ k (n + 3) = 0x0f ∧ k (n + 4) = 0xac ∧ k (n + 5) = 0x01 := by
    have hseg : segment k (n + 2) 3 = [k (n + 2), k (n + 3), k (n + 4)] := rfl
    rw [Wpa.isGtkKde_iff, h.first hne, hseg]
    simp only [List.cons.injEq, true_and, and_true, and_assoc]
  rw [hbytes]
  unfold TailKde
  rcases (by omega : n % 8 = 6 ∨ n % 8 = 5 ∨ n % 8 < 5) with h6 | h5 | hlow
  · have hp : (padding n).length = 2 := by omega
    have hbehind := h.behind
    rw [hp] at hbehind
    have hseg : segment r (n + 2) 4 = [k (n + 2), k (n + 3), k (n + 4), k (n + 5)] := by
      rw [show k (n + 2) = _ from hbehind 0 (by decide), show k (n + 3) = _ from hbehind 1 (by decide),
        show k (n + 4) = _ from hbehind 2 (by decide), show k (n + 5) = _ from hbehind 3 (by decide)]
      rfl
    rw [hseg]
    simp [h6]
  · have hp : (padding n).length = 3 := by omega
    have hbehind := h.behind
    rw [hp] at hbehind
    have hzero : k (n + 2) = 0 := h.zero (by decide) (by omega)
    have hseg : segment r (n + 3) 3 = [k (n + 3), k (n + 4), k (n + 5)] := by
      rw [show k (n + 3) = _ from hbehind 0 (by decide), show k (n + 4) = _ from hbehind 1 (by decide),
        show k (n + 5) = _ from hbehind 2 (by decide)]
      rfl
    rw [hseg, hzero]
    simp [h5]
  · have hzero : k (n + 3) = 0 := h.zero (by decide) (by omega)
    rw [hzero]
    refine iff_of_false (fun hk => absurd hk.2.1 (by decide)) ?_
    rintro (⟨h6, -⟩ | ⟨h5, -⟩) <;> omega

/-- **The padding**: nothing is found in it, or the buffer of the group key is overrun. -/
theorem kdeLoop_padding {r k : Mem} {n : Nat} (h : Padded r k n) (acc : FoundGtk) :
    (¬ TailKde r n → kdeLoop k (n + (padding n).length) n acc = .found acc) ∧
      (TailKde r n → kdeLoop k (n + (padding n).length) n acc = .overrun 250) := by
  have hn := length_padding n
  by_cases hlen : 2 ≤ (padding n).length
  · have hone : k (n + 1) = 0 := h.zero (by decide) (by omega)
    have hfits : n + 2 + (k (n + 1)).toNat ≤ n + (padding n).length := by
      rw [hone]
      show n + 2 + 0 ≤ _
      omega
    constructor
    · intro hno
      rw [kdeLoop_other hfits (fun hk => hno ((h.isGtkKde_iff hlen).mp hk)), hone]
      refine kdeLoop_zeros fun i hi hlt => ?_
      have hle : n + 2 ≤ i := hi
      rw [show i = n + (i - n) by omega]
      exact h.zero (by omega) (by omega)
    · intro htail
      rw [kdeLoop_long hfits ((h.isGtkKde_iff hlen).mpr htail) (by rw [hone]; decide), hone]
      rfl
  · constructor
    · intro _
      exact kdeLoop_stop (by omega)
    · rintro (⟨h6, -⟩ | ⟨h5, -⟩) <;> omega

end ExtDrv.Rt3370.Wpa
