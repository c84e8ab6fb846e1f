import ExtDrv.Rt3370.BeaconWalk

/-!
# The bytes of a TIM

`GetTimBit` reads the fixed part of the element, and the byte of the map with the bit of the
association id, without a look at the length. What it returns depends on the received
bytes alone exactly if these are in the message, or have nothing to say.
-/

namespace ExtDrv.Rt3370.Sanity

open Memory

/-- The association id is not in the map. -/
def OutOfMap (aid : Nat) (timLen bitCntl : BitVec 8) : Prop :=
  aid < (bitCntl &&& 0xfe).toNat * 8 ∨
    ((timLen.toNat + 252 + (bitCntl &&& 0xfe).toNat) % 256 + 1) * 8 ≤ aid

/-- The byte of the map, and the bit in it. -/
def mapByte (aid : Nat) (m : Mem) (o : Nat) : Nat :=
  o + 5 + (aid / 8 - (m (o + 4) &&& 0xfe).toNat)

def mapBit (aid : Nat) (m : Mem) (o : Nat) : Nat :=
  aid % 16 - if (aid / 8 - (m (o + 4) &&& 0xfe).toNat) % 2 = 1 then 8 else 0

/-- The bytes `GetTimBit` follows are in the message: the control byte, and the one of the map. An
id that is in no map makes up for the control byte, where this has no broadcast flag to give. -/
def TimWithin (aid : Nat) (m : Mem) (len o : Nat) : Prop :=
  (o + 5 ≤ len ∧ (OutOfMap aid (m (o + 1)) (m (o + 4)) ∨ mapByte aid m o < len)) ∨
    (o + 4 = len ∧ m (o + 2) ≠ 0 ∧ ∀ c, OutOfMap aid (m (o + 1)) c)

section Tim

variable {aid : Nat} {m m' : Mem} {len o : Nat}

theorem messageToMe_of_out (h : OutOfMap aid (m (o + 1)) (m (o + 4))) :
    (getTimBit aid m o).MessageToMe = false := if_pos h

theorem messageToMe_of_in (h : ¬ OutOfMap aid (m (o + 1)) (m (o + 4))) :
    (getTimBit aid m o).MessageToMe = (m (mapByte aid m o)).getLsbD (mapBit aid m o) := by
  refine (if_neg h).trans ?_
  unfold mapByte mapBit
  rw [show o + 4 + (aid / 8 - (m (o + 4) &&& 0xfe).toNat + 1)
    = o + 5 + (aid / 8 - (m (o + 4) &&& 0xfe).toNat) by omega]

theorem mapBit_lt (h : ¬ OutOfMap aid (m (o + 1)) (m (o + 4))) : mapBit aid m o < 8 := by
  -- the map starts at an even byte
  have heven : ∀ c : BitVec 8, (c &&& 0xfe).toNat % 2 = 0 := by decide
  have hle := Nat.not_lt.mp fun hlt => h (Or.inl hlt)
  have hmod := heven (m (o + 4))
  unfold mapBit
  split <;> omega

theorem timBit_ext {t t' : TimBit} (hcount : t.DtimCount = t'.DtimCount)
    (hperiod : t.DtimPeriod = t'.DtimPeriod) (hbcast : t.BcastFlag = t'.BcastFlag)
    (hme : t.MessageToMe = t'.MessageToMe) : t = t' := by
  cases t
  cases t'
  simp_all

theorem getTimBit_of_within (hm : AgreeBelow len m m') (hle : Tlv.after m o ≤ len)
    (h : TimWithin aid m len o) : getTimBit aid m' o = getTimBit aid m o := by
  have h1 : m' (o + 1) = m (o + 1) := hm _ (by unfold Tlv.after at hle; omega)
  rcases h with ⟨hcntl, hmap⟩ | ⟨hend, hcount, hout⟩
  · have h2 : m' (o + 2) = m (o + 2) := hm _ (by omega)
    have h3 : m' (o + 3) = m (o + 3) := hm _ (by omega)
    have h4 : m' (o + 4) = m (o + 4) := hm _ (by omega)
    refine timBit_ext h2 h3 ?_ ?_
    · show (decide (m' (o + 2) = 0) && _) = (decide (m (o + 2) = 0) && _)
      rw [h2, h4]
    · by_cases hout : OutOfMap aid (m (o + 1)) (m (o + 4))
      · rw [messageToMe_of_out hout, messageToMe_of_out (by rwa [h1, h4])]
      · have hbyte := hm _ (hmap.resolve_left hout)
        rw [messageToMe_of_in hout, messageToMe_of_in (by rwa [h1, h4])]
        unfold mapBit mapByte at *
        rw [h4, hbyte]
  · have h2 : m' (o + 2) = m (o + 2) := hm _ (by omega)
    have h3 : m' (o + 3) = m (o + 3) := hm _ (by omega)
    refine timBit_ext h2 h3 ?_ ?_
    · show (decide (m' (o + 2) = 0) && _) = (decide (m (o + 2) = 0) && _)
      rw [h2, decide_eq_false hcount, Bool.false_and, Bool.false_and]
    · rw [messageToMe_of_out (hout _), messageToMe_of_out (by rw [h1]; exact hout _)]

/-- The received bytes, a control byte, and one more value for all that follow. -/
def tailed (m : Mem) (len : Nat) (c x : BitVec 8) : Mem :=
  fun i => if i < len then m i else if i = len then c else x

theorem agree_tailed (m : Mem) (len : Nat) (c x : BitVec 8) : AgreeBelow len m (tailed m len c x) :=
  fun _ hi => if_pos hi

theorem tailed_of_gt {c x : BitVec 8} {i : Nat} (hi : len < i) : tailed m len c x i = x := by
  unfold tailed
  rw [if_neg (by omega), if_neg (by omega)]

theorem tailed_self (m : Mem) (len : Nat) (c x : BitVec 8) : tailed m len c x len = c := by
  unfold tailed
  rw [if_neg (Nat.lt_irrefl len), if_pos rfl]

theorem tailed_of_ge {x : BitVec 8} {i : Nat} (hi : len ≤ i) : tailed m len x x i = x := by
  unfold tailed
  rw [if_neg (by omega), ite_self]

/-- The byte of the map makes a difference. -/
theorem getTimBit_ne {m₁ m₂ : Mem} (h1 : m₂ (o + 1) = m₁ (o + 1)) (h4 : m₂ (o + 4) = m₁ (o + 4))
    (hin : ¬ OutOfMap aid (m₁ (o + 1)) (m₁ (o + 4))) (hzero : m₁ (mapByte aid m₁ o) = 0)
    (hff : m₂ (mapByte aid m₁ o) = 0xff) : getTimBit aid m₁ o ≠ getTimBit aid m₂ o := by
  intro h
  have hme := congrArg TimBit.MessageToMe h
  have hbyte : mapByte aid m₂ o = mapByte aid m₁ o := by
    unfold mapByte
    rw [h4]
  have hset : ∀ i < 8, (0xff : BitVec 8).getLsbD i = true := by decide
  have hclear : ∀ i < 8, (0 : BitVec 8).getLsbD i = false := by decide
  rw [messageToMe_of_in hin, messageToMe_of_in (by rwa [h1, h4]), hbyte, hzero, hff,
    hset _ (mapBit_lt (by rwa [h1, h4])), hclear _ (mapBit_lt hin)] at hme
  cases hme

theorem within_of_getTimBit (hle : Tlv.after m o ≤ len)
    (h : ∀ m', AgreeBelow len m m' → getTimBit aid m' o = getTimBit aid m o) :
    TimWithin aid m len o := by
  have hsame : ∀ m₁ m₂, AgreeBelow len m m₁ → AgreeBelow len m m₂ →
      getTimBit aid m₁ o = getTimBit aid m₂ o :=
    fun m₁ m₂ h₁ h₂ => (h m₁ h₁).trans (h m₂ h₂).symm
  have hat : ∀ c x, ∀ i < len, tailed m len c x i = m i := fun c x => agree_tailed m len c x
  have hlen : o + 1 < len := by
    unfold Tlv.after at hle
    omega
  have hperiod : o + 4 ≤ len := by
    by_contra hshort
    have hp := congrArg TimBit.DtimPeriod
      (hsame _ _ (agree_tailed m len 0 0) (agree_tailed m len 1 1))
    have hx : ∀ x, (getTimBit aid (tailed m len x x) o).DtimPeriod = x :=
      fun x => tailed_of_ge (by omega)
    rw [hx, hx] at hp
    exact absurd hp (by decide)
  by_cases hcntl : o + 5 ≤ len
  · refine Or.inl ⟨hcntl, ?_⟩
    by_contra hmap
    obtain ⟨hin, hbyte⟩ := not_or.mp hmap
    have hmapByte : mapByte aid (tailed m len 0 0) o = mapByte aid m o := by
      unfold mapByte
      rw [hat _ _ _ (by omega)]
    refine @getTimBit_ne aid o (tailed m len 0 0) (tailed m len 0xff 0xff)
      ?_ ?_ ?_ ?_ ?_ (hsame _ _ (agree_tailed _ _ _ _) (agree_tailed _ _ _ _))
    · rw [hat _ _ _ hlen, hat _ _ _ hlen]
    · rw [hat _ _ _ (by omega), hat _ _ _ (by omega)]
    · rwa [hat _ _ _ hlen, hat _ _ _ (by omega)]
    · rw [hmapByte]
      exact tailed_of_ge (Nat.not_lt.mp hbyte)
    · rw [hmapByte]
      exact tailed_of_ge (Nat.not_lt.mp hbyte)
  · have hend : o + 4 = len := by omega
    refine Or.inr ⟨hend, fun hcount => ?_, fun c => ?_⟩
    · have hb := congrArg TimBit.BcastFlag
        (hsame _ _ (agree_tailed m len 0 0) (agree_tailed m len 1 0))
      have hx : ∀ c, (getTimBit aid (tailed m len c 0) o).BcastFlag = c.getLsbD 0 := by
        intro c
        show (decide (tailed m len c 0 (o + 2) = 0) && (tailed m len c 0 (o + 4)).getLsbD 0) = _
        rw [hat _ _ _ (by omega), hcount, hend, tailed_self]
        rfl
      rw [hx, hx] at hb
      exact absurd hb (by decide)
    · by_contra hin
      have hself : ∀ x, tailed m len c x (o + 4) = c := by
        intro x
        rw [hend]
        exact tailed_self m len c x
      have hbyte : len < mapByte aid (tailed m len c 0) o := by
        unfold mapByte
        omega
      refine @getTimBit_ne aid o (tailed m len c 0) (tailed m len c 0xff)
        ?_ ?_ ?_ ?_ ?_ (hsame _ _ (agree_tailed _ _ _ _) (agree_tailed _ _ _ _))
      · rw [hat _ _ _ hlen, hat _ _ _ hlen]
      · rw [hself, hself]
      · rwa [hat _ _ _ hlen, hself]
      · exact tailed_of_gt hbyte
      · exact tailed_of_gt hbyte

/-! ## The bit of the virtual bitmap -/

instance (aid : Nat) (timLen bitCntl : BitVec 8) : Decidable (OutOfMap aid timLen bitCntl) :=
  inferInstanceAs (Decidable (_ ∨ _))

/-- The bytes `GetTimBit` reads: length, count, period and control, and the one of the map. -/
def timReads (aid : Nat) (m : Mem) (o : Nat) : List Nat :=
  [o + 1, o + 2, o + 3, o + 4] ++
    if OutOfMap aid (m (o + 1)) (m (o + 4)) then [] else [mapByte aid m o]

/-- The number of the first byte of the bitmap that is in the element. -/
def firstByte (m : Mem) (o : Nat) : Nat := (m (o + 4) &&& 0xfe).toNat

/-- A bit of the traffic indication virtual bitmap. The bytes behind the control byte are those from
the first one on; all others are 0. -/
def virtualBit (aid : Nat) (m : Mem) (o : Nat) : Bool :=
  decide (firstByte m o ≤ aid / 8 ∧ aid / 8 < firstByte m o + ((m (o + 1)).toNat - 3)) &&
    (m (o + 5 + (aid / 8 - firstByte m o))).getLsbD (aid % 8)

/-- `GetTimBit` does what it is for: it keeps to the element, and finds the bit of the station. -/
structure TimRight (aid : Nat) (m : Mem) (o : Nat) : Prop where
  within : ∀ p ∈ timReads aid m o, p < Tlv.after m o
  bit : (getTimBit aid m o).MessageToMe = virtualBit aid m o

theorem firstByte_even (m : Mem) (o : Nat) : firstByte m o % 2 = 0 ∧ firstByte m o ≤ 254 := by
  have hall : ∀ c : BitVec 8, (c &&& 0xfe).toNat % 2 = 0 ∧ (c &&& 0xfe).toNat ≤ 254 := by decide
  exact hall (m (o + 4))

theorem outOfMap_iff : OutOfMap aid (m (o + 1)) (m (o + 4)) ↔
    aid < firstByte m o * 8 ∨ (((m (o + 1)).toNat + 252 + firstByte m o) % 256 + 1) * 8 ≤ aid :=
  Iff.rfl

theorem timReads_of_out (h : OutOfMap aid (m (o + 1)) (m (o + 4))) :
    (∀ p ∈ timReads aid m o, p < Tlv.after m o) ↔ 3 ≤ (m (o + 1)).toNat := by
  unfold timReads Tlv.after
  rw [if_pos h]
  simp
  omega

theorem timReads_of_in (h : ¬ OutOfMap aid (m (o + 1)) (m (o + 4))) :
    (∀ p ∈ timReads aid m o, p < Tlv.after m o) ↔
      3 ≤ (m (o + 1)).toNat ∧ mapByte aid m o < Tlv.after m o := by
  unfold timReads Tlv.after
  rw [if_neg h]
  simp
  omega

/-- In a map that does not start behind its end, the bit that is found is the bitmap's. -/
theorem timRight_of_unwrapped (hlen : 4 ≤ (m (o + 1)).toNat)
    (hwrap : firstByte m o + ((m (o + 1)).toNat - 4) < 256) : TimRight aid m o := by
  have heven := firstByte_even m o
  have hn2 : ((m (o + 1)).toNat + 252 + firstByte m o) % 256
      = firstByte m o + ((m (o + 1)).toNat - 4) := by omega
  by_cases hout : OutOfMap aid (m (o + 1)) (m (o + 4))
  · constructor
    · rw [timReads_of_out hout]
      omega
    · have hrange := outOfMap_iff.mp hout
      rw [hn2] at hrange
      have hnot : ¬ (firstByte m o ≤ aid / 8 ∧
          aid / 8 < firstByte m o + ((m (o + 1)).toNat - 3)) := by omega
      rw [messageToMe_of_out hout, virtualBit, decide_eq_false hnot, Bool.false_and]
  · have hrange := mt outOfMap_iff.mpr hout
    rw [hn2] at hrange
    have hin : firstByte m o ≤ aid / 8 ∧ aid / 8 < firstByte m o + ((m (o + 1)).toNat - 3) := by
      omega
    constructor
    · rw [timReads_of_in hout]
      refine ⟨by omega, ?_⟩
      show o + 5 + (aid / 8 - firstByte m o) < o + 2 + (m (o + 1)).toNat
      omega
    · have hbit : mapBit aid m o = aid % 8 := by
        show aid % 16 - (if (aid / 8 - firstByte m o) % 2 = 1 then 8 else 0) = aid % 8
        split <;> omega
      rw [messageToMe_of_in hout, hbit, virtualBit, decide_eq_true hin, Bool.true_and]
      rfl

/-- **When `GetTimBit` is right.** It reads the element alone and finds the bit of the association id
in the virtual bitmap exactly if the element has a map that ends by byte 255 of the bitmap, or whose
bit for the id is clear; or no map, and a first byte other than 0 or an id that no bitmap has. -/
theorem timRight_iff : TimRight aid m o ↔
    4 ≤ (m (o + 1)).toNat ∧ (firstByte m o + ((m (o + 1)).toNat - 4) < 256 ∨
        virtualBit aid m o = false) ∨
      (m (o + 1)).toNat = 3 ∧ (firstByte m o ≠ 0 ∨ 2048 ≤ aid) := by
  have heven := firstByte_even m o
  have hlen := (m (o + 1)).isLt
  by_cases hfour : 4 ≤ (m (o + 1)).toNat
  · by_cases hwrap : firstByte m o + ((m (o + 1)).toNat - 4) < 256
    · exact iff_of_true (timRight_of_unwrapped hfour hwrap) (Or.inl ⟨hfour, Or.inl hwrap⟩)
    -- the last byte comes before the first: every id is out of the map
    · have hout : OutOfMap aid (m (o + 1)) (m (o + 4)) := by
        rw [outOfMap_iff]
        omega
      constructor
      · intro h
        refine Or.inl ⟨hfour, Or.inr ?_⟩
        rw [← h.bit, messageToMe_of_out hout]
      · rintro (⟨-, hbit⟩ | ⟨hthree, -⟩)
        · refine ⟨(timReads_of_out hout).mpr (by omega), ?_⟩
          rw [messageToMe_of_out hout, hbit.resolve_left hwrap]
        · omega
  · by_cases hthree : (m (o + 1)).toNat = 3
    · have hbit : virtualBit aid m o = false := by
        rw [virtualBit, decide_eq_false (by omega), Bool.false_and]
      by_cases hout : OutOfMap aid (m (o + 1)) (m (o + 4))
      · refine iff_of_true ⟨(timReads_of_out hout).mpr (by omega), ?_⟩ (Or.inr ⟨hthree, ?_⟩)
        · rw [messageToMe_of_out hout, hbit]
        · rw [outOfMap_iff] at hout
          omega
      -- a map of all 256 bytes is taken to be there
      · have hall := mt outOfMap_iff.mpr hout
        refine iff_of_false (fun h => ?_) (by omega)
        have hread := ((timReads_of_in hout).mp h.within).2
        unfold mapByte Tlv.after at hread
        omega
    · refine iff_of_false (fun h => ?_) (by omega)
      have hcntl : o + 4 < Tlv.after m o := h.within (o + 4) (by simp [timReads])
      unfold Tlv.after at hcntl
      omega

/-- A TIM element without a map, and the ERP element behind it. -/
def bareTim : Mem := fun i => ([5, 3, 0, 1, 0, 42, 1, 4] : List (BitVec 8)).getD i 0

theorem bareTim_misread : ¬ TimRight 1 bareTim 0 := by
  intro h
  have hbit := h.bit
  revert hbit
  decide

end Tim

end ExtDrv.Rt3370.Sanity
