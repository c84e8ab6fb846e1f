import ExtDrv.Rt3370.Efuse

/-!
# Words and entries of the eFuse

What every step of `eFuseWriteRegisters` does to the words of the data blocks and to the
entries of the mapping table: these two views are all that the logical memory depends on.
-/

namespace ExtDrv.Rt3370.Efuse

/-! ## Single words -/

/-- Some bits of a word are programmed. -/
def burn (s : Otp) (w : Nat) (d : Half) : Otp := Function.update s w (s w ||| d)

@[simp] theorem burn_self (s : Otp) (w : Nat) (d : Half) : burn s w d w = s w ||| d :=
  Function.update_self ..

theorem burn_of_ne (s : Otp) {w w' : Nat} (d : Half) (h : w' ≠ w) : burn s w d w' = s w' :=
  Function.update_of_ne h ..

theorem halfOf_append (h l : Half) : halfOf (h ++ l) 0 = l ∧ halfOf (h ++ l) 1 = h := by
  constructor
  · apply BitVec.eq_of_toNat_eq
    have hl := l.isLt
    rw [halfOf, Nat.mul_zero, BitVec.ushiftRight_zero, BitVec.toNat_setWidth, BitVec.toNat_append,
      ← Nat.shiftLeft_add_eq_or_of_lt hl, Nat.shiftLeft_eq]
    omega
  · apply BitVec.eq_of_toNat_eq
    have hl := l.isLt
    have hh := h.isLt
    rw [halfOf, Nat.mul_one, BitVec.toNat_setWidth, BitVec.toNat_ushiftRight, BitVec.toNat_append,
      ← Nat.shiftLeft_add_eq_or_of_lt hl, Nat.shiftLeft_eq, Nat.shiftRight_eq_div_pow]
    omega

/-- A word of a register, by the parity of its number. -/
theorem halfOf_dataReg (s : Otp) (blk k i : Nat) (hi : i < 2) :
    halfOf (dataReg s blk k) i = s (8 * blk + 2 * k + i) := by
  obtain ⟨h0, h1⟩ := halfOf_append (s (8 * blk + 2 * k + 1)) (s (8 * blk + 2 * k))
  match i, hi with
  | 0, _ => exact h0
  | 1, _ => exact h1

theorem pick_eq_halfOf (d : BitVec 32) {offset : Nat} (h : offset % 2 = 0) :
    pick d offset = halfOf d (offset % 4 / 2) := by
  rw [pick, halfOf, show 8 * (offset % 4) = 16 * (offset % 4 / 2) from by omega]

theorem pick_dataReg (s : Otp) (blk : Nat) {offset : Nat} (h : offset % 2 = 0) :
    pick (dataReg s blk (offset % 16 / 4)) offset = s (8 * blk + offset % 16 / 2) := by
  rw [pick_eq_halfOf _ h, halfOf_dataReg _ _ _ _ (by omega)]
  congr 1
  omega

/-- **A physical read** of an address in the fuses. -/
theorem eFusePhysicalReadRegisters_eq (s : Otp) {offset : Nat} (h : offset % 2 = 0)
    (hlt : offset < 1024) : eFusePhysicalReadRegisters s offset = s (offset / 2) := by
  rw [eFusePhysicalReadRegisters, pick_dataReg s _ h, ain]
  congr 1
  omega

theorem getLsbD_halfOf (d : BitVec 32) (j : Nat) {i : Nat} (hi : i < 16) :
    (halfOf d j).getLsbD i = d.getLsbD (16 * j + i) := by
  rw [halfOf, BitVec.getLsbD_setWidth, BitVec.getLsbD_ushiftRight, decide_eq_true hi,
    Bool.true_and]

/-- The two masks, bit by bit. -/
theorem getLsbD_masks : ∀ i : Fin 32,
    (0xffff#32).getLsbD i = decide (i.val < 16) ∧
      (0xffff0000#32).getLsbD i = decide (16 ≤ i.val) := by
  decide

theorem halfOf_low (d : BitVec 32) (v : Half) :
    halfOf ((d &&& 0xffff0000#32) ||| v.setWidth 32) 0 = v ∧
      halfOf ((d &&& 0xffff0000#32) ||| v.setWidth 32) 1 = halfOf d 1 := by
  constructor
  · refine BitVec.eq_of_getLsbD_eq fun i hi => ?_
    have hm := (getLsbD_masks ⟨16 * 0 + i, by omega⟩).2
    simp only at hm
    rw [getLsbD_halfOf _ _ hi, BitVec.getLsbD_or, BitVec.getLsbD_and, hm, BitVec.getLsbD_setWidth,
      decide_eq_false (by omega), decide_eq_true (by omega)]
    simp
  · refine BitVec.eq_of_getLsbD_eq fun i hi => ?_
    have hm := (getLsbD_masks ⟨16 * 1 + i, by omega⟩).2
    simp only at hm
    rw [getLsbD_halfOf _ _ hi, getLsbD_halfOf _ _ hi, BitVec.getLsbD_or, BitVec.getLsbD_and, hm,
      BitVec.getLsbD_setWidth, BitVec.getLsbD_of_ge v _ (by omega), decide_eq_true (by omega)]
    simp

theorem halfOf_high (d : BitVec 32) (v : Half) :
    halfOf ((d &&& 0xffff#32) ||| (v.setWidth 32 <<< 16)) 0 = halfOf d 0 ∧
      halfOf ((d &&& 0xffff#32) ||| (v.setWidth 32 <<< 16)) 1 = v := by
  constructor
  · refine BitVec.eq_of_getLsbD_eq fun i hi => ?_
    have hm := (getLsbD_masks ⟨16 * 0 + i, by omega⟩).1
    simp only at hm
    rw [getLsbD_halfOf _ _ hi, getLsbD_halfOf _ _ hi, BitVec.getLsbD_or, BitVec.getLsbD_and, hm,
      BitVec.getLsbD_shiftLeft, decide_eq_true (by omega : 16 * 0 + i < 16)]
    simp
  · refine BitVec.eq_of_getLsbD_eq fun i hi => ?_
    have hm := (getLsbD_masks ⟨16 * 1 + i, by omega⟩).1
    simp only at hm
    rw [getLsbD_halfOf _ _ hi, BitVec.getLsbD_or, BitVec.getLsbD_and, hm,
      BitVec.getLsbD_shiftLeft, BitVec.getLsbD_setWidth,
      decide_eq_false (by omega : ¬ 16 * 1 + i < 16), decide_eq_true (by omega : 16 * 1 + i < 32),
      decide_eq_true (by omega), show 16 * 1 + i - 16 = i from by omega]
    simp

/-- **A physical write** programs one word. -/
theorem eFusePhysicalWriteRegisters_eq (s : Otp) {offset : Nat} (data : Half)
    (h : offset % 2 = 0) (hlt : offset < 1024) :
    eFusePhysicalWriteRegisters s offset data = burn s (offset / 2) data := by
  funext w
  have hain : ain offset = offset / 16 := by
    rw [ain]
    omega
  simp only [eFusePhysicalWriteRegisters, program, hain]
  by_cases hblk : w / 8 = offset / 16
  · rw [if_pos hblk]
    by_cases hreg : w % 8 / 2 = offset % 16 / 4
    · -- the register that is changed
      rw [hreg, Function.update_self]
      have hkeep : ∀ i, i < 2 → w % 2 = i →
          halfOf (dataReg s (offset / 16) (offset % 16 / 4)) i = s w := by
        intro i hi hw
        rw [halfOf_dataReg _ _ _ _ hi]
        congr 1
        omega
      rcases Nat.mod_two_eq_zero_or_one w with hw | hw
      · by_cases hodd : offset % 4 ≠ 0
        · rw [if_pos hodd, hw, (halfOf_high _ _).1, hkeep 0 (by decide) hw,
            burn_of_ne _ _ (by omega), BitVec.or_self]
        · rw [if_neg hodd, hw, (halfOf_low _ _).1, show w = offset / 2 from by omega, burn_self]
      · by_cases hodd : offset % 4 ≠ 0
        · rw [if_pos hodd, hw, (halfOf_high _ _).2, show w = offset / 2 from by omega, burn_self]
        · rw [if_neg hodd, hw, (halfOf_low _ _).2, hkeep 1 (by decide) hw,
            burn_of_ne _ _ (by omega), BitVec.or_self]
    · rw [Function.update_of_ne hreg, halfOf_dataReg _ _ _ _ (by omega),
        burn_of_ne _ _ (by omega), show 8 * (offset / 16) + 2 * (w % 8 / 2) + w % 2 = w from by omega,
        BitVec.or_self]
  · rw [if_neg hblk, burn_of_ne _ _ (by omega)]

theorem readBlock_eq (s : Otp) {blk i : Nat} (hblk : blk < 45) (hi : i < 8) :
    readBlock s blk i = s (8 * blk + i) := by
  rw [readBlock, eFusePhysicalReadRegisters_eq s (by omega) (by omega)]
  congr 1
  omega

/-! ## Entries -/

/-- One of the two bytes of a word. -/
def byteOf (odd : Bool) (w : Half) : BitVec 8 :=
  if odd then (w >>> 8).setWidth 8 else w.setWidth 8

/-- A byte at its place in a word. -/
def placed (odd : Bool) (e : BitVec 8) : Half :=
  if odd then e.setWidth 16 <<< 8 else e.setWidth 16

theorem byteOf_or (odd : Bool) (w v : Half) :
    byteOf odd (w ||| v) = byteOf odd w ||| byteOf odd v := by
  cases odd
  · simp only [byteOf, Bool.false_eq_true, if_false, BitVec.setWidth_or]
  · simp only [byteOf, if_true, BitVec.ushiftRight_or_distrib, BitVec.setWidth_or]

theorem byteOf_placed : ∀ (odd odd' : Bool) (e : BitVec 8),
    byteOf odd' (placed odd e) = if odd' = odd then e else 0 := by
  intro odd odd'
  cases odd <;> cases odd' <;> decide +kernel

theorem mapByte_eq (s : Otp) (blk : Nat) :
    mapByte s blk = byteOf (blk % 2 == 1) (s (360 + blk / 2)) := by
  rw [mapByte, show (usageMapStart + blk) / 2 = 360 + blk / 2 from by rw [usageMapStart]; omega]
  have hodd : (usageMapStart + blk) % 2 = blk % 2 := by
    rw [usageMapStart]
    omega
  rw [hodd, byteOf]
  rcases Nat.mod_two_eq_zero_or_one blk with h | h <;> simp [h]

/-- A byte that is programmed in the word of an entry changes that entry only. -/
theorem mapByte_burn_placed (s : Otp) (blk blk' : Nat) (e : BitVec 8) :
    mapByte (burn s (360 + blk / 2) (placed (blk % 2 == 1) e)) blk' =
      mapByte s blk' ||| if blk' = blk then e else 0 := by
  rw [mapByte_eq, mapByte_eq]
  by_cases hw : blk' / 2 = blk / 2
  · rw [hw, burn_self, byteOf_or, byteOf_placed]
    congr 1
    by_cases hb : blk' = blk
    · rw [hb, if_pos rfl, if_pos rfl]
    · have hpar : ¬ (blk' % 2 == 1) = (blk % 2 == 1) := by
        intro h
        have : blk' % 2 = blk % 2 := by
          rcases Nat.mod_two_eq_zero_or_one blk' with h' | h' <;>
            rcases Nat.mod_two_eq_zero_or_one blk with h'' | h'' <;>
            simp [h', h''] at h ⊢
        omega
      rw [if_neg hpar, if_neg hb]
  · rw [burn_of_ne _ _ (by omega), if_neg (by omega)]
    exact BitVec.or_zero.symm

/-- Words of the data blocks are not in the table. -/
theorem mapByte_burn_of_lt (s : Otp) {w : Nat} (d : Half) (blk : Nat) (hw : w < 360) :
    mapByte (burn s w d) blk = mapByte s blk := by
  rw [mapByte_eq, mapByte_eq, burn_of_ne _ _ (by omega)]

theorem mapEntry_eq {offset : Nat} (h : offset < 1024) :
    mapEntry offset = (entryOf (offset / 16)).setWidth 16 := by
  have hall : ∀ l : Fin 64, mapEntry (16 * l.val) = (entryOf l.val).setWidth 16 := by
    decide +kernel
  have hsame : mapEntry offset = mapEntry (16 * (offset / 16)) := by
    simp only [mapEntry]
    rw [show 16 * (offset / 16) / 16 = offset / 16 from by omega]
  rw [hsame]
  exact hall ⟨offset / 16, by omega⟩

/-- **Step 4** programs the entry of the block. -/
theorem writeEntry_eq (s : Otp) {blk offset : Nat} (hblk : blk < 45) (h : offset < 1024) :
    writeEntry s blk offset =
      burn s (360 + blk / 2) (placed (blk % 2 == 1) (entryOf (offset / 16))) := by
  have hodd : (usageMapStart + blk) % 2 = blk % 2 := by
    rw [usageMapStart]
    omega
  rw [writeEntry]
  simp only [hodd, mapEntry_eq h]
  rcases Nat.mod_two_eq_zero_or_one blk with hb | hb
  · rw [if_neg (by omega), eFusePhysicalWriteRegisters_eq _ _ (by rw [hodd, hb])
      (by rw [usageMapStart]; omega), hb]
    congr 1
    rw [usageMapStart]
    omega
  · rw [if_pos (by omega), eFusePhysicalWriteRegisters_eq _ _ (by rw [usageMapStart]; omega)
      (by rw [usageMapStart]; omega), hb]
    congr 1
    rw [usageMapStart]
    omega

/-! ## Spoiled entries -/

/-- The first bit of a byte that is not set, of `n` from `i` on. -/
def firstZero (e : BitVec 8) : (n i : Nat) → BitVec 8
  | 0, _ => 0
  | n + 1, i => if e.getLsbD i = true then firstZero e n (i + 1) else 1#8 <<< i

theorem shiftRight_and_one (w : Half) (i : Nat) : (w >>> i) &&& 1#16 = 0 ↔ w.getLsbD i = false := by
  constructor
  · intro h
    have h0 := congrArg (fun v => v.getLsbD 0) h
    simpa using h0
  · intro h
    refine BitVec.eq_of_getLsbD_eq fun j hj => ?_
    match j with
    | 0 => simpa using h
    | j + 1 =>
      rw [BitVec.getLsbD_and, BitVec.getLsbD_one]
      simp

theorem getLsbD_byteOf (odd : Bool) (w : Half) {i : Nat} (hi : i < 8) :
    (byteOf odd w).getLsbD i = w.getLsbD ((if odd then 8 else 0) + i) := by
  cases odd
  · rw [byteOf, if_neg (by decide), if_neg (by decide), BitVec.getLsbD_setWidth, decide_eq_true hi,
      Bool.true_and, Nat.zero_add]
  · rw [byteOf, if_pos rfl, if_pos rfl, BitVec.getLsbD_setWidth, BitVec.getLsbD_ushiftRight,
      decide_eq_true hi, Bool.true_and]

theorem placed_one (odd : Bool) {i : Nat} (hi : i < 8) :
    placed odd (1#8 <<< i) = 1#16 <<< ((if odd then 8 else 0) + i) := by
  have hall : ∀ (odd : Bool) (i : Fin 8),
      placed odd (1#8 <<< i.val) = 1#16 <<< ((if odd then 8 else 0) + i.val) := by
    decide
  exact hall odd ⟨i, hi⟩

theorem setFirstZero_eq (odd : Bool) (w : Half) (n i : Nat) (h : n + i ≤ 8) :
    setFirstZero w n ((if odd then 8 else 0) + i) =
      w ||| placed odd (firstZero (byteOf odd w) n i) := by
  induction n generalizing i with
  | zero =>
    rw [setFirstZero, firstZero]
    cases odd <;> simp [placed]
  | succ n ih =>
    rw [setFirstZero, firstZero]
    cases hbit : (byteOf odd w).getLsbD i with
    | false =>
      have hzero : w.getLsbD ((if odd then 8 else 0) + i) = false := by
        rw [← getLsbD_byteOf odd w (by omega), hbit]
      rw [if_pos ((shiftRight_and_one w _).mpr hzero), if_neg Bool.false_ne_true,
        placed_one odd (by omega)]
    | true =>
      have hone : w.getLsbD ((if odd then 8 else 0) + i) = true := by
        rw [← getLsbD_byteOf odd w (by omega), hbit]
      rw [if_neg (by rw [shiftRight_and_one, hone]; simp), if_pos rfl, Nat.add_assoc,
        ih (i + 1) (by omega)]

/-- The bit that step 6 sets in an entry. -/
def spoiler (blk : Nat) (e : BitVec 8) : BitVec 8 := firstZero e (if blk % 2 = 1 then 7 else 8) 0

/-- **Step 6** sets one bit of the entry of the block. -/
theorem invalidate_eq (s : Otp) {blk : Nat} (hblk : blk < 45) :
    invalidate s blk =
      burn s (360 + blk / 2) (placed (blk % 2 == 1) (spoiler blk (mapByte s blk))) := by
  have hodd : (usageMapStart + blk) % 2 = blk % 2 := by
    rw [usageMapStart]
    omega
  rw [invalidate, mapByte_eq, spoiler]
  simp only [hodd]
  rcases Nat.mod_two_eq_zero_or_one blk with hb | hb
  · have haddr : (usageMapStart + blk) / 2 = 360 + blk / 2 := by
      rw [usageMapStart]
      omega
    have hset := setFirstZero_eq false (s (360 + blk / 2)) 8 0 (by decide)
    simp only [Bool.false_eq_true, if_false, Nat.add_zero] at hset
    rw [if_neg (by omega), eFusePhysicalReadRegisters_eq _ (by rw [hodd, hb])
      (by rw [usageMapStart]; omega), eFusePhysicalWriteRegisters_eq _ _ (by rw [hodd, hb])
      (by rw [usageMapStart]; omega), haddr, hset, hb]
    simp only [burn]
    rw [← BitVec.or_assoc, BitVec.or_self]
    rfl
  · have haddr : (usageMapStart + blk - 1) / 2 = 360 + blk / 2 := by
      rw [usageMapStart]
      omega
    have heven : (usageMapStart + blk - 1) % 2 = 0 := by
      rw [usageMapStart]
      omega
    have hset := setFirstZero_eq true (s (360 + blk / 2)) 7 0 (by decide)
    simp only [if_true, Nat.add_zero] at hset
    rw [if_pos (by omega), eFusePhysicalReadRegisters_eq _ heven
      (by rw [usageMapStart]; omega), eFusePhysicalWriteRegisters_eq _ _ heven
      (by rw [usageMapStart]; omega), haddr, hset, hb]
    simp only [burn]
    rw [← BitVec.or_assoc, BitVec.or_self]
    rfl

/-- The low bits of an entry are the block number. -/
theorem entryOf_low {lblk : Nat} (h : lblk < 64) : (entryOf lblk &&& 0x3f).toNat = lblk := by
  have hall : ∀ l : Fin 64, (entryOf l.val &&& 0x3f).toNat = l.val := by decide +kernel
  exact hall ⟨lblk, h⟩

theorem entryOf_inj {lblk lblk' : Nat} (h : lblk < 64) (h' : lblk' < 64)
    (heq : entryOf lblk = entryOf lblk') : lblk = lblk' := by
  rw [← entryOf_low h, heq, entryOf_low h']

theorem entryOf_ne_zero {lblk : Nat} (h : lblk < 64) : entryOf lblk ≠ 0 := by
  intro hzero
  have hlow := entryOf_low h
  rw [hzero] at hlow
  -- the parity bits of the first block are set
  subst hlow
  exact absurd hzero (by decide +kernel)

/-- **No entry survives** it, but the one of the last logical block. -/
theorem spoiled_ne {lblk lblk' blk : Nat} (h : lblk < 63) (h' : lblk' < 64) :
    entryOf lblk ||| spoiler blk (entryOf lblk) ≠ entryOf lblk' := by
  -- an entry is fixed by its block number
  have hspoiled : ∀ (l : Fin 63) (n : Fin 2),
      entryOf l.val ||| firstZero (entryOf l.val) (if n.val = 1 then 7 else 8) 0 ≠
        entryOf ((entryOf l.val ||| firstZero (entryOf l.val) (if n.val = 1 then 7 else 8) 0) &&&
          0x3f).toNat := by
    decide +kernel
  intro heq
  refine hspoiled ⟨lblk, h⟩ ⟨blk % 2, by omega⟩ ?_
  simp only [spoiler] at heq
  simp only
  rw [heq, entryOf_low h']

/-! ## Free blocks -/

theorem and_ff (w : Half) : w &&& 0xff#16 = 0 ↔ w.setWidth 8 = (0 : BitVec 8) := by
  rw [← BitVec.toNat_inj, ← BitVec.toNat_inj, BitVec.toNat_and, BitVec.toNat_setWidth]
  exact Iff.of_eq (congrArg (· = 0) (Nat.and_two_pow_sub_one_eq_mod w.toNat 8))

/-- The two entries of a turn are those at the word it reads. -/
theorem findFree_succ (s : Otp) {n : Nat} (hn : n < 23) : findFree s (n + 1) =
    if mapByte s (2 * n + 1) = 0 ∧ n ≠ 22 then some (2 * n + 1)
    else if mapByte s (2 * n) = 0 then some (2 * n) else findFree s n := by
  have hend : endBlock = 720 := rfl
  have haddr : eFusePhysicalReadRegisters s (720 + 2 * n) = s (360 + n) := by
    rw [eFusePhysicalReadRegisters_eq s (by omega) (by omega)]
    congr 1
    omega
  have hhigh : ((s (360 + n)) >>> 8 &&& 0xff#16 = 0) ↔ mapByte s (2 * n + 1) = 0 := by
    rw [and_ff, mapByte_eq, show (2 * n + 1) / 2 = n from by omega,
      show (2 * n + 1) % 2 = 1 from by omega]
    rfl
  have hlow : ((s (360 + n)) &&& 0xff#16 = 0) ↔ mapByte s (2 * n) = 0 := by
    rw [and_ff, mapByte_eq, show (2 * n) / 2 = n from by omega,
      show (2 * n) % 2 = 0 from by omega]
    rfl
  rw [findFree]
  simp only [hend, haddr, hhigh, hlow, usageMapStart, usageMapEnd]
  rw [show 720 + 2 * n - 0x2d0 + 1 = 2 * n + 1 from by omega,
    show 720 + 2 * n - 0x2d0 = 2 * n from by omega]
  have hne : 720 + 2 * n ≠ 0x2d0 - 1 := by omega
  have hiff : 720 + 2 * n ≠ 0x2fc ↔ n ≠ 22 := by omega
  simp only [hne, hiff, ne_eq, not_false_eq_true, and_true]

theorem findFree_some {s : Otp} {n blk : Nat} (hn : n ≤ 23) (h : findFree s n = some blk) :
    blk < 45 ∧ mapByte s blk = 0 := by
  induction n with
  | zero => cases h
  | succ n ih =>
    rw [findFree_succ s (by omega)] at h
    split_ifs at h with hhigh hlow
    · obtain rfl := Option.some.inj h
      exact ⟨by omega, hhigh.1⟩
    · obtain rfl := Option.some.inj h
      exact ⟨by omega, hlow⟩
    · exact ih (by omega) h

theorem findFree_none {s : Otp} {n blk : Nat} (hn : n ≤ 23) (h : findFree s n = none)
    (hblk : blk < 2 * n) (hlt : blk < 45) : mapByte s blk ≠ 0 := by
  induction n with
  | zero => omega
  | succ n ih =>
    rw [findFree_succ s (by omega)] at h
    split_ifs at h with hhigh hlow
    by_cases hlast : blk = 2 * n + 1
    · rw [hlast]
      exact fun hzero => hhigh ⟨hzero, by omega⟩
    · by_cases heven : blk = 2 * n
      · rw [heven]
        exact hlow
      · exact ih (by omega) h (by omega)

/-- **The free block** that a write finds. -/
theorem freeBlock_some {s : Otp} {blk : Nat} (h : freeBlock s = some blk) :
    blk < 45 ∧ mapByte s blk = 0 :=
  findFree_some (by decide) h

/-- It finds one if there is one. -/
theorem freeBlock_none {s : Otp} (h : freeBlock s = none) {blk : Nat} (hblk : blk < 45) :
    mapByte s blk ≠ 0 :=
  findFree_none (by decide) h (show blk < 46 from by omega) hblk

end ExtDrv.Rt3370.Efuse
