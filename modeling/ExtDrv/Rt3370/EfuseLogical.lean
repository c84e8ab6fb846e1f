import ExtDrv.Rt3370.EfuseBlocks

/-!
# The logical memory of the eFuse

What the eFuse is for: a memory of 64 blocks, each of them unmapped or with eight words.
A word that is written to a mapped block replaces the old one; a block that was unmapped is
there from then on, with zeros around the word. `eFuseWriteRegisters` does that to the
logical memory of the fuses as long as a free block is left, unless it would have to spoil
the entry of the last logical block.
-/

namespace ExtDrv.Rt3370.Efuse

/-! ## The abstract memory -/

/-- The words of the mapped blocks. -/
abbrev LogicalMem := Nat → Option (Nat → Half)

namespace LogicalMem

/-- The word with a number: 0xffff in an unmapped block. -/
def read (m : LogicalMem) (w : Nat) : Half :=
  match m (w / 8) with
  | none => 0xffff
  | some v => v (w % 8)

/-- The words of a block, zero in an unmapped one. -/
def words (m : LogicalMem) (lblk : Nat) : Nat → Half := (m lblk).getD fun _ => 0

def put (m : LogicalMem) (w : Nat) (d : Half) : LogicalMem :=
  Function.update m (w / 8) (some (Function.update (m.words (w / 8)) (w % 8) d))

/-- Some words one after the other. -/
def putAll (m : LogicalMem) (w : Nat) (d : Nat → Half) (n : Nat) : LogicalMem :=
  (List.range n).foldl (fun m j => m.put (w + j) (d j)) m

theorem putAll_succ (m : LogicalMem) (w : Nat) (d : Nat → Half) (n : Nat) :
    m.putAll w d (n + 1) = (m.putAll w d n).put (w + n) (d n) := by
  rw [putAll, List.range_succ, List.foldl_append]
  rfl

/-- A block with a word in the range holds the new words there, and its old ones elsewhere. -/
theorem putAll_apply (m : LogicalMem) (w : Nat) (d : Nat → Half) (n lblk : Nat) :
    m.putAll w d n lblk =
      if ∃ j, j < n ∧ (w + j) / 8 = lblk then
        some fun i => if i < 8 ∧ w ≤ 8 * lblk + i ∧ 8 * lblk + i < w + n
          then d (8 * lblk + i - w) else m.words lblk i
      else m lblk := by
  induction n with
  | zero =>
    rw [if_neg (by rintro ⟨j, hj, _⟩; exact Nat.not_lt_zero j hj)]
    rfl
  | succ n ih =>
    rw [putAll_succ, put]
    by_cases hlast : (w + n) / 8 = lblk
    · rw [hlast, Function.update_self, if_pos ⟨n, by omega, hlast⟩, words, ih]
      congr 1
      funext i
      by_cases hi : i = (w + n) % 8
      · rw [hi, Function.update_self, if_pos (by omega)]
        congr 1
        omega
      · rw [Function.update_of_ne hi]
        by_cases hany : ∃ j, j < n ∧ (w + j) / 8 = lblk
        · rw [if_pos hany, Option.getD_some]
          by_cases hin : i < 8 ∧ w ≤ 8 * lblk + i ∧ 8 * lblk + i < w + n
          · rw [if_pos hin, if_pos (by omega)]
          · rw [if_neg hin, if_neg (by omega)]
        · -- no word of the block was written before
          have hnot : ¬ (i < 8 ∧ w ≤ 8 * lblk + i ∧ 8 * lblk + i < w + (n + 1)) := by
            intro hin
            exact hany ⟨8 * lblk + i - w, by omega, by omega⟩
          rw [if_neg hany, if_neg hnot]
          rfl
    · rw [Function.update_of_ne (Ne.symm hlast), ih]
      have hiff : (∃ j, j < n + 1 ∧ (w + j) / 8 = lblk) ↔ ∃ j, j < n ∧ (w + j) / 8 = lblk := by
        constructor
        · rintro ⟨j, hj, hjl⟩
          refine ⟨j, ?_, hjl⟩
          by_contra hge
          rw [show j = n from by omega] at hjl
          exact hlast hjl
        · rintro ⟨j, hj, hjl⟩
          exact ⟨j, by omega, hjl⟩
      simp only [hiff]
      by_cases hany : ∃ j, j < n ∧ (w + j) / 8 = lblk
      · rw [if_pos hany, if_pos hany]
        congr 1
        funext i
        by_cases hin : i < 8 ∧ w ≤ 8 * lblk + i ∧ 8 * lblk + i < w + n
        · rw [if_pos hin, if_pos (by omega)]
        · rw [if_neg hin, if_neg (by omega)]
      · rw [if_neg hany, if_neg hany]

/-- **What was written** is read back. -/
theorem read_putAll (m : LogicalMem) (w : Nat) (d : Nat → Half) {n j : Nat} (hj : j < n) :
    (m.putAll w d n).read (w + j) = d j := by
  rw [read, putAll_apply, if_pos ⟨j, hj, rfl⟩]
  simp only
  rw [if_pos (by omega)]
  congr 1
  omega

/-- **The rest of the memory** is as it was, if the range takes in all of every unmapped
block it meets. -/
theorem read_putAll_of_notMem (m : LogicalMem) (w : Nat) (d : Nat → Half) {n w' : Nat}
    (hwhole : ∀ lblk, m lblk = none → (∃ j, j < n ∧ (w + j) / 8 = lblk) →
      w ≤ 8 * lblk ∧ 8 * lblk + 8 ≤ w + n)
    (hout : w' < w ∨ w + n ≤ w') : (m.putAll w d n).read w' = m.read w' := by
  rw [read, read, putAll_apply]
  by_cases hany : ∃ j, j < n ∧ (w + j) / 8 = w' / 8
  · rw [if_pos hany]
    cases hm : m (w' / 8) with
    | none =>
      have := hwhole _ hm hany
      omega
    | some v =>
      simp only [words, hm, Option.getD_some]
      rw [if_neg (by omega)]
  · rw [if_neg hany]

end LogicalMem

/-! ## The logical memory of the fuses -/

/-- **The invariant**: no logical block is in two places, and the free blocks are blank. -/
structure Sound (s : Otp) : Prop where
  unique : ∀ lblk, lblk < 64 → ∀ b b', Maps s lblk b → Maps s lblk b' → b = b'
  clean : ∀ b, b < 45 → mapByte s b = 0 → ∀ i, i < 8 → s (8 * b + i) = 0

def logical (chip : Chip) (s : Otp) : LogicalMem := fun lblk =>
  if lblk < 64 ∧ chip.aout s lblk ≠ 0x3f then
    some fun i => if i < 8 then s (8 * chip.aout s lblk + i) else 0
  else none

theorem Sound.aout {s : Otp} (hs : Sound s) (chip : Chip) {lblk b : Nat} (hl : lblk < 64)
    (h : Maps s lblk b) : chip.aout s lblk = b :=
  hs.unique lblk hl _ _ (chip.maps s lblk b h) h

theorem Sound.logical_of_maps {s : Otp} (hs : Sound s) (chip : Chip) {lblk b : Nat}
    (hl : lblk < 64) (h : Maps s lblk b) :
    logical chip s lblk = some fun i => if i < 8 then s (8 * b + i) else 0 := by
  have hb := h.1
  rw [logical, hs.aout chip hl h, if_pos ⟨hl, by omega⟩]

theorem logical_of_not_maps (chip : Chip) {s : Otp} {lblk : Nat} (h : ∀ b, ¬ Maps s lblk b) :
    logical chip s lblk = none := by
  rw [logical, chip.none s lblk h]
  simp

theorem aout_cases (chip : Chip) (s : Otp) (lblk : Nat) :
    Maps s lblk (chip.aout s lblk) ∨ (∀ b, ¬ Maps s lblk b) ∧ chip.aout s lblk = 0x3f := by
  by_cases h : ∃ b, Maps s lblk b
  · obtain ⟨b, hb⟩ := h
    exact .inl (chip.maps s lblk b hb)
  · have hnone : ∀ b, ¬ Maps s lblk b := fun b hb => h ⟨b, hb⟩
    exact .inr ⟨hnone, chip.none s lblk hnone⟩

/-- **A logical read** is a read of the logical memory. -/
theorem eFuseReadRegisters_eq (chip : Chip) (s : Otp) {offset : Nat} (h : offset % 2 = 0)
    (hlt : offset < 1024) :
    (eFuseReadRegisters chip s offset).2 = (logical chip s).read (offset / 2) := by
  have hain : ain offset = offset / 16 := by
    rw [ain]
    omega
  simp only [eFuseReadRegisters, LogicalMem.read, logical, hain,
    show offset / 2 / 8 = offset / 16 from by omega]
  by_cases hmap : chip.aout s (offset / 16) = 0x3f
  · rw [if_pos hmap, if_neg fun h => h.2 hmap]
  · rw [if_neg hmap, if_pos ⟨by omega, hmap⟩]
    simp only
    rw [pick_dataReg _ _ h, if_pos (by omega), show offset % 16 / 2 = offset / 2 % 8 from by omega]

/-! ## What a write leaves -/

/-- From `s` to `s'` a logical block got the words `v`, at a physical block `b`, and nothing
else happened to the logical memory. -/
structure Wrote (s s' : Otp) (lblk b : Nat) (v : Nat → Half) : Prop where
  sound : Sound s'
  maps : Maps s' lblk b
  words : ∀ i, i < 8 → s' (8 * b + i) = v i
  others : ∀ l, l < 64 → l ≠ lblk → ∀ b', Maps s' l b' ↔ Maps s l b'
  kept : ∀ l, l < 64 → l ≠ lblk → ∀ b', Maps s l b' → ∀ i, i < 8 → s' (8 * b' + i) = s (8 * b' + i)

theorem Wrote.logical {s s' : Otp} {lblk b : Nat} {v : Nat → Half} (h : Wrote s s' lblk b v)
    (hs : Sound s) (chip : Chip) (hl : lblk < 64) :
    logical chip s' =
      Function.update (logical chip s) lblk (some fun i => if i < 8 then v i else 0) := by
  funext l
  by_cases hll : l = lblk
  · rw [hll, Function.update_self, h.sound.logical_of_maps chip hl h.maps]
    congr 1
    funext i
    split
    · next hi => exact h.words i hi
    · rfl
  · rw [Function.update_of_ne hll]
    by_cases hlt : l < 64
    · rcases aout_cases chip s l with hmap | ⟨hnone, _⟩
      · rw [hs.logical_of_maps chip hlt hmap,
          h.sound.logical_of_maps chip hlt ((h.others l hlt hll _).mpr hmap)]
        congr 1
        funext i
        split
        · next hi => exact h.kept l hlt hll _ hmap i hi
        · rfl
      · rw [logical_of_not_maps chip hnone, logical_of_not_maps chip fun b' hb' =>
          hnone b' ((h.others l hlt hll b').mp hb')]
    · rw [Efuse.logical, Efuse.logical, if_neg (by omega), if_neg (by omega)]

/-! ## Fuses only grow -/

/-- No set bit is lost. -/
def Grows (s s' : Otp) : Prop := ∀ w, s w ||| s' w = s' w

theorem Grows.refl (s : Otp) : Grows s s := fun _ => BitVec.or_self

theorem Grows.trans {s s' s'' : Otp} (h : Grows s s') (h' : Grows s' s'') : Grows s s'' := by
  intro w
  rw [← h' w, ← BitVec.or_assoc, h w]

theorem grows_write (s : Otp) (offset : Nat) (d : Half) :
    Grows s (eFusePhysicalWriteRegisters s offset d) := by
  intro w
  rw [eFusePhysicalWriteRegisters, program]
  split
  · rw [← BitVec.or_assoc, BitVec.or_self]
  · exact BitVec.or_self

theorem grows_writeData (ok : Bool) (s : Otp) (blk offset : Nat) (buffer : Nat → Half)
    (d : Half) : Grows s (writeData ok s blk offset buffer d) := by
  have hfold : ∀ (l : List Nat) (s : Otp), Grows s (l.foldl
      (fun s i => eFusePhysicalWriteRegisters s (blk * 16 + 2 * i) (buffer i)) s) := by
    intro l
    induction l with
    | nil => exact Grows.refl
    | cons i l ih => exact fun s => (grows_write s _ _).trans (ih _)
  rw [writeData]
  split
  · exact grows_write s _ _
  · exact hfold _ s

theorem grows_writeEntry (s : Otp) (blk offset : Nat) : Grows s (writeEntry s blk offset) := by
  rw [writeEntry]
  split <;> exact grows_write s _ _

theorem grows_invalidate (s : Otp) (blk : Nat) : Grows s (invalidate s blk) := by
  rw [invalidate]
  split <;> exact grows_write s _ _

theorem grows_turn (ok : Bool) (s : Otp) (blk offset : Nat) (buffer : Nat → Half) (d : Half) :
    Grows s (turn ok s blk offset buffer d).1 := by
  have hentry := (grows_writeData ok s blk offset buffer d).trans (grows_writeEntry _ blk offset)
  simp only [turn]
  split
  · exact hentry
  · split
    · exact hentry
    · exact hentry.trans (grows_invalidate _ _)

theorem grows_writeBlock (s : Otp) (blk offset : Nat) (d : Half) :
    Grows s (writeBlock s blk offset d).2 := by
  have hturn := grows_turn true s blk offset
    (Function.update (readBlock s blk) (offset / 2 % 8) d) d
  rw [writeBlock]
  generalize turn true s blk offset (Function.update (readBlock s blk) (offset / 2 % 8) d) d = r
    at hturn ⊢
  obtain ⟨s1, t⟩ := r
  match t with
  | .done => exact hturn
  | .full => exact hturn
  | .retry f =>
    have hturn' := grows_turn false s1 f offset
      (Function.update (readBlock s blk) (offset / 2 % 8) d) d
    simp only
    generalize turn false s1 f offset (Function.update (readBlock s blk) (offset / 2 % 8) d) d = r'
      at hturn' ⊢
    obtain ⟨s2, t'⟩ := r'
    match t' with
    | .done => exact hturn.trans hturn'
    | .full => exact hturn.trans hturn'
    | .retry _ => exact hturn.trans hturn'

/-- **One-time programmable**: a write sets bits and clears none. -/
theorem grows_eFuseWriteRegisters (chip : Chip) (s : Otp) (offset : Nat) (d : Half) :
    Grows s (eFuseWriteRegisters chip s offset d).2 := by
  rw [eFuseWriteRegisters]
  split
  · split
    · exact Grows.refl s
    · exact grows_writeBlock s _ offset d
  · exact grows_writeBlock s _ offset d

/-- A block that is free in the end was free before. -/
theorem Grows.mapByte_zero {s s' : Otp} (h : Grows s s') {b : Nat} (hb : mapByte s' b = 0) :
    mapByte s b = 0 := by
  rw [mapByte_eq] at hb ⊢
  rw [← h, byteOf_or] at hb
  exact (BitVec.or_eq_zero_iff.mp hb).1

end ExtDrv.Rt3370.Efuse
