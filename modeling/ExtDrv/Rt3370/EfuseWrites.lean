import ExtDrv.Lib.Run
import ExtDrv.Rt3370.EfuseLogical

/-!
# Writes to the eFuse

A word of `eFuseWriteRegisters` goes to its block in place, or with all of the block to a
free one. Both are a write to the logical memory, and so is a call of `eFuseWrite` and a run
of such calls.
-/

namespace ExtDrv.Rt3370.Efuse

/-! ## Programmed words and entries -/

/-- A word of a data block and the entry of that block are programmed: the end of step 4 in
the first turn. -/
def inPlace (s : Otp) (b w : Nat) (d : Half) (lblk : Nat) : Otp :=
  burn (burn s w d) (360 + b / 2) (placed (b % 2 == 1) (entryOf lblk))

theorem inPlace_apply {s : Otp} {b w : Nat} {d : Half} {lblk w' : Nat} (hw' : w' < 360) :
    inPlace s b w d lblk w' = if w' = w then s w ||| d else s w' := by
  rw [inPlace, burn_of_ne _ _ (by omega)]
  split
  · next h => rw [h, burn_self]
  · next h => exact burn_of_ne _ _ h

theorem mapByte_inPlace {s : Otp} {b w : Nat} {d : Half} {lblk b' : Nat} (hw : w < 360) :
    mapByte (inPlace s b w d lblk) b' = mapByte s b' ||| if b' = b then entryOf lblk else 0 := by
  rw [inPlace, mapByte_burn_placed, mapByte_burn_of_lt _ _ _ hw]

/-- The words of a block one after the other. -/
def burnBlock (s : Otp) (b : Nat) (v : Nat → Half) (n : Nat) : Otp :=
  (List.range n).foldl (fun s i => burn s (8 * b + i) (v i)) s

theorem burnBlock_apply (s : Otp) (b : Nat) (v : Nat → Half) (n w : Nat) :
    burnBlock s b v n w = if 8 * b ≤ w ∧ w < 8 * b + n then s w ||| v (w - 8 * b) else s w := by
  induction n with
  | zero =>
    rw [if_neg (by omega)]
    rfl
  | succ n ih =>
    have hsucc : burnBlock s b v (n + 1) = burn (burnBlock s b v n) (8 * b + n) (v n) := by
      rw [burnBlock, List.range_succ, List.foldl_append]
      rfl
    rw [hsucc]
    by_cases hw : w = 8 * b + n
    · rw [hw, burn_self, ← hw, ih, if_neg (by omega), if_pos (by omega),
        show w - 8 * b = n from by omega]
    · rw [burn_of_ne _ _ hw, ih]
      by_cases hin : 8 * b ≤ w ∧ w < 8 * b + n
      · rw [if_pos hin, if_pos (by omega)]
      · rw [if_neg hin, if_neg (by omega)]

theorem mapByte_burnBlock (s : Otp) {b : Nat} (v : Nat → Half) (hb : b < 45) (b' : Nat) :
    mapByte (burnBlock s b v 8) b' = mapByte s b' := by
  rw [mapByte_eq, mapByte_eq, burnBlock_apply, if_neg (by omega)]

theorem compare_iff {s : Otp} {b : Nat} {v : Nat → Half} (hb : b < 45) :
    compare s b v = true ↔ ∀ i, i < 8 → s (8 * b + i) = v i := by
  rw [compare, List.all_eq_true]
  constructor
  · intro h i hi
    rw [← readBlock_eq s hb hi]
    exact (beq_iff_eq.mp (h i (List.mem_range.mpr hi))).symm
  · intro h i hi
    have hlt := List.mem_range.mp hi
    rw [beq_iff_eq, readBlock_eq s hb hlt, h i hlt]

/-! ## The two turns -/

/-- Where a word goes: the block of the address holds it, or is free and to hold it. -/
structure Target (s : Otp) (b lblk : Nat) : Prop where
  lt : lblk < 64
  block : b < 45
  only : ∀ b', Maps s lblk b' → b' = b
  entry : mapByte s b = entryOf lblk ∨ mapByte s b = 0 ∧ ∀ i, i < 8 → s (8 * b + i) = 0

variable {s : Otp} {b offset : Nat} {d : Half}

theorem Target.entry_or (h : Target s b (offset / 16)) :
    mapByte s b ||| entryOf (offset / 16) = entryOf (offset / 16) := by
  rcases h.entry with he | ⟨he, _⟩
  · rw [he, BitVec.or_self]
  · rw [he]
    exact BitVec.zero_or

/-- No other logical block is there. -/
theorem Target.not_maps {lblk : Nat} (h : Target s b lblk) {l : Nat} (hl : l < 64)
    (hne : l ≠ lblk) : ¬ Maps s l b := by
  rintro ⟨_, hmap⟩
  rcases h.entry with he | ⟨he, _⟩
  · exact hne (entryOf_inj hl h.lt (hmap.symm.trans he))
  · exact entryOf_ne_zero hl (hmap.symm.trans he)

/-- The first turn, up to the comparison. -/
theorem firstTurn_eq (hb : b < 45) (heven : offset % 2 = 0) (hlt : offset < 1024)
    (buffer : Nat → Half) :
    writeEntry (writeData true s b offset buffer d) b offset =
      inPlace s b (8 * b + offset / 2 % 8) d (offset / 16) := by
  rw [writeEntry_eq _ hb hlt, writeData, if_pos rfl,
    eFusePhysicalWriteRegisters_eq _ _ (by omega) (by omega), inPlace,
    show (b * 16 + offset % 16) / 2 = 8 * b + offset / 2 % 8 from by omega]

/-- The second turn, up to the comparison. -/
theorem secondTurn_eq {s : Otp} {b : Nat} (hb : b < 45) (hlt : offset < 1024) (buffer : Nat → Half) :
    writeEntry (writeData false s b offset buffer d) b offset =
      burn (burnBlock s b buffer 8) (360 + b / 2)
        (placed (b % 2 == 1) (entryOf (offset / 16))) := by
  have hfold : ∀ n, n ≤ 8 → (List.range n).foldl
      (fun s i => eFusePhysicalWriteRegisters s (b * 16 + 2 * i) (buffer i)) s =
        burnBlock s b buffer n := by
    intro n hn
    induction n with
    | zero => rfl
    | succ n ih =>
      rw [burnBlock, List.range_succ, List.foldl_append, List.foldl_append, ih (by omega)]
      simp only [List.foldl_cons, List.foldl_nil]
      rw [eFusePhysicalWriteRegisters_eq _ _ (by omega) (by omega),
        show (b * 16 + 2 * n) / 2 = 8 * b + n from by omega]
      rfl
  rw [writeEntry_eq _ hb hlt, writeData, if_neg Bool.false_ne_true, hfold 8 (by decide)]

/-- The words that are to be in the block. -/
def newWords (s : Otp) (b offset : Nat) (d : Half) : Nat → Half :=
  Function.update (fun i => s (8 * b + i)) (offset / 2 % 8) d

/-- Fuses in which a logical block is in `b₀` alone, with the words `v`, and the others are where
they were. -/
theorem Wrote.of_maps {s s' : Otp} {lblk b₀ : Nat} {v : Nat → Half} (hs : Sound s)
    (hmap : Maps s' lblk b₀) (hself : ∀ b', Maps s' lblk b' → b' = b₀)
    (hmaps : ∀ l, l < 64 → l ≠ lblk → ∀ b', Maps s' l b' ↔ Maps s l b')
    (hclean : ∀ b', b' < 45 → mapByte s' b' = 0 → mapByte s b' = 0 ∧
      ∀ i, i < 8 → s' (8 * b' + i) = s (8 * b' + i))
    (hwords : ∀ i, i < 8 → s' (8 * b₀ + i) = v i)
    (hkept : ∀ l, l < 64 → l ≠ lblk → ∀ b', Maps s l b' → ∀ i, i < 8 →
      s' (8 * b' + i) = s (8 * b' + i)) : Wrote s s' lblk b₀ v := by
  refine ⟨⟨?_, ?_⟩, hmap, hwords, hmaps, hkept⟩
  · intro l hl b1 b2 h1 h2
    by_cases hl' : l = lblk
    · rw [hl'] at h1 h2
      rw [hself b1 h1, hself b2 h2]
    · exact hs.unique l hl b1 b2 ((hmaps l hl hl' b1).mp h1) ((hmaps l hl hl' b2).mp h2)
  · intro b' hb' hzero i hi
    obtain ⟨hblank, hsame⟩ := hclean b' hb' hzero
    rw [hsame i hi]
    exact hs.clean b' hb' hblank i hi

theorem or_zero_byte (e : BitVec 8) : e ||| (0 : BitVec 8) = e := BitVec.or_zero

/-- **In place**: the word can be programmed over the old one. -/
theorem Target.wrote_inPlace (h : Target s b (offset / 16)) (hs : Sound s)
    (hin : s (8 * b + offset / 2 % 8) ||| d = d) :
    Wrote s (inPlace s b (8 * b + offset / 2 % 8) d (offset / 16)) (offset / 16) b
      (newWords s b offset d) := by
  have hb := h.block
  have hentry : ∀ b', mapByte (inPlace s b (8 * b + offset / 2 % 8) d (offset / 16)) b' =
      if b' = b then entryOf (offset / 16) else mapByte s b' := by
    intro b'
    rw [mapByte_inPlace (by omega)]
    by_cases hbb : b' = b
    · rw [hbb, if_pos rfl, if_pos rfl, h.entry_or]
    · rw [if_neg hbb, if_neg hbb, or_zero_byte]
  have hother : ∀ b', b' < 45 → b' ≠ b → ∀ i, i < 8 →
      inPlace s b (8 * b + offset / 2 % 8) d (offset / 16) (8 * b' + i) = s (8 * b' + i) := by
    intro b' hb' hbb i hi
    rw [inPlace_apply (by omega), if_neg (by omega)]
  apply Wrote.of_maps hs
  case hmap => exact ⟨hb, by rw [hentry, if_pos rfl]⟩
  case hself =>
    rintro b' ⟨hb', heq⟩
    by_contra hbb
    rw [hentry, if_neg hbb] at heq
    exact hbb (h.only b' ⟨hb', heq⟩)
  case hmaps =>
    intro l hl hne b'
    rw [Maps, Maps, hentry]
    by_cases hbb : b' = b
    · rw [hbb, if_pos rfl]
      constructor
      · rintro ⟨_, heq⟩
        exact absurd (entryOf_inj h.lt hl heq).symm hne
      · intro hmap
        exact absurd hmap (h.not_maps hl hne)
    · rw [if_neg hbb]
  case hclean =>
    intro b' hb' hzero
    rw [hentry] at hzero
    split_ifs at hzero with hbb
    · exact absurd hzero (entryOf_ne_zero h.lt)
    · exact ⟨hzero, hother b' hb' hbb⟩
  case hwords =>
    intro i hi
    rw [inPlace_apply (by omega), newWords]
    by_cases hii : i = offset / 2 % 8
    · rw [hii, if_pos rfl, Function.update_self, hin]
    · rw [if_neg (by omega), Function.update_of_ne hii]
  case hkept =>
    intro l hl hne b' hmap
    apply hother b' hmap.1
    rintro rfl
    exact h.not_maps hl hne hmap

/-- **To another block**: from the fuses at the end of the first turn, the old entry is
spoiled, and the second turn writes all of the block and its entry. -/
def moved (s1 : Otp) (b f lblk : Nat) (v : Nat → Half) : Otp :=
  burn (burnBlock (burn s1 (360 + b / 2) (placed (b % 2 == 1) (spoiler b (entryOf lblk)))) f v 8)
    (360 + f / 2) (placed (f % 2 == 1) (entryOf lblk))

theorem moved_apply {s1 : Otp} {b f lblk : Nat} {v : Nat → Half} {w : Nat} (hw : w < 360) :
    moved s1 b f lblk v w =
      if 8 * f ≤ w ∧ w < 8 * f + 8 then s1 w ||| v (w - 8 * f) else s1 w := by
  rw [moved, burn_of_ne _ _ (by omega), burnBlock_apply]
  split <;> rw [burn_of_ne _ _ (by omega)]

theorem mapByte_moved {s1 : Otp} {b f lblk : Nat} {v : Nat → Half} (hf : f < 45) (b' : Nat) :
    mapByte (moved s1 b f lblk v) b' =
      (mapByte s1 b' ||| if b' = b then spoiler b (entryOf lblk) else 0) |||
        if b' = f then entryOf lblk else 0 := by
  rw [moved, mapByte_burn_placed, mapByte_burnBlock _ _ hf, mapByte_burn_placed]

/-- The entries behind the two turns, the second of which goes to a free block. -/
theorem Target.mapByte_moved (h : Target s b (offset / 16)) {f : Nat} (hf : f < 45) (hfb : f ≠ b)
    (hfs : mapByte s f = 0) (hmap : mapByte s b = entryOf (offset / 16)) (v : Nat → Half)
    (b' : Nat) :
    mapByte (moved (inPlace s b (8 * b + offset / 2 % 8) d (offset / 16)) b f (offset / 16) v) b' =
      if b' = f then entryOf (offset / 16)
      else if b' = b then entryOf (offset / 16) ||| spoiler b (entryOf (offset / 16))
      else mapByte s b' := by
  have hb := h.block
  rw [Efuse.mapByte_moved hf, mapByte_inPlace (by omega)]
  by_cases hbf : b' = f
  · rw [hbf, if_pos rfl, if_pos rfl, if_neg hfb, if_neg hfb, hfs]
    simp only [or_zero_byte]
    exact BitVec.zero_or
  · rw [if_neg hbf, if_neg hbf, or_zero_byte]
    by_cases hbb : b' = b
    · rw [hbb, if_pos rfl, if_pos rfl, if_pos rfl, hmap, BitVec.or_self]
    · rw [if_neg hbb, if_neg hbb, if_neg hbb, or_zero_byte, or_zero_byte]

/-- The words of the blocks that neither turn is about. -/
theorem moved_other {v : Nat → Half} {f b' i : Nat} (hb' : b' < 45) (hbf : b' ≠ f)
    (hbb : b' ≠ b) (hi : i < 8) :
    moved (inPlace s b (8 * b + offset / 2 % 8) d (offset / 16)) b f (offset / 16) v (8 * b' + i) =
      s (8 * b' + i) := by
  rw [moved_apply (by omega), if_neg (by omega), inPlace_apply (by omega), if_neg (by omega)]

theorem Target.wrote_moved (h : Target s b (offset / 16)) (hs : Sound s) {f : Nat} (hf : f < 45)
    (hmap : mapByte s b = entryOf (offset / 16)) (hlast : offset / 16 < 63)
    (hfree : mapByte (inPlace s b (8 * b + offset / 2 % 8) d (offset / 16)) f = 0) :
    Wrote s (moved (inPlace s b (8 * b + offset / 2 % 8) d (offset / 16)) b f (offset / 16)
      (newWords s b offset d)) (offset / 16) f (newWords s b offset d) := by
  have hb := h.block
  have hfb : f ≠ b := by
    rintro rfl
    rw [mapByte_inPlace (by omega), if_pos rfl, h.entry_or] at hfree
    exact entryOf_ne_zero h.lt hfree
  have hfs : mapByte s f = 0 := by
    rwa [mapByte_inPlace (by omega), if_neg hfb, or_zero_byte] at hfree
  have hentry := h.mapByte_moved (d := d) hf hfb hfs hmap (newWords s b offset d)
  apply Wrote.of_maps hs
  case hmap => exact ⟨hf, by rw [hentry, if_pos rfl]⟩
  case hself =>
    rintro b' ⟨hb', heq⟩
    by_contra hbf
    rw [hentry, if_neg hbf] at heq
    by_cases hbb : b' = b
    · rw [if_pos hbb] at heq
      exact spoiled_ne hlast h.lt heq
    · rw [if_neg hbb] at heq
      exact hbb (h.only b' ⟨hb', heq⟩)
  case hmaps =>
    intro l hl hne b'
    rw [Maps, Maps, hentry]
    by_cases hbf : b' = f
    · rw [if_pos hbf, hbf, hfs]
      constructor
      · rintro ⟨_, heq⟩
        exact absurd (entryOf_inj h.lt hl heq).symm hne
      · rintro ⟨_, heq⟩
        exact absurd heq.symm (entryOf_ne_zero hl)
    · rw [if_neg hbf]
      by_cases hbb : b' = b
      · rw [if_pos hbb, hbb, hmap]
        constructor
        · rintro ⟨_, heq⟩
          exact absurd heq (spoiled_ne hlast hl)
        · rintro ⟨_, heq⟩
          exact absurd (entryOf_inj h.lt hl heq).symm hne
      · rw [if_neg hbb]
  case hclean =>
    intro b' hb' hzero
    rw [hentry] at hzero
    split_ifs at hzero with hbf hbb
    · exact absurd hzero (entryOf_ne_zero h.lt)
    · exact absurd (BitVec.or_eq_zero_iff.mp hzero).1 (entryOf_ne_zero h.lt)
    · exact ⟨hzero, fun i hi => moved_other hb' hbf hbb hi⟩
  case hwords =>
    intro i hi
    rw [moved_apply (by omega), if_pos (by omega), inPlace_apply (by omega), if_neg (by omega),
      hs.clean f hf hfs i hi, show 8 * f + i - 8 * f = i from by omega]
    exact BitVec.zero_or
  case hkept =>
    intro l hl hne b' hm i hi
    have hbb : b' ≠ b := by
      rintro rfl
      exact h.not_maps hl hne hm
    have hbf : b' ≠ f := by
      rintro rfl
      exact entryOf_ne_zero hl (hm.2.symm.trans hfs)
    exact moved_other hm.1 hbf hbb hi

section Turn

variable {ok : Bool} {s s' : Otp} {b offset : Nat} {buffer : Nat → Half} {d : Half}

theorem turn_done (hs : writeEntry (writeData ok s b offset buffer d) b offset = s')
    (h : compare s' b buffer = true) : turn ok s b offset buffer d = (s', .done) := by
  rw [turn, hs, if_pos h]

theorem turn_full (hs : writeEntry (writeData ok s b offset buffer d) b offset = s')
    (h : ¬ compare s' b buffer = true) (hf : freeBlock s' = none) :
    turn ok s b offset buffer d = (s', .full) := by
  rw [turn, hs, if_neg h, hf]

theorem turn_retry {f : Nat} (hs : writeEntry (writeData ok s b offset buffer d) b offset = s')
    (h : ¬ compare s' b buffer = true) (hf : freeBlock s' = some f) :
    turn ok s b offset buffer d = (invalidate s' b, .retry f) := by
  rw [turn, hs, if_neg h, hf]

end Turn

/-- The buffer of the block has the words that are to be there. -/
theorem buffer_eq_newWords (hb : b < 45) {i : Nat} (hi : i < 8) :
    Function.update (readBlock s b) (offset / 2 % 8) d i = newWords s b offset d i := by
  by_cases hii : i = offset / 2 % 8
  · rw [hii, newWords, Function.update_self, Function.update_self]
  · rw [newWords, Function.update_of_ne hii, Function.update_of_ne hii, readBlock_eq s hb hi]

/-- Behind the first turn the comparison succeeds where the word could be programmed in place. -/
theorem Target.compare_inPlace_iff (h : Target s b (offset / 16)) (hs : Sound s)
    {buffer : Nat → Half} (hbuffer : ∀ i, i < 8 → buffer i = newWords s b offset d i) :
    compare (inPlace s b (8 * b + offset / 2 % 8) d (offset / 16)) b buffer = true ↔
      s (8 * b + offset / 2 % 8) ||| d = d := by
  have hb := h.block
  rw [compare_iff hb]
  constructor
  · intro hall
    have hi := hall (offset / 2 % 8) (by omega)
    rwa [inPlace_apply (by omega), if_pos rfl, hbuffer _ (by omega), newWords,
      Function.update_self] at hi
  · intro hin i hi
    rw [hbuffer i hi]
    exact (h.wrote_inPlace hs hin).words i hi

/-- The second turn succeeds. -/
theorem Target.second_turn (h : Target s b (offset / 16)) (hs : Sound s) (hlt : offset < 1024)
    {buffer : Nat → Half} (hbuffer : ∀ i, i < 8 → buffer i = newWords s b offset d i) {f : Nat}
    (hf : f < 45) (hmap : mapByte s b = entryOf (offset / 16)) (hlast : offset / 16 < 63)
    (hfree : mapByte (inPlace s b (8 * b + offset / 2 % 8) d (offset / 16)) f = 0) :
    turn false (invalidate (inPlace s b (8 * b + offset / 2 % 8) d (offset / 16)) b) f offset
        buffer d =
      (moved (inPlace s b (8 * b + offset / 2 % 8) d (offset / 16)) b f (offset / 16)
        (newWords s b offset d), .done) := by
  have hb := h.block
  have hinv : invalidate (inPlace s b (8 * b + offset / 2 % 8) d (offset / 16)) b =
      burn (inPlace s b (8 * b + offset / 2 % 8) d (offset / 16)) (360 + b / 2)
        (placed (b % 2 == 1) (spoiler b (entryOf (offset / 16)))) := by
    rw [invalidate_eq _ hb, mapByte_inPlace (by omega), if_pos rfl, h.entry_or]
  have hblock : ∀ s', burnBlock s' f buffer 8 = burnBlock s' f (newWords s b offset d) 8 := by
    intro s'
    funext w
    rw [burnBlock_apply, burnBlock_apply]
    split
    · rw [hbuffer _ (by omega)]
    · rfl
  rw [turn, secondTurn_eq hf hlt, hinv, hblock]
  apply if_pos
  rw [compare_iff hf]
  intro i hi
  rw [hbuffer i hi]
  exact (h.wrote_moved (d := d) hs hf hmap hlast hfree).words i hi

/-- **A word to its block**, in place or not: nothing else happens, as long as the fuses have a
free block afterwards and the entry of the last logical block has not to be spoiled. -/
theorem Target.writeBlock (h : Target s b (offset / 16)) (hs : Sound s)
    (heven : offset % 2 = 0) (hlt : offset < 1024)
    (hfree : ∃ f, f < 45 ∧ mapByte (Efuse.writeBlock s b offset d).2 f = 0)
    (hlast : offset / 16 = 63 → s (8 * b + offset / 2 % 8) ||| d = d) :
    (Efuse.writeBlock s b offset d).1 = true ∧
      ∃ b', Wrote s (Efuse.writeBlock s b offset d).2 (offset / 16) b' (newWords s b offset d) := by
  have hb := h.block
  have hbuffer : ∀ i, i < 8 → Function.update (readBlock s b) (offset / 2 % 8) d i =
      newWords s b offset d i := fun i hi => buffer_eq_newWords hb hi
  generalize hbuf : Function.update (readBlock s b) (offset / 2 % 8) d = buffer at hbuffer
  have hfirst := firstTurn_eq (s := s) (d := d) hb heven hlt buffer
  have hcmp := h.compare_inPlace_iff hs hbuffer
  by_cases hin : s (8 * b + offset / 2 % 8) ||| d = d
  · -- the comparison succeeds
    have hwrite : Efuse.writeBlock s b offset d =
        (true, inPlace s b (8 * b + offset / 2 % 8) d (offset / 16)) := by
      rw [Efuse.writeBlock, hbuf, turn_done hfirst (hcmp.mpr hin)]
    rw [hwrite]
    exact ⟨rfl, b, h.wrote_inPlace hs hin⟩
  · have hmap : mapByte s b = entryOf (offset / 16) := by
      rcases h.entry with he | ⟨_, hblank⟩
      · exact he
      · refine absurd ?_ hin
        rw [hblank _ (by omega)]
        exact BitVec.zero_or
    have hlast' : offset / 16 < 63 := by
      have := h.lt
      by_contra hge
      exact hin (hlast (by omega))
    cases hf : freeBlock (inPlace s b (8 * b + offset / 2 % 8) d (offset / 16)) with
    | none =>
      -- then no block is free in the end either
      have hwrite : Efuse.writeBlock s b offset d =
          (false, inPlace s b (8 * b + offset / 2 % 8) d (offset / 16)) := by
        rw [Efuse.writeBlock, hbuf, turn_full hfirst (fun hc => hin (hcmp.mp hc)) hf]
      obtain ⟨f, hf45, hzero⟩ := hfree
      rw [hwrite] at hzero
      exact absurd hzero (freeBlock_none hf hf45)
    | some f =>
      obtain ⟨hf45, hzero⟩ := freeBlock_some hf
      have hwrite : Efuse.writeBlock s b offset d =
          (true, moved (inPlace s b (8 * b + offset / 2 % 8) d (offset / 16)) b f
            (offset / 16) (newWords s b offset d)) := by
        rw [Efuse.writeBlock, hbuf, turn_retry hfirst (fun hc => hin (hcmp.mp hc)) hf]
        simp only
        rw [h.second_turn hs hlt hbuffer hf45 hmap hlast' hzero]
      rw [hwrite]
      exact ⟨rfl, f, h.wrote_moved hs hf45 hmap hlast' hzero⟩

/-! ## A word -/

/-- Some block of the fuses is free. -/
def FreeLeft (s : Otp) : Prop := ∃ b, b < 45 ∧ mapByte s b = 0

instance (s : Otp) : Decidable (FreeLeft s) :=
  decidable_of_iff (∃ b ∈ List.range 45, mapByte s b = 0) (by simp [FreeLeft])

theorem Grows.freeLeft {s s' : Otp} (h : Grows s s') (hf : FreeLeft s') : FreeLeft s := by
  obtain ⟨b, hb, hzero⟩ := hf
  exact ⟨b, hb, h.mapByte_zero hzero⟩

/-- What a write leaves is a write to the logical memory. -/
theorem Wrote.logical_put {s' : Otp} {b' : Nat}
    (h : Wrote s s' (offset / 16) b' (newWords s b offset d))
    (hs : Sound s) (chip : Chip) (hlt : offset < 1024)
    (hwords : ∀ i, i < 8 → (Efuse.logical chip s).words (offset / 16) i = s (8 * b + i))
    (hout : ∀ i, 8 ≤ i → (Efuse.logical chip s).words (offset / 16) i = 0) :
    Efuse.logical chip s' = (Efuse.logical chip s).put (offset / 2) d := by
  rw [h.logical hs chip (by omega), LogicalMem.put, show offset / 2 / 8 = offset / 16 from by omega]
  congr 2
  funext i
  by_cases hi : i < 8
  · rw [if_pos hi, newWords]
    by_cases hii : i = offset / 2 % 8
    · rw [hii, Function.update_self, Function.update_self]
    · rw [Function.update_of_ne hii, Function.update_of_ne hii, hwords i hi]
  · rw [if_neg hi, Function.update_of_ne (by omega), hout i (by omega)]

/-- **A word of `eFuseWriteRegisters`** is a write to the logical memory. -/
theorem eFuseWriteRegisters_spec (chip : Chip) (hs : Sound s) (heven : offset % 2 = 0)
    (hlt : offset < 1024) (hfree : FreeLeft (eFuseWriteRegisters chip s offset d).2)
    (hlast : offset / 16 = 63 → ∀ v, logical chip s 63 = some v → v (offset / 2 % 8) ||| d = d) :
    (eFuseWriteRegisters chip s offset d).1 = true ∧
      Sound (eFuseWriteRegisters chip s offset d).2 ∧
      logical chip (eFuseWriteRegisters chip s offset d).2 =
        (logical chip s).put (offset / 2) d := by
  have hain : ain offset = offset / 16 := by
    rw [ain]
    omega
  have hl : offset / 16 < 64 := by omega
  have haout : (eFuseReadRegisters chip s (offset - offset % 2)).1 = chip.aout s (offset / 16) := by
    simp only [eFuseReadRegisters, heven, Nat.sub_zero, hain]
    split <;> rfl
  rcases aout_cases chip s (offset / 16) with hmap | ⟨hnone, hno⟩
  · -- the block is mapped
    generalize chip.aout s (offset / 16) = b at hmap haout
    have hb := hmap.1
    have htarget : Target s b (offset / 16) :=
      ⟨hl, hb, fun b' hb' => hs.unique _ hl _ _ hb' hmap, .inl hmap.2⟩
    have hlog := hs.logical_of_maps chip hl hmap
    have hrun : eFuseWriteRegisters chip s offset d = writeBlock s b offset d := by
      rw [eFuseWriteRegisters, haout, if_neg (by omega)]
    rw [hrun] at hfree ⊢
    obtain ⟨hok, b', hwrote⟩ := htarget.writeBlock hs heven hlt hfree (by
      intro h63
      have hv := hlast h63 _ (h63 ▸ hlog)
      rwa [if_pos (by omega)] at hv)
    refine ⟨hok, hwrote.sound, hwrote.logical_put hs chip hlt ?_ ?_⟩
    · intro i hi
      rw [LogicalMem.words, hlog, Option.getD_some, if_pos hi]
    · intro i hi
      rw [LogicalMem.words, hlog, Option.getD_some, if_neg (by omega)]
  · -- it is not, and goes to a free block
    rw [hno] at haout
    have hlog := logical_of_not_maps chip hnone
    cases hf : freeBlock s with
    | none =>
      rw [eFuseWriteRegisters, haout, if_pos rfl, hf] at hfree
      obtain ⟨b, hb, hzero⟩ := hfree
      exact absurd hzero (freeBlock_none hf hb)
    | some b =>
      obtain ⟨hb, hzero⟩ := freeBlock_some hf
      have hblank := hs.clean b hb hzero
      have htarget : Target s b (offset / 16) :=
        ⟨hl, hb, fun b' hb' => absurd hb' (hnone b'), .inr ⟨hzero, hblank⟩⟩
      have hrun : eFuseWriteRegisters chip s offset d = writeBlock s b offset d := by
        rw [eFuseWriteRegisters, haout, if_pos rfl, hf]
      rw [hrun] at hfree ⊢
      obtain ⟨hok, b', hwrote⟩ := htarget.writeBlock hs heven hlt hfree (by
        intro _
        rw [hblank _ (by omega)]
        exact BitVec.zero_or)
      refine ⟨hok, hwrote.sound, hwrote.logical_put hs chip hlt ?_ ?_⟩
      · intro i hi
        rw [LogicalMem.words, hlog, hblank i hi]
        rfl
      · intro i _
        rw [LogicalMem.words, hlog]
        rfl

/-! ## A call -/

theorem writeWords_succ (chip : Chip) (s : Otp) (offset : Nat) (v : Nat → Half) (n : Nat) :
    writeWords chip s offset v (n + 1) =
      (eFuseWriteRegisters chip (writeWords chip s offset v n) ((offset + 2 * n) % 2 ^ 16)
        (v n)).2 := by
  rw [writeWords, List.range_succ, List.foldl_append]
  rfl

/-- **Some words** are as many writes to the logical memory. -/
theorem writeWords_spec (chip : Chip) (hs : Sound s) (heven : offset % 2 = 0) {v : Nat → Half}
    {n : Nat} (hin : offset + 2 * n ≤ 1024) (hfree : FreeLeft (writeWords chip s offset v n))
    (hlast : ∀ u, logical chip s 63 = some u →
      ∀ j, j < n → (offset / 2 + j) / 8 = 63 → u ((offset / 2 + j) % 8) ||| v j = v j) :
    Sound (writeWords chip s offset v n) ∧
      logical chip (writeWords chip s offset v n) =
        (logical chip s).putAll (offset / 2) v n := by
  induction n with
  | zero => exact ⟨hs, rfl⟩
  | succ n ih =>
    rw [writeWords_succ, Nat.mod_eq_of_lt (by omega)] at hfree ⊢
    obtain ⟨hsound, hlog⟩ := ih (by omega) ((grows_eFuseWriteRegisters _ _ _ _).freeLeft hfree)
      fun u hu j hj => hlast u hu j (by omega)
    have hhalf : (offset + 2 * n) / 2 = offset / 2 + n := by omega
    obtain ⟨_, hsound', hlog'⟩ := eFuseWriteRegisters_spec chip hsound (by omega) (by omega) hfree (by
      intro h63 u hu
      rw [hlog, LogicalMem.putAll_apply] at hu
      rw [hhalf]
      -- the word itself was not written before
      split at hu
      · obtain rfl := Option.some.inj hu
        simp only
        rw [if_neg (by omega), LogicalMem.words]
        cases hm : logical chip s 63 with
        | none => exact BitVec.zero_or
        | some u => exact hlast u hm n (by omega) (by omega)
      · exact hlast u hu n (by omega) (by omega))
    refine ⟨hsound', ?_⟩
    rw [hlog', hlog, hhalf, LogicalMem.putAll_succ]

/-- A call of `eFuseWrite`: its arguments, and what the allocator returns. -/
structure Call where
  oddWriteByteBuf : Option (Nat → Half)
  offset : Nat
  pData : Nat → Half
  length : Nat

def Call.run (chip : Chip) (s : Otp) (c : Call) : Bool × Otp :=
  eFuseWrite chip c.oddWriteByteBuf s c.offset c.pData c.length

def Call.step (chip : Chip) (s : Otp) (c : Call) : Otp := (c.run chip s).2

/-- The condition on a call: whole words in the 1024 bytes of the logical memory, with all of
every unmapped block they meet, and no bit to be cleared in the last block if it is mapped. -/
structure Call.Meets (chip : Chip) (s : Otp) (c : Call) : Prop where
  word : c.offset % 2 = 0
  even : c.length % 2 = 0
  within : c.offset + c.length ≤ 1024
  whole : ∀ lblk, logical chip s lblk = none →
    (∃ j, j < c.length / 2 ∧ (c.offset / 2 + j) / 8 = lblk) →
      c.offset ≤ 16 * lblk ∧ 16 * lblk + 16 ≤ c.offset + c.length
  last : ∀ v, logical chip s 63 = some v →
    ∀ j, j < c.length / 2 → (c.offset / 2 + j) / 8 = 63 →
      v ((c.offset / 2 + j) % 8) ||| c.pData j = c.pData j

/-- What a call is to do, from the fuses `s`: with TRUE the bytes are there and the others are
as they were, with FALSE all of them are, and no logical block has two entries. -/
structure Call.Correct (chip : Chip) (s : Otp) (c : Call) : Prop where
  written : (c.run chip s).1 = true →
    eFuseRead chip (c.run chip s).2 c.offset c.length =
      (List.range ((c.length + 1) / 2)).map c.pData
  elsewhere : (c.run chip s).1 = true → ∀ a, a % 2 = 0 → a < 1024 →
    a < c.offset ∨ c.offset + c.length ≤ a →
      (eFuseReadRegisters chip (c.run chip s).2 a).2 = (eFuseReadRegisters chip s a).2
  failed : (c.run chip s).1 = false → ∀ a, a % 2 = 0 → a < 1024 →
    (eFuseReadRegisters chip (c.run chip s).2 a).2 = (eFuseReadRegisters chip s a).2
  unique : ∀ lblk, lblk < 64 → ∀ b b', Maps (c.run chip s).2 lblk b → Maps (c.run chip s).2 lblk b' →
    b = b'

/-- **A call that meets the condition** does what it is to do. -/
theorem Call.Meets.correct {chip : Chip} {c : Call} (h : c.Meets chip s) (hs : Sound s)
    (hfree : FreeLeft (c.run chip s).2) : c.Correct chip s ∧ Sound (c.run chip s).2 := by
  cases hbuf : c.oddWriteByteBuf with
  | none =>
    have hrun : c.run chip s = (false, s) := by
      simp only [Call.run, eFuseWrite, hbuf]
    refine ⟨⟨?_, ?_, ?_, ?_⟩, ?_⟩ <;> rw [hrun]
    · exact fun h => absurd h Bool.false_ne_true
    · exact fun h => absurd h Bool.false_ne_true
    · exact fun _ _ _ _ => rfl
    · exact hs.unique
    · exact hs
  | some buf =>
    have hword := h.word
    have heven := h.even
    have hwithin := h.within
    have hrun : c.run chip s = (true, writeWords chip s c.offset c.pData (c.length / 2)) := by
      simp only [Call.run, eFuseWrite, hbuf]
      rw [if_neg (by omega), show (c.length + 1) / 2 = c.length / 2 from by omega]
    rw [hrun] at hfree
    obtain ⟨hsound, hlog⟩ := writeWords_spec chip hs hword (by omega) hfree h.last
    refine ⟨⟨?_, ?_, ?_, ?_⟩, ?_⟩ <;> rw [hrun]
    · intro _
      rw [eFuseRead]
      refine List.map_congr_left fun j hj => ?_
      have hlt := List.mem_range.mp hj
      rw [eFuseReadRegisters_eq chip _ (by omega) (by omega), hlog,
        show (c.offset + 2 * j) / 2 = c.offset / 2 + j from by omega]
      exact LogicalMem.read_putAll _ _ _ (by omega)
    · intro _ a ha hlt hout
      rw [eFuseReadRegisters_eq chip _ ha hlt, eFuseReadRegisters_eq chip _ ha hlt, hlog]
      refine LogicalMem.read_putAll_of_notMem _ _ _ ?_ (by omega)
      intro lblk hnone hany
      have := h.whole lblk hnone hany
      omega
    · exact fun h => absurd h.symm Bool.false_ne_true
    · exact hsound.unique
    · exact hsound

/-! ## Runs -/

open Run in
/-- **Runs of `eFuseWrite`**: every call does what it is to do, in a run whose calls meet the
condition and leave a free block. -/
theorem eFuseWrite_runs (chip : Chip) (s : Otp) (hs : Sound s) (calls : List Call)
    (hmeets : Along (Call.step chip)
      (fun s c => c.Meets chip s ∧ FreeLeft (c.step chip s)) s calls) :
    Along (Call.step chip) (fun s c => c.Correct chip s) s calls := by
  induction calls generalizing s with
  | nil => trivial
  | cons c calls ih =>
    obtain ⟨⟨hmeet, hfree⟩, hrest⟩ := hmeets
    obtain ⟨hcorrect, hsound⟩ := hmeet.correct hs hfree
    exact ⟨hcorrect, ih _ hsound hrest⟩

/-- A chip that answers with the first block that fits. -/
def Chip.first : Chip where
  aout s lblk := ((List.range 45).find? fun b => decide (Maps s lblk b)).getD 0x3f
  maps s lblk b hmap := by
    cases hfind : (List.range 45).find? fun b => decide (Maps s lblk b) with
    | none =>
      have := List.find?_eq_none.mp hfind b (List.mem_range.mpr hmap.1)
      exact absurd hmap (by simpa using this)
    | some f => simpa using List.find?_some hfind
  none s lblk hnone := by
    have hfind : (List.range 45).find? (fun b => decide (Maps s lblk b)) = .none :=
      List.find?_eq_none.mpr fun b _ => by simpa using hnone b
    rw [hfind]
    rfl

/-- Fuses with logical block 0 in block 44, all zero. -/
def oneMapped : Otp := fun w => if w = 382 then 0x00c0 else 0

/-- A word is written in its place; then one that lacks some of its bits, and the block moves. -/
theorem eFuseWrite_runs_oneMapped :
    Run.Along (Call.step .first) (fun s c => c.Correct .first s) oneMapped
      [⟨some fun _ => 0, 2, fun _ => 0x1234, 2⟩, ⟨some fun _ => 0, 2, fun _ => 0x4321, 2⟩] := by
  have hentry : ∀ b : Fin 45, mapByte oneMapped b.val = if b.val = 44 then entryOf 0 else 0 := by
    decide
  have hentry' : ∀ b, b < 45 → mapByte oneMapped b = if b = 44 then entryOf 0 else 0 :=
    fun b hb => hentry ⟨b, hb⟩
  have hmeets {s : Otp} (w : Half) (hmap : logical .first s 0 ≠ none) :
      Call.Meets .first s ⟨some fun _ => 0, 2, fun _ => w, 2⟩ := by
    refine ⟨(by decide : 2 % 2 = 0), (by decide : 2 % 2 = 0), (by decide : 2 + 2 ≤ 1024), ?_, ?_⟩
    · rintro l hnone ⟨j, hj, hl⟩
      simp only at hj hl
      have hl0 : l = 0 := by omega
      rw [hl0] at hnone
      exact absurd hnone hmap
    · intro v _ j hj h63
      simp only at hj h63
      omega
  refine eFuseWrite_runs .first oneMapped ⟨?_, ?_⟩ _ ⟨⟨hmeets _ (by decide +kernel), ?_⟩,
    ⟨hmeets _ (by decide +kernel), ?_⟩, trivial⟩
  · rintro l hl b b' ⟨hb, hmap⟩ ⟨hb', hmap'⟩
    rw [hentry' b hb] at hmap
    rw [hentry' b' hb'] at hmap'
    split_ifs at hmap hmap' with h h'
    · exact h.trans h'.symm
    · exact absurd hmap'.symm (entryOf_ne_zero hl)
    · exact absurd hmap.symm (entryOf_ne_zero hl)
    · exact absurd hmap.symm (entryOf_ne_zero hl)
  · intro b hb _ i hi
    rw [oneMapped, if_neg (by omega)]
  · decide +kernel
  · decide +kernel

/-- The first word that is written to blank fuses: the next one read 0xffff, and reads zero
then. -/
theorem eFuseWrite_blank :
    Sound (fun _ => 0) ∧
      FreeLeft (Call.run .first (fun _ => 0) ⟨some fun _ => 0, 0, fun _ => 0x1234, 2⟩).2 ∧
      ¬ Call.Correct .first (fun _ => 0) ⟨some fun _ => 0, 0, fun _ => 0x1234, 2⟩ := by
  have hzero : ∀ b : Fin 45, mapByte (fun _ => 0) b.val = 0 := by decide
  refine ⟨⟨?_, fun _ _ _ _ _ => rfl⟩, by decide +kernel, fun h => ?_⟩
  · rintro l hl b _ ⟨hb, hmap⟩ _
    exact absurd (hmap.symm.trans (hzero ⟨b, hb⟩)) (entryOf_ne_zero hl)
  · have hsame := h.elsewhere (by decide +kernel) 2 (by decide) (by decide) (.inr (by decide))
    exact absurd hsame (by decide +kernel)

end ExtDrv.Rt3370.Efuse
