import ExtDrv.Cipher.Resume

/-!
# Interrupt enable and disable

`HAL_Cipher_EnableInt` and `HAL_Cipher_DisableInt` for every channel and every
set of interrupt types. Enabling switches the whole module on; disabling
switches it off when no other bit of the register is left. The single-packet
channel has one interrupt, "data dispose finished" in bit 8, and its calls do
not look at the types.
-/

namespace ExtDrv.Cipher.Interrupts

open RegField Run

/-- `CIPHER_INT_TYPE_IN_BUF`. -/
def cipherIntTypeInBuf : HiU32 := 1#32
/-- `CIPHER_INT_TYPE_OUT_BUF`. -/
def cipherIntTypeOutBuf : HiU32 := 2#32

/-- `TYPE == (TYPE & intType)`. -/
def Asked (type intType : HiU32) : Prop := type = type &&& intType

instance (type intType : HiU32) : Decidable (Asked type intType) :=
  inferInstanceAs (Decidable (type = type &&& intType))

/-- What the two functions share: `put` is `|= 1 << n` in one and `&= ~(1 << n)` in the other. -/
def putTypes (put : HiU32 → Nat → HiU32) (chnId : Chn) (intType regValue : HiU32) : HiU32 :=
  if chnId = ciPkgx1Chan then put regValue 8
  else
    let regValue :=
      if Asked cipherIntTypeOutBuf intType then put regValue (8 + chnId.val) else regValue
    -- "NOT else if"
    if Asked cipherIntTypeInBuf intType then put regValue (0 + chnId.val) else regValue

/-- `HAL_Cipher_EnableInt`. -/
def halCipherEnableInt (chnId : Chn) (intType : HiU32) (r : HalRegs) : HiS32 × HalRegs :=
  let regValue := r.intEn
  let regValue := regValue ||| 1#32 <<< 31
  let regValue := putTypes (fun v n => v ||| 1#32 <<< n) chnId intType regValue
  (hiSuccess, { r with intEn := regValue })

/-- `HAL_Cipher_DisableInt`. -/
def halCipherDisableInt (chnId : Chn) (intType : HiU32) (r : HalRegs) : HiS32 × HalRegs :=
  let regValue := r.intEn
  let regValue := putTypes (fun v n => v &&& ~~~(1#32 <<< n)) chnId intType regValue
  let regValue :=
    if regValue &&& 0x7fffffff#32 = 0#32 then regValue &&& ~~~(1#32 <<< 31) else regValue
  (hiSuccess, { r with intEn := regValue })

/-! ## Runs of calls -/

/-- A set of interrupt types with at least one of them in it. -/
abbrev IntTypes :=
  { intType : HiU32 // Asked cipherIntTypeInBuf intType ∨ Asked cipherIntTypeOutBuf intType }

inductive IntCall
  | enable (chnId : Chn) (intType : IntTypes)
  | disable (chnId : Chn) (intType : IntTypes)

def IntCall.chnId : IntCall → Chn
  | .enable c _ => c
  | .disable c _ => c

def IntCall.intType : IntCall → HiU32
  | .enable _ t => t.val
  | .disable _ t => t.val

/-- What the own bits become. -/
def IntCall.enables : IntCall → Bool
  | .enable .. => true
  | .disable .. => false

def intStep (r : HalRegs) : IntCall → HalRegs
  | .enable c t => (halCipherEnableInt c t.val r).2
  | .disable c t => (halCipherDisableInt c t.val r).2

/-- Bit 31: interrupts of the module as a whole. -/
def masterEnabled (r : HalRegs) : Bool := r.intEn.getLsbD 31
/-- The output bit of a channel. -/
def outEnabled (r : HalRegs) (c : Chn) : Bool := r.intEn.getLsbD (8 + c.val)
/-- The input bit of a channel. -/
def inEnabled (r : HalRegs) (c : Chn) : Bool := r.intEn.getLsbD (0 + c.val)

/-- The bits of the types asked for, on the channel. -/
def TypeBit (c : Chn) (intType : HiU32) (i : Nat) : Prop :=
  Asked cipherIntTypeOutBuf intType ∧ i = 8 + c.val ∨
    Asked cipherIntTypeInBuf intType ∧ i = 0 + c.val

/-- The bits a call is about: on the single-packet channel it is bit 8, whatever the types. -/
def OwnBit (c : Chn) (intType : HiU32) (i : Nat) : Prop :=
  if c = ciPkgx1Chan then i = 8 else TypeBit c intType i

instance (c : Chn) (intType : HiU32) (i : Nat) : Decidable (TypeBit c intType i) :=
  inferInstanceAs (Decidable (_ ∨ _))

instance (c : Chn) (intType : HiU32) (i : Nat) : Decidable (OwnBit c intType i) :=
  inferInstanceAs (Decidable (if c = ciPkgx1Chan then i = 8 else TypeBit c intType i))

/-- But for the master bit, the call leaves every bit as it was that is none of `own`. -/
def ChangesOnly (own : Chn → HiU32 → Nat → Prop) (r : HalRegs) (a : IntCall) : Prop :=
  ∀ i, i ≠ 31 → ¬ own a.chnId a.intType i →
    (intStep r a).intEn.getLsbD i = r.intEn.getLsbD i

/-! ## What a call does -/

section

variable {c : Chn} {t : HiU32} {i : Nat}

theorem OwnBit.lt (h : OwnBit c t i) : i < 16 := by
  have hc : c.val < 8 := c.isLt
  unfold OwnBit TypeBit at h
  split at h <;> omega

theorem ownBit_pkgx1 (hc : c = ciPkgx1Chan) : OwnBit c t i ↔ i = 8 := by
  rw [OwnBit, if_pos hc]

theorem ownBit_multi (hc : c ≠ ciPkgx1Chan) : OwnBit c t i ↔ TypeBit c t i := by
  rw [OwnBit, if_neg hc]

theorem getLsbD_putTypes {put : HiU32 → Nat → HiU32} {b : Bool}
    (hput : ∀ v n, (put v n).getLsbD i = if i = n then b else v.getLsbD i) (v : HiU32) :
    (putTypes put c t v).getLsbD i = if OwnBit c t i then b else v.getLsbD i := by
  unfold putTypes
  by_cases hc : c = ciPkgx1Chan
  · simp only [hc, if_true, hput, ownBit_pkgx1]
  · simp only [hc, if_false, ownBit_multi (t := t) hc, TypeBit]
    by_cases hout : Asked cipherIntTypeOutBuf t <;> by_cases hin : Asked cipherIntTypeInBuf t
    · simp only [hout, hin, if_true, hput, true_and]
      by_cases hi : i = 0 + c.val
      · simp [hi]
      · simp only [hi, if_false, or_false]
    · simp [hout, hin, hput]
    · simp [hout, hin, hput]
    · simp [hout, hin]

/-- Enabling sets the own bits and the master bit. -/
theorem getLsbD_enable (c : Chn) (t : IntTypes) (r : HalRegs) (hi : i < 32) :
    (intStep r (.enable c t)).intEn.getLsbD i
      = if OwnBit c t.val i ∨ i = 31 then true else r.intEn.getLsbD i := by
  have hput (v : HiU32) (n : Nat) := getLsbD_or_bit n hi v
  show (putTypes _ c t.val _).getLsbD i = _
  rw [getLsbD_putTypes hput, hput]
  by_cases hown : OwnBit c t.val i <;> simp [hown]

theorem getLsbD_putTypes_and_not (v : HiU32) :
    (putTypes (fun v n => v &&& ~~~(1#32 <<< n)) c t v).getLsbD i
      = if OwnBit c t i then false else v.getLsbD i :=
  getLsbD_putTypes (fun v n => getLsbD_and_not_bit n i v) v

/-- Disabling clears the own bits. -/
theorem getLsbD_disable (c : Chn) (t : IntTypes) (r : HalRegs) (hi : i ≠ 31) :
    (intStep r (.disable c t)).intEn.getLsbD i
      = if OwnBit c t.val i then false else r.intEn.getLsbD i := by
  rw [← getLsbD_putTypes_and_not]
  simp only [intStep, halCipherDisableInt]
  split
  · rw [getLsbD_and_not_bit, if_neg hi]
  · rfl

/-- Of the master bit disabling leaves what another bit still needs. -/
theorem getLsbD_disable_master (c : Chn) (t : IntTypes) (r : HalRegs) :
    (intStep r (.disable c t)).intEn.getLsbD 31 = true ↔ r.intEn.getLsbD 31 = true ∧
      ∃ i, i < 31 ∧ (intStep r (.disable c t)).intEn.getLsbD i = true := by
  have hown : ¬ OwnBit c t.val 31 := fun h => absurd h.lt (by decide)
  have hmaster := getLsbD_putTypes_and_not (c := c) (t := t.val) (i := 31) r.intEn
  rw [if_neg hown] at hmaster
  simp only [intStep, halCipherDisableInt]
  rw [show (0x7fffffff#32 : HiU32) = mask 32 31 from rfl]
  split
  · rename_i hzero
    rw [and_mask_eq_zero_iff] at hzero
    refine iff_of_false (by rw [getLsbD_and_not_bit]; simp) ?_
    rintro ⟨-, i, hi, hset⟩
    rw [getLsbD_and_not_bit, hzero i hi, ite_self] at hset
    cases hset
  · rename_i hsome
    rw [and_mask_eq_zero_iff] at hsome
    push Not at hsome
    obtain ⟨i, hi, hset⟩ := hsome
    rw [hmaster]
    exact (and_iff_left ⟨i, hi, by simpa using hset⟩).symm

/-- A call does what it is asked to its own bits. -/
theorem getLsbD_own (r : HalRegs) (a : IntCall) (hown : OwnBit a.chnId a.intType i) :
    (intStep r a).intEn.getLsbD i = a.enables := by
  have hi := hown.lt
  cases a with
  | enable c t => exact (getLsbD_enable c t r (by omega)).trans (if_pos (Or.inl hown))
  | disable c t => exact (getLsbD_disable c t r (by omega)).trans (if_pos hown)

/-- And leaves the others alone. -/
theorem changesOnly_own (r : HalRegs) (a : IntCall) : ChangesOnly OwnBit r a := by
  intro i hi hown
  by_cases hlt : i < 32
  · cases a with
    | enable c t => exact (getLsbD_enable c t r hlt).trans (if_neg (not_or.mpr ⟨hown, hi⟩))
    | disable c t => exact (getLsbD_disable c t r hi).trans (if_neg hown)
  · rw [BitVec.getLsbD_of_ge _ i (by omega), BitVec.getLsbD_of_ge _ i (by omega)]

end

/-! ## The master bit -/

/-- No bit between the channels' and the master bit is set, and the master bit is if and only if
one of the channels' is. -/
structure MasterInv (r : HalRegs) : Prop where
  reserved : ∀ i, 16 ≤ i → i < 31 → r.intEn.getLsbD i = false
  master : r.intEn.getLsbD 31 = true ↔ ∃ i, i < 16 ∧ r.intEn.getLsbD i = true

theorem masterInv_cleared (r : HalRegs) : MasterInv (halCipherDisableAllInt r) where
  reserved i _ _ := BitVec.getLsbD_zero
  master := by simp [halCipherDisableAllInt]

theorem MasterInv.step {r : HalRegs} (h : MasterInv r) (a : IntCall) : MasterInv (intStep r a) := by
  have hreserved (i : Nat) (hlo : 16 ≤ i) (hhi : i < 31) :
      (intStep r a).intEn.getLsbD i = false := by
    rw [changesOnly_own r a i (by omega) fun hown => absurd hown.lt (by omega)]
    exact h.reserved i hlo hhi
  refine ⟨hreserved, ?_⟩
  cases a with
  | enable c t =>
    -- a call enables one bit at least
    have hsome : ∃ i, OwnBit c t.val i := by
      by_cases hc : c = ciPkgx1Chan
      · exact ⟨8, (ownBit_pkgx1 hc).mpr rfl⟩
      · rcases t.property with hin | hout
        · exact ⟨0 + c.val, (ownBit_multi hc).mpr (Or.inr ⟨hin, rfl⟩)⟩
        · exact ⟨8 + c.val, (ownBit_multi hc).mpr (Or.inl ⟨hout, rfl⟩)⟩
    obtain ⟨i, hown⟩ := hsome
    refine iff_of_true ?_ ⟨i, hown.lt, getLsbD_own r (.enable c t) hown⟩
    rw [getLsbD_enable c t r (by decide), if_pos (Or.inr rfl)]
  | disable c t =>
    rw [getLsbD_disable_master]
    constructor
    · rintro ⟨-, i, hi, hset⟩
      have hlow : i < 16 := by
        by_contra hge
        rw [hreserved i (by omega) hi] at hset
        cases hset
      exact ⟨i, hlow, hset⟩
    · rintro ⟨i, hi, hset⟩
      refine ⟨h.master.mpr ⟨i, hi, ?_⟩, i, by omega, hset⟩
      rw [getLsbD_disable c t r (by omega)] at hset
      split at hset
      · cases hset
      · exact hset

theorem MasterInv.enabled {r : HalRegs} (h : MasterInv r) :
    masterEnabled r = true ↔ ∃ c, inEnabled r c = true ∨ outEnabled r c = true := by
  rw [masterEnabled, h.master]
  constructor
  · rintro ⟨i, hi, hset⟩
    by_cases hlow : i < 8
    · refine ⟨⟨i, hlow⟩, Or.inl ?_⟩
      rw [inEnabled, Nat.zero_add]
      exact hset
    · refine ⟨⟨i - 8, by show i - 8 < 8; omega⟩, Or.inr ?_⟩
      rw [outEnabled]
      have heq : 8 + (i - 8) = i := by omega
      rwa [heq]
  · rintro ⟨c, hset | hset⟩
    · exact ⟨0 + c.val, by have : c.val < 8 := c.isLt; omega, hset⟩
    · exact ⟨8 + c.val, by have : c.val < 8 := c.isLt; omega, hset⟩

/-- **The bookkeeping of the interrupt enable register**: from the cleared register on, interrupts
are enabled as a whole in exactly the states in which a channel has one enabled, and every call
sets or clears its own bits and leaves those of the others alone. -/
theorem interrupts_run (r : HalRegs) (calls : List IntCall) :
    Always intStep
        (fun r => masterEnabled r = true ↔ ∃ c, inEnabled r c = true ∨ outEnabled r c = true)
        (halCipherDisableAllInt r) calls
      ∧ Along intStep
        (fun r a => ChangesOnly OwnBit r a ∧ ∀ i, OwnBit a.chnId a.intType i →
          (intStep r a).intEn.getLsbD i = a.enables)
        (halCipherDisableAllInt r) calls := by
  have hinv : Always intStep MasterInv (halCipherDisableAllInt r) calls :=
    always_of_step (fun _ a h => h.step a) calls (masterInv_cleared r)
  refine ⟨hinv.mono fun _ h => h.enabled, along_of_always (fun r a _ => ?_) hinv⟩
  exact ⟨changesOnly_own r a, fun i hown => getLsbD_own r a hown⟩

/-- The input interrupt of the single-packet channel. -/
def pkgx1In : IntCall := .enable ciPkgx1Chan ⟨cipherIntTypeInBuf, by decide⟩

/-- **Types do not matter on channel 0**: asked for its input interrupt, it sets its output bit. -/
theorem interrupts_types_ignored :
    ¬ ∀ (r : HalRegs) (calls : List IntCall),
      Along intStep (ChangesOnly TypeBit) (halCipherDisableAllInt r) calls := by
  intro h
  have hown := (h (resetRegs (fun _ => 0) fun _ => Vector.replicate 8 0) [pkgx1In]).1
  exact absurd (hown 8 (by decide) (by decide)) (by decide)

end ExtDrv.Cipher.Interrupts
