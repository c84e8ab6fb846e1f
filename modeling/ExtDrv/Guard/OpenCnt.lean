import ExtDrv.Lib.Run
import Mathlib.Data.BitVec

/-!
# The open counters (`tlv320aic31.c`, `sil9024.c`, `ov7725.c`)

The audio codec, the HDMI transmitter and the image sensor each keep an
`open_cnt` and let in the open that finds it zero. The three copies are one
pair of routines. The three devices are run side by side, and beside each
counter stands what the callers hold: the opens that succeeded and are not yet
closed, and the opens that were refused.
-/

namespace ExtDrv.Guard

open Run

/-! ## The routines -/

/-- `if(0 == open_cnt++) return 0; return -1;`. The counter goes up also where
the open is refused. -/
def countedOpen (open_cnt : BitVec 32) : Int × BitVec 32 :=
  (if open_cnt = 0#32 then 0 else -1, open_cnt + 1#32)

/-- `open_cnt--; return 0;`. -/
def countedClose (open_cnt : BitVec 32) : Int × BitVec 32 := (0, open_cnt - 1#32)

/-- `tlv320aic31_open`. -/
def tlv320aic31Open (open_cnt : BitVec 32) : Int × BitVec 32 := countedOpen open_cnt

/-- `tlv320aic31_close`. -/
def tlv320aic31Close (open_cnt : BitVec 32) : Int × BitVec 32 := countedClose open_cnt

/-- `sil902x_open`. -/
def sil902xOpen (open_cnt : BitVec 32) : Int × BitVec 32 := countedOpen open_cnt

/-- `sil902x_close`. -/
def sil902xClose (open_cnt : BitVec 32) : Int × BitVec 32 := countedClose open_cnt

/-- `ov7725_open`. -/
def ov7725Open (open_cnt : BitVec 32) : Int × BitVec 32 := countedOpen open_cnt

/-- `ov7725_close`. -/
def ov7725Close (open_cnt : BitVec 32) : Int × BitVec 32 := countedClose open_cnt

/-! ## The devices side by side -/

inductive Dev where
  | tlv320aic31
  | sil9024
  | ov7725
  deriving DecidableEq, Repr

/-- The open of a device, from its `file_operations`. -/
def Dev.openFile : Dev → BitVec 32 → Int × BitVec 32
  | .tlv320aic31 => tlv320aic31Open
  | .sil9024 => sil902xOpen
  | .ov7725 => ov7725Open

/-- The close of a device. -/
def Dev.closeFile : Dev → BitVec 32 → Int × BitVec 32
  | .tlv320aic31 => tlv320aic31Close
  | .sil9024 => sil902xClose
  | .ov7725 => ov7725Close

theorem Dev.openFile_eq (d : Dev) (c : BitVec 32) : d.openFile c = countedOpen c := by
  cases d <;> rfl

theorem Dev.closeFile_eq (d : Dev) (c : BitVec 32) : d.closeFile c = countedClose c := by
  cases d <;> rfl

/-- The counters, and what the callers know: `held` opens succeeded and are not
closed, `refused` ones failed. -/
structure Guards where
  open_cnt : Dev → BitVec 32
  held : Dev → Nat
  refused : Dev → Nat

/-- After the modules are loaded. -/
def Guards.init : Guards := ⟨fun _ => 0#32, fun _ => 0, fun _ => 0⟩

inductive Op where
  | openFile (d : Dev)
  | closeFile (d : Dev)
  deriving DecidableEq, Repr

/-- One call. A file that is not held cannot be closed: `release` comes from an
open that succeeded. -/
def step (s : Guards) : Op → Guards
  | .openFile d =>
      let r := d.openFile (s.open_cnt d)
      let s := { s with open_cnt := Function.update s.open_cnt d r.2 }
      if r.1 = 0 then { s with held := Function.update s.held d (s.held d + 1) }
      else { s with refused := Function.update s.refused d (s.refused d + 1) }
  | .closeFile d =>
      if s.held d = 0 then s
      else
        { s with
          open_cnt := Function.update s.open_cnt d (d.closeFile (s.open_cnt d)).2
          held := Function.update s.held d (s.held d - 1) }

/-! ## What the counters count -/

/-- Each counter is the opens held and the opens ever refused, together. -/
def Counts (s : Guards) : Prop :=
  ∀ d, s.open_cnt d = BitVec.ofNat 32 (s.held d + s.refused d)

theorem Counts.init : Counts Guards.init := fun _ => rfl

/-- **One call**: an open adds one whatever it returns, a close takes one away. -/
theorem Counts.step {s : Guards} (h : Counts s) (op : Op) : Counts (step s op) := by
  intro d
  have hd := h d
  cases op with
  | openFile e =>
    by_cases he : d = e
    · subst he
      simp only [Guard.step, Dev.openFile_eq, countedOpen]
      split_ifs <;> simp [hd, BitVec.ofNat_add, BitVec.add_assoc, BitVec.add_comm 1#32]
    · simp only [Guard.step]
      split_ifs <;> simpa [Function.update_of_ne he] using hd
  | closeFile e =>
    simp only [Guard.step]
    split_ifs with hheld
    · exact hd
    · by_cases he : d = e
      · subst he
        obtain ⟨n, hn⟩ := Nat.exists_eq_succ_of_ne_zero hheld
        have hcnt : s.open_cnt d = BitVec.ofNat 32 (n + s.refused d) + 1#32 := by
          rw [hd, hn, Nat.succ_add, Nat.succ_eq_add_one, BitVec.ofNat_add _ 1]
        simp [Dev.closeFile_eq, countedClose, hcnt, hn]
      · simpa [Function.update_of_ne he] using hd

theorem counts_run (ops : List Op) : Counts (exec step Guards.init ops) :=
  (always_of_step (I := Counts) (fun _ op h => h.step op) ops Counts.init).last

theorem ofNat_eq_zero_iff (n : Nat) : BitVec.ofNat 32 n = 0#32 ↔ 2 ^ 32 ∣ n := by
  rw [← BitVec.toNat_inj, Nat.dvd_iff_mod_eq_zero]
  rfl

/-- A counted open succeeds exactly on a zero counter. -/
theorem countedOpen_fst (c : BitVec 32) : (countedOpen c).1 = 0 ↔ c = 0#32 := by
  by_cases hc : c = 0#32 <;> simp [countedOpen, hc]

/-- **What an open returns** after any calls: it succeeds exactly when the opens
held and the opens ever refused come to a multiple of 2^32. -/
theorem opens_counted (ops : List Op) (d : Dev) :
    (d.openFile ((exec step Guards.init ops).open_cnt d)).1 = 0
      ↔ 2 ^ 32 ∣ (exec step Guards.init ops).held d + (exec step Guards.init ops).refused d := by
  rw [Dev.openFile_eq, countedOpen_fst, counts_run ops d, ofNat_eq_zero_iff]

/-! ## One holder at a time -/

/-- The guard does its work at a call: an open succeeds if and only if the device
is not held, and a refused one leaves the counter as it was. -/
def SingleOpen (s : Guards) : Op → Prop
  | .openFile d =>
      ((d.openFile (s.open_cnt d)).1 = 0 ↔ s.held d = 0)
        ∧ ((d.openFile (s.open_cnt d)).1 ≠ 0 →
            (d.openFile (s.open_cnt d)).2 = s.open_cnt d)
  | .closeFile _ => True

/-- No open is tried on a device that is held. -/
def Untried (s : Guards) : Op → Prop
  | .openFile d => s.held d = 0
  | .closeFile _ => True

/-- So far each device has one holder at most, and no open was refused. -/
structure Balanced (s : Guards) : Prop where
  counts : Counts s
  one : ∀ d, s.held d ≤ 1
  none_refused : ∀ d, s.refused d = 0

/-- With nothing refused, the counter is zero exactly when the device is free. -/
theorem Balanced.free_iff {s : Guards} (h : Balanced s) (d : Dev) :
    s.open_cnt d = 0#32 ↔ s.held d = 0 := by
  have hone := h.one d
  rw [h.counts d, h.none_refused d, Nat.add_zero, ofNat_eq_zero_iff]
  omega

/-- An open is what it should be exactly where the device is free: a refusal
counts, so it changes the guard. -/
theorem Balanced.singleOpen_iff {s : Guards} (h : Balanced s) (op : Op) :
    SingleOpen s op ↔ Untried s op := by
  cases op with
  | closeFile d => exact Iff.rfl
  | openFile d =>
    have hfree := h.free_iff d
    simp only [SingleOpen, Untried, Dev.openFile_eq, Ne, countedOpen_fst, hfree, true_and,
      iff_self]
    constructor
    · intro hsame
      by_contra hheld
      have hcnt : s.open_cnt d + 1#32 = s.open_cnt d := hsame hheld
      simp at hcnt
    · exact fun hheld hne => absurd hheld hne

/-- A run that tries no held device keeps every counter balanced. -/
theorem Balanced.step {s : Guards} (h : Balanced s) {op : Op} (hop : Untried s op) :
    Balanced (Guard.step s op) := by
  refine ⟨h.counts.step op, fun d => ?_, fun d => ?_⟩
  · have hone := h.one d
    cases op with
    | openFile e =>
      have hzero : s.held e = 0 := hop
      simp only [Guard.step, Dev.openFile_eq, countedOpen_fst, h.free_iff e, hzero, if_true]
      by_cases he : d = e
      · simp [he]
      · simpa [Function.update_of_ne he] using hone
    | closeFile e =>
      simp only [Guard.step]
      split_ifs
      · exact hone
      · by_cases he : d = e
        · subst he
          simp only [Function.update_self]
          omega
        · simpa [Function.update_of_ne he] using hone
  · have hrefused := h.none_refused d
    cases op with
    | openFile e =>
      have hzero : s.held e = 0 := hop
      simpa only [Guard.step, Dev.openFile_eq, countedOpen_fst, h.free_iff e, hzero, if_true]
    | closeFile e =>
      simp only [Guard.step]
      split_ifs <;> exact hrefused

theorem Balanced.init : Balanced Guards.init :=
  ⟨Counts.init, fun _ => Nat.zero_le 1, fun _ => rfl⟩

/-- **The single-open guard**: in a run of calls, every open succeeds if and only
if its device is free, and every refusal leaves the counter alone, exactly when
no open is tried on a device that is held. -/
theorem single_open_iff (ops : List Op) :
    Along step SingleOpen Guards.init ops ↔ Along step Untried Guards.init ops :=
  along_iff_along (fun _ op h => h.singleOpen_iff op) (fun _ _ h hop => h.step hop) Balanced.init

/-- **A refusal locks the device**: once its holder has closed it nobody has it
open, and it cannot be opened again. -/
theorem refused_locks :
    let s := exec step Guards.init
      [.openFile .tlv320aic31, .openFile .tlv320aic31, .closeFile .tlv320aic31]
    s.held .tlv320aic31 = 0 ∧ (Dev.tlv320aic31.openFile (s.open_cnt .tlv320aic31)).1 = -1 := by
  decide

end ExtDrv.Guard
