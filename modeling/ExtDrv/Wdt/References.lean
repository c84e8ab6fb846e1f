import ExtDrv.Wdt.HiWdt

/-!
# Module references

What the driver's `__module_get` and `module_put` come to over whole runs of
calls. An open takes a reference unless the last close left one, and a close
gives it back unless `nowayout` is set. The `Ledger` says the same from the
calls alone.
-/

namespace ExtDrv.Wdt

open Run

/-- What the calls so far say: whether the file is open, whether there is no way
out, and whether the last close found it so. -/
structure Ledger where
  isOpen : Bool
  noWayOut : Bool
  keptAtClose : Bool
  deriving DecidableEq, Repr

/-- A `V` is among the bytes a write reads. -/
def hasV (data : List (Option (BitVec 8))) : Bool :=
  (data.takeWhile Option.isSome).contains (some 0x56#8)

/-- What a call adds. Only an open file is written or closed, and an empty write
says nothing. -/
def Ledger.call (l : Ledger) : Call → Ledger
  | .openFile => { l with isOpen := true, keptAtClose := false }
  | .write data =>
      if l.isOpen ∧ data ≠ [] then { l with noWayOut := hasV data } else l
  | .ioctl _ => l
  | .close =>
      if l.isOpen then { l with isOpen := false, keptAtClose := l.noWayOut } else l

/-- The ledger of a run of the module loaded with `nowayout`. -/
def ledger (nowayout : BitVec 32) (calls : List Call) : Ledger :=
  calls.foldl Ledger.call ⟨false, nowayout != 0#32, false⟩

/-- The references the ledger accounts for: at most one. -/
def Ledger.refs (l : Ledger) : Int := if l.isOpen ∨ l.keptAtClose then 1 else 0

/-- The driver's variables are those of the ledger. -/
structure Accounted (s : Hidog) (l : Ledger) : Prop where
  driver_open : s.driver_open = l.isOpen
  orphan_timer : s.orphan_timer = l.keptAtClose
  nowayout : (s.nowayout != 0#32) = l.noWayOut
  once : l.isOpen = true → l.keptAtClose = false
  refs : s.refs = l.refs

/-- The loop of a write leaves a one for a `V`, and what it found for none. -/
theorem scanWrite_snd (data : List (Option (BitVec 8))) (nowayout : BitVec 32) :
    (scanWrite data nowayout).2 = if hasV data then 1 else nowayout := by
  induction data generalizing nowayout with
  | nil => rfl
  | cons c data ih =>
    cases c with
    | none => rfl
    | some c =>
      have hV : (c = 'V'.toNat) ↔ c = 0x56#8 := Iff.rfl
      rw [scanWrite, ih]
      simp only [hV, hasV, List.takeWhile_cons, Option.isSome_some, if_true, List.contains_cons]
      by_cases hc : c = 0x56#8
      · simp [hc]
      · have hne : (0x56#8 == c) = false := by simpa using Ne.symm hc
        simp [hc, hne]

theorem Accounted.write {s : Hidog} {l : Ledger} (h : Accounted s l)
    (data : List (Option (BitVec 8))) : Accounted (call s (.write data)) (l.call (.write data)) := by
  by_cases hopen : l.isOpen = true
  case neg =>
    have hclosed : s.driver_open = false := by simpa [h.driver_open] using hopen
    simpa [call, Ledger.call, hclosed, hopen] using h
  have hs : s.driver_open = true := h.driver_open.trans hopen
  by_cases hdata : data = []
  · subst hdata
    simpa [call, Ledger.call, hs, hidogWrite] using h
  · have hlen : data.length ≠ 0 := fun hzero => hdata (List.length_eq_zero_iff.mp hzero)
    have hl : l.call (.write data) = { l with noWayOut := hasV data } := by
      simp [Ledger.call, hopen, hdata]
    rw [hl, call, if_pos hs, hidogWrite_snd, if_pos hlen, scanWrite_snd]
    refine ⟨h.driver_open, h.orphan_timer, ?_, h.once, h.refs⟩
    cases hasV data <;> rfl

/-- An open takes the reference the last close left, or one of its own. -/
theorem Accounted.openFile {s : Hidog} {l : Ledger} (h : Accounted s l) :
    Accounted (call s .openFile) (l.call .openFile) := by
  have hrefs := h.refs
  have hon := h.driver_open
  have horphan := h.orphan_timer
  have honce := h.once
  simp only [call, hidogOpen, Ledger.call, hon]
  cases hopen : l.isOpen with
  | true =>
    have hkept := honce hopen
    simp only [if_true]
    exact ⟨hon.trans hopen, horphan.trans hkept, h.nowayout, fun _ => rfl, by
      rw [hrefs, Ledger.refs, Ledger.refs, hopen]
      simp⟩
  | false =>
    refine ⟨rfl, rfl, h.nowayout, fun _ => rfl, ?_⟩
    rw [Ledger.refs, hopen] at hrefs
    cases hkept : l.keptAtClose <;> simp [Ledger.refs, horphan, hkept, hrefs]

/-- A close gives the reference back exactly when there is a way out. -/
theorem Accounted.close {s : Hidog} {l : Ledger} (h : Accounted s l) :
    Accounted (call s .close) (l.call .close) := by
  cases hopen : l.isOpen with
  | false =>
    have hclosed : s.driver_open = false := h.driver_open.trans hopen
    simpa [call, Ledger.call, hclosed, hopen] using h
  | true =>
    have hs : s.driver_open = true := h.driver_open.trans hopen
    have hkept := h.once hopen
    have hrefs : s.refs = 1 := by simpa [Ledger.refs, hopen] using h.refs
    have hno := h.nowayout
    rw [call, if_pos hs, Ledger.call, if_pos hopen, hidogRelease]
    by_cases hzero : s.nowayout = 0#32
    · rw [if_pos hzero]
      have hl : l.noWayOut = false := by simpa [hzero] using hno.symm
      refine ⟨rfl, ?_, ?_, fun hf => absurd hf (by simp), ?_⟩
      · exact (h.orphan_timer.trans hkept).trans hl.symm
      · exact hno
      · show s.refs - 1 = _
        simp [Ledger.refs, hrefs, hl]
    · rw [if_neg hzero]
      have hl : l.noWayOut = true := hno.symm.trans (by simpa using hzero)
      exact ⟨rfl, hl.symm, hno, fun hf => absurd hf (by simp), by simp [Ledger.refs, hrefs, hl]⟩

/-- A command touches none of the variables accounted for. -/
theorem Accounted.ioctl {s : Hidog} {l : Ledger} (h : Accounted s l) (cmd : WdIoc) :
    Accounted (call s (.ioctl cmd)) (l.call (.ioctl cmd)) := by
  generalize hc : call s (.ioctl cmd) = t
  cases call_leaves hc with
  | same => exact h
  | margin | started | stopped => exact ⟨h.driver_open, h.orphan_timer, h.nowayout, h.once, h.refs⟩

/-- **One call** keeps the account. -/
theorem Accounted.step {s : Hidog} {l : Ledger} (h : Accounted s l) (c : Call) :
    Accounted (call s c) (l.call c) := by
  cases c with
  | openFile => exact h.openFile
  | write data => exact h.write data
  | ioctl cmd => exact h.ioctl cmd
  | close => exact h.close

theorem Accounted.run {s : Hidog} {l : Ledger} (h : Accounted s l) (calls : List Call) :
    Accounted (exec call s calls) (calls.foldl Ledger.call l) := by
  induction calls generalizing s l with
  | nil => exact h
  | cons c calls ih => exact ih (h.step c)

/-- The load of the module takes no reference and opens no file. -/
theorem watchdogInit_accounted (default_margin nowayout nodeamon : BitVec 32) :
    Accounted (watchdogInit default_margin nowayout nodeamon)
      ⟨false, nowayout != 0#32, false⟩ := by
  unfold watchdogInit
  dsimp only
  split <;> exact ⟨rfl, rfl, rfl, fun _ => rfl, rfl⟩

/-- **Reference accounting**: in every run, the driver holds one reference while
the file is open or was last closed with no way out, and none otherwise. -/
theorem references_run (default_margin nowayout nodeamon : BitVec 32) (calls : List Call) :
    (exec call (watchdogInit default_margin nowayout nodeamon) calls).refs
      = if (ledger nowayout calls).isOpen ∨ (ledger nowayout calls).keptAtClose then 1 else 0 :=
  ((watchdogInit_accounted default_margin nowayout nodeamon).run calls).refs

/-- **The other way round**: a file closed right after the magic character keeps
its reference, and one closed without it gives its reference back although the
timer runs on. -/
theorem magic_close_keeps :
    (exec call (watchdogInit 60 0 0) [.openFile, .write [some 0x56#8], .close]).driver_open = false
      ∧ (exec call (watchdogInit 60 0 0) [.openFile, .write [some 0x56#8], .close]).refs = 1
      ∧ (exec call (watchdogInit 60 0 0) [.openFile, .close]).regs.CTRL = 0x03
      ∧ (exec call (watchdogInit 60 0 0) [.openFile, .close]).refs = 0 := by
  decide

end ExtDrv.Wdt
