import ExtDrv.Cipher.Context
import ExtDrv.Cipher.Resume

/-!
# When a new key or initial vector takes effect

`DRV_Cipher_ConfigChn` and `DRV_Cipher_CreatTask` only note that the key or the initial vector of a
soft channel changed. The next task the ring has room for loads the key, gets a copy of the vector
in its own slot, and takes both notes back. Slots are used again, flags and all.
-/

namespace ExtDrv.Cipher

open RingBuf Run

variable {Cb : Type}

/-! ## What is watched -/

/-- What was changed on a channel since its last accepted node, and whether its keys come from the
conditional-access module. -/
structure Change where
  iv : Option (Vector HiU32 4)
  key : Option (Vector HiU32 8)
  keyByCA : HiU32

namespace Change

/-- A task may bring a key or an initial vector of its own. -/
def bring (ch : Change) (pKey : Option (Vector HiU32 8)) (pIV : Option (Vector HiU32 4)) :
    Change :=
  { ch with iv := pIV.or ch.iv, key := pKey.or ch.key }

/-- A configuration changes both. -/
def config (pConfig : HiUnfCipherCtrl) : Change :=
  ⟨some pConfig.u32IV, some pConfig.u32Key, pConfig.bKeyByCA⟩

/-- Nothing is left to apply. -/
def applied (ch : Change) : Change := { ch with iv := none, key := none }

end Change

/-- A driver, with what changed on every channel since its last accepted node, and for each node
accepted so far the initial vector it is to start with, if any. -/
structure Watched (Cb : Type) where
  run : DrvRun Cb
  change : Chn → Change
  ivs : Chn → List (Option (Vector HiU32 4))

/-- What `DRV_Cipher_CreatTask` answers. -/
def creatTaskRet (c : Chn) (pTask : CipherTask) (pKey : Option (Vector HiU32 8))
    (pIV : Option (Vector HiU32 4)) (idle : Bool) (r : DrvRun Cb) : HiS32 :=
  (drvCipherCreatTask c pTask pKey pIV idle r.st).1

/-- The driver takes a step. A task that is accepted uses the changes up. -/
def watchStep (w : Watched Cb) (op : DrvOp Cb) : Watched Cb :=
  let run := drvStep w.run op
  match op with
  | .configChn c pConfig _ =>
      { w with run := run, change := Function.update w.change c (.config pConfig) }
  | .creatTask c pTask pKey pIV idle =>
      let ch := (w.change c).bring pKey pIV
      if creatTaskRet c pTask pKey pIV idle w.run = hiSuccess then
        { run := run
          change := Function.update w.change c ch.applied
          ivs := Function.update w.ivs c (w.ivs c ++ [ch.iv]) }
      else { w with run := run, change := Function.update w.change c ch }
  | _ => { w with run := run }

/-- The driver after `DRV_Cipher_Init`, with every multi-packet channel opened. -/
def watchStart (Cb : Type) (ctrl : Chn → HiU32) (key : Chn → Vector HiU32 8) : Watched Cb where
  run := exec drvStep { st := drvCipherInit ctrl key, hist := fun _ => .empty, fault := false }
    (multiPkgChns.map .openChn)
  change := fun _ => ⟨none, none, 0⟩
  ivs := fun _ => []

theorem watchStep_run (w : Watched Cb) (op : DrvOp Cb) :
    (watchStep w op).run = drvStep w.run op := by
  cases op with
  | creatTask c pTask pKey pIV idle =>
    simp only [watchStep]
    split <;> rfl
  | openChn c => rfl
  | closeChn c => rfl
  | configChn c pConfig f => rfl
  | engine c => rfl
  | dataDone c => rfl
  | isr INTValue => rfl

theorem exec_watchStep_run (w : Watched Cb) (ops : List (DrvOp Cb)) :
    (exec watchStep w ops).run = exec drvStep w.run ops := by
  induction ops generalizing w with
  | nil => rfl
  | cons op ops ih => rw [exec_cons, exec_cons, ih, watchStep_run]

/-! ## What is wanted -/

/-- The list entry at `slot` has the engine load `iv`, from a copy in the slot's own place, or none
at all. -/
structure CarriesIv (pChan : CipherChan) (slot : Fin ciMaxListNum)
    (iv : Option (Vector HiU32 4)) : Prop where
  flag : (pChan.pstInBuf slot).u32Flags.getLsbD ciBufListFlagIvsetBit = iv.isSome
  copy : ∀ x, iv = some x →
    (pChan.pstInBuf slot).u32IVStartAddr = slot ∧ pChan.astCipherIVValue slot = x

/-- The key registers of a channel before the engine is told of the node: a new key is in them, or
what was there if there is none. -/
structure KeyWritten (c : Chn) (ch : Change) (regs before : HalRegs) : Prop where
  notQueued : (before.chan c).ibufCnt = (regs.chan c).ibufCnt
  written : ch.keyByCA = 0#32 → ∀ k, ch.key = some k → (before.chan c).cipherKey = k
  kept : ch.key = none → (before.chan c).cipherKey = (regs.chan c).cipherKey

/-- **An accepted task** applies the changes to its own node. -/
structure Applied (c : Chn) (ch : Change) (r r' : DrvRun Cb) : Prop where
  node : ∃ n, (r'.hist c).nodes = (r.hist c).nodes ++ [n] ∧
    n.slot = (r.view c).chan.unInData.u32CurrentPtr
  iv : CarriesIv (r'.view c).chan (r.view c).chan.unInData.u32CurrentPtr ch.iv
  /-- No node still waiting shares the slot. -/
  own : ∀ n ∈ (r.hist c).queued, n.slot ≠ (r.view c).chan.unInData.u32CurrentPtr
  key : ∃ before, KeyWritten c ch r.st.regs before ∧
    r'.st.regs = (halCipherSetInBufCnt c 1 before).2

/-- **A refused task** leaves the ring as it is. Of the notes it makes only those for the key and
the vector it brought. -/
structure Refused (c : Chn) (bringsKey bringsIV : Bool) (r r' : DrvRun Cb) : Prop where
  nodes : (r'.hist c).nodes = (r.hist c).nodes
  regs : (r'.view c).regs = (r.view c).regs
  inPtr : (r'.view c).chan.unInData.u32CurrentPtr = (r.view c).chan.unInData.u32CurrentPtr
  inBuf : (r'.view c).chan.pstInBuf = (r.view c).chan.pstInBuf
  outBuf : (r'.view c).chan.pstOutBuf = (r.view c).chan.pstOutBuf
  ivValue : (r'.view c).chan.astCipherIVValue = (r.view c).chan.astCipherIVValue
  keyFlag : (r'.view c).soft.bKeyChange = (bringsKey || (r.view c).soft.bKeyChange)
  ivFlag : (r'.view c).soft.bIVChange = (bringsIV || (r.view c).soft.bIVChange)

/-- What a task on a multi-packet channel does, with all that changed since the last one. -/
def Propagated (w : Watched Cb) : DrvOp Cb → Prop
  | .creatTask c pTask pKey pIV idle => c ≠ ciPkgx1Chan →
      (creatTaskRet c pTask pKey pIV idle w.run = hiSuccess → Applied c
        ((w.change c).bring pKey pIV) w.run (runCreatTask c pTask pKey pIV idle w.run)) ∧
      (creatTaskRet c pTask pKey pIV idle w.run ≠ hiSuccess → Refused c pKey.isSome pIV.isSome
        w.run (runCreatTask c pTask pKey pIV idle w.run))
  | _ => True

/-- The engine started every node it processed with the vector that was new for it, and every
other node without one. -/
def StartedRight (w : Watched Cb) : Prop :=
  ∀ c, c ≠ ciPkgx1Chan → (w.run.hist c).processed.map Processed.iv
    = (w.ivs c).take (w.run.hist c).finished

/-- A new key is in the key registers after an accepted task, wherever keys come from. -/
def KeyReaches (w : Watched Cb) : DrvOp Cb → Prop
  | .creatTask c pTask pKey pIV idle => c ≠ ciPkgx1Chan →
      creatTaskRet c pTask pKey pIV idle w.run = hiSuccess →
      ∀ k, ((w.change c).bring pKey pIV).key = some k →
        ((runCreatTask c pTask pKey pIV idle w.run).view c).regs.cipherKey = k
  | _ => True

/-- A refused task makes no notes. -/
def NotesKept (w : Watched Cb) : DrvOp Cb → Prop
  | .creatTask c pTask pKey pIV idle => c ≠ ciPkgx1Chan →
      creatTaskRet c pTask pKey pIV idle w.run ≠ hiSuccess →
      ((runCreatTask c pTask pKey pIV idle w.run).view c).soft.bKeyChange
          = (w.run.view c).soft.bKeyChange ∧
        ((runCreatTask c pTask pKey pIV idle w.run).view c).soft.bIVChange
          = (w.run.view c).soft.bIVChange
  | _ => True

/-! ## The flag of a list entry -/

theorem setFlag_getLsbD_self (on : Bool) (x : HiU32) :
    (setFlag ciBufListFlagIvsetBit on x).getLsbD ciBufListFlagIvsetBit = on := by
  cases on with
  | true => simp [setFlag, ciBufListFlagIvsetBit]
  | false => simp [setFlag, ciBufListFlagIvsetBit]

/-- Marking the end of the list leaves the flag of the initial vector alone. -/
theorem setFlag_eol_getLsbD (x : HiU32) :
    (setFlag ciBufListFlagEolBit true x).getLsbD ciBufListFlagIvsetBit
      = x.getLsbD ciBufListFlagIvsetBit := by
  simp [setFlag, ciBufListFlagEolBit, ciBufListFlagIvsetBit]

/-- Whatever the slot was used for before, it carries what is new now. -/
theorem CarriesIv.fillNode (slot : Fin ciMaxListNum) (info : HiUnfCipherInfo)
    (soft : CipherSoftChan Cb) (pChan : CipherChan) {iv : Option (Vector HiU32 4)}
    (hflag : soft.bIVChange = iv.isSome) (hiv : ∀ x, iv = some x → soft.stCtrl.u32IV = x) :
    CarriesIv (fillNode slot info soft pChan) slot iv where
  flag := by
    simp only [Cipher.fillNode, Function.update_self, setFlag_eol_getLsbD, setFlag_getLsbD_self]
    exact hflag
  copy := by
    rintro x rfl
    rw [Option.isSome_some] at hflag
    simp only [Cipher.fillNode, Function.update_self, hflag, if_true]
    exact ⟨trivial, hiv x rfl⟩

/-- What a node elsewhere carries. -/
theorem CarriesIv.fillNode_ne {pChan : CipherChan} {slot slot' : Fin ciMaxListNum}
    {iv : Option (Vector HiU32 4)} (h : CarriesIv pChan slot iv) (hne : slot ≠ slot')
    (info : HiUnfCipherInfo) (soft : CipherSoftChan Cb) :
    CarriesIv (Cipher.fillNode slot' info soft pChan) slot iv where
  flag := by
    simp only [Cipher.fillNode, Function.update_of_ne hne]
    exact h.flag
  copy := by
    simp only [Cipher.fillNode, Function.update_of_ne hne]
    exact h.copy

/-- The list entries and the slots are all it is about. -/
theorem CarriesIv.congr {pChan pChan' : CipherChan} {slot : Fin ciMaxListNum}
    {iv : Option (Vector HiU32 4)} (h : CarriesIv pChan slot iv)
    (hin : pChan'.pstInBuf = pChan.pstInBuf)
    (hiv : pChan'.astCipherIVValue = pChan.astCipherIVValue) : CarriesIv pChan' slot iv where
  flag := by
    rw [hin]
    exact h.flag
  copy := by
    rw [hin, hiv]
    exact h.copy

theorem CarriesIv.engineIv {pChan : CipherChan} {slot : Fin ciMaxListNum}
    {iv : Option (Vector HiU32 4)} (h : CarriesIv pChan slot iv) : engineIv pChan slot = iv := by
  simp only [Cipher.engineIv, h.flag]
  cases iv with
  | none => rfl
  | some x =>
    obtain ⟨haddr, hval⟩ := h.copy x rfl
    rw [haddr, hval]
    rfl

/-! ## The notes of a soft channel -/

/-- The flags of a soft channel note what changed, and its control block holds the latest. -/
structure Tracks (soft : CipherSoftChan Cb) (ch : Change) : Prop where
  ivFlag : soft.bIVChange = ch.iv.isSome
  iv : ∀ x, ch.iv = some x → soft.stCtrl.u32IV = x
  keyFlag : soft.bKeyChange = ch.key.isSome
  key : ∀ k, ch.key = some k → soft.stCtrl.u32Key = k
  keyByCA : soft.stCtrl.bKeyByCA = ch.keyByCA

namespace Tracks

variable {soft soft' : CipherSoftChan Cb} {ch : Change}

theorem congr (h : Tracks soft ch) (hiv : soft'.bIVChange = soft.bIVChange)
    (hkey : soft'.bKeyChange = soft.bKeyChange) (hctrl : soft'.stCtrl = soft.stCtrl) :
    Tracks soft' ch where
  ivFlag := hiv.trans h.ivFlag
  iv := by
    rw [hctrl]
    exact h.iv
  keyFlag := hkey.trans h.keyFlag
  key := by
    rw [hctrl]
    exact h.key
  keyByCA := by
    rw [hctrl]
    exact h.keyByCA

theorem override (h : Tracks soft ch) (pKey : Option (Vector HiU32 8))
    (pIV : Option (Vector HiU32 4)) :
    Tracks (overrideCtrl pKey pIV soft) (ch.bring pKey pIV) := by
  cases pKey with
  | none =>
    cases pIV with
    | none => exact h
    | some x => exact ⟨rfl, fun y hy => Option.some.inj hy, h.keyFlag, h.key, h.keyByCA⟩
  | some k =>
    cases pIV with
    | none => exact ⟨h.ivFlag, h.iv, rfl, fun y hy => Option.some.inj hy, h.keyByCA⟩
    | some x =>
      exact ⟨rfl, fun y hy => Option.some.inj hy, rfl, fun y hy => Option.some.inj hy, h.keyByCA⟩

/-- The notes are taken back. -/
theorem applied (h : Tracks soft ch) (hiv : soft'.bIVChange = false)
    (hkey : soft'.bKeyChange = false) (hctrl : soft'.stCtrl = soft.stCtrl) :
    Tracks soft' ch.applied where
  ivFlag := hiv
  iv := by
    intro x hx
    cases hx
  keyFlag := hkey
  key := by
    intro k hk
    cases hk
  keyByCA := by
    rw [hctrl]
    exact h.keyByCA

end Tracks

/-- The flags after the caller's key and vector are taken over. -/
theorem overrideCtrl_flags (pKey : Option (Vector HiU32 8)) (pIV : Option (Vector HiU32 4))
    (soft : CipherSoftChan Cb) :
    (overrideCtrl pKey pIV soft).bKeyChange = (pKey.isSome || soft.bKeyChange) ∧
      (overrideCtrl pKey pIV soft).bIVChange = (pIV.isSome || soft.bIVChange) := by
  cases pKey <;> cases pIV <;> exact ⟨rfl, rfl⟩

/-! ## The input side of a ring -/

/-- The nodes accepted and processed, counted by the engine's input side. No acknowledgement is
needed for it. -/
structure InRing (v : ChanView Cb) : Prop where
  queued : v.regs.ibufCnt + v.hist.finished = v.hist.nodes.length
  room : v.regs.ibufCnt ≤ ciMaxListNum
  inPtr : v.chan.unInData.u32CurrentPtr = slotAt 0 v.hist.nodes.length
  readPtr : v.regs.srcLstRaddr = slotAt 0 v.hist.finished
  slots : ∀ k (h : k < v.hist.nodes.length), v.hist.nodes[k].slot = slotAt 0 k

/-- The processed nodes started right, and those still waiting carry what they are to start
with. -/
structure Waiting (v : ChanView Cb) (ivs : List (Option (Vector HiU32 4))) : Prop where
  length : ivs.length = v.hist.nodes.length
  processed : v.hist.processed.map Processed.iv = ivs.take v.hist.finished
  waiting : ∀ k (h : k < ivs.length), v.hist.finished ≤ k → CarriesIv v.chan (slotAt 0 k) ivs[k]

/-- A step leaves the input side of a channel alone. -/
structure InKept (v v' : ChanView Cb) : Prop where
  nodes : v'.hist.nodes = v.hist.nodes
  finished : v'.hist.finished = v.hist.finished
  processed : v'.hist.processed = v.hist.processed
  ibufCnt : v'.regs.ibufCnt = v.regs.ibufCnt
  readPtr : v'.regs.srcLstRaddr = v.regs.srcLstRaddr
  inPtr : v'.chan.unInData.u32CurrentPtr = v.chan.unInData.u32CurrentPtr
  inBuf : v'.chan.pstInBuf = v.chan.pstInBuf
  ivValue : v'.chan.astCipherIVValue = v.chan.astCipherIVValue

section

variable {v v' : ChanView Cb} {ivs : List (Option (Vector HiU32 4))} {c : Chn}

theorem InRing.kept (h : InRing v) (hk : InKept v v') : InRing v' where
  queued := by
    rw [hk.ibufCnt, hk.finished, hk.nodes]
    exact h.queued
  room := by
    rw [hk.ibufCnt]
    exact h.room
  inPtr := by
    rw [hk.inPtr, hk.nodes]
    exact h.inPtr
  readPtr := by
    rw [hk.readPtr, hk.finished]
    exact h.readPtr
  slots := by
    rw [hk.nodes]
    exact h.slots

theorem Waiting.kept (h : Waiting v ivs) (hk : InKept v v') : Waiting v' ivs where
  length := by
    rw [hk.nodes]
    exact h.length
  processed := by
    rw [hk.processed, hk.finished]
    exact h.processed
  waiting := by
    intro k hlt hle
    rw [hk.finished] at hle
    exact (h.waiting k hlt hle).congr hk.inBuf hk.ivValue

theorem InKept.reject (v : ChanView Cb) (soft : CipherSoftChan Cb) : InKept v (v.reject soft) :=
  ⟨rfl, rfl, rfl, rfl, rfl, rfl, rfl, rfl⟩

theorem InKept.config (v : ChanView Cb) (c : Chn) (pConfig : HiUnfCipherCtrl) (f : Cb) :
    InKept v (v.config c pConfig f) :=
  ⟨rfl, rfl, rfl, rfl, rfl, rfl, rfl, rfl⟩

/-- With room in the ring, a node still waiting has another slot than the next one. -/
theorem InRing.slot_ne (h : InRing v) (hlt : v.regs.ibufCnt < ciMaxListNum) {k : Nat}
    (hle : v.hist.finished ≤ k) (hk : k < v.hist.nodes.length) :
    slotAt 0 k ≠ v.chan.unInData.u32CurrentPtr := by
  intro heq
  have hq := h.queued
  -- both are less than a turn from the node the engine reads next
  rw [h.inPtr, show k = v.hist.finished + (k - v.hist.finished) by omega,
    show v.hist.nodes.length = v.hist.finished + v.regs.ibufCnt by omega, ← slotAt_slotAt,
    ← slotAt_slotAt] at heq
  have hidx := slotAt_inj (by omega) hlt heq
  omega

theorem InRing.own (h : InRing v) (hlt : v.regs.ibufCnt < ciMaxListNum) {n : Node}
    (hn : n ∈ v.hist.queued) : n.slot ≠ v.chan.unInData.u32CurrentPtr := by
  obtain ⟨i, hi, rfl⟩ := List.getElem_of_mem hn
  simp only [ChanHist.queued, List.length_drop] at hi
  simp only [ChanHist.queued, List.getElem_drop]
  rw [h.slots _ (by omega)]
  exact h.slot_ne hlt (by omega) (by omega)

theorem InRing.accept (h : InRing v) (pTask : CipherTask) (soft : CipherSoftChan Cb)
    (hlt : v.regs.ibufCnt < ciMaxListNum) : InRing (v.accept c pTask soft) where
  queued := by
    have hq := h.queued
    simp only [ChanView.accept, List.length_append, List.length_singleton]
    omega
  room := hlt
  inPtr := by
    simp only [ChanView.accept, submitChan, List.length_append, List.length_singleton]
    rw [h.inPtr, wrapSucc_slotAt]
  readPtr := h.readPtr
  slots := by
    intro k hk
    simp only [ChanView.accept, List.length_append, List.length_singleton] at hk
    simp only [ChanView.accept]
    rcases Nat.lt_or_ge k v.hist.nodes.length with hold | hge
    · rw [List.getElem_append_left hold]
      exact h.slots k hold
    · obtain rfl : k = v.hist.nodes.length := by omega
      simp [nodeAt, h.inPtr]

theorem InRing.engine (h : InRing v) : InRing v.engine := by
  have hq := h.queued
  have hroom := h.room
  unfold ChanView.engine
  split
  · exact h
  · refine ⟨?_, ?_, h.inPtr, ?_, h.slots⟩
    · simp only
      omega
    · simp only
      omega
    · simp only [h.readPtr, wrapSucc_slotAt]

/-- **Submit**: the new node carries what is new, the others what they carried. -/
theorem Waiting.accept (h : Waiting v ivs) (hring : InRing v) (pTask : CipherTask)
    {soft : CipherSoftChan Cb} {ch : Change} (ht : Tracks soft ch)
    (hlt : v.regs.ibufCnt < ciMaxListNum) :
    Waiting (v.accept c pTask soft) (ivs ++ [ch.iv]) := by
  have hlen := h.length
  have hq := hring.queued
  refine ⟨?_, ?_, ?_⟩
  · simp only [ChanView.accept, List.length_append, List.length_singleton, hlen]
  · simp only [ChanView.accept]
    rw [List.take_append_of_le_length (show v.hist.finished ≤ ivs.length by omega)]
    exact h.processed
  · intro k hk hle
    rw [List.length_append, List.length_singleton] at hk
    simp only [ChanView.accept, submitChan]
    rcases Nat.lt_or_ge k ivs.length with hold | hge
    · rw [List.getElem_append_left hold]
      have hcarries := (h.waiting k hold hle).fillNode_ne
        (hring.slot_ne hlt hle (by omega)) pTask.stData2Process soft
      exact hcarries.congr rfl rfl
    · obtain rfl : k = v.hist.nodes.length := by omega
      rw [List.getElem_append_right hge, ← hring.inPtr]
      simp only [hlen, Nat.sub_self, List.getElem_singleton]
      exact (CarriesIv.fillNode v.chan.unInData.u32CurrentPtr pTask.stData2Process soft v.chan
        ht.ivFlag ht.iv).congr rfl rfl

/-- **The engine's step**: the node whose turn it is starts with what it carries. -/
theorem Waiting.engine (h : Waiting v ivs) (hring : InRing v) : Waiting v.engine ivs := by
  have hlen := h.length
  have hq := hring.queued
  unfold ChanView.engine
  split
  · exact h
  · have hlt : v.hist.finished < ivs.length := by omega
    refine ⟨hlen, ?_, ?_⟩
    · simp only [List.map_append, h.processed, List.take_succ_eq_append_getElem hlt,
        List.map_cons, List.map_nil]
      rw [hring.readPtr, (h.waiting _ hlt (Nat.le_refl _)).engineIv]
    · intro k hk hle
      exact h.waiting k hk (Nat.le_of_succ_le hle)

end

/-- An acknowledgement leaves the input side alone, whatever the slots hold. -/
theorem runDataDone_inKept (c : Chn) (r : DrvRun Cb) :
    InKept (r.view c) ((runDataDone c r).view c) := by
  obtain ⟨hnodes, hfin, hproc, hcnt, -, -, hread, hin, hbuf, hval⟩ := runDataDone_frame r (c := c)
  exact ⟨hnodes, hfin, hproc, hcnt, hread, congrArg _ hin, hbuf, hval⟩

/-! ## Tasks -/

section

variable {r : DrvRun Cb} {c : Chn} {ch : Change}

/-- A task is accepted exactly if the engine has fewer nodes than the ring has slots. -/
theorem creatTaskRet_iff (hc : c ≠ ciPkgx1Chan) (hhw : (r.view c).soft.u32HardWareChn = c)
    (pTask : CipherTask) (pKey : Option (Vector HiU32 8)) (pIV : Option (Vector HiU32 4))
    (idle : Bool) : creatTaskRet c pTask pKey pIV idle r = hiSuccess
      ↔ (r.view c).regs.ibufCnt < ciMaxListNum := by
  refine ⟨fun h => ?_, fun hlt => drvCipherCreatTask_ret r hc hhw hlt pTask pKey pIV idle⟩
  by_contra hge
  rw [view_soft] at hhw
  rw [view_regs] at hge
  have hfail : creatTaskRet c pTask pKey pIV idle r = hiFailure := by
    simp only [creatTaskRet, drvCipherCreatTask, setSoft_soft_self, overrideCtrl_hw, hhw,
      if_neg hc, drvCipherStartMultiPkgChn, setSoft_regs, halCipherGetInBufCnt,
      halCipherGetCount, Option.getD_some, if_neg hge]
  rw [hfail] at h
  exact absurd h (by decide)

/-- The registers after an accepted task. -/
theorem runCreatTask_regs (hc : c ≠ ciPkgx1Chan) (hhw : (r.view c).soft.u32HardWareChn = c)
    (hlt : (r.view c).regs.ibufCnt < ciMaxListNum) (pTask : CipherTask)
    (pKey : Option (Vector HiU32 8)) (pIV : Option (Vector HiU32 4)) (idle : Bool) :
    (runCreatTask c pTask pKey pIV idle r).st.regs
      = (submitRegs c pTask.stData2Process.bDecrypt (overrideCtrl pKey pIV (r.view c).soft)
          r.st.regs).2 := by
  rw [view_soft] at hhw
  rw [view_regs] at hlt
  simp only [runCreatTask, drvCipherCreatTask, setSoft_soft_self, overrideCtrl_hw, hhw,
    if_neg hc, drvCipherStartMultiPkgChn, setSoft_regs, setSoft_chans, halCipherGetInBufCnt,
    halCipherGetCount, Option.getD_some, if_pos hlt, submitRegs_ret hc]
  rw [if_pos ⟨hc, trivial⟩]
  rfl

/-- A submit writes the key first, and tells the engine of the node last. -/
theorem Tracks.keyWritten {soft : CipherSoftChan Cb} (h : Tracks soft ch) (hc : c ≠ ciPkgx1Chan)
    (bDecrypt : Bool) (regs : HalRegs) : ∃ before, KeyWritten c ch regs before ∧
      (submitRegs c bDecrypt soft regs).2 = (halCipherSetInBufCnt c 1 before).2 := by
  refine ⟨(halCipherConfig c bDecrypt soft.bIVChange soft.stCtrl
    (if soft.bKeyChange then halCipherSetKey c soft.stCtrl regs else regs)).2, ?_, rfl⟩
  rw [halCipherConfig_of_ne hc]
  refine ⟨?_, fun hca k hk => ?_, fun hnone => ?_⟩
  · rw [HalRegs.setChan_self]
    unfold halCipherSetKey
    split
    · split
      · rw [HalRegs.setChan_self]
      · rfl
    · rfl
  · rw [HalRegs.setChan_self, h.keyFlag, hk, halCipherSetKey, h.keyByCA, hca]
    simp only [Option.isSome_some, if_true, HalRegs.setChan_self]
    exact h.key k hk
  · rw [HalRegs.setChan_self, h.keyFlag, hnone]
    rfl

/-- **An accepted task.** -/
theorem applied (hc : c ≠ ciPkgx1Chan) (hhw : (r.view c).soft.u32HardWareChn = c)
    (hring : InRing (r.view c)) {pKey : Option (Vector HiU32 8)}
    {pIV : Option (Vector HiU32 4)} (ht : Tracks (overrideCtrl pKey pIV (r.view c).soft) ch)
    (hlt : (r.view c).regs.ibufCnt < ciMaxListNum) (pTask : CipherTask) (idle : Bool) :
    Applied c ch r (runCreatTask c pTask pKey pIV idle r) := by
  have hview := view_runCreatTask r hc hhw pTask pKey pIV idle
  rw [if_pos hlt] at hview
  have hnode : (runCreatTask c pTask pKey pIV idle r).hist c
      = ((r.view c).accept c pTask (overrideCtrl pKey pIV (r.view c).soft)).hist := by
    rw [← view_hist, hview]
  refine ⟨?_, ?_, fun n hn => hring.own hlt hn, ?_⟩
  · rw [hnode]
    exact ⟨_, rfl, rfl⟩
  · rw [hview]
    exact (CarriesIv.fillNode (r.view c).chan.unInData.u32CurrentPtr pTask.stData2Process
      (overrideCtrl pKey pIV (r.view c).soft) (r.view c).chan ht.ivFlag ht.iv).congr rfl rfl
  · rw [runCreatTask_regs hc hhw hlt]
    exact ht.keyWritten hc pTask.stData2Process.bDecrypt r.st.regs

/-- **A refused task.** -/
theorem refused (hc : c ≠ ciPkgx1Chan) (hhw : (r.view c).soft.u32HardWareChn = c)
    (hge : ¬ (r.view c).regs.ibufCnt < ciMaxListNum) (pTask : CipherTask)
    (pKey : Option (Vector HiU32 8)) (pIV : Option (Vector HiU32 4)) (idle : Bool) :
    Refused c pKey.isSome pIV.isSome r (runCreatTask c pTask pKey pIV idle r) := by
  have hview := view_runCreatTask r hc hhw pTask pKey pIV idle
  rw [if_neg hge] at hview
  obtain ⟨hkey, hiv⟩ := overrideCtrl_flags pKey pIV (r.view c).soft
  refine ⟨?_, ?_, ?_, ?_, ?_, ?_, ?_, ?_⟩
  · rw [← view_hist, hview]
    rfl
  · rw [hview]
    rfl
  · rw [hview]
    rfl
  · rw [hview]
    rfl
  · rw [hview]
    rfl
  · rw [hview]
    rfl
  · rw [hview]
    exact hkey
  · rw [hview]
    exact hiv

end

/-! ## Runs -/

/-- What is watched of a channel is so. -/
structure ChanWatched (v : ChanView Cb) (ch : Change) (ivs : List (Option (Vector HiU32 4))) :
    Prop where
  tracks : Tracks v.soft ch
  ring : InRing v
  waiting : Waiting v ivs

/-- What every step keeps. -/
structure WatchInv (w : Watched Cb) : Prop where
  hw : ∀ c, (w.run.view c).soft.u32HardWareChn = c
  chan : ∀ c, c ≠ ciPkgx1Chan → ChanWatched (w.run.view c) (w.change c) (w.ivs c)

/-- A step that leaves the input side and the notes of a channel alone. -/
theorem ChanWatched.kept {v v' : ChanView Cb} {ch : Change}
    {ivs : List (Option (Vector HiU32 4))} (h : ChanWatched v ch ivs) (hk : InKept v v')
    (ht : Tracks v'.soft ch) : ChanWatched v' ch ivs :=
  ⟨ht, h.ring.kept hk, h.waiting.kept hk⟩

theorem ChanWatched.dataDone {r : DrvRun Cb} {d : Chn} {ch : Change}
    {ivs : List (Option (Vector HiU32 4))} (c : Chn) (h : ChanWatched (r.view d) ch ivs) :
    ChanWatched ((runDataDone c r).view d) ch ivs := by
  by_cases hd : d = c
  · subst hd
    refine h.kept (runDataDone_inKept d r) (h.tracks.congr ?_ ?_ ?_) <;>
      rw [view_soft, runDataDone_soft, view_soft]
  · rw [view_runDataDone_ne r hd]
    exact h

section

variable {w : Watched Cb} {c : Chn}

/-- A task, on its own channel. -/
theorem ChanWatched.creatTask (h : WatchInv w) (hc : c ≠ ciPkgx1Chan) (pTask : CipherTask)
    (pKey : Option (Vector HiU32 8)) (pIV : Option (Vector HiU32 4)) (idle : Bool) :
    ChanWatched ((watchStep w (.creatTask c pTask pKey pIV idle)).run.view c)
      ((watchStep w (.creatTask c pTask pKey pIV idle)).change c)
      ((watchStep w (.creatTask c pTask pKey pIV idle)).ivs c) := by
  have hview := view_runCreatTask w.run hc (h.hw c) pTask pKey pIV idle
  have hret := creatTaskRet_iff hc (h.hw c) pTask pKey pIV idle
  have ht := (h.chan c hc).tracks.override pKey pIV
  have hring := (h.chan c hc).ring
  simp only [watchStep]
  split
  · rename_i hok
    rw [if_pos (hret.mp hok)] at hview
    simp only [Function.update_self, drvStep, hview]
    refine ⟨ht.applied rfl rfl rfl, hring.accept pTask _ (hret.mp hok), ?_⟩
    exact (h.chan c hc).waiting.accept hring pTask ht (hret.mp hok)
  · rename_i hno
    rw [if_neg (mt hret.mpr hno)] at hview
    simp only [Function.update_self, drvStep, hview]
    exact ⟨ht, hring.kept (InKept.reject _ _), (h.chan c hc).waiting.kept (InKept.reject _ _)⟩

/-- The other channels do not see it. -/
theorem ChanWatched.creatTask_ne (h : WatchInv w) {d : Chn} (hd0 : d ≠ ciPkgx1Chan) (hd : d ≠ c)
    (pTask : CipherTask) (pKey : Option (Vector HiU32 8)) (pIV : Option (Vector HiU32 4))
    (idle : Bool) :
    ChanWatched ((watchStep w (.creatTask c pTask pKey pIV idle)).run.view d)
      ((watchStep w (.creatTask c pTask pKey pIV idle)).change d)
      ((watchStep w (.creatTask c pTask pKey pIV idle)).ivs d) := by
  have hview := view_runCreatTask_ne w.run hd (h.hw c) pTask pKey pIV idle
  simp only [watchStep]
  split
  · simp only [Function.update_of_ne hd, drvStep, hview]
    exact h.chan d hd0
  · simp only [Function.update_of_ne hd, drvStep, hview]
    exact h.chan d hd0

/-- **One step.** -/
theorem WatchInv.step (h : WatchInv w) (op : DrvOp Cb) : WatchInv (watchStep w op) where
  hw := by
    intro d
    rw [watchStep_run]
    exact hw_step h.hw op d
  chan := by
    intro d hd0
    have hd := h.chan d hd0
    cases op with
    | openChn c =>
      by_cases hdc : d = c
      · subst hdc
        simp only [watchStep, view_openChn w.run hd0]
        exact hd.kept ⟨rfl, rfl, rfl, rfl, rfl, rfl, rfl, rfl⟩ (hd.tracks.congr rfl rfl rfl)
      · simp only [watchStep, view_openChn_ne w.run hdc]
        exact hd
    | closeChn c =>
      by_cases hdc : d = c
      · subst hdc
        simp only [watchStep, view_closeChn]
        exact hd.kept ⟨rfl, rfl, rfl, rfl, rfl, rfl, rfl, rfl⟩ (hd.tracks.congr rfl rfl rfl)
      · simp only [watchStep, view_closeChn_ne w.run hdc]
        exact hd
    | configChn c pConfig f =>
      by_cases hdc : d = c
      · subst hdc
        simp only [watchStep, view_configChn w.run (h.hw d) hd0, Function.update_self]
        have hk := InKept.config (w.run.view d) d pConfig f
        refine ⟨⟨rfl, ?_, rfl, ?_, rfl⟩, hd.ring.kept hk, hd.waiting.kept hk⟩
        · exact fun x hx => Option.some.inj hx
        · exact fun k hk => Option.some.inj hk
      · simp only [watchStep, view_configChn_ne w.run hdc (h.hw c), Function.update_of_ne hdc]
        exact hd
    | creatTask c pTask pKey pIV idle =>
      by_cases hdc : d = c
      · subst hdc
        exact ChanWatched.creatTask h hd0 pTask pKey pIV idle
      · exact ChanWatched.creatTask_ne h hd0 hdc pTask pKey pIV idle
    | engine c =>
      by_cases hdc : d = c
      · subst hdc
        simp only [watchStep, drvStep, view_runEngine]
        refine ⟨?_, hd.ring.engine, hd.waiting.engine hd.ring⟩
        unfold ChanView.engine
        split <;> exact hd.tracks
      · simp only [watchStep, drvStep, view_runEngine_ne w.run hdc]
        exact hd
    | dataDone c =>
      simp only [watchStep, drvStep]
      exact ChanWatched.dataDone c hd
    | isr INTValue =>
      simp only [watchStep, drvStep]
      exact runIsr_inv (I := fun r => ChanWatched (r.view d) (w.change d) (w.ivs d)) w.run
        (fun c _ hr => hr.dataDone c) INTValue hd

end

theorem watchStart_inv (ctrl : Chn → HiU32) (key : Chn → Vector HiU32 8) :
    WatchInv (watchStart Cb ctrl key) where
  hw := by
    intro c
    fin_cases c <;> rfl
  chan := by
    intro c hc
    fin_cases c
    · exact absurd rfl hc
    all_goals
      refine ⟨⟨rfl, fun x hx => ?_, rfl, fun k hk => ?_, rfl⟩, ⟨rfl, Nat.zero_le _, rfl, rfl, ?_⟩,
        ⟨rfl, rfl, ?_⟩⟩
      · cases hx
      · cases hk
      · exact fun k hk => absurd hk (Nat.not_lt_zero k)
      · exact fun k hk => absurd hk (Nat.not_lt_zero k)

theorem WatchInv.propagated {w : Watched Cb} (h : WatchInv w) (op : DrvOp Cb) :
    Propagated w op := by
  cases op with
  | creatTask c pTask pKey pIV idle =>
    intro hc
    have hret := creatTaskRet_iff hc (h.hw c) pTask pKey pIV idle
    have ht := (h.chan c hc).tracks.override pKey pIV
    refine ⟨fun hok => ?_, fun hno => ?_⟩
    · exact applied hc (h.hw c) (h.chan c hc).ring ht (hret.mp hok) pTask idle
    · exact refused hc (h.hw c) (mt hret.mpr hno) pTask pKey pIV idle
  | openChn c => trivial
  | closeChn c => trivial
  | configChn c pConfig f => trivial
  | engine c => trivial
  | dataDone c => trivial
  | isr INTValue => trivial

/-- **Changes take effect once**: in every run, each accepted task has what changed since the last
one applied to its own node, each refused task leaves the ring and the notes made before as they
are, and the engine starts every node with the vector that was new for it and no other. -/
theorem changes_propagate (ctrl : Chn → HiU32) (key : Chn → Vector HiU32 8)
    (ops : List (DrvOp Cb)) : Along watchStep Propagated (watchStart Cb ctrl key) ops ∧
      Always watchStep StartedRight (watchStart Cb ctrl key) ops := by
  have hinv : Always watchStep WatchInv (watchStart Cb ctrl key) ops :=
    always_of_step (fun _ op h => h.step op) ops (watchStart_inv ctrl key)
  refine ⟨along_of_always (fun _ op h => h.propagated op) hinv, hinv.mono fun w h c hc => ?_⟩
  exact (h.chan c hc).waiting.processed

/-- The control block of a channel whose keys come from the conditional-access module. -/
def caCtrl : HiUnfCipherCtrl :=
  { zeroCtrl with u32Key := Vector.replicate 8 1, bKeyByCA := 1 }

/-- The driver with every channel opened, its registers all zero. -/
def zeroWatch : Watched Unit := watchStart Unit (fun _ => 0) fun _ => Vector.replicate 8 0

/-- After 128 submits to a configured channel the ring is full and nothing is noted. -/
theorem full_zeroStart : ∃ r : DrvRun Unit, exec drvStep zeroStart
      (List.replicate 128 (.creatTask 1 (zeroTask 1) none none true)) = r ∧
    (∀ c, (r.view c).soft.u32HardWareChn = c) ∧ (r.view 1).regs.ibufCnt = 128 ∧
    (r.view 1).soft.bIVChange = false := by
  refine ⟨_, rfl, ?_⟩
  obtain ⟨hi, -, hb, -⟩ := exec_submits _ rfl 127 (by decide)
  obtain ⟨hi', -, hb', -⟩ := exec_submits _ rfl 128 (Nat.le_refl _)
  refine ⟨hi'.hw, hb', ?_⟩
  -- the last of them was accepted
  rw [List.replicate_succ', exec_append, exec_cons, exec_nil]
  generalize exec drvStep zeroStart (List.replicate 127 _) = r at hi hb
  have hview := view_runCreatTask r (c := 1) (by decide) (hi.hw 1) (zeroTask 1) none none true
  rw [if_pos (by rw [hb]; decide)] at hview
  rw [drvStep, hview]
  rfl

/-- A key from the conditional-access module is not loaded, and a task the full ring refuses leaves
a note of the vector it brought. -/
theorem changes_propagate_broken :
    (¬ ∀ ops, Along watchStep KeyReaches zeroWatch ops) ∧
      ¬ ∀ ops, Along watchStep NotesKept zeroWatch ops := by
  refine ⟨fun h => ?_, fun h => ?_⟩
  · have hkey := (h [.configChn 1 caCtrl (), .creatTask 1 (zeroTask 1) none none true]).2.1
      (by decide) (by decide) (Vector.replicate 8 1) (by decide)
    revert hkey
    decide
  · obtain ⟨r, hr, hhw, hb, hiv⟩ := full_zeroStart
    have hall := h (multiPkgChns.map (fun c => .configChn c zeroCtrl ()) ++
      (List.replicate 128 (.creatTask 1 (zeroTask 1) none none true) ++
        [.creatTask 1 (zeroTask 1) none (some (Vector.replicate 4 1)) true]))
    rw [along_append, along_append] at hall
    have hnote := hall.2.2.1
    have hrun : (exec watchStep (exec watchStep zeroWatch
        (multiPkgChns.map fun c => .configChn c zeroCtrl ()))
        (List.replicate 128 (.creatTask 1 (zeroTask 1) none none true))).run = r := by
      rw [exec_watchStep_run, exec_watchStep_run, ← hr]
      rfl
    generalize exec watchStep (exec watchStep zeroWatch _) _ = w at hnote hrun
    subst hrun
    have hret := creatTaskRet_iff (c := 1) (by decide) (hhw 1) (zeroTask 1) none
      (some (Vector.replicate 4 1)) true
    have hfull := hnote (by decide) (by rw [ne_eq, hret, hb]; decide)
    have hview := view_runCreatTask w.run (c := 1) (by decide) (hhw 1) (zeroTask 1) none
      (some (Vector.replicate 4 1)) true
    rw [if_neg (by rw [hb]; decide)] at hview
    rw [hview, hiv] at hfull
    exact Bool.noConfusion hfull.2

end ExtDrv.Cipher
