import ExtDrv.Lib.Run
import ExtDrv.Lib.Sessions
import ExtDrv.Rt3370.BaTable

/-!
# The session tables agree

The originator and the recipient table, each with its counter, the slots and
the bitmap of the stations, read as a `Table.Sessions`; every operation of the
adapter opens, establishes or closes one of its sessions, or leaves both tables
as they are. The exceptions are the requests and tear-downs of a TID from 8 on,
which reach a recipient entry through an originator slot.
-/

namespace ExtDrv.Rt3370

/-! ## The tables as sessions -/

/-- Whose session it is: station and TID. -/
abbrev SessionKey : Type := Fin 32 × Fin 16

/-- The entry a slot names, 0 for none. -/
def slotEntry (idx : Fin 128) : Option (Fin 128) := if idx = 0 then none else some idx

@[simp] theorem slotEntry_zero : slotEntry 0 = none := rfl

theorem slotEntry_of_ne {idx : Fin 128} (h : idx ≠ 0) : slotEntry idx = some idx := if_neg h

theorem slotEntry_eq_some {idx i : Fin 128} : slotEntry idx = some i ↔ idx = i ∧ i ≠ 0 := by
  unfold slotEntry
  split
  · rename_i h
    exact ⟨(fun hs => nomatch hs), fun hi => absurd (hi.1.symm.trans h) hi.2⟩
  · rename_i h
    rw [Option.some.injEq]
    exact ⟨fun hi => ⟨hi, hi ▸ h⟩, And.left⟩

theorem slotEntry_eq_none {idx : Fin 128} : slotEntry idx = none ↔ idx = 0 := by
  unfold slotEntry
  split <;> simp_all

theorem lt_sixteen (tid : Fin 8) : (tid : Nat) < 16 := by omega

/-- The TID of an originator entry, as frames carry it. -/
def wideTid (tid : Fin 8) : Fin 16 := ⟨tid, lt_sixteen tid⟩

theorem wideTid_inj {t t' : Fin 8} : wideTid t = wideTid t' ↔ t = t' := by
  simp only [wideTid, Fin.mk.injEq, Fin.val_inj]

theorem oriSlot_wideTid (sta : MacTableEntry) (tid : Fin 8) :
    sta.oriSlot (wideTid tid) = sta.BAOriWcidArray tid := by
  rw [MacTableEntry.oriSlot, dif_pos (show (wideTid tid : Nat) < 8 from tid.isLt)]
  rfl

/-- The session an originator entry serves. -/
def BaOriEntry.session (ent : BaOriEntry) : Option (SessionKey × Bool) :=
  if ent.ORI_BA_Status = .originatorNone then none
  else some ((ent.Wcid, wideTid ent.TID), decide (ent.ORI_BA_Status = .originatorDone))

/-- The session a recipient entry serves. -/
def BaRecEntry.session (ent : BaRecEntry) : Option (SessionKey × Bool) :=
  if ent.REC_BA_Status = .recipientNone then none
  else some ((ent.Wcid, ent.TID), decide (ent.REC_BA_Status = .recipientAccept))

/-- What a station keeps of its originator sessions. -/
def MacTableEntry.oriPart (sta : MacTableEntry) : (Fin 16 → Option (Fin 128)) × BitVec 16 :=
  (fun tid => slotEntry (sta.oriSlot tid), sta.TXBAbitmap)

/-- What a station keeps of its recipient sessions. -/
def MacTableEntry.recPart (sta : MacTableEntry) : (Fin 16 → Option (Fin 128)) × BitVec 16 :=
  (fun tid => if h : (tid : Nat) < 8 then slotEntry (sta.BARecWcidArray ⟨tid, h⟩) else none,
    sta.RXBAbitmap)

namespace RtmpAdapter

/-- The originator table. -/
def oriSessions (ad : RtmpAdapter) : Table.Sessions (Fin 128) SessionKey :=
  { entry := fun i => (ad.BAOriEntry i).session,
    slot := fun k => (ad.Content k.1).oriPart.1 k.2,
    count := ad.numAsOriginator,
    done := ad.numDoneOriginator,
    flag := fun k => (ad.Content k.1).oriPart.2.getLsbD k.2 }

/-- The recipient table. Its one counter counts the established sessions too,
there are no others between two steps. -/
def recSessions (ad : RtmpAdapter) : Table.Sessions (Fin 128) SessionKey :=
  { entry := fun i => (ad.BARecEntry i).session,
    slot := fun k => (ad.Content k.1).recPart.1 k.2,
    count := ad.numAsRecipient,
    done := ad.numAsRecipient,
    flag := fun k => (ad.Content k.1).recPart.2.getLsbD k.2 }

end RtmpAdapter

/-- Both tables are sound. -/
structure TablesSound (ad : RtmpAdapter) : Prop where
  ori : ad.oriSessions.Sound
  recip : ad.recSessions.Sound

/-! ## Frames -/

theorem oriSessions_congr {ad ad' : RtmpAdapter}
    (hent : ∀ i, (ad'.BAOriEntry i).session = (ad.BAOriEntry i).session)
    (hsta : ∀ w, (ad'.Content w).oriPart = (ad.Content w).oriPart)
    (hcount : ad'.numAsOriginator = ad.numAsOriginator)
    (hdone : ad'.numDoneOriginator = ad.numDoneOriginator) : ad'.oriSessions = ad.oriSessions := by
  simp only [RtmpAdapter.oriSessions, hent, hsta, hcount, hdone]

theorem recSessions_congr {ad ad' : RtmpAdapter}
    (hent : ∀ i, (ad'.BARecEntry i).session = (ad.BARecEntry i).session)
    (hsta : ∀ w, (ad'.Content w).recPart = (ad.Content w).recPart)
    (hcount : ad'.numAsRecipient = ad.numAsRecipient) : ad'.recSessions = ad.recSessions := by
  simp only [RtmpAdapter.recSessions, hent, hsta, hcount]

theorem TablesSound.congr {ad ad' : RtmpAdapter} (h : TablesSound ad)
    (hori : ad'.oriSessions = ad.oriSessions) (hrec : ad'.recSessions = ad.recSessions) :
    TablesSound ad' := ⟨hori ▸ h.ori, hrec ▸ h.recip⟩

section Stations

variable {sta sta' : Fin 32 → MacTableEntry} {w : Fin 32} {e : MacTableEntry}

/-- What one station's rewriting keeps, it keeps of every station. -/
theorem station_congr {β : Sort*} (hsta : sta' = Function.update sta w e)
    (g : MacTableEntry → β) (h : g e = g (sta w)) (v : Fin 32) : g (sta' v) = g (sta v) := by
  rw [hsta]
  by_cases hv : v = w
  · subst hv
    rw [Function.update_self, h]
  · rw [Function.update_of_ne hv]

variable (part : MacTableEntry → (Fin 16 → Option (Fin 128)) × BitVec 16) {t : Fin 16}

/-- A slot rewritten at one station and TID. -/
theorem slot_update (hsta : sta' = Function.update sta w e) {x : Option (Fin 128)}
    (h : (part e).1 = Function.update (part (sta w)).1 t x) :
    (fun k : SessionKey => (part (sta' k.1)).1 k.2)
      = Function.update (fun k : SessionKey => (part (sta k.1)).1 k.2) (w, t) x := by
  funext ⟨v, u⟩
  rw [hsta]
  by_cases hv : v = w
  · subst hv
    rw [Function.update_self, h]
    by_cases hu : u = t
    · subst hu
      rw [Function.update_self, Function.update_self]
    · rw [Function.update_of_ne hu, Function.update_of_ne fun he => hu (congrArg Prod.snd he)]
  · rw [Function.update_of_ne hv, Function.update_of_ne fun he => hv (congrArg Prod.fst he)]

/-- A bit rewritten at one station and TID. -/
theorem flag_update (hsta : sta' = Function.update sta w e) {x : Bool}
    (h : ∀ u : Fin 16, (part e).2.getLsbD u
      = if u = t then x else (part (sta w)).2.getLsbD u) :
    (fun k : SessionKey => (part (sta' k.1)).2.getLsbD k.2)
      = Function.update (fun k : SessionKey => (part (sta k.1)).2.getLsbD k.2) (w, t) x := by
  funext ⟨v, u⟩
  rw [hsta]
  by_cases hv : v = w
  · subst hv
    rw [Function.update_self, h]
    by_cases hu : u = t
    · subst hu
      rw [Function.update_self, if_pos rfl]
    · rw [if_neg hu, Function.update_of_ne fun he => hu (congrArg Prod.snd he)]
  · rw [Function.update_of_ne hv, Function.update_of_ne fun he => hv (congrArg Prod.fst he)]

end Stations

theorem setSta_setSta (ad : RtmpAdapter) (w : Fin 32) (f g : MacTableEntry → MacTableEntry) :
    (ad.setSta w f).setSta w g = ad.setSta w fun sta => g (f sta) := by
  simp only [RtmpAdapter.setSta, Function.update_self, Function.update_idem]

theorem getLsbD_tidBit (t u : Fin 16) : (tidBit t).getLsbD u = decide (u = t) := by
  rw [tidBit, BitVec.getLsbD_shiftLeft, BitVec.getLsbD_one]
  by_cases h : u = t
  · subst h
    simp
  · have hne : (u : Nat) ≠ t := fun he => h (Fin.ext he)
    by_cases hlt : (u : Nat) < t
    · simp [h, hlt]
    · have hsub : (u : Nat) - t ≠ 0 := by omega
      simp [h, hsub]

theorem getLsbD_or_tidBit (bits : BitVec 16) (t u : Fin 16) :
    (bits ||| tidBit t).getLsbD u = if u = t then true else bits.getLsbD u := by
  rw [BitVec.getLsbD_or, getLsbD_tidBit]
  by_cases h : u = t <;> simp [h]

theorem getLsbD_clear_tidBit (bits : BitVec 16) (t u : Fin 16) :
    (bits &&& ~~~(tidBit t)).getLsbD u = if u = t then false else bits.getLsbD u := by
  rw [BitVec.getLsbD_and, BitVec.getLsbD_not, getLsbD_tidBit]
  by_cases h : u = t <;> simp [h]

theorem setOriSlot_oriPart (sta : MacTableEntry) (t : Fin 8) (idx : Fin 128) :
    (sta.setOriSlot t idx).oriPart.1
      = Function.update sta.oriPart.1 (wideTid t) (slotEntry idx) := by
  funext u
  by_cases hu : u = wideTid t
  · subst hu
    simp [MacTableEntry.oriPart, MacTableEntry.oriSlot, MacTableEntry.setOriSlot, wideTid]
  · rw [Function.update_of_ne hu]
    simp only [MacTableEntry.oriPart, MacTableEntry.oriSlot, MacTableEntry.setOriSlot]
    by_cases h8 : (u : Nat) < 8
    · rw [dif_pos h8, dif_pos h8, Function.update_of_ne]
      intro he
      have hval := congrArg Fin.val he
      exact hu (Fin.ext hval)
    · rw [dif_neg h8, dif_neg h8]

theorem setRecSlot_recPart (sta : MacTableEntry) {t : Fin 16} (ht : (t : Nat) < 8)
    (idx : Fin 128) :
    (sta.setRecSlot t idx).recPart.1 = Function.update sta.recPart.1 t (slotEntry idx) := by
  funext u
  simp only [MacTableEntry.recPart, MacTableEntry.setRecSlot, dif_pos ht]
  by_cases hu : u = t
  · subst hu
    simp [ht]
  · rw [Function.update_of_ne hu]
    by_cases h8 : (u : Nat) < 8
    · rw [dif_pos h8, dif_pos h8, Function.update_of_ne]
      intro he
      have hval := congrArg Fin.val he
      exact hu (Fin.ext hval)
    · rw [dif_neg h8, dif_neg h8]

/-- The sessions of a table after one entry is rewritten. -/
theorem entry_update {α β : Type*} (session : α → β) {f f' : Fin 128 → α} {i : Fin 128} {x : α}
    (h : f' = Function.update f i x) :
    (fun j => session (f' j)) = Function.update (fun j => session (f j)) i (session x) := by
  rw [h]
  exact Function.comp_update session f i x

/-! ## Counters -/

theorem ulongDec_of_pos {n : Nat} (h : 0 < n) : ulongDec n = n - 1 := if_neg (by omega)

/-- A counter stays below its table's length. -/
theorem ulongInc_of_lt {n : Nat} (h : n ≤ 128) : ulongInc n = n + 1 := by
  rw [ulongInc, if_neg]
  intro he
  have hn : n < 0xFFFFFFFF := Nat.lt_of_le_of_lt h (by decide)
  exact absurd he hn.ne

theorem count_le {s : Table.Sessions (Fin 128) SessionKey} (h : s.Sound) :
    s.done ≤ s.count ∧ s.count ≤ 128 := by
  constructor
  · rw [h.done, h.count]
    exact Finset.sum_le_sum fun i _ => Table.Sessions.live_le_used _
  · rw [h.count]
    calc ∑ i, Table.Sessions.used (s.entry i) ≤ ∑ _ : Fin 128, 1 := by
          refine Finset.sum_le_sum fun i _ => ?_
          cases s.entry i <;> simp
      _ = 128 := by simp

/-- The scan finds an entry while there is room. -/
theorem firstFree_spec {s : Table.Sessions (Fin 128) SessionKey} (h : s.Sound)
    {p : Fin 128 → Bool} (hfree : ∀ i, p i = true ↔ s.entry i = none)
    (hroom : s.count < 127) : ∃ i, RtmpAdapter.firstFree p = some i ∧ i ≠ 0
      ∧ s.entry i = none := by
  have hcard : s.count < (Finset.univ.erase (0 : Fin 128)).card := by
    rw [Finset.card_erase_of_mem (Finset.mem_univ _), Finset.card_univ, Fintype.card_fin]
    exact hroom
  obtain ⟨j, hj, hnone⟩ := h.exists_free hcard
  have hmem : ∀ i : Fin 128, i ∈ (List.finRange 128).drop 1 ↔ i ≠ 0 := by
    intro i
    rw [List.finRange_succ, List.drop_one, List.tail_cons, List.mem_map]
    constructor
    · rintro ⟨m, -, rfl⟩
      exact Fin.succ_ne_zero m
    · intro hi
      exact ⟨i.pred hi, List.mem_finRange _, Fin.succ_pred i hi⟩
  have hsome : (RtmpAdapter.firstFree p).isSome := by
    rw [RtmpAdapter.firstFree, List.find?_isSome]
    exact ⟨j, (hmem j).mpr (Finset.ne_of_mem_erase hj), (hfree j).mpr hnone⟩
  obtain ⟨i, hi⟩ := Option.isSome_iff_exists.mp hsome
  have hin := List.mem_of_find?_eq_some hi
  exact ⟨i, hi, (hmem i).mp hin, (hfree i).mp (List.find?_some hi)⟩

/-! ## The originator table -/

theorem oriSession_none {ent : BaOriEntry} :
    ent.session = none ↔ ent.ORI_BA_Status = .originatorNone := by
  unfold BaOriEntry.session
  split <;> simp_all

theorem oriSession_some {ent : BaOriEntry} (h : ent.ORI_BA_Status ≠ .originatorNone) :
    ent.session = some ((ent.Wcid, wideTid ent.TID),
      decide (ent.ORI_BA_Status = .originatorDone)) := if_neg h

/-- What a non-zero slot names: an entry in use, of this station and TID. -/
theorem TablesSound.ori_slot {ad : RtmpAdapter} (h : TablesSound ad) {w : Fin 32} {tid : Fin 16}
    (hne : (ad.Content w).oriSlot tid ≠ 0) :
    (ad.BAOriEntry ((ad.Content w).oriSlot tid)).ORI_BA_Status ≠ .originatorNone
      ∧ (ad.BAOriEntry ((ad.Content w).oriSlot tid)).Wcid = w
      ∧ wideTid (ad.BAOriEntry ((ad.Content w).oriSlot tid)).TID = tid := by
  have hslot : ad.oriSessions.slot (w, tid) = some ((ad.Content w).oriSlot tid) :=
    slotEntry_of_ne hne
  obtain ⟨b, hent⟩ := h.ori.entry_of_slot hslot
  have hent' : (ad.BAOriEntry ((ad.Content w).oriSlot tid)).session = some ((w, tid), b) := hent
  have hused : (ad.BAOriEntry ((ad.Content w).oriSlot tid)).ORI_BA_Status ≠ .originatorNone :=
    fun hnone => nomatch (oriSession_none.mpr hnone).symm.trans hent'
  rw [oriSession_some hused] at hent'
  have hkey := congrArg Prod.fst (Option.some.inj hent')
  exact ⟨hused, congrArg Prod.fst hkey, congrArg Prod.snd hkey⟩

/-- The station of a freed originator entry. -/
def RtmpAdapter.oriFreedSta (ad : RtmpAdapter) (idx : Fin 128) : MacTableEntry :=
  let ent := ad.BAOriEntry idx
  let sta := (ad.Content ent.Wcid).setOriSlot ent.TID 0
  if ent.ORI_BA_Status = .originatorDone then
    { sta with TXBAbitmap := sta.TXBAbitmap &&& ~~~(tidBit ent.TID) }
  else sta

/-- What `BATableFreeOriEntry` writes. -/
theorem oriFree_fields {ad : RtmpAdapter} {idx : Fin 128} (hidx : idx ≠ 0)
    (hused : (ad.BAOriEntry idx).ORI_BA_Status ≠ .originatorNone) :
    (ad.baTableFreeOriEntry idx).Content
        = Function.update ad.Content (ad.BAOriEntry idx).Wcid (ad.oriFreedSta idx)
      ∧ (ad.baTableFreeOriEntry idx).BAOriEntry = Function.update ad.BAOriEntry idx
          { ad.BAOriEntry idx with ORI_BA_Status := .originatorNone, Token := 0 }
      ∧ (ad.baTableFreeOriEntry idx).numAsOriginator = ulongDec ad.numAsOriginator
      ∧ (ad.baTableFreeOriEntry idx).numDoneOriginator
        = (if (ad.BAOriEntry idx).ORI_BA_Status = .originatorDone then
            ulongDec ad.numDoneOriginator else ad.numDoneOriginator)
      ∧ (ad.baTableFreeOriEntry idx).BARecEntry = ad.BARecEntry
      ∧ (ad.baTableFreeOriEntry idx).numAsRecipient = ad.numAsRecipient := by
  unfold RtmpAdapter.baTableFreeOriEntry RtmpAdapter.oriFreedSta
  rw [if_neg hidx]
  dsimp only
  rw [if_pos hused]
  by_cases hd : (ad.BAOriEntry idx).ORI_BA_Status = .originatorDone
  · simp only [if_pos hd, setSta_setSta]
    exact ⟨rfl, rfl, rfl, rfl, rfl, rfl⟩
  · simp only [if_neg hd]
    exact ⟨rfl, rfl, rfl, rfl, rfl, rfl⟩

/-- **Freeing** an originator entry closes its session. -/
theorem oriFree_finish {ad : RtmpAdapter} (h : TablesSound ad) {idx : Fin 128} (hidx : idx ≠ 0)
    (hused : (ad.BAOriEntry idx).ORI_BA_Status ≠ .originatorNone) :
    (ad.baTableFreeOriEntry idx).oriSessions
      = ad.oriSessions.finish idx
          ((ad.BAOriEntry idx).Wcid, wideTid (ad.BAOriEntry idx).TID)
          (decide ((ad.BAOriEntry idx).ORI_BA_Status = .originatorDone)) := by
  have hent : ad.oriSessions.entry idx = _ := oriSession_some hused
  obtain ⟨hsta, hori, hnum, hdone, -, -⟩ := oriFree_fields hidx hused
  have hslot : (ad.oriFreedSta idx).oriPart.1
      = Function.update (ad.Content (ad.BAOriEntry idx).Wcid).oriPart.1
        (wideTid (ad.BAOriEntry idx).TID) none := by
    unfold RtmpAdapter.oriFreedSta
    dsimp only
    split <;> exact setOriSlot_oriPart _ _ 0
  refine Table.Sessions.ext (entry_update BaOriEntry.session hori)
    (slot_update MacTableEntry.oriPart hsta hslot)
    (hnum.trans (ulongDec_of_pos (h.ori.count_pos hent))) ?_ ?_
  · refine hdone.trans ?_
    by_cases hd : (ad.BAOriEntry idx).ORI_BA_Status = .originatorDone
    · have hpos : 0 < ad.numDoneOriginator :=
        h.ori.done_pos (i := idx) (by rw [hent, decide_eq_true hd])
      rw [if_pos hd, ulongDec_of_pos hpos, decide_eq_true hd]
      rfl
    · rw [if_neg hd, decide_eq_false hd]
      rfl
  · by_cases hd : (ad.BAOriEntry idx).ORI_BA_Status = .originatorDone
    · have hbits : (ad.oriFreedSta idx).oriPart.2
          = (ad.Content (ad.BAOriEntry idx).Wcid).oriPart.2
            &&& ~~~(tidBit (wideTid (ad.BAOriEntry idx).TID)) := by
        unfold RtmpAdapter.oriFreedSta
        dsimp only
        rw [if_pos hd]
        rfl
      rw [decide_eq_true hd]
      refine flag_update MacTableEntry.oriPart hsta fun u => ?_
      rw [hbits, getLsbD_clear_tidBit]
    · have hbits : (ad.oriFreedSta idx).oriPart.2
          = (ad.Content (ad.BAOriEntry idx).Wcid).oriPart.2 := by
        unfold RtmpAdapter.oriFreedSta
        dsimp only
        rw [if_neg hd]
        rfl
      rw [decide_eq_false hd]
      funext k
      have hkeep := station_congr hsta (fun sta => sta.oriPart.2) hbits k.1
      exact congrArg (BitVec.getLsbD · k.2) hkeep

/-- Freeing any originator entry keeps both tables sound. -/
theorem oriFree_sound {ad : RtmpAdapter} (h : TablesSound ad) (idx : Fin 128) :
    TablesSound (ad.baTableFreeOriEntry idx) := by
  by_cases hidx : idx = 0
  · rw [RtmpAdapter.baTableFreeOriEntry, if_pos hidx]
    exact h
  by_cases hused : (ad.BAOriEntry idx).ORI_BA_Status = .originatorNone
  · have hsame : ad.baTableFreeOriEntry idx = ad := by
      rw [RtmpAdapter.baTableFreeOriEntry, if_neg hidx]
      exact if_neg (not_not.mpr hused)
    rw [hsame]
    exact h
  · obtain ⟨hsta, -, -, -, hent, hnum⟩ := oriFree_fields hidx hused
    refine ⟨oriFree_finish h hidx hused ▸ h.ori.finish (oriSession_some hused), ?_⟩
    refine recSessions_congr (fun i => by rw [hent]) (fun w => ?_) hnum ▸ h.recip
    refine station_congr hsta MacTableEntry.recPart ?_ w
    unfold RtmpAdapter.oriFreedSta
    dsimp only
    split <;> rfl

theorem oriTearDown_sound {ad : RtmpAdapter} (h : TablesSound ad) (wcid : Nat) (tid : Fin 16)
    (bPassive memOk : Bool) : TablesSound (ad.baOriSessionTearDown wcid tid bPassive memOk) := by
  unfold RtmpAdapter.baOriSessionTearDown
  split
  · dsimp only
    split
    · exact h
    · split
      · exact h
      · exact oriFree_sound h _
  · exact h

theorem oriTimeout_sound {ad : RtmpAdapter} (h : TablesSound ad) (i : Fin 128)
    (busy scan : Bool) : TablesSound (ad.baOriSessionSetupTimeout i busy scan) := by
  unfold RtmpAdapter.baOriSessionSetupTimeout
  split
  · exact h
  · dsimp only
    split
    · split
      · exact h
      · refine h.congr (Table.Sessions.ext ?_ rfl rfl rfl rfl) rfl
        exact (entry_update BaOriEntry.session rfl).trans (Function.update_eq_self i _)
    · exact oriFree_sound h _

/-- What `BAOriSessionAdd` writes for a session that waits for it. -/
theorem oriAdd_fields {ad : RtmpAdapter} {w : Fin 32} {f : FrameAddba}
    (hne : (ad.Content w).oriSlot f.TID ≠ 0)
    (htid : ((ad.BAOriEntry ((ad.Content w).oriSlot f.TID)).TID : Nat) = f.TID)
    (hwait : (ad.BAOriEntry ((ad.Content w).oriSlot f.TID)).ORI_BA_Status = .originatorWaitRes) :
    (ad.baOriSessionAdd w f).Content = Function.update ad.Content w
        { ad.Content w with TXBAbitmap := (ad.Content w).TXBAbitmap ||| tidBit f.TID }
      ∧ (∃ ent, (ad.baOriSessionAdd w f).BAOriEntry
          = Function.update ad.BAOriEntry ((ad.Content w).oriSlot f.TID) ent
        ∧ ent.Wcid = (ad.BAOriEntry ((ad.Content w).oriSlot f.TID)).Wcid
        ∧ ent.TID = (ad.BAOriEntry ((ad.Content w).oriSlot f.TID)).TID
        ∧ ent.ORI_BA_Status = .originatorDone)
      ∧ (ad.baOriSessionAdd w f).numAsOriginator = ad.numAsOriginator
      ∧ (ad.baOriSessionAdd w f).numDoneOriginator = ulongInc ad.numDoneOriginator
      ∧ (ad.baOriSessionAdd w f).BARecEntry = ad.BARecEntry
      ∧ (ad.baOriSessionAdd w f).numAsRecipient = ad.numAsRecipient := by
  unfold RtmpAdapter.baOriSessionAdd
  dsimp only
  rw [if_pos ⟨hne, htid, hwait⟩]
  exact ⟨rfl, ⟨_, rfl, rfl, rfl, rfl⟩, rfl, rfl, rfl, rfl⟩

/-- **An ADDBA response** establishes the session it answers. -/
theorem oriAdd_sound {ad : RtmpAdapter} (h : TablesSound ad) (w : Fin 32) (f : FrameAddba) :
    TablesSound (ad.baOriSessionAdd w f) := by
  by_cases hc : (ad.Content w).oriSlot f.TID ≠ 0
      ∧ ((ad.BAOriEntry ((ad.Content w).oriSlot f.TID)).TID : Nat) = f.TID
      ∧ (ad.BAOriEntry ((ad.Content w).oriSlot f.TID)).ORI_BA_Status = .originatorWaitRes
  · obtain ⟨hsta, ⟨ent, hori, hentW, hentT, hentS⟩, hnum, hdone, hrec, hnumRec⟩ :=
      oriAdd_fields hc.1 hc.2.1 hc.2.2
    obtain ⟨hused, hw, htid⟩ := h.ori_slot hc.1
    have hwait := hc.2.2
    generalize (ad.Content w).oriSlot f.TID = idx at hori hentW hentT hused hw htid hwait
    have hent : ad.oriSessions.entry idx = some ((w, f.TID), false) := by
      change (ad.BAOriEntry idx).session = _
      rw [oriSession_some hused, hw, htid, hwait]
      rfl
    have hsession : ent.session = some ((w, f.TID), true) := by
      rw [oriSession_some (by rw [hentS]; decide), hentW, hentT, hentS, hw, htid]
      rfl
    have hinc : ulongInc ad.numDoneOriginator = ad.numDoneOriginator + 1 :=
      ulongInc_of_lt ((count_le h.ori).1.trans (count_le h.ori).2)
    have hconfirm : (ad.baOriSessionAdd w f).oriSessions
        = ad.oriSessions.confirm idx (w, f.TID) := by
      refine Table.Sessions.ext ?_ ?_ hnum (hdone.trans hinc) ?_
      · exact (entry_update BaOriEntry.session hori).trans (by rw [hsession]; rfl)
      · funext k
        exact congrFun (station_congr hsta (fun sta => sta.oriPart.1) rfl k.1) k.2
      · exact flag_update MacTableEntry.oriPart hsta fun u => getLsbD_or_tidBit _ f.TID u
    refine ⟨hconfirm ▸ h.ori.confirm hent, ?_⟩
    refine recSessions_congr (fun i => by rw [hrec]) (fun v => ?_) hnumRec ▸ h.recip
    exact station_congr hsta MacTableEntry.recPart rfl v
  · have hsame : ad.baOriSessionAdd w f = ad := if_neg hc
    rw [hsame]
    exact h

theorem oriAlloc_some {ad : RtmpAdapter} (h : TablesSound ad) (idx : Fin 128)
    (hroom : ¬ maxLenOfBaTable - 1 ≤ ad.numAsOriginator) :
    ∃ i ent, (ad.BAOriEntry i).ORI_BA_Status = .originatorNone ∧ i ≠ 0
      ∧ ent.ORI_BA_Status = .originatorUsed
      ∧ ad.baTableAllocOriEntry idx = ({ ad.setOri i ent with
          numAsOriginator := ulongInc ad.numAsOriginator }, some i, i) := by
  obtain ⟨i, hi, hi0, hnone⟩ := firstFree_spec h.ori
    (p := fun i => decide ((ad.BAOriEntry i).ORI_BA_Status = .originatorNone))
    (fun i => decide_eq_true_iff.trans oriSession_none.symm) (Nat.lt_of_not_le hroom)
  refine ⟨i, { ad.BAOriEntry i with ORI_BA_Status := .originatorUsed }, oriSession_none.mp hnone,
    hi0, rfl, ?_⟩
  rw [RtmpAdapter.baTableAllocOriEntry, if_neg hroom, hi]

/-- A session opened for station `w` in the free entry `i`. -/
theorem TablesSound.oriStart {ad ad' : RtmpAdapter} (h : TablesSound ad) {w : Fin 32}
    {tid : Fin 8} {i : Fin 128} {ent : BaOriEntry}
    (hfree : (ad.BAOriEntry i).ORI_BA_Status = .originatorNone) (hi0 : i ≠ 0)
    (hslot : (ad.Content w).BAOriWcidArray tid = 0)
    (hori : ad'.BAOriEntry = Function.update ad.BAOriEntry i ent)
    (hent : ent.session = some ((w, wideTid tid), false))
    (hsta : ad'.Content = Function.update ad.Content w ((ad.Content w).setOriSlot tid i))
    (hnum : ad'.numAsOriginator = ulongInc ad.numAsOriginator)
    (hdone : ad'.numDoneOriginator = ad.numDoneOriginator)
    (hrec : ad'.BARecEntry = ad.BARecEntry) (hnumRec : ad'.numAsRecipient = ad.numAsRecipient) :
    TablesSound ad' := by
  have hnone : ad.oriSessions.entry i = none := oriSession_none.mpr hfree
  have hempty : ad.oriSessions.slot (w, wideTid tid) = none := by
    change slotEntry ((ad.Content w).oriSlot (wideTid tid)) = none
    rw [oriSlot_wideTid]
    exact slotEntry_eq_none.mpr hslot
  have hpart := setOriSlot_oriPart (ad.Content w) tid i
  rw [slotEntry_of_ne hi0] at hpart
  have hstart : ad'.oriSessions = ad.oriSessions.start i (w, wideTid tid) := by
    refine Table.Sessions.ext ?_ (slot_update MacTableEntry.oriPart hsta hpart)
      (hnum.trans (ulongInc_of_lt (count_le h.ori).2)) hdone ?_
    · exact (entry_update BaOriEntry.session hori).trans (by rw [hent]; rfl)
    · funext k
      exact congrArg (BitVec.getLsbD · k.2)
        (station_congr hsta (fun sta => sta.oriPart.2) rfl k.1)
  refine ⟨hstart ▸ h.ori.start hnone hempty, ?_⟩
  refine recSessions_congr (fun j => by rw [hrec]) (fun v => ?_) hnumRec ▸ h.recip
  exact station_congr hsta MacTableEntry.recPart rfl v

/-- A session written over by itself. -/
theorem TablesSound.oriRewrite {ad ad' : RtmpAdapter} (h : TablesSound ad) {w : Fin 32}
    {tid : Fin 8} {i : Fin 128} {ent : BaOriEntry}
    (hslot : (ad.Content w).BAOriWcidArray tid = i)
    (hori : ad'.BAOriEntry = Function.update ad.BAOriEntry i ent)
    (hent : ent.session = (ad.BAOriEntry i).session)
    (hsta : ad'.Content = Function.update ad.Content w ((ad.Content w).setOriSlot tid i))
    (hnum : ad'.numAsOriginator = ad.numAsOriginator)
    (hdone : ad'.numDoneOriginator = ad.numDoneOriginator)
    (hrec : ad'.BARecEntry = ad.BARecEntry) (hnumRec : ad'.numAsRecipient = ad.numAsRecipient) :
    TablesSound ad' := by
  have hkeep : (ad.Content w).setOriSlot tid i = ad.Content w := by
    rw [MacTableEntry.setOriSlot, ← hslot, Function.update_eq_self]
  rw [hkeep, Function.update_eq_self] at hsta
  refine h.congr (oriSessions_congr (fun j => ?_) (fun v => by rw [hsta]) hnum hdone)
    (recSessions_congr (fun j => by rw [hrec]) (fun v => by rw [hsta]) hnumRec)
  have hall := entry_update BaOriEntry.session hori
  rw [hent, Function.update_eq_self] at hall
  exact congrFun hall j

/-- **A set-up** opens a session for a TID without one. -/
theorem oriSetUp_sound {ad : RtmpAdapter} (h : TablesSound ad) (w : Fin 32) (tid timeOut : Nat)
    (isForced : Bool) : TablesSound (ad.baOriSessionSetUp w tid timeOut isForced) := by
  unfold RtmpAdapter.baOriSessionSetUp
  split
  · rename_i htid
    split
    · exact h
    split
    · exact h
    dsimp only
    by_cases h0 : (ad.Content w).BAOriWcidArray ⟨tid, htid⟩ = 0
    · rw [if_pos h0]
      by_cases hroom : maxLenOfBaTable - 1 ≤ ad.numAsOriginator
      · rw [RtmpAdapter.baTableAllocOriEntry, if_pos hroom]
        exact h
      · obtain ⟨i, ent, hnone, hi0, hused, halloc⟩ := oriAlloc_some h _ hroom
        rw [halloc]
        dsimp only
        rw [if_neg]
        · exact h.oriStart hnone hi0 h0 (Function.update_idem _ _ _) (oriSession_some (by simp)) rfl
            rfl rfl rfl rfl
        · change ¬ 2 ≤ (Function.update ad.BAOriEntry i ent i).ORI_BA_Status.toNat
          rw [Function.update_self, hused]
          decide
    · rw [if_neg h0]
      dsimp only
      split
      · exact h
      · rename_i hlow
        have hne : (ad.Content w).oriSlot (wideTid ⟨tid, htid⟩) ≠ 0 := by
          rwa [oriSlot_wideTid]
        obtain ⟨hinUse, hw, ht⟩ := h.ori_slot hne
        rw [oriSlot_wideTid] at hinUse hw ht
        refine h.oriRewrite rfl rfl ?_ rfl rfl rfl rfl rfl
        -- an entry in use below `WaitRes` would be half built
        rw [oriSession_some hinUse, hw, ht, oriSession_some (by simp)]
        cases hs : (ad.BAOriEntry ((ad.Content w).BAOriWcidArray ⟨tid, htid⟩)).ORI_BA_Status with
        | originatorNone => exact absurd hs hinUse
        | originatorUsed => rfl
        | originatorWaitRes => rfl
        | originatorDone =>
            rw [hs] at hlow
            exact absurd (by decide) hlow
  · exact h

/-! ## The recipient table -/

theorem recSession_none {ent : BaRecEntry} :
    ent.session = none ↔ ent.REC_BA_Status = .recipientNone := by
  unfold BaRecEntry.session
  split <;> simp_all

theorem recSession_accept {ent : BaRecEntry} (h : ent.REC_BA_Status = .recipientAccept) :
    ent.session = some ((ent.Wcid, ent.TID), true) := by
  rw [BaRecEntry.session, if_neg (by rw [h]; decide), h]
  rfl

theorem session_of_terms {e e' : BaRecEntry} (h : e.terms = e'.terms) :
    e.session = e'.session := by
  obtain ⟨hw, ht, -, -, hs⟩ := BaRecEntry.terms_eq_iff.mp h
  rw [BaRecEntry.session, BaRecEntry.session, hw, ht, hs]

/-- What happens inside an entry leaves the tables as they are. -/
theorem putRec_sound {ad : RtmpAdapter} (h : TablesSound ad) {i : Fin 128} {c : RxCtx}
    (hterms : c.ent.terms = (ad.BARecEntry i).terms) : TablesSound (ad.putRec i c) := by
  refine h.congr rfl (recSessions_congr (fun j => ?_) (fun _ => rfl) rfl)
  have hall := entry_update BaRecEntry.session (f := ad.BARecEntry) (i := i) (x := c.ent) rfl
  rw [session_of_terms hterms, Function.update_eq_self i fun j => (ad.BARecEntry j).session] at hall
  exact congrFun hall j

/-- What a non-zero slot names: an accepted session of this station and TID. -/
theorem TablesSound.rec_slot {ad : RtmpAdapter} (h : TablesSound ad) {w : Fin 32} {tid : Fin 16}
    {idx : Fin 128} (htid : (tid : Nat) < 8) (hslot : (ad.Content w).recSlot tid = idx)
    (hne : idx ≠ 0) :
    (ad.BARecEntry idx).REC_BA_Status = .recipientAccept
      ∧ (ad.BARecEntry idx).Wcid = w ∧ (ad.BARecEntry idx).TID = tid := by
  have hs : ad.recSessions.slot (w, tid) = some idx := by
    change (if h : (tid : Nat) < 8 then slotEntry ((ad.Content w).BARecWcidArray ⟨tid, h⟩)
      else none) = _
    rw [MacTableEntry.recSlot, dif_pos htid] at hslot
    rw [dif_pos htid, hslot, slotEntry_of_ne hne]
  obtain ⟨b, hent⟩ := h.recip.entry_of_slot hs
  have hb : b = true := h.recip.established rfl hent
  subst hb
  have hent' : (ad.BARecEntry idx).session = some ((w, tid), true) := hent
  by_cases hnone : (ad.BARecEntry idx).REC_BA_Status = .recipientNone
  · rw [recSession_none.mpr hnone] at hent'
    cases hent'
  · rw [BaRecEntry.session, if_neg hnone] at hent'
    have hkey := congrArg Prod.fst (Option.some.inj hent')
    exact ⟨of_decide_eq_true (congrArg Prod.snd (Option.some.inj hent')),
      congrArg Prod.fst hkey, congrArg Prod.snd hkey⟩

theorem recAlloc_some {ad : RtmpAdapter} (h : TablesSound ad) (idx : Fin 128)
    (hroom : ¬ maxLenOfBaTable - 1 ≤ ad.numAsRecipient) :
    ∃ i ent, (ad.BARecEntry i).REC_BA_Status = .recipientNone ∧ i ≠ 0
      ∧ ad.baTableAllocRecEntry idx = ({ ad with
          numAsRecipient := ulongInc ad.numAsRecipient,
          BARecEntry := Function.update ad.BARecEntry i ent }, some i, i) := by
  obtain ⟨i, hi, hi0, hnone⟩ := firstFree_spec h.recip
    (p := fun i => decide ((ad.BARecEntry i).REC_BA_Status = .recipientNone))
    (fun i => decide_eq_true_iff.trans recSession_none.symm) (Nat.lt_of_not_le hroom)
  refine ⟨i, { ad.BARecEntry i with REC_BA_Status := .recipientUsed }, recSession_none.mp hnone,
    hi0, ?_⟩
  rw [RtmpAdapter.baTableAllocRecEntry, if_neg hroom, hi]

/-- The station once its session `tid` is accepted, in entry `idx`. -/
def MacTableEntry.recAccepted (sta : MacTableEntry) (tid : Fin 16) (idx : Fin 128) :
    MacTableEntry :=
  { (sta.setRecSlot tid idx) with
    RXBAbitmap := sta.RXBAbitmap ||| tidBit tid,
    BADeclineBitmap := sta.BADeclineBitmap &&& ~~~(tidBit tid) }

/-- A session accepted for station `w` in the free entry `i`. -/
theorem TablesSound.recStart {ad ad' : RtmpAdapter} (h : TablesSound ad) {w : Fin 32}
    {tid : Fin 16} {i : Fin 128} {ent : BaRecEntry} (htid : (tid : Nat) < 8)
    (hfree : (ad.BARecEntry i).REC_BA_Status = .recipientNone) (hi0 : i ≠ 0)
    (hslot : (ad.Content w).recSlot tid = 0)
    (hrec : ad'.BARecEntry = Function.update ad.BARecEntry i ent)
    (hent : ent.session = some ((w, tid), true))
    (hsta : ad'.Content = Function.update ad.Content w ((ad.Content w).recAccepted tid i))
    (hnum : ad'.numAsRecipient = ulongInc ad.numAsRecipient)
    (hori : ad'.BAOriEntry = ad.BAOriEntry) (hnumOri : ad'.numAsOriginator = ad.numAsOriginator)
    (hdone : ad'.numDoneOriginator = ad.numDoneOriginator) : TablesSound ad' := by
  have hnone : ad.recSessions.entry i = none := recSession_none.mpr hfree
  have hempty : ad.recSessions.slot (w, tid) = none := by
    change (if h : (tid : Nat) < 8 then slotEntry ((ad.Content w).BARecWcidArray ⟨tid, h⟩)
      else none) = _
    rw [MacTableEntry.recSlot, dif_pos htid] at hslot
    rw [dif_pos htid, hslot, slotEntry_zero]
  have hpart := setRecSlot_recPart (ad.Content w) htid i
  rw [slotEntry_of_ne hi0] at hpart
  have hinc : ad'.numAsRecipient = ad.numAsRecipient + 1 :=
    hnum.trans (ulongInc_of_lt (count_le h.recip).2)
  have hstart : ad'.recSessions = (ad.recSessions.start i (w, tid)).confirm i (w, tid) := by
    refine Table.Sessions.ext ?_ (slot_update MacTableEntry.recPart hsta hpart) hinc hinc ?_
    · refine (entry_update BaRecEntry.session hrec).trans ?_
      rw [hent]
      exact (Function.update_idem _ _ _).symm
    · exact flag_update MacTableEntry.recPart hsta fun u => getLsbD_or_tidBit _ tid u
  refine ⟨?_, hstart ▸ (h.recip.start hnone hempty).confirm (Function.update_self _ _ _)⟩
  refine oriSessions_congr (fun j => by rw [hori]) (fun v => ?_) hnumOri hdone ▸ h.ori
  refine station_congr hsta MacTableEntry.oriPart ?_ v
  unfold MacTableEntry.recAccepted MacTableEntry.setRecSlot
  rw [dif_pos htid]
  rfl

/-- A session accepted once more in its own entry. -/
theorem TablesSound.recRewrite {ad ad' : RtmpAdapter} (h : TablesSound ad) {w : Fin 32}
    {tid : Fin 16} {i : Fin 128} {ent : BaRecEntry} (htid : (tid : Nat) < 8) (hi0 : i ≠ 0)
    (hslot : (ad.Content w).recSlot tid = i)
    (hrec : ad'.BARecEntry = Function.update ad.BARecEntry i ent)
    (hent : ent.session = some ((w, tid), true))
    (hsta : ad'.Content = Function.update ad.Content w ((ad.Content w).recAccepted tid i))
    (hnum : ad'.numAsRecipient = ad.numAsRecipient)
    (hori : ad'.BAOriEntry = ad.BAOriEntry) (hnumOri : ad'.numAsOriginator = ad.numAsOriginator)
    (hdone : ad'.numDoneOriginator = ad.numDoneOriginator) : TablesSound ad' := by
  obtain ⟨hacc, hw, ht⟩ := h.rec_slot htid hslot hi0
  have hold : ad.recSessions.entry i = some ((w, tid), true) := by
    change (ad.BARecEntry i).session = _
    rw [recSession_accept hacc, hw, ht]
  have hflag : ad.recSessions.flag (w, tid) = true := (h.recip.flag _).mpr ⟨i, hold⟩
  have hpart := setRecSlot_recPart (ad.Content w) htid i
  have hsame : ad'.recSessions = ad.recSessions := by
    refine Table.Sessions.ext ?_ ?_ hnum hnum ?_
    · refine (entry_update BaRecEntry.session hrec).trans ?_
      rw [hent, ← hold]
      exact Function.update_eq_self i _
    · refine (slot_update MacTableEntry.recPart hsta hpart).trans ?_
      have hs := h.recip.slot_of_entry hold
      rw [slotEntry_of_ne hi0, ← hs]
      exact Function.update_eq_self (w, tid) _
    · refine (flag_update MacTableEntry.recPart hsta fun u =>
        getLsbD_or_tidBit _ tid u).trans ?_
      rw [← hflag]
      exact Function.update_eq_self (w, tid) _
  refine h.congr (oriSessions_congr (fun j => by rw [hori]) (fun v => ?_) hnumOri hdone) hsame
  refine station_congr hsta MacTableEntry.oriPart ?_ v
  unfold MacTableEntry.recAccepted MacTableEntry.setRecSlot
  rw [dif_pos htid]
  rfl

/-- **An ADDBA request** for a TID below 8 opens a session or renews it. -/
theorem recAdd_sound {ad : RtmpAdapter} (h : TablesSound ad) (w : Fin 32) {f : FrameAddba}
    (htid : (f.TID : Nat) < 8) : TablesSound (ad.baRecSessionAdd w f).2 := by
  unfold RtmpAdapter.baRecSessionAdd
  dsimp only
  generalize hslot : (ad.Content w).recSlot f.TID = idx
  by_cases h0 : idx = 0
  · rw [if_pos h0]
    by_cases hroom : maxLenOfBaTable - 1 ≤ ad.numAsRecipient
    · rw [RtmpAdapter.baTableAllocRecEntry, if_pos hroom]
      exact h
    · obtain ⟨i, ent, hfree, hi0, halloc⟩ := recAlloc_some h idx hroom
      rw [halloc]
      exact h.recStart htid hfree hi0 (hslot.trans h0) (Function.update_idem _ _ _)
        (recSession_accept rfl) rfl rfl rfl rfl rfl
  · rw [if_neg h0]
    exact h.recRewrite htid h0 hslot (Function.update_idem _ _ _) (recSession_accept rfl) rfl rfl
      rfl rfl rfl

/-- A session of station `w` closed. -/
theorem TablesSound.recFinish {ad ad' : RtmpAdapter} (h : TablesSound ad) {w : Fin 32}
    {tid : Fin 16} {i : Fin 128} {ent : BaRecEntry} {e : MacTableEntry} (htid : (tid : Nat) < 8)
    (hi0 : i ≠ 0) (hslot : (ad.Content w).recSlot tid = i)
    (hrec : ad'.BARecEntry = Function.update ad.BARecEntry i ent)
    (hent : ent.REC_BA_Status = .recipientNone)
    (hsta : ad'.Content = Function.update ad.Content w (e.setRecSlot tid 0))
    (hpart : e.recPart.1 = (ad.Content w).recPart.1)
    (hori : e.oriPart = (ad.Content w).oriPart)
    (hbits : e.RXBAbitmap = (ad.Content w).RXBAbitmap &&& ~~~(tidBit tid))
    (hnum : ad'.numAsRecipient = ulongDec ad.numAsRecipient)
    (horiEntry : ad'.BAOriEntry = ad.BAOriEntry)
    (hnumOri : ad'.numAsOriginator = ad.numAsOriginator)
    (hdone : ad'.numDoneOriginator = ad.numDoneOriginator) : TablesSound ad' := by
  obtain ⟨hacc, hw, ht⟩ := h.rec_slot htid hslot hi0
  have hold : ad.recSessions.entry i = some ((w, tid), true) := by
    change (ad.BARecEntry i).session = _
    rw [recSession_accept hacc, hw, ht]
  have hdec : ad'.numAsRecipient = ad.numAsRecipient - 1 :=
    hnum.trans (ulongDec_of_pos (h.recip.count_pos hold))
  have hslots := setRecSlot_recPart e htid 0
  rw [hpart, slotEntry_zero] at hslots
  have hkeep : (e.setRecSlot tid 0).recPart.2 = e.RXBAbitmap := by
    rw [MacTableEntry.setRecSlot, dif_pos htid]
    rfl
  have hfinish : ad'.recSessions = ad.recSessions.finish i (w, tid) true := by
    refine Table.Sessions.ext ?_ (slot_update MacTableEntry.recPart hsta hslots) hdec hdec ?_
    · exact (entry_update BaRecEntry.session hrec).trans (by rw [recSession_none.mpr hent]; rfl)
    · refine flag_update MacTableEntry.recPart hsta fun u => ?_
      rw [hkeep, hbits]
      exact getLsbD_clear_tidBit _ tid u
  refine ⟨?_, hfinish ▸ h.recip.finish hold⟩
  refine oriSessions_congr (fun j => by rw [horiEntry]) (fun v => ?_) hnumOri hdone ▸ h.ori
  refine station_congr hsta MacTableEntry.oriPart ?_ v
  rw [← hori, MacTableEntry.setRecSlot, dif_pos htid]
  rfl

theorem setRecSlot_setRecSlot (sta : MacTableEntry) (tid : Fin 16) (idx idx' : Fin 128) :
    (sta.setRecSlot tid idx).setRecSlot tid idx' = sta.setRecSlot tid idx' := by
  unfold MacTableEntry.setRecSlot
  split <;> simp only [Function.update_idem]

theorem closeSession_keeps (c : RxCtx) :
    c.closeSession.ent.Wcid = c.ent.Wcid ∧ c.closeSession.ent.TID = c.ent.TID
      ∧ c.closeSession.ent.REC_BA_Status = c.ent.REC_BA_Status := by
  obtain ⟨hw, ht, -, -, hs⟩ := BaRecEntry.terms_eq_iff.mp (refresh_terms c)
  exact ⟨hw, ht, hs⟩

/-- What `BATableFreeRecEntry` writes. -/
theorem recFree_eq {ad : RtmpAdapter} {idx : Fin 128} (hidx : idx ≠ 0)
    (hused : (ad.BARecEntry idx).REC_BA_Status ≠ .recipientNone) :
    ad.baTableFreeRecEntry idx
      = { ad.setSta (ad.BARecEntry idx).Wcid (fun sta => sta.setRecSlot (ad.BARecEntry idx).TID 0)
            with
          numAsRecipient := ulongDec ad.numAsRecipient,
          BARecEntry := Function.update ad.BARecEntry idx
            { ad.BARecEntry idx with REC_BA_Status := .recipientNone } } := by
  unfold RtmpAdapter.baTableFreeRecEntry
  rw [if_neg hidx]
  exact if_pos hused

theorem recFree_none {ad : RtmpAdapter} {idx : Fin 128}
    (hfree : (ad.BARecEntry idx).REC_BA_Status = .recipientNone) :
    ad.baTableFreeRecEntry idx = ad := by
  unfold RtmpAdapter.baTableFreeRecEntry
  split
  · rfl
  · exact if_neg (not_not.mpr hfree)

/-- **A tear-down** for a TID below 8 closes the session, if there is one. -/
theorem recTearDown_sound {ad : RtmpAdapter} (h : TablesSound ad) (wcid : Nat) {tid : Fin 16}
    (htid : (tid : Nat) < 8) (bPassive memOk : Bool) :
    TablesSound (ad.baRecSessionTearDown wcid tid bPassive memOk) := by
  unfold RtmpAdapter.baRecSessionTearDown
  split
  · rename_i hw
    dsimp only
    generalize hslot : (ad.Content ⟨wcid, hw⟩).recSlot tid = idx
    by_cases h0 : idx = 0
    · rw [if_pos h0]
      exact h
    · rw [if_neg h0]
      obtain ⟨hacc, hwcid, ht⟩ := h.rec_slot htid hslot h0
      rw [if_pos ⟨ht.symm, hacc⟩, ht, setSta_setSta]
      split
      · exact h
      · obtain ⟨hcw, hct, hcs⟩ := closeSession_keeps (ad.recCtx idx)
        generalize (ad.recCtx idx).closeSession = c at hcw hct hcs ⊢
        have hent : ((ad.putRec idx c).setSta ⟨wcid, hw⟩ fun sta =>
            MacTableEntry.setRecSlot
              { sta with RXBAbitmap := sta.RXBAbitmap &&& ~~~(tidBit tid) } tid 0).BARecEntry idx
            = c.ent := Function.update_self idx _ _
        have hcw' : c.ent.Wcid = ⟨wcid, hw⟩ := hcw.trans hwcid
        have hct' : c.ent.TID = tid := hct.trans ht
        have hcs' : c.ent.REC_BA_Status = .recipientAccept := hcs.trans hacc
        rw [recFree_eq h0 (by rw [hent, hcs']; decide), hent, hcw', hct', setSta_setSta]
        refine h.recFinish (e := { ad.Content ⟨wcid, hw⟩ with
            RXBAbitmap := (ad.Content ⟨wcid, hw⟩).RXBAbitmap &&& ~~~(tidBit tid) }) htid h0 hslot
          (Function.update_idem _ _ _) rfl ?_ rfl rfl rfl rfl rfl rfl rfl
        refine congrArg (Function.update ad.Content _) ?_
        exact setRecSlot_setRecSlot _ tid 0 0
  · exact h

/-! ## The accounts -/

/-- **The accounts** of the block-ack tables. -/
structure Accounting (ad : RtmpAdapter) : Prop where
  /-- Each counter is the number of its entries. -/
  recCount : ad.numAsRecipient
    = (Finset.univ.filter fun i => (ad.BARecEntry i).REC_BA_Status ≠ .recipientNone).card
  oriCount : ad.numAsOriginator
    = (Finset.univ.filter fun i => (ad.BAOriEntry i).ORI_BA_Status ≠ .originatorNone).card
  doneCount : ad.numDoneOriginator
    = (Finset.univ.filter fun i => (ad.BAOriEntry i).ORI_BA_Status = .originatorDone).card
  /-- A slot is 0 or names an entry of its station and TID. -/
  recSlot : ∀ w (tid : Fin 8), (ad.Content w).BARecWcidArray tid ≠ 0 →
    (ad.BARecEntry ((ad.Content w).BARecWcidArray tid)).REC_BA_Status ≠ .recipientNone
      ∧ (ad.BARecEntry ((ad.Content w).BARecWcidArray tid)).Wcid = w
      ∧ (ad.BARecEntry ((ad.Content w).BARecWcidArray tid)).TID = wideTid tid
  oriSlot : ∀ w (tid : Fin 8), (ad.Content w).BAOriWcidArray tid ≠ 0 →
    (ad.BAOriEntry ((ad.Content w).BAOriWcidArray tid)).ORI_BA_Status ≠ .originatorNone
      ∧ (ad.BAOriEntry ((ad.Content w).BAOriWcidArray tid)).Wcid = w
      ∧ (ad.BAOriEntry ((ad.Content w).BAOriWcidArray tid)).TID = tid
  /-- An entry in use is named by the slot of its station and TID. -/
  recOwned : ∀ i, (ad.BARecEntry i).REC_BA_Status ≠ .recipientNone →
    ∃ tid : Fin 8, (ad.BARecEntry i).TID = wideTid tid
      ∧ (ad.Content (ad.BARecEntry i).Wcid).BARecWcidArray tid = i
  oriOwned : ∀ i, (ad.BAOriEntry i).ORI_BA_Status ≠ .originatorNone →
    (ad.Content (ad.BAOriEntry i).Wcid).BAOriWcidArray (ad.BAOriEntry i).TID = i
  /-- A bit is set exactly for an established session. -/
  recBit : ∀ w (tid : Fin 16), (ad.Content w).RXBAbitmap.getLsbD tid = true ↔
    ∃ i, (ad.BARecEntry i).REC_BA_Status = .recipientAccept
      ∧ (ad.BARecEntry i).Wcid = w ∧ (ad.BARecEntry i).TID = tid
  oriBit : ∀ w (tid : Fin 16), (ad.Content w).TXBAbitmap.getLsbD tid = true ↔
    ∃ i, (ad.BAOriEntry i).ORI_BA_Status = .originatorDone
      ∧ (ad.BAOriEntry i).Wcid = w ∧ wideTid (ad.BAOriEntry i).TID = tid

theorem recSession_eq_true {ent : BaRecEntry} {k : SessionKey} :
    ent.session = some (k, true)
      ↔ ent.REC_BA_Status = .recipientAccept ∧ ent.Wcid = k.1 ∧ ent.TID = k.2 := by
  unfold BaRecEntry.session
  cases hs : ent.REC_BA_Status <;> simp [Prod.ext_iff]

theorem oriSession_eq_true {ent : BaOriEntry} {k : SessionKey} :
    ent.session = some (k, true)
      ↔ ent.ORI_BA_Status = .originatorDone ∧ ent.Wcid = k.1 ∧ wideTid ent.TID = k.2 := by
  unfold BaOriEntry.session
  cases hs : ent.ORI_BA_Status <;> simp [Prod.ext_iff]

theorem used_recSession (ent : BaRecEntry) :
    Table.Sessions.used ent.session = if ent.REC_BA_Status ≠ .recipientNone then 1 else 0 := by
  unfold BaRecEntry.session
  cases hs : ent.REC_BA_Status <;> simp

theorem used_oriSession (ent : BaOriEntry) :
    Table.Sessions.used ent.session = if ent.ORI_BA_Status ≠ .originatorNone then 1 else 0 := by
  unfold BaOriEntry.session
  cases hs : ent.ORI_BA_Status <;> simp

theorem live_oriSession (ent : BaOriEntry) :
    Table.Sessions.live ent.session = if ent.ORI_BA_Status = .originatorDone then 1 else 0 := by
  unfold BaOriEntry.session
  cases hs : ent.ORI_BA_Status <;> simp

/-- An entry in use serves a TID below 8, from its own slot. -/
theorem TablesSound.rec_owned {ad : RtmpAdapter} (h : TablesSound ad) {i : Fin 128}
    (hused : (ad.BARecEntry i).REC_BA_Status ≠ .recipientNone) :
    ∃ tid : Fin 8, (ad.BARecEntry i).TID = wideTid tid
      ∧ (ad.Content (ad.BARecEntry i).Wcid).BARecWcidArray tid = i := by
  have hent : ad.recSessions.entry i = some (((ad.BARecEntry i).Wcid, (ad.BARecEntry i).TID),
      decide ((ad.BARecEntry i).REC_BA_Status = .recipientAccept)) := if_neg hused
  have hslot : (if h : ((ad.BARecEntry i).TID : Nat) < 8 then
      slotEntry ((ad.Content (ad.BARecEntry i).Wcid).BARecWcidArray ⟨(ad.BARecEntry i).TID, h⟩)
      else none) = some i := h.recip.slot_of_entry hent
  by_cases htid : ((ad.BARecEntry i).TID : Nat) < 8
  · rw [dif_pos htid] at hslot
    exact ⟨⟨(ad.BARecEntry i).TID, htid⟩, rfl, (slotEntry_eq_some.mp hslot).1⟩
  · rw [dif_neg htid] at hslot
    cases hslot

/-- Sound tables have their accounts in order. -/
theorem TablesSound.accounting {ad : RtmpAdapter} (h : TablesSound ad) : Accounting ad where
  recCount := by
    rw [Finset.card_filter]
    exact h.recip.count.trans (Finset.sum_congr rfl fun i _ => used_recSession _)
  oriCount := by
    rw [Finset.card_filter]
    exact h.ori.count.trans (Finset.sum_congr rfl fun i _ => used_oriSession _)
  doneCount := by
    rw [Finset.card_filter]
    exact h.ori.done.trans (Finset.sum_congr rfl fun i _ => live_oriSession _)
  recSlot := by
    intro w tid hne
    have hslot : (ad.Content w).recSlot (wideTid tid) = (ad.Content w).BARecWcidArray tid :=
      dif_pos tid.isLt
    obtain ⟨hacc, hw, ht⟩ := h.rec_slot tid.isLt hslot hne
    exact ⟨by rw [hacc]; decide, hw, ht⟩
  oriSlot := by
    intro w tid hne
    have hne' : (ad.Content w).oriSlot (wideTid tid) ≠ 0 := by rwa [oriSlot_wideTid]
    have hslot := h.ori_slot hne'
    rw [oriSlot_wideTid, wideTid_inj] at hslot
    exact hslot
  recOwned := fun i hused => h.rec_owned hused
  oriOwned := by
    intro i hused
    have hslot : slotEntry ((ad.Content (ad.BAOriEntry i).Wcid).oriSlot
        (wideTid (ad.BAOriEntry i).TID)) = some i :=
      h.ori.slot_of_entry (oriSession_some hused)
    rw [oriSlot_wideTid] at hslot
    exact (slotEntry_eq_some.mp hslot).1
  recBit := fun w tid => (h.recip.flag (w, tid)).trans (exists_congr fun i => recSession_eq_true)
  oriBit := fun w tid => (h.ori.flag (w, tid)).trans (exists_congr fun i => oriSession_eq_true)

/-! ## Stray TIDs -/

/-- The recipient tear-down of a TID from 8 on finds an entry in use. -/
def StrayTearDown (ad : RtmpAdapter) (wcid : Nat) (tid : Fin 16) : Prop :=
  8 ≤ (tid : Nat) ∧ ∃ h : wcid < 32, (ad.Content ⟨wcid, h⟩).recSlot tid ≠ 0
    ∧ (ad.BARecEntry ((ad.Content ⟨wcid, h⟩).recSlot tid)).REC_BA_Status ≠ .recipientNone

/-- A TID from 8 on that leads somewhere: in an ADDBA request that is accepted
and gets an entry, in a DELBA from the originator or a tear-down whose slot
names a recipient entry in use. -/
def StrayTid (ad : RtmpAdapter) : BaOp → Prop
  | .addBaReq wcid f => 8 ≤ (f.TID : Nat) ∧ f.sane = true ∧ ad.cfg.bBADecline = false ∧
      ∃ h : wcid < 32, (ad.Content ⟨wcid, h⟩).isHtSta = true
        ∧ ((ad.Content ⟨wcid, h⟩).recSlot f.TID ≠ 0 ∨ ad.numAsRecipient < 127)
  | .delBa wcid lenOk initiator tid => lenOk = true ∧ initiator = true ∧ StrayTearDown ad wcid tid
  | .recTearDown wcid tid _ _ => StrayTearDown ad wcid tid
  | _ => False

/-- The request leaves an accepted entry of its TID behind. -/
theorem recAdd_accepts {ad : RtmpAdapter} (h : TablesSound ad) {w : Fin 32} {f : FrameAddba}
    (hroom : (ad.Content w).recSlot f.TID ≠ 0 ∨ ad.numAsRecipient < 127) :
    ∃ i, ((ad.baRecSessionAdd w f).2.BARecEntry i).REC_BA_Status = .recipientAccept
      ∧ ((ad.baRecSessionAdd w f).2.BARecEntry i).TID = f.TID := by
  unfold RtmpAdapter.baRecSessionAdd
  dsimp only
  generalize (ad.Content w).recSlot f.TID = idx at hroom ⊢
  have hfilled : ∀ (recs : Fin 128 → BaRecEntry) (i : Fin 128) (ent : BaRecEntry),
      ent.REC_BA_Status = .recipientAccept → ent.TID = f.TID →
      ∃ j, (Function.update recs i ent j).REC_BA_Status = .recipientAccept
        ∧ (Function.update recs i ent j).TID = f.TID :=
    fun recs i ent hs ht => ⟨i, by rw [Function.update_self, hs], by rw [Function.update_self, ht]⟩
  by_cases h0 : idx = 0
  · rw [if_pos h0]
    obtain ⟨i, ent, -, -, halloc⟩ := recAlloc_some h idx
      (Nat.not_le.mpr (hroom.resolve_left (not_not.mpr h0)))
    rw [halloc]
    exact hfilled _ i _ rfl rfl
  · rw [if_neg h0]
    exact hfilled _ idx _ rfl rfl

/-- Without room nothing happens. -/
theorem recAdd_refused {ad : RtmpAdapter} {w : Fin 32} {f : FrameAddba}
    (hslot : (ad.Content w).recSlot f.TID = 0) (hfull : ¬ ad.numAsRecipient < 127) :
    (ad.baRecSessionAdd w f).2 = ad := by
  unfold RtmpAdapter.baRecSessionAdd
  dsimp only
  have hfull' : maxLenOfBaTable - 1 ≤ ad.numAsRecipient := Nat.le_of_not_lt hfull
  rw [hslot, if_pos rfl, RtmpAdapter.baTableAllocRecEntry, if_pos hfull']

/-- An ADDBA request keeps the tables sound exactly when its TID does not stray. -/
theorem addBaReq_sound {ad : RtmpAdapter} (h : TablesSound ad) (wcid : Nat) (f : FrameAddba) :
    (¬ StrayTid ad (.addBaReq wcid f) → TablesSound (ad.peerAddBaReqAction wcid f))
      ∧ (StrayTid ad (.addBaReq wcid f) → ¬ Accounting (ad.peerAddBaReqAction wcid f)) := by
  unfold RtmpAdapter.peerAddBaReqAction
  by_cases hw : wcid < maxLenOfMacTable
  · rw [dif_pos hw]
    by_cases hacc : (f.sane && !ad.cfg.bBADecline && (ad.Content ⟨wcid, hw⟩).isHtSta) = true
    · rw [if_pos hacc]
      simp only [Bool.and_eq_true, Bool.not_eq_true'] at hacc
      constructor
      · intro hno
        by_cases htid : (f.TID : Nat) < 8
        · exact recAdd_sound h _ htid
        · have hnone : ¬ ((ad.Content ⟨wcid, hw⟩).recSlot f.TID ≠ 0 ∨ ad.numAsRecipient < 127) :=
            fun hroom => hno ⟨Nat.le_of_not_lt htid, hacc.1.1, hacc.1.2, hw, hacc.2, hroom⟩
          rw [not_or, not_not] at hnone
          rw [recAdd_refused hnone.1 hnone.2]
          exact h
      · rintro ⟨h8, -, -, _, -, hroom⟩ hok
        obtain ⟨i, hs, ht⟩ := recAdd_accepts h (w := ⟨wcid, hw⟩) hroom
        obtain ⟨tid, htid, -⟩ := hok.recOwned i (by rw [hs]; decide)
        rw [ht] at htid
        rw [htid] at h8
        exact absurd tid.isLt (Nat.not_lt.mpr h8)
    · rw [if_neg hacc]
      refine ⟨fun _ => h, ?_⟩
      rintro ⟨-, hsane, hdecline, _, hht, -⟩
      exact absurd (by simp [hsane, hdecline, hht]) hacc
  · rw [dif_neg hw]
    exact ⟨fun _ => h, fun ⟨_, _, _, hw', _⟩ => absurd hw' hw⟩

/-- A stray tear-down frees the entry it finds. -/
theorem recTearDown_stray_eq {ad : RtmpAdapter} (h : TablesSound ad) {wcid : Nat}
    (hw : wcid < 32) {tid : Fin 16} {idx : Fin 128} (h8 : 8 ≤ (tid : Nat))
    (hslot : (ad.Content ⟨wcid, hw⟩).recSlot tid = idx) (hne : idx ≠ 0) (bPassive memOk : Bool) :
    ad.baRecSessionTearDown wcid tid bPassive memOk = ad.baTableFreeRecEntry idx := by
  unfold RtmpAdapter.baRecSessionTearDown
  rw [dif_pos hw]
  dsimp only
  rw [hslot, if_neg hne]
  refine if_neg fun hc => ?_
  obtain ⟨t, ht, -⟩ := h.rec_owned (i := idx) (by rw [hc.2]; decide)
  rw [hc.1, ht] at h8
  exact absurd t.isLt (Nat.not_lt.mpr h8)

/-- The freed entry leaves its bit behind. -/
theorem recFree_unsound {ad : RtmpAdapter} (h : TablesSound ad) {idx : Fin 128} (hne : idx ≠ 0)
    (hused : (ad.BARecEntry idx).REC_BA_Status ≠ .recipientNone) :
    ¬ Accounting (ad.baTableFreeRecEntry idx) := by
  intro hok
  have hent : ad.recSessions.entry idx = some (((ad.BARecEntry idx).Wcid,
      (ad.BARecEntry idx).TID), _) := if_neg hused
  rw [h.recip.established rfl hent] at hent
  have hset : (ad.Content (ad.BARecEntry idx).Wcid).RXBAbitmap.getLsbD (ad.BARecEntry idx).TID
      = true := (h.recip.flag _).mpr ⟨idx, hent⟩
  have hkeep : ((ad.baTableFreeRecEntry idx).Content (ad.BARecEntry idx).Wcid).RXBAbitmap
      = (ad.Content (ad.BARecEntry idx).Wcid).RXBAbitmap := by
    rw [recFree_eq hne hused]
    refine station_congr rfl MacTableEntry.RXBAbitmap ?_ _
    unfold MacTableEntry.setRecSlot
    split <;> rfl
  rw [← hkeep] at hset
  obtain ⟨j, hs, hw, ht⟩ := (hok.recBit _ _).mp hset
  have hrec : (ad.baTableFreeRecEntry idx).BARecEntry = Function.update ad.BARecEntry idx
      { ad.BARecEntry idx with REC_BA_Status := .recipientNone } := by
    rw [recFree_eq hne hused]
  rw [hrec] at hs hw ht
  by_cases hj : j = idx
  · rw [hj, Function.update_self] at hs
    cases hs
  · rw [Function.update_of_ne hj] at hs hw ht
    have hentj : ad.recSessions.entry j = some (((ad.BARecEntry idx).Wcid,
        (ad.BARecEntry idx).TID), true) := recSession_eq_true.mpr ⟨hs, hw, ht⟩
    exact hj (h.recip.inj hentj hent)

/-- A recipient tear-down keeps the tables sound exactly when its TID does not
stray. -/
theorem recTearDown_stray {ad : RtmpAdapter} (h : TablesSound ad) (wcid : Nat) (tid : Fin 16)
    (bPassive memOk : Bool) :
    (¬ StrayTearDown ad wcid tid
        → TablesSound (ad.baRecSessionTearDown wcid tid bPassive memOk))
      ∧ (StrayTearDown ad wcid tid
        → ¬ Accounting (ad.baRecSessionTearDown wcid tid bPassive memOk)) := by
  by_cases h8 : (tid : Nat) < 8
  · exact ⟨fun _ => recTearDown_sound h wcid h8 bPassive memOk,
      fun hs => absurd h8 (Nat.not_lt.mpr hs.1)⟩
  have h8' : 8 ≤ (tid : Nat) := Nat.le_of_not_lt h8
  by_cases hw : wcid < 32
  · generalize hslot : (ad.Content ⟨wcid, hw⟩).recSlot tid = idx
    constructor
    · intro hno
      by_cases hne : idx = 0
      · have hsame : ad.baRecSessionTearDown wcid tid bPassive memOk = ad := by
          unfold RtmpAdapter.baRecSessionTearDown
          rw [dif_pos hw]
          exact if_pos (hslot.trans hne)
        rw [hsame]
        exact h
      · rw [recTearDown_stray_eq h hw h8' hslot hne]
        have hfree : (ad.BARecEntry idx).REC_BA_Status = .recipientNone := by
          by_contra hused
          exact hno ⟨h8', hw, by rwa [hslot], by rwa [hslot]⟩
        rw [recFree_none hfree]
        exact h
    · rintro ⟨-, _, hne, hused⟩
      rw [hslot] at hne hused
      rw [recTearDown_stray_eq h hw h8' hslot hne]
      exact recFree_unsound h hne hused
  · have hsame : ad.baRecSessionTearDown wcid tid bPassive memOk = ad := dif_neg hw
    rw [hsame]
    exact ⟨fun _ => h, fun ⟨_, hw', _⟩ => absurd hw' hw⟩

theorem delBa_sound {ad : RtmpAdapter} (h : TablesSound ad) (wcid : Nat) (lenOk initiator : Bool)
    (tid : Fin 16) :
    (¬ StrayTid ad (.delBa wcid lenOk initiator tid)
        → TablesSound (ad.peerDelBaAction wcid lenOk initiator tid))
      ∧ (StrayTid ad (.delBa wcid lenOk initiator tid)
        → ¬ Accounting (ad.peerDelBaAction wcid lenOk initiator tid)) := by
  unfold RtmpAdapter.peerDelBaAction
  by_cases hc : lenOk = true ∧ wcid < maxLenOfMacTable
  · rw [if_pos hc]
    have hdown := recTearDown_stray h wcid tid true true
    by_cases hi : initiator = true
    · rw [if_pos hi]
      exact ⟨fun hno => hdown.1 fun hs => hno ⟨hc.1, hi, hs⟩, fun hs => hdown.2 hs.2.2⟩
    · rw [if_neg hi]
      exact ⟨fun _ => oriTearDown_sound h wcid tid true true, fun hs => absurd hs.2.1 hi⟩
  · rw [if_neg hc]
    exact ⟨fun _ => h, fun ⟨hlen, _, _, hw, _⟩ => absurd ⟨hlen, hw⟩ hc⟩

/-! ## One step, and runs -/

theorem addBaRsp_sound {ad : RtmpAdapter} (h : TablesSound ad) (wcid : Nat) (f : FrameAddba)
    (memOk : Bool) : TablesSound (ad.peerAddBaRspAction wcid f memOk) := by
  unfold RtmpAdapter.peerAddBaRspAction
  split
  · split
    · rename_i hw _
      have hr : TablesSound (if f.StatusCode = 0 then ad.baOriSessionAdd ⟨wcid, hw⟩ f
          else ad.baOriSessionTearDown wcid f.TID true memOk) := by
        split
        · exact oriAdd_sound h _ f
        · exact oriTearDown_sound h wcid f.TID true memOk
      generalize (if f.StatusCode = 0 then ad.baOriSessionAdd ⟨wcid, hw⟩ f
        else ad.baOriSessionTearDown wcid f.TID true memOk) = ad' at hr ⊢
      dsimp only
      split
      · exact hr.congr
          (oriSessions_congr (fun _ => rfl) (station_congr rfl MacTableEntry.oriPart rfl) rfl rfl)
          (recSessions_congr (fun _ => rfl) (station_congr rfl MacTableEntry.recPart rfl) rfl)
      · exact hr
    · exact h
  · exact h

theorem ampdu_sound {ad : RtmpAdapter} (h : TablesSound ad) (rx : RxBlk)
    (now32 nowInd : BitVec 32) : TablesSound (ad.indicateAmpduPacket rx now32 nowInd) := by
  unfold RtmpAdapter.indicateAmpduPacket
  split
  · exact h
  · split
    · dsimp only
      split
      · exact h.congr rfl rfl
      · exact putRec_sound h (ampduAtEntry_terms _ _ rx now32 nowInd)
    · exact h

theorem bar_sound {ad : RtmpAdapter} (h : TablesSound ad) (wcid : Nat) (frameOk : Bool)
    (tid : Fin 16) (startSeq : Fin 4096) :
    TablesSound (ad.cntlEnqueueForRecv wcid frameOk tid startSeq) := by
  unfold RtmpAdapter.cntlEnqueueForRecv
  split
  · split
    · exact putRec_sound h (barAtEntry_terms _ startSeq)
    · exact h
  · exact h

theorem legacy_sound {ad : RtmpAdapter} (h : TablesSound ad) (wcid : Nat) (tid : Fin 16)
    (now32 : BitVec 32) : TablesSound (ad.legacyFlush wcid tid now32) := by
  unfold RtmpAdapter.legacyFlush
  split
  · split
    · exact h
    · dsimp only
      split
      · exact putRec_sound h (flush_terms _ _ now32)
      · exact h
  · exact h

/-- **One step** keeps the tables sound exactly when it names no stray TID. -/
theorem baStep_sound {ad : RtmpAdapter} (h : TablesSound ad) (op : BaOp) :
    (¬ StrayTid ad op → TablesSound (baStep ad op))
      ∧ (StrayTid ad op → ¬ Accounting (baStep ad op)) := by
  cases op with
  | oriSetUp w tid timeOut isForced =>
      exact ⟨fun _ => oriSetUp_sound h w tid timeOut isForced, False.elim⟩
  | oriTearDown wcid tid bPassive memOk =>
      exact ⟨fun _ => oriTearDown_sound h wcid _ bPassive memOk, False.elim⟩
  | oriTimeout i busy scan => exact ⟨fun _ => oriTimeout_sound h i busy scan, False.elim⟩
  | recTearDown wcid tid bPassive memOk =>
      exact recTearDown_stray h wcid tid bPassive memOk
  | addBaReq wcid f => exact addBaReq_sound h wcid f
  | addBaRsp wcid f memOk => exact ⟨fun _ => addBaRsp_sound h wcid f memOk, False.elim⟩
  | delBa wcid lenOk initiator tid => exact delBa_sound h wcid lenOk initiator tid
  | ampdu rx now32 nowInd => exact ⟨fun _ => ampdu_sound h rx now32 nowInd, False.elim⟩
  | bar wcid frameOk tid startSeq =>
      exact ⟨fun _ => bar_sound h wcid frameOk tid startSeq, False.elim⟩
  | legacy wcid tid now32 => exact ⟨fun _ => legacy_sound h wcid tid now32, False.elim⟩
  | idleTimeout i now32 =>
      exact ⟨fun _ => putRec_sound h (idleTimeout_terms _ now32), False.elim⟩

theorem baStart_sound (cfg : BaCfg) (caps : Fin 32 → StaCaps) (num : Nat) :
    TablesSound (baStart cfg caps num) := by
  constructor
  · convert Table.Sessions.sound_empty (ι := Fin 128) (κ := SessionKey) using 1
    refine Table.Sessions.ext rfl ?_ rfl rfl ?_
    · funext k
      change slotEntry ((caps k.1).entry.oriSlot k.2) = none
      simp [MacTableEntry.oriSlot, StaCaps.entry]
    · funext k
      exact BitVec.getLsbD_zero
  · convert Table.Sessions.sound_empty (ι := Fin 128) (κ := SessionKey) using 1
    refine Table.Sessions.ext rfl ?_ rfl rfl ?_
    · funext k
      change (if h : (k.2 : Nat) < 8 then slotEntry ((caps k.1).entry.BARecWcidArray ⟨k.2, h⟩)
        else none) = none
      simp [StaCaps.entry]
    · funext k
      exact BitVec.getLsbD_zero

/-- **The accounts stay in order along a run** exactly when none of its TIDs
strays to a recipient entry. -/
theorem accounting_always_iff (cfg : BaCfg) (caps : Fin 32 → StaCaps) (num : Nat)
    (ops : List BaOp) :
    Run.Always baStep Accounting (baStart cfg caps num) ops
      ↔ Run.Along baStep (fun ad op => ¬ StrayTid ad op) (baStart cfg caps num) ops := by
  have h0 := baStart_sound cfg caps num
  refine Run.always_iff_along_of_inv (fun ad op h _ hno => (baStep_sound h op).1 hno)
    (fun ad op h _ => ⟨fun hok hs => (baStep_sound h op).2 hs hok,
      fun hno => ((baStep_sound h op).1 hno).accounting⟩) h0 h0.accounting

/-- An ADDBA request for TID 8 puts its recipient entry into the station's
first originator slot, which then names an originator entry that is free. -/
theorem accounting_broken :
    ¬ ∀ (cfg : BaCfg) (caps : Fin 32 → StaCaps) (num : Nat) (ops : List BaOp),
        Run.Always baStep Accounting (baStart cfg caps num) ops := by
  intro h
  have hlast := (h plainCfg (fun _ => htSta) 0 [.addBaReq 1 (addbaFor 8)]).last
  have hslot := hlast.oriSlot 1 0
  revert hslot
  decide +kernel

end ExtDrv.Rt3370
