import ExtDrv.Rt3370.Accounting

/-!
# The buffer size of a recipient session

`PeerAddBAReqAction` answers an ADDBA request with a buffer size, `BARecSessionAdd` stores one in
the session it opens or renews. Both take the smaller of what was asked for and `RxBAWinLimit`, as
unsigned chars, and 64 for none.
-/

namespace ExtDrv.Rt3370

namespace Negotiation

/-! ## The answer -/

/-- An ADDBA request with its dialog token. -/
structure AddbaReq extends FrameAddba where
  Token : BitVec 8

/-- The fields of an ADDBA response, `FRAME_ADDBA_RSP`. -/
structure AddbaRsp where
  Token : BitVec 8
  StatusCode : Nat
  BAPolicy : Nat
  AMSDUSupported : Nat
  TID : Fin 16
  BufSize : Nat
  TimeOutValue : Nat
deriving DecidableEq

/-- `BaParm.BufSize` of the response, a field of ten bits. -/
def rspBufSize (cfg : BaCfg) (f : AddbaReq) : Nat :=
  let bufSize := min ((f.BufSize : Nat) % 256) (cfg.RxBAWinLimit % 256) % 1024
  if bufSize = 0 then 64 else bufSize

/-- The response of `PeerAddBAReqAction`. -/
def addbaRsp (cfg : BaCfg) (f : AddbaReq) (status : Nat) : AddbaRsp :=
  { Token := f.Token, StatusCode := status, BAPolicy := 1, AMSDUSupported := 0, TID := f.TID,
    BufSize := rspBufSize cfg f, TimeOutValue := 0 }

/-- `PeerAddBAReqAction`, with the response it sends if there is memory for one. -/
def peerAddBaReqAction (ad : RtmpAdapter) (wcid : Nat) (f : AddbaReq) (memOk : Bool) :
    RtmpAdapter × Option AddbaRsp :=
  if h : wcid < maxLenOfMacTable then
    let (status, ad') :=
      if f.sane then
        if !ad.cfg.bBADecline && (ad.Content ⟨wcid, h⟩).isHtSta then
          let (added, ad') := ad.baRecSessionAdd ⟨wcid, h⟩ f.toFrameAddba
          (if added then 0 else 38, ad')
        else (37, ad)
      else (1, ad)
    (ad', if memOk then some (addbaRsp ad.cfg f status) else none)
  else (ad, none)

/-- The entry `BARecSessionAdd` fills. -/
def addedEntry (ad : RtmpAdapter) (w : Fin 32) (f : AddbaReq) : Option (Fin 128) :=
  let idx := (ad.Content w).recSlot f.TID
  if idx = 0 then (ad.baTableAllocRecEntry idx).2.1 else some idx

/-- The request is well formed, comes from an HT station, and is not declined. -/
def Accepts (ad : RtmpAdapter) (w : Fin 32) (f : AddbaReq) : Prop :=
  f.sane = true ∧ ad.cfg.bBADecline = false ∧ (ad.Content w).isHtSta = true

instance (ad : RtmpAdapter) (w : Fin 32) (f : AddbaReq) : Decidable (Accepts ad w f) :=
  inferInstanceAs (Decidable (_ ∧ _ ∧ _))

/-- The session the request creates or renews. -/
def created (ad : RtmpAdapter) (wcid : Nat) (f : AddbaReq) : Option (Fin 128) :=
  if h : wcid < maxLenOfMacTable then
    if Accepts ad ⟨wcid, h⟩ f then addedEntry ad ⟨wcid, h⟩ f else none
  else none

/-! ## What is wanted -/

/-- The session is accepted with the size that is announced, one that is allowed. -/
structure Negotiated (limit : Nat) (ent : BaRecEntry) (rsp : Option AddbaRsp) : Prop where
  accepted : ent.REC_BA_Status = .recipientAccept
  announced : ∀ r ∈ rsp, r.StatusCode = 0 ∧ r.BufSize = ent.BAWinSize
  positive : 1 ≤ ent.BAWinSize
  limited : ent.BAWinSize ≤ limit

/-- Every session a request creates is negotiated right. -/
def NegotiatedRight (ad : RtmpAdapter) (wcid : Nat) (f : AddbaReq) (memOk : Bool) : Prop :=
  ∀ i ∈ created ad wcid f, Negotiated ad.cfg.RxBAWinLimit
    ((peerAddBaReqAction ad wcid f memOk).1.BARecEntry i) (peerAddBaReqAction ad wcid f memOk).2

/-- A size is asked for, as an unsigned char, and there is a limit; or the limit allows 64. -/
def SizeAllowed (cfg : BaCfg) (f : AddbaReq) : Prop :=
  (f.BufSize : Nat) % 256 ≠ 0 ∧ cfg.RxBAWinLimit ≠ 0 ∨ 64 ≤ cfg.RxBAWinLimit

/-- There is a session to renew, or room for a new one. -/
def HasRoom (ad : RtmpAdapter) (w : Fin 32) (f : AddbaReq) : Prop :=
  (ad.Content w).recSlot f.TID ≠ 0 ∨ ad.numAsRecipient < maxLenOfBaTable - 1

/-! ## The sizes -/

/-- Both functions come to the same size. -/
theorem rspBufSize_eq (cfg : BaCfg) (f : AddbaReq) :
    rspBufSize cfg f = recWinSize f.BufSize cfg.RxBAWinLimit := by
  have hmod : min ((f.BufSize : Nat) % 256) (cfg.RxBAWinLimit % 256) % 1024
      = min ((f.BufSize : Nat) % 256) (cfg.RxBAWinLimit % 256) := by
    apply Nat.mod_eq_of_lt
    omega
  rw [rspBufSize, recWinSize, hmod]

theorem recWinSize_pos (bufSize limit : Nat) : 1 ≤ recWinSize bufSize limit := by
  unfold recWinSize
  dsimp only
  split <;> omega

/-- The size keeps to the limit unless it is the 64 for none. -/
theorem recWinSize_le_iff (bufSize limit : Nat) :
    recWinSize bufSize limit ≤ limit ↔ bufSize % 256 ≠ 0 ∧ limit ≠ 0 ∨ 64 ≤ limit := by
  unfold recWinSize
  dsimp only
  split <;> omega

/-! ## The session -/

variable {ad : RtmpAdapter} {w : Fin 32} {f : AddbaReq}

/-- The entry that is filled. -/
theorem filled {tid : Fin 16} {baWinSize timeOut : Nat} (recs : Fin 128 → BaRecEntry)
    (i : Fin 128) (ent : BaRecEntry) :
    (Function.update recs i (ent.fill w tid baWinSize timeOut) i).BAWinSize = baWinSize ∧
      (Function.update recs i (ent.fill w tid baWinSize timeOut) i).REC_BA_Status
        = .recipientAccept := by
  rw [Function.update_self]
  exact ⟨rfl, rfl⟩

/-- **`BARecSessionAdd`**: it succeeds exactly if it has an entry, and fills that one. -/
theorem recSessionAdd_spec (i : Fin 128) (hi : addedEntry ad w f = some i) :
    (ad.baRecSessionAdd w f.toFrameAddba).1 = true ∧
      ((ad.baRecSessionAdd w f.toFrameAddba).2.BARecEntry i).BAWinSize
        = recWinSize f.BufSize ad.cfg.RxBAWinLimit ∧
      ((ad.baRecSessionAdd w f.toFrameAddba).2.BARecEntry i).REC_BA_Status
        = .recipientAccept := by
  unfold addedEntry at hi
  unfold RtmpAdapter.baRecSessionAdd
  dsimp only at hi ⊢
  generalize (ad.Content w).recSlot f.TID = idx at hi ⊢
  by_cases h0 : idx = 0
  · rw [if_pos h0] at hi ⊢
    generalize ad.baTableAllocRecEntry idx = x at hi ⊢
    obtain ⟨ad', ent, idx'⟩ := x
    obtain rfl : ent = some i := hi
    exact ⟨rfl, filled ad'.BARecEntry i (ad'.BARecEntry i)⟩
  · rw [if_neg h0] at hi ⊢
    obtain rfl : idx = i := Option.some.inj hi
    exact ⟨rfl, filled _ idx _⟩

/-- There is an entry exactly if there is room. -/
theorem addedEntry_isSome_iff : (addedEntry ad w f).isSome = true ↔ HasRoom ad w f := by
  unfold addedEntry HasRoom
  dsimp only
  generalize (ad.Content w).recSlot f.TID = idx
  by_cases h0 : idx = 0
  · rw [if_pos h0, RtmpAdapter.baTableAllocRecEntry]
    by_cases hfull : maxLenOfBaTable - 1 ≤ ad.numAsRecipient
    · rw [if_pos hfull]
      refine iff_of_false Bool.false_ne_true ?_
      rintro (hne | hlt)
      · exact hne h0
      · exact absurd hlt (Nat.not_lt.mpr hfull)
    · rw [if_neg hfull]
      refine iff_of_true ?_ (Or.inr (Nat.lt_of_not_le hfull))
      split <;> rfl
  · rw [if_neg h0]
    exact iff_of_true rfl (Or.inl h0)

/-- What the request does is what the tables' own step does. -/
theorem peerAddBaReqAction_fst (wcid : Nat) (memOk : Bool) :
    (peerAddBaReqAction ad wcid f memOk).1 = ad.peerAddBaReqAction wcid f.toFrameAddba := by
  unfold peerAddBaReqAction RtmpAdapter.peerAddBaReqAction
  by_cases h : wcid < maxLenOfMacTable
  · simp only [dif_pos h]
    cases f.sane with
    | false => rfl
    | true =>
      simp only [if_true, Bool.true_and]
      cases !ad.cfg.bBADecline && (ad.Content ⟨wcid, h⟩).isHtSta with
      | false => rfl
      | true => rfl
  · simp only [dif_neg h]

/-- A request that creates a session, as a whole. -/
theorem peerAddBaReqAction_created {wcid : Nat} (h : wcid < maxLenOfMacTable)
    (hacc : Accepts ad ⟨wcid, h⟩ f) {i : Fin 128} (hi : addedEntry ad ⟨wcid, h⟩ f = some i)
    (memOk : Bool) : peerAddBaReqAction ad wcid f memOk
      = ((ad.baRecSessionAdd ⟨wcid, h⟩ f.toFrameAddba).2,
          if memOk then some (addbaRsp ad.cfg f 0) else none) := by
  obtain ⟨hsane, hdecl, hht⟩ := hacc
  have hadded := (recSessionAdd_spec i hi).1
  simp only [peerAddBaReqAction, dif_pos h, hsane, hdecl, hht, if_true, Bool.not_false,
    Bool.true_and, hadded]

/-- **A created session**: all is as announced, and only the limit is in question. -/
theorem negotiated_iff {wcid : Nat} (memOk : Bool) {i : Fin 128} (hi : created ad wcid f = some i) :
    Negotiated ad.cfg.RxBAWinLimit ((peerAddBaReqAction ad wcid f memOk).1.BARecEntry i)
      (peerAddBaReqAction ad wcid f memOk).2 ↔ SizeAllowed ad.cfg f := by
  unfold created at hi
  split_ifs at hi with h hacc
  rw [peerAddBaReqAction_created h hacc hi memOk]
  obtain ⟨-, hsize, hstatus⟩ := recSessionAdd_spec i hi
  constructor
  · intro hn
    have hle := hn.limited
    rw [hsize] at hle
    exact (recWinSize_le_iff _ _).mp hle
  · intro hallowed
    refine ⟨hstatus, ?_, ?_, ?_⟩
    · intro r hr
      cases memOk with
      | false => cases hr
      | true =>
        cases hr
        exact ⟨rfl, (rspBufSize_eq ad.cfg f).trans hsize.symm⟩
    · rw [hsize]
      exact recWinSize_pos _ _
    · rw [hsize]
      exact (recWinSize_le_iff _ _).mpr hallowed

theorem created_isSome_iff (wcid : Nat) : (created ad wcid f).isSome = true ↔
    ∃ h : wcid < maxLenOfMacTable, Accepts ad ⟨wcid, h⟩ f ∧ HasRoom ad ⟨wcid, h⟩ f := by
  unfold created
  split_ifs with h hacc
  · rw [addedEntry_isSome_iff]
    exact ⟨fun hroom => ⟨h, hacc, hroom⟩, fun ⟨_, _, hroom⟩ => hroom⟩
  · exact iff_of_false Bool.false_ne_true fun ⟨_, hacc', _⟩ => hacc hacc'
  · exact iff_of_false Bool.false_ne_true fun ⟨h', _⟩ => h h'

/-- **The buffer size**: whatever the tables hold and whatever is asked for, the session a request
creates has the size that is announced, at least 1 and at most the limit, exactly if no session is
created, a size is asked for, or the limit allows 64. -/
theorem negotiated_right_iff (ad : RtmpAdapter) (wcid : Nat) (f : AddbaReq) (memOk : Bool) :
    NegotiatedRight ad wcid f memOk ↔
      ((∃ h : wcid < maxLenOfMacTable, Accepts ad ⟨wcid, h⟩ f ∧ HasRoom ad ⟨wcid, h⟩ f) →
        SizeAllowed ad.cfg f) := by
  rw [← created_isSome_iff]
  unfold NegotiatedRight
  cases hc : created ad wcid f with
  | none =>
    refine iff_of_true ?_ fun h => Bool.noConfusion h
    intro i hi
    cases hi
  | some i =>
    have hiff := negotiated_iff memOk hc
    constructor
    · intro h _
      exact hiff.mp (h i rfl)
    · intro h j hj
      obtain rfl : i = j := Option.some.inj hj
      exact hiff.mpr (h rfl)

/-- With a limit of 16, a request that leaves the size open gets 64. -/
theorem negotiated_right_broken : ¬ ∀ (ad : RtmpAdapter) (wcid : Nat) (f : AddbaReq)
    (memOk : Bool), NegotiatedRight ad wcid f memOk := by
  intro h
  have hsession := h (baStart { plainCfg with RxBAWinLimit := 16 } (fun _ => htSta) 8) 1
    { addbaFor 0 with BufSize := 0, Token := 1 } true 1 (by decide)
  exact absurd hsession.limited (by decide)

end Negotiation

end ExtDrv.Rt3370
