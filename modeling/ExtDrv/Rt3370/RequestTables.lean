import ExtDrv.Lib.Buckets
import ExtDrv.Lib.Run
import ExtDrv.Rt3370.Reorder
import Mathlib.Data.Fintype.BigOperators
import Mathlib.Data.List.FinRange

/-!
# The measurement and TPC request tables

`MEASURE_REQ_TAB` and `TPC_REQ_TAB` (`spectrum.c`): 32 entries, linked through `pNext` in one chain
for every hash of a dialog token. An insertion takes the first entry that is not valid or has aged
out, and an aged one is taken out of its chain first. The two tables have the same code; they are
one definition here, with the time after which an entry ages out.

A walk along `pNext` that goes in a circle never ends, and one that starts at a null pointer is a
fault: the operations are then `none`.
-/

namespace ExtDrv.Rt3370.Spectrum

open Chain

/-- `MAX_MEASURE_REQ_TAB_SIZE` and `MAX_TPC_REQ_TAB_SIZE`. -/
abbrev maxReqTabSize : Nat := 32

abbrev Slot := Fin maxReqTabSize

/-- What the table reads of a `MEASURE_REQ_ENTRY` or `TPC_REQ_ENTRY`; `pNext` is in the links. -/
structure ReqEntry where
  lastTime : BitVec 32
  Valid : Bool
  DialogToken : BitVec 8

def ReqEntry.zero : ReqEntry := ⟨0, false, 0⟩

/-- `MEASURE_REQ_TAB` and `TPC_REQ_TAB`, with the chains of `Hash` and `pNext`. -/
structure ReqTab where
  Size : BitVec 8
  links : Buckets (BitVec 8) Slot
  Content : Slot → ReqEntry

/-- `MQ_DIALOGTOKEN_HASH_INDEX` and `TPC_DIALOGTOKEN_HASH_INDEX`. -/
def dialogTokenHashIndex (DialogToken : BitVec 8) : BitVec 8 := DialogToken &&& 31

/-! ## The operations -/

def reqLookUp (t : ReqTab) (DialogToken : BitVec 8) : Option (Option Slot) :=
  (search t.links.next (fun i => decide ((t.Content i).DialogToken = DialogToken)) maxReqTabSize
    (t.links.heads (dialogTokenHashIndex DialogToken)) none).map Prod.fst

/-- The entry is taken out of its chain and cleared. -/
def ReqTab.unlink (t : ReqTab) (i : Slot) : Option ReqTab :=
  let HashIdx := dialogTokenHashIndex (t.Content i).DialogToken
  match t.links.heads HashIdx with
  | none => none
  | some _ => (t.links.remove maxReqTabSize HashIdx i).map fun links =>
      { Size := t.Size - 1
        links := links.setNext i none
        Content := Function.update t.Content i .zero }

/-- `now` is the time read when the entry is looked at. -/
def ReqTab.aged (t : ReqTab) (ageOut now : BitVec 32) (i : Slot) : Bool :=
  (t.Content i).Valid && rtmpTimeAfter now ((t.Content i).lastTime + ageOut)

/-- The entry the scan stops at. -/
def ReqTab.scan (t : ReqTab) (ageOut : BitVec 32) (now : Slot → BitVec 32) : Option Slot :=
  (List.finRange maxReqTabSize).find? fun i => t.aged ageOut (now i) i || !(t.Content i).Valid

/-- It is taken out of its chain if it has aged out. -/
def ReqTab.free (t : ReqTab) (ageOut now : BitVec 32) (i : Slot) : Option ReqTab :=
  if t.aged ageOut now i then t.unlink i else some t

def ReqTab.fill (t : ReqTab) (i : Slot) (stamp : BitVec 32) (DialogToken : BitVec 8) : ReqTab :=
  { t with
    Size := t.Size + 1
    Content := Function.update t.Content i ⟨stamp, true, DialogToken⟩ }

/-- The entry is linked behind the last one of its chain. -/
def ReqTab.append (t : ReqTab) (i : Slot) (DialogToken : BitVec 8) : Option ReqTab :=
  (t.links.append maxReqTabSize (dialogTokenHashIndex DialogToken) i).map fun links =>
    { t with links := links }

/-- `now` is the time read for each entry of the scan, `stamp` the one read for the new entry. -/
def reqInsert (ageOut : BitVec 32) (t : ReqTab) (now : Slot → BitVec 32) (stamp : BitVec 32)
    (DialogToken : BitVec 8) : Option (ReqTab × Option Slot) := do
  match ← reqLookUp t DialogToken with
  | some i => some (t, some i)
  | none =>
      match t.scan ageOut now with
      | none => some (t, none)
      | some i =>
          let t ← t.free ageOut (now i) i
          let t ← (t.fill i stamp DialogToken).append i DialogToken
          some (t, some i)

def reqDelete (t : ReqTab) (DialogToken : BitVec 8) : Option ReqTab :=
  if t.Size = 0 then some t
  else do
    match ← reqLookUp t DialogToken with
    | none => some t
    | some i => t.unlink i

/-- `MQ_REQ_AGE_OUT`; the comment says milliseconds. -/
def mqReqAgeOut : BitVec 32 := 500

/-- `TPC_REQ_AGE_OUT`. -/
def tpcReqAgeOut : BitVec 32 := 500

def measureReqLookUp : ReqTab → BitVec 8 → Option (Option Slot) := reqLookUp
def measureReqInsert := reqInsert mqReqAgeOut
def measureReqDelete : ReqTab → BitVec 8 → Option ReqTab := reqDelete

def tpcReqLookUp : ReqTab → BitVec 8 → Option (Option Slot) := reqLookUp
def tpcReqInsert := reqInsert tpcReqAgeOut
def tpcReqDelete : ReqTab → BitVec 8 → Option ReqTab := reqDelete

/-! ## Runs

The clock counts ticks from the start and never wraps; `jiffies` is its low half. When an entry was
put in is kept beside the table. -/

structure State where
  tab : ReqTab
  since : Slot → Nat

inductive Kind
  | measure
  | tpc
  deriving DecidableEq

inductive Call
  | insert (DialogToken : BitVec 8) (now : Slot → Nat) (stamp : Nat)
  | delete (DialogToken : BitVec 8)

def jiffies (ticks : Nat) : BitVec 32 := BitVec.ofNat 32 ticks

def insertOf : Kind → ReqTab → (Slot → BitVec 32) → BitVec 32 → BitVec 8 →
    Option (ReqTab × Option Slot)
  | .measure => measureReqInsert
  | .tpc => tpcReqInsert

def deleteOf : Kind → ReqTab → BitVec 8 → Option ReqTab
  | .measure => measureReqDelete
  | .tpc => tpcReqDelete

def lookUpOf : Kind → ReqTab → BitVec 8 → Option (Option Slot)
  | .measure => measureReqLookUp
  | .tpc => tpcReqLookUp

def act (k : Kind) (s : State) : Call → Option State
  | .insert DialogToken now stamp => do
      let found ← lookUpOf k s.tab DialogToken
      let (tab, r) ← insertOf k s.tab (fun i => jiffies (now i)) (jiffies stamp) DialogToken
      let since := match found, r with
        | none, some i => Function.update s.since i stamp
        | _, _ => s.since
      some ⟨tab, since⟩
  | .delete DialogToken => do
      let tab ← deleteOf k s.tab DialogToken
      some { s with tab := tab }

/-- Nothing happens any more once a call does not return. -/
def step (k : Kind) (s : Option State) (c : Call) : Option State := s.bind fun s => act k s c

/-- The table as `MeasureReqTabInit` and `TpcReqTabInit` leave it. -/
def start : State := ⟨⟨0, ⟨fun _ => none, fun _ => none⟩, fun _ => .zero⟩, fun _ => 0⟩

/-! ## What is asked of a table -/

def ReqTab.valid (t : ReqTab) : Finset Slot := Finset.univ.filter fun i => (t.Content i).Valid

/-- The chain an entry belongs in. -/
def ReqTab.key (t : ReqTab) (i : Slot) : Option (BitVec 8) :=
  if (t.Content i).Valid then some (dialogTokenHashIndex (t.Content i).DialogToken) else none

/-- A valid entry has the token. -/
def ReqTab.Has (t : ReqTab) (DialogToken : BitVec 8) (i : Slot) : Prop :=
  i ∈ t.valid ∧ (t.Content i).DialogToken = DialogToken

structure Consistent (k : Kind) (t : ReqTab) : Prop where
  size : t.Size.toNat = t.valid.card
  /-- Every chain ends, and has the valid entries of its hash and no others, each once. -/
  chains : t.links.Keyed t.key
  unique : ∀ DialogToken i j, t.Has DialogToken i → t.Has DialogToken j → i = j
  lookUp : ∀ DialogToken, ∃ r, lookUpOf k t DialogToken = some r ∧
    ∀ i, r = some i ↔ t.Has DialogToken i

/-- Every call has returned, and the table is consistent. -/
def Sound (k : Kind) (s : Option State) : Prop := ∃ s', s = some s' ∧ Consistent k s'.tab

/-- More than 500 ms have gone by, at `hz` ticks a second. -/
def Overdue (hz since now : Nat) : Prop := 1000 * since + 500 * hz < 1000 * now

instance (hz since now : Nat) : Decidable (Overdue hz since now) :=
  inferInstanceAs (Decidable (_ < _))

/-- An insertion that fails has met valid entries only, none of them older than 500 ms. -/
def FailsOnlyIfFull (k : Kind) (hz : Nat) : Option State → Call → Prop
  | some s, .insert DialogToken now stamp =>
      ∀ t, insertOf k s.tab (fun i => jiffies (now i)) (jiffies stamp) DialogToken = some (t, none) →
        ∀ i, i ∈ s.tab.valid ∧ ¬ Overdue hz (s.since i) (now i)
  | _, _ => True

/-- The ticks gone by, modulo 2^32, are from 501 to 2^31 + 500. -/
def Ticked (since now : Nat) : Prop := ((now : Int) - since - 501) % 2 ^ 32 < 2 ^ 31

/-- Where a new token comes to a table full of valid entries and one is older than 500 ms, there is
one whose ticks are in that range. -/
def Noticed (hz : Nat) : Option State → Call → Prop
  | some s, .insert DialogToken now _ =>
      (∀ i, ¬ s.tab.Has DialogToken i) → (∀ i, i ∈ s.tab.valid) →
        (∃ i, Overdue hz (s.since i) (now i)) → ∃ i, Ticked (s.since i) (now i)
  | _, _ => True

/-! ## One entry is changed -/

section

variable {t t' : ReqTab} {i j : Slot} {e : ReqEntry} {DialogToken : BitVec 8}

theorem mem_valid : i ∈ t.valid ↔ (t.Content i).Valid = true := by
  simp [ReqTab.valid]

theorem key_of_valid (h : i ∈ t.valid) :
    t.key i = some (dialogTokenHashIndex (t.Content i).DialogToken) :=
  if_pos (mem_valid.mp h)

theorem key_eq_none : t.key i = none ↔ i ∉ t.valid := by
  simp [ReqTab.key, mem_valid]

theorem key_update (h : t'.Content = Function.update t.Content i e) :
    t'.key = Function.update t.key i
      (if e.Valid then some (dialogTokenHashIndex e.DialogToken) else none) := by
  funext j
  by_cases hj : j = i
  · subst hj
    rw [Function.update_self, ReqTab.key, h, Function.update_self]
  · rw [Function.update_of_ne hj, ReqTab.key, h, Function.update_of_ne hj, ReqTab.key]

theorem valid_of_clear (h : t'.Content = Function.update t.Content i .zero) :
    t'.valid = t.valid.erase i := by
  ext j
  rw [Finset.mem_erase, mem_valid, mem_valid, h]
  by_cases hj : j = i
  · subst hj
    simp [ReqEntry.zero]
  · simp [hj]

theorem valid_of_set (h : t'.Content = Function.update t.Content i e) (he : e.Valid = true) :
    t'.valid = insert i t.valid := by
  ext j
  rw [Finset.mem_insert, mem_valid, mem_valid, h]
  by_cases hj : j = i
  · subst hj
    simp [he]
  · simp [hj]

theorem card_valid_le (t : ReqTab) : t.valid.card ≤ 32 :=
  (Finset.card_le_univ _).trans_eq (Fintype.card_fin _)

end

/-! ## The invariant -/

/-- What every call keeps. -/
structure Good (t : ReqTab) (since : Slot → Nat) : Prop where
  size : t.Size.toNat = t.valid.card
  chains : t.links.Keyed t.key
  cleared : ∀ i, i ∉ t.valid → t.links.next i = none
  unique : ∀ i ∈ t.valid, ∀ j ∈ t.valid,
    (t.Content i).DialogToken = (t.Content j).DialogToken → i = j
  stamped : ∀ i ∈ t.valid, (t.Content i).lastTime = jiffies (since i)

variable {t : ReqTab} {since : Slot → Nat} {i : Slot} {DialogToken : BitVec 8}

theorem good_start : Good start.tab start.since := by
  have hvalid : start.tab.valid = ∅ := by
    ext i
    simp [ReqTab.valid, start, ReqEntry.zero]
  have hkey (i : Slot) : start.tab.key i = none := key_eq_none.mpr (by simp [hvalid])
  refine ⟨by rw [hvalid]; rfl, fun h => ⟨[], rfl, fun i => ?_⟩, fun _ _ => rfl, ?_, ?_⟩
  · rw [hkey i]
    simp
  · simp [hvalid]
  · simp [hvalid]

/-- A lookup finds the entry with the token, if there is one. -/
theorem Good.lookUp (h : Good t since) (DialogToken : BitVec 8) :
    ∃ r, reqLookUp t DialogToken = some r ∧ ∀ i, r = some i ↔ t.Has DialogToken i := by
  obtain ⟨l, hl, hmem⟩ := h.chains (dialogTokenHashIndex DialogToken)
  have hlen : l.length ≤ maxReqTabSize := hl.length_le.trans_eq (Fintype.card_fin _)
  have hvalid (i : Slot) (hi : i ∈ l) : i ∈ t.valid := by
    by_contra hout
    have hkey := (hmem i).mp hi
    rw [key_eq_none.mpr hout] at hkey
    cases hkey
  have hfound (i : Slot) (hi : l.find? (fun i => decide ((t.Content i).DialogToken = DialogToken))
      = some i) : t.Has DialogToken i := by
    have htoken := List.find?_some hi
    exact ⟨hvalid i (List.mem_of_find?_eq_some hi), of_decide_eq_true htoken⟩
  refine ⟨_, search_fst hl hlen none, fun i => ⟨hfound i, fun hi => ?_⟩⟩
  -- the entry with the token is in the chain, so the walk ends at one
  cases hr : l.find? (fun i => decide ((t.Content i).DialogToken = DialogToken)) with
  | none =>
    have hin : i ∈ l := (hmem i).mpr (hi.2 ▸ key_of_valid hi.1)
    exact absurd (decide_eq_true hi.2) (List.find?_eq_none.mp hr i hin)
  | some j =>
    have hj := hfound j hr
    rw [h.unique i hi.1 j hj.1 (hi.2.trans hj.2.symm)]

/-- **An entry is taken out.** -/
theorem Good.unlink (h : Good t since) (hi : i ∈ t.valid) :
    ∃ t', t.unlink i = some t' ∧ Good t' since ∧
      t'.Content = Function.update t.Content i .zero := by
  obtain ⟨links, hremove, hkeyed, hnext⟩ := h.chains.remove (key_of_valid hi)
    (show Fintype.card Slot ≤ maxReqTabSize from (Fintype.card_fin _).le)
  have hhead : ∃ first,
      t.links.heads (dialogTokenHashIndex (t.Content i).DialogToken) = some first := by
    obtain ⟨l, hl, hmem⟩ := h.chains (dialogTokenHashIndex (t.Content i).DialogToken)
    have hin : i ∈ l := (hmem i).mpr (key_of_valid hi)
    rw [hl.head]
    cases l with
    | nil => cases hin
    | cons a l => exact ⟨a, rfl⟩
  obtain ⟨first, hfirst⟩ := hhead
  have hvalid {t' : ReqTab} (hc : t'.Content = Function.update t.Content i .zero) :
      t'.valid = t.valid.erase i := valid_of_clear hc
  refine ⟨_, by rw [ReqTab.unlink, hfirst, hremove]; rfl, ?_, rfl⟩
  constructor
  · have hpos := Finset.card_pos.mpr ⟨i, hi⟩
    have hle := card_valid_le t
    rw [hvalid rfl, Finset.card_erase_of_mem hi, BitVec.toNat_sub, h.size]
    show (2 ^ 8 - 1 + _) % 2 ^ 8 = _
    omega
  · rw [key_update rfl]
    exact hkeyed.setNext (Function.update_self ..) none
  · intro j hj
    rw [hvalid rfl, Finset.mem_erase, not_and_or, not_not] at hj
    by_cases hji : j = i
    · rw [hji]
      exact Buckets.setNext_next
    · have hout : j ∉ t.valid := hj.resolve_left hji
      show (links.setNext i none).next j = none
      rw [Buckets.setNext_next_of_ne hji, hnext j fun h' hk => ?_]
      · exact h.cleared j hout
      · rw [key_eq_none.mpr hout] at hk
        cases hk
  · intro a ha b hb heq
    rw [hvalid rfl, Finset.mem_erase] at ha hb
    dsimp only at heq
    rw [Function.update_of_ne ha.1, Function.update_of_ne hb.1] at heq
    exact h.unique a ha.2 b hb.2 heq
  · intro a ha
    rw [hvalid rfl, Finset.mem_erase] at ha
    dsimp only
    rw [Function.update_of_ne ha.1]
    exact h.stamped a ha.2

/-- **An entry is filled in** and linked. -/
theorem Good.fill (h : Good t since) (hi : i ∉ t.valid) (hnew : ∀ j, ¬ t.Has DialogToken j)
    (stamp : Nat) :
    ∃ t', (t.fill i (jiffies stamp) DialogToken).append i DialogToken = some t' ∧
      Good t' (Function.update since i stamp) := by
  have hnone := key_eq_none.mpr hi
  obtain ⟨links, happend, hkeyed⟩ := h.chains.append (h := dialogTokenHashIndex DialogToken) hnone
    (h.cleared i hi) (show Fintype.card Slot ≤ maxReqTabSize from (Fintype.card_fin _).le)
  have hvalid {t' : ReqTab} (hc : t'.Content = Function.update t.Content i
      ⟨jiffies stamp, true, DialogToken⟩) : t'.valid = insert i t.valid := valid_of_set hc rfl
  refine ⟨{ t.fill i (jiffies stamp) DialogToken with links := links }, ?_, ?_⟩
  · rw [ReqTab.append]
    exact congrArg (Option.map _) happend
  constructor
  · have hle := card_valid_le t
    rw [hvalid rfl, Finset.card_insert_of_notMem hi, ← h.size]
    show (t.Size + 1).toNat = _
    rw [BitVec.toNat_add, h.size]
    show (_ + 1) % 2 ^ 8 = _
    omega
  · rw [key_update rfl]
    exact hkeyed
  · intro j hj
    rw [hvalid rfl, Finset.mem_insert, not_or] at hj
    show links.next j = none
    rw [h.chains.append_next (Fintype.card_fin _).le happend (key_eq_none.mpr hj.2)]
    exact h.cleared j hj.2
  · intro a ha b hb heq
    rw [hvalid rfl, Finset.mem_insert] at ha hb
    have hcontent : ({ t.fill i (jiffies stamp) DialogToken with links := links } : ReqTab).Content
        = Function.update t.Content i ⟨jiffies stamp, true, DialogToken⟩ := rfl
    rw [hcontent] at heq
    by_cases hai : a = i
    · by_cases hbi : b = i
      · rw [hai, hbi]
      · rw [hai, Function.update_self, Function.update_of_ne hbi] at heq
        exact absurd ⟨hb.resolve_left hbi, heq.symm⟩ (hnew b)
    · rw [Function.update_of_ne hai] at heq
      by_cases hbi : b = i
      · rw [hbi, Function.update_self] at heq
        exact absurd ⟨ha.resolve_left hai, heq⟩ (hnew a)
      · rw [Function.update_of_ne hbi] at heq
        exact h.unique a (ha.resolve_left hai) b (hb.resolve_left hbi) heq
  · intro j hj
    rw [hvalid rfl, Finset.mem_insert] at hj
    show (Function.update t.Content i _ j).lastTime = _
    by_cases hji : j = i
    · rw [hji, Function.update_self, Function.update_self]
    · rw [Function.update_of_ne hji, Function.update_of_ne hji]
      exact h.stamped j (hj.resolve_left hji)

/-! ## The calls -/

/-- The entry is aged for the code if the ticks gone by are in the range. -/
theorem rtmpTimeAfter_iff (since now : Nat) :
    rtmpTimeAfter (jiffies now) (jiffies since + 500) = true ↔ Ticked since now := by
  have htoNat : (jiffies since + 500 - jiffies now).toNat
      = (2 ^ 32 - now % 2 ^ 32 + (since % 2 ^ 32 + 500) % 2 ^ 32) % 2 ^ 32 := by
    rw [BitVec.toNat_sub, BitVec.toNat_add, jiffies, jiffies, BitVec.toNat_ofNat,
      BitVec.toNat_ofNat]
    rfl
  rw [rtmpTimeAfter, decide_eq_true_iff, BitVec.toInt_eq_toNat_cond, htoNat, Ticked]
  split <;> omega

theorem Good.aged_iff (h : Good t since) (hi : i ∈ t.valid) (now : Nat) :
    t.aged 500 (jiffies now) i = true ↔ Ticked (since i) now := by
  rw [ReqTab.aged, mem_valid.mp hi, Bool.true_and, h.stamped i hi, rtmpTimeAfter_iff]

theorem Good.scan_eq_none (h : Good t since) (now : Slot → Nat) :
    t.scan 500 (fun i => jiffies (now i)) = none
      ↔ ∀ i, i ∈ t.valid ∧ ¬ Ticked (since i) (now i) := by
  rw [ReqTab.scan, List.find?_eq_none]
  refine ⟨fun hall i => ?_, fun hall i _ => ?_⟩
  · have hnot := hall i (List.mem_finRange i)
    rw [Bool.or_eq_true, not_or, Bool.not_eq_true', Bool.not_eq_false] at hnot
    have hi := mem_valid.mpr hnot.2
    exact ⟨hi, fun hticked => hnot.1 ((h.aged_iff hi (now i)).mpr hticked)⟩
  · obtain ⟨hi, hticked⟩ := hall i
    rw [Bool.or_eq_true, not_or, Bool.not_eq_true', Bool.not_eq_false, h.aged_iff hi]
    exact ⟨hticked, mem_valid.mp hi⟩

/-- **The entry the scan stops at** is made free, and filled in. -/
theorem Good.take (h : Good t since) {ageOut : BitVec 32} {now : Slot → BitVec 32}
    (hscan : t.scan ageOut now = some i) (hnew : ∀ j, ¬ t.Has DialogToken j) (stamp : Nat) :
    ∃ t₁ t', t.free ageOut (now i) i = some t₁ ∧
      (t₁.fill i (jiffies stamp) DialogToken).append i DialogToken = some t' ∧
      Good t' (Function.update since i stamp) := by
  by_cases haged : t.aged ageOut (now i) i = true
  · have hi : i ∈ t.valid := by
      rw [ReqTab.aged, Bool.and_eq_true] at haged
      exact mem_valid.mpr haged.1
    obtain ⟨t₁, hunlink, hgood, hcontent⟩ := h.unlink hi
    have hvalid := valid_of_clear hcontent
    have hfree : i ∉ t₁.valid := by simp [hvalid]
    have hnew₁ (j : Slot) : ¬ t₁.Has DialogToken j := by
      rintro ⟨hj, htoken⟩
      rw [hvalid, Finset.mem_erase] at hj
      rw [hcontent, Function.update_of_ne hj.1] at htoken
      exact hnew j ⟨hj.2, htoken⟩
    obtain ⟨t', happend, hgood'⟩ := hgood.fill hfree hnew₁ stamp
    exact ⟨t₁, t', by rw [ReqTab.free, if_pos haged, hunlink], happend, hgood'⟩
  · have hstop := List.find?_some hscan
    have hfree : i ∉ t.valid := by
      rw [Bool.or_eq_true, Bool.not_eq_true'] at hstop
      rw [mem_valid, Bool.not_eq_true]
      exact hstop.resolve_left haged
    obtain ⟨t', happend, hgood'⟩ := h.fill hfree hnew stamp
    exact ⟨t, t', if_neg haged, happend, hgood'⟩

/-- **What an insertion does.** -/
inductive Inserted (t : ReqTab) (since : Slot → Nat) (ageOut : BitVec 32) (now : Slot → BitVec 32)
    (stamp : Nat) (DialogToken : BitVec 8) : Prop
  | found (i : Slot) (hlookUp : reqLookUp t DialogToken = some (some i))
      (hinsert : reqInsert ageOut t now (jiffies stamp) DialogToken = some (t, some i))
  | full (hlookUp : reqLookUp t DialogToken = some none) (hscan : t.scan ageOut now = none)
      (hinsert : reqInsert ageOut t now (jiffies stamp) DialogToken = some (t, none))
  | taken (i : Slot) (t' : ReqTab) (hlookUp : reqLookUp t DialogToken = some none)
      (hscan : t.scan ageOut now = some i)
      (hinsert : reqInsert ageOut t now (jiffies stamp) DialogToken = some (t', some i))
      (hgood : Good t' (Function.update since i stamp))

theorem Good.insert (h : Good t since) (ageOut : BitVec 32) (now : Slot → BitVec 32) (stamp : Nat)
    (DialogToken : BitVec 8) : Inserted t since ageOut now stamp DialogToken := by
  obtain ⟨r, hlookUp, hiff⟩ := h.lookUp DialogToken
  cases r with
  | some i => exact .found i hlookUp (by rw [reqInsert, hlookUp]; rfl)
  | none =>
    have hnew (j : Slot) : ¬ t.Has DialogToken j := fun hj => nomatch (hiff j).mpr hj
    cases hscan : t.scan ageOut now with
    | none => exact .full hlookUp hscan (by rw [reqInsert, hlookUp]; simp [hscan])
    | some i =>
      obtain ⟨t₁, t', hfree, happend, hgood⟩ := h.take hscan hnew stamp
      refine .taken i t' hlookUp hscan ?_ hgood
      rw [reqInsert, hlookUp]
      simp [hscan, hfree, happend]

theorem Good.delete (h : Good t since) (DialogToken : BitVec 8) :
    ∃ t', reqDelete t DialogToken = some t' ∧ Good t' since := by
  by_cases hsize : t.Size = 0
  · exact ⟨t, if_pos hsize, h⟩
  obtain ⟨r, hlookUp, hiff⟩ := h.lookUp DialogToken
  rw [reqDelete, if_neg hsize, hlookUp]
  cases r with
  | none => exact ⟨t, rfl, h⟩
  | some i =>
    obtain ⟨t', hunlink, hgood, -⟩ := h.unlink ((hiff i).mp rfl).1
    exact ⟨t', hunlink, hgood⟩

/-! ## Every run -/

section

variable (k : Kind)

/-- The tables have the same code. -/
theorem lookUpOf_eq : lookUpOf k = reqLookUp := by cases k <;> rfl

theorem insertOf_eq : insertOf k = reqInsert 500 := by cases k <;> rfl

theorem deleteOf_eq : deleteOf k = reqDelete := by cases k <;> rfl

theorem Good.consistent (h : Good t since) : Consistent k t := by
  refine ⟨h.size, h.chains, ?_, ?_⟩
  · rintro DialogToken i j ⟨hi, htoken⟩ ⟨hj, rfl⟩
    exact h.unique i hi j hj htoken
  · rw [lookUpOf_eq]
    exact h.lookUp

theorem Good.act {s : State} (h : Good s.tab s.since) (c : Call) :
    ∃ s', act k s c = some s' ∧ Good s'.tab s'.since := by
  cases c with
  | insert DialogToken now stamp =>
    simp only [Spectrum.act, lookUpOf_eq, insertOf_eq]
    cases h.insert 500 (fun i => jiffies (now i)) stamp DialogToken with
    | found i hlookUp hinsert => exact ⟨s, by rw [hlookUp, hinsert]; rfl, h⟩
    | full hlookUp _ hinsert => exact ⟨s, by rw [hlookUp, hinsert]; rfl, h⟩
    | taken i t' hlookUp _ hinsert hgood => exact ⟨⟨t', _⟩, by rw [hlookUp, hinsert]; rfl, hgood⟩
  | delete DialogToken =>
    obtain ⟨t', hdelete, hgood⟩ := h.delete DialogToken
    refine ⟨{ s with tab := t' }, ?_, hgood⟩
    simp [Spectrum.act, deleteOf_eq, hdelete]

/-- An insertion fails where the token is new, all entries are valid and none is in the range. -/
theorem Good.fails_iff {s : State} (h : Good s.tab s.since) (hz : Nat) (c : Call) :
    FailsOnlyIfFull k hz (some s) c ↔ Noticed hz (some s) c := by
  cases c with
  | delete DialogToken => exact Iff.rfl
  | insert DialogToken now stamp =>
    obtain ⟨r, hlookUp, hiff⟩ := h.lookUp DialogToken
    simp only [FailsOnlyIfFull, Noticed, insertOf_eq]
    cases h.insert 500 (fun i => jiffies (now i)) stamp DialogToken with
    | found i hfound hinsert =>
      have hhas : s.tab.Has DialogToken i := by
        rw [hfound] at hlookUp
        exact (hiff i).mp (Option.some.inj hlookUp).symm
      rw [hinsert]
      exact iff_of_true (fun t ht => nomatch ht) fun hnew => absurd hhas (hnew i)
    | full hfound hscan hinsert =>
      have hall := (h.scan_eq_none now).mp hscan
      constructor
      · rintro hfails - - ⟨i, hover⟩
        exact absurd hover (hfails s.tab hinsert i).2
      · intro hnoticed t _ i
        refine ⟨(hall i).1, fun hover => ?_⟩
        have hnew (j : Slot) : ¬ s.tab.Has DialogToken j := by
          rw [hfound] at hlookUp
          rw [← hiff j, ← Option.some.inj hlookUp]
          nofun
        obtain ⟨j, hticked⟩ := hnoticed hnew (fun i => (hall i).1) ⟨i, hover⟩
        exact (hall j).2 hticked
    | taken i t' _ hscan hinsert _ =>
      rw [hinsert]
      refine iff_of_true (fun t ht => nomatch ht) fun _ hvalid _ => ?_
      have hstop := List.find?_some hscan
      rw [Bool.or_eq_true, mem_valid.mp (hvalid i), Bool.not_true, or_iff_left nofun] at hstop
      exact ⟨i, (h.aged_iff (hvalid i) (now i)).mp hstop⟩

/-- The invariant, of a state all of whose calls have returned. -/
def Kept (s : Option State) : Prop := ∃ s', s = some s' ∧ Good s'.tab s'.since

theorem Kept.step {s : Option State} (h : Kept s) (c : Call) : Kept (step k s c) := by
  obtain ⟨s, rfl, hgood⟩ := h
  exact hgood.act k c

end

/-- **The tables over every run**: they stay consistent. That insertions fail only where all entries
are valid and none is older than 500 ms comes down to the ticks: where one is older, the ticks of
one have to be in the range. -/
theorem requestTables_run (k : Kind) (hz : Nat) (calls : List Call) :
    Run.Always (step k) (Sound k) (some start) calls ∧
      (Run.Along (step k) (FailsOnlyIfFull k hz) (some start) calls
        ↔ Run.Along (step k) (Noticed hz) (some start) calls) := by
  have hstart : Kept (some start) := ⟨start, rfl, good_start⟩
  constructor
  · refine (Run.always_of_step (fun _ c h => h.step k c) calls hstart).mono ?_
    rintro _ ⟨s, rfl, hgood⟩
    exact ⟨s, rfl, hgood.consistent k⟩
  · refine Run.along_iff_along ?_ (fun _ c h _ => h.step k c) hstart
    rintro _ c ⟨s, rfl, hgood⟩
    exact hgood.fails_iff k hz c

/-- 32 tokens at once. -/
def burst : List Call := (List.range 32).map fun i => .insert (BitVec.ofNat 8 i) (fun _ => 0) 0

/-- A further token 60 ticks later, which are 600 ms at 100 ticks a second, is refused, although
every entry is older than 500 ms. -/
theorem requestTables_burst : ¬ Run.Along (step .measure) (FailsOnlyIfFull .measure 100)
    (some start) (burst ++ [.insert 32 (fun _ => 60) 60]) := by
  have hend : (Run.exec (step .measure) (some start) burst).map (fun s =>
      ((insertOf .measure s.tab (fun _ => jiffies 60) (jiffies 60) 32).map Prod.snd, s.since 0))
      = some (some none, 0) := by
    decide +kernel
  intro hrun
  obtain ⟨-, hlast, -⟩ := Run.along_append.mp hrun
  cases hs : Run.exec (step .measure) (some start) burst with
  | none =>
    rw [hs] at hend
    cases hend
  | some s =>
    rw [hs] at hend hlast
    obtain ⟨hinsert, hsince⟩ := Prod.mk.inj (Option.some.inj hend)
    obtain ⟨⟨t, r⟩, hr, rfl⟩ := Option.map_eq_some_iff.mp hinsert
    refine (hlast t hr 0).2 ?_
    show Overdue 100 (s.since 0) 60
    rw [hsince]
    decide

end ExtDrv.Rt3370.Spectrum
