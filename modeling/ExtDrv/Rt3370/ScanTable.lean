import ExtDrv.Lib.Run
import ExtDrv.Rt3370.BssTable

/-!
# The scan table

Beacons and probe responses fill the entries, deletions move them. Beside every
entry stands what was heard in its place since the BSSID there is the one it has:
an entry comes from one BSS if it agrees with an entry of zeros to which only
these frames have come, and its copies of elements with one to which only the latest of them has.

`BssEntrySet` keeps a name, the flag of SES, lengths of copies and the bytes behind
the elements. They are those of another BSS when a full table gives an entry away,
and those of an older frame when a BSS drops an element.
-/

namespace ExtDrv.Rt3370.Bss

open Memory Run

/-! ## What an entry says -/

namespace BssEntry

def name (e : BssEntry) : List (BitVec 8) := segment e.Ssid 0 e.SsidLen

def supRates (e : BssEntry) : List (BitVec 8) :=
  segment e.SupRate 0 (min e.SupRateLen maxLenOfSupportedRates)

def extRates (e : BssEntry) : List (BitVec 8) := segment e.ExtRate 0 e.ExtRateLen

def htCapability (e : BssEntry) : List (BitVec 8) := segment e.HtCapability 0 e.HtCapabilityLen

def addHtInfo (e : BssEntry) : List (BitVec 8) := segment e.AddHtInfo 0 e.AddHtInfoLen

def elements (e : BssEntry) : List (BitVec 8) := segment e.VarIEs 0 e.VarIELen

def parse (e : BssEntry) : Parse (Security × Bool) :=
  bssCipherParse e.Privacy (e.BssType = .adhoc) e.VarIELen

end BssEntry

/-- The entry to which the frames come, the latest at the head. -/
def replay : List Frame → BssEntry
  | [] => .zero none
  | f :: fs => bssEntrySet (replay fs) f

/-- **From one BSS**: the frames `fs` are those of the entry's own BSSID, and they account for what
is in it. -/
structure FromOwn (e : BssEntry) (fs : List Frame) : Prop where
  own : ∀ f ∈ fs, f.Bssid = e.Bssid
  name : e.name = (replay fs).name
  ses : e.bSES = (replay fs).bSES
  supRates : e.SupRateLen = (replay fs).SupRateLen ∧ e.supRates = (replay fs).supRates
  extRates : e.extRates = (replay fs).extRates
  ht : e.htCapability = (replay fs).htCapability ∧ e.addHtInfo = (replay fs).addHtInfo
  ciphers : e.security = (replay fs).security
  /-- The ciphers were parsed out of the array, and out of bytes that these frames left there. -/
  parsed : ∀ a ∈ e.parse.addrs e.VarIEs, a < maxVieLen ∧ e.VarIEs a = (replay fs).VarIEs a
  copies : ∃ f, fs.head? = some f ∧ e.elements = segment f.pVIE 0 f.LengthVIE ∧
    e.ies = (bssEntrySet (.zero none) f).ies

/-! ## Runs -/

structure Scan where
  pool : Pool
  tab : BssTable
  heard : Nat → List Frame

inductive Event
  | beacon (ad : Adapter) (f : Frame)
  | delete (pBssid : Bytes 6) (channel : Nat)

/-- The frames of the slot, now that `f` has come to it. -/
def Scan.hear (s : Scan) (i : Nat) (f : Frame) : List Frame :=
  if (s.tab.BssEntry i).Bssid = f.Bssid then s.heard i else []

/-- What was heard moves with the entries. -/
def shiftHeard (heard : Nat → List Frame) (i nr : Nat) : Nat → List Frame :=
  fun k => if i ≤ k ∧ k + 1 < nr then heard (k + 1) else if k + 1 = nr then [] else heard k

def step (s : Scan) : Event → Scan
  | .beacon ad f =>
      { s with
        tab := (bssTableSetEntry ad s.tab f).1
        heard := match setPlace ad s.tab f with
          | some i => Function.update s.heard i (f :: s.hear i f)
          | none => s.heard }
  | .delete pBssid channel =>
      let t := bssTableDeleteEntry (s.pool, s.tab) pBssid channel
      { pool := t.1
        tab := t.2
        heard := match deletePlace s.tab pBssid channel with
          | some i => shiftHeard s.heard i s.tab.BssNr
          | none => s.heard }

/-- An initialised table. -/
def start (pool : Pool) (tab : BssTable) : Scan where
  pool := (bssTableInit (pool, tab)).1
  tab := (bssTableInit (pool, tab)).2
  heard := fun _ => []

def SameBss (e e' : BssEntry) : Prop :=
  e.Bssid = e'.Bssid ∧ (e.Channel ≤ 14 ↔ e'.Channel ≤ 14)

structure Sound (s : Scan) : Prop where
  nr : s.tab.BssNr ≤ maxLenOfBssTable
  unique : ∀ i < s.tab.BssNr, ∀ j < s.tab.BssNr,
    SameBss (s.tab.BssEntry i) (s.tab.BssEntry j) → i = j
  fromOwn : ∀ i < s.tab.BssNr, FromOwn (s.tab.BssEntry i) (s.heard i)

/-- The frame has an element for the copy. -/
def Frame.Has (f : Frame) (kind : IeKind) : Prop :=
  ∃ o ∈ Tlv.offsets f.pVIE f.LengthVIE 0, ieKind f.pVIE o = some kind

/-- **Nothing is left over** in the entry `e`, of which the frames `fs` are the BSS's own, when `f`
comes to it. -/
structure NothingLeft (e : BssEntry) (fs : List Frame) (f : Frame) : Prop where
  /-- The name of another BSS is overwritten. -/
  name : e.Bssid = f.Bssid ∨ e.SsidLen = 0 ∨ f.hidden = false
  /-- The flag of another BSS is set anyway. -/
  ses : e.Bssid = f.Bssid ∨ e.bSES = false ∨ (f.parse.run (f.varIEs e.VarIEs)).2 = true
  /-- An element that there was is there again. -/
  copies : ∀ kind, (e.ies kind).IELen = 0 ∨ f.Has kind
  /-- The parse stays in the array, and behind the elements of the frame it comes to bytes of
  the BSS's own frames only. -/
  parsed : ∀ a ∈ f.parse.addrs (f.varIEs e.VarIEs),
    a < maxVieLen ∧ (f.LengthVIE ≤ a → e.VarIEs a = (replay fs).VarIEs a)

def Clean (s : Scan) : Event → Prop
  | .beacon ad f => ∀ i, setPlace ad s.tab f = some i →
      NothingLeft (s.tab.BssEntry i) (s.hear i f) f
  | .delete _ _ => True

/-! ## One frame -/

/-- An entry has no name of zeros. -/
def BssEntry.Named (e : BssEntry) : Prop := e.SsidLen ≠ 0 → isZeroSsid e.Ssid e.SsidLen = false

theorem segment_store_segment (m m' : Mem) (n : Nat) :
    segment (store m 0 (segment m' 0 n)) 0 n = segment m' 0 n := by
  have h := segment_store_self m 0 (segment m' 0 n)
  rwa [length_segment] at h

theorem varIEs_apply (f : Frame) (m : Mem) (a : Nat) :
    f.varIEs m a = if a < f.LengthVIE then f.pVIE a else m a := by
  unfold Frame.varIEs store
  rw [length_segment]
  by_cases ha : a < f.LengthVIE
  · rw [if_pos ⟨Nat.zero_le a, by omega⟩, if_pos ha, List.getD_eq_getElem?_getD, Nat.sub_zero,
      getElem?_segment _ ha, Nat.zero_add]
    rfl
  · rw [if_neg (by omega), if_neg ha]

/-- A frame that shows a name leaves its name. -/
theorem ssid_of_visible {f : Frame} (h : f.hidden = false) (e : BssEntry) :
    f.ssid e = (f.SsidLen, store (fun _ => 0) 0 (segment f.Ssid 0 f.SsidLen)) := by
  simp only [Frame.hidden, Bool.or_eq_false_iff, decide_eq_false_iff_not] at h
  unfold Frame.ssid
  rw [if_pos (by omega), if_neg (by simp [h.2])]

theorem name_of_visible {f : Frame} (h : f.hidden = false) (e : BssEntry) :
    (bssEntrySet e f).name = segment f.Ssid 0 f.SsidLen := by
  show segment (f.ssid e).2 0 (f.ssid e).1 = _
  rw [ssid_of_visible h e]
  exact segment_store_segment _ _ _

/-- A frame that hides the name leaves the one there was. -/
theorem name_of_hidden {f : Frame} {e : BssEntry} (h : f.hidden = true) (he : e.Named) :
    (bssEntrySet e f).name = e.name := by
  show segment (f.ssid e).2 0 (f.ssid e).1 = segment e.Ssid 0 e.SsidLen
  unfold Frame.ssid
  by_cases hlen : 0 < f.SsidLen
  · have hzero : isZeroSsid f.Ssid f.SsidLen = true := by
      simpa [Frame.hidden, Nat.ne_of_gt hlen] using h
    rw [if_pos hlen, if_pos hzero]
  · rw [if_neg hlen]
    split
    · rename_i hz
      have hnone : e.SsidLen = 0 := by
        by_contra hne
        rw [he hne] at hz
        cases hz
      rw [hnone]
      rfl
    · rfl

theorem named_set {e : BssEntry} (he : e.Named) (f : Frame) : (bssEntrySet e f).Named := by
  show (f.ssid e).1 ≠ 0 → isZeroSsid (f.ssid e).2 (f.ssid e).1 = false
  cases h : f.hidden with
  | false =>
    rw [ssid_of_visible h e]
    intro _
    simp only [Frame.hidden, Bool.or_eq_false_iff] at h
    simpa only [isZeroSsid, segment_store_segment] using h.2
  | true =>
    unfold Frame.ssid
    split
    · split
      · exact he
      · rename_i hlen hz
        simp [Frame.hidden, Nat.ne_of_gt hlen, hz] at h
    · split
      · intro hne
        exact absurd rfl hne
      · exact he

theorem named_replay (fs : List Frame) : (replay fs).Named := by
  induction fs with
  | nil =>
    intro h
    exact absurd rfl h
  | cons f fs ih => exact named_set ih f

theorem name_eq_nil_iff (e : BssEntry) : e.name = [] ↔ e.SsidLen = 0 := by
  rw [← List.length_eq_zero_iff, BssEntry.name, length_segment]

/-- The name after the frame, when those before belong to one BSS. -/
theorem name_set_iff {e : BssEntry} {fs : List Frame} {f : Frame} (he : e.Named)
    (hsame : e.Bssid = f.Bssid → e.name = (replay fs).name)
    (hother : e.Bssid ≠ f.Bssid → fs = []) :
    (bssEntrySet e f).name = (replay (f :: fs)).name
      ↔ e.Bssid = f.Bssid ∨ e.SsidLen = 0 ∨ f.hidden = false := by
  show _ = (bssEntrySet (replay fs) f).name ↔ _
  cases h : f.hidden with
  | false => exact iff_of_true (by rw [name_of_visible h, name_of_visible h]) (by simp)
  | true =>
    rw [name_of_hidden h he, name_of_hidden h (named_replay fs)]
    by_cases hb : e.Bssid = f.Bssid
    · exact iff_of_true (hsame hb) (Or.inl hb)
    · obtain rfl := hother hb
      have hnil : (replay []).name = [] := rfl
      rw [hnil, name_eq_nil_iff]
      simp [hb]

/-- The parse comes to the same bytes in both arrays. -/
theorem parsed_set_iff (e : BssEntry) (fs : List Frame) (f : Frame) :
    (∀ a ∈ (bssEntrySet e f).parse.addrs (bssEntrySet e f).VarIEs,
        a < maxVieLen ∧ (bssEntrySet e f).VarIEs a = (replay (f :: fs)).VarIEs a)
      ↔ ∀ a ∈ f.parse.addrs (f.varIEs e.VarIEs),
        a < maxVieLen ∧ (f.LengthVIE ≤ a → e.VarIEs a = (replay fs).VarIEs a) := by
  show (∀ a ∈ f.parse.addrs (f.varIEs e.VarIEs),
    a < maxVieLen ∧ f.varIEs e.VarIEs a = f.varIEs (replay fs).VarIEs a) ↔ _
  refine forall₂_congr fun a _ => and_congr_right fun _ => ?_
  rw [varIEs_apply, varIEs_apply]
  by_cases ha : a < f.LengthVIE
  · simp [ha]
  · simp [ha, Nat.not_lt.mp ha]

theorem run_replay {e : BssEntry} {fs : List Frame} {f : Frame}
    (h : ∀ a ∈ (bssEntrySet e f).parse.addrs (bssEntrySet e f).VarIEs,
      a < maxVieLen ∧ (bssEntrySet e f).VarIEs a = (replay (f :: fs)).VarIEs a) :
    f.parse.run (f.varIEs (replay fs).VarIEs) = f.parse.run (f.varIEs e.VarIEs) :=
  Reads.run_congr fun a ha => (h a ha).2.symm

theorem ies_set_iff (e : BssEntry) (f : Frame) :
    (bssEntrySet e f).ies = (bssEntrySet (.zero none) f).ies
      ↔ ∀ kind, (e.ies kind).IELen = 0 ∨ f.Has kind := by
  rw [funext_iff]
  exact forall_congr' fun kind => takeElements_iff f.pVIE f.LengthVIE e.ies kind

theorem supRates_set (e : BssEntry) (f : Frame) :
    (bssEntrySet e f).supRates
      = segment f.SupRate 0 (min f.SupRateLen maxLenOfSupportedRates) :=
  segment_store_segment _ _ _

theorem extRates_set (e : BssEntry) (f : Frame) :
    (bssEntrySet e f).extRates
      = segment f.ExtRate 0 (min f.ExtRateLen maxLenOfSupportedRates) :=
  segment_store_segment _ _ _

theorem htCapability_set (e : BssEntry) (f : Frame) :
    (bssEntrySet e f).htCapability = segment f.HtCapability 0 f.HtCapabilityLen :=
  segment_store_segment _ _ _

theorem addHtInfo_set (e : BssEntry) (f : Frame) :
    (bssEntrySet e f).addHtInfo
      = if f.HtCapabilityLen = 0 then [] else segment f.AddHtInfo 0 f.AddHtInfoLen := by
  show segment (if f.HtCapabilityLen = 0 then e.AddHtInfo else _) 0
    (if f.HtCapabilityLen = 0 then 0 else f.AddHtInfoLen) = _
  split
  · rfl
  · exact segment_store_segment _ _ _

/-- **One frame**: the entry comes from one BSS after it exactly if nothing is left over. -/
theorem fromOwn_set_iff {e : BssEntry} {fs : List Frame} {f : Frame} (he : e.Named)
    (hown : ∀ g ∈ fs, g.Bssid = f.Bssid)
    (hsame : e.Bssid = f.Bssid → e.name = (replay fs).name ∧ e.bSES = (replay fs).bSES)
    (hother : e.Bssid ≠ f.Bssid → fs = []) :
    FromOwn (bssEntrySet e f) (f :: fs) ↔ NothingLeft e fs f := by
  have hname := name_set_iff he (fun hb => (hsame hb).1) hother
  constructor
  · intro h
    have hparsed := (parsed_set_iff e fs f).mp h.parsed
    refine ⟨hname.mp h.name, ?_, ?_, hparsed⟩
    · by_cases hb : e.Bssid = f.Bssid
      · exact Or.inl hb
      · -- the flag that the frames account for is that of the parse
        obtain rfl := hother hb
        have hses : (e.bSES || (f.parse.run (f.varIEs e.VarIEs)).2)
            = (false || (f.parse.run (f.varIEs (replay []).VarIEs)).2) := h.ses
        rw [run_replay h.parsed] at hses
        cases hflag : e.bSES with
        | false => exact Or.inr (Or.inl rfl)
        | true => exact Or.inr (Or.inr (by simpa [hflag] using hses.symm))
    · obtain ⟨g, hg, -, hies⟩ := h.copies
      obtain rfl : f = g := Option.some.inj hg
      exact (ies_set_iff e f).mp hies
  · intro h
    have hparsed := (parsed_set_iff e fs f).mpr h.parsed
    have hrun := run_replay hparsed
    refine ⟨?_, hname.mpr h.name, ?_, ⟨rfl, ?_⟩, ?_, ⟨?_, ?_⟩, ?_, hparsed, ?_⟩
    · intro g hg
      rcases List.mem_cons.mp hg with rfl | hg
      · rfl
      · exact hown g hg
    · show (e.bSES || _) = ((replay fs).bSES || _)
      rw [hrun]
      rcases h.ses with hb | hflag | hfound
      · rw [(hsame hb).2]
      · by_cases hb : e.Bssid = f.Bssid
        · rw [(hsame hb).2]
        · obtain rfl := hother hb
          rw [hflag]
          rfl
      · rw [hfound, Bool.or_true, Bool.or_true]
    · exact (supRates_set e f).trans (supRates_set (replay fs) f).symm
    · exact (extRates_set e f).trans (extRates_set (replay fs) f).symm
    · exact (htCapability_set e f).trans (htCapability_set (replay fs) f).symm
    · exact (addHtInfo_set e f).trans (addHtInfo_set (replay fs) f).symm
    · show (f.parse.run _).1 = (f.parse.run _).1
      rw [hrun]
    · exact ⟨f, rfl, segment_store_segment _ _ _, (ies_set_iff e f).mpr h.copies⟩

/-! ## The invariant of a run -/

/-- What a vacant place has. -/
structure Vacant (e : BssEntry) (fs : List Frame) : Prop where
  heard : fs = []
  name : e.SsidLen = 0
  ses : e.bSES = false

structure Inv (s : Scan) : Prop where
  overlap : s.tab.BssOverlapNr < maxLenOfBssTable
  named : ∀ i, (s.tab.BssEntry i).Named
  vacant : ∀ i, s.tab.BssNr ≤ i → Vacant (s.tab.BssEntry i) (s.heard i)

theorem Vacant.named {e : BssEntry} {fs : List Frame} (h : Vacant e fs) : e.Named :=
  fun hne => absurd h.name hne

theorem vacant_zero (p : Option Nat) : Vacant (.zero p) [] := ⟨rfl, rfl, rfl⟩

theorem inv_start (pool : Pool) (tab : BssTable) : Inv (start pool tab) where
  overlap := by
    show 0 < maxLenOfBssTable
    decide
  named := fun _ h => absurd rfl h
  vacant := fun _ _ => ⟨rfl, rfl, rfl⟩

theorem sound_start (pool : Pool) (tab : BssTable) : Sound (start pool tab) where
  nr := Nat.zero_le _
  unique := fun _ hi => absurd hi (Nat.not_lt_zero _)
  fromOwn := fun _ hi => absurd hi (Nat.not_lt_zero _)

/-- The buffer of an entry says nothing about it. -/
theorem fromOwn_withBuffer {e : BssEntry} {fs : List Frame} (h : FromOwn e fs) (p : Option Nat) :
    FromOwn (e.withBuffer p) fs :=
  ⟨h.own, h.name, h.ses, h.supRates, h.extRates, h.ht, h.ciphers, h.parsed, h.copies⟩

/-! ## A frame -/

section Beacon

variable {s : Scan} {ad : Adapter} {f : Frame} {i : Nat}

/-- The state after the frame has come to the slot `i`. -/
theorem step_beacon (h : setPlace ad s.tab f = some i) :
    (step s (.beacon ad f)).tab.BssEntry
        = Function.update s.tab.BssEntry i (bssEntrySet (s.tab.BssEntry i) f) ∧
      (step s (.beacon ad f)).heard = Function.update s.heard i (f :: s.hear i f) := by
  constructor
  · show (bssTableSetEntry ad s.tab f).1.BssEntry = _
    rcases setPlace_some h with ⟨-, htab⟩ | ⟨-, -, -, htab⟩ | ⟨-, -, -, htab⟩ <;> rw [htab] <;> rfl
  · show (match setPlace ad s.tab f with
      | some i => Function.update s.heard i (f :: s.hear i f)
      | none => s.heard) = _
    rw [h]

theorem step_beacon_none (h : setPlace ad s.tab f = none) : step s (.beacon ad f) = s := by
  simp only [step, h, setPlace_none h]

/-- The slot is vacant, or holds an entry. -/
theorem step_beacon_nr (h : setPlace ad s.tab f = some i) (hnr : s.tab.BssNr ≤ maxLenOfBssTable)
    (hoverlap : s.tab.BssOverlapNr < maxLenOfBssTable) :
    (i < s.tab.BssNr ∧ (step s (.beacon ad f)).tab.BssNr = s.tab.BssNr) ∨
      (i = s.tab.BssNr ∧ i < maxLenOfBssTable ∧
        (step s (.beacon ad f)).tab.BssNr = s.tab.BssNr + 1) := by
  have hstep : (step s (.beacon ad f)).tab = (bssTableSetEntry ad s.tab f).1 := rfl
  rw [hstep]
  rcases setPlace_some h with ⟨hs, htab⟩ | ⟨-, hlt, rfl, htab⟩ | ⟨-, hfull, rfl, htab⟩
  · refine Or.inl ⟨(bssTableSearch_some hs).1, ?_⟩
    rw [htab]
    rfl
  · refine Or.inr ⟨rfl, hlt, ?_⟩
    rw [htab]
  · refine Or.inl ⟨by omega, ?_⟩
    rw [htab]
    rfl

theorem step_beacon_overlap (h : setPlace ad s.tab f = some i)
    (hoverlap : s.tab.BssOverlapNr < maxLenOfBssTable) :
    (step s (.beacon ad f)).tab.BssOverlapNr < maxLenOfBssTable := by
  show (bssTableSetEntry ad s.tab f).1.BssOverlapNr < _
  rcases setPlace_some h with ⟨-, htab⟩ | ⟨-, -, -, htab⟩ | ⟨-, -, -, htab⟩
  · rw [htab]
    exact hoverlap
  · rw [htab]
    exact hoverlap
  · rw [htab]
    exact Nat.mod_lt _ (by decide)

/-- No entry but the one in the slot is of the frame's BSS. -/
theorem other_bss (h : setPlace ad s.tab f = some i) (hs : Sound s) {j : Nat}
    (hj : j < s.tab.BssNr) (hji : j ≠ i) :
    ¬ ((s.tab.BssEntry j).Bssid = f.Bssid ∧ ((s.tab.BssEntry j).Channel ≤ 14 ↔ f.Channel ≤ 14)) := by
  rintro ⟨hb, hc⟩
  rcases setPlace_some h with ⟨hfound, -⟩ | ⟨hnone, -⟩ | ⟨hnone, -⟩
  · have hi := bssTableSearch_some hfound
    exact hji (hs.unique j hj i hi.1 ⟨hb.trans hi.2.1.symm, hc.trans hi.2.2.symm⟩)
  · exact bssTableSearch_none hnone hj ⟨hb, hc⟩
  · exact bssTableSearch_none hnone hj ⟨hb, hc⟩

theorem unique_beacon (h : setPlace ad s.tab f = some i) (hs : Sound s) (hinv : Inv s) :
    ∀ j < (step s (.beacon ad f)).tab.BssNr, ∀ k < (step s (.beacon ad f)).tab.BssNr,
      SameBss ((step s (.beacon ad f)).tab.BssEntry j) ((step s (.beacon ad f)).tab.BssEntry k) →
        j = k := by
  have hnr := step_beacon_nr h hs.nr hinv.overlap
  rw [(step_beacon h).1]
  -- an entry of the frame's BSS is in the slot
  have hslot : ∀ j < (step s (.beacon ad f)).tab.BssNr, j ≠ i →
      ¬ SameBss (s.tab.BssEntry j) (bssEntrySet (s.tab.BssEntry i) f) := by
    intro j hj hji hsame
    exact other_bss h hs (by omega) hji hsame
  intro j hj k hk hsame
  by_cases hji : j = i
  · by_cases hki : k = i
    · rw [hji, hki]
    · subst hji
      rw [Function.update_self, Function.update_of_ne hki] at hsame
      exact absurd ⟨hsame.1.symm, hsame.2.symm⟩ (hslot k hk hki)
  · rw [Function.update_of_ne hji] at hsame
    by_cases hki : k = i
    · subst hki
      rw [Function.update_self] at hsame
      exact absurd hsame (hslot j hj hji)
    · rw [Function.update_of_ne hki] at hsame
      exact hs.unique j (by omega) k (by omega) hsame

/-- What the frames of the slot account for, before `f` is heard. -/
theorem slot_iff (h : setPlace ad s.tab f = some i) (hs : Sound s) (hinv : Inv s) :
    FromOwn (bssEntrySet (s.tab.BssEntry i) f) (f :: s.hear i f)
      ↔ NothingLeft (s.tab.BssEntry i) (s.hear i f) f := by
  unfold Scan.hear
  by_cases hb : (s.tab.BssEntry i).Bssid = f.Bssid
  · rw [if_pos hb]
    rcases step_beacon_nr h hs.nr hinv.overlap with ⟨hi, -⟩ | ⟨rfl, -, -⟩
    · have hown := hs.fromOwn i hi
      exact fromOwn_set_iff (hinv.named i) (fun g hg => (hown.own g hg).trans hb)
        (fun _ => ⟨hown.name, hown.ses⟩) (fun hne => absurd hb hne)
    · have hv := hinv.vacant _ (Nat.le_refl _)
      rw [hv.heard]
      refine fromOwn_set_iff (hinv.named _) (fun g hg => absurd hg List.not_mem_nil)
        (fun _ => ⟨?_, hv.ses⟩) (fun _ => rfl)
      rw [(name_eq_nil_iff _).mpr hv.name]
      rfl
  · rw [if_neg hb]
    exact fromOwn_set_iff (hinv.named i) (fun g hg => absurd hg List.not_mem_nil)
      (fun heq => absurd heq hb) (fun _ => rfl)

theorem sound_beacon_iff (h : setPlace ad s.tab f = some i) (hs : Sound s) (hinv : Inv s) :
    Sound (step s (.beacon ad f)) ↔ NothingLeft (s.tab.BssEntry i) (s.hear i f) f := by
  have hnr := step_beacon_nr h hs.nr hinv.overlap
  have hentry := step_beacon h
  have hle := hs.nr
  rw [← slot_iff h hs hinv]
  constructor
  · intro hs'
    have hi := hs'.fromOwn i (by omega)
    rwa [hentry.1, hentry.2, Function.update_self, Function.update_self] at hi
  · intro hi
    refine ⟨by omega, unique_beacon h hs hinv, fun j hj => ?_⟩
    rw [hentry.1, hentry.2]
    by_cases hji : j = i
    · subst hji
      rwa [Function.update_self, Function.update_self]
    · rw [Function.update_of_ne hji, Function.update_of_ne hji]
      exact hs.fromOwn j (by omega)

theorem inv_beacon (h : setPlace ad s.tab f = some i) (hs : Sound s) (hinv : Inv s) :
    Inv (step s (.beacon ad f)) := by
  have hnr := step_beacon_nr h hs.nr hinv.overlap
  have hentry := step_beacon h
  refine ⟨step_beacon_overlap h hinv.overlap, fun j => ?_, fun j hj => ?_⟩
  · rw [hentry.1]
    by_cases hji : j = i
    · subst hji
      rw [Function.update_self]
      exact named_set (hinv.named j) f
    · rw [Function.update_of_ne hji]
      exact hinv.named j
  · have hji : j ≠ i := by omega
    rw [hentry.1, hentry.2, Function.update_of_ne hji, Function.update_of_ne hji]
    exact hinv.vacant j (by omega)

end Beacon

/-! ## A deletion -/

section Delete

variable {s : Scan} {pBssid : Bytes 6} {channel i : Nat}

/-- An entry that is left comes from one that there was, with what was heard of it. -/
theorem step_delete (h : deletePlace s.tab pBssid channel = some i) {k : Nat}
    (hk : k + 1 < s.tab.BssNr) :
    ∃ j p, j < s.tab.BssNr ∧ j = (if i ≤ k then k + 1 else k) ∧
      (step s (.delete pBssid channel)).tab.BssEntry k = (s.tab.BssEntry j).withBuffer p ∧
      (step s (.delete pBssid channel)).heard k = s.heard j := by
  have hentry := bssTableDeleteEntry_entry (s := (s.pool, s.tab)) h k
  have hheard : (step s (.delete pBssid channel)).heard k = shiftHeard s.heard i s.tab.BssNr k := by
    simp only [step, h]
  by_cases hik : i ≤ k
  · refine ⟨k + 1, (s.tab.BssEntry k).pVarIeFromProbRsp, hk, (if_pos hik).symm, ?_, ?_⟩
    · show (bssTableDeleteEntry (s.pool, s.tab) pBssid channel).2.BssEntry k = _
      rw [hentry, if_pos ⟨hik, hk⟩]
    · rw [hheard, shiftHeard, if_pos ⟨hik, hk⟩]
  · refine ⟨k, none, by omega, (if_neg hik).symm, ?_, ?_⟩
    · show (bssTableDeleteEntry (s.pool, s.tab) pBssid channel).2.BssEntry k = _
      rw [hentry, if_neg (by omega), if_neg (by show k + 1 ≠ s.tab.BssNr; omega)]
      rfl
    · rw [hheard, shiftHeard, if_neg (by omega), if_neg (by omega)]

theorem step_delete_nr (h : deletePlace s.tab pBssid channel = some i) :
    (step s (.delete pBssid channel)).tab.BssNr = s.tab.BssNr - 1 ∧
      (step s (.delete pBssid channel)).tab.BssOverlapNr = s.tab.BssOverlapNr :=
  bssTableDeleteEntry_nr (s := (s.pool, s.tab)) h

theorem step_delete_none (h : deletePlace s.tab pBssid channel = none) :
    step s (.delete pBssid channel) = s := by
  simp only [step, bssTableDeleteEntry, h]

theorem sound_delete (h : deletePlace s.tab pBssid channel = some i) (hs : Sound s) :
    Sound (step s (.delete pBssid channel)) := by
  have hnr := (step_delete_nr h).1
  have hi := deletePlace_some h
  have hle := hs.nr
  refine ⟨by omega, fun k hk l hl hsame => ?_, fun k hk => ?_⟩
  · obtain ⟨j, p, hj, hjk, hentry, -⟩ := step_delete h (k := k) (by omega)
    obtain ⟨m, q, hm, hml, hentry', -⟩ := step_delete h (k := l) (by omega)
    rw [hentry, hentry'] at hsame
    have hjm := hs.unique j hj m hm hsame
    split at hjk <;> split at hml <;> omega
  · obtain ⟨j, p, hj, -, hentry, hheard⟩ := step_delete h (k := k) (by omega)
    rw [hentry, hheard]
    exact fromOwn_withBuffer (hs.fromOwn j hj) p

theorem inv_delete (h : deletePlace s.tab pBssid channel = some i) (hinv : Inv s) :
    Inv (step s (.delete pBssid channel)) := by
  have hnr := step_delete_nr h
  have hi := deletePlace_some h
  -- a place from the last one on is vacant
  have hvacant : ∀ k, s.tab.BssNr ≤ k + 1 → Vacant
      ((step s (.delete pBssid channel)).tab.BssEntry k)
      ((step s (.delete pBssid channel)).heard k) := by
    intro k hk
    have hentry := bssTableDeleteEntry_entry (s := (s.pool, s.tab)) h k
    have hheard : (step s (.delete pBssid channel)).heard k
        = shiftHeard s.heard i s.tab.BssNr k := by
      simp only [step, h]
    have hmid : ¬ (i ≤ k ∧ k + 1 < s.tab.BssNr) := by omega
    rw [hheard, shiftHeard, if_neg hmid]
    show Vacant ((bssTableDeleteEntry (s.pool, s.tab) pBssid channel).2.BssEntry k) _
    rw [hentry, if_neg hmid]
    by_cases hlast : k + 1 = s.tab.BssNr
    · rw [if_pos hlast, if_pos hlast]
      exact vacant_zero _
    · rw [if_neg hlast, if_neg hlast]
      exact hinv.vacant k (by omega)
  refine ⟨hnr.2 ▸ hinv.overlap, fun k => ?_, fun k hk => hvacant k (by omega)⟩
  by_cases hk : k + 1 < s.tab.BssNr
  · obtain ⟨j, p, -, -, hentry, -⟩ := step_delete h hk
    rw [hentry]
    exact hinv.named j
  · exact (hvacant k (by omega)).named

end Delete

/-! ## Every run -/

theorem step_inv {s : Scan} {e : Event} (hs : Sound s) (hinv : Inv s) : Inv (step s e) := by
  cases e with
  | beacon ad f =>
    cases h : setPlace ad s.tab f with
    | none => rwa [step_beacon_none h]
    | some i => exact inv_beacon h hs hinv
  | delete pBssid channel =>
    cases h : deletePlace s.tab pBssid channel with
    | none => rwa [step_delete_none h]
    | some i => exact inv_delete h hinv

theorem sound_step_iff {s : Scan} {e : Event} (hs : Sound s) (hinv : Inv s) :
    Sound (step s e) ↔ Clean s e := by
  cases e with
  | beacon ad f =>
    cases h : setPlace ad s.tab f with
    | none =>
      rw [step_beacon_none h]
      refine iff_of_true hs fun i hi => ?_
      rw [h] at hi
      cases hi
    | some i =>
      rw [sound_beacon_iff h hs hinv]
      constructor
      · intro hleft j hj
        rw [h] at hj
        obtain rfl := Option.some.inj hj
        exact hleft
      · exact fun hclean => hclean i h
  | delete pBssid channel =>
    refine iff_of_true ?_ trivial
    cases h : deletePlace s.tab pBssid channel with
    | none => rwa [step_delete_none h]
    | some i => exact sound_delete h hs

/-- **The scan table**: in every run from an initialised table, all its states are sound exactly
if no frame leaves anything over. -/
theorem scanTable_iff (pool : Pool) (tab : BssTable) (events : List Event) :
    Always step Sound (start pool tab) events ↔ Along step Clean (start pool tab) events := by
  refine always_iff_along_of_inv ?_ ?_ (inv_start pool tab) (sound_start pool tab)
  · intro s e hinv hs _
    exact step_inv hs hinv
  · intro s e hinv hs
    exact sound_step_iff hs hinv

/-! ## A network that is opened -/

/-- A frame of the network `test` with the elements `vie`. -/
def testFrame (vie : List (BitVec 8)) (h : vie.length ≤ maxVieLen) : Frame where
  Bssid := .zero 6
  Channel := 6
  BssType := .infra
  CapabilityInfo := 0x11
  SsidLen := 4
  Ssid := fun i => [0x74, 0x65, 0x73, 0x74].getD i 0
  Rssi := -50
  SupRateLen := 4
  SupRate := fun i => [0x82, 0x84, 0x8b, 0x96].getD i 0
  ExtRateLen := 0
  ExtRate := fun _ => 0
  HtCapabilityLen := 0
  HtCapability := fun _ => 0
  AddHtInfoLen := 0
  AddHtInfo := fun _ => 0
  NewExtChanOffset := 0xff
  LengthVIE := vie.length
  pVIE := fun i => vie.getD i 0
  ssid_le := by decide
  ht_le := by decide
  addHt_le := by decide
  vie_le := h

/-- The element of a network with a shared key. -/
def pskElement : List (BitVec 8) :=
  [0xdd, 0x16, 0x00, 0x50, 0xf2, 0x01, 0x01, 0x00, 0x00, 0x50, 0xf2, 0x02, 0x01, 0x00, 0x00, 0x50,
   0xf2, 0x02, 0x01, 0x00, 0x00, 0x50, 0xf2, 0x02]

def securedFrame : Frame := testFrame pskElement (by decide)

def openedFrame : Frame := testFrame [] (by decide)

example : (bssEntrySet (.zero none) securedFrame).security
    = ⟨.encryption2Enabled, some .wpaPsk, some .openSystem,
        ⟨.encryption2Enabled, .encryptionDisabled, .encryption2Enabled, 0, false⟩, noSuite⟩ := by
  decide

theorem offsets_secured : Tlv.offsets securedFrame.pVIE securedFrame.LengthVIE 0 = [0] := by
  rw [Tlv.offsets_of_le (show Tlv.after securedFrame.pVIE 0 ≤ securedFrame.LengthVIE by decide),
    Tlv.offsets_of_gt (show securedFrame.LengthVIE
      < Tlv.after securedFrame.pVIE (Tlv.after securedFrame.pVIE 0) by decide)]

theorem not_has_opened (kind : IeKind) : ¬ openedFrame.Has kind := by
  rintro ⟨o, ho, -⟩
  rw [Tlv.offsets_of_gt (show openedFrame.LengthVIE < Tlv.after openedFrame.pVIE 0 by decide)] at ho
  exact List.not_mem_nil ho

/-- The access point drops the element: the copy keeps the length of the one it had. -/
theorem scanTable_broken : ¬ ∀ (pool : Pool) (tab : BssTable) (events : List Event),
    Always step Sound (start pool tab) events := by
  intro hall
  let tab : BssTable := ⟨0, 0, fun _ => .zero none⟩
  let ad : Adapter := ⟨false, false, .zero 6, 0, fun _ => 0⟩
  have hrun := hall (fun _ _ => 0) tab [.beacon ad securedFrame, .beacon ad openedFrame]
  have hinv := step_inv (e := .beacon ad securedFrame) (sound_start (fun _ _ => 0) tab)
    (inv_start _ tab)
  have hclean := (sound_step_iff hrun.2.1 hinv).mp hrun.2.2
  have hlen : ((bssEntrySet { BssEntry.zero none with Rssi := -127 } securedFrame).ies .WpaIE).IELen
      = 24 := by
    show (takeElements securedFrame.pVIE securedFrame.LengthVIE _ IeKind.WpaIE).IELen = 24
    unfold takeElements
    rw [offsets_secured]
    rfl
  rcases (hclean 0 rfl).copies .WpaIE with hzero | hhas
  · have hcopy := hlen.symm.trans hzero
    cases hcopy
  · exact not_has_opened _ hhas

end ExtDrv.Rt3370.Bss
