import ExtDrv.Rt3370.BssTable
import ExtDrv.Rt3370.MlmeQueue

/-!
# Channel switch announcements

An action frame announces the channel its BSS moves to. `PeerChSwAnnAction` takes the link down,
initialises the MLME queue, and only then looks the channel up in the list. The entry of the BSS
is searched first; `LinkDown` may delete it, and the entries behind it move.
-/

namespace ExtDrv.Rt3370.ChSw

open Memory Bss

/-! ## The frame -/

/-- `IE_CHANNEL_SWITCH_ANNOUNCEMENT`. -/
def ieChannelSwitchAnnouncement : BitVec 8 := 37

/-- `CH_SW_ANN_INFO`. -/
structure ChSwAnnInfo where
  ChSwMode : BitVec 8
  Channel : BitVec 8
  ChSwCnt : BitVec 8

/-- `Hdr.Addr3` of the frame. -/
def addr3 (msg : Mem) : Bytes 6 := fun i => msg (16 + i)

def takeAnnouncement (msg : Mem) (info : Option ChSwAnnInfo) (o : Nat) : Option ChSwAnnInfo :=
  if msg o = ieChannelSwitchAnnouncement then
    some ⟨msg (o + 2), msg (o + 3), msg (o + 4)⟩
  else info

/-- The elements stand behind the header, the category and the action. In a frame that is shorter
than these the end lies before the start. -/
def peerChSwAnnSanity (msg : Mem) (msgLen : Nat) : Option ChSwAnnInfo :=
  (Tlv.offsets msg msgLen 26).foldl (takeAnnouncement msg) none

/-- The channel the frame announces. -/
def announced (msg : Mem) (msgLen : Nat) : Option Nat :=
  (peerChSwAnnSanity msg msgLen).map fun info => info.Channel.toNat

/-! ## The station -/

structure State where
  opModeSta : Bool
  monitorOn : Bool
  ateOn : Bool
  infraOn : Bool
  adhocOn : Bool
  mediaStateConnected : Bool
  /-- The media state that was indicated last. -/
  indicatedConnected : Bool
  portSecured : Bool
  authMode : AuthMode
  currReqIsFromNdis : Bool
  bIEEE80211H : Bool
  Bssid : Bytes 6
  LastBssid : Bytes 6
  /-- `CommonCfg.Channel` -/
  Channel : Nat
  /-- The channel the chip was switched to last. -/
  asicChannel : Nat
  ChannelList : List Nat
  pool : Pool
  ScanTab : BssTable
  Queue : MlmeQueue.Queue

def asicSwitchChannel (s : State) (channel : Nat) : State := { s with asicChannel := channel }

/-- The BSS of the station is deleted from the scan table. -/
def State.deleteOwn (s : State) : State :=
  let t := bssTableDeleteEntry (s.pool, s.ScanTab) s.Bssid s.Channel
  { s with pool := t.1, ScanTab := t.2 }

def State.unlinked (s : State) : State :=
  { s with infraOn := false, mediaStateConnected := false, LastBssid := s.Bssid }

/-- After a request of the user the entry stays, and so it does as long as the port
is not secured. -/
def linkDownInfra (s : State) : State :=
  if s.currReqIsFromNdis then { s.unlinked with currReqIsFromNdis := false }
  else if s.portSecured || decide (s.authMode.toNat < AuthMode.wpa.toNat) then s.unlinked.deleteOwn
  else s.unlinked

/-- `LinkDown`, without what it resets beside the link and the scan table. -/
def linkDown (s : State) : State :=
  if s.monitorOn || s.ateOn then s
  else
    let s :=
      if s.adhocOn then { s with adhocOn := false, mediaStateConnected := false }.deleteOwn
      else linkDownInfra s
    { s with portSecured := false, indicatedConnected := false }

def setChannel (tab : BssTable) (i channel : Nat) : BssTable :=
  { tab with
    BssEntry := Function.update tab.BssEntry i { tab.BssEntry i with Channel := channel } }

/-- The entry found before the link went down is looked at by its number. -/
def switchChannel (s : State) (bssidx newChannel : Nat) : State :=
  let s := linkDown (asicSwitchChannel s 1)
  let s := { s with Queue := MlmeQueue.mlmeQueueInit s.Queue.Entry }
  if newChannel ∈ s.ChannelList then
    asicSwitchChannel
      { s with ScanTab := setChannel s.ScanTab bssidx newChannel, Channel := newChannel } newChannel
  else s

def peerChSwAnnAction (s : State) (msg : Mem) (msgLen : Nat) : State :=
  match peerChSwAnnSanity msg msgLen with
  | none => s
  | some info =>
      if s.opModeSta then
        match bssTableSearch s.ScanTab (addr3 msg) s.Channel with
        | none => s
        | some bssidx =>
            if s.bIEEE80211H ∧ info.Channel ≠ 0 ∧ s.Channel ≠ info.Channel.toNat then
              switchChannel s bssidx info.Channel.toNat
            else s
      else s

/-! ## What is wanted -/

/-- An infrastructure station with a link and 802.11h. -/
structure Associated (s : State) : Prop where
  sta : s.opModeSta = true
  infra : s.infraOn = true
  adhoc : s.adhocOn = false
  monitor : s.monitorOn = false
  ate : s.ateOn = false
  dot11h : s.bIEEE80211H = true

/-- The announcement is to be followed. -/
structure Valid (s : State) (bssid : Bytes 6) (channel : Nat) : Prop where
  own : bssid = s.Bssid
  ne_zero : channel ≠ 0
  ne_current : channel ≠ s.Channel
  listed : channel ∈ s.ChannelList

structure LeftAlone (s s' : State) : Prop where
  infra : s'.infraOn = s.infraOn
  adhoc : s'.adhocOn = s.adhocOn
  media : s'.mediaStateConnected = s.mediaStateConnected
  indicated : s'.indicatedConnected = s.indicatedConnected
  port : s'.portSecured = s.portSecured
  channel : s'.Channel = s.Channel
  asic : s'.asicChannel = s.asicChannel
  queue : s'.Queue = s.Queue
  scanTab : s'.ScanTab = s.ScanTab

/-- One entry has got the channel, and it is of the BSS. -/
structure Retuned (tab tab' : BssTable) (bssid : Bytes 6) (channel i : Nat) : Prop where
  lt : i < tab.BssNr
  nr : tab'.BssNr = tab.BssNr
  ofBss : (tab.BssEntry i).Bssid = bssid
  retuned : tab'.BssEntry i = { tab.BssEntry i with Channel := channel }
  others : ∀ j < tab.BssNr, j ≠ i → tab'.BssEntry j = tab.BssEntry j

structure Moved (s s' : State) (bssid : Bytes 6) (channel : Nat) : Prop where
  configured : s'.Channel = channel
  asic : s'.asicChannel = channel
  scanTab : ∃ i, Retuned s.ScanTab s'.ScanTab bssid channel i

structure Answered (s s' : State) (msg : Mem) (msgLen : Nat) : Prop where
  refused : (∀ channel, announced msg msgLen = some channel → ¬ Valid s (addr3 msg) channel) →
    LeftAlone s s'
  followed : ∀ channel, announced msg msgLen = some channel → Valid s (addr3 msg) channel →
    Moved s s' (addr3 msg) channel

/-- `LinkDown` has an entry to delete. -/
structure Dropped (s : State) : Prop where
  notNdis : s.currReqIsFromNdis = false
  secured : s.portSecured = true ∨ s.authMode.toNat < AuthMode.wpa.toNat
  there : ∃ i < s.ScanTab.BssNr,
    (s.ScanTab.BssEntry i).Channel = s.Channel ∧ (s.ScanTab.BssEntry i).Bssid = s.Bssid

/-- A frame that is not to be followed comes from a BSS the scan table does not know; one that is
comes from a BSS it knows, and keeps. -/
structure Harmless (s : State) (msg : Mem) (msgLen : Nat) : Prop where
  refused : ∀ channel, announced msg msgLen = some channel → channel ≠ 0 → channel ≠ s.Channel →
    ¬ Valid s (addr3 msg) channel → bssTableSearch s.ScanTab (addr3 msg) s.Channel = none
  followed : ∀ channel, announced msg msgLen = some channel → Valid s (addr3 msg) channel →
    bssTableSearch s.ScanTab (addr3 msg) s.Channel ≠ none ∧ ¬ Dropped s

/-! ## Taking the link down -/

theorem deletePlace_eq_none_iff (tab : BssTable) (bssid : Bytes 6) (channel : Nat) :
    deletePlace tab bssid channel = none ↔ ¬ ∃ i < tab.BssNr,
      (tab.BssEntry i).Channel = channel ∧ (tab.BssEntry i).Bssid = bssid := by
  simp [deletePlace]

/-- What `LinkDown` leaves of an associated station. -/
structure TakenDown (s s' : State) : Prop where
  infra : s'.infraOn = false
  channelList : s'.ChannelList = s.ChannelList
  kept : ¬ Dropped s → s'.ScanTab = s.ScanTab
  dropped : Dropped s → s'.ScanTab.BssNr = s.ScanTab.BssNr - 1

theorem deleteOwn_of_not_there {s : State} (h : ¬ ∃ i < s.ScanTab.BssNr,
    (s.ScanTab.BssEntry i).Channel = s.Channel ∧ (s.ScanTab.BssEntry i).Bssid = s.Bssid) :
    s.deleteOwn = s := by
  have hnone := (deletePlace_eq_none_iff s.ScanTab s.Bssid s.Channel).mpr h
  simp only [State.deleteOwn, bssTableDeleteEntry, hnone]

theorem deleteOwn_nr {s : State} (h : ∃ i < s.ScanTab.BssNr,
    (s.ScanTab.BssEntry i).Channel = s.Channel ∧ (s.ScanTab.BssEntry i).Bssid = s.Bssid) :
    s.deleteOwn.ScanTab.BssNr = s.ScanTab.BssNr - 1 := by
  cases hplace : deletePlace s.ScanTab s.Bssid s.Channel with
  | none => exact absurd h ((deletePlace_eq_none_iff ..).mp hplace)
  | some i => exact (bssTableDeleteEntry_nr (s := (s.pool, s.ScanTab)) hplace).1

theorem linkDownInfra_takenDown (s : State) : TakenDown s (linkDownInfra s) := by
  unfold linkDownInfra
  by_cases hndis : s.currReqIsFromNdis = true
  · rw [if_pos hndis]
    have hkeep : ¬ Dropped s := fun hd => Bool.noConfusion (hndis.symm.trans hd.notNdis)
    exact ⟨rfl, rfl, fun _ => rfl, fun hd => absurd hd hkeep⟩
  · rw [if_neg hndis]
    by_cases hsec : (s.portSecured || decide (s.authMode.toNat < AuthMode.wpa.toNat)) = true
    · rw [if_pos hsec]
      refine ⟨rfl, rfl, fun hd => ?_, fun hd => deleteOwn_nr (s := s.unlinked) hd.there⟩
      have hgone : ¬ ∃ i < s.ScanTab.BssNr,
          (s.ScanTab.BssEntry i).Channel = s.Channel ∧ (s.ScanTab.BssEntry i).Bssid = s.Bssid :=
        fun hthere => hd ⟨by simpa using hndis, by simpa using hsec, hthere⟩
      rw [deleteOwn_of_not_there (s := s.unlinked) hgone]
      rfl
    · rw [if_neg hsec]
      have hkeep : ¬ Dropped s := fun hd => hsec (by simpa using hd.secured)
      exact ⟨rfl, rfl, fun _ => rfl, fun hd => absurd hd hkeep⟩

theorem linkDown_takenDown {s : State} (h : Associated s) : TakenDown s (linkDown s) := by
  have hon : ¬ (s.monitorOn || s.ateOn) = true := by simp [h.monitor, h.ate]
  have hadhoc : ¬ s.adhocOn = true := by simp [h.adhoc]
  have hdown := linkDownInfra_takenDown s
  unfold linkDown
  rw [if_neg hon, if_neg hadhoc]
  exact ⟨hdown.infra, hdown.channelList, hdown.kept, hdown.dropped⟩

/-! ## Switching -/

variable {s : State} {bssidx channel : Nat}

theorem switchChannel_infraOn (h : Associated s) :
    (switchChannel s bssidx channel).infraOn = false := by
  have hdown := linkDown_takenDown (s := asicSwitchChannel s 1)
    ⟨h.sta, h.infra, h.adhoc, h.monitor, h.ate, h.dot11h⟩
  unfold switchChannel
  by_cases hl : channel ∈ (linkDown (asicSwitchChannel s 1)).ChannelList
  · rw [if_pos hl]
    exact hdown.infra
  · rw [if_neg hl]
    exact hdown.infra

/-- On a listed channel the entry with the number that was found is set, whichever it is now. -/
theorem switchChannel_listed (h : Associated s) (hl : channel ∈ s.ChannelList) :
    (switchChannel s bssidx channel).Channel = channel ∧
      (switchChannel s bssidx channel).asicChannel = channel ∧
      (switchChannel s bssidx channel).ScanTab
        = setChannel (linkDown (asicSwitchChannel s 1)).ScanTab bssidx channel := by
  have hdown := linkDown_takenDown (s := asicSwitchChannel s 1)
    ⟨h.sta, h.infra, h.adhoc, h.monitor, h.ate, h.dot11h⟩
  have hl' : channel ∈ (linkDown (asicSwitchChannel s 1)).ChannelList := by
    rw [hdown.channelList]
    exact hl
  unfold switchChannel
  rw [if_pos hl']
  exact ⟨rfl, rfl, rfl⟩

/-- **The entry is the BSS's, unless it was deleted.** -/
theorem moved_switchChannel_iff (h : Associated s) {bssid : Bytes 6}
    (hfound : bssTableSearch s.ScanTab bssid s.Channel = some bssidx)
    (hl : channel ∈ s.ChannelList) :
    Moved s (switchChannel s bssidx channel) bssid channel ↔ ¬ Dropped s := by
  have hdown := linkDown_takenDown (s := asicSwitchChannel s 1)
    ⟨h.sta, h.infra, h.adhoc, h.monitor, h.ate, h.dot11h⟩
  obtain ⟨hch, hasic, htab⟩ := @switchChannel_listed s bssidx channel h hl
  obtain ⟨hlt, hbssid, -⟩ := bssTableSearch_some hfound
  constructor
  · intro hm hd
    obtain ⟨i, hi⟩ := hm.scanTab
    have hnr : (switchChannel s bssidx channel).ScanTab.BssNr = s.ScanTab.BssNr - 1 := by
      rw [htab]
      exact hdown.dropped ⟨hd.notNdis, hd.secured, hd.there⟩
    have hsame := hi.nr
    omega
  · intro hd
    have hkept := hdown.kept fun hd' => hd ⟨hd'.notNdis, hd'.secured, hd'.there⟩
    rw [hkept] at htab
    refine ⟨hch, hasic, bssidx, hlt, ?_, hbssid, ?_, ?_⟩
    · rw [htab]
      rfl
    · rw [htab]
      exact Function.update_self ..
    · intro j _ hne
      rw [htab]
      exact Function.update_of_ne hne ..

theorem not_leftAlone_switchChannel (h : Associated s) :
    ¬ LeftAlone s (switchChannel s bssidx channel) := by
  intro hl
  have hinfra := hl.infra
  rw [switchChannel_infraOn h, h.infra] at hinfra
  exact Bool.noConfusion hinfra

/-! ## The handler -/

theorem leftAlone_rfl : LeftAlone s s := ⟨rfl, rfl, rfl, rfl, rfl, rfl, rfl, rfl, rfl⟩

/-- What the handler does with an announcement. -/
theorem peerChSwAnnAction_eq (h : Associated s) {msg : Mem} {msgLen : Nat}
    (ha : announced msg msgLen = some channel) :
    peerChSwAnnAction s msg msgLen
      = match bssTableSearch s.ScanTab (addr3 msg) s.Channel with
        | none => s
        | some bssidx =>
            if channel ≠ 0 ∧ s.Channel ≠ channel then switchChannel s bssidx channel else s := by
  obtain ⟨info, hinfo, rfl⟩ := Option.map_eq_some_iff.mp ha
  have hzero : info.Channel.toNat ≠ 0 ↔ info.Channel ≠ 0 := by
    rw [not_iff_not, ← BitVec.toNat_inj]
    rfl
  simp only [peerChSwAnnAction, hinfo, h.sta, h.dot11h, if_true, true_and, hzero]

theorem peerChSwAnnAction_none {msg : Mem} {msgLen : Nat} (ha : announced msg msgLen = none) :
    peerChSwAnnAction s msg msgLen = s := by
  have hinfo : peerChSwAnnSanity msg msgLen = none := Option.map_eq_none_iff.mp ha
  simp only [peerChSwAnnAction, hinfo]

theorem answered_iff (h : Associated s) (msg : Mem) (msgLen : Nat) :
    Answered s (peerChSwAnnAction s msg msgLen) msg msgLen ↔ Harmless s msg msgLen := by
  cases ha : announced msg msgLen with
  | none =>
    rw [peerChSwAnnAction_none ha]
    refine iff_of_true ⟨fun _ => leftAlone_rfl, fun c hc => ?_⟩ ⟨fun c hc => ?_, fun c hc => ?_⟩
    all_goals rw [ha] at hc; cases hc
  | some channel =>
    have honly : ∀ c, announced msg msgLen = some c → c = channel := fun c hc =>
      Option.some.inj (hc.symm.trans ha)
    rw [peerChSwAnnAction_eq h ha]
    by_cases hv : Valid s (addr3 msg) channel
    · -- to be followed
      have hne : channel ≠ 0 ∧ s.Channel ≠ channel := ⟨hv.ne_zero, Ne.symm hv.ne_current⟩
      cases hfound : bssTableSearch s.ScanTab (addr3 msg) s.Channel with
      | none =>
        refine iff_of_false (fun ht => ?_) fun hh => (hh.followed channel ha hv).1 hfound
        exact hv.ne_current (ht.followed channel ha hv).configured.symm
      | some bssidx =>
        simp only [if_pos hne]
        have hmoved := moved_switchChannel_iff h hfound hv.listed
        constructor
        · intro ht
          refine ⟨fun c hc _ _ hnv => absurd (honly c hc ▸ hv) hnv, fun c hc _ => ?_⟩
          exact ⟨by simp [hfound], hmoved.mp (ht.followed channel ha hv)⟩
        · intro hh
          refine ⟨fun hno => absurd hv (hno channel ha), fun c hc _ => ?_⟩
          obtain rfl := honly c hc
          exact hmoved.mpr (hh.followed c ha hv).2
    · have hno : ∀ c, announced msg msgLen = some c → ¬ Valid s (addr3 msg) c := fun c hc =>
        honly c hc ▸ hv
      cases hfound : bssTableSearch s.ScanTab (addr3 msg) s.Channel with
      | none =>
        refine iff_of_true ⟨fun _ => leftAlone_rfl, fun c hc hvc => absurd hvc (hno c hc)⟩ ?_
        exact ⟨fun _ _ _ _ _ => hfound, fun c hc hvc => absurd hvc (hno c hc)⟩
      | some bssidx =>
        dsimp only
        by_cases hne : channel ≠ 0 ∧ s.Channel ≠ channel
        · rw [if_pos hne]
          refine iff_of_false (fun ht => not_leftAlone_switchChannel h (ht.refused hno)) fun hh => ?_
          have hnone := hh.refused channel ha hne.1 (Ne.symm hne.2) hv
          rw [hfound] at hnone
          cases hnone
        · rw [if_neg hne]
          refine iff_of_true ⟨fun _ => leftAlone_rfl, fun c hc hvc => absurd hvc (hno c hc)⟩ ?_
          refine ⟨fun c hc h0 hcur _ => ?_, fun c hc hvc => absurd hvc (hno c hc)⟩
          exact absurd ⟨honly c hc ▸ h0, Ne.symm (honly c hc ▸ hcur)⟩ hne

/-- **Announcements are answered exactly when the scan table is**: a frame to be refused must come
from a BSS that is not in it, one to be followed from a BSS that stays in it. -/
theorem answered_iff_harmless (s : State) (h : Associated s) (msg : Mem) (msgLen : Nat) :
    Answered s (peerChSwAnnAction s msg msgLen) msg msgLen ↔ Harmless s msg msgLen :=
  answered_iff h msg msgLen

/-! ## The announcement of the own access point -/

/-- A station on channel 6 that has heard its access point, and a neighbour on channel 1. -/
def station : State where
  opModeSta := true
  monitorOn := false
  ateOn := false
  infraOn := true
  adhocOn := false
  mediaStateConnected := true
  indicatedConnected := true
  portSecured := true
  authMode := .wpa2Psk
  currReqIsFromNdis := false
  bIEEE80211H := true
  Bssid := .zero 6
  LastBssid := .zero 6
  Channel := 6
  asicChannel := 6
  ChannelList := [1, 6, 11]
  pool := fun _ _ => 0
  ScanTab :=
    { BssNr := 2
      BssOverlapNr := 0
      BssEntry := fun i =>
        if i = 0 then { BssEntry.zero none with Channel := 6 }
        else { BssEntry.zero none with Bssid := fun _ => 1, Channel := 1 } }
  Queue :=
    { Num := 0
      Head := ⟨0, by decide⟩
      Tail := ⟨0, by decide⟩
      Entry := fun _ => ⟨fun _ => 0, 0, 0, 0, 0, 0, 0, 0, 0, 0, 0, 0, false, 0, 0⟩ }

/-- The access point announces channel 11. -/
def announcement : Mem := fun i => if i < 26 then 0 else [37, 3, 0, 11, 1].getD (i - 26) 0

theorem station_associated : Associated station := ⟨rfl, rfl, rfl, rfl, rfl, rfl⟩

theorem announced_announcement : announced announcement 31 = some 11 := by
  have hone : Tlv.offsets announcement 31 26 = [26] := by
    rw [Tlv.offsets_of_le (show Tlv.after announcement 26 ≤ 31 by decide),
      Tlv.offsets_of_gt (show 31 < Tlv.after announcement (Tlv.after announcement 26) by decide)]
  simp only [announced, peerChSwAnnSanity, hone]
  rfl

theorem valid_announcement : Valid station (addr3 announcement) 11 :=
  ⟨by decide, by decide, by decide, by decide⟩

/-- With a handshake that has not come to its end the entry is kept. -/
theorem answered_iff_harmless_own :
    Answered { station with portSecured := false }
      (peerChSwAnnAction { station with portSecured := false } announcement 31) announcement 31 := by
  refine (answered_iff_harmless { station with portSecured := false } ⟨rfl, rfl, rfl, rfl, rfl, rfl⟩
    announcement 31).mpr ⟨fun c hc _ _ hnv => ?_, fun c _ _ => ⟨by decide, fun hd => ?_⟩⟩
  · obtain rfl := Option.some.inj (announced_announcement.symm.trans hc)
    have hv := valid_announcement
    exact absurd ⟨hv.own, hv.ne_zero, hv.ne_current, hv.listed⟩ hnv
  · rcases hd.secured with hport | hlt
    · exact Bool.noConfusion hport
    · exact absurd hlt (by decide)

/-- The entry of the access point is deleted, and its number is the neighbour's then. -/
theorem answered_broken : ¬ ∀ (s : State) (msg : Mem) (msgLen : Nat), Associated s →
    Answered s (peerChSwAnnAction s msg msgLen) msg msgLen := by
  intro hall
  have hh := (answered_iff station_associated announcement 31).mp
    (hall station announcement 31 station_associated)
  exact (hh.followed 11 announced_announcement valid_announcement).2
    ⟨rfl, Or.inl rfl, 0, by decide, by decide, by decide⟩

end ExtDrv.Rt3370.ChSw
