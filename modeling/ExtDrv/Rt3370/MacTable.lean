import ExtDrv.Lib.Buckets
import ExtDrv.Lib.Run
import ExtDrv.Rt3370.EapolKey
import ExtDrv.Rt3370.Sizes
import Mathlib.Data.Fintype.BigOperators
import Mathlib.Data.List.FinRange

/-!
# The MAC table

The entries of `MacTab.Content` are linked through `pNext` in one chain for every
hash of an address. `MacTableInsertEntry` clears the entry it takes and links it;
`StaAddMacTableEntry` links the entry of the access point as it finds it; `MacTableDeleteEntry`
takes an entry out of its chain and leaves its `pNext`.

A walk along `pNext` that goes in a circle never ends: the operations are then `none`.
-/

namespace ExtDrv.Rt3370.Mac

open Chain

/-- `MAX_LEN_OF_MAC_TABLE`. -/
abbrev maxLenOfMacTable : Nat := 32

abbrev Wcid := Fin maxLenOfMacTable

/-- The entry of the access point. -/
def bssidWcid : Wcid := 1

inductive EntryType
  | none
  | client
  | dls
  deriving DecidableEq

/-- What the table itself reads of a `MAC_TABLE_ENTRY`; `pNext` is in the links. -/
structure MacTableEntry where
  Addr : Bytes 6
  Aid : Nat
  EntryType : EntryType

/-- `MAC_TABLE`, with the chains of `Hash` and `pNext`. -/
structure MacTable where
  links : Buckets (BitVec 8) Wcid
  Content : Wcid → MacTableEntry
  Size : Nat

/-- `MAC_ADDR_HASH_INDEX`. -/
def macAddrHashIndex (a : Bytes 6) : BitVec 8 :=
  (a 0 ^^^ a 1 ^^^ a 2 ^^^ a 3 ^^^ a 4 ^^^ a 5) &&& 0xff

def MacTable.isEntryNone (t : MacTable) (i : Wcid) : Bool :=
  decide ((t.Content i).EntryType = .none)

/-! ## The operations -/

/-- The entry comes first; without one, null. -/
def macTableLookup (t : MacTable) (pAddr : Bytes 6) : Option (Option Wcid) :=
  (search t.links.next (fun i => t.isEntryNone i || decide ((t.Content i).Addr = pAddr))
    maxLenOfMacTable (t.links.heads (macAddrHashIndex pAddr)) none).map Prod.fst

/-- `MIN_NET_DEVICE_FOR_DLS`. -/
def minNetDeviceForDls : Nat := 0x40

/-- The first vacancy. Entry 0 is skipped, and in infrastructure mode that of the access point. -/
def MacTable.vacancy (t : MacTable) (infra : Bool) : Option Wcid :=
  (List.finRange maxLenOfMacTable).find? fun i =>
    decide ((if infra then 2 else 1) ≤ i.val) && t.isEntryNone i

/-- The entry is cleared and filled in. -/
def MacTable.fill (t : MacTable) (i : Wcid) (pAddr : Bytes 6) (apidx : Nat) : MacTable where
  links := t.links.setNext i none
  Content := Function.update t.Content i
    ⟨pAddr, i, if minNetDeviceForDls ≤ apidx then .dls else .client⟩
  Size := (t.Size + 1) % 65536

def MacTable.append (t : MacTable) (h : BitVec 8) (i : Wcid) : Option MacTable :=
  (t.links.append maxLenOfMacTable h i).map fun links => { t with links := links }

def macTableInsertEntry (t : MacTable) (infra : Bool) (pAddr : Bytes 6) (apidx : Nat) :
    Option MacTable :=
  if maxLenOfMacTable ≤ t.Size then some t
  else
    match t.vacancy infra with
    | none => some t
    | some i => (t.fill i pAddr apidx).append (macAddrHashIndex pAddr) i

/-- An entry whose address is not the one given is left alone. -/
def macTableDeleteEntry (t : MacTable) (wcid : Nat) (pAddr : Bytes 6) : Option MacTable :=
  if h : wcid < maxLenOfMacTable then
    let i : Wcid := ⟨wcid, h⟩
    if (t.Content i).EntryType ≠ .none ∧ (t.Content i).Addr = pAddr then
      (t.links.remove maxLenOfMacTable (macAddrHashIndex pAddr) i).map fun links =>
        { links := links
          Content := Function.update t.Content i { t.Content i with EntryType := .none }
          Size := (t.Size + 65535) % 65536 }
    else some t
  else some t

/-- Entry by entry, whatever its type. -/
def macTableReset (t : MacTable) : Option MacTable :=
  (List.range' 1 (maxLenOfMacTable - 1)).foldlM
    (fun t i => if h : i < maxLenOfMacTable then
      macTableDeleteEntry t i (t.Content ⟨i, h⟩).Addr else some t) t

/-! ## Associations -/

inductive PhyMode
  | phy11bg_mixed
  | phy11b
  | phy11a
  | phy11abg_mixed
  | phy11g
  | phy11abgn_mixed
  | phy11n_2_4g
  | phy11gn_mixed
  | phy11an_mixed
  | phy11bgn_mixed
  | phy11agn_mixed
  | phy11n_5g
  deriving DecidableEq

/-- The rates `RATE_1` to `RATE_54` are numbered; those from `RATE_6` on are OFDM. -/
def rateFirstOfdmRate : Nat := 4

/-- `MaxSupportedRate`, by `MaxSupportedRateIn500Kbps`; the default is `RATE_11`. -/
def maxSupportedRate : Nat → Nat
  | 108 => 11
  | 96 => 10
  | 72 => 9
  | 48 => 8
  | 36 => 7
  | 24 => 6
  | 18 => 5
  | 12 => 4
  | 22 => 3
  | 11 => 2
  | 4 => 1
  | 2 => 0
  | _ => 3

/-- What `PeerAssocRspAction` reads of an (re)association response, and the mode it meets. -/
structure AssocRsp where
  Addr2 : Bytes 6
  Status : Nat
  MaxSupportedRateIn500Kbps : Nat
  HtCapabilityLen : Nat
  PhyMode : PhyMode

/-- `StaAddMacTableEntry` gives up before it gets to the table. -/
def AssocRsp.unsupported (rsp : AssocRsp) : Bool :=
  decide (rsp.PhyMode = .phy11g ∧ maxSupportedRate rsp.MaxSupportedRateIn500Kbps < rateFirstOfdmRate)
    || decide ((rsp.PhyMode = .phy11n_2_4g ∨ rsp.PhyMode = .phy11n_5g) ∧ rsp.HtCapabilityLen = 0)

structure State where
  MacTab : MacTable
  /-- `CommonCfg.Bssid` -/
  Bssid : Bytes 6
  /-- `MlmeAux.Bssid` -/
  auxBssid : Bytes 6
  /-- `StaCfg.BssType == BSS_INFRA` -/
  infra : Bool

/-- The entry is linked first and filled in afterwards. -/
def staAddMacTableEntry (t : MacTable) (bssid : Bytes 6) : Option MacTable :=
  (t.append (macAddrHashIndex bssid) bssidWcid).map fun t =>
    { t with
      Content := Function.update t.Content bssidWcid ⟨bssid, bssidWcid, .client⟩
      Size := 1 }

/-- The entry of the access point before, if it is found. -/
def deleteOldBss (s : State) : Option MacTable := do
  match ← macTableLookup s.MacTab s.Bssid with
  | some i => macTableDeleteEntry s.MacTab (s.MacTab.Content i).Aid (s.MacTab.Content i).Addr
  | none => some s.MacTab

/-- The response is for the access point that is being joined, and a success. -/
def AssocRsp.forMe (rsp : AssocRsp) (s : State) : Prop :=
  rsp.Addr2 = s.auxBssid ∧ rsp.Status = 0

instance (rsp : AssocRsp) (s : State) : Decidable (rsp.forMe s) :=
  inferInstanceAs (Decidable (_ ∧ _))

/-- `PeerAssocRspAction` and `PeerReassocRspAction`. -/
def peerAssocRspAction (s : State) (rsp : AssocRsp) : Option State :=
  if rsp.forMe s then do
    let t ← deleteOldBss s
    let t ← if rsp.unsupported || !s.infra then some t else staAddMacTableEntry t s.auxBssid
    return { s with MacTab := t }
  else some s

inductive Action
  /-- `MacTableInsertEntry`, also by way of a direct link. -/
  | insert (pAddr : Bytes 6) (apidx : Nat)
  | delete (wcid : Nat) (pAddr : Bytes 6)
  | reset
  /-- A join sets `MlmeAux.Bssid`. -/
  | join (bssid : Bytes 6)
  | assocRsp (rsp : AssocRsp)
  /-- The confirmation is handled: `LinkUp`. Where it was dropped there is no such step. -/
  | assocConf
  | setBssType (infra : Bool)

/-- The step of an adapter whose calls have all returned. -/
def act (s : State) : Action → Option State
  | .insert pAddr apidx =>
      (macTableInsertEntry s.MacTab s.infra pAddr apidx).map fun t => { s with MacTab := t }
  | .delete wcid pAddr =>
      (macTableDeleteEntry s.MacTab wcid pAddr).map fun t => { s with MacTab := t }
  | .reset => (macTableReset s.MacTab).map fun t => { s with MacTab := t }
  | .join bssid => some { s with auxBssid := bssid }
  | .assocRsp rsp => peerAssocRspAction s rsp
  | .assocConf => some { s with Bssid := s.auxBssid }
  | .setBssType infra => some { s with infra := infra }

/-- Nothing happens any more once a call does not return. -/
def step (s : Option State) (a : Action) : Option State := s.bind fun s => act s a

/-- The adapter's memory as it is allocated, all zero. -/
def start : State where
  MacTab := ⟨⟨fun _ => none, fun _ => none⟩, fun _ => ⟨.zero 6, 0, .none⟩, 0⟩
  Bssid := .zero 6
  auxBssid := .zero 6
  infra := true

/-! ## What is asked of the table -/

/-- The entries whose type is not `NONE`. -/
def MacTable.used (t : MacTable) : Finset Wcid :=
  Finset.univ.filter fun i => (t.Content i).EntryType ≠ .none

/-- The chain an entry belongs in. -/
def MacTable.key (t : MacTable) (i : Wcid) : Option (BitVec 8) :=
  if (t.Content i).EntryType = .none then none else some (macAddrHashIndex (t.Content i).Addr)

structure Consistent (t : MacTable) : Prop where
  size : t.Size = t.used.card
  /-- Every chain ends, and has the entries of its hash and no others, each once. -/
  chains : t.links.Keyed t.key
  lookup : ∀ pAddr, ∃ r, macTableLookup t pAddr = some r ∧
    (∀ i, r = some i → i ∈ t.used ∧ (t.Content i).Addr = pAddr) ∧
    (r = none → ∀ i ∈ t.used, (t.Content i).Addr ≠ pAddr)

/-- Every call has returned, and the table is consistent. -/
def Sound (s : Option State) : Prop := ∃ s', s = some s' ∧ Consistent s'.MacTab

/-- The response leads to a link. -/
def AssocRsp.links (rsp : AssocRsp) (s : State) : Prop :=
  rsp.forMe s ∧ (rsp.unsupported || !s.infra) = false

/-- At an association the table is empty but for the entry that `CommonCfg.Bssid` finds, and
nothing is left over in the link of the access point's entry. -/
def Fits : Option State → Action → Prop
  | some s, .assocRsp rsp => rsp.links s →
      (∀ i ∈ s.MacTab.used, macTableLookup s.MacTab s.Bssid = some (some i))
        ∧ s.MacTab.links.next bssidWcid = none
  | _, _ => True

/-! ## One entry is changed -/

section

variable {t t' : MacTable} {i : Wcid} {e : MacTableEntry}

theorem mem_used : i ∈ t.used ↔ (t.Content i).EntryType ≠ .none := by
  simp [MacTable.used]

theorem key_eq_none : t.key i = none ↔ i ∉ t.used := by
  simp [MacTable.key, mem_used]

theorem key_of_used (h : i ∈ t.used) : t.key i = some (macAddrHashIndex (t.Content i).Addr) :=
  if_neg (mem_used.mp h)

theorem key_update (h : t'.Content = Function.update t.Content i e) :
    t'.key = Function.update t.key i
      (if e.EntryType = .none then none else some (macAddrHashIndex e.Addr)) := by
  funext j
  by_cases hj : j = i
  · subst hj
    rw [Function.update_self, MacTable.key, h, Function.update_self]
  · rw [Function.update_of_ne hj, MacTable.key, h, Function.update_of_ne hj, MacTable.key]

theorem used_of_set (h : t'.Content = Function.update t.Content i e) (he : e.EntryType ≠ .none) :
    t'.used = insert i t.used := by
  ext j
  rw [Finset.mem_insert, mem_used, mem_used, h]
  by_cases hj : j = i
  · subst hj
    simp [he]
  · simp [hj]

theorem used_of_clear (h : t'.Content = Function.update t.Content i e) (he : e.EntryType = .none) :
    t'.used = t.used.erase i := by
  ext j
  rw [Finset.mem_erase, mem_used, mem_used, h]
  by_cases hj : j = i
  · subst hj
    simp [he]
  · simp [hj]

theorem card_used_le (t : MacTable) : t.used.card ≤ 32 :=
  (Finset.card_le_univ _).trans_eq (Fintype.card_fin _)

end

/-! ## Lookups

In a table whose chains end they come to an entry that is in use, of the address they look
for, whenever there is one. -/

variable {t t' : MacTable} {i : Wcid} {pAddr : Bytes 6}

theorem macTableLookup_spec (hk : t.links.Keyed t.key) (pAddr : Bytes 6) :
    ∃ r, macTableLookup t pAddr = some r ∧
      (∀ i, r = some i → i ∈ t.used ∧ (t.Content i).Addr = pAddr) ∧
      (r = none → ∀ i ∈ t.used, (t.Content i).Addr ≠ pAddr) := by
  obtain ⟨l, hl, hmem⟩ := hk (macAddrHashIndex pAddr)
  have hlen : l.length ≤ maxLenOfMacTable := hl.length_le.trans_eq (Fintype.card_fin _)
  have hused (i : Wcid) (hi : i ∈ l) : i ∈ t.used := by
    by_contra hout
    have hkey := (hmem i).mp hi
    rw [key_eq_none.mpr hout] at hkey
    cases hkey
  refine ⟨_, search_fst hl hlen none, fun i hi => ?_, fun hnone i hi heq => ?_⟩
  · have hfound := List.find?_some hi
    have hin := hused i (List.mem_of_find?_eq_some hi)
    rw [MacTable.isEntryNone, decide_eq_false (mem_used.mp hin), Bool.false_or,
      decide_eq_true_iff] at hfound
    exact ⟨hin, hfound⟩
  · have hin : i ∈ l := (hmem i).mpr (heq ▸ key_of_used hi)
    have hneg := List.find?_eq_none.mp hnone i hin
    simp [heq] at hneg

/-! ## The invariant -/

/-- The table is consistent, and an entry's `Aid` is its index. -/
structure Good (t : MacTable) : Prop where
  size : t.Size = t.used.card
  chains : t.links.Keyed t.key
  aid : ∀ i ∈ t.used, (t.Content i).Aid = i.val

theorem Good.consistent (h : Good t) : Consistent t :=
  ⟨h.size, h.chains, macTableLookup_spec h.chains⟩

theorem good_start : Good start.MacTab := by
  have hused : start.MacTab.used = ∅ := by
    ext i
    simp [MacTable.used, start]
  refine ⟨by rw [hused]; rfl, fun h => ⟨[], rfl, fun i => ?_⟩, fun i hi => ?_⟩
  · refine iff_of_false List.not_mem_nil ?_
    rw [key_eq_none.mpr (by simp [hused])]
    nofun
  · simp [hused] at hi

/-- A free entry has come into use. -/
theorem Good.added {e : MacTableEntry} (h : Good t) (hfree : i ∉ t.used)
    (hcontent : t'.Content = Function.update t.Content i e) (htype : e.EntryType ≠ .none)
    (haid : e.Aid = i.val) (hsize : t'.Size = (t.Size + 1) % 65536)
    (hchains : t'.links.Keyed (Function.update t.key i (some (macAddrHashIndex e.Addr)))) :
    Good t' := by
  have hused := used_of_set hcontent htype
  refine ⟨?_, ?_, fun j hj => ?_⟩
  · have hle := card_used_le t
    rw [hused, Finset.card_insert_of_notMem hfree, hsize, h.size]
    omega
  · rw [key_update hcontent, if_neg htype]
    exact hchains
  · rw [hused, Finset.mem_insert] at hj
    rw [hcontent]
    by_cases hji : j = i
    · subst hji
      rw [Function.update_self, haid]
    · rw [Function.update_of_ne hji]
      exact h.aid j (hj.resolve_left hji)

/-- **Insertion**: the entry is linked with a cleared `pNext`. -/
theorem Good.insert (h : Good t) (infra : Bool) (pAddr : Bytes 6) (apidx : Nat) :
    ∃ t', macTableInsertEntry t infra pAddr apidx = some t' ∧ Good t' := by
  rw [macTableInsertEntry]
  split
  · exact ⟨t, rfl, h⟩
  · cases hvacancy : t.vacancy infra with
    | none => exact ⟨t, rfl, h⟩
    | some i =>
      have hfree : i ∉ t.used := by
        have hfound := List.find?_some hvacancy
        rw [mem_used, not_not]
        simp only [MacTable.isEntryNone, Bool.and_eq_true, decide_eq_true_iff] at hfound
        exact hfound.2
      have hnone := key_eq_none.mpr hfree
      obtain ⟨links, happend, hkeyed⟩ := (h.chains.setNext hnone none).append hnone
        Buckets.setNext_next (Fintype.card_fin _).le
      have hlinked : (t.fill i pAddr apidx).append (macAddrHashIndex pAddr) i
          = some { t.fill i pAddr apidx with links := links } := by
        rw [MacTable.append]
        exact congrArg (Option.map _) happend
      refine ⟨_, hlinked, h.added hfree rfl ?_ rfl rfl hkeyed⟩
      dsimp only
      split <;> nofun

/-- What a deletion leaves. -/
structure Deleted (t t' : MacTable) (i : Wcid) : Prop where
  good : Good t'
  used : t'.used = t.used.erase i
  next : ∀ j, (j ∈ t.used → j = i) → t'.links.next j = t.links.next j

/-- **Deletion** of an entry in use -/
theorem Good.delete (h : Good t) (hi : i ∈ t.used) :
    ∃ t', macTableDeleteEntry t i (t.Content i).Addr = some t' ∧ Deleted t t' i := by
  obtain ⟨links, hremove, hkeyed, hnext⟩ := h.chains.remove (key_of_used hi)
    (show Fintype.card Wcid ≤ maxLenOfMacTable from (Fintype.card_fin _).le)
  refine ⟨⟨links, Function.update t.Content i { t.Content i with EntryType := .none },
    (t.Size + 65535) % 65536⟩, ?_, ⟨?_, ?_, ?_⟩, used_of_clear rfl rfl, fun j hj => hnext j ?_⟩
  · rw [macTableDeleteEntry, dif_pos i.isLt]
    dsimp only [Fin.eta]
    rw [if_pos ⟨mem_used.mp hi, rfl⟩, hremove]
    rfl
  · have hcard := Finset.card_erase_of_mem hi
    have hpos := Finset.card_pos.mpr ⟨i, hi⟩
    have hle := card_used_le t
    rw [used_of_clear rfl rfl, hcard]
    show (t.Size + 65535) % 65536 = _
    rw [h.size]
    omega
  · rw [key_update rfl, if_pos rfl]
    exact hkeyed
  · intro j hj
    rw [used_of_clear rfl rfl, Finset.mem_erase] at hj
    show ((Function.update t.Content i _ : Wcid → MacTableEntry) j).Aid = _
    rw [Function.update_of_ne hj.1]
    exact h.aid j hj.2
  · intro h' hkey
    refine hj (not_not.mp fun hout => ?_)
    rw [key_eq_none.mpr hout] at hkey
    cases hkey

theorem Good.deleteEntry (h : Good t) (wcid : Nat) (pAddr : Bytes 6) :
    ∃ t', macTableDeleteEntry t wcid pAddr = some t' ∧ Good t' := by
  by_cases hlt : wcid < maxLenOfMacTable
  · by_cases hin : (t.Content ⟨wcid, hlt⟩).EntryType ≠ .none ∧ (t.Content ⟨wcid, hlt⟩).Addr = pAddr
    · obtain ⟨t', hdelete, hdeleted⟩ := h.delete (mem_used.mpr hin.1)
      rw [hin.2] at hdelete
      exact ⟨t', hdelete, hdeleted.good⟩
    · refine ⟨t, ?_, h⟩
      rw [macTableDeleteEntry, dif_pos hlt]
      exact if_neg hin
  · exact ⟨t, by rw [macTableDeleteEntry, dif_neg hlt], h⟩

theorem Good.reset (h : Good t) : ∃ t', macTableReset t = some t' ∧ Good t' := by
  rw [macTableReset]
  induction List.range' 1 (maxLenOfMacTable - 1) generalizing t with
  | nil => exact ⟨t, rfl, h⟩
  | cons k ks ih =>
    rw [List.foldlM_cons]
    by_cases hk : k < maxLenOfMacTable
    · obtain ⟨t₁, hdelete, hgood⟩ := h.deleteEntry k (t.Content ⟨k, hk⟩).Addr
      rw [dif_pos hk, hdelete]
      exact ih hgood
    · rw [dif_neg hk]
      exact ih h

/-! ## The access point's entry is linked -/

/-- **Linking** into an empty table, without a left-over link -/
theorem Good.link (h : Good t) (hempty : t.used = ∅) (hnext : t.links.next bssidWcid = none)
    (bssid : Bytes 6) : ∃ t', staAddMacTableEntry t bssid = some t' ∧ Good t' := by
  have hfree : bssidWcid ∉ t.used := by simp [hempty]
  obtain ⟨links, happend, hkeyed⟩ := h.chains.append (key_eq_none.mpr hfree) hnext
    (Fintype.card_fin maxLenOfMacTable).le
  have hsize : t.Size = 0 := by rw [h.size, hempty, Finset.card_empty]
  refine ⟨⟨links, Function.update t.Content bssidWcid ⟨bssid, bssidWcid, .client⟩, 1⟩, ?_, ?_⟩
  · rw [staAddMacTableEntry, MacTable.append, happend]
    rfl
  · refine h.added hfree rfl nofun rfl ?_ hkeyed
    rw [hsize]

theorem staAddMacTableEntry_some {bssid : Bytes 6} (h : staAddMacTableEntry t bssid = some t') :
    ∃ links, t.links.append maxLenOfMacTable (macAddrHashIndex bssid) bssidWcid = some links ∧
      t' = ⟨links, Function.update t.Content bssidWcid ⟨bssid, bssidWcid, .client⟩, 1⟩ := by
  obtain ⟨t₁, ht₁, rfl⟩ := Option.map_eq_some_iff.mp h
  obtain ⟨links, happend, rfl⟩ := Option.map_eq_some_iff.mp ht₁
  exact ⟨links, happend, rfl⟩

/-- Otherwise the table is not consistent afterwards: its size is wrong, or the entry is in a
circle, in two chains, or followed by what is left over. -/
theorem Good.of_link (h : Good t) {bssid : Bytes 6} (hlink : staAddMacTableEntry t bssid = some t')
    (hc : Consistent t') : t.used = ∅ ∧ t.links.next bssidWcid = none := by
  obtain ⟨links, happend, rfl⟩ := staAddMacTableEntry_some hlink
  have hclient : EntryType.client ≠ .none := nofun
  have hsize := hc.size
  have hchains := hc.chains
  rw [used_of_set (t := t) rfl hclient] at hsize
  rw [key_update (t := t) rfl, if_neg hclient] at hchains
  have hone : Insert.insert bssidWcid t.used = {bssidWcid} := by
    obtain ⟨j, hj⟩ := Finset.card_eq_one.mp hsize.symm
    have hmem : bssidWcid ∈ ({j} : Finset Wcid) := hj ▸ Finset.mem_insert_self ..
    rw [hj, Finset.mem_singleton.mp hmem]
  have hother (j : Wcid) (hj : j ≠ bssidWcid) : t.key j = none := by
    rw [key_eq_none]
    intro hin
    have hmem : j ∈ ({bssidWcid} : Finset Wcid) := hone ▸ Finset.mem_insert_of_mem hin
    exact hj (Finset.mem_singleton.mp hmem)
  have hkey : Function.update t.key bssidWcid (some (macAddrHashIndex bssid))
      = Function.update (fun _ => none) bssidWcid (some (macAddrHashIndex bssid)) := by
    funext j
    by_cases hj : j = bssidWcid
    · rw [hj, Function.update_self, Function.update_self]
    · rw [Function.update_of_ne hj, Function.update_of_ne hj, hother j hj]
  obtain ⟨hfree, hnext⟩ := h.chains.of_append hother happend (hkey ▸ hchains)
  refine ⟨Finset.eq_empty_of_forall_notMem fun j => ?_, hnext⟩
  by_cases hj : j = bssidWcid
  · rw [hj]
    exact key_eq_none.mp hfree
  · exact key_eq_none.mp (hother j hj)

/-- The old entry is deleted. What is left is empty, without a left-over link, exactly when that
entry was the only one and there was no such link before. -/
theorem Good.deleteOldBss {s : State} (h : Good s.MacTab) :
    ∃ t, deleteOldBss s = some t ∧ Good t ∧
      ((t.used = ∅ ∧ t.links.next bssidWcid = none) ↔
        (∀ i ∈ s.MacTab.used, macTableLookup s.MacTab s.Bssid = some (some i))
          ∧ s.MacTab.links.next bssidWcid = none) := by
  obtain ⟨r, hlookup, hfound, -⟩ := macTableLookup_spec h.chains s.Bssid
  cases r with
  | none =>
    refine ⟨s.MacTab, by rw [Mac.deleteOldBss, hlookup]; rfl, h, and_congr_left fun _ => ?_⟩
    rw [hlookup, Finset.eq_empty_iff_forall_notMem]
    exact forall_congr' fun i => ⟨fun hout hin => (hout hin).elim, fun heq hin => nomatch heq hin⟩
  | some i =>
    obtain ⟨hin, -⟩ := hfound i rfl
    obtain ⟨t, hdelete, hdeleted⟩ := h.delete hin
    refine ⟨t, ?_, hdeleted.good, ?_⟩
    · rw [Mac.deleteOldBss, hlookup, ← hdelete, ← h.aid i hin]
      rfl
    · have honly : t.used = ∅ ↔
          ∀ j ∈ s.MacTab.used, macTableLookup s.MacTab s.Bssid = some (some j) := by
        rw [hdeleted.used, hlookup, Finset.eq_empty_iff_forall_notMem]
        refine forall_congr' fun j => ?_
        rw [Finset.mem_erase, not_and, Option.some_inj, Option.some_inj]
        constructor
        · intro hne hj
          exact (not_not.mp fun hji => hne hji hj).symm
        · intro heq hne hj
          exact hne (heq hj).symm
      rw [← honly]
      refine and_congr_right fun hempty => ?_
      rw [hdeleted.next bssidWcid fun hb => ?_]
      have hall := honly.mp hempty bssidWcid hb
      rw [hlookup] at hall
      exact (Option.some.inj (Option.some.inj hall)).symm

/-! ## Runs -/

/-- What every step keeps as long as the table is consistent. -/
def Kept (s : Option State) : Prop := ∀ s', s = some s' → Good s'.MacTab

variable {s : State}

theorem Good.sound (h : Good s.MacTab) : Sound (some s) := ⟨s, rfl, h.consistent⟩

/-- The calls that only change the table in a good way. -/
theorem good_map {r : Option MacTable} (h : ∃ t', r = some t' ∧ Good t') :
    Kept (r.map fun t => { s with MacTab := t }) ∧ Sound (r.map fun t => { s with MacTab := t }) := by
  obtain ⟨t', rfl, hgood⟩ := h
  refine ⟨fun s' hs' => ?_, ⟨_, rfl, hgood.consistent⟩⟩
  obtain rfl := Option.some.inj hs'
  exact hgood

theorem peerAssocRspAction_link {rsp : AssocRsp} (hlinks : rsp.links s)
    (hdelete : deleteOldBss s = some t) :
    peerAssocRspAction s rsp
      = (staAddMacTableEntry t s.auxBssid).map fun t => { s with MacTab := t } := by
  rw [peerAssocRspAction, if_pos hlinks.1, hdelete, hlinks.2]
  cases hlink : staAddMacTableEntry t s.auxBssid <;> simp [hlink]

/-- Without a link the old entry may be gone, and that is all. -/
theorem peerAssocRspAction_skip {rsp : AssocRsp} (hlinks : ¬ rsp.links s)
    (hdelete : deleteOldBss s = some t) :
    peerAssocRspAction s rsp = some s ∨ peerAssocRspAction s rsp = some { s with MacTab := t } := by
  rw [peerAssocRspAction]
  by_cases hme : rsp.forMe s
  · have hskip : (rsp.unsupported || !s.infra) = true :=
      Bool.not_eq_false _ ▸ fun hf => hlinks ⟨hme, hf⟩
    rw [if_pos hme, hdelete, hskip]
    exact Or.inr rfl
  · exact Or.inl (if_neg hme)

theorem Good.kept (h : Good s.MacTab) : Kept (some s) := by
  intro s' hs'
  obtain rfl := Option.some.inj hs'
  exact h

/-- **A response**: it leaves the table consistent exactly if it fits, and then as it should be. -/
theorem Good.assocRsp (h : Good s.MacTab) (rsp : AssocRsp) :
    (Sound (peerAssocRspAction s rsp) ↔ Fits (some s) (.assocRsp rsp)) ∧
      (Fits (some s) (.assocRsp rsp) → Kept (peerAssocRspAction s rsp)) := by
  obtain ⟨t, hdelete, hgood, hiff⟩ := h.deleteOldBss
  by_cases hlinks : rsp.links s
  · have hfits : Fits (some s) (.assocRsp rsp) ↔ t.used = ∅ ∧ t.links.next bssidWcid = none :=
      ⟨fun hf => hiff.mpr (hf hlinks), fun hf _ => hiff.mp hf⟩
    rw [peerAssocRspAction_link hlinks hdelete, hfits]
    have hlinked (hf : t.used = ∅ ∧ t.links.next bssidWcid = none) :=
      good_map (s := s) (hgood.link hf.1 hf.2 s.auxBssid)
    refine ⟨⟨fun hsound => ?_, fun hf => (hlinked hf).2⟩, fun hf => (hlinked hf).1⟩
    obtain ⟨s', hs', hc⟩ := hsound
    obtain ⟨t', hlink, rfl⟩ := Option.map_eq_some_iff.mp hs'
    exact hgood.of_link hlink hc
  · have hfits : Fits (some s) (.assocRsp rsp) := fun hl => (hlinks hl).elim
    have hboth : Kept (peerAssocRspAction s rsp) ∧ Sound (peerAssocRspAction s rsp) := by
      rcases peerAssocRspAction_skip hlinks hdelete with heq | heq
      · rw [heq]
        exact ⟨h.kept, h.sound⟩
      · rw [heq]
        exact ⟨Good.kept hgood, Good.sound hgood⟩
    exact ⟨iff_of_true hboth.2 hfits, fun _ => hboth.1⟩

/-- **One step** -/
theorem Good.step (h : Good s.MacTab) (a : Action) :
    (Sound (step (some s) a) ↔ Fits (some s) a) ∧ (Fits (some s) a → Kept (step (some s) a)) := by
  have hall (hboth : Kept (Mac.step (some s) a) ∧ Sound (Mac.step (some s) a))
      (hf : Fits (some s) a) : (Sound (Mac.step (some s) a) ↔ Fits (some s) a) ∧
        (Fits (some s) a → Kept (Mac.step (some s) a)) :=
    ⟨iff_of_true hboth.2 hf, fun _ => hboth.1⟩
  cases a with
  | insert pAddr apidx => exact hall (good_map (h.insert s.infra pAddr apidx)) trivial
  | delete wcid pAddr => exact hall (good_map (h.deleteEntry wcid pAddr)) trivial
  | reset => exact hall (good_map h.reset) trivial
  | join bssid => exact hall ⟨Good.kept h, Good.sound h⟩ trivial
  | assocRsp rsp => exact h.assocRsp rsp
  | assocConf => exact hall ⟨Good.kept h, Good.sound h⟩ trivial
  | setBssType infra => exact hall ⟨Good.kept h, Good.sound h⟩ trivial

theorem always_sound {as : List Action} (h : Good s.MacTab) :
    Run.Always Mac.step Sound (some s) as ↔ Run.Along Mac.step Fits (some s) as := by
  refine Run.always_iff_along_of_inv (fun o a hkept hsound hf => ?_) (fun o a hkept hsound => ?_)
    h.kept h.sound
  · obtain ⟨s', rfl, -⟩ := hsound
    exact ((hkept s' rfl).step a).2 hf
  · obtain ⟨s', rfl, -⟩ := hsound
    exact ((hkept s' rfl).step a).1

/-- **The MAC table**: over any run of insertions, deletions, resets, joins, responses and
confirmations the table is consistent throughout exactly when every response that leads to a link
finds no entry in use but the one of `CommonCfg.Bssid`, and no left-over link. -/
theorem macTable_iff (as : List Action) :
    Run.Always step Sound (some start) as ↔ Run.Along step Fits (some start) as :=
  always_sound good_start

/-! ## A dropped confirmation -/

/-- An access point, and its response to an association. -/
def someBssid : Bytes 6 := fun _ => 1

def someRsp : AssocRsp := ⟨someBssid, 0, 108, 0, .phy11bg_mixed⟩

/-- **A circle**: the confirmation of the first association is lost, so that the second one does
not find its entry and links it behind itself. -/
theorem macTable_broken : ¬ ∀ as, Run.Always step Sound (some start) as := by
  intro hall
  have halong := (always_sound good_start).mp
    (hall [.join someBssid, .assocRsp someRsp, .assocRsp someRsp])
  obtain ⟨-, -, hfits, -⟩ := halong
  have hlookup := (hfits ⟨⟨rfl, rfl⟩, rfl⟩).1 bssidWcid (by decide)
  revert hlookup
  decide

end ExtDrv.Rt3370.Mac
