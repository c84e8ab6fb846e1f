import ExtDrv.Rt3370.CipherParse
import ExtDrv.Rt3370.PeerBeacon

/-!
# Stored elements and their readers

The elements of an entry are read by `BssCipherParse` and by `AssocPostProc`, which copies the one
of security into the station entry of the access point. Which bytes they read is part of their
runs; how many bytes are copied is counted.
-/

namespace ExtDrv.Rt3370.Bss

open Memory

/-- The elements of `VarIEs`, as `PeerBeaconAndProbeRspSanity` leaves them. -/
structure StoredElements where
  VarIEs : Mem
  VarIELen : Nat
  whole : Tlv.Whole VarIEs VarIELen 0
  fits : VarIELen < maxVieLen

/-- `MAX_LEN_OF_RSNIE`. -/
abbrev maxLenOfRsnie : Nat := 255

/-! ## `AssocPostProc` -/

/-- `RSNIE_Len` and `RSN_IE` of the station entry. `stored` is how many bytes the last copy had, and
behind `written` nothing was written. -/
structure RsnCopy where
  RSNIE_Len : BitVec 8
  RSN_IE : Mem
  stored : Nat
  written : Nat

/-- `NdisZeroMemory`. -/
def RsnCopy.cleared (old : Mem) : RsnCopy where
  RSNIE_Len := 0
  RSN_IE := store old 0 (List.replicate maxLenOfRsnie 0)
  stored := 0
  written := maxLenOfRsnie

/-- The element at `o` is moved, without a look at the size of `RSN_IE`. -/
def copyElement (o : Nat) (s : RsnCopy) : Parse RsnCopy := do
  let l ← Reads.cell (o + 1)
  let bs ← Reads.cells (List.range' o (l.toNat + 2))
  return {
    RSNIE_Len := BitVec.ofNat 8 (l.toNat + 2)
    RSN_IE := store s.RSN_IE 0 bs
    stored := bs.length
    written := max s.written bs.length }

def storeElement (mode : AuthMode) (o : Nat) (s : RsnCopy) : Parse RsnCopy := do
  let eid ← Reads.cell o
  if eid = ieWpa then
    let oui ← Reads.cells [o + 2, o + 3, o + 4, o + 5]
    if oui = wpaOui ∧ (mode = .wpa ∨ mode = .wpaPsk) then copyElement o s else return s
  else if eid = ieRsn then
    let oui ← Reads.cells [o + 4, o + 5, o + 6]
    if oui = rsnOui ∧ (mode = .wpa2 ∨ mode = .wpa2Psk) then copyElement o s else return s
  else return s

/-- The loop, for so many turns; `len` is an unsigned short. -/
def storeElements (mode : AuthMode) : Nat → BitVec 16 → Nat → RsnCopy → Parse (Option RsnCopy)
  | 0, _, _, _ => pure none
  | turns + 1, len, o, s =>
      if len = 0 then pure (some s)
      else do
        let s ← storeElement mode o s
        let l ← Reads.cell (o + 1)
        storeElements mode turns (len - BitVec.ofNat 16 (l.toNat + 2)) (o + (l.toNat + 2)) s

/-- The part of `AssocPostProc` that stores the element. -/
def assocStore (mode : AuthMode) (turns : Nat) (VarIELen : Nat) (old : Mem) :
    Parse (Option RsnCopy) :=
  if AuthMode.wpa.toNat ≤ mode.toNat ∧ VarIELen ≠ 0 then
    storeElements mode turns (BitVec.ofNat 16 VarIELen) 0 (.cleared old)
  else pure (some (.cleared old))

/-! ## Staying inside -/

/-- All cells that are read on `m` lie before `len`. -/
def ReadsIn {α : Type} (p : Parse α) (m : Mem) (len : Nat) : Prop := ∀ a ∈ p.addrs m, a < len

/-- Both readers end, read the stored bytes alone and write within `RSN_IE`, and `RSNIE_Len` is what
was stored. -/
structure StoredElements.Inside (v : StoredElements) (privacy adhoc : Bool) (mode : AuthMode)
    (old : Mem) : Prop where
  parse : ReadsIn (bssCipherParse privacy adhoc v.VarIELen) v.VarIEs v.VarIELen
  store : ∃ s, ∀ turns, v.VarIELen < turns →
    (assocStore mode turns v.VarIELen old).run v.VarIEs = some s ∧
      ReadsIn (assocStore mode turns v.VarIELen old) v.VarIEs v.VarIELen ∧
      s.written ≤ maxLenOfRsnie ∧ s.RSNIE_Len.toNat = s.stored

/-! ## What the elements must have -/

/-- The number at `o`. -/
def numberAt (m : Mem) (o : Nat) : Nat := (m (o + 1)).toNat * 256 + (m o).toNat

/-- The AKM suites from `o` on lie before `len`, where they are looked for. -/
def AkmsIn (m : Mem) (len : Nat) : Nat → Nat → Prop
  | 0, o => o + 1 < len
  | n + 1, o =>
      o + 2 < len ∧
        (segment m o 3 = rsnOui → o + 3 < len ∧ AkmsIn m len n (o + (n + 1) * 4))

/-- A `WPA` element's counts lead to places before `len`, up to its first AKM suite. -/
def WpaIn (m : Mem) (len o : Nat) : Prop :=
  o + 5 < len ∧ (segment m (o + 2) 4 = wpaOui → o + 19 + 4 * numberAt m (o + 12) < len)

def RsnIn (m : Mem) (len o : Nat) : Prop :=
  o + 3 < len ∧
    (numberAt m (o + 2) = 1 → o + 6 < len ∧
      (segment m (o + 4) 3 = rsnOui →
        o + 11 + 4 * numberAt m (o + 8) < len ∧
          AkmsIn m len (numberAt m (o + 10 + 4 * numberAt m (o + 8)))
            (o + 12 + 4 * numberAt m (o + 8))))

/-- What `BssCipherParse` needs of the element at `o`. -/
def ParseIn (m : Mem) (len o : Nat) : Prop :=
  (m o = ieWpa → o + 4 < len ∧ (¬ (segment m (o + 2) 3 = sesOui ∧ m (o + 1) = 7) → WpaIn m len o)) ∧
    (m o = ieRsn → RsnIn m len o)

/-- The element is of the protocol of the configuration. -/
def Chosen (mode : AuthMode) (m : Mem) (o : Nat) : Prop :=
  (m o = ieWpa ∧ segment m (o + 2) 4 = wpaOui ∧ (mode = .wpa ∨ mode = .wpaPsk)) ∨
    (m o = ieRsn ∧ segment m (o + 4) 3 = rsnOui ∧ (mode = .wpa2 ∨ mode = .wpa2Psk))

instance (mode : AuthMode) (m : Mem) (o : Nat) : Decidable (Chosen mode m o) :=
  inferInstanceAs (Decidable ((_ ∧ _ ∧ _) ∨ (_ ∧ _ ∧ _)))

/-- What `AssocPostProc` needs of it: its OUI, and a place in `RSN_IE`. -/
def StoreIn (mode : AuthMode) (m : Mem) (len o : Nat) : Prop :=
  (m o = ieWpa → o + 5 < len) ∧ (m o = ieRsn → o + 6 < len) ∧
    (Chosen mode m o → (m (o + 1)).toNat + 2 ≤ maxLenOfRsnie)

/-! ## Reads, taken apart -/

section Reads

variable {α β : Type} {m : Mem} {len o : Nat}

@[simp] theorem readsIn_pure (a : α) : ReadsIn (pure a) m len := by
  simp [ReadsIn]

theorem readsIn_bind (p : Parse α) (f : α → Parse β) :
    ReadsIn (p >>= f) m len ↔ ReadsIn p m len ∧ ReadsIn (f (p.run m)) m len := by
  unfold ReadsIn
  rw [Reads.addrs_bind, List.forall_mem_append]

theorem readsIn_cell : ReadsIn (Reads.cell o) m len ↔ o < len := by
  simp [ReadsIn, Reads.cell, Reads.addrs]

theorem readsIn_cells (is : List Nat) : ReadsIn (Reads.cells is) m len ↔ ∀ i ∈ is, i < len := by
  rw [ReadsIn, Reads.addrs_cells]

theorem readsIn_word : ReadsIn (word o) m len ↔ o + 1 < len := by
  have haddrs : (word o).addrs m = [o, o + 1] := rfl
  rw [ReadsIn, haddrs]
  simp
  omega

theorem run_word (m : Mem) (o : Nat) : (word o).run m = numberAt m o := rfl

theorem run_cell (m : Mem) (o : Nat) : (Reads.cell o : Parse (BitVec 8)).run m = m o := rfl

theorem cells_segment3 (m : Mem) (o : Nat) :
    (Reads.cells [o, o + 1, o + 2]).run m = segment m o 3 := by
  rw [Reads.run_cells]
  rfl

theorem cells_segment4 (m : Mem) (o : Nat) :
    (Reads.cells [o, o + 1, o + 2, o + 3]).run m = segment m o 4 := by
  rw [Reads.run_cells]
  rfl

theorem readsIn_cells3 (m : Mem) (len o : Nat) :
    ReadsIn (Reads.cells [o, o + 1, o + 2]) m len ↔ o + 2 < len := by
  rw [readsIn_cells]
  simp
  omega

theorem readsIn_cells4 (m : Mem) (len o : Nat) :
    ReadsIn (Reads.cells [o, o + 1, o + 2, o + 3]) m len ↔ o + 3 < len := by
  rw [readsIn_cells]
  simp
  omega

/-- The suites' types are read, one after the other. -/
theorem readsIn_pairSuites (n : Nat) (suite : CipherSuite) :
    ReadsIn (pairSuites n o suite) m len ↔ ∀ i < n, o + 4 * i + 3 < len := by
  induction n generalizing o suite with
  | zero => simp [pairSuites]
  | succ n ih =>
      rw [pairSuites, readsIn_bind, readsIn_cell, ih]
      constructor
      · intro h i hi
        cases i with
        | zero => exact h.1
        | succ i =>
            have hnext := h.2 i (by omega)
            omega
      · intro h
        refine ⟨h 0 (by omega), fun i hi => ?_⟩
        have hnext := h (i + 1) (by omega)
        omega

/-- The walk over the AKM suites, and the capabilities behind it. -/
theorem readsIn_akmSuites (n : Nat) (s : Security) (k : Security → Nat → Security) :
    ReadsIn (akmSuites n o s >>= fun r => word r.2 >>= fun c => pure (k r.1 c)) m len
      ↔ AkmsIn m len n o := by
  induction n generalizing o s with
  | zero =>
      rw [akmSuites, readsIn_bind, readsIn_bind, readsIn_word]
      simp [AkmsIn]
  | succ n ih =>
      by_cases hown : segment m o 3 = rsnOui
      · have hrun : (Reads.cells [o, o + 1, o + 2]).run m = rsnOui := by
          rw [cells_segment3, hown]
        rw [AkmsIn, ← ih (o := o + (n + 1) * 4) (s.rsnAuth (m (o + 3)))]
        simp only [readsIn_bind, akmSuites, hrun, readsIn_cells3, Reads.run_bind, run_cell,
          readsIn_cell, ne_eq, not_true, if_false, hown, forall_const, and_assoc]
      · have hrun : (Reads.cells [o, o + 1, o + 2]).run m ≠ rsnOui := by
          rwa [cells_segment3]
        rw [AkmsIn]
        simp only [readsIn_bind, akmSuites, hrun, readsIn_cells3, Reads.run_bind, ne_eq,
          not_false_eq_true, if_true, hown, false_implies, and_true, readsIn_pure, Reads.run_pure,
          readsIn_word]
        constructor
        · exact fun h => h.1
        · intro h
          exact ⟨h, by omega⟩

theorem readsIn_parseWpa (adhoc : Bool) (s : Security) :
    ReadsIn (parseWpa adhoc o s) m len ↔ WpaIn m len o := by
  have hcells := cells_segment4 m (o + 2)
  have hin := readsIn_cells4 m len (o + 2)
  unfold parseWpa WpaIn
  by_cases houi : segment m (o + 2) 4 = wpaOui
  · rw [houi] at hcells
    simp only [Nat.add_assoc] at hcells hin
    simp only [readsIn_bind, hcells, hin, ne_eq, not_true, if_false, readsIn_cell, readsIn_word,
      run_word, readsIn_pairSuites, readsIn_pure, and_true, houi, forall_const,
      Nat.add_assoc]
    constructor
    · intro h
      omega
    · intro h
      refine ⟨by omega, by omega, by omega, ?_, by omega, by omega⟩
      intro i hi
      omega
  · have hne : (Reads.cells [o + 2, o + 2 + 1, o + 2 + 2, o + 2 + 3]).run m ≠ wpaOui := by
      rwa [hcells]
    simp only [Nat.add_assoc] at hne hin
    simp only [readsIn_bind, hin, hne, ne_eq, not_false_eq_true, if_true, readsIn_pure, and_true,
      houi, false_implies, Nat.add_assoc]

theorem readsIn_parseRsn (adhoc : Bool) (s : Security) :
    ReadsIn (parseRsn adhoc o s) m len ↔ RsnIn m len o := by
  have hcells := cells_segment3 m (o + 4)
  have hin := readsIn_cells3 m len (o + 4)
  unfold parseRsn RsnIn
  rw [readsIn_bind, readsIn_word, run_word]
  refine and_congr (by omega) ?_
  by_cases hversion : numberAt m (o + 2) = 1
  · rw [if_neg (fun h => h hversion), readsIn_bind]
    simp only [hversion, forall_const]
    simp only [Nat.add_assoc] at hcells hin
    refine and_congr (by simpa only [Nat.add_assoc] using hin) ?_
    by_cases houi : segment m (o + 4) 3 = rsnOui
    · simp only [hcells, houi, ne_eq, not_true, if_false, forall_const]
      rw [readsIn_bind, readsIn_bind, readsIn_bind, readsIn_bind, readsIn_cell, readsIn_word,
        readsIn_pairSuites, readsIn_word, run_word, run_word,
        ← readsIn_akmSuites _ _ fun s capability =>
          let s := s.rsnWepStatus adhoc
          { s with WPA2 := { s.WPA2 with RsnCapability := capability }.mixed }]
      constructor
      · intro h
        obtain ⟨-, -, -, hcount, hrest⟩ := h
        exact ⟨by omega, hrest⟩
      · intro h
        refine ⟨by omega, by omega, ?_, by omega, h.2⟩
        intro i hi
        omega
    · simp only [hcells, houi, ne_eq, not_false_eq_true, if_true, readsIn_pure, false_implies]
  · rw [if_pos hversion]
    simp only [hversion, false_implies, readsIn_pure]

/-- What `BssCipherParse` reads of one element. -/
theorem readsIn_parseElement (adhoc : Bool) (ho : o < len) (hlen : o + 1 < len)
    (s : Security × Bool) :
    ReadsIn (parseElement adhoc o s) m len ↔ ParseIn m len o := by
  have hcells := cells_segment3 m (o + 2)
  have hin := readsIn_cells3 m len (o + 2)
  simp only [Nat.add_assoc] at hcells hin
  unfold parseElement ParseIn
  rw [readsIn_bind, readsIn_cell, run_cell]
  by_cases hw : m o = ieWpa
  · have hne : m o ≠ ieRsn := by
      rw [hw]
      decide
    rw [if_pos hw, readsIn_bind, readsIn_bind, readsIn_cell, run_cell]
    simp only [hcells, hin]
    by_cases hses : segment m (o + 2) 3 = sesOui ∧ m (o + 1) = 7
    · rw [if_pos hses]
      simp [hw, hses, ho, hlen, hw ▸ hne]
    · rw [if_neg hses, readsIn_bind, readsIn_parseWpa]
      constructor
      · intro h
        exact ⟨fun _ => ⟨h.2.1, fun _ => h.2.2.2.1⟩, fun hr => absurd hr hne⟩
      · intro h
        have hwpa := h.1 hw
        exact ⟨ho, hwpa.1, hlen, hwpa.2 hses, readsIn_pure _⟩
  · rw [if_neg hw]
    by_cases hr : m o = ieRsn
    · rw [if_pos hr, readsIn_bind, readsIn_parseRsn]
      simp [hr, ho, hr ▸ hw]
    · rw [if_neg hr]
      simp [hr, ho, hw]

/-- All elements. -/
theorem readsIn_parseElements (adhoc : Bool) (hw : Tlv.Whole m len o) (turns : Nat)
    (hturns : len - o ≤ turns) (s : Security × Bool) :
    ReadsIn (parseElements adhoc len turns o s) m len
      ↔ ∀ i ∈ Tlv.offsets m len o, ParseIn m len i := by
  induction hw generalizing turns s with
  | done =>
      have hend : Tlv.offsets m len len = [] := Tlv.offsets_of_gt (by unfold Tlv.after; omega)
      rw [hend]
      cases turns with
      | zero => simp [parseElements]
      | succ turns => rw [parseElements, if_neg (Nat.lt_irrefl _)]; simp
  | @element o hafter _ ih =>
      have hlt : o + 2 ≤ Tlv.after m o := Nat.le_add_right _ _
      cases turns with
      | zero => omega
      | succ turns =>
          rw [Tlv.offsets_of_le hafter, List.forall_mem_cons, parseElements, if_pos (by omega),
            readsIn_bind, readsIn_bind, readsIn_cell, run_cell,
            readsIn_parseElement adhoc (by omega) (by omega)]
          have hrest := ih turns (by omega) ((parseElement adhoc o s).run m)
          unfold Tlv.after at hrest
          rw [hrest]
          refine and_congr_right fun _ => ?_
          exact and_iff_right (by omega)

end Reads

/-! ## The copy of the element -/

section Store

variable {m : Mem} {len o : Nat} {mode : AuthMode}

/-- The element at `o`, copied. -/
def copied (m : Mem) (o : Nat) (s : RsnCopy) : RsnCopy where
  RSNIE_Len := BitVec.ofNat 8 ((m (o + 1)).toNat + 2)
  RSN_IE := store s.RSN_IE 0 (segment m o ((m (o + 1)).toNat + 2))
  stored := (m (o + 1)).toNat + 2
  written := max s.written ((m (o + 1)).toNat + 2)

theorem copyElement_run (m : Mem) (o : Nat) (s : RsnCopy) :
    (copyElement o s).run m = copied m o s := by
  have hcells : (Reads.cells (List.range' o ((m (o + 1)).toNat + 2))).run m
      = segment m o ((m (o + 1)).toNat + 2) := by
    rw [Reads.run_cells, Memory.segment, List.range'_eq_map_range, List.map_map]
    rfl
  unfold copyElement
  rw [Reads.run_bind, run_cell, Reads.run_bind, hcells, Reads.run_pure, copied, length_segment]

theorem readsIn_copyElement (h : Tlv.after m o ≤ len) (s : RsnCopy) :
    ReadsIn (copyElement o s) m len := by
  unfold Tlv.after at h
  unfold copyElement
  rw [readsIn_bind, readsIn_cell, run_cell, readsIn_bind, readsIn_cells]
  refine ⟨by omega, ?_, readsIn_pure _⟩
  intro i hi
  have hrange := List.mem_range'_1.mp hi
  omega

/-- One turn: the chosen element is copied. -/
theorem storeElement_run (m : Mem) (o : Nat) (s : RsnCopy) :
    (storeElement mode o s).run m = if Chosen mode m o then copied m o s else s := by
  have hfour := cells_segment4 m (o + 2)
  have hthree := cells_segment3 m (o + 4)
  simp only [Nat.add_assoc] at hfour hthree
  unfold storeElement
  rw [Reads.run_bind, run_cell]
  by_cases hw : m o = ieWpa
  · have hne : m o ≠ ieRsn := by
      rw [hw]
      decide
    have hchosen : Chosen mode m o ↔
        segment m (o + 2) 4 = wpaOui ∧ (mode = .wpa ∨ mode = .wpaPsk) := by
      simp [Chosen, hw, hw ▸ hne]
    rw [if_pos hw, Reads.run_bind, hfour, if_congr hchosen rfl rfl]
    split
    · exact copyElement_run m o s
    · rfl
  · rw [if_neg hw]
    by_cases hr : m o = ieRsn
    · have hchosen : Chosen mode m o ↔
          segment m (o + 4) 3 = rsnOui ∧ (mode = .wpa2 ∨ mode = .wpa2Psk) := by
        simp [Chosen, hr, hr ▸ hw]
      rw [if_pos hr, Reads.run_bind, hthree, if_congr hchosen rfl rfl]
      split
      · exact copyElement_run m o s
      · rfl
    · have hchosen : ¬ Chosen mode m o := by
        simp [Chosen, hw, hr]
      rw [if_neg hr, if_neg hchosen]
      rfl

theorem readsIn_storeElement (h : Tlv.after m o ≤ len) (s : RsnCopy) :
    ReadsIn (storeElement mode o s) m len ↔
      (m o = ieWpa → o + 5 < len) ∧ (m o = ieRsn → o + 6 < len) := by
  have hafter := h
  unfold Tlv.after at hafter
  have hfour := readsIn_cells4 m len (o + 2)
  have hthree := readsIn_cells3 m len (o + 4)
  simp only [Nat.add_assoc] at hfour hthree
  have hcopy := readsIn_copyElement h s
  unfold storeElement
  rw [readsIn_bind, readsIn_cell, run_cell, and_iff_right (by omega)]
  by_cases hw : m o = ieWpa
  · have hne : m o ≠ ieRsn := by
      rw [hw]
      decide
    rw [if_pos hw, readsIn_bind, hfour]
    simp only [hw, forall_const, hw ▸ hne, false_implies, and_true]
    refine and_iff_left ?_
    split
    · exact hcopy
    · exact readsIn_pure _
  · rw [if_neg hw]
    simp only [hw, false_implies, true_and]
    by_cases hr : m o = ieRsn
    · rw [if_pos hr, readsIn_bind, hthree]
      simp only [hr, forall_const]
      refine and_iff_left ?_
      split
      · exact hcopy
      · exact readsIn_pure _
    · rw [if_neg hr]
      simp [hr]

/-- A turn on the state. -/
def stored (mode : AuthMode) (m : Mem) (s : RsnCopy) (o : Nat) : RsnCopy :=
  if Chosen mode m o then copied m o s else s

/-- The length that is left, as the loop counts it. -/
theorem left_sub {l : Nat} (h : o + 2 + l ≤ len) (hlen : len < 65536) :
    BitVec.ofNat 16 (len - o) - BitVec.ofNat 16 (l + 2) = BitVec.ofNat 16 (len - (o + 2 + l)) := by
  apply BitVec.eq_of_toNat_eq
  rw [BitVec.toNat_sub, BitVec.toNat_ofNat, BitVec.toNat_ofNat, BitVec.toNat_ofNat]
  omega

theorem left_ne_zero (h : o < len) (hlen : len < 65536) : BitVec.ofNat 16 (len - o) ≠ 0 := by
  intro hzero
  have hnat := congrArg BitVec.toNat hzero
  rw [BitVec.toNat_ofNat] at hnat
  change (len - o) % 65536 = 0 at hnat
  omega

/-- The loop takes the elements in turn, and ends. -/
theorem storeElements_run (mode : AuthMode) (hw : Tlv.Whole m len o) (hlen : len < 65536)
    (turns : Nat) (hturns : len - o < turns) (s : RsnCopy) :
    (storeElements mode turns (BitVec.ofNat 16 (len - o)) o s).run m
        = some ((Tlv.offsets m len o).foldl (stored mode m) s) ∧
      (ReadsIn (storeElements mode turns (BitVec.ofNat 16 (len - o)) o s) m len ↔
        ∀ i ∈ Tlv.offsets m len o, (m i = ieWpa → i + 5 < len) ∧ (m i = ieRsn → i + 6 < len)) := by
  induction hw generalizing turns s with
  | done =>
      have hend : Tlv.offsets m len len = [] := Tlv.offsets_of_gt (by unfold Tlv.after; omega)
      rw [hend, Nat.sub_self]
      cases turns with
      | zero => omega
      | succ turns =>
          rw [storeElements, if_pos (show BitVec.ofNat 16 0 = 0 from rfl)]
          simp
  | @element o hafter _ ih =>
      have hlt : o + 2 ≤ Tlv.after m o := Nat.le_add_right _ _
      have hnext : o + ((m (o + 1)).toNat + 2) = Tlv.after m o := by
        unfold Tlv.after
        omega
      cases turns with
      | zero => omega
      | succ turns =>
          have hturn := ih turns (by omega) ((storeElement mode o s).run m)
          rw [Tlv.offsets_of_le hafter, List.foldl_cons, List.forall_mem_cons, storeElements,
            if_neg (left_ne_zero (by omega) hlen), readsIn_bind, readsIn_bind, readsIn_cell,
            readsIn_storeElement hafter, Reads.run_bind, Reads.run_bind, run_cell,
            left_sub (by unfold Tlv.after at hafter; omega) hlen, hnext]
          rw [show o + 2 + (m (o + 1)).toNat = Tlv.after m o from rfl]
          have hstored : (storeElement mode o s).run m = stored mode m s o := storeElement_run m o s
          rw [hstored] at hturn ⊢
          refine ⟨hturn.1, and_congr_right fun _ => ?_⟩
          rw [hturn.2]
          exact and_iff_right (by omega)

/-- How far is written. -/
theorem written_stored_iff (os : List Nat) (s : RsnCopy) :
    (os.foldl (stored mode m) s).written ≤ maxLenOfRsnie ↔
      s.written ≤ maxLenOfRsnie ∧
        ∀ i ∈ os, Chosen mode m i → (m (i + 1)).toNat + 2 ≤ maxLenOfRsnie := by
  induction os generalizing s with
  | nil => simp
  | cons i os ih =>
      rw [List.foldl_cons, ih, List.forall_mem_cons, ← and_assoc]
      refine and_congr_left fun _ => ?_
      unfold stored
      by_cases h : Chosen mode m i
      · rw [if_pos h]
        simp [copied, h]
      · rw [if_neg h]
        simp [h]

/-- Copies that have their place have their length. -/
theorem length_stored {os : List Nat} {s : RsnCopy} (hs : s.RSNIE_Len.toNat = s.stored)
    (h : ∀ i ∈ os, Chosen mode m i → (m (i + 1)).toNat + 2 ≤ maxLenOfRsnie) :
    (os.foldl (stored mode m) s).RSNIE_Len.toNat = (os.foldl (stored mode m) s).stored := by
  induction os generalizing s with
  | nil => exact hs
  | cons i os ih =>
      refine ih ?_ fun k hk => h k (List.mem_cons_of_mem _ hk)
      unfold stored
      split
      case isTrue hchosen =>
        have hle := h i List.mem_cons_self hchosen
        have hmax : maxLenOfRsnie = 255 := rfl
        show (BitVec.ofNat 8 ((m (i + 1)).toNat + 2)).toNat = (m (i + 1)).toNat + 2
        rw [BitVec.toNat_ofNat]
        omega
      case isFalse => exact hs

end Store

/-! ## Both readers -/

namespace StoredElements

variable {mode : AuthMode} {old : Mem}

/-- The elements, by their offsets. -/
def offsets (v : StoredElements) : List Nat := Tlv.offsets v.VarIEs v.VarIELen 0

/-- The part of `AssocPostProc`, when it comes to the loop. -/
theorem assocStore_run (v : StoredElements) (old : Mem) (hmode : AuthMode.wpa.toNat ≤ mode.toNat) {turns : Nat}
    (hturns : v.VarIELen < turns) :
    (assocStore mode turns v.VarIELen old).run v.VarIEs
        = some (v.offsets.foldl (stored mode v.VarIEs) (.cleared old)) ∧
      (ReadsIn (assocStore mode turns v.VarIELen old) v.VarIEs v.VarIELen ↔
        ∀ o ∈ v.offsets, (v.VarIEs o = ieWpa → o + 5 < v.VarIELen) ∧
          (v.VarIEs o = ieRsn → o + 6 < v.VarIELen)) := by
  have hfits := v.fits
  have hmax : maxVieLen = 1024 := rfl
  unfold assocStore
  by_cases hempty : v.VarIELen = 0
  · have hnone : v.offsets = [] := by
      unfold offsets
      exact Tlv.offsets_of_gt (by unfold Tlv.after; omega)
    rw [if_neg (fun h => h.2 hempty), hnone]
    simp
  · rw [if_pos ⟨hmode, hempty⟩]
    have hrun := storeElements_run mode v.whole (by omega) turns (by omega) (.cleared old)
    rw [Nat.sub_zero] at hrun
    exact hrun

theorem Inside.parseIn {v : StoredElements} {privacy adhoc : Bool}
    (h : v.Inside privacy adhoc mode old) {o : Nat} (ho : o ∈ v.offsets) :
    ParseIn v.VarIEs v.VarIELen o :=
  (readsIn_parseElements adhoc v.whole v.VarIELen (by omega) _).mp h.parse o ho

theorem Inside.storeIn {v : StoredElements} {privacy adhoc : Bool}
    (h : v.Inside privacy adhoc mode old) (hmode : AuthMode.wpa.toNat ≤ mode.toNat) {o : Nat}
    (ho : o ∈ v.offsets) : StoreIn mode v.VarIEs v.VarIELen o := by
  obtain ⟨s, hs⟩ := h.store
  obtain ⟨hrun, hreads, hwritten, -⟩ := hs (v.VarIELen + 1) (Nat.lt_succ_self _)
  have hloop := assocStore_run v old hmode (Nat.lt_succ_self _)
  obtain rfl := Option.some.inj (hloop.1.symm.trans hrun)
  have hin := hloop.2.mp hreads o ho
  exact ⟨hin.1, hin.2, ((written_stored_iff _ _).mp hwritten).2 o ho⟩

/-- **Inside the stored bytes**, for both readers. -/
theorem readers_inside_iff (v : StoredElements) (privacy adhoc : Bool) (mode : AuthMode) (old : Mem) :
    v.Inside privacy adhoc mode old ↔
      ∀ o ∈ v.offsets, ParseIn v.VarIEs v.VarIELen o ∧
        (AuthMode.wpa.toNat ≤ mode.toNat → StoreIn mode v.VarIEs v.VarIELen o) := by
  constructor
  · intro h o ho
    exact ⟨h.parseIn ho, fun hmode => h.storeIn hmode ho⟩
  · intro h
    refine ⟨(readsIn_parseElements adhoc v.whole v.VarIELen (by omega) _).mpr fun o ho => (h o ho).1, ?_⟩
    by_cases hmode : AuthMode.wpa.toNat ≤ mode.toNat
    · have hplace : ∀ o ∈ v.offsets, Chosen mode v.VarIEs o →
          (v.VarIEs (o + 1)).toNat + 2 ≤ maxLenOfRsnie :=
        fun o ho => ((h o ho).2 hmode).2.2
      refine ⟨v.offsets.foldl (stored mode v.VarIEs) (.cleared old), fun turns hturns => ?_⟩
      have hloop := assocStore_run v old hmode hturns
      refine ⟨hloop.1, hloop.2.mpr fun o ho => ?_, ?_, length_stored rfl hplace⟩
      · have hin := (h o ho).2 hmode
        exact ⟨hin.1, hin.2.1⟩
      · exact (written_stored_iff _ _).mpr ⟨Nat.le_refl _, hplace⟩
    · refine ⟨.cleared old, fun turns _ => ?_⟩
      unfold assocStore
      rw [if_neg (fun h => hmode h.1)]
      exact ⟨rfl, readsIn_pure _, Nat.le_refl _, rfl⟩

/-- Some bytes as the stored elements. -/
def bytesAt (bs : List (BitVec 8)) : Mem := fun i => bs.getD i 0

/-- An `RSN` element with room for no pairwise suite, and a count of 65535 of them. -/
def manySuites : StoredElements where
  VarIEs := bytesAt [0x30, 8, 1, 0, 0x00, 0x0f, 0xac, 4, 0xff, 0xff]
  VarIELen := 10
  whole := .element (Nat.le_refl 10) .done
  fits := by decide

/-- An `RSN` element of the greatest length. -/
def longElement : StoredElements where
  VarIEs := bytesAt [0x30, 255, 1, 0, 0x00, 0x0f, 0xac, 4]
  VarIELen := 257
  whole := .element (Nat.le_refl 257) .done
  fits := by decide

theorem outside :
    (∀ privacy adhoc mode old, ¬ manySuites.Inside privacy adhoc mode old) ∧
      ∀ privacy adhoc old, ¬ longElement.Inside privacy adhoc .wpa2Psk old := by
  constructor
  · intro privacy adhoc mode old h
    have hmem : 0 ∈ manySuites.offsets := by
      rw [offsets, Tlv.offsets_of_le (Nat.le_refl 10)]
      exact List.mem_cons_self
    have hparse := ((h.parseIn hmem).2 rfl).2 rfl
    exact absurd (hparse.2 rfl).1 (by decide)
  · intro privacy adhoc old h
    have hmem : 0 ∈ longElement.offsets := by
      rw [offsets, Tlv.offsets_of_le (Nat.le_refl 257)]
      exact List.mem_cons_self
    have hstore := (h.storeIn (by decide) hmem).2.2 (Or.inr ⟨rfl, rfl, Or.inr rfl⟩)
    exact absurd hstore (by decide)

end StoredElements

end ExtDrv.Rt3370.Bss
