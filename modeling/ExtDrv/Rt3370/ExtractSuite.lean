import ExtDrv.Rt3370.ElementBounds

/-!
# Suites out of an element

`WPA_ExtractSuiteFromRSNIE` goes over the lists of a `WPA` or `RSN` element and returns where the one
that is asked for stands, and its count. It reads the counts; that the lists lie within
the element it checks by lengths.
-/

namespace ExtDrv.Rt3370.Bss

open Memory

/-! ## The function -/

/-- `GROUP_SUITE`. -/
def groupSuite : BitVec 8 := 0

/-- `PAIRWISE_SUITE`. -/
def pairwiseSuite : BitVec 8 := 1

/-- `AKM_SUITE`. -/
def akmSuite : BitVec 8 := 2

/-- `RSN_CAP_INFO`. -/
def rsnCapInfo : BitVec 8 := 3

/-- `PMKID_LIST`. -/
def pmkidList : BitVec 8 := 4

/-- `G_MGMT_SUITE`. -/
def gMgmtSuite : BitVec 8 := 5

/-- The pointer that is returned, as an offset in `rsnie`, and `*count`. -/
abbrev Extracted := Option Nat × BitVec 8

/-- `out`. -/
def nothing : Extracted := (none, 0)

/-- The PMKID list. Without PMKIDs there is no list, whatever is asked for. -/
def extractPmkids (type : BitVec 8) (pBuf len : Nat) : Parse Extracted :=
  if len < 2 then pure nothing
  else do
    let p_count ← word pBuf
    if 0 < p_count then
      if len < 18 + 16 * (p_count - 1) then return nothing
      else if type = pmkidList then return (some (pBuf + 2), BitVec.ofNat 8 p_count)
      else return nothing
    else return nothing

def extractCapabilities (type : BitVec 8) (pBuf len : Nat) : Parse Extracted :=
  if len < 2 then pure nothing
  else if type = rsnCapInfo then pure (some pBuf, 1)
  else extractPmkids type (pBuf + 2) (len - 2)

/-- The AKM suites. For `WPA`, the rest is ignored. `size` is the size of `RSNIE_AUTH` with as many
suites as are counted; the structure itself has one. -/
def extractAkms (type : BitVec 8) (wpa : Bool) (pBuf len : Nat) : Parse Extracted :=
  if len < 6 then pure nothing
  else do
    let a_cnt ← word pBuf
    let size := 2 + 4 * a_cnt
    if len < size then return nothing
    else if type = akmSuite then return (some (pBuf + 2), BitVec.ofNat 8 a_cnt)
    else if wpa then return nothing
    else extractCapabilities type (pBuf + size) (len - size)

/-- The ciphers. The group cipher stands at `mcast` in the element's content, `len` bytes, and then
the count and the pairwise suites. -/
def extractCiphers (type : BitVec 8) (wpa : Bool) (mcast len : Nat) : Parse Extracted :=
  if len < mcast + 10 then pure nothing
  else do
    let u_cnt ← word (2 + mcast + 4)
    let size := mcast + 6 + 4 * u_cnt
    if len < size then return nothing
    else if type = groupSuite then return (some (2 + mcast), 1)
    else if type = pairwiseSuite then return (some (2 + mcast + 6), BitVec.ofNat 8 u_cnt)
    else extractAkms type wpa (2 + size) (len - size)

/-- `WPA_ExtractSuiteFromRSNIE`. `RSNIE` has the OUI with its type and the version before the group
cipher, `RSNIE2` the version. -/
def wpaExtractSuiteFromRsnie (rsnie_len : BitVec 32) (type : BitVec 8) : Parse Extracted :=
  let len := (rsnie_len - 2).toInt
  if len ≤ 0 then pure nothing
  else do
    let l ← Reads.cell 1
    if (l.toNat : Int) ≠ len then return nothing
    let eid ← Reads.cell 0
    if eid = ieWpa then extractCiphers type true 6 len.toNat
    else if eid = ieRsn then extractCiphers type false 2 len.toNat
    else return nothing

/-! ## The answer -/

/-- How many bytes one of a list has. -/
def itemSize (type : BitVec 8) : Nat :=
  if type = pmkidList then 16 else if type = rsnCapInfo then 2 else 4

/-- A pointer that is returned is into the content, and what is counted from there on too. -/
def Extracted.Lies (type : BitVec 8) (rsnie_len : Nat) (r : Extracted) : Prop :=
  ∀ p, r.1 = some p → 2 ≤ p ∧ p + itemSize type * r.2.toNat ≤ rsnie_len

/-- The list `bs` of `n`, if any, and its count. -/
def Extracted.Gives (m : Mem) (bs : List (BitVec 8)) (n : Nat) (r : Extracted) : Prop :=
  r.2.toNat = n ∧ (n = 0 ∨ ∃ p, r.1 = some p ∧ Spells m p bs)

/-! ## Elements with lists -/

/-- An element that has a group cipher, pairwise suites and AKM suites, and maybe capabilities and
then PMKIDs and then a group management cipher. -/
structure ListedElement where
  protocol : Protocol
  group : Suite
  pairs : List Suite
  akms : List Suite
  capability : Option (Bytes 2)
  pmkids : Option (List (Bytes 16))
  mgmt : Option Suite
  pmkids_after : capability = none → pmkids = none
  mgmt_after : pmkids = none → mgmt = none
  wpa_ends : protocol = .wpa → pmkids = none
  fits : protocol.head.length + 8 + 4 * pairs.length + 4 * akms.length +
    (capability.elim 0 fun _ => 2) + (pmkids.elim 0 fun ps => 2 + 16 * ps.length) +
      (mgmt.elim 0 fun _ => 4) ≤ 255

namespace ListedElement

variable (e : ListedElement)

def capabilityBytes : List (BitVec 8) := e.capability.elim [] List.ofFn

def pmkidBytes : List (BitVec 8) :=
  e.pmkids.elim [] fun ps => le16 ps.length ++ ps.flatMap List.ofFn

def mgmtBytes : List (BitVec 8) := e.mgmt.elim [] Suite.bytes

/-- What stands behind the pairwise suites. -/
def rest : List (BitVec 8) :=
  SecurityElement.suites e.akms ++ (e.capabilityBytes ++ (e.pmkidBytes ++ e.mgmtBytes))

def body : List (BitVec 8) :=
  e.protocol.head ++ (e.group.bytes ++ (SecurityElement.suites e.pairs ++ e.rest))

def bytes : List (BitVec 8) := e.protocol.eid :: BitVec.ofNat 8 e.body.length :: e.body

/-- What the element has of a type: the bytes and the count. -/
def encoded (type : BitVec 8) : List (BitVec 8) × Nat :=
  if type = groupSuite then (e.group.bytes, 1)
  else if type = pairwiseSuite then (e.pairs.flatMap Suite.bytes, e.pairs.length)
  else if type = akmSuite then (e.akms.flatMap Suite.bytes, e.akms.length)
  else if type = rsnCapInfo then (e.capabilityBytes, e.capability.elim 0 fun _ => 1)
  else if type = pmkidList then
    (e.pmkids.elim [] fun ps => ps.flatMap List.ofFn, e.pmkids.elim 0 List.length)
  else if type = gMgmtSuite then (e.mgmtBytes, e.mgmt.elim 0 fun _ => 1)
  else ([], 0)

/-- What the function has an answer for: the ciphers where there is room for one pairwise suite, and
with room for one AKM suite the AKM suites, and what follows them in an `RSN` element. -/
def Served (type : BitVec 8) : Prop :=
  4 ≤ 4 * e.pairs.length + e.rest.length ∧
    (type = groupSuite ∨ type = pairwiseSuite ∨
      (6 ≤ e.rest.length ∧
        (type = akmSuite ∨ (e.protocol = .rsn ∧ (type = rsnCapInfo ∨ type = pmkidList)))))

end ListedElement

/-! ## Inside, whatever the bytes -/

section Inside

variable {m : Mem} {type : BitVec 8} {L pBuf len : Nat}

/-- The bytes read and the answer are inside. -/
def Inside (m : Mem) (type : BitVec 8) (L : Nat) (p : Parse Extracted) : Prop :=
  ReadsIn p m L ∧ (p.run m).Lies type L

theorem inside_nothing : Inside m type L (pure nothing) := by
  refine ⟨readsIn_pure _, fun p hp => ?_⟩
  rw [Reads.run_pure] at hp
  cases hp

/-- A list of `n` that lies within. -/
theorem inside_some {p n : Nat} (h2 : 2 ≤ p) (h : p + itemSize type * n ≤ L) :
    Inside m type L (pure (some p, BitVec.ofNat 8 n)) := by
  refine ⟨readsIn_pure _, fun q hq => ?_⟩
  rw [Reads.run_pure] at hq ⊢
  obtain rfl := Option.some.inj hq
  have hle : (BitVec.ofNat 8 n).toNat ≤ n := by
    rw [BitVec.toNat_ofNat]
    exact Nat.mod_le n 256
  have hmul := Nat.mul_le_mul_left (itemSize type) hle
  exact ⟨h2, by dsimp only; omega⟩

theorem inside_word {o : Nat} {f : Nat → Parse Extracted} (ho : o + 1 < L)
    (h : Inside m type L (f (numberAt m o))) : Inside m type L (word o >>= f) := by
  unfold Inside
  rw [readsIn_bind, readsIn_word, Reads.run_bind, run_word]
  exact ⟨⟨ho, h.1⟩, h.2⟩

theorem inside_cell {o : Nat} {f : BitVec 8 → Parse Extracted} (ho : o < L)
    (h : Inside m type L (f (m o))) : Inside m type L (Reads.cell o >>= f) := by
  unfold Inside
  rw [readsIn_bind, readsIn_cell, Reads.run_bind, run_cell]
  exact ⟨⟨ho, h.1⟩, h.2⟩

theorem extractPmkids_inside (hp : 2 ≤ pBuf) (h : pBuf + len ≤ L) :
    Inside m type L (extractPmkids type pBuf len) := by
  unfold extractPmkids
  split
  case isTrue => exact inside_nothing
  case isFalse hlen =>
    refine inside_word (by omega) ?_
    split
    case isFalse => exact inside_nothing
    case isTrue hcount =>
      split
      case isTrue => exact inside_nothing
      case isFalse hroom =>
        split
        case isFalse => exact inside_nothing
        case isTrue htype =>
          have hsize : itemSize type = 16 := by rw [htype]; rfl
          refine inside_some (by omega) ?_
          rw [hsize]
          omega

theorem extractCapabilities_inside (hp : 2 ≤ pBuf) (h : pBuf + len ≤ L) :
    Inside m type L (extractCapabilities type pBuf len) := by
  unfold extractCapabilities
  split
  case isTrue => exact inside_nothing
  case isFalse hlen =>
    split
    case isTrue htype =>
      have hsize : itemSize type = 2 := by rw [htype]; rfl
      refine inside_some (n := 1) hp ?_
      rw [hsize]
      omega
    case isFalse => exact extractPmkids_inside (by omega) (by omega)

theorem extractAkms_inside (wpa : Bool) (hp : 2 ≤ pBuf) (h : pBuf + len ≤ L) :
    Inside m type L (extractAkms type wpa pBuf len) := by
  unfold extractAkms
  split
  case isTrue => exact inside_nothing
  case isFalse hlen =>
    refine inside_word (by omega) ?_
    dsimp only
    split
    case isTrue => exact inside_nothing
    case isFalse hroom =>
      split
      case isTrue htype =>
        have hsize : itemSize type = 4 := by rw [htype]; rfl
        refine inside_some (by omega) ?_
        rw [hsize]
        omega
      case isFalse =>
        split
        case isTrue => exact inside_nothing
        case isFalse => exact extractCapabilities_inside (by omega) (by omega)

theorem extractCiphers_inside (wpa : Bool) {mcast : Nat} (h : 2 + len ≤ L) :
    Inside m type L (extractCiphers type wpa mcast len) := by
  unfold extractCiphers
  split
  case isTrue => exact inside_nothing
  case isFalse hlen =>
    refine inside_word (by omega) ?_
    dsimp only
    split
    case isTrue => exact inside_nothing
    case isFalse hroom =>
      split
      case isTrue htype =>
        have hsize : itemSize type = 4 := by rw [htype]; rfl
        refine inside_some (n := 1) (by omega) ?_
        rw [hsize]
        omega
      case isFalse =>
        split
        case isTrue htype =>
          have hsize : itemSize type = 4 := by rw [htype]; rfl
          refine inside_some (by omega) ?_
          rw [hsize]
          omega
        case isFalse => exact extractAkms_inside wpa (by omega) (by omega)

/-- A length that is taken is that of the content. -/
theorem content_len {rsnie_len : BitVec 32} (h : 0 < (rsnie_len - 2).toInt) :
    (rsnie_len - 2).toInt = (rsnie_len.toNat : Int) - 2 := by
  have hlt := rsnie_len.isLt
  have hsub : (rsnie_len - 2).toNat = (rsnie_len.toNat + (2 ^ 32 - 2)) % 2 ^ 32 := by
    rw [BitVec.toNat_sub, Nat.add_comm]
    rfl
  rw [BitVec.toInt_eq_toNat_cond] at h ⊢
  split at h
  case isTrue hsmall =>
    rw [if_pos hsmall]
    omega
  case isFalse hbig =>
    have hlt' := (rsnie_len - 2).isLt
    omega

/-- **Inside the element**, whatever the bytes, the length and the type. -/
theorem extract_inside (m : Mem) (rsnie_len : BitVec 32) (type : BitVec 8) :
    Inside m type rsnie_len.toNat (wpaExtractSuiteFromRsnie rsnie_len type) := by
  unfold wpaExtractSuiteFromRsnie
  dsimp only
  split
  case isTrue => exact inside_nothing
  case isFalse hlen =>
    have hcontent := content_len (Int.not_le.mp hlen)
    refine inside_cell (by omega) ?_
    split
    case isTrue => exact inside_nothing
    case isFalse =>
      refine inside_cell (by omega) ?_
      split
      case isTrue => exact extractCiphers_inside true (by omega)
      case isFalse =>
        split
        case isTrue => exact extractCiphers_inside false (by omega)
        case isFalse => exact inside_nothing

end Inside

/-! ## On an element with lists -/

namespace ListedElement

variable {e : ListedElement} {m : Mem} {o : Nat} {type : BitVec 8}

theorem length_flatMap_ofFn {n : Nat} (ps : List (Bytes n)) :
    (ps.flatMap List.ofFn).length = n * ps.length := by
  induction ps with
  | nil => rfl
  | cons p ps ih =>
      rw [List.flatMap_cons, List.length_append, ih, List.length_ofFn, List.length_cons,
        Nat.mul_succ, Nat.add_comm]

theorem length_suites (ss : List Suite) : (SecurityElement.suites ss).length = 2 + 4 * ss.length := by
  rw [SecurityElement.suites, List.length_append, length_flatMap_bytes]
  rfl

theorem length_capabilityBytes (e : ListedElement) :
    e.capabilityBytes.length = e.capability.elim 0 fun _ => 2 := by
  unfold capabilityBytes
  cases e.capability <;> simp

theorem length_pmkidBytes (e : ListedElement) :
    e.pmkidBytes.length = e.pmkids.elim 0 fun ps => 2 + 16 * ps.length := by
  unfold pmkidBytes
  cases e.pmkids with
  | none => rfl
  | some ps =>
      show (le16 ps.length ++ ps.flatMap List.ofFn).length = 2 + 16 * ps.length
      rw [List.length_append, length_flatMap_ofFn]
      rfl

theorem length_mgmtBytes (e : ListedElement) : e.mgmtBytes.length = e.mgmt.elim 0 fun _ => 4 := by
  unfold mgmtBytes
  cases e.mgmt <;> simp [Suite.length_bytes]

theorem length_rest (e : ListedElement) :
    e.rest.length = 2 + 4 * e.akms.length + (e.capabilityBytes.length +
      (e.pmkidBytes.length + e.mgmtBytes.length)) := by
  unfold rest
  rw [List.length_append, List.length_append, List.length_append, length_suites]

theorem length_body (e : ListedElement) :
    e.body.length = e.protocol.head.length + 6 + 4 * e.pairs.length + e.rest.length := by
  unfold body
  rw [List.length_append, List.length_append, List.length_append, length_suites,
    Suite.length_bytes]
  omega

theorem body_le (e : ListedElement) : e.body.length ≤ 255 := by
  have hfits := e.fits
  rw [length_body, length_rest, length_capabilityBytes, length_pmkidBytes, length_mgmtBytes]
  omega

/-- An answer with a count that fits a byte. -/
theorem gives_some {bs : List (BitVec 8)} {n : Nat} (hn : n < 256) (h : Spells m o bs) :
    Extracted.Gives m bs n (some o, BitVec.ofNat 8 n) := by
  refine ⟨?_, Or.inr ⟨o, rfl, h⟩⟩
  rw [BitVec.toNat_ofNat, Nat.mod_eq_of_lt hn]

theorem gives_nothing {bs : List (BitVec 8)} : Extracted.Gives m bs 0 nothing := ⟨rfl, Or.inl rfl⟩

/-- The PMKIDs. -/
theorem extractPmkids_run (type : BitVec 8)
    (h : Spells m o (e.pmkidBytes ++ e.mgmtBytes)) :
    (type ≠ pmkidList → (extractPmkids type o (e.pmkidBytes.length + e.mgmtBytes.length)).run m
        = nothing) ∧
      (type = pmkidList →
        ((extractPmkids type o (e.pmkidBytes.length + e.mgmtBytes.length)).run m).Gives m
          (e.encoded type).1 (e.encoded type).2) := by
  have hroom := e.body_le
  rw [length_body, length_rest] at hroom
  have hlen := e.length_pmkidBytes
  have hpmkid : e.encoded pmkidList
      = (e.pmkids.elim [] fun ps => ps.flatMap List.ofFn, e.pmkids.elim 0 List.length) := rfl
  cases hps : e.pmkids with
  | none =>
      have hmgmt : e.mgmtBytes.length = 0 := by
        rw [length_mgmtBytes, e.mgmt_after hps]
        rfl
      have hrun : (extractPmkids type o (e.pmkidBytes.length + e.mgmtBytes.length)).run m
          = nothing := by
        rw [hlen, hmgmt, hps]
        rfl
      refine ⟨fun _ => hrun, fun htype => ?_⟩
      rw [hrun, htype, hpmkid, hps]
      exact gives_nothing
  | some ps =>
      rw [hps] at hlen
      have hlen : e.pmkidBytes.length = 2 + 16 * ps.length := hlen
      have hbytes : e.pmkidBytes = le16 ps.length ++ ps.flatMap List.ofFn := by
        rw [pmkidBytes, hps]
        rfl
      rw [hbytes, spells_append, spells_append] at h
      have hcount : (word o).run m = ps.length := word_le16 h.1.1 (by omega)
      unfold extractPmkids
      rw [if_neg (by omega), Reads.run_bind, hcount]
      cases ps with
      | nil =>
          refine ⟨fun _ => rfl, fun htype => ?_⟩
          rw [htype, hpmkid, hps]
          exact gives_nothing
      | cons p ps =>
          rw [List.length_cons] at hlen
          rw [List.length_cons, if_pos (Nat.succ_pos _), if_neg (by omega)]
          constructor
          · intro htype
            rw [if_neg htype]
            rfl
          · intro htype
            have hn : (p :: ps).length < 256 := by
              rw [List.length_cons]
              omega
            rw [if_pos htype, htype, hpmkid, hps]
            exact gives_some hn h.1.2

/-- The capabilities and the PMKIDs. -/
theorem extractCapabilities_run (type : BitVec 8)
    (h : Spells m o (e.capabilityBytes ++ (e.pmkidBytes ++ e.mgmtBytes))) {len : Nat}
    (hlen : len = e.capabilityBytes.length + (e.pmkidBytes.length + e.mgmtBytes.length)) :
    (type ≠ rsnCapInfo → type ≠ pmkidList → (extractCapabilities type o len).run m = nothing) ∧
      (type = rsnCapInfo ∨ type = pmkidList →
        ((extractCapabilities type o len).run m).Gives m (e.encoded type).1
          (e.encoded type).2) := by
  have hcap : e.encoded rsnCapInfo = (e.capabilityBytes, e.capability.elim 0 fun _ => 1) := rfl
  have hpmkid : e.encoded pmkidList
      = (e.pmkids.elim [] fun ps => ps.flatMap List.ofFn, e.pmkids.elim 0 List.length) := rfl
  cases hc : e.capability with
  | none =>
      have hpmkids := e.pmkids_after hc
      have hzero : len = 0 := by
        rw [hlen, length_capabilityBytes, length_pmkidBytes, length_mgmtBytes, hc, hpmkids,
          e.mgmt_after hpmkids]
        rfl
      have hrun : (extractCapabilities type o len).run m = nothing := by
        rw [hzero]
        rfl
      refine ⟨fun _ _ => hrun, fun htype => ?_⟩
      rw [hrun]
      rcases htype with htype | htype
      · rw [htype, hcap, hc]
        exact gives_nothing
      · rw [htype, hpmkid, hpmkids]
        exact gives_nothing
  | some c =>
      have htwo : e.capabilityBytes.length = 2 := by
        rw [length_capabilityBytes, hc]
        rfl
      rw [spells_append, htwo] at h
      unfold extractCapabilities
      rw [if_neg (by omega)]
      by_cases htype : type = rsnCapInfo
      · refine ⟨fun hne => absurd htype hne, fun _ => ?_⟩
        rw [if_pos htype, htype, hcap, hc]
        exact gives_some (n := 1) (by decide) h.1
      · rw [if_neg htype, hlen, htwo, Nat.add_sub_cancel_left]
        have hrun := extractPmkids_run type h.2
        refine ⟨fun _ => hrun.1, fun hor => hrun.2 (hor.resolve_left htype)⟩

/-- The AKM suites and what follows them. -/
theorem extractAkms_run (type : BitVec 8) (h : Spells m o e.rest) :
    (6 ≤ e.rest.length →
        type = akmSuite ∨ (e.protocol = .rsn ∧ (type = rsnCapInfo ∨ type = pmkidList)) →
      ((extractAkms type (decide (e.protocol = .wpa)) o e.rest.length).run m).Gives m
        (e.encoded type).1 (e.encoded type).2) ∧
      (¬ (6 ≤ e.rest.length ∧
          (type = akmSuite ∨ (e.protocol = .rsn ∧ (type = rsnCapInfo ∨ type = pmkidList)))) →
        (extractAkms type (decide (e.protocol = .wpa)) o e.rest.length).run m = nothing) := by
  have hroom := e.body_le
  rw [length_body] at hroom
  have hlen := e.length_rest
  unfold extractAkms
  by_cases hshort : e.rest.length < 6
  · rw [if_pos hshort]
    exact ⟨fun h6 => absurd h6 (by omega), fun _ => rfl⟩
  have hspells := h
  unfold rest SecurityElement.suites at hspells
  rw [spells_append, spells_append] at hspells
  obtain ⟨⟨hcount, hakms⟩, hbehind⟩ := hspells
  have hword : (word o).run m = e.akms.length := word_le16 hcount (by omega)
  have hsuites : (le16 e.akms.length ++ e.akms.flatMap Suite.bytes).length
      = 2 + 4 * e.akms.length := length_suites e.akms
  rw [hsuites] at hbehind
  rw [if_neg hshort, Reads.run_bind, hword]
  dsimp only
  rw [if_neg (by omega)]
  by_cases hakm : type = akmSuite
  · rw [if_pos hakm]
    refine ⟨fun _ _ => ?_, fun hno => absurd ⟨Nat.not_lt.mp hshort, Or.inl hakm⟩ hno⟩
    rw [hakm, show e.encoded akmSuite = (e.akms.flatMap Suite.bytes, e.akms.length) from rfl]
    exact gives_some (by omega) hakms
  rw [if_neg hakm]
  have hcaps := extractCapabilities_run type hbehind
    (show e.rest.length - (2 + 4 * e.akms.length) = _ by omega)
  cases hp : e.protocol with
  | wpa =>
      rw [if_pos (show decide (Protocol.wpa = .wpa) = true from rfl)]
      refine ⟨fun _ hserved => ?_, fun _ => rfl⟩
      rcases hserved with hserved | hserved
      · exact absurd hserved hakm
      · exact absurd hserved.1 (by decide)
  | rsn =>
      rw [if_neg (show ¬ decide (Protocol.rsn = .wpa) = true by decide)]
      constructor
      · intro _ hserved
        rcases hserved with hserved | hserved
        · exact absurd hserved hakm
        · exact hcaps.2 hserved.2
      · intro hno
        have hother : ¬ (type = rsnCapInfo ∨ type = pmkidList) := by
          intro hor
          exact hno ⟨Nat.not_lt.mp hshort, Or.inr ⟨rfl, hor⟩⟩
        rw [not_or] at hother
        exact hcaps.1 hother.1 hother.2

/-- The ciphers and what follows them. -/
theorem extractCiphers_run (type : BitVec 8) (h : Spells m 0 e.bytes) :
    (e.Served type →
      ((extractCiphers type (decide (e.protocol = .wpa)) e.protocol.head.length
        e.body.length).run m).Gives m (e.encoded type).1 (e.encoded type).2) ∧
      (¬ e.Served type →
        (extractCiphers type (decide (e.protocol = .wpa)) e.protocol.head.length
          e.body.length).run m = nothing) := by
  have hroom := e.body_le
  have hlen := e.length_body
  unfold Served extractCiphers
  by_cases hshort : e.body.length < e.protocol.head.length + 10
  · rw [if_pos hshort]
    exact ⟨fun hserved => absurd hserved.1 (by omega), fun _ => rfl⟩
  have hspells := h
  unfold bytes body SecurityElement.suites at hspells
  rw [spells_cons, spells_cons] at hspells
  obtain ⟨-, -, hbody⟩ := hspells
  simp only [spells_append, Suite.length_bytes, List.length_append, length_flatMap_bytes] at hbody
  obtain ⟨-, hgroup, ⟨hcount, hpairs⟩, hrest⟩ := hbody
  have hle16 : ∀ n, (le16 n).length = 2 := fun _ => rfl
  rw [hle16] at hpairs hrest
  have hword : (word (2 + e.protocol.head.length + 4)).run m = e.pairs.length :=
    word_le16 (by simpa only [Nat.zero_add] using hcount) (by omega)
  rw [if_neg hshort, Reads.run_bind, hword]
  dsimp only
  rw [if_neg (by omega)]
  by_cases hg : type = groupSuite
  · rw [if_pos hg]
    refine ⟨fun _ => ?_, fun hno => absurd ⟨by omega, Or.inl hg⟩ hno⟩
    rw [show 0 + 1 + 1 + e.protocol.head.length = 2 + e.protocol.head.length by omega] at hgroup
    rw [hg]
    exact gives_some (n := 1) (by decide) hgroup
  rw [if_neg hg]
  by_cases hpw : type = pairwiseSuite
  · rw [if_pos hpw]
    refine ⟨fun _ => ?_, fun hno => absurd ⟨by omega, Or.inr (Or.inl hpw)⟩ hno⟩
    rw [hpw, show e.encoded pairwiseSuite = (e.pairs.flatMap Suite.bytes, e.pairs.length) from rfl]
    refine gives_some (by omega) ?_
    rwa [show 0 + 1 + 1 + e.protocol.head.length + 4 + 2 = 2 + e.protocol.head.length + 6 by omega]
      at hpairs
  rw [if_neg hpw]
  rw [show 0 + 1 + 1 + e.protocol.head.length + 4 + (2 + 4 * e.pairs.length)
    = 2 + (e.protocol.head.length + 6 + 4 * e.pairs.length) by omega] at hrest
  have hakms := extractAkms_run type hrest
  rw [show e.body.length - (e.protocol.head.length + 6 + 4 * e.pairs.length) = e.rest.length by
    omega]
  constructor
  · intro hserved
    obtain ⟨-, hserved⟩ := hserved
    rcases hserved with hserved | hserved | hserved
    · exact absurd hserved hg
    · exact absurd hserved hpw
    · exact hakms.1 hserved.1 hserved.2
  · intro hno
    refine hakms.2 fun hserved => hno ⟨by omega, Or.inr (Or.inr hserved)⟩

/-- What is returned for an element. -/
theorem extract_run (h : Spells m 0 e.bytes) {rsnie_len : BitVec 32}
    (hlen : rsnie_len.toNat = e.bytes.length) :
    (e.Served type →
      ((wpaExtractSuiteFromRsnie rsnie_len type).run m).Gives m (e.encoded type).1
        (e.encoded type).2) ∧
      (¬ e.Served type → (wpaExtractSuiteFromRsnie rsnie_len type).run m = nothing) := by
  have hroom := e.body_le
  have hbytes : e.bytes.length = e.body.length + 2 := rfl
  have hbody := e.length_body
  have hhead : 0 < e.protocol.head.length := by cases e.protocol <;> decide
  have hpos : (rsnie_len - 2).toInt = (e.body.length : Int) := by
    have hsub : (rsnie_len - 2).toNat = e.body.length := by
      rw [BitVec.toNat_sub]
      show (4294967296 - 2 + rsnie_len.toNat) % 4294967296 = _
      omega
    rw [BitVec.toInt_eq_toNat_of_lt (by omega), hsub]
  have heid : m 0 = e.protocol.eid := h.1
  have hl : (m 1).toNat = e.body.length := by
    rw [h.2.1, BitVec.toNat_ofNat]
    omega
  have hrun := extractCiphers_run type h
  have heq : (wpaExtractSuiteFromRsnie rsnie_len type).run m
      = (extractCiphers type (decide (e.protocol = .wpa)) e.protocol.head.length
          e.body.length).run m := by
    unfold wpaExtractSuiteFromRsnie
    dsimp only
    rw [hpos, if_neg (by omega), Reads.run_bind, run_cell, hl, if_neg (fun hne => hne rfl),
      Reads.run_bind, run_cell, heid]
    cases e.protocol <;> rfl
  rw [heq]
  exact hrun

/-- With an AKM suite, the types of an `RSN` element but its group management cipher are served, and
of a `WPA` element the suites. -/
theorem served_iff (h : e.akms ≠ []) :
    e.Served type ↔ type = groupSuite ∨ type = pairwiseSuite ∨ type = akmSuite ∨
      (e.protocol = .rsn ∧ (type = rsnCapInfo ∨ type = pmkidList)) := by
  have hsome : 0 < e.akms.length := List.length_pos_iff.mpr h
  have hlen := e.length_rest
  have hroom : 6 ≤ e.rest.length := by omega
  unfold Served
  simp only [hroom, true_and]
  exact and_iff_right (by omega)

/-- The answer for a type is what the element has of it. -/
def Answered (e : ListedElement) (type : BitVec 8) : Prop :=
  ∀ (m : Mem) (rsnie_len : BitVec 32), rsnie_len.toNat = e.bytes.length → Spells m 0 e.bytes →
    ((wpaExtractSuiteFromRsnie rsnie_len type).run m).Gives m (e.encoded type).1
      (e.encoded type).2

/-- Where something is encoded that is not served, the answer is not it. -/
theorem not_answered (hserved : ¬ e.Served type) (hsome : (e.encoded type).2 ≠ 0) :
    ¬ e.Answered type := by
  intro h
  have hroom := e.body_le
  have hbytes : e.bytes.length = e.body.length + 2 := rfl
  have hlen : (BitVec.ofNat 32 e.bytes.length).toNat = e.bytes.length := by
    rw [BitVec.toNat_ofNat]
    exact Nat.mod_eq_of_lt (by omega)
  have hspells := spells_store (fun _ => 0) 0 e.bytes
  have hgives := h _ _ hlen hspells
  rw [(extract_run hspells hlen).2 hserved] at hgives
  exact hsome hgives.1.symm

end ListedElement

/-- **Suites out of an element**: inside it, whatever the bytes, and of an element with lists what it
has of the types that are served. -/
theorem extractSuite_spec (m : Mem) (rsnie_len : BitVec 32) (type : BitVec 8) :
    ReadsIn (wpaExtractSuiteFromRsnie rsnie_len type) m rsnie_len.toNat ∧
      ((wpaExtractSuiteFromRsnie rsnie_len type).run m).Lies type rsnie_len.toNat ∧
      ∀ e : ListedElement, rsnie_len.toNat = e.bytes.length → Spells m 0 e.bytes →
        (e.Served type →
          ((wpaExtractSuiteFromRsnie rsnie_len type).run m).Gives m (e.encoded type).1
            (e.encoded type).2) ∧
          (¬ e.Served type → (wpaExtractSuiteFromRsnie rsnie_len type).run m = nothing) := by
  have hinside := extract_inside m rsnie_len type
  exact ⟨hinside.1, hinside.2, fun e hlen h => ListedElement.extract_run h hlen⟩

/-- An element with CCMP for both ciphers, capabilities, and maybe an AKM suite. -/
def smallElement (protocol : Protocol) (akms : List Suite) (h : akms.length ≤ 1) :
    ListedElement where
  protocol := protocol
  group := ⟨rsnSuite, 4⟩
  pairs := [⟨rsnSuite, 4⟩]
  akms := akms
  capability := some fun _ => 0
  pmkids := none
  mgmt := none
  pmkids_after := fun _ => rfl
  mgmt_after := fun _ => rfl
  wpa_ends := fun _ => rfl
  fits := by
    show protocol.head.length + 8 + 4 * 1 + 4 * akms.length + 2 + 0 + 0 ≤ 255
    have hhead : protocol.head.length ≤ 6 := by cases protocol <;> decide
    omega

/-- One with a group management cipher behind no PMKID. -/
def mgmtElement : ListedElement where
  protocol := .rsn
  group := ⟨rsnSuite, 4⟩
  pairs := [⟨rsnSuite, 4⟩]
  akms := [⟨rsnSuite, 2⟩]
  capability := some fun _ => 0
  pmkids := some []
  mgmt := some ⟨rsnSuite, 6⟩
  pmkids_after := nofun
  mgmt_after := nofun
  wpa_ends := nofun
  fits := by decide

theorem extractSuite_spec_small :
    ((wpaExtractSuiteFromRsnie 22 akmSuite).run
        (store (fun _ => 0) 0 (smallElement .rsn [⟨rsnSuite, 2⟩] (Nat.le_refl 1)).bytes)).Gives
      (store (fun _ => 0) 0 (smallElement .rsn [⟨rsnSuite, 2⟩] (Nat.le_refl 1)).bytes)
      (Suite.bytes ⟨rsnSuite, 2⟩) 1 :=
  ((extractSuite_spec _ 22 akmSuite).2.2 (smallElement .rsn [⟨rsnSuite, 2⟩] (Nat.le_refl 1)) rfl
    (spells_store _ _ _)).1 ⟨by decide, Or.inr (Or.inr ⟨by decide, Or.inl rfl⟩)⟩

/-- The capabilities of a `WPA` element, those behind an empty AKM list, and a group management
cipher are in the element and are not found. -/
theorem extractSuite_misses :
    ¬ (smallElement .wpa [⟨rsnSuite, 2⟩] (Nat.le_refl 1)).Answered rsnCapInfo ∧
      ¬ (smallElement .rsn [] (Nat.zero_le 1)).Answered rsnCapInfo ∧
      ¬ mgmtElement.Answered gMgmtSuite := by
  refine ⟨ListedElement.not_answered ?_ (by decide), ListedElement.not_answered ?_ (by decide),
    ListedElement.not_answered ?_ (by decide)⟩
  · rw [ListedElement.served_iff (by decide)]
    decide
  · intro h
    rcases h.2 with h | h | h
    · exact absurd h (by decide)
    · exact absurd h (by decide)
    · exact absurd h.1 (by decide)
  · rw [ListedElement.served_iff (by decide)]
    decide

end ExtDrv.Rt3370.Bss
