import Mathlib
import ExtDrv.Rt3370.SecurityElement

/-!
# The parse of a security element

`BssCipherParse` on the elements of an entry, of which one is of security: the fold over the
pairwise suites, the walk over the AKM suites, and from them when the parse is right.
-/

namespace ExtDrv.Rt3370.Bss

open Memory

/-! ## Runs on a memory -/

section Runs

variable {m : Mem} {o : Nat}

theorem word_run (m : Mem) (o : Nat) : (word o).run m = (m (o + 1)).toNat * 256 + (m o).toNat := rfl

/-- A number that was written is read. -/
theorem word_le16 {n : Nat} (h : Spells m o (le16 n)) (hn : n < 65536) : (word o).run m = n := by
  obtain ⟨hlo, hhi, -⟩ := h
  rw [word_run, hlo, hhi, BitVec.toNat_ofNat, BitVec.toNat_ofNat]
  omega

theorem word_number {bs : List (BitVec 8)} (h : Spells m o bs) (hbs : 2 ≤ bs.length) :
    (word o).run m = number bs := by
  cases bs with
  | nil => cases hbs
  | cons lo bs =>
      cases bs with
      | nil => exact absurd hbs (by simp)
      | cons hi bs =>
          obtain ⟨hlo, hhi, -⟩ := h
          rw [word_run, hlo, hhi, number]

theorem Suite.length_bytes (s : Suite) : s.bytes.length = 4 := by
  rw [Suite.bytes, List.length_append, List.length_ofFn, List.length_singleton]

/-- The bytes of a suite. -/
theorem Suite.spells {s : Suite} (h : Spells m o s.bytes) :
    [m o, m (o + 1), m (o + 2)] = List.ofFn s.OUI ∧ m (o + 3) = s.suiteType := by
  have hbytes : s.bytes = [s.OUI 0, s.OUI 1, s.OUI 2, s.suiteType] := rfl
  rw [hbytes] at h
  obtain ⟨h0, h1, h2, h3, -⟩ := h
  exact ⟨by rw [h0, h1, h2]; rfl, h3⟩

theorem length_flatMap_bytes (ss : List Suite) : (ss.flatMap Suite.bytes).length = 4 * ss.length := by
  induction ss with
  | nil => rfl
  | cons s ss ih =>
      rw [List.flatMap_cons, List.length_append, ih, Suite.length_bytes, List.length_cons]
      omega

theorem pairSuites_run {ss : List Suite} (h : Spells m o (ss.flatMap Suite.bytes))
    (suite : CipherSuite) :
    (pairSuites ss.length o suite).run m = (ss.map Suite.suiteType).foldl CipherSuite.pair suite := by
  induction ss generalizing o suite with
  | nil => rfl
  | cons s ss ih =>
      rw [List.flatMap_cons, spells_append, Suite.length_bytes] at h
      have htype := (Suite.spells h.1).2
      show (pairSuites ss.length (o + 4) (suite.pair (m (o + 3)))).run m = _
      rw [ih h.2, htype]
      rfl

end Runs

/-! ## The pairwise suites -/

local instance lawfulSuiteType : LawfulBEq (BitVec 8) := inferInstance

/-- The strongest cipher of the types. -/
def strongestType (ts : List (BitVec 8)) : WepStatus :=
  if 4#8 ∈ ts then .encryption3Enabled
  else if 2#8 ∈ ts then .encryption2Enabled
  else .encryptionDisabled

@[simp] theorem CipherSuite.pair_group (s : CipherSuite) (t : BitVec 8) :
    (s.pair t).GroupCipher = s.GroupCipher := by
  unfold CipherSuite.pair
  split <;> rfl

theorem CipherSuite.foldl_pair_group (ts : List (BitVec 8)) (s : CipherSuite) :
    (ts.foldl CipherSuite.pair s).GroupCipher = s.GroupCipher := by
  induction ts generalizing s with
  | nil => rfl
  | cons t ts ih => rw [List.foldl_cons, ih, CipherSuite.pair_group]

theorem CipherSuite.pair_cipher (s : CipherSuite) (t : BitVec 8) :
    (s.pair t).PairCipher
      = if cipherRank s.PairCipher < cipherRank (tmpCipher t) then tmpCipher t
        else s.PairCipher := by
  unfold CipherSuite.pair
  split <;> rfl

theorem CipherSuite.pair_aux (s : CipherSuite) (t : BitVec 8) :
    (s.pair t).PairCipherAux
      = if cipherRank s.PairCipher < cipherRank (tmpCipher t) then s.PairCipher
        else tmpCipher t := by
  unfold CipherSuite.pair
  split <;> rfl

/-- One more type: which cipher is the strongest, and which one is put aside. -/
theorem strongestType_append (ts : List (BitVec 8)) (t : BitVec 8) :
    (if cipherRank (strongestType ts) < cipherRank (tmpCipher t) then tmpCipher t
        else strongestType ts) = strongestType (ts ++ [t]) ∧
      (if cipherRank (strongestType ts) < cipherRank (tmpCipher t) then strongestType ts
        else tmpCipher t)
        = if t = 1#8 ∨ t = 5#8 then .encryption1Enabled
          else if t = 2#8 then
            if 4#8 ∈ ts ∨ 2#8 ∈ ts then .encryption2Enabled else .encryptionDisabled
          else if t = 4#8 then strongestType ts
          else .encryptionDisabled := by
  unfold strongestType
  by_cases h1 : t = 1#8 ∨ t = 5#8
  · rcases h1 with rfl | rfl <;> by_cases h4 : 4#8 ∈ ts <;> by_cases h2 : 2#8 ∈ ts <;>
      simp [h4, h2, tmpCipher, cipherRank]
  by_cases ht2 : t = 2#8
  · subst ht2
    by_cases h4 : 4#8 ∈ ts <;> by_cases h2 : 2#8 ∈ ts <;> simp [h4, h2, tmpCipher, cipherRank]
  by_cases ht4 : t = 4#8
  · subst ht4
    by_cases h4 : 4#8 ∈ ts <;> by_cases h2 : 2#8 ∈ ts <;> simp [h4, h2, tmpCipher, cipherRank]
  · have htmp : tmpCipher t = .encryptionDisabled := by
      simp [tmpCipher, h1, ht2, ht4]
    rw [htmp, if_neg h1, if_neg ht2, if_neg ht4]
    by_cases h4 : 4#8 ∈ ts <;> by_cases h2 : 2#8 ∈ ts <;>
      simp [h4, h2, cipherRank, Ne.symm ht2, Ne.symm ht4]

/-- **The strongest cipher is found**, in whatever order the suites stand. -/
theorem CipherSuite.foldl_pair_cipher (ts : List (BitVec 8)) {s : CipherSuite}
    (hs : s.PairCipher = .encryptionDisabled) :
    (ts.foldl CipherSuite.pair s).PairCipher = strongestType ts := by
  induction ts using List.reverseRecOn with
  | nil => exact hs
  | append_singleton ts t ih =>
      rw [List.foldl_append, List.foldl_cons, List.foldl_nil, CipherSuite.pair_cipher, ih,
        (strongestType_append _ _).1]

/-- What the last one leaves. -/
theorem CipherSuite.foldl_pair_aux (ts : List (BitVec 8)) (t : BitVec 8) {s : CipherSuite}
    (hs : s.PairCipher = .encryptionDisabled) :
    ((ts ++ [t]).foldl CipherSuite.pair s).PairCipherAux
      = if cipherRank (strongestType ts) < cipherRank (tmpCipher t) then strongestType ts
        else tmpCipher t := by
  rw [List.foldl_append, List.foldl_cons, List.foldl_nil, CipherSuite.pair_aux,
    CipherSuite.foldl_pair_cipher ts hs]

/-! ## The element in memory -/

namespace SecurityElement

variable {e : SecurityElement} {m : Mem} {o : Nat}

/-- Where the parts of an element at `o` stand, `h` being the length of the head. -/
structure Laid (e : SecurityElement) (m : Mem) (o h : Nat) : Prop where
  eid : m o = e.protocol.eid
  len : (m (o + 1)).toNat = e.body.length
  head : Spells m (o + 2) e.protocol.head
  group : Spells m (o + 2 + h) e.group.bytes
  pairCount : Spells m (o + 6 + h) (le16 e.pairs.length)
  pairs : Spells m (o + 8 + h) (e.pairs.flatMap Suite.bytes)
  akmCount : Spells m (o + 8 + h + 4 * e.pairs.length) (le16 e.akms.length)
  akms : Spells m (o + 10 + h + 4 * e.pairs.length) (e.akms.flatMap Suite.bytes)
  tail : Spells m (o + 10 + h + 4 * e.pairs.length + 4 * e.akms.length) e.tail

theorem length_body (e : SecurityElement) :
    e.body.length
      = e.protocol.head.length + 8 + 4 * e.pairs.length + 4 * e.akms.length + e.tail.length := by
  unfold body suites
  simp only [List.length_append, Suite.length_bytes, length_flatMap_bytes, le16, List.length_cons,
    List.length_nil]
  omega

theorem laid (h : Spells m o e.bytes) : e.Laid m o e.protocol.head.length := by
  have hfits := e.fits
  unfold bytes at h
  rw [spells_cons, spells_cons] at h
  obtain ⟨heid, hlen, hbody⟩ := h
  have hle16 : ∀ n, (le16 n).length = 2 := fun _ => rfl
  unfold body suites at hbody
  simp only [spells_append, Suite.length_bytes, List.length_append, hle16, length_flatMap_bytes]
    at hbody
  obtain ⟨hhead, hgroup, ⟨hpairCount, hpairs⟩, ⟨hakmCount, hakms⟩, htail⟩ := hbody
  constructor
  case eid => exact heid
  case len =>
    rw [hlen, BitVec.toNat_ofNat, length_body]
    omega
  case head => exact hhead
  case group => exact hgroup
  case pairCount =>
    rwa [show o + 1 + 1 + e.protocol.head.length + 4 = o + 6 + e.protocol.head.length by omega]
      at hpairCount
  case pairs =>
    rwa [show o + 1 + 1 + e.protocol.head.length + 4 + 2 = o + 8 + e.protocol.head.length by omega]
      at hpairs
  case akmCount =>
    rwa [show o + 1 + 1 + e.protocol.head.length + 4 + (2 + 4 * e.pairs.length)
      = o + 8 + e.protocol.head.length + 4 * e.pairs.length by omega] at hakmCount
  case akms =>
    rwa [show o + 1 + 1 + e.protocol.head.length + 4 + (2 + 4 * e.pairs.length) + 2
      = o + 10 + e.protocol.head.length + 4 * e.pairs.length by omega] at hakms
  case tail =>
    rwa [show o + 1 + 1 + e.protocol.head.length + 4 + (2 + 4 * e.pairs.length)
        + (2 + 4 * e.akms.length)
      = o + 10 + e.protocol.head.length + 4 * e.pairs.length + 4 * e.akms.length by omega] at htail

/-- The suite that the pairwise suites leave. -/
def paired (e : SecurityElement) (s : CipherSuite) : CipherSuite :=
  (e.pairs.map Suite.suiteType).foldl CipherSuite.pair (s.group e.group.suiteType)

/-- The parse of a `WPA` element; `t` stands where the first AKM suite has its type. -/
theorem parseWpa_run (hp : e.protocol = .wpa) (h : Spells m o e.bytes) (s : Security)
    {t : BitVec 8} (ht : m (o + 14 + 4 * e.pairs.length + 5) = t) :
    (parseWpa false o s).run m
      = (let s := ({ s with WPA := e.paired s.WPA }.wpaAuth t).wpaWepStatus false
        { s with WPA := s.WPA.mixed }) := by
  have hl := laid h
  have hfits := e.fits
  have hlen : e.protocol.head.length = 6 := by rw [hp]; rfl
  rw [hlen] at hl
  have hhead := hl.head
  rw [hp] at hhead
  obtain ⟨h2, h3, h4, h5, -⟩ := hhead
  have houi : (Reads.cells [o + 2, o + 3, o + 4, o + 5]).run m = wpaOui := by
    rw [Reads.run_cells]
    simp only [List.map_cons, List.map_nil]
    rw [h2, h3, h4, h5]
    rfl
  have hgroup : m (o + 11) = e.group.suiteType := (Suite.spells hl.group).2
  have hcount : (word (o + 12)).run m = e.pairs.length := word_le16 hl.pairCount (by omega)
  have hpairs := pairSuites_run hl.pairs (s.WPA.group e.group.suiteType)
  unfold parseWpa
  rw [Reads.run_bind, houi, if_neg (fun hne => hne rfl)]
  simp only [Reads.run_bind, Reads.run_pure, hcount]
  rw [show (Reads.cell (o + 11) : Parse (BitVec 8)).run m = m (o + 11) from rfl, hgroup,
    show (Reads.cell (o + 14 + 4 * e.pairs.length + 5) : Parse (BitVec 8)).run m = _ from ht,
    show o + 14 = o + 8 + 6 by omega, hpairs]
  rfl

/-- The parse of an `RSN` element with a group cipher that it knows. -/
theorem parseRsn_run (hp : e.protocol = .rsn) (h : Spells m o e.bytes) (s : Security)
    (hown : e.group.Own .rsn) {s' : Security} {o' : Nat}
    (hakms : (akmSuites e.akms.length (o + 12 + 4 * e.pairs.length)
      { s with WPA2 := e.paired s.WPA2 }).run m = (s', o')) :
    (parseRsn false o s).run m
      = (let s := s'.rsnWepStatus false
        { s with WPA2 := { s.WPA2 with RsnCapability := (word o').run m }.mixed }) := by
  have hl := laid h
  have hfits := e.fits
  have hlen : e.protocol.head.length = 2 := by rw [hp]; rfl
  rw [hlen] at hl
  have hhead := hl.head
  rw [hp] at hhead
  have hversion : (word (o + 2)).run m = 1 := word_le16 hhead (by decide)
  have hgroup := Suite.spells hl.group
  have houi : (Reads.cells [o + 4, o + 5, o + 6]).run m = rsnOui := by
    rw [Reads.run_cells]
    exact hgroup.1.trans hown
  have hcount : (word (o + 8)).run m = e.pairs.length := word_le16 hl.pairCount (by omega)
  have hakmCount : (word (o + 10 + 4 * e.pairs.length)).run m = e.akms.length :=
    word_le16 hl.akmCount (by omega)
  have hpairs := pairSuites_run hl.pairs (s.WPA2.group e.group.suiteType)
  unfold parseRsn
  rw [Reads.run_bind, hversion, if_neg (fun hne => hne rfl), Reads.run_bind, houi,
    if_neg (fun hne => hne rfl)]
  simp only [Reads.run_bind, Reads.run_pure, hcount, hakmCount]
  rw [show (Reads.cell (o + 7) : Parse (BitVec 8)).run m = _ from hgroup.2,
    show o + 10 = o + 8 + 2 by omega, hpairs]
  rw [show (e.pairs.map Suite.suiteType).foldl CipherSuite.pair (s.WPA2.group e.group.suiteType)
    = e.paired s.WPA2 from rfl, hakms]

/-- One with a group cipher that it does not know. -/
theorem parseRsn_foreign (hp : e.protocol = .rsn) (h : Spells m o e.bytes) (s : Security)
    (hown : ¬ e.group.Own .rsn) : (parseRsn false o s).run m = s := by
  have hl := laid h
  have hlen : e.protocol.head.length = 2 := by rw [hp]; rfl
  rw [hlen] at hl
  have hhead := hl.head
  rw [hp] at hhead
  have hversion : (word (o + 2)).run m = 1 := word_le16 hhead (by decide)
  have houi : (Reads.cells [o + 4, o + 5, o + 6]).run m ≠ rsnOui := by
    rw [Reads.run_cells]
    exact fun heq => hown ((Suite.spells hl.group).1.symm.trans heq)
  unfold parseRsn
  rw [Reads.run_bind, hversion, if_neg (fun hne => hne rfl), Reads.run_bind, if_pos houi]
  rfl

end SecurityElement

/-! ## The elements of an entry -/

section Elements

variable {m : Mem} {adhoc : Bool} {len o : Nat}

/-- Complete elements are parsed one after the other. -/
theorem parseElements_run (hw : Tlv.Whole m len o) (turns : Nat) (hturns : len - o ≤ turns)
    (s : Security × Bool) :
    (parseElements adhoc len turns o s).run m
      = (Tlv.offsets m len o).foldl (fun s o => (parseElement adhoc o s).run m) s := by
  induction hw generalizing turns s with
  | done =>
      have hend : Tlv.offsets m len len = [] := Tlv.offsets_of_gt (by unfold Tlv.after; omega)
      rw [hend]
      cases turns with
      | zero => rfl
      | succ turns => rw [parseElements, if_neg (Nat.lt_irrefl _)]; rfl
  | @element o hafter _ ih =>
      have hlt : o + 2 ≤ Tlv.after m o := Nat.le_add_right _ _
      cases turns with
      | zero => omega
      | succ turns =>
          rw [Tlv.offsets_of_le hafter, List.foldl_cons, ← ih turns (by omega)]
          rw [parseElements, if_pos (by omega), Reads.run_bind, Reads.run_bind]
          rfl

theorem parseElement_plain (h : SecurityElement.Plain m o) (s : Security × Bool) :
    ((parseElement adhoc o s).run m).1 = s.1 := by
  obtain ⟨hwpa, hrsn⟩ := h
  have heid : (Reads.cell o : Parse (BitVec 8)).run m = m o := rfl
  unfold parseElement
  rw [Reads.run_bind, heid, if_neg hrsn]
  by_cases hw : m o = ieWpa
  · have houi : (Reads.cells [o + 2, o + 3, o + 4, o + 5]).run m ≠ wpaOui := by
      rw [Reads.run_cells]
      exact fun h => hwpa ⟨hw, h⟩
    have hparse : (parseWpa adhoc o s.1).run m = s.1 := by
      unfold parseWpa
      rw [Reads.run_bind, if_pos houi]
      rfl
    rw [if_pos hw, Reads.run_bind, Reads.run_bind]
    split
    · rfl
    · rw [Reads.run_bind, hparse]
      rfl
  · rw [if_neg hw]
    rfl

theorem parseElement_rsn (h : m o = ieRsn) (s : Security × Bool) :
    ((parseElement adhoc o s).run m).1 = (parseRsn adhoc o s.1).run m := by
  have heid : (Reads.cell o : Parse (BitVec 8)).run m = m o := rfl
  unfold parseElement
  rw [Reads.run_bind, heid, if_neg (by rw [h]; decide), if_pos h, Reads.run_bind]
  rfl

theorem parseElement_wpa (h : m o = ieWpa) (houi : Spells m (o + 2) wpaOui) (s : Security × Bool) :
    ((parseElement adhoc o s).run m).1 = (parseWpa adhoc o s.1).run m := by
  have heid : (Reads.cell o : Parse (BitVec 8)).run m = m o := rfl
  obtain ⟨h2, h3, h4, -⟩ := houi
  have hses : (Reads.cells [o + 2, o + 3, o + 4]).run m ≠ sesOui := by
    rw [Reads.run_cells]
    simp only [List.map_cons, List.map_nil]
    rw [h2, h3]
    intro h
    exact absurd (List.cons.inj (List.cons.inj h).2).1 (by decide)
  unfold parseElement
  rw [Reads.run_bind, heid, if_pos h, Reads.run_bind, Reads.run_bind,
    if_neg (fun hboth => hses hboth.1), Reads.run_bind]
  rfl

/-- Of elements of which one is of security, that one decides. -/
theorem foldl_only (m : Mem) (adhoc : Bool) {os : List Nat} (hnodup : os.Nodup) (ho : o ∈ os)
    (hothers : ∀ i ∈ os, i ≠ o → SecurityElement.Plain m i) (s : Security × Bool) :
    ∃ ses, (os.foldl (fun s o => (parseElement adhoc o s).run m) s).1
      = ((parseElement adhoc o (s.1, ses)).run m).1 := by
  have hplain : ∀ (is : List Nat), (∀ i ∈ is, SecurityElement.Plain m i) → ∀ s,
      (is.foldl (fun s o => (parseElement adhoc o s).run m) s).1 = s.1 := by
    intro is
    induction is with
    | nil => exact fun _ _ => rfl
    | cons i is ih =>
        intro his s
        rw [List.foldl_cons, ih fun k hk => his k (List.mem_cons_of_mem _ hk)]
        exact parseElement_plain (his i List.mem_cons_self) s
  obtain ⟨before, behind, rfl⟩ := List.append_of_mem ho
  rw [List.nodup_append, List.nodup_cons] at hnodup
  obtain ⟨-, ⟨hbehind, -⟩, hbefore⟩ := hnodup
  obtain ⟨t, ht⟩ : ∃ t, t = before.foldl (fun s o => (parseElement adhoc o s).run m) s := ⟨_, rfl⟩
  have hfirst : t.1 = s.1 := by
    rw [ht]
    refine hplain before (fun i hi => hothers i (by simp [hi]) ?_) s
    exact hbefore i hi o List.mem_cons_self
  refine ⟨t.2, ?_⟩
  rw [List.foldl_append, List.foldl_cons, ← ht, ← hfirst]
  refine hplain behind (fun i hi => hothers i (by simp [hi]) ?_) _
  intro hio
  rw [hio] at hi
  exact hbehind hi

end Elements

namespace SecurityElement

variable {e : SecurityElement} {vie : Mem} {len o : Nat} {privacy : Bool}

/-- What the parse of the only security element makes of the entry. -/
theorem bssCipherParse_only (h : e.OnlyAt vie len o) :
    ((bssCipherParse privacy false len).run vie).1
      = match e.protocol with
        | .wpa => (parseWpa false o (.default privacy)).run vie
        | .rsn => (parseRsn false o (.default privacy)).run vie := by
  obtain ⟨ses, hses⟩ := foldl_only vie false (Tlv.nodup_offsets vie len 0) h.mem
    h.others (.default privacy, false)
  have hl := laid h.spells
  unfold bssCipherParse
  rw [parseElements_run h.whole len (by omega), hses]
  cases hp : e.protocol with
  | wpa =>
      have heid := hl.eid
      have hhead := hl.head
      rw [hp] at heid hhead
      exact parseElement_wpa heid ((spells_append _ _ _).mp hhead).1 _
  | rsn =>
      have heid := hl.eid
      rw [hp] at heid
      exact parseElement_rsn heid _

end SecurityElement

end ExtDrv.Rt3370.Bss
