import ExtDrv.Lib.Lines

/-!
# Profile parameters

`RTMPGetKeyParameter` and `RTMPGetKeyParameterWithOffset` (`cmm_profile.c`) look a key up in the text
of a profile. A string is the list of its bytes without the NUL, and a pointer into a string is what
is left of it from there; what is written to the working buffers and to the destination is counted.
-/

namespace ExtDrv.Rt3370.Profile

open Lines

abbrev Str := List (BitVec 8)

def tab : BitVec 8 := 0x09
def newline : BitVec 8 := 0x0a
def space : BitVec 8 := 0x20
def equals : BitVec 8 := 0x3d

/-- "Default". -/
def defaultName : Str := [0x44, 0x65, 0x66, 0x61, 0x75, 0x6c, 0x74]

/-- `MAX_INI_BUFFER_SIZE`. -/
def maxIniBufferSize : Nat := 4096

/-- `MAX_PARAM_BUFFER_SIZE`. -/
def maxParamBufferSize : Nat := 2048

inductive Buf
  | temp_buf1
  | temp_buf2
  | dest

def Buf.size (destsize : Nat) : Buf → Nat
  | .temp_buf1 => maxParamBufferSize
  | .temp_buf2 => maxParamBufferSize
  | .dest => destsize

/-- The first `count` bytes of a buffer are written. -/
structure Write where
  buf : Buf
  count : Nat

def Write.Inside (destsize : Nat) (w : Write) : Prop := w.count ≤ w.buf.size destsize

/-- What a lookup returns, what the destination holds then, and what was written. -/
structure Got where
  found : Bool
  dest : Str
  writes : List Write

/-! ## The routines -/

/-- The loop of `rtstrstr`; `l1` is the length of what is left. -/
def rtstrstrFrom (s2 : Str) : Str → Option Str
  | [] => none
  | c :: s1 =>
      if (c :: s1).length < s2.length then none
      else if (c :: s1).take s2.length = s2 then some (c :: s1)
      else rtstrstrFrom s2 s1

def rtstrstr (s1 s2 : Str) : Option Str := if s2.length = 0 then some s1 else rtstrstrFrom s2 s1

/-- `RTMPFindSection`; the pointer is moved on by the length of "\n". -/
def rtmpFindSection (buffer : Str) : Option Str := (rtstrstr buffer defaultName).map fun ptr => ptr.drop 1

/-- What is looked for. -/
def pattern (key : Str) : Str := newline :: (key ++ [equals])

/-- The line with the key and the end of it, from `offset` on. -/
def seekKey (key offset : Str) : Option (Str × Str) :=
  (rtstrstr offset (pattern key)).map fun start_ptr =>
    let start_ptr := start_ptr.drop 1
    let end_ptr := (rtstrstr start_ptr [newline]).getD []
    (start_ptr.take (start_ptr.length - end_ptr.length), end_ptr)

/-- Tabs in front, and spaces with `bTrimSpace`, are passed over. -/
def trim (bTrimSpace : Bool) (ptr : Str) : Str :=
  ptr.dropWhile fun c => (bTrimSpace && decide (c = space)) || decide (c = tab)

/-- `strncpy`. -/
def strncpy (dest src : Str) (n : Nat) : Str :=
  (src ++ List.replicate n 0).take n ++ dest.drop n

/-- The destination is zeroed and the string copied, at most as far as it reaches. -/
def copyOut (destsize : Nat) (ptr : Str) (len : Nat) : Str :=
  strncpy (List.replicate destsize 0) ptr (if destsize ≤ len then destsize else len)

/-- `RTMPGetKeyParameter`. `memory` says whether `os_alloc_mem` gives the working buffers. -/
def rtmpGetKeyParameter (memory : Bool) (key dest : Str) (destsize : Nat) (buffer : Str)
    (bTrimSpace : Bool) : Got :=
  if memory = false then ⟨false, dest, []⟩
  else
    let writes := [⟨.temp_buf1, maxParamBufferSize⟩, ⟨.temp_buf2, maxParamBufferSize⟩]
    match rtmpFindSection buffer with
    | none => ⟨false, dest, writes⟩
    | some offset =>
      let writes := writes ++ [⟨.temp_buf1, (pattern key).length + 1⟩]
      match seekKey key offset with
      | none => ⟨false, dest, writes⟩
      | some (temp_buf2, _) =>
        let writes := writes ++ [⟨.temp_buf2, temp_buf2.length + 1⟩]
        match rtstrstr temp_buf2 [equals] with
        | none => ⟨false, dest, writes⟩
        | some start_ptr =>
          let ptr := trim bTrimSpace (start_ptr.drop 1)
          -- the length is that from the `=` on
          ⟨true, copyOut destsize ptr start_ptr.length, writes ++ [⟨.dest, destsize⟩]⟩

/-- Where the search begins: in the section, or where the line before ended. -/
def offsetFrom (buffer : Str) (end_offset : BitVec 16) : Option Str :=
  if end_offset = 0 then rtmpFindSection buffer else some (buffer.drop end_offset.toNat)

/-- `RTMPGetKeyParameterWithOffset`, with the new `end_offset`. -/
def rtmpGetKeyParameterWithOffset (memory : Bool) (key dest : Str) (end_offset : BitVec 16)
    (destsize : Nat) (buffer : Str) (bTrimSpace : Bool) : Got × BitVec 16 :=
  if maxIniBufferSize ≤ end_offset.toNat then (⟨false, dest, []⟩, end_offset)
  else if memory = false then (⟨false, dest, []⟩, end_offset)
  else
    match offsetFrom buffer end_offset with
    | none => (⟨false, dest, []⟩, end_offset)
    | some offset =>
      let writes := [⟨.temp_buf1, (pattern key).length + 1⟩]
      match seekKey key offset with
      | none => (⟨false, dest, writes⟩, end_offset)
      | some (temp_buf2, end_ptr) =>
        let end_offset := BitVec.ofNat 16 (buffer.length - end_ptr.length)
        let writes := writes ++
          [⟨.temp_buf2, temp_buf2.length + 1⟩, ⟨.temp_buf1, temp_buf2.length + 1⟩]
        match rtstrstr temp_buf2 [equals] with
        | none => (⟨false, dest, writes⟩, end_offset)
        | some start_ptr =>
          let temp_buf2 := start_ptr.drop 1
          let ptr := trim bTrimSpace temp_buf2
          (⟨true, copyOut destsize ptr ptr.length,
            writes ++ [⟨.temp_buf2, temp_buf2.length + 1⟩, ⟨.dest, destsize⟩]⟩, end_offset)

/-! ## What is wanted -/

/-- The values of the lines `key=value` behind the first "Default", in their order. -/
def values (text key : Str) : List Str :=
  match find defaultName text with
  | none => []
  | some rest => (linesWith newline (key ++ [equals]) rest).map fun l => l.drop (key.length + 1)

/-- The destination holds the string, cut off so that a NUL fits behind it. -/
def Holds (dest v : Str) (destsize : Nat) : Prop :=
  dest.length = destsize ∧ v.take (destsize - 1) ++ [0] <+: dest

/-- A lookup that is to find `v`, if anything. -/
structure Finds (v : Option Str) (destsize : Nat) (bTrimSpace : Bool) (r : Got) : Prop where
  found : r.found = true ↔ v.isSome
  dest : ∀ s, v = some s → Holds r.dest (trim bTrimSpace s) destsize
  inside : ∀ w ∈ r.writes, w.Inside destsize

/-- `end_offset` before call number `n` of a series that begins with zero. -/
def endOffset (key dest : Str) (destsize : Nat) (buffer : Str) (bTrimSpace : Bool) : Nat → BitVec 16
  | 0 => 0
  | n + 1 => (rtmpGetKeyParameterWithOffset true key dest
      (endOffset key dest destsize buffer bTrimSpace n) destsize buffer bTrimSpace).2

/-- The one routine finds the first value, the series of calls of the other one all of them. -/
structure LooksUp (text key dest : Str) (destsize : Nat) (bTrimSpace : Bool) : Prop where
  first : Finds (values text key).head? destsize bTrimSpace
    (rtmpGetKeyParameter true key dest destsize text bTrimSpace)
  all : ∀ n, Finds (values text key)[n]? destsize bTrimSpace
    (rtmpGetKeyParameterWithOffset true key dest (endOffset key dest destsize text bTrimSpace n)
      destsize text bTrimSpace).1

local instance lawfulLetter : LawfulBEq (BitVec 8) := inferInstance

/-- What the routines can cope with: a text without the section, or a key that fits into a working
buffer and is not found; a key with a newline in it, but no `=` in front of it; a key without either,
and lines and values that fit. -/
def Copes (text key : Str) (destsize : Nat) (bTrimSpace : Bool) : Prop :=
  ∀ rest, find defaultName text = some rest →
    key.length ≤ 2045 ∧ (pattern key <:+: rest →
      if newline ∈ key then equals ∉ line newline key
      else equals ∉ key ∧ ∀ v ∈ values text key,
        key.length + 1 + v.length ≤ 2047 ∧ (trim bTrimSpace v).length < destsize)

/-! ## Searches -/

variable {key text o : Str} {destsize : Nat} {bTrimSpace : Bool}

theorem rtstrstrFrom_eq {s2 : Str} (hs2 : s2 ≠ []) (s1 : Str) : rtstrstrFrom s2 s1 = find s2 s1 := by
  induction s1 with
  | nil => simp [rtstrstrFrom, find, hs2]
  | cons c s1 ih =>
    rw [rtstrstrFrom, find, ih]
    by_cases hlen : (c :: s1).length < s2.length
    · have hshort (s : Str) (hs : s.length < s2.length) : ¬ s2 <:+: s :=
        fun h => absurd h.length_le (Nat.not_le.mpr hs)
      rw [if_pos hlen, if_neg fun h => hshort _ hlen h.isInfix]
      exact (find_eq_none.mpr (hshort s1 (Nat.lt_of_succ_lt hlen))).symm
    · rw [if_neg hlen]
      refine if_congr ?_ rfl rfl
      rw [List.prefix_iff_eq_take, eq_comm]

theorem rtstrstr_eq (s1 s2 : Str) : rtstrstr s1 s2 = find s2 s1 := by
  by_cases hs2 : s2 = []
  · rw [hs2, find_of_prefix (List.nil_prefix)]
    rfl
  · rw [rtstrstr, if_neg (by simpa using hs2), rtstrstrFrom_eq hs2]

theorem seekKey_eq (key o : Str) : seekKey key o
    = (find (pattern key) o).map fun t => (line newline (t.drop 1), behind newline (t.drop 1)) := by
  simp only [seekKey, rtstrstr_eq, find_end, take_line]

theorem newline_notMem (hkey : newline ∉ key) : newline ∉ key ++ [equals] := by
  rw [List.mem_append, List.mem_singleton, not_or]
  exact ⟨hkey, by decide⟩

/-- The section begins with a letter. -/
theorem rtmpFindSection_eq_some (key : Str) {rest : Str} (h : find defaultName text = some rest) :
    ∃ o, rtmpFindSection text = some o ∧ o <:+ text ∧ find (pattern key) o = find (pattern key) rest ∧
      linesBehind newline o = linesBehind newline rest := by
  obtain ⟨⟨r, rfl⟩, hsuffix⟩ := find_eq_some h
  refine ⟨_, by rw [rtmpFindSection, rtstrstr_eq, h]; rfl, (List.drop_suffix 1 _).trans hsuffix, ?_, ?_⟩
  · exact (find_line_cons (by decide) _ _).symm
  · rfl

/-- **The line that is found** begins with the key, and the other ones are behind its end. -/
theorem seekKey_eq_some (hkey : newline ∉ key) {l e : Str} (h : seekKey key o = some (l, e)) :
    ∃ v, l = key ++ equals :: v ∧ e <:+ o ∧ e.length < o.length ∧
      linesWith newline (key ++ [equals]) o = l :: linesWith newline (key ++ [equals]) e := by
  rw [seekKey_eq] at h
  obtain ⟨t, ht, hle⟩ := Option.map_eq_some_iff.mp h
  have hp := newline_notMem hkey
  obtain ⟨u, rfl, hu, hlines⟩ := find_line_eq_some hp ht
  obtain ⟨rfl, rfl⟩ := Prod.mk.inj hle
  obtain ⟨v, hv⟩ := (prefix_line hp).mpr hu
  have hsuffix : newline :: u <:+ o := (find_eq_some ht).2
  have hbehind : behind newline u <:+ u := List.dropWhile_suffix _
  refine ⟨v, ?_, hbehind.trans ((List.suffix_cons _ u).trans hsuffix), ?_, ?_⟩
  · rw [List.drop_one, List.tail_cons, ← hv, List.append_assoc]
    rfl
  · exact (Nat.lt_succ_of_le hbehind.length_le).trans_le hsuffix.length_le
  · rw [hlines, linesWith, linesWith, List.drop_one, List.tail_cons, linesBehind_behind]

theorem seekKey_eq_none (hkey : newline ∉ key) :
    seekKey key o = none ↔ linesWith newline (key ++ [equals]) o = [] := by
  rw [seekKey_eq, Option.map_eq_none_iff]
  exact find_line_eq_none (newline_notMem hkey)

/-! ## The destination -/

theorem take_padded {w : Str} {n k : Nat} (hw : w.length ≤ n) (hn : n ≤ w.length + k) :
    (w ++ List.replicate k 0).take n = w ++ List.replicate (n - w.length) (0 : BitVec 8) := by
  rw [List.take_append, List.take_of_length_le hw, List.take_replicate, Nat.min_eq_left (by omega)]

/-- As much of the string as fits, and zeros. -/
theorem copyOut_eq {w : Str} {len : Nat} (hlen : w.length ≤ len) :
    copyOut destsize w len = (w ++ List.replicate destsize 0).take destsize := by
  rw [copyOut, strncpy, List.drop_replicate]
  split
  · rw [Nat.sub_self, List.replicate_zero, List.append_nil]
  · rw [take_padded hlen (Nat.le_add_left _ _), take_padded (by omega) (Nat.le_add_left _ _),
      List.append_assoc, List.replicate_append_replicate]
    congr 2
    omega

/-- **A string is held** if it is the one that was copied, and leaves room for the NUL. -/
theorem holds_iff {w v : Str} (hw : 0 ∉ w) (hv : 0 ∉ v) :
    Holds ((w ++ List.replicate destsize 0).take destsize) v destsize
      ↔ w.length < destsize ∧ w = v.take (destsize - 1) := by
  have hcut : 0 ∉ v.take (destsize - 1) := fun h => hv (List.mem_of_mem_take h)
  constructor
  · rintro ⟨-, r, hr⟩
    rw [List.append_assoc, List.singleton_append] at hr
    have hlen : (v.take (destsize - 1)).length ≤ destsize - 1 := List.length_take_le ..
    by_cases hfit : w.length < destsize
    · -- both sides are read up to the first zero
      obtain ⟨k, hk⟩ : ∃ k, destsize - w.length = k + 1 := ⟨destsize - w.length - 1, by omega⟩
      have hzeros : (w ++ List.replicate destsize 0).take destsize
          = w ++ 0 :: List.replicate k (0 : BitVec 8) := by
        rw [take_padded hfit.le (Nat.le_add_left _ _), hk, List.replicate_succ]
      have hline := congrArg (line 0) (hr.trans hzeros)
      rw [line_append_cons hcut, line_append_cons hw] at hline
      exact ⟨hfit, hline.symm⟩
    · have hfull : (w ++ List.replicate destsize 0).take destsize = w.take destsize :=
        List.take_append_of_le_length (Nat.not_lt.mp hfit)
      have hzero : (0 : BitVec 8) ∈ w.take destsize := by
        rw [← hfull, ← hr]
        simp
      exact absurd (List.mem_of_mem_take hzero) hw
  · rintro ⟨hfit, rfl⟩
    obtain ⟨k, hk⟩ : ∃ k, destsize - (v.take (destsize - 1)).length = k + 1 :=
      ⟨destsize - (v.take (destsize - 1)).length - 1, by omega⟩
    refine ⟨by simp, List.replicate k 0, ?_⟩
    rw [take_padded hfit.le (Nat.le_add_left _ _), hk, List.replicate_succ, List.append_assoc]
    rfl

/-- A copied string is held, whole, exactly if it fits. -/
theorem holds_self_iff {v : Str} (hv : 0 ∉ v) :
    Holds ((v ++ List.replicate destsize 0).take destsize) v destsize ↔ v.length < destsize := by
  rw [holds_iff hv hv, and_iff_left_iff_imp]
  intro hfit
  rw [List.take_of_length_le (by omega)]

/-! ## One lookup -/

theorem rtstrstr_equals {v : Str} (hkey : equals ∉ key) :
    rtstrstr (key ++ equals :: v) [equals] = some (equals :: v) := by
  rw [rtstrstr_eq, find_singleton hkey]

/-- A lookup that finds nothing. -/
structure Misses (key : Str) (destsize : Nat) (r : Got) : Prop where
  found : r.found = false
  inside : key.length ≤ 2045 → ∀ w ∈ r.writes, w.Inside destsize

/-- A lookup that takes `v` from the line `l`. -/
structure Takes (key : Str) (destsize : Nat) (bTrimSpace : Bool) (l v : Str) (r : Got) : Prop where
  found : r.found = true
  dest : r.dest = (trim bTrimSpace v ++ List.replicate destsize 0).take destsize
  line : ⟨.temp_buf2, l.length + 1⟩ ∈ r.writes
  inside : key.length ≤ 2045 → l.length ≤ 2047 → ∀ w ∈ r.writes, w.Inside destsize

/-- **What either routine does** where it begins its search at `o`. -/
structure Does (key o : Str) (destsize : Nat) (bTrimSpace : Bool) (r : Got) : Prop where
  searched : ⟨.temp_buf1, (pattern key).length + 1⟩ ∈ r.writes
  noLine : seekKey key o = none → Misses key destsize r
  noEquals : ∀ l e, seekKey key o = some (l, e) → rtstrstr l [equals] = none →
    l.length ≤ 2047 → Misses key destsize r
  takes : ∀ l e v, seekKey key o = some (l, e) → rtstrstr l [equals] = some (equals :: v) →
    Takes key destsize bTrimSpace l v r

theorem length_pattern (key : Str) : (pattern key).length = key.length + 2 := by
  simp [pattern]

theorem length_trim_le (bTrimSpace : Bool) (v : Str) : (trim bTrimSpace v).length ≤ v.length :=
  (List.dropWhile_suffix _).length_le

theorem length_of_rtstrstr {l v : Str} (h : rtstrstr l [equals] = some (equals :: v)) :
    v.length + 1 ≤ l.length := by
  rw [rtstrstr_eq] at h
  exact (find_eq_some h).2.length_le

variable {dest : Str} {off : BitVec 16}

theorem rtmpGetKeyParameter_does (key dest : Str) (destsize : Nat) (bTrimSpace : Bool)
    (hsection : rtmpFindSection text = some o) :
    Does key o destsize bTrimSpace
      (rtmpGetKeyParameter true key dest destsize text bTrimSpace) := by
  rw [rtmpGetKeyParameter, if_neg nofun, hsection]
  dsimp only
  constructor
  · split
    · simp
    · split <;> simp
  · intro hseek
    rw [hseek]
    refine ⟨rfl, fun hkey => ?_⟩
    simp [Write.Inside, Buf.size, maxParamBufferSize, length_pattern]
    omega
  · intro l e hseek hequals hl
    simp only [hseek, hequals]
    refine ⟨rfl, fun hkey => ?_⟩
    simp [Write.Inside, Buf.size, maxParamBufferSize, length_pattern]
    omega
  · intro l e v hseek hequals
    simp only [hseek, hequals]
    refine ⟨rfl, copyOut_eq ?_, by simp, fun hkey hl => ?_⟩
    · exact (length_trim_le bTrimSpace v).trans (Nat.le_succ _)
    · simp [Write.Inside, Buf.size, maxParamBufferSize, length_pattern]
      omega

theorem withOffset_does (key dest : Str) (destsize : Nat) (bTrimSpace : Bool)
    (hoff : off.toNat < maxIniBufferSize) (hfrom : offsetFrom text off = some o) :
    Does key o destsize bTrimSpace
      (rtmpGetKeyParameterWithOffset true key dest off destsize text bTrimSpace).1 := by
  rw [rtmpGetKeyParameterWithOffset, if_neg (Nat.not_le.mpr hoff), if_neg nofun, hfrom]
  dsimp only
  constructor
  · split
    · simp
    · split <;> simp
  · intro hseek
    rw [hseek]
    refine ⟨rfl, fun hkey => ?_⟩
    simp [Write.Inside, Buf.size, maxParamBufferSize, length_pattern]
    omega
  · intro l e hseek hequals hl
    simp only [hseek, hequals]
    refine ⟨rfl, fun hkey => ?_⟩
    simp [Write.Inside, Buf.size, maxParamBufferSize, length_pattern]
    omega
  · intro l e v hseek hequals
    have hv := length_of_rtstrstr hequals
    simp only [hseek, hequals]
    refine ⟨rfl, copyOut_eq (Nat.le_refl _), by simp, fun hkey hl => ?_⟩
    simp [Write.Inside, Buf.size, maxParamBufferSize, length_pattern]
    omega

/-- An `=` in the key is taken for the one behind it, and the value comes out longer. -/
theorem length_lt_trim (bTrimSpace : Bool) (s v : Str) :
    v.length < (trim bTrimSpace (s ++ equals :: v)).length := by
  have hequals : (equals :: v).dropWhile (fun c =>
      (bTrimSpace && decide (c = space)) || decide (c = tab)) = equals :: v :=
    List.dropWhile_cons_of_neg (by simp [equals, space, tab])
  have hsuffix : equals :: v <:+ trim bTrimSpace (s ++ equals :: v) := by
    rw [trim, List.dropWhile_append]
    split
    · rw [hequals]
    · exact List.suffix_append ..
  exact hsuffix.length_le

theorem zero_notMem_trim {v : Str} (h : 0 ∉ v) : 0 ∉ trim bTrimSpace v :=
  fun hin => h ((List.dropWhile_suffix _).subset hin)

/-- **Exactly when a lookup is right**: the value of the first line with the key is what is to be
found. -/
theorem Does.finds_iff {r : Got} (h : Does key o destsize bTrimSpace r) (hkey : newline ∉ key)
    (hzero : 0 ∉ o) :
    Finds ((linesWith newline (key ++ [equals]) o).head?.map fun l => l.drop (key.length + 1))
        destsize bTrimSpace r
      ↔ key.length ≤ 2045 ∧ ∀ l, (linesWith newline (key ++ [equals]) o).head? = some l →
          equals ∉ key ∧ l.length ≤ 2047 ∧
            (trim bTrimSpace (l.drop (key.length + 1))).length < destsize := by
  have hlen (v : Option Str) (hfinds : Finds v destsize bTrimSpace r) : key.length ≤ 2045 := by
    have hin : (pattern key).length + 1 ≤ 2048 := hfinds.inside _ h.searched
    rw [length_pattern] at hin
    omega
  cases hseek : seekKey key o with
  | none =>
    have hmiss := h.noLine hseek
    rw [(seekKey_eq_none hkey).mp hseek]
    constructor
    · exact fun hfinds => ⟨hlen _ hfinds, nofun⟩
    · rintro ⟨hle, -⟩
      exact ⟨by simp [hmiss.found], nofun, hmiss.inside hle⟩
  | some le =>
    obtain ⟨l, e⟩ := le
    obtain ⟨v, rfl, -, -, hlines⟩ := seekKey_eq_some hkey hseek
    have hdrop : (key ++ equals :: v).drop (key.length + 1) = v := by
      rw [List.drop_append]
      simp
    have hline : 0 ∉ key ++ equals :: v := fun hin => by
      have hmem : key ++ equals :: v ∈ linesBehind newline o :=
        List.mem_of_mem_filter (hlines ▸ List.mem_cons_self)
      exact hzero (mem_of_mem_linesBehind hmem hin)
    have hv : 0 ∉ v := fun hin => hline (List.mem_append_right _ (List.mem_cons_of_mem _ hin))
    rw [hlines, List.head?_cons, Option.map_some, hdrop]
    by_cases hequals : equals ∈ key
    · refine iff_of_false (fun hfinds => ?_) fun hall => (hall.2 _ rfl).1 hequals
      -- the value begins within the key
      obtain ⟨k₁, k₂, rfl, hk₁⟩ := List.eq_append_cons_of_mem hequals
      have hcut : rtstrstr (k₁ ++ equals :: k₂ ++ equals :: v) [equals]
          = some (equals :: (k₂ ++ equals :: v)) := by
        rw [List.append_assoc, List.cons_append, rtstrstr_equals hk₁]
      have htakes := h.takes _ e _ hseek hcut
      have hvalue : 0 ∉ k₂ ++ equals :: v := fun hin => hline (by
        rw [List.append_assoc, List.cons_append]
        exact List.mem_append_right _ (List.mem_cons_of_mem _ hin))
      have hholds := hfinds.dest v rfl
      rw [htakes.dest, holds_iff (zero_notMem_trim hvalue) (zero_notMem_trim hv)] at hholds
      have hlonger := length_lt_trim bTrimSpace k₂ v
      rw [hholds.2] at hlonger
      have hcutle : ((trim bTrimSpace v).take (destsize - 1)).length ≤ v.length :=
        (List.take_prefix _ _).length_le.trans (length_trim_le bTrimSpace v)
      omega
    · have htakes := h.takes _ e v hseek (rtstrstr_equals hequals)
      constructor
      · intro hfinds
        have hholds := hfinds.dest v rfl
        rw [htakes.dest, holds_self_iff (zero_notMem_trim hv)] at hholds
        have hin : (key ++ equals :: v).length + 1 ≤ 2048 := hfinds.inside _ htakes.line
        refine ⟨hlen _ hfinds, fun l hl => ?_⟩
        obtain rfl := Option.some.inj hl
        exact ⟨hequals, by omega, hdrop.symm ▸ hholds⟩
      · rintro ⟨hle, hall⟩
        obtain ⟨-, hline, hfit⟩ := hall _ rfl
        rw [hdrop] at hfit
        refine ⟨by simp [htakes.found], fun s hs => ?_, htakes.inside hle hline⟩
        obtain rfl := Option.some.inj hs
        rw [htakes.dest, holds_self_iff (zero_notMem_trim hv)]
        exact hfit

/-! ## A series of lookups -/

variable {rest : Str} {n : Nat}

/-- The search of call number `n` begins at `o`, behind which the lines from number `n` on are. -/
structure At (text key rest : Str) (n : Nat) (off : BitVec 16) (o : Str) : Prop where
  from_ : offsetFrom text off = some o
  lines : linesWith newline (key ++ [equals]) o
    = (linesWith newline (key ++ [equals]) rest).drop n
  suffix : o <:+ text

/-- A search that begins at the very end finds no line. -/
theorem At.lines_of_le (h : At text key rest n off o) (htext : text.length ≤ maxIniBufferSize)
    (hoff : maxIniBufferSize ≤ off.toNat) : linesWith newline (key ++ [equals]) o = [] := by
  have hne : off ≠ 0 := by
    rintro rfl
    exact absurd hoff (by decide)
  have hfrom := h.from_
  rw [offsetFrom, if_neg hne, List.drop_of_length_le (htext.trans hoff)] at hfrom
  rw [← Option.some.inj hfrom]
  rfl

/-- What is left of the lines after a call. -/
theorem At.next (h : At text key rest n off o) (hkey : newline ∉ key)
    (htext : text.length ≤ maxIniBufferSize) :
    ∃ o', At text key rest (n + 1)
      (rtmpGetKeyParameterWithOffset true key dest off destsize text bTrimSpace).2 o' := by
  have hstay (hnone : linesWith newline (key ++ [equals]) o = []) :
      At text key rest (n + 1) off o := by
    refine ⟨h.from_, ?_, h.suffix⟩
    rw [hnone, ← List.drop_drop, ← h.lines, hnone]
    rfl
  rw [rtmpGetKeyParameterWithOffset]
  by_cases hoff : maxIniBufferSize ≤ off.toNat
  · rw [if_pos hoff]
    exact ⟨o, hstay (h.lines_of_le htext hoff)⟩
  · rw [if_neg hoff, if_neg nofun, h.from_]
    dsimp only
    cases hseek : seekKey key o with
    | none => exact ⟨o, hstay ((seekKey_eq_none hkey).mp hseek)⟩
    | some le =>
      obtain ⟨l, e⟩ := le
      obtain ⟨v, -, hsuffix, hlt, hlines⟩ := seekKey_eq_some hkey hseek
      have hin := hsuffix.trans h.suffix
      have hle := h.suffix.length_le
      have hnat : (BitVec.ofNat 16 (text.length - e.length)).toNat = text.length - e.length := by
        rw [BitVec.toNat_ofNat]
        refine Nat.mod_eq_of_lt ?_
        unfold maxIniBufferSize at htext
        omega
      have hne : BitVec.ofNat 16 (text.length - e.length) ≠ 0 := by
        intro hzero
        rw [hzero] at hnat
        have hnat : 0 = text.length - e.length := hnat
        omega
      have hat : At text key rest (n + 1) (BitVec.ofNat 16 (text.length - e.length)) e := by
        refine ⟨?_, ?_, hin⟩
        · rw [offsetFrom, if_neg hne, hnat]
          exact congrArg some (List.suffix_iff_eq_drop.mp hin).symm
        · rw [← List.drop_drop, ← h.lines, hlines]
          rfl
      refine ⟨e, ?_⟩
      dsimp only
      split <;> exact hat

/-- **The series of calls** goes through the lines. -/
theorem at_endOffset (dest : Str) (destsize : Nat) (bTrimSpace : Bool) (hkey : newline ∉ key) (htext : text.length ≤ maxIniBufferSize)
    (hrest : find defaultName text = some rest) (n : Nat) :
    ∃ o, At text key rest n (endOffset key dest destsize text bTrimSpace n) o := by
  induction n with
  | zero =>
    obtain ⟨o, hsection, hsuffix, -, hlines⟩ := rtmpFindSection_eq_some key hrest
    exact ⟨o, hsection, by rw [linesWith, hlines]; rfl, hsuffix⟩
  | succ n ih =>
    obtain ⟨o, hat⟩ := ih
    exact hat.next hkey htext

/-- One of the lookups, of the line `l`, is right. -/
def Fits (key : Str) (destsize : Nat) (bTrimSpace : Bool) (l : Str) : Prop :=
  equals ∉ key ∧ l.length ≤ 2047 ∧ (trim bTrimSpace (l.drop (key.length + 1))).length < destsize

theorem values_of_find (hrest : find defaultName text = some rest) : values text key
    = (linesWith newline (key ++ [equals]) rest).map fun l => l.drop (key.length + 1) := by
  rw [values, hrest]

/-- Call number `n` of the series is right if line number `n`, should there be one, fits. -/
theorem all_iff (hkey : newline ∉ key) (hzero : 0 ∉ text) (htext : text.length ≤ maxIniBufferSize)
    (hrest : find defaultName text = some rest) (hle : key.length ≤ 2045) :
    Finds (values text key)[n]? destsize bTrimSpace
        (rtmpGetKeyParameterWithOffset true key dest (endOffset key dest destsize text bTrimSpace n)
          destsize text bTrimSpace).1
      ↔ ∀ l, (linesWith newline (key ++ [equals]) rest)[n]? = some l →
          Fits key destsize bTrimSpace l := by
  obtain ⟨o, hat⟩ := at_endOffset dest destsize bTrimSpace hkey htext hrest n
  have hnth : (linesWith newline (key ++ [equals]) o).head?
      = (linesWith newline (key ++ [equals]) rest)[n]? := by
    rw [hat.lines, List.head?_drop]
  rw [values_of_find hrest, List.getElem?_map]
  by_cases hoff : maxIniBufferSize ≤ (endOffset key dest destsize text bTrimSpace n).toNat
  · rw [← hnth, hat.lines_of_le htext hoff, rtmpGetKeyParameterWithOffset, if_pos hoff]
    exact iff_of_true ⟨by simp, nofun, nofun⟩ nofun
  · have hdoes := withOffset_does key dest destsize bTrimSpace (Nat.not_le.mp hoff) hat.from_
    have hfinds := hdoes.finds_iff hkey fun hin => hzero (hat.suffix.subset hin)
    rw [hnth] at hfinds
    exact hfinds.trans (and_iff_right hle)

/-- **A key of one line**: the lookups are right if the key and every line of it fit. -/
theorem looksUp_iff_of_notMem (hkey : newline ∉ key) (hzero : 0 ∉ text)
    (htext : text.length ≤ maxIniBufferSize) (hrest : find defaultName text = some rest) :
    LooksUp text key dest destsize bTrimSpace ↔ key.length ≤ 2045 ∧
      ∀ l ∈ linesWith newline (key ++ [equals]) rest, Fits key destsize bTrimSpace l := by
  obtain ⟨o, hsection, hsuffix, -, hlines⟩ := rtmpFindSection_eq_some key hrest
  have hlineso : linesWith newline (key ++ [equals]) o = linesWith newline (key ++ [equals]) rest := by
    rw [linesWith, hlines]
    rfl
  have hdoes := rtmpGetKeyParameter_does key dest destsize bTrimSpace hsection
  have hfirst := hdoes.finds_iff hkey fun hin => hzero (hsuffix.subset hin)
  rw [hlineso, ← List.head?_map, ← values_of_find hrest] at hfirst
  constructor
  · intro hlooks
    have hle := (hfirst.mp hlooks.first).1
    refine ⟨hle, fun l hl => ?_⟩
    obtain ⟨n, hn⟩ := List.mem_iff_getElem?.mp hl
    exact ((all_iff hkey hzero htext hrest hle).mp (hlooks.all n)) l hn
  · rintro ⟨hle, hfits⟩
    constructor
    · exact hfirst.mpr ⟨hle, fun l hl => hfits l (List.mem_of_head? hl)⟩
    · intro n
      exact (all_iff hkey hzero htext hrest hle).mpr fun l hl => hfits l (List.mem_of_getElem? hl)

/-! ## Where nothing is to be found -/

theorem Misses.finds {r : Got} (h : Misses key destsize r) (hle : key.length ≤ 2045) :
    Finds none destsize bTrimSpace r :=
  ⟨by simp [h.found], nofun, h.inside hle⟩

/-- Both begin with `temp_buf1`. -/
theorem LooksUp.length_le (h : LooksUp text key dest destsize bTrimSpace)
    (hsection : rtmpFindSection text = some o) : key.length ≤ 2045 := by
  have hdoes := rtmpGetKeyParameter_does key dest destsize bTrimSpace hsection
  have hin : (pattern key).length + 1 ≤ 2048 := h.first.inside _ hdoes.searched
  rw [length_pattern] at hin
  omega

/-- Without a line that is found, every call begins with the section. -/
theorem endOffset_eq_zero (dest : Str) (destsize : Nat) (bTrimSpace : Bool)
    (hnone : ∀ o, rtmpFindSection text = some o → seekKey key o = none)
    (n : Nat) : endOffset key dest destsize text bTrimSpace n = 0 := by
  induction n with
  | zero => rfl
  | succ n ih =>
    rw [endOffset, ih, rtmpGetKeyParameterWithOffset, if_neg (by decide), if_neg nofun, offsetFrom,
      if_pos rfl]
    cases hsection : rtmpFindSection text with
    | none => rfl
    | some o =>
      dsimp only
      rw [hnone o hsection]

theorem looksUp_of_noSection (hnone : find defaultName text = none) :
    LooksUp text key dest destsize bTrimSpace := by
  have hsection : rtmpFindSection text = none := by
    rw [rtmpFindSection, rtstrstr_eq, hnone]
    rfl
  have hvalues : values text key = [] := by rw [values, hnone]
  constructor
  · rw [hvalues, rtmpGetKeyParameter, if_neg nofun, hsection]
    exact ⟨by simp, nofun, by simp [Write.Inside, Buf.size]⟩
  · intro n
    rw [hvalues, endOffset_eq_zero _ _ _ (fun o ho => by rw [hsection] at ho; cases ho),
      rtmpGetKeyParameterWithOffset, if_neg (by decide), if_neg nofun, offsetFrom, if_pos rfl, hsection]
    exact ⟨by simp, nofun, nofun⟩

/-- The lines of the text do not tell of a key of several lines. -/
theorem values_of_mem (hkey : newline ∈ key) : values text key = [] := by
  rw [values]
  split
  · rfl
  · rw [linesWith_of_mem (List.mem_append_left _ hkey)]
    rfl

/-- What is taken for the line is the first one of the key. -/
theorem seekKey_of_mem (hkey : newline ∈ key) {l e : Str} (h : seekKey key o = some (l, e)) :
    l = line newline key := by
  rw [seekKey_eq] at h
  obtain ⟨t, ht, hle⟩ := Option.map_eq_some_iff.mp h
  obtain ⟨k₁, k₂, rfl, hk₁⟩ := List.eq_append_cons_of_mem hkey
  obtain ⟨⟨r, rfl⟩, -⟩ := find_eq_some ht
  rw [← (Prod.mk.inj hle).1, line_append_cons hk₁, pattern, List.cons_append, List.drop_one,
    List.tail_cons, List.append_assoc, List.append_assoc, List.cons_append, line_append_cons hk₁]

theorem Does.misses_of_mem {r : Got} (h : Does key o destsize bTrimSpace r) (hkey : newline ∈ key)
    (hequals : equals ∉ line newline key) (hle : key.length ≤ 2045) : Misses key destsize r := by
  cases hseek : seekKey key o with
  | none => exact h.noLine hseek
  | some le =>
    obtain ⟨l, e⟩ := le
    obtain rfl := seekKey_of_mem hkey hseek
    have hline : (line newline key).length ≤ key.length := (List.takeWhile_prefix _).length_le
    refine h.noEquals _ e hseek ?_ (by omega)
    rw [rtstrstr_eq, find_singleton_none hequals]

/-- **A key of several lines**: no lookup is to find it. -/
theorem looksUp_iff_of_mem (hkey : newline ∈ key) (hrest : find defaultName text = some rest) :
    LooksUp text key dest destsize bTrimSpace ↔ key.length ≤ 2045 ∧
      (pattern key <:+: rest → equals ∉ line newline key) := by
  obtain ⟨o, hsection, -, hfind, -⟩ := rtmpFindSection_eq_some key hrest
  have hdoes := rtmpGetKeyParameter_does key dest destsize bTrimSpace hsection
  constructor
  · intro hlooks
    refine ⟨hlooks.length_le hsection, fun hinfix hequals => ?_⟩
    -- the first line of the key has a value of its own
    obtain ⟨t, ht⟩ : ∃ t, find (pattern key) rest = some t := by
      rw [← Option.ne_none_iff_exists', ne_eq, find_eq_none]
      exact not_not_intro hinfix
    have hseek := seekKey_eq key o
    rw [hfind, ht, Option.map_some] at hseek
    have hline := seekKey_of_mem hkey hseek
    rw [hline] at hseek
    obtain ⟨l₁, v, hl, hl₁⟩ := List.eq_append_cons_of_mem hequals
    have hvalue : rtstrstr (line newline key) [equals] = some (equals :: v) := by
      rw [hl, rtstrstr_equals hl₁]
    have hfound := hlooks.first.found.mp (hdoes.takes _ _ v hseek hvalue).found
    rw [values_of_mem hkey] at hfound
    cases hfound
  · rintro ⟨hle, hcopes⟩
    by_cases hinfix : pattern key <:+: rest
    · constructor
      · rw [values_of_mem hkey]
        exact (hdoes.misses_of_mem hkey (hcopes hinfix) hle).finds hle
      · intro n
        rw [values_of_mem hkey]
        generalize endOffset key dest destsize text bTrimSpace n = off
        by_cases hoff : maxIniBufferSize ≤ off.toNat
        · rw [rtmpGetKeyParameterWithOffset, if_pos hoff]
          exact ⟨by simp, nofun, nofun⟩
        · cases hfrom : offsetFrom text off with
          | none =>
            rw [rtmpGetKeyParameterWithOffset, if_neg hoff, if_neg nofun, hfrom]
            exact ⟨by simp, nofun, nofun⟩
          | some o' =>
            have hdoes' := withOffset_does key dest destsize bTrimSpace (Nat.not_le.mp hoff) hfrom
            exact (hdoes'.misses_of_mem hkey (hcopes hinfix) hle).finds hle
    · have hnone : seekKey key o = none := by
        rw [seekKey_eq, hfind, find_eq_none.mpr hinfix]
        rfl
      constructor
      · rw [values_of_mem hkey]
        exact (hdoes.noLine hnone).finds hle
      · intro n
        have hsought (o' : Str) (ho' : rtmpFindSection text = some o') : seekKey key o' = none := by
          rw [hsection] at ho'
          rw [← Option.some.inj ho', hnone]
        have hzero := endOffset_eq_zero dest destsize bTrimSpace hsought n
        have hfrom : offsetFrom text 0 = some o := hsection
        have hdoes' := withOffset_does key dest destsize bTrimSpace (by decide) hfrom
        rw [values_of_mem hkey, hzero]
        exact (hdoes'.noLine hnone).finds hle

/-! ## All lookups -/

/-- The lines fit if the values do. -/
theorem fits_iff {l : Str} (hl : l ∈ linesWith newline (key ++ [equals]) rest) :
    Fits key destsize bTrimSpace l ↔ equals ∉ key ∧
      key.length + 1 + (l.drop (key.length + 1)).length ≤ 2047 ∧
        (trim bTrimSpace (l.drop (key.length + 1))).length < destsize := by
  have hprefix : key ++ [equals] <+: l := by simpa using List.of_mem_filter hl
  have hle := hprefix.length_le
  rw [List.length_append, List.length_singleton] at hle
  rw [Fits, List.length_drop, Nat.add_sub_cancel' hle]

/-- **The lookups are right exactly where the text and the key are ones to cope with.** -/
theorem looksUp_iff (hzero : 0 ∉ text) (htext : text.length ≤ maxIniBufferSize) :
    LooksUp text key dest destsize bTrimSpace ↔ Copes text key destsize bTrimSpace := by
  cases hrest : find defaultName text with
  | none =>
    refine iff_of_true (looksUp_of_noSection hrest) fun rest h => ?_
    rw [hrest] at h
    cases h
  | some rest =>
    have hcopes : Copes text key destsize bTrimSpace ↔ key.length ≤ 2045 ∧ (pattern key <:+: rest →
        if newline ∈ key then equals ∉ line newline key
        else equals ∉ key ∧ ∀ v ∈ values text key,
          key.length + 1 + v.length ≤ 2047 ∧ (trim bTrimSpace v).length < destsize) := by
      rw [Copes, hrest]
      exact ⟨fun h => h rest rfl, fun h _ hr => Option.some.inj hr ▸ h⟩
    rw [hcopes]
    by_cases hkey : newline ∈ key
    · rw [looksUp_iff_of_mem hkey hrest, if_pos hkey]
    · have hlines : pattern key <:+: rest ↔ linesWith newline (key ++ [equals]) rest ≠ [] := by
        rw [ne_eq, ← find_line_eq_none (newline_notMem hkey), find_eq_none, not_not]
        rfl
      rw [looksUp_iff_of_notMem hkey hzero htext hrest, if_neg hkey, hlines, values_of_find hrest]
      refine and_congr_right fun _ => ⟨fun hfits hne => ?_, fun hfits l hl => ?_⟩
      · obtain ⟨l, hl⟩ := List.exists_mem_of_ne_nil _ hne
        refine ⟨(hfits l hl).1, fun v hv => ?_⟩
        obtain ⟨l', hl', rfl⟩ := List.mem_map.mp hv
        exact ((fits_iff hl').mp (hfits l' hl')).2
      · obtain ⟨hequals, hall⟩ := hfits (List.ne_nil_of_mem hl)
        exact (fits_iff hl).mpr ⟨hequals, hall _ (List.mem_map_of_mem hl)⟩

/-- "Default", "k=v". -/
def oneLine : Str := defaultName ++ [newline, 0x6b, equals, 0x76]

theorem looksUp_oneLine : LooksUp oneLine [0x6b] [] 4 true := by
  refine (looksUp_iff (by decide) (by decide)).mpr fun rest _ => ⟨by decide, fun _ => ?_⟩
  rw [if_neg (by decide)]
  have hvalues : values oneLine [0x6b] = [[0x76]] := by decide
  rw [hvalues]
  decide

/-- "Default", "k=vv". -/
def twoLetters : Str := defaultName ++ [newline, 0x6b, equals, 0x76, 0x76]

/-- A value as long as the destination is copied without a NUL. -/
theorem twoLetters_unterminated : ¬ ∀ (text key dest : Str) (destsize : Nat) (bTrimSpace : Bool),
    0 ∉ text → text.length ≤ maxIniBufferSize → 1 ≤ destsize →
      LooksUp text key dest destsize bTrimSpace := by
  intro h
  have hlooks := h twoLetters [0x6b] [0xff, 0xff] 2 true (by decide) (by decide) (by decide)
  have hvalue : (values twoLetters [0x6b]).head? = some [0x76, 0x76] := by decide
  obtain ⟨-, hheld⟩ := hlooks.first.dest _ hvalue
  revert hheld
  decide

end ExtDrv.Rt3370.Profile
