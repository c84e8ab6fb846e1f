import ExtDrv.Lib.Tlv
import ExtDrv.Rt3370.EapolBounds
import ExtDrv.Rt3370.KeyDataParse

/-!
# When EAPOL key data stays in bounds

The walk over the elements reads the length of an element before it knows that there is one: it
stays inside the key data only if an element is cut off at its end, or a key too short ends it
before. `inBounds_iff` adds what the frame and its lengths have to be.
-/

namespace ExtDrv.Rt3370.Wpa

open KeyWrap Memory Tlv

/-! ## The condition -/

/-- Whether the element at `o` is a GTK KDE can be told inside the key data. -/
def Told (k : Mem) (n o : Nat) : Prop :=
  k o = 0xdd → o + 5 ≤ n ∧ (segment k (o + 2) 3 = [0x00, 0x0f, 0xac] → o + 6 ≤ n)

/-- **Key data that the walk stays in**, of `n` bytes, from the element at `o` on. -/
inductive KdesFit (k : Mem) (n : Nat) : Nat → Prop where
  /-- The last element is cut off behind its header. -/
  | cut {o : Nat} : o + 1 < n → n < after k o → KdesFit k n o
  | other {o : Nat} : after k o ≤ n → Told k n o → isGtkKde k o = false →
      KdesFit k n (after k o) → KdesFit k n o
  /-- A key of 5 to 32 bytes. -/
  | gtk {o : Nat} : after k o ≤ n → isGtkKde k o = true → 11 ≤ (k (o + 1)).toNat →
      (k (o + 1)).toNat ≤ 38 → KdesFit k n (after k o) → KdesFit k n o
  /-- A key that is too short ends the walk. -/
  | short {o : Nat} : after k o ≤ n → isGtkKde k o = true → 6 ≤ (k (o + 1)).toNat →
      (k (o + 1)).toNat ≤ 10 → KdesFit k n o

/-- The key data holds a group key that can be taken. -/
def GroupKeyFits (k : Mem) (n : Nat) (bWPA2 : Bool) : Prop :=
  if bWPA2 then KdesFit k n 0 else n ≤ maxLenGtk

/-- The key data is in the frame and fits `KEYDATA`, where it is decrypted or copied. -/
structure CopyFits (g : Grants) (f : Received) (ty : MsgType) (bWPA2 : Bool) : Prop where
  encrypted : keyDataEncrypted ty bWPA2 = true → g.unwrap = true →
    keyDataLen f.packet ≤ maxLenOfRsnie ∧ 99 + keyDataLen f.packet ≤ f.len ∧
      ((keyInfo f.packet).KeyDescVer = keyDescAes → 8 ≤ keyDataLen f.packet)
  clear : keyDataEncrypted ty bWPA2 = false → ty = .pairMsg2 ∨ ty = .pairMsg3 →
    keyDataLen f.packet ≤ maxLenOfRsnie ∧ 99 + keyDataLen f.packet ≤ f.len

/-- The checks of the replay counter and of the MIC are passed. -/
def PassesChecks (env : Env) (s : Station) (f : Received) (ty : MsgType) : Prop :=
  replayDiff s.entry f.packet ty = false ∧
    (ty ≠ .pairMsg1 → keyMic f.packet = desiredMic env.toCrypto s.entry.PTK f.packet)

/-- **The frame and its key data fit**, with `heap` for `KEYDATA` and `r` for `R`. -/
structure FrameFits (env : Env) (g : Grants) (heap r : Mem) (s : Station) (f : Received)
    (ty : MsgType) : Prop where
  counter : 17 ≤ f.len
  mic : replayDiff s.entry f.packet ty = false → ty ≠ .pairMsg1 → 97 ≤ f.len
  text : replayDiff s.entry f.packet ty = false → ty ≠ .pairMsg1 →
    (keyInfo f.packet).KeyDescVer = keyDescTkip ∨ (keyInfo f.packet).KeyDescVer = keyDescAes →
    bodyLen f.packet + lengthEapolH ≤ f.len
  header : PassesChecks env s f ty → 99 ≤ f.len
  copy : PassesChecks env s f ty → 0 < keyDataLen f.packet → CopyFits g f ty s.entry.AuthMode.isWpa2
  groupKey : PassesChecks env s f ty → keyDataEncrypted ty s.entry.AuthMode.isWpa2 = true → ∀ k n,
    keyDataOf (withCiphers env r).toCrypto g heap s.entry.PTK f.packet ty
      s.entry.AuthMode.isWpa2 = .ok (some (k, n)) →
    GroupKeyFits k (n % 256) s.entry.AuthMode.isWpa2

/-! ## Accesses -/

theorem Received.read_of_le {f : Received} {o n : Nat} (h : o + n ≤ f.len) :
    f.read o n = .ok () :=
  if_pos h

theorem Received.le_of_read {f : Received} {o n : Nat} {u : Unit} (h : f.read o n = .ok u) :
    o + n ≤ f.len := by
  by_contra hlt
  rw [Received.read, if_neg hlt] at h
  cases h

theorem readKeyData_of_le {len o n : Nat} (h : o + n ≤ len) : readKeyData len o n = .ok () :=
  if_pos h

theorem le_of_readKeyData {len o n : Nat} {u : Unit} (h : readKeyData len o n = .ok u) :
    o + n ≤ len := by
  by_contra hlt
  rw [readKeyData, if_neg hlt] at h
  cases h

theorem writeTo_of_le {size n : Nat} {fault : Nat → Overrun} (h : n ≤ size) :
    writeTo size fault n = .ok () :=
  if_pos h

theorem le_of_writeTo {size n : Nat} {fault : Nat → Overrun} {u : Unit}
    (h : writeTo size fault n = .ok u) : n ≤ size := by
  by_contra hlt
  rw [writeTo, if_neg hlt] at h
  cases h

theorem ok_of_bind {α β : Type} {x : Except Overrun α} {k : α → Except Overrun β} {y : β}
    (h : x >>= k = .ok y) : ∃ a, x = .ok a ∧ k a = .ok y := by
  cases x with
  | error e => cases h
  | ok a => exact ⟨a, rfl, h⟩

/-- What does not fail itself succeeds where what is in front of it does. -/
theorem ok_bind_iff {α β : Type} {x : Except Overrun α} {k : α → Except Overrun β}
    (hk : ∀ a, ∃ y, k a = .ok y) : (∃ y, x >>= k = .ok y) ↔ ∃ a, x = .ok a := by
  constructor
  · rintro ⟨y, hy⟩
    obtain ⟨a, ha, -⟩ := ok_of_bind hy
    exact ⟨a, ha⟩
  · rintro ⟨a, rfl⟩
    exact hk a

/-! ## The walk -/

section Walk

variable {k : Mem}

theorem readKeyData_bind {α : Type} {len o n : Nat} {f : Unit → Except Overrun α} {y : α} :
    (readKeyData len o n >>= f) = .ok y ↔ o + n ≤ len ∧ f () = .ok y := by
  constructor
  · intro h
    obtain ⟨u, hread, hf⟩ := ok_of_bind h
    exact ⟨le_of_readKeyData hread, hf⟩
  · rintro ⟨hle, hf⟩
    rw [readKeyData_of_le hle]
    exact hf

theorem isGtkKde_iff' {o : Nat} : isGtkKde k o = true ↔
    k o = 0xdd ∧ segment k (o + 2) 3 = [0x00, 0x0f, 0xac] ∧ k (o + 5) = 0x01 := by
  simp only [isGtkKde, Bool.and_eq_true, beq_iff_eq, and_assoc]
  exact Iff.rfl

/-- An element that is no GTK KDE. -/
theorem kdeAt_other {n o : Nat} (hin : after k o ≤ n) (hk : isGtkKde k o = false) {x : Kde} :
    kdeAt k n o = .ok x ↔ x = .other ∧ Told k n o := by
  have hfirst : o + 1 ≤ n := by
    unfold after at hin
    omega
  have hother : (pure Kde.other : Except Overrun Kde) = .ok x ↔ x = .other := by
    constructor
    · intro h
      cases h
      rfl
    · rintro rfl
      rfl
  unfold kdeAt Told
  rw [readKeyData_bind, and_iff_right hfirst]
  by_cases hdd : k o = 0xdd
  · rw [if_neg (not_not.mpr hdd), readKeyData_bind]
    by_cases houi : segment k (o + 2) 3 = [0x00, 0x0f, 0xac]
    · have htype : k (o + 5) ≠ 0x01 := by
        intro h1
        rw [isGtkKde_iff'.mpr ⟨hdd, houi, h1⟩] at hk
        cases hk
      rw [if_neg (not_not.mpr houi), readKeyData_bind, if_pos htype, hother]
      simp only [hdd, houi, true_implies]
      tauto
    · rw [if_pos houi, hother]
      simp only [hdd, houi, true_implies, false_implies, and_true]
      tauto
  · rw [if_pos hdd, hother]
    exact (and_iff_left fun h => absurd h hdd).symm

/-- A GTK KDE. -/
theorem kdeAt_gtk {n o : Nat} (hin : after k o ≤ n) (hk : isGtkKde k o = true) {x : Kde} :
    kdeAt k n o = .ok x ↔
      (6 ≤ (k (o + 1)).toNat ∧ (k (o + 1)).toNat ≤ 10 ∧ x = .tooShort) ∨
      (11 ≤ (k (o + 1)).toNat ∧ (k (o + 1)).toNat ≤ 38 ∧ x = .gtk ⟨(k (o + 6) &&& 3).toNat,
        segment k (o + 8) (k (o + 1) - 6).toNat⟩) := by
  obtain ⟨hdd, houi, htype⟩ := isGtkKde_iff'.mp hk
  have hlt := (k (o + 1)).isLt
  have hsub : (k (o + 1) - 6).toNat = if 6 ≤ (k (o + 1)).toNat then (k (o + 1)).toNat - 6
      else (k (o + 1)).toNat + 250 := by
    split_ifs <;> bv_omega
  unfold kdeAt copyGtk
  unfold after at hin
  rw [readKeyData_bind, if_neg (not_not.mpr hdd), readKeyData_bind, if_neg (not_not.mpr houi),
    readKeyData_bind, if_neg (not_not.mpr htype), readKeyData_bind]
  dsimp only
  by_cases h6 : 6 ≤ (k (o + 1)).toNat
  · rw [if_pos h6] at hsub
    by_cases hshort : (k (o + 1) - 6).toNat < 5
    · rw [if_pos hshort]
      constructor
      · rintro ⟨-, -, -, -, h⟩
        cases h
        exact .inl ⟨h6, by omega, rfl⟩
      · rintro (⟨-, -, rfl⟩ | ⟨h11, -⟩)
        · exact ⟨by omega, by omega, by omega, by omega, rfl⟩
        · omega
    · rw [if_neg hshort]
      constructor
      · rintro ⟨-, -, -, -, h⟩
        obtain ⟨u, hwrite, hrest⟩ := ok_of_bind h
        obtain ⟨-, hgtk⟩ := readKeyData_bind.mp hrest
        have hle : (k (o + 1) - 6).toNat ≤ 32 := le_of_writeTo hwrite
        cases hgtk
        exact .inr ⟨by omega, by omega, rfl⟩
      · rintro (⟨-, h10, -⟩ | ⟨h11, h38, rfl⟩)
        · omega
        · refine ⟨by omega, by omega, by omega, by omega, ?_⟩
          rw [writeTo_of_le (show (k (o + 1) - 6).toNat ≤ maxLenGtk by
            show _ ≤ 32
            omega)]
          exact readKeyData_bind.mpr ⟨by omega, rfl⟩
  · rw [if_neg h6] at hsub
    rw [if_neg (show ¬ (k (o + 1) - 6).toNat < 5 by omega)]
    constructor
    · rintro ⟨-, -, -, -, h⟩
      obtain ⟨u, hwrite, -⟩ := ok_of_bind h
      have hle : (k (o + 1) - 6).toNat ≤ 32 := le_of_writeTo hwrite
      omega
    · rintro (⟨h', -⟩ | ⟨h11, -⟩)
      · exact absurd h' h6
      · omega

theorem kdesFit_cut {n o : Nat} (hout : n < after k o) : KdesFit k n o ↔ o + 1 < n := by
  constructor
  · intro h
    cases h with
    | cut hlt _ => exact hlt
    | other hin => omega
    | gtk hin => omega
    | short hin => omega
  · intro h
    exact .cut h hout

theorem kdesFit_other {n o : Nat} (hin : after k o ≤ n) (hk : isGtkKde k o = false) :
    KdesFit k n o ↔ Told k n o ∧ KdesFit k n (after k o) := by
  constructor
  · intro h
    cases h with
    | cut _ hout => omega
    | other _ htold _ hrest => exact ⟨htold, hrest⟩
    | gtk _ hgtk => exact absurd (hk.symm.trans hgtk) Bool.false_ne_true
    | short _ hgtk => exact absurd (hk.symm.trans hgtk) Bool.false_ne_true
  · intro h
    exact .other hin h.1 hk h.2

theorem kdesFit_gtk {n o : Nat} (hin : after k o ≤ n) (hk : isGtkKde k o = true) :
    KdesFit k n o ↔ (6 ≤ (k (o + 1)).toNat ∧ (k (o + 1)).toNat ≤ 10) ∨
      (11 ≤ (k (o + 1)).toNat ∧ (k (o + 1)).toNat ≤ 38 ∧ KdesFit k n (after k o)) := by
  constructor
  · intro h
    cases h with
    | cut _ hout => omega
    | other _ _ hno => exact absurd (hno.symm.trans hk) Bool.false_ne_true
    | gtk _ _ hge hle hrest => exact .inr ⟨hge, hle, hrest⟩
    | short _ _ hge hle => exact .inl ⟨hge, hle⟩
  · rintro (⟨hge, hle⟩ | ⟨hge, hle, hrest⟩)
    · exact .short hin hk hge hle
    · exact .gtk hin hk hge hle hrest

/-- **The walk stays in the key data** if that fits, and else not. -/
theorem kdeWalk_iff (n : BitVec 8) (d : Nat) : ∀ (o : BitVec 8) (gtk : FoundGtk),
    n.toNat - o.toNat = d → ((∃ x, kdeWalk k n o gtk = .ok x) ↔ KdesFit k n.toNat o.toNat) := by
  induction d using Nat.strongRecOn with
  | _ d ih =>
    intro o gtk hd
    rw [kdeWalk]
    cases hread : readKeyData n.toNat (o.toNat + 1) 1 with
    | error e =>
        have hlen : ¬ o.toNat + 1 < n.toNat := by
          intro hlt
          rw [readKeyData_of_le hlt] at hread
          cases hread
        have hout : n.toNat < after k o.toNat := by
          unfold after
          omega
        rw [kdesFit_cut hout]
        exact iff_of_false (by rintro ⟨x, hx⟩; cases hx) hlen
    | ok u =>
        have hlen := le_of_readKeyData hread
        dsimp only
        by_cases hin : o.toNat + 2 + (k (o.toNat + 1)).toNat ≤ n.toNat
        · have hgo : ∀ found, (∃ x, kdeWalk k n (o + 2 + k (o.toNat + 1)) found = .ok x) ↔
              KdesFit k n.toNat (after k o.toNat) := by
            intro found
            have hless := skipOffset_lt hin
            rw [ih _ (by omega) _ found rfl, skipOffset_add hin]
            rfl
          rw [if_pos hin]
          cases hk : isGtkKde k o.toNat with
          | false =>
              have hkde := fun x => kdeAt_other hin hk (x := x)
              rw [kdesFit_other hin hk]
              cases hat : kdeAt k n.toNat o.toNat with
              | error e =>
                  refine iff_of_false (by rintro ⟨x, hx⟩; cases hx) fun h => ?_
                  have hok := (hkde .other).mpr ⟨rfl, h.1⟩
                  rw [hat] at hok
                  cases hok
              | ok x =>
                  obtain ⟨rfl, htold⟩ := (hkde x).mp hat
                  rw [and_iff_right htold]
                  exact hgo gtk
          | true =>
              have hkde := fun x => kdeAt_gtk hin hk (x := x)
              rw [kdesFit_gtk hin hk]
              cases hat : kdeAt k n.toNat o.toNat with
              | error e =>
                  refine iff_of_false (by rintro ⟨x, hx⟩; cases hx) fun h => ?_
                  have hok : ∃ x, kdeAt k n.toNat o.toNat = .ok x := by
                    rcases h with ⟨hge, hle⟩ | ⟨hge, hle, -⟩
                    · exact ⟨_, (hkde _).mpr (.inl ⟨hge, hle, rfl⟩)⟩
                    · exact ⟨_, (hkde _).mpr (.inr ⟨hge, hle, rfl⟩)⟩
                  obtain ⟨x, hx⟩ := hok
                  rw [hat] at hx
                  cases hx
              | ok x =>
                  rcases (hkde x).mp hat with ⟨hge, hle, rfl⟩ | ⟨hge, hle, rfl⟩
                  · exact iff_of_true ⟨none, rfl⟩ (.inl ⟨hge, hle⟩)
                  · have hnot : ¬ (k (o.toNat + 1)).toNat ≤ 10 := by omega
                    rw [or_iff_right fun h => hnot h.2, and_iff_right hge, and_iff_right hle]
                    exact hgo _
        · rw [if_neg hin, kdesFit_cut (Nat.lt_of_not_le hin)]
          exact iff_of_true ⟨_, rfl⟩ hlen

end Walk

/-! ## The parser -/

/-- A group key is taken from key data that fits. -/
theorem rtmpParseEapolKeyDataIn_iff (env : Env) (s : Station) (k : Mem) (n : BitVec 8)
    (groupKeyIndex : Nat) (ty : MsgType) (bWPA2 : Bool) :
    (∃ x, rtmpParseEapolKeyDataIn env s k n groupKeyIndex ty bWPA2 = .ok x) ↔
      (keyDataEncrypted ty bWPA2 = true → GroupKeyFits k n.toNat bWPA2) := by
  have hwalk := kdeWalk_iff (k := k) n n.toNat 0 ⟨0, []⟩ rfl
  have hcopied : (∃ x, (writeTo maxLenGtk .writeGtk n.toNat >>= fun _ =>
      pure (installGtk env s ⟨groupKeyIndex, segment k 0 n.toNat⟩)) = .ok x) ↔
      n.toNat ≤ maxLenGtk := by
    constructor
    · rintro ⟨x, hx⟩
      obtain ⟨u, hwrite, -⟩ := ok_of_bind hx
      exact le_of_writeTo hwrite
    · intro hle
      rw [writeTo_of_le hle]
      exact ⟨_, rfl⟩
  unfold rtmpParseEapolKeyDataIn
  split_ifs with hskip hwpa2 hwpa
  · have henc : keyDataEncrypted ty bWPA2 = false := by
      obtain ⟨hty, hnot⟩ := hskip
      rcases hty with rfl | rfl
      · rfl
      · cases bWPA2 with
        | false => rfl
        | true => exact absurd ⟨rfl, rfl⟩ hnot
    rw [henc]
    exact iff_of_true ⟨_, rfl⟩ (fun h => absurd h Bool.false_ne_true)
  · obtain ⟨rfl, hty⟩ := hwpa2
    have henc : keyDataEncrypted ty true = true := by rcases hty with rfl | rfl <;> rfl
    rw [henc]
    refine Iff.trans ?_ (hwalk.trans ⟨fun h _ => h, fun h => h rfl⟩)
    exact ok_bind_iff fun found => by cases found <;> exact ⟨_, rfl⟩
  · obtain ⟨rfl, rfl⟩ := hwpa
    exact hcopied.trans ⟨fun h _ => h, fun h => h rfl⟩
  · have henc : keyDataEncrypted ty bWPA2 = false := by
      rw [← Bool.not_eq_true]
      intro h
      simp only [keyDataEncrypted, Bool.or_eq_true, Bool.and_eq_true, beq_iff_eq] at h
      rcases h with ⟨h3, hw⟩ | h1
      · exact hwpa2 ⟨hw, .inl h3⟩
      · cases hw : bWPA2 with
        | false => exact hwpa ⟨hw, h1⟩
        | true => exact hwpa2 ⟨hw, .inr h1⟩
    rw [henc]
    exact iff_of_true ⟨_, rfl⟩ (fun h => absurd h Bool.false_ne_true)

/-! ## The frame -/

theorem read_bind {α : Type} {f : Received} {o n : Nat} {k : Unit → Except Overrun α} {y : α} :
    (f.read o n >>= k) = .ok y ↔ o + n ≤ f.len ∧ k () = .ok y := by
  constructor
  · intro h
    obtain ⟨u, hread, hk⟩ := ok_of_bind h
    exact ⟨Received.le_of_read hread, hk⟩
  · rintro ⟨hle, hk⟩
    rw [Received.read_of_le hle]
    exact hk

theorem writeTo_bind {α : Type} {size n : Nat} {fault : Nat → Overrun}
    {k : Unit → Except Overrun α} {y : α} :
    (writeTo size fault n >>= k) = .ok y ↔ n ≤ size ∧ k () = .ok y := by
  constructor
  · intro h
    obtain ⟨u, hwrite, hk⟩ := ok_of_bind h
    exact ⟨le_of_writeTo hwrite, hk⟩
  · rintro ⟨hle, hk⟩
    rw [writeTo_of_le hle]
    exact hk

theorem map_eq_ok {α β : Type} {x : Except Overrun α} {g : α → β} {y : β} :
    (x >>= fun a => pure (g a)) = .ok y ↔ ∃ a, x = .ok a ∧ g a = y := by
  constructor
  · intro h
    obtain ⟨a, ha, hy⟩ := ok_of_bind h
    cases hy
    exact ⟨a, ha, rfl⟩
  · rintro ⟨a, rfl, rfl⟩
    rfl

section Frame

variable {env : Env} {g : Grants} {heap r : Mem} {s : Station} {f : Received} {ty : MsgType}

theorem keyDataLen_lt (p : Mem) : keyDataLen p < 65536 := by
  have hhi := (p 97).isLt
  have hlo := (p 98).isLt
  unfold keyDataLen word16
  omega

/-- Key data that is unwrapped. -/
theorem unwrapIn_iff (hg : g.unwrap = true) (kek : Bytes 16) {x : Mem × Nat} :
    unwrapIn g heap r kek f (BitVec.ofNat 32 (keyDataLen f.packet)) = .ok x ↔
      (keyDataLen f.packet ≤ maxLenOfRsnie ∧ 99 + keyDataLen f.packet ≤ f.len ∧
        8 ≤ keyDataLen f.packet) ∧
      x = (store heap 0 (aesGtkKeyUnwrap r kek (keyData f.packet (keyDataLen f.packet))),
        keyDataLen f.packet - 8) := by
  have hlt := keyDataLen_lt f.packet
  have hframe := f.bound
  have hmax : maxLenOfRsnie = 255 := rfl
  obtain ⟨n, hn⟩ : ∃ n, n = keyDataLen f.packet := ⟨_, rfl⟩
  rw [← hn] at hlt ⊢
  have hlen : (BitVec.ofNat 32 n).toNat = n := by
    rw [BitVec.toNat_ofNat]
    omega
  -- the bound of the copy wraps below eight bytes
  have hsub : (BitVec.ofNat 32 n - 8).toNat = if 8 ≤ n then n - 8 else n + 4294967288 := by
    split_ifs <;> bv_omega
  unfold unwrapIn
  rw [if_neg (by rw [hg]; exact Bool.noConfusion), read_bind, read_bind, writeTo_bind, writeTo_bind,
    hlen, hsub]
  by_cases h8 : 8 ≤ n
  · rw [if_pos h8]
    constructor
    · rintro ⟨-, hread, -, hwrite, hx⟩
      cases hx
      exact ⟨⟨hwrite, by omega, h8⟩, rfl⟩
    · rintro ⟨⟨hwrite, hread, -⟩, rfl⟩
      exact ⟨by omega, by omega, by omega, hwrite, rfl⟩
  · rw [if_neg h8]
    constructor
    · rintro ⟨-, hread, -⟩
      omega
    · rintro ⟨⟨-, -, hge⟩, -⟩
      exact absurd hge h8

/-- Key data that is decrypted with RC4. -/
theorem tkipUnwrapIn_iff (hg : g.unwrap = true) (hfix : 99 ≤ f.len) (kek : Bytes 16) {n : Nat}
    {x : Mem} :
    tkipUnwrapIn g heap kek f n = .ok x ↔ (n ≤ maxLenOfRsnie ∧ 99 + n ≤ f.len) ∧
      x = store heap 0 (Arc4.tkipGtkKeyWrap (List.ofFn (keyIv f.packet) ++ List.ofFn kek)
        (keyData f.packet n)) := by
  unfold tkipUnwrapIn
  rw [if_neg (by rw [hg]; exact Bool.noConfusion), read_bind, read_bind, writeTo_bind]
  constructor
  · rintro ⟨-, hread, hwrite, hx⟩
    cases hx
    exact ⟨⟨hwrite, hread⟩, rfl⟩
  · rintro ⟨⟨hwrite, hread⟩, rfl⟩
    exact ⟨by omega, hread, hwrite, rfl⟩

theorem pure_eq_ok {ε α : Type} {a x : α} : (pure a : Except ε α) = .ok x ↔ a = x :=
  Except.ok.injEq a x ▸ Iff.rfl

theorem ok_eq_ok {ε α : Type} {a x : α} : (Except.ok a : Except ε α) = .ok x ↔ a = x :=
  Except.ok.injEq a x ▸ Iff.rfl

/-- Without memory for the unwrapping nothing is copied. -/
theorem CopyFits.of_not_unwrap {bWPA2 : Bool} (henc : keyDataEncrypted ty bWPA2 = true)
    (hg : g.unwrap = false) : CopyFits g f ty bWPA2 where
  encrypted _ h := absurd (hg.symm.trans h) Bool.false_ne_true
  clear h := absurd (henc.symm.trans h).symm Bool.false_ne_true

theorem copyFits_encrypted {bWPA2 : Bool} (henc : keyDataEncrypted ty bWPA2 = true)
    (hg : g.unwrap = true) : CopyFits g f ty bWPA2 ↔
      keyDataLen f.packet ≤ maxLenOfRsnie ∧ 99 + keyDataLen f.packet ≤ f.len ∧
        ((keyInfo f.packet).KeyDescVer = keyDescAes → 8 ≤ keyDataLen f.packet) := by
  constructor
  · intro h
    exact h.encrypted henc hg
  · intro h
    exact ⟨fun _ _ => h, fun h0 => absurd (henc.symm.trans h0).symm Bool.false_ne_true⟩

theorem copyFits_clear {bWPA2 : Bool} (henc : keyDataEncrypted ty bWPA2 = false) :
    CopyFits g f ty bWPA2 ↔ (ty = .pairMsg2 ∨ ty = .pairMsg3 →
      keyDataLen f.packet ≤ maxLenOfRsnie ∧ 99 + keyDataLen f.packet ≤ f.len) := by
  constructor
  · intro h
    exact h.clear henc
  · intro h
    exact ⟨fun h0 => absurd (henc.symm.trans h0) Bool.false_ne_true, fun _ => h⟩

/-- **The key data is decrypted or copied** if it is in the frame and fits, and is what
`keyDataOf` gives. -/
theorem keyDataIn_iff (env : Env) (ptk : Bytes 64) (bWPA2 : Bool) {x : Option (Mem × Nat)} :
    keyDataIn g heap r ptk f ty bWPA2 = .ok x ↔
      99 ≤ f.len ∧ (0 < keyDataLen f.packet → CopyFits g f ty bWPA2) ∧
        keyDataOf (withCiphers env r).toCrypto g heap ptk f.packet ty bWPA2 = .ok x := by
  unfold keyDataIn keyDataOf
  rw [read_bind]
  refine and_congr_right fun hfix => ?_
  dsimp only
  by_cases hzero : keyDataLen f.packet = 0
  · rw [if_pos hzero, if_pos hzero, pure_eq_ok, ok_eq_ok]
    exact (and_iff_right fun hpos => absurd hzero (Nat.ne_of_gt hpos)).symm
  have hpos : 0 < keyDataLen f.packet := Nat.pos_of_ne_zero hzero
  rw [if_neg hzero, if_neg hzero, forall_prop_of_true hpos]
  cases henc : keyDataEncrypted ty bWPA2 with
  | true =>
      rw [if_pos rfl, if_pos rfl]
      cases hg : g.unwrap with
      | false =>
          rw [and_iff_right (CopyFits.of_not_unwrap henc hg)]
          simp only [unwrapIn, tkipUnwrapIn, hg, if_true, Bool.not_false]
          split_ifs
          · exact pure_eq_ok.trans ok_eq_ok.symm
          · exact pure_eq_ok.trans ok_eq_ok.symm
      | true =>
          rw [copyFits_encrypted henc hg]
          simp only [Bool.not_true, Bool.false_eq_true, if_false]
          by_cases haes : (keyInfo f.packet).KeyDescVer = keyDescAes
          · rw [if_pos haes, if_pos haes, map_eq_ok, forall_prop_of_true haes]
            simp only [unwrapIn_iff hg]
            constructor
            · rintro ⟨a, ⟨hfits, rfl⟩, rfl⟩
              refine ⟨hfits, ?_⟩
              rw [if_neg (by have : maxLenOfRsnie = 255 := rfl; omega)]
              rfl
            · rintro ⟨hfits, hx⟩
              rw [if_neg (by have : maxLenOfRsnie = 255 := rfl; omega), ok_eq_ok] at hx
              exact ⟨_, ⟨hfits, rfl⟩, hx⟩
          · rw [if_neg haes, if_neg haes, map_eq_ok]
            simp only [tkipUnwrapIn_iff hg hfix, haes, false_implies, and_true]
            constructor
            · rintro ⟨a, ⟨hfits, rfl⟩, rfl⟩
              refine ⟨hfits, ?_⟩
              rw [if_neg (Nat.not_lt.mpr hfits.1)]
              rfl
            · rintro ⟨hfits, hx⟩
              rw [if_neg (Nat.not_lt.mpr hfits.1), ok_eq_ok] at hx
              exact ⟨_, ⟨hfits, rfl⟩, hx⟩
  | false =>
      rw [if_neg Bool.false_ne_true, if_neg Bool.false_ne_true, copyFits_clear henc]
      by_cases hty : ty = .pairMsg2 ∨ ty = .pairMsg3
      · rw [if_pos hty, if_pos hty, read_bind, writeTo_bind, pure_eq_ok, forall_prop_of_true hty]
        constructor
        · rintro ⟨hread, hwrite, hx⟩
          refine ⟨⟨hwrite, hread⟩, ?_⟩
          rw [if_neg (Nat.not_lt.mpr hwrite), ok_eq_ok]
          exact hx
        · rintro ⟨⟨hwrite, hread⟩, hx⟩
          rw [if_neg (Nat.not_lt.mpr hwrite), ok_eq_ok] at hx
          exact ⟨hread, hwrite, hx⟩
      · rw [if_neg hty, if_neg hty, pure_eq_ok, ok_eq_ok]
        exact (and_iff_right fun h => absurd h hty).symm

theorem readMic_iff : readMic f ty = .ok () ↔ (ty ≠ .pairMsg1 → 97 ≤ f.len ∧
    ((keyInfo f.packet).KeyDescVer = keyDescTkip ∨ (keyInfo f.packet).KeyDescVer = keyDescAes →
      bodyLen f.packet + lengthEapolH ≤ f.len)) := by
  unfold readMic
  by_cases hty : ty = .pairMsg1
  · rw [if_pos hty]
    exact iff_of_true rfl fun h => absurd hty h
  rw [if_neg hty, forall_prop_of_true hty, read_bind, read_bind]
  have hfixed : 2 + 2 ≤ f.len ∧ 81 + 16 ≤ f.len ↔ 97 ≤ f.len := by omega
  rw [← and_assoc, hfixed]
  refine and_congr_right fun _ => ?_
  by_cases hver : (keyInfo f.packet).KeyDescVer = keyDescTkip ∨
    (keyInfo f.packet).KeyDescVer = keyDescAes
  · rw [if_pos hver, forall_prop_of_true hver]
    constructor
    · intro h
      have hle := Received.le_of_read h
      omega
    · intro h
      exact Received.read_of_le (by omega)
  · rw [if_neg hver]
    exact iff_of_true rfl fun h => absurd h hver

theorem unit_bind {α : Type} {x : Except Overrun Unit} {k : Unit → Except Overrun α} {y : α} :
    (x >>= k) = .ok y ↔ x = .ok () ∧ k () = .ok y := by
  constructor
  · intro h
    obtain ⟨u, hx, hk⟩ := ok_of_bind h
    exact ⟨hx, hk⟩
  · rintro ⟨rfl, hk⟩
    exact hk

theorem parseIn_iff (found : Option (Mem × Nat)) :
    (∃ x, parseIn env s f ty found = .ok x) ↔
      (keyDataEncrypted ty s.entry.AuthMode.isWpa2 = true → ∀ k n, found = some (k, n) →
        GroupKeyFits k (n % 256) s.entry.AuthMode.isWpa2) := by
  cases found with
  | none => exact iff_of_true ⟨_, rfl⟩ fun _ k n h => by cases h
  | some found =>
      obtain ⟨k, n⟩ := found
      unfold parseIn
      dsimp only
      rw [rtmpParseEapolKeyDataIn_iff, BitVec.toNat_ofNat]
      constructor
      · intro h henc k' n' heq
        cases heq
        exact h henc
      · intro h henc
        exact h henc k n rfl

/-- Key data that fits is found. -/
theorem keyDataOf_ok (c : Crypto) (ptk : Bytes 64) {bWPA2 : Bool}
    (h : 0 < keyDataLen f.packet → CopyFits g f ty bWPA2) :
    ∃ found, keyDataOf c g heap ptk f.packet ty bWPA2 = .ok found := by
  have hmax : maxLenOfRsnie = 255 := rfl
  unfold keyDataOf
  dsimp only
  split_ifs with hzero henc haes hg hlen hg hlen hty hlen
  all_goals first
    | exact ⟨_, rfl⟩
    | exfalso
  · have hfits := (h (Nat.pos_of_ne_zero hzero)).encrypted henc (by simpa using hg)
    have h8 := hfits.2.2 haes
    omega
  · have hfits := (h (Nat.pos_of_ne_zero hzero)).encrypted henc (by simpa using hg)
    omega
  · have hfits := (h (Nat.pos_of_ne_zero hzero)).clear (Bool.eq_false_iff.mpr henc) hty
    omega

/-- Behind the checks. -/
theorem parsed_iff : (∃ x, (keyDataIn g heap r s.entry.PTK f ty s.entry.AuthMode.isWpa2 >>=
      parseIn env s f ty) = .ok x) ↔
    99 ≤ f.len ∧ (0 < keyDataLen f.packet → CopyFits g f ty s.entry.AuthMode.isWpa2) ∧
      (keyDataEncrypted ty s.entry.AuthMode.isWpa2 = true → ∀ k n,
        keyDataOf (withCiphers env r).toCrypto g heap s.entry.PTK f.packet ty
          s.entry.AuthMode.isWpa2 = .ok (some (k, n)) →
        GroupKeyFits k (n % 256) s.entry.AuthMode.isWpa2) := by
  constructor
  · rintro ⟨x, hx⟩
    obtain ⟨found, hfound, hparse⟩ := ok_of_bind hx
    obtain ⟨hfix, hcopy, hof⟩ := (keyDataIn_iff env s.entry.PTK _).mp hfound
    refine ⟨hfix, hcopy, fun henc k n hkn => ?_⟩
    rw [hof] at hkn
    cases hkn
    exact (parseIn_iff _).mp ⟨x, hparse⟩ henc k n rfl
  · rintro ⟨hfix, hcopy, hgroup⟩
    obtain ⟨found, hfound⟩ := keyDataOf_ok (withCiphers env r).toCrypto s.entry.PTK hcopy
    obtain ⟨x, hx⟩ := (parseIn_iff found).mpr fun henc k n hkn =>
      hgroup henc k n (hfound.trans (congrArg _ hkn))
    refine ⟨x, ?_⟩
    rw [(keyDataIn_iff env s.entry.PTK _).mpr ⟨hfix, hcopy, hfound⟩]
    exact hx

theorem sanity_iff (hheap : g.keyData = some heap) :
    (∃ x, peerWpaMessageSanityIn env g r s f ty = .ok x) ↔ FrameFits env g heap r s f ty := by
  unfold peerWpaMessageSanityIn
  rw [hheap]
  simp only [read_bind, exists_and_left]
  have hcounter : 5 + 2 ≤ f.len ∧ 9 + 8 ≤ f.len ↔ 17 ≤ f.len := by omega
  rw [← and_assoc, hcounter]
  cases hreplay : replayDiff s.entry f.packet ty with
  | true =>
      simp only [if_true]
      constructor
      · rintro ⟨hlen, -⟩
        have hno : ¬ PassesChecks env s f ty := fun h =>
          absurd (hreplay.symm.trans h.1).symm Bool.false_ne_true
        have hno' : replayDiff s.entry f.packet ty ≠ false := by
          rw [hreplay]
          exact Bool.noConfusion
        exact ⟨hlen, fun h => absurd h hno', fun h => absurd h hno', fun h => absurd h hno,
          fun h => absurd h hno, fun h => absurd h hno⟩
      · intro h
        exact ⟨h.counter, (false, s), rfl⟩
  | false =>
      rw [if_neg Bool.false_ne_true]
      simp only [unit_bind, exists_and_left, readMic_iff]
      by_cases hbad : ty ≠ .pairMsg1 ∧
          keyMic f.packet ≠ desiredMic env.toCrypto s.entry.PTK f.packet
      · have hno : ¬ PassesChecks env s f ty := fun h => hbad.2 (h.2 hbad.1)
        rw [if_pos hbad]
        constructor
        · rintro ⟨hlen, hread, -⟩
          exact ⟨hlen, fun _ h => (hread h).1, fun _ h => (hread h).2, fun h => absurd h hno,
            fun h => absurd h hno, fun h => absurd h hno⟩
        · intro h
          exact ⟨h.counter, fun hty => ⟨h.mic hreplay hty, h.text hreplay hty⟩, (false, s), rfl⟩
      · have hpass : PassesChecks env s f ty := by
          refine ⟨hreplay, fun hty => ?_⟩
          by_contra hne
          exact hbad ⟨hty, hne⟩
        rw [if_neg hbad, parsed_iff]
        constructor
        · rintro ⟨hlen, hread, hfix, hcopy, hgroup⟩
          exact ⟨hlen, fun _ h => (hread h).1, fun _ h => (hread h).2, fun _ => hfix,
            fun _ => hcopy, fun _ => hgroup⟩
        · intro h
          exact ⟨h.counter, fun hty => ⟨h.mic hreplay hty, h.text hreplay hty⟩, h.header hpass,
            h.copy hpass, h.groupKey hpass⟩

end Frame

/-! ## The result -/

/-- Each access of `PeerWpaMessageSanity` is in its place. -/
def InBounds (env : Env) (g : Grants) (r : Mem) (s : Station) (e : MlmeElem) (ty : MsgType) : Prop :=
  ∃ x, peerWpaMessageSanityIn env g r s (received e) ty = .ok x

/-- **EAPOL key data stays in bounds** for exactly these frames, if there is memory for
`KEYDATA`. -/
theorem inBounds_iff (env : Env) (g : Grants) (r : Mem) (s : Station) (e : MlmeElem)
    (ty : MsgType) : InBounds env g r s e ty ↔
      ∀ heap, g.keyData = some heap → FrameFits env g heap r s (received e) ty := by
  unfold InBounds
  cases hheap : g.keyData with
  | none =>
      refine iff_of_true ⟨(false, s), ?_⟩ fun heap h => by cases h
      simp only [peerWpaMessageSanityIn, hheap]
  | some heap =>
      rw [sanity_iff hheap]
      constructor
      · intro h heap' heq
        cases heq
        exact h
      · intro h
        exact h heap rfl

/-! ## In bounds it is the same routine -/

/-- A key that was found, or is too short. -/
def kdeResult : Option FoundGtk → KdeResult
  | none => .tooShort
  | some gtk => .found gtk

theorem kdeLoop_of_walk {k : Mem} (n : BitVec 8) (d : Nat) : ∀ (o : BitVec 8) (gtk : FoundGtk) x,
    n.toNat - o.toNat = d → kdeWalk k n o gtk = .ok x →
      kdeLoop k n.toNat o.toNat gtk = kdeResult x := by
  induction d using Nat.strongRecOn with
  | _ d ih =>
    intro o gtk x hd h
    rw [kdeWalk] at h
    cases hread : readKeyData n.toNat (o.toNat + 1) 1 with
    | error e =>
        rw [hread] at h
        cases h
    | ok u =>
        rw [hread] at h
        dsimp only at h
        by_cases hin : o.toNat + 2 + (k (o.toNat + 1)).toNat ≤ n.toNat
        · have hless := skipOffset_lt hin
          have hnext := skipOffset_add hin
          rw [if_pos hin] at h
          cases hat : kdeAt k n.toNat o.toNat with
          | error e =>
              rw [hat] at h
              cases h
          | ok found =>
              rw [hat] at h
              cases hk : isGtkKde k o.toNat with
              | false =>
                  obtain ⟨rfl, -⟩ := (kdeAt_other hin hk).mp hat
                  rw [kdeLoop_other hin (by rw [hk]; exact Bool.false_ne_true), ← hnext]
                  exact ih _ (by omega) _ gtk x rfl h
              | true =>
                  rcases (kdeAt_gtk hin hk).mp hat with ⟨hge, hle, rfl⟩ | ⟨hge, hle, rfl⟩
                  · cases h
                    exact kdeLoop_short hin hk (by bv_omega)
                  · rw [kdeLoop_gtk hin hk (by bv_omega) (by bv_omega), ← hnext]
                    exact ih _ (by omega) _ _ x rfl h
        · rw [if_neg hin] at h
          cases h
          exact kdeLoop_stop hin

theorem parse_of_in {env : Env} {s : Station} {k : Mem} {n : BitVec 8} {groupKeyIndex : Nat}
    {ty : MsgType} {bWPA2 : Bool} {x : Bool × Station}
    (h : rtmpParseEapolKeyDataIn env s k n groupKeyIndex ty bWPA2 = .ok x) :
    rtmpParseEapolKeyData env s k n.toNat groupKeyIndex ty bWPA2 = .ok x := by
  unfold rtmpParseEapolKeyDataIn at h
  unfold rtmpParseEapolKeyData
  split_ifs at h ⊢ with hskip hwpa2 hwpa hlong
  · exact ok_eq_ok.mpr (ok_eq_ok.mp h)
  · obtain ⟨found, hwalk, hfound⟩ := ok_of_bind h
    have hloop := kdeLoop_of_walk n _ 0 ⟨0, []⟩ found rfl hwalk
    rw [show kdeLoop k n.toNat 0 ⟨0, []⟩ = kdeResult found from hloop]
    cases found <;> exact ok_eq_ok.mpr (pure_eq_ok.mp hfound)
  · have hle := (writeTo_bind.mp h).1
    exact absurd hlong (Nat.not_lt.mpr hle)
  · exact ok_eq_ok.mpr (pure_eq_ok.mp (writeTo_bind.mp h).2)
  · exact ok_eq_ok.mpr (ok_eq_ok.mp h)

/-- **In bounds the routine returns what `peerWpaMessageSanity` does.** -/
theorem peerWpaMessageSanity_of_in {env : Env} {g : Grants} {r : Mem} {s : Station} {f : Received}
    {ty : MsgType} {x : Bool × Station} (h : peerWpaMessageSanityIn env g r s f ty = .ok x) :
    peerWpaMessageSanity (withCiphers env r) g s f.packet ty = .ok x := by
  unfold peerWpaMessageSanityIn at h
  unfold peerWpaMessageSanity
  cases hheap : g.keyData with
  | none =>
      rw [hheap] at h
      exact ok_eq_ok.mpr (ok_eq_ok.mp h)
  | some heap =>
      rw [hheap] at h
      simp only [read_bind] at h
      obtain ⟨-, -, h⟩ := h
      dsimp only
      by_cases hreplay : replayDiff s.entry f.packet ty = true
      · rw [if_pos hreplay] at h ⊢
        exact ok_eq_ok.mpr (pure_eq_ok.mp h)
      rw [if_neg hreplay, unit_bind] at h
      rw [if_neg hreplay]
      obtain ⟨-, h⟩ := h
      by_cases hbad : ty ≠ .pairMsg1 ∧
          keyMic f.packet ≠ desiredMic env.toCrypto s.entry.PTK f.packet
      · rw [if_pos hbad] at h
        refine (if_pos hbad).trans ?_
        exact ok_eq_ok.mpr (pure_eq_ok.mp h)
      rw [if_neg hbad] at h
      refine (if_neg hbad).trans ?_
      obtain ⟨found, hfound, hparse⟩ := ok_of_bind h
      rw [((keyDataIn_iff env s.entry.PTK _).mp hfound).2.2]
      cases found with
      | none => exact ok_eq_ok.mpr (ok_eq_ok.mp hparse)
      | some found =>
          have hall := parse_of_in hparse
          rw [BitVec.toNat_ofNat] at hall
          exact hall

/-- A station of an access point with WPA2 and AES. -/
def securedStation : Station :=
  { Station.start fun _ => .zero with
    entry := { MacEntry.zero with
      client := true
      Sst := .assoc
      AuthMode := .wpa2Psk
      WepStatus := .encryption3Enabled
      WpaState := .ptkInitDone } }

/-- Group message 1, cut off behind `KEY_INFO`. -/
def runtMessage : MlmeElem where
  Msg i := if i < 32 then 0 else [0x02, 0x03, 0x00, 0x03, 0x02, 0x03, 0x82].getD (i - 32) 0
  MsgLen := 39

/-- What is granted for it. -/
def runtGrants : Grants where
  keyData := some fun _ => 0
  unwrap := true
  prf := true
  mpool := true
  snonce := .zero 32
  ptkStack := .zero 64

/-- The frame passes the checks in front, and its replay counter is read behind its end. -/
theorem runtMessage_broken : dispatch securedStation runtMessage = some .groupMsg1 ∧
    ∀ env, ¬ InBounds env runtGrants (fun _ => 0) securedStation runtMessage .groupMsg1 := by
  refine ⟨by decide, fun env h => ?_⟩
  have hfits := (sanity_iff (g := runtGrants) rfl).mp h
  exact absurd hfits.counter (by decide)

end ExtDrv.Rt3370.Wpa
