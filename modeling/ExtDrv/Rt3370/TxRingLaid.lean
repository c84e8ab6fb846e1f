import ExtDrv.Rt3370.TxRingBulk

/-!
# How the frames lie in the ring

The frames that wait to be sent stand one behind the other from `ENextBulkOutPosition` on, up to
`CurWritePosition`; or up to one that ends the lap, and then from the front of the buffer. What
each operation on the ring keeps of this is stated for it here.
-/

namespace ExtDrv.Rt3370.TxRing

open Memory Blocks

/-! ## The frames that wait -/

/-- All that wait were written in the lap that is being sent. -/
structure OneLap (nextBulk eNextBulk curWrite room : Nat) (waiting : List Block) : Prop where
  tiles : Tiles eNextBulk waiting curWrite
  goesOn : ∀ f ∈ waiting, ¬ endsLap f.bytes
  bulk : nextBulk = 0 ∨ nextBulk + 20 ≤ eNextBulk ∨
    curWrite < nextBulk ∧ curWrite + room ≤ nextBulk

/-- The rest of one lap waits, and behind it what was written in the next. -/
structure TwoLaps (nextBulk eNextBulk curWrite room : Nat) (ahead behind : List Block) : Prop where
  tiles : ∃ stop, Tiles eNextBulk ahead stop ∧ stop + 8 ≤ 122880
  last : ∃ init l, ahead = init ++ [l] ∧ endsLap l.bytes ∧ ∀ f ∈ init, ¬ endsLap f.bytes
  tilesBehind : Tiles 8 behind curWrite
  goesOn : ∀ f ∈ behind, ¬ endsLap f.bytes
  write : curWrite = 8 ∨ curWrite < nextBulk
  room : curWrite + room ≤ nextBulk
  bulk : nextBulk + 20 ≤ eNextBulk

/-- The ring with the frames `waiting` to be sent, and `flying` in the transfer that was
submitted. In front of `NextBulkOutPosition`, where that lies ahead, there is `room`. -/
structure Ring (c : HtTxContext) (room : Nat) (waiting flying : List Block) : Prop where
  laid : OneLap c.nextBulkOutPosition c.eNextBulkOutPosition c.curWritePosition room waiting ∨
    ∃ ahead behind, waiting = ahead ++ behind ∧
      TwoLaps c.nextBulkOutPosition c.eNextBulkOutPosition c.curWritePosition room ahead behind
  standing : ∀ f ∈ waiting, f.Standing c.restored
  formed : ∀ f ∈ waiting, Formed f.bytes
  low : c.eNextBulkOutPosition = 0 ∧ c.curWritePosition = 0 ∧ c.bCurWriting = false ∨
    8 ≤ c.eNextBulkOutPosition
  bulkLow : c.nextBulkOutPosition = 0 ∨ 8 ≤ c.nextBulkOutPosition
  high : c.curWritePosition ≤ 116934 ∧ c.eNextBulkOutPosition + 8 ≤ 122880 ∧
    c.nextBulkOutPosition + 8 ≤ 122880
  idleHigh : c.bCurWriting = false → c.curWritePosition ≤ 116926
  saved : c.bCopySavePad = true → c.eNextBulkOutPosition = c.curWritePosition →
    c.bCurWriting = true
  carries : flying ≠ [] → (carried c.transfer).map plain = flying.map fun f => plain f.bytes
  place : flying ≠ [] → 8 ≤ c.nextBulkOutPosition ∧
    c.nextBulkOutPosition + c.bulkOutSize ≤ 122880 ∧
    (c.nextBulkOutPosition ≤ c.eNextBulkOutPosition →
      c.nextBulkOutPosition + c.bulkOutSize ≤ c.eNextBulkOutPosition + 4 ∧
      (c.eNextBulkOutPosition = c.curWritePosition → c.bCurWriting = true →
        c.bCopySavePad = true ∨
          c.nextBulkOutPosition + c.bulkOutSize ≤ c.eNextBulkOutPosition))

variable {c : HtTxContext} {room : Nat} {waiting flying : List Block}

/-- A transfer that is done leaves the ring as it is. -/
theorem Ring.landed (h : Ring c room waiting flying) : Ring c room waiting [] :=
  { h with carries := fun hne => absurd rfl hne, place := fun hne => absurd rfl hne }

/-- Less room is asked for. -/
theorem Ring.mono (h : Ring c room waiting flying) {room' : Nat} (hle : room' ≤ room) :
    Ring c room' waiting flying := by
  refine { h with laid := h.laid.imp (fun hone => ?_) ?_ }
  · exact { hone with bulk := by have hbulk := hone.bulk; omega }
  · rintro ⟨ahead, behind, rfl, htwo⟩
    exact ⟨ahead, behind, rfl, { htwo with room := by have hroom := htwo.room; omega }⟩

/-- RTUSBFreeDescriptorRequest finds the room it grants. -/
theorem Ring.grant (h : Ring c 0 waiting flying) {numberRequired : Nat}
    (hreq : rtusbFreeDescriptorRequest c numberRequired = true) :
    Ring c (numberRequired + 2048) waiting flying ∧ c.bCurWriting = false := by
  have hfree : ¬ (c.curWritePosition < c.nextBulkOutPosition ∧
      c.nextBulkOutPosition < c.curWritePosition + numberRequired + 2048) := fun hfull => by
    rw [rtusbFreeDescriptorRequest, if_pos hfull] at hreq
    cases hreq
  have hfront : ¬ (c.curWritePosition = 8 ∧ c.nextBulkOutPosition < numberRequired + 2048) :=
    fun hfull => by
      rw [rtusbFreeDescriptorRequest, if_neg hfree, if_pos hfull] at hreq
      cases hreq
  have hidle : c.bCurWriting = false := by
    rw [rtusbFreeDescriptorRequest, if_neg hfree, if_neg hfront] at hreq
    simpa using hreq
  refine ⟨{ h with laid := h.laid.imp (fun hone => ?_) ?_ }, hidle⟩
  · exact { hone with bulk := by have hbulk := hone.bulk; omega }
  · rintro ⟨ahead, behind, rfl, htwo⟩
    refine ⟨ahead, behind, rfl, { htwo with room := ?_ }⟩
    have hwrite := htwo.write
    have hroom := htwo.room
    omega

/-- Where nothing is kept in front of `CurWritePosition`, nothing waits. -/
theorem Ring.eq_nil (h : Ring c room waiting flying)
    (heq : c.eNextBulkOutPosition = c.curWritePosition) : waiting = [] := by
  rcases h.laid with hone | ⟨ahead, behind, rfl, htwo⟩
  · have hsize := hone.tiles.size_le fun f hf => (h.formed f hf).long
    exact List.eq_nil_of_length_eq_zero (by omega)
  · have hroom := htwo.room
    have hbulk := htwo.bulk
    omega

/-- Where `NextBulkOutPosition` lies ahead there is room in front of it. -/
theorem Ring.room_le (h : Ring c room waiting flying)
    (hahead : c.curWritePosition < c.nextBulkOutPosition) :
    c.curWritePosition + room ≤ c.nextBulkOutPosition := by
  rcases h.laid with hone | ⟨ahead, behind, -, htwo⟩
  · have hle := hone.tiles.le
    have hbulk := hone.bulk
    omega
  · exact htwo.room

/-- The first frame of a batch begins: in an empty ring behind 8 bytes of padding. -/
theorem Ring.begin {numberRequired : Nat} (h : Ring c (numberRequired + 2048) waiting flying)
    (hidle : c.bCurWriting = false) : Ring c.beginWriting (numberRequired + 2040) waiting flying := by
  by_cases heq : c.eNextBulkOutPosition = c.curWritePosition
  · have hc : c.beginWriting = { c with
        bCurWriting := true,
        eNextBulkOutPosition := c.eNextBulkOutPosition + 8,
        curWritePosition := c.curWritePosition + 8,
        curWriteRealPos := c.curWritePosition + 8 } := by
      simp [HtTxContext.beginWriting, heq]
    have hnil := h.eq_nil heq
    subst hnil
    have hcopy : c.bCopySavePad = false := by
      by_contra hne
      have hwriting := h.saved (by simpa using hne) heq
      rw [hidle] at hwriting
      cases hwriting
    have hbulk : c.nextBulkOutPosition = 0 ∨ c.nextBulkOutPosition + 20 ≤ c.eNextBulkOutPosition ∨
        c.curWritePosition < c.nextBulkOutPosition ∧
          c.curWritePosition + (numberRequired + 2048) ≤ c.nextBulkOutPosition := by
      rcases h.laid with hone | ⟨ahead, behind, -, htwo⟩
      · exact hone.bulk
      · exact .inr (.inl htwo.bulk)
    have hhigh := h.high
    have hidleHigh := h.idleHigh hidle
    rw [hc]
    exact
      { laid := .inl
          { tiles := show c.eNextBulkOutPosition + 8 = c.curWritePosition + 8 by omega
            goesOn := fun f hf => by cases hf
            bulk := by
              show c.nextBulkOutPosition = 0 ∨
                c.nextBulkOutPosition + 20 ≤ c.eNextBulkOutPosition + 8 ∨
                c.curWritePosition + 8 < c.nextBulkOutPosition ∧
                  c.curWritePosition + 8 + (numberRequired + 2040) ≤ c.nextBulkOutPosition
              omega }
        standing := fun f hf => by cases hf
        formed := fun f hf => by cases hf
        low := .inr (Nat.le_add_left _ _)
        bulkLow := h.bulkLow
        high := by
          show c.curWritePosition + 8 ≤ 116934 ∧ c.eNextBulkOutPosition + 8 + 8 ≤ 122880 ∧
            c.nextBulkOutPosition + 8 ≤ 122880
          omega
        idleHigh := by simp
        saved := by simp
        carries := h.carries
        place := fun hne => by
          obtain ⟨hlow, hin, hplace⟩ := h.place hne
          refine ⟨hlow, hin, fun hle => ?_⟩
          show c.nextBulkOutPosition + c.bulkOutSize ≤ c.eNextBulkOutPosition + 8 + 4 ∧
            (c.eNextBulkOutPosition + 8 = c.curWritePosition + 8 → true = true →
              c.bCopySavePad = true ∨
                c.nextBulkOutPosition + c.bulkOutSize ≤ c.eNextBulkOutPosition + 8)
          have hle' : c.nextBulkOutPosition ≤ c.eNextBulkOutPosition + 8 := hle
          have hbehind := (hplace (by omega)).1
          exact ⟨by omega, fun _ _ => .inr (by omega)⟩ }
  · have hc : c.beginWriting = { c with
        bCurWriting := true,
        curWriteRealPos := c.curWritePosition } := by
      simp [HtTxContext.beginWriting, heq]
    have hless : Ring c (numberRequired + 2040) waiting flying := h.mono (by omega)
    rw [hc]
    exact
      { hless with
        low := .inr (by
          show 8 ≤ c.eNextBulkOutPosition
          have hlow := hless.low
          omega)
        idleHigh := by simp
        saved := by simp
        standing := hless.standing
        carries := hless.carries
        place := fun hne => by
          obtain ⟨hlow, hin, hplace⟩ := hless.place hne
          exact ⟨hlow, hin, fun hle => ⟨(hplace hle).1, fun habs => absurd habs heq⟩⟩ }

/-! ## Where the writer may store -/

/-- Nothing that is still to be sent lies in `[lo, hi)`. -/
structure Zone (c : HtTxContext) (waiting flying : List Block) (lo hi : Nat) : Prop where
  inside : hi ≤ 122880
  waiting : ∀ f ∈ waiting, hi ≤ f.pos ∨ f.pos + f.bytes.length ≤ lo
  flying : flying ≠ [] →
    hi ≤ c.nextBulkOutPosition ∨ c.nextBulkOutPosition + c.bulkOutSize ≤ lo
  saved : c.bCopySavePad = true →
    hi ≤ c.eNextBulkOutPosition ∨ c.eNextBulkOutPosition + 8 ≤ lo

/-- A batch of `size` bytes that fits has its zone; in front of it are the first bytes of the
batch once these were saved. -/
theorem Ring.zone {size lo : Nat} (h : Ring c room waiting flying) (hpos : 0 < room)
    (hw : c.bCurWriting = true) (hin : c.curWritePosition + size ≤ 122880)
    (hroom : c.curWritePosition < c.nextBulkOutPosition →
      c.curWritePosition + size ≤ c.nextBulkOutPosition)
    (hlo : c.curWritePosition ≤ lo)
    (hsaved : c.eNextBulkOutPosition = c.curWritePosition → c.bCopySavePad = true →
      c.curWritePosition + 8 ≤ lo) :
    Zone c waiting flying lo (c.curWritePosition + size) := by
  rcases h.laid with hone | ⟨ahead, behind, rfl, htwo⟩
  · have hle := hone.tiles.le
    have hgap : c.eNextBulkOutPosition = c.curWritePosition ∨
        c.eNextBulkOutPosition + 20 ≤ c.curWritePosition := by
      have hsize := hone.tiles.size_le fun f hf => (h.formed f hf).long
      rcases Nat.eq_zero_or_pos waiting.length with hzero | hpos
      · rw [List.eq_nil_of_length_eq_zero hzero] at hone
        exact .inl hone.tiles
      · exact .inr (by omega)
    have hbulk := hone.bulk
    exact
      { inside := hin
        waiting := fun f hf => .inr (Nat.le_trans (hone.tiles.bounds hf).2 hlo)
        flying := fun hne => by
          obtain ⟨hlow, -, hplace⟩ := h.place hne
          rcases hbulk with hzero | hbehind | hahead
          · omega
          · obtain ⟨hend, hwriting⟩ := hplace (by omega)
            rcases hgap with heq | hgap
            · rcases hwriting heq hw with hcopy | hend'
              · have hfirst := hsaved heq hcopy
                omega
              · omega
            · omega
          · have hsize := hroom hahead.1
            omega
        saved := fun hcopy => by
          rcases hgap with heq | hgap
          · have hfirst := hsaved heq hcopy
            omega
          · omega }
  · have hfront := htwo.room
    have hbulk := htwo.bulk
    have hsize := hroom (by omega)
    obtain ⟨stop, htiles, -⟩ := htwo.tiles
    exact
      { inside := hin
        waiting := fun f hf => by
          rcases List.mem_append.mp hf with hahead | hbehind
          · have hpos := (htiles.bounds hahead).1
            omega
          · have hend := (htwo.tilesBehind.bounds hbehind).2
            omega
        flying := fun _ => by omega
        saved := fun _ => by omega }

section Put

variable {lo hi : Nat} {ws : List Block}

/-- A store in the zone is a store beside the saved bytes. -/
theorem Zone.restored_put (hz : Zone c waiting flying lo hi)
    (hws : ∀ w ∈ ws, lo ≤ w.pos ∧ w.pos + w.bytes.length ≤ hi) :
    (c.put ws).restored = storeAll c.restored ws := by
  cases hcopy : c.bCopySavePad with
  | false => simp [HtTxContext.restored, HtTxContext.put, hcopy]
  | true =>
      have hsaved := hz.saved hcopy
      simp only [HtTxContext.restored, HtTxContext.put, hcopy, if_true]
      refine storeAll_comm fun w hw => ?_
      have hin := hws w hw
      rw [length_segment]
      omega

theorem Ring.put (h : Ring c room waiting flying) (hz : Zone c waiting flying lo hi)
    (hws : ∀ w ∈ ws, lo ≤ w.pos ∧ w.pos + w.bytes.length ≤ hi) :
    Ring (c.put ws) room waiting flying :=
  { laid := h.laid
    standing := fun f hf => by
      rw [hz.restored_put hws]
      refine (h.standing f hf).congr fun a hlow hhigh => storeAll_outside fun w hw => ?_
      have hin := hws w hw
      have hout := hz.waiting f hf
      omega
    formed := h.formed
    low := h.low
    bulkLow := h.bulkLow
    high := h.high
    idleHigh := h.idleHigh
    saved := h.saved
    carries := fun hne => by
      have hsame : (c.put ws).transfer = c.transfer :=
        segment_congr fun i hsent => storeAll_outside fun w hw => by
          have hin := hws w hw
          have hout := hz.flying hne
          have hsent' : i < c.bulkOutSize := hsent
          show c.nextBulkOutPosition + i < w.pos ∨
            w.pos + w.bytes.length ≤ c.nextBulkOutPosition + i
          omega
      rw [hsame]
      exact h.carries hne
    place := h.place }

end Put

/-! ## A batch is done -/

/-- The frames of a batch: they tile its place, and the last one ends the lap or not. -/
structure Batch (c : HtTxContext) (frames : List Block) (size : Nat) (lastRound : Bool) : Prop where
  tiles : Tiles c.curWritePosition frames (c.curWritePosition + size)
  standing : ∀ f ∈ frames, f.Standing c.restored
  formed : ∀ f ∈ frames, Formed f.bytes
  last : ∃ init l, frames = init ++ [l] ∧ (∀ f ∈ init, ¬ endsLap f.bytes) ∧
    (endsLap l.bytes ↔ lastRound = true)

theorem Batch.size_le {c : HtTxContext} {frames : List Block} {size : Nat} {lastRound : Bool}
    (h : Batch c frames size lastRound) : 20 ≤ size := by
  obtain ⟨init, l, hframes, -⟩ := h.last
  have hmem : l ∈ frames := hframes ▸ List.mem_append_right _ (List.mem_singleton_self l)
  have hbounds := h.tiles.bounds hmem
  have hlong := (h.formed l hmem).long
  omega

/-- Where a batch does not end the lap, `NextBulkOutPosition` stays behind it or in front. -/
theorem Ring.endWriting_goesOn {size : Nat} {frames : List Block}
    (h : Ring c room waiting flying) (hpos : 0 < room) (hw : c.bCurWriting = true)
    (hbatch : Batch c frames size false) (hin : c.curWritePosition + size ≤ 116926)
    (hroom : c.curWritePosition < c.nextBulkOutPosition →
      c.curWritePosition + size + 8 ≤ c.nextBulkOutPosition) :
    Ring (c.endWriting (c.curWritePosition + size) false) 0 (waiting ++ frames) flying := by
  have hsize := hbatch.size_le
  have hnone : ∀ f ∈ frames, ¬ endsLap f.bytes := by
    obtain ⟨init, l, rfl, hinit, hlast⟩ := hbatch.last
    intro f hf
    rcases List.mem_append.mp hf with hmem | hmem
    · exact hinit f hmem
    · rw [List.mem_singleton.mp hmem, hlast]
      simp
  have hhigh := h.high
  have hpast : c.eNextBulkOutPosition ≠ c.curWritePosition + size := by
    rcases h.laid with hone | ⟨ahead, behind, -, htwo⟩
    · have hle := hone.tiles.le
      omega
    · have hfront := htwo.room
      have hbulk := htwo.bulk
      have hfits := hroom (by omega)
      omega
  exact
    { laid := by
        rcases h.laid with hone | ⟨ahead, behind, rfl, htwo⟩
        · refine .inl { tiles := hone.tiles.append hbatch.tiles, goesOn := ?_, bulk := ?_ }
          · exact List.forall_mem_append.mpr ⟨hone.goesOn, hnone⟩
          · show c.nextBulkOutPosition = 0 ∨ c.nextBulkOutPosition + 20 ≤ c.eNextBulkOutPosition ∨
              c.curWritePosition + size < c.nextBulkOutPosition ∧
                c.curWritePosition + size + 0 ≤ c.nextBulkOutPosition
            have hbulk := hone.bulk
            omega
        · refine .inr ⟨ahead, behind ++ frames, List.append_assoc .., ?_⟩
          have hfront := htwo.room
          have hfits := hroom (by omega)
          exact
            { tiles := htwo.tiles
              last := htwo.last
              tilesBehind := htwo.tilesBehind.append hbatch.tiles
              goesOn := List.forall_mem_append.mpr ⟨htwo.goesOn, hnone⟩
              write := .inr (by
                show c.curWritePosition + size < c.nextBulkOutPosition
                omega)
              room := by
                show c.curWritePosition + size + 0 ≤ c.nextBulkOutPosition
                omega
              bulk := htwo.bulk }
      standing := List.forall_mem_append.mpr ⟨h.standing, hbatch.standing⟩
      formed := List.forall_mem_append.mpr ⟨h.formed, hbatch.formed⟩
      low := .inr (by
        show 8 ≤ c.eNextBulkOutPosition
        rcases h.low with ⟨-, -, hidle⟩ | hlow
        · rw [hw] at hidle
          cases hidle
        · exact hlow)
      bulkLow := h.bulkLow
      high := by
        show c.curWritePosition + size ≤ 116934 ∧ c.eNextBulkOutPosition + 8 ≤ 122880 ∧
          c.nextBulkOutPosition + 8 ≤ 122880
        omega
      idleHigh := fun _ => hin
      saved := fun _ heq => absurd heq hpast
      carries := h.carries
      place := fun hne => by
        obtain ⟨hlow, hinside, hplace⟩ := h.place hne
        exact ⟨hlow, hinside, fun hle => ⟨(hplace hle).1, fun heq => absurd heq hpast⟩⟩ }

/-- A batch that ends the lap sends the writer to the front of the buffer. -/
theorem Ring.endWriting_lastRound {size next : Nat} {frames : List Block}
    (h : Ring c room waiting flying) (hpos : 0 < room) (hbatch : Batch c frames size true)
    (hin : c.curWritePosition + size + 8 ≤ 122880)
    (hbulk : 0 < c.nextBulkOutPosition ∧ c.nextBulkOutPosition ≤ c.curWritePosition) :
    Ring (c.endWriting next true) 0 (waiting ++ frames) flying := by
  have hhigh := h.high
  have hbulkLow := h.bulkLow
  rcases h.laid with hone | ⟨ahead, behind, -, htwo⟩
  · have hbehind : c.nextBulkOutPosition + 20 ≤ c.eNextBulkOutPosition := by
      have hcases := hone.bulk
      omega
    obtain ⟨init, l, rfl, hinit, hlast⟩ := hbatch.last
    have htwo : TwoLaps c.nextBulkOutPosition c.eNextBulkOutPosition 8 0
        (waiting ++ (init ++ [l])) [] :=
      { tiles := ⟨_, hone.tiles.append hbatch.tiles, hin⟩
        last := ⟨waiting ++ init, l, (List.append_assoc ..).symm, hlast.mpr rfl,
          List.forall_mem_append.mpr ⟨hone.goesOn, hinit⟩⟩
        tilesBehind := rfl
        goesOn := fun f hf => by cases hf
        write := .inl rfl
        room := by omega
        bulk := hbehind }
    exact
      { laid := .inr ⟨_, [], (List.append_nil _).symm, htwo⟩
        standing := List.forall_mem_append.mpr ⟨h.standing, hbatch.standing⟩
        formed := List.forall_mem_append.mpr ⟨h.formed, hbatch.formed⟩
        low := .inr (by
          show 8 ≤ c.eNextBulkOutPosition
          omega)
        bulkLow := h.bulkLow
        high := by
          show 8 ≤ 116934 ∧ c.eNextBulkOutPosition + 8 ≤ 122880 ∧
            c.nextBulkOutPosition + 8 ≤ 122880
          omega
        idleHigh := fun _ => by
          show 8 ≤ 116926
          decide
        saved := fun _ heq => by
          have heq' : c.eNextBulkOutPosition = 8 := heq
          omega
        carries := h.carries
        place := fun hne => by
          obtain ⟨hlow, hinside, hplace⟩ := h.place hne
          refine ⟨hlow, hinside, fun hle => ⟨(hplace hle).1, fun heq => ?_⟩⟩
          have heq' : c.eNextBulkOutPosition = 8 := heq
          omega }
  · have hfront := htwo.room
    omega

/-! ## A transfer is made up -/

theorem lap_of_tiles {cw p : Nat} {fs : List Block} (h : Tiles p fs cw)
    (hlong : ∀ f ∈ fs, 20 ≤ f.bytes.length) (hnone : ∀ f ∈ fs, ¬ endsLap f.bytes) :
    Lap cw p fs := by
  induction fs generalizing p with
  | nil => exact h
  | cons f fs ih =>
      obtain ⟨hpos, htail⟩ := h
      obtain ⟨hlongf, hlongs⟩ := List.forall_mem_cons.mp hlong
      obtain ⟨hnonef, hnones⟩ := List.forall_mem_cons.mp hnone
      have hle := htail.le
      refine ⟨hpos, by omega, ?_⟩
      rw [if_neg hnonef]
      exact ih htail hlongs hnones

theorem lap_of_last {cw p q : Nat} {init : List Block} {l : Block} (h : Tiles p (init ++ [l]) q)
    (hinit : ∀ f ∈ init, ¬ endsLap f.bytes) (hl : endsLap l.bytes) (hcw : cw < p) :
    Lap cw p (init ++ [l]) := by
  induction init generalizing p with
  | nil =>
      obtain ⟨hpos, -⟩ := h
      refine ⟨hpos, by omega, ?_⟩
      rw [if_pos hl]
  | cons f init ih =>
      obtain ⟨hpos, htail⟩ := h
      obtain ⟨hf, hrest⟩ := List.forall_mem_cons.mp hinit
      refine ⟨hpos, by omega, ?_⟩
      rw [if_neg hf]
      exact ih htail hrest (by omega)

/-- What a bulk-out leaves: the ring with what it took in flight, and the writer's bytes as they
were. -/
structure Submits (c c' : HtTxContext) (room : Nat) (waiting flying : List Block) : Prop where
  ring : Ring c' room waiting flying
  ahead : 0 < room → c'.curWritePosition < c'.nextBulkOutPosition →
    c.curWritePosition < c.nextBulkOutPosition ∧ c.nextBulkOutPosition ≤ c'.nextBulkOutPosition
  kept : 0 < room → c.bCurWriting = true → ∀ a, c.curWritePosition ≤ a →
    (c.curWritePosition < c.nextBulkOutPosition → a < c.nextBulkOutPosition) →
    c'.restored a = c.restored a

theorem TakesOut.stop_le {c c' : HtTxContext} {taken rest : List Block}
    (h : TakesOut c c' taken rest) (hlong : ∀ f ∈ taken, 20 ≤ f.bytes.length) {stop : Nat}
    (htiles : Tiles c.eNextBulkOutPosition taken stop) : c.eNextBulkOutPosition + 20 ≤ stop := by
  have hsize := htiles.size_le hlong
  have hpos := List.length_pos_of_ne_nil h.nonempty
  omega

theorem OneLap.submits {c' : HtTxContext} {taken rest : List Block}
    (h : Ring c room (taken ++ rest) [])
    (hone : OneLap c.nextBulkOutPosition c.eNextBulkOutPosition c.curWritePosition room
      (taken ++ rest))
    (hreal : c.bCurWriting = true ↔ c.curWritePosition < c.curWriteRealPos)
    (hout : TakesOut c c' taken rest) : Submits c c' room rest taken := by
  obtain ⟨hformed, hformed'⟩ := List.forall_mem_append.mp h.formed
  obtain ⟨-, hstanding⟩ := List.forall_mem_append.mp h.standing
  obtain ⟨hnone, hnone'⟩ := List.forall_mem_append.mp hone.goesOn
  obtain ⟨stop, htiles, hsize, hsame, hends⟩ := hout.ends
  obtain ⟨hnext, hcopy⟩ : c'.eNextBulkOutPosition = stop ∧ (c'.bCopySavePad = true ↔
      stop ≠ c.curWritePosition ∨ c.curWritePosition < c.curWriteRealPos) := by
    rcases hends with ⟨-, -, -, f, hf, hend⟩ | ⟨hnext, -, -, hcopy⟩
    · exact absurd hend (hnone f hf)
    · exact ⟨hnext, hcopy⟩
  have htail : Tiles stop rest c.curWritePosition := hone.tiles.append_right htiles
  have hle := htail.le
  have hstop := hout.stop_le (fun f hf => (hformed f hf).long) htiles
  have hhigh := h.high
  have hlow := h.low
  have hcw := hout.curWritePosition
  have hnb := hout.nextBulkOutPosition
  have hwriting := hout.bCurWriting
  refine ⟨?_, by omega, ?_⟩
  · exact
      { laid := .inl (by
          rw [hcw, hnb, hnext]
          exact { tiles := htail, goesOn := hnone', bulk := .inr (.inl hstop) })
        standing := fun f hf => by
          have hbounds := htail.bounds hf
          have hlong := (hformed' f hf).long
          refine (hstanding f hf).congr fun a ha _ => hsame a (.inr (by omega)) (.inl ?_)
          exact hcopy.mpr (.inl (by omega))
        formed := hformed'
        low := .inr (by omega)
        bulkLow := .inr (by omega)
        high := by omega
        idleHigh := fun hidle => by
          rw [hcw]
          exact h.idleHigh (hwriting.symm.trans hidle)
        saved := fun hsaved heq => by
          rw [hwriting, hreal]
          rcases hcopy.mp hsaved with hne | hlt
          · omega
          · exact hlt
        carries := fun _ => hout.carries
        place := fun _ => by
          refine ⟨by omega, by omega, fun _ => ⟨by omega, fun heq hw => .inl ?_⟩⟩
          exact hcopy.mpr (.inr (hreal.mp (hwriting.symm.trans hw))) }
  · intro _ hw a ha _
    exact hsame a (.inr (by omega)) (.inl (hcopy.mpr (.inr (hreal.mp hw))))

/-- Of a lap of which a bulk-out did not take the last frame, it is the last that is left. -/
theorem last_left {taken rest init : List Block} {l : Block} (hsplit : taken ++ rest = init ++ [l])
    (hends : endsLap l.bytes) (hinit : ∀ f ∈ init, ¬ endsLap f.bytes)
    (hnone : ∀ f ∈ taken, ¬ endsLap f.bytes) :
    ∃ init' l', rest = init' ++ [l'] ∧ endsLap l'.bytes ∧ ∀ f ∈ init', ¬ endsLap f.bytes := by
  rcases List.eq_nil_or_concat rest with rfl | ⟨init', l', rfl⟩
  · have hmem : l ∈ taken := by
      rw [List.append_nil] at hsplit
      exact hsplit ▸ List.mem_append_right _ (List.mem_singleton_self l)
    exact absurd hends (hnone l hmem)
  · rw [List.concat_eq_append] at hsplit ⊢
    rw [← List.append_assoc] at hsplit
    obtain ⟨hinits, hls⟩ := List.append_inj' hsplit rfl
    rw [List.singleton_inj] at hls
    exact ⟨init', l', rfl, hls ▸ hends, fun f hf => hinit f (hinits ▸ List.mem_append_right _ hf)⟩

theorem TwoLaps.submits {c' : HtTxContext} {taken rest behind : List Block}
    (h : Ring c room (taken ++ rest ++ behind) [])
    (htwo : TwoLaps c.nextBulkOutPosition c.eNextBulkOutPosition c.curWritePosition room
      (taken ++ rest) behind)
    (hout : TakesOut c c' taken rest) : Submits c c' room (rest ++ behind) taken := by
  obtain ⟨hahead, hformedBehind⟩ := List.forall_mem_append.mp h.formed
  obtain ⟨hformed, hformed'⟩ := List.forall_mem_append.mp hahead
  obtain ⟨hstandingAhead, hstandingBehind⟩ := List.forall_mem_append.mp h.standing
  obtain ⟨-, hstanding⟩ := List.forall_mem_append.mp hstandingAhead
  obtain ⟨stop, htiles, hsize, hsame, hends⟩ := hout.ends
  obtain ⟨last, hlast, hlastIn⟩ := htwo.tiles
  have htail : Tiles stop rest last := hlast.append_right htiles
  have hle := htail.le
  have hstop := hout.stop_le (fun f hf => (hformed f hf).long) htiles
  have hhigh := h.high
  have hroom := htwo.room
  have hbulk := htwo.bulk
  have hcw := hout.curWritePosition
  have hnb := hout.nextBulkOutPosition
  have hwriting := hout.bCurWriting
  have hbehind := htwo.tilesBehind.le
  -- what the writer has written since the lap ended lies in front of all that was sent
  have hfront : ∀ a, a < c.eNextBulkOutPosition → c'.restored a = c.restored a := fun a ha =>
    hsame a (.inl ha) (.inr (.inl (by omega)))
  have hstandingBehind' : ∀ f ∈ behind, f.Standing c'.restored := fun f hf =>
    (hstandingBehind f hf).congr fun a _ ha => hfront a (by
      have hbounds := htwo.tilesBehind.bounds hf
      omega)
  refine ⟨?_, by omega, fun hpos _ a _ ha => hfront a (by
    have hlt := ha (by omega)
    omega)⟩
  rcases hends with ⟨hnext, hcopy, rfl, -⟩ | ⟨hnext, -, hnone, hcopy⟩
  · exact
      { laid := .inl (by
          rw [hcw, hnb, hnext]
          exact
            { tiles := htwo.tilesBehind
              goesOn := htwo.goesOn
              bulk := .inr (.inr (by omega)) })
        standing := hstandingBehind'
        formed := hformedBehind
        low := .inr (by omega)
        bulkLow := .inr (by omega)
        high := by omega
        idleHigh := fun hidle => by
          rw [hcw]
          exact h.idleHigh (hwriting.symm.trans hidle)
        saved := fun hsaved => by
          rw [hcopy] at hsaved
          cases hsaved
        carries := fun _ => hout.carries
        place := fun _ => ⟨by omega, by omega, fun _ => by omega⟩ }
  · obtain ⟨init, l, hsplit, hends, hinit⟩ := htwo.last
    have hlastRest := last_left hsplit hends hinit hnone
    have hmore : stop + 20 ≤ last := by
      obtain ⟨init', l', rfl, -⟩ := hlastRest
      have hmem := List.mem_append_right init' (List.mem_singleton_self l')
      have hbounds := htail.bounds hmem
      have hlong := (hformed' l' hmem).long
      omega
    have hsaves : c'.bCopySavePad = true := hcopy.mpr (.inl (by omega))
    exact
      { laid := .inr ⟨rest, behind, rfl, by
          rw [hcw, hnb, hnext]
          exact
            { tiles := ⟨last, htail, hlastIn⟩
              last := hlastRest
              tilesBehind := htwo.tilesBehind
              goesOn := htwo.goesOn
              write := .inr (by omega)
              room := by omega
              bulk := hstop }⟩
        standing := List.forall_mem_append.mpr ⟨fun f hf =>
          (hstanding f hf).congr fun a ha _ => hsame a (.inr (by
            have hbounds := htail.bounds hf
            omega)) (.inl hsaves), hstandingBehind'⟩
        formed := List.forall_mem_append.mpr ⟨hformed', hformedBehind⟩
        low := .inr (by omega)
        bulkLow := .inr (by omega)
        high := by omega
        idleHigh := fun hidle => by
          rw [hcw]
          exact h.idleHigh (hwriting.symm.trans hidle)
        saved := fun _ heq => by omega
        carries := fun _ => hout.carries
        place := fun _ => ⟨by omega, by omega, fun _ => ⟨by omega, fun heq => by omega⟩⟩ }

end ExtDrv.Rt3370.TxRing
