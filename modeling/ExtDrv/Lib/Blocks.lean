import ExtDrv.Lib.Memory

/-!
# Blocks laid in a memory

A block is a run of bytes with the place it is meant for. Blocks TILE a range when each
begins where the one before it stops; a block STANDS in a memory that has its bytes at
its place. Bytes stored elsewhere leave it standing.
-/

namespace ExtDrv.Blocks

open Memory

structure Block where
  pos : Nat
  bytes : List (BitVec 8)
  deriving DecidableEq, Repr

namespace Block

/-- The first place behind the block. -/
def stop (b : Block) : Nat := b.pos + b.bytes.length

/-- The memory has the block's bytes at its place. -/
def Standing (m : Mem) (b : Block) : Prop := segment m b.pos b.bytes.length = b.bytes

end Block

/-- `bs` tile `[p, q)`. -/
def Tiles : Nat → List Block → Nat → Prop
  | p, [], q => p = q
  | p, b :: bs, q => b.pos = p ∧ Tiles (p + b.bytes.length) bs q

@[simp] theorem tiles_nil (p q : Nat) : Tiles p [] q ↔ p = q := Iff.rfl

@[simp] theorem tiles_cons (p q : Nat) (b : Block) (bs : List Block) :
    Tiles p (b :: bs) q ↔ b.pos = p ∧ Tiles (p + b.bytes.length) bs q := Iff.rfl

theorem tiles_append {bs cs : List Block} {p q : Nat} :
    Tiles p (bs ++ cs) q ↔ ∃ r, Tiles p bs r ∧ Tiles r cs q := by
  induction bs generalizing p with
  | nil => simp
  | cons b bs ih => simp [ih, and_assoc]

theorem Tiles.append {bs cs : List Block} {p q r : Nat} (h : Tiles p bs r) (h' : Tiles r cs q) :
    Tiles p (bs ++ cs) q :=
  tiles_append.mpr ⟨r, h, h'⟩

theorem tiles_singleton (p : Nat) (bytes : List (BitVec 8)) :
    Tiles p [⟨p, bytes⟩] (p + bytes.length) := ⟨rfl, rfl⟩

theorem Tiles.le {bs : List Block} {p q : Nat} (h : Tiles p bs q) : p ≤ q := by
  induction bs generalizing p with
  | nil => exact Nat.le_of_eq h
  | cons b bs ih => exact Nat.le_trans (Nat.le_add_right _ _) (ih h.2)

/-- A block of a tiling lies inside the range. -/
theorem Tiles.bounds {bs : List Block} {p q : Nat} (h : Tiles p bs q) {b : Block} (hb : b ∈ bs) :
    p ≤ b.pos ∧ b.pos + b.bytes.length ≤ q := by
  induction bs generalizing p with
  | nil => cases hb
  | cons c bs ih =>
      obtain ⟨hpos, htail⟩ := h
      rcases List.mem_cons.mp hb with rfl | hb
      · have hle := htail.le
        omega
      · have hin := ih htail hb
        omega

/-- Two blocks of a tiling do not overlap. -/
theorem Tiles.apart {bs : List Block} {p q : Nat} (h : Tiles p bs q) {b c : Block} (hb : b ∈ bs)
    (hc : c ∈ bs) :
    b.pos = c.pos ∨ b.pos + b.bytes.length ≤ c.pos ∨ c.pos + c.bytes.length ≤ b.pos := by
  induction bs generalizing p with
  | nil => cases hb
  | cons d bs ih =>
      obtain ⟨hpos, htail⟩ := h
      rcases List.mem_cons.mp hb with hbd | hbs <;> rcases List.mem_cons.mp hc with hcd | hcs
      · exact .inl (hbd ▸ hcd ▸ rfl)
      · have hin := htail.bounds hcs
        subst hbd
        omega
      · have hin := htail.bounds hbs
        subst hcd
        omega
      · exact ih htail hbs hcs

/-- Blocks of at least `n` bytes take up at least `n` places each. -/
theorem Tiles.size_le {bs : List Block} {p q n : Nat} (h : Tiles p bs q)
    (hn : ∀ b ∈ bs, n ≤ b.bytes.length) : p + n * bs.length ≤ q := by
  induction bs generalizing p with
  | nil => exact Nat.le_of_eq h
  | cons b bs ih =>
      have htail := ih h.2 fun c hc => hn c (List.mem_cons_of_mem _ hc)
      have hhead := hn b List.mem_cons_self
      rw [List.length_cons, Nat.mul_succ]
      omega

/-- What the range holds when every block stands. -/
theorem Tiles.segment_eq {bs : List Block} {p q : Nat} (h : Tiles p bs q) (m : Mem) :
    segment m p (q - p) = (bs.map fun b => segment m b.pos b.bytes.length).flatten := by
  induction bs generalizing p with
  | nil =>
      cases h
      simp
  | cons b bs ih =>
      obtain ⟨rfl, htail⟩ := h
      have hle := htail.le
      have hsplit : q - b.pos = b.bytes.length + (q - (b.pos + b.bytes.length)) := by omega
      rw [hsplit, segment_add, ih htail]
      simp

theorem Tiles.length_flatten {bs : List Block} {p q : Nat} (h : Tiles p bs q) :
    p + (bs.map Block.bytes).flatten.length = q := by
  induction bs generalizing p with
  | nil => simpa using h
  | cons b bs ih =>
      have htail := ih h.2
      simp only [List.map_cons, List.flatten_cons, List.length_append]
      omega

/-- The blocks determine where their range ends. -/
theorem Tiles.unique {bs : List Block} {p q r : Nat} (h : Tiles p bs q) (h' : Tiles p bs r) :
    q = r :=
  h.length_flatten.symm.trans h'.length_flatten

theorem Tiles.append_right {bs cs : List Block} {p q r : Nat} (h : Tiles p (bs ++ cs) q)
    (h' : Tiles p bs r) : Tiles r cs q := by
  obtain ⟨r', hbs, hcs⟩ := tiles_append.mp h
  rwa [h'.unique hbs]

/-- Where the range holds the bytes of the blocks one after the other, they stand. -/
theorem Tiles.standing {bs : List Block} {p q : Nat} (h : Tiles p bs q) {m : Mem}
    (hm : segment m p (q - p) = (bs.map Block.bytes).flatten) : ∀ b ∈ bs, b.Standing m := by
  induction bs generalizing p with
  | nil => exact fun b hb => by cases hb
  | cons c bs ih =>
      obtain ⟨rfl, htail⟩ := h
      have hle := htail.le
      have hsplit : q - c.pos = c.bytes.length + (q - (c.pos + c.bytes.length)) := by omega
      rw [hsplit, segment_add, List.map_cons, List.flatten_cons] at hm
      obtain ⟨hhead, hrest⟩ := List.append_inj hm (length_segment ..)
      exact List.forall_mem_cons.mpr ⟨hhead, ih htail hrest⟩

theorem Block.Standing.congr {m m' : Mem} {b : Block} (h : b.Standing m)
    (hm : ∀ a, b.pos ≤ a → a < b.pos + b.bytes.length → m' a = m a) : b.Standing m' := by
  have hsame : segment m' b.pos b.bytes.length = segment m b.pos b.bytes.length :=
    segment_congr fun i hi => hm (b.pos + i) (Nat.le_add_right _ _) (Nat.add_lt_add_left hi _)
  exact hsame.trans h

theorem Block.Standing.getD {m : Mem} {b : Block} (h : b.Standing m) {i : Nat}
    (hi : i < b.bytes.length) : m (b.pos + i) = b.bytes.getD i 0 := by
  have hget := getElem?_segment m (o := b.pos) hi
  rw [show segment m b.pos b.bytes.length = b.bytes from h] at hget
  rw [List.getD_eq_getElem?_getD, hget]
  rfl

/-! ## Several stores -/

/-- The stores are made one after the other. -/
def storeAll (m : Mem) (ws : List Block) : Mem :=
  ws.foldl (fun m w => store m w.pos w.bytes) m

@[simp] theorem storeAll_nil (m : Mem) : storeAll m [] = m := rfl

@[simp] theorem storeAll_cons (m : Mem) (w : Block) (ws : List Block) :
    storeAll m (w :: ws) = storeAll (store m w.pos w.bytes) ws := rfl

theorem storeAll_append (m : Mem) (ws vs : List Block) :
    storeAll m (ws ++ vs) = storeAll (storeAll m ws) vs :=
  List.foldl_append

/-- A byte that a store does not reach stays. -/
theorem store_outside {m : Mem} {o a : Nat} {bs : List (BitVec 8)}
    (h : a < o ∨ o + bs.length ≤ a) : store m o bs a = m a :=
  if_neg (by omega)

theorem storeAll_outside {ws : List Block} {m : Mem} {a : Nat}
    (h : ∀ w ∈ ws, a < w.pos ∨ w.pos + w.bytes.length ≤ a) : storeAll m ws a = m a := by
  induction ws generalizing m with
  | nil => rfl
  | cons w ws ih =>
      rw [storeAll_cons, ih fun v hv => h v (List.mem_cons_of_mem _ hv)]
      exact store_outside (h w List.mem_cons_self)

/-- The front of what was stored is there. -/
theorem segment_store_take (m : Mem) (o : Nat) {bs : List (BitVec 8)} {n : Nat}
    (h : n ≤ bs.length) : segment (store m o bs) o n = bs.take n := by
  have hall := segment_store_self m o bs
  rw [← Nat.add_sub_cancel' h, segment_add] at hall
  have htake := congrArg (List.take n) hall
  rwa [List.take_left' (length_segment ..)] at htake

/-- A byte that is stored is the byte of the segment it lies in. -/
theorem segment_store_set (m : Mem) (o : Nat) {n i : Nat} (v : BitVec 8) :
    segment (store m (o + i) [v]) o n = (segment m o n).set i v := by
  refine List.ext_getElem? fun j => ?_
  rw [List.getElem?_set, length_segment]
  by_cases hj : j < n
  · rw [getElem?_segment _ hj]
    by_cases hij : i = j
    · subst hij
      rw [if_pos rfl, if_pos hj, store, if_pos ⟨Nat.le_refl _, by simp⟩, Nat.sub_self]
      rfl
    · rw [if_neg hij, getElem?_segment _ hj, store_outside (by rw [List.length_singleton]; omega)]
  · rw [List.getElem?_eq_none (by simpa using hj)]
    split
    · rw [if_neg (by omega)]
    · rw [List.getElem?_eq_none (by simpa using hj)]

/-- Storing what is there changes nothing. -/
theorem store_segment (m : Mem) (o n : Nat) : store m o (segment m o n) = m := by
  funext a
  by_cases ha : o ≤ a ∧ a < o + n
  · have hget := getElem?_segment m (o := o) (show a - o < n by omega)
    rw [show o + (a - o) = a by omega] at hget
    rw [store, if_pos (by rwa [length_segment]), List.getD_eq_getElem?_getD, hget]
    rfl
  · rw [store_outside (by rw [length_segment]; omega)]

/-- Bytes that are put back after others were stored over them. -/
theorem store_segment_undo (m : Mem) (o : Nat) (bs : List (BitVec 8)) :
    store (store m o bs) o (segment m o bs.length) = m := by
  funext a
  by_cases ha : o ≤ a ∧ a < o + bs.length
  · have hget := getElem?_segment m (o := o) (show a - o < bs.length by omega)
    rw [show o + (a - o) = a by omega] at hget
    rw [store, if_pos (by rwa [length_segment]), List.getD_eq_getElem?_getD, hget]
    rfl
  · rw [store_outside (by rw [length_segment]; omega), store_outside (by omega)]

/-- Stores to different places may change places. -/
theorem store_comm {m : Mem} {o o' : Nat} {bs bs' : List (BitVec 8)}
    (h : o + bs.length ≤ o' ∨ o' + bs'.length ≤ o) :
    store (store m o bs) o' bs' = store (store m o' bs') o bs := by
  funext a
  by_cases ha : o ≤ a ∧ a < o + bs.length
  · rw [store_outside (by omega), store, store, if_pos ha, if_pos ha]
  · simp only [store, if_neg ha]

theorem storeAll_comm {ws : List Block} {m : Mem} {o : Nat} {bs : List (BitVec 8)}
    (h : ∀ w ∈ ws, w.pos + w.bytes.length ≤ o ∨ o + bs.length ≤ w.pos) :
    store (storeAll m ws) o bs = storeAll (store m o bs) ws := by
  induction ws generalizing m with
  | nil => rfl
  | cons w ws ih =>
      rw [storeAll_cons, storeAll_cons, ih fun v hv => h v (List.mem_cons_of_mem _ hv),
        store_comm (h w List.mem_cons_self)]

end ExtDrv.Blocks
