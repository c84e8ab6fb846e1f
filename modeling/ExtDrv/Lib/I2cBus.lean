import Mathlib.Data.BitVec
import Mathlib.Data.List.Basic

/-!
# A two-wire bus

Clock and data lines with a pull-up, one master and one slave, either of which
may hold the data line low. What happens on the lines is a list of edges; a
slave is any machine that watches the edges and moves the data line right
after the clock falls, and nothing else. `decode` reads a list of edges as
start and stop conditions and bytes of eight bits with a ninth clock each.
-/

namespace ExtDrv.I2cBus

/-! ## Edges -/

/-- The levels of the two lines. -/
structure Lines where
  scl : Bool
  sda : Bool
  deriving DecidableEq, Repr

/-- What a change of the lines means: a data change while the clock is high is
a start or a stop, a clock that rises takes a bit. -/
inductive Edge where
  | start
  | stop
  | rise (sda : Bool)
  | fall
  deriving DecidableEq, Repr

/-- The edge between two levels, if there is one. -/
def edge (old new : Lines) : Option Edge :=
  match old.scl, new.scl with
  | true, true =>
      if old.sda && !new.sda then some .start
      else if !old.sda && new.sda then some .stop
      else none
  | false, true => some (.rise new.sda)
  | true, false => some .fall
  | false, false => none

@[simp] theorem edge_low (a b : Bool) : edge ⟨false, a⟩ ⟨false, b⟩ = none := rfl

@[simp] theorem edge_rise (a b : Bool) : edge ⟨false, a⟩ ⟨true, b⟩ = some (.rise b) := rfl

@[simp] theorem edge_fall (a b : Bool) : edge ⟨true, a⟩ ⟨false, b⟩ = some .fall := rfl

@[simp] theorem edge_start : edge ⟨true, true⟩ ⟨true, false⟩ = some .start := rfl

@[simp] theorem edge_stop : edge ⟨true, false⟩ ⟨true, true⟩ = some .stop := rfl

@[simp] theorem edge_same (l : Lines) : edge l l = none := by
  rcases l with ⟨_ | _, _ | _⟩ <;> rfl

/-- What the bus remembers: the edges, each with whether the master had let go
of the data line by then. -/
abbrev Log := List (Edge × Bool)

def Log.edges (h : Log) : List Edge := h.map Prod.fst

@[simp] theorem edges_append (h : Log) (e : Edge × Bool) :
    Log.edges (h ++ [e]) = h.edges ++ [e.1] := by
  simp [Log.edges]

/-! ## Slaves -/

/-- A slave: it holds the data line low or not, by a state that the edges
drive. It moves the line after a fall of the clock only. -/
structure Slave where
  State : Type
  init : State
  observe : State → Edge → State
  pulls : State → Bool
  moves_on_fall : ∀ s e, e ≠ .fall → pulls (observe s e) = pulls s

/-- Whether the slave holds the data line low after the edges `h`. -/
def Slave.holds (S : Slave) (h : List Edge) : Bool := S.pulls (h.foldl S.observe S.init)

theorem Slave.holds_append (S : Slave) (h : List Edge) {e : Edge} (he : e ≠ .fall) :
    S.holds (h ++ [e]) = S.holds h := by
  rw [Slave.holds, List.foldl_append]
  exact S.moves_on_fall _ e he

/-- Where a frame stands: how many starts there were, and how often the clock
has fallen since the last. -/
structure Position where
  starts : Nat
  falls : Nat
  deriving DecidableEq, Repr

def Position.next (p : Position) : Edge → Position
  | .start => ⟨p.starts + 1, 0⟩
  | .fall => ⟨p.starts, p.falls + 1⟩
  | _ => p

def position (h : List Edge) : Position := h.foldl Position.next ⟨0, 0⟩

@[simp] theorem position_append (h : List Edge) (e : Edge) :
    position (h ++ [e]) = (position h).next e := by
  simp [position]

/-- The starts are counted, not forgotten. -/
theorem starts_le_of_prefix {h h' : List Edge} (hh : h <+: h') :
    (position h).starts ≤ (position h').starts := by
  obtain ⟨t, rfl⟩ := hh
  induction t using List.reverseRecOn with
  | nil => rw [List.append_nil]
  | append_singleton t e ih =>
      rw [← List.append_assoc, position_append]
      refine ih.trans ?_
      cases e <;> simp [Position.next]

/-! ## Reading the edges -/

/-- What a transfer says. The ninth clock of a byte comes with its bit and
with whether the master had released the data line for it; clocks that a start
or a stop keeps from being a byte come with their bits. -/
inductive Symbol where
  | start
  | stop
  | byte (value : BitVec 8) (ninth released : Bool)
  | clocks (bits : List Bool)
  deriving DecidableEq, Repr

/-- A byte from its bits, most significant first. -/
def ofBits (bits : List Bool) : BitVec 8 :=
  bits.foldl (fun v b => v <<< 1 ||| (BitVec.ofBool b).setWidth 8) 0

/-- The bits of a byte, most significant first. -/
def toBits (v : BitVec 8) : List Bool := (List.range 8).map v.getMsbD

/-- The clocks of a byte that a start or a stop breaks off. The last rise
belongs to the start or the stop, which takes a high clock. -/
def stray (bits : List Bool) : List Symbol :=
  if bits.length ≤ 1 then [] else [.clocks bits.dropLast]

/-- The symbols of a log, `bits` being what has been sampled of the byte so
far. -/
def decodeFrom : List Bool → Log → List Symbol
  | bits, [] => if bits = [] then [] else [.clocks bits]
  | bits, (.start, _) :: h => stray bits ++ .start :: decodeFrom [] h
  | bits, (.stop, _) :: h => stray bits ++ .stop :: decodeFrom [] h
  | bits, (.fall, _) :: h => decodeFrom bits h
  | bits, (.rise sda, released) :: h =>
      -- the ninth rise completes the byte
      if bits.length = 8 then .byte (ofBits bits) sda released :: decodeFrom [] h
      else decodeFrom (bits ++ [sda]) h

def decode (h : Log) : List Symbol := decodeFrom [] h

@[simp] theorem ofBits_toBits (v : BitVec 8) : ofBits (toBits v) = v := by
  revert v
  decide +kernel

@[simp] theorem length_toBits (v : BitVec 8) : (toBits v).length = 8 := by
  simp [toBits]

/-- The edges of some bits, each clocked once: the clock rises and falls. -/
def clocked (released : Bool) (bits : List Bool) : Log :=
  bits.flatMap fun b => [(.rise b, released), (.fall, released)]

/-- Bits that do not complete a byte are gathered. -/
theorem decodeFrom_clocked (r : Bool) (bits more : List Bool) (h : Log)
    (hlen : bits.length + more.length ≤ 8) :
    decodeFrom bits (clocked r more ++ h) = decodeFrom (bits ++ more) h := by
  induction more generalizing bits with
  | nil => simp [clocked]
  | cons b more ih =>
      rw [List.length_cons] at hlen
      have hshort : bits.length ≠ 8 := by omega
      have hrest : (bits ++ [b]).length + more.length ≤ 8 := by
        rw [List.length_append, List.length_singleton]
        omega
      show (if bits.length = 8 then _ else decodeFrom (bits ++ [b]) (clocked r more ++ h)) = _
      rw [if_neg hshort, ih (bits ++ [b]) hrest, List.append_assoc]
      rfl

/-- A byte, and the clock after it. -/
def byteClocks (r : Bool) (v : BitVec 8) (ninth r' : Bool) : Log :=
  clocked r (toBits v) ++ clocked r' [ninth]

/-- **A byte** with its ninth clock. -/
theorem decodeFrom_byteClocks (r r' : Bool) (v : BitVec 8) (ninth : Bool) (h : Log) :
    decodeFrom [] (byteClocks r v ninth r' ++ h) = .byte v ninth r' :: decodeFrom [] h := by
  rw [byteClocks, List.append_assoc, decodeFrom_clocked r [] (toBits v) _ (by simp),
    List.nil_append]
  show (if (toBits v).length = 8 then _ else _) = _
  rw [if_pos (length_toBits v), ofBits_toBits]
  rfl

/-! ## Slaves in a transfer -/

/-- What has been heard of a transfer so far, `T` being what it may look like
as a whole: a log for each way the slave can acknowledge. -/
def Heard {ι : Type*} (T : ι → Log) (h : List Edge) : Prop := ∃ a, h <+: (T a).edges

theorem Heard.of_append {ι : Type*} {T : ι → Log} {h t : Log} (hh : Heard T (h ++ t).edges) :
    Heard T h.edges := by
  obtain ⟨a, ha⟩ := hh
  rw [Log.edges, List.map_append] at ha
  exact ⟨a, (List.prefix_append _ _).trans ha⟩

theorem clocked_take (r : Bool) (bits : List Bool) (k : Nat) :
    clocked r bits = clocked r (bits.take k) ++ clocked r (bits.drop k) := by
  rw [clocked, clocked, clocked, ← List.flatMap_append, List.take_append_drop]

/-- In the transfer, the slave leaves the data line alone at a position. -/
def Slave.QuietAt {ι : Type*} (S : Slave) (T : ι → Log) (p : Position) : Prop :=
  ∀ h, Heard T h → position h = p → S.holds h = false

/-- A slave that listens to a transfer: it holds the data line low at most
in the slot after each eight bits. -/
structure Listener {ι : Type*} (T : ι → Log) extends Slave where
  idle : toSlave.QuietAt T ⟨0, 0⟩
  listens : ∀ f, f % 9 ≠ 0 → toSlave.QuietAt T ⟨1, f⟩

/-- A slave that listens after the first start of a transfer and, after the
second, takes the address and then shifts out the byte `b`, most significant
bit first, one bit after each fall of the clock. -/
structure Answerer {ι : Type*} (T : ι → Log) (b : BitVec 8) extends Listener T where
  addressed : ∀ f, 0 < f → f < 9 → toSlave.QuietAt T ⟨2, f⟩
  answers : ∀ i, i < 8 → ∀ h, Heard T h → position h = ⟨2, 10 + i⟩ →
    toSlave.holds h = !b.getMsbD i
  done : ∀ f, 18 ≤ f → toSlave.QuietAt T ⟨2, f⟩

/-! ## Slaves by what they have heard -/

/-- The slave that holds the line after the falls that end a history `f`
picks. -/
def Slave.ofHistory (f : List Edge → Bool) : Slave where
  State := List Edge × Bool
  init := ([], false)
  observe s e := (s.1 ++ [e], if e = .fall then f (s.1 ++ [e]) else s.2)
  pulls := Prod.snd
  moves_on_fall _ _ he := if_neg he

theorem ofHistory_heard (f : List Edge → Bool) (h : List Edge) :
    (h.foldl (Slave.ofHistory f).observe (Slave.ofHistory f).init).1 = h := by
  induction h using List.reverseRecOn with
  | nil => rfl
  | append_singleton h e ih =>
      rw [List.foldl_append]
      exact congrArg (· ++ [e]) ih

/-- What it holds it has picked at the last fall, where the frame stood as it
stands. -/
theorem ofHistory_holds (f : List Edge → Bool) (h : List Edge) :
    (position h = ⟨0, 0⟩ → (Slave.ofHistory f).holds h = false)
      ∧ (0 < (position h).falls →
        ∃ h', h' <+: h ∧ position h' = position h ∧ (Slave.ofHistory f).holds h = f h') := by
  induction h using List.reverseRecOn with
  | nil => exact ⟨fun _ => rfl, fun hpos => absurd hpos (Nat.lt_irrefl 0)⟩
  | append_singleton h e ih =>
      obtain ⟨hidle, hslot⟩ := ih
      by_cases hf : e = .fall
      · subst hf
        refine ⟨fun hzero => ?_, fun _ => ⟨_, List.prefix_rfl, rfl, ?_⟩⟩
        · rw [position_append] at hzero
          exact absurd (congrArg Position.falls hzero) (Nat.succ_ne_zero _)
        · rw [Slave.holds, List.foldl_append]
          exact congrArg (fun g => f (g ++ [Edge.fall])) (ofHistory_heard f h)
      · rw [Slave.holds_append _ _ hf, position_append]
        -- only a start moves the frame elsewhere, to where nothing is picked
        cases e with
        | start => exact ⟨fun hzero => absurd (congrArg Position.starts hzero) (Nat.succ_ne_zero _),
            fun hlt => absurd hlt (Nat.lt_irrefl 0)⟩
        | stop | rise =>
            refine ⟨hidle, fun hpos => ?_⟩
            obtain ⟨h', hpre, hat, hholds⟩ := hslot hpos
            exact ⟨h', hpre.trans (List.prefix_append _ _), hat, hholds⟩
        | fall => exact absurd rfl hf

/-- The register a master has named: the second byte since the first start. -/
def register (h : List Edge) : BitVec 8 :=
  ofBits (((h.filterMap fun | .rise b => some b | _ => none).drop 9).take 8)

/-- A file of registers: it acknowledges every byte it hears, and after the
second start shifts out the register that was named after the first. -/
def registers (file : BitVec 8 → BitVec 8) : Slave := .ofHistory fun h =>
  if (position h).starts = 1 then (position h).falls % 9 == 0
  else if (position h).falls = 9 then true
  else decide (10 ≤ (position h).falls ∧ (position h).falls < 18)
    && !(file (register h)).getMsbD ((position h).falls - 10)

section Registers

variable {ι : Type*} (T : ι → Log) (file : BitVec 8 → BitVec 8)

def registersListener : Listener T where
  toSlave := registers file
  idle h _ hp := (ofHistory_holds _ h).1 hp
  listens f hf h _ hp := by
    have hpos : 0 < (position h).falls := by
      rw [hp]
      show 0 < f
      omega
    obtain ⟨h', -, hat, hholds⟩ := (ofHistory_holds _ h).2 hpos
    rw [registers, hholds, hat, hp]
    simpa using hf

/-- A file of registers answers every transfer that names a register. -/
def registersAnswerer {address : BitVec 8}
    (hT : ∀ h, Heard T h → (position h).starts = 2 → register h = address) :
    Answerer T (file address) where
  toListener := registersListener T file
  addressed f hpos hlt h hh hp := by
    obtain ⟨h', -, hat, hholds⟩ := (ofHistory_holds _ h).2 (by rw [hp]; exact hpos)
    have h1 : f ≠ 9 := by omega
    have h2 : ¬ 10 ≤ f := by omega
    show (registers file).holds h = _
    rw [registers, hholds, hat, hp]
    simp [h1, h2]
  answers i hi h hh hp := by
    obtain ⟨h', ⟨rest, hpre⟩, hat, hholds⟩ :=
      (ofHistory_holds _ h).2 (by rw [hp]; exact Nat.add_pos_left (by decide) i)
    obtain ⟨a, ha⟩ := hh
    have hreg := hT h' ⟨a, .trans ⟨rest, hpre⟩ ha⟩ (by rw [hat, hp])
    have h1 : 10 + i ≠ 9 := by omega
    have h2 : 10 + i < 18 := by omega
    show (registers file).holds h = _
    rw [registers, hholds, hat, hp, hreg]
    simp [h1, h2]
  done f hge h hh hp := by
    obtain ⟨h', -, hat, hholds⟩ := (ofHistory_holds _ h).2 (by rw [hp]; show 0 < f; omega)
    have h1 : f ≠ 9 := by omega
    have h2 : ¬ f < 18 := by omega
    show (registers file).holds h = _
    rw [registers, hholds, hat, hp]
    simp [h1, h2]

end Registers

end ExtDrv.I2cBus
