import ExtDrv.Rt3370.BeaconWalk
import ExtDrv.Rt3370.ElementBounds

/-!
# What the sanity check stores

`PeerBeaconAndProbeRspSanity` copies elements behind each other into `pVIE`: whatever the message
holds, what is left there is complete elements, of fewer bytes than there is room for.
-/

namespace ExtDrv.Rt3370.Sanity

open Memory

/-- An act copies the element, if any. -/
def Act.Copies (e : EidStruct) : Act → Prop
  | .htCap _ ie => ie = e.bytes
  | .addHt _ ie => ie = e.bytes
  | .copy ie => ie = e.bytes
  | .qbssLoad _ ie => ie = e.bytes
  | _ => True

theorem act_copies (s : Walk) (env : Env) (m : Mem) (o : Nat) :
    (s.act env m o).Copies (eidAt m o) := by
  unfold Walk.act
  refine elementAct_elim (P := fun a => a.Copies (eidAt m o)) trivial (fun _ => trivial)
    (fun _ _ => trivial) (fun _ _ => trivial) (fun _ => trivial) (fun _ _ => trivial)
    (fun _ => rfl) (fun _ => rfl) (fun _ => trivial) (fun _ _ => trivial) (fun _ _ => trivial)
    (fun _ _ _ => rfl) (fun _ => ?_) fun _ _ => rfl
  exact vendorAct_elim (P := fun a => a.Copies (eidAt m o)) trivial (fun _ => trivial)
    (fun _ => trivial) (fun _ => trivial) (fun _ => rfl) fun _ _ _ => trivial

/-- Complete elements that leave room. -/
structure OutBuf.Elements (b : OutBuf) : Prop where
  whole : Tlv.Whole b.bytes b.len 0
  fits : b.len < Bss.maxVieLen

/-- One more element. -/
theorem OutBuf.Elements.append {b : OutBuf} (h : b.Elements) {e : EidStruct} (hlen : e.Len < 256)
    (hroom : b.len + e.Len + 2 < 1024) : (b.append e.bytes).Elements := by
  have hbytes : e.bytes.length = e.Len + 2 := rfl
  have hmax : Bss.maxVieLen = 1024 := rfl
  have hl : (b.append e.bytes).bytes (b.len + 1) = BitVec.ofNat 8 e.Len := by
    show store b.bytes b.len e.bytes (b.len + 1) = _
    unfold store
    rw [if_pos (by omega), Nat.add_sub_cancel_left]
    rfl
  constructor
  · refine h.whole.snoc (fun i hi => ?_) ?_
    · show store b.bytes b.len e.bytes i = b.bytes i
      unfold store
      rw [if_neg (by omega)]
    · unfold Tlv.after
      rw [hl, BitVec.toNat_ofNat, Nat.mod_eq_of_lt hlen]
      show b.len + 2 + e.Len = b.len + e.bytes.length
      omega
  · show b.len + e.bytes.length < Bss.maxVieLen
    omega

section Walk

variable {env : Env} {m : Mem} {len : Nat}

theorem perform_elements (aid : Nat) {s : Walk} {a : Act} {e : EidStruct} (ha : a.Copies e)
    (hlen : e.Len < 256) (hroom : s.out.pVIE.len + e.Len + 2 < 1024)
    (h : s.out.pVIE.Elements) : (perform aid m s a).out.pVIE.Elements := by
  have hcopy : ∀ {ie : Octets}, ie = e.bytes → (s.out.pVIE.append ie).Elements := by
    intro ie hie
    rw [hie]
    exact h.append hlen hroom
  cases a with
  | htCap bs ie => exact hcopy ha
  | addHt bs ie => exact hcopy ha
  | copy ie => exact hcopy ha
  | qbssLoad p ie => exact hcopy ha
  | _ => exact h

theorem act_elements {o : Nat} {s : Walk} (hroom : s.room m o = true) (h : s.out.pVIE.Elements) :
    (perform env.Aid m s (s.act env m o)).out.pVIE.Elements := by
  have hlen : (eidAt m o).Len = (m (o + 1)).toNat := length_segment _ _ _
  have hlt : s.out.pVIE.len + (m (o + 1)).toNat + 2 < 1024 := of_decide_eq_true hroom
  refine perform_elements env.Aid (act_copies s env m o) ?_ ?_ h
  · rw [hlen]
    exact (m (o + 1)).isLt
  · rwa [hlen]

theorem walk_elements (env : Env) (m : Mem) (len o : Nat) (s : Walk) :
    s.out.pVIE.Elements → (walk env m len o s).2.out.pVIE.Elements := by
  induction o, s using walk_rule env m len with
  | stop o s hstop =>
    intro h
    rwa [hstop]
  | refused o s hle hroom hr =>
    intro h
    rw [walk_of_refused hle hroom hr]
    exact act_elements hroom h
  | on o s hle hroom hr ih =>
    intro h
    rw [walk_of_on hle hroom hr]
    exact ih (act_elements hroom h)

end Walk

/-- **Complete elements**, whatever the message. -/
theorem beacon_elements (env : Env) (m : Mem) (len : Nat) (init : BeaconOut) :
    (peerBeaconAndProbeRspSanity env m len init).2.pVIE.Elements := by
  have hstart : (beaconStart m init).out.pVIE.Elements := ⟨.done, Nat.zero_lt_succ 1023⟩
  have h := walk_elements env m len beaconElements _ hstart
  unfold peerBeaconAndProbeRspSanity Walk.verdict Walk.patchChannel
  split
  · exact h
  · dsimp only
    split
    · exact h
    · exact h

/-- What is stored for an entry. -/
def storedElements (env : Env) (m : Mem) (len : Nat) (init : BeaconOut) : Bss.StoredElements where
  VarIEs := (peerBeaconAndProbeRspSanity env m len init).2.pVIE.bytes
  VarIELen := (peerBeaconAndProbeRspSanity env m len init).2.pVIE.len
  whole := (beacon_elements env m len init).whole
  fits := (beacon_elements env m len init).fits

end ExtDrv.Rt3370.Sanity
