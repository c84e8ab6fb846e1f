import ExtDrv.Lib.Nonces
import ExtDrv.Rt3370.WpaFrames

/-!
# Reinstallation of the pairwise key

Each time a pairwise key is installed the packet number starts again at 1. Nothing
keeps a message 3 that comes again, with a larger replay counter, from having the
same key installed again.
-/

namespace ExtDrv.Rt3370.Wpa

open Nonces Run

/-! ## Keys and packet numbers -/

/-- The temporal key that was installed. -/
def Obs.installedKey : Obs → Option (Bytes 16)
  | .installed _ _ tk => some tk
  | _ => none

/-- The temporal key and the packet number a frame was encrypted with. -/
def Obs.sentPair : Obs → Option (Bytes 16 × BitVec 48)
  | .sent tk pn => some (tk, pn)
  | _ => none

def installedKeys (log : List Obs) : List (Bytes 16) := log.filterMap Obs.installedKey

def sentPairs (log : List Obs) : List (Bytes 16 × BitVec 48) := log.filterMap Obs.sentPair

/-- **No reinstallation**: no temporal key is installed twice, so that its packet number never
starts again, and no key and number encrypt two frames. -/
structure NoReinstall (log : List Obs) : Prop where
  keys : (installedKeys log).Nodup
  frames : (sentPairs log).Nodup

/-- The hardware as a sender. -/
def Station.sender (s : Station) : Sender (Bytes 16) 48 where
  key := s.pairwiseTable.map CipherKey.Key
  next := s.ivEiv
  installed := installedKeys s.log
  used := sentPairs s.log

/-! ## Conditions -/

/-- A frame has a pairwise key installed. -/
structure InstallsKey (env : Env) (g : Grants) (s : Station) (e : MlmeElem) : Prop where
  cipher : pairwiseCipher s.entry.WepStatus ≠ .none
  accepted : Accepts3 env g s e ∨ Accepts4 env g s e

/-- An accepted message 1 makes a temporal key that was not installed before, no key is
installed before it, and the packet number has not come round. -/
structure Fresh (env : Env) (s : Station) (a : Event) : Prop where
  derived : ∀ e g, a = .eapolKey e g → Accepts1 env g s e →
    temporalKey (message1Ptk env g s e.packet) ∉ installedKeys s.log
  started : ∀ e g, a = .eapolKey e g → InstallsKey env g s e → s.entry.WpaState ≠ .ptkStart
  number : a = .transmit → s.pairwiseTable ≠ none → s.ivEiv ≠ 0

/-- No key is installed when the handshake is done. -/
def NoRetransmission (env : Env) (s : Station) (a : Event) : Prop :=
  ∀ e g, a = .eapolKey e g → InstallsKey env g s e → s.entry.WpaState ≠ .ptkInitDone

/-! ## What a step does to the keys -/

/-- The same PTK for the same cipher. -/
structure SameEntry (s s' : Station) : Prop where
  ptk : s'.entry.PTK = s.entry.PTK
  wepStatus : s'.entry.WepStatus = s.entry.WepStatus

/-- Nothing has happened to the keys. -/
structure SameKeys (s s' : Station) : Prop extends SameEntry s s' where
  state : s'.entry.WpaState = s.entry.WpaState
  sender : s'.sender = s.sender

theorem SameKeys.trans {s s' s'' : Station} (h : SameKeys s s') (h' : SameKeys s' s'') :
    SameKeys s s'' where
  ptk := h'.ptk.trans h.ptk
  wepStatus := h'.wepStatus.trans h.wepStatus
  state := h'.state.trans h.state
  sender := h'.sender.trans h.sender

/-- The four things a frame can do to the keys. -/
inductive KeyEffect (env : Env) (g : Grants) (s : Station) (e : MlmeElem) (s' : Station) : Prop
  | same : SameKeys s s' → KeyEffect env g s e s'
  | derived : Accepts1 env g s e → s'.entry.PTK = message1Ptk env g s e.packet →
      s'.entry.WpaState = .ptkInitNegotiating → s'.sender = s.sender → KeyEffect env g s e s'
  | noCipher : SameEntry s s' → pairwiseCipher s.entry.WepStatus = .none →
      s'.entry.WpaState = .ptkInitDone → s'.sender = s.sender → KeyEffect env g s e s'
  | installed : SameEntry s s' → InstallsKey env g s e → s'.entry.WpaState = .ptkInitDone →
      s'.sender = s.sender.install (temporalKey s.entry.PTK) → KeyEffect env g s e s'

section Frames

variable {env : Env} {g : Grants} {s s' : Station} {e : MlmeElem}

theorem Parsed.sameKeys (h : Parsed s s') : SameKeys s s' where
  ptk := congrArg MacEntry.PTK h.entry
  wepStatus := congrArg MacEntry.WepStatus h.entry
  state := congrArg MacEntry.WpaState h.entry
  sender := by simp only [Station.sender, h.pairwiseTable, h.ivEiv, h.log]

/-- Installing a key, as an effect. -/
theorem Installs.keyEffect {ty : MsgType} {s₁ : Station} (hi : Installs s₁ s' ty)
    (hsame : SameKeys s s₁)
    (hacc : Accepts3 env g s e ∨ Accepts4 env g s e) : KeyEffect env g s e s' := by
  obtain ⟨key, secured, established, hentry⟩ := hi.entry
  have hsame' : SameEntry s s' := by
    refine ⟨?_, ?_⟩
    · rw [hentry]
      exact hsame.ptk
    · rw [hentry]
      exact hsame.wepStatus
  have hstate : s'.entry.WpaState = .ptkInitDone := by rw [hentry]
  obtain ⟨hnone, htable, hiv, hlog⟩ | ⟨hsome, key, hkey, htable, hiv, hlog⟩ := hi.keys
  · refine .noCipher hsame' (hsame.wepStatus ▸ hnone) hstate ?_
    rw [← hsame.sender]
    simp only [Station.sender, htable, hiv, hlog]
  · refine .installed hsame' ⟨hsame.wepStatus ▸ hsome, hacc⟩ hstate ?_
    rw [← hsame.sender, ← hsame.ptk]
    simp only [Station.sender, htable, hiv, hlog, hkey, Option.map_some]
    rfl

theorem Did.keyEffect (hdid : Did env g s e s') : KeyEffect env g s e s' := by
  cases hdid with
  | nothing => exact .same ⟨⟨rfl, rfl⟩, rfl, rfl⟩
  | message1 hheard hacc =>
      rename_i s₁
      have hptk : message1Ptk env g (storeCounter s₁ e.packet .pairMsg1) e.packet
          = message1Ptk env g s e.packet := by
        show message1Ptk env g s₁ e.packet = _
        simp only [message1Ptk, hheard.parsed.entry]
      refine .derived hacc ?_ ?_ ?_
      · rw [answer_entry]
        exact hptk
      · rw [answer_entry]
        rfl
      · rw [← hheard.parsed.sameKeys.sender]
        rcases answer_cases g .pairMsg2 (storeMessage1 env g
          (storeCounter s₁ e.packet .pairMsg1) e.packet) with heq | heq
        · rw [heq]
          rfl
        · rw [heq]
          rfl
  | message3Left hheard _ _ =>
      exact .same (hheard.parsed.sameKeys.trans ⟨⟨rfl, rfl⟩, rfl, rfl⟩)
  | message3 hheard hacc =>
      exact (installMessage3_installs _).keyEffect
        (hheard.parsed.sameKeys.trans ⟨⟨rfl, rfl⟩, rfl, rfl⟩) (Or.inl hacc)
  | message4 established hheard hacc =>
      exact (installMessage4_installs _ established).keyEffect hheard.parsed.sameKeys
        (Or.inr hacc)
  | group1 hheard _ =>
      exact .same (hheard.parsed.sameKeys.trans ⟨⟨rfl, rfl⟩, rfl, rfl⟩)
  | group1Left hheard _ =>
      exact .same (hheard.parsed.sameKeys.trans ⟨⟨rfl, rfl⟩, rfl, rfl⟩)
  | group2 hheard =>
      exact .same (hheard.parsed.sameKeys.trans ⟨⟨rfl, rfl⟩, rfl, rfl⟩)

theorem InstallsKey.installedKeys (h : InstallsKey env g s e)
    (hstep : step env s (.eapolKey e g) = some s') :
    installedKeys s'.log = temporalKey s.entry.PTK :: Wpa.installedKeys s.log := by
  rcases h.accepted with hacc | hacc
  · rw [hacc.log h.cipher hstep]
    rfl
  · rw [hacc.log h.cipher hstep]
    rfl

theorem InstallsKey.handshakes (h : InstallsKey env g s e) : s.entry.handshakes = true := by
  rcases h.accepted with hacc | hacc
  · obtain ⟨s₁, hheard⟩ := hacc.heard
    exact hheard.handshakes
  · obtain ⟨s₁, hheard⟩ := hacc.heard
    exact hheard.handshakes

end Frames

/-! ## Runs -/

/-- **Keys in use**: while the handshake goes on its temporal key was never installed, and once
it is done it was. -/
structure KeysInv (s : Station) : Prop where
  sender : Nonces.Inv s.sender
  state : s.entry.WpaState = .notUse ∨ s.entry.WpaState = .ptkStart ∨
    s.entry.WpaState = .ptkInitNegotiating ∨ s.entry.WpaState = .ptkInitDone
  negotiating : s.entry.WpaState = .ptkInitNegotiating →
    temporalKey s.entry.PTK ∉ s.sender.installed
  done : s.entry.WpaState = .ptkInitDone → pairwiseCipher s.entry.WepStatus ≠ .none →
    temporalKey s.entry.PTK ∈ s.sender.installed

section Step

variable {env : Env} {g : Grants} {s s' : Station} {e : MlmeElem} {a : Event}

theorem KeysInv.noReinstall (h : KeysInv s) : NoReinstall s.log := ⟨h.sender.once, h.sender.unused⟩

theorem KeysInv.same (h : KeysInv s) (hs : SameKeys s s') : KeysInv s' := by
  refine ⟨hs.sender ▸ h.sender, hs.state ▸ h.state, ?_, ?_⟩
  · rw [hs.state, hs.ptk, hs.sender]
    exact h.negotiating
  · rw [hs.state, hs.ptk, hs.wepStatus, hs.sender]
    exact h.done

/-- An entry before its handshake, or none. -/
theorem KeysInv.of_before (hsender : Nonces.Inv s.sender)
    (hstate : s.entry.WpaState = .notUse ∨ s.entry.WpaState = .ptkStart) : KeysInv s := by
  refine ⟨hsender, ?_, ?_, ?_⟩
  · rcases hstate with h | h
    · exact Or.inl h
    · exact Or.inr (Or.inl h)
  · intro hs
    rcases hstate with h | h
    · rw [h] at hs
      cases hs
    · rw [h] at hs
      cases hs
  · intro hs
    rcases hstate with h | h
    · rw [h] at hs
      cases hs
    · rw [h] at hs
      cases hs

/-- The key a frame has installed was not installed before. -/
theorem KeysInv.fresh (h : KeysInv s) (hinstalls : InstallsKey env g s e)
    (hstart : s.entry.WpaState ≠ .ptkStart) (hdone : s.entry.WpaState ≠ .ptkInitDone) :
    temporalKey s.entry.PTK ∉ s.sender.installed := by
  have hle := (handshakes_iff.mp hinstalls.handshakes).2.2.2
  rcases h.state with heq | heq | heq | heq
  · rw [heq] at hle
    exact absurd hle (by decide)
  · exact absurd heq hstart
  · exact h.negotiating heq
  · exact absurd heq hdone

theorem KeysInv.eapolKey (h : KeysInv s) (hfresh : Fresh env s (.eapolKey e g))
    (honce : NoRetransmission env s (.eapolKey e g))
    (hstep : step env s (.eapolKey e g) = some s') : KeysInv s' := by
  cases (step_eapolKey hstep).keyEffect with
  | same hsame => exact h.same hsame
  | derived hacc hptk hstate hsender =>
      refine ⟨hsender ▸ h.sender, Or.inr (Or.inr (Or.inl hstate)), fun _ => ?_, fun hs => ?_⟩
      · rw [hptk, hsender]
        exact hfresh.derived e g rfl hacc
      · rw [hstate] at hs
        cases hs
  | noCipher hsame hnone hstate hsender =>
      refine ⟨hsender ▸ h.sender, Or.inr (Or.inr (Or.inr hstate)), fun hs => ?_,
        fun _ hcipher => ?_⟩
      · rw [hstate] at hs
        cases hs
      · rw [hsame.wepStatus] at hcipher
        exact absurd hnone hcipher
  | installed hsame hinstalls hstate hsender =>
      have hnew := h.fresh hinstalls (hfresh.started e g rfl hinstalls) (honce e g rfl hinstalls)
      refine ⟨hsender ▸ h.sender.install hnew, Or.inr (Or.inr (Or.inr hstate)), fun hs => ?_,
        fun _ _ => ?_⟩
      · rw [hstate] at hs
        cases hs
      · rw [hsame.ptk, hsender]
        exact List.mem_cons_self

theorem KeysInv.step (h : KeysInv s) (hfresh : Fresh env s a) (honce : NoRetransmission env s a)
    (hstep : step env s a = some s') : KeysInv s' := by
  cases a with
  | eapolKey e g => exact h.eapolKey hfresh honce hstep
  | associate bssid capable =>
      cases hstep
      rcases associate_cases env s bssid capable with ⟨secured, heq⟩ | ⟨secured, client, -, heq⟩
      · rw [heq]
        refine .of_before h.sender ?_
        dsimp only
        split
        · exact Or.inl rfl
        · exact Or.inr rfl
      · rw [heq]
        exact h.same ⟨⟨rfl, rfl⟩, rfl, rfl⟩
  | linkDown isReqFromAp =>
      cases hstep
      obtain ⟨sharedKey, table, htable, heq⟩ := linkDown_cases env s isReqFromAp
      rw [heq]
      refine .of_before ?_ (Or.inl rfl)
      rcases htable with rfl | rfl
      · exact h.sender
      · exact h.sender.clear
  | transmit =>
      cases hstep
      rcases transmit_cases s with ⟨-, heq⟩ | ⟨key, hkey, heq⟩
      · rw [heq]
        exact h
      · have hsome : s.sender.key = some key.Key := by
          show s.pairwiseTable.map _ = _
          rw [hkey]
          rfl
        have hnumber : s.sender.next ≠ 0 := by
          refine hfresh.number rfl fun hnone => ?_
          rw [hnone] at hkey
          cases hkey
        rw [heq]
        exact ⟨h.sender.send hsome hnumber, h.state, h.negotiating, h.done⟩

/-- **One step**: no key is installed again unless a message comes again. -/
theorem KeysInv.step_iff (h : KeysInv s) (hfresh : Fresh env s a)
    (hstep : Wpa.step env s a = some s') : NoReinstall s'.log ↔ NoRetransmission env s a := by
  constructor
  · rintro hno e g rfl hinstalls hdone
    have hkeys := hno.keys
    rw [hinstalls.installedKeys hstep] at hkeys
    exact (List.nodup_cons.mp hkeys).1 (h.done hdone hinstalls.cipher)
  · intro honce
    exact (h.step hfresh honce hstep).noReinstall

end Step

/-- **No pairwise key reinstallation**: in a run whose keys and numbers are fresh, no key is
installed twice, and no key and number encrypt two frames, exactly if no message 3 or 4 is
accepted again once its key is installed. -/
theorem noReinstall_iff (env : Env) (sharedKey : Fin 4 → CipherKey) (as : List Event)
    (s : Station) (hfresh : GAlong (step env) (Fresh env) (.start sharedKey) as)
    (hrun : gexec (step env) (.start sharedKey) as = some s) :
    NoReinstall s.log ↔ GAlong (step env) (NoRetransmission env) (.start sharedKey) as := by
  have hstart : KeysInv (.start sharedKey) := .of_before (.start 0) (Or.inl rfl)
  refine gexec_iff_galong (I := fun s => NoReinstall s.log) (J := KeysInv) ?_ ?_ ?_
    hstart hstart.noReinstall hfresh hrun
  · intro s a s' hstep hend
    obtain ⟨added, hlog⟩ := step_log hstep
    rw [hlog] at hend
    refine ⟨?_, ?_⟩
    · have hkeys := hend.keys
      rw [installedKeys, List.filterMap_append] at hkeys
      exact (List.nodup_append.mp hkeys).2.1
    · have hframes := hend.frames
      rw [sentPairs, List.filterMap_append] at hframes
      exact (List.nodup_append.mp hframes).2.1
  · intro s a s' hinv hf hstep _
    exact hinv.step_iff hf hstep
  · intro s a s' hinv hf honce hstep
    exact hinv.step hf honce hstep

/-! ## Message 3 again -/

/-- A handshake, and a frame sent under its key. -/
def handshakeAndFrame (c : Crypto) : List Event := handshake c ++ [.transmit]

theorem handshakeAndFrame_runs (c : Crypto) (sharedKey : Fin 4 → CipherKey) :
    gexec (step (wpa2Aes c)) (.start sharedKey) (handshakeAndFrame c)
      = some (transmit (afterMessage3 (handshaking c sharedKey) (smallCounter 2))) := by
  obtain ⟨h₁, h₃⟩ := handshake_steps c sharedKey
  exact gexec_cons.mpr ⟨_, rfl, gexec_cons.mpr ⟨_, h₁, gexec_cons.mpr ⟨_, h₃, rfl⟩⟩⟩

/-- Its only message 1 derives the first key there is. -/
theorem handshake_noReinstall :
    ∃ s, gexec (step (wpa2Aes noCrypto)) (.start fun _ => .zero) (handshakeAndFrame noCrypto)
        = some s ∧ sentPairs s.log ≠ [] ∧
      (NoReinstall s.log ↔ GAlong (step (wpa2Aes noCrypto)) (NoRetransmission (wpa2Aes noCrypto))
        (.start fun _ => .zero) (handshakeAndFrame noCrypto)) := by
  obtain ⟨h₁, h₃⟩ := handshake_steps noCrypto fun _ => .zero
  have hrun := handshakeAndFrame_runs noCrypto fun _ => .zero
  have hnot₁ : ∀ e g, Event.eapolKey e g = .eapolKey (handshake1 (.zero 6)) (enough (.zero 32)) →
      ¬ InstallsKey (wpa2Aes noCrypto) g (associated noCrypto (fun _ => .zero) (.zero 6)) e := by
    rintro e g heq ⟨-, hacc⟩
    cases heq
    have hd := handshake1_dispatch noCrypto (fun _ => .zero) (.zero 6)
    rcases hacc with hacc | hacc
    · obtain ⟨s₁, hheard⟩ := hacc.heard
      cases hd.symm.trans hheard.dispatched
    · obtain ⟨s₁, hheard⟩ := hacc.heard
      cases hd.symm.trans hheard.dispatched
  refine ⟨_, hrun, List.cons_ne_nil _ _, noReinstall_iff _ _ _ _ ?_ hrun⟩
  refine ⟨⟨fun e g heq => (by cases heq), fun e g heq => (by cases heq), fun h => by cases h⟩,
    fun s' hs' => ?_⟩
  cases hs'
  refine ⟨⟨fun e g _ _ => List.not_mem_nil, fun e g heq hi => absurd hi (hnot₁ e g heq.symm),
    fun h => by cases h⟩, fun s' hs' => ?_⟩
  obtain rfl := Option.some.inj (h₁.symm.trans hs')
  refine ⟨⟨fun e g _ _ => List.not_mem_nil, fun e g _ _ => by decide, fun h => by cases h⟩,
    fun s' hs' => ?_⟩
  obtain rfl := Option.some.inj (h₃.symm.trans hs')
  exact ⟨⟨fun e g heq => (by cases heq), fun e g heq => (by cases heq), fun _ _ => by decide⟩,
    fun _ _ => trivial⟩

/-- **A key installed again**: message 3 comes again after a frame was sent, and the next frame
has the key and the number of the first. -/
theorem noReinstall_broken :
    ¬ ∃ c : Crypto, ∀ sharedKey as s,
      gexec (step (wpa2Aes c)) (.start sharedKey) as = some s → (sentPairs s.log).Nodup := by
  rintro ⟨c, h⟩
  obtain ⟨h₁, h₃⟩ := handshake_steps c fun _ => .zero
  have hj : Joined (transmit (afterMessage3 (handshaking c fun _ => .zero) (smallCounter 2)))
      (.zero 6) := by
    have hj₁ := (associated_joined c (fun _ => .zero) (.zero 6)).afterMessage1 (wpa2Aes c)
      (smallCounter 1) (.zero 32) (.zero 32)
    exact (hj₁.afterMessage3 (smallCounter 2)).next rfl (by decide : (7 : Nat) ≤ 10)
  have hagain := step_message3Frame hj (wpa2Aes c) (.zero 32)
    (Or.inl (by decide : counterNat (smallCounter 2) < counterNat (smallCounter 3)))
  have hrun : gexec (step (wpa2Aes c)) (.start fun _ => .zero)
      (handshake c ++ [.transmit, _, .transmit]) = some _ :=
    gexec_cons.mpr ⟨_, rfl, gexec_cons.mpr ⟨_, h₁, gexec_cons.mpr ⟨_, h₃,
      gexec_cons.mpr ⟨_, rfl, gexec_cons.mpr ⟨_, hagain, gexec_cons.mpr ⟨_, rfl, gexec_nil _⟩⟩⟩⟩⟩⟩
  have hnodup := h _ _ _ hrun
  exact (List.nodup_cons.mp hnodup).1 List.mem_cons_self

end ExtDrv.Rt3370.Wpa
