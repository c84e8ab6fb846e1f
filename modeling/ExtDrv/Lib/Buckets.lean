import ExtDrv.Lib.Chain

/-!
# Chained hash tables

The nodes of a finite type are linked in buckets. `Keyed t key` says that the list of
each bucket ends and has exactly the nodes whose key it is, so that a node with a key is in
one list, once, and a node without a key in none. A link that is left over in a
node without a key is in nobody's way until the node is linked again.
-/

namespace ExtDrv.Chain

open Function

/-- The first node of every bucket, and the links between the nodes. -/
structure Buckets (κ ι : Type*) where
  heads : κ → Option ι
  next : ι → Option ι

namespace Buckets

variable {ι κ : Type*}

/-- Every bucket has the nodes with its key. -/
def Keyed (t : Buckets κ ι) (key : ι → Option κ) : Prop :=
  ∀ h, ∃ l, Linked t.next (t.heads h) l ∧ ∀ a, a ∈ l ↔ key a = some h

namespace Keyed

variable {t t' : Buckets κ ι} {key key' : ι → Option κ} {h : κ} {a : ι}

/-- Only the bucket `h` is touched, and what it has becomes `l`. -/
theorem replace (hk : Keyed t key) {l : List ι} (hl : Linked t'.next (t'.heads h) l)
    (hmem : ∀ b, b ∈ l ↔ key' b = some h) (hheads : ∀ h', h' ≠ h → t'.heads h' = t.heads h')
    (hnext : ∀ b h', h' ≠ h → key b = some h' → t'.next b = t.next b)
    (hkey : ∀ b h', h' ≠ h → (key' b = some h' ↔ key b = some h')) : Keyed t' key' := by
  intro h'
  by_cases hh : h' = h
  · subst hh
    exact ⟨l, hl, hmem⟩
  · obtain ⟨l', hl', hmem'⟩ := hk h'
    refine ⟨l', ?_, fun b => (hmem' b).trans (hkey b h' hh).symm⟩
    rw [hheads h' hh]
    exact hl'.congr fun b hb => hnext b h' hh ((hmem' b).mp hb)

/-- An empty bucket. -/
theorem heads_eq_none (hk : Keyed t key) (hempty : ∀ b, key b ≠ some h) : t.heads h = none := by
  obtain ⟨l, hl, hmem⟩ := hk h
  obtain rfl : l = [] := List.eq_nil_iff_forall_not_mem.mpr fun b hb => hempty b ((hmem b).mp hb)
  exact hl

/-- The only node of its bucket. -/
theorem heads_eq_some (hk : Keyed t key) (ha : key a = some h)
    (hother : ∀ b, b ≠ a → key b ≠ some h) : t.heads h = some a ∧ t.next a = none := by
  obtain ⟨l, hl, hmem⟩ := hk h
  obtain ⟨front, r, rfl⟩ := List.append_of_mem ((hmem a).mpr ha)
  have hone (b : ι) (hb : b ∈ front ++ a :: r) : b = a :=
    not_not.mp fun hne => hother b hne ((hmem b).mp hb)
  have hnodup := hl.nodup
  rcases front with _ | ⟨c, front⟩
  · rcases r with _ | ⟨c, r⟩
    · exact hl
    · obtain rfl : c = a := hone c (by simp)
      simp at hnodup
  · obtain rfl : c = a := hone c (by simp)
    simp at hnodup

end Keyed

/-! ## Adding and taking out -/

section

variable [DecidableEq κ] [DecidableEq ι]

def setHead (t : Buckets κ ι) (h : κ) (p : Option ι) : Buckets κ ι :=
  { t with heads := update t.heads h p }

def setNext (t : Buckets κ ι) (a : ι) (p : Option ι) : Buckets κ ι :=
  { t with next := update t.next a p }

/-- `a` is linked behind the last node of the bucket; there may be no last one. The link of `a`
itself is left as it is. -/
def append (t : Buckets κ ι) (turns : Nat) (h : κ) (a : ι) : Option (Buckets κ ι) :=
  match t.heads h with
  | none => some (t.setHead h (some a))
  | some first =>
      (search t.next (fun b => (t.next b).isNone) turns (some first) none).map fun
        | (some last, _) => t.setNext last (some a)
        | (none, _) => t

/-- `a` is taken out of the bucket, if it is there. The link of `a` itself is left as it is. -/
def remove (t : Buckets κ ι) (turns : Nat) (h : κ) (a : ι) : Option (Buckets κ ι) :=
  (search t.next (fun b => decide (b = a)) turns (t.heads h) none).map fun
    | (some _, none) => t.setHead h (t.next a)
    | (some _, some prev) => t.setNext prev (t.next a)
    | (none, _) => t

variable {t t' : Buckets κ ι} {h h' : κ} {a b : ι} {p : Option ι}

omit [DecidableEq ι] in
@[simp] theorem setHead_heads : (t.setHead h p).heads h = p := update_self ..

omit [DecidableEq ι] in
theorem setHead_heads_of_ne (hne : h' ≠ h) : (t.setHead h p).heads h' = t.heads h' :=
  update_of_ne hne ..

omit [DecidableEq ι] in
@[simp] theorem setHead_next : (t.setHead h p).next = t.next := rfl

omit [DecidableEq κ] in
@[simp] theorem setNext_heads : (t.setNext a p).heads = t.heads := rfl

omit [DecidableEq κ] in
@[simp] theorem setNext_next : (t.setNext a p).next a = p := update_self ..

omit [DecidableEq κ] in
theorem setNext_next_of_ne (hne : b ≠ a) : (t.setNext a p).next b = t.next b := update_of_ne hne ..

namespace Keyed

variable {key : ι → Option κ}

omit [DecidableEq κ] in
/-- The link of a node without a key may be anything. -/
theorem setNext (hk : Keyed t key) (ha : key a = none) (p : Option ι) :
    Keyed (t.setNext a p) key := by
  intro h'
  obtain ⟨l, hl, hmem⟩ := hk h'
  refine ⟨l, hl.update_of_notMem (fun hin => ?_) p, hmem⟩
  have hkey := (hmem a).mp hin
  rw [ha] at hkey
  cases hkey

variable [Fintype ι] {turns : Nat}

omit [DecidableEq κ] [DecidableEq ι] in
/-- The search for the last node finds it. -/
theorem search_last {p : Option ι} {l : List ι} {last : ι} (hl : Linked t.next p (l ++ [last]))
    (hturns : Fintype.card ι ≤ turns) :
    search t.next (fun b => (t.next b).isNone) turns p none
      = some (some last, l.getLast?.or none) := by
  have hlen := hl.length_le.trans hturns
  rw [search_eq_seek hl hlen]
  refine congrArg some (seek_some hl (fun b hb => ?_) ?_ ?_ none)
  · -- every other node is followed by one
    obtain ⟨front, r, rfl⟩ := List.append_of_mem hb
    rw [List.append_assoc] at hl
    have hnext := hl.behind.head
    rw [hnext]
    cases r <;> simp
  · have hnext : t.next last = none := hl.behind
    rw [hnext]
    rfl
  · rw [List.length_append, List.length_singleton] at hlen
    omega

/-- **A node is added.** -/
theorem append (hk : Keyed t key) (ha : key a = none) (hnext : t.next a = none)
    (hturns : Fintype.card ι ≤ turns) :
    ∃ t', t.append turns h a = some t' ∧ Keyed t' (update key a (some h)) := by
  obtain ⟨l, hl, hmem⟩ := hk h
  have hout : a ∉ l := fun hin => absurd (ha.symm.trans ((hmem a).mp hin)) nofun
  have hmem' (b : ι) : b ∈ l ++ [a] ↔ update key a (some h) b = some h := by
    by_cases hb : b = a
    · subst hb
      simp
    · rw [update_of_ne hb, ← hmem b]
      simp [hb]
  have hkey (b : ι) (h' : κ) (hne : h' ≠ h) :
      update key a (some h) b = some h' ↔ key b = some h' := by
    by_cases hb : b = a
    · subst hb
      simp [ha, hne.symm]
    · rw [update_of_ne hb]
  rcases List.eq_nil_or_concat l with rfl | ⟨front, last, rfl⟩
  · have hhead : t.heads h = none := hl
    refine ⟨t.setHead h (some a), by rw [Buckets.append, hhead], ?_⟩
    have hone : Linked (t.setHead h (some a)).next ((t.setHead h (some a)).heads h) [a] :=
      ⟨setHead_heads, hnext⟩
    exact hk.replace hone hmem' (fun _ hne => setHead_heads_of_ne hne) (fun _ _ _ _ => rfl) hkey
  · rw [List.concat_eq_append] at hl hmem hout hmem'
    have hsome : ∃ first, t.heads h = some first := by
      rw [hl.head]
      cases front <;> exact ⟨_, rfl⟩
    obtain ⟨first, hfirst⟩ := hsome
    refine ⟨t.setNext last (some a), ?_, ?_⟩
    · rw [Buckets.append, hfirst]
      dsimp only
      rw [search_last (hfirst ▸ hl) hturns]
      rfl
    · have hsnoc := hl.snoc hl.nodup hout
      -- the new node's own link was at the end already
      rw [← hnext, update_eq_self] at hsnoc
      have hlast := (hmem last).mp (List.mem_append_right _ List.mem_cons_self)
      refine hk.replace hsnoc hmem' (fun _ _ => rfl) (fun b h' hne hb => ?_) hkey
      refine setNext_next_of_ne fun heq => hne ?_
      rw [heq, hlast] at hb
      exact (Option.some.inj hb).symm

/-- Only the link of a node with a key is changed by it. -/
theorem append_next (hk : Keyed t key) (hturns : Fintype.card ι ≤ turns)
    (happend : t.append turns h a = some t') (hb : key b = none) : t'.next b = t.next b := by
  obtain ⟨l, hl, hmem⟩ := hk h
  rcases List.eq_nil_or_concat l with rfl | ⟨front, last, rfl⟩
  · have hhead : t.heads h = none := hl
    rw [Buckets.append, hhead] at happend
    obtain rfl := Option.some.inj happend
    rfl
  · rw [List.concat_eq_append] at hl hmem
    have hsome : ∃ first, t.heads h = some first := by
      rw [hl.head]
      cases front <;> exact ⟨_, rfl⟩
    obtain ⟨first, hfirst⟩ := hsome
    rw [Buckets.append, hfirst] at happend
    dsimp only at happend
    rw [search_last (hfirst ▸ hl) hturns] at happend
    obtain rfl := Option.some.inj happend
    refine setNext_next_of_ne fun heq => ?_
    have hlast : key last = some h := (hmem last).mp (List.mem_append_right _ List.mem_cons_self)
    rw [← heq, hb] at hlast
    cases hlast

/-- **A node is taken out**; its link stays, and so do those of the nodes without a key. -/
theorem remove (hk : Keyed t key) (ha : key a = some h) (hturns : Fintype.card ι ≤ turns) :
    ∃ t', t.remove turns h a = some t' ∧ Keyed t' (update key a none) ∧
      ∀ b, (∀ h', key b = some h' → b = a) → t'.next b = t.next b := by
  obtain ⟨l, hl, hmem⟩ := hk h
  have hlen := hl.length_le.trans hturns
  have hnodup := hl.nodup
  have hkey (b : ι) (h' : κ) (hne : h' ≠ h) :
      update key a none b = some h' ↔ key b = some h' := by
    by_cases hb : b = a
    · subst hb
      simp [ha, hne.symm]
    · rw [update_of_ne hb]
  obtain ⟨front, r, rfl⟩ := List.append_of_mem ((hmem a).mpr ha)
  have hmem' (b : ι) : b ∈ front ++ r ↔ update key a none b = some h := by
    by_cases hb : b = a
    · subst hb
      rw [update_self]
      refine iff_of_false (fun hin => ?_) nofun
      exact (List.nodup_middle.mp hnodup).notMem hin
    · rw [update_of_ne hb, ← hmem b]
      simp [hb]
  have hbefore (b : ι) (hb : b ∈ front) : ¬ decide (b = a) = true := by
    rw [decide_eq_true_iff]
    rintro rfl
    exact (List.nodup_middle.mp hnodup).notMem (List.mem_append_left r hb)
  have hturns' : front.length < turns := by
    rw [List.length_append, List.length_cons] at hlen
    omega
  have hsearch : search t.next (fun b => decide (b = a)) turns (t.heads h) none = _ :=
    (search_eq_seek hl hlen none).trans
      (congrArg some (seek_some hl hbefore (decide_eq_true rfl) hturns' none))
  rcases List.eq_nil_or_concat front with rfl | ⟨front, prev, rfl⟩
  · refine ⟨t.setHead h (t.next a), by rw [Buckets.remove, hsearch]; rfl, ?_, fun _ _ => rfl⟩
    refine hk.replace ?_ hmem' (fun _ hne => setHead_heads_of_ne hne) (fun _ _ _ _ => rfl) hkey
    rw [setHead_heads]
    exact hl.2
  · rw [List.concat_eq_append] at hl hmem hmem' hsearch hnodup
    have hprev : key prev = some h := (hmem prev).mp (by simp)
    have hne : prev ≠ a := by
      rintro rfl
      exact hbefore prev (by simp) (by simp)
    refine ⟨t.setNext prev (t.next a), ?_, ?_, fun b hb => setNext_next_of_ne fun heq => ?_⟩
    · rw [Buckets.remove, hsearch]
      simp
    · refine hk.replace ?_ hmem' (fun _ _ => rfl) (fun b h' hne hb => ?_) hkey
      · rw [List.append_assoc, List.singleton_append] at hl hnodup ⊢
        exact hl.unlink hnodup
      · refine setNext_next_of_ne fun heq => hne ?_
        rw [heq, hprev] at hb
        exact (Option.some.inj hb).symm
    · exact hne (heq ▸ hb h (heq ▸ hprev))

omit [Fintype ι] in
/-- **Linking again**: where no other node has a key, `a` comes to stand alone in the bucket only
if it was in none before and its link is at the end. -/
theorem of_append (hk : Keyed t key) (hother : ∀ b, b ≠ a → key b = none)
    (happend : t.append turns h a = some t')
    (hk' : Keyed t' (update (fun _ => none) a (some h))) : key a = none ∧ t.next a = none := by
  have hkey' : update (fun _ => none) a (some h) a = some h := update_self ..
  have halone (b : ι) (hb : b ≠ a) : update (fun _ => none) a (some h) b ≠ some h := by
    rw [update_of_ne hb]
    exact nofun
  obtain ⟨hhead', hnext'⟩ := hk'.heads_eq_some hkey' halone
  cases hkey : key a with
  | none =>
    refine ⟨rfl, ?_⟩
    have hempty : t.heads h = none := hk.heads_eq_none fun b => by
      by_cases hb : b = a
      · rw [hb, hkey]
        exact nofun
      · rw [hother b hb]
        exact nofun
    rw [Buckets.append, hempty] at happend
    obtain rfl : t.setHead h (some a) = t' := Option.some.inj happend
    exact hnext'
  | some h₀ =>
    have hfirst := hk.heads_eq_some hkey fun b hb => by
      rw [hother b hb]
      exact nofun
    by_cases hh : h₀ = h
    · -- it is linked behind itself
      subst hh
      rw [Buckets.append, hfirst.1] at happend
      obtain ⟨turns, rfl⟩ : ∃ k, turns = k + 1 := by
        cases turns with
        | zero => cases happend
        | succ k => exact ⟨k, rfl⟩
      dsimp only at happend
      rw [search, hfirst.2] at happend
      obtain rfl : t.setNext a (some a) = t' := Option.some.inj happend
      rw [setNext_next] at hnext'
      cases hnext'
    · -- it is in two buckets
      have hempty : t.heads h = none := hk.heads_eq_none fun b => by
        by_cases hb : b = a
        · rw [hb, hkey]
          exact fun heq => hh (Option.some.inj heq)
        · rw [hother b hb]
          exact nofun
      rw [Buckets.append, hempty] at happend
      obtain rfl : t.setHead h (some a) = t' := Option.some.inj happend
      have hboth : (t.setHead h (some a)).heads h₀ = none := hk'.heads_eq_none fun b => by
        by_cases hb : b = a
        · rw [hb, update_self]
          exact fun heq => hh (Option.some.inj heq).symm
        · rw [update_of_ne hb]
          exact nofun
      rw [setHead_heads_of_ne hh, hfirst.1] at hboth
      cases hboth

end Keyed

end

end Buckets

end ExtDrv.Chain
