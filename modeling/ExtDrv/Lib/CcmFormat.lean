import ExtDrv.Lib.Endian
import ExtDrv.Lib.Ccm

/-!
# The formatting of counter mode with CBC-MAC

What the first block of the MAC, the blocks of associated data and the counter
blocks hold, by the length of the nonce: the bytes of a block that flags and nonce
leave are a number, most significant byte first. In the first block it is the length
of the text, in a counter block the counter. As long as counters fit they have
different blocks, and under an injective block function different key stream blocks.
-/

namespace ExtDrv.Ccm

open BigEndian

/-! ## Blocks -/

/-- How many bytes the nonce leaves for a number. -/
def fieldLength (nonce : List Byte) : Nat := 15 - nonce.length

/-- The flags of the first block. -/
def firstFlags (nonce aad : List Byte) (tagLen : Nat) : Byte :=
  (if aad = [] then 0x00#8 else 0x40#8) ||| BitVec.ofNat 8 ((tagLen - 2) / 2 * 8)
    ||| BitVec.ofNat 8 (fieldLength nonce - 1)

/-- The first block, for a text of `n` bytes. -/
def firstBlock (nonce aad : List Byte) (tagLen n : Nat) : Block :=
  pad (firstFlags nonce aad tagLen :: (nonce ++ beBytes (fieldLength nonce) n))

/-- The length of associated data, in two, six or ten bytes. -/
def aadField (n : Nat) : List Byte :=
  if n < 0xFF00 then beBytes 2 n
  else if n < 2 ^ 32 then [0xFF#8, 0xFE#8] ++ beBytes 4 n
  else [0xFF#8, 0xFF#8] ++ beBytes 8 n

def aadBlocks (aad : List Byte) : List Block :=
  if aad = [] then [] else blocks (aadField aad.length ++ aad)

/-- A counter block. -/
def ctrBlock (nonce : List Byte) (k : Nat) : Block :=
  pad (BitVec.ofNat 8 (fieldLength nonce - 1) :: (nonce ++ beBytes (fieldLength nonce) k))

/-- The scheme of the standard. -/
def standardScheme (E : Block → Block) (nonce aad : List Byte) (tagLen : Nat) : Scheme where
  E := E
  first := firstBlock nonce aad tagLen
  aad := aadBlocks aad
  ctr := ctrBlock nonce
  tagLen := tagLen

/-! ## Counters -/

/-- A block holds the whole of a string of sixteen bytes. -/
theorem pad_inj {as bs : List Byte} (has : as.length = 16) (hbs : bs.length = 16)
    (h : pad as = pad bs) : as = bs := by
  refine List.ext_getElem (has.trans hbs.symm) fun i hi hi' => ?_
  have hat := congrFun h ⟨i, by omega⟩
  rwa [pad, pad, List.getD_eq_getElem?_getD, List.getD_eq_getElem?_getD,
    List.getElem?_eq_getElem hi, List.getElem?_eq_getElem hi'] at hat

/-- **Different counters have different blocks**, as long as they fit. -/
theorem ctrBlock_inj {nonce : List Byte} (hnonce : nonce.length ≤ 13) {k l : Nat}
    (hk : k < 256 ^ fieldLength nonce) (hl : l < 256 ^ fieldLength nonce)
    (h : ctrBlock nonce k = ctrBlock nonce l) : k = l := by
  have hlen (n : Nat) : (BitVec.ofNat 8 (fieldLength nonce - 1)
      :: (nonce ++ beBytes (fieldLength nonce) n)).length = 16 := by
    rw [List.length_cons, List.length_append, length_beBytes, fieldLength]
    omega
  have hbytes := List.append_cancel_left (List.cons.inj (pad_inj (hlen k) (hlen l) h)).2
  exact beBytes_inj hk hl hbytes

/-- Two schemes that agree on what a text needs seal it alike. -/
theorem Scheme.seal_congr {S T : Scheme} {p : List Byte} (hE : S.E = T.E)
    (hfirst : S.first p.length = T.first p.length) (haad : S.aad = T.aad)
    (hctr : ∀ k, k ≤ (p.length + 15) / 16 → S.ctr k = T.ctr k) (htag : S.tagLen = T.tagLen) :
    S.seal p = T.seal p := by
  have hmac : S.mac p = T.mac p := by rw [Scheme.mac, Scheme.mac, hE, hfirst, haad]
  have hstream : xorStream S.stream p = xorStream T.stream p := by
    rw [xorStream, xorStream]
    refine List.mapIdx_eq_mapIdx_iff.mpr fun i hi => ?_
    rw [Scheme.stream, Scheme.stream, hE, hctr (i / 16 + 1) (by omega)]
  rw [Scheme.seal, Scheme.seal, hstream, Scheme.tag, Scheme.tag, hmac, hE, hctr 0 (Nat.zero_le _),
    htag]

/-- The key stream blocks of a text of `n` bytes, in their order. -/
def Scheme.streamBlocks (S : Scheme) (n : Nat) : List Block :=
  (List.range ((n + 15) / 16)).map fun i => S.E (S.ctr (i + 1))

/-- **A key stream block is used once**, and none is the one over the tag, where the counters
of the text have different blocks. -/
theorem Scheme.streamBlocks_nodup {S : Scheme} (hE : Function.Injective S.E) {n bound : Nat}
    (hn : (n + 15) / 16 < bound) (hctr : ∀ k l, k < bound → l < bound → S.ctr k = S.ctr l → k = l) :
    (S.streamBlocks n).Nodup ∧ S.E (S.ctr 0) ∉ S.streamBlocks n := by
  constructor
  · refine List.Nodup.map_on (fun i hi j hj hij => ?_) List.nodup_range
    rw [List.mem_range] at hi hj
    exact Nat.succ_inj.mp (hctr _ _ (by omega) (by omega) (hE hij))
  · intro hmem
    rw [Scheme.streamBlocks, List.mem_map] at hmem
    obtain ⟨i, hi, heq⟩ := hmem
    rw [List.mem_range] at hi
    exact absurd (hctr _ _ (by omega) (by omega) (hE heq)) (Nat.succ_ne_zero i)

end ExtDrv.Ccm
