import ExtDrv.Rt3370.Wsc

/-!
# The round trip of WSC encryption

What encryption makes is the chaining over the whole blocks of the text and one filled
block, for any length. Decryption loses one block for every portion but the last: the text
comes back exactly when its cipher text is one portion.
-/

namespace ExtDrv.Rt3370.Wsc

open Ccm Cbc EvpAes

/-- The chaining that a key stands for. -/
def scheme (key : Block) : Scheme Block where
  enc b := evpAesEncrypt b (aesSetEncryptKey key)
  dec b := evpAesDecrypt b (aesSetDecryptKey key)
  mix := xorBlock
  dec_enc := evpAesDecrypt_evpAesEncrypt key
  mix_mix := xorBlock_xorBlock

/-! ## One block -/

theorem cbcEncrypt_block (key : AesKey) (b : Block) (inp : List Byte) (iv : Block) :
    cbcEncrypt key (List.ofFn b ++ inp) 16 iv =
      (List.ofFn (evpAesEncrypt (xorBlock b iv) key), evpAesEncrypt (xorBlock b iv) key) := by
  rw [cbcEncrypt, if_pos (by decide)]
  simp only [pad_ofFn_append, Nat.sub_self]
  rw [cbcEncrypt, if_neg (by decide), if_neg (by decide)]
  simp

theorem cbcDecrypt_block (key : AesKey) (b : Block) (inp : List Byte) (iv : Block) :
    cbcDecrypt key (List.ofFn b ++ inp) 16 iv =
      (List.ofFn (xorBlock (evpAesDecrypt b key) iv), b) := by
  rw [cbcDecrypt, if_pos (by decide)]
  simp only [pad_ofFn_append, Nat.sub_self]
  rw [cbcDecrypt, if_neg (by decide), if_neg (by decide)]
  simp

/-- The context is set up to encrypt under the key. -/
structure Encrypts (key : Block) (ctx : EvpCipherCtx) : Prop where
  flag : ctx.flag = 1
  encrypt : ctx.encrypt = 1
  aesKey : ctx.aesKey = aesSetEncryptKey key

/-- The context is set up to decrypt under the key. -/
structure Decrypts (key : Block) (ctx : EvpCipherCtx) : Prop where
  flag : ctx.flag = 1
  encrypt : ctx.encrypt = 0
  aesKey : ctx.aesKey = aesSetDecryptKey key

variable {key : Block} {ctx : EvpCipherCtx}

theorem Encrypts.step (h : Encrypts key ctx) (b : Block) (inp : List Byte) :
    ctx.step (List.ofFn b ++ inp) =
      ({ ctx with iv := (scheme key).enc ((scheme key).mix b ctx.iv) },
        List.ofFn ((scheme key).enc ((scheme key).mix b ctx.iv))) := by
  rw [EvpCipherCtx.step, evpAesCbcEncrypt, if_pos h.encrypt, h.aesKey, cbcEncrypt_block]
  rfl

theorem Decrypts.step (h : Decrypts key ctx) (c : Block) (inp : List Byte) :
    ctx.step (List.ofFn c ++ inp) =
      ({ ctx with iv := c }, List.ofFn ((scheme key).mix ((scheme key).dec c) ctx.iv)) := by
  rw [EvpCipherCtx.step, evpAesCbcEncrypt, if_neg (by rw [h.encrypt]; decide), h.aesKey,
    cbcDecrypt_block]
  rfl

/-! ## Encryption -/

/-- The whole blocks of the input go through the chaining and the rest is left. -/
theorem Encrypts.loop (h : Encrypts key ctx) (ps : List Block) {rest : List Byte}
    (hrest : rest.length < 16) :
    encryptLoop ctx (bytes ps ++ rest) =
      ({ ctx with iv := chained ctx.iv ((scheme key).encrypt ctx.iv ps) },
        bytes ((scheme key).encrypt ctx.iv ps), rest) := by
  induction ps generalizing ctx with
  | nil =>
    rw [encryptLoop, if_neg (by simpa using hrest)]
    rfl
  | cons p ps ih =>
    have hnext : Encrypts key { ctx with iv := (scheme key).enc ((scheme key).mix p ctx.iv) } :=
      ⟨h.flag, h.encrypt, h.aesKey⟩
    rw [encryptLoop, if_pos (by simp), bytes_cons, List.append_assoc, h.step, drop_ofFn_append]
    simp only
    rw [ih hnext]
    simp only [Scheme.encrypt, bytes_cons, chained_cons]

theorem fill_nil : fill [] = fun _ => 16 := rfl

/-- **An update** with some input. -/
theorem Encrypts.update (h : Encrypts key ctx) (ps : List Block) {rest : List Byte}
    (hrest : rest.length < 16) (hne : 0 < (bytes ps ++ rest).length) :
    evpEncryptUpdate ctx (bytes ps ++ rest) =
      some ({ ctx with
          iv := chained ctx.iv ((scheme key).encrypt ctx.iv ps)
          buffer := fill rest
          bufferlen := 16 }, bytes ((scheme key).encrypt ctx.iv ps)) := by
  rw [evpEncryptUpdate, if_neg (by rw [h.flag, h.encrypt]; omega), h.loop ps hrest]
  simp only
  split
  · next hnil => rw [List.eq_nil_of_length_eq_zero hnil, fill_nil]
  · rfl

/-- **The portions** of a text: the last one leaves its rest in the buffer. -/
theorem Encrypts.portions (h : Encrypts key ctx) (ps : List Block) {rest : List Byte}
    (hrest : rest.length < 16) (outBuf : List Byte) (hne : 0 < (bytes ps ++ rest).length) :
    Wsc.portions evpEncryptUpdate ctx outBuf (bytes ps ++ rest) =
      ({ ctx with
          iv := chained ctx.iv ((scheme key).encrypt ctx.iv ps)
          buffer := fill rest
          bufferlen := 16 }, bytes ((scheme key).encrypt ctx.iv ps)) := by
  induction hn : ps.length using Nat.strongRecOn generalizing ctx ps outBuf with
  | _ n ih =>
  have hlen : (bytes ps ++ rest).length = 16 * ps.length + rest.length := by simp
  rw [Wsc.portions, if_pos hne]
  by_cases hlast : (bytes ps ++ rest).length ≤ blockSize
  · rw [List.take_of_length_le hlast, List.drop_eq_nil_of_le hlast, h.update ps hrest hne]
    simp only [Option.getD_some]
    rw [Wsc.portions, if_neg (by simp)]
    simp
  · -- a full portion is 63 blocks and leaves no rest
    rw [blockSize] at hlast ⊢
    have hfull : 63 ≤ ps.length := by omega
    have hbytes : (bytes ps).length = 16 * ps.length := length_bytes ps
    have htake : (bytes ps ++ rest).take 1008 = bytes (ps.take 63) ++ [] := by
      rw [List.take_append_of_le_length (by omega), List.append_nil]
      exact take_bytes ps 63
    have hdrop : (bytes ps ++ rest).drop 1008 = bytes (ps.drop 63) ++ rest := by
      rw [List.drop_append_of_le_length (by omega)]
      exact congrArg (· ++ rest) (drop_bytes ps 63)
    have hpos : 0 < (bytes (ps.take 63) ++ []).length := by
      rw [List.append_nil, length_bytes, List.length_take]
      omega
    have hpos' : 0 < (bytes (ps.drop 63) ++ rest).length := by
      rw [List.length_append, length_bytes, List.length_drop]
      omega
    have hnext : Encrypts key { ctx with
        iv := chained ctx.iv ((scheme key).encrypt ctx.iv (ps.take 63))
        buffer := fill []
        bufferlen := 16 } := ⟨h.flag, h.encrypt, h.aesKey⟩
    rw [htake, hdrop, h.update (ps.take 63) (by simp) hpos]
    simp only [Option.getD_some]
    rw [ih (ps.length - 63) (by omega) hnext (ps.drop 63) _ hpos' (by rw [List.length_drop])]
    simp only
    rw [← bytes_append, ← Scheme.encrypt_append, List.take_append_drop, ← chained_append,
      ← Scheme.encrypt_append, List.take_append_drop]

/-- **The cipher text**: the chaining over the whole blocks and the filled rest. -/
theorem wscEncryptData_eq (key iv : Block) (ps : List Block) {rest : List Byte}
    (hrest : rest.length < 16) (hne : 0 < (bytes ps ++ rest).length) :
    wscEncryptData true true (bytes ps ++ rest) key iv =
      some (bytes ((scheme key).encrypt iv (ps ++ [fill rest]))) := by
  have hinit : Encrypts key (evpEncryptInit evpAes128Cbc key iv) := ⟨rfl, rfl, rfl⟩
  rw [wscEncryptData, if_pos ⟨rfl, rfl⟩, hinit.portions ps hrest [] hne]
  generalize hctx : evpEncryptInit evpAes128Cbc key iv = ctx at hinit ⊢
  have hiv : ctx.iv = iv := by rw [← hctx]; rfl
  simp only [hiv]
  congr 1
  have hfinal : Encrypts key { ctx with
      iv := chained iv ((scheme key).encrypt iv ps)
      buffer := fill rest
      bufferlen := 16 } := ⟨hinit.flag, hinit.encrypt, hinit.aesKey⟩
  have hstep := hfinal.step (fill rest) []
  rw [List.append_nil] at hstep
  rw [evpEncryptFinal, if_neg (by rw [hfinal.flag, hfinal.encrypt]; simp), hstep,
    Scheme.encrypt_append, bytes_append]
  simp [Scheme.encrypt]

/-! ## Decryption -/

/-- All blocks of the input but the last one go through the chaining. -/
theorem Decrypts.loop (h : Decrypts key ctx) (cs : List Block) (c : Block) :
    decryptLoop ctx (bytes (cs ++ [c])) =
      ({ ctx with iv := chained ctx.iv cs }, bytes ((scheme key).decrypt ctx.iv cs),
        List.ofFn c) := by
  induction cs generalizing ctx with
  | nil =>
    rw [decryptLoop, if_neg (by simp)]
    simp
  | cons d cs ih =>
    have hnext : Decrypts key { ctx with iv := d } := ⟨h.flag, h.encrypt, h.aesKey⟩
    rw [decryptLoop, if_pos (by simp), List.cons_append, bytes_cons, h.step, drop_ofFn_append]
    simp only
    rw [ih hnext]
    simp only [Scheme.decrypt, bytes_cons, chained_cons]

/-- **An update** with some blocks: the last one is in the buffer, whatever was there. -/
theorem Decrypts.update (h : Decrypts key ctx) (cs : List Block) (c : Block) :
    evpDecryptUpdate ctx (bytes (cs ++ [c])) =
      some ({ ctx with
          iv := c
          bufferlen := 16
          buffer := (scheme key).mix ((scheme key).dec c) (chained ctx.iv cs) },
        bytes ((scheme key).decrypt ctx.iv cs)) := by
  have hne : ¬ (ctx.flag = 0 ∨ (bytes (cs ++ [c])).length = 0 ∨ ctx.encrypt = 1) := by
    rw [h.flag, h.encrypt, length_bytes, List.length_append, List.length_singleton]
    omega
  have hlast : Decrypts key { ctx with iv := chained ctx.iv cs, bufferlen := 16 } :=
    ⟨h.flag, h.encrypt, h.aesKey⟩
  have hstep := hlast.step c []
  rw [List.append_nil] at hstep
  rw [evpDecryptUpdate, if_neg hne, h.loop]
  simp only [List.length_ofFn, if_true]
  rw [hstep]
  simp only
  rw [← List.append_nil (List.ofFn _), pad_ofFn_append]

/-- What the portions of a cipher text of some blocks leave: its last block in the buffer,
and the blocks in front of that if it is one portion. Otherwise two blocks are missing at
least. -/
structure Left (key iv : Block) (ds : List Block) (r : EvpCipherCtx × List Byte) : Prop where
  decrypts : Decrypts key r.1
  bufferlen : r.1.bufferlen = 16
  buffer : ((scheme key).decrypt iv ds).getLast? = some r.1.buffer
  short : ds.length ≤ 63 → r.2 = bytes ((scheme key).decrypt iv ds).dropLast
  long : 63 < ds.length → r.2.length + 32 ≤ 16 * ds.length

/-- The last portion leaves its last block in the buffer. -/
theorem Decrypts.onePortion (h : Decrypts key ctx) (outBuf : List Byte) {ds : List Block}
    (hne : ds ≠ []) (hlast : ds.length ≤ 63) :
    Left key ctx.iv ds (Wsc.portions evpDecryptUpdate ctx outBuf (bytes ds)) := by
  obtain ⟨cs, c, rfl⟩ : ∃ cs c, ds = cs ++ [c] := ⟨_, _, (List.dropLast_append_getLast hne).symm⟩
  have hpos : 0 < (cs ++ [c]).length := List.length_pos_iff.mpr hne
  have hlen : (bytes (cs ++ [c])).length = 16 * (cs ++ [c]).length := length_bytes _
  have hle : (bytes (cs ++ [c])).length ≤ blockSize := by
    rw [blockSize]
    omega
  have hdec : (scheme key).decrypt ctx.iv (cs ++ [c]) = (scheme key).decrypt ctx.iv cs ++
      [(scheme key).mix ((scheme key).dec c) (chained ctx.iv cs)] := by
    rw [Scheme.decrypt_append]
    rfl
  rw [Wsc.portions, if_pos (by omega), List.take_of_length_le hle, List.drop_eq_nil_of_le hle,
    h.update]
  simp only [Option.getD_some]
  rw [Wsc.portions, if_neg (by simp)]
  constructor
  · exact ⟨h.flag, h.encrypt, h.aesKey⟩
  · rfl
  · rw [hdec, List.getLast?_concat]
  · intro _
    rw [hdec, List.dropLast_concat, List.append_nil]
  · intro hlong
    omega

theorem Decrypts.portions (h : Decrypts key ctx) (outBuf : List Byte) (ds : List Block)
    (hne : ds ≠ []) :
    Left key ctx.iv ds (Wsc.portions evpDecryptUpdate ctx outBuf (bytes ds)) := by
  induction hn : ds.length using Nat.strongRecOn generalizing ctx ds outBuf with
  | _ n ih =>
  by_cases hlast : ds.length ≤ 63
  · exact h.onePortion outBuf hne hlast
  · -- a full portion, whose last block the next one overwrites
    obtain ⟨cs, c, hcs⟩ : ∃ cs c, ds.take 63 = cs ++ [c] :=
      ⟨_, _, (List.dropLast_append_getLast (by simpa using hne)).symm⟩
    have htake : (bytes ds).take blockSize = bytes (cs ++ [c]) := by
      rw [← hcs]
      exact take_bytes ds 63
    have hdrop : (bytes ds).drop blockSize = bytes (ds.drop 63) := drop_bytes ds 63
    have hlen : (bytes ds).length = 16 * ds.length := length_bytes ds
    have hcount : cs.length = 62 := by
      have := congrArg List.length hcs
      rw [List.length_take, List.length_append, List.length_singleton] at this
      omega
    have hnext : Decrypts key { ctx with
        iv := c
        bufferlen := 16
        buffer := (scheme key).mix ((scheme key).dec c) (chained ctx.iv cs) } :=
      ⟨h.flag, h.encrypt, h.aesKey⟩
    have hrest : ds.drop 63 ≠ [] := by
      intro hnil
      have := congrArg List.length hnil
      rw [List.length_drop, List.length_nil] at this
      omega
    have hleft := ih (ds.length - 63) (by omega) hnext (bytes ((scheme key).decrypt ctx.iv cs))
      (ds.drop 63) hrest (by rw [List.length_drop])
    have hdec : (scheme key).decrypt ctx.iv ds =
        (scheme key).decrypt ctx.iv (cs ++ [c]) ++ (scheme key).decrypt c (ds.drop 63) := by
      have happ := Scheme.decrypt_append (S := scheme key) ctx.iv (cs ++ [c]) (ds.drop 63)
      rw [← hcs, List.take_append_drop, hcs] at happ
      rw [happ, chained_append]
      rfl
    rw [Wsc.portions, if_pos (by omega), htake, hdrop, h.update]
    simp only [Option.getD_some]
    constructor
    · exact hleft.decrypts
    · exact hleft.bufferlen
    · have hbuffer := hleft.buffer
      simp only at hbuffer
      rw [hdec, List.getLast?_append, hbuffer]
      rfl
    · intro hshort
      omega
    · intro _
      have hout : (bytes ((scheme key).decrypt ctx.iv cs)).length = 16 * 62 := by
        rw [length_bytes, Scheme.length_decrypt, hcount]
      have hrestlen : (ds.drop 63).length = ds.length - 63 := List.length_drop
      rw [List.length_append, hout]
      by_cases hrest63 : (ds.drop 63).length ≤ 63
      · rw [hleft.short hrest63, length_bytes, List.length_dropLast, Scheme.length_decrypt,
          hrestlen]
        omega
      · have hlong := hleft.long (by omega)
        omega

/-- The end of the text: the padding is taken off the block in the buffer. -/
theorem Decrypts.final (h : Decrypts key ctx) (hlen : ctx.bufferlen = 16) {rest : List Byte}
    (hrest : rest.length < 16) (hbuffer : ctx.buffer = fill rest) :
    evpDecryptFinal ctx = rest := by
  have hlast : (BitVec.ofNat 8 (16 - rest.length)).toNat = 16 - rest.length := by
    rw [BitVec.toNat_ofNat]
    omega
  rw [evpDecryptFinal, if_neg (by rw [h.flag, h.encrypt, hlen]; decide), hbuffer, fill_last hrest]
  simp only [hlast]
  split
  · rw [show 16 - (16 - rest.length) = rest.length from by omega]
    exact take_fill (by omega)
  · next hzero => exact (List.eq_nil_of_length_eq_zero (by omega)).symm

/-! ## The round trip -/

/-- **What comes back** of a text of some whole blocks and a rest. -/
theorem wscDecryptData_wscEncryptData (key iv : Block) (ps : List Block) {rest : List Byte}
    (hrest : rest.length < 16) :
    ∃ out, wscDecryptData true true (bytes ((scheme key).encrypt iv (ps ++ [fill rest]))) key iv =
        some (out ++ rest) ∧
      (ps.length ≤ 62 → out = bytes ps) ∧
      (62 < ps.length → out.length < (bytes ps).length) := by
  have hinit : Decrypts key (evpDecryptInit evpAes128Cbc key iv) := ⟨rfl, rfl, rfl⟩
  have hblocks : (scheme key).encrypt iv (ps ++ [fill rest]) ≠ [] := by
    intro hnil
    have := congrArg List.length hnil
    rw [Scheme.length_encrypt, List.length_append] at this
    simp at this
  have hleft := hinit.portions [] _ hblocks
  rw [wscDecryptData, if_pos ⟨rfl, rfl⟩]
  rw [show (evpDecryptInit evpAes128Cbc key iv).iv = iv from rfl] at hleft
  generalize Wsc.portions evpDecryptUpdate (evpDecryptInit evpAes128Cbc key iv) []
    (bytes ((scheme key).encrypt iv (ps ++ [fill rest]))) = r at hleft ⊢
  have hbuffer := hleft.buffer
  have hshort := hleft.short
  have hlong := hleft.long
  rw [Scheme.decrypt_encrypt, List.getLast?_concat] at hbuffer
  rw [Scheme.decrypt_encrypt, Scheme.length_encrypt, List.length_append, List.length_singleton,
    List.dropLast_concat] at hshort
  rw [Scheme.length_encrypt, List.length_append, List.length_singleton] at hlong
  refine ⟨r.2, ?_, fun hle => hshort (by omega), fun hlt => ?_⟩
  · have hfinal := hleft.decrypts.final hleft.bufferlen hrest (Option.some.inj hbuffer).symm
    show some (r.2 ++ evpDecryptFinal r.1) = some (r.2 ++ rest)
    rw [hfinal]
  · have := hlong (by omega)
    rw [length_bytes]
    omega

/-- The empty text comes back as well. -/
theorem wsc_roundTrip_nil (key iv : Block) :
    (wscEncryptData true true [] key iv).bind
      (fun cipherText => wscDecryptData true true cipherText key iv) = some [] := by
  have hnone : ∀ update (ctx : EvpCipherCtx), Wsc.portions update ctx [] [] = (ctx, []) := by
    intro update ctx
    rw [Wsc.portions, if_neg (by simp)]
  have hfinal : evpEncryptFinal (evpEncryptInit evpAes128Cbc key iv) = [] := rfl
  rw [wscEncryptData, if_pos ⟨rfl, rfl⟩, hnone]
  simp only [hfinal, List.append_nil, Option.bind_some]
  rw [wscDecryptData, if_pos ⟨rfl, rfl⟩, hnone]
  rfl

theorem wsc_roundTrip_of_length (plainText key iv) :
    (wscEncryptData true true plainText key iv).bind
        (fun cipherText => wscDecryptData true true cipherText key iv) = some plainText ↔
      plainText.length ≤ 1007 := by
  obtain ⟨ps, rest, rfl, hrest⟩ := exists_blocks plainText
  have hlen : (bytes ps ++ rest).length = 16 * ps.length + rest.length := by
    rw [List.length_append, length_bytes]
  by_cases hne : 0 < (bytes ps ++ rest).length
  · obtain ⟨out, hout, hshort, hlong⟩ := wscDecryptData_wscEncryptData key iv ps hrest
    rw [wscEncryptData_eq key iv ps hrest hne, Option.bind_some, hout]
    constructor
    · intro heq
      have hback := List.append_cancel_right (Option.some.inj heq)
      by_contra hgt
      have := hlong (by omega)
      rw [hback] at this
      exact Nat.lt_irrefl _ this
    · intro hle
      rw [hshort (by omega)]
  · have hnil := List.eq_nil_of_length_eq_zero (Nat.eq_zero_of_not_pos hne)
    rw [hnil]
    exact ⟨fun _ => Nat.zero_le _, fun _ => wsc_roundTrip_nil key iv⟩

/-- **The round trip of WSC encryption**: with all allocations made, it gets back a text of
at most 1007 bytes, and no longer one. -/
theorem wsc_roundTrip_iff (pctx outBuf pctx' outBuf' : Bool) (plainText : List Byte)
    (key iv : Block) :
    (wscEncryptData pctx outBuf plainText key iv).bind
        (fun cipherText => wscDecryptData pctx' outBuf' cipherText key iv) = some plainText ↔
      (pctx = true ∧ outBuf = true ∧ pctx' = true ∧ outBuf' = true) ∧
        plainText.length ≤ 1007 := by
  by_cases henc : pctx = true ∧ outBuf = true
  · by_cases hdec : pctx' = true ∧ outBuf' = true
    · obtain ⟨rfl, rfl⟩ := henc
      obtain ⟨rfl, rfl⟩ := hdec
      rw [wsc_roundTrip_of_length]
      simp
    · have hnone : ∀ c, wscDecryptData pctx' outBuf' c key iv = none := fun c => if_neg hdec
      simp only [hnone, Option.bind_fun_none, reduceCtorEq, false_iff]
      rintro ⟨⟨_, _, hpctx', hbuf'⟩, _⟩
      exact hdec ⟨hpctx', hbuf'⟩
  · rw [wscEncryptData, if_neg henc]
    simp only [Option.bind_none, reduceCtorEq, false_iff]
    rintro ⟨⟨hpctx, hbuf, _⟩, _⟩
    exact henc ⟨hpctx, hbuf⟩

/-- 1008 zero bytes: the 63rd block is held back, and the block of padding takes its place. -/
theorem wsc_roundTrip_1008 :
    (wscEncryptData true true (List.replicate 1008 0) (fun _ => 0) (fun _ => 0)).bind
        (fun cipherText => wscDecryptData true true cipherText (fun _ => 0) (fun _ => 0)) ≠
      some (List.replicate 1008 0) := by
  intro hback
  have hle := (wsc_roundTrip_of_length _ _ _).mp hback
  rw [List.length_replicate] at hle
  omega

end ExtDrv.Rt3370.Wsc
