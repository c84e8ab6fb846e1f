import ExtDrv.Lib.Cbc
import ExtDrv.Rt3370.EvpAesInverse

/-!
# WSC encryption

`WscEncryptData` and `WscDecryptData` run AES-128-CBC in portions of 1008 bytes through an
EVP context. Encryption keeps the padding of the last portion back for `EVP_EncryptFinal`.
Decryption keeps the last block of every portion back, for `EVP_DecryptFinal`, and the next
portion takes its place: what is longer than one portion does not come back whole.
-/

namespace ExtDrv.Rt3370.Wsc

open Ccm Cbc EvpAes

/-! ## The chained cipher -/

/-- The loop of `evp_aes_cbc_encrypt` when it encrypts: `len` bytes at `inp`, the last block
filled up from the chaining value. -/
def cbcEncrypt (key : AesKey) (inp : List Byte) (len : Nat) (iv : Block) : List Byte × Block :=
  if 16 ≤ len then
    let out := evpAesEncrypt (xorBlock (pad inp) iv) key
    let (rest, ivec) := cbcEncrypt key (inp.drop 16) (len - 16) out
    (List.ofFn out ++ rest, ivec)
  else if 0 < len then
    let out := evpAesEncrypt (fun n => if n < len then pad inp n ^^^ iv n else iv n) key
    (List.ofFn out, out)
  else ([], iv)
termination_by len

/-- The loop when it decrypts to another place. -/
def cbcDecrypt (key : AesKey) (inp : List Byte) (len : Nat) (iv : Block) : List Byte × Block :=
  if 16 ≤ len then
    let out := xorBlock (evpAesDecrypt (pad inp) key) iv
    let (rest, ivec) := cbcDecrypt key (inp.drop 16) (len - 16) (pad inp)
    (List.ofFn out ++ rest, ivec)
  else if 0 < len then
    let tmp := evpAesDecrypt (pad inp) key
    ((List.ofFn (xorBlock tmp iv)).take len, pad inp)
  else ([], iv)
termination_by len

/-- The output and the new chaining value; `enc` is `AES_ENCRYPT` (1) or `AES_DECRYPT` (0). -/
def evpAesCbcEncrypt (inp : List Byte) (length : Nat) (key : AesKey) (ivec : Block) (enc : Nat) :
    List Byte × Block :=
  if enc = 1 then cbcEncrypt key inp length ivec else cbcDecrypt key inp length ivec

/-! ## The EVP context -/

structure EvpCipherCtx where
  flag : Nat
  type : Nat
  encrypt : Nat
  key : Block
  iv : Block
  bufferlen : Nat
  buffer : Block
  aesKey : AesKey

def evpAes128Cbc : Nat := 128

/-- `EVP_EncryptInit`. -/
def evpEncryptInit (type : Nat) (key iv : Block) : EvpCipherCtx :=
  { flag := 1
    type := type
    encrypt := 1
    key := key
    iv := iv
    bufferlen := 0
    buffer := fun _ => 0
    aesKey := aesSetEncryptKey key }

/-- `EVP_DecryptInit`. -/
def evpDecryptInit (type : Nat) (key iv : Block) : EvpCipherCtx :=
  { flag := 1
    type := type
    encrypt := 0
    key := key
    iv := iv
    bufferlen := 0
    buffer := fun _ => 0
    aesKey := aesSetDecryptKey key }

/-- One block through the context: the output, and the chaining value kept for the next. -/
def EvpCipherCtx.step (ctx : EvpCipherCtx) (inp : List Byte) : EvpCipherCtx × List Byte :=
  let (out, iv) := evpAesCbcEncrypt inp 16 ctx.aesKey ctx.iv ctx.encrypt
  ({ ctx with iv := iv }, out)

/-- The loop of `EVP_EncryptUpdate`: the context, the output and what is left of the input. -/
def encryptLoop (ctx : EvpCipherCtx) (inbuf : List Byte) :
    EvpCipherCtx × List Byte × List Byte :=
  if 16 ≤ inbuf.length then
    let (ctx, out) := ctx.step inbuf
    let (ctx, outs, rest) := encryptLoop ctx (inbuf.drop 16)
    (ctx, out ++ outs, rest)
  else (ctx, [], inbuf)
termination_by inbuf.length
decreasing_by rw [List.length_drop]; omega

/-- `EVP_EncryptUpdate`: none if it returns 0. The rest of the input is kept back, filled up
to a block; where there is no rest, that is a block of padding. -/
def evpEncryptUpdate (ctx : EvpCipherCtx) (inbuf : List Byte) :
    Option (EvpCipherCtx × List Byte) :=
  if ctx.flag = 0 ∨ inbuf.length = 0 ∨ ctx.encrypt = 0 then none
  else
    let (ctx, out, rest) := encryptLoop ctx inbuf
    if rest.length = 0 then
      some ({ ctx with buffer := fun _ => 16, bufferlen := 16 }, out)
    else
      some ({ ctx with buffer := fill rest, bufferlen := 16 }, out)

/-- `EVP_EncryptFinal`: the output, of length zero if it returns 0. -/
def evpEncryptFinal (ctx : EvpCipherCtx) : List Byte :=
  if ctx.flag = 0 ∨ ctx.bufferlen = 0 ∨ ctx.encrypt = 0 then []
  else (ctx.step (List.ofFn ctx.buffer)).2

/-- The loop of `EVP_DecryptUpdate`, which leaves a whole last block. -/
def decryptLoop (ctx : EvpCipherCtx) (inbuf : List Byte) :
    EvpCipherCtx × List Byte × List Byte :=
  if 16 < inbuf.length then
    let (ctx, out) := ctx.step inbuf
    let (ctx, outs, rest) := decryptLoop ctx (inbuf.drop 16)
    (ctx, out ++ outs, rest)
  else (ctx, [], inbuf)
termination_by inbuf.length
decreasing_by rw [List.length_drop]; omega

/-- `EVP_DecryptUpdate`: none if it returns 0. A whole last block goes to the buffer of the
context, over what is there. -/
def evpDecryptUpdate (ctx : EvpCipherCtx) (inbuf : List Byte) :
    Option (EvpCipherCtx × List Byte) :=
  if ctx.flag = 0 ∨ inbuf.length = 0 ∨ ctx.encrypt = 1 then none
  else
    let (ctx, out, rest) := decryptLoop ctx inbuf
    if rest.length = 16 then
      let (ctx, block) := { ctx with bufferlen := 16 }.step rest
      some ({ ctx with buffer := pad block }, out)
    else some (ctx, out)

/-- `EVP_DecryptFinal`: what is in front of the padding. -/
def evpDecryptFinal (ctx : EvpCipherCtx) : List Byte :=
  if ctx.flag = 0 ∨ ctx.bufferlen = 0 ∨ ctx.encrypt = 1 then []
  else
    let lastchar := (ctx.buffer 15).toNat
    if lastchar < 16 then (List.ofFn ctx.buffer).take (16 - lastchar) else []

/-! ## WSC -/

/-- The 1024 bytes of the output buffer less one block. -/
def blockSize : Nat := 1008

/-- The loop over the portions: the context and all the output. A portion that the update
refuses is answered with what the output buffer still holds. -/
def portions (update : EvpCipherCtx → List Byte → Option (EvpCipherCtx × List Byte))
    (ctx : EvpCipherCtx) (outBuf bufPtr : List Byte) : EvpCipherCtx × List Byte :=
  if 0 < bufPtr.length then
    let (ctx, outBuf) := (update ctx (bufPtr.take blockSize)).getD (ctx, outBuf)
    let (ctx, out) := portions update ctx outBuf (bufPtr.drop blockSize)
    (ctx, outBuf ++ out)
  else (ctx, [])
termination_by bufPtr.length
decreasing_by rw [List.length_drop, blockSize]; omega

/-- `WscEncryptData`: the cipher text, or none if one of its two allocations fails. -/
def wscEncryptData (pctx outBuf : Bool) (plainText : List Byte) (key iv : Block) :
    Option (List Byte) :=
  if pctx = true ∧ outBuf = true then
    let (ctx, cipherText) :=
      portions evpEncryptUpdate (evpEncryptInit evpAes128Cbc key iv) [] plainText
    some (cipherText ++ evpEncryptFinal ctx)
  else none

/-- `WscDecryptData`: the plain text, or none if one of its two allocations fails. -/
def wscDecryptData (pctx outBuf : Bool) (cipherText : List Byte) (key iv : Block) :
    Option (List Byte) :=
  if pctx = true ∧ outBuf = true then
    let (ctx, plainText) :=
      portions evpDecryptUpdate (evpDecryptInit evpAes128Cbc key iv) [] cipherText
    some (plainText ++ evpDecryptFinal ctx)
  else none

end ExtDrv.Rt3370.Wsc
