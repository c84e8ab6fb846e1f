import ExtDrv.Lib.Ccm
import ExtDrv.Lib.Rijndael
import ExtDrv.Rt3370.Sizes

/-!
# The block cipher

`RT_AES_KeyExpansion`, `RT_AES_Encrypt` and `RT_AES_Decrypt` of `common/crypt_aes.c`,
with their tables. The state is a square of four rows and columns, and the context that
holds it and the expanded key is allocated: what the memory held before is a parameter.
Whatever the length of the key, decryption undoes encryption.
-/

namespace ExtDrv.Rt3370.RtAes

open Rijndael
open Ccm (Block)

/-! ## The tables -/

/-- `aes_rcon`. -/
def aesRcon : List (BitVec 32) := [
  0x00000000, 0x01000000, 0x02000000, 0x04000000, 0x08000000, 0x10000000, 0x20000000,
  0x40000000, 0x80000000, 0x1B000000, 0x36000000]

/-- `aes_sbox_enc`. -/
def aesSboxEnc : List Byte := [
  0x63, 0x7c, 0x77, 0x7b, 0xf2, 0x6b, 0x6f, 0xc5, 0x30, 0x01, 0x67, 0x2b, 0xfe, 0xd7, 0xab,
  0x76, 0xca, 0x82, 0xc9, 0x7d, 0xfa, 0x59, 0x47, 0xf0, 0xad, 0xd4, 0xa2, 0xaf, 0x9c, 0xa4,
  0x72, 0xc0, 0xb7, 0xfd, 0x93, 0x26, 0x36, 0x3f, 0xf7, 0xcc, 0x34, 0xa5, 0xe5, 0xf1, 0x71,
  0xd8, 0x31, 0x15, 0x04, 0xc7, 0x23, 0xc3, 0x18, 0x96, 0x05, 0x9a, 0x07, 0x12, 0x80, 0xe2,
  0xeb, 0x27, 0xb2, 0x75, 0x09, 0x83, 0x2c, 0x1a, 0x1b, 0x6e, 0x5a, 0xa0, 0x52, 0x3b, 0xd6,
  0xb3, 0x29, 0xe3, 0x2f, 0x84, 0x53, 0xd1, 0x00, 0xed, 0x20, 0xfc, 0xb1, 0x5b, 0x6a, 0xcb,
  0xbe, 0x39, 0x4a, 0x4c, 0x58, 0xcf, 0xd0, 0xef, 0xaa, 0xfb, 0x43, 0x4d, 0x33, 0x85, 0x45,
  0xf9, 0x02, 0x7f, 0x50, 0x3c, 0x9f, 0xa8, 0x51, 0xa3, 0x40, 0x8f, 0x92, 0x9d, 0x38, 0xf5,
  0xbc, 0xb6, 0xda, 0x21, 0x10, 0xff, 0xf3, 0xd2, 0xcd, 0x0c, 0x13, 0xec, 0x5f, 0x97, 0x44,
  0x17, 0xc4, 0xa7, 0x7e, 0x3d, 0x64, 0x5d, 0x19, 0x73, 0x60, 0x81, 0x4f, 0xdc, 0x22, 0x2a,
  0x90, 0x88, 0x46, 0xee, 0xb8, 0x14, 0xde, 0x5e, 0x0b, 0xdb, 0xe0, 0x32, 0x3a, 0x0a, 0x49,
  0x06, 0x24, 0x5c, 0xc2, 0xd3, 0xac, 0x62, 0x91, 0x95, 0xe4, 0x79, 0xe7, 0xc8, 0x37, 0x6d,
  0x8d, 0xd5, 0x4e, 0xa9, 0x6c, 0x56, 0xf4, 0xea, 0x65, 0x7a, 0xae, 0x08, 0xba, 0x78, 0x25,
  0x2e, 0x1c, 0xa6, 0xb4, 0xc6, 0xe8, 0xdd, 0x74, 0x1f, 0x4b, 0xbd, 0x8b, 0x8a, 0x70, 0x3e,
  0xb5, 0x66, 0x48, 0x03, 0xf6, 0x0e, 0x61, 0x35, 0x57, 0xb9, 0x86, 0xc1, 0x1d, 0x9e, 0xe1,
  0xf8, 0x98, 0x11, 0x69, 0xd9, 0x8e, 0x94, 0x9b, 0x1e, 0x87, 0xe9, 0xce, 0x55, 0x28, 0xdf,
  0x8c, 0xa1, 0x89, 0x0d, 0xbf, 0xe6, 0x42, 0x68, 0x41, 0x99, 0x2d, 0x0f, 0xb0, 0x54, 0xbb,
  0x16]

/-- `aes_sbox_dec`. -/
def aesSboxDec : List Byte := [
  0x52, 0x09, 0x6a, 0xd5, 0x30, 0x36, 0xa5, 0x38, 0xbf, 0x40, 0xa3, 0x9e, 0x81, 0xf3, 0xd7,
  0xfb, 0x7c, 0xe3, 0x39, 0x82, 0x9b, 0x2f, 0xff, 0x87, 0x34, 0x8e, 0x43, 0x44, 0xc4, 0xde,
  0xe9, 0xcb, 0x54, 0x7b, 0x94, 0x32, 0xa6, 0xc2, 0x23, 0x3d, 0xee, 0x4c, 0x95, 0x0b, 0x42,
  0xfa, 0xc3, 0x4e, 0x08, 0x2e, 0xa1, 0x66, 0x28, 0xd9, 0x24, 0xb2, 0x76, 0x5b, 0xa2, 0x49,
  0x6d, 0x8b, 0xd1, 0x25, 0x72, 0xf8, 0xf6, 0x64, 0x86, 0x68, 0x98, 0x16, 0xd4, 0xa4, 0x5c,
  0xcc, 0x5d, 0x65, 0xb6, 0x92, 0x6c, 0x70, 0x48, 0x50, 0xfd, 0xed, 0xb9, 0xda, 0x5e, 0x15,
  0x46, 0x57, 0xa7, 0x8d, 0x9d, 0x84, 0x90, 0xd8, 0xab, 0x00, 0x8c, 0xbc, 0xd3, 0x0a, 0xf7,
  0xe4, 0x58, 0x05, 0xb8, 0xb3, 0x45, 0x06, 0xd0, 0x2c, 0x1e, 0x8f, 0xca, 0x3f, 0x0f, 0x02,
  0xc1, 0xaf, 0xbd, 0x03, 0x01, 0x13, 0x8a, 0x6b, 0x3a, 0x91, 0x11, 0x41, 0x4f, 0x67, 0xdc,
  0xea, 0x97, 0xf2, 0xcf, 0xce, 0xf0, 0xb4, 0xe6, 0x73, 0x96, 0xac, 0x74, 0x22, 0xe7, 0xad,
  0x35, 0x85, 0xe2, 0xf9, 0x37, 0xe8, 0x1c, 0x75, 0xdf, 0x6e, 0x47, 0xf1, 0x1a, 0x71, 0x1d,
  0x29, 0xc5, 0x89, 0x6f, 0xb7, 0x62, 0x0e, 0xaa, 0x18, 0xbe, 0x1b, 0xfc, 0x56, 0x3e, 0x4b,
  0xc6, 0xd2, 0x79, 0x20, 0x9a, 0xdb, 0xc0, 0xfe, 0x78, 0xcd, 0x5a, 0xf4, 0x1f, 0xdd, 0xa8,
  0x33, 0x88, 0x07, 0xc7, 0x31, 0xb1, 0x12, 0x10, 0x59, 0x27, 0x80, 0xec, 0x5f, 0x60, 0x51,
  0x7f, 0xa9, 0x19, 0xb5, 0x4a, 0x0d, 0x2d, 0xe5, 0x7a, 0x9f, 0x93, 0xc9, 0x9c, 0xef, 0xa0,
  0xe0, 0x3b, 0x4d, 0xae, 0x2a, 0xf5, 0xb0, 0xc8, 0xeb, 0xbb, 0x3c, 0x83, 0x53, 0x99, 0x61,
  0x17, 0x2b, 0x04, 0x7e, 0xba, 0x77, 0xd6, 0x26, 0xe1, 0x69, 0x14, 0x63, 0x55, 0x21, 0x0c,
  0x7d]

/-- `aes_mul_2`. -/
def aesMul2 : List Byte := [
  0x00, 0x02, 0x04, 0x06, 0x08, 0x0a, 0x0c, 0x0e, 0x10, 0x12, 0x14, 0x16, 0x18, 0x1a, 0x1c,
  0x1e, 0x20, 0x22, 0x24, 0x26, 0x28, 0x2a, 0x2c, 0x2e, 0x30, 0x32, 0x34, 0x36, 0x38, 0x3a,
  0x3c, 0x3e, 0x40, 0x42, 0x44, 0x46, 0x48, 0x4a, 0x4c, 0x4e, 0x50, 0x52, 0x54, 0x56, 0x58,
  0x5a, 0x5c, 0x5e, 0x60, 0x62, 0x64, 0x66, 0x68, 0x6a, 0x6c, 0x6e, 0x70, 0x72, 0x74, 0x76,
  0x78, 0x7a, 0x7c, 0x7e, 0x80, 0x82, 0x84, 0x86, 0x88, 0x8a, 0x8c, 0x8e, 0x90, 0x92, 0x94,
  0x96, 0x98, 0x9a, 0x9c, 0x9e, 0xa0, 0xa2, 0xa4, 0xa6, 0xa8, 0xaa, 0xac, 0xae, 0xb0, 0xb2,
  0xb4, 0xb6, 0xb8, 0xba, 0xbc, 0xbe, 0xc0, 0xc2, 0xc4, 0xc6, 0xc8, 0xca, 0xcc, 0xce, 0xd0,
  0xd2, 0xd4, 0xd6, 0xd8, 0xda, 0xdc, 0xde, 0xe0, 0xe2, 0xe4, 0xe6, 0xe8, 0xea, 0xec, 0xee,
  0xf0, 0xf2, 0xf4, 0xf6, 0xf8, 0xfa, 0xfc, 0xfe, 0x1b, 0x19, 0x1f, 0x1d, 0x13, 0x11, 0x17,
  0x15, 0x0b, 0x09, 0x0f, 0x0d, 0x03, 0x01, 0x07, 0x05, 0x3b, 0x39, 0x3f, 0x3d, 0x33, 0x31,
  0x37, 0x35, 0x2b, 0x29, 0x2f, 0x2d, 0x23, 0x21, 0x27, 0x25, 0x5b, 0x59, 0x5f, 0x5d, 0x53,
  0x51, 0x57, 0x55, 0x4b, 0x49, 0x4f, 0x4d, 0x43, 0x41, 0x47, 0x45, 0x7b, 0x79, 0x7f, 0x7d,
  0x73, 0x71, 0x77, 0x75, 0x6b, 0x69, 0x6f, 0x6d, 0x63, 0x61, 0x67, 0x65, 0x9b, 0x99, 0x9f,
  0x9d, 0x93, 0x91, 0x97, 0x95, 0x8b, 0x89, 0x8f, 0x8d, 0x83, 0x81, 0x87, 0x85, 0xbb, 0xb9,
  0xbf, 0xbd, 0xb3, 0xb1, 0xb7, 0xb5, 0xab, 0xa9, 0xaf, 0xad, 0xa3, 0xa1, 0xa7, 0xa5, 0xdb,
  0xd9, 0xdf, 0xdd, 0xd3, 0xd1, 0xd7, 0xd5, 0xcb, 0xc9, 0xcf, 0xcd, 0xc3, 0xc1, 0xc7, 0xc5,
  0xfb, 0xf9, 0xff, 0xfd, 0xf3, 0xf1, 0xf7, 0xf5, 0xeb, 0xe9, 0xef, 0xed, 0xe3, 0xe1, 0xe7,
  0xe5]

/-- `aes_mul_3`. -/
def aesMul3 : List Byte := [
  0x00, 0x03, 0x06, 0x05, 0x0c, 0x0f, 0x0a, 0x09, 0x18, 0x1b, 0x1e, 0x1d, 0x14, 0x17, 0x12,
  0x11, 0x30, 0x33, 0x36, 0x35, 0x3c, 0x3f, 0x3a, 0x39, 0x28, 0x2b, 0x2e, 0x2d, 0x24, 0x27,
  0x22, 0x21, 0x60, 0x63, 0x66, 0x65, 0x6c, 0x6f, 0x6a, 0x69, 0x78, 0x7b, 0x7e, 0x7d, 0x74,
  0x77, 0x72, 0x71, 0x50, 0x53, 0x56, 0x55, 0x5c, 0x5f, 0x5a, 0x59, 0x48, 0x4b, 0x4e, 0x4d,
  0x44, 0x47, 0x42, 0x41, 0xc0, 0xc3, 0xc6, 0xc5, 0xcc, 0xcf, 0xca, 0xc9, 0xd8, 0xdb, 0xde,
  0xdd, 0xd4, 0xd7, 0xd2, 0xd1, 0xf0, 0xf3, 0xf6, 0xf5, 0xfc, 0xff, 0xfa, 0xf9, 0xe8, 0xeb,
  0xee, 0xed, 0xe4, 0xe7, 0xe2, 0xe1, 0xa0, 0xa3, 0xa6, 0xa5, 0xac, 0xaf, 0xaa, 0xa9, 0xb8,
  0xbb, 0xbe, 0xbd, 0xb4, 0xb7, 0xb2, 0xb1, 0x90, 0x93, 0x96, 0x95, 0x9c, 0x9f, 0x9a, 0x99,
  0x88, 0x8b, 0x8e, 0x8d, 0x84, 0x87, 0x82, 0x81, 0x9b, 0x98, 0x9d, 0x9e, 0x97, 0x94, 0x91,
  0x92, 0x83, 0x80, 0x85, 0x86, 0x8f, 0x8c, 0x89, 0x8a, 0xab, 0xa8, 0xad, 0xae, 0xa7, 0xa4,
  0xa1, 0xa2, 0xb3, 0xb0, 0xb5, 0xb6, 0xbf, 0xbc, 0xb9, 0xba, 0xfb, 0xf8, 0xfd, 0xfe, 0xf7,
  0xf4, 0xf1, 0xf2, 0xe3, 0xe0, 0xe5, 0xe6, 0xef, 0xec, 0xe9, 0xea, 0xcb, 0xc8, 0xcd, 0xce,
  0xc7, 0xc4, 0xc1, 0xc2, 0xd3, 0xd0, 0xd5, 0xd6, 0xdf, 0xdc, 0xd9, 0xda, 0x5b, 0x58, 0x5d,
  0x5e, 0x57, 0x54, 0x51, 0x52, 0x43, 0x40, 0x45, 0x46, 0x4f, 0x4c, 0x49, 0x4a, 0x6b, 0x68,
  0x6d, 0x6e, 0x67, 0x64, 0x61, 0x62, 0x73, 0x70, 0x75, 0x76, 0x7f, 0x7c, 0x79, 0x7a, 0x3b,
  0x38, 0x3d, 0x3e, 0x37, 0x34, 0x31, 0x32, 0x23, 0x20, 0x25, 0x26, 0x2f, 0x2c, 0x29, 0x2a,
  0x0b, 0x08, 0x0d, 0x0e, 0x07, 0x04, 0x01, 0x02, 0x13, 0x10, 0x15, 0x16, 0x1f, 0x1c, 0x19,
  0x1a]

/-- `aes_mul_9`. -/
def aesMul9 : List Byte := [
  0x00, 0x09, 0x12, 0x1b, 0x24, 0x2d, 0x36, 0x3f, 0x48, 0x41, 0x5a, 0x53, 0x6c, 0x65, 0x7e,
  0x77, 0x90, 0x99, 0x82, 0x8b, 0xb4, 0xbd, 0xa6, 0xaf, 0xd8, 0xd1, 0xca, 0xc3, 0xfc, 0xf5,
  0xee, 0xe7, 0x3b, 0x32, 0x29, 0x20, 0x1f, 0x16, 0x0d, 0x04, 0x73, 0x7a, 0x61, 0x68, 0x57,
  0x5e, 0x45, 0x4c, 0xab, 0xa2, 0xb9, 0xb0, 0x8f, 0x86, 0x9d, 0x94, 0xe3, 0xea, 0xf1, 0xf8,
  0xc7, 0xce, 0xd5, 0xdc, 0x76, 0x7f, 0x64, 0x6d, 0x52, 0x5b, 0x40, 0x49, 0x3e, 0x37, 0x2c,
  0x25, 0x1a, 0x13, 0x08, 0x01, 0xe6, 0xef, 0xf4, 0xfd, 0xc2, 0xcb, 0xd0, 0xd9, 0xae, 0xa7,
  0xbc, 0xb5, 0x8a, 0x83, 0x98, 0x91, 0x4d, 0x44, 0x5f, 0x56, 0x69, 0x60, 0x7b, 0x72, 0x05,
  0x0c, 0x17, 0x1e, 0x21, 0x28, 0x33, 0x3a, 0xdd, 0xd4, 0xcf, 0xc6, 0xf9, 0xf0, 0xeb, 0xe2,
  0x95, 0x9c, 0x87, 0x8e, 0xb1, 0xb8, 0xa3, 0xaa, 0xec, 0xe5, 0xfe, 0xf7, 0xc8, 0xc1, 0xda,
  0xd3, 0xa4, 0xad, 0xb6, 0xbf, 0x80, 0x89, 0x92, 0x9b, 0x7c, 0x75, 0x6e, 0x67, 0x58, 0x51,
  0x4a, 0x43, 0x34, 0x3d, 0x26, 0x2f, 0x10, 0x19, 0x02, 0x0b, 0xd7, 0xde, 0xc5, 0xcc, 0xf3,
  0xfa, 0xe1, 0xe8, 0x9f, 0x96, 0x8d, 0x84, 0xbb, 0xb2, 0xa9, 0xa0, 0x47, 0x4e, 0x55, 0x5c,
  0x63, 0x6a, 0x71, 0x78, 0x0f, 0x06, 0x1d, 0x14, 0x2b, 0x22, 0x39, 0x30, 0x9a, 0x93, 0x88,
  0x81, 0xbe, 0xb7, 0xac, 0xa5, 0xd2, 0xdb, 0xc0, 0xc9, 0xf6, 0xff, 0xe4, 0xed, 0x0a, 0x03,
  0x18, 0x11, 0x2e, 0x27, 0x3c, 0x35, 0x42, 0x4b, 0x50, 0x59, 0x66, 0x6f, 0x74, 0x7d, 0xa1,
  0xa8, 0xb3, 0xba, 0x85, 0x8c, 0x97, 0x9e, 0xe9, 0xe0, 0xfb, 0xf2, 0xcd, 0xc4, 0xdf, 0xd6,
  0x31, 0x38, 0x23, 0x2a, 0x15, 0x1c, 0x07, 0x0e, 0x79, 0x70, 0x6b, 0x62, 0x5d, 0x54, 0x4f,
  0x46]

/-- `aes_mul_b`. -/
def aesMulB : List Byte := [
  0x00, 0x0b, 0x16, 0x1d, 0x2c, 0x27, 0x3a, 0x31, 0x58, 0x53, 0x4e, 0x45, 0x74, 0x7f, 0x62,
  0x69, 0xb0, 0xbb, 0xa6, 0xad, 0x9c, 0x97, 0x8a, 0x81, 0xe8, 0xe3, 0xfe, 0xf5, 0xc4, 0xcf,
  0xd2, 0xd9, 0x7b, 0x70, 0x6d, 0x66, 0x57, 0x5c, 0x41, 0x4a, 0x23, 0x28, 0x35, 0x3e, 0x0f,
  0x04, 0x19, 0x12, 0xcb, 0xc0, 0xdd, 0xd6, 0xe7, 0xec, 0xf1, 0xfa, 0x93, 0x98, 0x85, 0x8e,
  0xbf, 0xb4, 0xa9, 0xa2, 0xf6, 0xfd, 0xe0, 0xeb, 0xda, 0xd1, 0xcc, 0xc7, 0xae, 0xa5, 0xb8,
  0xb3, 0x82, 0x89, 0x94, 0x9f, 0x46, 0x4d, 0x50, 0x5b, 0x6a, 0x61, 0x7c, 0x77, 0x1e, 0x15,
  0x08, 0x03, 0x32, 0x39, 0x24, 0x2f, 0x8d, 0x86, 0x9b, 0x90, 0xa1, 0xaa, 0xb7, 0xbc, 0xd5,
  0xde, 0xc3, 0xc8, 0xf9, 0xf2, 0xef, 0xe4, 0x3d, 0x36, 0x2b, 0x20, 0x11, 0x1a, 0x07, 0x0c,
  0x65, 0x6e, 0x73, 0x78, 0x49, 0x42, 0x5f, 0x54, 0xf7, 0xfc, 0xe1, 0xea, 0xdb, 0xd0, 0xcd,
  0xc6, 0xaf, 0xa4, 0xb9, 0xb2, 0x83, 0x88, 0x95, 0x9e, 0x47, 0x4c, 0x51, 0x5a, 0x6b, 0x60,
  0x7d, 0x76, 0x1f, 0x14, 0x09, 0x02, 0x33, 0x38, 0x25, 0x2e, 0x8c, 0x87, 0x9a, 0x91, 0xa0,
  0xab, 0xb6, 0xbd, 0xd4, 0xdf, 0xc2, 0xc9, 0xf8, 0xf3, 0xee, 0xe5, 0x3c, 0x37, 0x2a, 0x21,
  0x10, 0x1b, 0x06, 0x0d, 0x64, 0x6f, 0x72, 0x79, 0x48, 0x43, 0x5e, 0x55, 0x01, 0x0a, 0x17,
  0x1c, 0x2d, 0x26, 0x3b, 0x30, 0x59, 0x52, 0x4f, 0x44, 0x75, 0x7e, 0x63, 0x68, 0xb1, 0xba,
  0xa7, 0xac, 0x9d, 0x96, 0x8b, 0x80, 0xe9, 0xe2, 0xff, 0xf4, 0xc5, 0xce, 0xd3, 0xd8, 0x7a,
  0x71, 0x6c, 0x67, 0x56, 0x5d, 0x40, 0x4b, 0x22, 0x29, 0x34, 0x3f, 0x0e, 0x05, 0x18, 0x13,
  0xca, 0xc1, 0xdc, 0xd7, 0xe6, 0xed, 0xf0, 0xfb, 0x92, 0x99, 0x84, 0x8f, 0xbe, 0xb5, 0xa8,
  0xa3]

/-- `aes_mul_d`. -/
def aesMulD : List Byte := [
  0x00, 0x0d, 0x1a, 0x17, 0x34, 0x39, 0x2e, 0x23, 0x68, 0x65, 0x72, 0x7f, 0x5c, 0x51, 0x46,
  0x4b, 0xd0, 0xdd, 0xca, 0xc7, 0xe4, 0xe9, 0xfe, 0xf3, 0xb8, 0xb5, 0xa2, 0xaf, 0x8c, 0x81,
  0x96, 0x9b, 0xbb, 0xb6, 0xa1, 0xac, 0x8f, 0x82, 0x95, 0x98, 0xd3, 0xde, 0xc9, 0xc4, 0xe7,
  0xea, 0xfd, 0xf0, 0x6b, 0x66, 0x71, 0x7c, 0x5f, 0x52, 0x45, 0x48, 0x03, 0x0e, 0x19, 0x14,
  0x37, 0x3a, 0x2d, 0x20, 0x6d, 0x60, 0x77, 0x7a, 0x59, 0x54, 0x43, 0x4e, 0x05, 0x08, 0x1f,
  0x12, 0x31, 0x3c, 0x2b, 0x26, 0xbd, 0xb0, 0xa7, 0xaa, 0x89, 0x84, 0x93, 0x9e, 0xd5, 0xd8,
  0xcf, 0xc2, 0xe1, 0xec, 0xfb, 0xf6, 0xd6, 0xdb, 0xcc, 0xc1, 0xe2, 0xef, 0xf8, 0xf5, 0xbe,
  0xb3, 0xa4, 0xa9, 0x8a, 0x87, 0x90, 0x9d, 0x06, 0x0b, 0x1c, 0x11, 0x32, 0x3f, 0x28, 0x25,
  0x6e, 0x63, 0x74, 0x79, 0x5a, 0x57, 0x40, 0x4d, 0xda, 0xd7, 0xc0, 0xcd, 0xee, 0xe3, 0xf4,
  0xf9, 0xb2, 0xbf, 0xa8, 0xa5, 0x86, 0x8b, 0x9c, 0x91, 0x0a, 0x07, 0x10, 0x1d, 0x3e, 0x33,
  0x24, 0x29, 0x62, 0x6f, 0x78, 0x75, 0x56, 0x5b, 0x4c, 0x41, 0x61, 0x6c, 0x7b, 0x76, 0x55,
  0x58, 0x4f, 0x42, 0x09, 0x04, 0x13, 0x1e, 0x3d, 0x30, 0x27, 0x2a, 0xb1, 0xbc, 0xab, 0xa6,
  0x85, 0x88, 0x9f, 0x92, 0xd9, 0xd4, 0xc3, 0xce, 0xed, 0xe0, 0xf7, 0xfa, 0xb7, 0xba, 0xad,
  0xa0, 0x83, 0x8e, 0x99, 0x94, 0xdf, 0xd2, 0xc5, 0xc8, 0xeb, 0xe6, 0xf1, 0xfc, 0x67, 0x6a,
  0x7d, 0x70, 0x53, 0x5e, 0x49, 0x44, 0x0f, 0x02, 0x15, 0x18, 0x3b, 0x36, 0x21, 0x2c, 0x0c,
  0x01, 0x16, 0x1b, 0x38, 0x35, 0x22, 0x2f, 0x64, 0x69, 0x7e, 0x73, 0x50, 0x5d, 0x4a, 0x47,
  0xdc, 0xd1, 0xc6, 0xcb, 0xe8, 0xe5, 0xf2, 0xff, 0xb4, 0xb9, 0xae, 0xa3, 0x80, 0x8d, 0x9a,
  0x97]

/-- `aes_mul_e`. -/
def aesMulE : List Byte := [
  0x00, 0x0e, 0x1c, 0x12, 0x38, 0x36, 0x24, 0x2a, 0x70, 0x7e, 0x6c, 0x62, 0x48, 0x46, 0x54,
  0x5a, 0xe0, 0xee, 0xfc, 0xf2, 0xd8, 0xd6, 0xc4, 0xca, 0x90, 0x9e, 0x8c, 0x82, 0xa8, 0xa6,
  0xb4, 0xba, 0xdb, 0xd5, 0xc7, 0xc9, 0xe3, 0xed, 0xff, 0xf1, 0xab, 0xa5, 0xb7, 0xb9, 0x93,
  0x9d, 0x8f, 0x81, 0x3b, 0x35, 0x27, 0x29, 0x03, 0x0d, 0x1f, 0x11, 0x4b, 0x45, 0x57, 0x59,
  0x73, 0x7d, 0x6f, 0x61, 0xad, 0xa3, 0xb1, 0xbf, 0x95, 0x9b, 0x89, 0x87, 0xdd, 0xd3, 0xc1,
  0xcf, 0xe5, 0xeb, 0xf9, 0xf7, 0x4d, 0x43, 0x51, 0x5f, 0x75, 0x7b, 0x69, 0x67, 0x3d, 0x33,
  0x21, 0x2f, 0x05, 0x0b, 0x19, 0x17, 0x76, 0x78, 0x6a, 0x64, 0x4e, 0x40, 0x52, 0x5c, 0x06,
  0x08, 0x1a, 0x14, 0x3e, 0x30, 0x22, 0x2c, 0x96, 0x98, 0x8a, 0x84, 0xae, 0xa0, 0xb2, 0xbc,
  0xe6, 0xe8, 0xfa, 0xf4, 0xde, 0xd0, 0xc2, 0xcc, 0x41, 0x4f, 0x5d, 0x53, 0x79, 0x77, 0x65,
  0x6b, 0x31, 0x3f, 0x2d, 0x23, 0x09, 0x07, 0x15, 0x1b, 0xa1, 0xaf, 0xbd, 0xb3, 0x99, 0x97,
  0x85, 0x8b, 0xd1, 0xdf, 0xcd, 0xc3, 0xe9, 0xe7, 0xf5, 0xfb, 0x9a, 0x94, 0x86, 0x88, 0xa2,
  0xac, 0xbe, 0xb0, 0xea, 0xe4, 0xf6, 0xf8, 0xd2, 0xdc, 0xce, 0xc0, 0x7a, 0x74, 0x66, 0x68,
  0x42, 0x4c, 0x5e, 0x50, 0x0a, 0x04, 0x16, 0x18, 0x32, 0x3c, 0x2e, 0x20, 0xec, 0xe2, 0xf0,
  0xfe, 0xd4, 0xda, 0xc8, 0xc6, 0x9c, 0x92, 0x80, 0x8e, 0xa4, 0xaa, 0xb8, 0xb6, 0x0c, 0x02,
  0x10, 0x1e, 0x34, 0x3a, 0x28, 0x26, 0x7c, 0x72, 0x60, 0x6e, 0x44, 0x4a, 0x58, 0x56, 0x37,
  0x39, 0x2b, 0x25, 0x0f, 0x01, 0x13, 0x1d, 0x47, 0x49, 0x5b, 0x55, 0x7f, 0x71, 0x63, 0x6d,
  0xd7, 0xd9, 0xcb, 0xc5, 0xef, 0xe1, 0xf3, 0xfd, 0xa7, 0xa9, 0xbb, 0xb5, 0x9f, 0x91, 0x83,
  0x8d]

/-- The entry of a table. -/
def tableAt (t : List Byte) (a : Byte) : Byte := t.getD a.toNat 0

/-! ## The expanded key -/

/-- `KeyWordExpansion`, a word in each column. -/
abbrev KeyWords := Fin 4 → Nat → Byte

/-- `Temprcon`, shifted for a row. -/
def rconByte (temprcon : BitVec 32) (r : Fin 4) : Byte :=
  ((temprcon >>> (24 - 8 * r.val)) &&& 0xff#32).setWidth 8

/-- `TempWord`, for the word at `keyIndex`. -/
def tempWord (numberOfWordOfKey : Nat) (kw : KeyWords) (keyIndex : Nat) : Fin 4 → Byte :=
  if keyIndex % numberOfWordOfKey = 0 then
    let temprcon := aesRcon.getD (keyIndex / numberOfWordOfKey) 0
    fun r => tableAt aesSboxEnc (kw (r + 1) (keyIndex - 1)) ^^^ rconByte temprcon r
  else if 6 < numberOfWordOfKey ∧ keyIndex % numberOfWordOfKey = 4 then
    fun r => tableAt aesSboxEnc (kw r (keyIndex - 1))
  else fun r => kw r (keyIndex - 1)

/-- One turn of the second loop: the word at `keyIndex`. -/
def expandWord (numberOfWordOfKey : Nat) (kw : KeyWords) (keyIndex : Nat) : KeyWords := fun r =>
  Function.update (kw r) keyIndex
    (kw r (keyIndex - numberOfWordOfKey) ^^^ tempWord numberOfWordOfKey kw keyIndex r)

/-- `RT_AES_KeyExpansion`. -/
def rtAesKeyExpansion (key : Nat → Byte) (keyLength : Nat) (ctx : KeyWords) : KeyWords :=
  let numberOfWordOfKey := keyLength / 4
  let numberOfWordOfKeyExpansion := 4 * (keyLength / 4 + 6 + 1)
  (List.range' numberOfWordOfKey (numberOfWordOfKeyExpansion - numberOfWordOfKey)).foldl
    (expandWord numberOfWordOfKey)
    fun r i => if i < numberOfWordOfKey then key (4 * i + r.val) else ctx r i

/-! ## The steps -/

/-- `State[RowIndex][ColumnIndex] = PlainBlock[RowIndex + 4*ColumnIndex]`. -/
def stateOf (b : Block) : State := fun r c => b ⟨r.val + 4 * c.val, by omega⟩

theorem rowIndex_lt (i : Fin 16) : i.val % 4 < 4 := Nat.mod_lt i.val (by decide)

theorem columnIndex_lt (i : Fin 16) : i.val / 4 < 4 := by omega

/-- `CipherBlock[RowIndex + 4*ColumnIndex] = State[RowIndex][ColumnIndex]`. -/
def blockOf (s : State) : Block := fun i =>
  s ⟨i.val % 4, rowIndex_lt i⟩ ⟨i.val / 4, columnIndex_lt i⟩

def addRoundKey (kw : KeyWords) (roundIndex : Nat) (s : State) : State := fun r c =>
  s r c ^^^ kw r (roundIndex * 4 + c.val)

def subBytes (s : State) : State := fun r c => tableAt aesSboxEnc (s r c)

def invSubBytes (s : State) : State := fun r c => tableAt aesSboxDec (s r c)

/-- The first row is turned to the left, the second one twice, the third one to the right. -/
def shiftRows (s : State) : State
  | 0, c => s 0 c
  | 1, c => s 1 (c + 1)
  | 2, c => s 2 (c + 2)
  | 3, c => s 3 (c - 1)

def invShiftRows (s : State) : State
  | 0, c => s 0 c
  | 1, c => s 1 (c - 1)
  | 2, c => s 2 (c + 2)
  | 3, c => s 3 (c + 1)

def mixColumns (s : State) : State
  | 0, c => tableAt aesMul2 (s 0 c) ^^^ tableAt aesMul3 (s 1 c) ^^^ s 2 c ^^^ s 3 c
  | 1, c => s 0 c ^^^ tableAt aesMul2 (s 1 c) ^^^ tableAt aesMul3 (s 2 c) ^^^ s 3 c
  | 2, c => s 0 c ^^^ s 1 c ^^^ tableAt aesMul2 (s 2 c) ^^^ tableAt aesMul3 (s 3 c)
  | 3, c => tableAt aesMul3 (s 0 c) ^^^ s 1 c ^^^ s 2 c ^^^ tableAt aesMul2 (s 3 c)

def invMixColumns (s : State) : State
  | 0, c => tableAt aesMulE (s 0 c) ^^^ tableAt aesMulB (s 1 c) ^^^ tableAt aesMulD (s 2 c)
      ^^^ tableAt aesMul9 (s 3 c)
  | 1, c => tableAt aesMul9 (s 0 c) ^^^ tableAt aesMulE (s 1 c) ^^^ tableAt aesMulB (s 2 c)
      ^^^ tableAt aesMulD (s 3 c)
  | 2, c => tableAt aesMulD (s 0 c) ^^^ tableAt aesMul9 (s 1 c) ^^^ tableAt aesMulE (s 2 c)
      ^^^ tableAt aesMulB (s 3 c)
  | 3, c => tableAt aesMulB (s 0 c) ^^^ tableAt aesMulD (s 1 c) ^^^ tableAt aesMul9 (s 2 c)
      ^^^ tableAt aesMulE (s 3 c)

/-! ## One block -/

/-- The lengths of a key: `AES_KEY128_LENGTH`, `AES_KEY192_LENGTH` and `AES_KEY256_LENGTH`. -/
def ValidKeyLength (keyLength : Nat) : Prop := keyLength = 16 ∨ keyLength = 24 ∨ keyLength = 32

instance (keyLength : Nat) : Decidable (ValidKeyLength keyLength) :=
  inferInstanceAs (Decidable (_ ∨ _ ∨ _))

/-- The rounds of `RT_AES_Encrypt`. -/
def encryptRounds (kw : KeyWords) (numberOfRound : Nat) (plainBlock : Block) : Block :=
  let state := addRoundKey kw 0 (stateOf plainBlock)
  let state := (List.range' 1 (numberOfRound - 1)).foldl (fun s roundIndex =>
    addRoundKey kw roundIndex (mixColumns (shiftRows (subBytes s)))) state
  blockOf (addRoundKey kw numberOfRound (shiftRows (subBytes state)))

/-- `RT_AES_Encrypt`: `CipherBlock` and `*CipherBlockSize`, where they are written. -/
def rtAesEncrypt (plainBlock : Block) (plainBlockSize : Nat) (key : Nat → Byte) (keyLength : Nat)
    (cipherBlockSize : Nat) (mem : Option KeyWords) : Option (Block × Nat) :=
  if plainBlockSize ≠ 16 then none
  else if ¬ ValidKeyLength keyLength then none
  else if cipherBlockSize < 16 then none
  else mem.map fun ctx =>
    (encryptRounds (rtAesKeyExpansion key keyLength ctx) (keyLength / 4 + 6) plainBlock, 16)

/-- The rounds of `RT_AES_Decrypt`. -/
def decryptRounds (kw : KeyWords) (numberOfRound : Nat) (cipherBlock : Block) : Block :=
  let state := addRoundKey kw numberOfRound (stateOf cipherBlock)
  let state := (List.range' 1 (numberOfRound - 1)).reverse.foldl (fun s roundIndex =>
    invMixColumns (addRoundKey kw roundIndex (invSubBytes (invShiftRows s)))) state
  blockOf (addRoundKey kw 0 (invSubBytes (invShiftRows state)))

/-- `RT_AES_Decrypt`: `PlainBlock` and `*PlainBlockSize`, where they are written. -/
def rtAesDecrypt (cipherBlock : Block) (cipherBlockSize : Nat) (key : Nat → Byte)
    (keyLength : Nat) (plainBlockSize : Nat) (mem : Option KeyWords) : Option (Block × Nat) :=
  if plainBlockSize < 16 then none
  else if ¬ ValidKeyLength keyLength then none
  else if cipherBlockSize ≠ 16 then none
  else mem.map fun ctx =>
    (decryptRounds (rtAesKeyExpansion key keyLength ctx) (keyLength / 4 + 6) cipherBlock, 16)

/-! ## What the tables hold -/

/-- A table is read off once for every byte. -/
theorem tableAt_eq {t : List Byte} {f : Byte → Byte}
    (h : t = (List.range 256).map fun i => f (BitVec.ofNat 8 i)) (a : Byte) :
    tableAt t a = f a := by
  have ha : a.toNat < 256 := a.isLt
  rw [tableAt, h, List.getD_eq_getElem?_getD, List.getElem?_map, List.getElem?_range ha,
    Option.map_some, Option.getD_some, BitVec.ofNat_toNat, BitVec.setWidth_eq]

/-- The table of a factor. -/
def Multiples (c : Byte) (t : List Byte) : Prop :=
  t = (List.range 256).map fun i => mul c (BitVec.ofNat 8 i)

instance (c : Byte) (t : List Byte) : Decidable (Multiples c t) :=
  inferInstanceAs (Decidable (_ = _))

theorem multiples : Multiples 2#8 aesMul2 ∧ Multiples 3#8 aesMul3 ∧ Multiples 0x9#8 aesMul9 ∧
    Multiples 0xb#8 aesMulB ∧ Multiples 0xd#8 aesMulD ∧ Multiples 0xe#8 aesMulE := by
  refine ⟨?_, ?_, ?_, ?_, ?_, ?_⟩ <;> decide +kernel

theorem tableAt_aesMul2 (a : Byte) : tableAt aesMul2 a = mul 2#8 a :=
  tableAt_eq multiples.1 a

theorem tableAt_aesMul3 (a : Byte) : tableAt aesMul3 a = mul 3#8 a :=
  tableAt_eq multiples.2.1 a

theorem tableAt_aesMul9 (a : Byte) : tableAt aesMul9 a = mul 0x9#8 a :=
  tableAt_eq multiples.2.2.1 a

theorem tableAt_aesMulB (a : Byte) : tableAt aesMulB a = mul 0xb#8 a :=
  tableAt_eq multiples.2.2.2.1 a

theorem tableAt_aesMulD (a : Byte) : tableAt aesMulD a = mul 0xd#8 a :=
  tableAt_eq multiples.2.2.2.2.1 a

theorem tableAt_aesMulE (a : Byte) : tableAt aesMulE a = mul 0xe#8 a :=
  tableAt_eq multiples.2.2.2.2.2 a

theorem length_aesSboxEnc : aesSboxEnc.length = 256 := by decide +kernel

theorem tableAt_packed : tableAt = fun t a => BitVec.ofNat 8 (packed t / 2 ^ (8 * a.toNat)) :=
  funext fun t => funext fun a => getD_packed t a.toNat

theorem tableAt_sboxDec_sboxEnc : ∀ a : Byte, tableAt aesSboxDec (tableAt aesSboxEnc a) = a := by
  rw [tableAt_packed]
  decide +kernel

/-- The first rows of the two matrices. -/
def mixRow : Column
  | 0 => 2#8
  | 1 => 3#8
  | 2 => 1#8
  | 3 => 1#8

def unmixRow : Column
  | 0 => 0xe#8
  | 1 => 0xb#8
  | 2 => 0xd#8
  | 3 => 0x9#8

theorem unmixRow_mixRow : Inverse unmixRow mixRow := by
  constructor <;> decide

/-! ## The steps are those of a network -/

theorem shiftRows_eq (s : State) : shiftRows s = shiftState s := by
  funext r c
  fin_cases r <;> fin_cases c <;> rfl

theorem invShiftRows_eq (s : State) : invShiftRows s = unshiftState s := by
  funext r c
  fin_cases r <;> fin_cases c <;> rfl

theorem mixState_apply (m : Column) (s : State) (c : Fin 4) :
    mixState m s 0 c = mul (m 0) (s 0 c) ^^^ mul (m 1) (s 1 c) ^^^ mul (m 2) (s 2 c)
        ^^^ mul (m 3) (s 3 c)
      ∧ mixState m s 1 c = mul (m 3) (s 0 c) ^^^ mul (m 0) (s 1 c) ^^^ mul (m 1) (s 2 c)
        ^^^ mul (m 2) (s 3 c)
      ∧ mixState m s 2 c = mul (m 2) (s 0 c) ^^^ mul (m 3) (s 1 c) ^^^ mul (m 0) (s 2 c)
        ^^^ mul (m 1) (s 3 c)
      ∧ mixState m s 3 c = mul (m 1) (s 0 c) ^^^ mul (m 2) (s 1 c) ^^^ mul (m 3) (s 2 c)
        ^^^ mul (m 0) (s 3 c) := by
  refine ⟨rfl, ?_, ?_, ?_⟩
  · show mul (m 0) (s 1 c) ^^^ mul (m 1) (s 2 c) ^^^ mul (m 2) (s 3 c) ^^^ mul (m 3) (s 0 c) = _
    ac_rfl
  · show mul (m 0) (s 2 c) ^^^ mul (m 1) (s 3 c) ^^^ mul (m 2) (s 0 c) ^^^ mul (m 3) (s 1 c) = _
    ac_rfl
  · show mul (m 0) (s 3 c) ^^^ mul (m 1) (s 0 c) ^^^ mul (m 2) (s 1 c) ^^^ mul (m 3) (s 2 c) = _
    ac_rfl

theorem mixColumns_eq (s : State) : mixColumns s = mixState mixRow s := by
  funext r c
  obtain ⟨h0, h1, h2, h3⟩ := mixState_apply mixRow s c
  simp only [mixRow, one_mul, ← tableAt_aesMul2, ← tableAt_aesMul3] at h0 h1 h2 h3
  fin_cases r
  · exact h0.symm
  · exact h1.symm
  · exact h2.symm
  · exact h3.symm

theorem invMixColumns_eq (s : State) : invMixColumns s = mixState unmixRow s := by
  funext r c
  obtain ⟨h0, h1, h2, h3⟩ := mixState_apply unmixRow s c
  simp only [unmixRow, ← tableAt_aesMul9, ← tableAt_aesMulB, ← tableAt_aesMulD,
    ← tableAt_aesMulE] at h0 h1 h2 h3
  fin_cases r
  · exact h0.symm
  · exact h1.symm
  · exact h2.symm
  · exact h3.symm

/-- The network that the two routines run. -/
def network : Network State :=
  squareNetwork (tableAt aesSboxEnc) (tableAt aesSboxDec) tableAt_sboxDec_sboxEnc mixRow unmixRow
    unmixRow_mixRow

/-- The key of a round. -/
def roundKey (kw : KeyWords) (roundIndex : Nat) : State := fun r c => kw r (roundIndex * 4 + c.val)

theorem encryptRound_eq (kw : KeyWords) (roundIndex : Nat) (s : State) :
    addRoundKey kw roundIndex (mixColumns (shiftRows (subBytes s)))
      = network.add (roundKey kw roundIndex) (network.mix (network.shift (network.sub s))) := by
  rw [mixColumns_eq, shiftRows_eq]
  rfl

theorem decryptRound_eq (kw : KeyWords) (roundIndex : Nat) (s : State) :
    invMixColumns (addRoundKey kw roundIndex (invSubBytes (invShiftRows s)))
      = network.unmix
          (network.add (roundKey kw roundIndex) (network.unsub (network.unshift s))) := by
  rw [invMixColumns_eq, invShiftRows_eq]
  rfl

/-! ## The loops -/

theorem foldl_encryptRound (kw : KeyWords) (s : State) (n : Nat) :
    (List.range' 1 n).foldl (fun s roundIndex =>
      addRoundKey kw roundIndex (mixColumns (shiftRows (subBytes s)))) s
      = network.rounds (roundKey kw) s n := by
  induction n with
  | zero => rfl
  | succ n ih =>
    rw [List.range'_concat, List.foldl_append, ih, Network.rounds_succ, Nat.one_mul,
      Nat.add_comm 1 n]
    exact encryptRound_eq kw (n + 1) _

theorem foldl_decryptRound (kw : KeyWords) (s : State) (n : Nat) :
    (List.range' 1 n).reverse.foldl (fun s roundIndex =>
      invMixColumns (addRoundKey kw roundIndex (invSubBytes (invShiftRows s)))) s
      = network.unrounds (roundKey kw) n s := by
  induction n generalizing s with
  | zero => rfl
  | succ n ih =>
    rw [List.range'_concat, List.reverse_append, Nat.one_mul, Nat.add_comm 1 n,
      List.reverse_singleton, List.singleton_append, List.foldl_cons, decryptRound_eq, ih]
    rfl

theorem stateOf_blockOf (s : State) : stateOf (blockOf s) = s := by
  funext r c
  fin_cases r <;> fin_cases c <;> rfl

theorem blockOf_stateOf (b : Block) : blockOf (stateOf b) = b := by
  funext i
  rw [blockOf, stateOf]
  exact congrArg b (Fin.ext (Nat.mod_add_div i.val 4))

theorem encryptRounds_eq (kw : KeyWords) (n : Nat) (b : Block) :
    encryptRounds kw (n + 1) b = blockOf (network.encrypt (roundKey kw) n (stateOf b)) := by
  rw [encryptRounds, Nat.add_sub_cancel, foldl_encryptRound, shiftRows_eq]
  rfl

theorem decryptRounds_eq (kw : KeyWords) (n : Nat) (b : Block) :
    decryptRounds kw (n + 1) b = blockOf (network.decrypt (roundKey kw) n (stateOf b)) := by
  rw [decryptRounds, Nat.add_sub_cancel, foldl_decryptRound, invShiftRows_eq]
  rfl

/-- **Decryption undoes encryption** under any expanded key. -/
theorem decryptRounds_encryptRounds (kw : KeyWords) (n : Nat) (b : Block) :
    decryptRounds kw (n + 1) (encryptRounds kw (n + 1) b) = b := by
  rw [decryptRounds_eq, encryptRounds_eq, stateOf_blockOf, Network.decrypt_encrypt, blockOf_stateOf]

/-! ## The expanded key -/

/-- What the words of an expanded key are. -/
structure Expanded (key : Nat → Byte) (nk total : Nat) (kw : KeyWords) : Prop where
  load : ∀ r i, i < nk → kw r i = key (4 * i + r.val)
  step : ∀ r i, nk ≤ i → i < total → kw r i = kw r (i - nk) ^^^ tempWord nk kw i r

/-- `TempWord` reads the word before. -/
theorem tempWord_congr {nk i : Nat} {kw kw' : KeyWords} (h : ∀ r, kw r (i - 1) = kw' r (i - 1)) :
    tempWord nk kw i = tempWord nk kw' i := by
  simp only [tempWord, h]

/-- The words are fixed by the key. -/
theorem Expanded.unique {key : Nat → Byte} {nk total : Nat} {kw kw' : KeyWords} (hnk : 0 < nk)
    (h : Expanded key nk total kw) (h' : Expanded key nk total kw') {i : Nat} (hi : i < total)
    (r : Fin 4) : kw r i = kw' r i := by
  induction i using Nat.strong_induction_on generalizing r with
  | _ i ih =>
    by_cases hload : i < nk
    · rw [h.load r i hload, h'.load r i hload]
    · have htemp : tempWord nk kw i = tempWord nk kw' i :=
        tempWord_congr fun r => ih (i - 1) (by omega) (by omega) r
      rw [h.step r i (by omega) hi, h'.step r i (by omega) hi, htemp,
        ih (i - nk) (by omega) (by omega) r]

/-- The second loop after `n` turns. -/
def expandWords (nk : Nat) (kw : KeyWords) (n : Nat) : KeyWords :=
  (List.range' nk n).foldl (expandWord nk) kw

theorem expandWords_succ (nk : Nat) (kw : KeyWords) (n : Nat) :
    expandWords nk kw (n + 1) = expandWord nk (expandWords nk kw n) (nk + n) := by
  rw [expandWords, List.range'_concat, List.foldl_append, Nat.one_mul]
  rfl

/-- A turn writes one word only. -/
theorem expandWord_of_ne {nk i j : Nat} (kw : KeyWords) (h : j ≠ i) (r : Fin 4) :
    expandWord nk kw i r j = kw r j := Function.update_of_ne h _ _

/-- What is in front of the word of a turn stays as it is. -/
theorem expandWords_stable {nk j : Nat} (kw : KeyWords) {n : Nat} (hj : j < nk + n) (m : Nat)
    (r : Fin 4) : expandWords nk kw (n + m) r j = expandWords nk kw n r j := by
  induction m with
  | zero => rfl
  | succ m ih => rw [Nat.add_succ, expandWords_succ, expandWord_of_ne _ (by omega), ih]

theorem rtAesKeyExpansion_expanded {key : Nat → Byte} {keyLength : Nat} (ctx : KeyWords)
    (h : 0 < keyLength / 4) :
    Expanded key (keyLength / 4) (4 * (keyLength / 4 + 6 + 1))
      (rtAesKeyExpansion key keyLength ctx) := by
  generalize hnk : keyLength / 4 = nk at h
  generalize hloaded : (fun (r : Fin 4) i => if i < nk then key (4 * i + r.val) else ctx r i) = kw
  have hexp : rtAesKeyExpansion key keyLength ctx
      = expandWords nk kw (4 * (nk + 6 + 1) - nk) := by
    rw [rtAesKeyExpansion, hnk, ← hloaded]
    rfl
  rw [hexp]
  generalize htotal : 4 * (nk + 6 + 1) - nk = n
  constructor
  · intro r i hi
    have hstable := expandWords_stable (n := 0) kw (show i < nk + 0 from hi) n r
    rw [Nat.zero_add] at hstable
    rw [hstable, expandWords, List.range'_zero, List.foldl_nil, ← hloaded]
    exact if_pos hi
  · intro r i hi hlt
    obtain ⟨t, rfl⟩ := Nat.exists_eq_add_of_le hi
    -- the turn that writes the word, and those after it
    obtain ⟨m, hm⟩ := Nat.exists_eq_add_of_le (show t + 1 ≤ n by omega)
    have hword : expandWords nk kw n r (nk + t) = expandWord nk (expandWords nk kw t) (nk + t) r
        (nk + t) := by
      rw [hm, expandWords_stable kw (by omega) m r, expandWords_succ]
    have hbefore (j : Nat) (hj : j < nk + t) (r : Fin 4) :
        expandWords nk kw n r j = expandWords nk kw t r j := by
      rw [hm, Nat.add_assoc, expandWords_stable kw hj (1 + m) r]
    have htemp : tempWord nk (expandWords nk kw n) (nk + t)
        = tempWord nk (expandWords nk kw t) (nk + t) :=
      tempWord_congr fun r => hbefore _ (by omega) r
    rw [hword, expandWord, Function.update_self, hbefore _ (by omega), htemp]

/-! ## The routines -/

theorem ValidKeyLength.words {keyLength : Nat} (h : ValidKeyLength keyLength) :
    0 < keyLength / 4 := by
  obtain rfl | rfl | rfl := h <;> decide

/-- What the context held before does not matter. -/
theorem encryptRounds_ctx (key : Nat → Byte) {keyLength : Nat} (h : ValidKeyLength keyLength)
    (ctx ctx' : KeyWords) (b : Block) :
    encryptRounds (rtAesKeyExpansion key keyLength ctx) (keyLength / 4 + 6) b
      = encryptRounds (rtAesKeyExpansion key keyLength ctx') (keyLength / 4 + 6) b := by
  rw [encryptRounds_eq _ (keyLength / 4 + 5), encryptRounds_eq _ (keyLength / 4 + 5)]
  refine congrArg blockOf (network.encrypt_congr (fun i hi => ?_) _)
  funext r c
  exact (rtAesKeyExpansion_expanded ctx h.words).unique h.words
    (rtAesKeyExpansion_expanded ctx' h.words) (by omega) r

/-- The block that `RT_AES_Encrypt` returns. -/
def aesBlock (key : Nat → Byte) (keyLength : Nat) (b : Block) : Block :=
  encryptRounds (rtAesKeyExpansion key keyLength fun _ _ => 0) (keyLength / 4 + 6) b

/-- Different blocks are enciphered differently. -/
theorem aesBlock_injective (key : Nat → Byte) (keyLength : Nat) :
    Function.Injective (aesBlock key keyLength) :=
  Function.LeftInverse.injective (g := decryptRounds _ _)
    (decryptRounds_encryptRounds _ (keyLength / 4 + 5))

theorem rtAesEncrypt_eq (key : Nat → Byte) {keyLength size : Nat} (h : ValidKeyLength keyLength)
    (hsize : 16 ≤ size) (mem : Option KeyWords) (b : Block) :
    rtAesEncrypt b 16 key keyLength size mem = mem.map fun _ => (aesBlock key keyLength b, 16) := by
  rw [rtAesEncrypt, if_neg (by simp), if_neg (not_not.mpr h), if_neg (by omega)]
  cases mem with
  | none => rw [Option.map_none, Option.map_none]
  | some ctx => exact congrArg (fun c => some (c, 16)) (encryptRounds_ctx key h ctx _ b)

theorem rtAesDecrypt_eq (key : Nat → Byte) {keyLength size : Nat} (h : ValidKeyLength keyLength)
    (hsize : 16 ≤ size) (mem : Option KeyWords) (b : Block) :
    rtAesDecrypt (aesBlock key keyLength b) 16 key keyLength size mem
      = mem.map fun _ => (b, 16) := by
  rw [rtAesDecrypt, if_neg (by omega), if_neg (not_not.mpr h), if_neg (by simp)]
  cases mem with
  | none => rw [Option.map_none, Option.map_none]
  | some ctx =>
    rw [aesBlock, encryptRounds_ctx key h _ ctx]
    exact congrArg (fun c => some (c, 16)) (decryptRounds_encryptRounds _ (keyLength / 4 + 5) b)

end ExtDrv.Rt3370.RtAes
