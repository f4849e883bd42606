import Mac80211.Ieee80211
import Mac80211.Memo

namespace Mac80211.Tkip
open Ieee80211

def tkipSbox : List UInt16 := [
  0xc6a5,0xf884,0xee99,0xf68d,0xff0d,0xd6bd,0xdeb1,0x9154,0x6050,0x0203,0xcea9,0x567d,0xe719,0xb562,0x4de6,0xec9a,
  0x8f45,0x1f9d,0x8940,0xfa87,0xef15,0xb2eb,0x8ec9,0xfb0b,0x41ec,0xb367,0x5ffd,0x45ea,0x23bf,0x53f7,0xe496,0x9b5b,
  0x75c2,0xe11c,0x3dae,0x4c6a,0x6c5a,0x7e41,0xf502,0x834f,0x685c,0x51f4,0xd134,0xf908,0xe293,0xab73,0x6253,0x2a3f,
  0x080c,0x9552,0x4665,0x9d5e,0x3028,0x37a1,0x0a0f,0x2fb5,0x0e09,0x2436,0x1b9b,0xdf3d,0xcd26,0x4e69,0x7fcd,0xea9f,
  0x121b,0x1d9e,0x5874,0x342e,0x362d,0xdcb2,0xb4ee,0x5bfb,0xa4f6,0x764d,0xb761,0x7dce,0x527b,0xdd3e,0x5e71,0x1397,
  0xa6f5,0xb968,0x0000,0xc12c,0x4060,0xe31f,0x79c8,0xb6ed,0xd4be,0x8d46,0x67d9,0x724b,0x94de,0x98d4,0xb0e8,0x854a,
  0xbb6b,0xc52a,0x4fe5,0xed16,0x86c5,0x9ad7,0x6655,0x1194,0x8acf,0xe910,0x0406,0xfe81,0xa0f0,0x7844,0x25ba,0x4be3,
  0xa2f3,0x5dfe,0x80c0,0x058a,0x3fad,0x21bc,0x7048,0xf104,0x63df,0x77c1,0xaf75,0x4263,0x2030,0xe51a,0xfd0e,0xbf6d,
  0x814c,0x1814,0x2635,0xc32f,0xbee1,0x35a2,0x88cc,0x2e39,0x9357,0x55f2,0xfc82,0x7a47,0xc8ac,0xbae7,0x322b,0xe695,
  0xc0a0,0x1998,0x9ed1,0xa37f,0x4466,0x547e,0x3bab,0x0b83,0x8cca,0xc729,0x6bd3,0x283c,0xa779,0xbce2,0x161d,0xad76,
  0xdb3b,0x6456,0x744e,0x141e,0x92db,0x0c0a,0x486c,0xb8e4,0x9f5d,0xbd6e,0x43ef,0xc4a6,0x39a8,0x31a4,0xd337,0xf28b,
  0xd532,0x8b43,0x6e59,0xdab7,0x018c,0xb164,0x9cd2,0x49e0,0xd8b4,0xacfa,0xf307,0xcf25,0xcaaf,0xf48e,0x47e9,0x1018,
  0x6fd5,0xf088,0x4a6f,0x5c72,0x3824,0x57f1,0x73c7,0x9751,0xcb23,0xa17c,0xe89c,0x3e21,0x96dd,0x61dc,0x0d86,0x0f85,
  0xe090,0x7c42,0x71c4,0xccaa,0x90d8,0x0605,0xf701,0x1c12,0xc2a3,0x6a5f,0xaef9,0x69d0,0x1791,0x9958,0x3a27,0x27b9,
  0xd938,0xeb13,0x2bb3,0x2233,0xd2bb,0xa970,0x0789,0x33a7,0x2db6,0x3c22,0x1592,0xc920,0x8749,0xaaff,0x5078,0xa57a,
  0x038f,0x59f8,0x0980,0x1a17,0x65da,0xd731,0x84c6,0xd0b8,0x82c3,0x29b0,0x5a77,0x1e11,0x7bcb,0xa8fc,0x6dd6,0x2c3a]

def swab16 (v : UInt16) : UInt16 := (v <<< 8) ||| (v >>> 8)
def ror16 (v : UInt16) : UInt16 := (v >>> 1) ||| (v <<< 15)

def tkipS (val : UInt16) : UInt16 := tkipSbox.getD (val &&& 0xff).toNat 0 ^^^ swab16 (tkipSbox.getD (val >>> 8).toNat 0)

def le16 (bytes : Nat → UInt8) (i : Nat) : UInt16 := (bytes i).toUInt16 ||| ((bytes (i + 1)).toUInt16 <<< 8)
def le32 (bytes : Nat → UInt8) (i : Nat) : UInt32 := (le16 bytes i).toUInt32 ||| ((le16 bytes (i + 2)).toUInt32 <<< 16)

def putLe16 (v : UInt16) : List UInt8 := [v.toUInt8,(v >>> 8).toUInt8]
def putLe32 (v : UInt32) : List UInt8 := [v.toUInt8,(v >>> 8).toUInt8,(v >>> 16).toUInt8,(v >>> 24).toUInt8]

structure P1k where
  k0 : UInt16
  k1 : UInt16
  k2 : UInt16
  k3 : UInt16
  k4 : UInt16
deriving DecidableEq

abbrev Tk := Nat → UInt8

def phase1Start (ta : EthAddr) (iv32 : UInt32) : P1k :=
  let byte := fun i => ta.toList.getD i 0
  ⟨(iv32 &&& 0xffff).toUInt16,(iv32 >>> 16).toUInt16,le16 byte 0,le16 byte 2,le16 byte 4⟩

def phase1Round (tk : Tk) (p : P1k) (i : Nat) : P1k :=
  let j := 2 * (i % 2)
  let k0 := p.k0 + tkipS (p.k4 ^^^ le16 tk (0 + j))
  let k1 := p.k1 + tkipS (k0 ^^^ le16 tk (4 + j))
  let k2 := p.k2 + tkipS (k1 ^^^ le16 tk (8 + j))
  let k3 := p.k3 + tkipS (k2 ^^^ le16 tk (12 + j))
  let k4 := p.k4 + (tkipS (k3 ^^^ le16 tk (0 + j)) + UInt16.ofNat i)
  ⟨k0,k1,k2,k3,k4⟩

def phase1 (tk : Tk) (ta : EthAddr) (iv32 : UInt32) : P1k := (List.range 8).foldl (phase1Round tk) (phase1Start ta iv32)

def writeTkipIv (iv16 : UInt16) : List UInt8 :=
  [(iv16 >>> 8).toUInt8,(((iv16 >>> 8) ||| 0x20) &&& 0x7f).toUInt8,(iv16 &&& 0xff).toUInt8]

def phase2 (tk : Tk) (p : P1k) (iv16 : UInt16) : List UInt8 :=
  let k5 := p.k4 + iv16
  let k0 := p.k0 + tkipS (k5 ^^^ le16 tk 0)
  let k1 := p.k1 + tkipS (k0 ^^^ le16 tk 2)
  let k2 := p.k2 + tkipS (k1 ^^^ le16 tk 4)
  let k3 := p.k3 + tkipS (k2 ^^^ le16 tk 6)
  let k4 := p.k4 + tkipS (k3 ^^^ le16 tk 8)
  let k5 := k5 + tkipS (k4 ^^^ le16 tk 10)
  let k0 := k0 + ror16 (k5 ^^^ le16 tk 12)
  let k1 := k1 + ror16 (k0 ^^^ le16 tk 14)
  let k2 := k2 + ror16 k1
  let k3 := k3 + ror16 k2
  let k4 := k4 + ror16 k3
  let k5 := k5 + ror16 k4
  writeTkipIv iv16 ++ [(((k5 ^^^ le16 tk 0) >>> 1) &&& 0xff).toUInt8] ++
    putLe16 k0 ++ putLe16 k1 ++ putLe16 k2 ++ putLe16 k3 ++ putLe16 k4 ++ putLe16 k5

inductive TkipState where
  | notInit
  | phase1Done
  | phase1HwUploaded
deriving DecidableEq

-- The address that p1k was computed for is not kept by the code.
structure TkipCtx where
  iv32 : UInt32
  iv16 : UInt16
  p1k : P1k
  p1kIv32 : UInt32
  state : TkipState
  p1kTa : Option EthAddr

def tkipMixingPhase1 (tk : Tk) (ctx : TkipCtx) (ta : EthAddr) (iv32 : UInt32) : TkipCtx :=
  {ctx with p1k := phase1 tk ta iv32,state := .phase1Done,p1kIv32 := iv32,p1kTa := some ta}

def TkipCtx.zero : TkipCtx := ⟨0,0,⟨0,0,0,0,0⟩,0,.notInit,none⟩

structure Crypto where
  tfm : Bool
  rc4 : List UInt8 → List UInt8 → List UInt8
  crc32 : List UInt8 → List UInt8

def wepEncryptData (crypto : Crypto) (rc4key data : List UInt8) : Option (List UInt8) :=
  if !crypto.tfm then none else some (crypto.rc4 rc4key (data ++ crypto.crc32 data))

def wepDecryptData (crypto : Crypto) (rc4key data : List UInt8) : Option (List UInt8) :=
  if !crypto.tfm then none
  else
    let plain := crypto.rc4 rc4key data
    let payload := plain.take (data.length - 4)
    if crypto.crc32 payload = plain.drop (data.length - 4) then some payload else none

end Mac80211.Tkip
