import FaberHosts.Coordinator.Identity

/-!
# SHA-256 of the discovery snapshot

The dependency-free incremental digest of `discovery.rs`.  `buf` is the filled
part `buf[..buf_len]` of the source's 64-byte buffer.
-/

namespace FaberHosts.Coordinator

structure Sha256 where
  state : Vector UInt32 8
  buf : List UInt8
  totalLen : UInt64
  deriving DecidableEq, Repr

namespace Sha256

/-- `SHA256_K`. -/
def roundConstants : Array UInt32 :=
  #[0x428a2f98, 0x71374491, 0xb5c0fbcf, 0xe9b5dba5, 0x3956c25b, 0x59f111f1,
    0x923f82a4, 0xab1c5ed5, 0xd807aa98, 0x12835b01, 0x243185be, 0x550c7dc3,
    0x72be5d74, 0x80deb1fe, 0x9bdc06a7, 0xc19bf174, 0xe49b69c1, 0xefbe4786,
    0x0fc19dc6, 0x240ca1cc, 0x2de92c6f, 0x4a7484aa, 0x5cb0a9dc, 0x76f988da,
    0x983e5152, 0xa831c66d, 0xb00327c8, 0xbf597fc7, 0xc6e00bf3, 0xd5a79147,
    0x06ca6351, 0x14292967, 0x27b70a85, 0x2e1b2138, 0x4d2c6dfc, 0x53380d13,
    0x650a7354, 0x766a0abb, 0x81c2c92e, 0x92722c85, 0xa2bfe8a1, 0xa81a664b,
    0xc24b8b70, 0xc76c51a3, 0xd192e819, 0xd6990624, 0xf40e3585, 0x106aa070,
    0x19a4c116, 0x1e376c08, 0x2748774c, 0x34b0bcb5, 0x391c0cb3, 0x4ed8aa4a,
    0x5b9cca4f, 0x682e6ff3, 0x748f82ee, 0x78a5636f, 0x84c87814, 0x8cc70208,
    0x90befffa, 0xa4506ceb, 0xbef9a3f7, 0xc67178f2]

/-- `u32::rotate_right`. -/
def rotateRight (x : UInt32) (n : UInt32) : UInt32 := (x >>> n) ||| (x <<< (32 - n))

/-- `u32::from_be_bytes` of four consecutive bytes. -/
def beWord (block : List UInt8) (base : Nat) : UInt32 :=
  ((block.getD base 0).toUInt32 <<< 24) ||| ((block.getD (base + 1) 0).toUInt32 <<< 16) |||
    ((block.getD (base + 2) 0).toUInt32 <<< 8) ||| (block.getD (base + 3) 0).toUInt32

def beBytes32 (w : UInt32) : List UInt8 :=
  [(w >>> 24).toUInt8, (w >>> 16).toUInt8, (w >>> 8).toUInt8, w.toUInt8]

def beBytes64 (w : UInt64) : List UInt8 := (leBytes 8 w.toNat).reverse

/-- The message schedule `w` of one block. -/
def schedule (block : List UInt8) : Array UInt32 :=
  (List.range' 16 48).foldl (fun w i =>
    let w15 := w.getD (i - 15) 0
    let w2 := w.getD (i - 2) 0
    let s0 := rotateRight w15 7 ^^^ rotateRight w15 18 ^^^ (w15 >>> 3)
    let s1 := rotateRight w2 17 ^^^ rotateRight w2 19 ^^^ (w2 >>> 10)
    w.push (w.getD (i - 16) 0 + s0 + w.getD (i - 7) 0 + s1))
    ((List.range 16).map (fun i => beWord block (i * 4))).toArray

/-- The working variables `a` to `h`. -/
structure Working where
  a : UInt32
  b : UInt32
  c : UInt32
  d : UInt32
  e : UInt32
  f : UInt32
  g : UInt32
  h : UInt32
  deriving DecidableEq, Repr

def round (w : Array UInt32) (v : Working) (i : Nat) : Working :=
  let s1 := rotateRight v.e 6 ^^^ rotateRight v.e 11 ^^^ rotateRight v.e 25
  let ch := (v.e &&& v.f) ^^^ (~~~v.e &&& v.g)
  let temp1 := v.h + s1 + ch + roundConstants.getD i 0 + w.getD i 0
  let s0 := rotateRight v.a 2 ^^^ rotateRight v.a 13 ^^^ rotateRight v.a 22
  let maj := (v.a &&& v.b) ^^^ (v.a &&& v.c) ^^^ (v.b &&& v.c)
  let temp2 := s0 + maj
  { a := temp1 + temp2, b := v.a, c := v.b, d := v.c,
    e := v.d + temp1, f := v.e, g := v.f, h := v.g }

def compress (state : Vector UInt32 8) (block : List UInt8) : Vector UInt32 8 :=
  let v := (List.range 64).foldl (round (schedule block))
    { a := state[0], b := state[1], c := state[2], d := state[3],
      e := state[4], f := state[5], g := state[6], h := state[7] }
  #v[state[0] + v.a, state[1] + v.b, state[2] + v.c, state[3] + v.d,
    state[4] + v.e, state[5] + v.f, state[6] + v.g, state[7] + v.h]

def new : Sha256 where
  state := #v[0x6a09e667, 0xbb67ae85, 0x3c6ef372, 0xa54ff53a,
    0x510e527f, 0x9b05688c, 0x1f83d9ab, 0x5be0cd19]
  buf := []
  totalLen := 0

/-- Compress the whole 64-byte blocks at the front of `data`; what is left is
    shorter than a block. -/
def compressBlocks (state : Vector UInt32 8) (data : List UInt8) :
    Vector UInt32 8 × List UInt8 :=
  if 64 ≤ data.length then compressBlocks (compress state (data.take 64)) (data.drop 64)
  else (state, data)
  termination_by data.length
  decreasing_by simp only [List.length_drop]; omega

def update (h : Sha256) (data : List UInt8) : Sha256 :=
  let totalLen := h.totalLen + UInt64.ofNat data.length
  let take := if 0 < h.buf.length then min (64 - h.buf.length) data.length else 0
  let buf := h.buf ++ data.take take
  let data := data.drop take
  let full := buf.length = 64
  let (state, rest) :=
    compressBlocks (if full then compress h.state buf else h.state) data
  { state := state
    buf := if rest ≠ [] then rest else if full then [] else buf
    totalLen := totalLen }

def finalize (h : Sha256) : List UInt8 :=
  let bitLen := beBytes64 (h.totalLen * 8)
  let tail := h.buf ++ [0x80]
  -- the zeros the padding loop pushes until the length is 56 modulo 64
  let zeros := (120 - tail.length % 64) % 64
  let (state, _) := compressBlocks h.state (tail ++ List.replicate zeros 0 ++ bitLen)
  state.toList.flatMap beBytes32

def digest (data : List UInt8) : List UInt8 := (new.update data).finalize

end Sha256

end FaberHosts.Coordinator
