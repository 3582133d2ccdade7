import FaberHosts.Coordinator.Sha256Standard

/-!
# The one-shot digest

`sha256` of `device_descriptor.rs` pads a whole message and compresses its blocks.  It gives the
digest that the coordinator gives however the message is cut into updates, and this is the one
of the standard.
-/

namespace FaberHosts.Descriptor
open FaberHosts.Lib FaberHosts.Coordinator
open FaberHosts.Coordinator.Sha256 (rotateRight beWord beBytes32 beBytes64 Working compress bits
  roundConstants firstWords extend padBytes bits_digest)

/-! ## The program -/

/-- `SHA256_INITIAL_STATE`. -/
def sha256InitialState : Vector UInt32 8 :=
  #[0x6a09e667, 0xbb67ae85, 0x3c6ef372, 0xa54ff53a,
    0x510e527f, 0x9b05688c, 0x1f83d9ab, 0x5be0cd19].toVector

/-- `SHA256_ROUND_CONSTANTS`. -/
def sha256RoundConstants : Array UInt32 :=
  #[0x428a2f98, 0x71374491, 0xb5c0fbcf, 0xe9b5dba5, 0x3956c25b, 0x59f111f1,
    0x923f82a4, 0xab1c5ed5, 0xd807aa98, 0x12835b01, 0x243185be, 0x550c7dc3,
    0x72be5d74, 0x80deb1fe, 0x9bdc06a7, 0xc19bf174, 0xe49b69c1, 0xefbe4786,
    0x0fc19dc6, 0x240ca1cc, 0x2de92c6f, 0x4a7484aa, 0x5cb0a9dc, 0x76f988da,
    0x983e5152, 0xa831c66d, 0xb00327c8, 0xbf597fc7, 0xc6e00bf3, 0xd5a79147,
    0x06ca6351, 0x14292967, 0x27b70a85, 0x2e1b2138, 0x4d2c6dfc, 0x53380d13,
    0x650a7354, 0x766a0abb, 0x81c2c92e, 0x92722c85, 0xa2bfe8a1, 0xa81a664b,
    0xc24b8b70, 0xc76c51a3, 0xd192e819, 0xd6990624, 0xf40e3585, 0x106aa070,
    0x19a4c116, 0x1e376c08, 0x2748774c, 0x34b0bcb5, 0x391c0cb3, 0x4ed8aa4a,
    0x5b9cca4f, 0x682e6ff3, 0x748f82ee, 0x78a5636f, 0x84c87814, 0x8cc70208,
    0x90befffa, 0xa4506ceb, 0xbef9a3f7, 0xc67178f2]

/-- Zeros are pushed until the length is 56 modulo 64. -/
def pushZeros (padded : List UInt8) : List UInt8 :=
  if padded.length % 64 = 56 then padded else pushZeros (padded ++ [0])
  termination_by (120 - padded.length % 64) % 64
  decreasing_by
    simp only [List.length_append, List.length_singleton]
    omega

/-- `chunks_exact`: a remainder short of a chunk is left out. -/
def chunksExact (size : Nat) (bytes : List UInt8) : List (List UInt8) :=
  (List.range (bytes.length / size)).map fun i => (bytes.drop (size * i)).take size

/-- The word that a later place of the message schedule gets. -/
def scheduleWord (schedule : Array UInt32) (index : Nat) : Array UInt32 :=
  let sigma0 := rotateRight (schedule.getD (index - 15) 0) 7 ^^^
    rotateRight (schedule.getD (index - 15) 0) 18 ^^^ (schedule.getD (index - 15) 0 >>> 3)
  let sigma1 := rotateRight (schedule.getD (index - 2) 0) 17 ^^^
    rotateRight (schedule.getD (index - 2) 0) 19 ^^^ (schedule.getD (index - 2) 0 >>> 10)
  schedule.setIfInBounds index
    (schedule.getD (index - 16) 0 + sigma0 + schedule.getD (index - 7) 0 + sigma1)

/-- The message schedule: sixty-four zeros that are overwritten in place. -/
def messageSchedule (block : List UInt8) : Array UInt32 :=
  let words := (List.range 16).foldl
    (fun schedule index => schedule.setIfInBounds index (beWord block (4 * index)))
    (Array.replicate 64 0)
  (List.range' 16 48).foldl scheduleWord words

/-- One round on the working variables. -/
def workingRound (schedule : Array UInt32) (v : Working) (index : Nat) : Working :=
  let sum1 := rotateRight v.e 6 ^^^ rotateRight v.e 11 ^^^ rotateRight v.e 25
  let ch := (v.e &&& v.f) ^^^ (~~~v.e &&& v.g)
  let temp1 := v.h + sum1 + ch + sha256RoundConstants.getD index 0 + schedule.getD index 0
  let sum0 := rotateRight v.a 2 ^^^ rotateRight v.a 13 ^^^ rotateRight v.a 22
  let maj := (v.a &&& v.b) ^^^ (v.a &&& v.c) ^^^ (v.b &&& v.c)
  let temp2 := sum0 + maj
  { a := temp1 + temp2, b := v.a, c := v.b, d := v.c,
    e := v.d + temp1, f := v.e, g := v.f, h := v.g }

/-- The state after one block. -/
def sha256Block (state : Vector UInt32 8) (block : List UInt8) : Vector UInt32 8 :=
  let start := Working.ofState state
  let v := (List.range 64).foldl (workingRound (messageSchedule block)) start
  #[start.a + v.a, start.b + v.b, start.c + v.c, start.d + v.d,
    start.e + v.e, start.f + v.f, start.g + v.g, start.h + v.h].toVector

def sha256 (bytes : List UInt8) : List UInt8 :=
  let bitLength := UInt64.ofNat bytes.length * 8
  let padded := pushZeros (bytes ++ [0x80]) ++ beBytes64 bitLength
  let state := (chunksExact 64 padded).foldl sha256Block sha256InitialState
  state.toList.flatMap beBytes32

/-! ## The same blocks -/

theorem sha256RoundConstants_eq : sha256RoundConstants = roundConstants := rfl

theorem getD_setIfInBounds {words : Array UInt32} {index : Nat} (h : index < words.size)
    (word : UInt32) (t : Nat) :
    (words.setIfInBounds index word).getD t 0 = if t = index then word else words.getD t 0 := by
  rw [Array.getD_eq_getD_getElem?, Array.getElem?_setIfInBounds, Array.getD_eq_getD_getElem?]
  by_cases ht : t = index
  · simp [ht, h]
  · simp [ht, Ne.symm ht]

theorem firstWords_written (block : List UInt8) (n : Nat) (hn : n ≤ 64) :
    ((List.range n).foldl (fun schedule index => schedule.setIfInBounds index
        (beWord block (4 * index))) (Array.replicate 64 0)).size = 64 ∧
      ∀ t < n, ((List.range n).foldl (fun schedule index => schedule.setIfInBounds index
        (beWord block (4 * index))) (Array.replicate 64 0)).getD t 0 = beWord block (4 * t) := by
  induction n with
  | zero => exact ⟨Array.size_replicate, nofun⟩
  | succ n ih =>
    obtain ⟨hsize, hwords⟩ := ih (by omega)
    rw [List.range_succ, List.foldl_append, List.foldl_cons, List.foldl_nil]
    generalize (List.range n).foldl _ _ = words at hsize hwords
    refine ⟨by rw [Array.size_setIfInBounds, hsize], fun t ht => ?_⟩
    rw [getD_setIfInBounds (by omega)]
    by_cases hlast : t = n
    · rw [if_pos hlast, hlast]
    · rw [if_neg hlast, hwords t (by omega)]

/-- The words that are overwritten in place are those that the coordinator appends. -/
theorem overwritten (block : List UInt8) (n : Nat) (hn : n ≤ 48) (words : Array UInt32)
    (hsize : words.size = 64)
    (hwords : ∀ t < 16, words.getD t 0 = (firstWords block).getD t 0) :
    ((List.range' 16 n).foldl scheduleWord words).size = 64 ∧
      ((List.range' 16 n).foldl extend (firstWords block)).size = 16 + n ∧
      ∀ t < 16 + n, ((List.range' 16 n).foldl scheduleWord words).getD t 0 =
        ((List.range' 16 n).foldl extend (firstWords block)).getD t 0 := by
  induction n with
  | zero => exact ⟨hsize, rfl, hwords⟩
  | succ n ih =>
    obtain ⟨hwritten, hgrown, hsame⟩ := ih (by omega)
    rw [List.range'_1_concat, List.foldl_append, List.foldl_append]
    simp only [List.foldl_cons, List.foldl_nil]
    generalize (List.range' 16 n).foldl scheduleWord words = written at hwritten hsame
    generalize (List.range' 16 n).foldl extend (firstWords block) = grown at hgrown hsame
    refine ⟨?_, ?_, fun t ht => ?_⟩
    · rw [scheduleWord, Array.size_setIfInBounds, hwritten]
    · rw [extend, Array.size_push, hgrown]
      omega
    · rw [scheduleWord, getD_setIfInBounds (by omega), extend, Sha256.getD_push, hgrown]
      by_cases hlast : t = 16 + n
      · rw [if_pos hlast, if_pos hlast, hsame _ (by omega), hsame _ (by omega),
          hsame _ (by omega), hsame _ (by omega)]
      · rw [if_neg hlast, if_neg hlast, hsame t (by omega)]

theorem messageSchedule_eq (block : List UInt8) (t : Nat) (ht : t < 64) :
    (messageSchedule block).getD t 0 = (Sha256.schedule block).getD t 0 := by
  obtain ⟨hsize, hwords⟩ := firstWords_written block 16 (by omega)
  refine (overwritten block 48 le_rfl _ hsize fun t ht => ?_).2.2 t ht
  rw [hwords t ht, firstWords, Array.getD_eq_getD_getElem?]
  simp [ht, Nat.mul_comm]

theorem workingRound_eq {schedule w : Array UInt32} {index : Nat}
    (h : schedule.getD index 0 = w.getD index 0) (v : Working) :
    workingRound schedule v index = Sha256.round w v index := by
  rw [workingRound, Sha256.round, h, sha256RoundConstants_eq]

theorem workingRounds_eq (block : List UInt8) (v : Working) (n : Nat) (hn : n ≤ 64) :
    (List.range n).foldl (workingRound (messageSchedule block)) v =
      (List.range n).foldl (Sha256.round (Sha256.schedule block)) v := by
  induction n with
  | zero => rw [List.range_zero, List.foldl_nil, List.foldl_nil]
  | succ n ih =>
    rw [List.range_succ, List.foldl_append, List.foldl_append, ih (by omega)]
    exact workingRound_eq (messageSchedule_eq block n (by omega)) _

theorem sha256Block_eq (state : Vector UInt32 8) (block : List UInt8) :
    sha256Block state block = compress state block := by
  have hrounds := workingRounds_eq block ⟨state[0], state[1], state[2], state[3], state[4],
    state[5], state[6], state[7]⟩ 64 le_rfl
  exact congrArg (fun v : Working => #v[state[0] + v.a, state[1] + v.b, state[2] + v.c,
    state[3] + v.d, state[4] + v.e, state[5] + v.f, state[6] + v.g, state[7] + v.h]) hrounds

theorem foldl_chunksExact (state : Vector UInt32 8) (bytes : List UInt8) :
    (chunksExact 64 bytes).foldl sha256Block state = (absorb 64 compress state bytes).1 := by
  rw [absorb_eq_foldl (by omega), chunksExact, List.foldl_map]
  simp only [sha256Block_eq]

/-! ## The same padding -/

theorem pushZeros_eq (padded : List UInt8) : pushZeros padded =
    padded ++ List.replicate ((120 - padded.length % 64) % 64) 0 := by
  fun_induction pushZeros padded with
  | case1 padded h => simp [h]
  | case2 padded h ih =>
    have hcount : (120 - padded.length % 64) % 64 =
        (120 - (padded ++ [0]).length % 64) % 64 + 1 := by
      rw [List.length_append, List.length_singleton]
      omega
    rw [ih, hcount, List.replicate_succ, List.append_assoc, List.singleton_append]

theorem sha256_eq (bytes : List UInt8) : sha256 bytes =
    (absorb 64 compress Sha256.new.state (padBytes bytes)).1.toList.flatMap beBytes32 := by
  rw [sha256, foldl_chunksExact, pushZeros_eq, List.length_append, padBytes]
  rfl

/-! ## Agreement -/

/-- The coordinator's digest of some bytes, in whatever pieces it is given them, is the one-shot
    digest, and this is the digest of the standard. -/
theorem sha256_agrees (pieces : List (List UInt8)) :
    (pieces.foldl Sha256.update Sha256.new).finalize = sha256 pieces.flatten ∧
      bits (sha256 pieces.flatten) = Fips180.sha256 (bits pieces.flatten) := by
  have habsorbed := Sha256.absorbed_new.updates pieces
  rw [List.nil_append] at habsorbed
  rw [habsorbed.finalize_eq, sha256_eq]
  exact ⟨rfl, bits_digest pieces.flatten⟩

end FaberHosts.Descriptor
