import Mathlib

/-!
# SHA-256 of FIPS 180-4

The standard on strings of bits: the padding, the message schedule, the rounds of a block and
the digest.  The constants are what the standard says they are, the first bits of the fractional
parts of roots of primes.
-/

namespace FaberHosts.Lib.Fips180

/-! ## Words and strings of bits -/

abbrev Word := BitVec 32

/-- The number that a string of bits expresses, the most significant one first. -/
def number (bits : List Bool) : Nat := bits.foldl (fun n bit => 2 * n + bit.toNat) 0

/-- The string of so many bits that expresses a number. -/
def bitsOf : Nat → Nat → List Bool
  | 0, _ => []
  | width + 1, n => n.testBit width :: bitsOf width n

/-- The `i`-th word of a string. -/
def wordAt (bits : List Bool) (i : Nat) : Word :=
  BitVec.ofNat 32 (number ((bits.drop (32 * i)).take 32))

@[simp] theorem length_bitsOf (width n : Nat) : (bitsOf width n).length = width := by
  induction width with
  | zero => rfl
  | succ width ih => simp [bitsOf, ih]

theorem number_append (a b : List Bool) : number (a ++ b) = number a * 2 ^ b.length + number b := by
  have hfrom : ∀ (n : Nat) (bits : List Bool),
      bits.foldl (fun n bit => 2 * n + bit.toNat) n = n * 2 ^ bits.length + number bits := by
    intro n bits
    induction bits generalizing n with
    | nil => simp [number]
    | cons bit rest ih =>
      have hrest : number (bit :: rest) = bit.toNat * 2 ^ rest.length + number rest := by
        rw [number, List.foldl_cons, Nat.mul_zero, Nat.zero_add, ih]
      rw [List.foldl_cons, ih, hrest, List.length_cons]
      ring
  rw [number, List.foldl_append, hfrom]
  rfl

theorem number_bitsOf (width n : Nat) : number (bitsOf width n) = n % 2 ^ width := by
  induction width with
  | zero => simp [bitsOf, number, Nat.mod_one]
  | succ width ih =>
    have hcons : bitsOf (width + 1) n = [n.testBit width] ++ bitsOf width n := rfl
    have hbit : number [n.testBit width] = n / 2 ^ width % 2 := by
      rw [Nat.testBit_eq_decide_div_mod_eq]
      rcases Nat.mod_two_eq_zero_or_one (n / 2 ^ width) with h | h
      · simp [number, h]
      · simp [number, h]
    rw [hcons, number_append, length_bitsOf, ih, hbit, pow_succ, Nat.mod_mul, Nat.add_comm,
      Nat.mul_comm]

/-! ## Functions and constants -/

section Functions

variable (x y z : Word)

def ch : Word := (x &&& y) ^^^ (~~~x &&& z)

def maj : Word := (x &&& y) ^^^ (x &&& z) ^^^ (y &&& z)

def bigSigma0 : Word := x.rotateRight 2 ^^^ x.rotateRight 13 ^^^ x.rotateRight 22

def bigSigma1 : Word := x.rotateRight 6 ^^^ x.rotateRight 11 ^^^ x.rotateRight 25

def smallSigma0 : Word := x.rotateRight 7 ^^^ x.rotateRight 18 ^^^ (x >>> 3)

def smallSigma1 : Word := x.rotateRight 17 ^^^ x.rotateRight 19 ^^^ (x >>> 10)

end Functions

/-- The first sixty-four primes. -/
def primes : List Nat := (List.range 312).filter fun p => p.Prime

/-- The integer part of a root. -/
def root (degree n : Nat) : Nat := Nat.findGreatest (fun r => r ^ degree ≤ n) n

/-- The first thirty-two bits of the fractional part of a root. -/
def fraction (degree n : Nat) : Word := BitVec.ofNat 32 (root degree (n * 2 ^ (32 * degree)))

/-- The constant of a round: of the cube root of a prime. -/
def constant (t : Nat) : Word := fraction 3 (primes.getD t 0)

theorem primes_eq : primes =
    (List.range 312).filter fun p => 2 ≤ p ∧ ∀ d < p, 2 ≤ d → p % d ≠ 0 := by
  refine List.filter_congr fun p _ => decide_eq_decide.mpr ?_
  rw [Nat.prime_def_lt']
  refine and_congr_right fun _ => ?_
  simp only [ne_eq, Nat.dvd_iff_mod_eq_zero]
  exact ⟨fun h d hlt hd => h d hd hlt, fun h d hd hlt => h d hlt hd⟩

theorem length_primes : primes.length = 64 := by
  rw [primes_eq]
  decide +kernel

theorem root_eq {degree n r : Nat} (hdegree : degree ≠ 0) (hle : r ^ degree ≤ n)
    (hlt : n < (r + 1) ^ degree) : root degree n = r := by
  rw [root, Nat.findGreatest_eq_iff]
  refine ⟨(Nat.le_self_pow hdegree r).trans hle, fun _ => hle, ?_⟩
  intro m hm _ hpow
  exact absurd (hlt.trans_le (Nat.pow_le_pow_left hm degree)) (not_lt.mpr hpow)

theorem fraction_eq {degree n : Nat} {w : Word} (whole : Nat) (hdegree : degree ≠ 0)
    (hle : (whole * 2 ^ 32 + w.toNat) ^ degree ≤ n * 2 ^ (32 * degree))
    (hlt : n * 2 ^ (32 * degree) < (whole * 2 ^ 32 + w.toNat + 1) ^ degree) :
    fraction degree n = w := by
  apply BitVec.eq_of_toNat_eq
  rw [fraction, root_eq hdegree hle hlt, BitVec.toNat_ofNat, Nat.mul_add_mod_self_right,
    Nat.mod_eq_of_lt w.isLt]

/-! ## Padding -/

/-- The least number of zeros after which a length and one more bit are 448 modulo 512. -/
def zeros (length : Nat) : Nat := (960 - (length + 1) % 512) % 512

/-- The padded message, a number of whole blocks. -/
def pad (message : List Bool) : List Bool :=
  message ++ true :: List.replicate (zeros message.length) false ++ bitsOf 64 message.length

/-! ## Blocks -/

/-- The eight words of a hash value, and the working variables of a block. -/
structure Hash where
  a : Word
  b : Word
  c : Word
  d : Word
  e : Word
  f : Word
  g : Word
  h : Word
  deriving DecidableEq, Repr

/-- The hash value before any block: of the square roots of the first primes. -/
def initial : Hash :=
  ⟨fraction 2 2, fraction 2 3, fraction 2 5, fraction 2 7, fraction 2 11, fraction 2 13,
    fraction 2 17, fraction 2 19⟩

/-- The message schedule of a block. -/
def schedule (block : Nat → Word) (t : Nat) : Word :=
  if t < 16 then block t
  else smallSigma1 (schedule block (t - 2)) + schedule block (t - 7) +
    smallSigma0 (schedule block (t - 15)) + schedule block (t - 16)
  termination_by t

/-- One round on the working variables. -/
def round (block : Nat → Word) (v : Hash) (t : Nat) : Hash :=
  let t1 := v.h + bigSigma1 v.e + ch v.e v.f v.g + constant t + schedule block t
  let t2 := bigSigma0 v.a + maj v.a v.b v.c
  ⟨t1 + t2, v.a, v.b, v.c, v.d + t1, v.e, v.f, v.g⟩

def Hash.add (x y : Hash) : Hash :=
  ⟨x.a + y.a, x.b + y.b, x.c + y.c, x.d + y.d, x.e + y.e, x.f + y.f, x.g + y.g, x.h + y.h⟩

/-- The hash value after one more block. -/
def compress (hash : Hash) (block : Nat → Word) : Hash :=
  ((List.range 64).foldl (round block) hash).add hash

/-- The hash value of a padded message. -/
def hashBlocks (padded : List Bool) : Hash :=
  (List.range (padded.length / 512)).foldl
    (fun hash i => compress hash fun t => wordAt padded (16 * i + t)) initial

def Hash.words (hash : Hash) : List Word :=
  [hash.a, hash.b, hash.c, hash.d, hash.e, hash.f, hash.g, hash.h]

/-- The digest of a message.  The standard has messages of fewer than `2 ^ 64` bits; of a longer
    one the padding takes the last 64 bits of the length. -/
def sha256 (message : List Bool) : List Bool :=
  (hashBlocks (pad message)).words.flatMap fun word => bitsOf 32 word.toNat

theorem schedule_early {block : Nat → Word} {t : Nat} (ht : t < 16) :
    schedule block t = block t := by
  rw [schedule, if_pos ht]

theorem schedule_late {block : Nat → Word} {t : Nat} (ht : 16 ≤ t) :
    schedule block t = smallSigma1 (schedule block (t - 2)) + schedule block (t - 7) +
      smallSigma0 (schedule block (t - 15)) + schedule block (t - 16) := by
  rw [schedule, if_neg (by omega)]

theorem schedule_congr {block block' : Nat → Word} (h : ∀ t < 16, block t = block' t) (t : Nat) :
    schedule block t = schedule block' t := by
  induction t using Nat.strong_induction_on with
  | _ t ih =>
    by_cases ht : t < 16
    · rw [schedule_early ht, schedule_early ht, h t ht]
    · rw [schedule_late (by omega), ih (t - 2) (by omega), ih (t - 7) (by omega),
        ih (t - 15) (by omega), ih (t - 16) (by omega)]
      exact (schedule_late (by omega)).symm

theorem compress_congr {block block' : Nat → Word} (h : ∀ t < 16, block t = block' t)
    (hash : Hash) : compress hash block = compress hash block' := by
  have hround : round block = round block' := by
    funext v t
    rw [round, round, schedule_congr h t]
  rw [compress, compress, hround]

end FaberHosts.Lib.Fips180
