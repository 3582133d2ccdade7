import FaberHosts.Lib.Absorb
import FaberHosts.Lib.Fips180
import FaberHosts.Coordinator.Sha256

/-!
# The incremental digest is the standard one

A digest that has taken some bytes, in whatever pieces, has compressed their whole blocks and
holds the rest; finishing it pads the bytes as the standard does.
-/

namespace FaberHosts.Coordinator.Sha256
open FaberHosts.Lib FaberHosts.Lib.Fips180

/-! ## Bytes as bits -/

section Bits

/-- The bits of a string of bytes. -/
def bits (bytes : List UInt8) : List Bool := bytes.flatMap fun byte => bitsOf 8 byte.toNat

theorem bits_append (a b : List UInt8) : bits (a ++ b) = bits a ++ bits b :=
  List.flatMap_append

@[simp] theorem length_bits (bytes : List UInt8) : (bits bytes).length = 8 * bytes.length := by
  induction bytes with
  | nil => rfl
  | cons byte rest ih =>
    change (bitsOf 8 byte.toNat ++ bits rest).length = 8 * (rest.length + 1)
    rw [List.length_append, length_bitsOf, ih]
    ring

theorem bits_take (bytes : List UInt8) (n : Nat) : bits (bytes.take n) = (bits bytes).take (8 * n) := by
  by_cases hn : n ≤ bytes.length
  · have hsplit := congrArg (List.take (8 * n)) (bits_append (bytes.take n) (bytes.drop n))
    rw [List.take_append_drop, List.take_left' (by simp [hn])] at hsplit
    exact hsplit.symm
  · rw [List.take_of_length_le (by omega), List.take_of_length_le (by rw [length_bits]; omega)]

theorem bits_drop (bytes : List UInt8) (n : Nat) : bits (bytes.drop n) = (bits bytes).drop (8 * n) := by
  by_cases hn : n ≤ bytes.length
  · have hsplit := congrArg (List.drop (8 * n)) (bits_append (bytes.take n) (bytes.drop n))
    rw [List.take_append_drop, List.drop_left' (by simp [hn])] at hsplit
    exact hsplit.symm
  · rw [List.drop_of_length_le (by omega), List.drop_of_length_le (by rw [length_bits]; omega)]
    rfl

theorem bitsOf_add (m n value : Nat) :
    bitsOf (m + n) value = bitsOf m (value / 2 ^ n) ++ bitsOf n value := by
  induction m with
  | zero => simp [bitsOf]
  | succ m ih =>
    rw [Nat.succ_add, bitsOf, ih, bitsOf, Nat.testBit_div_two_pow, List.cons_append]

theorem bitsOf_mod (width value : Nat) : bitsOf width (value % 2 ^ width) = bitsOf width value := by
  have hlow : ∀ w ≤ width, bitsOf w (value % 2 ^ width) = bitsOf w value := by
    intro w hw
    induction w with
    | zero => rfl
    | succ w ih =>
      rw [bitsOf, bitsOf, ih (by omega), Nat.testBit_mod_two_pow, decide_eq_true (by omega),
        Bool.true_and]
  exact hlow width le_rfl

theorem bits_reverse_leBytes (count value : Nat) :
    bits (leBytes count value).reverse = bitsOf (8 * count) value := by
  induction count generalizing value with
  | zero => rfl
  | succ count ih =>
    have hbyte : bits [UInt8.ofNat value] = bitsOf 8 value := by
      rw [bits, List.flatMap_singleton, UInt8.toNat_ofNat']
      exact bitsOf_mod 8 value
    rw [leBytes, List.reverse_cons, bits_append, ih, hbyte, Nat.mul_succ, bitsOf_add]
    rfl

end Bits

/-! ## Words -/

section Words

theorem toBitVec_rotateRight (x : UInt32) (n : UInt32) (hpos : 0 < n.toNat) (hn : n.toNat < 32) :
    (rotateRight x n).toBitVec = x.toBitVec.rotateRight n.toNat := by
  have hright : n.toBitVec % 32 = n.toBitVec := by
    apply BitVec.eq_of_toNat_eq
    simp only [BitVec.toNat_umod]
    exact Nat.mod_eq_of_lt hn
  have hleft : ((32 - n).toBitVec % 32).toNat = 32 - n.toNat := by
    have hle : n ≤ 32 := UInt32.le_iff_toNat_le.mpr (by simpa using hn.le)
    rw [BitVec.toNat_umod, UInt32.toNat_toBitVec, UInt32.toNat_sub_of_le _ _ hle]
    exact Nat.mod_eq_of_lt (by simp; omega)
  rw [rotateRight, UInt32.toBitVec_or, UInt32.toBitVec_shiftRight, UInt32.toBitVec_shiftLeft, hright,
    BitVec.rotateRight_def, Nat.mod_eq_of_lt hn, BitVec.shiftLeft_eq', hleft]
  rfl

theorem toNat_beWord (block : List UInt8) (base : Nat) : (beWord block base).toNat =
    ((block.getD base 0).toNat * 256 + (block.getD (base + 1) 0).toNat) * 65536 +
      (block.getD (base + 2) 0).toNat * 256 + (block.getD (base + 3) 0).toNat := by
  have h0 := (block.getD base 0).toNat_lt
  have h1 := (block.getD (base + 1) 0).toNat_lt
  have h2 := (block.getD (base + 2) 0).toNat_lt
  have h3 := (block.getD (base + 3) 0).toNat_lt
  unfold beWord
  generalize block.getD base 0 = b0 at h0 ⊢
  generalize block.getD (base + 1) 0 = b1 at h1 ⊢
  generalize block.getD (base + 2) 0 = b2 at h2 ⊢
  generalize block.getD (base + 3) 0 = b3 at h3 ⊢
  have hor : ∀ {a b k : Nat}, b < 2 ^ k → a * 2 ^ k ||| b = a * 2 ^ k + b := by
    intro a b k hb
    rw [← Nat.shiftLeft_eq, Nat.shiftLeft_add_eq_or_of_lt hb]
  have e0 : (b0.toUInt32 <<< 24).toNat = b0.toNat * 2 ^ 24 := by
    simp [UInt32.toNat_shiftLeft, Nat.shiftLeft_eq]
    omega
  have e1 : (b1.toUInt32 <<< 16).toNat = b1.toNat * 2 ^ 16 := by
    simp [UInt32.toNat_shiftLeft, Nat.shiftLeft_eq]
    omega
  have e2 : (b2.toUInt32 <<< 8).toNat = b2.toNat * 2 ^ 8 := by
    simp [UInt32.toNat_shiftLeft, Nat.shiftLeft_eq]
    omega
  have f1 : b0.toNat * 2 ^ 24 + b1.toNat * 2 ^ 16 = (b0.toNat * 256 + b1.toNat) * 2 ^ 16 := by ring
  have f2 : (b0.toNat * 256 + b1.toNat) * 2 ^ 16 + b2.toNat * 2 ^ 8 =
      ((b0.toNat * 256 + b1.toNat) * 256 + b2.toNat) * 2 ^ 8 := by ring
  rw [UInt32.toNat_or, UInt32.toNat_or, UInt32.toNat_or, e0, e1, e2, UInt8.toNat_toUInt32,
    hor (by omega), f1, hor (by omega), f2, hor (by omega)]
  ring

theorem number_bits_cons (byte : UInt8) (rest : List UInt8) :
    number (bits (byte :: rest)) = byte.toNat * 256 ^ rest.length + number (bits rest) := by
  have hbyte : byte.toNat % 2 ^ 8 = byte.toNat := Nat.mod_eq_of_lt byte.toNat_lt
  change number (bitsOf 8 byte.toNat ++ bits rest) = _
  rw [number_append, number_bitsOf, length_bits, hbyte, Nat.pow_mul]

theorem wordAt_bits {block : List UInt8} {t : Nat} (ht : 4 * t + 4 ≤ block.length) :
    wordAt (bits block) t = (beWord block (4 * t)).toBitVec := by
  have hdrop : (block.drop (4 * t)).take 4 = [block.getD (4 * t) 0, block.getD (4 * t + 1) 0,
      block.getD (4 * t + 2) 0, block.getD (4 * t + 3) 0] := by
    refine List.ext_getElem (by simp; omega) fun i hi _ => ?_
    have hi : i < 4 := (List.length_take_le 4 _).trans_lt' hi
    interval_cases i
    all_goals
      rw [List.getElem_take, List.getElem_drop]
      simp only [List.getElem_cons_zero, List.getElem_cons_succ, Nat.add_zero]
      rw [List.getD_eq_getElem _ _ (by omega)]
  have hword : ((bits block).drop (32 * t)).take 32 = bits ((block.drop (4 * t)).take 4) := by
    rw [bits_take, bits_drop]
    congr 2
    ring
  apply BitVec.eq_of_toNat_eq
  have hlt := (beWord block (4 * t)).toNat_lt
  rw [toNat_beWord] at hlt
  rw [wordAt, hword, hdrop, BitVec.toNat_ofNat, UInt32.toNat_toBitVec, toNat_beWord,
    ← Nat.mod_eq_of_lt hlt]
  congr 1
  simp only [number_bits_cons, List.length_cons, List.length_nil]
  change _ + (_ + (_ + (_ + 0))) = _
  ring

theorem bits_beBytes32 (w : UInt32) : bits (beBytes32 w) = bitsOf 32 w.toNat := by
  have hbyte : ∀ (shifted : UInt32) (n : Nat), shifted.toNat = n →
      shifted.toUInt8 = UInt8.ofNat n := by
    rintro shifted _ rfl
    rw [← UInt8.toNat_inj, UInt32.toNat_toUInt8, UInt8.toNat_ofNat']
  have hbytes : beBytes32 w = (leBytes 4 w.toNat).reverse := by
    simp only [beBytes32, leBytes, List.reverse_cons, List.reverse_nil, List.nil_append,
      List.cons_append]
    rw [hbyte (w >>> 24) (w.toNat / 256 / 256 / 256) (by simp [Nat.shiftRight_eq_div_pow]; omega),
      hbyte (w >>> 16) (w.toNat / 256 / 256) (by simp [Nat.shiftRight_eq_div_pow]; omega),
      hbyte (w >>> 8) (w.toNat / 256) (by simp [Nat.shiftRight_eq_div_pow]), hbyte w _ rfl]
  rw [hbytes, bits_reverse_leBytes]

end Words

/-! ## A block -/

section Blocks

/-- A state, or the working variables, in the words of the standard. -/
def hashOf (state : Vector UInt32 8) : Hash :=
  ⟨(state.get 0).toBitVec, (state.get 1).toBitVec, (state.get 2).toBitVec, (state.get 3).toBitVec,
    (state.get 4).toBitVec, (state.get 5).toBitVec, (state.get 6).toBitVec, (state.get 7).toBitVec⟩

/-- The working variables at the start of a block. -/
def Working.ofState (state : Vector UInt32 8) : Working where
  a := state.get 0
  b := state.get 1
  c := state.get 2
  d := state.get 3
  e := state.get 4
  f := state.get 5
  g := state.get 6
  h := state.get 7

def Working.hash (v : Working) : Hash :=
  ⟨v.a.toBitVec, v.b.toBitVec, v.c.toBitVec, v.d.toBitVec, v.e.toBitVec, v.f.toBitVec,
    v.g.toBitVec, v.h.toBitVec⟩

theorem constant_eq {t : Nat} (ht : t < 64) : constant t = (roundConstants.getD t 0).toBitVec := by
  have htable : ∀ row ∈ primes.zip roundConstants.toList, ∃ whole < 7,
      (whole * 2 ^ 32 + row.2.toNat) ^ 3 ≤ row.1 * 2 ^ (32 * 3) ∧
        row.1 * 2 ^ (32 * 3) < (whole * 2 ^ 32 + row.2.toNat + 1) ^ 3 := by
    rw [primes_eq]
    decide +kernel
  obtain ⟨prime, hprime⟩ : ∃ prime, primes[t]? = some prime :=
    ⟨_, List.getElem?_eq_getElem (length_primes.symm ▸ ht)⟩
  have hsize : roundConstants.toList.length = 64 := by decide
  obtain ⟨k, hk⟩ : ∃ k, roundConstants.toList[t]? = some k :=
    ⟨_, List.getElem?_eq_getElem (hsize.symm ▸ ht)⟩
  obtain ⟨whole, -, hle, hlt⟩ :=
    htable (prime, k) (List.mem_of_getElem? (List.getElem?_zip_eq_some.mpr ⟨hprime, hk⟩))
  have hgetK : roundConstants.getD t 0 = k := by
    rw [Array.getD_eq_getD_getElem?, ← Array.getElem?_toList, hk, Option.getD_some]
  have hgetP : primes.getD t 0 = prime := by
    rw [List.getD_eq_getElem?_getD, hprime, Option.getD_some]
  rw [constant, hgetK, hgetP]
  exact fraction_eq whole three_ne_zero hle hlt

/-- One more word of the message schedule. -/
def extend (w : Array UInt32) (i : Nat) : Array UInt32 :=
  let w15 := w.getD (i - 15) 0
  let w2 := w.getD (i - 2) 0
  let s0 := rotateRight w15 7 ^^^ rotateRight w15 18 ^^^ (w15 >>> 3)
  let s1 := rotateRight w2 17 ^^^ rotateRight w2 19 ^^^ (w2 >>> 10)
  w.push (w.getD (i - 16) 0 + s0 + w.getD (i - 7) 0 + s1)

theorem toBitVec_sigma0 (w : UInt32) :
    (rotateRight w 7 ^^^ rotateRight w 18 ^^^ (w >>> 3)).toBitVec = smallSigma0 w.toBitVec := by
  rw [UInt32.toBitVec_xor, UInt32.toBitVec_xor, toBitVec_rotateRight w 7 (by decide) (by decide),
    toBitVec_rotateRight w 18 (by decide) (by decide)]
  rfl

theorem toBitVec_sigma1 (w : UInt32) :
    (rotateRight w 17 ^^^ rotateRight w 19 ^^^ (w >>> 10)).toBitVec = smallSigma1 w.toBitVec := by
  rw [UInt32.toBitVec_xor, UInt32.toBitVec_xor, toBitVec_rotateRight w 17 (by decide) (by decide),
    toBitVec_rotateRight w 19 (by decide) (by decide)]
  rfl

theorem toBitVec_bigSigma0 (w : UInt32) :
    (rotateRight w 2 ^^^ rotateRight w 13 ^^^ rotateRight w 22).toBitVec =
      bigSigma0 w.toBitVec := by
  rw [UInt32.toBitVec_xor, UInt32.toBitVec_xor, toBitVec_rotateRight w 2 (by decide) (by decide),
    toBitVec_rotateRight w 13 (by decide) (by decide),
    toBitVec_rotateRight w 22 (by decide) (by decide)]
  rfl

theorem toBitVec_bigSigma1 (w : UInt32) :
    (rotateRight w 6 ^^^ rotateRight w 11 ^^^ rotateRight w 25).toBitVec =
      bigSigma1 w.toBitVec := by
  rw [UInt32.toBitVec_xor, UInt32.toBitVec_xor, toBitVec_rotateRight w 6 (by decide) (by decide),
    toBitVec_rotateRight w 11 (by decide) (by decide),
    toBitVec_rotateRight w 25 (by decide) (by decide)]
  rfl

variable {block : List UInt8}

/-- The first words of a schedule are those of the block. -/
def firstWords (block : List UInt8) : Array UInt32 :=
  ((List.range 16).map (fun i => beWord block (i * 4))).toArray

theorem getD_push (words : Array UInt32) (word : UInt32) (t : Nat) :
    (words.push word).getD t 0 = if t = words.size then word else words.getD t 0 := by
  rw [Array.getD_eq_getD_getElem?, Array.getElem?_push, Array.getD_eq_getD_getElem?]
  split
  · rfl
  · rfl

theorem extended (hblock : block.length = 64) (n : Nat) :
    ((List.range' 16 n).foldl extend (firstWords block)).size = 16 + n ∧
      ∀ t < 16 + n, (((List.range' 16 n).foldl extend (firstWords block)).getD t 0).toBitVec =
        Fips180.schedule (wordAt (bits block)) t := by
  induction n with
  | zero =>
    refine ⟨rfl, fun t ht => ?_⟩
    have hfirst : (firstWords block).getD t 0 = beWord block (t * 4) := by
      simp [firstWords, Array.getD, ht]
    rw [schedule_early ht, wordAt_bits (by omega), Nat.mul_comm 4 t]
    exact congrArg UInt32.toBitVec hfirst
  | succ n ih =>
    obtain ⟨hsize, hwords⟩ := ih
    rw [List.range'_1_concat, List.foldl_append, List.foldl_cons, List.foldl_nil]
    generalize (List.range' 16 n).foldl extend (firstWords block) = w at hsize hwords
    refine ⟨by simp [extend, hsize]; omega, fun t ht => ?_⟩
    by_cases hold : t < 16 + n
    · rw [extend, getD_push, if_neg (by omega)]
      exact hwords t hold
    · obtain rfl : t = 16 + n := by omega
      rw [extend, getD_push, if_pos hsize.symm, schedule_late (by omega), UInt32.toBitVec_add,
        UInt32.toBitVec_add, UInt32.toBitVec_add, toBitVec_sigma0, toBitVec_sigma1,
        hwords _ (by omega), hwords _ (by omega), hwords _ (by omega), hwords _ (by omega)]
      ac_rfl

theorem schedule_eq (hblock : block.length = 64) {t : Nat} (ht : t < 64) :
    ((schedule block).getD t 0).toBitVec = Fips180.schedule (wordAt (bits block)) t :=
  (extended hblock 48).2 t ht

theorem hash_round {w : Array UInt32} {words : Nat → Word} {t : Nat} (ht : t < 64)
    (hw : (w.getD t 0).toBitVec = Fips180.schedule words t) (v : Working) :
    (round w v t).hash = Fips180.round words v.hash t := by
  have htemp1 : (v.h + (rotateRight v.e 6 ^^^ rotateRight v.e 11 ^^^ rotateRight v.e 25) +
        ((v.e &&& v.f) ^^^ (~~~v.e &&& v.g)) + roundConstants.getD t 0 + w.getD t 0).toBitVec =
      v.h.toBitVec + bigSigma1 v.e.toBitVec + ch v.e.toBitVec v.f.toBitVec v.g.toBitVec +
        constant t + Fips180.schedule words t := by
    rw [UInt32.toBitVec_add, UInt32.toBitVec_add, UInt32.toBitVec_add, UInt32.toBitVec_add,
      toBitVec_bigSigma1, hw, constant_eq ht]
    rfl
  have htemp2 : ((rotateRight v.a 2 ^^^ rotateRight v.a 13 ^^^ rotateRight v.a 22) +
        ((v.a &&& v.b) ^^^ (v.a &&& v.c) ^^^ (v.b &&& v.c))).toBitVec =
      bigSigma0 v.a.toBitVec + maj v.a.toBitVec v.b.toBitVec v.c.toBitVec := by
    rw [UInt32.toBitVec_add, toBitVec_bigSigma0]
    rfl
  unfold round Fips180.round Working.hash
  dsimp only
  rw [← htemp1, ← htemp2]
  rfl

theorem hash_rounds {w : Array UInt32} {words : Nat → Word}
    (hw : ∀ t < 64, (w.getD t 0).toBitVec = Fips180.schedule words t) (v : Working) (n : Nat)
    (hn : n ≤ 64) : ((List.range n).foldl (round w) v).hash =
      (List.range n).foldl (Fips180.round words) v.hash := by
  induction n with
  | zero => rfl
  | succ n ih =>
    rw [List.range_succ, List.foldl_append, List.foldl_append, ← ih (by omega)]
    exact hash_round (by omega) (hw n (by omega)) _

theorem hashOf_compress (hblock : block.length = 64) (state : Vector UInt32 8) :
    hashOf (compress state block) =
      Fips180.compress (hashOf state) (wordAt (bits block)) := by
  have hrounds := hash_rounds (fun t ht => schedule_eq hblock ht)
    ⟨state[0], state[1], state[2], state[3], state[4], state[5], state[6], state[7]⟩ 64 le_rfl
  change _ = (Fips180.Hash.add _ _)
  change _ = (List.range 64).foldl _ (hashOf state) at hrounds
  rw [← hrounds]
  exact (Hash.mk.injEq ..).mpr ⟨BitVec.add_comm .., BitVec.add_comm .., BitVec.add_comm ..,
    BitVec.add_comm .., BitVec.add_comm .., BitVec.add_comm .., BitVec.add_comm ..,
    BitVec.add_comm ..⟩

end Blocks

/-! ## A stream of bytes -/

section Streams

theorem compressBlocks_eq (state : Vector UInt32 8) (data : List UInt8) :
    compressBlocks state data = absorb 64 compress state data := by
  fun_induction compressBlocks state data with
  | case1 state data h ih => rw [absorb_block (by omega) h, ih]
  | case2 state data h => rw [absorb_short (by omega)]

theorem wordAt_block (bytes : List UInt8) (i : Nat) {t : Nat} (ht : t < 16) :
    wordAt (bits ((bytes.drop (64 * i)).take 64)) t = wordAt (bits bytes) (16 * i + t) := by
  rw [bits_take, bits_drop, wordAt, wordAt, List.drop_take, List.take_take, List.drop_drop,
    Nat.min_eq_left (by omega)]
  congr 5
  ring

theorem hashOf_absorb (state : Vector UInt32 8) (bytes : List UInt8) :
    hashOf (absorb 64 compress state bytes).1 =
      (List.range ((bits bytes).length / 512)).foldl (fun hash i =>
        Fips180.compress hash fun t => wordAt (bits bytes) (16 * i + t)) (hashOf state) := by
  have hblocks : (bits bytes).length / 512 = bytes.length / 64 := by
    rw [length_bits]
    omega
  have hfolded : ∀ n ≤ bytes.length / 64,
      hashOf ((List.range n).foldl (fun state i =>
          compress state ((bytes.drop (64 * i)).take 64)) state) =
        (List.range n).foldl (fun hash i =>
          Fips180.compress hash fun t => wordAt (bits bytes) (16 * i + t)) (hashOf state) := by
    intro n hn
    induction n with
    | zero => rfl
    | succ n ih =>
      have hlength : ((bytes.drop (64 * n)).take 64).length = 64 := by
        rw [List.length_take, List.length_drop]
        omega
      rw [List.range_succ, List.foldl_append, List.foldl_append, ← ih (by omega)]
      simp only [List.foldl_cons, List.foldl_nil]
      rw [hashOf_compress hlength]
      exact compress_congr (fun t ht => wordAt_block bytes n ht) _
  rw [hblocks, absorb_eq_foldl (by omega)]
  exact hfolded _ le_rfl

theorem hashOf_new : hashOf new.state = initial := by
  refine (Hash.mk.injEq ..).mpr ⟨(fraction_eq 1 two_ne_zero ?_ ?_).symm,
    (fraction_eq 1 two_ne_zero ?_ ?_).symm, (fraction_eq 2 two_ne_zero ?_ ?_).symm,
    (fraction_eq 2 two_ne_zero ?_ ?_).symm, (fraction_eq 3 two_ne_zero ?_ ?_).symm,
    (fraction_eq 3 two_ne_zero ?_ ?_).symm, (fraction_eq 4 two_ne_zero ?_ ?_).symm,
    (fraction_eq 4 two_ne_zero ?_ ?_).symm⟩
  all_goals decide +kernel

theorem absorb_update (h : Sha256) (data : List UInt8) (hbuf : h.buf.length < 64) :
    absorb 64 compress h.state (h.buf ++ data) = ((h.update data).state, (h.update data).buf) := by
  unfold update
  dsimp only
  simp only [compressBlocks_eq]
  rcases Nat.eq_zero_or_pos h.buf.length with hempty | hpos
  · have hnil : h.buf = [] := List.length_eq_zero_iff.mp hempty
    simp only [hnil, List.length_nil, lt_irrefl, if_false, List.take_zero, List.append_nil,
      List.drop_zero, List.nil_append, (by decide : ¬ 0 = 64)]
    generalize absorb 64 compress h.state data = result
    by_cases hrest : result.2 = []
    · simp [← hrest]
    · simp [hrest]
  · rw [if_pos hpos]
    by_cases hfull : h.buf.length + data.length < 64
    · have htake : min (64 - h.buf.length) data.length = data.length := by omega
      have hlength : (h.buf ++ data).length < 64 := by rw [List.length_append]; exact hfull
      have hnone : ([] : List UInt8).length < 64 := by decide
      rw [htake, List.take_length, List.drop_length, if_neg hlength.ne, absorb_short hnone,
        absorb_short hlength]
      dsimp only
      rw [if_neg (not_not.mpr rfl), if_neg hlength.ne]
    · have htake : min (64 - h.buf.length) data.length = 64 - h.buf.length := by omega
      have hlength : (h.buf ++ data.take (64 - h.buf.length)).length = 64 := by
        rw [List.length_append, List.length_take]
        omega
      have hsplit : h.buf ++ data =
          (h.buf ++ data.take (64 - h.buf.length)) ++ data.drop (64 - h.buf.length) := by
        rw [List.append_assoc, List.take_append_drop]
      rw [htake, if_pos hlength, hsplit, absorb_block (by omega) (by rw [List.length_append]; omega),
        List.take_left' hlength, List.drop_left' hlength]
      generalize absorb 64 compress _ _ = result
      by_cases hrest : result.2 = []
      · simp [hlength, ← hrest]
      · simp [hrest]

/-- The bytes that both digests compress. -/
def padBytes (bytes : List UInt8) : List UInt8 :=
  bytes ++ [0x80] ++ List.replicate ((120 - (bytes.length + 1) % 64) % 64) 0 ++
    beBytes64 (UInt64.ofNat bytes.length * 8)

theorem bits_padBytes (bytes : List UInt8) : bits (padBytes bytes) = pad (bits bytes) := by
  have hzeros : ∀ n, bits (List.replicate n 0) = List.replicate (8 * n) false := by
    intro n
    induction n with
    | zero => rfl
    | succ n ih =>
      rw [List.replicate_succ, Nat.mul_succ, Nat.add_comm, List.replicate_add, ← ih]
      rfl
  have hlength : bits (beBytes64 (UInt64.ofNat bytes.length * 8)) =
      bitsOf 64 (bits bytes).length := by
    rw [beBytes64, bits_reverse_leBytes, UInt64.toNat_mul, UInt64.toNat_ofNat', length_bits,
      ← bitsOf_mod 64 (8 * bytes.length)]
    congr 1
    simp [Nat.mul_comm]
  have hcount : zeros (bits bytes).length =
      7 + 8 * ((120 - (bytes.length + 1) % 64) % 64) := by
    rw [zeros, length_bits]
    omega
  have hone : bits [0x80] = true :: List.replicate 7 false := by decide
  rw [padBytes, bits_append, bits_append, bits_append, hzeros, hlength, hone, pad, hcount,
    List.replicate_add]
  simp

theorem bits_digest (bytes : List UInt8) :
    bits ((absorb 64 compress new.state (padBytes bytes)).1.toList.flatMap beBytes32) =
      Fips180.sha256 (bits bytes) := by
  have hstate : ∀ state : Vector UInt32 8, state.toList = [state[0], state[1], state[2], state[3],
      state[4], state[5], state[6], state[7]] := by
    intro state
    refine List.ext_getElem (by simp) fun i hi _ => ?_
    have hi : i < 8 := by simpa using hi
    interval_cases i
    all_goals simp
  have hwords : ∀ state : Vector UInt32 8,
      bits (state.toList.flatMap beBytes32) =
        (hashOf state).words.flatMap fun word => bitsOf 32 word.toNat := by
    intro state
    rw [hstate, bits, List.flatMap_assoc]
    refine (List.flatMap_congr fun word _ => bits_beBytes32 word).trans ?_
    rfl
  rw [hwords, hashOf_absorb, hashOf_new, bits_padBytes]
  rfl

/-- The digest has taken these bytes. -/
structure Absorbed (h : Sha256) (bytes : List UInt8) : Prop where
  blocks : absorb 64 compress new.state bytes = (h.state, h.buf)
  totalLen : h.totalLen = UInt64.ofNat bytes.length

theorem absorbed_new : Absorbed new [] := ⟨absorb_short (by simp), rfl⟩

section Absorbing

variable {h : Sha256} {bytes : List UInt8} (habsorbed : Absorbed h bytes)

include habsorbed

theorem Absorbed.length_buf : h.buf.length = bytes.length % 64 := by
  rw [← length_absorb_rest (by omega : 0 < 64), habsorbed.blocks]

theorem Absorbed.update (data : List UInt8) : Absorbed (h.update data) (bytes ++ data) := by
  have hbuf : h.buf.length < 64 := habsorbed.length_buf ▸ Nat.mod_lt _ (by omega)
  refine ⟨?_, ?_⟩
  · rw [absorb_append (by omega), habsorbed.blocks]
    exact absorb_update h data hbuf
  · change h.totalLen + UInt64.ofNat data.length = _
    rw [habsorbed.totalLen, List.length_append, UInt64.ofNat_add]

theorem Absorbed.updates (pieces : List (List UInt8)) :
    Absorbed (pieces.foldl Sha256.update h) (bytes ++ pieces.flatten) := by
  induction pieces generalizing h bytes with
  | nil => simpa using habsorbed
  | cons piece rest ih =>
    rw [List.flatten_cons, ← List.append_assoc]
    exact ih (habsorbed.update piece)

theorem Absorbed.finalize_eq : h.finalize =
    (absorb 64 compress new.state (padBytes bytes)).1.toList.flatMap beBytes32 := by
  have hbuf := habsorbed.length_buf
  have htail : (h.buf ++ [0x80]).length % 64 = (bytes.length + 1) % 64 := by
    rw [List.length_append, hbuf, List.length_singleton, Nat.mod_add_mod]
  have hpadded : absorb 64 compress new.state (padBytes bytes) = compressBlocks h.state
      (h.buf ++ [0x80] ++ List.replicate ((120 - (h.buf ++ [0x80]).length % 64) % 64) 0 ++
        beBytes64 (h.totalLen * 8)) := by
    rw [compressBlocks_eq, htail, habsorbed.totalLen, padBytes, List.append_assoc, List.append_assoc,
      absorb_append (by omega), habsorbed.blocks, List.append_assoc, List.append_assoc]
  rw [hpadded]
  rfl

end Absorbing

end Streams

end FaberHosts.Coordinator.Sha256
