import Mathlib

/-!
# Streams absorbed in blocks

A state that takes a stream in blocks of one size.  What is short of a block waits in a buffer,
so that it does not matter how the stream is cut into pieces.
-/

namespace FaberHosts.Lib

variable {σ α : Type}

/-- The state after the whole blocks of a stream, and what is left of it. -/
def absorb (size : Nat) (step : σ → List α → σ) (state : σ) (stream : List α) : σ × List α :=
  if _h : 0 < size ∧ size ≤ stream.length then
    absorb size step (step state (stream.take size)) (stream.drop size)
  else (state, stream)
  termination_by stream.length
  decreasing_by
    rw [List.length_drop]
    omega

variable {size : Nat} {step : σ → List α → σ} {state : σ} {stream : List α}

theorem absorb_short (h : stream.length < size) : absorb size step state stream = (state, stream) := by
  rw [absorb, dif_neg (by omega)]

theorem absorb_block (hsize : 0 < size) (h : size ≤ stream.length) :
    absorb size step state stream =
      absorb size step (step state (stream.take size)) (stream.drop size) := by
  rw [absorb, dif_pos ⟨hsize, h⟩]

theorem absorb_append (hsize : 0 < size) (more : List α) :
    absorb size step state (stream ++ more) =
      absorb size step (absorb size step state stream).1
        ((absorb size step state stream).2 ++ more) := by
  fun_induction absorb size step state stream with
  | case1 state stream h ih =>
    have hlong : size ≤ (stream ++ more).length := by
      rw [List.length_append]
      omega
    rw [absorb_block hsize hlong, List.take_append_of_le_length h.2,
      List.drop_append_of_le_length h.2, ih]
  | case2 state stream h => rfl

theorem absorb_eq_foldl (hsize : 0 < size) :
    (absorb size step state stream).1 = (List.range (stream.length / size)).foldl
      (fun state i => step state ((stream.drop (size * i)).take size)) state := by
  fun_induction absorb size step state stream with
  | case1 state stream h ih =>
    have hcount : stream.length / size = (stream.drop size).length / size + 1 := by
      rw [List.length_drop]
      exact Nat.div_eq_sub_div hsize h.2
    rw [ih, hcount, List.range_succ_eq_map, List.foldl_cons, List.foldl_map]
    simp only [Nat.mul_zero, List.drop_zero, List.drop_drop, Nat.succ_eq_add_one, Nat.mul_add,
      Nat.mul_one, Nat.add_comm size]
  | case2 state stream h =>
    rw [Nat.div_eq_of_lt (not_le.mp fun hle => h ⟨hsize, hle⟩)]
    rfl

theorem length_absorb_rest (hsize : 0 < size) :
    (absorb size step state stream).2.length = stream.length % size := by
  fun_induction absorb size step state stream with
  | case1 state stream h ih => rw [ih, List.length_drop, ← Nat.mod_eq_sub_mod h.2]
  | case2 state stream h => rw [Nat.mod_eq_of_lt (not_le.mp fun hle => h ⟨hsize, hle⟩)]

end FaberHosts.Lib
