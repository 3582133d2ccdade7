/-!
# What the model takes from outside the repository

The build profile decides whether `u64` arithmetic panics or wraps on overflow;
the `Debug` rendering of strings belongs to the standard library and the `sha2`
digest to a third-party package.
-/

namespace FaberHosts

structure Toolchain where
  /-- Overflow checks are on: the `dev` and `test` profiles.  `release` has none. -/
  overflowChecks : Bool
  /-- `format!("{s:?}")` of a string. -/
  debugStr : String → String
  /-- `sha2::Sha256::digest`. -/
  sha256 : List UInt8 → List UInt8

/-- The `dev` profile, with quotation marks for `Debug` and an empty digest. -/
def Toolchain.dev : Toolchain := ⟨true, fun s => "\"" ++ s ++ "\"", fun _ => []⟩

/-- The same without overflow checks. -/
def Toolchain.release : Toolchain := { Toolchain.dev with overflowChecks := false }

end FaberHosts
