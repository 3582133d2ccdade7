import FaberHosts.Wasm.CollectionRows

/-!
# Offsets in a tensor

`collections.rs`: the flat offset of an index is its place in row-major order.
-/

namespace FaberHosts.Wasm.HostState
open FaberHosts.Lib

/-- The place of an index in row-major order. -/
def rowMajor : List Nat → List Nat → Option Nat
  | [], [] => some 0
  | dim :: dims, i :: index =>
    if i < dim then (rowMajor dims index).map (i * dims.prod + ·) else none
  | _, _ => none

end FaberHosts.Wasm.HostState
