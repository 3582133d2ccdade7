import FaberHosts.Kernel.Valor
import FaberHosts.Lib.Traced

/-!
# The arenas of the LLVM host

A compiled program holds every runtime object by its address.  The runtime
context owns the objects, one arena a kind, and a lookup compares addresses.  A
text is held in the same way, or it is a literal: the address of a slice
descriptor that the compiler emitted, which no arena knows.
-/

namespace FaberHosts.Llvm
open FaberHosts.Kernel FaberHosts.Lib

/-- An address as the compiled program holds it; 0 is the null pointer. -/
abbrev Handle : Type := Nat

/-- `FaberRtValueKindV1`. -/
inductive ValueKind where
  | i1 | i8 | i16 | i32 | i64 | u8 | u16 | u32 | u64 | f16 | f32 | f64
  | ptr | text | valor | optionI64 | instans | ascii
  | other (code : UInt32)
  deriving DecidableEq, Repr

/-- `RuntimeValue`: one cell; the floats by their bits. -/
inductive RuntimeValue where
  | i1 (value : UInt8)
  | i8 (value : Int8)
  | i16 (value : Int16)
  | i32 (value : Int32)
  | i64 (value : Int64)
  | u8 (value : UInt8)
  | u16 (value : UInt16)
  | u32 (value : UInt32)
  | u64 (value : UInt64)
  | f16 (bits : UInt16)
  | f32 (bits : UInt32)
  | f64 (value : F64)
  | ptr (handle : Handle)
  deriving DecidableEq, Repr

structure RuntimeArray where
  kind : ValueKind
  values : List RuntimeValue

structure RuntimeTensor where
  kind : ValueKind
  data : List RuntimeValue

structure RuntimeMap where
  keyKind : ValueKind
  valueKind : ValueKind
  entries : List (RuntimeValue × RuntimeValue)

structure RuntimeSet where
  kind : ValueKind
  values : List RuntimeValue

structure RuntimeOption where
  kind : ValueKind
  value : Option RuntimeValue

/-- The words a program prints for a `bivalens`, the null value and a tuple head. -/
structure DisplayTokens where
  true_ : String
  false_ : String
  none : String
  tuple : String

/-- The objects of one kind, each with its address. -/
abbrev Arena (α : Type) : Type := List (Handle × α)

/-- The first object at the address. -/
def Arena.find {α : Type} (arena : Arena α) (handle : Handle) : Option α :=
  (List.find? (·.1 == handle) arena).map (·.2)

/-- The arenas that a diagnostic or a conversion looks into, and the tensors and
    options it may meet.  `Instans` is the runtime crate's instant. -/
structure RuntimeContext (Instans : Type) where
  texts : Arena String
  valors : Arena Valor
  octeti : Arena (List UInt8)
  instants : Arena Instans
  arrays : Arena RuntimeArray
  options : Arena RuntimeOption
  maps : Arena RuntimeMap
  sets : Arena RuntimeSet
  tensors : Arena RuntimeTensor
  displayTokens : Option DisplayTokens

/-- The memory of the program: which addresses are those of its literals, and what
    the two words at an address give when they are read as a slice descriptor of a
    text. -/
structure Memory where
  literals : List Handle
  slice : Handle → Option String

/-- What the runtime crate and the standard library print. -/
structure Display (Instans : Type) where
  latin : DisplayTokens
  fractus32 : UInt32 → String
  fractus64 : F64 → String
  bivalensWith : Bool → DisplayTokens → String
  valorWith : Valor → DisplayTokens → String
  debugTextus : String → String
  debugInstans : Instans → String
  debugValor : Valor → String

section

variable {Instans : Type} (runtime : RuntimeContext Instans) (memory : Memory) (handle : Handle)

def findText : Option String := runtime.texts.find handle

def findValor : Option Valor := runtime.valors.find handle

def findOcteti : Option (List UInt8) := runtime.octeti.find handle

def findInstans : Option Instans := runtime.instants.find handle

def findArray : Option RuntimeArray := runtime.arrays.find handle

def findOption : Option RuntimeOption := runtime.options.find handle

def findMap : Option RuntimeMap := runtime.maps.find handle

def findSet : Option RuntimeSet := runtime.sets.find handle

def findTensor : Option RuntimeTensor := runtime.tensors.find handle

/-- `text_value` turns the null pointer away; any other pointer it dereferences as a
    slice descriptor, and that goes on the record. -/
def textValue : Traced Handle String :=
  if handle = 0 then .fail else .consult handle (memory.slice handle)

/-- The pointer is that of an arena text or of a literal. -/
def IsText : Prop := (findText runtime handle).isSome ∨ handle ∈ memory.literals

instance : Decidable (IsText runtime memory handle) := by
  unfold IsText
  infer_instance

/-- `display_tokens::of`: Latin until the module sets its words. -/
def DisplayTokens.of (display : Display Instans) : DisplayTokens :=
  runtime.displayTokens.getD display.latin

end

/-- `{bytes:?}` of a byte vector. -/
def debugOcteti (bytes : List UInt8) : String :=
  "[" ++ ", ".intercalate (bytes.map toString) ++ "]"

theorem only_textValue {memory : Memory} {handle : Handle} {P : Handle → Prop} :
    (textValue memory handle).Only P ↔ handle = 0 ∨ P handle := by
  unfold textValue
  split
  · simp_all
  · simp_all

end FaberHosts.Llvm
