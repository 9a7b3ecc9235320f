import Mathlib.Data.List.Basic
import Mathlib.Data.UInt

/-! Numbers of a fixed width in either byte order, and reading them back. -/
namespace Dhtperf.Library

/-- The least significant byte comes first. -/
def littleBytes : Nat → Nat → List UInt8
  | 0, _ => []
  | width+1, n => UInt8.ofNat n :: littleBytes width (n / 256)

def littleValue : List UInt8 → Nat
  | [] => 0
  | byte :: rest => byte.toNat + 256 * littleValue rest

inductive ByteOrder
  | little
  | big
  deriving DecidableEq, Repr

namespace ByteOrder

def write (order : ByteOrder) (width n : Nat) : List UInt8 :=
  match order with
  | .little => littleBytes width n
  | .big => (littleBytes width n).reverse

def read (order : ByteOrder) (bytes : List UInt8) : Nat :=
  match order with
  | .little => littleValue bytes
  | .big => littleValue bytes.reverse

end ByteOrder

theorem littleBytes_length (width n : Nat) : (littleBytes width n).length = width := by
  induction width generalizing n with
  | zero => rfl
  | succ width ih => simp [littleBytes,ih]

theorem littleValue_bytes (width n : Nat) (fits : n < 256^width) :
    littleValue (littleBytes width n) = n := by
  induction width generalizing n with
  | zero => simp only [Nat.pow_zero,Nat.lt_one_iff] at fits; simp [littleBytes,littleValue,fits]
  | succ width ih =>
    have rest := ih (n / 256) (by rw [Nat.pow_succ] at fits; omega)
    simp only [littleBytes,littleValue,rest,UInt8.toNat_ofNat']
    omega

theorem littleBytes_value (bytes : List UInt8) : littleBytes bytes.length (littleValue bytes) = bytes := by
  induction bytes with
  | nil => rfl
  | cons byte rest ih =>
    have small : byte.toNat < 256 := byte.toNat_lt
    have quotient : (byte.toNat + 256 * littleValue rest) / 256 = littleValue rest := by omega
    have residue : UInt8.ofNat (byte.toNat + 256 * littleValue rest) = byte := by
      apply UInt8.toNat_inj.mp
      rw [UInt8.toNat_ofNat']
      omega
    simp only [List.length_cons,littleValue,littleBytes,quotient,residue,ih]

theorem littleValue_lt (bytes : List UInt8) : littleValue bytes < 256^bytes.length := by
  induction bytes with
  | nil => simp [littleValue]
  | cons byte rest ih =>
    have small : byte.toNat < 256 := byte.toNat_lt
    simp only [littleValue,List.length_cons,Nat.pow_succ]
    omega

namespace ByteOrder

@[simp] theorem write_length (order : ByteOrder) (width n : Nat) : (order.write width n).length = width := by
  cases order <;> simp [write,littleBytes_length]

theorem read_write (order : ByteOrder) (width n : Nat) (fits : n < 256^width) :
    order.read (order.write width n) = n := by
  cases order <;> simp [read,write,littleValue_bytes width n fits]

theorem write_read (order : ByteOrder) (width : Nat) (bytes : List UInt8) (size : bytes.length = width) :
    order.write width (order.read bytes) = bytes := by
  subst size
  cases order with
  | little => exact littleBytes_value bytes
  | big =>
    have reversed := littleBytes_value bytes.reverse
    rw [List.length_reverse] at reversed
    rw [write,read,reversed,List.reverse_reverse]

theorem read_lt (order : ByteOrder) (width : Nat) (bytes : List UInt8) (size : bytes.length = width) :
    order.read bytes < 256^width := by
  subst size
  cases order with
  | little => exact littleValue_lt bytes
  | big => simpa [read] using littleValue_lt bytes.reverse

end ByteOrder
end Dhtperf.Library
