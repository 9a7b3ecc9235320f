import Dhtperf.Library.Decimal
import Mathlib.Data.List.Basic

/-! Vocabulary shared by the master and the controllers. -/
namespace Dhtperf
open Library

abbrev Bytes := List UInt8

def ascii (text : String) : Bytes := text.toList.map fun c => UInt8.ofNat c.toNat

/-- `dhtperfproto::timeUnit`, an unsigned 32-bit number of seconds. -/
abbrev TimeUnit := UInt32

inductive DhtOperation
  | join
  | leave
  | put
  | get
  deriving DecidableEq, Repr

/-- The ways a library call or an explicit check ends a process. -/
inductive Fault
  /-- An explicit `exit` after an error message. -/
  | exit
  /-- An exception nobody catches, such as `bad_lexical_cast`. -/
  | exception
  /-- A vector or string is read past its end. -/
  | outOfRange
  /-- A variable is read before it is set. -/
  | uninitialised
  deriving DecidableEq, Repr

theorem bind_ok {ε α β : Type} {value : Except ε α} {next : α → Except ε β} {result : β}
    (ok : value >>= next = .ok result) : ∃ here, value = .ok here ∧ next here = .ok result := by
  cases value with
  | error fault => cases ok
  | ok here => exact ⟨here,rfl,ok⟩

theorem bind_failed {ε α β : Type} {value : Except ε α} {next : α → Except ε β} {fault : ε}
    (failed : value >>= next = .error fault) :
    value = .error fault ∨ ∃ here, value = .ok here ∧ next here = .error fault := by
  cases value with
  | error other =>
    cases failed
    exact Or.inl rfl
  | ok here => exact Or.inr ⟨here,rfl,failed⟩

theorem ok_of_any {ε α : Type} (result : Except ε α) (good : α → Bool) (ok : result.toOption.any good = true) :
    ∃ value, result = .ok value ∧ good value = true := by
  cases result with
  | error fault => cases ok
  | ok value => exact ⟨value,rfl,ok⟩

theorem separator_space (text : Bytes) (separator : UInt8) (rest : Bytes)
    (found : text.dropWhile (· ≠ 32) = separator :: rest) : separator = 32 := by
  have stops := List.head?_dropWhile_not (fun c : UInt8 => decide (c ≠ 32)) text
  rw [found] at stops
  simpa using stops

theorem clear_of_any {test : UInt8 → Bool} {text : Bytes} (none : text.any test = false) :
    ∀ c ∈ text, test c = false :=
  fun c member => Bool.eq_false_iff.mpr (List.any_eq_false.mp none c member)

/-- `boost::lexical_cast<unsigned int>`: an optional sign, then digits only. A value
that does not fit is refused and a minus sign negates modulo 2^32. -/
def lexicalCastUnsigned (text : Bytes) : Option UInt32 :=
  let (negative,digits) := match text with
    | 45 :: rest => (true,rest)
    | 43 :: rest => (false,rest)
    | _ => (false,text)
  if digits ≠ [] ∧ digits.all isDigit ∧ digitsValue digits < 2^32 then
    let value := UInt32.ofNat (digitsValue digits)
    some (if negative then -value else value)
  else none

theorem ofInt_toNat (value : Int) (lower : 0 ≤ value) (upper : value < 2^32) :
    ((UInt32.ofInt value).toNat : Int) = value := by
  obtain ⟨n,rfl⟩ := Int.eq_ofNat_of_zero_le lower
  have small : n < 2^32 := by omega
  simp only [UInt32.ofInt,UInt32.toNat_ofNat']
  omega

end Dhtperf
