import Mathlib.Data.List.Basic
import Mathlib.Data.UInt

/-! Decimal text: writing a number, the value of a run of digits, and the formatted
integer input of a stream. -/
namespace Dhtperf.Library

def isDigit (c : UInt8) : Bool := 48 ≤ c && c ≤ 57

/-- What `isspace` accepts: tab to carriage return, and the space. -/
def isSpace (c : UInt8) : Bool := (9 ≤ c && c ≤ 13) || c == 32

def digitsValue (digits : List UInt8) : Nat :=
  digits.foldl (fun value c => value * 10 + (c.toNat - 48)) 0

def decimal (n : Nat) : List UInt8 := (Nat.toDigits 10 n).map fun c => UInt8.ofNat c.toNat

/-- What an input stream still holds; a stream that failed gives nothing more. -/
abbrev InputStream := Option (List UInt8)

/-- `stream >> x` for an integer variable of the given range that holds `kept`. -/
def extract (least greatest : Int) (kept : Int) : InputStream → Int × InputStream
  | none => (kept,none)
  | some text =>
    match text.dropWhile isSpace with
    | [] => (kept,none)
    | first :: others =>
      let negative := first == 45
      let unsigned := if first == 45 || first == 43 then others else first :: others
      let digits := unsigned.takeWhile isDigit
      let value : Int := if negative then -(digitsValue digits : Int) else digitsValue digits
      if digits = [] then (0,none)
      else if value < least then (least,none)
      else if value > greatest then (greatest,none)
      else (value,some (unsigned.dropWhile isDigit))

private theorem digit_byte (c : Char) (digit : c.isDigit = true) :
    48 ≤ c.toNat ∧ c.toNat ≤ 57 := by
  have bounds := Char.isDigit_iff_toNat.mp digit
  simpa using bounds

private theorem digit_range (n : Nat) (c : Char) (member : c ∈ Nat.toDigits 10 n) :
    48 ≤ c.toNat ∧ c.toNat ≤ 57 :=
  digit_byte c (Nat.isDigit_of_mem_toDigits (by decide) (by decide) member)

theorem decimal_digits (n : Nat) : ∀ c ∈ decimal n, isDigit c = true := by
  intro c member
  obtain ⟨digit,inside,rfl⟩ := List.mem_map.mp member
  obtain ⟨low,high⟩ := digit_range n digit inside
  simp only [isDigit,Bool.and_eq_true,decide_eq_true_eq,UInt8.le_iff_toNat_le,UInt8.toNat_ofNat']
  constructor
  · simp only [UInt8.reduceToNat]; omega
  · simp only [UInt8.reduceToNat]; omega

theorem decimal_ne_nil (n : Nat) : decimal n ≠ [] := by
  simp [decimal,Nat.toDigits_ne_nil]

private theorem value_chars (digits : List Char) (start : Nat)
    (range : ∀ c ∈ digits, 48 ≤ c.toNat ∧ c.toNat ≤ 57) :
    (digits.map fun c => UInt8.ofNat c.toNat).foldl (fun value c => value * 10 + (c.toNat - 48)) start =
      Nat.ofDigitChars 10 digits start := by
  induction digits generalizing start with
  | nil => simp
  | cons c digits ih =>
    have bound := range c (by simp)
    rw [List.map_cons,List.foldl_cons,Nat.ofDigitChars_cons,
      ih _ (fun d member => range d (by simp [member]))]
    congr 1
    have small : (UInt8.ofNat c.toNat).toNat = c.toNat := by
      rw [UInt8.toNat_ofNat']
      omega
    rw [small,Nat.mul_comm]
    rfl

theorem digitsValue_decimal (n : Nat) : digitsValue (decimal n) = n := by
  unfold digitsValue decimal
  rw [value_chars _ 0 (fun c member => digit_range n c member)]
  exact Nat.ofDigitChars_toDigits (by decide) (by decide)

theorem decimal_span (n : Nat) (rest : List UInt8) (ends : rest.head?.all (fun c => !isDigit c)) :
    (decimal n ++ rest).takeWhile isDigit = decimal n ∧ (decimal n ++ rest).dropWhile isDigit = rest := by
  have stop : rest.takeWhile isDigit = [] ∧ rest.dropWhile isDigit = rest := by
    cases rest with
    | nil => exact ⟨rfl,rfl⟩
    | cons c rest => simp at ends; simp [ends]
  constructor
  · rw [List.takeWhile_append_of_pos (decimal_digits n),stop.1,List.append_nil]
  · rw [List.dropWhile_append_of_pos (decimal_digits n),stop.2]

theorem space_blank : ∀ c ∈ [(32 : UInt8)], isSpace c = true := by
  intro c only
  rw [List.mem_singleton.mp only]
  rfl

theorem extract_decimal (least greatest kept : Int) (n : Nat) (rest : List UInt8)
    (fits : least ≤ n ∧ (n : Int) ≤ greatest) (ends : rest.head?.all (fun c => !isDigit c))
    (lead : List UInt8) (blank : ∀ c ∈ lead, isSpace c = true) :
    extract least greatest kept (some (lead ++ (decimal n ++ rest))) = ((n : Int),some rest) := by
  obtain ⟨first,others,shape⟩ := List.exists_cons_of_ne_nil (decimal_ne_nil n)
  have digit := decimal_digits n first (by simp [shape])
  simp only [isDigit,Bool.and_eq_true,decide_eq_true_eq,UInt8.le_iff_toNat_le,
    UInt8.reduceToNat] at digit
  have notSpace : isSpace first = false := by
    simp only [isSpace,Bool.or_eq_false_iff,Bool.and_eq_false_iff,decide_eq_false_iff_not,
      UInt8.le_iff_toNat_le,beq_eq_false_iff_ne,ne_eq,← UInt8.toNat_inj,UInt8.reduceToNat]
    omega
  have noMinus : (first == 45) = false := by
    simp only [beq_eq_false_iff_ne,ne_eq,← UInt8.toNat_inj,UInt8.reduceToNat]
    omega
  have noPlus : (first == 43) = false := by
    simp only [beq_eq_false_iff_ne,ne_eq,← UInt8.toNat_inj,UInt8.reduceToNat]
    omega
  have skipped : (lead ++ (decimal n ++ rest)).dropWhile isSpace = first :: (others ++ rest) := by
    rw [List.dropWhile_append_of_pos blank,shape]
    simp [notSpace]
  obtain ⟨taken,dropped⟩ := decimal_span n rest ends
  rw [shape,List.cons_append] at taken dropped
  simp only [extract,skipped,noMinus,noPlus,Bool.or_self,Bool.false_eq_true,if_false,taken,dropped]
  rw [← shape,digitsValue_decimal]
  simp [decimal_ne_nil,not_lt.mpr fits.1,not_lt.mpr fits.2]

end Dhtperf.Library
