import Dhtperf.Utils
import Mathlib.Data.List.TakeWhile

/-! What `getTimeFromString` makes of a word. Its two formats are a number and a range of
numbers; `sscanf` looks only at how a word starts, so more words than these are taken. -/
namespace Dhtperf
open Library

namespace Utils

/-! ### What a word starts with -/

/-- What the C functions see of a string. -/
def cString (text : Bytes) : Bytes := text.takeWhile (· ≠ 0)

def numberFrom (negative : Bool) (unsigned : Bytes) : Option (Int × Bytes) :=
  let digits := unsigned.takeWhile isDigit
  if digits = [] then none
  else some (if negative then -(digitsValue digits : Int) else digitsValue digits,unsigned.dropWhile isDigit)

def leadingNumber (text : Bytes) : Option (Int × Bytes) :=
  match text with
  | 45 :: rest => numberFrom true rest
  | 43 :: rest => numberFrom false rest
  | _ => numberFrom false text

theorem leadingNumber_unsigned (text : Bytes) (minus : ∀ rest, text ≠ 45 :: rest) (plus : ∀ rest, text ≠ 43 :: rest) :
    leadingNumber text = numberFrom false text := by
  unfold leadingNumber
  split
  · exact absurd rfl (minus _)
  · exact absurd rfl (plus _)
  · rfl

theorem scanInt_leading (text : Bytes) :
    scanInt text = (leadingNumber (text.dropWhile isSpace)).map fun number => (storedInt number.1,number.2) := by
  have read (negative : Bool) (unsigned : Bytes) : (numberFrom negative unsigned).map
      (fun number => (storedInt number.1,number.2)) = if unsigned.takeWhile isDigit = [] then none else
        some (storedInt (if negative then -(digitsValue (unsigned.takeWhile isDigit) : Int)
          else digitsValue (unsigned.takeWhile isDigit)),unsigned.dropWhile isDigit) := by
    unfold numberFrom
    simp only
    split <;> rfl
  unfold scanInt
  simp only
  generalize text.dropWhile isSpace = text
  split
  next rest => exact (read true rest).symm
  next rest => exact (read false rest).symm
  next minus plus =>
    rw [leadingNumber_unsigned text minus plus]
    exact (read false text).symm

theorem dropWhile_clear (text : Bytes) (clear : ∀ c ∈ text, isSpace c = false) : text.dropWhile isSpace = text := by
  cases text with
  | nil => rfl
  | cons c text => rw [List.dropWhile_cons_of_neg (by simp [clear c List.mem_cons_self])]

theorem numberFrom_cString (negative : Bool) (text : Bytes) : numberFrom negative (text.takeWhile (· ≠ 0)) =
    (numberFrom negative text).map fun number => (number.1,number.2.takeWhile (· ≠ 0)) := by
  have whole := List.takeWhile_append_dropWhile (p := isDigit) (l := text)
  have nonzero : ∀ c ∈ text.takeWhile isDigit, decide (c ≠ 0) = true := by
    intro c member
    have digit := List.mem_takeWhile_imp member
    have other : c ≠ 0 := by
      rintro rfl
      cases digit
    exact decide_eq_true other
  have stops : ∀ tail : Bytes, tail = (text.dropWhile isDigit).takeWhile (· ≠ 0) →
      tail.takeWhile isDigit = [] ∧ tail.dropWhile isDigit = tail := by
    rintro tail rfl
    have first := List.head?_dropWhile_not isDigit text
    cases rest : text.dropWhile isDigit with
    | nil => exact ⟨rfl,rfl⟩
    | cons c others =>
      rw [rest] at first
      have plain : ¬isDigit c = true := by simpa using first
      by_cases nul : c = 0
      · rw [nul]
        exact ⟨rfl,rfl⟩
      · rw [List.takeWhile_cons_of_pos (by simpa using nul)]
        exact ⟨List.takeWhile_cons_of_neg plain,List.dropWhile_cons_of_neg plain⟩
  have cut : text.takeWhile (· ≠ 0) = text.takeWhile isDigit ++ (text.dropWhile isDigit).takeWhile (· ≠ 0) := by
    conv_lhs => rw [← whole]
    exact List.takeWhile_append_of_pos nonzero
  obtain ⟨digits,rest⟩ := stops _ rfl
  have all : ∀ c ∈ text.takeWhile isDigit, isDigit c = true := fun c member => List.mem_takeWhile_imp member
  unfold numberFrom
  simp only
  rw [cut,List.takeWhile_append_of_pos all,List.dropWhile_append_of_pos all,digits,rest,List.append_nil]
  split <;> rfl

theorem leadingNumber_cString (text : Bytes) : leadingNumber (text.takeWhile (· ≠ 0)) =
    (leadingNumber text).map fun number => (number.1,number.2.takeWhile (· ≠ 0)) := by
  cases text with
  | nil => rfl
  | cons c rest =>
    by_cases minus : c = 45
    · rw [minus]
      exact numberFrom_cString true rest
    by_cases plus : c = 43
    · rw [plus]
      exact numberFrom_cString false rest
    rw [leadingNumber_unsigned (c :: rest) (by simp [minus]) (by simp [plus]),← numberFrom_cString]
    by_cases nul : c = 0
    · rw [nul]
      rfl
    · rw [List.takeWhile_cons_of_pos (by simpa using nul)]
      exact leadingNumber_unsigned _ (by simp [minus]) (by simp [plus])

theorem leadingNumber_rest (text : Bytes) (value : Int) (rest : Bytes) (first : leadingNumber text = some (value,rest)) :
    ∀ c ∈ rest, c ∈ text := by
  have suffix (negative : Bool) (unsigned : Bytes) (from_ : numberFrom negative unsigned = some (value,rest)) :
      ∀ c ∈ rest, c ∈ unsigned := by
    unfold numberFrom at from_
    simp only at from_
    split at from_
    next => cases from_
    next =>
      cases from_
      exact fun c member => (List.dropWhile_suffix isDigit).subset member
  unfold leadingNumber at first
  split at first
  next => exact fun c member => List.mem_cons_of_mem _ (suffix true _ first c member)
  next => exact fun c member => List.mem_cons_of_mem _ (suffix false _ first c member)
  next => exact suffix false text first

/-! ### What `sscanf` finds -/

def scanAfter : Option (Int × Bytes) → Scan
  | none => .nothing
  | some (min,45 :: rest) =>
    match scanInt rest with
    | none => .one min
    | some (max,_) => .two min max
  | some (min,_) => .one min

theorem scanTimes_empty (text : Bytes) (empty : cString text = []) : scanTimes text = .endOfInput := by
  unfold scanTimes
  simp only
  rw [← cString,empty]
  rfl

theorem cString_some (text : Bytes) (value : Int) (rest : Bytes) (first : leadingNumber text = some (value,rest)) :
    cString text ≠ [] := by
  intro empty
  have read := leadingNumber_cString text
  rw [first] at read
  change leadingNumber (cString text) = _ at read
  rw [empty] at read
  cases read

section
variable (text : Bytes) (clear : ∀ c ∈ text, isSpace c = false)
include clear

theorem scanInt_cString : scanInt (cString text) =
    (leadingNumber text).map fun number => (storedInt number.1,cString number.2) := by
  have clean : ∀ c ∈ cString text, isSpace c = false := fun c member =>
    clear c ((List.takeWhile_prefix _).subset member)
  rw [scanInt_leading,dropWhile_clear _ clean,cString,leadingNumber_cString,Option.map_map]
  rfl

theorem scanTimes_some (some : cString text ≠ []) : scanTimes text =
    scanAfter ((leadingNumber text).map fun number => (storedInt number.1,cString number.2)) := by
  have clean : ∀ c ∈ cString text, isSpace c = false := fun c member =>
    clear c ((List.takeWhile_prefix _).subset member)
  rw [← scanInt_cString text clear]
  unfold scanTimes
  simp only
  rw [← cString,if_neg (by rwa [dropWhile_clear _ clean])]
  rfl

theorem scanTimes_nothing (some : cString text ≠ []) (no : leadingNumber text = none) :
    scanTimes text = .nothing := by
  rw [scanTimes_some text clear some,no]
  rfl

theorem scanTimes_two (low high : Int) (second rest : Bytes) (first : leadingNumber text = some (low,45 :: second))
    (last : leadingNumber second = some (high,rest)) : scanTimes text = .two (storedInt low) (storedInt high) := by
  have clean : ∀ c ∈ second, isSpace c = false := fun c member =>
    clear c (leadingNumber_rest text low _ first c (List.mem_cons_of_mem _ member))
  have minus : cString (45 :: second) = 45 :: cString second := rfl
  rw [scanTimes_some text clear (cString_some text low _ first),first,Option.map_some,minus,scanAfter,
    scanInt_cString second clean,last]
  rfl

theorem scanTimes_one (low : Int) (rest : Bytes) (first : leadingNumber text = some (low,rest))
    (alone : ∀ second, rest = 45 :: second → leadingNumber second = none) :
    scanTimes text = .one (storedInt low) := by
  rw [scanTimes_some text clear (cString_some text low _ first),first,Option.map_some]
  cases rest with
  | nil => rfl
  | cons c second =>
    by_cases minus : c = 45
    · subst minus
      have clean : ∀ c ∈ second, isSpace c = false := fun c member =>
        clear c (leadingNumber_rest text low _ first c (List.mem_cons_of_mem _ member))
      have kept : cString (45 :: second) = 45 :: cString second := rfl
      rw [kept,scanAfter,scanInt_cString second clean,alone second rfl]
      rfl
    · have other : ∀ tail, cString (c :: second) ≠ 45 :: tail := by
        intro tail same
        by_cases nul : c = 0
        · subst nul
          cases same
        · rw [cString,List.takeWhile_cons_of_pos (by simpa using nul)] at same
          exact minus (List.cons.inj same).1
      unfold scanAfter
      split
      next absent => cases absent
      next same => exact absurd (Prod.mk.inj (Option.some.inj same)).2 (other _)
      next same => rw [(Prod.mk.inj (Option.some.inj same)).1]

end

/-! ### Numbers and draws -/

theorem storedInt_small (value : Int) (low : 0 ≤ value) (high : value < 2^31) : storedInt value = value := by
  unfold storedInt
  rw [Int.bmod_def]
  omega

theorem storedInt_le (value : Int) (low : 0 ≤ value) : storedInt value ≤ value ∧ storedInt value < 2^31 := by
  unfold storedInt
  rw [Int.bmod_def]
  split <;> omega

theorem uniformInt_range (min max : Int) (ordered : min ≤ max) (draw : Nat) :
    min ≤ uniformInt min max draw ∧ uniformInt min max draw ≤ max := by
  have below : draw % (max - min + 1).toNat < (max - min + 1).toNat := Nat.mod_lt _ (by omega)
  unfold uniformInt
  omega

theorem uniformInt_zero (min max : Int) : uniformInt min max 0 = min := by
  simp [uniformInt]

/-! ### The two formats -/

def IsDecimal (text : Bytes) : Prop := text ≠ [] ∧ ∀ c ∈ text, isDigit c = true

def IsInterval (text low high : Bytes) : Prop := IsDecimal low ∧ IsDecimal high ∧ text = low ++ 45 :: high

def IsIncreasing (text : Bytes) : Prop :=
  ∃ low high, IsInterval text low high ∧ digitsValue low < digitsValue high

theorem leadingNumber_decimal (digits rest : Bytes) (form : IsDecimal digits)
    (stops : rest.takeWhile isDigit = [] ∧ rest.dropWhile isDigit = rest) :
    leadingNumber (digits ++ rest) = some ((digitsValue digits : Int),rest) := by
  obtain ⟨some,all⟩ := form
  have head (c : UInt8) (other : isDigit c = false) (tail : Bytes) : digits ++ rest ≠ c :: tail := by
    obtain ⟨first,others,rfl⟩ := List.exists_cons_of_ne_nil some
    intro same
    have digit := all first List.mem_cons_self
    rw [(List.cons.inj same).1,other] at digit
    cases digit
  rw [leadingNumber_unsigned _ (head 45 rfl) (head 43 rfl)]
  unfold numberFrom
  simp only
  rw [List.takeWhile_append_of_pos all,List.dropWhile_append_of_pos all,stops.1,stops.2,List.append_nil,if_neg some]
  rfl

theorem leadingNumber_whole (digits : Bytes) (form : IsDecimal digits) :
    leadingNumber digits = some ((digitsValue digits : Int),[]) := by
  simpa using leadingNumber_decimal digits [] form ⟨rfl,rfl⟩

theorem leadingNumber_interval (text low high : Bytes) (form : IsInterval text low high) :
    leadingNumber text = some ((digitsValue low : Int),45 :: high) := by
  obtain ⟨first,_,rfl⟩ := form
  exact leadingNumber_decimal low (45 :: high) first ⟨rfl,rfl⟩

/-- What the comment in `getTimeFromString` promises for a word. -/
structure Kept (text : Bytes) (result : Except Fault (Int × Draws)) : Prop where
  number : IsDecimal text → ∃ rest, result = .ok ((digitsValue text : Int),rest)
  interval : ∀ low high, IsInterval text low high → digitsValue low < digitsValue high →
    ∃ time rest, result = .ok (time,rest) ∧ (digitsValue low : Int) ≤ time ∧ time ≤ (digitsValue high : Int)
  other : ¬IsDecimal text → ¬IsIncreasing text → result = .error .exit

/-- The words for which the promise is kept. -/
inductive Regular (text : Bytes) : Prop
  | number (form : IsDecimal text) (small : digitsValue text < 2^31)
  | interval (low high : Bytes) (form : IsInterval text low high) (small : digitsValue low < 2^31)
    (above : (digitsValue low : Int) < storedInt (digitsValue high))
  /-- No number at the start, behind an optional sign. -/
  | nothing (some : text.head? ≠ some 0) (none : leadingNumber text = none)
  /-- Two numbers at the start, the second not above the first. -/
  | falling (first second : Int) (rest others : Bytes) (form : leadingNumber text = .some (first,45 :: rest))
    (last : leadingNumber rest = .some (second,others)) (ordered : storedInt second ≤ storedInt first)
    (other : ¬IsIncreasing text)

theorem cString_empty (text : Bytes) (nonempty : text ≠ []) : cString text = [] ↔ text.head? = some 0 := by
  obtain ⟨c,rest,rfl⟩ := List.exists_cons_of_ne_nil nonempty
  by_cases nul : c = 0
  · simp [cString,nul]
  · simp [cString,nul]

inductive Read (text : Bytes) : Scan → Prop
  | empty (nul : cString text = []) : Read text .endOfInput
  | nothing (some : cString text ≠ []) (none : leadingNumber text = none) : Read text .nothing
  | one (low : Int) (rest : Bytes) (first : leadingNumber text = some (low,rest))
    (alone : ∀ second, rest = 45 :: second → leadingNumber second = none) : Read text (.one (storedInt low))
  | two (low high : Int) (second rest : Bytes) (first : leadingNumber text = some (low,45 :: second))
    (last : leadingNumber second = some (high,rest)) : Read text (.two (storedInt low) (storedInt high))

theorem scanTimes_read (text : Bytes) (clear : ∀ c ∈ text, isSpace c = false) : Read text (scanTimes text) := by
  by_cases nul : cString text = []
  · rw [scanTimes_empty text nul]
    exact .empty nul
  cases first : leadingNumber text with
  | none =>
    rw [scanTimes_nothing text clear nul first]
    exact .nothing nul first
  | some number =>
    obtain ⟨low,rest⟩ := number
    by_cases alone : ∀ second, rest = 45 :: second → leadingNumber second = none
    · rw [scanTimes_one text clear low rest first alone]
      exact .one low rest first alone
    · push Not at alone
      obtain ⟨second,rfl,found⟩ := alone
      obtain ⟨⟨high,others⟩,last⟩ := Option.ne_none_iff_exists'.mp found
      rw [scanTimes_two text clear low high second others first last]
      exact .two low high second others first last

section
variable (text : Bytes) (draws : Draws)

theorem time_one (min : Int) (scan : scanTimes text = .one min) :
    getTimeFromString text draws = .ok (min,draws) := by
  unfold getTimeFromString
  rw [scan]
  rfl

theorem time_two (min max : Int) (scan : scanTimes text = .two min max) (ordered : min < max) :
    getTimeFromString text draws = .ok (uniformInt min max draws.first,draws.rest) := by
  unfold getTimeFromString
  rw [scan]
  exact if_neg (by omega)

theorem time_falling (min max : Int) (scan : scanTimes text = .two min max) (ordered : max ≤ min) :
    getTimeFromString text draws = .error .exit := by
  unfold getTimeFromString
  rw [scan]
  exact if_pos ordered

theorem time_nothing (scan : scanTimes text = .nothing) : getTimeFromString text draws = .error .exit := by
  unfold getTimeFromString
  rw [scan]
  rfl

theorem time_empty (scan : scanTimes text = .endOfInput) : getTimeFromString text draws = .error .uninitialised := by
  unfold getTimeFromString
  rw [scan]
  rfl

end

theorem interval_not_decimal (text low high : Bytes) (interval : IsInterval text low high) : ¬IsDecimal text := by
  intro decimal
  have whole := leadingNumber_whole text decimal
  rw [leadingNumber_interval text low high interval] at whole
  cases (Prod.mk.inj (Option.some.inj whole)).2

theorem not_increasing_decimal (text : Bytes) (form : IsDecimal text) : ¬IsIncreasing text := by
  rintro ⟨low,high,interval,_⟩
  exact interval_not_decimal text low high interval form

section
variable (text : Bytes) (nonempty : text ≠ []) (clear : ∀ c ∈ text, isSpace c = false)
include clear

theorem scanTimes_decimal (form : IsDecimal text) : scanTimes text = .one (storedInt (digitsValue text)) :=
  scanTimes_one text clear _ [] (leadingNumber_whole text form) (by simp)

theorem scanTimes_interval (low high : Bytes) (form : IsInterval text low high) :
    scanTimes text = .two (storedInt (digitsValue low)) (storedInt (digitsValue high)) :=
  scanTimes_two text clear _ _ high [] (leadingNumber_interval text low high form) (leadingNumber_whole high form.2.1)

include nonempty

theorem regular_of_kept (kept : Kept text (getTimeFromString text fun _ => 0)) : Regular text := by
  have read := scanTimes_read text clear
  by_cases decimal : IsDecimal text
  · obtain ⟨rest,result⟩ := kept.number decimal
    rw [time_one text _ _ (scanTimes_decimal text clear decimal)] at result
    have same := (Prod.mk.inj (Except.ok.inj result)).1
    have bound := (storedInt_le (digitsValue text) (Int.natCast_nonneg _)).2
    exact .number decimal (by omega)
  by_cases increasing : IsIncreasing text
  · obtain ⟨low,high,form,ordered⟩ := increasing
    obtain ⟨time,rest,result,least,_⟩ := kept.interval low high form ordered
    have scan := scanTimes_interval text clear low high form
    by_cases above : storedInt (digitsValue low) < storedInt (digitsValue high)
    · rw [time_two text _ _ _ scan above] at result
      have same := (Prod.mk.inj (Except.ok.inj result)).1
      rw [Draws.first,uniformInt_zero] at same
      have bound := storedInt_le (digitsValue low) (Int.natCast_nonneg _)
      exact .interval low high form (by omega) (by omega)
    · rw [time_falling text _ _ _ scan (by omega)] at result
      cases result
  · have rejected := kept.other decimal increasing
    generalize scan : scanTimes text = found at read
    cases read with
    | empty nul =>
      rw [time_empty text _ scan] at rejected
      cases rejected
    | nothing plain none => exact .nothing (fun nul => plain ((cString_empty text nonempty).mpr nul)) none
    | one low rest first alone =>
      rw [time_one text _ _ scan] at rejected
      cases rejected
    | two low high second rest first last =>
      by_cases above : storedInt low < storedInt high
      · rw [time_two text _ _ _ scan above] at rejected
        cases rejected
      · exact .falling low high second rest first last (by omega) increasing

theorem kept_of_regular (regular : Regular text) (draws : Draws) : Kept text (getTimeFromString text draws) := by
  cases regular with
  | number form small =>
    have stored := storedInt_small (digitsValue text) (Int.natCast_nonneg _) (by omega)
    have scan := scanTimes_decimal text clear form
    rw [stored] at scan
    rw [time_one text draws _ scan]
    exact ⟨fun _ => ⟨draws,rfl⟩,
      fun low high interval ordered => absurd ⟨low,high,interval,ordered⟩ (not_increasing_decimal text form),
      fun other => absurd form other⟩
  | interval low high form small above =>
    have stored := storedInt_small (digitsValue low) (Int.natCast_nonneg _) (by omega)
    have bound := storedInt_le (digitsValue high) (Int.natCast_nonneg _)
    have scan := scanTimes_interval text clear low high form
    have first := leadingNumber_interval text low high form
    have increasing : IsIncreasing text := ⟨low,high,form,by omega⟩
    rw [stored] at scan
    have range := uniformInt_range (digitsValue low) (storedInt (digitsValue high)) (by omega) draws.first
    rw [time_two text draws _ _ scan above]
    refine ⟨fun decimal => absurd increasing (not_increasing_decimal text decimal),?_,fun _ other => absurd increasing other⟩
    intro low' high' form' _
    have same := first.symm.trans (leadingNumber_interval text low' high' form')
    obtain ⟨lower,tail⟩ := Prod.mk.inj (Option.some.inj same)
    obtain rfl := (List.cons.inj tail).2
    exact ⟨_,_,rfl,by omega,by omega⟩
  | nothing plain none =>
    have scan := scanTimes_nothing text clear (fun nul => plain ((cString_empty text nonempty).mp nul)) none
    rw [time_nothing text draws scan]
    refine ⟨fun decimal => ?_,fun low high interval _ => ?_,fun _ _ => rfl⟩
    · rw [leadingNumber_whole text decimal] at none
      cases none
    · rw [leadingNumber_interval text low high interval] at none
      cases none
  | falling first second rest others form last ordered other =>
    rw [time_falling text draws _ _ (scanTimes_two text clear first second rest others form last) ordered]
    refine ⟨fun decimal => ?_,fun low high interval below => absurd ⟨low,high,interval,below⟩ other,fun _ _ => rfl⟩
    rw [leadingNumber_whole text decimal] at form
    cases (Prod.mk.inj (Option.some.inj form)).2

end

/-- A word is treated as promised, whatever is drawn, exactly when it is regular. -/
theorem getTimeFromString_kept_iff (text : Bytes) (nonempty : text ≠ []) (clear : ∀ c ∈ text, isSpace c = false) :
    (∀ draws, Kept text (getTimeFromString text draws)) ↔ Regular text :=
  ⟨fun kept => regular_of_kept text nonempty clear (kept _),kept_of_regular text nonempty clear⟩

theorem range_kept : IsInterval (ascii "3-7") (ascii "3") (ascii "7") ∧
    ∀ draws, Kept (ascii "3-7") (getTimeFromString (ascii "3-7") draws) := by
  have low : IsDecimal (ascii "3") := ⟨by decide,List.all_eq_true.mp (by decide)⟩
  have high : IsDecimal (ascii "7") := ⟨by decide,List.all_eq_true.mp (by decide)⟩
  have form : IsInterval (ascii "3-7") (ascii "3") (ascii "7") := ⟨low,high,by decide⟩
  refine ⟨form,(getTimeFromString_kept_iff (ascii "3-7") (by decide) (clear_of_any (by decide))).mpr ?_⟩
  exact .interval (ascii "3") (ascii "7") form (by decide) (by decide)

/-- A number with other characters behind it. -/
theorem trailing_accepted : ascii "5abc" ≠ [] ∧ (∀ c ∈ ascii "5abc", isSpace c = false) ∧
    ∀ draws, getTimeFromString (ascii "5abc") draws = .ok (5,draws) ∧
      ¬Kept (ascii "5abc") (getTimeFromString (ascii "5abc") draws) := by
  have number : leadingNumber (ascii "5abc") = some (5,ascii "abc") := by decide
  refine ⟨by decide,clear_of_any (by decide),fun draws => ?_⟩
  have result : getTimeFromString (ascii "5abc") draws = .ok (5,draws) := time_one _ draws 5 (by decide)
  refine ⟨result,fun kept => ?_⟩
  have rejected := kept.other (fun decimal => absurd (decimal.2 97 (by decide)) (by decide)) (by
    rintro ⟨low,high,interval,_⟩
    rw [leadingNumber_interval _ low high interval] at number
    cases (Prod.mk.inj (Option.some.inj number)).2)
  rw [result] at rejected
  cases rejected

end Utils
end Dhtperf
