import Dhtperf.Basic

/-! How the output of a wrapped program is cut into lines: byte by byte, each line without its
newline and without one carriage return before it. The input is what the program writes
until it closes its end of the pipe. -/
namespace Dhtperf
open Library

namespace RWPopen

inductive Failure
  /-- `RWPopenEOF`. -/
  | eof
  | fault (fault : Fault)
  deriving DecidableEq

/-- The loop with the line so far; `'\n'` is 10 and `'\r'` is 13. -/
def readlineFrom (ret : Bytes) : Bytes → Except Failure Bytes × Bytes
  | [] => (.error .eof,[])
  | buf :: input =>
    if buf = 10 then
      match ret.getLast? with
      -- `ret[ret.size()-1]` when the size is zero.
      | none => (.error (.fault .outOfRange),input)
      | some last => (.ok (if last = 13 then ret.dropLast else ret),input)
    else readlineFrom (ret ++ [buf]) input

def readline (input : Bytes) : Except Failure Bytes × Bytes := readlineFrom [] input

/-- The results of a number of calls. Nothing is said about a program after a fault. -/
def readlines : Nat → Bytes → List (Except Failure Bytes)
  | 0,_ => []
  | calls+1,input =>
    match readline input with
    | (.error (.fault fault),_) => [.error (.fault fault)]
    | (result,rest) => result :: readlines calls rest

/-! ### The lines of the input -/

def rawLines (input : Bytes) : List Bytes := (input.splitOn 10).dropLast

def stripped (line : Bytes) : Bytes := if line.getLast? = some 13 then line.dropLast else line

theorem rawLines_none (input : Bytes) (none : 10 ∉ input) : rawLines input = [] := by
  rw [rawLines,List.splitOn_eq_singleton none]
  rfl

theorem rawLines_cons (line rest : Bytes) (clear : 10 ∉ line) :
    rawLines (line ++ 10 :: rest) = line :: rawLines rest := by
  rw [rawLines,List.splitOn_append_cons_self,List.splitOn_eq_singleton clear,List.singleton_append,
    List.dropLast_cons_of_ne_nil (List.splitOn_ne_nil 10 rest)]
  rfl

theorem input_cases (input : Bytes) : 10 ∉ input ∨ ∃ line rest, 10 ∉ line ∧ input = line ++ 10 :: rest := by
  by_cases ends : 10 ∈ input
  · obtain ⟨line,rest,same,first⟩ := List.eq_append_cons_of_mem ends
    exact Or.inr ⟨line,rest,first,same⟩
  · exact Or.inl ends

theorem readlineFrom_none (ret input : Bytes) (none : 10 ∉ input) : readlineFrom ret input = (.error .eof,[]) := by
  induction input generalizing ret with
  | nil => rfl
  | cons buf input ih =>
    have other : buf ≠ 10 := fun same => none (by rw [same]; exact List.mem_cons_self)
    rw [readlineFrom,if_neg other]
    exact ih _ fun member => none (List.mem_cons_of_mem _ member)

theorem readlineFrom_line (ret line rest : Bytes) (clear : 10 ∉ line) :
    readlineFrom ret (line ++ 10 :: rest) =
      if ret ++ line = [] then (.error (.fault .outOfRange),rest) else (.ok (stripped (ret ++ line)),rest) := by
  induction line generalizing ret with
  | nil =>
    rw [List.nil_append,List.append_nil,readlineFrom,if_pos rfl,stripped]
    cases last : ret.getLast? with
    | none => rw [if_pos (List.getLast?_eq_none_iff.mp last)]
    | some c =>
      have some : ret ≠ [] := fun none => by simp [none] at last
      rw [if_neg some]
      simp
  | cons buf line ih =>
    have other : buf ≠ 10 := fun same => clear (by rw [same]; exact List.mem_cons_self)
    rw [List.cons_append,readlineFrom,if_neg other,ih _ fun member => clear (List.mem_cons_of_mem _ member),
      List.append_assoc,List.singleton_append]

/-! ### Successive calls -/

/-- What the calls should return: the lines in their order, then the end of the input. -/
def expected (calls : Nat) (lines : List Bytes) : List (Except Failure Bytes) :=
  (lines.map fun line => .ok (stripped line)).take calls ++ List.replicate (calls - lines.length) (.error .eof)

theorem readlines_end (calls : Nat) (input : Bytes) (none : 10 ∉ input) :
    readlines calls input = List.replicate calls (.error .eof) := by
  induction calls generalizing input with
  | zero => rfl
  | succ calls ih =>
    rw [readlines,readline,readlineFrom_none [] input none,List.replicate_succ]
    exact congrArg _ (ih [] List.not_mem_nil)

theorem readlines_line (calls : Nat) (line rest : Bytes) (clear : 10 ∉ line) (some : line ≠ []) :
    readlines (calls+1) (line ++ 10 :: rest) = .ok (stripped line) :: readlines calls rest := by
  rw [readlines,readline,readlineFrom_line [] line rest clear,List.nil_append,if_neg some]

theorem readlines_expected (input : Bytes) (some : [] ∉ rawLines input) (calls : Nat) :
    readlines calls input = expected calls (rawLines input) := by
  induction calls generalizing input with
  | zero => simp [readlines,expected]
  | succ calls ih =>
    rcases input_cases input with none | ⟨line,rest,clear,rfl⟩
    · rw [readlines_end _ input none,rawLines_none input none]
      rfl
    · rw [rawLines_cons line rest clear] at some ⊢
      obtain ⟨here,others⟩ := not_or.mp (List.mem_cons.not.mp some)
      rw [readlines_line calls line rest clear (Ne.symm here),ih rest others]
      simp [expected]

/-- The lines a program writes are the lines that are read, unless one is empty or ends in a
carriage return. -/
theorem readlines_written (lines : List Bytes)
    (plain : ∀ line ∈ lines, line ≠ [] ∧ 10 ∉ line ∧ line.getLast? ≠ some 13) :
    readlines lines.length (lines.flatMap (· ++ [10])) = lines.map .ok := by
  induction lines with
  | nil => rfl
  | cons line lines ih =>
    obtain ⟨some,clear,bare⟩ := plain line List.mem_cons_self
    rw [List.flatMap_cons,List.append_assoc,List.singleton_append,List.length_cons,
      readlines_line _ line _ clear some,ih fun other member => plain other (List.mem_cons_of_mem _ member),
      stripped,if_neg bare,List.map_cons]

theorem readlines_fault (input : Bytes) (empty : [] ∈ rawLines input) :
    .error (.fault .outOfRange) ∈ readlines (rawLines input).length input := by
  induction lines : rawLines input generalizing input with
  | nil =>
    rw [lines] at empty
    cases empty
  | cons first others ih =>
    rcases input_cases input with none | ⟨line,rest,clear,rfl⟩
    · rw [rawLines_none input none] at lines
      cases lines
    · rw [rawLines_cons line rest clear] at lines empty
      cases lines
      by_cases here : first = []
      · subst here
        rw [List.length_cons,readlines,readline,readlineFrom_line [] [] rest clear]
        exact List.mem_cons_self
      · rw [List.length_cons,readlines_line _ first rest clear here]
        rcases List.mem_cons.mp empty with same | later
        · exact absurd same.symm here
        · exact List.mem_cons_of_mem _ (ih rest later rfl)

/-- The calls return the lines in order and then raise the end of the input, and none of
them reads its string out of range. -/
def Delivers (input : Bytes) : Prop :=
  ∀ calls, readlines calls input = expected calls (rawLines input) ∧
    .error (.fault .outOfRange) ∉ readlines calls input

theorem expected_safe (calls : Nat) (lines : List Bytes) : .error (.fault .outOfRange) ∉ expected calls lines := by
  intro member
  rcases List.mem_append.mp member with line | last
  · obtain ⟨_,_,same⟩ := List.mem_map.mp (List.mem_of_mem_take line)
    cases same
  · cases List.eq_of_mem_replicate last

/-- The lines are delivered exactly when none of them is empty. -/
theorem delivers_iff (input : Bytes) : Delivers input ↔ ∀ line ∈ rawLines input, line ≠ [] := by
  constructor
  · intro delivers line member empty
    subst empty
    exact (delivers _).2 (readlines_fault input member)
  · intro some calls
    have lines := readlines_expected input (fun empty => some [] empty rfl) calls
    refine ⟨lines,?_⟩
    rw [lines]
    exact expected_safe calls _

/-- The answer of a console to a key without values. -/
theorem blank_line_faults : ¬Delivers (ascii "Values associated with key 'x':\n\noc >\n") := by
  intro delivers
  exact (delivers 2).2 (by decide)

end RWPopen
end Dhtperf
