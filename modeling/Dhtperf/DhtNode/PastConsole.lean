import Dhtperf.DhtNode.Consoles
import Dhtperf.DhtNode.RWPopen

/-! The console program behind the PastConsole wrapper: it prompts, reads a line, cuts it into
words and runs a command. What the DHT answers, and whether it answers before the console
says that it waits, comes from outside. -/
namespace Dhtperf
open Library

/-- `receiveResult` or `receiveException` of a put: how many replicas have stored the key. -/
inductive PutResult
  | stored (successes : Nat)
  | failed
  deriving DecidableEq

/-- The same of a get; `null` stands for a key without a value. -/
inductive GetResult
  | found (content : Bytes)
  | missing
  | failed
  deriving DecidableEq

inductive PastCall
  | put (key value : Bytes) (result : PutResult)
  | get (key : Bytes) (result : GetResult)
  deriving DecidableEq

def PutResult.line : PutResult → Bytes
  | .stored successes => decimal successes ++ ascii " keys stored successfully"
  | .failed => ascii "Error storing key"

def GetResult.line : GetResult → Bytes
  | .found content => ascii "Value: " ++ content
  | .missing => ascii "Not found"
  | .failed => ascii "Error storing key"

def GetResult.isFound : GetResult → Bool
  | .found _ => true
  | _ => false

namespace PastConsole

/-- `line.split("[ ]+")`: empty words only stand in front. -/
def words (line : Bytes) : List Bytes :=
  match line.splitOn 32 with
  | [] => []
  | [word] => [word]
  | first :: rest =>
    let rest := rest.filter (· ≠ [])
    if first = [] ∧ rest = [] then [] else first :: rest

inductive Command
  | put (key value : Bytes)
  | get (key : Bytes)
  | exit
  | unrecognized (word : Bytes)
  /-- `words[0]` of a line of spaces. -/
  | outOfBounds
  deriving DecidableEq

def command (line : Bytes) : Command :=
  match words line with
  | [] => .outOfBounds
  | first :: rest =>
    match rest with
    | key :: value :: more =>
      if first = ascii "put" then .put key ([32].intercalate (value :: more))
      else if line = ascii "exit" then .exit
      else .unrecognized first
    | [key] =>
      if first = ascii "get" then .get key
      else if line = ascii "exit" then .exit
      else .unrecognized first
    | [] => if line = ascii "exit" then .exit else .unrecognized first

/-- `scanner.nextLine()`: it needs the character behind a carriage return. -/
def nextLine (input : Bytes) : Option (Bytes × Bytes) :=
  let line := input.takeWhile fun c => c ≠ 10 ∧ c ≠ 13
  match input.drop line.length with
  | 10 :: rest => some (line,rest)
  | 13 :: 10 :: rest => some (line,rest)
  | 13 :: other :: rest => some (line,other :: rest)
  | _ => none

def prompt : Bytes := ascii "pc$"

/-- The result is printed by another thread, before or after the first line of `waitDone`. -/
def waitDone (early : Bool) (result : Bytes) : List Bytes :=
  if early then [result,ascii "Waiting...",ascii "... wait finished."]
  else [ascii "Waiting...",result,ascii "... wait finished."]

def usage : List Bytes :=
  [ascii "Usage: ",
    ascii "java [-cp FreePastry-<version>.jar] dhtperf.pastry.PastConsole localbindport bootIp bootPort",
    ascii "Example: java dhtperf.pastry.PastConsole 9001 localhost 9000",
    ascii "To bootstrap a new network, just pass 'bootstrap' as the bootIp"]

structure Reaction where
  put : PutResult
  get : GetResult
  early : Bool

end PastConsole

/-- The lines that are still to be printed, whether more will follow, and the calls made. -/
structure PastConsole where
  pending : List Bytes
  running : Bool
  calls : List PastCall

namespace PastConsole

/-- The constructor joins the ring, or throws. -/
def start : Option Bytes → PastConsole
  | some node => ⟨[ascii "Finished creating new node " ++ node,prompt],true,[]⟩
  | none => ⟨usage,false,[]⟩

/-- One pass of the loop in `Run`, from the line to the next prompt. -/
def run (console : PastConsole) (reaction : Reaction) (line : Bytes) : PastConsole :=
  match command line with
  | .put key value =>
    ⟨waitDone reaction.early reaction.put.line ++ [prompt],true,
      console.calls ++ [.put key value reaction.put]⟩
  | .get key =>
    ⟨waitDone reaction.early reaction.get.line ++ [prompt],true,
      console.calls ++ [.get key reaction.get]⟩
  | .exit => ⟨[ascii "Bye!"],false,console.calls⟩
  | .unrecognized word => ⟨[ascii "Unrecognized command: " ++ word,prompt],true,console.calls⟩
  | .outOfBounds => ⟨usage,false,console.calls⟩

/-! ### Reading the wrapper's commands -/

/-- A word as it stands in a workload file, in characters that every charset of a Java
program has. -/
structure Word (word : Bytes) : Prop where
  nonempty : word ≠ []
  plain : ∀ c ∈ word, c ≠ 32 ∧ c ≠ 10 ∧ c ≠ 13 ∧ c < 128

instance (word : Bytes) : Decidable (Word word) :=
  decidable_of_iff (word ≠ [] ∧ word.all (fun c => c != 32 && (c != 10 && (c != 13 && decide (c < 128)))) = true)
    ⟨fun ⟨nonempty,plain⟩ => ⟨nonempty,by simpa using plain⟩,fun ⟨nonempty,plain⟩ => ⟨nonempty,by simpa using plain⟩⟩

/-- A line that a newline ends and nothing before it. -/
def Unbroken (line : Bytes) : Prop := ∀ c ∈ line, c ≠ 10 ∧ c ≠ 13

instance (line : Bytes) : Decidable (Unbroken line) :=
  decidable_of_iff (line.all (fun c => c != 10 && c != 13) = true) (by simp [Unbroken])

theorem words_intercalate (first second : Bytes) (rest : List Bytes) (some : first ≠ [])
    (each : ∀ word ∈ second :: rest, word ≠ [] ∧ 32 ∉ word) (plain : 32 ∉ first) :
    words ([32].intercalate (first :: second :: rest)) = first :: second :: rest := by
  have clear : ∀ word ∈ first :: second :: rest, 32 ∉ word := by
    intro word member
    rcases List.mem_cons.mp member with rfl | other
    · exact plain
    · exact (each word other).2
  have split := List.splitOn_intercalate 32 clear (List.cons_ne_nil _ _)
  have kept : (second :: rest).filter (· ≠ []) = second :: rest :=
    List.filter_eq_self.mpr fun word member => decide_eq_true (each word member).1
  unfold words
  rw [split]
  simp only [kept,some,false_and,if_false]

theorem command_put (key value : Bytes) (named : Word key) (valued : Word value) :
    command (ascii "put " ++ key ++ [32] ++ value) = .put key value := by
  have line : ascii "put " ++ key ++ [32] ++ value = [32].intercalate [ascii "put",key,value] := by
    simp [List.intercalate_cons_cons,ascii]
  have cut := words_intercalate (ascii "put") key [value] (by decide) (by
    intro word member
    simp only [List.mem_cons,List.not_mem_nil,or_false] at member
    rcases member with rfl | rfl
    · exact ⟨named.nonempty,fun space => (named.plain 32 space).1 rfl⟩
    · exact ⟨valued.nonempty,fun space => (valued.plain 32 space).1 rfl⟩) (by decide)
  unfold command
  rw [line,cut]
  simp

theorem command_get (key : Bytes) (named : Word key) : command (ascii "get " ++ key) = .get key := by
  have line : ascii "get " ++ key = [32].intercalate [ascii "get",key] := by
    simp [List.intercalate_cons_cons,ascii]
  have cut := words_intercalate (ascii "get") key [] (by decide) (by
    intro word member
    rw [List.mem_singleton.mp member]
    exact ⟨named.nonempty,fun space => (named.plain 32 space).1 rfl⟩) (by decide)
  unfold command
  rw [line,cut]
  simp

theorem nextLine_line (line rest : Bytes) (plain : Unbroken line) :
    nextLine (line ++ 10 :: rest) = some (line,rest) := by
  have whole : (line ++ 10 :: rest).takeWhile (fun c => decide (c ≠ 10 ∧ c ≠ 13)) = line := by
    rw [List.takeWhile_append_of_pos fun c member => decide_eq_true (plain c member)]
    simp
  unfold nextLine
  simp only [whole,List.drop_left]

/-! ### What the wrapper reads of it -/

def Whole (line : Bytes) : Prop := 10 ∉ line ∧ line ≠ []

theorem put_whole (result : PutResult) : Whole result.line := by
  cases result with
  | stored successes =>
    refine ⟨?_,List.append_ne_nil_of_left_ne_nil (decimal_ne_nil successes) _⟩
    intro newline
    rcases List.mem_append.mp newline with digit | text
    · exact absurd (decimal_digits successes 10 digit) (by decide)
    · revert text
      decide
  | failed => exact ⟨by decide,by decide⟩

theorem get_whole (result : GetResult) (one : ∀ content, result = .found content → 10 ∉ content) :
    Whole result.line := by
  cases result with
  | found content =>
    refine ⟨?_,List.append_ne_nil_of_left_ne_nil (by decide) _⟩
    intro newline
    rcases List.mem_append.mp newline with text | inside
    · revert text
      decide
    · exact one content rfl inside
  | missing => exact ⟨by decide,by decide⟩
  | failed => exact ⟨by decide,by decide⟩

theorem waitDone_whole (early : Bool) (result : Bytes) (whole : Whole result) :
    ∀ line ∈ waitDone early result ++ [prompt], Whole line := by
  have waiting : Whole (ascii "Waiting...") := ⟨by decide,by decide⟩
  have finished : Whole (ascii "... wait finished.") := ⟨by decide,by decide⟩
  have prompted : Whole prompt := ⟨by decide,by decide⟩
  cases early <;> simp [waitDone,waiting,finished,prompted,whole]

theorem stripped_append (front back : Bytes) (more : back ≠ []) (other : back.getLast? ≠ some 13) :
    RWPopen.stripped (front ++ back) = front ++ back := by
  have last : (front ++ back).getLast? = back.getLast? := by
    cases here : back.getLast? with
    | none => exact absurd (List.getLast?_eq_none_iff.mp here) more
    | some c => simp [List.getLast?_append,here]
  rw [RWPopen.stripped,last,if_neg other]

theorem put_other (result : PutResult) : RWPopen.stripped result.line ≠ prompt := by
  cases result with
  | stored successes =>
    rw [PutResult.line,stripped_append _ _ (by decide) (by decide)]
    intro same
    have last := congrArg List.getLast? same
    have ends : (ascii " keys stored successfully").getLast? = some 121 := by decide
    rw [List.getLast?_append,ends,Option.some_or] at last
    exact absurd last (by decide)
  | failed => decide

theorem stripped_header (header content : Bytes) (other : header.getLast? ≠ some 13) :
    ∃ rest, RWPopen.stripped (header ++ content) = header ++ rest := by
  unfold RWPopen.stripped
  split
  next ended =>
    have more : content ≠ [] := by
      rintro rfl
      exact other (by rwa [List.append_nil] at ended)
    exact ⟨content.dropLast,List.dropLast_append_of_ne_nil more⟩
  next => exact ⟨content,rfl⟩

theorem get_found (result : GetResult) :
    ConsoleDht.found .pastConsole (RWPopen.stripped result.line) = result.isFound := by
  cases result with
  | found content =>
    obtain ⟨rest,kept⟩ := stripped_header (ascii "Value: ") content (by decide)
    rw [GetResult.line,kept,ConsoleDht.found,comparesTo,List.take_append_of_le_length (by decide)]
    rfl
  | missing => decide
  | failed => decide

theorem get_other (result : GetResult) : RWPopen.stripped result.line ≠ prompt := by
  cases result with
  | found content =>
    obtain ⟨rest,kept⟩ := stripped_header (ascii "Value: ") content (by decide)
    rw [GetResult.line,kept]
    intro same
    exact absurd (congrArg List.head? same) (by simp [ascii,prompt])
  | missing => decide
  | failed => decide

theorem waitDone_put (early : Bool) (result : PutResult) :
    ConsoleDht.waitPromptIn prompt ((waitDone early result.line ++ [prompt]).map RWPopen.stripped) = some [] := by
  have other := put_other result
  have shape : (waitDone early result.line ++ [prompt]).map RWPopen.stripped =
      (waitDone early result.line).map RWPopen.stripped ++ prompt :: [] := by
    rw [List.map_append]
    rfl
  rw [shape]
  apply ConsoleDht.waitPromptIn_first
  cases early <;> simp [waitDone,Ne.symm other] <;> decide

theorem waitDone_get (early : Bool) (result : GetResult) :
    ConsoleDht.readBeside (ConsoleDht.found .pastConsole) prompt false
      ((waitDone early result.line ++ [prompt]).map RWPopen.stripped) = some (result.isFound,[]) := by
  have value := get_found result
  have other := get_other result
  have waiting : RWPopen.stripped (ascii "Waiting...") = ascii "Waiting..." := by decide
  have finished : RWPopen.stripped (ascii "... wait finished.") = ascii "... wait finished." := by decide
  have prompted : RWPopen.stripped prompt = prompt := by decide
  have plain : ConsoleDht.found .pastConsole (ascii "Waiting...") = false ∧ ascii "Waiting..." ≠ prompt := by decide
  have behind : ConsoleDht.found .pastConsole (ascii "... wait finished.") = false ∧
      ascii "... wait finished." ≠ prompt := by decide
  have quiet : ConsoleDht.found .pastConsole prompt = false := by decide
  cases found : result.isFound <;> rw [found] at value <;> cases early <;>
    simp [waitDone,ConsoleDht.readBeside,waiting,finished,prompted,plain,behind,quiet,value,other]

theorem start_prompt (node : Bytes) :
    ConsoleDht.waitPromptIn prompt ([ascii "Finished creating new node " ++ node,prompt].map RWPopen.stripped) =
      some [] := by
  obtain ⟨rest,kept⟩ := stripped_header (ascii "Finished creating new node ") node (by decide)
  have other : ascii "Finished creating new node " ++ rest ≠ prompt := by
    intro same
    exact absurd (congrArg List.head? same) (by simp [ascii,prompt])
  have last : RWPopen.stripped prompt = prompt := by decide
  simp [ConsoleDht.waitPromptIn,kept,other,last]

end PastConsole
end Dhtperf
