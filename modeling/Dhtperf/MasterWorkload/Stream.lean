import Dhtperf.MasterWorkload.Rejections
import Dhtperf.Library.Splitting
import Mathlib.Data.List.TakeWhile

/-! How `loadConfig` reads its file: a stream with its flags, the loop over the lines and
inside it the loop that joins continued lines. A stream that ends is read to its end; on
a stream that fails the outer loop goes on with the line it has. -/
namespace Dhtperf
open Library

/-- The characters a stream has not read yet, whether the read behind them fails or finds
the end of the file, and the flags. -/
structure FileStream where
  rest : Bytes
  failing : Bool
  eofbit : Bool
  badbit : Bool
  ended : eofbit = true → failing = false
  failed : badbit = true → failing = true

namespace FileStream

def opened (content : Bytes) (failing : Bool) : FileStream := ⟨content,failing,false,false,nofun,nofun⟩

def good (stream : FileStream) : Bool := !stream.eofbit && !stream.badbit

/-- A stream that is not good leaves the string alone. The end of the file also ends a
line, a failed read leaves nothing of it. -/
def getline (stream : FileStream) (line : Bytes) : Bytes × FileStream :=
  if stream.good then
    match stream.rest.dropWhile (· ≠ 10) with
    | _ :: rest => (stream.rest.takeWhile (· ≠ 10),{stream with rest := rest})
    | [] =>
      if fails : stream.failing = true then ([],{stream with rest := [], badbit := true, failed := fun _ => fails})
      else (stream.rest,{stream with rest := [], eofbit := true, ended := fun _ => Bool.eq_false_iff.mpr fails})
  else (line,stream)

/-- What the calls of `getline` that are still good are going to return. -/
def pieces (stream : FileStream) : List Bytes :=
  if stream.good then
    if stream.failing then (stream.rest.splitOn 10).dropLast ++ [[]] else stream.rest.splitOn 10
  else []

theorem getline_bad (stream : FileStream) (line : Bytes) (bad : stream.good = false) :
    stream.getline line = (line,stream) := by
  rw [getline,if_neg (by simp [bad])]

theorem pieces_bad (stream : FileStream) (bad : stream.good = false) : stream.pieces = [] := by
  rw [pieces,if_neg (by simp [bad])]

theorem pieces_good (stream : FileStream) (good : stream.good = true) : stream.pieces ≠ [] := by
  rw [pieces,if_pos good]
  split
  · simp
  · exact List.splitOn_ne_nil _ _

theorem eof_bad (stream : FileStream) (bad : stream.good = false) : stream.eofbit = !stream.failing := by
  obtain ⟨rest,failing,eofbit,badbit,ended,failed⟩ := stream
  cases eofbit with
  | true => simp [ended rfl]
  | false =>
    cases badbit with
    | true => simp [failed rfl]
    | false => cases bad

theorem eof_good (stream : FileStream) (good : stream.good = true) : stream.eofbit = false := by
  rw [FileStream.good,Bool.and_eq_true] at good
  simpa using good.1

theorem pieces_rest (stream : FileStream) (rest : Bytes) (good : stream.good = true) :
    ({stream with rest := rest} : FileStream).pieces =
      if stream.failing then (rest.splitOn 10).dropLast ++ [[]] else rest.splitOn 10 :=
  if_pos good

theorem getline_pieces (stream : FileStream) (line : Bytes) (good : stream.good = true) :
    stream.pieces = (stream.getline line).1 :: (stream.getline line).2.pieces ∧
      (stream.getline line).2.failing = stream.failing := by
  have whole := List.takeWhile_append_dropWhile (p := (· ≠ (10 : UInt8))) (l := stream.rest)
  have plain : 10 ∉ stream.rest.takeWhile (· ≠ 10) := fun newline => by simpa using List.mem_takeWhile_imp newline
  rw [pieces,getline,if_pos good,if_pos good]
  cases later : stream.rest.dropWhile (· ≠ 10) with
  | nil =>
    rw [later,List.append_nil] at whole
    rw [whole] at plain
    rw [List.splitOn_eq_singleton plain]
    by_cases fails : stream.failing = true
    · rw [if_pos fails,dif_pos fails,pieces_bad _ (by simp [FileStream.good])]
      exact ⟨rfl,rfl⟩
    · rw [if_neg fails,dif_neg fails,pieces_bad _ (by simp [FileStream.good])]
      exact ⟨rfl,rfl⟩
  | cons newline rest =>
    have stops := List.head?_dropWhile_not (fun c : UInt8 => decide (c ≠ 10)) stream.rest
    rw [later] at stops
    obtain rfl : newline = 10 := by simpa using stops
    rw [later] at whole
    have split := List.splitOn_append_cons_self_of_not_mem plain rest
    rw [whole] at split
    refine ⟨?_,rfl⟩
    simp only
    rw [split,pieces_rest stream rest good,List.dropLast_cons_of_ne_nil (List.splitOn_ne_nil _ _)]
    cases stream.failing <;> rfl

end FileStream

namespace MasterWorkload

/-! ### The loops -/

/-- The inner loop. No result means that the fuel is used up. -/
def continueLine : Nat → Bytes → FileStream → Option (Bytes × FileStream)
  | 0,_,_ => none
  | fuel+1,line,stream =>
    if line.getLast? = some 92 then
      let (nextLine,stream) := stream.getline []
      continueLine fuel (line.dropLast ++ nextLine) stream
    else some (line,stream)

/-- The outer loop; `line` keeps its value from one turn to the next. -/
def readLines : Nat → Reader → Bytes → FileStream → Option (Except Fault (Option Reader))
  | 0,_,_,_ => none
  | fuel+1,reader,line,stream =>
    if stream.eofbit then some (pure (some reader))
    else
      match continueLine fuel (stream.getline line).1 (stream.getline line).2 with
      | none => none
      | some (line,stream) =>
        match processConfigLine reader line with
        | .error fault => some (throw fault)
        | .ok none => some (pure none)
        | .ok (some reader) => readLines fuel reader line stream

def start (nodes : UInt32) : Reader := ⟨⟨nodes,0,[],fun _ => none⟩,none⟩

/-- `loadConfig` on a stream: the loops, then the checks. -/
def load (fuel : Nat) (stream : FileStream) (nodes : UInt32) : Option (Except Fault (Option MasterWorkload)) :=
  (readLines fuel (start nodes) [] stream).map fun read => do
    match ← read with
    | none => pure none
    | some reader => pure (if reader.workload.valid then some reader.workload else none)

theorem continueLine_more (fuel more : Nat) (line : Bytes) (stream : FileStream) (result : Bytes × FileStream)
    (done : continueLine fuel line stream = some result) (enough : fuel ≤ more) :
    continueLine more line stream = some result := by
  induction fuel generalizing more line stream with
  | zero => cases done
  | succ fuel ih =>
    obtain ⟨more,rfl⟩ := Nat.exists_eq_add_of_lt enough
    rw [continueLine] at done ⊢
    split at done
    next continued =>
      rw [if_pos continued]
      exact ih _ _ _ done (Nat.le_add_right _ _)
    next complete =>
      rw [if_neg complete]
      exact done

theorem readLines_more (fuel more : Nat) (reader : Reader) (line : Bytes) (stream : FileStream)
    (result : Except Fault (Option Reader)) (done : readLines fuel reader line stream = some result)
    (enough : fuel ≤ more) : readLines more reader line stream = some result := by
  induction fuel generalizing more reader line stream with
  | zero => cases done
  | succ fuel ih =>
    obtain ⟨more,rfl⟩ := Nat.exists_eq_add_of_lt enough
    rw [readLines] at done ⊢
    split at done
    next ended =>
      rw [if_pos ended]
      exact done
    next going =>
      rw [if_neg going]
      cases continued : continueLine fuel (stream.getline line).1 (stream.getline line).2 with
      | none =>
        rw [continued] at done
        cases done
      | some next =>
        have again := continueLine_more fuel (fuel + more) _ _ next continued (Nat.le_add_right _ _)
        rw [continued] at done
        rw [again]
        simp only at done ⊢
        split at done
        next => exact done
        next => exact done
        next => exact ih _ _ _ _ done (Nat.le_add_right _ _)

/-! ### The inner loop -/

def linesOf : List Bytes → List Bytes
  | [] => []
  | line :: lines => joinLines line lines

theorem linesOf_file (file : Bytes) : linesOf (file.splitOn 10) = configLines file := by
  unfold configLines
  cases file.splitOn 10 <;> rfl

theorem joinLines_ne_nil (line : Bytes) (lines : List Bytes) : joinLines line lines ≠ [] := by
  induction lines generalizing line with
  | nil => exact List.cons_ne_nil _ _
  | cons next lines ih =>
    rw [joinLines]
    split
    · exact ih _
    · exact List.cons_ne_nil _ _

theorem stripBackslashes_append (line : Bytes) :
    joinLines.stripBackslashes (line ++ [92]) = joinLines.stripBackslashes line := by
  simp [joinLines.stripBackslashes]

theorem stripBackslashes_complete (line : Bytes) (complete : line.getLast? ≠ some 92) :
    joinLines.stripBackslashes line = line := by
  rcases List.eq_nil_or_concat' line with rfl | ⟨line,last,rfl⟩
  · rfl
  · have other : last ≠ 92 := by simpa using complete
    simp [joinLines.stripBackslashes,other]

theorem continueLine_bad (line : Bytes) (stream : FileStream) (bad : stream.good = false) :
    ∃ fuel, continueLine fuel line stream = some (joinLines.stripBackslashes line,stream) := by
  induction line using List.reverseRecOn with
  | nil => exact ⟨1,rfl⟩
  | append_singleton line last ih =>
    by_cases continued : last = 92
    · obtain ⟨fuel,done⟩ := ih
      refine ⟨fuel + 1,?_⟩
      rw [continueLine,if_pos (by simp [continued]),stream.getline_bad [] bad,continued,stripBackslashes_append]
      simpa using done
    · refine ⟨1,?_⟩
      rw [stripBackslashes_complete _ (by simpa using continued),continueLine,if_neg (by simpa using continued)]

theorem stripBackslashes_stripped (line : Bytes) : (joinLines.stripBackslashes line).getLast? ≠ some 92 := by
  induction line using List.reverseRecOn with
  | nil => simp [joinLines.stripBackslashes]
  | append_singleton line last ih =>
    by_cases continued : last = 92
    · rw [continued,stripBackslashes_append]
      exact ih
    · rw [stripBackslashes_complete _ (by simpa using continued)]
      simpa using continued

theorem continueLine_joins (line : Bytes) (stream : FileStream) : ∃ fuel joined next,
    continueLine fuel line stream = some (joined,next) ∧ joined.getLast? ≠ some 92 ∧
      joinLines line stream.pieces = joined :: linesOf next.pieces ∧ next.failing = stream.failing ∧
        next.pieces.length ≤ stream.pieces.length := by
  generalize size : stream.pieces.length = n
  induction n generalizing line stream with
  | zero =>
    have bad : stream.good = false := by
      cases good : stream.good with
      | false => rfl
      | true => exact absurd (List.length_eq_zero_iff.mp size) (stream.pieces_good good)
    obtain ⟨fuel,done⟩ := continueLine_bad line stream bad
    refine ⟨fuel,_,stream,done,stripBackslashes_stripped line,?_,rfl,Nat.le_of_eq size⟩
    rw [stream.pieces_bad bad]
    rfl
  | succ n ih =>
    have good : stream.good = true := by
      cases good : stream.good with
      | true => rfl
      | false => rw [stream.pieces_bad good] at size; cases size
    by_cases continued : line.getLast? = some 92
    · obtain ⟨first,same⟩ := stream.getline_pieces [] good
      rw [first,List.length_cons] at size
      obtain ⟨fuel,joined,next,done,complete,joins,kept,shorter⟩ := ih (line.dropLast ++ (stream.getline []).1)
        (stream.getline []).2 (Nat.succ.inj size)
      refine ⟨fuel + 1,joined,next,?_,complete,?_,kept.trans same,shorter.trans (Nat.le_succ n)⟩
      · rw [continueLine,if_pos continued]
        exact done
      · rw [first,joinLines,if_pos continued]
        exact joins
    · refine ⟨1,line,stream,?_,continued,?_,rfl,Nat.le_of_eq size⟩
      · rw [continueLine,if_neg continued]
      · cases pieces : stream.pieces with
        | nil => exact absurd pieces (stream.pieces_good good)
        | cons piece pieces => rw [joinLines,if_neg continued,linesOf]

/-! ### The outer loop -/

def Reads (reader : Reader) (line : Bytes) (stream : FileStream) (result : Except Fault (Option Reader)) : Prop :=
  ∃ fuel, readLines fuel reader line stream = some result

def Stops (result : Except Fault (Option Reader)) : Prop := ∀ after, result ≠ .ok (some after)

theorem stops_or_passes (result : Except Fault (Option Reader)) : Stops result ∨ ∃ after, result = .ok (some after) := by
  by_cases passes : ∃ after, result = .ok (some after)
  · exact Or.inr passes
  · exact Or.inl fun after same => passes ⟨after,same⟩

theorem reads_ended (reader : Reader) (line : Bytes) (stream : FileStream) (ended : stream.eofbit = true) :
    Reads reader line stream (.ok (some reader)) :=
  ⟨1,by rw [readLines,if_pos ended]; rfl⟩

theorem readLines_turn (fuel : Nat) (reader : Reader) (line joined : Bytes) (stream next : FileStream)
    (going : stream.eofbit = false)
    (continued : continueLine fuel (stream.getline line).1 (stream.getline line).2 = some (joined,next)) :
    (∀ result, processConfigLine reader joined = result → Stops result →
        readLines (fuel+1) reader line stream = some result) ∧
      ∀ after, processConfigLine reader joined = .ok (some after) →
        readLines (fuel+1) reader line stream = readLines fuel after joined next := by
  rw [readLines,if_neg (by simp [going]),continued]
  refine ⟨?_,fun after passes => ?_⟩
  · rintro result rfl stops
    simp only
    split
    next fault same => rw [same]; rfl
    next same => rw [same]; rfl
    next after same => exact absurd same (stops after)
  · simp only [passes]

theorem reads_stop (reader : Reader) (line joined : Bytes) (stream next : FileStream) (going : stream.eofbit = false)
    (continued : ∃ fuel, continueLine fuel (stream.getline line).1 (stream.getline line).2 = some (joined,next))
    (stops : Stops (processConfigLine reader joined)) :
    Reads reader line stream (processConfigLine reader joined) := by
  obtain ⟨fuel,continued⟩ := continued
  exact ⟨fuel+1,(readLines_turn fuel reader line joined stream next going continued).1 _ rfl stops⟩

theorem reads_pass (reader after : Reader) (line joined : Bytes) (stream next : FileStream)
    (going : stream.eofbit = false)
    (continued : ∃ fuel, continueLine fuel (stream.getline line).1 (stream.getline line).2 = some (joined,next))
    (passes : processConfigLine reader joined = .ok (some after)) (result : Except Fault (Option Reader)) :
    Reads reader line stream result ↔ Reads after joined next result := by
  obtain ⟨enough,continued⟩ := continued
  have turn (fuel : Nat) (le : enough ≤ fuel) :
      readLines (fuel+1) reader line stream = readLines fuel after joined next :=
    (readLines_turn fuel reader line joined stream next going
      (continueLine_more enough fuel _ _ _ continued le)).2 after passes
  constructor
  · rintro ⟨fuel,done⟩
    refine ⟨enough + fuel,?_⟩
    rw [← turn _ (Nat.le_add_right _ _)]
    exact readLines_more _ _ _ _ _ _ done (by omega)
  · rintro ⟨fuel,done⟩
    refine ⟨enough + fuel + 1,?_⟩
    rw [turn _ (Nat.le_add_right _ _)]
    exact readLines_more _ _ _ _ _ _ done (Nat.le_add_left _ _)

theorem processLines_pass (reader after : Reader) (line : Bytes) (lines : List Bytes)
    (passes : processConfigLine reader line = .ok (some after)) :
    processLines reader (line :: lines) = processLines after lines := by
  rw [processLines,passes]
  rfl

theorem processLines_stop (reader : Reader) (line : Bytes) (lines : List Bytes)
    (stops : Stops (processConfigLine reader line)) :
    processLines reader (line :: lines) = processConfigLine reader line := by
  rw [processLines]
  cases here : processConfigLine reader line with
  | error fault => rfl
  | ok next =>
    cases next with
    | none => rfl
    | some after => exact absurd here (stops after)

/-- The outer loop works through the lines that the pieces make, up to one that stops it;
else it stands behind them with the last line still at hand. -/
theorem reads_lines (reader : Reader) (line : Bytes) (stream : FileStream) :
    (Stops (processLines reader (linesOf stream.pieces)) →
        Reads reader line stream (processLines reader (linesOf stream.pieces))) ∧
      ∀ after, processLines reader (linesOf stream.pieces) = .ok (some after) →
        ∃ last exhausted, exhausted.good = false ∧ exhausted.failing = stream.failing ∧
          last = (linesOf stream.pieces).getLast?.getD line ∧
          (linesOf stream.pieces ≠ [] → last.getLast? ≠ some 92) ∧
          ∀ result, Reads reader line stream result ↔ Reads after last exhausted result := by
  generalize size : stream.pieces.length = n
  induction n using Nat.strongRecOn generalizing reader line stream with
  | ind n ih =>
    cases good : stream.good with
    | false =>
      rw [stream.pieces_bad good]
      refine ⟨fun stops => absurd rfl (stops reader),?_⟩
      rintro after ⟨⟩
      exact ⟨line,stream,good,rfl,rfl,fun some => absurd rfl some,fun _ => Iff.rfl⟩
    | true =>
      obtain ⟨first,same⟩ := stream.getline_pieces line good
      obtain ⟨fuel,joined,next,continued,complete,joins,kept,shorter⟩ :=
        continueLine_joins (stream.getline line).1 (stream.getline line).2
      have lines : linesOf stream.pieces = joined :: linesOf next.pieces := by
        rw [first]
        exact joins
      have going := stream.eof_good good
      have less : next.pieces.length < n := by
        rw [first,List.length_cons] at size
        omega
      rw [lines]
      rcases stops_or_passes (processConfigLine reader joined) with stops | ⟨after,passes⟩
      · rw [processLines_stop reader joined _ stops]
        exact ⟨fun _ => reads_stop reader line joined stream next going ⟨fuel,continued⟩ stops,
          fun after same => absurd same (stops after)⟩
      · rw [processLines_pass reader after joined _ passes]
        have turn := reads_pass reader after line joined stream next going ⟨fuel,continued⟩ passes
        obtain ⟨halted,passed⟩ := ih _ less after joined next rfl
        refine ⟨fun stops => (turn _).mpr (halted stops),fun final through => ?_⟩
        obtain ⟨last,exhausted,bad,fails,final_line,whole,goes⟩ := passed final through
        refine ⟨last,exhausted,bad,(fails.trans kept).trans same,?_,fun _ => ?_,fun result => (turn result).trans (goes result)⟩
        · rw [final_line]
          cases linesOf next.pieces with
          | nil => rfl
          | cons one others => rw [List.getLast?_cons_cons]; simp [List.getLast?_cons]
        · cases more : linesOf next.pieces with
          | nil =>
            rw [more] at final_line
            rw [final_line]
            exact complete
          | cons one others => exact whole (by simp [more])

/-! ### Streams that end -/

/-- A stream that ends gives the lines of its file, so enough fuel gives the result of the file. -/
theorem reads_file (reader : Reader) (file : Bytes) :
    Reads reader [] (.opened file false) (processLines reader (configLines file)) := by
  have pieces : linesOf (FileStream.opened file false).pieces = configLines file := linesOf_file file
  obtain ⟨halted,through⟩ := reads_lines reader [] (.opened file false)
  rw [pieces] at halted through
  rcases stops_or_passes (processLines reader (configLines file)) with stops | ⟨after,passes⟩
  · exact halted stops
  · obtain ⟨last,exhausted,bad,kept,_,_,goes⟩ := through after passes
    rw [passes,goes]
    apply reads_ended
    rw [exhausted.eof_bad bad,kept]
    rfl

theorem load_file (file : Bytes) (nodes : UInt32) :
    ∃ fuel, load fuel (.opened file false) nodes = some (loadConfig file nodes) := by
  obtain ⟨fuel,done⟩ := reads_file (start nodes) file
  refine ⟨fuel,?_⟩
  rw [load,done]
  rfl

/-! ### Streams that fail -/

def wholeLines (content : Bytes) : Bytes := (content.reverse.dropWhile (· ≠ 10)).reverse

theorem wholeLines_pieces (content : Bytes) :
    (wholeLines content).splitOn 10 = (content.splitOn 10).dropLast ++ [[]] := by
  have split := List.takeWhile_append_dropWhile (p := (· ≠ (10 : UInt8))) (l := content.reverse)
  have plain : 10 ∉ (content.reverse.takeWhile (· ≠ 10)).reverse := fun newline => by
    simpa using List.mem_takeWhile_imp (List.mem_reverse.mp newline)
  rw [wholeLines]
  cases later : content.reverse.dropWhile (· ≠ 10) with
  | nil =>
    rw [later,List.append_nil] at split
    rw [split,List.reverse_reverse] at plain
    rw [List.splitOn_eq_singleton plain]
    rfl
  | cons newline earlier =>
    have stops := List.head?_dropWhile_not (fun c : UInt8 => decide (c ≠ 10)) content.reverse
    rw [later] at stops
    obtain rfl : newline = 10 := by simpa using stops
    have whole := congrArg List.reverse split
    rw [later,List.reverse_append,List.reverse_cons,List.reverse_reverse,List.append_assoc,List.singleton_append]
      at whole
    rw [← whole,List.splitOn_append_cons_self,List.splitOn_eq_singleton plain,List.dropLast_concat,List.reverse_cons,
      List.splitOn_append_cons_self,List.splitOn_nil]

theorem processConfigLine_again (reader after again : Reader) (line : Bytes)
    (first : processConfigLine reader line = .ok (some after))
    (second : processConfigLine after line = .ok (some again)) : again = after := by
  unfold processConfigLine at first second
  simp only at first second
  cases kind : matchLine line with
  | comment => rw [kind] at first second; cases second; rfl
  | other => rw [kind] at first second; cases second; rfl
  | nodes value =>
    rw [kind] at first second
    simp only at first second
    split at first
    next =>
      obtain ⟨count,cast,ok⟩ := bind_ok first
      cases ok
      split at second
      next =>
        obtain ⟨same,also,ok⟩ := bind_ok second
        cases ok
        cases cast.symm.trans also
        rfl
      next => cases second; rfl
    next nonzero =>
      cases first
      rw [if_neg nonzero] at second
      cases second
      rfl
  | duration value =>
    rw [kind] at first second
    obtain ⟨duration,cast,ok⟩ := bind_ok first
    cases ok
    obtain ⟨same,also,ok⟩ := bind_ok second
    cases ok
    cases cast.symm.trans also
    rfl
  | profile name =>
    rw [kind] at first second
    cases first
    cases second
    simp [store]
  | setting type profile =>
    rw [kind] at first second
    simp only at first second
    have some : profile ≠ [] := by simpa [Matched,kind] using matchLine_matched line
    split at first
    next => cases first
    next current here =>
      obtain ⟨changed,set,ok⟩ := bind_ok first
      cases ok
      obtain ⟨name,block,found⟩ := Option.bind_eq_some_iff.mp here
      have named := profileNamed_name reader.workload name current found
      obtain ⟨kept,text⟩ := text_setProfile current changed type type profile set
      rw [if_pos rfl] at text
      rw [block,Option.bind_some,profileNamed_store,if_pos (kept.trans named)] at second
      obtain ⟨_,reset,_⟩ := bind_ok second
      unfold MasterWorkloadProfile.setProfile at reset
      rw [if_pos (text ▸ some)] at reset
      cases reset
  | defaultProfile name =>
    rw [kind] at first second
    cases first
    cases second
    congr 2
    funext i
    by_cases covered : i < reader.workload.nodes
    · simp [covered]
    · simp [covered]
  | node id name =>
    rw [kind] at first second
    obtain ⟨nodeId,cast,ok⟩ := bind_ok first
    cases ok
    obtain ⟨same,also,ok⟩ := bind_ok second
    cases ok
    cases cast.symm.trans also
    congr 2
    funext i
    by_cases assigned : i = nodeId
    · simp [assigned]
    · simp [assigned]

theorem readLines_stuck (fuel : Nat) (reader : Reader) (line : Bytes) (stream : FileStream)
    (bad : stream.good = false) (fails : stream.failing = true) (complete : line.getLast? ≠ some 92)
    (fixed : processConfigLine reader line = .ok (some reader)) : readLines fuel reader line stream = none := by
  induction fuel with
  | zero => rfl
  | succ fuel ih =>
    rw [readLines,stream.eof_bad bad,fails,stream.getline_bad line bad]
    cases fuel with
    | zero => rfl
    | succ fuel =>
      rw [continueLine,if_neg complete]
      simp only [Bool.not_true,Bool.false_eq_true,if_false,fixed]
      exact ih

theorem processLines_stopped (reader : Reader) (lines more : List Bytes) (stops : Stops (processLines reader lines)) :
    processLines reader (lines ++ more) = processLines reader lines := by
  induction lines generalizing reader with
  | nil => exact absurd rfl (stops reader)
  | cons line lines ih =>
    rw [List.cons_append]
    rcases stops_or_passes (processConfigLine reader line) with here | ⟨after,passes⟩
    · rw [processLines_stop reader line _ here,processLines_stop reader line _ here]
    · rw [processLines_pass reader after line _ passes] at stops
      rw [processLines_pass reader after line _ passes,processLines_pass reader after line _ passes]
      exact ih after stops

theorem processLines_through (reader after : Reader) (lines more : List Bytes)
    (passes : processLines reader lines = .ok (some after)) :
    processLines reader (lines ++ more) = processLines after more := by
  induction lines generalizing reader with
  | nil =>
    cases passes
    rfl
  | cons line lines ih =>
    obtain ⟨next,here,rest⟩ := bind_ok passes
    cases next with
    | none => cases rest
    | some next =>
      rw [List.cons_append,processLines_pass reader next line _ here]
      exact ih next rest

theorem processLines_one (reader : Reader) (line : Bytes) :
    processLines reader [line] = processConfigLine reader line := by
  rcases stops_or_passes (processConfigLine reader line) with stops | ⟨after,passes⟩
  · exact processLines_stop reader line [] stops
  · rw [processLines_pass reader after line [] passes,passes]
    rfl

/-- On a failing stream the loop ends at a line that stops it, where the line at hand when
the read failed counts twice. -/
theorem reads_failing (reader : Reader) (content last : Bytes) (before : List Bytes)
    (lines : configLines (wholeLines content) = before ++ [last]) :
    (∃ result, Reads reader [] (.opened content true) result) ↔
      Stops (processLines reader (before ++ [last] ++ [last])) := by
  have pieces : linesOf (FileStream.opened content true).pieces = before ++ [last] := by
    rw [← lines,← linesOf_file,wholeLines_pieces]
    rfl
  obtain ⟨halted,through⟩ := reads_lines reader [] (.opened content true)
  rw [pieces] at halted through
  rcases stops_or_passes (processLines reader (before ++ [last])) with stops | ⟨after,passes⟩
  · refine iff_of_true ⟨_,halted stops⟩ ?_
    rw [processLines_stopped reader _ [last] stops]
    exact stops
  · obtain ⟨final,exhausted,bad,kept,same,complete,goes⟩ := through after passes
    rw [List.getLast?_concat,Option.getD_some] at same
    subst same
    have complete := complete (by simp)
    have going : exhausted.eofbit = false := by
      rw [exhausted.eof_bad bad,kept]
      rfl
    have continued : ∃ fuel, continueLine fuel (exhausted.getline final).1 (exhausted.getline final).2 =
        some (final,exhausted) := ⟨1,by rw [exhausted.getline_bad final bad,continueLine,if_neg complete]⟩
    rw [processLines_through reader after _ [final] passes,processLines_one]
    rcases stops_or_passes (processConfigLine after final) with stops | ⟨again,repeated⟩
    · exact iff_of_true ⟨_,(goes _).mpr (reads_stop after final final exhausted exhausted going continued stops)⟩ stops
    · refine iff_of_false ?_ fun stops => stops again repeated
      -- The first time the line passed it was the last of the lines read.
      have once : ∃ earlier, processConfigLine earlier final = .ok (some after) := by
        rcases stops_or_passes (processLines reader before) with stops | ⟨earlier,early⟩
        · rw [processLines_stopped reader before [final] stops] at passes
          exact absurd passes (stops after)
        · rw [processLines_through reader earlier before [final] early,processLines_one] at passes
          exact ⟨earlier,passes⟩
      obtain ⟨earlier,first⟩ := once
      cases processConfigLine_again earlier after again final first repeated
      rintro ⟨result,reads⟩
      obtain ⟨fuel,done⟩ := (goes result).mp reads
      rw [readLines_stuck fuel after final exhausted bad kept complete repeated] at done
      cases done

theorem Ends.stops (given : UInt32) (before : List ConfigLine) (line : ConfigLine) (result : Except Fault (Option Reader))
    (ends : Ends given before line result) : ¬Passes given before line ∧ Stops result := by
  cases ends with
  | orphan why => exact ⟨fun passes => passes.1 why,by simp [Stops]⟩
  | repeated why => exact ⟨fun passes => passes.2.1 why,by simp [Stops]⟩
  | unconvertible why => exact ⟨fun passes => passes.2.2 why,by simp [Stops]⟩

theorem processLines_stops_iff (nodes : UInt32) (lines : List Bytes) :
    Stops (processLines (start nodes) lines) ↔ ¬AllPass nodes [] (lines.map matchLine) := by
  obtain ⟨all,after,ok,_⟩ | ⟨before,line,rest,shape,_,ends⟩ :=
    processLines_outcome nodes [] (start nodes) lines (Faithful.start nodes) (Complete.start nodes)
  · exact iff_of_false (fun stops => stops after ok) (not_not.mpr all)
  · obtain ⟨fails,stops⟩ := ends.stops
    refine iff_of_true stops fun all => ?_
    rw [shape,AllPass.append] at all
    exact fails all.2.1

/-- The lines of a stream that fails; the last of them is processed again and again. -/
def linesAndLast (content : Bytes) : List ConfigLine :=
  matchedLines (wholeLines content) ++ (matchedLines (wholeLines content)).getLast?.toList

theorem load_failing_iff (content : Bytes) (nodes : UInt32) :
    (∃ fuel, (load fuel (.opened content true) nodes).isSome) ↔ ¬AllPass nodes [] (linesAndLast content) := by
  have some : configLines (wholeLines content) ≠ [] := by
    rw [← linesOf_file]
    cases pieces : (wholeLines content).splitOn 10 with
    | nil => exact absurd pieces (List.splitOn_ne_nil _ _)
    | cons line lines => exact joinLines_ne_nil line lines
  obtain ⟨before,last,lines⟩ := (List.eq_nil_or_concat' _).resolve_left some
  have twice : (before ++ [last] ++ [last]).map matchLine = linesAndLast content := by
    rw [linesAndLast,matchedLines,lines]
    simp
  rw [← twice,← processLines_stops_iff,← reads_failing (start nodes) content last before lines]
  constructor
  · rintro ⟨fuel,done⟩
    rw [load,Option.isSome_map] at done
    obtain ⟨result,read⟩ := Option.isSome_iff_exists.mp done
    exact ⟨result,fuel,read⟩
  · rintro ⟨result,fuel,read⟩
    refine ⟨fuel,?_⟩
    rw [load,read]
    rfl

/-- Both loops end unless a read fails and no line stops them. -/
theorem load_terminates_iff (content : Bytes) (failing : Bool) (nodes : UInt32) :
    (∃ fuel, (load fuel (.opened content failing) nodes).isSome) ↔
      failing = false ∨ ¬AllPass nodes [] (linesAndLast content) := by
  cases failing with
  | false =>
    obtain ⟨fuel,done⟩ := load_file content nodes
    exact iff_of_true ⟨fuel,by rw [done]; rfl⟩ (Or.inl rfl)
  | true => exact (load_failing_iff content nodes).trans (or_iff_right (by simp)).symm

/-- A directory can be opened, but not read. -/
theorem directory_endless : ¬∃ fuel, (load fuel (.opened [] true) 0).isSome := by
  rw [load_failing_iff,not_not]
  have lines : linesAndLast [] = [.other,.other] := by decide +kernel
  rw [lines]
  simp [AllPass,Passes,Orphan,Repeated,Unconvertible]

/-! ### Continuations -/

theorem joinLines_break (line next : Bytes) (rest : List Bytes) :
    joinLines (line ++ [92]) (next :: rest) = joinLines (line ++ next) rest := by
  rw [joinLines,if_pos (by simp),List.dropLast_concat]

theorem joinLines_continued (line piece next : Bytes) (pieces rest : List Bytes) :
    joinLines line (pieces ++ (piece ++ [92]) :: next :: rest) = joinLines line (pieces ++ (piece ++ next) :: rest) := by
  induction pieces generalizing line with
  | nil =>
    rw [List.nil_append,List.nil_append]
    by_cases continued : line.getLast? = some 92
    · rw [joinLines,if_pos continued,← List.append_assoc,joinLines_break,List.append_assoc]
      exact (if_pos continued).symm
    · rw [joinLines,if_neg continued,joinLines_break]
      exact (if_neg continued).symm
  | cons other pieces ih =>
    rw [List.cons_append,List.cons_append,joinLines,joinLines,ih,ih]

theorem configLines_continued (before after : Bytes) :
    configLines (before ++ [92,10] ++ after) = configLines (before ++ after) := by
  obtain ⟨pieces,last,split⟩ := splitOnP_append (p := (· == (10 : UInt8))) before
  obtain ⟨next,rest,first⟩ := List.exists_cons_of_ne_nil (List.splitOn_ne_nil (10 : UInt8) after)
  have with_break : (before ++ [92,10] ++ after).splitOn 10 = pieces ++ (last ++ [92]) :: next :: rest := by
    have broken : ([92,10] ++ after).splitOn 10 = [92] :: next :: rest := by
      have plain : (10 : UInt8) ∉ [(92 : UInt8)] := by decide
      rw [← first]
      exact List.splitOn_append_cons_self_of_not_mem plain after
    rw [List.append_assoc,List.splitOn_eq_splitOnP,split,← List.splitOn_eq_splitOnP,broken]
    rfl
  have without : (before ++ after).splitOn 10 = pieces ++ (last ++ next) :: rest := by
    rw [List.splitOn_eq_splitOnP,split,← List.splitOn_eq_splitOnP,first]
    rfl
  rw [← linesOf_file,← linesOf_file,with_break,without]
  cases pieces with
  | nil =>
    rw [List.nil_append,List.nil_append,linesOf,linesOf]
    exact joinLines_break last next rest
  | cons piece pieces => exact joinLines_continued piece last next pieces rest

/-- A backslash and a newline anywhere in a file change neither the lines nor the result,
and the loops over the changed file give the result of the other. -/
theorem loadConfig_continued (before after : Bytes) :
    configLines (before ++ [92,10] ++ after) = configLines (before ++ after) ∧
      ∀ nodes, loadConfig (before ++ [92,10] ++ after) nodes = loadConfig (before ++ after) nodes ∧
        ∃ fuel, load fuel (.opened (before ++ [92,10] ++ after) false) nodes =
          some (loadConfig (before ++ after) nodes) := by
  have same := configLines_continued before after
  have result (nodes : UInt32) :
      loadConfig (before ++ [92,10] ++ after) nodes = loadConfig (before ++ after) nodes := by
    unfold loadConfig
    rw [same]
  refine ⟨same,fun nodes => ⟨result nodes,?_⟩⟩
  rw [← result nodes]
  exact load_file _ nodes

end MasterWorkload
end Dhtperf
