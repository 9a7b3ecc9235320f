import Dhtperf.Library.Shell
import Dhtperf.Utils.Times

/-! The daemon that starts controllers on its machine. It reads a client word by word, and the
word behind a start message becomes a part of a line that a shell reads. -/
namespace Dhtperf.Service
open Library Utils

/-- `stream >> word` for an empty word. A stream whose end was met reads and writes no more. -/
def readWord : InputStream → Bytes × InputStream
  | none => ([],none)
  | some text =>
    let text := text.dropWhile isSpace
    let rest := text.dropWhile (!isSpace ·)
    (text.takeWhile (!isSpace ·),if rest = [] then none else some rest)

def msgPing : Bytes := ascii "dhtperfping"
def msgStart : Bytes := ascii "dhtperfstart"
def msgStop : Bytes := ascii "dhtperfstop"
def msgAck : Bytes := ascii "dhtperfack"
def msgUpdate : Bytes := ascii "dhtperfupdate"
def msgVersion : Bytes := ascii "dhtperfversion"

def stopCommands : List Bytes := ["pkill dhtperf-master","pkill dhtperf-controller","pkill java"].map ascii

def updateCommand : Bytes := ascii "sudo yum update -y &"

def logDir : Bytes := ascii "/tmp/"

def logFile (controllerNumber : Nat) : Bytes := logDir ++ ascii "controller." ++ decimal controllerNumber ++ ascii ".log"

def startCommand (host : Bytes) (controllerNumber : Nat) : Bytes :=
  ascii "dhtperf-controller " ++ host ++ ascii " > " ++ logFile controllerNumber ++ ascii " 2>&1 &"

/-- The strings passed to `system`, what is sent back and the number of the next controller. -/
structure Served where
  commands : List Bytes
  reply : Bytes
  controllerNumber : Nat
  deriving DecidableEq

def reply (stream : InputStream) (text : Bytes) : Bytes := if stream.isSome then text else []

def handleClient (version : Bytes) (controllerNumber : Nat) (stream : Bytes) : Served :=
  let (msg,stream) := readWord (some stream)
  let ack := msgAck ++ [10]
  if msg = msgPing then ⟨[],reply stream ack,controllerNumber⟩
  else if msg = msgStart then
    let (host,stream) := readWord stream
    ⟨[cString (startCommand host controllerNumber)],reply stream ack,controllerNumber+1⟩
  else if msg = msgStop then ⟨stopCommands,reply stream ack,controllerNumber⟩
  else if msg = msgUpdate then ⟨[updateCommand],reply stream ack,controllerNumber⟩
  else if msg = msgVersion then ⟨[],reply stream (version ++ [10] ++ ack),controllerNumber⟩
  else ⟨[],[],controllerNumber⟩

/-! ### What the shell is asked to do -/

def fixedCommands : List Bytes := updateCommand :: stopCommands

/-- One controller with one argument, in the background, its output and its errors in the log. -/
def invocation (host log : Bytes) : Shell.Command :=
  ⟨[ascii "dhtperf-controller",host],[⟨[],ascii ">",log⟩,⟨ascii "2",ascii ">&",ascii "1"⟩],ascii "&"⟩

def Intended (host log command : Bytes) : Prop :=
  command ∈ fixedCommands ∨ Shell.reads command = some [invocation host log]

instance (host log command : Bytes) : Decidable (Intended host log command) :=
  inferInstanceAs (Decidable (_ ∨ _))

def messageWord (stream : Bytes) : Bytes := (readWord (some stream)).1

def hostWord (stream : Bytes) : Bytes := (readWord (readWord (some stream)).2).1

/-- Every string that a client makes the daemon pass to the shell. -/
def CommandsIntended (version : Bytes) (controllerNumber : Nat) (stream : Bytes) : Prop :=
  ∀ command ∈ (handleClient version controllerNumber stream).commands,
    Intended (hostWord stream) (logFile controllerNumber) command

instance (version : Bytes) (controllerNumber : Nat) (stream : Bytes) :
    Decidable (CommandsIntended version controllerNumber stream) :=
  inferInstanceAs (Decidable (∀ command ∈ _,_))

/-- A word that the shell takes as it is, with no byte that ends a C string. -/
def PlainHost (host : Bytes) : Prop := Shell.Literal host ∧ 0 ∉ host

/-! ### Plain hosts -/

def isOrdinary (c : UInt8) : Bool := Shell.isPlain c && c != 42 && c != 63 && c != 91 && c != 0

theorem isOrdinary_iff (c : UInt8) :
    isOrdinary c = true ↔ Shell.isPlain c = true ∧ (c ≠ 42 ∧ c ≠ 63 ∧ c ≠ 91) ∧ c ≠ 0 := by
  simp only [isOrdinary,Bool.and_eq_true,bne_iff_ne,ne_eq,and_assoc]

theorem digit_ordinary (c : UInt8) (digit : isDigit c = true) : isOrdinary c = true := by
  have other (d : UInt8) (no : isDigit d = false) : c ≠ d := by
    rintro rfl
    exact Bool.noConfusion (digit.symm.trans no)
  have delimiter : Shell.isDelimiter c = false := by
    simp only [Shell.isDelimiter,Bool.or_eq_false_iff,beq_eq_false_iff_ne]
    refine ⟨⟨⟨⟨⟨⟨⟨⟨⟨?_,?_⟩,?_⟩,?_⟩,?_⟩,?_⟩,?_⟩,?_⟩,?_⟩,?_⟩
    all_goals exact other _ rfl
  have plain : Shell.isPlain c = true := by
    simp [Shell.isPlain,Shell.isExpansion,delimiter,other 36 rfl,other 96 rfl,other 39 rfl,other 34 rfl,other 92 rfl]
  exact (isOrdinary_iff c).mpr ⟨plain,⟨other 42 rfl,other 63 rfl,other 91 rfl⟩,other 0 rfl⟩

theorem logFile_ordinary (controllerNumber : Nat) : ∀ c ∈ logFile controllerNumber, isOrdinary c = true := by
  simp only [logFile,List.forall_mem_append]
  refine ⟨⟨⟨?_,?_⟩,fun c member => digit_ordinary c (decimal_digits controllerNumber c member)⟩,?_⟩
  · exact List.all_eq_true.mp (by decide)
  · exact List.all_eq_true.mp (by decide)
  · exact List.all_eq_true.mp (by decide)

theorem logFile_literal (controllerNumber : Nat) : Shell.Literal (logFile controllerNumber) := by
  have bytes c member := (isOrdinary_iff c).mp (logFile_ordinary controllerNumber c member)
  have start : (logFile controllerNumber).head? = some 47 := rfl
  refine ⟨fun empty => ?_,fun c member => (bytes c member).1,?_,?_⟩
  · rw [empty] at start
    cases start
  · rw [start]
    decide
  · rw [Shell.expands,Shell.isPattern_plain _ fun c member => (bytes c member).2.1,List.head?_map,start]
    rfl

theorem startCommand_split (host : Bytes) (controllerNumber : Nat) : startCommand host controllerNumber =
    ascii "dhtperf-controller" ++ 32 :: (host ++ 32 :: (62 :: 32 :: (logFile controllerNumber ++ 32 :: ascii "2>&1 &"))) := by
  have first : ascii "dhtperf-controller " = ascii "dhtperf-controller" ++ [32] := rfl
  have middle : ascii " > " = [32,62,32] := rfl
  have last : ascii " 2>&1 &" = 32 :: ascii "2>&1 &" := rfl
  rw [startCommand,first,middle,last]
  simp only [List.append_assoc,List.cons_append,List.nil_append]

theorem program_literal : Shell.Literal (ascii "dhtperf-controller") := 
  ⟨by decide,List.all_eq_true.mp (by decide),by decide,by decide⟩

theorem startCommand_reads (host : Bytes) (controllerNumber : Nat) (literal : Shell.Literal host) :
    Shell.reads (startCommand host controllerNumber) = some [invocation host (logFile controllerNumber)] := by
  have log := logFile_literal controllerNumber
  have tail : Shell.tokensFrom 5 (ascii "2>&1 &") =
      some [.ioNumber [50],.operator [62,38],.word [.plain 49],.operator [38]] := by decide +kernel
  have behind := Shell.tokensFrom_word 5 (logFile controllerNumber) (ascii "2>&1 &") _ log tail
  have redirected : Shell.tokensFrom 9 (62 :: 32 :: (logFile controllerNumber ++ 32 :: ascii "2>&1 &")) =
      some (.operator [62] :: .word ((logFile controllerNumber).map .plain) ::
        [.ioNumber [50],.operator [62,38],.word [.plain 49],.operator [38]]) := by
    have operator (rest : Bytes) : Shell.operatorAt (62 :: 32 :: rest) = some [62] := rfl
    rw [Shell.tokensFrom,if_neg (by decide),if_neg (by decide),operator]
    change (Shell.tokensFrom 8 (32 :: (logFile controllerNumber ++ 32 :: ascii "2>&1 &"))).map _ = _
    rw [Shell.tokensFrom,if_pos (.inl rfl),behind]
    rfl
  have argument := Shell.tokensFrom_word 9 host _ _ literal redirected
  have whole := Shell.tokensFrom_word 11 (ascii "dhtperf-controller") _ _ program_literal argument
  rw [← startCommand_split] at whole
  have long : 13 ≤ (startCommand host controllerNumber).length := by
    have name : (ascii "dhtperf-controller").length = 18 := rfl
    rw [startCommand_split,List.length_append]
    omega
  rw [Shell.reads,Shell.tokens_of_fuel 13 _ _ whole long,Option.bind_some]
  have free : Shell.isReserved ((ascii "dhtperf-controller").map .plain) = false := by decide
  have one : Shell.expands [.plain 49] = false := rfl
  simp [Shell.commands,program_literal.kept,literal.kept,log.kept,free,one,Shell.value_plain,Shell.Command.empty,
    Shell.Command.addWord,Shell.Command.addRedirection,Shell.redirecting,Shell.joining,Shell.ending,invocation]
  decide

/-- The command line that was meant takes every byte of it, so none can have been dropped. -/
theorem invocation_size (host : Bytes) (controllerNumber : Nat) :
    (invocation host (logFile controllerNumber)).size = Shell.visible (startCommand host controllerNumber) := by
  have space (rest : Bytes) : Shell.visible (32 :: rest) = Shell.visible rest := List.countP_cons_of_neg (by decide)
  have bracket (rest : Bytes) : Shell.visible (62 :: rest) = Shell.visible rest + 1 := List.countP_cons_of_pos (by decide)
  have tail : Shell.visible (ascii "2>&1 &") = 5 := rfl
  rw [startCommand_split]
  simp only [Shell.visible_append,space,bracket,tail]
  simp only [invocation,Shell.Command.size,Shell.Redirection.size,List.map_cons,List.map_nil,List.sum_cons,List.sum_nil]
  have parts : Shell.visible [] = 0 ∧ Shell.visible (ascii ">") = 1 ∧ Shell.visible (ascii "2") = 1 ∧
      Shell.visible (ascii ">&") = 2 ∧ Shell.visible (ascii "1") = 1 ∧ Shell.visible (ascii "&") = 1 :=
    ⟨rfl,rfl,rfl,rfl,rfl,rfl⟩
  omega

theorem cString_visible (text : Bytes) (zero : 0 ∈ text) : Shell.visible (cString text) < Shell.visible text := by
  have split : cString text ++ text.dropWhile (· ≠ 0) = text := List.takeWhile_append_dropWhile
  have kept : (0 : UInt8) ∉ cString text := fun member => by simpa using List.mem_takeWhile_imp member
  have dropped : (0 : UInt8) ∈ text.dropWhile (· ≠ 0) := by
    rw [← split] at zero
    exact (List.mem_append.mp zero).resolve_left kept
  have some : 0 < Shell.visible (text.dropWhile (· ≠ 0)) := List.countP_pos_iff.mpr ⟨0,dropped,rfl⟩
  have sum := Shell.visible_append (cString text) (text.dropWhile (· ≠ 0))
  rw [split] at sum
  omega

theorem startCommand_zero (host : Bytes) (controllerNumber : Nat) : 0 ∈ startCommand host controllerNumber ↔ 0 ∈ host := by
  have log : 0 ∉ logFile controllerNumber := fun member =>
    Bool.noConfusion (logFile_ordinary controllerNumber 0 member)
  have parts : 0 ∉ ascii "dhtperf-controller " ∧ 0 ∉ ascii " > " ∧ 0 ∉ ascii " 2>&1 &" := by decide
  simp only [startCommand,List.mem_append,log,parts,false_or,or_false]

theorem startCommand_plain (host : Bytes) (controllerNumber : Nat)
    (read : Shell.reads (cString (startCommand host controllerNumber)) = some [invocation host (logFile controllerNumber)]) :
    PlainHost host := by
  have size := invocation_size host controllerNumber
  have fits := Shell.reads_size _ _ read
  have shorter : Shell.visible (cString (startCommand host controllerNumber)) ≤
      Shell.visible (startCommand host controllerNumber) := (List.takeWhile_sublist _).countP_le
  simp only [List.map_cons,List.map_nil,List.sum_cons,List.sum_nil,Nat.add_zero,size] at fits
  refine ⟨Shell.reads_literal _ _ read ?_ _ (List.mem_singleton_self _) host ?_,fun zero => ?_⟩
  · simpa [size] using shorter
  · simp [invocation]
  · have cut := cString_visible _ ((startCommand_zero host controllerNumber).mpr zero)
    omega

theorem startCommand_read_iff (host : Bytes) (controllerNumber : Nat) :
    Shell.reads (cString (startCommand host controllerNumber)) = some [invocation host (logFile controllerNumber)] ↔
      PlainHost host := by
  refine ⟨startCommand_plain host controllerNumber,fun plain => ?_⟩
  have whole : cString (startCommand host controllerNumber) = startCommand host controllerNumber := by
    refine List.takeWhile_eq_self_iff.mpr fun c member => decide_eq_true fun zero => plain.2 ?_
    rw [zero] at member
    exact (startCommand_zero host controllerNumber).mp member
  rw [whole]
  exact startCommand_reads host controllerNumber plain.1

theorem startCommand_not_fixed (host : Bytes) (controllerNumber : Nat) :
    cString (startCommand host controllerNumber) ∉ fixedCommands := by
  have start : (cString (startCommand host controllerNumber)).head? = some 100 := rfl
  have others : ∀ command ∈ fixedCommands, command.head? ≠ some 100 := by decide
  exact fun member => others _ member start

theorem handleClient_start (version : Bytes) (controllerNumber : Nat) (stream : Bytes)
    (start : messageWord stream = msgStart) : (handleClient version controllerNumber stream).commands =
      [cString (startCommand (hostWord stream) controllerNumber)] := by
  have other : msgStart ≠ msgPing := by decide
  simp only [messageWord] at start
  simp only [handleClient,start,if_neg other,if_true]
  rfl

theorem handleClient_fixed (version : Bytes) (controllerNumber : Nat) (stream : Bytes)
    (other : messageWord stream ≠ msgStart) :
    ∀ command ∈ (handleClient version controllerNumber stream).commands, command ∈ fixedCommands := by
  simp only [messageWord] at other
  simp only [handleClient,if_neg other]
  split_ifs
  · exact fun command member => by cases member
  · exact fun command member => List.mem_cons_of_mem _ member
  · exact fun command member => by rw [List.mem_singleton.mp member]; exact List.mem_cons_self
  · exact fun command member => by cases member
  · exact fun command member => by cases member

/-- Only a start message takes a word into a command. -/
theorem commandsIntended_iff (version : Bytes) (controllerNumber : Nat) (stream : Bytes) :
    CommandsIntended version controllerNumber stream ↔ (messageWord stream = msgStart → PlainHost (hostWord stream)) := by
  by_cases start : messageWord stream = msgStart
  · have only := handleClient_start version controllerNumber stream start
    have read := startCommand_read_iff (hostWord stream) controllerNumber
    have different := startCommand_not_fixed (hostWord stream) controllerNumber
    simp only [CommandsIntended,only,List.forall_mem_singleton,Intended,different,false_or,start,true_implies]
    exact read
  · refine ⟨fun _ same => absurd same start,fun _ command member => .inl ?_⟩
    exact handleClient_fixed version controllerNumber stream start command member

/-- The semicolon ends the first command and what follows it is a second one. -/
theorem reboot_injected : ¬CommandsIntended [] 0 (ascii "dhtperfstart a;reboot\n") ∧
    (handleClient [] 0 (ascii "dhtperfstart a;reboot\n")).commands.map Shell.reads =
      [some [⟨[ascii "dhtperf-controller",ascii "a"],[],ascii ";"⟩,
        ⟨[ascii "reboot"],[⟨[],ascii ">",ascii "/tmp/controller.0.log"⟩,⟨ascii "2",ascii ">&",ascii "1"⟩],ascii "&"⟩]] := by
  decide +kernel

end Dhtperf.Service
