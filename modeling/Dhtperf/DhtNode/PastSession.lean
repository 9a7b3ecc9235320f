import Dhtperf.DhtNode.PastConsole
import Dhtperf.Library.Runs

/-! The wrapper and its console as two processes and two pipes. The wrapper joins, runs
commands and leaves; each process goes on whenever it can, and a line is read when it has
arrived whole. -/
namespace Dhtperf
open Library Relation

inductive PastRequest
  | put (key value : Bytes)
  | get (key : Bytes)
  deriving DecidableEq

namespace PastRequest

/-- What `doPut` and `doGet` write. -/
def command : PastRequest → Bytes
  | .put key value => ConsoleDht.pastConsole.putCommand key value
  | .get key => ConsoleDht.pastConsole.getCommand key

def Plain : PastRequest → Prop
  | .put key value => PastConsole.Word key ∧ PastConsole.Word value
  | .get key => PastConsole.Word key

def call (reaction : PastConsole.Reaction) : PastRequest → PastCall
  | .put key value => .put key value reaction.put
  | .get key => .get key reaction.get

end PastRequest

namespace PastCall

def request : PastCall → PastRequest
  | .put key value _ => .put key value
  | .get key _ => .get key

def answer : PastCall → Option Bool
  | .put _ _ _ => none
  | .get _ result => some result.isFound

def line : PastCall → Bytes
  | .put _ _ result => result.line
  | .get _ result => result.line

end PastCall

namespace PastRequest

theorem call_request (request : PastRequest) (reaction : PastConsole.Reaction) :
    (request.call reaction).request = request := by
  cases request <;> rfl

theorem call_whole (request : PastRequest) (reaction : PastConsole.Reaction)
    (one : ∀ content, reaction.get = .found content → 10 ∉ content) :
    PastConsole.Whole (request.call reaction).line := by
  cases request with
  | put key value => exact PastConsole.put_whole reaction.put
  | get key => exact PastConsole.get_whole reaction.get one

theorem command_run (request : PastRequest) (plain : request.Plain) :
    ∃ line, PastConsole.nextLine request.command = some (line,[]) ∧
      ∀ (console : PastConsole) (reaction : PastConsole.Reaction), console.run reaction line =
        ⟨PastConsole.waitDone reaction.early (request.call reaction).line ++ [PastConsole.prompt],true,
          console.calls ++ [request.call reaction]⟩ := by
  cases request with
  | put key value =>
    obtain ⟨named,valued⟩ := plain
    refine ⟨ascii "put " ++ key ++ [32] ++ value,PastConsole.nextLine_line _ [] ?_,fun console reaction => ?_⟩
    · have text : PastConsole.Unbroken (ascii "put ") := by decide
      intro c member
      simp only [List.mem_append,List.mem_singleton] at member
      rcases member with ((front | inKey) | space) | inValue
      · exact text c front
      · exact ⟨(named.plain c inKey).2.1,(named.plain c inKey).2.2.1⟩
      · rw [space]
        decide
      · exact ⟨(valued.plain c inValue).2.1,(valued.plain c inValue).2.2.1⟩
    · rw [PastConsole.run,PastConsole.command_put key value named valued]
      rfl
  | get key =>
    refine ⟨ascii "get " ++ key,PastConsole.nextLine_line _ [] ?_,fun console reaction => ?_⟩
    · have text : PastConsole.Unbroken (ascii "get ") := by decide
      intro c member
      rcases List.mem_append.mp member with front | inKey
      · exact text c front
      · exact ⟨(plain.plain c inKey).2.1,(plain.plain c inKey).2.2.1⟩
    · rw [PastConsole.run,PastConsole.command_get key plain]
      rfl

end PastRequest

/-- Where the wrapper stands: in one of its loops over lines, or between two commands. -/
inductive PastTask
  | joining
  | idle
  | putting
  | getting (ret : Bool)
  | leaving
  | left
  | notJoined
  | crashed
  deriving DecidableEq

namespace PastTask

def reading : PastTask → Bool
  | .joining => true
  | .putting => true
  | .getting _ => true
  | .leaving => true
  | _ => false

end PastTask

/-- The commands still to be given and the answers of the gets so far. -/
structure PastWrapper where
  requests : List PastRequest
  task : PastTask
  answers : List Bool

namespace PastWrapper

def bye : Bytes := ascii "Bye!"

/-- A turn of the loop in `waitPrompt`, `doGet` or `doLeave`. -/
def took (wrapper : PastWrapper) (line : Bytes) : PastWrapper :=
  match wrapper.task with
  | .joining => if line = ConsoleDht.pastConsole.promptString then {wrapper with task := .idle} else wrapper
  | .putting => if line = ConsoleDht.pastConsole.promptString then {wrapper with task := .idle} else wrapper
  | .getting ret =>
    if ConsoleDht.pastConsole.found line then {wrapper with task := .getting true}
    else if line = ConsoleDht.pastConsole.promptString then
      {wrapper with task := .idle, answers := wrapper.answers ++ [ret]}
    else wrapper
  | .leaving => if line = bye then {wrapper with task := .left} else wrapper
  | _ => wrapper

/-- `RWPopenEOF` is only caught by `doJoin`. -/
def ended (wrapper : PastWrapper) : PastWrapper :=
  {wrapper with task := if wrapper.task = .joining then .notJoined else .crashed}

def next (wrapper : PastWrapper) : Bytes × PastWrapper :=
  match wrapper.requests with
  | [] => (ascii "exit\n",{wrapper with task := .leaving})
  | .put key value :: requests =>
    (PastRequest.command (.put key value),{wrapper with requests := requests, task := .putting})
  | .get key :: requests => (PastRequest.command (.get key),{wrapper with requests := requests, task := .getting false})

end PastWrapper

structure PastSession where
  toConsole : Bytes
  toWrapper : Bytes
  console : PastConsole
  wrapper : PastWrapper

namespace PastSession

inductive Action
  | print
  | run (reaction : PastConsole.Reaction)
  | write
  | read

def start (boot : Option Bytes) (requests : List PastRequest) : PastSession :=
  ⟨[],[],.start boot,⟨requests,.joining,[]⟩⟩

def act (s : PastSession) : Action → Option PastSession
  | .print =>
    match s.console.pending with
    | [] => none
    | line :: pending =>
      some {s with toWrapper := s.toWrapper ++ (line ++ [10]), console := {s.console with pending := pending}}
  | .run reaction =>
    if s.console.pending = [] ∧ s.console.running then
      (PastConsole.nextLine s.toConsole).map fun (line,rest) =>
        {s with toConsole := rest, console := s.console.run reaction line}
    else none
  | .write =>
    if s.wrapper.task = .idle then
      some {s with toConsole := s.toConsole ++ s.wrapper.next.1, wrapper := s.wrapper.next.2}
    else none
  | .read =>
    if s.wrapper.task.reading then
      if 10 ∈ s.toWrapper then
        match RWPopen.readline s.toWrapper with
        | (.ok line,rest) => some {s with toWrapper := rest, wrapper := s.wrapper.took line}
        | (.error _,rest) => some {s with toWrapper := rest, wrapper := {s.wrapper with task := .crashed}}
      else if s.console.pending = [] ∧ ¬s.console.running then
        -- The console has exited, so there is an end of the file behind what it has written.
        some {s with toWrapper := [], wrapper := s.wrapper.ended}
      else none
    else none

/-- Contents are cut out of command lines, so they hold no newline. -/
def Permitted (_ : PastSession) : Action → Prop
  | .run reaction => match reaction.get with
    | .found content => 10 ∉ content
    | _ => True
  | _ => True

instance (s : PastSession) (action : Action) : Decidable (Permitted s action) := by
  unfold Permitted
  split
  · split <;> infer_instance
  · infer_instance

abbrev Step : PastSession → PastSession → Prop := Library.StepIf act Permitted

/-! ### Lines on their way -/

/-- The lines that have been or will be printed and that the wrapper has not read. -/
structure Owed (s : PastSession) (lines : List Bytes) : Prop where
  printed : ∃ out, lines = out ++ s.console.pending ∧ s.toWrapper = out.flatMap (· ++ [10])
  whole : ∀ line ∈ lines, PastConsole.Whole line

theorem Owed.print (s : PastSession) (lines pending : List Bytes) (line : Bytes) (owed : Owed s lines)
    (here : s.console.pending = line :: pending) :
    Owed {s with toWrapper := s.toWrapper ++ (line ++ [10]), console := {s.console with pending := pending}} lines := by
  obtain ⟨⟨out,split,written⟩,whole⟩ := owed
  refine ⟨⟨out ++ [line],?_,?_⟩,whole⟩
  · rw [split,here,List.append_assoc]
    rfl
  · rw [written,List.flatMap_append,List.flatMap_singleton]

theorem Owed.read (s : PastSession) (lines : List Bytes) (owed : Owed s lines) (arrived : 10 ∈ s.toWrapper) :
    ∃ line rest left, lines = line :: rest ∧ RWPopen.readline s.toWrapper = (.ok (RWPopen.stripped line),left) ∧
      s.toWrapper.count 10 = left.count 10 + 1 ∧
      ∀ wrapper, Owed {s with toWrapper := left, wrapper := wrapper} rest := by
  obtain ⟨⟨out,split,written⟩,whole⟩ := owed
  cases out with
  | nil => simp [written] at arrived
  | cons line out =>
    have here := whole line (by simp [split])
    refine ⟨line,out ++ s.console.pending,out.flatMap (· ++ [10]),split,?_,?_,fun wrapper => ⟨⟨out,rfl,rfl⟩,?_⟩⟩
    · rw [written,List.flatMap_cons,List.append_assoc,RWPopen.readline]
      have cut := RWPopen.readlineFrom_line [] line (out.flatMap (· ++ [10])) here.1
      rw [List.nil_append,if_neg here.2] at cut
      exact cut
    · rw [written,List.flatMap_cons,List.count_append,List.count_append,List.count_eq_zero.mpr here.1,
        List.count_singleton_self,Nat.zero_add,Nat.add_comm]
    · exact fun other member => whole other (by rw [split]; exact List.mem_cons_of_mem _ member)

theorem Owed.empty (s : PastSession) (lines : List Bytes) (owed : Owed s lines) (nothing : 10 ∉ s.toWrapper) :
    s.toWrapper = [] ∧ lines = s.console.pending := by
  obtain ⟨⟨out,split,written⟩,_⟩ := owed
  cases out with
  | nil => exact ⟨written,split⟩
  | cons line out => exact absurd (by simp [written]) nothing

theorem Owed.nothing (s : PastSession) (owed : Owed s []) : s.toWrapper = [] ∧ s.console.pending = [] := by
  obtain ⟨⟨out,split,written⟩,_⟩ := owed
  obtain ⟨none,rest⟩ := List.append_eq_nil_iff.mp split.symm
  exact ⟨by rw [written,none]; rfl,rest⟩

/-! ### Where the two processes stand -/

def prompt : Bytes := ConsoleDht.pastConsole.promptString

/-- The lines that are owed end the command that the wrapper waits for, and nothing is left over. -/
inductive Concludes (s : PastSession) (lines : List Bytes) : Prop
  | prompted (task : s.wrapper.task = .joining ∨ s.wrapper.task = .putting)
      (comes : ConsoleDht.waitPromptIn prompt (lines.map RWPopen.stripped) = some [])
      (answers : s.wrapper.answers = s.console.calls.filterMap PastCall.answer)
  | answered (ret answer : Bool) (task : s.wrapper.task = .getting ret)
      (comes : ConsoleDht.readBeside (ConsoleDht.found .pastConsole) prompt ret (lines.map RWPopen.stripped) =
        some (answer,[]))
      (answers : s.wrapper.answers ++ [answer] = s.console.calls.filterMap PastCall.answer)

def taskOf : PastRequest → PastTask
  | .put _ _ => .putting
  | .get _ => .getting false

structure Books (boot : Option Bytes) (asked asking : List PastRequest) (s : PastSession) : Prop where
  joined : boot.isSome = true
  history : s.console.calls.map PastCall.request ++ (asking ++ s.wrapper.requests) = asked
  plain : ∀ request ∈ asked, request.Plain

/-- Between two commands and on their way there is nothing in the pipes. -/
structure Quiet (s : PastSession) : Prop where
  toWrapper : s.toWrapper = []
  pending : s.console.pending = []
  answers : s.wrapper.answers = s.console.calls.filterMap PastCall.answer

inductive Stands (boot : Option Bytes) (asked : List PastRequest) (s : PastSession) : Prop
  | waiting (lines : List Bytes) (running : s.console.running = true) (quiet : s.toConsole = [])
      (books : Books boot asked [] s) (owed : Owed s lines) (concludes : Concludes s lines)
  | refusing (lines : List Bytes) (running : s.console.running = false) (task : s.wrapper.task = .joining)
      (refused : boot = none) (none : s.console.calls = [] ∧ s.wrapper.answers = [])
      (owed : Owed s lines) (never : prompt ∉ lines.map RWPopen.stripped)
  | notJoined (running : s.console.running = false) (task : s.wrapper.task = .notJoined)
      (refused : boot = none) (none : s.console.calls = [] ∧ s.wrapper.answers = [])
      (silent : s.toWrapper = [] ∧ s.console.pending = [])
  | idle (running : s.console.running = true) (quiet : s.toConsole = []) (books : Books boot asked [] s)
      (task : s.wrapper.task = .idle) (silent : Quiet s)
  | sent (request : PastRequest) (running : s.console.running = true) (written : s.toConsole = request.command)
      (books : Books boot asked [request] s) (task : s.wrapper.task = taskOf request) (silent : Quiet s)
  | exiting (running : s.console.running = true) (written : s.toConsole = ascii "exit\n")
      (books : Books boot asked [] s) (last : s.wrapper.requests = []) (task : s.wrapper.task = .leaving)
      (silent : Quiet s)
  | leaving (lines : List Bytes) (running : s.console.running = false) (quiet : s.toConsole = [])
      (books : Books boot asked [] s)
      (last : s.wrapper.requests = []) (task : s.wrapper.task = .leaving) (owed : Owed s lines)
      (comes : ConsoleDht.waitPromptIn PastWrapper.bye (lines.map RWPopen.stripped) = some [])
      (answers : s.wrapper.answers = s.console.calls.filterMap PastCall.answer)
  | left (running : s.console.running = false) (quiet : s.toConsole = []) (books : Books boot asked [] s)
      (last : s.wrapper.requests = []) (task : s.wrapper.task = .left) (silent : Quiet s)

section
variable (boot : Option Bytes) (asked : List PastRequest) (s after : PastSession)

theorem print_stands (stands : Stands boot asked s) (acted : s.act .print = some after) : Stands boot asked after := by
  simp only [act] at acted
  split at acted
  next => cases acted
  next line pending here =>
    cases acted
    have printed (lines : List Bytes) (owed : Owed s lines) := owed.print s lines pending line here
    cases stands with
    | waiting lines running quiet books owed concludes =>
      refine .waiting lines running quiet ⟨books.joined,books.history,books.plain⟩ (printed lines owed) ?_
      cases concludes with
      | prompted task comes answers => exact .prompted task comes answers
      | answered ret answer task comes answers => exact .answered ret answer task comes answers
    | refusing lines running task refused none owed never =>
      exact .refusing lines running task refused none (printed lines owed) never
    | leaving lines running quiet books last task owed comes answers =>
      exact .leaving lines running quiet ⟨books.joined,books.history,books.plain⟩ last task (printed lines owed) comes
        answers
    | notJoined running task refused none silent => simp [silent.2] at here
    | idle running quiet books task silent => simp [silent.pending] at here
    | sent request running written books task silent => simp [silent.pending] at here
    | exiting running written books last task silent => simp [silent.pending] at here
    | left running quiet books last task silent => simp [silent.pending] at here

theorem stands_idle (stands : Stands boot asked s) (free : s.wrapper.task = .idle) :
    s.console.running = true ∧ s.toConsole = [] ∧ Books boot asked [] s ∧ Quiet s := by
  cases stands with
  | idle running quiet books task silent => exact ⟨running,quiet,books,silent⟩
  | waiting lines running quiet books owed concludes =>
    cases concludes with
    | prompted task comes answers => rcases task with task | task <;> simp [task] at free
    | answered ret answer task comes answers => simp [task] at free
  | refusing lines running task refused none owed never => simp [task] at free
  | notJoined running task refused none silent => simp [task] at free
  | sent request running written books task silent => cases request <;> simp [task,taskOf] at free
  | exiting running written books last task silent => simp [task] at free
  | leaving lines running quiet books last task owed comes answers => simp [task] at free
  | left running quiet books last task silent => simp [task] at free

theorem next_request (wrapper : PastWrapper) (request : PastRequest) (requests : List PastRequest)
    (asks : wrapper.requests = request :: requests) :
    wrapper.next = (request.command,{wrapper with requests := requests, task := taskOf request}) := by
  unfold PastWrapper.next
  rw [asks]
  cases request <;> rfl

theorem write_stands (stands : Stands boot asked s) (acted : s.act .write = some after) : Stands boot asked after := by
  simp only [act] at acted
  split at acted
  next free =>
    cases acted
    obtain ⟨running,quiet,⟨joined,history,plain⟩,silent⟩ := stands_idle boot asked s stands free
    cases next : s.wrapper.requests with
    | nil =>
      refine .exiting running ?_ ⟨joined,?_,plain⟩ ?_ ?_ ⟨silent.toWrapper,silent.pending,?_⟩
      all_goals simp only [PastWrapper.next,next]
      · rw [quiet]
        rfl
      · rw [← history,next]
      · exact silent.answers
    | cons request requests =>
      rw [next_request s.wrapper request requests next,quiet]
      refine .sent request running rfl ⟨joined,?_,plain⟩ rfl ⟨silent.toWrapper,silent.pending,silent.answers⟩
      rw [← history,next]
      rfl
  next => cases acted

def called (reaction : PastConsole.Reaction) (request : PastRequest) : PastSession :=
  {s with
    toConsole := []
    console := ⟨PastConsole.waitDone reaction.early (request.call reaction).line ++ [PastConsole.prompt],true,
      s.console.calls ++ [request.call reaction]⟩}

def exited : PastSession := {s with toConsole := [], console := ⟨[PastWrapper.bye],false,s.console.calls⟩}

theorem run_after (reaction : PastConsole.Reaction) (stands : Stands boot asked s)
    (acted : s.act (.run reaction) = some after) :
    (∃ request, s.toConsole = request.command ∧ request ∈ asked ∧ Books boot asked [request] s ∧
      s.wrapper.task = taskOf request ∧ Quiet s ∧ after = s.called reaction request) ∨
    (s.toConsole = ascii "exit\n" ∧ Books boot asked [] s ∧ s.wrapper.requests = [] ∧ s.wrapper.task = .leaving ∧
      Quiet s ∧ after = s.exited) := by
  simp only [act] at acted
  split at acted
  next ready =>
    obtain ⟨free,running⟩ := ready
    obtain ⟨⟨line,rest⟩,read,rfl⟩ := Option.map_eq_some_iff.mp acted
    have nothing : PastConsole.nextLine [] = none := rfl
    cases stands with
    | waiting lines running quiet books owed concludes => rw [quiet,nothing] at read; cases read
    | idle running quiet books task silent => rw [quiet,nothing] at read; cases read
    | refusing lines stopped task refused none owed never => rw [stopped] at running; cases running
    | notJoined stopped task refused none silent => rw [stopped] at running; cases running
    | leaving lines stopped quiet books last task owed comes answers => rw [stopped] at running; cases running
    | left stopped quiet books last task silent => rw [stopped] at running; cases running
    | exiting running written books last task silent =>
      have line_exit : PastConsole.nextLine (ascii "exit\n") = some (ascii "exit",[]) := by decide
      rw [written,line_exit] at read
      cases read
      exact .inr ⟨written,books,last,task,silent,rfl⟩
    | sent request running written books task silent =>
      have asks : request ∈ asked := by
        rw [← books.history]
        simp
      obtain ⟨command,cut,runs⟩ := request.command_run (books.plain request asks)
      rw [written,cut] at read
      cases read
      exact .inl ⟨request,written,asks,books,task,silent,by rw [runs]; rfl⟩
  next => cases acted

theorem run_stands (reaction : PastConsole.Reaction) (stands : Stands boot asked s)
    (permitted : Permitted s (.run reaction)) (acted : s.act (.run reaction) = some after) :
    Stands boot asked after := by
  rcases run_after boot asked s after reaction stands acted with
    ⟨request,written,asks,books,task,silent,rfl⟩ | ⟨written,books,last,task,silent,rfl⟩
  · have single : ∀ content, reaction.get = .found content → 10 ∉ content := by
      intro content found
      simpa [Permitted,found] using permitted
    have whole := PastConsole.waitDone_whole reaction.early _ (request.call_whole reaction single)
    refine .waiting _ rfl rfl ⟨books.joined,?_,books.plain⟩ ⟨⟨[],rfl,silent.toWrapper⟩,whole⟩ ?_
    · rw [← books.history,called,List.map_append,List.map_singleton,request.call_request reaction,List.append_assoc]
      rfl
    · cases request with
      | put key value =>
        refine .prompted (.inr task) (PastConsole.waitDone_put reaction.early reaction.put) ?_
        rw [called,List.filterMap_append,silent.answers]
        exact (List.append_nil _).symm
      | get key =>
        refine .answered false reaction.get.isFound task (PastConsole.waitDone_get reaction.early reaction.get) ?_
        rw [called,List.filterMap_append,silent.answers]
        rfl
  · refine .leaving [PastWrapper.bye] rfl rfl ⟨books.joined,books.history,books.plain⟩ last task
      ⟨⟨[],rfl,silent.toWrapper⟩,?_⟩ (by decide) silent.answers
    intro line member
    rw [List.mem_singleton.mp member]
    exact ⟨by decide,by decide⟩

theorem line_stands (lines : List Bytes) (line : Bytes) (rest : List Bytes) (left : Bytes)
    (running : s.console.running = true) (quiet : s.toConsole = []) (books : Books boot asked [] s)
    (split : lines = line :: rest) (concludes : Concludes s lines)
    (owed : ∀ wrapper, Owed {s with toWrapper := left, wrapper := wrapper} rest) :
    Stands boot asked {s with toWrapper := left, wrapper := s.wrapper.took (RWPopen.stripped line)} := by
  have wrote := owed (s.wrapper.took (RWPopen.stripped line))
  have empty (none : rest.map RWPopen.stripped = []) :=
    Owed.nothing _ ((List.map_eq_nil_iff.mp none) ▸ wrote)
  subst split
  have prompted (task : s.wrapper.task = .joining ∨ s.wrapper.task = .putting) :
      s.wrapper.took (RWPopen.stripped line) = if RWPopen.stripped line = prompt then {s.wrapper with task := .idle} else s.wrapper := by
    rcases task with task | task <;> simp only [PastWrapper.took,task] <;> rfl
  cases concludes with
  | prompted task comes answers =>
    rw [List.map_cons,ConsoleDht.waitPromptIn] at comes
    split at comes
    next last =>
      obtain ⟨toWrapper,pending⟩ := empty (Option.some.inj comes)
      rw [prompted task,if_pos last]
      exact .idle running quiet ⟨books.joined,books.history,books.plain⟩ rfl ⟨toWrapper,pending,answers⟩
    next other =>
      rw [prompted task,if_neg other] at wrote ⊢
      exact .waiting rest running quiet ⟨books.joined,books.history,books.plain⟩ wrote (.prompted task comes answers)
  | answered ret answer task comes answers =>
    have took : s.wrapper.took (RWPopen.stripped line) =
        if ConsoleDht.pastConsole.found (RWPopen.stripped line) then {s.wrapper with task := .getting true}
        else if RWPopen.stripped line = prompt then
          {s.wrapper with task := .idle, answers := s.wrapper.answers ++ [ret]}
        else s.wrapper := by
      simp only [PastWrapper.took,task]
      rfl
    rw [List.map_cons,ConsoleDht.readBeside] at comes
    split at comes
    next value =>
      rw [took,if_pos value] at wrote ⊢
      exact .waiting rest running quiet ⟨books.joined,books.history,books.plain⟩ wrote
        (.answered true answer rfl comes answers)
    next plain =>
      split at comes
      next last =>
        obtain ⟨same,none⟩ := Prod.mk.inj (Option.some.inj comes)
        obtain ⟨toWrapper,pending⟩ := empty none
        rw [took,if_neg plain,if_pos last,same]
        exact .idle running quiet ⟨books.joined,books.history,books.plain⟩ rfl ⟨toWrapper,pending,answers⟩
      next other =>
        rw [took,if_neg plain,if_neg other] at wrote ⊢
        exact .waiting rest running quiet ⟨books.joined,books.history,books.plain⟩ wrote
          (.answered ret answer task comes answers)

theorem stands_owed (stands : Stands boot asked s) : ∃ lines, Owed s lines := by
  have silence (toWrapper : s.toWrapper = []) (pending : s.console.pending = []) : ∃ lines, Owed s lines :=
    ⟨[],⟨[],pending.symm,toWrapper⟩,fun line member => absurd member List.not_mem_nil⟩
  cases stands with
  | waiting lines running quiet books owed concludes => exact ⟨lines,owed⟩
  | refusing lines running task refused none owed never => exact ⟨lines,owed⟩
  | leaving lines running quiet books last task owed comes answers => exact ⟨lines,owed⟩
  | notJoined running task refused none silent => exact silence silent.1 silent.2
  | idle running quiet books task silent => exact silence silent.toWrapper silent.pending
  | sent request running written books task silent => exact silence silent.toWrapper silent.pending
  | exiting running written books last task silent => exact silence silent.toWrapper silent.pending
  | left running quiet books last task silent => exact silence silent.toWrapper silent.pending

theorem stands_ended (stands : Stands boot asked s) (reading : s.wrapper.task.reading = true)
    (nothing : 10 ∉ s.toWrapper) (halted : s.console.pending = [] ∧ ¬s.console.running = true) :
    s.wrapper.task = .joining ∧ boot = none ∧ s.console.calls = [] ∧ s.wrapper.answers = [] := by
  cases stands with
  | refusing lines running task refused none owed never => exact ⟨task,refused,none⟩
  | leaving lines running quiet books last task owed comes answers =>
    -- The farewell is still to be printed, so the pipe does not end here.
    obtain ⟨_,all⟩ := owed.empty s lines nothing
    rw [all,halted.1] at comes
    cases comes
  | waiting lines running quiet books owed concludes => exact absurd running halted.2
  | sent request running written books task silent => exact absurd running halted.2
  | exiting running written books last task silent => exact absurd running halted.2
  | idle running quiet books task silent => exact absurd running halted.2
  | notJoined running task refused none silent => simp [task,PastTask.reading] at reading
  | left running quiet books last task silent => simp [task,PastTask.reading] at reading

theorem farewell_stands (lines : List Bytes) (line : Bytes) (rest : List Bytes) (left : Bytes)
    (running : s.console.running = false) (quiet : s.toConsole = []) (books : Books boot asked [] s)
    (last : s.wrapper.requests = []) (task : s.wrapper.task = .leaving)
    (comes : ConsoleDht.waitPromptIn PastWrapper.bye (lines.map RWPopen.stripped) = some [])
    (answers : s.wrapper.answers = s.console.calls.filterMap PastCall.answer) (split : lines = line :: rest)
    (owed : ∀ wrapper, Owed {s with toWrapper := left, wrapper := wrapper} rest) :
    Stands boot asked {s with toWrapper := left, wrapper := s.wrapper.took (RWPopen.stripped line)} := by
  subst split
  have took : s.wrapper.took (RWPopen.stripped line) =
      if RWPopen.stripped line = PastWrapper.bye then {s.wrapper with task := .left} else s.wrapper := by
    simp only [PastWrapper.took,task]
  rw [List.map_cons,ConsoleDht.waitPromptIn] at comes
  split at comes
  next final =>
    have none : rest = [] := List.map_eq_nil_iff.mp (Option.some.inj comes)
    obtain ⟨toWrapper,pending⟩ := Owed.nothing _ (none ▸ owed s.wrapper)
    rw [took,if_pos final]
    exact .left running quiet ⟨books.joined,books.history,books.plain⟩ last rfl ⟨toWrapper,pending,answers⟩
  next other =>
    rw [took,if_neg other]
    exact .leaving rest running quiet ⟨books.joined,books.history,books.plain⟩ last task (owed s.wrapper) comes answers

theorem usage_stands (lines : List Bytes) (line : Bytes) (rest : List Bytes) (left : Bytes)
    (running : s.console.running = false) (task : s.wrapper.task = .joining) (refused : boot = none)
    (none : s.console.calls = [] ∧ s.wrapper.answers = []) (never : prompt ∉ lines.map RWPopen.stripped)
    (split : lines = line :: rest) (owed : ∀ wrapper, Owed {s with toWrapper := left, wrapper := wrapper} rest) :
    Stands boot asked {s with toWrapper := left, wrapper := s.wrapper.took (RWPopen.stripped line)} := by
  subst split
  obtain ⟨other,never⟩ := not_or.mp (List.mem_cons.not.mp never)
  have took : s.wrapper.took (RWPopen.stripped line) = s.wrapper := by
    simp only [PastWrapper.took,task]
    exact if_neg (Ne.symm other)
  rw [took]
  exact .refusing rest running task refused none (owed s.wrapper) never

theorem read_stands (stands : Stands boot asked s) (acted : s.act .read = some after) : Stands boot asked after := by
  simp only [act] at acted
  split at acted
  next reading =>
    split at acted
    next arrived =>
      have some (silent : s.toWrapper = []) : False := by simp [silent] at arrived
      cases stands with
      | waiting lines running quiet books owed concludes =>
        obtain ⟨line,rest,left,split,cut,_,kept⟩ := owed.read s lines arrived
        rw [cut] at acted
        cases acted
        exact line_stands boot asked s lines line rest left running quiet books split concludes kept
      | refusing lines running task refused none owed never =>
        obtain ⟨line,rest,left,split,cut,_,kept⟩ := owed.read s lines arrived
        rw [cut] at acted
        cases acted
        exact usage_stands boot asked s lines line rest left running task refused none never split kept
      | leaving lines running quiet books last task owed comes answers =>
        obtain ⟨line,rest,left,split,cut,_,kept⟩ := owed.read s lines arrived
        rw [cut] at acted
        cases acted
        exact farewell_stands boot asked s lines line rest left running quiet books last task comes answers split kept
      | notJoined running task refused none silent => exact (some silent.1).elim
      | idle running quiet books task silent => exact (some silent.toWrapper).elim
      | sent request running written books task silent => exact (some silent.toWrapper).elim
      | exiting running written books last task silent => exact (some silent.toWrapper).elim
      | left running quiet books last task silent => exact (some silent.toWrapper).elim
    next nothing =>
      split at acted
      next halted =>
        cases acted
        obtain ⟨task,refused,none⟩ := stands_ended boot asked s stands reading nothing halted
        have stopped : s.console.running = false := Bool.eq_false_iff.mpr halted.2
        exact .notJoined stopped (by simp only [PastWrapper.ended,task]; rfl) refused none ⟨rfl,halted.1⟩
      next => cases acted
  next => cases acted

theorem step_stands (stands : Stands boot asked s) (step : Step s after) : Stands boot asked after := by
  obtain ⟨action,permitted,acted⟩ := step
  cases action with
  | print => exact print_stands boot asked s after stands acted
  | run reaction => exact run_stands boot asked s after reaction stands permitted acted
  | write => exact write_stands boot asked s after stands acted
  | read => exact read_stands boot asked s after stands acted

end

theorem start_stands (boot : Option Bytes) (requests : List PastRequest) (named : ∀ node ∈ boot, 10 ∉ node)
    (plain : ∀ request ∈ requests, request.Plain) : Stands boot requests (start boot requests) := by
  have usage_whole : ∀ line ∈ PastConsole.usage, 10 ∉ line ∧ line ≠ [] := by decide
  cases boot with
  | none => exact .refusing PastConsole.usage rfl rfl rfl ⟨rfl,rfl⟩ ⟨⟨[],rfl,rfl⟩,usage_whole⟩ (by decide)
  | some node =>
    have first : PastConsole.Whole (ascii "Finished creating new node " ++ node) := by
      refine ⟨fun newline => ?_,List.append_ne_nil_of_left_ne_nil (by decide) _⟩
      rcases List.mem_append.mp newline with text | inside
      · revert text
        decide
      · exact named node rfl inside
    refine .waiting [ascii "Finished creating new node " ++ node,PastConsole.prompt] rfl rfl ⟨rfl,rfl,plain⟩
      ⟨⟨[],rfl,rfl⟩,?_⟩ (.prompted (.inl rfl) (PastConsole.start_prompt node) rfl)
    intro line member
    rcases List.mem_cons.mp member with rfl | last
    · exact first
    · rw [List.mem_singleton.mp last]
      exact ⟨by decide,by decide⟩

theorem run_stands_all (boot : Option Bytes) (requests : List PastRequest) (named : ∀ node ∈ boot, 10 ∉ node)
    (plain : ∀ request ∈ requests, request.Plain) (s : PastSession)
    (run : ReflTransGen Step (start boot requests) s) : Stands boot requests s :=
  run_invariant run (start_stands boot requests named plain) fun before after => step_stands boot requests before after

/-- Nothing is outstanding: every command so far has been run and every get answered. -/
def Settled (s : PastSession) : Prop :=
  s.toConsole = [] ∧ s.toWrapper = [] ∧ s.console.pending = [] ∧
    s.wrapper.answers = s.console.calls.filterMap PastCall.answer

structure Faithful (boot : Option Bytes) (asked : List PastRequest) (s : PastSession) : Prop where
  safe : s.wrapper.task ≠ .crashed
  commands : s.console.calls.map PastCall.request <+: asked
  answers : s.wrapper.answers <+: s.console.calls.filterMap PastCall.answer
  between : s.wrapper.task = .idle → s.Settled
  finished : s.wrapper.task = .left → boot.isSome = true ∧ s.Settled ∧ s.console.calls.map PastCall.request = asked
  refused : s.wrapper.task = .notJoined → boot = none ∧ s.console.calls = []

theorem stands_faithful (boot : Option Bytes) (asked : List PastRequest) (s : PastSession)
    (stands : Stands boot asked s) : Faithful boot asked s := by
  have given (asking : List PastRequest) (books : Books boot asked asking s) :
      s.console.calls.map PastCall.request <+: asked := ⟨_,books.history⟩
  have told (answers : s.wrapper.answers = s.console.calls.filterMap PastCall.answer) :
      s.wrapper.answers <+: s.console.calls.filterMap PastCall.answer := answers ▸ List.prefix_rfl
  cases stands with
  | waiting lines running quiet books owed concludes =>
    cases concludes with
    | prompted task comes answers =>
      rcases task with task | task <;>
        exact ⟨by simp [task],given [] books,told answers,by simp [task],by simp [task],by simp [task]⟩
    | answered ret answer task comes answers =>
      exact ⟨by simp [task],given [] books,⟨[answer],answers⟩,by simp [task],by simp [task],by simp [task]⟩
  | refusing lines running task refused none owed never =>
    exact ⟨by simp [task],by simp [none.1],by simp [none.2],by simp [task],by simp [task],by simp [task]⟩
  | notJoined running task refused none silent =>
    exact ⟨by simp [task],by simp [none.1],by simp [none.2],by simp [task],by simp [task],fun _ => ⟨refused,none.1⟩⟩
  | idle running quiet books task silent =>
    exact ⟨by simp [task],given [] books,told silent.answers,
      fun _ => ⟨quiet,silent.toWrapper,silent.pending,silent.answers⟩,by simp [task],by simp [task]⟩
  | sent request running written books task silent =>
    cases request <;>
      exact ⟨by simp [task,taskOf],given _ books,told silent.answers,by simp [task,taskOf],by simp [task,taskOf],
        by simp [task,taskOf]⟩
  | exiting running written books last task silent =>
    exact ⟨by simp [task],given [] books,told silent.answers,by simp [task],by simp [task],by simp [task]⟩
  | leaving lines running quiet books last task owed comes answers =>
    exact ⟨by simp [task],given [] books,told answers,by simp [task],by simp [task],by simp [task]⟩
  | left running quiet books last task silent =>
    have all : s.console.calls.map PastCall.request = asked := by
      rw [← books.history,last]
      exact (List.append_nil _).symm
    exact ⟨by simp [task],given [] books,told silent.answers,by simp [task],
      fun _ => ⟨books.joined,⟨quiet,silent.toWrapper,silent.pending,silent.answers⟩,all⟩,by simp [task]⟩

/-- Whatever the two processes do in whatever order, the console runs the wrapper's commands
once each and in their order, the answers are those of the gets in their order, and the
wrapper never gives a command while an answer is outstanding. -/
theorem commands_run_once (boot : Option Bytes) (requests : List PastRequest) (named : ∀ node ∈ boot, 10 ∉ node)
    (plain : ∀ request ∈ requests, request.Plain) (s : PastSession)
    (run : ReflTransGen Step (start boot requests) s) : Faithful boot requests s :=
  stands_faithful boot requests s (run_stands_all boot requests named plain s run)

/-- A key is stored and found again, with the answer to the put before the console waits. -/
theorem put_then_get : ∃ s, s.wrapper.answers = [true] ∧
    Faithful (some (ascii "<0x1>")) [.put (ascii "k") (ascii "v"),.get (ascii "k")] s := by
  have performed : (perform act Permitted (start (some (ascii "<0x1>")) [.put (ascii "k") (ascii "v"),.get (ascii "k")])
      [.print,.print,.read,.read,.write,.run ⟨.stored 3,.missing,true⟩,.print,.print,.read,.print,.read,.print,.read,
        .read,.write,.run ⟨.failed,.found (ascii "v"),false⟩,.print,.print,.print,.print,.read,.read,.read,.read]).any
      (fun s => s.wrapper.answers = [true]) = true := by
    decide +kernel
  obtain ⟨s,run,good⟩ := perform_run act Permitted _ _ _ performed
  refine ⟨s,of_decide_eq_true good,commands_run_once (some (ascii "<0x1>")) _ (by decide) ?_ s run⟩
  intro request member
  simp only [List.mem_cons,List.not_mem_nil,or_false] at member
  rcases member with rfl | rfl
  · exact ⟨by decide,by decide⟩
  · exact (by decide : PastConsole.Word (ascii "k"))

end PastSession
end Dhtperf
