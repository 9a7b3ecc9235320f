import Dhtperf.DhtNode.PastSession

/-! A session ends: as long as it has not, one of the two processes can go on, and what is left
to do becomes less with every step. -/
namespace Dhtperf
open Library Relation

namespace PastTask

def weight : PastTask → Nat
  | .joining => 13
  | .idle => 13
  | .putting => 13
  | .getting _ => 13
  | _ => 0

end PastTask

namespace PastWrapper

theorem took_weight (wrapper : PastWrapper) (line : Bytes) :
    (wrapper.took line).requests = wrapper.requests ∧ (wrapper.took line).task.weight ≤ wrapper.task.weight := by
  unfold took
  cases task : wrapper.task with
  | joining => dsimp only; split <;> simp [task,PastTask.weight]
  | putting => dsimp only; split <;> simp [task,PastTask.weight]
  | leaving => dsimp only; split <;> simp [task,PastTask.weight]
  | getting ret =>
    dsimp only
    split
    next => simp [PastTask.weight]
    next => split <;> simp [task,PastTask.weight]
  | idle => simp [task]
  | left => simp [task]
  | notJoined => simp [task]
  | crashed => simp [task]

end PastWrapper

namespace PastSession

/-- What is left to do. A command weighs more than what it makes the console print, and a line
to be printed more than one to be read. -/
def remaining (s : PastSession) : Nat :=
  20 * s.wrapper.requests.length + (if s.toConsole = [] then 0 else 12) + 2 * s.console.pending.length +
    s.toWrapper.count 10 + s.wrapper.task.weight

section
variable (boot : Option Bytes) (asked : List PastRequest) (s after : PastSession)

theorem print_remaining (stands : Stands boot asked s) (acted : s.act .print = some after) :
    after.remaining < s.remaining := by
  obtain ⟨lines,⟨out,split,_⟩,whole⟩ := stands_owed boot asked s stands
  simp only [act] at acted
  split at acted
  next => cases acted
  next line pending here =>
    cases acted
    have plain := List.count_eq_zero.mpr (whole line (by simp [split,here])).1
    simp only [remaining,here,List.length_cons,List.count_append,plain,List.count_singleton_self]
    omega

theorem run_remaining (reaction : PastConsole.Reaction) (stands : Stands boot asked s)
    (acted : s.act (.run reaction) = some after) : after.remaining < s.remaining := by
  rcases run_after boot asked s after reaction stands acted with
    ⟨request,written,asks,books,task,silent,rfl⟩ | ⟨written,books,last,task,silent,rfl⟩
  · have four (result : Bytes) : (PastConsole.waitDone reaction.early result ++ [PastConsole.prompt]).length = 4 := by
      cases reaction.early <;> rfl
    have some : request.command ≠ [] := by
      cases request <;> simp [PastRequest.command,ConsoleDht.putCommand,ConsoleDht.getCommand]
    simp only [remaining,called,four,written,some,silent.pending,if_true,if_false,List.length_nil]
    omega
  · have some : ascii "exit\n" ≠ [] := by decide
    simp only [remaining,exited,written,some,silent.pending,if_true,if_false,List.length_singleton,List.length_nil]
    omega

theorem write_remaining (stands : Stands boot asked s) (acted : s.act .write = some after) :
    after.remaining < s.remaining := by
  simp only [act] at acted
  split at acted
  next free =>
    cases acted
    obtain ⟨running,quiet,books,silent⟩ := stands_idle boot asked s stands free
    cases next : s.wrapper.requests with
    | nil =>
      have leaves : s.wrapper.next = (ascii "exit\n",{s.wrapper with task := .leaving}) := by
        simp only [PastWrapper.next,next]
      have some : ascii "exit\n" ≠ [] := by decide
      simp only [remaining,leaves,quiet,free,next,List.nil_append,some,if_true,if_false,PastTask.weight]
      omega
    | cons request requests =>
      have some : request.command ≠ [] := by
        cases request <;> simp [PastRequest.command,ConsoleDht.putCommand,ConsoleDht.getCommand]
      have weight : (taskOf request).weight = 13 := by cases request <;> rfl
      rw [next_request s.wrapper request requests next]
      simp only [remaining,quiet,free,next,List.nil_append,some,weight,if_true,if_false,List.length_cons]
      have here : PastTask.idle.weight = 13 := rfl
      omega
  next => cases acted

theorem read_remaining (stands : Stands boot asked s) (acted : s.act .read = some after) :
    after.remaining < s.remaining := by
  simp only [act] at acted
  split at acted
  next reading =>
    split at acted
    next arrived =>
      obtain ⟨lines,owed⟩ := stands_owed boot asked s stands
      obtain ⟨line,rest,left,split,cut,fewer,kept⟩ := owed.read s lines arrived
      rw [cut] at acted
      cases acted
      obtain ⟨same,less⟩ := s.wrapper.took_weight (RWPopen.stripped line)
      simp only [remaining,same,fewer]
      omega
    next nothing =>
      split at acted
      next halted =>
        cases acted
        obtain ⟨task,_,_⟩ := stands_ended boot asked s stands reading nothing halted
        simp only [remaining,PastWrapper.ended,task,if_true,PastTask.weight,List.count_nil]
        omega
      next => cases acted
  next => cases acted

theorem step_remaining (stands : Stands boot asked s) (step : Step s after) : after.remaining < s.remaining := by
  obtain ⟨action,permitted,acted⟩ := step
  cases action with
  | print => exact print_remaining boot asked s after stands acted
  | run reaction => exact run_remaining boot asked s after reaction stands acted
  | write => exact write_remaining boot asked s after stands acted
  | read => exact read_remaining boot asked s after stands acted

theorem pipe_progress (lines : List Bytes) (owed : Owed s lines) (reading : s.wrapper.task.reading = true)
    (comes : lines ≠ [] ∨ s.console.running = false) : ∃ after, Step s after := by
  cases pending : s.console.pending with
  | cons line rest =>
    exact ⟨{s with toWrapper := s.toWrapper ++ (line ++ [10]), console := {s.console with pending := rest}},
      .print,trivial,by simp only [act,pending]⟩
  | nil =>
    by_cases arrived : 10 ∈ s.toWrapper
    · obtain ⟨line,rest,left,split,cut,_,kept⟩ := owed.read s lines arrived
      exact ⟨_,.read,trivial,by rw [act,if_pos reading,if_pos arrived,cut]⟩
    · have stopped : ¬s.console.running = true := by
        rcases comes with some | stopped
        · exact absurd ((owed.empty s lines arrived).2.trans pending) some
        · simp [stopped]
      exact ⟨_,.read,trivial,by rw [act,if_pos reading,if_neg arrived,if_pos ⟨pending,stopped⟩]⟩

theorem command_progress (line : Bytes) (running : s.console.running = true) (silent : Quiet s)
    (written : PastConsole.nextLine s.toConsole = some (line,[])) : ∃ after, Step s after := by
  let reaction : PastConsole.Reaction := ⟨.failed,.failed,false⟩
  exact ⟨{s with toConsole := [], console := s.console.run reaction line},.run reaction,trivial,
    by rw [act,if_pos ⟨silent.pending,running⟩,written]; rfl⟩

theorem stands_progress (stands : Stands boot asked s) (going : s.wrapper.task ≠ .left)
    (joins : s.wrapper.task ≠ .notJoined) : ∃ after, Step s after := by
  cases stands with
  | waiting lines running quiet books owed concludes =>
    cases concludes with
    | prompted task comes answers =>
      have reading : s.wrapper.task.reading = true := by rcases task with task | task <;> rw [task] <;> rfl
      exact pipe_progress s lines owed reading (.inl (by rintro rfl; cases comes))
    | answered ret answer task comes answers =>
      exact pipe_progress s lines owed (by rw [task]; rfl) (.inl (by rintro rfl; cases comes))
  | refusing lines running task refused none owed never =>
    exact pipe_progress s lines owed (by rw [task]; rfl) (.inr running)
  | leaving lines running quiet books last task owed comes answers =>
    exact pipe_progress s lines owed (by rw [task]; rfl) (.inr running)
  | idle running quiet books task silent => exact ⟨_,.write,trivial,by rw [act,if_pos task]⟩
  | sent request running written books task silent =>
    have asks : request ∈ asked := by
      rw [← books.history]
      simp
    obtain ⟨line,cut,_⟩ := request.command_run (books.plain request asks)
    exact command_progress s line running silent (by rw [written,cut])
  | exiting running written books last task silent =>
    exact command_progress s (ascii "exit") running silent (by rw [written]; decide)
  | notJoined running task refused none silent => exact absurd task joins
  | left running quiet books last task silent => exact absurd task going

end

/-- A session does not go on for ever, and one that cannot go on has left the network with all
its commands run and all its gets answered, or was never in it. -/
theorem session_ends (boot : Option Bytes) (requests : List PastRequest) (named : ∀ node ∈ boot, 10 ∉ node)
    (plain : ∀ request ∈ requests, request.Plain) :
    (∀ path : Nat → PastSession, path 0 = start boot requests → ¬∀ n, Step (path n) (path (n+1))) ∧
      ∀ s, ReflTransGen Step (start boot requests) s → (∀ after, ¬Step s after) →
        if boot.isSome then
          s.wrapper.task = .left ∧ s.console.calls.map PastCall.request = requests ∧
            s.wrapper.answers = s.console.calls.filterMap PastCall.answer
        else s.wrapper.task = .notJoined ∧ s.console.calls = [] := by
  constructor
  · intro path first
    apply no_endless_run remaining (step_stands boot requests) (step_remaining boot requests) path
    rw [first]
    exact start_stands boot requests named plain
  · intro s run stuck
    have stands := run_stands_all boot requests named plain s run
    have faithful := stands_faithful boot requests s stands
    by_cases gone : s.wrapper.task = .left
    · obtain ⟨joined,settled,all⟩ := faithful.finished gone
      rw [if_pos joined]
      exact ⟨gone,all,settled.2.2.2⟩
    · have given : s.wrapper.task = .notJoined := by
        by_contra joins
        obtain ⟨after,step⟩ := stands_progress boot requests s stands gone joins
        exact stuck after step
      obtain ⟨rfl,none⟩ := faithful.refused given
      exact ⟨given,none⟩

theorem exited_stuck (s : PastSession) (printed : s.console.pending = []) (exited : s.console.running = false)
    (silent : s.wrapper.task.reading = false) (done : s.wrapper.task ≠ .idle) : ∀ after, ¬Step s after := by
  rintro after ⟨action,_,acted⟩
  cases action with
  | print => simp [act,printed] at acted
  | run reaction => simp [act,exited] at acted
  | write => simp [act,done] at acted
  | read => simp [act,silent] at acted

theorem refused_session : ∃ s, ReflTransGen Step (start none [.get (ascii "k")]) s ∧
    s.wrapper.task = .notJoined ∧ s.console.pending = [] ∧ s.console.running = false := by
  have performed : (perform act Permitted (start none [.get (ascii "k")])
      [.print,.print,.print,.print,.read,.read,.read,.read,.read]).any
      (fun s => s.wrapper.task = .notJoined ∧ s.console.pending = [] ∧ s.console.running = false) = true := by
    decide +kernel
  obtain ⟨s,run,good⟩ := perform_run act Permitted _ _ _ performed
  exact ⟨s,run,of_decide_eq_true good⟩

theorem left_session : ∃ s, ReflTransGen Step (start (some (ascii "<0x1>")) [.get (ascii "k")]) s ∧
    s.wrapper.task = .left ∧ s.console.pending = [] ∧ s.console.running = false := by
  have performed : (perform act Permitted (start (some (ascii "<0x1>")) [.get (ascii "k")])
      [.print,.print,.read,.read,.write,.run ⟨.failed,.found (ascii "v"),false⟩,.print,.print,.print,.print,.read,.read,
        .read,.read,.write,.run ⟨.failed,.failed,false⟩,.print,.read]).any
      (fun s => s.wrapper.task = .left ∧ s.console.pending = [] ∧ s.console.running = false) = true := by
    decide +kernel
  obtain ⟨s,run,good⟩ := perform_run act Permitted _ _ _ performed
  exact ⟨s,run,of_decide_eq_true good⟩

/-- A wrapper with one command, and a console that cannot join or one that can. -/
theorem get_sessions_end :
    (∃ s : PastSession, s.wrapper.task = .notJoined ∧ s.console.calls = []) ∧
    ∃ s : PastSession, s.wrapper.task = .left ∧ s.console.calls.map PastCall.request = [.get (ascii "k")] ∧
      s.wrapper.answers = s.console.calls.filterMap PastCall.answer := by
  obtain ⟨s,refused,task,printed,exited⟩ := refused_session
  obtain ⟨t,joined,last,done,stopped⟩ := left_session
  have plain : ∀ request ∈ [PastRequest.get (ascii "k")], request.Plain := by
    intro request member
    rw [List.mem_singleton.mp member]
    exact (by decide : PastConsole.Word (ascii "k"))
  refine ⟨⟨s,?_⟩,⟨t,?_⟩⟩
  · exact (session_ends none _ (fun node member => by cases member) plain).2 s refused
      (exited_stuck s printed exited (by rw [task]; rfl) (by simp [task]))
  · exact (session_ends (some (ascii "<0x1>")) _ (by decide) plain).2 t joined
      (exited_stuck t done stopped (by rw [last]; rfl) (by simp [last]))

end PastSession
end Dhtperf
