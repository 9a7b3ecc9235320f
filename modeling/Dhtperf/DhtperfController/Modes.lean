import Dhtperf.DhtperfController.Moves

/-! Joins want a disconnected node and leaves a connected one. A batch is popped in the
right mode, but its first join or leave changes the mode for the rest of it. -/
namespace Dhtperf
open Library DhtNode

namespace Loop

/-- A processed join or leave is the last of its kind in the batch, or the time is up. -/
def Alone (before after : Loop) : Prop :=
  ∀ poppedAt pending op event rest, before.pc = .batch poppedAt pending → op = .join ∨ op = .leave →
    (∀ other, turn other < turn op → pending other = []) → pending op = event :: rest →
    rest = [] ∨ after.timeUp = true

/-- Every pending event finds the mode it wants, and so did every event that was run. -/
structure Obedient (s : Loop) : Prop where
  batch : ∀ poppedAt pending, s.pc = .batch poppedAt pending →
    ∀ op, pending op ≠ [] → s.dhtNode.connected = wanted op
  going : s.pc ≠ .ended .wrongMode
  runs : ∀ op, ∀ run ∈ s.executed op, run.connected = wanted op

theorem handled_batch (s : Loop) (obedient : Obedient s) (poppedAt : TimeUnit)
    (pending : (op : DhtOperation) → List (DhtEvent op)) (op : DhtOperation) (event : DhtEvent op)
    (rest : List (DhtEvent op)) (node : DhtNode) (here : s.pc = .batch poppedAt pending)
    (first : ∀ other, turn other < turn op → pending other = []) (next : pending op = event :: rest)
    (left : node.connected = left op) (alone : op = .join ∨ op = .leave → rest = [])
    (other : DhtOperation) (busy : Function.update pending op rest other ≠ []) :
    node.connected = wanted other := by
  have mode := obedient.batch poppedAt pending here op (by simp [next])
  by_cases same : other = op
  · subst same
    rw [Function.update_self] at busy
    cases other with
    | join => exact absurd (alone (Or.inl rfl)) busy
    | leave => exact absurd (alone (Or.inr rfl)) busy
    | put => exact left
    | get => exact left
  · rw [Function.update_of_ne same] at busy
    have later : turn op ≤ turn other := by
      by_contra earlier
      exact busy (first other (Nat.not_le.mp earlier))
    have together : wanted other = wanted op := by
      rw [← obedient.batch poppedAt pending here other busy,mode]
    rw [left]
    cases op <;> cases other <;>
      first | rfl | exact absurd rfl same | exact absurd together (by decide) | exact absurd later (by decide)

section
variable [heap : StdHeap]

theorem moves_obedient (s after : Loop) (obedient : Obedient s) (moves : Moves s after)
    (alone : Alone s after) : Obedient after := by
  cases moves with
  | expired reading here up => exact ⟨nofun,nofun,obedient.runs⟩
  | failed reading fault here => exact ⟨nofun,nofun,obedient.runs⟩
  | waits reading polled here later more ok early => exact ⟨nofun,nofun,obedient.runs⟩
  | wake toWait reading here later => exact ⟨nofun,nofun,obedient.runs⟩
  | popped reading polled here later more ok some due =>
    refine ⟨?_,nofun,obedient.runs⟩
    intro poppedAt pending same op busy
    cases same
    by_cases mode : op ∈ modeOperations s.dhtNode.connected
    · exact mode_wanted _ op mode
    · exact absurd (if_neg mode) busy
  | refused poppedAt pending op attempts fault here busy returned =>
    have mode := obedient.batch poppedAt pending here op busy
    obtain ⟨_,same,_⟩ := processEvent_wanted op s.dhtNode attempts _ mode returned
    cases same
  | batchDone poppedAt pending here empty =>
    rcases afterEvents_cases s with same | ⟨toWait,same⟩
    · rw [same]
      exact ⟨nofun,nofun,obedient.runs⟩
    · rw [same]
      exact ⟨nofun,nofun,obedient.runs⟩
  | handled poppedAt pending op event rest attempts node reading pc here first next returned later check =>
    have mode := obedient.batch poppedAt pending here op (by simp [next])
    obtain ⟨_,same,left⟩ := processEvent_wanted op s.dhtNode attempts _ mode returned
    cases same
    have runs : ∀ other, ∀ run ∈ (s.ran poppedAt event node reading pc).executed other,
        run.connected = wanted other := by
      intro other run member
      by_cases same : other = op
      · subst same
        rw [ran_executed] at member
        rcases List.mem_append.mp member with earlier | now
        · exact obedient.runs other run earlier
        · rw [List.mem_singleton.mp now]
          exact mode
      · rw [ran_other s poppedAt event node reading pc other same] at member
        exact obedient.runs other run member
    rcases check with ⟨up,rfl⟩ | ⟨more,rfl⟩
    · exact ⟨nofun,nofun,runs⟩
    · refine ⟨?_,nofun,runs⟩
      intro poppedAt' pending' same
      cases same
      apply handled_batch s obedient poppedAt pending op event rest node here first next left
      intro kind
      rcases alone poppedAt pending op event rest here kind first next with last | up
      · exact last
      · exact absurd (more.symm.trans up) (by decide)

theorem run_obedient (accepts : Distributions) (join leave put get : Bytes) (duration : TimeUnit)
    (draws : Draws) (first s : Loop) (accepted : start accepts join leave put get duration draws = .ok first)
    (run : Relation.ReflTransGen (fun before after => Step before after ∧ Alone before after) first s) :
    Obedient s := by
  obtain ⟨profile,draws,rfl,_⟩ := start_enters accepts join leave put get duration draws first accepted
  refine run_invariant run ⟨nofun,nofun,nofun⟩ ?_
  intro before after obedient step
  exact moves_obedient before after obedient (step_moves before after step.1) step.2

theorem not_alone (s after last : Loop) (obedient : Obedient s) (moves : Moves s after)
    (crowded : ¬Alone s after) (final : Moves after last) : last.pc = .ended .wrongMode := by
  simp only [Alone,not_forall,not_or] at crowded
  obtain ⟨poppedAt,pending,op,event,rest,here,kind,first,next,more,early⟩ := crowded
  have mode := obedient.batch poppedAt pending here op (by simp [next])
  have onlyOp : ∀ other, pending other ≠ [] → other = op := by
    intro other busy
    have wants := obedient.batch poppedAt pending here other busy
    have later : ¬turn other < turn op := fun earlier => busy (first other earlier)
    rw [mode] at wants
    rcases kind with rfl | rfl <;> cases other <;>
      first | rfl | exact absurd wants (by decide) | exact absurd (by decide) later
  cases moves with
  | expired reading here' up => cases here'.symm.trans here
  | failed reading fault here' => cases here'.symm.trans here
  | waits reading polled here' later' more' ok early' => cases here'.symm.trans here
  | popped reading polled here' later' more' ok some due => cases here'.symm.trans here
  | wake toWait reading here' later' => cases here'.symm.trans here
  | batchDone poppedAt' pending' here' empty =>
    cases here'.symm.trans here
    exact absurd (empty op) (by simp [next])
  | refused poppedAt' pending' op' attempts fault here' busy returned =>
    have wants := obedient.batch poppedAt' pending' here' op' busy
    obtain ⟨_,same,_⟩ := processEvent_wanted op' s.dhtNode attempts _ wants returned
    cases same
  | handled poppedAt' pending' op' event' rest' attempts node reading pc here' first' next' returned later' check =>
    cases here'.symm.trans here
    have same := onlyOp op' (by simp [next'])
    subst same
    cases next'.symm.trans next
    obtain ⟨_,same,left⟩ := processEvent_wanted op' s.dhtNode attempts _ mode returned
    cases same
    rcases check with ⟨up,rfl⟩ | ⟨_,rfl⟩
    · exact absurd up early
    cases final with
    | expired reading here' up => cases here'
    | failed reading fault here' => cases here'
    | waits reading polled here' later' more' ok early' => cases here'
    | popped reading polled here' later' more' ok some due => cases here'
    | wake toWait reading here' later' => cases here'
    | refused poppedAt' pending' op' attempts fault here' busy returned => rfl
    | batchDone poppedAt' pending' here' empty =>
      cases here'
      have none := empty op'
      rw [Function.update_self] at none
      exact absurd none more
    | handled poppedAt' pending' op'' event' rest' attempts' node' reading' pc here' first' next' returned' later' check =>
      cases here'
      have same : op'' = op' := by
        by_contra different
        rw [Function.update_of_ne different] at next'
        exact different (onlyOp op'' (by simp [next']))
      subst same
      have refuses := processEvent_refuses op'' kind node attempts' left
      exact absurd (refuses.symm.trans returned') nofun

/-- In every run whose joins and leaves are alone, joins run disconnected, leaves run
connected and the process never exits; any other join or leave makes the next event exit. -/
theorem modes_kept (accepts : Distributions) (join leave put get : Bytes) (duration : TimeUnit)
    (draws : Draws) (first s : Loop) (accepted : start accepts join leave put get duration draws = .ok first)
    (run : Relation.ReflTransGen (fun before after => Step before after ∧ Alone before after) first s) :
    (s.pc ≠ .ended .wrongMode ∧
      (∀ run ∈ s.executed .join, run.connected = false) ∧
      (∀ run ∈ s.executed .leave, run.connected = true)) ∧
    ∀ after last, Step s after → ¬Alone s after → Step after last → last.pc = .ended .wrongMode := by
  have obedient := run_obedient accepts join leave put get duration draws first s accepted run
  refine ⟨⟨obedient.going,obedient.runs .join,obedient.runs .leave⟩,?_⟩
  intro after last step crowded final
  exact not_alone s after last obedient (step_moves s after step) crowded (step_moves after last final)

end

theorem join_first (pending : (op : DhtOperation) → List (DhtEvent op))
    (only : ∀ op, op ≠ .join → pending op = []) : ∀ other, turn other < turn .join → pending other = [] := by
  intro other earlier
  apply only other
  rintro rfl
  exact Nat.lt_irrefl _ earlier

theorem join_runs (s : Loop) (poppedAt : TimeUnit) (pending : (op : DhtOperation) → List (DhtEvent op))
    (event : DhtEvent .join) (rest : List (DhtEvent .join)) (here : s.pc = .batch poppedAt pending)
    (only : ∀ op, op ≠ .join → pending op = []) (next : pending .join = event :: rest)
    (offline : s.dhtNode.connected = false) (more : (s.readClock s.clock).timeUp = false) :
    ∃ after, @Step plainHeap s after ∧ after.dhtNode.connected = true ∧
      after.pc = .batch poppedAt (Function.update pending .join rest) ∧
      after.executed .join = s.executed .join ++ [⟨event,poppedAt,false⟩] ∧ after.clock = s.clock := by
  let heap := plainHeap
  have returns : ∃ node, processEvent .join s.dhtNode [⟨true,0,0,0⟩] = some (.ok node) ∧
      node.connected = true := by
    simp only [processEvent,processJoinEvent,offline]
    exact ⟨_,rfl,rfl⟩
  obtain ⟨node,returned,online⟩ := returns
  have moved := afterEvent_more s poppedAt pending event rest node s.clock more
  refine ⟨_,.event s poppedAt pending .join event rest _ _ s.clock here (join_first pending only) next
    returned (Nat.le_refl _),?_⟩
  rw [moved]
  exact ⟨online,rfl,by rw [ran_executed,offline],rfl⟩

theorem joining_popped (times : List TimeUnit) (here : times = [1] ∨ times = [1,1]) :
    ∃ poppedAt pending, (@pass plainHeap (joining times 10) 1).pc = .batch poppedAt pending ∧
      pending .join = times.map (fun time => ⟨time,()⟩) ∧ ∀ op, op ≠ .join → pending op = [] := by
  rcases here with rfl | rfl
  · refine ⟨_,_,rfl,rfl,?_⟩
    intro op other
    cases op <;> first | rfl | exact absurd rfl other
  · refine ⟨_,_,rfl,rfl,?_⟩
    intro op other
    cases op <;> first | rfl | exact absurd rfl other

/-- Two joins due at once. -/
theorem second_join_exits : startJoining (ascii "exact 1 1") 10 = .ok (joining [1,1] 10) ∧
    ∃ s, @Run plainHeap (joining [1,1] 10) s ∧ s.pc = .ended .wrongMode := by
  let heap := plainHeap
  have popped : Run (joining [1,1] 10) ((joining [1,1] 10).pass 1) := .single (.pass _ _ rfl (Nat.zero_le _))
  obtain ⟨poppedAt,pending,here,joins,only⟩ := joining_popped [1,1] (Or.inr rfl)
  obtain ⟨after,joined,online,there,_⟩ := join_runs _ poppedAt pending ⟨1,()⟩ [⟨1,()⟩] here only joins rfl
    (by decide)
  have refused := processEvent_refuses .join (Or.inl rfl) after.dhtNode [] online
  have exits := Step.event after _ _ .join ⟨1,()⟩ [] [] _ after.clock there
    (join_first _ (fun op other => by rw [Function.update_of_ne other]; exact only op other))
    (Function.update_self ..) refused (Nat.le_refl _)
  exact ⟨rfl,_,(popped.tail joined).tail exits,rfl⟩

theorem lonely_join : startJoining (ascii "exact 1") 10 = .ok (joining [1] 10) ∧
    ∃ s, @Run plainHeap (joining [1] 10) s ∧ (s.executed .join).length = 1 ∧
      ∀ run ∈ s.executed .join, run.connected = false := by
  let heap := plainHeap
  have accepted : startJoining (ascii "exact 1") 10 = .ok (joining [1] 10) := rfl
  have popped : Step (joining [1] 10) ((joining [1] 10).pass 1) := .pass _ _ rfl (Nat.zero_le _)
  have waiting : Alone (joining [1] 10) ((joining [1] 10).pass 1) := nofun
  obtain ⟨poppedAt,pending,here,joins,only⟩ := joining_popped [1] (Or.inl rfl)
  obtain ⟨s,joined,_,_,once,_⟩ := join_runs _ poppedAt pending ⟨1,()⟩ [] here only joins rfl (by decide)
  have alone : Alone ((joining [1] 10).pass 1) s := by
    intro poppedAt' pending' op event rest same kind _ next
    cases same.symm.trans here
    rcases kind with rfl | rfl
    · exact Or.inl (List.cons.inj (next.symm.trans joins)).2
    · exact absurd (next.symm.trans (only .leave nofun)) nofun
  have run : Run (joining [1] 10) s := .tail (.single popped) joined
  have kept := modes_kept _ _ _ _ _ _ _ _ _ accepted (.tail (.single ⟨popped,waiting⟩) ⟨joined,alone⟩)
  exact ⟨accepted,s,run,by rw [once]; rfl,kept.1.2.1⟩

end Loop
end Dhtperf
