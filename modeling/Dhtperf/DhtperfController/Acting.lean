import Dhtperf.DhtperfController.Moves

/-! The steps of the loop as a function of what comes from outside: the clock and the
results of the calls to the DHT. Everything else about a step is fixed by the state. -/
namespace Dhtperf
open Library

namespace Loop

/-- The attempts of an event are those of one call that returns. A join tries until it succeeds,
so its last attempt does; one that is refused for ever is left out, as its call is then never over. -/
inductive Action
  | pass (reading : Nat)
  | event (attempts : List Attempt) (reading : Nat)
  | batchDone
  | wake (reading : Nat)

/-- The kind whose `BOOST_FOREACH` loop is under way. -/
def busy (pending : (op : DhtOperation) → List (DhtEvent op)) : Option DhtOperation :=
  [.put,.get,.leave,.join].find? fun op => !(pending op).isEmpty

theorem busy_none (pending : (op : DhtOperation) → List (DhtEvent op)) :
    busy pending = none ↔ ∀ op, pending op = [] := by
  simp only [busy,List.find?_eq_none,Bool.not_eq_true',Bool.not_eq_false,List.isEmpty_iff]
  exact ⟨fun all op => all op (by cases op <;> decide),fun all op _ => all op⟩

theorem busy_some (pending : (op : DhtOperation) → List (DhtEvent op)) (op : DhtOperation) :
    busy pending = some op ↔ pending op ≠ [] ∧ ∀ other, turn other < turn op → pending other = [] := by
  have found : busy pending = some op ↔ (!(pending op).isEmpty) = true ∧
      ∃ before after, [.put,.get,.leave,.join] = before ++ op :: after ∧
        ∀ other ∈ before, (!(!(pending other).isEmpty)) = true := List.find?_eq_some_iff_append
  simp only [Bool.not_not,List.isEmpty_iff,Bool.not_eq_true',List.isEmpty_eq_false_iff] at found
  rw [found]
  refine and_congr_right fun _ => ⟨?_,fun earlier => ?_⟩
  · rintro ⟨before,after,split,none⟩ other less
    apply none
    -- The list is in the order of the turns.
    have sorted : [DhtOperation.put,.get,.leave,.join].Pairwise fun a b => turn a < turn b := by decide
    have listed : other ∈ [DhtOperation.put,.get,.leave,.join] := by cases other <;> decide
    rw [split] at sorted listed
    rcases List.mem_append.mp listed with here | later
    · exact here
    · have bound := (List.pairwise_append.mp sorted).2.1
      rcases List.mem_cons.mp later with rfl | later
      · exact absurd less (Nat.lt_irrefl _)
      · exact absurd ((List.pairwise_cons.mp bound).1 other later) (Nat.not_lt.mpr (Nat.le_of_lt less))
  · cases op with
    | put => exact ⟨[],_,rfl,nofun⟩
    | get => exact ⟨[.put],_,rfl,fun other member => earlier other (by simp_all [turn])⟩
    | leave => exact ⟨[.put,.get],_,rfl,fun other member => earlier other (by
        rcases List.mem_pair.mp member with rfl | rfl <;> decide)⟩
    | join => exact ⟨[.put,.get,.leave],_,rfl,fun other member => earlier other (by
        simp only [List.mem_cons,List.not_mem_nil,or_false] at member
        rcases member with rfl | rfl | rfl <;> decide)⟩

variable [heap : StdHeap]

def act (s : Loop) : Action → Option Loop
  | .pass reading =>
    match s.pc with
    | .head => if s.clock ≤ reading then some (s.pass reading) else none
    | _ => none
  | .event attempts reading =>
    match s.pc with
    | .batch poppedAt pending =>
      match busy pending with
      | none => none
      | some op =>
        match pending op with
        | [] => none
        | event :: rest =>
          if s.clock ≤ reading then
            (DhtNode.processEvent op s.dhtNode attempts).map fun result =>
              s.afterEvent poppedAt pending event rest result reading
          else none
    | _ => none
  | .batchDone =>
    match s.pc with
    | .batch _ pending => if busy pending = none then some s.afterEvents else none
    | _ => none
  | .wake reading =>
    match s.pc with
    | .sleeping _ => if s.clock ≤ reading then some {s with pc := .head, clock := reading} else none
    | _ => none

theorem act_event (s after : Loop) (attempts : List Attempt) (reading : Nat) :
    s.act (.event attempts reading) = some after ↔
      ∃ poppedAt pending op event rest result, s.pc = .batch poppedAt pending ∧
        (∀ other, turn other < turn op → pending other = []) ∧ pending op = event :: rest ∧
        DhtNode.processEvent op s.dhtNode attempts = some result ∧ s.clock ≤ reading ∧
        after = s.afterEvent poppedAt pending event rest result reading := by
  constructor
  · intro acted
    simp only [act] at acted
    split at acted
    next poppedAt pending here =>
      split at acted
      next => cases acted
      next op chosen =>
        split at acted
        next => cases acted
        next event rest next =>
          split at acted
          next later =>
            obtain ⟨result,returned,rfl⟩ := Option.map_eq_some_iff.mp acted
            exact ⟨poppedAt,pending,op,event,rest,result,here,((busy_some pending op).mp chosen).2,next,returned,
              later,rfl⟩
          next => cases acted
    next => cases acted
  · rintro ⟨poppedAt,pending,op,event,rest,result,here,first,next,returned,later,rfl⟩
    have chosen := (busy_some pending op).mpr ⟨by simp [next],first⟩
    simp only [act,here,chosen,next,if_pos later,returned,Option.map_some]

theorem step_act (s after : Loop) : Step s after ↔ ∃ action, s.act action = some after := by
  constructor
  · intro step
    cases step with
    | pass reading here later => exact ⟨.pass reading,by simp only [act,here,if_pos later]⟩
    | event poppedAt pending op event rest attempts result reading here first next returned later =>
      exact ⟨.event attempts reading,(act_event s _ attempts reading).mpr
        ⟨poppedAt,pending,op,event,rest,result,here,first,next,returned,later,rfl⟩⟩
    | batchDone poppedAt pending here empty =>
      exact ⟨.batchDone,by simp only [act,here,if_pos ((busy_none pending).mpr empty)]⟩
    | wake toWait reading here later => exact ⟨.wake reading,by simp only [act,here,if_pos later]⟩
  · rintro ⟨action,acted⟩
    cases action with
    | pass reading =>
      simp only [act] at acted
      split at acted
      next here =>
        split at acted
        next later =>
          cases acted
          exact .pass s reading here later
        next => cases acted
      next => cases acted
    | event attempts reading =>
      obtain ⟨poppedAt,pending,op,event,rest,result,here,first,next,returned,later,rfl⟩ :=
        (act_event s after attempts reading).mp acted
      exact .event s poppedAt pending op event rest attempts result reading here first next returned later
    | batchDone =>
      simp only [act] at acted
      split at acted
      next poppedAt pending here =>
        split at acted
        next empty =>
          cases acted
          exact .batchDone s poppedAt pending here ((busy_none pending).mp empty)
        next => cases acted
      next => cases acted
    | wake reading =>
      simp only [act] at acted
      split at acted
      next toWait here =>
        split at acted
        next later =>
          cases acted
          exact .wake s toWait reading here later
        next => cases acted
      next => cases acted

theorem actions_run (allowed : Loop → Action → Prop) (first s : Loop)
    (run : Relation.ReflTransGen (StepIf act allowed) first s) : Run first s :=
  Relation.ReflTransGen.mono (fun before after ⟨action,_,acted⟩ => (step_act before after).mpr ⟨action,acted⟩) _ _ run

theorem run_actions (first s : Loop) (run : Run first s) :
    Relation.ReflTransGen (StepIf act fun _ _ => True) first s :=
  Relation.ReflTransGen.mono (fun before after step =>
    have ⟨action,acted⟩ := (step_act before after).mp step
    ⟨action,trivial,acted⟩) _ _ run

theorem act_ended (s : Loop) (action : Action) (ending : Ending) (halted : s.pc = .ended ending) :
    s.act action = none := by
  cases action <;> simp only [act,halted]

end Loop
end Dhtperf
