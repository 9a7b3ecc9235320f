import Dhtperf.DhtNode.Consoles
import Dhtperf.Library.Runs
import Dhtperf.Utils.Times

/-! How the nodes of a Kaddemo network learn the id of their entry point. The first node reads
it from its console, and while it is in the network a thread of it answers whoever connects. -/
namespace Dhtperf
open Library Relation Utils

/-- The loop of `getSelfId`. -/
def nodeId : List Bytes → Option (Bytes × List Bytes)
  | [] => none
  | line :: lines =>
    if comparesTo line 11 (ascii ", Node_id: ") then some (cString (line.drop 11),lines) else nodeId lines

def getSelfId (lines : List Bytes) : Option Bytes :=
  (nodeId lines).bind fun (id,lines) =>
    (ConsoleDht.waitPromptIn ConsoleDht.kaddemo.promptString lines).map fun _ => id

/-- `wrapperIdServerRun`: before its acceptor is there, at the test of its loop, or in `poll_one`. -/
inductive IdServerPc
  | absent
  | starting
  | checking
  | polling
  deriving DecidableEq

/-- The first node, which is outside, in the network, or in `doLeave` behind its request to stop. -/
inductive FirstNodePc
  | out
  | joined
  | leaving
  deriving DecidableEq

/-- `getId`, of which every outcome but an id ends the controller. -/
inductive IdClientPc
  | idle
  | waiting
  | got (id : Bytes)
  | failed
  deriving DecidableEq

/-- A client and its connection: what is on its way, and how much of the line is still to be
written. -/
structure IdClient where
  pc : IdClientPc
  sending : Bytes
  received : Bytes
  owed : Nat
  closed : Bool
  deriving DecidableEq

/-- The ids that the first node has read are kept in their order. -/
structure KaddemoNetwork where
  node : FirstNodePc
  threadStop : Bool
  id : Bytes
  server : IdServerPc
  backlog : List Nat
  clients : Nat → IdClient
  ids : List Bytes

namespace KaddemoNetwork

inductive Action
  | join (lines : List Bytes)
  | leave
  | left
  | bind
  | check
  | poll (atOnce : Nat)
  | transmit (i : Nat) (chunk : Bytes)
  | connect (i : Nat)
  | carry (i : Nat)
  | read (i : Nat)

def make : KaddemoNetwork := ⟨.out,false,[],.absent,[],fun _ => ⟨.idle,[],[],0,false⟩,[]⟩

def setClient (s : KaddemoNetwork) (i : Nat) (client : IdClient) : KaddemoNetwork :=
  {s with clients := Function.update s.clients i client}

/-- `handleAccept`. The socket takes so many bytes before `async_write` returns. -/
def answer (s : KaddemoNetwork) (i : Nat) (rest : List Nat) (atOnce : Nat) : KaddemoNetwork :=
  let line := s.id ++ [10]
  {s.setClient i {s.clients i with
      sending := line.take atOnce
      owed := line.length - atOnce
      closed := line.length ≤ atOnce} with
    server := .checking
    backlog := rest}

def act (s : KaddemoNetwork) : Action → Option KaddemoNetwork
  | .join lines =>
    if s.node = .out then
      (getSelfId lines).map fun id => {s with node := .joined, id := id, server := .starting, ids := s.ids ++ [id]}
    else none
  | .leave => if s.node = .joined then some {s with node := .leaving, threadStop := true} else none
  -- `wrapperIdServerThread_->join()` returns.
  | .left => if s.node = .leaving ∧ s.server = .absent then some {s with node := .out} else none
  | .bind => if s.server = .starting then some {s with server := .checking} else none
  | .check =>
    if s.server = .checking then
      if s.threadStop then
        -- The acceptor is gone with the connections that it has not accepted, and no write goes on.
        some {s with
          server := .absent
          backlog := []
          clients := fun i => if i ∈ s.backlog ∨ (s.clients i).owed ≠ 0 then {s.clients i with owed := 0, closed := true}
            else s.clients i}
      else some {s with server := .polling}
    else none
  | .poll atOnce =>
    if s.server = .polling then
      match s.backlog with
      | [] => some {s with server := .checking}
      | i :: rest => some (s.answer i rest atOnce)
    else none
  -- The rest of a line is written from a string that is gone: it may be anything.
  | .transmit i chunk =>
    if s.server = .polling ∧ chunk ≠ [] ∧ chunk.length ≤ (s.clients i).owed then
      some {s.setClient i {s.clients i with
          sending := (s.clients i).sending ++ chunk
          owed := (s.clients i).owed - chunk.length
          closed := (s.clients i).owed = chunk.length} with
        server := .checking}
    else none
  | .connect i =>
    if (s.clients i).pc = .idle then
      if s.server = .checking ∨ s.server = .polling then
        some {s.setClient i {s.clients i with pc := .waiting} with backlog := s.backlog ++ [i]}
      else some (s.setClient i {s.clients i with pc := .failed})
    else none
  | .carry i =>
    match (s.clients i).sending with
    | [] => none
    | byte :: rest => some (s.setClient i {s.clients i with sending := rest, received := (s.clients i).received ++ [byte]})
  | .read i =>
    if (s.clients i).pc = .waiting then
      if 10 ∈ (s.clients i).received then
        some (s.setClient i {s.clients i with pc := .got ((s.clients i).received.takeWhile (· ≠ 10))})
      else if (s.clients i).closed ∧ (s.clients i).sending = [] then
        some (s.setClient i {s.clients i with pc := .failed})
      else none
    else none

/-- What the console writes is read in lines. -/
def Permitted (_ : KaddemoNetwork) : Action → Prop
  | .join lines => ∀ line ∈ lines, 10 ∉ line
  | _ => True

instance (s : KaddemoNetwork) (action : Action) : Decidable (Permitted s action) := by
  cases action <;> unfold Permitted <;> infer_instance

/-- asio puts the whole line on the socket while the string of `handleAccept` is there. -/
def WrittenAtOnce (s : KaddemoNetwork) : Action → Prop
  | .poll atOnce => s.id.length < atOnce
  | _ => True

instance (s : KaddemoNetwork) (action : Action) : Decidable (WrittenAtOnce s action) := by
  cases action <;> unfold WrittenAtOnce <;> infer_instance

abbrev Step : KaddemoNetwork → KaddemoNetwork → Prop :=
  StepIf act fun s action => Permitted s action ∧ WrittenAtOnce s action

/-! ### Who has been told what -/

/-- A client has been sent nothing, or the line with the id that the first join has read. -/
inductive Told (first : Option Bytes) (client : IdClient) : Prop
  | nothing (sending : client.sending = []) (received : client.received = []) (none : ∀ id, client.pc ≠ .got id)
  | line (id : Bytes) (same : first = some id) (plain : 10 ∉ id)
      (sent : client.received ++ client.sending = id ++ [10]) (right : ∀ other, client.pc = .got other → other = id)

/-- Before the first leave the server speaks for the only join. -/
structure Known (s : KaddemoNetwork) : Prop where
  before : s.threadStop = false → s.node = .out ∧ s.ids = [] ∨ s.node = .joined ∧ s.ids = [s.id] ∧ 10 ∉ s.id
  polling : s.server = .polling → s.node ≠ .out ∧ s.ids = [s.id] ∧ 10 ∉ s.id
  serving : s.node = .out → s.server = .absent
  after : s.threadStop = true → s.ids ≠ []
  told : ∀ i, Told s.ids.head? (s.clients i)
  waiting : ∀ i ∈ s.backlog, s.clients i = ⟨.waiting,[],[],0,false⟩
  written : ∀ i, (s.clients i).owed = 0
  distinct : s.backlog.Nodup
  fresh : ∀ i, (s.clients i).pc = .idle → s.clients i = ⟨.idle,[],[],0,false⟩
  listening : s.backlog ≠ [] → s.server = .checking ∨ s.server = .polling

theorem nodeId_plain (lines rest : List Bytes) (id : Bytes) (plain : ∀ line ∈ lines, 10 ∉ line)
    (found : nodeId lines = some (id,rest)) : 10 ∉ id := by
  induction lines with
  | nil => cases found
  | cons line lines ih =>
    unfold nodeId at found
    split at found
    next =>
      cases found
      intro newline
      exact plain line List.mem_cons_self (List.mem_of_mem_drop ((List.takeWhile_sublist _).mem newline))
    next => exact ih (fun other member => plain other (List.mem_cons_of_mem _ member)) found

theorem getSelfId_plain (lines : List Bytes) (id : Bytes) (plain : ∀ line ∈ lines, 10 ∉ line)
    (found : getSelfId lines = some id) : 10 ∉ id := by
  obtain ⟨⟨other,rest⟩,here,same⟩ := Option.bind_eq_some_iff.mp found
  obtain ⟨_,_,rfl⟩ := Option.map_eq_some_iff.mp same
  exact nodeId_plain lines rest other plain here

theorem Told.grow (first first' : Option Bytes) (client : IdClient) (told : Told first client)
    (kept : ∀ id, first = some id → first' = some id) : Told first' client := by
  cases told with
  | nothing sending received none => exact .nothing sending received none
  | line id same plain sent right => exact .line id (kept id same) plain sent right

theorem Told.read (first : Option Bytes) (client : IdClient) (told : Told first client) (ends : 10 ∈ client.received) :
    Told first {client with pc := .got (client.received.takeWhile (· ≠ 10))} := by
  cases told with
  | nothing sending received none => simp [received] at ends
  | line id same plain sent right =>
    have whole : client.received = id ++ [10] := by
      rcases List.eq_nil_or_concat client.sending with none | ⟨front,last,more⟩
      · rwa [none,List.append_nil] at sent
      · rw [more,List.concat_eq_append,← List.append_assoc] at sent
        have inside := (List.append_inj' sent rfl).1
        exact absurd (by rw [← inside]; exact List.mem_append_left _ ends) plain
    refine .line id same plain sent fun other got => ?_
    cases got
    rw [whole,List.takeWhile_append_of_pos fun c member => decide_eq_true (ne_of_mem_of_not_mem member plain)]
    exact List.append_nil id

section
variable (s after : KaddemoNetwork) (known : Known s)
include known

theorem setClient_known (i : Nat) (client : IdClient) (out : i ∉ s.backlog) (told : Told s.ids.head? client)
    (started : client.pc ≠ .idle) (written : client.owed = 0) : Known (s.setClient i client) := by
  refine ⟨known.before,known.polling,known.serving,known.after,fun j => ?_,fun j member => ?_,fun j => ?_,
    known.distinct,fun j idle => ?_,known.listening⟩
  · by_cases same : j = i
    · subst same
      change Told s.ids.head? (Function.update s.clients j client j)
      rw [Function.update_self]
      exact told
    · change Told s.ids.head? (Function.update s.clients i client j)
      rw [Function.update_of_ne same]
      exact known.told j
  · have apart : j ≠ i := by
      rintro rfl
      exact out member
    exact (Function.update_of_ne apart _ _).trans (known.waiting j member)
  · change (Function.update s.clients i client j).owed = 0
    by_cases same : j = i
    · subst same
      rwa [Function.update_self]
    · rw [Function.update_of_ne same]
      exact known.written j
  · change (Function.update s.clients i client j).pc = .idle at idle
    change Function.update s.clients i client j = _
    by_cases same : j = i
    · subst same
      rw [Function.update_self] at idle
      exact absurd idle started
    · rw [Function.update_of_ne same] at idle ⊢
      exact known.fresh j idle

theorem join_known (lines : List Bytes) (permitted : Permitted s (.join lines)) (acted : s.act (.join lines) = some after) :
    Known after := by
  simp only [act] at acted
  split at acted
  next free =>
    obtain ⟨id,found,rfl⟩ := Option.map_eq_some_iff.mp acted
    have plain := getSelfId_plain lines id permitted found
    refine ⟨fun going => .inr ?_,by simp,by simp,by simp,fun i => ?_,known.waiting,known.written,known.distinct,
      known.fresh,fun some => ?_⟩
    · rcases known.before going with ⟨_,none⟩ | ⟨here,_⟩
      · exact ⟨rfl,by rw [none]; rfl,plain⟩
      · rw [free] at here
        cases here
    · refine (known.told i).grow _ _ _ fun id same => ?_
      rw [List.head?_append,same]
      rfl
    · have absent := known.serving free
      rcases known.listening some with here | here <;> cases absent.symm.trans here
  next => cases acted

theorem leave_known (acted : s.act .leave = some after) : Known after := by
  simp only [act] at acted
  split at acted
  next here =>
    cases acted
    refine ⟨by simp,fun polling => ⟨by simp,(known.polling polling).2⟩,by simp,fun _ => ?_,known.told,known.waiting,
      known.written,known.distinct,known.fresh,known.listening⟩
    cases stop : s.threadStop with
    | true => exact known.after stop
    | false =>
      rcases known.before stop with ⟨out,_⟩ | ⟨_,single,_⟩
      · rw [here] at out
        cases out
      · simp [single]
  next => cases acted

theorem left_known (acted : s.act .left = some after) : Known after := by
  simp only [act] at acted
  split at acted
  next fine =>
    cases acted
    refine ⟨fun going => ?_,by simp [fine.2],fun _ => fine.2,known.after,known.told,known.waiting,known.written,
      known.distinct,known.fresh,known.listening⟩
    rcases known.before going with ⟨here,_⟩ | ⟨here,_⟩ <;> rw [fine.1] at here <;> cases here
  next => cases acted

theorem bind_known (acted : s.act .bind = some after) : Known after := by
  simp only [act] at acted
  split at acted
  next here =>
    cases acted
    refine ⟨known.before,by simp,fun out => ?_,known.after,known.told,known.waiting,known.written,known.distinct,
      known.fresh,fun _ => .inl rfl⟩
    cases here.symm.trans (known.serving out)
  next => cases acted

theorem check_known (acted : s.act .check = some after) : Known after := by
  simp only [act] at acted
  split at acted
  next here =>
    have joined : s.node ≠ .out := fun out => by cases here.symm.trans (known.serving out)
    split at acted
    next stop =>
      cases acted
      have dropped (i : Nat) (gone : i ∈ s.backlog ∨ (s.clients i).owed ≠ 0) : i ∈ s.backlog :=
        gone.resolve_right fun some => some (known.written i)
      refine ⟨known.before,by simp,fun _ => rfl,known.after,fun i => ?_,fun i member => absurd member List.not_mem_nil,
        fun i => ?_,List.nodup_nil,fun i idle => ?_,fun some => absurd rfl some⟩
      · dsimp only
        split
        next gone =>
          rw [known.waiting i (dropped i gone)]
          exact .nothing rfl rfl (by simp)
        next => exact known.told i
      · dsimp only
        split
        next => rfl
        next => exact known.written i
      · dsimp only at idle ⊢
        split at idle
        next gone =>
          rw [known.waiting i (dropped i gone)] at idle
          cases idle
        next out =>
          rw [if_neg out]
          exact known.fresh i idle
    next going =>
      cases acted
      refine ⟨known.before,fun _ => ?_,fun out => absurd out joined,known.after,known.told,known.waiting,known.written,
        known.distinct,known.fresh,fun _ => .inr rfl⟩
      rcases known.before (eq_false_of_ne_true going) with ⟨out,_⟩ | ⟨_,single⟩
      · exact absurd out joined
      · exact ⟨joined,single⟩
  next => cases acted

theorem poll_known (atOnce : Nat) (whole : s.id.length < atOnce) (acted : s.act (.poll atOnce) = some after) :
    Known after := by
  simp only [act] at acted
  split at acted
  next here =>
    obtain ⟨joined,single,plain⟩ := known.polling here
    split at acted
    next =>
      cases acted
      exact ⟨known.before,by simp,fun out => absurd out joined,known.after,known.told,known.waiting,known.written,
        known.distinct,known.fresh,fun _ => .inl rfl⟩
    next i rest line =>
      cases acted
      have distinct := known.distinct
      rw [line] at distinct
      obtain ⟨out,distinct⟩ := List.nodup_cons.mp distinct
      have first := known.waiting i (by simp [line])
      -- The client has left the backlog before anything of it changes.
      have shorter : Known {s with server := .checking, backlog := rest} :=
        ⟨known.before,by simp,fun out => absurd out joined,known.after,known.told,
          fun j member => known.waiting j (by simp [line,member]),known.written,distinct,known.fresh,fun _ => .inl rfl⟩
      have size : (s.id ++ [10]).length ≤ atOnce := by
        rw [List.length_append]
        exact whole
      refine setClient_known _ shorter i _ out ?_ (by rw [first]; simp) (Nat.sub_eq_zero_of_le size)
      rw [first,single,List.take_of_length_le size]
      exact .line s.id rfl plain rfl (by simp)
  next => cases acted

theorem transmit_known (i : Nat) (chunk : Bytes) (acted : s.act (.transmit i chunk) = some after) : Known after := by
  simp only [act] at acted
  split at acted
  next fine =>
    have none := fine.2.2
    rw [known.written i,Nat.le_zero,List.length_eq_zero_iff] at none
    exact absurd none fine.2.1
  next => cases acted

theorem connect_known (i : Nat) (acted : s.act (.connect i) = some after) : Known after := by
  simp only [act] at acted
  split at acted
  next idle =>
    have empty := known.fresh i idle
    have out : i ∉ s.backlog := by
      intro member
      rw [known.waiting i member] at idle
      cases idle
    split at acted
    next serving =>
      cases acted
      have told : Told s.ids.head? {s.clients i with pc := .waiting} := by
        rw [empty]
        exact .nothing rfl rfl (by simp)
      have waits := setClient_known s known i {s.clients i with pc := .waiting} out told (by simp) (known.written i)
      refine ⟨waits.before,waits.polling,waits.serving,waits.after,waits.told,fun j member => ?_,waits.written,?_,
        waits.fresh,fun _ => serving⟩
      · rcases List.mem_append.mp member with earlier | last
        · exact waits.waiting j earlier
        · rw [List.mem_singleton.mp last]
          change Function.update s.clients i _ i = _
          rw [Function.update_self,empty]
      · refine List.nodup_append.mpr ⟨known.distinct,List.nodup_singleton i,?_⟩
        rintro j member _ last rfl
        rw [List.mem_singleton.mp last] at member
        exact out member
    next =>
      cases acted
      refine setClient_known s known i _ out ?_ (by simp) (known.written i)
      rw [empty]
      exact .nothing rfl rfl (by simp)
  next => cases acted

theorem carry_known (i : Nat) (acted : s.act (.carry i) = some after) : Known after := by
  simp only [act] at acted
  split at acted
  next => cases acted
  next byte rest here =>
    cases acted
    have out : i ∉ s.backlog := by
      intro member
      rw [known.waiting i member] at here
      cases here
    refine setClient_known s known i _ out ?_ (fun idle => ?_) (known.written i)
    · cases known.told i with
      | nothing sending received none =>
        rw [sending] at here
        cases here
      | line id same plain sent right =>
        refine .line id same plain ?_ right
        rw [← sent,here,List.append_assoc]
        rfl
    · rw [known.fresh i idle] at here
      cases here

theorem read_known (i : Nat) (acted : s.act (.read i) = some after) : Known after := by
  simp only [act] at acted
  split at acted
  next waiting =>
    split at acted
    next ends =>
      cases acted
      have out : i ∉ s.backlog := by
        intro member
        rw [known.waiting i member] at ends
        cases ends
      exact setClient_known s known i _ out ((known.told i).read _ _ ends) (by simp) (known.written i)
    next =>
      split at acted
      next ended =>
        cases acted
        have out : i ∉ s.backlog := by
          intro member
          rw [known.waiting i member] at ended
          cases ended.1
        refine setClient_known s known i _ out ?_ (by simp) (known.written i)
        cases known.told i with
        | nothing sending received none => exact .nothing sending received (by simp)
        | line id same plain sent right => exact .line id same plain sent (by simp)
      next => cases acted
  next => cases acted

theorem step_known (step : Step s after) : Known after := by
  obtain ⟨action,⟨permitted,whole⟩,acted⟩ := step
  cases action with
  | join lines => exact join_known s after known lines permitted acted
  | leave => exact leave_known s after known acted
  | left => exact left_known s after known acted
  | bind => exact bind_known s after known acted
  | check => exact check_known s after known acted
  | poll atOnce => exact poll_known s after known atOnce whole acted
  | transmit i chunk => exact transmit_known s after known i chunk acted
  | connect i => exact connect_known s after known i acted
  | carry i => exact carry_known s after known i acted
  | read i => exact read_known s after known i acted

end

theorem make_known : Known make := by
  refine ⟨fun _ => .inl ⟨rfl,rfl⟩,by simp [make],fun _ => rfl,by simp [make],fun i => .nothing rfl rfl (by simp [make]),
    fun i member => absurd member List.not_mem_nil,fun i => rfl,List.nodup_nil,fun i _ => rfl,
    fun some => absurd rfl some⟩

theorem run_known (s : KaddemoNetwork) (run : ReflTransGen Step make s) : Known s :=
  run_invariant run make_known fun before after known => step_known before after known

/-! ### After the first leave -/

/-- Nobody asks for `threadStop_` to be false again, and a server that has not looked yet will
look before it accepts. -/
def Over (s : KaddemoNetwork) : Prop := s.threadStop = true ∧ s.server ≠ .polling

def Silent (client : IdClient) : Prop := client.sending = [] ∧ client.received = []

section
variable (s after : KaddemoNetwork)

theorem setClient_silent (i : Nat) (client : IdClient) (kept : Silent (s.clients i) → Silent client) (j : Nat)
    (silent : Silent (s.clients j)) : Silent ((s.setClient i client).clients j) := by
  change Silent (Function.update s.clients i client j)
  by_cases same : j = i
  · subst same
    rw [Function.update_self]
    exact kept silent
  · rwa [Function.update_of_ne same]

theorem step_over (stopped : Over s) (step : Step s after) :
    Over after ∧ ∀ i, Silent (s.clients i) → Silent (after.clients i) := by
  obtain ⟨action,_,acted⟩ := step
  obtain ⟨stop,elsewhere⟩ := stopped
  cases action with
  | join lines =>
    simp only [act] at acted
    split at acted
    next =>
      obtain ⟨id,_,rfl⟩ := Option.map_eq_some_iff.mp acted
      exact ⟨⟨stop,by simp⟩,fun i silent => silent⟩
    next => cases acted
  | leave =>
    simp only [act] at acted
    split at acted
    next => cases acted; exact ⟨⟨rfl,elsewhere⟩,fun i silent => silent⟩
    next => cases acted
  | left =>
    simp only [act] at acted
    split at acted
    next => cases acted; exact ⟨⟨stop,elsewhere⟩,fun i silent => silent⟩
    next => cases acted
  | bind =>
    simp only [act] at acted
    split at acted
    next => cases acted; exact ⟨⟨stop,by simp⟩,fun i silent => silent⟩
    next => cases acted
  | check =>
    simp only [act,stop,if_true] at acted
    split at acted
    next =>
      cases acted
      refine ⟨⟨rfl,by simp⟩,fun i silent => ?_⟩
      dsimp only
      split <;> exact silent
    next => cases acted
  | poll atOnce =>
    simp only [act] at acted
    split at acted
    next here => exact absurd here elsewhere
    next => cases acted
  | transmit i chunk =>
    simp only [act] at acted
    split at acted
    next fine => exact absurd fine.1 elsewhere
    next => cases acted
  | connect i =>
    simp only [act] at acted
    split at acted
    next =>
      split at acted
      next => cases acted; exact ⟨⟨stop,elsewhere⟩,setClient_silent s i _ fun silent => silent⟩
      next => cases acted; exact ⟨⟨stop,elsewhere⟩,setClient_silent s i _ fun silent => silent⟩
    next => cases acted
  | carry i =>
    simp only [act] at acted
    split at acted
    next => cases acted
    next byte rest here =>
      cases acted
      refine ⟨⟨stop,elsewhere⟩,setClient_silent s i _ fun silent => ?_⟩
      cases here.symm.trans silent.1
  | read i =>
    simp only [act] at acted
    split at acted
    next =>
      split at acted
      next => cases acted; exact ⟨⟨stop,elsewhere⟩,setClient_silent s i _ fun silent => silent⟩
      next =>
        split at acted
        next => cases acted; exact ⟨⟨stop,elsewhere⟩,setClient_silent s i _ fun silent => silent⟩
        next => cases acted
    next => cases acted

theorem run_over (stopped : Over s) (run : ReflTransGen Step s after) :
    Over after ∧ ∀ i, Silent (s.clients i) → Silent (after.clients i) := by
  induction run with
  | refl => exact ⟨stopped,fun _ silent => silent⟩
  | tail _ step ih =>
    obtain ⟨still,kept⟩ := step_over _ _ ih.1 step
    exact ⟨still,fun i silent => kept i (ih.2 i silent)⟩

theorem left_over (known : Known s) (out : s.node = .out) (been : s.ids ≠ []) : Over s := by
  refine ⟨?_,fun polling => (known.polling polling).1 out⟩
  by_contra going
  rcases known.before (eq_false_of_ne_true going) with ⟨_,none⟩ | ⟨here,_⟩
  · exact been none
  · rw [out] at here
    cases here

theorem silent_none (known : Known s) (i : Nat) (silent : Silent (s.clients i)) (id : Bytes) :
    (s.clients i).pc ≠ .got id := by
  cases known.told i with
  | nothing sending received none => exact none id
  | line first same plain sent right =>
    rw [silent.1,silent.2] at sent
    simp at sent

/-! ### Before it -/

theorem line_read (i : Nat) (id : Bytes) (waits : (s.clients i).pc = .waiting)
    (sent : (s.clients i).received ++ (s.clients i).sending = id ++ [10]) (plain : 10 ∉ id) :
    ∃ later, ReflTransGen Step s later ∧ (later.clients i).pc = .got id := by
  induction more : (s.clients i).sending generalizing s with
  | nil =>
    rw [more,List.append_nil] at sent
    have ends : 10 ∈ (s.clients i).received := by simp [sent]
    have whole : (s.clients i).received.takeWhile (· ≠ 10) = id := by
      rw [sent,List.takeWhile_append_of_pos fun c member => decide_eq_true (ne_of_mem_of_not_mem member plain)]
      exact List.append_nil id
    refine ⟨_,.single ⟨.read i,⟨trivial,trivial⟩,by rw [act,if_pos waits,if_pos ends]⟩,?_⟩
    change (Function.update s.clients i _ i).pc = _
    rw [Function.update_self,whole]
  | cons byte rest ih =>
    have step : Step s (s.setClient i {s.clients i with
        sending := rest
        received := (s.clients i).received ++ [byte]}) := ⟨.carry i,⟨trivial,trivial⟩,by simp only [act,more]⟩
    have own : (s.setClient i {s.clients i with sending := rest, received := (s.clients i).received ++ [byte]}).clients i =
        {s.clients i with sending := rest, received := (s.clients i).received ++ [byte]} := Function.update_self ..
    obtain ⟨later,steps,got⟩ := ih _ (by rw [own]; exact waits) (by
      rw [own,← sent,more,List.append_assoc]
      rfl) (by rw [own])
    exact ⟨later,.head step steps,got⟩

theorem waiting_served (known : Known s) (going : s.threadStop = false) (i : Nat) (member : i ∈ s.backlog) :
    ∃ later, ReflTransGen Step s later ∧ (later.clients i).pc = .got s.id := by
  induction line : s.backlog generalizing s with
  | nil =>
    rw [line] at member
    cases member
  | cons j rest ih =>
    obtain ⟨polling,steps,here,same⟩ : ∃ polling, ReflTransGen Step s polling ∧ polling.server = .polling ∧
        polling = {s with server := .polling} := by
      rcases known.listening (by simp [line]) with here | here
      · exact ⟨{s with server := .polling},.single ⟨.check,⟨trivial,trivial⟩,by simp [act,here,going]⟩,rfl,rfl⟩
      · exact ⟨s,.refl,here,by rw [← here]⟩
    have known := run_invariant steps known fun before after known => step_known before after known
    obtain ⟨_,_,plain⟩ := known.polling here
    have line : polling.backlog = j :: rest := by rw [same]; exact line
    have first := known.waiting j (by simp [line])
    have size : (polling.id ++ [10]).length = polling.id.length + 1 := List.length_append
    have polled : Step polling (polling.answer j rest (polling.id.length + 1)) :=
      ⟨.poll (polling.id.length + 1),⟨trivial,Nat.lt_succ_self _⟩,by simp only [act,if_pos here,line]⟩
    have told : (polling.answer j rest (polling.id.length + 1)).clients j =
        ⟨.waiting,polling.id ++ [10],[],0,true⟩ := by
      change Function.update polling.clients j _ j = _
      rw [Function.update_self,first,size,List.take_of_length_le (Nat.le_of_eq size)]
      simp
    have steps := steps.trans (.single polled)
    have known := step_known _ _ known polled
    have own : s.id = polling.id := by rw [same]
    rw [own]
    by_cases mine : i = j
    · subst mine
      obtain ⟨later,more,got⟩ := line_read _ i polling.id (by rw [told]) (by rw [told]; rfl) plain
      exact ⟨later,steps.trans more,got⟩
    · have behind : i ∈ rest := by
        rw [‹s.backlog = j :: rest›] at member
        exact (List.mem_cons.mp member).resolve_left mine
      obtain ⟨later,more,got⟩ := ih _ known (by rw [same]; exact going) behind rfl
      exact ⟨later,steps.trans more,got⟩

/-- Where every line is written at once, every id that is given out is the one that the first
node had when it joined first. A client that connects in that time can get it; who has been sent nothing when the node
leaves never gets one, although the node may join again. -/
theorem ids_of_first_visit (run : ReflTransGen Step make s) :
    (∀ i id, (s.clients i).pc = .got id → s.ids.head? = some id) ∧
      (s.threadStop = false → ∀ i ∈ s.backlog,
        ∃ later, ReflTransGen Step s later ∧ (later.clients i).pc = .got s.id) ∧
      (s.node = .out → s.ids ≠ [] → ∀ later, ReflTransGen Step s later →
        ∀ i, Silent (s.clients i) → ∀ id, (later.clients i).pc ≠ .got id) := by
  have known := run_known s run
  refine ⟨fun i id got => ?_,waiting_served s known,fun out been later steps i silent id => ?_⟩
  · cases known.told i with
    | nothing sending received none => exact absurd got (none id)
    | line first same plain sent right => rw [right id got,same]
  · exact silent_none later (run_known later (run.trans steps)) i ((run_over s later (left_over s known out been) steps).2
      i silent) id

end

/-- The second node asks too late, and waits for the next visit in vain. -/
theorem second_visit_silent : ∃ s, (s.clients 0).pc = .got (ascii "a1") ∧ s.ids.head? = some (ascii "a1") ∧
    ∀ later, ReflTransGen Step s later → ∀ id, (later.clients 1).pc ≠ .got id := by
  have performed : (perform act (fun s action => Permitted s action ∧ WrittenAtOnce s action) make
      [.join [ascii ", Node_id: a1",ascii "demo >"],.bind,.connect 0,.check,
      .poll 3,.carry 0,.carry 0,.carry 0,.read 0,.leave,.check,.left]).any
      (fun s => (s.clients 0).pc = .got (ascii "a1") ∧ s.node = .out ∧ s.ids ≠ [] ∧
        (s.clients 1).sending = [] ∧ (s.clients 1).received = []) = true := by
    decide +kernel
  obtain ⟨s,run,good⟩ := perform_run _ _ _ _ _ performed
  obtain ⟨got,out,been,silent⟩ := of_decide_eq_true good
  obtain ⟨same,_,late⟩ := ids_of_first_visit s run
  exact ⟨s,got,same 0 _ got,fun later steps => late out been later steps 1 silent⟩

/-- A socket that takes only the first byte: the client gets an id that no node has. -/
example : (perform act Permitted make [.join [ascii ", Node_id: a1",ascii "demo >"],.bind,.connect 0,.check,.poll 1,
    .check,.transmit 0 (ascii "7" ++ [10]),.carry 0,.carry 0,.carry 0,.read 0]).any
    (fun s => (s.clients 0).pc = .got (ascii "a7")) = true := by decide +kernel

end KaddemoNetwork
end Dhtperf
