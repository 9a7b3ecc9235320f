import Dhtperf.MasterWorkload
import Dhtperf.ResultProcessor

/-! The master as a machine that runs one completion handler at a time. An action says
which asynchronous operation completes and what the operating system contributes to
it: bytes, errors, addresses, and how much of a write leaves at once. -/
namespace Dhtperf
open Library

/-- What both ends and the libraries fix: the byte order, the texts of times, and where
the chunks of a write come from. -/
structure Platform where
  order : ByteOrder
  text : PosixTime
  writes : WriteModel

inductive StopCause
  | controllerFinished
  | timeout
  deriving DecidableEq

inductive MasterPc
  | serving
  | stopped (cause : StopCause)
  | aborted (abort : Abort)
  deriving DecidableEq

/-- The members of the master, the `async_accept`s under way, and its history: the
controllers counted by `controllerFinished`, those that were disconnected, and the
reports given to the result processor, each with the controller it came from. -/
structure DhtperfMaster where
  workload : MasterWorkload
  dhtType : Bytes
  acceptor : Descriptor
  accepts : Nat
  controllers : List ControllerConnection
  startMessagesSent : Bool
  finishedControllers : UInt32
  failedControllers : UInt32
  resultProcessor : ResultProcessor
  pc : MasterPc
  finishedLog : List Nat
  failedLog : List Nat
  reportLog : List (Nat × Bytes × Bytes)

/-- What the operating system decides while a connection is accepted: which addresses
can be looked up and how many bytes of each message leave at once. -/
structure AcceptLuck where
  reachable : Nat → Bool
  dhtTypeAtOnce : Nat
  profileAtOnce : Nat
  startAtOnce : Nat → Nat

inductive Action
  | accept (descriptor : Descriptor) (address : Bytes) (luck : AcceptLuck)
  | acceptError
  | receive (controller : Nat) (byte : UInt8) (reachable : Bool)
  | readError (controller : Nat) (reachable : Bool)
  | transmit (controller index count : Nat) (beyond : Bytes)
  | writeError (controller : Nat)
  | timeout

namespace DhtperfMaster

/-- `run` after the workload has been loaded, up to its first `asyncAccept`. -/
def make (workload : MasterWorkload) (dhtType : Bytes) (lowLatency : Bool) (acceptor : Descriptor) :
    DhtperfMaster where
  workload := workload
  dhtType := dhtType
  acceptor := acceptor
  accepts := 1
  controllers := []
  startMessagesSent := false
  finishedControllers := 0
  failedControllers := 0
  resultProcessor := .make dhtType lowLatency
  pc := .serving
  finishedLog := []
  failedLog := []
  reportLog := []

/-! ### Accepting -/

/-- The Start message of a node: it joins at the host of node zero, and its port offset
is the number of earlier nodes on its own host. -/
def startMessage (workload : MasterWorkload) (addresses : List Bytes) (i : Nat) : Message :=
  .start workload.duration
    (if i = 0 then [] else addresses.getD (MasterWorkload.getNodeEntryPointHost i) [])
    0 (UInt16.ofNat ((addresses.take i).count (addresses.getD i [])))

def sendStartMessages (platform : Platform) (luck : AcceptLuck) (message : Nat → Message) :
    Nat → List ControllerConnection → Except Abort (List ControllerConnection)
  | _,[] => pure []
  | i,c :: rest => do
    if i ≠ 0 ∧ luck.reachable (MasterWorkload.getNodeEntryPointHost i) = false then throw .lookup
    if luck.reachable i = false then throw .lookup
    let c ← c.sendMessage platform.order platform.writes (message i) (luck.startAtOnce i)
    let rest ← sendStartMessages platform luck message (i+1) rest
    pure (c.asyncWaitForMessage :: rest)

def profileMessage (p : MasterWorkloadProfile) : Message :=
  .profile p.joinProfile p.leaveProfile p.putProfile p.getProfile

def greet (platform : Platform) (m : DhtperfMaster) (descriptor : Descriptor) (address : Bytes)
    (luck : AcceptLuck) : Except Abort ControllerConnection := do
  let controllerNumber := m.controllers.length
  if luck.reachable controllerNumber = false then throw .lookup
  let c ← (ControllerConnection.make descriptor address).sendMessage platform.order platform.writes
    (.dhtType m.dhtType) luck.dhtTypeAtOnce
  match m.workload.getNodeProfile controllerNumber with
  | none => throw .noProfile
  | some p =>
    c.sendMessage platform.order platform.writes (profileMessage p) luck.profileAtOnce

def handleAccept (platform : Platform) (m : DhtperfMaster) (descriptor : Descriptor) (address : Bytes)
    (luck : AcceptLuck) : Except Abort DhtperfMaster := do
  let c ← m.greet platform descriptor address luck
  let controllers := m.controllers ++ [c]
  if controllers.length < m.workload.nodes.toNat then
    -- `asyncAccept` replaces the accept that has completed.
    pure {m with controllers := controllers}
  else
    let controllers ← sendStartMessages platform luck
      (startMessage m.workload (controllers.map (·.address))) 0 controllers
    pure {m with controllers := controllers, accepts := m.accepts - 1, startMessagesSent := true}

/-! ### Serving -/

def update (m : DhtperfMaster) (controller : Nat) (c : ControllerConnection) : DhtperfMaster :=
  {m with controllers := m.controllers.set controller c}

def controllerFinished (m : DhtperfMaster) (controller : Nat) : DhtperfMaster :=
  {m with
    finishedControllers := m.finishedControllers + 1
    finishedLog := m.finishedLog ++ [controller]
    pc := if m.finishedControllers + 1 = m.workload.nodes then .stopped .controllerFinished else m.pc}

def handleDisconnection (m : DhtperfMaster) (controller : Nat) : DhtperfMaster :=
  controllerFinished
    {m with
      failedControllers := m.failedControllers + 1
      failedLog := m.failedLog ++ [controller]} controller

def handleReportMessage (text : PosixTime) (m : DhtperfMaster) (controller : Nat) (c : ControllerConnection)
    (type value : Bytes) : Except Abort DhtperfMaster := do
  let results ← m.resultProcessor.pushResult text type value
  pure ({m with
    resultProcessor := results
    reportLog := m.reportLog ++ [(controller,type,value)]}.update controller c.asyncWaitForMessage)

def handleFinishMessage (m : DhtperfMaster) (controller : Nat) : DhtperfMaster :=
  m.controllerFinished controller

/-- `c` is the connection after the read that completed. -/
def handleMessage (text : PosixTime) (m : DhtperfMaster) (controller : Nat) (c : ControllerConnection)
    (message : Message) : Except Abort DhtperfMaster :=
  match message with
  | .report type value => m.handleReportMessage text controller c type value
  | .finish => pure ((m.update controller c).handleFinishMessage controller)
  | _ => throw .invalidOpcode

def handleRead (platform : Platform) (m : DhtperfMaster) (controller : Nat) (c : ControllerConnection)
    (byte : UInt8) (reachable : Bool) : Except Abort DhtperfMaster := do
  let (c,message) ← c.receive platform.order reachable byte
  match message with
  | none => pure (m.update controller c)
  | some message => m.handleMessage platform.text controller c message

def handleReadError (m : DhtperfMaster) (controller : Nat) (c : ControllerConnection) (reachable : Bool) :
    Except Abort DhtperfMaster :=
  if reachable = false then throw .lookup
  else pure ((m.update controller {c with reads := c.reads.tail}).handleDisconnection controller)

/-! ### Actions -/

def ending (m : DhtperfMaster) (result : Except Abort DhtperfMaster) : DhtperfMaster :=
  match result with
  | .ok after => after
  | .error abort => {m with pc := .aborted abort}

def unused (m : DhtperfMaster) (descriptor : Descriptor) : Bool :=
  descriptor ≠ m.acceptor && m.controllers.all (·.descriptor ≠ descriptor)

/-- The state after an action, if the operation it completes is under way. -/
def act (platform : Platform) (m : DhtperfMaster) (action : Action) : Option DhtperfMaster :=
  if m.pc ≠ .serving then none
  else match action with
    | .accept descriptor address luck =>
      if 0 < m.accepts ∧ m.unused descriptor then
        some (m.ending (m.handleAccept platform descriptor address luck))
      else none
    | .acceptError => if 0 < m.accepts then some {m with pc := .aborted .accept} else none
    | .receive controller byte reachable =>
      match m.controllers[controller]? with
      | some c =>
        if c.reads ≠ [] then some (m.ending (m.handleRead platform controller c byte reachable)) else none
      | none => none
    | .readError controller reachable =>
      match m.controllers[controller]? with
      | some c => if c.reads ≠ [] then some (m.ending (m.handleReadError controller c reachable)) else none
      | none => none
    | .transmit controller index count beyond =>
      match m.controllers[controller]? with
      | some c => (c.transmit platform.writes index count beyond).map (m.update controller)
      | none => none
    | .writeError controller =>
      match m.controllers[controller]? with
      | some c => if c.writes ≠ [] then some {m with pc := .aborted .write} else none
      | none => none
    | .timeout => if m.startMessagesSent then some {m with pc := .stopped .timeout} else none

def Step (platform : Platform) (before after : DhtperfMaster) : Prop :=
  ∃ action, act platform before action = some after

/-! ### The last line of the results -/

/-- The three numbers of `pushNodesStatus`; the unsigned differences become `int`s. -/
def nodesStatus (m : DhtperfMaster) : NodesStatus where
  finished := (m.finishedControllers - m.failedControllers).toInt32.toInt
  failed := m.failedControllers.toInt32.toInt
  unfinished := (m.workload.nodes - m.finishedControllers).toInt32.toInt

/-- What `pushNodesStatus` writes into its stream. -/
def nodesStatusText (m : DhtperfMaster) : Bytes :=
  NodeSuccessRate.written m.nodesStatus.finished ++ [32] ++ NodeSuccessRate.written m.nodesStatus.failed ++
    [32] ++ NodeSuccessRate.written m.nodesStatus.unfinished

def pushNodesStatus (m : DhtperfMaster) : DhtperfMaster :=
  {m with resultProcessor := m.resultProcessor.pushNodesStatus m.nodesStatusText}

end DhtperfMaster
end Dhtperf
