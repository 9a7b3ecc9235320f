import Dhtperf.ControllerConnection
import Dhtperf.Metrics.General

/-! Where the master puts the results it receives. The type of a result picks an
aggregate and the value is parsed into the metric of one node. -/
namespace Dhtperf
open Library

structure ResultProcessor where
  dhtType : Bytes
  joinLatency : GeneralLatency
  leaveLatency : GeneralLatency
  putLatency : GeneralLatency
  getLatency : GeneralLatency
  joinSuccessRate : GeneralSuccessRate
  getSuccessRate : GeneralSuccessRate
  nodesStatus : NodesStatus

namespace ResultProcessor

def make (dhtType : Bytes) (lowLatency : Bool) : ResultProcessor where
  dhtType := dhtType
  joinLatency := .make (if lowLatency then 250 * 1000 else 500 * 1000)
  leaveLatency := .make (if lowLatency then 250 * 1000 else 500 * 1000)
  putLatency := .make (if lowLatency then 10 * 1000 else 50 * 1000)
  getLatency := .make (if lowLatency then 10 * 1000 else 50 * 1000)
  joinSuccessRate := .make
  getSuccessRate := .make
  nodesStatus := .empty

/-- The constructor of `NodeLatency` parses the value first. -/
def pushLatency (text : PosixTime) (results : ResultProcessor) (operation : DhtOperation) (value : Bytes) :
    Except Abort ResultProcessor :=
  match (NodeLatency.ofString text value : Except Fault (NodeLatency Rat)) with
  | .error fault => throw (.result fault)
  | .ok node => pure (match operation with
    | .join => {results with joinLatency := results.joinLatency.push node}
    | .leave => {results with leaveLatency := results.leaveLatency.push node}
    | .put => {results with putLatency := results.putLatency.push node}
    | .get => {results with getLatency := results.getLatency.push node})

def pushSuccessRate (results : ResultProcessor) (operation : DhtOperation) (value : Bytes) :
    Except Abort ResultProcessor :=
  match operation with
  | .join => pure {results with joinSuccessRate := results.joinSuccessRate.push (.ofString value)}
  | .get => pure {results with getSuccessRate := results.getSuccessRate.push (.ofString value)}
  | .leave => throw (.result .exit)
  | .put => throw (.result .exit)

def pushNodesStatus (results : ResultProcessor) (value : Bytes) : ResultProcessor :=
  {results with nodesStatus := results.nodesStatus.set value}

def pushResult (text : PosixTime) (results : ResultProcessor) (type value : Bytes) :
    Except Abort ResultProcessor :=
  if type = ascii "JoinLatency" then results.pushLatency text .join value
  else if type = ascii "LeaveLatency" then results.pushLatency text .leave value
  else if type = ascii "PutLatency" then results.pushLatency text .put value
  else if type = ascii "GetLatency" then results.pushLatency text .get value
  else if type = ascii "JoinSuccessRate" then results.pushSuccessRate .join value
  else if type = ascii "GetSuccessRate" then results.pushSuccessRate .get value
  else if type = ascii "NodesStatus" then pure (results.pushNodesStatus value)
  else throw .invalidResultType

end ResultProcessor
end Dhtperf
