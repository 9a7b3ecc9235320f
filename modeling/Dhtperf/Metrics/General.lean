import Dhtperf.Metrics.NodeLatency
import Dhtperf.Metrics.NodeSuccessRate

/-! The aggregates of the master over all nodes that report: latencies and success
rates. A node without any result is not counted. -/
namespace Dhtperf
open Library

structure GeneralLatency where
  nodes : List (NodeLatency Rat)
  meansStatistics : Statistics Rat Rat
  generalStatistics : Statistics Int Rat

namespace GeneralLatency

def make (frequencyMapInterval : Int) : GeneralLatency :=
  ⟨[],Statistics.make Rat 0,Statistics.make Rat frequencyMapInterval⟩

def push (general : GeneralLatency) (node : NodeLatency Rat) : GeneralLatency :=
  if node.count = 0 then general
  else {
    nodes := general.nodes ++ [node]
    meansStatistics := general.meansStatistics.push node.meanInMicroseconds
    generalStatistics := general.generalStatistics.pushAll (node.measurements.toList.map (·.2)) }

def meanOfMeansInMicroseconds (general : GeneralLatency) : Rat :=
  if general.nodes.length ≠ 0 then general.meansStatistics.mean else 0

def maxMeanInMicroseconds (general : GeneralLatency) : Rat :=
  if general.nodes.length ≠ 0 then general.meansStatistics.max else 0

def minMeanInMicroseconds (general : GeneralLatency) : Rat :=
  if general.nodes.length ≠ 0 then general.meansStatistics.min else 0

def meanInMicroseconds (general : GeneralLatency) : Rat :=
  if general.nodes.length ≠ 0 then general.generalStatistics.mean else 0

def generalMaxInMicroseconds (general : GeneralLatency) : Int :=
  if general.nodes.length ≠ 0 then general.generalStatistics.max else 0

def generalMinInMicroseconds (general : GeneralLatency) : Int :=
  if general.nodes.length ≠ 0 then general.generalStatistics.min else 0

def count (general : GeneralLatency) : Nat :=
  if general.nodes.length ≠ 0 then general.generalStatistics.count else 0

def getFrequencyMap (general : GeneralLatency) : Std.TreeMap Int Nat compare :=
  general.generalStatistics.frequencyMap

end GeneralLatency

structure GeneralSuccessRate where
  nodes : List NodeSuccessRate
  statistics : Statistics Rat Rat

namespace GeneralSuccessRate

def make : GeneralSuccessRate := ⟨[],Statistics.make Rat 0⟩

def push (general : GeneralSuccessRate) (node : NodeSuccessRate) : GeneralSuccessRate :=
  if node.count = 0 then general
  else ⟨general.nodes ++ [node],general.statistics.push node.successRate⟩

def mean (general : GeneralSuccessRate) : Rat :=
  if general.statistics.count ≠ 0 then general.statistics.mean else 0

def min (general : GeneralSuccessRate) : Rat :=
  if general.statistics.count ≠ 0 then general.statistics.min else 0

def max (general : GeneralSuccessRate) : Rat :=
  if general.statistics.count ≠ 0 then general.statistics.max else 0

end GeneralSuccessRate
end Dhtperf
