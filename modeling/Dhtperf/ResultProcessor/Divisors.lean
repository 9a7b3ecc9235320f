import Dhtperf.ResultProcessor.Columns

/-! The divisions between the first report and the last line of the results. Beside each
function that divides stands the list of the numbers it divides by. -/
namespace Dhtperf
open Library

namespace Statistics
variable {T : Type} [Ord T] [Zero T] [LT T] [DecidableLT T] [DecidableEq T] [Element T Rat] [ExactElement T]

/-- The new count, and the width of a bucket where there are buckets. -/
def pushDivisors (s : Statistics T Rat) : List Rat :=
  ((s.count + 1 : Nat) : Rat) ::
    if s.frequencyMapInterval ≠ 0 then [ExactElement.value s.frequencyMapInterval] else []

def pushAllDivisors : Statistics T Rat → List T → List Rat
  | _,[] => []
  | s,x :: xs => s.pushDivisors ++ (s.push x).pushAllDivisors xs

/-- Means in an arithmetic in which nothing can be divided by zero. -/
instance : Element T (Option Rat) :=
  ⟨Element.quotient Rat,fun mean element count =>
    mean.bind fun mean => (quotient (ExactElement.value element - mean) count).map (mean + ·)⟩

def partialMean (s : Statistics T Rat) : Statistics T (Option Rat) :=
  {mean := some s.mean, max := s.max, min := s.min, count := s.count,
    frequencyMapInterval := s.frequencyMapInterval, frequencyMap := s.frequencyMap}

/-- The same `push` in that arithmetic gives the same mean if its divisors are not zero. -/
theorem push_defined (s : Statistics T Rat) (x : T) (nonzero : 0 ∉ s.pushDivisors) :
    s.partialMean.push x = (s.push x).partialMean := by
  have count : ((s.count + 1 : Nat) : Rat) ≠ 0 := fun zero => nonzero (by simp [pushDivisors,zero])
  have mean : (Element.corrected (some s.mean) x (s.count + 1) : Option Rat) =
      some (Element.corrected s.mean x (s.count + 1)) := by
    rw [ExactElement.corrected]
    change (quotient (ExactElement.value x - s.mean) ((s.count + 1 : Nat) : Rat)).map (s.mean + ·) = _
    rw [quotient,if_neg count]
    rfl
  simp only [partialMean,push,mean]
  rfl

theorem pushAll_defined (s : Statistics T Rat) (xs : List T) (nonzero : 0 ∉ s.pushAllDivisors xs) :
    s.partialMean.pushAll xs = (s.pushAll xs).partialMean := by
  induction xs generalizing s with
  | nil => rfl
  | cons x xs ih =>
    rw [pushAllDivisors,List.mem_append,not_or] at nonzero
    rw [pushAll_cons,pushAll_cons,push_defined s x nonzero.1,ih (s.push x) nonzero.2]

variable (value_zero : ∀ x : T, ExactElement.value x = 0 → x = 0)
include value_zero

omit [LT T] [DecidableLT T] in
theorem pushDivisors_nonzero (s : Statistics T Rat) : 0 ∉ s.pushDivisors := by
  unfold pushDivisors
  intro member
  rcases List.mem_cons.mp member with zero | bucket
  · exact Nat.cast_ne_zero.mpr (Nat.succ_ne_zero s.count) zero.symm
  · split at bucket
    next grouped => exact grouped (value_zero _ (List.mem_singleton.mp bucket).symm)
    next => cases bucket

theorem pushAllDivisors_nonzero (s : Statistics T Rat) (xs : List T) : 0 ∉ s.pushAllDivisors xs := by
  induction xs generalizing s with
  | nil => exact List.not_mem_nil
  | cons x xs ih =>
    intro member
    rcases List.mem_append.mp member with here | rest
    · exact pushDivisors_nonzero value_zero s here
    · exact ih (s.push x) rest

end Statistics

theorem intValue_zero (x : Int) (zero : Statistics.ExactElement.value x = 0) : x = 0 := Int.cast_eq_zero.mp zero

theorem ratValue_zero (x : Rat) (zero : Statistics.ExactElement.value x = 0) : x = 0 := zero

namespace NodeLatency

/-- The pairs of words that the constructor pushes, and their divisors. -/
def readDivisors (text : PosixTime) : NodeLatency Rat → List Bytes → List Rat
  | node,time :: duration :: rest =>
    if time = [] then readDivisors text node rest
    else match text.fromIsoString time,text.durationFromString duration with
      | some time,some duration =>
        node.statistics.pushDivisors ++ readDivisors text (node.pushWithTime time duration) rest
      | _,_ => []
  | _,_ => []

theorem readDivisors_nonzero (text : PosixTime) (node : NodeLatency Rat) (words : List Bytes) :
    0 ∉ readDivisors text node words := by
  fun_induction readDivisors text node words with
  | case1 node duration rest ih => exact ih
  | case2 node time duration rest some t d first second ih =>
    intro member
    rcases List.mem_append.mp member with here | rest
    · exact Statistics.pushDivisors_nonzero intValue_zero _ here
    · exact ih rest
  | case3 => exact List.not_mem_nil
  | case4 => exact List.not_mem_nil

def partialMean (node : NodeLatency Rat) : NodeLatency (Option Rat) := ⟨node.measurements,node.statistics.partialMean⟩

/-- In that arithmetic the constructor makes the same node if nothing it divides by is zero. -/
theorem readPairs_defined (text : PosixTime) (node : NodeLatency Rat) (words : List Bytes)
    (nonzero : 0 ∉ readDivisors text node words) :
    readPairs text node.partialMean words = (readPairs text node words).map partialMean := by
  fun_induction readPairs text node words with
  | case1 node => rfl
  | case2 node => rfl
  | case3 node time some invalid => rw [readPairs,if_neg some,invalid]; rfl
  | case4 node time some t valid => rw [readPairs,if_neg some,valid]; rfl
  | case5 node duration rest ih =>
    rw [readDivisors,if_pos rfl] at nonzero
    rw [readPairs,if_pos rfl,ih nonzero]
  | case6 node time duration rest some t d first second ih =>
    rw [readDivisors,if_neg some,first,second] at nonzero
    have parts := not_or.mp fun member => nonzero (List.mem_append.mpr member)
    have pushed : node.partialMean.pushWithTime t d = (node.pushWithTime t d).partialMean := by
      rw [pushWithTime,partialMean,Statistics.push_defined _ d parts.1]
      rfl
    rw [readPairs,if_neg some,first,second]
    simp only
    rw [pushed,ih parts.2]
  | case7 node time duration rest some invalid =>
    rw [readPairs,if_neg some]
    split
    next t d first second => exact absurd second (invalid t d first)
    next => rfl

theorem readPairs_pushes (text : PosixTime) (node after : NodeLatency Rat) (words : List Bytes)
    (ok : readPairs text node words = .ok after) : ∃ pushes, after = node.pushAll pushes := by
  fun_induction readPairs text node words with
  | case1 node =>
    cases ok
    exact ⟨[],rfl⟩
  | case2 node =>
    cases ok
    exact ⟨[],rfl⟩
  | case3 => cases ok
  | case4 => cases ok
  | case5 node duration rest ih => exact ih ok
  | case6 node time duration rest some t d first second ih =>
    obtain ⟨pushes,rfl⟩ := ih ok
    exact ⟨(t,d) :: pushes,rfl⟩
  | case7 => cases ok

theorem ofString_pushes (text : PosixTime) (fromString : Bytes) (node : NodeLatency Rat)
    (ok : ofString text fromString = .ok node) : ∃ pushes, node = measure pushes :=
  readPairs_pushes text empty node _ ok

end NodeLatency

def NodeSuccessRate.rateDivisors (node : NodeSuccessRate) : List Rat :=
  if node.misses + node.hits = 0 then [] else [((node.misses + node.hits : Int) : Rat)]

theorem NodeSuccessRate.rateDivisors_nonzero (node : NodeSuccessRate) : 0 ∉ node.rateDivisors := by
  unfold rateDivisors
  split
  next => exact List.not_mem_nil
  next some => exact fun member => some (Int.cast_eq_zero.mp (List.mem_singleton.mp member).symm)

def GeneralLatency.pushDivisors (general : GeneralLatency) (node : NodeLatency Rat) : List Rat :=
  if node.count = 0 then []
  else general.meansStatistics.pushDivisors ++
    general.generalStatistics.pushAllDivisors (node.measurements.toList.map (·.2))

theorem GeneralLatency.pushDivisors_nonzero (general : GeneralLatency) (node : NodeLatency Rat) :
    0 ∉ general.pushDivisors node := by
  unfold pushDivisors
  split
  next => exact List.not_mem_nil
  next =>
    intro member
    rcases List.mem_append.mp member with mean | all
    · exact Statistics.pushDivisors_nonzero ratValue_zero _ mean
    · exact Statistics.pushAllDivisors_nonzero intValue_zero _ _ all

/-- So do the two statistics of the aggregate. -/
theorem GeneralLatency.push_defined (general : GeneralLatency) (node : NodeLatency Rat) (counted : node.count ≠ 0)
    (nonzero : 0 ∉ general.pushDivisors node) :
    general.meansStatistics.partialMean.push node.meanInMicroseconds = (general.push node).meansStatistics.partialMean ∧
      general.generalStatistics.partialMean.pushAll (node.measurements.toList.map (·.2)) =
        (general.push node).generalStatistics.partialMean := by
  rw [pushDivisors,if_neg counted,List.mem_append,not_or] at nonzero
  rw [push,if_neg counted]
  exact ⟨Statistics.push_defined _ _ nonzero.1,Statistics.pushAll_defined _ _ nonzero.2⟩

def GeneralSuccessRate.pushDivisors (general : GeneralSuccessRate) (node : NodeSuccessRate) : List Rat :=
  if node.count = 0 then [] else node.rateDivisors ++ general.statistics.pushDivisors

theorem GeneralSuccessRate.pushDivisors_nonzero (general : GeneralSuccessRate) (node : NodeSuccessRate) :
    0 ∉ general.pushDivisors node := by
  unfold pushDivisors
  split
  next => exact List.not_mem_nil
  next =>
    intro member
    rcases List.mem_append.mp member with rate | pushed
    · exact node.rateDivisors_nonzero rate
    · exact Statistics.pushDivisors_nonzero ratValue_zero _ pushed

namespace ResultProcessor

/-- The constructor of `NodeLatency` divides before the aggregate does. -/
def latencyDivisors (text : PosixTime) (results : ResultProcessor) (operation : DhtOperation) (value : Bytes) :
    List Rat :=
  NodeLatency.readDivisors text .empty (value.splitOn 32) ++
    match (NodeLatency.ofString text value : Except Fault (NodeLatency Rat)) with
    | .error _ => []
    | .ok node => (results.latency operation).pushDivisors node

def pushDivisors (text : PosixTime) (results : ResultProcessor) (type value : Bytes) : List Rat :=
  if type = ascii "JoinLatency" then results.latencyDivisors text .join value
  else if type = ascii "LeaveLatency" then results.latencyDivisors text .leave value
  else if type = ascii "PutLatency" then results.latencyDivisors text .put value
  else if type = ascii "GetLatency" then results.latencyDivisors text .get value
  else if type = ascii "JoinSuccessRate" then results.joinSuccessRate.pushDivisors (.ofString value)
  else if type = ascii "GetSuccessRate" then results.getSuccessRate.pushDivisors (.ofString value)
  else []

/-- Each turn of the loop divides the bound by a thousand and the sum by the total. -/
def tableDivisors (latency : GeneralLatency) : List Rat :=
  (List.range cdfRows).flatMap fun _ => [1000,(latency.count : Rat)]

def processDivisors (results : ResultProcessor) : List Rat :=
  tableDivisors results.joinLatency ++ tableDivisors results.leaveLatency ++
    tableDivisors results.putLatency ++ tableDivisors results.getLatency

/-- The reports one after another, then `process`. -/
def runDivisors (text : PosixTime) : ResultProcessor → List (Nat × Bytes × Bytes) → List Rat
  | results,[] => results.processDivisors
  | results,entry :: log =>
    results.pushDivisors text entry.2.1 entry.2.2 ++
      match results.pushResult text entry.2.1 entry.2.2 with
      | .error _ => []
      | .ok after => runDivisors text after log

theorem latencyDivisors_nonzero (text : PosixTime) (results : ResultProcessor) (operation : DhtOperation)
    (value : Bytes) : 0 ∉ results.latencyDivisors text operation value := by
  unfold latencyDivisors
  intro member
  rcases List.mem_append.mp member with read | pushed
  · exact NodeLatency.readDivisors_nonzero text _ _ read
  · split at pushed
    next => cases pushed
    next => exact GeneralLatency.pushDivisors_nonzero _ _ pushed

theorem pushDivisors_nonzero (text : PosixTime) (results : ResultProcessor) (type value : Bytes) :
    0 ∉ results.pushDivisors text type value := by
  unfold pushDivisors
  iterate 4
    split
    next => exact latencyDivisors_nonzero text results _ value
  iterate 2
    split
    next => exact GeneralSuccessRate.pushDivisors_nonzero _ _
  exact List.not_mem_nil

theorem tableDivisors_iff (latency : GeneralLatency) : 0 ∉ tableDivisors latency ↔ latency.count ≠ 0 := by
  have divisor : 0 ∈ tableDivisors latency ↔ latency.count = 0 := by
    unfold tableDivisors
    rw [List.mem_flatMap]
    constructor
    · rintro ⟨turn,_,member⟩
      simp only [List.mem_cons,List.not_mem_nil,or_false] at member
      rcases member with thousand | total
      · norm_num at thousand
      · exact Nat.cast_eq_zero.mp total.symm
    · intro none
      exact ⟨0,by decide,by simp [none]⟩
  exact divisor.not

theorem cdfTable_defined_iff (latency : GeneralLatency) :
    (∀ row ∈ cdfTable latency, row.cdf ≠ none) ↔ 0 ∉ tableDivisors latency := by
  have loop (total : Rat) (turns i : Nat) (frequencyMap : Std.TreeMap Int Nat compare) (accumulated : Int) :
      (∀ row ∈ cdfLoop latency.generalStatistics.frequencyMapInterval total turns i frequencyMap accumulated,
        row.cdf ≠ none) ↔ turns = 0 ∨ total ≠ 0 := by
    induction turns generalizing i frequencyMap accumulated with
    | zero => simp [cdfLoop]
    | succ turns ih =>
      rw [cdfLoop,List.forall_mem_cons,ih]
      by_cases zero : total = 0 <;> simp [quotient,zero]
  rw [tableDivisors_iff,cdfTable,List.forall_mem_cons,loop]
  simp [cdfRows]

theorem processDivisors_iff (results : ResultProcessor) :
    0 ∉ results.processDivisors ↔ ∀ op, (results.latency op).count ≠ 0 := by
  simp only [processDivisors,List.mem_append,not_or,tableDivisors_iff]
  constructor
  · rintro ⟨⟨⟨join,leave⟩,put⟩,get⟩ op
    cases op with
    | join => exact join
    | leave => exact leave
    | put => exact put
    | get => exact get
  · intro all
    exact ⟨⟨⟨all .join,all .leave⟩,all .put⟩,all .get⟩

theorem runDivisors_iff (text : PosixTime) (start results : ResultProcessor) (log : List (Nat × Bytes × Bytes))
    (ok : DhtperfMaster.foldReports text start log = .ok results) :
    0 ∉ runDivisors text start log ↔ ∀ op, (results.latency op).count ≠ 0 := by
  induction log generalizing start with
  | nil =>
    cases ok
    exact processDivisors_iff results
  | cons entry log ih =>
    obtain ⟨middle,here,rest⟩ := bind_ok ok
    change start.pushResult text entry.2.1 entry.2.2 = .ok middle at here
    rw [runDivisors,here,List.mem_append,not_or,ih middle rest]
    exact and_iff_right (pushDivisors_nonzero text start entry.2.1 entry.2.2)

theorem pushAll_count_iff (interval : Int) (nodes : List (NodeLatency Rat))
    (built : ∀ node ∈ nodes, ∃ pushes, node = NodeLatency.measure pushes) :
    ((GeneralLatency.make interval).pushAll nodes).count ≠ 0 ↔ ∃ node ∈ nodes, node.count ≠ 0 := by
  have series : ∃ series : List (List (Int × Int)), nodes = series.map .measure := by
    choose pushes same using built
    exact ⟨nodes.attach.map fun node => pushes node.1 node.2,by
      rw [List.map_map]
      conv_lhs => rw [← List.attach_map_subtype_val nodes]
      exact List.map_congr_left fun node _ => same node.1 node.2⟩
  obtain ⟨series,rfl⟩ := series
  change (GeneralLatency.measured interval series).count ≠ 0 ↔ _
  rw [GeneralLatency.measured_count]
  constructor
  · intro some
    obtain ⟨latency,member⟩ := List.exists_mem_of_ne_nil _ (List.length_pos_iff.mp (Nat.pos_of_ne_zero some))
    obtain ⟨pushes,listed,inside⟩ := List.mem_flatMap.mp member
    refine ⟨.measure pushes,List.mem_map_of_mem listed,?_⟩
    rw [NodeLatency.measure_count]
    intro none
    rw [List.length_eq_zero_iff.mp none] at inside
    cases inside
  · rintro ⟨node,member,counted⟩ none
    obtain ⟨pushes,listed,rfl⟩ := List.mem_map.mp member
    rw [NodeLatency.measure_count] at counted
    exact Measurement.kept_some (fun empty => counted (List.length_eq_zero_iff.mpr empty))
      (List.flatMap_eq_nil_iff.mp (List.length_eq_zero_iff.mp none) pushes listed)

def Reported (text : PosixTime) (log : List (Nat × Bytes × Bytes)) (op : DhtOperation) : Prop :=
  ∃ entry ∈ log, entry.2.1 = latencyType op ∧
    ∃ node : NodeLatency Rat, NodeLatency.ofString text entry.2.2 = .ok node ∧ node.count ≠ 0

theorem mem_latencies (text : PosixTime) (op : DhtOperation) (reports : List (Bytes × Bytes)) (node : NodeLatency Rat) :
    node ∈ latencies text op reports ↔
      ∃ report ∈ reports, report.1 = latencyType op ∧ NodeLatency.ofString text report.2 = .ok node := by
  have parsed (value : Bytes) : (NodeLatency.ofString text value : Except Fault (NodeLatency Rat)).toOption = some node ↔
      NodeLatency.ofString text value = .ok node := by
    cases (NodeLatency.ofString text value : Except Fault (NodeLatency Rat)) <;> simp [Except.toOption]
  rw [latencies,List.mem_filterMap]
  apply exists_congr
  intro report
  apply and_congr_right
  intro _
  split
  next type => rw [parsed,and_iff_right type]
  next other => simp [other]

theorem latencies_reported (text : PosixTime) (log : List (Nat × Bytes × Bytes)) (op : DhtOperation) :
    (∃ node ∈ latencies text op (log.map (·.2)), node.count ≠ 0) ↔ Reported text log op := by
  constructor
  · rintro ⟨node,member,counted⟩
    obtain ⟨report,listed,type,parsed⟩ := (mem_latencies text op _ node).mp member
    obtain ⟨entry,inside,rfl⟩ := List.mem_map.mp listed
    exact ⟨entry,inside,type,node,parsed,counted⟩
  · rintro ⟨entry,inside,type,node,parsed,counted⟩
    exact ⟨node,(mem_latencies text op _ node).mpr ⟨entry.2,List.mem_map_of_mem inside,type,parsed⟩,counted⟩

/-- No division is by zero, and every row of the tables is a number, exactly when every
operation was measured at least once. -/
theorem divisors_nonzero_iff (text : PosixTime) (dhtType : Bytes) (lowLatency : Bool)
    (log : List (Nat × Bytes × Bytes)) (results : ResultProcessor)
    (received : DhtperfMaster.foldReports text (make dhtType lowLatency) log = .ok results) :
    (0 ∉ runDivisors text (make dhtType lowLatency) log ↔ ∀ op, Reported text log op) ∧
      ((∀ op, ∀ row ∈ cdfTable (results.latency op), row.cdf ≠ none) ↔ ∀ op, Reported text log op) := by
  have pushed := foldReports_pushed text _ results log received
  have counted (op : DhtOperation) : (results.latency op).count ≠ 0 ↔ Reported text log op := by
    rw [← latencies_reported,pushed.latency op,make_latency]
    apply pushAll_count_iff
    intro node member
    obtain ⟨report,_,_,parsed⟩ := (mem_latencies text op _ node).mp member
    exact NodeLatency.ofString_pushes text report.2 node parsed
  rw [runDivisors_iff text _ results log received]
  constructor
  · exact forall_congr' counted
  · exact forall_congr' fun op => (cdfTable_defined_iff _).trans ((tableDivisors_iff _).trans (counted op))

def leaveNone : List (Nat × Bytes × Bytes) := [
  (0,ascii "JoinLatency",ascii "20111118T000000.000005 00:00:00.000100"),
  (0,ascii "LeaveLatency",[]),
  (0,ascii "GetLatency",ascii "20111118T000000.000007 00:00:02"),
  (0,ascii "PutLatency",ascii "20111118T000000.000005 00:00:00.000100"),
  (0,ascii "JoinSuccessRate",ascii "1 0"),
  (0,ascii "GetSuccessRate",ascii "1 0"),
  (0,ascii "NodesStatus",ascii "1 0 0")]

theorem leaveNone_divides_by_zero :
    (DhtperfMaster.foldReports NodeLatency.oneDay (make (ascii "Kademlia") false) leaveNone).isOk = true ∧
      ¬0 ∉ runDivisors NodeLatency.oneDay (make (ascii "Kademlia") false) leaveNone := by
  decide +kernel

def leaveOnce : List (Nat × Bytes × Bytes) :=
  leaveNone.set 1 (0,ascii "LeaveLatency",ascii "20111118T000000.000007 00:00:00.000100")

theorem leaveOnce_divides : 0 ∉ runDivisors NodeLatency.oneDay (make (ascii "Kademlia") false) leaveOnce := by
  obtain ⟨results,received,_⟩ := ok_of_any
    (DhtperfMaster.foldReports NodeLatency.oneDay (make (ascii "Kademlia") false) leaveOnce) (fun _ => true)
    (by decide +kernel)
  have told (op : DhtOperation) (value : Bytes) (listed : (0,latencyType op,value) ∈ leaveOnce)
      (some : (NodeLatency.ofString NodeLatency.oneDay value : Except Fault (NodeLatency Rat)).toOption.any
        (fun node => node.count ≠ 0) = true) : Reported NodeLatency.oneDay leaveOnce op := by
    obtain ⟨node,parsed,counted⟩ := ok_of_any _ _ some
    exact ⟨_,listed,rfl,node,parsed,of_decide_eq_true counted⟩
  refine (divisors_nonzero_iff NodeLatency.oneDay (ascii "Kademlia") false leaveOnce results received).1.mpr fun op => ?_
  cases op with
  | join => exact told .join (ascii "20111118T000000.000005 00:00:00.000100") (by decide +kernel) (by decide +kernel)
  | leave => exact told .leave (ascii "20111118T000000.000007 00:00:00.000100") (by decide +kernel) (by decide +kernel)
  | put => exact told .put (ascii "20111118T000000.000005 00:00:00.000100") (by decide +kernel) (by decide +kernel)
  | get => exact told .get (ascii "20111118T000000.000007 00:00:02") (by decide +kernel) (by decide +kernel)

end ResultProcessor
end Dhtperf
