import Dhtperf.Library.OrderedMap
import Dhtperf.Metrics.Statistics
import Mathlib.Data.Int.Order.Basic

/-! The latencies of one node. The object keeps running statistics and a map keyed by
the time of the push; only the map is written out and read back. Times and durations
are counted in microseconds. -/
namespace Dhtperf
open Library

/-- The text conversions of boost's posix_time; reading can throw. -/
structure PosixTime where
  toIsoString : Int → Bytes
  fromIsoString : Bytes → Option Int
  toSimpleString : Int → Bytes
  durationFromString : Bytes → Option Int

/-- Reading undoes writing on the values in range, and no text holds a space. -/
structure PosixTime.Inverse (text : PosixTime) (time duration : Int → Prop) : Prop where
  read_time : ∀ t, time t → text.fromIsoString (text.toIsoString t) = some t
  read_duration : ∀ d, duration d → text.durationFromString (text.toSimpleString d) = some d
  time_plain : ∀ t, time t → 32 ∉ text.toIsoString t
  duration_plain : ∀ d, duration d → 32 ∉ text.toSimpleString d
  time_nonempty : ∀ t, time t → text.toIsoString t ≠ []

structure NodeLatency (D : Type) where
  measurements : Std.TreeMap Int Int compare
  statistics : Statistics Int D

namespace NodeLatency
variable {D : Type} [Zero D]

def empty : NodeLatency D := ⟨∅,Statistics.make D 0⟩

variable [Element Int D]

omit [Zero D] in
def pushWithTime (node : NodeLatency D) (time duration : Int) : NodeLatency D :=
  ⟨node.measurements.insert time duration,node.statistics.push duration⟩

omit [Zero D] in
/-- `now` is what the microsecond clock reads during the call. -/
def push (node : NodeLatency D) (now duration : Int) : NodeLatency D :=
  node.pushWithTime now duration

omit [Zero D] [Element Int D] in
def count (node : NodeLatency D) : Nat := node.statistics.count

omit [Element Int D] in
def meanInMicroseconds (node : NodeLatency D) : D := if node.count ≠ 0 then node.statistics.mean else 0

omit [Zero D] [Element Int D] in
def maxInMicroseconds (node : NodeLatency D) : Int := if node.count ≠ 0 then node.statistics.max else 0

omit [Zero D] [Element Int D] in
def minInMicroseconds (node : NodeLatency D) : Int := if node.count ≠ 0 then node.statistics.min else 0

omit [Zero D] [Element Int D] in
def toString (text : PosixTime) (node : NodeLatency D) : Bytes :=
  (node.measurements.toList.foldl (fun (written : Bytes × Bool) measurement =>
    (written.1 ++ (if written.2 then [] else [32]) ++
      text.toIsoString measurement.1 ++ [32] ++ text.toSimpleString measurement.2,false)) ([],true)).1

omit [Zero D] in
/-- The loop of the constructor over pairs of words. -/
def readPairs (text : PosixTime) : NodeLatency D → List Bytes → Except Fault (NodeLatency D)
  | node,[] => pure node
  | node,[time] =>
    if time = [] then pure node
    else match text.fromIsoString time with
      | none => throw .exception
      | some _ => throw .exit
  | node,time :: duration :: rest =>
    if time = [] then readPairs text node rest
    else match text.fromIsoString time,text.durationFromString duration with
      | some time,some duration => readPairs text (node.pushWithTime time duration) rest
      | _,_ => throw .exception

def ofString (text : PosixTime) (fromString : Bytes) : Except Fault (NodeLatency D) :=
  readPairs text empty (fromString.splitOn 32)

omit [Zero D] in
def pushAll (node : NodeLatency D) (pushes : List (Int × Int)) : NodeLatency D :=
  pushes.foldl (fun node p => node.push p.1 p.2) node

/-- The object after a series of pushes, each with the clock reading it sees. -/
def measure (pushes : List (Int × Int)) : NodeLatency D := empty.pushAll pushes

omit [Zero D] in
theorem pushAll_parts (node : NodeLatency D) (pushes : List (Int × Int)) :
    (node.pushAll pushes).measurements = insertAll node.measurements pushes ∧
      (node.pushAll pushes).statistics = node.statistics.pushAll (pushes.map (·.2)) := by
  induction pushes generalizing node with
  | nil => exact ⟨rfl,rfl⟩
  | cons p pushes ih => exact ih (node.push p.1 p.2)

/-! ### The text and what is read back from it -/

def words (text : PosixTime) (entries : List (Int × Int)) : List Bytes :=
  entries.flatMap fun entry => [text.toIsoString entry.1,text.toSimpleString entry.2]

omit [Zero D] [Element Int D] in
private theorem written_words (text : PosixTime) (entries : List (Int × Int)) (written : Bytes) :
    (entries.foldl (fun (written : Bytes × Bool) measurement =>
      (written.1 ++ (if written.2 then [] else [32]) ++
        text.toIsoString measurement.1 ++ [32] ++ text.toSimpleString measurement.2,false))
      (written,false)).1 = [32].intercalate (written :: words text entries) := by
  induction entries generalizing written with
  | nil => simp [words]
  | cons entry entries ih =>
    rw [List.foldl_cons]
    simp only [Bool.false_eq_true,if_false]
    rw [ih]
    have regroup (a b : Bytes) (rest : List Bytes) :
        [32].intercalate ((a ++ [32] ++ b) :: rest) = [32].intercalate (a :: b :: rest) := by
      cases rest <;> simp [List.intercalate_cons_cons]
    rw [regroup,List.append_assoc,← List.append_assoc,regroup]
    simp [words]

omit [Zero D] [Element Int D] in
theorem toString_words (text : PosixTime) (node : NodeLatency D) :
    node.toString text = [32].intercalate (words text node.measurements.toList) := by
  unfold toString
  cases entries : node.measurements.toList with
  | nil => rfl
  | cons entry rest =>
    simp only [List.foldl_cons,if_true,List.nil_append,List.append_nil]
    rw [written_words]
    cases rest <;> simp [words,List.intercalate_cons_cons]

omit [Zero D] in
private theorem readPairs_words (text : PosixTime) {time duration : Int → Prop}
    (inverse : text.Inverse time duration) (entries : List (Int × Int)) (node : NodeLatency D)
    (range : ∀ entry ∈ entries, time entry.1 ∧ duration entry.2) :
    readPairs text node (words text entries) = .ok (node.pushAll entries) := by
  induction entries generalizing node with
  | nil => rfl
  | cons entry entries ih =>
    have here := range entry (by simp)
    have rest := ih (node.push entry.1 entry.2) (fun e member => range e (by simp [member]))
    simp only [words,List.flatMap_cons,List.cons_append,List.nil_append,readPairs,
      inverse.time_nonempty _ here.1,if_false,inverse.read_time _ here.1,
      inverse.read_duration _ here.2]
    exact rest

/-- Reading the text back pushes the entries of the map, in the order of their times. -/
theorem ofString_toString (text : PosixTime) {time duration : Int → Prop}
    (inverse : text.Inverse time duration) (node : NodeLatency D)
    (range : ∀ entry ∈ node.measurements.toList, time entry.1 ∧ duration entry.2) :
    (ofString text (node.toString text) : Except Fault (NodeLatency D)) =
      .ok (measure node.measurements.toList) := by
  unfold ofString
  rw [toString_words]
  cases entries : node.measurements.toList with
  | nil => rfl
  | cons entry rest =>
    rw [entries] at range
    rw [List.splitOn_intercalate]
    · exact readPairs_words text inverse _ _ range
    · intro word member
      obtain ⟨e,inside,isWord⟩ := List.mem_flatMap.mp member
      have bounds := range e inside
      simp only [List.mem_cons,List.not_mem_nil,or_false] at isWord
      rcases isWord with rfl | rfl
      · exact inverse.time_plain _ bounds.1
      · exact inverse.duration_plain _ bounds.2
    · simp [words]

theorem measure_parts (pushes : List (Int × Int)) :
    (measure pushes : NodeLatency D).measurements = insertAll ∅ pushes ∧
      (measure pushes : NodeLatency D).statistics = (Statistics.make D 0).pushAll (pushes.map (·.2)) :=
  pushAll_parts empty pushes

theorem measure_count (pushes : List (Int × Int)) : (measure pushes : NodeLatency D).count = pushes.length := by
  unfold count
  rw [(measure_parts pushes).2,Statistics.pushAll_count]
  simp [Statistics.make]

/-! ### Agreement of the two views -/

omit [Zero D] [Element Int D] in
/-- What the getters return and what `toString` writes is the same. -/
structure Agree [Zero D] (text : PosixTime) (first second : NodeLatency D) : Prop where
  count : first.count = second.count
  minimum : first.minInMicroseconds = second.minInMicroseconds
  maximum : first.maxInMicroseconds = second.maxInMicroseconds
  mean : first.meanInMicroseconds = second.meanInMicroseconds
  text : first.toString text = second.toString text

theorem measure_entries (pushes : List (Int × Int)) (entry : Int × Int)
    (member : entry ∈ (measure pushes : NodeLatency D).measurements.toList) : entry ∈ pushes := by
  rw [(measure_parts pushes).1] at member
  exact insertAll_subset pushes entry member

theorem rebuilt_entries (node : NodeLatency D) :
    (measure node.measurements.toList : NodeLatency D).measurements.toList = node.measurements.toList := by
  rw [(measure_parts _).1]
  exact insertAll_ordered _ Std.TreeMap.ordered_keys_toList

theorem rebuilt_text (text : PosixTime) (node : NodeLatency D) :
    (measure node.measurements.toList : NodeLatency D).toString text = node.toString text := by
  rw [toString_words,toString_words,rebuilt_entries]

/-- With increasing clock readings the rebuilt statistics repeat the same pushes, so
they agree in any arithmetic, rounded or exact. -/
theorem rebuilt_increasing (pushes : List (Int × Int)) (increasing : pushes.Pairwise (·.1 < ·.1)) :
    measure (measure pushes : NodeLatency D).measurements.toList = (measure pushes : NodeLatency D) := by
  have ordered : pushes.Pairwise fun a b => compare a.1 b.1 = .lt :=
    increasing.imp fun below => compare_lt_iff_lt.mpr below
  rw [(measure_parts pushes).1,insertAll_ordered pushes ordered]

def inTimeOrder (pushes : List (Int × Int)) : List (Int × Int) := pushes.insertionSort (·.1 ≤ ·.1)

theorem entries_sorted (pushes : List (Int × Int)) (distinct : (pushes.map (·.1)).Nodup) :
    (insertAll ∅ pushes).toList = inTimeOrder pushes := by
  have sorted := List.perm_insertionSort (fun a b : Int × Int => a.1 ≤ b.1) pushes
  have apart : (inTimeOrder pushes).Pairwise fun a b => a.1 ≠ b.1 :=
    List.pairwise_map.mp ((sorted.map Prod.fst).nodup_iff.mpr distinct)
  have ordered : (inTimeOrder pushes).Pairwise fun a b => a.1 ≤ b.1 :=
    List.pairwise_insertionSort (fun a b : Int × Int => a.1 ≤ b.1) pushes
  apply ordered_unique ((insertAll_fresh pushes distinct).trans sorted.symm) Std.TreeMap.ordered_keys_toList
  exact ordered.imp₂ (fun _ _ below differ => compare_lt_iff_lt.mpr (lt_of_le_of_ne below differ)) apart

def meanInOrder (D : Type) [Zero D] [Element Int D] (pushes : List (Int × Int)) : D :=
  Statistics.runningMean 0 0 (pushes.map (·.2))

theorem measure_mean (pushes : List (Int × Int)) :
    (measure pushes : NodeLatency D).meanInMicroseconds = meanInOrder D pushes := by
  unfold meanInMicroseconds
  rw [measure_count,(measure_parts pushes).2,Statistics.pushAll_mean]
  split
  · rfl
  next none => rw [List.eq_nil_of_length_eq_zero (not_not.mp none)]; rfl

theorem measure_extremes (first second : List (Int × Int)) (perm : first.Perm second) :
    (measure first : NodeLatency D).maxInMicroseconds = (measure second : NodeLatency D).maxInMicroseconds ∧
      (measure first : NodeLatency D).minInMicroseconds = (measure second : NodeLatency D).minInMicroseconds := by
  unfold maxInMicroseconds minInMicroseconds
  rw [measure_count,measure_count,perm.length_eq,(measure_parts first).2,(measure_parts second).2]
  by_cases none : first = []
  · subst none
    rw [perm.nil_eq]
    exact ⟨rfl,rfl⟩
  · have extremes := Statistics.extremes_perm (D := D) 0 _ _ (perm.map (·.2)) (by simpa using none)
    rw [extremes.1,extremes.2]
    exact ⟨rfl,rfl⟩

/-- Distinct readings: the map holds every push, and the views can differ only by the
order in which the mean is computed. -/
theorem rebuilt_agree_iff (text : PosixTime) (pushes : List (Int × Int)) (distinct : (pushes.map (·.1)).Nodup) :
    Agree text (measure (measure pushes : NodeLatency D).measurements.toList) (measure pushes : NodeLatency D) ↔
      meanInOrder D pushes = meanInOrder D (inTimeOrder pushes) := by
  have written := rebuilt_text text (measure pushes : NodeLatency D)
  rw [(measure_parts pushes).1,entries_sorted pushes distinct] at written ⊢
  have perm : (inTimeOrder pushes).Perm pushes := List.perm_insertionSort _ _
  obtain ⟨maximum,minimum⟩ := measure_extremes (D := D) _ _ perm
  rw [← measure_mean,← measure_mean]
  constructor
  · exact fun agree => agree.mean.symm
  · intro mean
    exact ⟨by rw [measure_count,measure_count,perm.length_eq],minimum,maximum,mean.symm,written⟩

/-- The object rebuilt from the text agrees with the original exactly when no two pushes
saw the same clock reading and the mean is the same number in the order of the pushes
and in the order of their readings. -/
theorem ofString_agrees_iff (text : PosixTime) (time duration : Int → Prop)
    (inverse : text.Inverse time duration) (pushes : List (Int × Int))
    (range : ∀ p ∈ pushes, time p.1 ∧ duration p.2) :
    (∃ rebuilt, ofString text ((measure pushes : NodeLatency D).toString text) = .ok rebuilt ∧
      Agree text rebuilt (measure pushes : NodeLatency D)) ↔
    (pushes.map (·.1)).Nodup ∧ meanInOrder D pushes = meanInOrder D (inTimeOrder pushes) := by
  have read := ofString_toString text inverse (measure pushes : NodeLatency D)
    (fun entry member => range entry (measure_entries pushes entry member))
  constructor
  · rintro ⟨rebuilt,ok,agree⟩
    rw [read] at ok
    cases ok
    have count := agree.count
    rw [measure_count,measure_count,(measure_parts pushes).1] at count
    have distinct := insertAll_full pushes count
    exact ⟨distinct,(rebuilt_agree_iff text pushes distinct).mp agree⟩
  · rintro ⟨distinct,mean⟩
    exact ⟨_,read,(rebuilt_agree_iff text pushes distinct).mpr mean⟩

theorem rebuilt_agree (text : PosixTime) (pushes : List (Int × Int)) (distinct : (pushes.map (·.1)).Nodup) :
    Agree text (measure (measure pushes : NodeLatency Rat).measurements.toList)
      (measure pushes : NodeLatency Rat) := by
  have perm : (inTimeOrder pushes).Perm pushes := List.perm_insertionSort _ _
  have mean := (Statistics.pushAll_perm 0 _ _ (perm.map (·.2))).mean
  rw [Statistics.pushAll_mean,Statistics.pushAll_mean] at mean
  exact (rebuilt_agree_iff text pushes distinct).mpr mean.symm

/-! ### One day of the clock -/

def padded (width n : Nat) : Bytes :=
  (List.range width).reverse.map fun i => UInt8.ofNat (48 + n / 10^i % 10)

/-- Hours, minutes, seconds, and the microseconds when there are any. -/
def clockText (separator : Bytes) (microseconds : Nat) : Bytes :=
  padded 2 (microseconds / 3600000000) ++ separator ++ padded 2 (microseconds / 60000000 % 60) ++ separator ++
    padded 2 (microseconds / 1000000 % 60) ++
    if microseconds % 1000000 = 0 then [] else ascii "." ++ padded 6 (microseconds % 1000000)

def clockValue (separator : Bytes) (text : Bytes) : Option Int :=
  let minutes := text.drop (2 + separator.length)
  let seconds := minutes.drop (2 + separator.length)
  let value := digitsValue (text.take 2) * 3600000000 + digitsValue (minutes.take 2) * 60000000 +
    digitsValue (seconds.take 2) * 1000000 + digitsValue (seconds.drop 3)
  if clockText separator value = text then some value else none

def oneDay : PosixTime where
  toIsoString time := ascii "20111118T" ++ clockText [] time.toNat
  fromIsoString text := if text.take 9 = ascii "20111118T" then clockValue [] (text.drop 9) else none
  toSimpleString duration := clockText (ascii ":") duration.toNat
  durationFromString := clockValue (ascii ":")

theorem oneDay_inverse : oneDay.Inverse (· ∈ [5,7]) (· ∈ [100,2000000]) where
  read_time := by decide
  read_duration := by decide
  time_plain := by decide
  duration_plain := by decide
  time_nonempty := by decide

/-- Two decreasing readings. -/
theorem agree_backwards : ∃ rebuilt,
    ofString oneDay ((measure [(7,100),(5,2000000)] : NodeLatency Double).toString oneDay) = .ok rebuilt ∧
      Agree oneDay rebuilt (measure [(7,100),(5,2000000)] : NodeLatency Double) :=
  (ofString_agrees_iff oneDay _ _ oneDay_inverse [(7,100),(5,2000000)] (by decide)).mpr
    ⟨by decide,by decide +kernel⟩

/-- Two pushes in one microsecond. -/
theorem same_tick_lost : ¬∃ rebuilt,
    ofString oneDay ((measure [(5,100),(5,2000000)] : NodeLatency Double).toString oneDay) = .ok rebuilt ∧
      Agree oneDay rebuilt (measure [(5,100),(5,2000000)] : NodeLatency Double) := by
  rintro ⟨rebuilt,ok,agree⟩
  have read := ofString_toString oneDay oneDay_inverse (measure [(5,100),(5,2000000)] : NodeLatency Double) (by decide)
  rw [read] at ok
  cases ok
  have count := agree.count
  rw [measure_count,measure_count] at count
  exact absurd count (by decide)

/-- Distinct readings that decrease: the mean is 1522.3333333333335 before and
1522.3333333333333 after. -/
example : ¬Agree oneDay (measure (measure [(7,1000),(6,1000),(5,2567)] : NodeLatency Double).measurements.toList)
    (measure [(7,1000),(6,1000),(5,2567)] : NodeLatency Double) :=
  mt (rebuilt_agree_iff oneDay _ (by decide)).mp (by decide +kernel)

end NodeLatency
end Dhtperf
