import Dhtperf.Profile

/-! The eight classes as one type, and what a profile that was built is made of: one
inversion for each constructor, which all later facts about new profiles rest on. -/
namespace Dhtperf
open Library Utils

inductive ProfileType
  | exact
  | fullDictionary
  | interval
  | none
  | now
  | nTimesRandom
  | poissonRandom
  | weibullRandom

def ProfileType.name : ProfileType → Bytes
  | .exact => ascii "exact"
  | .fullDictionary => ascii "fulldictionary"
  | .interval => ascii "interval"
  | .none => ascii "none"
  | .now => ascii "now"
  | .nTimesRandom => ascii "ntimesrandom"
  | .poissonRandom => ascii "poissonrandom"
  | .weibullRandom => ascii "weibullrandom"

section
variable [heap : StdHeap] {op : DhtOperation}

def ProfileType.make (accepts : Distributions) (op : DhtOperation) (params : Bytes) (draws : Draws) :
    ProfileType → Except Fault (Profile op × Draws)
  | .exact => Exact.make op params draws
  | .fullDictionary => FullDictionary.make op params draws
  | .interval => Interval.make op params draws
  | .none => None.make op params draws
  | .now => Now.make op params draws
  | .nTimesRandom => NTimesRandom.make op params draws
  | .poissonRandom => PoissonRandom.make accepts op params draws
  | .weibullRandom => WeibullRandom.make accepts op params draws

theorem Profile.makeProfile_type (accepts : Distributions) (op : DhtOperation) (text : Bytes)
    (draws : Draws) (type : ProfileType) (named : (splitProfileIntoTypeAndParams text).1 = type.name) :
    makeProfile accepts op text draws = type.make accepts op (splitProfileIntoTypeAndParams text).2 draws := by
  unfold makeProfile
  simp only
  rw [named]
  cases type with
  | exact => exact if_pos rfl
  | fullDictionary => exact (if_neg (by decide)).trans (if_pos rfl)
  | interval => exact (if_neg (by decide)).trans ((if_neg (by decide)).trans (if_pos rfl))
  | none =>
    exact (if_neg (by decide)).trans ((if_neg (by decide)).trans ((if_neg (by decide)).trans (if_pos rfl)))
  | now =>
    rw [if_neg (by decide),if_neg (by decide),if_neg (by decide),if_neg (by decide)]
    exact if_pos rfl
  | nTimesRandom =>
    rw [if_neg (by decide),if_neg (by decide),if_neg (by decide),if_neg (by decide),if_neg (by decide)]
    exact if_pos rfl
  | poissonRandom =>
    rw [if_neg (by decide),if_neg (by decide),if_neg (by decide),if_neg (by decide),if_neg (by decide),
      if_neg (by decide)]
    exact if_pos rfl
  | weibullRandom =>
    rw [if_neg (by decide),if_neg (by decide),if_neg (by decide),if_neg (by decide),if_neg (by decide),
      if_neg (by decide),if_neg (by decide)]
    exact if_pos rfl

theorem Profile.makeProfile_made (accepts : Distributions) (text : Bytes) (draws : Draws) (made : Profile op × Draws)
    (ok : makeProfile accepts op text draws = .ok made) :
    ∃ type : ProfileType, (splitProfileIntoTypeAndParams text).1 = type.name ∧
      type.make accepts op (splitProfileIntoTypeAndParams text).2 draws = .ok made := by
  unfold makeProfile at ok
  simp only at ok
  split at ok
  next named => exact ⟨.exact,named,ok⟩
  split at ok
  next named => exact ⟨.fullDictionary,named,ok⟩
  split at ok
  next named => exact ⟨.interval,named,ok⟩
  split at ok
  next named => exact ⟨.none,named,ok⟩
  split at ok
  next named => exact ⟨.now,named,ok⟩
  split at ok
  next named => exact ⟨.nTimesRandom,named,ok⟩
  split at ok
  next named => exact ⟨.poissonRandom,named,ok⟩
  split at ok
  next named => exact ⟨.weibullRandom,named,ok⟩
  next => cases ok

/-! ### What the constructors leave behind -/

omit heap in
theorem lexicalCast_ok (text : Bytes) (value : UInt32) :
    lexicalCast text = .ok value ↔ lexicalCastUnsigned text = some value := by
  unfold lexicalCast
  cases lexicalCastUnsigned text with
  | some other => exact ⟨fun same => congrArg some (Except.ok.inj same),fun same => congrArg Except.ok (Option.some.inj same)⟩
  | none => exact iff_of_false (by simp) (by simp)

section
variable (params : Bytes) (draws : Draws) (made : Profile op × Draws)

theorem exact_made (ok : Exact.make op params draws = .ok made) : made.1.kind = .exact := by
  obtain ⟨_,_,ok⟩ := bind_ok ok
  cases ok
  rfl

theorem fullDictionary_made (ok : FullDictionary.make op params draws = .ok made) :
    ∃ size times setSize pushed, paramsVector params = size :: times ∧ lexicalCast size = .ok setSize ∧
      FullDictionary.pushElements op (dictionary.take setSize.toNat) times draws = .ok pushed ∧
      made.1.kind = .fullDictionary ∧ made.1.eventQueue = filledQueue pushed.1 := by
  unfold FullDictionary.make at ok
  split at ok
  next => cases ok
  next listed =>
    obtain ⟨setSize,cast,ok⟩ := bind_ok ok
    simp only at ok
    split at ok
    next =>
      obtain ⟨_,found,_⟩ := bind_ok ok
      cases found
    next =>
      obtain ⟨pushed,found,ok⟩ := bind_ok ok
      cases ok
      exact ⟨_,_,setSize,pushed,listed,cast,found,rfl,rfl⟩

theorem interval_made (ok : Interval.make op params draws = .ok made) :
    ∃ size repetitions frequency startTime setSize count period start pushed,
      paramsVector params = [size,repetitions,frequency,startTime] ∧ lexicalCast repetitions = .ok count ∧
      getTimeFromString startTime draws = .ok start ∧ randomDictionary setSize = .ok () ∧
      Interval.pushElement op setSize count (UInt32.ofInt start.1) start.2 = .ok pushed ∧
      made.1.kind = .interval setSize (UInt32.ofInt start.1) period count ∧
      made.1.eventQueue = filledQueue pushed.1 := by
  unfold Interval.make at ok
  split at ok
  next listed =>
    obtain ⟨setSize,_,ok⟩ := bind_ok ok
    obtain ⟨count,counted,ok⟩ := bind_ok ok
    obtain ⟨period,_,ok⟩ := bind_ok ok
    obtain ⟨start,read,ok⟩ := bind_ok ok
    obtain ⟨_,fits,ok⟩ := bind_ok ok
    obtain ⟨pushed,found,ok⟩ := bind_ok ok
    cases ok
    exact ⟨_,_,_,_,setSize,count,period,start,pushed,listed,counted,read,fits,found,rfl,rfl⟩
  next => cases ok

theorem now_made (ok : Now.make op params draws = .ok made) :
    ∃ time drawn pushed, Now.pushElement op time drawn = .ok pushed ∧ made.1.kind = .now ∧
      made.1.eventQueue = filledQueue pushed.1 := by
  unfold Now.make at ok
  split at ok
  next =>
    obtain ⟨time,_,ok⟩ := bind_ok ok
    obtain ⟨pushed,found,ok⟩ := bind_ok ok
    cases ok
    exact ⟨_,_,pushed,found,rfl,rfl⟩
  next => cases ok

theorem nTimesRandom_made (ok : NTimesRandom.make op params draws = .ok made) :
    ∃ size pairs setSize pushed, paramsVector params = size :: pairs ∧ randomDictionary setSize = .ok () ∧
      NTimesRandom.pushElements op setSize pairs draws = .ok pushed ∧
      made.1.kind = .nTimesRandom setSize ∧ made.1.eventQueue = filledQueue pushed.1 := by
  unfold NTimesRandom.make at ok
  split at ok
  next => cases ok
  next listed =>
    obtain ⟨setSize,_,ok⟩ := bind_ok ok
    obtain ⟨_,fits,ok⟩ := bind_ok ok
    obtain ⟨pushed,found,ok⟩ := bind_ok ok
    cases ok
    exact ⟨_,_,setSize,pushed,listed,fits,found,rfl,rfl⟩

theorem poissonRandom_made (accepts : Distributions) (ok : PoissonRandom.make accepts op params draws = .ok made) :
    ∃ setSize lastEvent, randomDictionary setSize = .ok () ∧ made.1.kind = .poissonRandom setSize lastEvent ∧
      made.1.eventQueue = filledQueue (randomEvents op setSize lastEvent 1 draws.rest).1 := by
  unfold PoissonRandom.make at ok
  split at ok
  next =>
    obtain ⟨setSize,_,ok⟩ := bind_ok ok
    simp only at ok
    split at ok
    next =>
      obtain ⟨_,found,_⟩ := bind_ok ok
      cases found
    next =>
      obtain ⟨timeBegin,_,ok⟩ := bind_ok ok
      obtain ⟨_,fits,ok⟩ := bind_ok ok
      obtain ⟨pushed,found,ok⟩ := bind_ok ok
      cases ok
      cases found
      exact ⟨setSize,_,fits,rfl,rfl⟩
  next => cases ok

omit heap in
theorem weibullRandom_made (accepts : Distributions) (ok : WeibullRandom.make accepts op params draws = .ok made) :
    ∃ setSize, randomDictionary setSize = .ok () ∧ made.1.kind = .weibullRandom setSize ∧
      made.1.eventQueue = PriorityQueue.empty := by
  unfold WeibullRandom.make at ok
  split at ok
  next =>
    obtain ⟨setSize,_,ok⟩ := bind_ok ok
    simp only at ok
    split at ok
    next =>
      obtain ⟨_,found,_⟩ := bind_ok ok
      cases found
    next =>
      obtain ⟨_,fits,ok⟩ := bind_ok ok
      cases ok
      exact ⟨setSize,fits,rfl,rfl⟩
  next => cases ok

end

end
end Dhtperf
