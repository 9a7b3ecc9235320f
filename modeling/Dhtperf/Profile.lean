import Dhtperf.Events
import Dhtperf.Utils

/-! The eight profile classes of the controller: how each constructor reads its
parameters, what it pushes, and what `scheduleNextEvent` does on every poll. The
template parameter `EventType` is the operation the profile is for. -/
namespace Dhtperf
open Library Utils

/-- Whether `lexical_cast<double>` and the constructors of the two random
distributions take the texts they are given. -/
structure Distributions where
  poisson : Bytes → Bool
  weibull : Bytes → Bytes → Bool

/-- The class of a profile and its private data other than the event queue. -/
inductive ProfileKind
  | exact
  | fullDictionary
  | interval (setSize lastEventTime frequency repetitions : UInt32)
  | none
  | now
  | nTimesRandom (setSize : UInt32)
  | poissonRandom (setSize lastEvent : UInt32)
  | weibullRandom (setSize : UInt32)
  deriving DecidableEq

structure Profile (op : DhtOperation) where
  kind : ProfileKind
  eventQueue : EventQueue op
  /-- A `None` profile never pushes. -/
  silent : kind = .none → eventQueue.elements = []

/-! ### What the classes push -/

/-- `EventType(time)` for joins and leaves, a random word for puts and gets. -/
def randomEvent (op : DhtOperation) (setSize time : UInt32) (draws : Draws) : DhtEvent op × Draws :=
  match op with
  | .join => (⟨time,()⟩,draws)
  | .leave => (⟨time,()⟩,draws)
  | .put =>
    let (key,draws) := getRandomWord setSize draws
    (⟨time,(key,key ++ ascii "_value")⟩,draws)
  | .get =>
    let (key,draws) := getRandomWord setSize draws
    (⟨time,key⟩,draws)

def randomEvents (op : DhtOperation) (setSize time : UInt32) : Nat → Draws → List (DhtEvent op) × Draws
  | 0, draws => ([],draws)
  | n+1, draws =>
    let (event,draws) := randomEvent op setSize time draws
    let (events,draws) := randomEvents op setSize time n draws
    (event :: events,draws)

/-- Classes whose generic `pushElement` exits. -/
def onlyPutAndGet {α : Type} (op : DhtOperation) (result : α) : Except Fault α :=
  match op with
  | .put => pure result
  | .get => pure result
  | .join => throw .exit
  | .leave => throw .exit

def Interval.pushElement (op : DhtOperation) (setSize repetitions time : UInt32) (draws : Draws) :
    Except Fault (List (DhtEvent op) × Draws) :=
  onlyPutAndGet op (randomEvents op setSize time repetitions.toNat draws)

def NTimesRandom.pushElement (op : DhtOperation) (setSize time repetitions : UInt32) (draws : Draws) :
    Except Fault (List (DhtEvent op) × Draws) :=
  onlyPutAndGet op (randomEvents op setSize time repetitions.toNat draws)

def PoissonRandom.pushElement (op : DhtOperation) (setSize time : UInt32) (draws : Draws) :
    Except Fault (List (DhtEvent op) × Draws) :=
  pure (randomEvents op setSize time 1 draws)

def WeibullRandom.pushElement (op : DhtOperation) (setSize time : UInt32) (draws : Draws) :
    Except Fault (List (DhtEvent op) × Draws) :=
  pure (randomEvents op setSize time 1 draws)

def Now.pushElement (op : DhtOperation) (time : UInt32) (draws : Draws) :
    Except Fault (List (DhtEvent op) × Draws) :=
  match op with
  | .join => pure ([⟨time,()⟩],draws)
  | .leave => pure ([⟨time,()⟩],draws)
  | .put => throw .exit
  | .get => throw .exit

def FullDictionary.pushElement (op : DhtOperation) (time : UInt32) (key : Bytes) :
    Except Fault (DhtEvent op) :=
  match op with
  | .put => pure ⟨time,(key,key ++ ascii "_value")⟩
  | .get => pure ⟨time,key⟩
  | .join => throw .exit
  | .leave => throw .exit

/-- The words after the time that one event takes, and the words left over. -/
def Exact.event (op : DhtOperation) (time : UInt32) (rest : List Bytes) :
    Except Fault (DhtEvent op × List Bytes) :=
  match op,rest with
  | .join,rest => pure (⟨time,()⟩,rest)
  | .leave,rest => pure (⟨time,()⟩,rest)
  | .put,key :: value :: rest => pure (⟨time,(key,value)⟩,rest)
  | .put,_ => throw .outOfRange
  | .get,key :: rest => pure (⟨time,key⟩,rest)
  | .get,[] => throw .outOfRange

/-- `params[i]` is `word` and `rest` follows it; the words not used are returned. -/
def Exact.pushElement (op : DhtOperation) (word : Bytes) (rest : List Bytes) (draws : Draws) :
    Except Fault (DhtEvent op × List Bytes × Draws) := do
  let (time,draws) ← getTimeFromString word draws
  let (event,rest) ← Exact.event op (UInt32.ofInt time) rest
  pure (event,rest,draws)

/-! ### The constructors -/

def lexicalCast (text : Bytes) : Except Fault UInt32 :=
  match lexicalCastUnsigned text with
  | some value => pure value
  | none => throw .exception

/-- The `while` loop of `Exact::Exact`; every turn uses up at least one word. -/
def Exact.pushElements (op : DhtOperation) : Nat → List Bytes → Draws →
    Except Fault (List (DhtEvent op) × Draws)
  | 0, _, draws => pure ([],draws)
  | _+1, [], draws => pure ([],draws)
  | fuel+1, word :: params, draws => do
    let (event,params,draws) ← Exact.pushElement op word params draws
    let (events,draws) ← Exact.pushElements op fuel params draws
    pure (event :: events,draws)

/-- The loops of `FullDictionary::FullDictionary` over the times and the words. -/
def FullDictionary.pushElements (op : DhtOperation) (words : List Bytes) : List Bytes → Draws →
    Except Fault (List (DhtEvent op) × Draws)
  | [], draws => pure ([],draws)
  | time :: times, draws => do
    let (time,draws) ← getTimeFromString time draws
    let here ← words.mapM (FullDictionary.pushElement op (UInt32.ofInt time))
    let (events,draws) ← FullDictionary.pushElements op words times draws
    pure (here ++ events,draws)

/-- The loop of `NTimesRandom::NTimesRandom` over pairs of a time and a count. -/
def NTimesRandom.pushElements (op : DhtOperation) (setSize : UInt32) : List Bytes → Draws →
    Except Fault (List (DhtEvent op) × Draws)
  | [], draws => pure ([],draws)
  | [time], _ => do
    let _ ← lexicalCast time
    throw .outOfRange
  | time :: repetitions :: rest, draws => do
    let time ← lexicalCast time
    let repetitions ← lexicalCast repetitions
    let (here,draws) ← NTimesRandom.pushElement op setSize time repetitions draws
    let (events,draws) ← NTimesRandom.pushElements op setSize rest draws
    pure (here ++ events,draws)

variable {op : DhtOperation} [heap : StdHeap]

def filledQueue (events : List (DhtEvent op)) : EventQueue op :=
  PriorityQueue.empty.pushAll events

def Exact.make (op : DhtOperation) (params : Bytes) (draws : Draws) :
    Except Fault (Profile op × Draws) := do
  let words := paramsVector params
  let (events,draws) ← Exact.pushElements op words.length words draws
  pure (⟨.exact,filledQueue events,nofun⟩,draws)

def FullDictionary.make (op : DhtOperation) (params : Bytes) (draws : Draws) :
    Except Fault (Profile op × Draws) := do
  match paramsVector params with
  | [] => throw .outOfRange
  | setSize :: times =>
    let setSize ← lexicalCast setSize
    if setSize.toNat > dictionarySize then throw .exit
    let (events,draws) ← FullDictionary.pushElements op (dictionary.take setSize.toNat) times draws
    pure (⟨.fullDictionary,filledQueue events,nofun⟩,draws)

def Interval.make (op : DhtOperation) (params : Bytes) (draws : Draws) :
    Except Fault (Profile op × Draws) := do
  match paramsVector params with
  | [setSize,repetitions,frequency,startTime] =>
    let setSize ← lexicalCast setSize
    let repetitions ← lexicalCast repetitions
    let frequency ← lexicalCast frequency
    let (startTime,draws) ← getTimeFromString startTime draws
    let startTime := UInt32.ofInt startTime
    randomDictionary setSize
    let (events,draws) ← Interval.pushElement op setSize repetitions startTime draws
    pure (⟨.interval setSize startTime frequency repetitions,filledQueue events,nofun⟩,draws)
  | _ => throw .exit

def None.make (op : DhtOperation) (_params : Bytes) (draws : Draws) : Except Fault (Profile op × Draws) :=
  pure (⟨.none,PriorityQueue.empty,fun _ => rfl⟩,draws)

def Now.make (op : DhtOperation) (params : Bytes) (draws : Draws) :
    Except Fault (Profile op × Draws) := do
  match paramsVector params with
  | [minimum] =>
    let (time,draws) ← getTimeFromString minimum draws
    let (events,draws) ← Now.pushElement op (UInt32.ofInt time) draws
    pure (⟨.now,filledQueue events,nofun⟩,draws)
  | _ => throw .exit

def NTimesRandom.make (op : DhtOperation) (params : Bytes) (draws : Draws) :
    Except Fault (Profile op × Draws) := do
  match paramsVector params with
  | [] => throw .outOfRange
  | setSize :: pairs =>
    let setSize ← lexicalCast setSize
    randomDictionary setSize
    let (events,draws) ← NTimesRandom.pushElements op setSize pairs draws
    pure (⟨.nTimesRandom setSize,filledQueue events,nofun⟩,draws)

def PoissonRandom.make (accepts : Distributions) (op : DhtOperation) (params : Bytes) (draws : Draws) :
    Except Fault (Profile op × Draws) := do
  match paramsVector params with
  | [setSize,lambda,timeBegin] =>
    let setSize ← lexicalCast setSize
    if ¬accepts.poisson lambda then throw .exception
    let timeBegin ← lexicalCast timeBegin
    randomDictionary setSize
    let (draw,draws) := naturalDraw draws
    let lastEvent := timeBegin + draw
    let (events,draws) ← PoissonRandom.pushElement op setSize lastEvent draws
    pure (⟨.poissonRandom setSize lastEvent,filledQueue events,nofun⟩,draws)
  | _ => throw .exit

def WeibullRandom.make (accepts : Distributions) (op : DhtOperation) (params : Bytes) (draws : Draws) :
    Except Fault (Profile op × Draws) := do
  match paramsVector params with
  | [setSize,shape,scale] =>
    let setSize ← lexicalCast setSize
    if ¬accepts.weibull shape scale then throw .exception
    randomDictionary setSize
    pure (⟨.weibullRandom setSize,PriorityQueue.empty,nofun⟩,draws)
  | _ => throw .exit

/-- The first word is the type, the other words joined by spaces are the parameters. -/
def splitProfileIntoTypeAndParams (profile : Bytes) : Bytes × Bytes :=
  ((split profile).headD [],join (split profile).tail)

def Profile.makeProfile (accepts : Distributions) (op : DhtOperation) (profile : Bytes) (draws : Draws) :
    Except Fault (Profile op × Draws) :=
  let (type,params) := splitProfileIntoTypeAndParams profile
  if type = ascii "exact" then Exact.make op params draws
  else if type = ascii "fulldictionary" then FullDictionary.make op params draws
  else if type = ascii "interval" then Interval.make op params draws
  else if type = ascii "none" then None.make op params draws
  else if type = ascii "now" then Now.make op params draws
  else if type = ascii "ntimesrandom" then NTimesRandom.make op params draws
  else if type = ascii "poissonrandom" then PoissonRandom.make accepts op params draws
  else if type = ascii "weibullrandom" then WeibullRandom.make accepts op params draws
  else throw .exit

/-! ### Polling -/

structure Scheduled (op : DhtOperation) where
  profile : Profile op
  time : TimeUnit
  pushed : List (DhtEvent op)
  draws : Draws

namespace Profile

def unchanged (profile : Profile op) (draws : Draws) : Scheduled op :=
  ⟨profile,profile.eventQueue.getNextEventTime,[],draws⟩

def refill (profile : Profile op) (kind : ProfileKind) (loud : kind ≠ .none)
    (push : Except Fault (List (DhtEvent op) × Draws)) : Except Fault (Scheduled op) := do
  let (events,draws) ← push
  let queue := profile.eventQueue.pushAll events
  pure ⟨⟨kind,queue,fun quiet => absurd quiet loud⟩,EventQueue.getNextEventTime queue,events,draws⟩

def scheduleNextEvent (profile : Profile op) (currentTime : TimeUnit) (draws : Draws) :
    Except Fault (Scheduled op) :=
  match profile.kind with
  | .exact => pure (profile.unchanged draws)
  | .fullDictionary => pure (profile.unchanged draws)
  | .nTimesRandom _ => pure (profile.unchanged draws)
  | .none => pure ⟨profile,0,[],draws⟩
  | .interval setSize lastEventTime frequency repetitions =>
    if profile.eventQueue.getNextEventTime = 0 then
      let lastEventTime := lastEventTime + frequency
      profile.refill (.interval setSize lastEventTime frequency repetitions) nofun
        (Interval.pushElement op setSize repetitions lastEventTime draws)
    else pure (profile.unchanged draws)
  | .now =>
    if profile.eventQueue.getNextEventTime = 0 then
      profile.refill .now nofun (Now.pushElement op currentTime draws)
    else pure (profile.unchanged draws)
  | .poissonRandom setSize lastEvent =>
    if profile.eventQueue.getNextEventTime = 0 then
      let (draw,draws) := naturalDraw draws
      let lastEvent := lastEvent + draw
      profile.refill (.poissonRandom setSize lastEvent) nofun
        (PoissonRandom.pushElement op setSize lastEvent draws)
    else pure (profile.unchanged draws)
  | .weibullRandom setSize =>
    if profile.eventQueue.getNextEventTime = 0 then
      let (draw,draws) := naturalDraw draws
      profile.refill (.weibullRandom setSize) nofun
        (WeibullRandom.pushElement op setSize (currentTime + draw) draws)
    else pure (profile.unchanged draws)

theorem popped_silent (profile : Profile op) (currentTime : TimeUnit) (quiet : profile.kind = .none) :
    (profile.eventQueue.popEvents currentTime).2.elements = [] := by
  have shorter := (PriorityQueue.popUpTo_perm profile.eventQueue currentTime.toNat).length_eq
  rw [profile.silent quiet,List.length_append,List.length_nil] at shorter
  exact List.length_eq_zero_iff.mp (Nat.add_eq_zero_iff.mp shorter).2

def getEvents (profile : Profile op) (currentTime : TimeUnit) : List (DhtEvent op) × Profile op :=
  ((profile.eventQueue.popEvents currentTime).1,
    {profile with
      eventQueue := (profile.eventQueue.popEvents currentTime).2
      silent := profile.popped_silent currentTime})

end Profile
end Dhtperf
