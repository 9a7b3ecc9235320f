import Dhtperf.DhtperfController.Refills
import Mathlib.Data.List.GetD

/-! The keys a profile uses. A set of `n` keys is the first `n` words of the dictionary for
`FullDictionary`, while the draws of `RandomDictionary(n)` reach one word further. -/
namespace Dhtperf
open Library Utils

def DhtEvent.key {op : DhtOperation} (event : DhtEvent op) : Option Bytes :=
  match op,event with
  | .put,event => some event.payload.1
  | .get,event => some event.payload
  | .join,_ => none
  | .leave,_ => none

def DhtOperation.Keyed (op : DhtOperation) : Prop := op = .put ∨ op = .get

namespace Draws

def take : Nat → Draws → List Nat
  | 0,_ => []
  | n+1,draws => draws.first :: take n draws.rest

def skip : Nat → Draws → Draws
  | 0,draws => draws
  | n+1,draws => skip n draws.rest

end Draws

def ProfileKind.setSize : ProfileKind → Option UInt32
  | .interval setSize _ _ _ => some setSize
  | .nTimesRandom setSize => some setSize
  | .poissonRandom setSize _ => some setSize
  | .weibullRandom setSize => some setSize
  | _ => Option.none

def word (setSize : UInt32) (draw : Nat) : Bytes :=
  dictionary.getD (uniformInt 0 setSize.toNat draw).toNat []

/-! ### Words and sets -/

theorem uniformInt_index (setSize draw : Nat) : (uniformInt 0 setSize draw).toNat = draw % (setSize + 1) := by
  have range : ((setSize : Int) - 0 + 1).toNat = setSize + 1 := by omega
  rw [uniformInt,range]
  omega

theorem dictionary_distinct : dictionary.Nodup := by decide +kernel

theorem word_mem_iff (setSize : UInt32) (fits : setSize.toNat < dictionarySize) (draw : Nat) :
    word setSize draw ∈ dictionary.take setSize.toNat ↔ draw % (setSize.toNat + 1) ≠ setSize.toNat := by
  have below : draw % (setSize.toNat + 1) < dictionary.length :=
    lt_of_le_of_lt (Nat.lt_succ_iff.mp (Nat.mod_lt _ (Nat.succ_pos _))) fits
  rw [word,uniformInt_index,List.getD_eq_getElem _ _ below,List.mem_iff_getElem]
  constructor
  · rintro ⟨i,bound,same⟩ full
    rw [List.getElem_take,dictionary_distinct.getElem_inj_iff] at same
    rw [List.length_take] at bound
    omega
  · intro other
    have inside : draw % (setSize.toNat + 1) < setSize.toNat + 1 := Nat.mod_lt _ (Nat.succ_pos _)
    change setSize.toNat < dictionary.length at fits
    refine ⟨draw % (setSize.toNat + 1),?_,List.getElem_take⟩
    rw [List.length_take]
    omega

theorem randomEvents_keys {op : DhtOperation} (keyed : op.Keyed) (setSize time : UInt32) (n : Nat) (draws : Draws) :
    (randomEvents op setSize time n draws).1.filterMap DhtEvent.key = (draws.take n).map (word setSize) ∧
      (randomEvents op setSize time n draws).2 = draws.skip n := by
  induction n generalizing draws with
  | zero => exact ⟨rfl,rfl⟩
  | succ n ih =>
    have rest := ih draws.rest
    rcases keyed with rfl | rfl
    · exact ⟨congrArg (word setSize draws.first :: ·) rest.1,rest.2⟩
    · exact ⟨congrArg (word setSize draws.first :: ·) rest.1,rest.2⟩

theorem onlyPutAndGet_keyed {op : DhtOperation} {α : Type} (keyed : op.Keyed) (value result : α)
    (ok : onlyPutAndGet op value = .ok result) : result = value := by
  rcases keyed with rfl | rfl
  · cases ok
    rfl
  · cases ok
    rfl

/-! ### The draws that become words -/

def Profile.words {op : DhtOperation} (profile : Profile op) (draws : Draws) : List Nat :=
  if profile.eventQueue.getNextEventTime ≠ 0 then []
  else match profile.kind with
    | .interval _ _ _ repetitions => draws.take repetitions.toNat
    | .poissonRandom _ _ => draws.rest.take 1
    | .weibullRandom _ => draws.rest.take 1
    | _ => []

/-- A start time that is a range takes the first draw. -/
def Interval.words (params : List Bytes) (draws : Draws) : List Nat :=
  match params with
  | [_,repetitions,_,startTime] =>
    let draws := match scanTimes startTime with
      | .two _ _ => draws.rest
      | _ => draws
    draws.take ((lexicalCastUnsigned repetitions).getD 0).toNat
  | _ => []

def NTimesRandom.words : List Bytes → Draws → List Nat
  | _ :: repetitions :: rest,draws =>
    let n := ((lexicalCastUnsigned repetitions).getD 0).toNat
    draws.take n ++ NTimesRandom.words rest (draws.skip n)
  | _,_ => []

def makeWords (profile : Bytes) (draws : Draws) : List Nat :=
  let (type,params) := splitProfileIntoTypeAndParams profile
  if type = ascii "interval" then Interval.words (paramsVector params) draws
  else if type = ascii "ntimesrandom" then NTimesRandom.words (paramsVector params).tail draws
  else if type = ascii "poissonrandom" then draws.rest.take 1
  else []

section
variable (text : Bytes) (draws : Draws)

theorem makeWords_interval (type : (splitProfileIntoTypeAndParams text).1 = ascii "interval") :
    makeWords text draws = Interval.words (paramsVector (splitProfileIntoTypeAndParams text).2) draws := if_pos type

theorem makeWords_nTimesRandom (type : (splitProfileIntoTypeAndParams text).1 = ascii "ntimesrandom") :
    makeWords text draws = NTimesRandom.words (paramsVector (splitProfileIntoTypeAndParams text).2).tail draws := by
  unfold makeWords
  simp only [type]
  rw [if_neg (by decide)]
  exact if_pos trivial

theorem makeWords_poissonRandom (type : (splitProfileIntoTypeAndParams text).1 = ascii "poissonrandom") :
    makeWords text draws = draws.rest.take 1 := by
  unfold makeWords
  simp only [type]
  rw [if_neg (by decide),if_neg (by decide)]
  exact if_pos trivial

theorem makeWords_weibullRandom (type : (splitProfileIntoTypeAndParams text).1 = ascii "weibullrandom") :
    makeWords text draws = [] := by
  unfold makeWords
  simp only [type]
  rw [if_neg (by decide),if_neg (by decide),if_neg (by decide)]

end

theorem getTimeFromString_draws (text : Bytes) (draws : Draws) (read : Int × Draws)
    (ok : getTimeFromString text draws = .ok read) :
    read.2 = match scanTimes text with
      | .two _ _ => draws.rest
      | _ => draws := by
  unfold getTimeFromString at ok
  split at ok
  next => cases ok
  next min scanned =>
    cases ok
    rw [scanned]
  next min max scanned =>
    split at ok
    next => cases ok
    next =>
      cases ok
      rw [scanned]
  next => cases ok

section
variable {op : DhtOperation} (keyed : op.Keyed)
include keyed

theorem nTimesRandom_words (setSize : UInt32) (pairs : List Bytes) (draws : Draws)
    (pushed : List (DhtEvent op) × Draws) (ok : NTimesRandom.pushElements op setSize pairs draws = .ok pushed) :
    pushed.1.filterMap DhtEvent.key = (NTimesRandom.words pairs draws).map (word setSize) := by
  induction pairs using List.twoStepInduction generalizing draws pushed with
  | nil =>
    cases ok
    rfl
  | singleton time =>
    obtain ⟨_,_,ok⟩ := bind_ok ok
    cases ok
  | cons_cons time repetitions rest ih =>
    obtain ⟨at_,_,ok⟩ := bind_ok ok
    obtain ⟨count,read,ok⟩ := bind_ok ok
    obtain ⟨here,drawn,ok⟩ := bind_ok ok
    obtain ⟨later,others,ok⟩ := bind_ok ok
    cases ok
    have same := onlyPutAndGet_keyed keyed _ here drawn
    have keys := randomEvents_keys keyed setSize at_ count.toNat draws
    rw [← same] at keys
    rw [keys.2] at others
    rw [List.filterMap_append,keys.1,ih _ later others,← List.map_append,NTimesRandom.words,
      (lexicalCast_ok repetitions count).mp read]
    rfl

variable [heap : StdHeap]

namespace Profile

theorem scheduleNextEvent_words (profile : Profile op) (currentTime : TimeUnit) (draws : Draws)
    (scheduled : Scheduled op) (ok : profile.scheduleNextEvent currentTime draws = .ok scheduled)
    (setSize : UInt32) (size : profile.kind.setSize = some setSize) :
    scheduled.pushed.filterMap DhtEvent.key = (profile.words draws).map (word setSize) ∧
      scheduled.profile.kind.setSize = some setSize := by
  have waiting (next : profile.eventQueue.getNextEventTime ≠ 0) : profile.words draws = [] := if_pos next
  have empty (due : ¬profile.eventQueue.getNextEventTime ≠ 0) : profile.words draws = _ := if_neg due
  cases kind : profile.kind with
  | interval n lastEventTime frequency repetitions =>
    rw [kind] at size
    cases size
    simp only [scheduleNextEvent,kind] at ok
    split at ok
    next due =>
      obtain ⟨pushed,drawn,ok⟩ := bind_ok ok
      cases ok
      rw [onlyPutAndGet_keyed keyed _ pushed drawn,empty (not_not.mpr due),kind]
      exact ⟨(randomEvents_keys keyed setSize _ _ draws).1,rfl⟩
    next next =>
      cases ok
      rw [waiting next]
      exact ⟨rfl,by rw [unchanged,kind]; rfl⟩
  | poissonRandom n lastEvent =>
    rw [kind] at size
    cases size
    simp only [scheduleNextEvent,kind] at ok
    split at ok
    next due =>
      cases ok
      rw [empty (not_not.mpr due),kind]
      exact ⟨(randomEvents_keys keyed setSize _ 1 draws.rest).1,rfl⟩
    next next =>
      cases ok
      rw [waiting next]
      exact ⟨rfl,by rw [unchanged,kind]; rfl⟩
  | weibullRandom n =>
    rw [kind] at size
    cases size
    simp only [scheduleNextEvent,kind] at ok
    split at ok
    next due =>
      cases ok
      rw [empty (not_not.mpr due),kind]
      exact ⟨(randomEvents_keys keyed setSize _ 1 draws.rest).1,rfl⟩
    next next =>
      cases ok
      rw [waiting next]
      exact ⟨rfl,by rw [unchanged,kind]; rfl⟩
  | nTimesRandom n =>
    rw [kind] at size
    cases size
    simp only [scheduleNextEvent,kind] at ok
    cases ok
    have none : profile.words draws = [] := by
      unfold words
      rw [kind]
      exact ite_self _
    rw [none]
    exact ⟨rfl,by rw [unchanged,kind]; rfl⟩
  | exact => cases kind ▸ size
  | fullDictionary => cases kind ▸ size
  | none => cases kind ▸ size
  | now => cases kind ▸ size

structure Picked (made : Profile op) (picks : List Nat) : Prop where
  fits : ∀ setSize, made.kind.setSize = some setSize → setSize.toNat < dictionarySize
  keys : ∀ setSize, made.kind.setSize = some setSize →
    (made.eventQueue.elements.filterMap DhtEvent.key).Perm (picks.map (word setSize))

omit keyed heap in
theorem randomDictionary_fits (setSize : UInt32) (ok : randomDictionary setSize = .ok ()) :
    setSize.toNat < dictionarySize := by
  unfold randomDictionary at ok
  split at ok
  next => cases ok
  next fits => exact not_le.mp fits

omit keyed in
theorem picked_queue (setSize : UInt32) (fits : setSize.toNat < dictionarySize) (made : Profile op)
    (size : made.kind.setSize = some setSize) (events : List (DhtEvent op)) (picks : List Nat)
    (filled : made.eventQueue = filledQueue events)
    (keys : events.filterMap DhtEvent.key = picks.map (word setSize)) : made.Picked picks where
  fits := by
    intro other same
    cases size.symm.trans same
    exact fits
  keys := by
    intro other same
    cases size.symm.trans same
    have perm := PriorityQueue.pushAll_perm (PriorityQueue.empty : EventQueue op) events
    rw [PriorityQueue.empty_elements,List.append_nil] at perm
    rw [← keys,filled]
    exact perm.filterMap _

omit keyed heap in
theorem picked_none (made : Profile op) (size : made.kind.setSize = Option.none) (picks : List Nat) :
    made.Picked picks :=
  ⟨fun _ same => (nomatch size.symm.trans same),fun _ same => nomatch size.symm.trans same⟩

theorem interval_picked (params : Bytes) (draws : Draws) (made : Profile op × Draws)
    (ok : Interval.make op params draws = .ok made) :
    made.1.Picked (Interval.words (paramsVector params) draws) := by
  obtain ⟨_,repetitions,_,startTime,setSize,count,_,start,pushed,listed,counted,read,fits,found,kind,queue⟩ :=
    interval_made params draws made ok
  have words : Interval.words (paramsVector params) draws = start.2.take count.toNat := by
    rw [listed,getTimeFromString_draws startTime draws start read,Interval.words,
      (lexicalCast_ok repetitions count).mp counted]
    rfl
  apply picked_queue setSize (randomDictionary_fits setSize fits) _ (by rw [kind]; rfl) pushed.1 _ queue
  rw [words,onlyPutAndGet_keyed keyed _ pushed found]
  exact (randomEvents_keys keyed setSize _ _ start.2).1

theorem nTimesRandom_picked (params : Bytes) (draws : Draws) (made : Profile op × Draws)
    (ok : NTimesRandom.make op params draws = .ok made) :
    made.1.Picked (NTimesRandom.words (paramsVector params).tail draws) := by
  obtain ⟨_,pairs,setSize,pushed,listed,fits,found,kind,queue⟩ := nTimesRandom_made params draws made ok
  apply picked_queue setSize (randomDictionary_fits setSize fits) _ (by rw [kind]; rfl) pushed.1 _ queue
  rw [listed]
  exact nTimesRandom_words keyed setSize pairs draws pushed found

theorem poissonRandom_picked (accepts : Distributions) (params : Bytes) (draws : Draws)
    (made : Profile op × Draws) (ok : PoissonRandom.make accepts op params draws = .ok made) :
    made.1.Picked (draws.rest.take 1) := by
  obtain ⟨setSize,_,fits,kind,queue⟩ := poissonRandom_made params draws made accepts ok
  exact picked_queue setSize (randomDictionary_fits setSize fits) _ (by rw [kind]; rfl) _ _ queue
    (randomEvents_keys keyed setSize _ 1 draws.rest).1

omit keyed in
theorem weibullRandom_picked (accepts : Distributions) (params : Bytes) (draws : Draws)
    (made : Profile op × Draws) (ok : WeibullRandom.make accepts op params draws = .ok made) :
    made.1.Picked [] := by
  obtain ⟨setSize,fits,kind,queue⟩ := weibullRandom_made params draws made accepts ok
  exact picked_queue setSize (randomDictionary_fits setSize fits) _ (by rw [kind]; rfl) [] [] queue rfl

theorem makeProfile_picked (accepts : Distributions) (text : Bytes) (draws : Draws) (made : Profile op × Draws)
    (ok : makeProfile accepts op text draws = .ok made) : made.1.Picked (makeWords text draws) := by
  obtain ⟨type,named,ok⟩ := makeProfile_made accepts text draws made ok
  cases type with
  | interval =>
    rw [makeWords_interval text draws named]
    exact interval_picked keyed _ draws made ok
  | nTimesRandom =>
    rw [makeWords_nTimesRandom text draws named]
    exact nTimesRandom_picked keyed _ draws made ok
  | poissonRandom =>
    rw [makeWords_poissonRandom text draws named]
    exact poissonRandom_picked keyed accepts _ draws made ok
  | weibullRandom =>
    rw [makeWords_weibullRandom text draws named]
    exact weibullRandom_picked accepts _ draws made ok
  | exact => exact picked_none _ (by rw [exact_made _ draws made ok]; rfl) _
  | fullDictionary =>
    obtain ⟨_,_,_,_,_,_,_,kind,_⟩ := fullDictionary_made _ draws made ok
    exact picked_none _ (by rw [kind]; rfl) _
  | none =>
    cases ok
    exact picked_none _ rfl _
  | now =>
    obtain ⟨_,_,_,_,kind,_⟩ := now_made _ draws made ok
    exact picked_none _ (by rw [kind]; rfl) _

end Profile

/-! ### The life of a profile -/

/-- The life of a profile with a set of some size: it is made, polled and emptied in any
order, and every call gets draws of its own. The events it has pushed and the draws that
became words are kept. -/
inductive Life (accepts : Distributions) (op : DhtOperation) (setSize : UInt32) :
    Profile op → List (DhtEvent op) → List Nat → Prop
  | make (text : Bytes) (draws : Draws) (made : Profile op × Draws)
      (ok : Profile.makeProfile accepts op text draws = .ok made) (size : made.1.kind.setSize = some setSize) :
      Life accepts op setSize made.1 made.1.eventQueue.elements (makeWords text draws)
  | poll (profile : Profile op) (pushed : List (DhtEvent op)) (picks : List Nat) (currentTime : TimeUnit)
      (draws : Draws) (scheduled : Scheduled op) (life : Life accepts op setSize profile pushed picks)
      (ok : profile.scheduleNextEvent currentTime draws = .ok scheduled) :
      Life accepts op setSize scheduled.profile (pushed ++ scheduled.pushed) (picks ++ profile.words draws)
  | empty (profile : Profile op) (pushed : List (DhtEvent op)) (picks : List Nat) (currentTime : TimeUnit)
      (life : Life accepts op setSize profile pushed picks) :
      Life accepts op setSize (profile.getEvents currentTime).2 pushed picks

theorem life_keys (accepts : Distributions) (setSize : UInt32) (profile : Profile op)
    (pushed : List (DhtEvent op)) (picks : List Nat) (life : Life accepts op setSize profile pushed picks) :
    profile.kind.setSize = some setSize ∧ setSize.toNat < dictionarySize ∧
      (pushed.filterMap DhtEvent.key).Perm (picks.map (word setSize)) := by
  induction life with
  | make text draws made ok size =>
    have picked := Profile.makeProfile_picked keyed accepts text draws made ok
    exact ⟨size,picked.fits setSize size,picked.keys setSize size⟩
  | poll profile pushed picks currentTime draws scheduled life ok ih =>
    obtain ⟨size,fits,keys⟩ := ih
    have words := profile.scheduleNextEvent_words keyed currentTime draws scheduled ok setSize size
    refine ⟨words.2,fits,?_⟩
    rw [List.filterMap_append,List.map_append,words.1]
    exact keys.append_right _
  | empty profile pushed picks currentTime life ih => exact ih

end

/-! ### The keys that are stored -/

section
variable [heap : StdHeap]

def Profile.keys {op : DhtOperation} (profile : Profile op) : List Bytes :=
  profile.eventQueue.elements.filterMap DhtEvent.key

omit heap in
theorem fullDictionary_pushed (words times : List Bytes) (draws : Draws)
    (pushed : List (DhtEvent .put) × Draws)
    (ok : FullDictionary.pushElements .put words times draws = .ok pushed) :
    pushed.1.filterMap DhtEvent.key = times.flatMap fun _ => words := by
  induction times generalizing draws pushed with
  | nil =>
    cases ok
    rfl
  | cons time times ih =>
    obtain ⟨at_,_,ok⟩ := bind_ok ok
    obtain ⟨here,found,ok⟩ := bind_ok ok
    obtain ⟨later,others,ok⟩ := bind_ok ok
    cases ok
    have all (words : List Bytes) : words.mapM (FullDictionary.pushElement .put (UInt32.ofInt at_.1)) =
        .ok (words.map fun key => ⟨UInt32.ofInt at_.1,(key,key ++ ascii "_value")⟩) := by
      induction words with
      | nil => rfl
      | cons key words ih =>
        rw [List.mapM_cons,ih]
        rfl
    cases (all words).symm.trans found
    rw [List.filterMap_append,ih _ later others,List.flatMap_cons,List.filterMap_map]
    congr 1
    exact List.filterMap_some

theorem fullDictionary_keys (params size : Bytes) (times : List Bytes) (setSize : UInt32) (draws : Draws)
    (made : Profile .put × Draws) (ok : FullDictionary.make .put params draws = .ok made)
    (listed : paramsVector params = size :: times) (putting : times ≠ [])
    (read : lexicalCastUnsigned size = some setSize) (key : Bytes) :
    key ∈ made.1.keys ↔ key ∈ dictionary.take setSize.toNat := by
  obtain ⟨first,others,given,pushed,words,cast,found,_,queue⟩ := fullDictionary_made params draws made ok
  cases words.symm.trans listed
  cases ((lexicalCast_ok size given).mp cast).symm.trans read
  have perm := PriorityQueue.pushAll_perm (PriorityQueue.empty : EventQueue .put) pushed.1
  rw [PriorityQueue.empty_elements,List.append_nil] at perm
  have keys : made.1.keys.Perm (pushed.1.filterMap DhtEvent.key) := by
    rw [Profile.keys,queue]
    exact perm.filterMap DhtEvent.key
  rw [keys.mem_iff,fullDictionary_pushed _ times draws pushed found,List.mem_flatMap]
  constructor
  · rintro ⟨_,_,member⟩
    exact member
  · intro member
    exact ⟨_,List.head_mem putting,member⟩

/-- Every key of a random profile is one that a full dictionary of the same size stores,
exactly when no draw that became a word was the size of the set. -/
theorem keys_stored_iff (accepts : Distributions) {op : DhtOperation} (keyed : op.Keyed) (setSize : UInt32)
    (profile : Profile op) (pushed : List (DhtEvent op)) (picks : List Nat)
    (life : Life accepts op setSize profile pushed picks) (params size : Bytes) (times : List Bytes) (draws : Draws)
    (stored : Profile .put × Draws) (ok : FullDictionary.make .put params draws = .ok stored)
    (listed : paramsVector params = size :: times) (putting : times ≠ [])
    (read : lexicalCastUnsigned size = some setSize) :
    (∀ event ∈ pushed, ∀ key ∈ event.key, key ∈ stored.1.keys) ↔
      ∀ draw ∈ picks, draw % (setSize.toNat + 1) ≠ setSize.toNat := by
  obtain ⟨_,fits,keys⟩ := life_keys keyed accepts setSize profile pushed picks life
  have stores := fullDictionary_keys params size times setSize draws stored ok listed putting read
  calc (∀ event ∈ pushed, ∀ key ∈ event.key, key ∈ stored.1.keys)
      ↔ ∀ key ∈ pushed.filterMap DhtEvent.key, key ∈ stored.1.keys := by
        simp only [List.mem_filterMap,Option.mem_def]
        exact ⟨fun all key ⟨event,member,same⟩ => all event member key same,
          fun all event member key same => all key ⟨event,member,same⟩⟩
    _ ↔ ∀ key ∈ picks.map (word setSize), key ∈ dictionary.take setSize.toNat :=
        forall_congr' fun key => by rw [keys.mem_iff,stores key]
    _ ↔ ∀ draw ∈ picks, draw % (setSize.toNat + 1) ≠ setSize.toNat := by
        rw [List.forall_mem_map]
        exact forall₂_congr fun draw _ => word_mem_iff setSize fits draw

end

def getsOf (text : Bytes) : Except Fault (Profile .get × Draws) :=
  @Profile.makeProfile plainHeap ⟨fun _ => true,fun _ _ => true⟩ .get text fun n => n + 3

def putsOf (params : Bytes) : Except Fault (Profile .put × Draws) :=
  @FullDictionary.make plainHeap .put params fun _ => 0

theorem keys_stored_twice : ∃ (gets : Profile .get × Draws) (puts : Profile .put × Draws),
    getsOf (ascii "ntimesrandom 2 5 2") = .ok gets ∧ putsOf (ascii "2 10") = .ok puts ∧ gets.1.keys.length = 2 ∧
      ∀ event ∈ gets.1.eventQueue.elements, ∀ key ∈ event.key, key ∈ puts.1.keys := by
  obtain ⟨gets,made,size,two⟩ : ∃ gets, getsOf (ascii "ntimesrandom 2 5 2") = .ok gets ∧
      gets.1.kind.setSize = some 2 ∧ gets.1.keys.length = 2 := by
    simpa using ok_of_any (getsOf (ascii "ntimesrandom 2 5 2"))
      (fun gets => gets.1.kind.setSize = some 2 ∧ gets.1.keys.length = 2) (by decide +kernel)
  obtain ⟨puts,stored,_⟩ := ok_of_any (putsOf (ascii "2 10")) (fun _ => true) (by decide +kernel)
  refine ⟨gets,puts,made,stored,two,?_⟩
  have life := @Life.make plainHeap _ .get 2 (ascii "ntimesrandom 2 5 2") _ gets made size
  exact (@keys_stored_iff plainHeap _ .get (Or.inr rfl) 2 _ _ _ life (ascii "2 10") (ascii "2") [ascii "10"] _ _
    stored (by decide +kernel) (by decide) (by decide)).mpr (by decide +kernel)

/-- The set of one key has one word, but a draw of one gets the next word. -/
theorem word_not_stored : ∃ (gets : Profile .get × Draws) (puts : Profile .put × Draws),
    getsOf (ascii "ntimesrandom 1 5 1") = .ok gets ∧ putsOf (ascii "1 10") = .ok puts ∧
      gets.1.keys = [ascii "punch"] ∧ puts.1.keys = [ascii "refuse"] := by
  obtain ⟨gets,made,got⟩ := ok_of_any (getsOf (ascii "ntimesrandom 1 5 1")) (fun gets => gets.1.keys = [ascii "punch"])
    (by decide +kernel)
  obtain ⟨puts,stored,put⟩ := ok_of_any (putsOf (ascii "1 10")) (fun puts => puts.1.keys = [ascii "refuse"])
    (by decide +kernel)
  exact ⟨gets,puts,made,stored,of_decide_eq_true got,of_decide_eq_true put⟩

end Dhtperf
