import Dhtperf.Profile.Classes
import Dhtperf.Utils.Times
import Dhtperf.Library.Splitting

/-! How the constructors of the profiles read their words. Most of them step through the
vector without looking at its size first, so what they do is safe only for some lists. -/
namespace Dhtperf
open Library Utils

/-! ### The words of a text -/

theorem removeEmptyFrom_filter (i : Nat) (v : List Bytes) :
    removeEmptyFrom i v = (v.take i).filter (!·.isEmpty) ++ v.drop i := by
  induction i generalizing v with
  | zero => rfl
  | succ i ih =>
    rw [removeEmptyFrom,ih]
    by_cases inside : i < v.length
    · have here := List.getElem?_eq_getElem inside
      have taken := List.take_succ_eq_append_getElem inside
      by_cases empty : v[i] = []
      · have length : (v.take i).length = i := List.length_take_of_le (Nat.le_of_lt inside)
        rw [here,if_pos (by rw [empty]),List.eraseIdx_eq_take_drop_succ,taken,List.filter_append,empty,
          List.take_left' length,List.drop_left' length]
        simp
      · have kept : [v[i]].filter (!·.isEmpty) = [v[i]] := by simp [empty]
        rw [here,if_neg (by simpa using empty),taken,List.filter_append,kept,List.append_assoc,
          List.drop_eq_getElem_cons inside]
        rfl
    · have outside := Nat.le_of_not_lt inside
      rw [List.getElem?_eq_none outside,if_neg (by simp),List.take_of_length_le outside,
        List.take_of_length_le (Nat.le_succ_of_le outside),List.drop_of_length_le outside,
        List.drop_of_length_le (Nat.le_succ_of_le outside)]

theorem paramsVector_words (params : Bytes) : paramsVector params = words isTabOrSpace params := by
  rw [paramsVector,removeEmptyStringsFromVector,removeEmptyFrom_filter,List.take_length,List.drop_length,
    List.append_nil]
  rfl

/-! ### Rejecting or building -/

/-- The profile is built, or the string is rejected by an exit or by an exception. -/
inductive Checked {α : Type} : Except Fault α → Prop
  | ok (value : α) : Checked (.ok value)
  | exit : Checked (.error .exit)
  | exception : Checked (.error .exception)

section
variable {α β : Type}

theorem checked_bind (value : Except Fault α) (next : α → Except Fault β) :
    Checked (value >>= next) ↔ Checked value ∧ ∀ here, value = .ok here → Checked (next here) := by
  cases value with
  | error fault =>
    constructor
    · intro checked
      cases checked with
      | exit => exact ⟨.exit,by simp⟩
      | exception => exact ⟨.exception,by simp⟩
    · rintro ⟨checked,_⟩
      cases checked with
      | exit => exact .exit
      | exception => exact .exception
  | ok here =>
    refine ⟨fun checked => ⟨.ok here,fun other same => ?_⟩,fun checked => checked.2 here rfl⟩
    cases same
    exact checked

theorem checked_bind_pure (value : Except Fault α) (result : α → β) :
    Checked (value >>= fun here => pure (result here)) ↔ Checked value := by
  rw [checked_bind]
  exact and_iff_left fun _ _ => .ok _

theorem lexicalCast_checked (text : Bytes) : Checked (lexicalCast text) := by
  unfold lexicalCast
  split
  · exact .ok _
  · exact .exception

theorem randomDictionary_checked (size : UInt32) : Checked (randomDictionary size) := by
  unfold randomDictionary
  split
  · exact .exit
  · exact .ok _

theorem onlyPutAndGet_checked (op : DhtOperation) (result : α) : Checked (onlyPutAndGet op result) := by
  cases op with
  | put => exact .ok _
  | get => exact .ok _
  | join => exact .exit
  | leave => exact .exit

end

/-! ### Times -/

def Blank (word : Bytes) : Prop := ∀ c ∈ cString word, isSpace c = true

/-- `sscanf` finds a number, or two of them of which the second is above the first. -/
def Acceptable (word : Bytes) : Prop :=
  (∃ time, scanTimes word = .one time) ∨ ∃ low high, scanTimes word = .two low high ∧ low < high

theorem blank_iff (word : Bytes) : Blank word ↔ scanTimes word = .endOfInput := by
  unfold Blank scanTimes
  simp only
  rw [← cString,← List.dropWhile_eq_nil_iff]
  constructor
  · exact fun blank => if_pos blank
  · intro scan
    by_contra some
    rw [if_neg some] at scan
    split at scan
    · cases scan
    · split at scan
      · cases scan
      · cases scan
    · cases scan

theorem time_ok (word : Bytes) (acceptable : Acceptable word) (draws : Draws) :
    ∃ read, getTimeFromString word draws = .ok read := by
  obtain ⟨time,scan⟩ | ⟨low,high,scan,ordered⟩ := acceptable
  · exact ⟨_,time_one word draws time scan⟩
  · exact ⟨_,time_two word draws low high scan ordered⟩

theorem time_blank (word : Bytes) (blank : Blank word) (draws : Draws) :
    getTimeFromString word draws = .error .uninitialised :=
  time_empty word draws ((blank_iff word).mp blank)

theorem time_rejected (word : Bytes) (some : ¬Blank word) (unacceptable : ¬Acceptable word) (draws : Draws) :
    getTimeFromString word draws = .error .exit := by
  rw [blank_iff] at some
  cases scan : scanTimes word with
  | endOfInput => exact absurd scan some
  | nothing => exact time_nothing word draws scan
  | one time => exact absurd (Or.inl ⟨time,scan⟩) unacceptable
  | two low high =>
    apply time_falling word draws low high scan
    exact Int.not_lt.mp fun ordered => unacceptable (Or.inr ⟨low,high,scan,ordered⟩)

theorem time_checked_iff (word : Bytes) (draws : Draws) : Checked (getTimeFromString word draws) ↔ ¬Blank word := by
  by_cases blank : Blank word
  · rw [time_blank word blank draws]
    exact iff_of_false (fun checked => by cases checked) (not_not.mpr blank)
  · refine iff_of_true ?_ blank
    by_cases acceptable : Acceptable word
    · obtain ⟨read,ok⟩ := time_ok word acceptable draws
      rw [ok]
      exact .ok read
    · rw [time_rejected word blank acceptable draws]
      exact .exit

/-! ### Lists of words that can be stepped through -/

/-- Groups of a size that each start with an acceptable time, up to the end of the list or
to a time that is rejected. -/
inductive Groups (size : Nat) : List Bytes → Prop
  | done : Groups size []
  | rejected (time : Bytes) (rest : List Bytes) (some : ¬Blank time) (unacceptable : ¬Acceptable time) :
    Groups size (time :: rest)
  | group (time : Bytes) (arguments rest : List Bytes) (acceptable : Acceptable time)
    (whole : arguments.length + 1 = size) (later : Groups size rest) : Groups size (time :: (arguments ++ rest))

theorem Groups.first (size : Nat) (time : Bytes) (rest : List Bytes) (groups : Groups size (time :: rest)) :
    ¬Blank time := by
  cases groups with
  | rejected _ _ some _ => exact some
  | group _ arguments rest acceptable whole later =>
    intro blank
    have scan := (blank_iff time).mp blank
    rcases acceptable with ⟨_,other⟩ | ⟨_,_,other,_⟩
    · cases scan.symm.trans other
    · cases scan.symm.trans other

theorem Groups.next (size : Nat) (time : Bytes) (rest : List Bytes) (acceptable : Acceptable time) :
    Groups (size + 1) (time :: rest) ↔ size ≤ rest.length ∧ Groups (size + 1) (rest.drop size) := by
  constructor
  · intro groups
    generalize same : time :: rest = words at groups
    cases groups with
    | done => cases same
    | rejected _ _ _ unacceptable =>
      cases same
      exact absurd acceptable unacceptable
    | group _ arguments others _ whole later =>
      cases same
      have length : arguments.length = size := Nat.succ.inj whole
      rw [List.length_append,List.drop_left' length,length]
      exact ⟨Nat.le_add_right _ _,later⟩
  · rintro ⟨enough,later⟩
    have whole := Groups.group time (rest.take size) (rest.drop size) acceptable
      (by rw [List.length_take_of_le enough]) later
    rwa [List.take_append_drop] at whole

def Exact.stride : DhtOperation → Nat
  | .join => 1
  | .leave => 1
  | .get => 2
  | .put => 3

theorem exact_event (op : DhtOperation) (time : UInt32) (rest : List Bytes) :
    (Exact.stride op ≤ rest.length + 1 ∧
        ∃ event, Exact.event op time rest = .ok (event,rest.drop (Exact.stride op - 1))) ∨
      (rest.length + 1 < Exact.stride op ∧ Exact.event op time rest = .error .outOfRange) := by
  cases op with
  | join => exact Or.inl ⟨Nat.le_add_left _ _,_,rfl⟩
  | leave => exact Or.inl ⟨Nat.le_add_left _ _,_,rfl⟩
  | get =>
    cases rest with
    | nil => exact Or.inr ⟨Nat.lt_succ_self 1,rfl⟩
    | cons key rest => exact Or.inl ⟨Nat.succ_le_succ (Nat.le_add_left _ _),_,rfl⟩
  | put =>
    rcases rest with _ | ⟨key,_ | ⟨value,rest⟩⟩
    · exact Or.inr ⟨Nat.lt_succ_of_lt (Nat.lt_succ_self 1),rfl⟩
    · exact Or.inr ⟨Nat.lt_succ_self 2,rfl⟩
    · exact Or.inl ⟨Nat.succ_le_succ (Nat.succ_le_succ (Nat.le_add_left _ _)),_,rfl⟩

inductive ExactTurn (op : DhtOperation) (word : Bytes) (rest : List Bytes) :
    Except Fault (DhtEvent op × List Bytes × Draws) → Prop
  | blank (blank : Blank word) : ExactTurn op word rest (.error .uninitialised)
  | rejected (some : ¬Blank word) (unacceptable : ¬Acceptable word) : ExactTurn op word rest (.error .exit)
  | cut (acceptable : Acceptable word) (cut : rest.length + 1 < Exact.stride op) :
    ExactTurn op word rest (.error .outOfRange)
  | pushed (acceptable : Acceptable word) (whole : Exact.stride op ≤ rest.length + 1) (event : DhtEvent op)
    (drawn : Draws) : ExactTurn op word rest (.ok (event,rest.drop (Exact.stride op - 1),drawn))

theorem exact_turn (op : DhtOperation) (word : Bytes) (rest : List Bytes) (draws : Draws) :
    ExactTurn op word rest (Exact.pushElement op word rest draws) := by
  rw [Exact.pushElement]
  by_cases blank : Blank word
  · rw [time_blank word blank draws]
    exact .blank blank
  by_cases acceptable : Acceptable word
  · obtain ⟨⟨time,drawn⟩,read⟩ := time_ok word acceptable draws
    rw [read]
    change ExactTurn op word rest (Exact.event op (UInt32.ofInt time) rest >>= _)
    rcases exact_event op (UInt32.ofInt time) rest with ⟨whole,event,ok⟩ | ⟨cut,failed⟩
    · rw [ok]
      exact .pushed acceptable whole event drawn
    · rw [failed]
      exact .cut acceptable cut
  · rw [time_rejected word blank acceptable draws]
    exact .rejected blank acceptable

theorem stride_succ (op : DhtOperation) : Exact.stride op - 1 + 1 = Exact.stride op := by
  cases op <;> rfl

theorem exact_checked_iff (op : DhtOperation) (fuel : Nat) (words : List Bytes) (enough : words.length ≤ fuel)
    (draws : Draws) : Checked (Exact.pushElements op fuel words draws) ↔ Groups (Exact.stride op) words := by
  induction fuel generalizing words draws with
  | zero =>
    rw [List.length_eq_zero_iff.mp (Nat.le_zero.mp enough)]
    exact iff_of_true (.ok _) .done
  | succ fuel ih =>
    cases words with
    | nil => exact iff_of_true (.ok _) .done
    | cons word rest =>
      have shorter : rest.length ≤ fuel := Nat.succ_le_succ_iff.mp enough
      have turn := exact_turn op word rest draws
      have next := Groups.next (Exact.stride op - 1) word rest
      rw [stride_succ] at next
      rw [Exact.pushElements]
      generalize Exact.pushElement op word rest draws = result at turn
      cases turn with
      | blank blank =>
        exact iff_of_false (fun checked => by cases checked) fun groups => groups.first _ word rest blank
      | rejected some unacceptable => exact iff_of_true .exit (.rejected word rest some unacceptable)
      | cut acceptable cut =>
        refine iff_of_false (fun checked => by cases checked) fun groups => ?_
        have enough := ((next acceptable).mp groups).1
        omega
      | pushed acceptable whole event drawn =>
        have later := ih (rest.drop (Exact.stride op - 1)) ((List.length_drop.trans_le (Nat.sub_le _ _)).trans shorter) drawn
        rw [next acceptable,← later]
        change Checked (Exact.pushElements op fuel (rest.drop (Exact.stride op - 1)) drawn >>=
          fun others => pure (event :: others.1,others.2)) ↔ _
        rw [checked_bind_pure]
        exact (and_iff_right (Nat.sub_le_iff_le_add.mpr whole)).symm

/-! ### The other constructors -/

theorem lexicalCast_cases (text : Bytes) :
    (∃ value, lexicalCastUnsigned text = some value ∧ lexicalCast text = .ok value) ∨
      (lexicalCastUnsigned text = none ∧ lexicalCast text = .error .exception) := by
  unfold lexicalCast
  cases lexicalCastUnsigned text with
  | some value => exact Or.inl ⟨value,rfl,rfl⟩
  | none => exact Or.inr ⟨rfl,rfl⟩

theorem fullDictionary_mapM (op : DhtOperation) (time : UInt32) (keys : List Bytes) :
    ((op = .put ∨ op = .get ∨ keys = []) ∧ ∃ events, keys.mapM (FullDictionary.pushElement op time) = .ok events) ∨
      (¬(op = .put ∨ op = .get ∨ keys = []) ∧ keys.mapM (FullDictionary.pushElement op time) = .error .exit) := by
  induction keys with
  | nil => exact Or.inl ⟨Or.inr (Or.inr rfl),[],rfl⟩
  | cons key keys ih =>
    rw [List.mapM_cons]
    cases op with
    | join => exact Or.inr ⟨by simp,rfl⟩
    | leave => exact Or.inr ⟨by simp,rfl⟩
    | put =>
      obtain ⟨_,events,ok⟩ | ⟨other,_⟩ := ih
      · rw [ok]
        exact Or.inl ⟨Or.inl rfl,_,rfl⟩
      · exact absurd (Or.inl rfl) other
    | get =>
      obtain ⟨_,events,ok⟩ | ⟨other,_⟩ := ih
      · rw [ok]
        exact Or.inl ⟨Or.inr (Or.inl rfl),_,rfl⟩
      · exact absurd (Or.inr (Or.inl rfl)) other

theorem fullDictionary_checked_iff (op : DhtOperation) (keys times : List Bytes) (draws : Draws) :
    Checked (FullDictionary.pushElements op keys times draws) ↔
      (∀ time ∈ times.head?, ¬Blank time) ∧ (op = .put ∨ op = .get ∨ keys = [] → Groups 1 times) := by
  induction times generalizing draws with
  | nil => exact iff_of_true (.ok _) ⟨by simp,fun _ => .done⟩
  | cons time times ih =>
    rw [FullDictionary.pushElements,List.head?_cons]
    by_cases blank : Blank time
    · rw [time_blank time blank draws]
      exact iff_of_false (fun checked => by cases checked) fun sound => sound.1 time rfl blank
    have first : ∀ other ∈ some time, ¬Blank other := by
      rintro other ⟨⟩
      exact blank
    by_cases acceptable : Acceptable time
    · obtain ⟨⟨value,drawn⟩,read⟩ := time_ok time acceptable draws
      have next := Groups.next 0 time times acceptable
      rw [Nat.zero_add,List.drop_zero,and_iff_right (Nat.zero_le _)] at next
      rw [read]
      change Checked (keys.mapM (FullDictionary.pushElement op (UInt32.ofInt value)) >>= _) ↔ _
      obtain ⟨pushes,events,ok⟩ | ⟨other,failed⟩ := fullDictionary_mapM op (UInt32.ofInt value) keys
      · rw [ok]
        change Checked (FullDictionary.pushElements op keys times drawn >>=
          fun others => pure (events ++ others.1,others.2)) ↔ _
        rw [checked_bind_pure,ih,next,and_iff_right first,imp_iff_right pushes]
        refine and_iff_right_of_imp fun groups later member => ?_
        obtain ⟨rest,rfl⟩ := List.head?_eq_some_iff.mp member
        exact groups.first 1 later rest
      · rw [failed]
        exact iff_of_true .exit ⟨first,fun all => absurd all other⟩
    · rw [time_rejected time blank acceptable draws]
      exact iff_of_true .exit ⟨first,fun _ => .rejected time times blank acceptable⟩

theorem onlyPutAndGet_cases {α : Type} (op : DhtOperation) (result : α) :
    ((op = .put ∨ op = .get) ∧ onlyPutAndGet op result = .ok result) ∨
      (¬(op = .put ∨ op = .get) ∧ onlyPutAndGet op result = .error .exit) := by
  cases op with
  | join => exact Or.inr ⟨by simp,rfl⟩
  | leave => exact Or.inr ⟨by simp,rfl⟩
  | put => exact Or.inl ⟨Or.inl rfl,rfl⟩
  | get => exact Or.inl ⟨Or.inr rfl,rfl⟩

def Casts (text : Bytes) : Prop := lexicalCastUnsigned text ≠ none

theorem nTimesRandom_checked_iff (op : DhtOperation) (setSize : UInt32) (pairs : List Bytes) (draws : Draws) :
    Checked (NTimesRandom.pushElements op setSize pairs draws) ↔
      (∀ time, pairs = [time] → ¬Casts time) ∧
        (op = .put ∨ op = .get → (∀ word ∈ pairs, Casts word) → pairs.length % 2 = 0) := by
  induction pairs using List.twoStepInduction generalizing draws with
  | nil => exact iff_of_true (.ok _) ⟨by simp,fun _ _ => rfl⟩
  | singleton time =>
    rw [NTimesRandom.pushElements]
    obtain ⟨value,cast,ok⟩ | ⟨cast,failed⟩ := lexicalCast_cases time
    · rw [ok]
      exact iff_of_false (fun checked => by cases checked) fun sound =>
        sound.1 time rfl (by simp [Casts,cast])
    · rw [failed]
      refine iff_of_true .exception ⟨?_,fun _ all => absurd cast (all time List.mem_cons_self)⟩
      rintro other ⟨⟩ casts
      exact casts cast
  | cons_cons time repetitions rest ih =>
    have longer : ∀ other, time :: repetitions :: rest = [other] → ¬Casts other := by simp
    rw [NTimesRandom.pushElements,and_iff_right longer]
    obtain ⟨value,cast,ok⟩ | ⟨cast,failed⟩ := lexicalCast_cases time
    · obtain ⟨count,counts,also⟩ | ⟨counts,failed⟩ := lexicalCast_cases repetitions
      · rw [ok]
        change Checked (lexicalCast repetitions >>= _) ↔ _
        rw [also]
        change Checked (onlyPutAndGet op (randomEvents op setSize value count.toNat draws) >>= _) ↔ _
        obtain ⟨keyed,pushed⟩ | ⟨other,refused⟩ :=
          onlyPutAndGet_cases op (randomEvents op setSize value count.toNat draws)
        · rw [pushed]
          generalize randomEvents op setSize value count.toNat draws = here
          change Checked (NTimesRandom.pushElements op setSize rest here.2 >>=
            fun others => pure (here.1 ++ others.1,others.2)) ↔ _
          rw [checked_bind_pure,ih,imp_iff_right keyed,imp_iff_right keyed]
          have both : Casts time ∧ Casts repetitions := by simp [Casts,cast,counts]
          simp only [List.forall_mem_cons,both,true_and,List.length_cons]
          constructor
          · intro sound all
            have even := sound.2 all
            omega
          · intro sound
            refine ⟨?_,fun all => ?_⟩
            · rintro last rfl casts
              have even := sound (by simpa using casts)
              simp at even
            · have even := sound all
              omega
        · rw [refused]
          exact iff_of_true .exit fun keyed => absurd keyed other
      · rw [ok]
        change Checked (lexicalCast repetitions >>= _) ↔ _
        rw [failed]
        exact iff_of_true .exception fun _ all => absurd counts (all repetitions (by simp))
    · rw [failed]
      exact iff_of_true .exception fun _ all => absurd cast (all time List.mem_cons_self)

/-! ### All the classes -/

/-- The lists of words that a constructor handles. -/
def ProfileType.Sound (op : DhtOperation) (words : List Bytes) : ProfileType → Prop
  | .exact => Groups (Exact.stride op) words
  | .fullDictionary => ∃ size times, words = size :: times ∧
    ∀ n, lexicalCastUnsigned size = some n → n.toNat ≤ dictionarySize →
      (∀ time ∈ times.head?, ¬Blank time) ∧ (op = .put ∨ op = .get ∨ n = 0 → Groups 1 times)
  | .interval => ∀ size repetitions frequency time, words = [size,repetitions,frequency,time] →
    Casts size → Casts repetitions → Casts frequency → ¬Blank time
  | .none => True
  | .now => ∀ time, words = [time] → ¬Blank time
  | .nTimesRandom => ∃ size pairs, words = size :: pairs ∧
    ∀ n, lexicalCastUnsigned size = some n → n.toNat < dictionarySize →
      (∀ time, pairs = [time] → ¬Casts time) ∧
        (op = .put ∨ op = .get → (∀ word ∈ pairs, Casts word) → pairs.length % 2 = 0)
  | .poissonRandom => True
  | .weibullRandom => True

section
variable [heap : StdHeap]

theorem Exact.make_sound_iff (op : DhtOperation) (params : Bytes) (draws : Draws) :
    Checked (Exact.make op params draws) ↔ Groups (Exact.stride op) (paramsVector params) := by
  rw [← exact_checked_iff op _ (paramsVector params) (Nat.le_refl _) draws]
  unfold Exact.make
  simp only
  rw [checked_bind]
  exact and_iff_left fun _ _ => .ok _

omit heap in
theorem dictionary_words (n : UInt32) : dictionary.take n.toNat = [] ↔ n = 0 := by
  have some : dictionary ≠ [] := List.cons_ne_nil _ _
  rw [List.take_eq_nil_iff,or_iff_left some]
  exact UInt32.toNat_inj (b := 0)

theorem FullDictionary.make_sound_iff (op : DhtOperation) (params : Bytes) (draws : Draws) :
    Checked (FullDictionary.make op params draws) ↔ ProfileType.Sound op (paramsVector params) .fullDictionary := by
  unfold FullDictionary.make ProfileType.Sound
  cases paramsVector params with
  | nil => exact iff_of_false (fun checked => by cases checked) (by simp)
  | cons size times =>
    simp only
    rw [checked_bind,and_iff_right (lexicalCast_checked size)]
    constructor
    · intro checked
      refine ⟨size,times,rfl,?_⟩
      intro n cast small
      have ok := (lexicalCast_ok size n).mpr cast
      have here := checked n ok
      have fits : ¬n.toNat > dictionarySize := Nat.not_lt_of_le small
      rw [if_neg fits,checked_bind,fullDictionary_checked_iff,dictionary_words] at here
      exact here.1
    · rintro ⟨_,_,⟨⟩,sound⟩ n cast
      by_cases large : n.toNat > dictionarySize
      · rw [if_pos large]
        exact .exit
      · have small : n.toNat ≤ dictionarySize := by omega
        rw [if_neg large,checked_bind,fullDictionary_checked_iff,dictionary_words]
        exact ⟨sound n ((lexicalCast_ok size n).mp cast) small,fun _ _ => .ok _⟩

theorem NTimesRandom.make_sound_iff (op : DhtOperation) (params : Bytes) (draws : Draws) :
    Checked (NTimesRandom.make op params draws) ↔ ProfileType.Sound op (paramsVector params) .nTimesRandom := by
  unfold NTimesRandom.make ProfileType.Sound
  cases paramsVector params with
  | nil => exact iff_of_false (fun checked => by cases checked) (by simp)
  | cons size pairs =>
    simp only
    rw [checked_bind,and_iff_right (lexicalCast_checked size)]
    constructor
    · intro checked
      refine ⟨size,pairs,rfl,fun n cast small => ?_⟩
      have here := checked n ((lexicalCast_ok size n).mpr cast)
      have fits : ¬n.toNat ≥ dictionarySize := by omega
      rw [randomDictionary,if_neg fits,checked_bind] at here
      have here := here.2 () rfl
      rw [checked_bind,nTimesRandom_checked_iff] at here
      exact here.1
    · rintro ⟨_,_,⟨⟩,sound⟩ n cast
      rw [checked_bind]
      refine ⟨randomDictionary_checked n,fun _ accepted => ?_⟩
      have small : n.toNat < dictionarySize := by
        by_contra refused
        have large : n.toNat ≥ dictionarySize := by omega
        rw [randomDictionary,if_pos large] at accepted
        cases accepted
      rw [checked_bind,nTimesRandom_checked_iff]
      exact ⟨sound n ((lexicalCast_ok size n).mp cast) small,fun _ _ => .ok _⟩

theorem Interval.make_sound_iff (op : DhtOperation) (params : Bytes) (draws : Draws) :
    Checked (Interval.make op params draws) ↔ ProfileType.Sound op (paramsVector params) .interval := by
  unfold Interval.make ProfileType.Sound
  split
  next size repetitions frequency startTime words =>
    rw [words]
    obtain ⟨n,sized,ok⟩ | ⟨cast,failed⟩ := lexicalCast_cases size
    · rw [ok]
      change Checked (lexicalCast repetitions >>= _) ↔ _
      obtain ⟨count,repeated,ok⟩ | ⟨cast,failed⟩ := lexicalCast_cases repetitions
      · rw [ok]
        change Checked (lexicalCast frequency >>= _) ↔ _
        obtain ⟨every,frequent,ok⟩ | ⟨cast,failed⟩ := lexicalCast_cases frequency
        · rw [ok]
          change Checked (getTimeFromString startTime draws >>= _) ↔ _
          rw [checked_bind,time_checked_iff]
          constructor
          · rintro ⟨some,_⟩ _ _ _ _ ⟨⟩ _ _ _
            exact some
          · intro sound
            have some := sound _ _ _ _ rfl (by simp [Casts,sized]) (by simp [Casts,repeated]) (by simp [Casts,frequent])
            refine ⟨some,fun _ _ => ?_⟩
            rw [checked_bind]
            refine ⟨randomDictionary_checked n,fun _ _ => ?_⟩
            rw [checked_bind]
            exact ⟨onlyPutAndGet_checked op _,fun _ _ => .ok _⟩
        · rw [failed]
          refine iff_of_true .exception ?_
          rintro _ _ _ _ ⟨⟩ _ _ frequent
          exact absurd cast frequent
      · rw [failed]
        refine iff_of_true .exception ?_
        rintro _ _ _ _ ⟨⟩ _ repeated
        exact absurd cast repeated
    · rw [failed]
      refine iff_of_true .exception ?_
      rintro _ _ _ _ ⟨⟩ sized
      exact absurd cast sized
  next other =>
    refine iff_of_true .exit fun size repetitions frequency time words => ?_
    exact absurd words (other size repetitions frequency time)

theorem Now.make_sound_iff (op : DhtOperation) (params : Bytes) (draws : Draws) :
    Checked (Now.make op params draws) ↔ ProfileType.Sound op (paramsVector params) .now := by
  unfold Now.make ProfileType.Sound
  split
  next minimum words =>
    rw [words,checked_bind,time_checked_iff]
    have pushed (time : UInt32) (drawn : Draws) : Checked (Now.pushElement op time drawn) := by
      cases op with
      | join => exact .ok _
      | leave => exact .ok _
      | put => exact .exit
      | get => exact .exit
    constructor
    · rintro ⟨some,_⟩ _ ⟨⟩
      exact some
    · intro sound
      refine ⟨sound minimum rfl,fun _ _ => ?_⟩
      rw [checked_bind]
      exact ⟨pushed _ _,fun _ _ => .ok _⟩
  next other =>
    refine iff_of_true .exit fun minimum words => ?_
    exact absurd words (other minimum)

theorem PoissonRandom.make_checked (accepts : Distributions) (op : DhtOperation) (params : Bytes) (draws : Draws) :
    Checked (PoissonRandom.make accepts op params draws) := by
  unfold PoissonRandom.make
  split
  next setSize lambda timeBegin _ =>
    rw [checked_bind]
    refine ⟨lexicalCast_checked setSize,fun n _ => ?_⟩
    dsimp only
    split
    next => exact .exception
    next =>
      rw [checked_bind]
      refine ⟨lexicalCast_checked timeBegin,fun begin_ _ => ?_⟩
      rw [checked_bind]
      exact ⟨randomDictionary_checked n,fun _ _ => .ok _⟩
  next => exact .exit

omit heap in
theorem WeibullRandom.make_checked (accepts : Distributions) (op : DhtOperation) (params : Bytes) (draws : Draws) :
    Checked (WeibullRandom.make accepts op params draws) := by
  unfold WeibullRandom.make
  split
  next setSize shape scale _ =>
    rw [checked_bind]
    refine ⟨lexicalCast_checked setSize,fun n _ => ?_⟩
    split
    next => exact .exception
    next =>
      rw [checked_bind]
      exact ⟨randomDictionary_checked n,fun _ _ => .ok _⟩
  next => exact .exit

/-- A constructor builds the profile or rejects the string, and reads no word that is not
there, exactly for the lists of words it handles. -/
theorem ProfileType.make_checked_iff (type : ProfileType) (accepts : Distributions) (op : DhtOperation)
    (params : Bytes) (draws : Draws) :
    Checked (type.make accepts op params draws) ↔ type.Sound op (paramsVector params) := by
  cases type with
  | exact => exact Exact.make_sound_iff op params draws
  | fullDictionary => exact FullDictionary.make_sound_iff op params draws
  | interval => exact Interval.make_sound_iff op params draws
  | none => exact iff_of_true (.ok _) trivial
  | now => exact Now.make_sound_iff op params draws
  | nTimesRandom => exact NTimesRandom.make_sound_iff op params draws
  | poissonRandom => exact iff_of_true (PoissonRandom.make_checked accepts op params draws) trivial
  | weibullRandom => exact iff_of_true (WeibullRandom.make_checked accepts op params draws) trivial

end

/-- A put needs a key and a value behind its time. -/
theorem lone_time_past_end : ¬Checked (@ProfileType.make plainHeap ⟨fun _ => true,fun _ _ => true⟩ .put (ascii "5")
    (fun _ => 0) .exact) := by
  have failed : @Exact.make plainHeap .put (ascii "5") (fun _ => 0) = .error .outOfRange := rfl
  intro checked
  change Checked (@Exact.make plainHeap .put (ascii "5") (fun _ => 0)) at checked
  rw [failed] at checked
  cases checked

end Dhtperf
