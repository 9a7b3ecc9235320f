import Dhtperf.Profile.Words
import Mathlib.Data.List.Forall2

/-! Profile strings of the class `exact`: groups of words, each for one event, with any
white space between the words. -/
namespace Dhtperf
open Library Utils

/-! ### Strings and their words -/

theorem words_params (text : Bytes) :
    paramsVector (splitProfileIntoTypeAndParams text).2 = (split text).tail.filter (!·.isEmpty) := by
  rw [paramsVector_words]
  exact words_rest 32 rfl text

theorem split_first (first rest : Bytes) (clear : ∀ c ∈ first, isTabOrSpace c = false)
    (gap : ∀ c, rest.head? = some c → isTabOrSpace c = true) : ∃ pieces, split (first ++ rest) = first :: pieces := by
  cases rest with
  | nil =>
    rw [List.append_nil,split,List.splitOnP_eq_singleton clear]
    exact ⟨[],rfl⟩
  | cons separator rest =>
    exact ⟨_,List.splitOnP_append_cons_of_forall_mem clear separator (gap separator rfl) rest⟩

/-! ### Groups of words -/

structure Group (op : DhtOperation) where
  time : Bytes
  payload : Payload op

namespace Group
variable {op : DhtOperation}

def arguments (group : Group op) : List Bytes :=
  match op,group with
  | .join,_ => []
  | .leave,_ => []
  | .put,group => [group.payload.1,group.payload.2]
  | .get,group => [group.payload]

def words (group : Group op) : List Bytes := group.time :: group.arguments

/-- `X`, or `X-Y` with `X` below `Y`, of numbers that an `int` holds. -/
def Timed (group : Group op) : Prop :=
  (IsDecimal group.time ∧ digitsValue group.time < 2^31) ∨
    ∃ low high, IsInterval group.time low high ∧ digitsValue low < digitsValue high ∧ digitsValue high < 2^31

structure WellFormed (group : Group op) : Prop where
  timed : group.Timed
  plain : ∀ word ∈ group.arguments, word ≠ [] ∧ ∀ c ∈ word, isTabOrSpace c = false

structure Gives (group : Group op) (event : DhtEvent op) : Prop where
  payload : event.payload = group.payload
  exactly : IsDecimal group.time → event.time.toNat = digitsValue group.time
  between : ∀ low high, IsInterval group.time low high →
    digitsValue low ≤ event.time.toNat ∧ event.time.toNat ≤ digitsValue high

end Group

theorem digit_plain (c : UInt8) (digit : isDigit c = true) : isSpace c = false ∧ isTabOrSpace c = false := by
  rw [isDigit,Bool.and_eq_true,decide_eq_true_eq,decide_eq_true_eq,UInt8.le_iff_toNat_le,UInt8.le_iff_toNat_le] at digit
  have low : 48 ≤ c.toNat := digit.1
  have other (d : UInt8) (below : d.toNat < 48) : c ≠ d := by
    rintro rfl
    omega
  simp only [isSpace,isTabOrSpace,Bool.or_eq_false_iff,beq_eq_false_iff_ne,Bool.and_eq_false_iff,decide_eq_false_iff_not]
  refine ⟨⟨Or.inr ?_,other 32 (by decide)⟩,other 9 (by decide),other 32 (by decide)⟩
  rw [UInt8.le_iff_toNat_le]
  have bound : (13 : UInt8).toNat = 13 := rfl
  omega

theorem timed_plain {op : DhtOperation} (group : Group op) (timed : group.Timed) :
    group.time ≠ [] ∧ ∀ c ∈ group.time, isSpace c = false ∧ isTabOrSpace c = false := by
  obtain ⟨form,_⟩ | ⟨low,high,⟨first,second,shape⟩,_⟩ := timed
  · exact ⟨form.1,fun c member => digit_plain c (form.2 c member)⟩
  · rw [shape]
    refine ⟨by simp,fun c member => ?_⟩
    rcases List.mem_append.mp member with left | right
    · exact digit_plain c (first.2 c left)
    · rcases List.mem_cons.mp right with rfl | later
      · exact ⟨rfl,rfl⟩
      · exact digit_plain c (second.2 c later)

/-! ### Reading the groups -/

section
variable {op : DhtOperation}

theorem exact_event_group (group : Group op) (time : UInt32) (rest : List Bytes) :
    Exact.event op time (group.arguments ++ rest) = .ok (⟨time,group.payload⟩,rest) := by
  cases op with
  | join => rfl
  | leave => rfl
  | put => rfl
  | get => rfl

theorem time_group (group : Group op) (timed : group.Timed) (draws : Draws) : ∃ time drawn,
    getTimeFromString group.time draws = .ok (time,drawn) ∧ group.Gives ⟨UInt32.ofInt time,group.payload⟩ := by
  have clear : ∀ c ∈ group.time, isSpace c = false := fun c member => ((timed_plain group timed).2 c member).1
  obtain ⟨form,small⟩ | ⟨low,high,form,ordered,small⟩ := timed
  · have scan := scanTimes_decimal group.time clear form
    rw [storedInt_small _ (Int.natCast_nonneg _) (by omega)] at scan
    refine ⟨_,draws,time_one group.time draws _ scan,rfl,fun _ => ?_,fun low high interval => ?_⟩
    · have value := ofInt_toNat (digitsValue group.time) (Int.natCast_nonneg _) (by omega)
      exact Int.ofNat.inj value
    · exact absurd form (interval_not_decimal group.time low high interval)
  · have scan := scanTimes_interval group.time clear low high form
    rw [storedInt_small _ (Int.natCast_nonneg _) (by omega),storedInt_small _ (Int.natCast_nonneg _) (by omega)] at scan
    have range := uniformInt_range (digitsValue low) (digitsValue high) (by omega) draws.first
    refine ⟨_,draws.rest,time_two group.time draws _ _ scan (by omega),rfl,fun decimal => ?_,?_⟩
    · exact absurd decimal (interval_not_decimal group.time low high form)
    · intro low' high' form'
      have same := (leadingNumber_interval group.time low high form).symm.trans
        (leadingNumber_interval group.time low' high' form')
      obtain ⟨first,second⟩ := Prod.mk.inj (Option.some.inj same)
      obtain rfl := (List.cons.inj second).2
      have value := ofInt_toNat (uniformInt (digitsValue low) (digitsValue high) draws.first) (by omega) (by omega)
      simp only
      omega

theorem exact_groups (groups : List (Group op)) (timed : ∀ group ∈ groups, group.Timed) (fuel : Nat) (draws : Draws)
    (enough : (groups.flatMap Group.words).length ≤ fuel) : ∃ events drawn,
      Exact.pushElements op fuel (groups.flatMap Group.words) draws = .ok (events,drawn) ∧
        List.Forall₂ Group.Gives groups events := by
  induction groups generalizing fuel draws with
  | nil =>
    cases fuel with
    | zero => exact ⟨[],draws,rfl,.nil⟩
    | succ fuel => exact ⟨[],draws,rfl,.nil⟩
  | cons group groups ih =>
    rw [List.flatMap_cons,List.length_append] at enough
    cases fuel with
    | zero => simp [Group.words] at enough
    | succ fuel =>
      have shorter : (groups.flatMap Group.words).length ≤ fuel := by
        simp only [Group.words,List.length_cons] at enough ⊢
        omega
      obtain ⟨time,drawn,read,gives⟩ := time_group group (timed group List.mem_cons_self) draws
      obtain ⟨events,left,later,all⟩ := ih (fun other member => timed other (List.mem_cons_of_mem _ member)) fuel drawn
        shorter
      refine ⟨_,left,?_,.cons gives all⟩
      rw [List.flatMap_cons,Group.words,List.cons_append,Exact.pushElements,Exact.pushElement,read]
      change (Exact.event op (UInt32.ofInt time) (group.arguments ++ groups.flatMap Group.words) >>= _) >>= _ = _
      rw [exact_event_group]
      change Exact.pushElements op fuel (groups.flatMap Group.words) drawn >>= _ = _
      rw [later]
      rfl

end

/-- A string of the class: its name and the words of the groups, with white space before
each word and behind the last one. -/
def Written {op : DhtOperation} (groups : List (Group op)) (text : Bytes) : Prop :=
  ∃ (spaced : List (Bytes × Bytes)) (trailing : Bytes),
    text = ascii "exact" ++ (spaced.flatMap (fun word => word.1 ++ word.2) ++ trailing) ∧
      spaced.map (·.2) = groups.flatMap Group.words ∧
      (∀ word ∈ spaced, word.1 ≠ [] ∧ ∀ c ∈ word.1, isTabOrSpace c = true) ∧
      ∀ c ∈ trailing, isTabOrSpace c = true

section
variable {op : DhtOperation} (groups : List (Group op)) (wellFormed : ∀ group ∈ groups, group.WellFormed)
include wellFormed

theorem words_plain (word : Bytes) (member : word ∈ groups.flatMap Group.words) :
    word ≠ [] ∧ ∀ c ∈ word, isTabOrSpace c = false := by
  obtain ⟨group,inside,here⟩ := List.mem_flatMap.mp member
  rcases List.mem_cons.mp here with rfl | argument
  · obtain ⟨some,plain⟩ := timed_plain group (wellFormed group inside).timed
    exact ⟨some,fun c member => (plain c member).2⟩
  · exact (wellFormed group inside).plain word argument

theorem written_words (text : Bytes) (written : Written groups text) :
    (splitProfileIntoTypeAndParams text).1 = ascii "exact" ∧
      paramsVector (splitProfileIntoTypeAndParams text).2 = groups.flatMap Group.words := by
  obtain ⟨spaced,trailing,rfl,same,gaps,blank⟩ := written
  have name : ∀ c ∈ ascii "exact", isTabOrSpace c = false := clear_of_any (by decide)
  have clean : ∀ word ∈ spaced, word.2 ≠ [] ∧ ∀ c ∈ word.2, isTabOrSpace c = false := fun word member =>
    words_plain groups wellFormed word.2 (same ▸ List.mem_map_of_mem member)
  have all := words_spaced (ascii "exact") spaced trailing name (by decide) gaps clean blank
  obtain ⟨pieces,first⟩ := split_first (ascii "exact") (spaced.flatMap (fun word => word.1 ++ word.2) ++ trailing) name (by
    intro c head
    cases spaced with
    | nil =>
      obtain ⟨rest,rfl⟩ := List.head?_eq_some_iff.mp head
      exact blank c List.mem_cons_self
    | cons word spaced =>
      obtain ⟨some,separators⟩ := gaps word List.mem_cons_self
      obtain ⟨separator,gap,shape⟩ := List.exists_cons_of_ne_nil some
      rw [List.flatMap_cons,shape] at head
      cases head
      exact separators c (shape ▸ List.mem_cons_self))
  rw [words_params,splitProfileIntoTypeAndParams,first]
  refine ⟨rfl,?_⟩
  change (split _).filter (!·.isEmpty) = _ at all
  rw [first,same,List.filter_cons_of_pos (by decide)] at all
  exact (List.cons.inj all).2

end

/-- A string of well-formed groups gives one event for each group, and the white space in
it does not matter. -/
theorem Profile.makeProfile_exact [heap : StdHeap] {op : DhtOperation} (accepts : Distributions)
    (groups : List (Group op)) (wellFormed : ∀ group ∈ groups, group.WellFormed) (text : Bytes)
    (written : Written groups text) (draws : Draws) :
    (∃ profile drawn events, makeProfile accepts op text draws = .ok (profile,drawn) ∧ profile.kind = .exact ∧
        profile.eventQueue.elements.Perm events ∧ List.Forall₂ Group.Gives groups events) ∧
      ∀ other, Written groups other → makeProfile accepts op other draws = makeProfile accepts op text draws := by
  have make (text : Bytes) (written : Written groups text) : makeProfile accepts op text draws =
      Exact.make op (splitProfileIntoTypeAndParams text).2 draws :=
    makeProfile_type accepts op text draws .exact (written_words groups wellFormed text written).1
  have words := (written_words groups wellFormed text written).2
  constructor
  · obtain ⟨events,drawn,read,all⟩ := exact_groups groups (fun group member => (wellFormed group member).timed) _ draws
      (Nat.le_refl _)
    have queued := PriorityQueue.pushAll_perm (PriorityQueue.empty : EventQueue op) events
    rw [PriorityQueue.empty_elements,List.append_nil] at queued
    refine ⟨⟨.exact,filledQueue events,fun quiet => by cases quiet⟩,drawn,events,?_,rfl,queued,all⟩
    rw [make text written,Exact.make,words,read]
    rfl
  · intro other also
    rw [make text written,make other also,Exact.make,Exact.make,words,
      (written_words groups wellFormed other also).2]

def putGroups : List (Group .put) := [⟨ascii "3",(ascii "k",ascii "v")⟩,⟨ascii "5-9",(ascii "a",ascii "b")⟩]

theorem putGroups_exact : (∃ profile drawn events,
      @Profile.makeProfile plainHeap ⟨fun _ => true,fun _ _ => true⟩ .put (ascii "exact  3 k\tv 5-9 a b ") (fun _ => 1) =
        .ok (profile,drawn) ∧ profile.kind = .exact ∧ profile.eventQueue.elements.Perm events ∧
        List.Forall₂ Group.Gives putGroups events) ∧
    ∀ other, Written putGroups other → @Profile.makeProfile plainHeap ⟨fun _ => true,fun _ _ => true⟩ .put other (fun _ => 1) =
      @Profile.makeProfile plainHeap ⟨fun _ => true,fun _ _ => true⟩ .put (ascii "exact  3 k\tv 5-9 a b ") (fun _ => 1) := by
  have digits (text : Bytes) (some : text ≠ []) (all : text.all isDigit = true) : IsDecimal text :=
    ⟨some,List.all_eq_true.mp all⟩
  have single (c : UInt8) (plain : isTabOrSpace c = false) : [c] ≠ [] ∧ ∀ d ∈ [c], isTabOrSpace d = false :=
    ⟨by simp,by simpa using plain⟩
  refine @Profile.makeProfile_exact plainHeap .put _ putGroups ?_ _ ?_ _
  · intro group member
    rcases List.mem_cons.mp member with rfl | later
    · refine ⟨Or.inl ⟨digits _ (by decide) (by decide),by decide⟩,?_⟩
      exact List.forall_mem_cons.mpr ⟨single _ (by decide),List.forall_mem_singleton.mpr (single _ (by decide))⟩
    · cases List.mem_singleton.mp later
      refine ⟨Or.inr ⟨ascii "5",ascii "9",⟨digits _ (by decide) (by decide),digits _ (by decide) (by decide),by decide⟩,
        by decide,by decide⟩,?_⟩
      exact List.forall_mem_cons.mpr ⟨single _ (by decide),List.forall_mem_singleton.mpr (single _ (by decide))⟩
  · have gap (c : UInt8) (blank : isTabOrSpace c = true) : [c] ≠ [] ∧ ∀ d ∈ [c], isTabOrSpace d = true :=
      ⟨by simp,by simpa using blank⟩
    refine ⟨[(ascii "  ",ascii "3"),(ascii " ",ascii "k"),(ascii "\t",ascii "v"),(ascii " ",ascii "5-9"),
      (ascii " ",ascii "a"),(ascii " ",ascii "b")],ascii " ",by decide,by decide,?_,(gap 32 (by decide)).2⟩
    have first : ascii "  " ≠ [] ∧ ∀ c ∈ ascii "  ", isTabOrSpace c = true :=
      ⟨by decide,List.all_eq_true.mp (by decide)⟩
    simp only [List.forall_mem_cons,List.not_mem_nil]
    exact ⟨first,gap 32 (by decide),gap 9 (by decide),gap 32 (by decide),gap 32 (by decide),gap 32 (by decide),
      by simp⟩

end Dhtperf
