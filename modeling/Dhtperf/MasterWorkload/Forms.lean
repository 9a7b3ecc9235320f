import Dhtperf.MasterWorkload.Lines
import Mathlib.Data.List.Pairwise

/-! The lines that a workload file may be made of, apart from the patterns that the loader
tries: the patterns let pass what is no number, and lines that match none of them. -/
namespace Dhtperf
open Library

def isNumber (text : Bytes) : Bool := text ≠ [] && text.all isDigit && digitsValue text < 2^32

def isName (text : Bytes) : Bool := text ≠ [] && text.all isWord

def isSetting (text : Bytes) : Bool := text.head?.any isWord && 0 ∉ text

def isAssignment (text : Bytes) : Bool :=
  isNumber (text.takeWhile (· ≠ 32)) && isName ((text.dropWhile (· ≠ 32)).drop 1)

def isProfileLine (line : Bytes) : Bool := (after (ascii "profile ") line).any isName

/-- The directives and the form of what follows. A setting stands inside a profile. -/
def directives (inProfile : Bool) : List (Bytes × (Bytes → Bool)) :=
  [(ascii "nodes ",isNumber),(ascii "duration ",isNumber),(ascii "profile ",isName),
    (ascii "join ",fun text => inProfile && isSetting text),(ascii "leave ",fun text => inProfile && isSetting text),
    (ascii "put ",fun text => inProfile && isSetting text),(ascii "get ",fun text => inProfile && isSetting text),
    (ascii "default-profile ",isName),(ascii "node ",isAssignment)]

def wellFormed (inProfile : Bool) (line : Bytes) : Bool :=
  line.all isSpace || line.head? = some 35 ||
    (directives inProfile).any fun (literal,form) => (after literal line).any form

def linesWellFormed : Bool → List Bytes → Bool
  | _,[] => true
  | inProfile,line :: lines =>
    wellFormed inProfile line && linesWellFormed (inProfile || isProfileLine line) lines

theorem after_some {literal text rest : Bytes} (found : after literal text = some rest) : text = literal ++ rest := by
  unfold after at found
  split at found
  next starts =>
    cases found
    obtain ⟨others,rfl⟩ := List.isPrefixOf_iff_prefix.mp starts
    rw [List.drop_left]
  next => cases found

theorem isNumber_cast (text : Bytes) (number : isNumber text = true) : (lexicalCastUnsigned text).isSome := by
  simp only [isNumber,Bool.and_eq_true,decide_eq_true_eq] at number
  have digits := number.1.2
  unfold lexicalCastUnsigned
  split
  rename_i negative unsigned signs
  split at signs
  next => exact absurd (List.all_eq_true.mp digits 45 List.mem_cons_self) (by decide)
  next => exact absurd (List.all_eq_true.mp digits 43 List.mem_cons_self) (by decide)
  next =>
    cases signs
    rw [if_pos ⟨number.1.1,digits,number.2⟩]
    rfl

theorem word_not_nul (text : Bytes) (words : text.all isWord = true) : 0 ∉ text := fun nul =>
  absurd (List.all_eq_true.mp words 0 nul) (by decide)

theorem digit_word (c : UInt8) (digit : isDigit c = true) : isWord c = true := by
  simp [isWord,digit]

theorem takeWhile_whole (text : Bytes) (clear : 0 ∉ text) : text.takeWhile (· ≠ 0) = text := by
  have all : ∀ c ∈ text, decide (c ≠ 0) = true := fun c member => decide_eq_true fun same => clear (same ▸ member)
  have whole : (text ++ []).takeWhile (· ≠ 0) = text ++ [].takeWhile (· ≠ 0) := List.takeWhile_append_of_pos all
  rwa [List.append_nil,List.takeWhile_nil,List.append_nil] at whole

/-! ### The numbers of well-formed lines -/

theorem number_digits (text : Bytes) (number : isNumber text = true) : text.all isDigit = true := by
  simp only [isNumber,Bool.and_eq_true] at number
  exact number.1.2

theorem number_not_nul (text : Bytes) (number : isNumber text = true) : 0 ∉ text := fun nul =>
  absurd (List.all_eq_true.mp (number_digits text number) 0 nul) (by decide)

theorem matchWord_some {literal text group : Bytes} {inClass : UInt8 → Bool}
    (found : matchWord literal inClass text = some group) : after literal text = some group := by
  unfold matchWord at found
  exact (Option.filter_eq_some_iff.mp found).1

def Apart (first second : Bytes) : Prop := ¬first <+: second ∧ ¬second <+: first

instance (first second : Bytes) : Decidable (Apart first second) := inferInstanceAs (Decidable (_ ∧ _))

instance : Std.Symm Apart := ⟨fun _ _ apart => apart.symm⟩

theorem directives_apart (inProfile : Bool) : ((directives inProfile).map (·.1)).Pairwise Apart := by
  cases inProfile <;> decide

theorem directives_head (inProfile : Bool) :
    ∀ literal ∈ (directives inProfile).map (·.1), literal.head?.any (fun c => !isSpace c && c ≠ 35) = true := by
  cases inProfile <;> decide

theorem wellFormed_form (inProfile : Bool) (line literal rest : Bytes) (form : Bytes → Bool)
    (directive : (literal,form) ∈ directives inProfile) (starts : line = literal ++ rest)
    (good : wellFormed inProfile line = true) : form rest = true := by
  have member : literal ∈ (directives inProfile).map (·.1) := List.mem_map_of_mem directive
  have head := directives_head inProfile literal member
  cases literal with
  | nil => cases head
  | cons c literal =>
    simp only [List.head?_cons,Option.any_some,Bool.and_eq_true,Bool.not_eq_true',decide_eq_true_eq] at head
    simp only [wellFormed,Bool.or_eq_true,List.any_eq_true] at good
    rcases good with (blank | comment) | ⟨⟨other,otherForm⟩,inside,good⟩
    · rw [starts,List.cons_append,List.all_cons,head.1] at blank
      cases blank
    · rw [starts] at comment
      exact absurd (Option.some.inj (of_decide_eq_true comment)) head.2
    · obtain ⟨others,found,good⟩ := (Option.any_eq_true _ _).mp good
      have also := after_some found
      have keys := directives_apart inProfile
      by_cases same : other = c :: literal
      · have distinct : ((directives inProfile).map (·.1)).Nodup := by
          apply keys.imp
          rintro first _ apart rfl
          exact apart.1 List.prefix_rfl
        cases List.inj_on_of_nodup_map distinct inside directive same
        rwa [List.append_cancel_left (starts.symm.trans also)]
      · have apart := keys.forall (List.mem_map_of_mem inside) member same
        have left : other <+: line := ⟨others,also.symm⟩
        have right : c :: literal <+: line := ⟨rest,starts.symm⟩
        exact ((List.prefix_or_prefix_of_prefix left right).elim apart.1 apart.2).elim

end Dhtperf
