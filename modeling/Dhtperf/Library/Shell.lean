import Mathlib.Algebra.BigOperators.Group.List.Basic
import Mathlib.Algebra.GroupWithZero.Nat
import Mathlib.Data.List.Basic
import Mathlib.Tactic.SplitIfs

/-! The part of the POSIX shell language that a line of simple commands uses: words with their
quoting, operators, redirections and comments. A line is read where it says all by itself
what is run. Expansions (parameters, substitutions, tildes, patterns), compound commands,
here-documents and line continuations are not read. -/
namespace Dhtperf.Library.Shell

/-- A byte of a word: on its own, quoted, or one that quotes and is removed. -/
inductive Letter
  | plain (c : UInt8)
  | quoted (c : UInt8)
  | mark
  deriving DecidableEq

/-- Where the reader stands in a word; the escaped states follow a backslash. -/
inductive Quote
  | unquoted
  | escaped
  | single
  | double
  | doubleEscaped
  deriving DecidableEq

inductive Move
  | stop
  | unread
  | go (written : List Letter) (next : Quote)

/-- Blanks, the newline and the first bytes of operators: `& ( ) ; < > |`. -/
def isDelimiter (c : UInt8) : Bool :=
  c == 9 || c == 10 || c == 32 || c == 38 || c == 40 || c == 41 || c == 59 || c == 60 || c == 62 || c == 124

def isExpansion (c : UInt8) : Bool := c == 36 || c == 96

/-- What stands for itself in a word: 39 and 34 are the quotes and 92 is the backslash. -/
def isPlain (c : UInt8) : Bool := !isDelimiter c && !isExpansion c && c != 39 && c != 34 && c != 92

def move : Quote → UInt8 → Move
  | .unquoted,c =>
    if isDelimiter c then .stop
    else if isExpansion c then .unread
    else if c = 39 then .go [.mark] .single
    else if c = 34 then .go [.mark] .double
    else if c = 92 then .go [] .escaped
    else .go [.plain c] .unquoted
  | .escaped,c => if c = 10 then .unread else .go [.mark,.quoted c] .unquoted
  | .single,c => if c = 39 then .go [.mark] .unquoted else .go [.quoted c] .single
  | .double,c =>
    if c = 34 then .go [.mark] .unquoted
    else if isExpansion c then .unread
    else if c = 92 then .go [] .doubleEscaped
    else .go [.quoted c] .double
  | .doubleEscaped,c =>
    -- Elsewhere between double quotes a backslash stands for itself.
    if c = 10 then .unread
    else if isExpansion c || c == 34 || c == 92 then .go [.mark,.quoted c] .double
    else .go [.quoted 92,.quoted c] .double

/-- The letters of a word and what follows it; a quotation has to end. -/
def letters : Quote → List UInt8 → Option (List Letter × List UInt8)
  | state,[] => if state = .unquoted then some ([],[]) else none
  | state,c :: rest =>
    match move state c with
    | .stop => some ([],c :: rest)
    | .unread => none
    | .go written next => (letters next rest).map fun word => (written ++ word.1,word.2)

namespace Letter

def byte : Letter → Option UInt8
  | .plain c => some c
  | .quoted c => some c
  | .mark => none

def isPlain : Letter → Bool
  | .plain _ => true
  | _ => false

def isDigit : Letter → Bool
  | .plain c => 48 ≤ c && c ≤ 57
  | _ => false

end Letter

def value (word : List Letter) : List UInt8 := word.filterMap Letter.byte

/-- What follows an opening bracket closes it: the bracket may be negated and holds at least
one letter, and no slash. -/
def closes (rest : List Letter) : Bool :=
  let inside := if rest.head? = some (.plain 33) then rest.tail else rest
  match inside with
  | [] => false
  | first :: others => first.byte != some 47 && (others.takeWhile fun l => l.byte != some 47).contains (.plain 93)

/-- A star, a question mark or a bracket expression. -/
def isPattern : List Letter → Bool
  | [] => false
  | l :: rest =>
    l == .plain 42 || l == .plain 63 || (l == .plain 91 && closes (rest.filter (· ≠ .mark))) || isPattern rest

/-- The words that stand for something else: a tilde before a name, and patterns. -/
def expands (word : List Letter) : Bool := word.head? == some (.plain 126) || isPattern word

/-! ### Tokens -/

inductive Token
  | word (letters : List Letter)
  | ioNumber (digits : List UInt8)
  | operator (text : List UInt8)
  deriving DecidableEq

/-- Longer operators first. -/
def operators : List (List UInt8) :=
  [[60,60,45],[38,38],[124,124],[59,59],[60,60],[62,62],[60,38],[62,38],[60,62],[62,124],
    [38],[124],[59],[60],[62],[40],[41],[10]]

def operatorAt (input : List UInt8) : Option (List UInt8) := operators.find? (·.isPrefixOf input)

/-- A number right before `<` or `>` is a file descriptor. -/
def wordToken (word : List Letter) (after : List UInt8) : Token :=
  if word.all (·.isDigit) && (after.head? == some 60 || after.head? == some 62) then .ioNumber (value word)
  else .word word

/-- Every turn takes a byte at least, so the length of the input is fuel enough. -/
def tokensFrom : Nat → List UInt8 → Option (List Token)
  | _,[] => some []
  | 0,_ :: _ => none
  | fuel+1,c :: rest =>
    if c = 32 ∨ c = 9 then tokensFrom fuel rest
    else if c = 35 then tokensFrom fuel (rest.dropWhile (· ≠ 10))
    else match operatorAt (c :: rest) with
      | some op => (tokensFrom fuel ((c :: rest).drop op.length)).map (.operator op :: ·)
      | none =>
        match letters .unquoted (c :: rest) with
        | none => none
        | some (word,after) => (tokensFrom fuel after).map (wordToken word after :: ·)

def tokens (line : List UInt8) : Option (List Token) := tokensFrom line.length line

/-! ### Commands -/

structure Redirection where
  descriptor : List UInt8
  operator : List UInt8
  target : List UInt8
  deriving DecidableEq

/-- A simple command and the operator behind it. -/
structure Command where
  words : List (List UInt8)
  redirections : List Redirection
  terminator : List UInt8
  deriving DecidableEq

namespace Command

def empty : Command := ⟨[],[],[]⟩

def addWord (command : Command) (word : List UInt8) : Command := {command with words := command.words ++ [word]}

def addRedirection (command : Command) (descriptor operator target : List UInt8) : Command :=
  {command with redirections := command.redirections ++ [⟨descriptor,operator,target⟩]}

end Command

/-- `< > >> <& >& <> >|`. -/
def redirecting : List (List UInt8) := [[60],[62],[62,62],[60,38],[62,38],[60,62],[62,124]]

/-- `&& || |` need a command behind them; after `; &` and the newline the line may end. -/
def joining : List (List UInt8) := [[38,38],[124,124],[124]]

def ending : List (List UInt8) := [[59],[38],[10]]

def bytesOf (text : String) : List UInt8 := text.toList.map fun c => UInt8.ofNat c.toNat

/-- The words that start or part a compound command. -/
def reserved : List (List UInt8) :=
  ["!","\x7b","\x7d","case","do","done","elif","else","esac","fi","for","if","in","then","until","while"].map bytesOf

def isReserved (word : List Letter) : Bool := word.all (·.isPlain) && reserved.contains (value word)

/-- The commands of some tokens, behind the part of a command that was read before. After a
joining operator another command is needed. -/
def commands : Bool → Command → List Token → Option (List Command)
  | needed,current,[] => if current ≠ .empty then some [current] else if needed then none else some []
  | needed,current,.word word :: rest =>
    if expands word || (current == .empty && isReserved word) then none
    else commands needed (current.addWord (value word)) rest
  | needed,current,.ioNumber digits :: rest =>
    match rest with
    | .operator op :: .word word :: rest =>
      if redirecting.contains op && !expands word then
        commands needed (current.addRedirection digits op (value word)) rest
      else none
    | _ => none
  | needed,current,.operator op :: rest =>
    if redirecting.contains op then
      match rest with
      | .word word :: rest =>
        if expands word then none else commands needed (current.addRedirection [] op (value word)) rest
      | _ => none
    else if current = .empty then if op = [10] then commands needed current rest else none
    else if joining.contains op then (commands true .empty rest).map ({current with terminator := op} :: ·)
    else if ending.contains op then (commands false .empty rest).map ({current with terminator := op} :: ·)
    else none

/-- The commands that a line runs, where the line alone says which. -/
def reads (line : List UInt8) : Option (List Command) := (tokens line).bind (commands false .empty)

/-! ### Sizes

Reading drops blanks outside of words, comments, and the bytes that quote. What is left is
compared with what there was by counting bytes other than spaces. -/

def visible (text : List UInt8) : Nat := text.countP (· ≠ 32)

def marks (word : List Letter) : Nat := word.count .mark

def Letter.weight : Letter → Nat
  | .plain c => if c = 32 then 0 else 1
  | .quoted c => if c = 32 then 0 else 1
  | .mark => 1

def weight (word : List Letter) : Nat := (word.map Letter.weight).sum

theorem weight_eq (word : List Letter) : weight word = visible (value word) + marks word := by
  induction word with
  | nil => rfl
  | cons l word ih =>
    have step : weight (l :: word) = l.weight + weight word := by simp [weight]
    rw [step,ih]
    cases l with
    | plain c =>
      by_cases space : c = 32 <;> simp [Letter.weight,visible,value,marks,Letter.byte,space]
      omega
    | quoted c =>
      by_cases space : c = 32 <;> simp [Letter.weight,visible,value,marks,Letter.byte,space]
      omega
    | mark =>
      have more : marks (.mark :: word) = marks word + 1 := List.count_cons_self
      rw [show value (.mark :: word) = value word from rfl,more,show Letter.mark.weight = 1 from rfl]
      omega

def Quote.pending : Quote → Nat
  | .escaped => 1
  | .doubleEscaped => 1
  | _ => 0

theorem move_weight (state next : Quote) (c : UInt8) (written : List Letter) (went : move state c = .go written next) :
    state.pending + (if c = 32 then 0 else 1) = weight written + next.pending := by
  cases state with
  | unquoted =>
    simp only [move] at went
    split_ifs at went with delimiter <;> cases went
    all_goals
      have visible : c ≠ 32 := fun same => delimiter (by rw [same]; decide)
      simp [weight,Letter.weight,Quote.pending,visible]
  | escaped =>
    simp only [move] at went
    split_ifs at went
    cases went
    simp [weight,Letter.weight,Quote.pending]
  | single =>
    simp only [move] at went
    split_ifs at went with quote <;> cases went
    · simp [weight,Letter.weight,Quote.pending,quote]
    · simp [weight,Letter.weight,Quote.pending]
  | double =>
    simp only [move] at went
    split_ifs at went with quote expansion backslash <;> cases went
    · simp [weight,Letter.weight,Quote.pending,quote]
    · simp [weight,Quote.pending,backslash]
    · simp [weight,Letter.weight,Quote.pending]
  | doubleEscaped =>
    simp only [move] at went
    split_ifs at went <;> cases went
    · simp [weight,Letter.weight,Quote.pending]
    · simp [weight,Letter.weight,Quote.pending]

theorem move_stop (state : Quote) (c : UInt8) (stopped : move state c = .stop) : state = .unquoted := by
  cases state with
  | unquoted => rfl
  | escaped | single | double | doubleEscaped =>
    simp only [move] at stopped
    split_ifs at stopped

theorem letters_weight (state : Quote) (input after : List UInt8) (word : List Letter)
    (read : letters state input = some (word,after)) : state.pending + visible input = weight word + visible after := by
  induction input generalizing state word after with
  | nil =>
    unfold letters at read
    split at read
    next unquoted =>
      cases read
      rw [unquoted]
      rfl
    next => cases read
  | cons c rest ih =>
    have here : visible (c :: rest) = visible rest + if c = 32 then 0 else 1 := by
      by_cases space : c = 32 <;> simp [visible,space]
    unfold letters at read
    split at read
    next stopped =>
      cases read
      rw [move_stop state c stopped]
      simp [weight,Quote.pending]
    next => cases read
    next written next went =>
      obtain ⟨⟨later,behind⟩,tail,same⟩ := Option.map_eq_some_iff.mp read
      cases same
      have first := move_weight state next c written went
      have others := ih next behind later tail
      change _ = weight (written ++ later) + visible behind
      have sum : weight (written ++ later) = weight written + weight later := by simp [weight]
      omega

/-! ### Literal words -/

theorem letters_escaped (input after : List UInt8) (word : List Letter)
    (read : letters .escaped input = some (word,after)) : marks word ≠ 0 := by
  cases input with
  | nil => cases read
  | cons c rest =>
    simp only [letters,move] at read
    split_ifs at read
    obtain ⟨⟨later,behind⟩,tail,same⟩ := Option.map_eq_some_iff.mp read
    cases same
    simp [marks]

theorem letters_literal (input after : List UInt8) (word : List Letter)
    (read : letters .unquoted input = some (word,after)) (unmarked : marks word = 0) :
    ∃ text, word = text.map .plain ∧ input = text ++ after ∧ (∀ c ∈ text, isPlain c = true) ∧
      ∀ c ∈ after.head?, isDelimiter c = true := by
  induction input generalizing word with
  | nil =>
    cases read
    exact ⟨[],rfl,rfl,by simp,by simp⟩
  | cons c rest ih =>
    simp only [letters,move] at read
    split_ifs at read with delimiter expansion single double backslash
    · cases read
      exact ⟨[],rfl,rfl,by simp,by simpa using delimiter⟩
    all_goals
      obtain ⟨⟨later,behind⟩,tail,same⟩ := Option.map_eq_some_iff.mp read
      obtain ⟨rfl,rfl⟩ := Prod.mk.inj same
    · simp [marks] at unmarked
    · simp [marks] at unmarked
    · exact absurd unmarked (letters_escaped rest behind later tail)
    · obtain ⟨text,rfl,rfl,plain,next⟩ := ih later tail (by simpa [marks] using unmarked)
      have here : isPlain c = true := by simp [isPlain,delimiter,expansion,single,double,backslash]
      exact ⟨c :: text,rfl,rfl,by simpa using ⟨here,plain⟩,next⟩

theorem letters_plain (text after : List UInt8) (plain : ∀ c ∈ text, isPlain c = true)
    (next : ∀ c ∈ after.head?, isDelimiter c = true) :
    letters .unquoted (text ++ after) = some (text.map .plain,after) := by
  induction text with
  | nil =>
    cases after with
    | nil => rfl
    | cons c rest =>
      have stop : isDelimiter c = true := next c rfl
      simp [letters,move,stop]
  | cons c text ih =>
    have here : isPlain c = true := plain c (by simp)
    simp only [isPlain,Bool.and_eq_true,Bool.not_eq_true',bne_iff_ne,ne_eq] at here
    obtain ⟨⟨⟨⟨delimiter,expansion⟩,single⟩,double⟩,backslash⟩ := here
    have others := ih fun d member => plain d (by simp [member])
    simp [letters,move,delimiter,expansion,single,double,backslash,others]

theorem value_plain (text : List UInt8) : value (text.map .plain) = text := by
  induction text with
  | nil => rfl
  | cons c text ih =>
    change c :: value (text.map .plain) = c :: text
    rw [ih]

/-! ### Scanning -/

theorem operators_start : ∀ op ∈ operators, ∃ c rest, op = c :: rest ∧ isDelimiter c = true := by
  simp only [operators,List.forall_mem_cons]
  simp [isDelimiter]

theorem operatorAt_eq (c : UInt8) (rest op : List UInt8) (found : operatorAt (c :: rest) = some op) :
    isDelimiter c = true ∧ ∃ behind, c :: rest = op ++ behind := by
  have pre : op <+: c :: rest := List.isPrefixOf_iff_prefix.mp (by simpa using List.find?_some found)
  obtain ⟨first,others,rfl,delimiter⟩ := operators_start op (List.mem_of_find?_eq_some found)
  obtain ⟨behind,split⟩ := pre
  obtain ⟨rfl,-⟩ := List.cons_eq_cons.mp split
  exact ⟨delimiter,behind,split.symm⟩

theorem operatorAt_none (c : UInt8) (rest : List UInt8) (nothing : operatorAt (c :: rest) = none)
    (space : c ≠ 32) (tab : c ≠ 9) : isDelimiter c = false := by
  by_contra delimiter
  simp only [isDelimiter,Bool.or_eq_true,beq_iff_eq,Bool.not_eq_false] at delimiter
  have never := List.find?_eq_none.mp nothing
  simp only [operators,List.forall_mem_cons] at never
  simp at never
  grind

theorem tokensFrom_nil (fuel : Nat) : tokensFrom fuel [] = some [] := by
  cases fuel <;> rfl

theorem tokensFrom_more (fuel extra : Nat) (line : List UInt8) (found : List Token)
    (read : tokensFrom fuel line = some found) : tokensFrom (fuel+extra) line = some found := by
  induction fuel generalizing line found with
  | zero =>
    cases line with
    | nil =>
      rw [tokensFrom_nil] at read ⊢
      exact read
    | cons c rest => cases read
  | succ fuel ih =>
    cases line with
    | nil =>
      rw [tokensFrom_nil] at read ⊢
      exact read
    | cons c rest =>
      rw [Nat.add_right_comm fuel 1 extra]
      unfold tokensFrom at read ⊢
      split_ifs at read ⊢ with blank comment
      · exact ih _ _ read
      · exact ih _ _ read
      · split at read
        next op operator =>
          obtain ⟨others,later,rfl⟩ := Option.map_eq_some_iff.mp read
          rw [ih _ _ later]
          rfl
        next nothing =>
          split at read
          next => cases read
          next word after taken =>
            obtain ⟨others,later,rfl⟩ := Option.map_eq_some_iff.mp read
            simp [ih _ _ later]

/-- What the tokens of a line are made from, one at a time. -/
inductive Scans : List UInt8 → List Token → Prop
  | done : Scans [] []
  | blank {c : UInt8} {rest : List UInt8} {found : List Token} (blank : c = 32 ∨ c = 9) (later : Scans rest found) :
      Scans (c :: rest) found
  | comment {rest : List UInt8} {found : List Token} (later : Scans (rest.dropWhile (· ≠ 10)) found) :
      Scans (35 :: rest) found
  | operator {op behind : List UInt8} {found : List Token} (later : Scans behind found) :
      Scans (op ++ behind) (.operator op :: found)
  | word {c : UInt8} {rest after : List UInt8} {word : List Letter} {found : List Token} (first : c ≠ 35)
      (inside : isDelimiter c = false) (read : letters .unquoted (c :: rest) = some (word,after))
      (later : Scans after found) : Scans (c :: rest) (wordToken word after :: found)

theorem tokensFrom_scans (fuel : Nat) (line : List UInt8) (found : List Token)
    (read : tokensFrom fuel line = some found) : Scans line found := by
  induction fuel generalizing line found with
  | zero =>
    cases line with
    | nil =>
      cases read
      exact .done
    | cons c rest => cases read
  | succ fuel ih =>
    cases line with
    | nil =>
      cases read
      exact .done
    | cons c rest =>
      unfold tokensFrom at read
      split_ifs at read with blank comment
      · exact .blank blank (ih _ _ read)
      · rw [comment]
        exact .comment (ih _ _ read)
      · split at read
        next op operator =>
          obtain ⟨others,later,rfl⟩ := Option.map_eq_some_iff.mp read
          obtain ⟨-,behind,split⟩ := operatorAt_eq c rest op operator
          rw [split,List.drop_left] at later
          rw [split]
          exact .operator (ih _ _ later)
        next nothing =>
          have inside := operatorAt_none c rest nothing (fun same => blank (.inl same)) (fun same => blank (.inr same))
          split at read
          next => cases read
          next word after letters =>
            obtain ⟨others,later,rfl⟩ := Option.map_eq_some_iff.mp read
            exact .word comment inside letters (ih _ _ later)

def Token.size : Token → Nat
  | .word taken => visible (value taken)
  | .ioNumber digits => visible digits
  | .operator text => visible text

def Token.quotes : Token → Nat
  | .word taken => marks taken
  | _ => 0

def size (found : List Token) : Nat := (found.map Token.size).sum

def quotes (found : List Token) : Nat := (found.map Token.quotes).sum

theorem wordToken_word (taken word : List Letter) (after : List UInt8) (made : wordToken taken after = .word word) :
    taken = word := by
  unfold wordToken at made
  split at made
  · cases made
  · exact Token.word.inj made

theorem wordToken_size (word : List Letter) (after : List UInt8) :
    (wordToken word after).size + (wordToken word after).quotes = weight word := by
  unfold wordToken
  split
  next digits =>
    have unmarked : marks word = 0 := by
      refine List.count_eq_zero.mpr fun member => ?_
      simp only [Bool.and_eq_true,List.all_eq_true] at digits
      exact Bool.noConfusion (digits.1 _ member)
    rw [weight_eq,unmarked]
    rfl
  next =>
    rw [weight_eq]
    rfl

theorem visible_append (before after : List UInt8) : visible (before ++ after) = visible before + visible after :=
  List.countP_append

theorem scans_size (line : List UInt8) (found : List Token) (scans : Scans line found) :
    size found + quotes found ≤ visible line := by
  induction scans with
  | done => exact Nat.le_refl 0
  | @blank c rest found _ _ ih => exact Nat.le_trans ih (List.sublist_cons_self c rest).countP_le
  | @comment rest found _ ih =>
    have dropped : List.Sublist (rest.dropWhile (· ≠ 10)) (35 :: rest) :=
      (List.dropWhile_sublist _).trans (List.sublist_cons_self 35 rest)
    exact Nat.le_trans ih dropped.countP_le
  | @operator op behind found _ ih =>
    have here : size (.operator op :: found) = visible op + size found := by simp [size,Token.size]
    have same : quotes (.operator op :: found) = quotes found := by simp [quotes,Token.quotes]
    rw [visible_append]
    omega
  | @word c rest after word found _ _ read _ ih =>
    have here : size (wordToken word after :: found) = (wordToken word after).size + size found := by simp [size]
    have same : quotes (wordToken word after :: found) = (wordToken word after).quotes + quotes found := by simp [quotes]
    have taken := letters_weight .unquoted (c :: rest) after word read
    have whole := wordToken_size word after
    simp only [Quote.pending] at taken
    omega

/-- A byte string that no quote, expansion, pattern or comment touches. -/
structure Literal (word : List UInt8) : Prop where
  nonempty : word ≠ []
  plain : ∀ c ∈ word, isPlain c = true
  start : word.head? ≠ some 35
  kept : expands (word.map .plain) = false

theorem scans_literal (line : List UInt8) (found : List Token) (scans : Scans line found) (unquoted : quotes found = 0)
    (word : List Letter) (member : .word word ∈ found) (kept : expands word = false) : Literal (value word) := by
  induction scans with
  | done => cases member
  | blank _ _ ih => exact ih unquoted member
  | comment _ ih => exact ih unquoted member
  | operator _ ih => exact ih (by simpa [quotes,Token.quotes] using unquoted) (by simpa using member)
  | @word c rest after taken found first inside read _ ih =>
    have none : (wordToken taken after).quotes = 0 ∧ quotes found = 0 := by simpa [quotes] using unquoted
    obtain here | later := List.mem_cons.mp member
    · have same := wordToken_word taken word after here.symm
      rw [same] at read
      obtain ⟨text,rfl,split,plain,next⟩ := letters_literal (c :: rest) after word read (by rw [← here] at none; exact none.1)
      rw [value_plain]
      cases text with
      | nil =>
        rw [List.nil_append] at split
        rw [← split] at next
        exact Bool.noConfusion (inside.symm.trans (next c rfl))
      | cons d text =>
        obtain ⟨rfl,-⟩ := List.cons_eq_cons.mp split
        exact ⟨by simp,plain,by simpa using first,kept⟩
    · exact ih none.2 later

def Redirection.size (redirection : Redirection) : Nat :=
  visible redirection.descriptor + visible redirection.operator + visible redirection.target

def Command.size (command : Command) : Nat :=
  (command.words.map visible).sum + (command.redirections.map Redirection.size).sum + visible command.terminator

theorem Command.addWord_size (command : Command) (word : List UInt8) :
    (command.addWord word).size = command.size + visible word := by
  simp only [addWord,size,List.map_append,List.sum_append,List.map_cons,List.map_nil,List.sum_cons,List.sum_nil]
  omega

theorem Command.addRedirection_size (command : Command) (descriptor operator target : List UInt8) :
    (command.addRedirection descriptor operator target).size =
      command.size + (visible descriptor + visible operator + visible target) := by
  simp only [addRedirection,size,Redirection.size,List.map_append,List.sum_append,List.map_cons,List.map_nil,
    List.sum_cons,List.sum_nil]
  omega

/-- How a list of tokens is taken apart into commands. -/
inductive Parses : Command → List Token → List Command → Prop
  | last {current : Command} : Parses current [] [current]
  | nothing : Parses .empty [] []
  | word {current : Command} {word : List Letter} {rest : List Token} {found : List Command}
      (kept : expands word = false) (later : Parses (current.addWord (value word)) rest found) :
      Parses current (.word word :: rest) found
  | descriptor {current : Command} {digits op : List UInt8} {word : List Letter} {rest : List Token}
      {found : List Command} (later : Parses (current.addRedirection digits op (value word)) rest found) :
      Parses current (.ioNumber digits :: .operator op :: .word word :: rest) found
  | redirection {current : Command} {op : List UInt8} {word : List Letter} {rest : List Token}
      {found : List Command} (later : Parses (current.addRedirection [] op (value word)) rest found) :
      Parses current (.operator op :: .word word :: rest) found
  | newline {op : List UInt8} {rest : List Token} {found : List Command} (later : Parses .empty rest found) :
      Parses .empty (.operator op :: rest) found
  | terminator {current : Command} {op : List UInt8} {rest : List Token} {found : List Command}
      (later : Parses .empty rest found) :
      Parses current (.operator op :: rest) ({current with terminator := op} :: found)

theorem commands_parses (needed : Bool) (current : Command) (tokens : List Token) (found : List Command)
    (read : commands needed current tokens = some found) : Parses current tokens found := by
  fun_induction commands needed current tokens generalizing found with
  | case1 =>
    cases read
    exact .last
  | case3 needed current finished =>
    rw [not_ne_iff.mp finished]
    cases read
    exact .nothing
  | case5 needed current word rest kept ih =>
    simp only [Bool.or_eq_true,not_or,Bool.not_eq_true] at kept
    exact .word kept.1 (ih found read)
  | case6 needed current digits op word rest redirects ih => exact .descriptor (ih found read)
  | case10 needed current op redirects word rest kept ih => exact .redirection (ih found read)
  | case12 needed rest redirects ih => exact .newline (ih found read)
  | case14 needed current op rest redirects started joins ih =>
    obtain ⟨others,later,rfl⟩ := Option.map_eq_some_iff.mp read
    exact .terminator (ih others later)
  | case15 needed current op rest redirects started joins ends ih =>
    obtain ⟨others,later,rfl⟩ := Option.map_eq_some_iff.mp read
    exact .terminator (ih others later)
  | case2 | case4 | case7 | case8 | case9 | case11 | case13 | case16 => cases read

theorem parses_size (current : Command) (tokens : List Token) (found : List Command) (parses : Parses current tokens found)
    (unfinished : current.terminator = []) : (found.map Command.size).sum ≤ current.size + size tokens := by
  have cons (token : Token) (tokens : List Token) : size (token :: tokens) = token.size + size tokens := by simp [size]
  induction parses with
  | last => simp [size]
  | nothing => simp
  | @word current word rest found _ _ ih =>
    have shorter := ih unfinished
    rw [Command.addWord_size] at shorter
    simp only [cons,Token.size]
    omega
  | @descriptor current digits op word rest found _ ih =>
    have shorter := ih unfinished
    rw [Command.addRedirection_size] at shorter
    simp only [cons,Token.size]
    omega
  | @redirection current op word rest found _ ih =>
    have shorter := ih unfinished
    rw [Command.addRedirection_size,show visible [] = 0 from rfl] at shorter
    simp only [cons,Token.size]
    omega
  | @newline op rest found _ ih =>
    have shorter := ih rfl
    simp only [cons]
    omega
  | @terminator current op rest found _ ih =>
    have shorter := ih rfl
    have here : ({current with terminator := op} : Command).size = current.size + visible op := by
      simp [Command.size,unfinished,show visible [] = 0 from rfl]
    have empty : Command.empty.size = 0 := rfl
    simp only [List.map_cons,List.sum_cons,cons,Token.size,here]
    omega

/-- A word of a command was read before, or it is one of the tokens. -/
def Given (current : Command) (tokens : List Token) (text : List UInt8) : Prop :=
  text ∈ current.words ∨ ∃ word, .word word ∈ tokens ∧ expands word = false ∧ value word = text

theorem Given.behind (current : Command) (first rest : List Token) (text : List UInt8) (given : Given current rest text) :
    Given current (first ++ rest) text := by
  obtain before | ⟨word,later,same⟩ := given
  · exact .inl before
  · exact .inr ⟨word,List.mem_append_right _ later,same⟩

theorem parses_words (current : Command) (tokens : List Token) (found : List Command) (parses : Parses current tokens found)
    (command : Command) (member : command ∈ found) (text : List UInt8) (inside : text ∈ command.words) :
    Given current tokens text := by
  induction parses with
  | last =>
    rw [List.mem_singleton.mp member] at inside
    exact .inl inside
  | nothing => cases member
  | @word current word rest found kept _ ih =>
    obtain before | later := Given.behind _ [.word word] rest text (ih member)
    · obtain before | here := List.mem_append.mp before
      · exact .inl before
      · exact .inr ⟨word,List.mem_cons_self,kept,(List.mem_singleton.mp here).symm⟩
    · exact .inr later
  | @descriptor current digits op word rest found _ ih =>
    exact Given.behind current [.ioNumber digits,.operator op,.word word] rest text (ih member)
  | @redirection current op word rest found _ ih =>
    exact Given.behind current [.operator op,.word word] rest text (ih member)
  | @newline op rest found _ ih => exact Given.behind .empty [.operator op] rest text (ih member)
  | @terminator current op rest found _ ih =>
    obtain rfl | member := List.mem_cons.mp member
    · exact .inl inside
    · obtain before | later := Given.behind .empty [.operator op] rest text (ih member)
      · cases before
      · exact .inr later

theorem reads_size (line : List UInt8) (found : List Command) (read : reads line = some found) :
    (found.map Command.size).sum ≤ visible line := by
  obtain ⟨scanned,tokens,parsed⟩ := Option.bind_eq_some_iff.mp read
  have fits := scans_size line scanned (tokensFrom_scans line.length line scanned tokens)
  have kept := parses_size .empty scanned found (commands_parses false .empty scanned found parsed) rfl
  have empty : Command.empty.size = 0 := rfl
  omega

/-- When nothing of the line was dropped, every word of its commands stands in it literally. -/
theorem reads_literal (line : List UInt8) (found : List Command) (read : reads line = some found)
    (whole : visible line ≤ (found.map Command.size).sum) (command : Command) (member : command ∈ found)
    (text : List UInt8) (inside : text ∈ command.words) : Literal text := by
  obtain ⟨scanned,tokens,parsed⟩ := Option.bind_eq_some_iff.mp read
  have scans := tokensFrom_scans line.length line scanned tokens
  have parses := commands_parses false .empty scanned found parsed
  have fits := scans_size line scanned scans
  have kept := parses_size .empty scanned found parses rfl
  have empty : Command.empty.size = 0 := rfl
  have unquoted : quotes scanned = 0 := by omega
  obtain before | ⟨word,here,literal,same⟩ := parses_words .empty scanned found parses command member text inside
  · cases before
  · rw [← same]
    exact scans_literal line scanned scans unquoted word here literal

/-! ### Reading written lines -/

theorem isPattern_plain (text : List UInt8) (clear : ∀ c ∈ text, c ≠ 42 ∧ c ≠ 63 ∧ c ≠ 91) :
    isPattern (text.map .plain) = false := by
  induction text with
  | nil => rfl
  | cons c text ih =>
    have here := clear c (by simp)
    have others := ih fun d member => clear d (by simp [member])
    simp [isPattern,here,others]

theorem tokensFrom_word (fuel : Nat) (text rest : List UInt8) (found : List Token) (literal : Literal text)
    (later : tokensFrom fuel rest = some found) :
    tokensFrom (fuel+2) (text ++ 32 :: rest) = some (.word (text.map .plain) :: found) := by
  obtain ⟨nonempty,plain,start,-⟩ := literal
  obtain ⟨c,text,rfl⟩ := List.exists_cons_of_ne_nil nonempty
  have taken := letters_plain (c :: text) (32 :: rest) plain (by simp [isDelimiter])
  have here : isDelimiter c = false := by
    have first := plain c (by simp)
    simp only [isPlain,Bool.and_eq_true,Bool.not_eq_true'] at first
    exact first.1.1.1.1
  have blank : ¬(c = 32 ∨ c = 9) := by
    rintro (rfl | rfl) <;> cases here
  have comment : c ≠ 35 := by simpa using start
  have operator : operatorAt (c :: (text ++ 32 :: rest)) = none := by
    cases found : operatorAt (c :: (text ++ 32 :: rest)) with
    | none => rfl
    | some op => exact Bool.noConfusion (here.symm.trans (operatorAt_eq c _ op found).1)
  have word : wordToken ((c :: text).map .plain) (32 :: rest) = .word ((c :: text).map .plain) := by simp [wordToken]
  rw [List.cons_append] at taken ⊢
  rw [tokensFrom,if_neg blank,if_neg comment,operator]
  simp only [taken,word]
  rw [tokensFrom,if_pos (.inl rfl),later]
  rfl

theorem tokens_of_fuel (fuel : Nat) (line : List UInt8) (found : List Token) (read : tokensFrom fuel line = some found)
    (short : fuel ≤ line.length) : tokens line = some found := by
  obtain ⟨extra,long⟩ := Nat.exists_eq_add_of_le short
  rw [tokens,long]
  exact tokensFrom_more fuel extra line found read

end Dhtperf.Library.Shell
