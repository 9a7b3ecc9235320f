import Dhtperf.DhtNode.RWPopen
import Dhtperf.Events
import Mathlib.Algebra.Group.Nat.Even
import Mathlib.Data.List.Basic

/-! The wrappers that drive a console: they write a command and read lines until the console
prompts again. A console is what it has been told and the lines it is going to write. -/
namespace Dhtperf
open Library

inductive ConsoleDht
  | kaddemo
  | openchord
  | owdhtshell
  | pastConsole
  deriving DecidableEq

/-- The two ends of the pipe: the commands written so far and the lines not read yet, as
`RWPopen::readline` returns them (`Console.lines_read`). -/
structure Console where
  commands : Bytes
  lines : List Bytes
  deriving DecidableEq

def Console.write (console : Console) (s : Bytes) : Console := {console with commands := console.commands ++ s}

/-- What reaches the wrapper is cut into the lines of the console, where none is empty. -/
theorem Console.lines_read (console : Console)
    (plain : ∀ line ∈ console.lines, line ≠ [] ∧ 10 ∉ line ∧ line.getLast? ≠ some 13) :
    RWPopen.readlines console.lines.length (console.lines.flatMap (· ++ [10])) = console.lines.map .ok :=
  RWPopen.readlines_written console.lines plain

/-- `line.compare(0, length, text) == 0`. -/
def comparesTo (line : Bytes) (length : Nat) (text : Bytes) : Bool := line.take length == text

namespace ConsoleDht

def binaryName : ConsoleDht → Bytes
  | .kaddemo => ascii "kaddemo_static"
  | .openchord => ascii "openchord-console"
  | .owdhtshell => ascii "owdhtshell"
  | .pastConsole => ascii "past-console"

def promptString : ConsoleDht → Bytes
  | .kaddemo => ascii "demo >"
  | .openchord => ascii "oc >"
  | .owdhtshell => ascii "Ready."
  | .pastConsole => ascii "pc$"

/-- The loop of `waitPrompt`. When there is no line left the program waits for one. -/
def waitPromptIn (prompt : Bytes) : List Bytes → Option (List Bytes)
  | [] => none
  | line :: lines => if line = prompt then some lines else waitPromptIn prompt lines

def waitPrompt (dht : ConsoleDht) (console : Console) : Option Console :=
  (waitPromptIn dht.promptString console.lines).map fun lines => {console with lines := lines}

/-- The command of `doPut`; Kaddemo adds a time to live. -/
def putCommand : ConsoleDht → Bytes → Bytes → Bytes
  | .kaddemo,key,value => ascii "storevalue " ++ key ++ [32] ++ value ++ [32] ++ decimal 600 ++ [10]
  | .openchord,key,value => ascii "insertN -key " ++ key ++ ascii " -value " ++ value ++ [10]
  | .owdhtshell,key,value => ascii "put " ++ key ++ [32] ++ value ++ [10]
  | .pastConsole,key,value => ascii "put " ++ key ++ [32] ++ value ++ [10]

def doPut (dht : ConsoleDht) (event : DhtEvent .put) (console : Console) : Option Console :=
  let (key,value) : Bytes × Bytes := event.payload
  dht.waitPrompt (console.write (dht.putCommand key value))

def getCommand : ConsoleDht → Bytes → Bytes
  | .kaddemo,key => ascii "findvalue " ++ key ++ [10]
  | .openchord,key => ascii "retrieveN -key " ++ key ++ [10]
  | .owdhtshell,key => ascii "get " ++ key ++ [10]
  | .pastConsole,key => ascii "get " ++ key ++ [10]

/-- The loop of `doGet` where the value stands in the line after a header. -/
def readBehind (header found : Bytes → Bool) (prompt : Bytes) : Bool → List Bytes → Option (Bool × List Bytes)
  | _,[] => none
  | ret,line :: lines =>
    if header line then
      match lines with
      | [] => none
      | value :: lines => readBehind header found prompt (ret || found value) lines
    else if line = prompt then some (ret,lines)
    else readBehind header found prompt ret lines

/-- The loop of `doGet` where the value stands in a line of its own. -/
def readBeside (value : Bytes → Bool) (prompt : Bytes) : Bool → List Bytes → Option (Bool × List Bytes)
  | _,[] => none
  | ret,line :: lines =>
    if value line then readBeside value prompt true lines
    else if line = prompt then some (ret,lines)
    else readBeside value prompt ret lines

def header : ConsoleDht → Bytes → Bool
  | .kaddemo,line => comparesTo line 20 (ascii "Values found for key")
  | .openchord,line => comparesTo line 26 (ascii "Values associated with key")
  | .owdhtshell,_ => false
  | .pastConsole,_ => false

def found : ConsoleDht → Bytes → Bool
  | .kaddemo,line => comparesTo line 4 (ascii "1.  ")
  | .openchord,line => line != []
  | .owdhtshell,line => comparesTo line 7 (ascii "value: ")
  | .pastConsole,line => comparesTo line 7 (ascii "Value: ")

def readValue : ConsoleDht → List Bytes → Option (Bool × List Bytes)
  | .kaddemo => readBehind (header .kaddemo) (found .kaddemo) (promptString .kaddemo) false
  | .openchord => readBehind (header .openchord) (found .openchord) (promptString .openchord) false
  | .owdhtshell => readBeside (found .owdhtshell) (promptString .owdhtshell) false
  | .pastConsole => readBeside (found .pastConsole) (promptString .pastConsole) false

def doGet (dht : ConsoleDht) (event : DhtEvent .get) (console : Console) : Option (Bool × Console) :=
  let console := console.write (dht.getCommand event.payload)
  (dht.readValue console.lines).map fun answer => (answer.1,{console with lines := answer.2})

/-! ### The reader and the prompt -/

theorem waitPromptIn_first (prompt : Bytes) (before after : List Bytes) (first : prompt ∉ before) :
    waitPromptIn prompt (before ++ prompt :: after) = some after := by
  induction before with
  | nil => exact if_pos rfl
  | cons line before ih =>
    have other : line ≠ prompt := fun same => first (by rw [same]; exact List.mem_cons_self)
    rw [List.cons_append,waitPromptIn,if_neg other]
    exact ih fun member => first (List.mem_cons_of_mem _ member)

section Headers
variable (header found : Bytes → Bool) (prompt : Bytes)

def expecting (before : List Bytes) : Bool := before.foldl (fun value line => !value && header line) false

def lastHeaders (before : List Bytes) : Nat := (before.reverse.takeWhile header).length

/-- A header in the place of a value is none, so every second one of a run counts. -/
theorem expecting_iff (before : List Bytes) : expecting header before = false ↔ Even (lastHeaders header before) := by
  induction before using List.reverseRecOn with
  | nil => exact iff_of_true rfl Even.zero
  | append_singleton before line ih =>
    have step : expecting header (before ++ [line]) = (!expecting header before && header line) := by
      rw [expecting,List.foldl_append]
      rfl
    rw [step,lastHeaders,List.reverse_append,List.reverse_singleton,List.singleton_append,List.takeWhile_cons]
    cases header line with
    | false => exact iff_of_true (Bool.and_false _) Even.zero
    | true =>
      rw [if_pos rfl,List.length_cons,Nat.even_add_one,Bool.and_true]
      change _ ↔ ¬Even (lastHeaders header before)
      rw [← ih]
      cases expecting header before <;> decide

theorem expecting_skip (line : Bytes) (before : List Bytes) (plain : header line = false) :
    expecting header (line :: before) = expecting header before := by
  rw [expecting,List.foldl_cons,plain]
  rfl

theorem expecting_pair (line value : Bytes) (before : List Bytes) (headed : header line = true) :
    expecting header (line :: value :: before) = expecting header before := by
  rw [expecting,List.foldl_cons,List.foldl_cons,headed]
  rfl

theorem readBehind_value (ret : Bool) (line value : Bytes) (lines : List Bytes) (headed : header line = true) :
    readBehind header found prompt ret (line :: value :: lines) =
      readBehind header found prompt (ret || found value) lines := by
  simp [readBehind,headed]

theorem readBehind_line (ret : Bool) (line : Bytes) (lines : List Bytes) (other : header line = false) :
    readBehind header found prompt ret (line :: lines) =
      if line = prompt then some (ret,lines) else readBehind header found prompt ret lines := by
  cases lines <;> simp [readBehind,other]

variable (plain : header prompt = false)
include plain

/-- Where the reader stands at the first prompt: it stops there, or it takes the prompt for a
value and goes on with what follows. -/
theorem readBehind_prompt (ret : Bool) (before : List Bytes) (first : prompt ∉ before) : ∃ answer, ∀ after,
    readBehind header found prompt ret (before ++ prompt :: after) =
      if expecting header before then readBehind header found prompt answer after else some (answer,after) := by
  fun_induction readBehind header found prompt ret before with
  | case1 ret =>
    refine ⟨ret,fun after => ?_⟩
    rw [List.nil_append,readBehind_line header found prompt ret prompt after plain,if_pos rfl]
    rfl
  | case2 ret line headed =>
    refine ⟨ret || found prompt,fun after => ?_⟩
    rw [List.singleton_append,readBehind_value header found prompt ret line prompt after headed]
    simp [expecting,headed]
  | case3 ret line headed value lines ih =>
    obtain ⟨answer,read⟩ := ih fun member => first (by simp [member])
    refine ⟨answer,fun after => ?_⟩
    rw [expecting_pair header line value lines headed,← read after,List.cons_append,List.cons_append,
      readBehind_value header found prompt ret line value _ headed]
  | case4 ret lines headed => exact absurd List.mem_cons_self first
  | case5 ret line lines headed other ih =>
    obtain ⟨answer,read⟩ := ih fun member => first (List.mem_cons_of_mem _ member)
    have skipped := Bool.eq_false_iff.mpr headed
    refine ⟨answer,fun after => ?_⟩
    rw [expecting_skip header line lines skipped,← read after,List.cons_append,
      readBehind_line header found prompt ret line _ skipped,if_neg other]

end Headers

theorem readBeside_prompt (value : Bytes → Bool) (prompt : Bytes) (plain : value prompt = false) (ret : Bool)
    (before : List Bytes) (first : prompt ∉ before) : ∃ answer, ∀ after,
      readBeside value prompt ret (before ++ prompt :: after) = some (answer,after) := by
  fun_induction readBeside value prompt ret before with
  | case1 ret =>
    refine ⟨ret,fun after => ?_⟩
    rw [List.nil_append,readBeside,plain]
    simp
  | case2 ret line lines valued ih =>
    obtain ⟨answer,read⟩ := ih fun member => first (List.mem_cons_of_mem _ member)
    refine ⟨answer,fun after => ?_⟩
    rw [List.cons_append,readBeside,if_pos valued,read after]
  | case3 ret lines valued => exact absurd List.mem_cons_self first
  | case4 ret line lines valued other ih =>
    obtain ⟨answer,read⟩ := ih fun member => first (List.mem_cons_of_mem _ member)
    refine ⟨answer,fun after => ?_⟩
    rw [List.cons_append,readBeside,if_neg valued,if_neg other,read after]

/-! ### Keeping in step -/

/-- Both commands end just behind the first prompt, whatever the console writes later, and
the answer depends on the lines before the prompt only. -/
structure InStep (dht : ConsoleDht) (before : List Bytes) : Prop where
  put : ∀ (event : DhtEvent .put) (commands : Bytes) (after : List Bytes),
    dht.doPut event ⟨commands,before ++ dht.promptString :: after⟩ =
      some ⟨commands ++ dht.putCommand event.payload.1 event.payload.2,after⟩
  get : ∀ event : DhtEvent .get, ∃ answer, ∀ (commands : Bytes) (after : List Bytes),
    dht.doGet event ⟨commands,before ++ dht.promptString :: after⟩ =
      some (answer,⟨commands ++ dht.getCommand event.payload,after⟩)

theorem doPut_first (dht : ConsoleDht) (before : List Bytes) (first : dht.promptString ∉ before)
    (event : DhtEvent .put) (commands : Bytes) (after : List Bytes) :
    dht.doPut event ⟨commands,before ++ dht.promptString :: after⟩ =
      some ⟨commands ++ dht.putCommand event.payload.1 event.payload.2,after⟩ := by
  change (waitPromptIn dht.promptString (before ++ dht.promptString :: after)).map _ = _
  rw [waitPromptIn_first _ before after first]
  rfl

theorem readValue_prompt (dht : ConsoleDht) (before : List Bytes) (first : dht.promptString ∉ before) :
    ∃ answer, ∀ after, dht.readValue (before ++ dht.promptString :: after) =
      if expecting dht.header before then readBehind dht.header dht.found dht.promptString answer after
      else some (answer,after) := by
  have never : ∀ lines : List Bytes, expecting (fun _ => false) lines = false := by
    intro lines
    induction lines with
    | nil => rfl
    | cons line lines ih => exact (expecting_skip _ line lines rfl).trans ih
  cases dht with
  | kaddemo => exact readBehind_prompt (header .kaddemo) (found .kaddemo) _ (by decide) false before first
  | openchord => exact readBehind_prompt (header .openchord) (found .openchord) _ (by decide) false before first
  | owdhtshell =>
    obtain ⟨answer,read⟩ := readBeside_prompt (found .owdhtshell) _ (by decide) false before first
    have idle : expecting (header .owdhtshell) before = false := never before
    exact ⟨answer,fun after => (read after).trans (if_neg (by simp [idle])).symm⟩
  | pastConsole =>
    obtain ⟨answer,read⟩ := readBeside_prompt (found .pastConsole) _ (by decide) false before first
    have idle : expecting (header .pastConsole) before = false := never before
    exact ⟨answer,fun after => (read after).trans (if_neg (by simp [idle])).symm⟩

/-- A reader keeps in step exactly when the number of headers just before the first prompt
is even; where the values stand beside their headers there are none. -/
theorem inStep_iff (dht : ConsoleDht) (before : List Bytes) (first : dht.promptString ∉ before) :
    dht.InStep before ↔ Even (lastHeaders dht.header before) := by
  rw [← expecting_iff]
  obtain ⟨answer,read⟩ := readValue_prompt dht before first
  constructor
  · intro step
    obtain ⟨other,got⟩ := step.get ⟨0,([] : Bytes)⟩
    have none := got [] []
    -- Nothing follows the prompt, so a reader that has taken it for a value waits.
    change ((dht.readValue (before ++ dht.promptString :: [])).map _ : Option (Bool × Console)) = _ at none
    rw [read []] at none
    cases swallowed : expecting dht.header before with
    | false => rfl
    | true =>
      rw [swallowed,if_pos rfl] at none
      cases none
  · intro stops
    refine ⟨doPut_first dht before first,fun event => ⟨answer,fun commands after => ?_⟩⟩
    change ((dht.readValue (before ++ dht.promptString :: after)).map _ : Option (Bool × Console)) = _
    rw [read after,stops,if_neg Bool.false_ne_true]
    rfl

theorem kaddemo_in_step : kaddemo.InStep [ascii "Values found for key 7:",ascii "1.  word"] ∧
    RWPopen.readlines 3 (ascii "Values found for key 7:\n1.  word\ndemo >\n") =
      [ascii "Values found for key 7:",ascii "1.  word",kaddemo.promptString].map .ok := by
  have even : Even (lastHeaders kaddemo.header [ascii "Values found for key 7:",ascii "1.  word"]) := by decide
  exact ⟨(inStep_iff kaddemo _ (by decide)).mpr even,Console.lines_read
    ⟨[],[ascii "Values found for key 7:",ascii "1.  word",kaddemo.promptString]⟩ (by decide +kernel)⟩

/-- The prompt stands right behind the header: it is taken for the value, and the lines of the
next command are read as well. -/
theorem openchord_out_of_step :
    openchord.promptString ∉ [ascii "Values associated with key 'x':"] ∧
      ¬openchord.InStep [ascii "Values associated with key 'x':"] := by
  refine ⟨by decide,fun step => ?_⟩
  obtain ⟨answer,got⟩ := step.get ⟨0,ascii "x"⟩
  have late := got [] []
  cases late

end ConsoleDht
end Dhtperf
