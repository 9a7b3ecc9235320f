import Dhtperf.Basic

/-! The workload file of the master: the lines it is made of, the six patterns a line
can match, the profiles and the profile of each node. -/
namespace Dhtperf
open Library

structure MasterWorkloadProfile where
  name : Bytes
  joinProfile : Bytes
  leaveProfile : Bytes
  putProfile : Bytes
  getProfile : Bytes
  deriving DecidableEq

namespace MasterWorkloadProfile

def make (name : Bytes) : MasterWorkloadProfile := ⟨name,[],[],[],[]⟩

def isComplete (p : MasterWorkloadProfile) : Bool :=
  p.joinProfile ≠ [] && p.leaveProfile ≠ [] && p.putProfile ≠ [] && p.getProfile ≠ []

def text (p : MasterWorkloadProfile) : DhtOperation → Bytes
  | .join => p.joinProfile
  | .leave => p.leaveProfile
  | .put => p.putProfile
  | .get => p.getProfile

/-- A string that is set already is not reset. -/
def setProfile (p : MasterWorkloadProfile) (type : DhtOperation) (profile : Bytes) :
    Except Fault MasterWorkloadProfile :=
  if p.text type ≠ [] then throw .exit
  else pure (match type with
    | .join => {p with joinProfile := profile}
    | .leave => {p with leaveProfile := profile}
    | .put => {p with putProfile := profile}
    | .get => {p with getProfile := profile})

end MasterWorkloadProfile

/-- The map of profiles holds one object for each name. -/
structure MasterWorkload where
  nodes : UInt32
  duration : TimeUnit
  profiles : List MasterWorkloadProfile
  nodeProfiles : UInt32 → Option Bytes

/-! ### Lines -/

/-- What `\w` matches in the C locale. -/
def isWord (c : UInt8) : Bool := isDigit c || (65 ≤ c && c ≤ 90) || (97 ≤ c && c ≤ 122) || c == 95

/-- What a line matches, with the groups that are captured. -/
inductive ConfigLine
  | comment
  | nodes (value : Bytes)
  | duration (value : Bytes)
  | profile (name : Bytes)
  | setting (type : DhtOperation) (profile : Bytes)
  | defaultProfile (name : Bytes)
  | node (id name : Bytes)
  | other
  deriving DecidableEq

def after (literal text : Bytes) : Option Bytes :=
  if literal.isPrefixOf text then some (text.drop literal.length) else none

/-- `^literal (c+)$` for a class of characters. -/
def matchWord (literal : Bytes) (inClass : UInt8 → Bool) (text : Bytes) : Option Bytes :=
  (after literal text).filter fun group => group ≠ [] ∧ group.all inClass

/-- `\w+.*` for one of the four kinds of event. -/
def matchSetting (literal : Bytes) (text : Bytes) : Option Bytes :=
  (after literal text).filter fun group => group.head?.any isWord

/-- `^node (\w+) (\w+)$`. -/
def matchNode (text : Bytes) : Option (Bytes × Bytes) :=
  match after (ascii "node ") text with
  | none => none
  | some groups =>
    let id := groups.takeWhile isWord
    match groups.dropWhile isWord with
    | 32 :: name => if id ≠ [] ∧ name ≠ [] ∧ name.all isWord then some (id,name) else none
    | _ => none

/-- The patterns are tried in this order, on the characters before the first NUL. -/
def matchLine (line : Bytes) : ConfigLine :=
  let text := line.takeWhile (· ≠ 0)
  if line.head? = some 35 then .comment
  else if let some value := matchWord (ascii "nodes ") isDigit text then .nodes value
  else if let some value := matchWord (ascii "duration ") isDigit text then .duration value
  else if let some name := matchWord (ascii "profile ") isWord text then .profile name
  else if let some profile := matchSetting (ascii "join ") text then .setting .join profile
  else if let some profile := matchSetting (ascii "leave ") text then .setting .leave profile
  else if let some profile := matchSetting (ascii "put ") text then .setting .put profile
  else if let some profile := matchSetting (ascii "get ") text then .setting .get profile
  else if let some name := matchWord (ascii "default-profile ") isWord text then .defaultProfile name
  else if let some (id,name) := matchNode text then .node id name
  else .other

/-! ### Loading -/

namespace MasterWorkload

structure Reader where
  workload : MasterWorkload
  currentProfile : Option Bytes

def profileNamed (workload : MasterWorkload) (name : Bytes) : Option MasterWorkloadProfile :=
  workload.profiles.find? (·.name = name)

def store (workload : MasterWorkload) (profile : MasterWorkloadProfile) : MasterWorkload :=
  {workload with profiles := profile :: workload.profiles.filter (·.name ≠ profile.name)}

def castUnsigned (text : Bytes) : Except Fault UInt32 :=
  match lexicalCastUnsigned text with
  | some value => pure value
  | none => throw .exception

/-- No reader is left when the line makes the file invalid. -/
def processConfigLine (reader : Reader) (line : Bytes) : Except Fault (Option Reader) :=
  let workload := reader.workload
  match matchLine line with
  | .comment => pure (some reader)
  | .nodes value =>
    -- Only the first value counts, and none when the command line gave one.
    if workload.nodes = 0 then do
      let nodes ← castUnsigned value
      pure (some {reader with workload := {workload with nodes := nodes}})
    else pure (some reader)
  | .duration value => do
    let duration ← castUnsigned value
    pure (some {reader with workload := {workload with duration := duration}})
  | .profile name => pure (some ⟨workload.store (.make name),some name⟩)
  | .setting type profile =>
    match reader.currentProfile.bind workload.profileNamed with
    | none => pure none
    | some current => do
      let current ← current.setProfile type profile
      pure (some {reader with workload := workload.store current})
  | .defaultProfile name =>
    pure (some {reader with workload := {workload with
      nodeProfiles := fun i => if i < workload.nodes then some name else workload.nodeProfiles i}})
  | .node id name => do
    let nodeId ← castUnsigned id
    pure (some {reader with workload := {workload with
      nodeProfiles := fun i => if i = nodeId then some name else workload.nodeProfiles i}})
  | .other => pure (some reader)

def processLines : Reader → List Bytes → Except Fault (Option Reader)
  | reader,[] => pure (some reader)
  | reader,line :: lines => do
    match ← processConfigLine reader line with
    | none => pure none
    | some reader => processLines reader lines

/-- A backslash at the end of a line joins the next one to it; at the end of the file
there is nothing to join. -/
def joinLines : Bytes → List Bytes → List Bytes
  | line,[] => [stripBackslashes line]
  | line,next :: lines =>
    if line.getLast? = some 92 then joinLines (line.dropLast ++ next) lines
    else line :: joinLines next lines
where
  stripBackslashes (line : Bytes) : Bytes := (line.reverse.dropWhile (· == 92)).reverse

/-- The lines of the file, as `loadConfig` hands them to `processConfigLine`. -/
def configLines (file : Bytes) : List Bytes :=
  match file.splitOn 10 with
  | [] => []
  | line :: lines => joinLines line lines

def valid (workload : MasterWorkload) : Bool :=
  workload.nodes ≠ 0 && workload.duration ≠ 0 && workload.profiles ≠ [] &&
    workload.profiles.all (·.isComplete) &&
    (List.range workload.nodes.toNat).all fun i =>
      ((workload.nodeProfiles (UInt32.ofNat i)).bind workload.profileNamed).isSome

/-- `nodes` is the number from the command line, zero when there is none. No workload
is returned for an invalid file. -/
def loadConfig (file : Bytes) (nodes : UInt32) : Except Fault (Option MasterWorkload) := do
  match ← processLines ⟨⟨nodes,0,[],fun _ => none⟩,none⟩ (configLines file) with
  | none => pure none
  | some reader => pure (if reader.workload.valid then some reader.workload else none)

/-- A node or a profile that the maps do not have is a null pointer. -/
def getNodeProfile (workload : MasterWorkload) (nodeNumber : Nat) : Option MasterWorkloadProfile :=
  (workload.nodeProfiles (UInt32.ofNat nodeNumber)).bind workload.profileNamed

/-- Every node uses node zero as its entry point. -/
def getNodeEntryPointHost (_nodeNumber : Nat) : Nat := 0

theorem loadConfig_valid (file : Bytes) (nodes : UInt32) (workload : MasterWorkload)
    (loaded : loadConfig file nodes = .ok (some workload)) : workload.valid = true := by
  obtain ⟨read,_,ok⟩ := bind_ok loaded
  cases read with
  | none => cases ok
  | some reader =>
    by_cases good : reader.workload.valid = true
    · simp only [good,if_true] at ok
      cases ok
      exact good
    · simp only [good] at ok
      cases ok

theorem isComplete_text (p : MasterWorkloadProfile) (complete : p.isComplete = true) (op : DhtOperation) :
    p.text op ≠ [] := by
  simp only [MasterWorkloadProfile.isComplete,Bool.and_eq_true,decide_eq_true_eq] at complete
  cases op with
  | join => exact complete.1.1.1
  | leave => exact complete.1.1.2
  | put => exact complete.1.2
  | get => exact complete.2

theorem valid_complete (workload : MasterWorkload) (valid : workload.valid = true) (name : Bytes)
    (p : MasterWorkloadProfile) (found : workload.profileNamed name = some p) (op : DhtOperation) :
    p.text op ≠ [] := by
  simp only [MasterWorkload.valid,Bool.and_eq_true,List.all_eq_true] at valid
  exact isComplete_text p (valid.1.2 p (List.mem_of_find?_eq_some found)) op

theorem valid_nodes (workload : MasterWorkload) (valid : workload.valid = true) : 0 < workload.nodes.toNat := by
  simp only [MasterWorkload.valid,Bool.and_eq_true,decide_eq_true_eq,ne_eq] at valid
  refine Nat.pos_of_ne_zero fun zero => valid.1.1.1.1 ?_
  exact UInt32.toNat_inj.mp zero

theorem valid_duration (workload : MasterWorkload) (valid : workload.valid = true) :
    0 < workload.duration.toNat := by
  simp only [MasterWorkload.valid,Bool.and_eq_true,decide_eq_true_eq,ne_eq] at valid
  exact Nat.pos_of_ne_zero fun zero => valid.1.1.1.2 (UInt32.toNat_inj.mp zero)

theorem valid_profile (workload : MasterWorkload) (valid : workload.valid = true) (i : Nat)
    (node : i < workload.nodes.toNat) : ∃ profile, workload.getNodeProfile i = some profile := by
  simp only [MasterWorkload.valid,Bool.and_eq_true,List.all_eq_true,List.mem_range] at valid
  exact Option.isSome_iff_exists.mp (valid.2 i node)

end MasterWorkload
end Dhtperf
