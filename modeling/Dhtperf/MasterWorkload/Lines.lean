import Dhtperf.MasterWorkload

/-! What a workload file says about a node, in terms of its lines: the last line that
names a profile for it, and the strings in the last block of that profile. Loading the
file finds exactly these. -/
namespace Dhtperf

namespace MasterWorkload

def matchedLines (file : Bytes) : List ConfigLine := (configLines file).map matchLine

def nodesAfter (nodes : UInt32) : List ConfigLine → UInt32
  | [] => nodes
  | .nodes value :: lines =>
    nodesAfter (if nodes = 0 then (lexicalCastUnsigned value).getD 0 else nodes) lines
  | _ :: lines => nodesAfter nodes lines

def Names (nodes i : UInt32) (name : Bytes) : ConfigLine → Prop
  | .defaultProfile other => i < nodes ∧ other = name
  | .node id other => lexicalCastUnsigned id = some i ∧ other = name
  | _ => False

/-- The last line that says something about the profile of a node gives it this name. -/
def NamedBy (given : UInt32) (lines : List ConfigLine) (i : UInt32) (name : Bytes) : Prop :=
  ∃ before line rest, lines = before ++ line :: rest ∧ Names (nodesAfter given before) i name line ∧
    ∀ others last later, rest = others ++ last :: later →
      ∀ other, ¬Names (nodesAfter given (before ++ line :: others)) i other last

/-- The last block of a profile has this string for an operation. -/
def GivenBy (lines : List ConfigLine) (name : Bytes) (op : DhtOperation) (text : Bytes) : Prop :=
  ∃ before block rest, lines = before ++ .profile name :: (block ++ rest) ∧
    (∀ other, .profile other ∉ block) ∧ .setting op text ∈ block ∧ .profile name ∉ rest

theorem nodesAfter_append (nodes : UInt32) (lines more : List ConfigLine) :
    nodesAfter nodes (lines ++ more) = nodesAfter (nodesAfter nodes lines) more := by
  induction lines generalizing nodes with
  | nil => rfl
  | cons line lines ih => cases line <;> exact ih _

/-! ### One more line -/

theorem NamedBy.keep (given : UInt32) (lines : List ConfigLine) (i : UInt32) (name : Bytes) (line : ConfigLine)
    (silent : ∀ other, ¬Names (nodesAfter given lines) i other line) (named : NamedBy given lines i name) :
    NamedBy given (lines ++ [line]) i name := by
  obtain ⟨before,namer,rest,rfl,names,last⟩ := named
  refine ⟨before,namer,rest ++ [line],by simp,names,?_⟩
  intro others final later split
  rcases List.eq_nil_or_concat later with rfl | ⟨later,end_,rfl⟩
  · obtain ⟨rfl,same⟩ := List.append_inj' split rfl
    cases same
    exact silent
  · have inside : rest ++ [line] = (others ++ final :: later) ++ [end_] := by simpa using split
    exact last others final later (List.append_inj' inside rfl).1

theorem NamedBy.new (given : UInt32) (lines : List ConfigLine) (i : UInt32) (name : Bytes) (line : ConfigLine)
    (names : Names (nodesAfter given lines) i name line) : NamedBy given (lines ++ [line]) i name :=
  ⟨lines,line,[],rfl,names,fun others last later split => by simp at split⟩

theorem GivenBy.keep (lines : List ConfigLine) (name : Bytes) (op : DhtOperation) (text : Bytes)
    (line : ConfigLine) (other : line ≠ .profile name) (known : GivenBy lines name op text) :
    GivenBy (lines ++ [line]) name op text := by
  obtain ⟨before,block,rest,rfl,closed,member,last⟩ := known
  refine ⟨before,block,rest ++ [line],by simp,closed,member,?_⟩
  rw [List.mem_append,List.mem_singleton]
  rintro (again | rfl)
  · exact last again
  · exact other rfl

def Open (lines : List ConfigLine) (name : Bytes) : Prop :=
  ∃ before block, lines = before ++ .profile name :: block ∧ ∀ other, .profile other ∉ block

theorem Open.keep (lines : List ConfigLine) (name : Bytes) (line : ConfigLine)
    (other : ∀ name, line ≠ .profile name) (block : Open lines name) : Open (lines ++ [line]) name := by
  obtain ⟨before,block,rfl,closed⟩ := block
  refine ⟨before,block ++ [line],by simp,fun name member => ?_⟩
  rcases List.mem_append.mp member with old | new
  · exact closed name old
  · exact other name (List.mem_singleton.mp new).symm

theorem Open.setting (lines : List ConfigLine) (name : Bytes) (op : DhtOperation) (text : Bytes)
    (block : Open lines name) : GivenBy (lines ++ [.setting op text]) name op text := by
  obtain ⟨before,block,rfl,closed⟩ := block
  refine ⟨before,block ++ [.setting op text],[],by simp,fun other member => ?_,by simp,by simp⟩
  rcases List.mem_append.mp member with old | new
  · exact closed other old
  · cases List.mem_singleton.mp new

/-! ### The reader -/

theorem profileNamed_name (workload : MasterWorkload) (name : Bytes) (p : MasterWorkloadProfile)
    (found : workload.profileNamed name = some p) : p.name = name := by
  unfold profileNamed at found
  simpa using List.find?_some found

theorem profileNamed_store (workload : MasterWorkload) (p : MasterWorkloadProfile) (name : Bytes) :
    (workload.store p).profileNamed name = if p.name = name then some p else workload.profileNamed name := by
  unfold profileNamed store
  rw [List.find?_cons]
  by_cases same : p.name = name
  · simp [same]
  · rw [decide_eq_false same,if_neg same]
    simp only
    rw [List.find?_filter]
    refine congrArg (fun keep => List.find? keep workload.profiles) (funext fun q => ?_)
    by_cases here : q.name = name
    · simp [here,Ne.symm same]
    · simp [here]

theorem text_setProfile (p after : MasterWorkloadProfile) (type op : DhtOperation) (profile : Bytes)
    (ok : p.setProfile type profile = .ok after) :
    after.name = p.name ∧ after.text op = if op = type then profile else p.text op := by
  unfold MasterWorkloadProfile.setProfile at ok
  split at ok
  · cases ok
  · cases ok
    cases type <;> cases op <;> exact ⟨rfl,rfl⟩

structure Faithful (given : UInt32) (lines : List ConfigLine) (reader : Reader) : Prop where
  nodes : reader.workload.nodes = nodesAfter given lines
  named : ∀ i name, reader.workload.nodeProfiles i = some name → NamedBy given lines i name
  texts : ∀ name p, reader.workload.profileNamed name = some p →
    ∀ op, p.text op ≠ [] → GivenBy lines name op (p.text op)
  current : ∀ name, reader.currentProfile = some name → Open lines name

theorem Faithful.start (given : UInt32) : Faithful given [] ⟨⟨given,0,[],fun _ => none⟩,none⟩ :=
  ⟨rfl,by simp,by simp [profileNamed],by simp⟩

theorem Faithful.aside (given : UInt32) (lines : List ConfigLine) (reader after : Reader) (line : ConfigLine)
    (silent : ∀ i other, ¬Names (nodesAfter given lines) i other line)
    (outside : ∀ name, line ≠ .profile name) (nodes : after.workload.nodes = nodesAfter given (lines ++ [line]))
    (assigned : after.workload.nodeProfiles = reader.workload.nodeProfiles)
    (profiles : after.workload.profiles = reader.workload.profiles)
    (block : after.currentProfile = reader.currentProfile) (faithful : Faithful given lines reader) :
    Faithful given (lines ++ [line]) after where
  nodes := nodes
  named := fun i name found => (faithful.named i name (assigned ▸ found)).keep given lines i name line (silent i)
  texts := fun name p found op some => by
    have found : reader.workload.profileNamed name = .some p := by
      rw [← found,profileNamed,profileNamed,profiles]
    exact (faithful.texts name p found op some).keep lines name op _ line (outside name)
  current := fun name found => (faithful.current name (block ▸ found)).keep lines name line outside

theorem Faithful.assign (given : UInt32) (lines : List ConfigLine) (reader : Reader) (line : ConfigLine)
    (concerns : UInt32 → Prop) [DecidablePred concerns] (name : Bytes) (outside : ∀ name, line ≠ .profile name)
    (nodes : nodesAfter given (lines ++ [line]) = nodesAfter given lines)
    (names : ∀ i other, Names (nodesAfter given lines) i other line ↔ concerns i ∧ name = other)
    (faithful : Faithful given lines reader) :
    Faithful given (lines ++ [line]) {reader with workload := {reader.workload with
      nodeProfiles := fun i => if concerns i then some name else reader.workload.nodeProfiles i}} where
  nodes := faithful.nodes.trans nodes.symm
  named := fun i other found => by
    simp only at found
    split at found
    next here =>
      cases found
      exact NamedBy.new given lines i name line ((names i name).mpr ⟨here,rfl⟩)
    next elsewhere =>
      exact (faithful.named i other found).keep given lines i other line fun another said =>
        elsewhere ((names i another).mp said).1
  texts := fun other p found op some => (faithful.texts other p found op some).keep lines other op _ line
    (outside other)
  current := fun other found => (faithful.current other found).keep lines other line outside

theorem Faithful.profile (given : UInt32) (lines : List ConfigLine) (reader : Reader) (name : Bytes)
    (faithful : Faithful given lines reader) :
    Faithful given (lines ++ [.profile name]) ⟨reader.workload.store (.make name),some name⟩ := by
  refine ⟨faithful.nodes.trans (nodesAfter_append given lines [.profile name]).symm,?_,?_,?_⟩
  · exact fun i other found => (faithful.named i other found).keep given lines i other _ fun _ => id
  · intro other p found op some
    rw [profileNamed_store] at found
    split at found
    next => cases found; cases op <;> exact absurd rfl some
    next different =>
      exact (faithful.texts other p found op some).keep lines other op _ _ fun same =>
        different (ConfigLine.profile.inj same)
  · rintro other ⟨⟩
    exact ⟨lines,[],rfl,fun _ => List.not_mem_nil⟩

theorem Faithful.setting (given : UInt32) (lines : List ConfigLine) (reader : Reader) (type : DhtOperation)
    (profile : Bytes) (current changed : MasterWorkloadProfile)
    (here : reader.currentProfile.bind reader.workload.profileNamed = some current)
    (set : current.setProfile type profile = .ok changed) (faithful : Faithful given lines reader) :
    Faithful given (lines ++ [.setting type profile]) {reader with workload := reader.workload.store changed} := by
  obtain ⟨name,block,found⟩ := Option.bind_eq_some_iff.mp here
  have named := profileNamed_name reader.workload name current found
  refine ⟨faithful.nodes.trans (nodesAfter_append given lines [.setting type profile]).symm,?_,?_,?_⟩
  · exact fun i other found => (faithful.named i other found).keep given lines i other _ fun _ => id
  · intro other p found' op some
    rw [profileNamed_store] at found'
    split at found'
    next same =>
      cases found'
      obtain ⟨kept,text⟩ := text_setProfile current changed type op profile set
      have same : name = other := named.symm.trans (kept.symm.trans same)
      subst same
      rw [text] at some ⊢
      split
      next equal =>
        subst equal
        exact (faithful.current name block).setting lines name op profile
      next different =>
        rw [if_neg different] at some
        exact (faithful.texts name current found op some).keep lines name op _ _ nofun
    next => exact (faithful.texts other p found' op some).keep lines other op _ _ nofun
  · exact fun other found => (faithful.current other found).keep lines other _ nofun

theorem castUnsigned_ok (text : Bytes) (value : UInt32) (ok : castUnsigned text = .ok value) :
    lexicalCastUnsigned text = some value := by
  unfold castUnsigned at ok
  split at ok
  next found =>
    cases ok
    exact found
  next => cases ok

theorem processConfigLine_faithful (given : UInt32) (lines : List ConfigLine) (reader after : Reader) (line : Bytes)
    (ok : processConfigLine reader line = .ok (some after)) (faithful : Faithful given lines reader) :
    Faithful given (lines ++ [matchLine line]) after := by
  unfold processConfigLine at ok
  simp only at ok
  cases kind : matchLine line with
  | comment =>
    rw [kind] at ok
    cases ok
    exact faithful.aside given lines reader _ _ (fun _ _ => id) nofun
      (faithful.nodes.trans (nodesAfter_append given lines [.comment]).symm) rfl rfl rfl
  | other =>
    rw [kind] at ok
    cases ok
    exact faithful.aside given lines reader _ _ (fun _ _ => id) nofun
      (faithful.nodes.trans (nodesAfter_append given lines [.other]).symm) rfl rfl rfl
  | nodes value =>
    rw [kind] at ok
    simp only at ok
    split at ok
    next first =>
      obtain ⟨count,cast,ok⟩ := bind_ok ok
      cases ok
      refine faithful.aside given lines reader _ _ (fun _ _ => id) nofun ?_ rfl rfl rfl
      rw [nodesAfter_append,← faithful.nodes,nodesAfter,if_pos first,castUnsigned_ok value count cast]
      rfl
    next later =>
      cases ok
      refine faithful.aside given lines reader _ _ (fun _ _ => id) nofun ?_ rfl rfl rfl
      rw [nodesAfter_append,← faithful.nodes,nodesAfter,if_neg later]
      rfl
  | duration value =>
    rw [kind] at ok
    obtain ⟨duration,cast,ok⟩ := bind_ok ok
    cases ok
    exact faithful.aside given lines reader _ _ (fun _ _ => id) nofun
      (faithful.nodes.trans (nodesAfter_append given lines [.duration value]).symm) rfl rfl rfl
  | profile name =>
    rw [kind] at ok
    cases ok
    exact faithful.profile given lines reader name
  | setting type profile =>
    rw [kind] at ok
    simp only at ok
    split at ok
    next => cases ok
    next current here =>
      obtain ⟨changed,set,ok⟩ := bind_ok ok
      cases ok
      exact faithful.setting given lines reader type profile current changed here set
  | defaultProfile name =>
    rw [kind] at ok
    cases ok
    refine faithful.assign given lines reader _ (· < reader.workload.nodes) name nofun ?_ ?_
    · exact nodesAfter_append given lines [.defaultProfile name]
    · intro i other
      rw [faithful.nodes]
      exact Iff.rfl
  | node id name =>
    rw [kind] at ok
    obtain ⟨nodeId,cast,ok⟩ := bind_ok ok
    cases ok
    refine faithful.assign given lines reader _ (· = nodeId) name nofun ?_ ?_
    · exact nodesAfter_append given lines [.node id name]
    · intro i other
      rw [Names,castUnsigned_ok id nodeId cast,Option.some.injEq,eq_comm]

theorem processLines_faithful (given : UInt32) (done : List ConfigLine) (reader after : Reader) (lines : List Bytes)
    (ok : processLines reader lines = .ok (some after)) (faithful : Faithful given done reader) :
    Faithful given (done ++ lines.map matchLine) after := by
  induction lines generalizing done reader with
  | nil =>
    cases ok
    simpa using faithful
  | cons line lines ih =>
    obtain ⟨next,here,ok⟩ := bind_ok ok
    cases next with
    | none => cases ok
    | some next =>
      have rest := ih (done ++ [matchLine line]) next ok
        (processConfigLine_faithful given done reader next line here faithful)
      simpa using rest

/-- The profile of a node, as the file gives it: the last line about the node names it, and
its four strings come from the last block of that name. -/
theorem getNodeProfile_given (file : Bytes) (given : UInt32) (workload : MasterWorkload)
    (loaded : loadConfig file given = .ok (some workload)) (i : Nat) (node : i < workload.nodes.toNat)
    (p : MasterWorkloadProfile) (profile : workload.getNodeProfile i = some p) :
    NamedBy given (matchedLines file) (UInt32.ofNat i) p.name ∧
      ∀ op, GivenBy (matchedLines file) p.name op (p.text op) := by
  have valid := loadConfig_valid file given workload loaded
  obtain ⟨read,lines,ok⟩ := bind_ok loaded
  cases read with
  | none => cases ok
  | some reader =>
    have same : reader.workload = workload := by
      simp only at ok
      split at ok
      · cases ok
        rfl
      · cases ok
    have faithful := processLines_faithful given [] _ reader (configLines file) lines (Faithful.start given)
    rw [List.nil_append] at faithful
    obtain ⟨name,named,found⟩ := Option.bind_eq_some_iff.mp profile
    rw [← same] at named found valid
    have identity := profileNamed_name reader.workload name p found
    subst identity
    refine ⟨faithful.named _ p.name named,fun op => faithful.texts p.name p found op ?_⟩
    exact valid_complete reader.workload valid p.name p found op

/-- A loaded workload has nodes and a duration, and for every node both maps have an entry
and the profile has its four strings, so no lookup inserts anything. -/
theorem loaded_nodes (file : Bytes) (given : UInt32) (workload : MasterWorkload)
    (loaded : loadConfig file given = .ok (some workload)) :
    0 < workload.nodes.toNat ∧ 0 < workload.duration.toNat ∧
      ∀ i < workload.nodes.toNat, ∃ name p, workload.nodeProfiles (UInt32.ofNat i) = some name ∧
        workload.profileNamed name = some p ∧ workload.getNodeProfile i = some p ∧ ∀ op, p.text op ≠ [] := by
  have valid := loadConfig_valid file given workload loaded
  refine ⟨valid_nodes workload valid,valid_duration workload valid,fun i node => ?_⟩
  obtain ⟨p,profile⟩ := valid_profile workload valid i node
  obtain ⟨name,named,found⟩ := Option.bind_eq_some_iff.mp profile
  exact ⟨name,p,named,found,profile,fun op => valid_complete workload valid name p found op⟩

def redefinedFile : Bytes :=
  ascii "nodes 2\nduration 10\nprofile p\njoin exact 0\ndefault-profile p\nprofile p\njoin exact 1\nleave none\nput none\nget none\n"

theorem redefined_nodes : ∃ workload, loadConfig redefinedFile 0 = .ok (some workload) ∧ workload.nodes = 2 ∧
    0 < workload.duration.toNat ∧ ∀ i < 2, ∃ name p, workload.nodeProfiles (UInt32.ofNat i) = some name ∧
      workload.profileNamed name = some p ∧ workload.getNodeProfile i = some p ∧ ∀ op, p.text op ≠ [] := by
  obtain ⟨read,ok,shape⟩ := ok_of_any (loadConfig redefinedFile 0) (fun read => read.any (·.nodes = 2))
    (by decide +kernel)
  cases read with
  | none => cases shape
  | some workload =>
    have two : workload.nodes = 2 := of_decide_eq_true shape
    obtain ⟨_,duration,each⟩ := loaded_nodes redefinedFile 0 workload ok
    rw [two] at each
    exact ⟨workload,ok,two,duration,each⟩

end MasterWorkload
end Dhtperf
