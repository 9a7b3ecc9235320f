import Dhtperf.MasterWorkload.Forms

/-! Which files are rejected. The loader stops at three kinds of lines, at one of them
with `false`; when no line stops it, the checks behind the last line decide. Lines that match
no pattern do neither. -/
namespace Dhtperf
open Library

def Matched (text : Bytes) : ConfigLine → Prop
  | .nodes value => after (ascii "nodes ") text = some value
  | .duration value => after (ascii "duration ") text = some value
  | .node id name => matchNode text = some (id,name)
  | .setting _ profile => profile ≠ []
  | _ => True

theorem matchSetting_some {literal text profile : Bytes} (found : matchSetting literal text = some profile) :
    profile ≠ [] := by
  rintro rfl
  cases (Option.filter_eq_some_iff.mp found).2

theorem matchLine_matched (line : Bytes) : Matched (line.takeWhile (· ≠ 0)) (matchLine line) := by
  unfold matchLine
  simp only
  split
  next => trivial
  split
  next value found => exact matchWord_some found
  split
  next value found => exact matchWord_some found
  split
  next => trivial
  split
  next profile found => exact matchSetting_some found
  split
  next profile found => exact matchSetting_some found
  split
  next profile found => exact matchSetting_some found
  split
  next profile found => exact matchSetting_some found
  split
  next => trivial
  split
  next id name found => exact found
  next => trivial

namespace MasterWorkload

/-! ### Lines that stop the loader -/

def Orphan (before : List ConfigLine) : ConfigLine → Prop
  | .setting _ _ => ∀ name, .profile name ∉ before
  | _ => False

def Repeated (before : List ConfigLine) : ConfigLine → Prop
  | .setting op _ => ∃ name text, Open before name ∧ GivenBy before name op text
  | _ => False

def Unconvertible (given : UInt32) (before : List ConfigLine) : ConfigLine → Prop
  | .nodes value => nodesAfter given before = 0 ∧ lexicalCastUnsigned value = none
  | .duration value => lexicalCastUnsigned value = none
  | .node id _ => lexicalCastUnsigned id = none
  | _ => False

inductive Ends (given : UInt32) (before : List ConfigLine) (line : ConfigLine) : Except Fault (Option Reader) → Prop
  | orphan (why : Orphan before line) : Ends given before line (.ok none)
  | repeated (why : Repeated before line) : Ends given before line (.error .exit)
  | unconvertible (why : Unconvertible given before line) : Ends given before line (.error .exception)

def Passes (given : UInt32) (before : List ConfigLine) (line : ConfigLine) : Prop :=
  ¬Orphan before line ∧ ¬Repeated before line ∧ ¬Unconvertible given before line

def AllPass (given : UInt32) : List ConfigLine → List ConfigLine → Prop
  | _,[] => True
  | done,line :: lines => Passes given done line ∧ AllPass given (done ++ [line]) lines

def durationAfter (duration : TimeUnit) : List ConfigLine → TimeUnit
  | [] => duration
  | .duration value :: lines => durationAfter ((lexicalCastUnsigned value).getD 0) lines
  | _ :: lines => durationAfter duration lines

/-- What the checks behind the last line want of the lines. -/
structure Sufficient (given : UInt32) (lines : List ConfigLine) : Prop where
  nodes : nodesAfter given lines ≠ 0
  duration : durationAfter 0 lines ≠ 0
  profiles : ∃ name, .profile name ∈ lines
  texts : ∀ name, .profile name ∈ lines → ∀ op, ∃ text, GivenBy lines name op text
  named : ∀ i < nodesAfter given lines, ∃ name, NamedBy given lines i name ∧ .profile name ∈ lines

/-- The first line that stops the loader is a setting before the first profile, or no line
stops it and a check fails. -/
def Rejected (given : UInt32) (lines : List ConfigLine) : Prop :=
  (∃ before line rest, lines = before ++ line :: rest ∧ AllPass given [] before ∧ Orphan before line) ∨
    (AllPass given [] lines ∧ ¬Sufficient given lines)

theorem durationAfter_append (duration : TimeUnit) (lines more : List ConfigLine) :
    durationAfter duration (lines ++ more) = durationAfter (durationAfter duration lines) more := by
  induction lines generalizing duration with
  | nil => rfl
  | cons line lines ih => cases line <;> exact ih _

theorem AllPass.append (given : UInt32) (done first second : List ConfigLine) :
    AllPass given done (first ++ second) ↔ AllPass given done first ∧ AllPass given (done ++ first) second := by
  induction first generalizing done with
  | nil => simp [AllPass]
  | cons line first ih =>
    rw [List.cons_append,AllPass,AllPass,ih,List.append_assoc,and_assoc]
    rfl

/-! ### The other half of what the reader knows -/

theorem NamedBy.split (given : UInt32) (lines : List ConfigLine) (i : UInt32) (name : Bytes) (line : ConfigLine)
    (named : NamedBy given (lines ++ [line]) i name) : Names (nodesAfter given lines) i name line ∨
      ((∀ other, ¬Names (nodesAfter given lines) i other line) ∧ NamedBy given lines i name) := by
  obtain ⟨before,namer,rest,same,names,last⟩ := named
  rcases List.eq_nil_or_concat' rest with rfl | ⟨rest,final,rfl⟩
  · obtain ⟨rfl,equal⟩ := List.append_inj' same rfl
    cases equal
    exact Or.inl names
  · rw [← List.cons_append,← List.append_assoc] at same
    obtain ⟨rfl,equal⟩ := List.append_inj' same rfl
    cases equal
    refine Or.inr ⟨last rest line [] rfl,before,namer,rest,rfl,names,?_⟩
    intro others final later shape
    exact last others final (later ++ [line]) (by rw [shape,List.append_assoc,List.cons_append])

theorem Open.split (lines : List ConfigLine) (name : Bytes) (line : ConfigLine) (block : Open (lines ++ [line]) name) :
    line = .profile name ∨ ((∀ other, line ≠ .profile other) ∧ Open lines name) := by
  obtain ⟨before,block,same,closed⟩ := block
  rcases List.eq_nil_or_concat' block with rfl | ⟨block,final,rfl⟩
  · obtain ⟨rfl,equal⟩ := List.append_inj' same rfl
    cases equal
    exact Or.inl rfl
  · rw [← List.cons_append,← List.append_assoc] at same
    obtain ⟨rfl,equal⟩ := List.append_inj' same rfl
    cases equal
    refine Or.inr ⟨fun other profile => closed other (by simp [profile]),before,block,rfl,fun other inside => ?_⟩
    exact closed other (List.mem_append_left _ inside)

theorem GivenBy.split (lines : List ConfigLine) (name : Bytes) (op : DhtOperation) (text : Bytes) (line : ConfigLine)
    (known : GivenBy (lines ++ [line]) name op text) :
    (line ≠ .profile name ∧ GivenBy lines name op text) ∨ (line = .setting op text ∧ Open lines name) := by
  obtain ⟨before,block,rest,same,closed,member,last⟩ := known
  rcases List.eq_nil_or_concat' rest with rfl | ⟨rest,final,rfl⟩
  · rcases List.eq_nil_or_concat' block with rfl | ⟨block,final,rfl⟩
    · cases member
    · rw [List.append_nil,← List.cons_append,← List.append_assoc] at same
      obtain ⟨rfl,equal⟩ := List.append_inj' same rfl
      cases equal
      have shut : ∀ other, .profile other ∉ block := fun other inside => closed other (List.mem_append_left _ inside)
      rcases List.mem_append.mp member with old | new
      · refine Or.inl ⟨fun profile => closed name (by simp [profile]),before,block,[],?_,shut,old,List.not_mem_nil⟩
        rw [List.append_nil]
      · exact Or.inr ⟨(List.mem_singleton.mp new).symm,before,block,rfl,shut⟩
  · rw [← List.append_assoc,← List.cons_append,← List.append_assoc] at same
    obtain ⟨rfl,equal⟩ := List.append_inj' same rfl
    cases equal
    refine Or.inl ⟨fun profile => last (by simp [profile]),before,block,rest,rfl,closed,member,fun inside => ?_⟩
    exact last (List.mem_append_left _ inside)

structure Complete (given : UInt32) (lines : List ConfigLine) (reader : Reader) : Prop where
  duration : reader.workload.duration = durationAfter 0 lines
  distinct : (reader.workload.profiles.map (·.name)).Nodup
  named : ∀ i name, NamedBy given lines i name → reader.workload.nodeProfiles i = some name
  profiles : ∀ name, (reader.workload.profileNamed name).isSome ↔ .profile name ∈ lines
  texts : ∀ name op text, GivenBy lines name op text →
    ∃ p, reader.workload.profileNamed name = some p ∧ p.text op ≠ []
  current : ∀ name, Open lines name → reader.currentProfile = some name

theorem Complete.start (given : UInt32) : Complete given [] ⟨⟨given,0,[],fun _ => none⟩,none⟩ := by
  refine ⟨rfl,List.nodup_nil,?_,by simp [profileNamed],?_,?_⟩
  · rintro i name ⟨before,line,rest,same,_⟩
    simp at same
  · rintro name op text ⟨before,block,rest,same,_⟩
    simp at same
  · rintro name ⟨before,block,same,_⟩
    simp at same

theorem store_distinct (workload : MasterWorkload) (p : MasterWorkloadProfile)
    (distinct : (workload.profiles.map (·.name)).Nodup) : ((workload.store p).profiles.map (·.name)).Nodup := by
  rw [store,List.map_cons,List.nodup_cons]
  refine ⟨?_,distinct.sublist (List.filter_sublist.map _)⟩
  simp

theorem Complete.aside (given : UInt32) (lines : List ConfigLine) (reader after : Reader) (line : ConfigLine)
    (silent : ∀ i other, ¬Names (nodesAfter given lines) i other line) (outside : ∀ name, line ≠ .profile name)
    (unset : ∀ op text, line ≠ .setting op text) (duration : after.workload.duration = durationAfter 0 (lines ++ [line]))
    (assigned : after.workload.nodeProfiles = reader.workload.nodeProfiles)
    (profiles : after.workload.profiles = reader.workload.profiles)
    (block : after.currentProfile = reader.currentProfile) (complete : Complete given lines reader) :
    Complete given (lines ++ [line]) after := by
  have lookup : after.workload.profileNamed = reader.workload.profileNamed := by
    ext1 name
    rw [profileNamed,profileNamed,profiles]
  refine ⟨duration,profiles ▸ complete.distinct,?_,?_,?_,?_⟩
  · intro i name named
    rw [assigned]
    exact complete.named i name ((named.split given lines i name line).resolve_left (silent i name)).2
  · intro name
    rw [lookup,complete.profiles name,List.mem_append,List.mem_singleton]
    exact ⟨Or.inl,fun either => either.resolve_right (outside name).symm⟩
  · intro name op text known
    rw [lookup]
    exact complete.texts name op text
      ((known.split lines name op text line).resolve_right fun new => unset op text new.1).2
  · intro name opened
    rw [block]
    exact complete.current name ((opened.split lines name line).resolve_left (outside name)).2

theorem Complete.assign (given : UInt32) (lines : List ConfigLine) (reader : Reader) (line : ConfigLine)
    (concerns : UInt32 → Prop) [DecidablePred concerns] (name : Bytes) (outside : ∀ name, line ≠ .profile name)
    (unset : ∀ op text, line ≠ .setting op text) (duration : durationAfter 0 (lines ++ [line]) = durationAfter 0 lines)
    (names : ∀ i other, Names (nodesAfter given lines) i other line ↔ concerns i ∧ name = other)
    (complete : Complete given lines reader) :
    Complete given (lines ++ [line]) {reader with workload := {reader.workload with
      nodeProfiles := fun i => if concerns i then some name else reader.workload.nodeProfiles i}} := by
  refine ⟨complete.duration.trans duration.symm,complete.distinct,?_,?_,?_,?_⟩
  · intro i other named
    rcases named.split given lines i other line with new | ⟨silent,old⟩
    · obtain ⟨here,rfl⟩ := (names i other).mp new
      exact if_pos here
    · have elsewhere : ¬concerns i := fun here => silent name ((names i name).mpr ⟨here,rfl⟩)
      exact (if_neg elsewhere).trans (complete.named i other old)
  · intro other
    rw [List.mem_append,List.mem_singleton]
    exact (complete.profiles other).trans ⟨Or.inl,fun either => either.resolve_right (outside other).symm⟩
  · intro other op text known
    exact complete.texts other op text
      ((known.split lines other op text line).resolve_right fun new => unset op text new.1).2
  · intro other opened
    exact complete.current other ((opened.split lines other line).resolve_left (outside other)).2

theorem Complete.profile (given : UInt32) (lines : List ConfigLine) (reader : Reader) (name : Bytes)
    (complete : Complete given lines reader) :
    Complete given (lines ++ [.profile name]) ⟨reader.workload.store (.make name),some name⟩ := by
  refine ⟨?_,store_distinct _ _ complete.distinct,?_,?_,?_,?_⟩
  · exact complete.duration.trans (durationAfter_append 0 lines [.profile name]).symm
  · intro i other named
    exact complete.named i other ((named.split given lines i other _).resolve_left id).2
  · intro other
    rw [profileNamed_store,List.mem_append,List.mem_singleton]
    by_cases same : (MasterWorkloadProfile.make name).name = other
    · rw [if_pos same]
      exact iff_of_true rfl (Or.inr (congrArg ConfigLine.profile same.symm))
    · rw [if_neg same,complete.profiles other]
      exact ⟨Or.inl,fun either => either.resolve_right fun equal => same (ConfigLine.profile.inj equal).symm⟩
  · intro other op text known
    obtain ⟨different,old⟩ := (known.split lines other op text _).resolve_right fun new => nomatch new.1
    have elsewhere : ¬(MasterWorkloadProfile.make name).name = other := fun same =>
      different (congrArg ConfigLine.profile same)
    rw [profileNamed_store,if_neg elsewhere]
    exact complete.texts other op text old
  · intro other opened
    obtain same | other := opened.split lines other _
    · exact congrArg some (ConfigLine.profile.inj same)
    · exact absurd rfl (other.1 name)

theorem Complete.setting (given : UInt32) (lines : List ConfigLine) (reader : Reader) (type : DhtOperation)
    (profile name : Bytes) (current changed : MasterWorkloadProfile) (some : profile ≠ [])
    (block : reader.currentProfile = .some name) (found : reader.workload.profileNamed name = .some current)
    (set : current.setProfile type profile = .ok changed) (complete : Complete given lines reader) :
    Complete given (lines ++ [.setting type profile]) {reader with workload := reader.workload.store changed} := by
  have named := profileNamed_name reader.workload name current found
  have kept : changed.name = name := (text_setProfile current changed type type profile set).1.trans named
  refine ⟨?_,store_distinct _ _ complete.distinct,?_,?_,?_,?_⟩
  · exact complete.duration.trans (durationAfter_append 0 lines [.setting type profile]).symm
  · intro i other said
    exact complete.named i other ((said.split given lines i other _).resolve_left id).2
  · intro other
    have old := complete.profiles other
    rw [profileNamed_store,List.mem_append,List.mem_singleton]
    by_cases same : changed.name = other
    · rw [if_pos same]
      have here : (reader.workload.profileNamed other).isSome := by rw [← same,kept,found]; rfl
      exact iff_of_true rfl (Or.inl (old.mp here))
    · rw [if_neg same,old]
      exact ⟨Or.inl,fun either => either.resolve_right nofun⟩
  · intro other op text known
    rw [profileNamed_store]
    by_cases same : changed.name = other
    · rw [if_pos same]
      refine ⟨changed,rfl,?_⟩
      rw [(text_setProfile current changed type op profile set).2]
      split
      next => exact some
      next different =>
        obtain ⟨_,old⟩ := (known.split lines other op text _).resolve_right fun new =>
          different (ConfigLine.setting.inj new.1).1.symm
        obtain ⟨p,there,text⟩ := complete.texts other op text old
        rw [← same,kept,found] at there
        cases there
        exact text
    · rw [if_neg same]
      obtain ⟨_,old⟩ | ⟨_,opened⟩ := known.split lines other op text _
      · exact complete.texts other op text old
      · have here := block.symm.trans (complete.current other opened)
        exact absurd (kept.trans (Option.some.inj here)) same
  · intro other opened
    exact complete.current other ((opened.split lines other _).resolve_left nofun).2

/-! ### One line -/

theorem castUnsigned_cases (text : Bytes) :
    (∃ value, lexicalCastUnsigned text = some value ∧ castUnsigned text = .ok value) ∨
      (lexicalCastUnsigned text = none ∧ castUnsigned text = .error .exception) := by
  unfold castUnsigned
  cases lexicalCastUnsigned text with
  | some value => exact Or.inl ⟨value,rfl,rfl⟩
  | none => exact Or.inr ⟨rfl,rfl⟩

theorem setProfile_cases (p : MasterWorkloadProfile) (type : DhtOperation) (profile : Bytes) :
    (p.text type = [] ∧ ∃ changed, p.setProfile type profile = .ok changed) ∨
      (p.text type ≠ [] ∧ p.setProfile type profile = .error .exit) := by
  unfold MasterWorkloadProfile.setProfile
  by_cases unset : p.text type = []
  · rw [if_neg (not_not.mpr unset)]
    exact Or.inl ⟨unset,_,rfl⟩
  · rw [if_pos unset]
    exact Or.inr ⟨unset,rfl⟩

theorem opened_somewhere (lines : List ConfigLine) (name : Bytes) (member : .profile name ∈ lines) :
    ∃ other, Open lines other := by
  induction lines using List.reverseRecOn with
  | nil => cases member
  | append_singleton lines line ih =>
    by_cases starts : ∃ other, line = .profile other
    · obtain ⟨other,rfl⟩ := starts
      exact ⟨other,lines,[],rfl,fun _ => List.not_mem_nil⟩
    · have outside : ∀ other, line ≠ .profile other := fun other same => starts ⟨other,same⟩
      rw [List.mem_append,List.mem_singleton] at member
      obtain ⟨other,opened⟩ := ih (member.resolve_right (outside name).symm)
      exact ⟨other,opened.keep lines other line outside⟩

/-- A line is passed with all that it says, or the loader ends at it. -/
def Outcome (given : UInt32) (lines : List ConfigLine) (line : ConfigLine) (result : Except Fault (Option Reader)) :
    Prop :=
  (Passes given lines line ∧ ∃ after, result = .ok (some after) ∧ Complete given (lines ++ [line]) after) ∨
    Ends given lines line result

theorem setting_outcome (given : UInt32) (lines : List ConfigLine) (reader : Reader) (line : Bytes)
    (type : DhtOperation) (profile : Bytes) (kind : matchLine line = .setting type profile) (some : profile ≠ [])
    (faithful : Faithful given lines reader) (complete : Complete given lines reader) :
    Outcome given lines (.setting type profile) (processConfigLine reader line) := by
  unfold processConfigLine
  simp only [kind]
  cases block : reader.currentProfile with
  | none =>
    refine Or.inr (.orphan fun name member => ?_)
    obtain ⟨other,opened⟩ := opened_somewhere lines name member
    exact absurd (block.symm.trans (complete.current other opened)) nofun
  | some name =>
    have opened := faithful.current name block
    have member : .profile name ∈ lines := by
      obtain ⟨before,rest,rfl,_⟩ := opened
      simp
    obtain ⟨current,found⟩ := Option.isSome_iff_exists.mp ((complete.profiles name).mpr member)
    simp only [Option.bind_some,found]
    obtain ⟨unset,changed,set⟩ | ⟨set,failed⟩ := setProfile_cases current type profile
    · refine Or.inl ⟨⟨fun orphan => orphan name member,?_,id⟩,_,?_,
        complete.setting given lines reader type profile name current changed some block found set⟩
      · rintro ⟨other,text,again,known⟩
        obtain ⟨p,there,text⟩ := complete.texts other type text known
        have same := block.symm.trans (complete.current other again)
        cases same
        rw [found] at there
        cases there
        exact text unset
      · rw [set,block]
        rfl
    · rw [failed]
      exact Or.inr (.repeated ⟨name,_,opened,faithful.texts name current found type set⟩)

theorem processConfigLine_outcome (given : UInt32) (lines : List ConfigLine) (reader : Reader) (line : Bytes)
    (faithful : Faithful given lines reader) (complete : Complete given lines reader) :
    Outcome given lines (matchLine line) (processConfigLine reader line) := by
  have matched := matchLine_matched line
  have free {kind : ConfigLine} (still : ∀ op text, kind ≠ .setting op text) (fine : ¬Unconvertible given lines kind) :
      Passes given lines kind := by
    cases kind with
    | setting op text => exact absurd rfl (still op text)
    | _ => exact ⟨id,id,fine⟩
  cases kind : matchLine line with
  | setting type profile =>
    rw [kind] at matched
    exact setting_outcome given lines reader line type profile kind matched faithful complete
  | comment =>
    refine Or.inl ⟨free nofun id,reader,by simp [processConfigLine,kind]; rfl,?_⟩
    exact complete.aside given lines reader _ _ (fun _ _ => id) nofun nofun
      (complete.duration.trans (durationAfter_append 0 lines [.comment]).symm) rfl rfl rfl
  | other =>
    refine Or.inl ⟨free nofun id,reader,by simp [processConfigLine,kind]; rfl,?_⟩
    exact complete.aside given lines reader _ _ (fun _ _ => id) nofun nofun
      (complete.duration.trans (durationAfter_append 0 lines [.other]).symm) rfl rfl rfl
  | profile name =>
    exact Or.inl ⟨free nofun id,_,by simp [processConfigLine,kind]; rfl,complete.profile given lines reader name⟩
  | defaultProfile name =>
    refine Or.inl ⟨free nofun id,_,by simp [processConfigLine,kind]; rfl,?_⟩
    refine complete.assign given lines reader _ (· < reader.workload.nodes) name nofun nofun ?_ ?_
    · exact durationAfter_append 0 lines [.defaultProfile name]
    · intro i other
      rw [faithful.nodes]
      exact Iff.rfl
  | nodes value =>
    by_cases first : reader.workload.nodes = 0
    · obtain ⟨count,some,cast⟩ | ⟨none,failed⟩ := castUnsigned_cases value
      · refine Or.inl ⟨free nofun fun none => ?_,_,by simp [processConfigLine,kind,first,cast,bind,Except.bind]; rfl,?_⟩
        · exact absurd (some.symm.trans none.2) nofun
        · exact complete.aside given lines reader _ _ (fun _ _ => id) nofun nofun
            (complete.duration.trans (durationAfter_append 0 lines [.nodes value]).symm) rfl rfl rfl
      · rw [show processConfigLine reader line = .error .exception by simp [processConfigLine,kind,first,failed,bind,Except.bind]]
        exact Or.inr (.unconvertible ⟨faithful.nodes.symm.trans first,none⟩)
    · refine Or.inl ⟨free nofun fun none => ?_,reader,by simp [processConfigLine,kind,first]; rfl,?_⟩
      · exact first (faithful.nodes.trans none.1)
      · exact complete.aside given lines reader _ _ (fun _ _ => id) nofun nofun
          (complete.duration.trans (durationAfter_append 0 lines [.nodes value]).symm) rfl rfl rfl
  | duration value =>
    obtain ⟨duration,some,cast⟩ | ⟨none,failed⟩ := castUnsigned_cases value
    · refine Or.inl ⟨free nofun fun none => absurd (some.symm.trans none) nofun,_,
        by simp [processConfigLine,kind,cast,bind,Except.bind]; rfl,?_⟩
      refine complete.aside given lines reader _ _ (fun _ _ => id) nofun nofun ?_ rfl rfl rfl
      rw [durationAfter_append,durationAfter,some]
      rfl
    · rw [show processConfigLine reader line = .error .exception by simp [processConfigLine,kind,failed,bind,Except.bind]]
      exact Or.inr (.unconvertible none)
  | node id name =>
    obtain ⟨nodeId,some,cast⟩ | ⟨none,failed⟩ := castUnsigned_cases id
    · refine Or.inl ⟨free nofun fun none => absurd (some.symm.trans none) nofun,_,
        by simp [processConfigLine,kind,cast,bind,Except.bind]; rfl,?_⟩
      refine complete.assign given lines reader _ (· = nodeId) name nofun nofun ?_ ?_
      · exact durationAfter_append 0 lines [.node id name]
      · intro i other
        rw [Names,some,Option.some.injEq,eq_comm]
    · rw [show processConfigLine reader line = .error .exception by simp [processConfigLine,kind,failed,bind,Except.bind]]
      exact Or.inr (.unconvertible none)

/-! ### A whole file -/

theorem processLines_outcome (given : UInt32) (done : List ConfigLine) (reader : Reader) (lines : List Bytes)
    (faithful : Faithful given done reader) (complete : Complete given done reader) :
    (AllPass given done (lines.map matchLine) ∧ ∃ after, processLines reader lines = .ok (some after) ∧
        Faithful given (done ++ lines.map matchLine) after ∧ Complete given (done ++ lines.map matchLine) after) ∨
      ∃ before line rest, lines.map matchLine = before ++ line :: rest ∧ AllPass given done before ∧
        Ends given (done ++ before) line (processLines reader lines) := by
  induction lines generalizing done reader with
  | nil => exact Or.inl ⟨trivial,reader,rfl,by simpa using faithful,by simpa using complete⟩
  | cons line lines ih =>
    have here := processConfigLine_outcome given done reader line faithful complete
    rw [List.map_cons,processLines]
    generalize passed : processConfigLine reader line = result at here
    obtain ⟨passes,next,rfl,known⟩ | ends := here
    · have told := processConfigLine_faithful given done reader next line passed faithful
      obtain ⟨all,after,ok,rest⟩ | ⟨before,stop,rest,shape,all,ends⟩ := ih _ next told known
      · exact Or.inl ⟨⟨passes,all⟩,after,ok,by simpa using rest⟩
      · refine Or.inr ⟨matchLine line :: before,stop,rest,congrArg _ shape,⟨passes,all⟩,?_⟩
        rwa [List.append_cons]
    · refine Or.inr ⟨[],matchLine line,lines.map matchLine,rfl,trivial,?_⟩
      rw [List.append_nil]
      cases ends with
      | orphan why => exact .orphan why
      | repeated why => exact .repeated why
      | unconvertible why => exact .unconvertible why

theorem isComplete_iff (p : MasterWorkloadProfile) : p.isComplete = true ↔ ∀ op, p.text op ≠ [] := by
  constructor
  · exact isComplete_text p
  · intro all
    simp only [MasterWorkloadProfile.isComplete,Bool.and_eq_true,decide_eq_true_eq]
    exact ⟨⟨⟨all .join,all .leave⟩,all .put⟩,all .get⟩

theorem profileNamed_member (workload : MasterWorkload) (distinct : (workload.profiles.map (·.name)).Nodup)
    (p : MasterWorkloadProfile) (member : p ∈ workload.profiles) : workload.profileNamed p.name = some p := by
  cases found : workload.profileNamed p.name with
  | none => exact absurd (List.find?_eq_none.mp found p member) (by simp)
  | some q =>
    have same := List.inj_on_of_nodup_map distinct (List.mem_of_find?_eq_some found) member
      (profileNamed_name workload p.name q found)
    rw [same]

theorem valid_iff (given : UInt32) (lines : List ConfigLine) (reader : Reader) (faithful : Faithful given lines reader)
    (complete : Complete given lines reader) : reader.workload.valid = true ↔ Sufficient given lines := by
  have listed := profileNamed_member reader.workload complete.distinct
  have known (p : MasterWorkloadProfile) (member : p ∈ reader.workload.profiles) : .profile p.name ∈ lines :=
    (complete.profiles p.name).mp (by rw [listed p member]; rfl)
  have node (i : Nat) (inside : i < reader.workload.nodes.toNat) : UInt32.ofNat i < nodesAfter given lines := by
    rw [← faithful.nodes,UInt32.lt_iff_toNat_lt,UInt32.toNat_ofNat_of_lt' (inside.trans (UInt32.toNat_lt _))]
    exact inside
  simp only [MasterWorkload.valid,Bool.and_eq_true,decide_eq_true_eq,List.all_eq_true,List.mem_range]
  constructor
  · rintro ⟨⟨⟨⟨nodes,duration⟩,some⟩,whole⟩,each⟩
    refine ⟨faithful.nodes ▸ nodes,complete.duration ▸ duration,?_,?_,?_⟩
    · obtain ⟨p,member⟩ := List.exists_mem_of_ne_nil _ some
      exact ⟨p.name,known p member⟩
    · intro name member op
      obtain ⟨p,found⟩ := Option.isSome_iff_exists.mp ((complete.profiles name).mpr member)
      have filled := isComplete_text p (whole p (List.mem_of_find?_eq_some found)) op
      exact ⟨_,faithful.texts name p found op filled⟩
    · intro i inside
      rw [← faithful.nodes,UInt32.lt_iff_toNat_lt] at inside
      have here := each i.toNat inside
      rw [UInt32.ofNat_toNat] at here
      obtain ⟨p,bound⟩ := Option.isSome_iff_exists.mp here
      obtain ⟨name,named,found⟩ := Option.bind_eq_some_iff.mp bound
      exact ⟨name,faithful.named i name named,(complete.profiles name).mp (by rw [found]; rfl)⟩
  · rintro ⟨nodes,duration,⟨name,member⟩,texts,named⟩
    refine ⟨⟨⟨⟨faithful.nodes ▸ nodes,complete.duration ▸ duration⟩,?_⟩,?_⟩,?_⟩
    · obtain ⟨p,found⟩ := Option.isSome_iff_exists.mp ((complete.profiles name).mpr member)
      exact List.ne_nil_of_mem (List.mem_of_find?_eq_some found)
    · intro p member
      rw [isComplete_iff]
      intro op
      obtain ⟨text,given⟩ := texts p.name (known p member) op
      obtain ⟨q,found,filled⟩ := complete.texts p.name op text given
      rw [listed p member] at found
      cases found
      exact filled
    · intro i inside
      obtain ⟨name,given,member⟩ := named _ (node i inside)
      rw [complete.named _ name given]
      exact (complete.profiles name).mpr member

/-- The result for a file is told by its first line that stops the loader, or else by the checks. -/
theorem loadConfig_outcome (file : Bytes) (given : UInt32) :
    (AllPass given [] (matchedLines file) ∧ ∃ workload, loadConfig file given = .ok workload ∧
        (workload.isSome ↔ Sufficient given (matchedLines file))) ∨
      ∃ before line rest, matchedLines file = before ++ line :: rest ∧ AllPass given [] before ∧
        ((Orphan before line ∧ loadConfig file given = .ok none) ∨
          (Repeated before line ∧ loadConfig file given = .error .exit) ∨
          (Unconvertible given before line ∧ loadConfig file given = .error .exception)) := by
  have outcome := processLines_outcome given [] _ (configLines file) (Faithful.start given) (Complete.start given)
  unfold loadConfig
  generalize processLines _ _ = result at outcome
  obtain ⟨all,after,rfl,told,known⟩ | ⟨before,line,rest,shape,all,ends⟩ := outcome
  · refine Or.inl ⟨all,_,rfl,Iff.trans ?_ (valid_iff given _ after told known)⟩
    by_cases valid : after.workload.valid = true
    · rw [if_pos valid]
      exact iff_of_true rfl valid
    · rw [if_neg valid]
      exact iff_of_false Bool.false_ne_true valid
  · refine Or.inr ⟨before,line,rest,shape,all,?_⟩
    rw [List.nil_append] at ends
    cases ends with
    | orphan why => exact Or.inl ⟨why,rfl⟩
    | repeated why => exact Or.inr (Or.inl ⟨why,rfl⟩)
    | unconvertible why => exact Or.inr (Or.inr ⟨why,rfl⟩)

theorem first_stop (given : UInt32) (before others rest later : List ConfigLine) (line stop : ConfigLine)
    (shape : before ++ line :: rest = others ++ stop :: later) (first : AllPass given [] before)
    (second : AllPass given [] others) (stops : ¬Passes given before line) (also : ¬Passes given others stop) :
    before = others ∧ line = stop := by
  rcases List.append_eq_append_iff.mp shape with ⟨between,rfl,tail⟩ | ⟨between,rfl,tail⟩
  · cases between with
    | nil => exact ⟨(List.append_nil _).symm,(List.cons.inj tail).1⟩
    | cons passed between =>
      rw [List.cons_append,List.cons.injEq] at tail
      exact absurd ((AllPass.append given [] before (passed :: between)).mp second).2.1 (tail.1 ▸ stops)
  · cases between with
    | nil => exact ⟨List.append_nil _,(List.cons.inj tail).1.symm⟩
    | cons passed between =>
      rw [List.cons_append,List.cons.injEq] at tail
      exact absurd ((AllPass.append given [] others (passed :: between)).mp first).2.1 (tail.1 ▸ also)

theorem Orphan.stops (given : UInt32) (before : List ConfigLine) (line : ConfigLine) (orphan : Orphan before line) :
    ¬Passes given before line ∧ ¬Repeated before line ∧ ¬Unconvertible given before line := by
  cases line with
  | setting op text =>
    refine ⟨fun passes => passes.1 orphan,?_,id⟩
    rintro ⟨name,text,⟨earlier,block,rfl,_⟩,_⟩
    exact orphan name (by simp)
  | _ => exact orphan.elim

theorem Rejected.result (file : Bytes) (given : UInt32) (rejected : Rejected given (matchedLines file)) :
    loadConfig file given = .ok none := by
  obtain ⟨all,workload,ok,checks⟩ | ⟨before,line,rest,shape,all,ends⟩ := loadConfig_outcome file given
  · obtain ⟨before,line,rest,shape,_,orphan⟩ | ⟨_,missing⟩ := rejected
    · rw [shape,AllPass.append] at all
      exact absurd orphan all.2.1.1
    · rw [ok]
      cases workload with
      | none => rfl
      | some workload => exact absurd (checks.mp rfl) missing
  · have stops : ¬Passes given before line := fun passes => by
      rcases ends with ⟨why,_⟩ | ⟨why,_⟩ | ⟨why,_⟩
      · exact passes.1 why
      · exact passes.2.1 why
      · exact passes.2.2 why
    obtain ⟨others,stop,later,also,passed,orphan⟩ | ⟨every,_⟩ := rejected
    · obtain ⟨alone,single,numbered⟩ := Orphan.stops given others stop orphan
      obtain ⟨rfl,rfl⟩ := first_stop given before others rest later line stop (shape.symm.trans also) all passed stops alone
      rcases ends with ⟨_,result⟩ | ⟨why,_⟩ | ⟨why,_⟩
      · exact result
      · exact absurd why single
      · exact absurd why numbered
    · rw [shape,AllPass.append] at every
      exact absurd every.2.1 stops

theorem linesWellFormed_member (inProfile : Bool) (lines : List Bytes) (good : linesWellFormed inProfile lines = true)
    (line : Bytes) (member : line ∈ lines) : ∃ inProfile, wellFormed inProfile line = true := by
  induction lines generalizing inProfile with
  | nil => cases member
  | cons first lines ih =>
    rw [linesWellFormed,Bool.and_eq_true] at good
    rcases List.mem_cons.mp member with rfl | later
    · exact ⟨inProfile,good.1⟩
    · exact ih _ good.2 later

theorem captured_whole (literal line value : Bytes) (clear : 0 ∉ literal)
    (found : after literal (line.takeWhile (· ≠ 0)) = some value) :
    ∃ rest, line = literal ++ rest ∧ (0 ∉ rest → value = rest) := by
  have text := after_some found
  have whole := List.takeWhile_append_dropWhile (p := (· ≠ (0 : UInt8))) (l := line)
  rw [text,List.append_assoc] at whole
  refine ⟨_,whole.symm,fun plain => ?_⟩
  have same := takeWhile_whole line (whole ▸ fun nul => (List.mem_append.mp nul).elim clear plain)
  rw [text] at same
  exact List.append_cancel_left (same.trans whole.symm)

theorem isAssignment_words (text : Bytes) (good : isAssignment text = true) :
    0 ∉ text ∧ isNumber (text.takeWhile isWord) = true := by
  rw [isAssignment,Bool.and_eq_true] at good
  obtain ⟨number,name⟩ := good
  have whole := List.takeWhile_append_dropWhile (p := (· ≠ (32 : UInt8))) (l := text)
  cases rest : text.dropWhile (· ≠ 32) with
  | nil =>
    rw [rest] at name
    cases name
  | cons separator others =>
    obtain rfl := separator_space text separator others rest
    rw [rest] at name whole
    have words : others.all isWord = true := by
      rw [isName,Bool.and_eq_true] at name
      exact name.2
    have digits := number_digits _ number
    constructor
    · rw [← whole]
      intro nul
      rcases List.mem_append.mp nul with first | second
      · exact number_not_nul _ number first
      · rcases List.mem_cons.mp second with space | later
        · cases space
        · exact word_not_nul others words later
    · have all : ∀ c ∈ text.takeWhile (· ≠ 32), isWord c = true := fun c member =>
        digit_word c (List.all_eq_true.mp digits c member)
      have taken : (text.takeWhile (· ≠ 32) ++ 32 :: others).takeWhile isWord =
          text.takeWhile (· ≠ 32) ++ (32 :: others).takeWhile isWord := List.takeWhile_append_of_pos all
      rw [whole,List.takeWhile_cons_of_neg (by decide),List.append_nil] at taken
      rw [taken]
      exact number

theorem wellFormed_converts (inProfile : Bool) (given : UInt32) (before : List ConfigLine) (line : Bytes)
    (good : wellFormed inProfile line = true) : ¬Unconvertible given before (matchLine line) := by
  have matched := matchLine_matched line
  have convertible {text : Bytes} (number : isNumber text = true) : lexicalCastUnsigned text ≠ none :=
    Option.isSome_iff_ne_none.mp (isNumber_cast text number)
  cases kind : matchLine line with
  | nodes value =>
    rw [kind] at matched
    obtain ⟨rest,starts,captured⟩ := captured_whole _ line value (by decide) matched
    have number := wellFormed_form inProfile line _ rest isNumber (by simp [directives]) starts good
    rw [captured (number_not_nul rest number)]
    exact fun none => convertible number none.2
  | duration value =>
    rw [kind] at matched
    obtain ⟨rest,starts,captured⟩ := captured_whole _ line value (by decide) matched
    have number := wellFormed_form inProfile line _ rest isNumber (by simp [directives]) starts good
    rw [captured (number_not_nul rest number)]
    exact convertible number
  | node id name =>
    rw [kind] at matched
    simp only [Matched,matchNode] at matched
    split at matched
    next => cases matched
    next groups found =>
      obtain ⟨rest,starts,captured⟩ := captured_whole _ line groups (by decide) found
      have assigns := wellFormed_form inProfile line _ rest isAssignment (by simp [directives]) starts good
      obtain ⟨plain,number⟩ := isAssignment_words rest assigns
      rw [captured plain] at matched
      split at matched
      next =>
        split at matched
        next =>
          obtain ⟨rfl,_⟩ := Prod.mk.inj (Option.some.inj matched)
          exact convertible number
        next => cases matched
      next => cases matched
  | _ => exact id

/-- What the loader promises: it returns `true` only for files that consist of well-formed
lines, `false` for every other file, and throws nothing. -/
structure Checked (file : Bytes) (given : UInt32) : Prop where
  accepted : ∀ workload, loadConfig file given = .ok (some workload) → linesWellFormed false (configLines file) = true
  rejected : linesWellFormed false (configLines file) = false → loadConfig file given = .ok none
  caught : loadConfig file given ≠ .error .exception

/-- The promise is kept for well-formed files and for those that are rejected for another reason. -/
theorem loadConfig_checked_iff (file : Bytes) (given : UInt32) :
    Checked file given ↔ linesWellFormed false (configLines file) = true ∨ Rejected given (matchedLines file) := by
  constructor
  · intro checked
    cases good : linesWellFormed false (configLines file) with
    | true => exact Or.inl rfl
    | false =>
      have none := checked.rejected good
      right
      obtain ⟨all,workload,ok,checks⟩ | ⟨before,line,rest,shape,all,ends⟩ := loadConfig_outcome file given
      · cases ok.symm.trans none
        exact Or.inr ⟨all,fun sufficient => absurd (checks.mpr sufficient) nofun⟩
      · rcases ends with ⟨why,_⟩ | ⟨_,result⟩ | ⟨_,result⟩
        · exact Or.inl ⟨before,line,rest,shape,all,why⟩
        · cases result.symm.trans none
        · cases result.symm.trans none
  · rintro (good | rejected)
    · refine ⟨fun _ _ => good,fun bad => absurd (good.symm.trans bad) nofun,fun thrown => ?_⟩
      obtain ⟨_,workload,ok,_⟩ | ⟨before,line,rest,shape,_,ends⟩ := loadConfig_outcome file given
      · cases ok.symm.trans thrown
      · rcases ends with ⟨_,result⟩ | ⟨_,result⟩ | ⟨why,_⟩
        · cases result.symm.trans thrown
        · cases result.symm.trans thrown
        · have member : line ∈ matchedLines file := shape.symm ▸ List.mem_append_right _ List.mem_cons_self
          obtain ⟨text,inside,rfl⟩ := List.mem_map.mp member
          obtain ⟨inProfile,form⟩ := linesWellFormed_member false _ good text inside
          exact wellFormed_converts inProfile given before text form why
    · have result := Rejected.result file given rejected
      refine ⟨fun workload ok => ?_,fun _ => result,fun thrown => ?_⟩
      · cases result.symm.trans ok
      · cases result.symm.trans thrown

def misspeltFile : Bytes :=
  ascii "nodes 1\nduration 10\nprofile p\njoin exact 0\nleave none\nput none\nget none\ndefault-profile p\nduratoin 60\n"

theorem misspelt_accepted : ¬Checked misspeltFile 0 := by
  intro checked
  obtain ⟨read,loaded,some⟩ := ok_of_any (loadConfig misspeltFile 0) Option.isSome (by decide +kernel)
  obtain ⟨workload,rfl⟩ := Option.isSome_iff_exists.mp some
  exact absurd (checked.accepted workload loaded) (by decide +kernel)

end MasterWorkload
end Dhtperf
