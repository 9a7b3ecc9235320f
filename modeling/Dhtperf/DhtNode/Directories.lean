import Dhtperf.DhtNode.Consoles
import Dhtperf.DhtperfMaster.Ports

/-! The directories of the wrapped programs. The constructor of a wrapper makes one below the
directory of its controller and enters it; it runs when the type of the DHT is known, before
the Start message sets the port of the node. -/
namespace Dhtperf
open Library

/-- What a name stands for in the directory where the controllers are started. -/
inductive Entry
  | directory
  | other
  deriving DecidableEq

abbrev Entries := Bytes → Option Entry

/-- `Utils::mkdir_p`; a directory that exists will do. -/
def mkdirP (entries : Entries) (dirName : Bytes) : Except Fault Entries :=
  match entries dirName with
  | none => pure fun name => if name = dirName then some .directory else entries name
  | some .directory => pure entries
  | some .other => throw .exit

/-- The types that `DhtNode::make` knows, with the class it makes. -/
def Wrapper.ofType (type : Bytes) : Option Wrapper :=
  if type = ascii "dummy" then some .dummyDht
  else if type = ascii "kaddemo" then some .kaddemo
  else if type = ascii "openchord" then some .openchord
  else if type = ascii "owshellchord" then some .owdhtshell
  else if type = ascii "owshellkad" then some .owdhtshell
  else if type = ascii "owshellpastry" then some .owdhtshell
  else if type = ascii "pastconsole" then some .pastConsole
  else none

/-- Those of them that derive from `Wrapper` as well. -/
def Wrapper.console : Wrapper → Option ConsoleDht
  | .dummyDht => none
  | .genericRuby => none
  | .kaddemo => some .kaddemo
  | .openchord => some .openchord
  | .owdhtshell => some .owdhtshell
  | .pastConsole => some .pastConsole

namespace ConsoleDht

def dirName (dht : ConsoleDht) (selfPort : UInt16) : Bytes := dht.binaryName ++ [46] ++ decimal selfPort.toNat

end ConsoleDht

namespace DhtperfController

/-- A node and the directory its process has entered, if any. -/
structure NodeProcess where
  node : DhtNode
  directory : Option Bytes

/-- `getDhtType`: the base class `DhtNode` is constructed first and its port is zero. -/
def getDhtType (entries : Entries) (type : Bytes) : Except Fault (Entries × Wrapper × NodeProcess) :=
  match Wrapper.ofType type with
  | none => throw .exit
  | some wrapper =>
    let node := DhtNode.make
    match wrapper.console with
    | none => pure (entries,wrapper,⟨node,none⟩)
    | some dht => do
      let dirName := dht.dirName node.selfPort
      let entries ← mkdirP entries dirName
      pure (entries,wrapper,⟨node,some dirName⟩)

/-- What the three messages do to the node; the profiles do nothing to it. -/
def startUp (entries : Entries) (type : Bytes) (start : Message) : Except Fault (Entries × NodeProcess) := do
  let (entries,wrapper,process) ← getDhtType entries type
  let (_,node) := setStart wrapper process.node start
  pure (entries,{process with node := node})

theorem startUp_directory (before after : Entries) (type : Bytes) (start : Message) (process : NodeProcess)
    (ok : startUp before type start = .ok (after,process)) :
    process.directory = ((Wrapper.ofType type).bind Wrapper.console).map fun dht => dht.dirName 0 := by
  obtain ⟨⟨entries,wrapper,made⟩,here,rest⟩ := bind_ok ok
  cases rest
  unfold getDhtType at here
  split at here
  next => cases here
  next kind known =>
    rw [known,Option.bind_some]
    split at here
    next none =>
      cases here
      rw [none]
      rfl
    next dht console =>
      obtain ⟨_,_,last⟩ := bind_ok here
      cases last
      rw [console]
      rfl

/-- Whatever ports their Start messages set, two controllers that are started one after the
other in one directory, with the same DHT, end up in the same directory. -/
theorem directories_shared (entries middle last : Entries) (type : Bytes) (first second : Message)
    (one two : NodeProcess) (started : startUp entries type first = .ok (middle,one))
    (next : startUp middle type second = .ok (last,two)) : ¬one.directory ≠ two.directory := by
  rw [startUp_directory entries middle type first one started,startUp_directory middle last type second two next]
  exact fun different => different rfl

theorem openchord_shared : ∃ middle last one two,
    startUp (fun _ => none) (ascii "openchord") (.start 10 [] 0 0) = .ok (middle,one) ∧
    startUp middle (ascii "openchord") (.start 10 (ascii "host") 0 7) = .ok (last,two) ∧
    ¬one.directory ≠ two.directory :=
  ⟨_,_,_,_,rfl,rfl,directories_shared (fun _ => none) _ _ (ascii "openchord") (.start 10 [] 0 0)
    (.start 10 (ascii "host") 0 7) _ _ rfl rfl⟩

/-- Two nodes of one host share their state files, though their ports are 5000 and 5002. -/
theorem kaddemo_shared : ∃ middle last one two, ascii "kaddemo" ∈ dhtTypes ∧
    startUp (fun _ => none) (ascii "kaddemo") (.start 10 [] 0 0) = .ok (middle,one) ∧
    startUp middle (ascii "kaddemo") (.start 10 (ascii "host") 0 1) = .ok (last,two) ∧
    one.node.selfPort = 5000 ∧ two.node.selfPort = 5002 ∧
    one.directory = some (ascii "kaddemo_static.0") ∧ two.directory = some (ascii "kaddemo_static.0") :=
  ⟨_,_,_,_,by decide,rfl,rfl,by decide,by decide,by decide,by decide⟩

end DhtperfController
end Dhtperf
