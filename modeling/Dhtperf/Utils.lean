import Dhtperf.Basic

/-! The helpers of the controller: word lists, random draws and time strings.
Every random device reads one stream of draws, which may hold any numbers, so
each distribution can return every value of its range. -/
namespace Dhtperf
open Library

abbrev Draws := Nat → Nat

namespace Draws

def first (draws : Draws) : Nat := draws 0

def rest (draws : Draws) : Draws := fun n => draws (n+1)

end Draws

namespace Utils

def dictionary : List Bytes := List.map ascii [
  "refuse","punch","couple","index","banknote","silverberry","Manchu","open","overcome",
  "warfighter","round","angle","German","disturb","Schmidt","selfless","bioptic","rally",
  "osteoarthropathy","August","desist","dessjatines","ads","catodi","gutsing","hinder","furrow",
  "saponify","relief","complicated","blizzarded","endure","wonder","marvel","beget","lay",
  "delirium","Palmiro","I","royalty","spilths","conferencegoers","reservoirs","transient","taqwa",
  "giant","clicky","static_line","coexistences","transducer","ghits","rattletrap","comedogenic",
  "propelling_pencil","neutrality","calendrers","glossed_over","coexisted","chafed","dyspareunia",
  "fictionalizes","high-water_mark","beach_head","potsies","bummer","scraps","aird-guitared",
  "preordered","quadrantanopia","Sacramentarians","kinesthesiologists","flounced","timber_wolf",
  "loblolly","way_back_when","agricultural_liens","in_the_nick_of_time","Baldwin's_phosphorus",
  "Eichmann","papillote","hackleback","Magha_Puja","sectored","bell_ringers","eyeopening",
  "omphalomancy","noncitrus","uncovers","chopins","microlenders","marginal_benefits",
  "err_on_the_side_of_caution","loveliest","unanchor","Trenchardian","kangaroo_paw","commissural",
  "diminished_radix_complement","casters","ET743","firebases","unpunished","replayable","hotshot",
  "eigendecomposition","Fennicism","prima_ballerinas","subdural","scaggning","audio_cassete",
  "athletic","giaour","buccal_cavity","nonchromatically","booting_up","dosed","cat's_pajamas",
  "epiphenomenalism","glass_transition_temperature","honing"]

def dictionarySize : Nat := dictionary.length

/-- `uniform_int(min,max)`: both ends can be drawn. -/
def uniformInt (min max : Int) (draw : Nat) : Int := min + (draw % (max - min + 1).toNat : Nat)

/-- The constructor of `RandomDictionary` refuses sizes from the dictionary's on. -/
def randomDictionary (size : UInt32) : Except Fault Unit :=
  if size.toNat ≥ dictionarySize then throw .exit else pure ()

/-- The distribution of `RandomDictionary(size)` is `uniform_int(0,size)`. -/
def getRandomWord (size : UInt32) (draws : Draws) : Bytes × Draws :=
  (dictionary.getD (uniformInt 0 size.toNat draws.first).toNat [],draws.rest)

/-- A non-negative `int`: what a Poisson draw and a rounded Weibull draw return. -/
def naturalDraw (draws : Draws) : UInt32 × Draws :=
  (UInt32.ofNat (draws.first % 2^31),draws.rest)

/-- The loop runs from the last index down to the first. -/
def removeEmptyFrom : Nat → List Bytes → List Bytes
  | 0, v => v
  | i+1, v => removeEmptyFrom i (if v[i]? = some [] then v.eraseIdx i else v)

def removeEmptyStringsFromVector (v : List Bytes) : List Bytes := removeEmptyFrom v.length v

/-- The `int` that `%d` stores: `strtol` clamps to 64 bits, the store keeps 32. -/
def storedInt (value : Int) : Int := (max (-2^63) (min value (2^63 - 1))).bmod (2^32)

/-- One `%d`: white space, an optional sign, at least one digit. -/
def scanInt (text : Bytes) : Option (Int × Bytes) :=
  let text := text.dropWhile isSpace
  let (negative,text) := match text with
    | 45 :: rest => (true,rest)
    | 43 :: rest => (false,rest)
    | _ => (false,text)
  let digits := text.takeWhile isDigit
  if digits = [] then none
  else
    let value : Int := digitsValue digits
    some (storedInt (if negative then -value else value),text.dropWhile isDigit)

inductive Scan
  | endOfInput
  | nothing
  | one (min : Int)
  | two (min max : Int)
  deriving DecidableEq

def scanTimes (text : Bytes) : Scan :=
  let text := text.takeWhile (· ≠ 0)
  if text.dropWhile isSpace = [] then .endOfInput
  else match scanInt text with
    | none => .nothing
    | some (min,45 :: rest) =>
      match scanInt rest with
      | none => .one min
      | some (max,_) => .two min max
    | some (min,_) => .one min

def getTimeFromString (timeString : Bytes) (draws : Draws) : Except Fault (Int × Draws) :=
  match scanTimes timeString with
  | .nothing => throw .exit
  | .one min => pure (min,draws)
  | .two min max =>
    if min ≥ max then throw .exit
    else pure (uniformInt min max draws.first,draws.rest)
  -- Neither conversion happened and neither variable was set.
  | .endOfInput => throw .uninitialised

/-- `boost::is_any_of("\t ")`. -/
def isTabOrSpace (c : UInt8) : Bool := c == 9 || c == 32

/-- `boost::split`: every separator ends a word, so words may be empty. -/
def split (text : Bytes) : List Bytes := text.splitOnP isTabOrSpace

/-- `boost::join(words," ")`. -/
def join (words : List Bytes) : Bytes := [32].intercalate words

def paramsVector (params : Bytes) : List Bytes := removeEmptyStringsFromVector (split params)

end Utils
end Dhtperf
