import Pig.Lib.BitString
import Pig.Network.IPv4

namespace Pig.Routing

open Go Network BitString

/-! The routing table: a path-compressed binary trie over the network keys,
with the default route kept beside it. -/

inductive Family where
  | inet
  | inet6
  deriving DecidableEq, Repr

structure IPNet where
  ip : Bytes
  mask : Bytes
  deriving DecidableEq, Repr

structure Route where
  destination : IPNet
  gateway : Bytes
  interface : String
  linkAddr : Bytes
  deriving DecidableEq, Repr

def familyOf (ip : Bytes) : Option Family :=
  if to4 ip ≠ [] then some .inet
  else if to16 ip ≠ [] then some .inet6
  else none

def Route.family (route : Route) : Option Family := familyOf route.destination.ip

def shiftOnes : Nat → Nat → UInt8 → Nat × UInt8
  | 0, count, byte => (count, byte)
  | steps + 1, count, byte =>
    if byte &&& 0x80 ≠ 0 then shiftOnes steps (count + 1) (byte <<< 1)
    else (count, byte)

def simpleMaskLength : Bytes → Option Nat
  | [] => some 0
  | byte :: rest =>
    if byte = 0xff then (simpleMaskLength rest).map (8 + ·)
    else
      -- A byte other than 0xff has at most seven ones to shift out.
      let (count, left) := shiftOnes 8 0 byte
      if left = 0 ∧ rest.all (· == 0) then some count else none

def maskSize (mask : Bytes) : Nat × Nat :=
  match simpleMaskLength mask with
  | some ones => (ones, mask.length * 8)
  | none => (0, 0)

def maskIP (ip mask : Bytes) : Bytes :=
  let mask := if mask.length = 16 ∧ ip.length = 4 ∧
      (mask.take 12).all (· == 0xff) then mask.drop 12 else mask
  let ip := if mask.length = 4 ∧ ip.length = 16 ∧ ip.take 12 = v4InV6
    then ip.drop 12 else ip
  if ip.length ≠ mask.length then [] else ip.zipWith (· &&& ·) mask

def calculateNetworkAddress (ipnet : IPNet) : Bytes :=
  let (ones, total) := maskSize ipnet.mask
  if ones = total then ipnet.ip else maskIP ipnet.ip ipnet.mask

def routeToTablePrefix (route : Route) : Option Nat :=
  let ip := calculateNetworkAddress route.destination
  if to4 ip ≠ [] then some (Bytes.toNatBE (to4 ip))
  else if to16 ip ≠ [] then some (Bytes.toNatBE (to16 ip))
  else none

def routeToPrefixBits (route : Route) : Nat := (maskSize route.destination.mask).1

def Family.bitWidth : Family → Nat
  | .inet => 32
  | .inet6 => 128

def commonBits (family : Family) (prefix1 prefix2 : Option Nat) : Checked Nat := do
  let key1 ← deref prefix1
  let key2 ← deref prefix2
  return common family.bitWidth key1 key2

def clearBit (number index : Nat) : Nat := number ^^^ (number &&& 2 ^ index)

def maskPrefix (family : Family) (key : Option Nat) (n : Nat) : Checked (Option Nat) := do
  let key ← deref key
  let positions := List.range' n (family.bitWidth - n)
  return some (positions.foldl (fun out pos => clearBit out (family.bitWidth - 1 - pos)) key)

def getBit (family : Family) (key : Option Nat) (pos : Nat) : Checked Bool := do
  let key ← deref key
  -- A position past the last bit is a negative bit index.
  if pos < family.bitWidth then .ok (bit family.bitWidth key pos)
  else .error .index

inductive RtNode where
  | nil
  | node (left right : RtNode) (prefixKey : Option Nat) (value : List Route) (bitLen : Nat)
  deriving DecidableEq, Repr

def RtNode.branch (side : Bool) (child sibling : RtNode)
    (prefixKey : Option Nat) (value : List Route) (bitLen : Nat) : RtNode :=
  if side then .node sibling child prefixKey value bitLen
  else .node child sibling prefixKey value bitLen

def RtNode.leaf (prefixKey : Option Nat) (value : Route) (bitLen : Nat) : RtNode :=
  .node .nil .nil prefixKey [value] bitLen

def addRoute (routes : List Route) (route : Route) : List Route :=
  routes.map (fun _ => route) ++ [route]

structure Table where
  root : RtNode
  defaultRoute : Option Route
  ignore : List String
  family : Family
  deriving DecidableEq, Repr

def newTable (family : Family) : Table :=
  { root := .nil, defaultRoute := none, ignore := [], family := family }

namespace Table

def excludeAdapter (t : Table) (adapterName : List String) : Table :=
  { t with ignore := adapterName ++ t.ignore }

def destinationKey (t : Table) (dst : Bytes) : Option Nat :=
  match t.family with
  | .inet =>
    if to4 dst = [] then none else some (Bytes.toNatBE (to4 dst))
  | .inet6 =>
    if to4 dst ≠ [] then none
    else if to16 dst = [] then none
    else some (Bytes.toNatBE (to16 dst))

def consider (ignore : List String) (bitLen : Nat) :
    List Route → Option Route × Int → Option Route × Int
  | [], best => best
  | route :: rest, best =>
    if route.interface ∈ ignore then consider ignore bitLen rest best
    else if (bitLen : Int) > best.2 then
      consider ignore bitLen rest (some route, bitLen)
    else consider ignore bitLen rest best

def lookupFrom (family : Family) (ignore : List String) (dstKey : Option Nat) :
    RtNode → Option Route × Int → Checked (Option Route)
  | .nil, best => .ok best.1
  | .node left right prefixKey value bitLen, best => do
      let shared ← commonBits family dstKey prefixKey
      if shared < bitLen then return best.1
      let best := consider ignore bitLen value best
      if family.bitWidth ≤ bitLen then return best.1
      let side ← getBit family dstKey bitLen
      if side then lookupFrom family ignore dstKey right best
      else lookupFrom family ignore dstKey left best

def lookup (t : Table) (dst : Bytes) : Checked (Option Route) :=
  match t.destinationKey dst with
  | none => .ok none
  | some dstKey =>
    let best := match t.defaultRoute with
      | some route => (some route, 0)
      | none => (none, -1)
    lookupFrom t.family t.ignore (some dstKey) t.root best

def insertAt (family : Family) (key : Option Nat) (prefixLen : Nat)
    (value : Route) : RtNode → Checked RtNode
  | .nil => .ok (.leaf key value prefixLen)
  | .node left right prefixKey routes bitLen => do
      let cur := .node left right prefixKey routes bitLen
      let keyBits ← commonBits family key prefixKey
      let shared := min keyBits bitLen
      if prefixLen ≤ shared ∧ prefixLen < bitLen then
        -- The new prefix is an ancestor of this one.
        let side ← getBit family prefixKey prefixLen
        return .branch side cur .nil key [value] prefixLen
      else if prefixLen ≤ shared then
        return .node left right prefixKey (addRoute routes value) bitLen
      else if shared = bitLen then
        let side ← getBit family key bitLen
        if side then
          let right ← insertAt family key prefixLen value right
          return .node left right prefixKey routes bitLen
        else
          let left ← insertAt family key prefixLen value left
          return .node left right prefixKey routes bitLen
      else
        let branchKey ← maskPrefix family key shared
        let curBit ← getBit family prefixKey shared
        return .branch curBit cur (.leaf key value prefixLen) branchKey [] shared

def insert (t : Table) (value : Route) : Checked (Table × Bool) := do
  if value.family ≠ some t.family then return (t, false)
  let prefixLen := routeToPrefixBits value
  if prefixLen = 0 then
    return ({ t with defaultRoute := some value }, true)
  let root ← insertAt t.family (routeToTablePrefix value) prefixLen value t.root
  return ({ t with root := root }, true)

def compress (left right : RtNode) (prefixKey : Option Nat)
    (value : List Route) (bitLen : Nat) : RtNode × Bool :=
  if value ≠ [] ∨ (left ≠ .nil ∧ right ≠ .nil) then
    (.node left right prefixKey value bitLen, false)
  else if left ≠ .nil then (left, true)
  else (right, true)

def ascend (left right : RtNode) (prefixKey : Option Nat)
    (value : List Route) (bitLen : Nat) (again : Bool) : RtNode × Bool :=
  if again then compress left right prefixKey value bitLen
  else (.node left right prefixKey value bitLen, false)

def removeAt (family : Family) (key : Option Nat) (prefixLen : Nat) :
    RtNode → Checked (Option (RtNode × Bool))
  | .nil => .ok none
  | .node left right prefixKey value bitLen => do
      let shared ← commonBits family key prefixKey
      if shared < bitLen then return none
      if bitLen = prefixLen then
        if value = [] then return none
        return some (compress left right prefixKey [] bitLen)
      if prefixLen < bitLen then return none
      let side ← getBit family key bitLen
      if side then
        let removed ← removeAt family key prefixLen right
        return removed.map fun (right, again) =>
          ascend left right prefixKey value bitLen again
      else
        let removed ← removeAt family key prefixLen left
        return removed.map fun (left, again) =>
          ascend left right prefixKey value bitLen again

def remove (t : Table) (value : Route) : Checked (Table × Bool) := do
  if value.family ≠ some t.family then return (t, false)
  let prefixLen := routeToPrefixBits value
  if prefixLen = 0 then
    return ({ t with defaultRoute := none }, t.defaultRoute.isSome)
  match ← removeAt t.family (routeToTablePrefix value) prefixLen t.root with
  | none => return (t, false)
  | some (root, _) => return ({ t with root := root }, true)

end Table

end Pig.Routing
