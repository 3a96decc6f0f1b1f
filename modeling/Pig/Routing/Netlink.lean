import Pig.Routing.LongestMatch

namespace Pig.Routing

open Go Network BitString LongestPrefix RtNode

/-! How the tables are filled from the route messages of the kernel: all at once
when they are loaded, and then one message at a time. -/

inductive MessageType where
  | newRoute
  | delRoute
  | getRoute
  deriving DecidableEq, Repr

inductive RouteTable where
  | main
  | other
  deriving DecidableEq, Repr

inductive RouteScope where
  | universe
  | site
  | link
  | host
  | nowhere
  deriving DecidableEq, Repr

inductive RouteType where
  | unspec
  | unicast
  | local
  | broadcast
  | anycast
  | multicast
  | blackhole
  | unreachable
  | prohibit
  | throw
  | nat
  deriving DecidableEq, Repr

structure RtMsg where
  family : Option Family
  dstLen : Nat
  table : RouteTable
  scope : RouteScope
  type : RouteType
  deriving DecidableEq, Repr

structure NetlinkRoute where
  hdrType : MessageType
  msg : RtMsg
  dst : Bytes
  gateway : Bytes
  oif : Nat
  deriving DecidableEq, Repr

structure System where
  interfaceByIndex : Nat → Option String
  lookupNeighborLLAddr : Bytes → Nat → Family → Bytes

def isLinkScopeNeighbor (rm : RtMsg) : Bool := rm.scope = .link ∧ rm.type = .unicast

def includeLoadedRoute (rm : RtMsg) : Bool :=
  if isLinkScopeNeighbor rm then true
  else if rm.type ∈ [.local, .broadcast, .multicast, .blackhole, .unreachable,
      .prohibit, .throw] then false
  else rm.scope ≠ .host

def cidrMaskBytes : Nat → Nat → Bytes
  | 0, _ => []
  | length + 1, ones =>
    if 8 ≤ ones then 0xff :: cidrMaskBytes length (ones - 8)
    else ~~~(0xff >>> UInt8.ofNat ones) :: cidrMaskBytes length 0

def cidrMask (ones bits : Nat) : Option Bytes :=
  if bits < ones then none else some (cidrMaskBytes (bits / 8) ones)

def attrIP (family : Family) (raw absent : Bytes) : Bytes :=
  match family with
  | .inet => if 4 ≤ raw.length then to4 (raw.take 4) else absent
  | .inet6 => if 16 ≤ raw.length then to16 (raw.take 16) else absent

def zeroIP : Family → Bytes
  | .inet => ipv4zero
  | .inet6 => ipv6zero

def convertNetlinkRoute (system : System) (nr : NetlinkRoute) : Option Route := do
  let family ← nr.msg.family
  let destination := attrIP family nr.dst (zeroIP family)
  let mask ← cidrMask nr.msg.dstLen family.bitWidth
  let gateway := attrIP family nr.gateway []
  let interfaceName :=
    if nr.oif ≠ 0 then (system.interfaceByIndex nr.oif).getD "" else ""
  let linkAddr := if isLinkScopeNeighbor nr.msg ∧ nr.oif ≠ 0
    then system.lookupNeighborLLAddr destination nr.oif family else []
  return { destination := ⟨destination, mask⟩, gateway := gateway,
           interface := interfaceName, linkAddr := linkAddr }

def loadRoutes (system : System) (messages : List NetlinkRoute) : List Route :=
  messages.filterMap fun nr =>
    if nr.msg.table ≠ .main then none
    else (convertNetlinkRoute system nr).filter fun _ =>
      includeLoadedRoute nr.msg

structure Tables where
  v4 : Table
  v6 : Table
  deriving DecidableEq, Repr

namespace Tables

def new : Tables := ⟨newTable .inet, newTable .inet6⟩

def forFamily (tables : Tables) : Family → Table
  | .inet => tables.v4
  | .inet6 => tables.v6

def modify (tables : Tables) (family : Family)
    (change : Table → Checked (Table × Bool)) : Checked Tables := do
  let (t, _) ← change (tables.forFamily family)
  match family with
  | .inet => return { tables with v4 := t }
  | .inet6 => return { tables with v6 := t }

def insertAll : Tables → List Route → Checked Tables
  | tables, [] => .ok tables
  | tables, rt :: routes =>
    match rt.family with
    | none => tables.insertAll routes
    | some family => do
        let tables ← tables.modify family (·.insert rt)
        tables.insertAll routes

end Tables

def initFromOS (system : System) (messages : List NetlinkRoute) : Checked Tables :=
  Tables.new.insertAll (loadRoutes system messages)

def getSystemRoute (system : System) (query : Family → Bytes → Option NetlinkRoute) (dst : Bytes) :
    Option Route :=
  if to4 dst ≠ [] then
    (query .inet (to4 dst)).bind (convertNetlinkRoute system)
  else if to16 dst ≠ [] then
    (query .inet6 (to16 dst)).bind (convertNetlinkRoute system)
  else none

def handleRouteMessage (system : System) (query : Family → Bytes → Option NetlinkRoute)
    (nr : NetlinkRoute) (tables : Tables) : Checked Tables :=
  if nr.hdrType ≠ .newRoute ∧ nr.hdrType ≠ .delRoute then .ok tables
  else if nr.msg.table ≠ .main then .ok tables
  else
    match convertNetlinkRoute system nr with
    | none => .ok tables
    | some rt =>
      let family : Family :=
        if to4 rt.destination.ip ≠ [] then .inet else .inet6
      let isLinkNeighbor := isLinkScopeNeighbor nr.msg
      if ¬ isLinkNeighbor ∧ nr.msg.scope = .link then .ok tables
      else if nr.hdrType = .newRoute then
        if ¬ isLinkNeighbor ∧ nr.msg.type = .local then .ok tables
        else
          -- The route inserted is the one in use for the address.
          match getSystemRoute system query rt.destination.ip with
          | none => .ok tables
          | some systemRoute =>
            tables.modify family (·.insert systemRoute)
      else tables.modify family (·.remove rt)

theorem cidrMaskBytes_zero (length : Nat) : (cidrMaskBytes length 0).all (· == 0) = true := by
  induction length with
  | zero => rfl
  | succ length ih =>
    rw [cidrMaskBytes, if_neg (by decide), List.all_cons, ih]
    rfl

theorem length_cidrMaskBytes (length ones : Nat) : (cidrMaskBytes length ones).length = length := by
  induction length generalizing ones with
  | zero => rfl
  | succ length ih =>
    rw [cidrMaskBytes]
    split <;> rw [List.length_cons, ih]

theorem simpleMaskLength_cidrMaskBytes {length ones : Nat} (h : ones ≤ 8 * length) :
    simpleMaskLength (cidrMaskBytes length ones) = some ones := by
  induction length generalizing ones with
  | zero =>
    rw [Nat.le_zero.mp h]
    rfl
  | succ length ih =>
    rw [cidrMaskBytes]
    split
    · next hbyte =>
        rw [simpleMaskLength, if_pos rfl, ih (by omega), Option.map_some, Nat.add_sub_cancel' hbyte]
    · next hlast =>
        have hbyte : ∀ ones : Fin 8, ~~~(0xff >>> UInt8.ofNat ones) ≠ 0xff ∧ shiftOnes 8 0
            (~~~(0xff >>> UInt8.ofNat ones)) = (ones.val, 0) := by
          decide
        obtain ⟨hne, hshift⟩ := hbyte ⟨ones, by omega⟩
        rw [simpleMaskLength, if_neg hne]
        simp only [hshift, cidrMaskBytes_zero, and_self, if_true]

structure Spells (family : Family) (ip address : Bytes) : Prop where
  width_eq : 8 * address.length = family.bitWidth
  form : match family with
    | .inet => to4 ip = address
    | .inet6 => to4 ip = [] ∧ to16 ip = address

section

variable {family : Family} {ip address : Bytes} {system : System}
  {query : Family → Bytes → Option NetlinkRoute}

section

variable (spells : Spells family ip address)

include spells

theorem Spells.ne_nil : address ≠ [] := by
  rintro rfl
  have hwidth := spells.width_eq
  cases family <;> simp [Family.bitWidth] at hwidth

theorem Spells.familyOf_eq : familyOf ip = some family := by
  have hne := spells.ne_nil
  have hform := spells.form
  cases family with
  | inet => exact familyOf_eq_inet.mpr (hform ▸ hne)
  | inet6 => exact familyOf_eq_inet6.mpr ⟨hform.1, hform.2 ▸ hne⟩

theorem Spells.addressBits_eq :
    addressBits ip = ofBytes address := by
  have hne := spells.ne_nil
  have hform := spells.form
  cases family with
  | inet => rw [addressBits, if_pos (hform ▸ hne), hform]
  | inet6 => rw [addressBits, if_neg (not_not.mpr hform.1), hform.2]

theorem Spells.getSystemRoute_eq :
    getSystemRoute system query ip = (query family address).bind (convertNetlinkRoute system) := by
  have hne := spells.ne_nil
  have hform := spells.form
  cases family with
  | inet => rw [getSystemRoute, if_pos (hform ▸ hne), hform]
  | inet6 =>
    rw [getSystemRoute, if_neg (not_not.mpr hform.1), if_pos (hform.2 ▸ hne), hform.2]

theorem Spells.tableFamily :
    (if to4 ip ≠ [] then Family.inet else .inet6) = family := by
  have hne := spells.ne_nil
  have hform := spells.form
  cases family with
  | inet => exact if_pos (hform ▸ hne)
  | inet6 => exact if_neg (not_not.mpr hform.1)

end

def fullAddress (family : Family) (dst : Bytes) : Bytes :=
  if dst = [] then List.replicate (family.bitWidth / 8) 0 else dst

theorem spells_attrIP {dst : Bytes} (hdst : dst = [] ∨ 8 * dst.length = family.bitWidth)
    (hunmapped : family = .inet6 → to4 dst = []) :
    Spells family (attrIP family dst (zeroIP family)) (fullAddress family dst) := by
  rcases hdst with rfl | hwidth
  · cases family with
    | inet => exact ⟨rfl, by decide⟩
    | inet6 => exact ⟨rfl, by decide, by decide⟩
  · have hfull : fullAddress family dst = dst := by
      rw [fullAddress, if_neg]
      rintro rfl
      cases family <;> simp [Family.bitWidth] at hwidth
    rw [hfull]
    refine ⟨hwidth, ?_⟩
    cases family with
    | inet =>
      have hlength : dst.length = 4 := by
        change _ = 32 at hwidth
        omega
      change to4 (if 4 ≤ dst.length then to4 (dst.take 4) else _) = dst
      rw [if_pos (Nat.le_of_eq hlength.symm), List.take_of_length_le (Nat.le_of_eq hlength),
        to4_of_length hlength, to4_of_length hlength]
    | inet6 =>
      have hlength : dst.length = 16 := by
        change _ = 128 at hwidth
        omega
      change to4 (if 16 ≤ dst.length then to16 (dst.take 16) else _) = [] ∧
        to16 (if 16 ≤ dst.length then to16 (dst.take 16) else _) = dst
      rw [if_pos (Nat.le_of_eq hlength.symm), List.take_of_length_le (Nat.le_of_eq hlength),
        to16_of_length hlength, to16_of_length hlength]
      exact ⟨hunmapped rfl, rfl⟩

end

structure Hop where
  gateway : Bytes
  interface : String
  deriving DecidableEq, Repr

def Route.hop (route : Route) : Hop := ⟨route.gateway, route.interface⟩

def NetlinkRoute.hop (system : System) (family : Family) (gateway : Bytes) (oif : Nat) : Hop where
  gateway := attrIP family gateway []
  interface := if oif ≠ 0 then (system.interfaceByIndex oif).getD "" else ""

theorem convertNetlinkRoute_eq (system : System) {nr : NetlinkRoute} {family : Family}
    (hfamily : nr.msg.family = some family) (hlength : nr.msg.dstLen ≤ family.bitWidth)
    (hdst : nr.dst = [] ∨ 8 * nr.dst.length = family.bitWidth) (hunmapped : family = .inet6 → to4
    nr.dst = []) :
    ∃ rt, convertNetlinkRoute system nr = some rt ∧ rt.Canonical family ∧
      Spells family rt.destination.ip (fullAddress family nr.dst) ∧
      rt.network = (ofBytes (fullAddress family nr.dst)).take nr.msg.dstLen ∧
      rt.hop = NetlinkRoute.hop system family nr.gateway nr.oif := by
  have spells := spells_attrIP hdst hunmapped
  have hbytes : 8 * (family.bitWidth / 8) = family.bitWidth := by
    cases family <;> rfl
  have hmask := @simpleMaskLength_cidrMaskBytes (family.bitWidth / 8) nr.msg.dstLen (by omega)
  have hcidr : cidrMask nr.msg.dstLen family.bitWidth = some (cidrMaskBytes (family.bitWidth / 8)
    nr.msg.dstLen) := if_neg (Nat.not_lt.mpr hlength)
  simp only [convertNetlinkRoute, hfamily, hcidr, Option.bind_eq_bind, Option.bind_some]
  refine ⟨_, rfl, ⟨spells.familyOf_eq, ?_, ?_⟩, spells, ?_, rfl⟩
  · rw [hmask]
    exact Option.some_ne_none _
  · rw [length_cidrMaskBytes, hbytes]
  · rw [Route.network, routeToPrefixBits, spells.addressBits_eq, maskSize_eq hmask]

end Pig.Routing
