import Pig.Routing.Exclusion
import Pig.Routing.Netlink

namespace Pig.Routing

open Go Network BitString LongestPrefix RtNode

/-- Addresses and networks as texts, which the net package reads and writes. A
text that is no address is read as the empty one. -/
structure Texts where
  parseCIDR : String → Option IPNet
  parseIP : String → Bytes
  netString : IPNet → String
  ipString : Bytes → String

inductive ConfigRouteType where
  | tunnel
  | bypass
  | static
  | unknown (text : String)
  deriving DecidableEq, Repr

structure ConfigRoute where
  destination : String
  type : ConfigRouteType
  gateway : String
  interface : String
  deriving DecidableEq, Repr

structure Adapter where
  ip : Bytes
  ip6 : Bytes

inductive RouteError where
  | invalidDestination (text : String)
  | invalidGateway (text : String)
  | noTunnelAddress
  | unknownType (text : String)
  | nilDestination
  | invalidAddress
  | noRoute
  | directlyConnected
  deriving DecidableEq, Repr

def ipNetFromAddrString (texts : Texts) (addr : String) : Option IPNet :=
  match texts.parseCIDR addr with
  | some ipNet => some ipNet
  | none =>
    let host := texts.parseIP addr
    if host = [] then none
    else
      let maskBits := if to4 host = [] then 128 else 32
      (cidrMask maskBits maskBits).map (⟨host, ·⟩)

def buildRoute (texts : Texts) (adapter : Adapter) (r : ConfigRoute)
    (tunIfName : String) : Except RouteError Route :=
  match ipNetFromAddrString texts r.destination with
  | none => .error (.invalidDestination r.destination)
  | some ipNet =>
    match r.type with
    | .bypass => .ok ⟨ipNet, [], "", []⟩
    | .static =>
      let gw := texts.parseIP r.gateway
      if gw = [] then .error (.invalidGateway r.gateway)
      else .ok ⟨ipNet, gw, r.interface, []⟩
    | .tunnel =>
      let dest := if to4 ipNet.ip = [] then adapter.ip6 else adapter.ip
      if dest = [] then .error .noTunnelAddress
      else .ok ⟨ipNet, dest, tunIfName, []⟩
    | .unknown text => .error (.unknownType text)

namespace Route

def isDirectlyConnected (r : Route) : Bool := ¬ (r.gateway ≠ [] ∧ ¬ ipEqual r.gateway ipv4zero ∧
    ¬ ipEqual r.gateway ipv6zero)

def string (texts : Texts) (r : Route) : String :=
  let key := texts.netString r.destination ++ "|" ++ r.interface
  if r.gateway ≠ [] then key ++ "|" ++ texts.ipString r.gateway else key

def trackedFamily (r : Route) : Family :=
  if to4 r.destination.ip ≠ [] then .inet else .inet6

end Route

structure SystemRoute where
  destination : IPNet
  gateway : Bytes
  interface : String
  deriving DecidableEq, Repr

def Route.system (r : Route) : SystemRoute := ⟨r.destination, r.gateway, r.interface⟩

structure Manager where
  tables : Tables
  tracked : Family → String → Option Route
  installed : SystemRoute → Bool

def Tables.findBestRoute (tables : Tables) (dst : Bytes) : Checked (Except RouteError Route) :=
  if dst = [] then .ok (.error .nilDestination)
  else if to4 dst ≠ [] then do
    let rt ← tables.v4.lookup (to4 dst)
    return rt.elim (.error .noRoute) .ok
  else if to16 dst ≠ [] then do
    let rt ← tables.v6.lookup (to16 dst)
    return rt.elim (.error .noRoute) .ok
  else .ok (.error .invalidAddress)

/-- A route without a gateway takes that of the best route to its address. -/
def Tables.fillGateway (tables : Tables) (rt : Route) : Checked (Except RouteError Route) :=
  if rt.gateway = [] then do
    match ← tables.findBestRoute rt.destination.ip with
    | .error error => return .error error
    | .ok bestRoute =>
      if bestRoute.isDirectlyConnected then return .error .directlyConnected
      return .ok { rt with
        gateway := bestRoute.gateway, interface := bestRoute.interface }
  else .ok (.ok rt)

namespace Manager

def install (texts : Texts) (m : Manager) (rt : Route) : Manager :=
  { m with
    installed := Function.update m.installed rt.system true
    tracked := Function.update m.tracked rt.trackedFamily
      (Function.update (m.tracked rt.trackedFamily) (rt.string texts)
        (some rt)) }

def uninstall (texts : Texts) (m : Manager) (rt : Route) : Manager :=
  { m with
    installed := Function.update m.installed rt.system false
    tracked := Function.update m.tracked rt.trackedFamily
      (Function.update (m.tracked rt.trackedFamily) (rt.string texts) none) }

def addRoute (texts : Texts) (m : Manager) (rt : Route) : Checked (Except RouteError Manager) := do
  match ← m.tables.fillGateway rt with
  | .error error => return .error error
  | .ok rt => return .ok (m.install texts rt)

def removeRoute (texts : Texts) (m : Manager) (rt : Route) : Manager :=
  match m.tracked rt.trackedFamily (rt.string texts) with
  | none => m
  | some _ => m.uninstall texts rt

def handleRouteAdd (texts : Texts) (adapter : Adapter) (tunIfName : String) :
    Manager → List ConfigRoute → Checked Manager
  | m, [] => .ok m
  | m, r :: routes =>
    match buildRoute texts adapter r tunIfName with
    | .error _ => m.handleRouteAdd texts adapter tunIfName routes
    | .ok rt => do
        match ← m.addRoute texts rt with
        | .error _ => m.handleRouteAdd texts adapter tunIfName routes
        | .ok m => m.handleRouteAdd texts adapter tunIfName routes

def handleRouteRemove (texts : Texts) (adapter : Adapter)
    (tunIfName : String) : Manager → List ConfigRoute → Manager
  | m, [] => m
  | m, r :: routes =>
    match buildRoute texts adapter r tunIfName with
    | .error _ => m.handleRouteRemove texts adapter tunIfName routes
    | .ok rt => (m.removeRoute texts rt).handleRouteRemove texts adapter tunIfName routes

end Manager

end Pig.Routing
