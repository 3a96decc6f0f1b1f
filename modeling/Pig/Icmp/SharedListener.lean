import Pig.Icmp.Parsing
import Pig.Lib.Run
import Pig.Network.IPv4

namespace Pig.Icmp

open Network

/-! The listener that the connections share. One loop reads packets from the
socket, another one forwards each of them to the connection of its sender. -/

/-- Connections are numbered in the order in which they are made. `incoming` is
what was sent on their channels of that name, and `received` how much of it they
received; `cleared` are the packets whose buffers were put back. -/
structure SharedListener where
  isServer : Bool
  packetChan : List Received
  dispatching : Option (Received × Option Nat)
  clients : UInt64 → Option Nat
  conns : List (Bytes × UInt16)
  closed : List Nat
  connChan : List Nat
  incoming : List (Received × Nat)
  received : Nat → Nat
  cleared : List Received
  read : List Received

namespace SharedListener

inductive Event where
  | read (packet : Received)
  | take
  | dispatch
  | forward
  | accept
  | receive (conn : Nat)
  | close (conn : Nat)
  | dial (ip : Bytes) (icmpID : UInt16)

def start (isServer : Bool) : SharedListener :=
  ⟨isServer, [], none, fun _ => none, [], [], [], [], fun _ => 0, [], []⟩

def chanSize : Nat := 1024

section

variable (sum64 : Bytes → UInt64) (l : SharedListener) (ip : Bytes) (icmpID : UInt16)

def wantType : ICMPType := if l.isServer then icmpTypeEcho else icmpTypeEchoReply

def sentTo (conn : Nat) : List Received := (l.incoming.filter (·.2 = conn)).map (·.1)

/-- The identifier as it is in the memory of a little-endian machine. -/
def getClientKey : UInt64 := sum64 (to4 ip ++ [icmpID.toUInt8, (icmpID >>> 8).toUInt8])

def store : SharedListener :=
  { l with
    conns := l.conns ++ [(ip, icmpID)]
    clients := Function.update l.clients (getClientKey sum64 ip icmpID) (some l.conns.length) }

def closeConn (conn : Nat) : SharedListener :=
  { l with
    closed := conn :: l.closed
    clients := Function.update l.clients (getClientKey sum64 ip icmpID) none }

def getClientConn (echoCode : UInt8) : SharedListener × Option Nat :=
  match l.clients (getClientKey sum64 ip icmpID) with
  | some conn => (l, some conn)
  | none =>
    if echoCode = 255 then (l, none)
    else if l.connChan.length < chanSize then
      ({ l.store sum64 ip icmpID with connChan := l.connChan ++ [l.conns.length] },
        some l.conns.length)
    else ((l.store sum64 ip icmpID).closeConn sum64 ip icmpID l.conns.length, none)

def clearMemory (packet : Received) : SharedListener :=
  { l with dispatching := none, cleared := l.cleared ++ [packet] }

def dispatch (packet : Received) : SharedListener :=
  if packet.icmpType ≠ l.wantType then l.clearMemory packet
  else
    match l.getClientConn sum64 packet.ipSrc packet.icmpEchoID packet.icmpCode with
    | (l, none) => l.clearMemory packet
    | (l, some conn) => { l with dispatching := some (packet, some conn) }

def step : Event → Option SharedListener
  | .read packet => some <|
    if l.packetChan.length < chanSize then
      { l with packetChan := l.packetChan ++ [packet], read := l.read ++ [packet] }
    else { l with cleared := l.cleared ++ [packet], read := l.read ++ [packet] }
  | .take =>
    match l.dispatching, l.packetChan with
    | none, packet :: rest =>
      some { l with packetChan := rest, dispatching := some (packet, none) }
    | _, _ => none
  | .dispatch =>
    match l.dispatching with
    | some (packet, none) => some (l.dispatch sum64 packet)
    | _ => none
  | .forward =>
    match l.dispatching with
    | some (packet, some conn) => some <|
      if (l.sentTo conn).length - l.received conn < chanSize then
        { l with dispatching := none, incoming := l.incoming ++ [(packet, conn)] }
      else l.clearMemory packet
    | _ => none
  | .accept => if l.connChan = [] then none else some { l with connChan := l.connChan.tail }
  | .receive conn =>
    if l.received conn < (l.sentTo conn).length then
      some { l with received := Function.update l.received conn (l.received conn + 1) }
    else none
  | .close conn =>
    if conn ∈ l.closed then none
    else l.conns[conn]?.map fun (ip, icmpID) => l.closeConn sum64 ip icmpID conn
  | .dial ip icmpID => some (l.store sum64 ip icmpID)

def keyOf (conn : Nat) : Option UInt64 :=
  l.conns[conn]?.map fun (ip, icmpID) => getClientKey sum64 ip icmpID

/-- The packets that have not been dropped, in their order. -/
def kept : List Received :=
  l.incoming.map (·.1) ++ l.dispatching.toList.map (·.1) ++ l.packetChan

structure Delivers : Prop where
  found : ∀ key conn, l.clients key = some conn → l.keyOf sum64 conn = some key
  addressed : ∀ packet conn, (packet, conn) ∈ l.incoming ∨ l.dispatching =
    some (packet, some conn) → packet.icmpType = l.wantType ∧
    l.keyOf sum64 conn = some (getClientKey sum64 packet.ipSrc packet.icmpEchoID)
  ordered : l.kept.Sublist l.read
  custody : l.read.Perm (l.cleared ++ l.kept)

end

variable {sum64 : Bytes → UInt64} {l after : SharedListener} {event : Event} {ip : Bytes}
  {icmpID : UInt16} {packet : Received} {conn : Nat}

namespace Delivers

variable (delivers : l.Delivers sum64)

include delivers

theorem store : (l.store sum64 ip icmpID).Delivers sum64 := by
  have hkeyOf : ∀ {conn key}, l.keyOf sum64 conn = some key →
      (l.store sum64 ip icmpID).keyOf sum64 conn = some key := by
    simp only [keyOf, SharedListener.store]
    grind
  refine { delivers with found := fun key conn hfound => ?_, addressed := fun packet conn h => ?_ }
  · simp only [SharedListener.store, Function.update_apply] at hfound
    split at hfound
    · next heq =>
        cases hfound
        simp [keyOf, SharedListener.store, heq]
    · exact hkeyOf (delivers.found key conn hfound)
  · exact (delivers.addressed packet conn h).imp_right hkeyOf

theorem closeConn : (l.closeConn sum64 ip icmpID conn).Delivers sum64 := by
  refine { delivers with found := fun key conn hfound => delivers.found key conn ?_ }
  simp only [SharedListener.closeConn] at hfound
  grind

theorem getClientConn {echoCode : UInt8} {found : Option Nat}
    (hget : l.getClientConn sum64 ip icmpID echoCode = (after, found)) : after.Delivers sum64 ∧
      after.dispatching = l.dispatching ∧ after.wantType = l.wantType ∧
      ∀ conn ∈ found, after.keyOf sum64 conn = some (getClientKey sum64 ip icmpID) := by
  have stored : (l.store sum64 ip icmpID).Delivers sum64 := delivers.store
  revert hget
  fun_cases SharedListener.getClientConn sum64 l ip icmpID echoCode <;> rintro ⟨⟩
  · next hfound => exact ⟨delivers, rfl, rfl, fun _ h => delivers.found _ _ (h ▸ hfound)⟩
  · exact ⟨delivers, rfl, rfl, nofun⟩
  · refine ⟨{ stored with }, rfl, rfl, ?_⟩
    rintro _ ⟨⟩
    simp [keyOf, SharedListener.store]
  · exact ⟨stored.closeConn, rfl, rfl, nofun⟩

theorem clearMemory {found : Option Nat} (hheld : l.dispatching = some (packet, found)) :
    (l.clearMemory packet).Delivers sum64 := by
  have ⟨found, addressed, ordered, custody⟩ := delivers
  simp only [kept, hheld] at ordered custody
  refine ⟨found, fun packet conn h => addressed packet conn (h.imp_right nofun), ?_, ?_⟩
  · refine .trans ?_ ordered
    simp [kept, SharedListener.clearMemory]
  · refine custody.trans ?_
    simpa [kept, SharedListener.clearMemory] using List.perm_middle.append_left l.cleared

theorem dispatch (hheld : l.dispatching = some (packet, none)) :
    (l.dispatch sum64 packet).Delivers sum64 := by
  unfold SharedListener.dispatch
  split
  · exact delivers.clearMemory hheld
  next htype =>
  split
  · next hget =>
      obtain ⟨got, hsame, -, -⟩ := delivers.getClientConn hget
      exact got.clearMemory (hsame.trans hheld)
  · next after conn hget =>
      obtain ⟨got, hsame, hwant, hkey⟩ := delivers.getClientConn hget
      have hkept : kept { after with dispatching := some (packet, some conn) } = after.kept := by
        simp [kept, hsame, hheld]
      refine ⟨got.found, ?_, hkept ▸ got.ordered, hkept ▸ got.custody⟩
      rintro other assigned (hsent | hheld)
      · exact got.addressed other assigned (.inl hsent)
      · obtain ⟨rfl, rfl⟩ : packet = other ∧ conn = assigned := by simpa using hheld
        exact ⟨(not_not.mp htype).trans hwant.symm, hkey conn rfl⟩

theorem step (hstep : l.step sum64 event = some after) : after.Delivers sum64 := by
  have ⟨found, addressed, ordered, custody⟩ := delivers
  revert hstep
  fun_cases SharedListener.step sum64 l event <;> intro hstep <;> try cases hstep
  · next packet =>
      split
      · refine ⟨found, addressed, ?_, ?_⟩
        · simpa [kept] using ordered.append (.refl [packet])
        · simpa [kept] using custody.append_right [packet]
      · refine ⟨found, addressed, ordered.trans (List.sublist_append_left ..), ?_⟩
        refine (custody.append_right [packet]).trans ?_
        rw [List.append_assoc, List.append_assoc]
        exact List.perm_append_comm.append_left l.cleared
  · next packet rest hchan hidle =>
      have hkept : kept { l with packetChan := rest, dispatching := some (packet, none) } =
          l.kept := by simp [kept, hchan, hidle]
      exact ⟨found, fun _ _ h => addressed _ _ (h.imp_right nofun), hkept ▸ ordered,
        hkept ▸ custody⟩
  · next hheld => exact delivers.dispatch hheld
  · next packet conn hheld =>
      split
      · have hkept : kept { l with dispatching := none, incoming := l.incoming ++
            [(packet, conn)] } = l.kept := by simp [kept, hheld]
        refine ⟨found, fun other assigned h => addressed _ _ ?_, hkept ▸ ordered, hkept ▸ custody⟩
        simpa [hheld, eq_comm] using h
      · exact delivers.clearMemory hheld
  · exact { delivers with }
  · exact { delivers with }
  · obtain ⟨⟨ip, icmpID⟩, -, rfl⟩ := Option.map_eq_some_iff.mp hstep
    exact delivers.closeConn
  · exact delivers.store

end Delivers

def echoFrom (host : UInt8) : Received :=
  ⟨⟨icmpTypeEcho, 0, 7, 0, [], 0, 0, [], 0⟩, [10, 0, 0, host], [10, 0, 0, 9]⟩

end SharedListener

end Pig.Icmp
