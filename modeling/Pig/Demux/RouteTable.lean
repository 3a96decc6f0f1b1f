import Mathlib.Data.List.Perm.Basic
import Pig.Routing.Manager

namespace Pig.Demux

open Network Routing BitString

/-! The table that finds the tunnel for a packet: the routes of all the tunnels
in one list, the longest prefixes first. -/

def networkNumberAndMask (n : IPNet) : Bytes × Bytes :=
  let ip := if to4 n.ip ≠ [] then to4 n.ip else n.ip
  if to4 n.ip = [] ∧ n.ip.length ≠ 16 then ([], [])
  else if n.mask.length = 4 then
    if ip.length ≠ 4 then ([], []) else (ip, n.mask)
  else if n.mask.length = 16 then
    (ip, if ip.length = 4 then n.mask.drop 12 else n.mask)
  else ([], [])

def contains (n : IPNet) (ip : Bytes) : Bool :=
  let (nn, m) := networkNumberAndMask n
  let ip := if to4 ip ≠ [] then to4 ip else ip
  if ip.length ≠ nn.length then false
  else nn.zipWith (· &&& ·) m = ip.zipWith (· &&& ·) m

def prefixLength (net : IPNet) : Nat := (maskSize net.mask).1

def spelled (mask ip : Bytes) : Bytes :=
  if mask.length = 4 then to4 ip else to16 ip

/-- The network and the address are of one family, and the prefix that the
network is written with starts the address. -/
def Covers (net : IPNet) (ip : Bytes) : Prop := familyOf net.ip = familyOf ip ∧
    (ofBytes net.wide).take (prefixLength net) <+: ofBytes (spelled net.mask ip)

def Matches (net : IPNet) (ip : Bytes) : Prop := familyOf net.ip = familyOf ip ∧
  net.wide.zipWith (· &&& ·) net.mask = (spelled net.mask ip).zipWith (· &&& ·) net.mask

theorem zipWith_false {bits : List Bool} {count : Nat} (h : bits.length = count) :
    bits.zipWith (· && ·) (List.replicate count false) =
      List.replicate count false := by
  subst h
  induction bits with
  | nil => rfl
  | cons bit bits ih =>
    rw [List.length_cons, List.replicate_succ, List.zipWith_cons_cons, ih, Bool.and_false]

theorem zipWith_maskBits {bits : List Bool} {ones : Nat} (hones : ones ≤ bits.length) :
    bits.zipWith (· && ·) (maskBits ones bits.length) =
      bits.take ones ++ List.replicate (bits.length - ones) false := by
  obtain ⟨front, back, rfl, rfl⟩ : ∃ front back, bits = front ++ back ∧ front.length = ones :=
    ⟨_, _, (List.take_append_drop ones bits).symm, List.length_take_of_le hones⟩
  rw [maskBits, List.zipWith_append (by simp), List.take_left,
    List.length_append, Nat.add_sub_cancel_left,
    zipWith_neutral Bool.and_true _ (Nat.le_refl _), zipWith_false rfl]

theorem ofByte_inj {left right : UInt8} : ofByte left = ofByte right ↔ left = right := by
  refine ⟨fun h => UInt8.toNat_inj.mp ?_, congrArg ofByte⟩
  -- No bit is beyond the eighth.
  have hmasked : ∀ number, Masked 8 number 8 :=
    fun number position hlow hhigh => by omega
  exact eq_of_leading_eq left.toNat_lt right.toNat_lt (hmasked _) (hmasked _) h

theorem ofBytes_inj {left right : Bytes} (h : left.length = right.length) :
    ofBytes left = ofBytes right ↔ left = right := by
  refine ⟨fun heq => ?_, congrArg ofBytes⟩
  induction left generalizing right with
  | nil => exact (List.eq_nil_of_length_eq_zero h.symm).symm
  | cons byte left ih =>
    cases right with
    | nil => cases h
    | cons other right =>
      obtain ⟨hbyte, hrest⟩ := List.append_inj heq (by simp)
      rw [ofByte_inj.mp hbyte, ih (Nat.succ.inj h) hrest]

theorem masked_eq_iff {ip other mask : Bytes} {ones : Nat}
    (hip : ip.length = mask.length) (hother : other.length = mask.length)
    (hones : simpleMaskLength mask = some ones) :
    ip.zipWith (· &&& ·) mask = other.zipWith (· &&& ·) mask ↔
      (ofBytes ip).take ones <+: ofBytes other := by
  obtain ⟨hle, hmask⟩ := ofBytes_mask hones
  have hbits {bytes : Bytes} (hlength : bytes.length = mask.length) :
      ofBytes (bytes.zipWith (· &&& ·) mask) = (ofBytes bytes).take ones ++
        List.replicate (8 * mask.length - ones) false := by
    have hwide : (ofBytes bytes).length = 8 * mask.length := by
      rw [length_ofBytes, hlength]
    rw [ofBytes_zipWith_and hlength, hmask, ← hwide]
    exact zipWith_maskBits (by omega)
  rw [← ofBytes_inj (by simp [hip, hother]), hbits hip, hbits hother,
    List.append_left_inj, List.prefix_iff_eq_take, List.length_take,
    length_ofBytes, hip, Nat.min_eq_left hle]

theorem take_mask {net : IPNet} (isNetwork : IsNetwork net)
    (hip : net.ip.length = 16) (hmask : net.mask.length = 16)
    (hmapped : net.ip.take 12 = v4InV6) :
    net.mask.take 12 = List.replicate 12 0xff := by
  have hlong : ¬ net.mask.length = 4 := by omega
  have hwhole : net.ip.zipWith (· &&& ·) net.mask = net.ip := by
    have h := isNetwork.zipWith_wide
    rwa [IPNet.wide, if_neg hlong] at h
  have hlast : net.ip[11] = 0xff := by
    have h := congrArg (·[11]?) hmapped
    simpa [List.getElem?_take, hip, v4InV6] using h
  have hand : net.ip[11] &&& net.mask[11] = net.ip[11] := by
    have h := congrArg (·[11]?) hwhole
    simpa [List.getElem?_zipWith, hip, hmask] using h
  have hfull : net.mask[11] = 0xff := by
    rw [hlast] at hand
    rw [UInt8.and_comm] at hand
    exact eq_of_and_eq hand
  rw [List.take_succ_eq_append_getElem (by omega), hfull, take_mask_of_ne_zero isNetwork.contiguous
      (List.getElem?_eq_getElem (by omega)) (by rw [hfull]; decide)]
  rfl

theorem drop_masked_eq_iff {ip other mask : Bytes} (hip : ip.take 12 = other.take 12)
    (hmask : mask.take 12 = List.replicate 12 0xff)
    (hlength : ip.length = mask.length) (hother : other.length = mask.length) :
    (ip.drop 12).zipWith (· &&& ·) (mask.drop 12) =
        (other.drop 12).zipWith (· &&& ·) (mask.drop 12) ↔
      ip.zipWith (· &&& ·) mask = other.zipWith (· &&& ·) mask := by
  have hsplit {bytes : Bytes} (h : bytes.length = mask.length) :
      bytes.zipWith (· &&& ·) mask = bytes.take 12 ++
        (bytes.drop 12).zipWith (· &&& ·) (mask.drop 12) := by
    conv_lhs => rw [← List.take_append_drop 12 bytes, ← List.take_append_drop 12 mask]
    rw [List.zipWith_append (by simp [h]), hmask,
      zipWith_neutral and_ff _ (List.length_take_le _ _)]
  rw [hsplit hlength, hsplit hother, hip, List.append_right_inj]

section

variable {net : IPNet} {ip : Bytes}

theorem contains_eq {number mask : Bytes} (h : networkNumberAndMask net = (number, mask)) :
    contains net ip =
      if (if to4 ip ≠ [] then to4 ip else ip).length ≠ number.length then false
      else number.zipWith (· &&& ·) mask =
        (if to4 ip ≠ [] then to4 ip else ip).zipWith (· &&& ·) mask := by
  rw [contains, h]

theorem contains_iff_of_inet (hnet : to4 net.ip ≠ [])
    (hmask : net.mask.length = 4) (haddress : to16 ip ≠ []) :
    contains net ip ↔ Matches net ip := by
  have hnumber : networkNumberAndMask net = (to4 net.ip, net.mask) := by
    simp [networkNumberAndMask, hnet, hmask, length_to4 hnet]
  rw [contains_eq hnumber, Matches, IPNet.wide, spelled, if_pos hmask, if_pos hmask,
    familyOf_eq_inet.mpr hnet, length_to4 hnet]
  by_cases hip : to4 ip = []
  · simp [hip, length_of_to16 hip haddress, familyOf_eq_inet6.mpr ⟨hip, haddress⟩]
  · simp [hip, length_to4 hip, familyOf_eq_inet.mpr hip]

theorem contains_iff_of_inet6 (hnet : to4 net.ip = [])
    (hlength : net.ip.length = 16) (hmask : net.mask.length = 16)
    (haddress : to16 ip ≠ []) :
    contains net ip ↔ Matches net ip := by
  have hlong : ¬ net.mask.length = 4 := by omega
  have hnumber : networkNumberAndMask net = (net.ip, net.mask) := by
    simp [networkNumberAndMask, hnet, hmask, hlength]
  have hfamily : familyOf net.ip = some .inet6 := by
    rw [familyOf_eq_inet6, to16_of_length hlength]
    exact ⟨hnet, List.ne_nil_of_length_pos (by omega)⟩
  rw [contains_eq hnumber, Matches, IPNet.wide, spelled, if_neg hlong, if_neg hlong, hfamily,
    hlength]
  by_cases hip : to4 ip = []
  · have hsixteen := length_of_to16 hip haddress
    simp [hip, hsixteen, familyOf_eq_inet6.mpr ⟨hip, haddress⟩, to16_of_length hsixteen]
  · simp [hip, length_to4 hip, familyOf_eq_inet.mpr hip]

theorem contains_iff_of_mapped (isNetwork : IsNetwork net)
    (hnet : to4 net.ip ≠ []) (hlength : net.ip.length = 16)
    (hmask : net.mask.length = 16) (haddress : to16 ip ≠ []) :
    contains net ip ↔ Matches net ip := by
  have hlong : ¬ net.mask.length = 4 := by omega
  have hsame : net.ip = v4InV6 ++ to4 net.ip := by
    rw [← to16_eq_append hnet, to16_of_length hlength]
  have hnumber : networkNumberAndMask net = (to4 net.ip, net.mask.drop 12) := by
    simp [networkNumberAndMask, hnet, hmask, length_to4 hnet]
  rw [contains_eq hnumber, Matches, IPNet.wide, spelled, if_neg hlong, if_neg hlong,
    familyOf_eq_inet.mpr hnet, length_to4 hnet]
  by_cases hip : to4 ip = []
  · simp [hip, length_of_to16 hip haddress, familyOf_eq_inet6.mpr ⟨hip, haddress⟩]
  · have hiff := @drop_masked_eq_iff net.ip (to16 ip) net.mask
      (by rw [hsame, to16_eq_append hip]; rfl)
      (take_mask isNetwork hlength hmask (by rw [hsame]; rfl))
      (by omega)
      (by rw [to16_eq_append hip, List.length_append, length_to4 hip, hmask]
          rfl)
    rw [to16_eq_append hip] at hiff ⊢
    rw [← hiff]
    conv_rhs => rw [hsame]
    simp [hip, length_to4 hip, familyOf_eq_inet.mpr hip, v4InV6]

theorem contains_iff_covers (isNetwork : IsNetwork net)
    (haddress : to16 ip ≠ []) : contains net ip ↔ Covers net ip := by
  obtain ⟨ones, hones⟩ := Option.ne_none_iff_exists'.mp isNetwork.contiguous
  have hcompare : contains net ip ↔ Matches net ip := by
    obtain ⟨hnet, hmask⟩ | ⟨hlength, hmask⟩ := isNetwork.width
    · exact contains_iff_of_inet hnet hmask haddress
    · by_cases hnet : to4 net.ip = []
      · exact contains_iff_of_inet6 hnet hlength hmask haddress
      · exact contains_iff_of_mapped isNetwork hnet hlength hmask haddress
  rw [hcompare, Matches, Covers, prefixLength, maskSize_eq hones]
  refine and_congr_right fun hfamily => ?_
  refine masked_eq_iff isNetwork.length_wide ?_ hones
  obtain ⟨hnet, hmask⟩ | ⟨hlength, hmask⟩ := isNetwork.width
  · rw [familyOf_eq_inet.mpr hnet] at hfamily
    rw [spelled, if_pos hmask, length_to4 (familyOf_eq_inet.mp hfamily.symm), hmask]
  · have hlong : ¬ net.mask.length = 4 := by omega
    rw [spelled, if_neg hlong, length_to16 haddress, hmask]

end

section

variable {Adapter : Type}

structure TunnelRoute (Adapter : Type) where
  network : IPNet
  tunnel : Adapter
  deriving DecidableEq, Repr

structure RouteTable (Adapter : Type) where
  routes : List (TunnelRoute Adapter)
  defaultTunnel : Option Adapter
  deriving DecidableEq, Repr

def newRouteTable : RouteTable Adapter := ⟨[], none⟩

def onesCount8 (byte : UInt8) : Nat := (ofByte byte).count true

def prefixLen (mask : Bytes) : Nat := mask.foldl (fun n b => n + onesCount8 b) 0

def comparePrefixes (a b : TunnelRoute Adapter) : Int :=
  prefixLen b.network.mask - prefixLen a.network.mask

structure Library (Adapter : Type) where
  parseCIDR : String → Option IPNet
  sortFunc : (TunnelRoute Adapter → TunnelRoute Adapter → Int) →
    List (TunnelRoute Adapter) → List (TunnelRoute Adapter)

structure Library.Lawful (library : Library Adapter) : Prop where
  parsed : ∀ text net, library.parseCIDR text = some net → IsNetwork net
  perm : ∀ routes, (library.sortFunc comparePrefixes routes).Perm routes
  sorted : ∀ routes, (library.sortFunc comparePrefixes routes).Pairwise
    fun a b => comparePrefixes a b ≤ 0

namespace RouteTable

def parseRoutes (library : Library Adapter) (ta : Adapter)
    (routes : List ConfigRoute) : List (TunnelRoute Adapter) :=
  routes.filterMap fun r =>
    (library.parseCIDR r.destination).map (⟨·, ta⟩)

def addRoutes (library : Library Adapter) (rt : RouteTable Adapter)
    (ta : Adapter) (routes : List ConfigRoute) : RouteTable Adapter :=
  { rt with
    routes := library.sortFunc comparePrefixes
      (rt.routes ++ parseRoutes library ta routes) }

variable [DecidableEq Adapter]

def removeRoutes (rt : RouteTable Adapter) (ta : Adapter) : RouteTable Adapter where
  routes := rt.routes.filter fun r => r.tunnel ≠ ta
  defaultTunnel := if rt.defaultTunnel = some ta then none
    else rt.defaultTunnel

omit [DecidableEq Adapter]

def setDefault (rt : RouteTable Adapter) (ta : Option Adapter) : RouteTable Adapter :=
  { rt with defaultTunnel := ta }

def lookup (rt : RouteTable Adapter) (dst : Bytes) : Option Adapter :=
  match rt.routes.find? fun r => contains r.network dst with
  | some r => some r.tunnel
  | none => rt.defaultTunnel

end RouteTable

inductive TableOp (Adapter : Type) where
  | addRoutes (ta : Adapter) (routes : List ConfigRoute)
  | removeRoutes (ta : Adapter)
  | setDefault (ta : Option Adapter)

namespace TableOp

variable [DecidableEq Adapter]

def apply (library : Library Adapter) (rt : RouteTable Adapter) :
    TableOp Adapter → RouteTable Adapter
  | .addRoutes ta routes => rt.addRoutes library ta routes
  | .removeRoutes ta => rt.removeRoutes ta
  | .setDefault ta => rt.setDefault ta

def register (library : Library Adapter) (owned : List (TunnelRoute Adapter)) :
    TableOp Adapter → List (TunnelRoute Adapter)
  | .addRoutes ta routes => owned ++ RouteTable.parseRoutes library ta routes
  | .removeRoutes ta => owned.filter fun r => r.tunnel ≠ ta
  | .setDefault _ => owned

def choose (current : Option Adapter) : TableOp Adapter → Option Adapter
  | .addRoutes _ _ => current
  | .removeRoutes ta => if current = some ta then none else current
  | .setDefault ta => ta

omit [DecidableEq Adapter]

def Adds (ta : Adapter) : TableOp Adapter → Prop
  | .addRoutes other _ => other = ta
  | .removeRoutes _ => False
  | .setDefault other => other = some ta

end TableOp

section

variable [DecidableEq Adapter]

def tableAfter (library : Library Adapter) (ops : List (TableOp Adapter)) : RouteTable Adapter :=
  ops.foldl (TableOp.apply library) newRouteTable

def registered (library : Library Adapter) (ops : List (TableOp Adapter)) :
    List (TunnelRoute Adapter) :=
  ops.foldl (TableOp.register library) []

def defaultAfter (ops : List (TableOp Adapter)) : Option Adapter := ops.foldl TableOp.choose none

end

theorem foldl_onesCount8 (mask : Bytes) (count : Nat) :
    mask.foldl (fun n b => n + onesCount8 b) count =
      count + (ofBytes mask).count true := by
  induction mask generalizing count with
  | nil => rfl
  | cons byte mask ih =>
    rw [List.foldl_cons, ih, ofBytes_cons, List.count_append, onesCount8]
    omega

theorem prefixLen_eq {net : IPNet} (isNetwork : IsNetwork net) :
    prefixLen net.mask = prefixLength net := by
  obtain ⟨ones, hones⟩ := Option.ne_none_iff_exists'.mp isNetwork.contiguous
  rw [prefixLen, foldl_onesCount8, (ofBytes_mask hones).2, prefixLength, maskSize_eq hones]
  simp [maskBits, List.count_replicate]

structure RouteTable.Holds (rt : RouteTable Adapter)
    (owned : List (TunnelRoute Adapter)) (default : Option Adapter) :
    Prop where
  perm : rt.routes.Perm owned
  sorted : rt.routes.Pairwise fun a b => comparePrefixes a b ≤ 0
  networks : ∀ route ∈ owned, IsNetwork route.network
  default_eq : rt.defaultTunnel = default

namespace RouteTable.Holds

variable {library : Library Adapter} {rt : RouteTable Adapter}
  {owned : List (TunnelRoute Adapter)} {default : Option Adapter}

theorem new : (newRouteTable : RouteTable Adapter).Holds [] none where
  perm := .refl _
  sorted := .nil
  networks := by simp
  default_eq := rfl

theorem isNetwork_of_parsed (lawful : library.Lawful) {ta : Adapter}
    {routes : List ConfigRoute} {route : TunnelRoute Adapter}
    (h : route ∈ parseRoutes library ta routes) : IsNetwork route.network := by
  obtain ⟨text, -, hparsed⟩ := List.mem_filterMap.mp h
  obtain ⟨net, hnet, rfl⟩ := Option.map_eq_some_iff.mp hparsed
  exact lawful.parsed _ net hnet

theorem apply [DecidableEq Adapter] (holds : rt.Holds owned default)
    (lawful : library.Lawful) (op : TableOp Adapter) :
    (op.apply library rt).Holds (op.register library owned)
      (op.choose default) := by
  cases op with
  | addRoutes ta routes =>
    refine ⟨(lawful.perm _).trans (holds.perm.append_right _),
      lawful.sorted _, ?_, holds.default_eq⟩
    intro route hroute
    obtain howned | hparsed := List.mem_append.mp hroute
    · exact holds.networks route howned
    · exact isNetwork_of_parsed lawful hparsed
  | removeRoutes ta =>
    refine ⟨holds.perm.filter _, holds.sorted.filter _, ?_, ?_⟩
    · intro route hroute
      exact holds.networks route (List.mem_of_mem_filter hroute)
    · simp only [TableOp.apply, TableOp.choose, removeRoutes, holds.default_eq]
  | setDefault ta => exact ⟨holds.perm, holds.sorted, holds.networks, rfl⟩

theorem tableAfter [DecidableEq Adapter] (lawful : library.Lawful) (ops : List (TableOp Adapter)) :
    (tableAfter library ops).Holds (registered library ops)
      (defaultAfter ops) := by
  induction ops using List.reverseRecOn with
  | nil => exact .new
  | append_singleton ops op ih =>
    simp only [Demux.tableAfter, registered, defaultAfter, List.foldl_append] at ih ⊢
    exact ih.apply lawful op

theorem lookup (holds : rt.Holds owned default) {dst : Bytes} (haddress : to16 dst ≠ []) :
    (∃ route ∈ owned, Covers route.network dst ∧ rt.lookup dst = some route.tunnel ∧
      ∀ other ∈ owned, Covers other.network dst →
        prefixLength other.network ≤ prefixLength route.network) ∨
    (∀ route ∈ owned, ¬ Covers route.network dst) ∧
      rt.lookup dst = default := by
  have hcovers : ∀ route ∈ owned, contains route.network dst ↔ Covers route.network dst :=
    fun route hroute => contains_iff_covers (holds.networks route hroute) haddress
  unfold RouteTable.lookup
  split
  · next route hfound =>
      obtain ⟨hcontains, before, after, hroutes, hbefore⟩ := List.find?_eq_some_iff_append.mp hfound
      have howned : route ∈ owned := holds.perm.mem_iff.mp (by simp [hroutes])
      refine .inl ⟨route, howned, (hcovers route howned).mp hcontains, rfl, ?_⟩
      intro other hother hcover
      have hmem : other ∈ before ++ route :: after := hroutes ▸ holds.perm.mem_iff.mpr hother
      have hsorted := holds.sorted
      rw [hroutes, List.pairwise_append, List.pairwise_cons] at hsorted
      simp only [List.mem_append, List.mem_cons] at hmem
      obtain hearlier | rfl | hlater := hmem
      · have hnot := hbefore other hearlier
        rw [(hcovers other hother).mpr hcover] at hnot
        cases hnot
      · exact Nat.le_refl _
      · have hle := hsorted.2.1.1 other hlater
        rw [comparePrefixes, prefixLen_eq (holds.networks _ hother),
          prefixLen_eq (holds.networks _ howned)] at hle
        omega
  · next hnone =>
      refine .inr ⟨fun route hroute hcover => ?_, holds.default_eq⟩
      have hnot := List.find?_eq_none.mp hnone route (holds.perm.mem_iff.mpr hroute)
      exact hnot ((hcovers route hroute).mpr hcover)

end RouteTable.Holds

def Absent (ta : Adapter) (owned : List (TunnelRoute Adapter)) (default : Option Adapter) : Prop :=
  (∀ route ∈ owned, route.tunnel ≠ ta) ∧ default ≠ some ta

section

variable [DecidableEq Adapter] {library : Library Adapter} {ta : Adapter}
  {owned : List (TunnelRoute Adapter)} {default : Option Adapter}

theorem absent_removeRoutes : Absent ta ((TableOp.removeRoutes ta).register library owned)
      ((TableOp.removeRoutes ta).choose default) := by
  refine ⟨fun route hroute => ?_, ?_⟩
  · simpa using (List.mem_filter.mp hroute).2
  · unfold TableOp.choose
    dsimp only
    split
    · simp
    · assumption

theorem Absent.step (absent : Absent ta owned default) {op : TableOp Adapter} (hop : ¬ op.Adds ta) :
    Absent ta (op.register library owned) (op.choose default) := by
  obtain ⟨howned, hdefault⟩ := absent
  cases op with
  | addRoutes other routes =>
    refine ⟨fun route hroute => ?_, hdefault⟩
    obtain hold | hnew := List.mem_append.mp hroute
    · exact howned route hold
    · obtain ⟨text, -, hparsed⟩ := List.mem_filterMap.mp hnew
      obtain ⟨net, -, rfl⟩ := Option.map_eq_some_iff.mp hparsed
      exact hop
  | removeRoutes other =>
    refine ⟨fun route hroute => howned route (List.mem_of_mem_filter hroute), ?_⟩
    unfold TableOp.choose
    dsimp only
    split
    · simp
    · exact hdefault
  | setDefault other => exact ⟨howned, hop⟩

theorem Absent.run {ops : List (TableOp Adapter)}
    (absent : Absent ta owned default) (hops : ∀ op ∈ ops, ¬ op.Adds ta) :
    Absent ta (ops.foldl (TableOp.register library) owned)
      (ops.foldl TableOp.choose default) := by
  induction ops generalizing owned default with
  | nil => exact absent
  | cons op ops ih =>
    obtain ⟨hop, hops⟩ := List.forall_mem_cons.mp hops
    exact ih (absent.step hop) hops

end

def threeNetworks : Library Nat where
  parseCIDR text :=
    if text = "10.0.0.0/8" then some ⟨[10, 0, 0, 0], [255, 0, 0, 0]⟩
    else if text = "10.1.0.0/16" then some ⟨[10, 1, 0, 0], [255, 255, 0, 0]⟩
    else if text = "fd00::/8" then
      some ⟨0xfd :: List.replicate 15 0, 0xff :: List.replicate 15 0⟩
    else none
  sortFunc cmp routes := routes.mergeSort fun a b => cmp a b ≤ 0

theorem lawful_threeNetworks : threeNetworks.Lawful where
  parsed := by
    intro text net hparsed
    simp only [threeNetworks] at hparsed
    split at hparsed
    · cases hparsed
      decide
    · split at hparsed
      · cases hparsed
        decide
      · split at hparsed
        · cases hparsed
          decide
        · cases hparsed
  perm := fun routes => List.mergeSort_perm routes _
  sorted := by
    intro routes
    have htrans : ∀ a b c : TunnelRoute Nat,
        decide (comparePrefixes a b ≤ 0) → decide (comparePrefixes b c ≤ 0) →
          decide (comparePrefixes a c ≤ 0) := by
      grind [comparePrefixes]
    have htotal : ∀ a b : TunnelRoute Nat, decide (comparePrefixes a b ≤ 0) ||
          decide (comparePrefixes b a ≤ 0) := by
      grind [comparePrefixes]
    simpa [threeNetworks] using List.pairwise_mergeSort htrans htotal routes

def twoTunnels : List (TableOp Nat) := [.addRoutes 1 [⟨"10.0.0.0/8", .tunnel, "", ""⟩],
    .addRoutes 2 [⟨"10.1.0.0/16", .tunnel, "", ""⟩,
      ⟨"fd00::/8", .tunnel, "", ""⟩],
    .setDefault (some 1), .removeRoutes 1]

end

end Pig.Demux
