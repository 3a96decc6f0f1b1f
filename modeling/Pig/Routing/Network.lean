import Mathlib.Tactic.MkIffOfInductiveProp
import Pig.Routing.Table

namespace Pig.Routing

open Go Network BitString

def addressBits (ip : Bytes) : List Bool :=
  if to4 ip ≠ [] then ofBytes (to4 ip) else ofBytes (to16 ip)

namespace Route

def network (route : Route) : List Bool :=
  (addressBits route.destination.ip).take (routeToPrefixBits route)

@[mk_iff]
structure Canonical (family : Family) (route : Route) : Prop where
  family_eq : route.family = some family
  contiguous : simpleMaskLength route.destination.mask ≠ none
  width_eq : 8 * route.destination.mask.length = family.bitWidth

instance (family : Family) (route : Route) : Decidable (route.Canonical family) :=
  decidable_of_iff' _ (canonical_iff family route)

end Route

def maskBits (ones length : Nat) : List Bool :=
  List.replicate ones true ++ List.replicate (length - ones) false

theorem ofByte_of_shiftOnes (byte : UInt8) (hzero : (shiftOnes 8 0 byte).2 = 0) :
    (shiftOnes 8 0 byte).1 ≤ 8 ∧ ofByte byte = maskBits (shiftOnes 8 0 byte).1 8 := by
  have hall : ∀ number : Fin 256, (shiftOnes 8 0 (UInt8.ofFin number)).2 = 0 →
      (shiftOnes 8 0 (UInt8.ofFin number)).1 ≤ 8 ∧ ofByte (UInt8.ofFin number) =
          maskBits (shiftOnes 8 0 (UInt8.ofFin number)).1 8 := by
    decide +kernel
  exact hall byte.toFin hzero

theorem ofBytes_of_all_zero {bytes : Bytes} (h : bytes.all (· == 0)) :
    ofBytes bytes = List.replicate (8 * bytes.length) false := by
  induction bytes with
  | nil => rfl
  | cons byte bytes ih =>
    simp only [List.all_cons, Bool.and_eq_true, beq_iff_eq] at h
    rw [ofBytes_cons, h.1, ih h.2, List.length_cons, Nat.mul_add,
      Nat.add_comm, ← List.replicate_append_replicate]
    rfl

variable {mask : Bytes} {ones : Nat}

theorem ofBytes_mask (h : simpleMaskLength mask = some ones) :
    ones ≤ 8 * mask.length ∧ ofBytes mask = maskBits ones (8 * mask.length) := by
  induction mask generalizing ones with
  | nil =>
    cases h
    exact ⟨Nat.le_refl 0, rfl⟩
  | cons byte rest ih =>
    rw [simpleMaskLength] at h
    split at h
    · next hbyte =>
        obtain ⟨count, hcount, rfl⟩ := Option.map_eq_some_iff.mp h
        obtain ⟨hle, hbits⟩ := ih hcount
        refine ⟨by rw [List.length_cons]; omega, ?_⟩
        rw [ofBytes_cons, hbyte, hbits, maskBits, maskBits, List.length_cons, Nat.mul_add,
          Nat.add_comm _ (8 * 1), Nat.mul_one, Nat.add_sub_add_left, ←
          List.replicate_append_replicate, List.append_assoc]
        rfl
    · dsimp only at h
      split at h
      · next hend =>
          cases h
          obtain ⟨hle, hbits⟩ := ofByte_of_shiftOnes byte hend.1
          refine ⟨by rw [List.length_cons]; omega, ?_⟩
          rw [ofBytes_cons, hbits, ofBytes_of_all_zero hend.2, maskBits, maskBits,
            List.append_assoc, List.length_cons, List.replicate_append_replicate]
          congr 2
          omega
      · cases h

theorem ofBytes_zipWith_and {left right : Bytes} (h : left.length = right.length) :
    ofBytes (left.zipWith (· &&& ·) right) = (ofBytes left).zipWith (· && ·) (ofBytes right) := by
  induction left generalizing right with
  | nil => rfl
  | cons byte left ih =>
    cases right with
    | nil => cases h
    | cons other right =>
      rw [List.zipWith_cons_cons, ofBytes_cons, ofBytes_cons, ofBytes_cons,
        ih (Nat.succ.inj h), List.zipWith_append (by simp)]
      simp [ofByte, leading, bit, List.range, List.range.loop]

theorem zipWith_neutral {Value : Type} {combine : Value → Value → Value}
    {neutral : Value} (hneutral : ∀ value, combine value neutral = value)
    (values : List Value) {count : Nat} (h : values.length ≤ count) :
    values.zipWith combine (List.replicate count neutral) = values := by
  induction values generalizing count with
  | nil => rfl
  | cons first values ih =>
    cases count with
    | zero => cases h
    | succ count =>
      rw [List.replicate_succ, List.zipWith_cons_cons, ih (Nat.le_of_succ_le_succ h), hneutral]

theorem take_zipWith_mask (bits : List Bool) (ones length : Nat) :
    (bits.zipWith (· && ·) (maskBits ones length)).take ones = bits.take ones := by
  rw [List.take_zipWith, maskBits, List.take_left' List.length_replicate]
  exact zipWith_neutral Bool.and_true _ (List.length_take_le _ _)

variable {ip : Bytes}

theorem take_mask_of_ne_zero {index : Nat} {byte : UInt8}
    (hcontiguous : simpleMaskLength mask ≠ none)
    (hindex : mask[index]? = some byte) (hbyte : byte ≠ 0) :
    mask.take index = List.replicate index 0xff := by
  induction mask generalizing index with
  | nil => cases hindex
  | cons first rest ih =>
    cases index with
    | zero => rfl
    | succ index =>
      rw [List.getElem?_cons_succ] at hindex
      rw [simpleMaskLength] at hcontiguous
      by_cases hfirst : first = 0xff
      · rw [if_pos hfirst] at hcontiguous
        have hrest := ih (fun h => hcontiguous (by rw [h]; rfl)) hindex
        rw [List.take_succ_cons, hrest, hfirst, List.replicate_succ]
      · rw [if_neg hfirst] at hcontiguous
        have hzero : rest.all (· == 0) := by
          by_contra hnot
          exact hcontiguous (if_neg fun h => hnot h.2)
        have hmem := List.mem_of_getElem? hindex
        exact absurd (beq_iff_eq.mp (List.all_eq_true.mp hzero _ hmem)) hbyte

theorem eq_of_and_eq {left right : UInt8} (h : left &&& right = 0xff) : left = 0xff := by
  have hand : left.toNat &&& right.toNat = 255 := congrArg UInt8.toNat h
  have hle : left.toNat &&& right.toNat ≤ left.toNat := Nat.and_le_left
  have hlt := left.toNat_lt
  exact UInt8.toNat_inj.mp (show left.toNat = 255 by omega)

theorem and_ff (byte : UInt8) : byte &&& 0xff = byte := by
  apply UInt8.toNat_inj.mp
  exact Nat.and_two_pow_sub_one_of_lt_two_pow byte.toNat_lt

theorem take_of_masked (hip : ip.length = 16)
    (hmask : mask.length = 16) (hcontiguous : simpleMaskLength mask ≠ none)
    (hmasked : (ip.zipWith (· &&& ·) mask).take 12 = v4InV6) :
    ip.take 12 = v4InV6 := by
  have hlast : ip[11] &&& mask[11] = 0xff := by
    have h := congrArg (·[11]?) hmasked
    simpa [List.getElem?_take, List.getElem?_zipWith, hip, hmask, v4InV6] using h
  have hne : mask[11] ≠ 0 := by
    intro hzero
    rw [hzero] at hlast
    simp at hlast
  have hones := take_mask_of_ne_zero hcontiguous (List.getElem?_eq_getElem (by omega)) hne
  have hrest : ip.take 11 = v4InV6.take 11 := by
    have h := congrArg (List.take 11) hmasked
    rw [List.take_take, show min 11 12 = 11 from rfl, List.take_zipWith,
      hones, zipWith_neutral and_ff _ (List.length_take_le _ _)] at h
    exact h
  rw [List.take_succ_eq_append_getElem (by omega), hrest, eq_of_and_eq hlast]
  rfl

theorem familyOf_eq_inet : familyOf ip = some .inet ↔ to4 ip ≠ [] := by
  unfold familyOf
  split
  · next h => simp [h]
  · next h =>
      split <;> simp_all

theorem familyOf_eq_inet6 :
    familyOf ip = some .inet6 ↔ to4 ip = [] ∧ to16 ip ≠ [] := by
  unfold familyOf
  split
  · next h => simp [h]
  · next h =>
      split <;> simp_all

theorem maskSize_eq (h : simpleMaskLength mask = some ones) :
    maskSize mask = (ones, mask.length * 8) := by
  rw [maskSize, h]

theorem maskIP_eq_inet (hip : to4 ip ≠ []) (hmask : mask.length = 4) :
    maskIP ip mask = (to4 ip).zipWith (· &&& ·) mask := by
  have hlen := length_to4 hip
  unfold to4 at hlen hip ⊢
  by_cases hshort : ip.length = 4
  · simp [maskIP, hmask, hshort]
  · rw [if_neg hshort] at hip hlen ⊢
    by_cases hmapped : ip.length = 16 ∧ ip.take 12 = v4InV6
    · simp [maskIP, hmask, hmapped.1, hmapped.2]
    · exact absurd (if_neg hmapped) hip

theorem maskIP_eq_inet6 (hip : ip.length = 16) (hmask : mask.length = 16) :
    maskIP ip mask = ip.zipWith (· &&& ·) mask := by
  simp [maskIP, hip, hmask]

variable {destination : IPNet}

theorem calculateNetworkAddress_eq (hones : simpleMaskLength destination.mask = some ones) :
    calculateNetworkAddress destination =
      if ones = destination.mask.length * 8 then destination.ip
      else maskIP destination.ip destination.mask := by
  rw [calculateNetworkAddress, maskSize_eq hones]

/-! The network address keeps the bits of the destination up to the length of
the prefix, clears the others, and stays an address of the family. -/

def maskedAddress (ip mask : Bytes) (ones : Nat) : Bytes :=
  if ones = mask.length * 8 then ip else ip.zipWith (· &&& ·) mask

theorem length_maskedAddress (hlength : ip.length = mask.length) :
    (maskedAddress ip mask ones).length = mask.length := by
  rw [maskedAddress]
  split
  · exact hlength
  · rw [List.length_zipWith, hlength, Nat.min_self]

theorem take_maskedAddress (hlength : ip.length = mask.length)
    (hones : simpleMaskLength mask = some ones) :
    (ofBytes (maskedAddress ip mask ones)).take ones = (ofBytes ip).take ones := by
  rw [maskedAddress]
  split
  · rfl
  · rw [ofBytes_zipWith_and hlength, (ofBytes_mask hones).2, take_zipWith_mask]

theorem getElem?_zipWith_mask {bits : List Bool} {length position : Nat}
    (hlength : bits.length = length) (hlow : ones ≤ position) (hhigh : position < length) :
    (bits.zipWith (· && ·) (maskBits ones length))[position]? = some false := by
  have hmask : (maskBits ones length)[position]? = some false := by
    rw [maskBits, List.getElem?_append_right (by simpa using hlow),
      List.length_replicate, List.getElem?_replicate_of_lt (by omega)]
  rw [List.getElem?_zipWith, hmask, List.getElem?_eq_getElem (by omega : position < bits.length)]
  exact congrArg some (Bool.and_false _)

theorem masked_maskedAddress {width : Nat} (hlength : ip.length = mask.length)
    (hwidth : 8 * mask.length = width) (hones : simpleMaskLength mask = some ones) :
    Masked width (maskedAddress ip mask ones).toNatBE ones := by
  intro position hlow hhigh
  have hbits : (maskedAddress ip mask ones).length = mask.length := length_maskedAddress hlength
  have hbit := @bit_toNatBE width position (maskedAddress ip mask ones)
    (by rw [hbits, hwidth]) hhigh
  have hnot : ones ≠ mask.length * 8 := by omega
  rw [maskedAddress, if_neg hnot, ofBytes_zipWith_and hlength, (ofBytes_mask hones).2,
    getElem?_zipWith_mask (by rw [length_ofBytes, hlength]) hlow (by omega)] at hbit
  rw [maskedAddress, if_neg hnot]
  exact (Option.some.inj hbit).symm

theorem to4_calculateNetworkAddress
    (hip : to4 destination.ip ≠ []) (hmask : destination.mask.length = 4)
    (hones : simpleMaskLength destination.mask = some ones) :
    to4 (calculateNetworkAddress destination) =
      maskedAddress (to4 destination.ip) destination.mask ones := by
  rw [calculateNetworkAddress_eq hones, maskedAddress]
  by_cases hwhole : ones = destination.mask.length * 8
  · rw [if_pos hwhole, if_pos hwhole]
  · rw [if_neg hwhole, if_neg hwhole, maskIP_eq_inet hip hmask]
    apply to4_of_length
    rw [List.length_zipWith, length_to4 hip, hmask]
    rfl

theorem to16_calculateNetworkAddress
    (h4 : to4 destination.ip = []) (hip : destination.ip.length = 16)
    (hmask : destination.mask.length = 16) (hones : simpleMaskLength destination.mask = some ones) :
    to4 (calculateNetworkAddress destination) = [] ∧ to16 (calculateNetworkAddress destination) =
        maskedAddress (to16 destination.ip) destination.mask ones := by
  rw [calculateNetworkAddress_eq hones, maskedAddress, to16_of_length hip]
  by_cases hwhole : ones = destination.mask.length * 8
  · rw [if_pos hwhole, if_pos hwhole]
    exact ⟨h4, to16_of_length hip⟩
  · have hlength : (destination.ip.zipWith (· &&& ·) destination.mask).length = 16 := by
      rw [List.length_zipWith, hip, hmask]
      rfl
    have hmapped : (destination.ip.zipWith (· &&& ·) destination.mask).take 12 ≠ v4InV6 := by
      intro hmasked
      have hbefore := take_of_masked hip hmask
        (fun hnone => by rw [hnone] at hones; cases hones) hmasked
      rw [to4, if_neg (by omega), if_pos ⟨hip, hbefore⟩] at h4
      have hdrop := congrArg List.length h4
      rw [List.length_drop, hip] at hdrop
      cases hdrop
    rw [if_neg hwhole, if_neg hwhole, maskIP_eq_inet6 hip hmask]
    exact ⟨to4_of_not_mapped hlength hmapped, to16_of_length hlength⟩

variable {family : Family} {route : Route}

theorem Route.Canonical.exists_address (canonical : route.Canonical family) :
    ∃ address : Bytes, 8 * address.length = family.bitWidth ∧ routeToTablePrefix route = some
      address.toNatBE ∧ (ofBytes address).take (routeToPrefixBits route) = route.network ∧ Masked
      family.bitWidth address.toNatBE (routeToPrefixBits route) := by
  obtain ⟨hfamily, hcontiguous, hwidth⟩ := canonical
  obtain ⟨ones, hones⟩ := Option.ne_none_iff_exists'.mp hcontiguous
  have hbits : routeToPrefixBits route = ones := by
    rw [routeToPrefixBits, maskSize_eq hones]
  rw [Route.network, routeToTablePrefix, addressBits, hbits]
  have haddress {ip : Bytes} (hlength : ip.length = route.destination.mask.length) :
      8 * (maskedAddress ip route.destination.mask ones).length = family.bitWidth ∧
      maskedAddress ip route.destination.mask ones ≠ [] := by
    rw [← List.length_pos_iff, length_maskedAddress hlength]
    refine ⟨hwidth, ?_⟩
    cases family <;> simp only [Family.bitWidth] at hwidth <;> omega
  cases family with
  | inet =>
    have hmask : route.destination.mask.length = 4 := by
      change _ = 8 * 4 at hwidth
      omega
    have hip := familyOf_eq_inet.mp hfamily
    have hlength := (length_to4 hip).trans hmask.symm
    obtain ⟨hlong, hne⟩ := haddress hlength
    rw [if_pos hip, to4_calculateNetworkAddress hip hmask hones]
    exact ⟨_, hlong, if_pos hne, take_maskedAddress hlength hones,
      masked_maskedAddress hlength hwidth hones⟩
  | inet6 =>
    have hmask : route.destination.mask.length = 16 := by
      change _ = 8 * 16 at hwidth
      omega
    obtain ⟨h4, h16⟩ := familyOf_eq_inet6.mp hfamily
    have hip := length_of_to16 h4 h16
    have hlength : (to16 route.destination.ip).length = route.destination.mask.length := by
      rw [to16_of_length hip, hip, hmask]
    obtain ⟨hlong, hne⟩ := haddress hlength
    obtain ⟨hnot4, hto16⟩ := to16_calculateNetworkAddress h4 hip hmask hones
    rw [if_neg (not_not.mpr h4), hto16]
    exact ⟨_, hlong, (if_neg (not_not.mpr hnot4)).trans (if_pos hne), take_maskedAddress hlength
      hones, masked_maskedAddress hlength hwidth hones⟩

theorem Route.Canonical.prefixBits_le (canonical : route.Canonical family) :
    routeToPrefixBits route ≤ family.bitWidth := by
  obtain ⟨ones, hones⟩ := Option.ne_none_iff_exists'.mp canonical.contiguous
  rw [routeToPrefixBits, maskSize_eq hones, ← canonical.width_eq]
  exact (ofBytes_mask hones).1

theorem Route.Canonical.exists_key (canonical : route.Canonical family) :
    ∃ key, routeToTablePrefix route = some key ∧ key < 2 ^ family.bitWidth ∧
      leading family.bitWidth key (routeToPrefixBits route) = route.network ∧
      Masked family.bitWidth key (routeToPrefixBits route) := by
  obtain ⟨address, hwidth, hkey, hbits, hmasked⟩ := canonical.exists_address
  refine ⟨_, hkey, ?_, ?_, hmasked⟩
  · rw [← hwidth]
    exact toNatBE_lt_two_pow address
  · rw [← hbits, ← leading_toNatBE, hwidth, take_leading canonical.prefixBits_le]

/-- A network of four bytes, whose address may be written in sixteen, or one of
sixteen bytes. -/
@[mk_iff]
structure IsNetwork (net : IPNet) : Prop where
  contiguous : simpleMaskLength net.mask ≠ none
  width : to4 net.ip ≠ [] ∧ net.mask.length = 4 ∨ net.ip.length = 16 ∧ net.mask.length = 16
  masked : maskIP net.ip net.mask =
    if net.mask.length = 4 then to4 net.ip else net.ip

instance (net : IPNet) : Decidable (IsNetwork net) := decidable_of_iff' _ (isNetwork_iff net)

def IPNet.wide (net : IPNet) : Bytes :=
  if net.mask.length = 4 then to4 net.ip else net.ip

namespace IsNetwork

variable {net : IPNet}

theorem length_wide (isNetwork : IsNetwork net) : net.wide.length = net.mask.length := by
  obtain ⟨hip, hmask⟩ | ⟨hip, hmask⟩ := isNetwork.width
  · rw [IPNet.wide, if_pos hmask, length_to4 hip, hmask]
  · rw [IPNet.wide, if_neg (by omega), hip, hmask]

theorem zipWith_wide (isNetwork : IsNetwork net) :
    net.wide.zipWith (· &&& ·) net.mask = net.wide := by
  obtain ⟨hip, hmask⟩ | ⟨hip, hmask⟩ := isNetwork.width
  · rw [IPNet.wide, if_pos hmask, ← maskIP_eq_inet hip hmask, isNetwork.masked, if_pos hmask]
  · have hlong : ¬ net.mask.length = 4 := by omega
    rw [IPNet.wide, if_neg hlong, ← maskIP_eq_inet6 hip hmask, isNetwork.masked, if_neg hlong]

end IsNetwork

end Pig.Routing
