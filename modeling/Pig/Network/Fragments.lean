import Mathlib.Data.List.GetD
import Pig.Network.Verification

namespace Pig.Network.IPv4Packet

open Go OnesComplement

def fragmentOffset (p : Slice) : Nat := wordAt p 6 % 8192 * 8

def moreFragments (p : Slice) : Bool := decide (wordAt p 6 / 8192 % 2 = 1)

def payload (p : Slice) : Bytes := p.array.window (headerLen p) (wordAt p 2 - headerLen p)

/-- A fragment in a buffer of the pool, which has room for every field of a
transport header. -/
@[mk_iff]
structure Fragment (protocol : UInt8) (start : Nat) (more : Bool) (p : Slice) :
    Prop where
  version_eq : (p.byte 0 >>> 4).toNat = 4
  header_ge : 20 ≤ headerLen p
  header_le : headerLen p ≤ wordAt p 2
  total_le : wordAt p 2 ≤ p.len
  room : headerLen p + 20 ≤ p.len
  protocol_eq : p.byte 9 = protocol
  offset_eq : fragmentOffset p = start
  more_eq : moreFragments p = more

instance (protocol : UInt8) (start : Nat) (more : Bool) (p : Slice) : Decidable
  (Fragment protocol start more p) := decidable_of_iff' _ (fragment_iff ..)

inductive Cut (protocol : UInt8) : Nat → List Slice → Bytes → Prop
  | last {start : Nat} {p : Slice} (fragment : Fragment protocol start false p) :
      Cut protocol start [p] (payload p)
  | more {start : Nat} {p : Slice} {rest : List Slice} {bytes : Bytes}
      (fragment : Fragment protocol start true p)
      (hpositive : 0 < (payload p).length)
      (haligned : (payload p).length % 8 = 0)
      (cut : Cut protocol (start + (payload p).length) rest bytes) :
      Cut protocol start (p :: rest) (payload p ++ bytes)

@[mk_iff]
structure Datagram (protocol : UInt8) (bytes : Bytes) : Prop where
  protocol_mem : protocol = protocolTCP ∨ protocol = protocolUDP ∨ protocol = protocolICMP
  length_ge : leastHeader protocol ≤ bytes.length
  length_le : bytes.length ≤ 65515
  udp_length : protocol = protocolUDP → Bytes.toNatBE (bytes.window 4 2) = bytes.length

instance (protocol : UInt8) (bytes : Bytes) : Decidable (Datagram protocol bytes) :=
  decidable_of_iff' _ (datagram_iff ..)

def reassemble (fragments : List Slice) : Bytes := fragments.flatMap payload

def rewriteFragment (side : Side) (ip : Bytes) (p : Slice) : Checked Slice := do
  updateChecksum (← setIP side p ip)

def checksumField (protocol : UInt8) : Nat := (checksumOffset protocol).getD 0

/-- Every header verifies, and the reassembled bytes are those sent except for
the transport checksum. -/
def Transparent (side : Side) (ip : Bytes) (protocol : UInt8) (fragments : List Slice)
  (bytes : Bytes) : Prop := ∃ after, fragments.mapM (rewriteFragment side ip) = .ok after ∧
  (∀ p ∈ after, HeaderVerifies p) ∧ (reassemble after).length = bytes.length ∧ ∀ index, ¬ WordPlaces
  (checksumField protocol) index → (reassemble after).getD index 0 = bytes.getD index 0

def Writes (p : Slice) : Prop :=
  p.byte 9 = protocolUDP → headerLen p + wordAt p (headerLen p + 4) ≤ p.len

instance (p : Slice) : Decidable (Writes p) := inferInstanceAs (Decidable (_ → _))

def Hit (p : Slice) : Prop := headerLen p + checksumField (p.byte 9) < wordAt p 2 ∧ Writes p

instance (p : Slice) : Decidable (Hit p) := inferInstanceAs (Decidable (_ ∧ _))

/-- The same fragments, with other bytes at most where the later ones would have
a transport checksum. -/
def Varies : List Slice → List Slice → Prop
  | first :: rest, other :: others =>
    first = other ∧ List.Forall₂ (fun p q => p.ChangedAt
      (WordPlaces (headerLen p + checksumField (p.byte 9))) q) rest others
  | fragments, others => fragments = others

section

variable {protocol : UInt8} {start : Nat} {more : Bool} {p q after : Slice}
  {side : Side} {ip : Bytes}

theorem updateTransportChecksum_of_not_writes (hlen : headerLen p + 8 ≤ p.len)
    (hnine : 9 < p.len) (hwrites : ¬ Writes p) :
    updateTransportChecksum p = .ok p := by
  obtain ⟨hudp, hlong⟩ := Classical.not_imp.1 hwrites
  rw [updateTransportChecksum_of_udp hnine hudp, updateUDPChecksum, payloadOffset_bind_eq_ok]
  refine ⟨by omega, ?_⟩
  rw [if_neg (by omega), word_bind_eq_ok, if_pos (by omega)]
  exact ⟨by omega, rfl⟩

def RewrittenPlaces (p : Slice) (index : Nat) : Prop := 10 ≤ index ∧ index < 20 ∨
    Writes p ∧ WordPlaces (headerLen p + checksumField (p.byte 9)) index

def Rewritten (side : Side) (ip : Bytes) (p after : Slice) : Prop := rewriteFragment side ip p = .ok
  after ∧ HeaderVerifies after ∧ p.ChangedAt (RewrittenPlaces p) after

namespace Fragment

theorem ten_le_checksum (fragment : Fragment protocol start more p) (index : Nat)
    (hplace : WordPlaces (headerLen p + checksumField (p.byte 9)) index) :
    10 ≤ index := by
  have hge := fragment.header_ge
  obtain rfl | rfl := hplace <;> omega

theorem of_changedAt {places : Nat → Prop} (fragment : Fragment protocol start more p)
    (changed : p.ChangedAt places q) (hplaces : ∀ index, places index → 10 ≤ index) :
    Fragment protocol start more q := by
  have hkeep : ∀ index, index < 10 → q.byte index = p.byte index := fun index hindex =>
    changed.byte_eq index fun hplace => Nat.not_le.2 hindex (hplaces index hplace)
  obtain ⟨hheader, htotal, hprotocol⟩ := header_of_changedAt changed hplaces
  have hflags : wordAt q 6 = wordAt p 6 := wordAt_congr (hkeep 6 (by decide)) (hkeep 7 (by decide))
  rw [fragment_iff, fragmentOffset, moreFragments, hflags, hkeep 0 (by decide), hheader, htotal,
    hprotocol, changed.len_eq, ← fragmentOffset, ← moreFragments, ← fragment_iff]
  exact fragment

theorem writes_congr {places : Nat → Prop} (changed : p.ChangedAt places q)
    (hplaces : ∀ index, places index → 10 ≤ index) (hlength : p.byte 9 = protocolUDP → ∀ index,
    places index → ¬ WordPlaces (headerLen p + 4) index) :
    Writes q ↔ Writes p := by
  obtain ⟨hheader, -, hprotocol⟩ := header_of_changedAt changed hplaces
  rw [Writes, Writes, hprotocol, hheader, changed.len_eq]
  refine forall_congr' fun hudp => ?_
  rw [wordAt_congr (changed.byte_eq _ fun h => hlength hudp _ h (.inl rfl))
    (changed.byte_eq _ fun h => hlength hudp _ h (.inr rfl))]

variable (fragment : Fragment protocol start more p)

include fragment

theorem writes_addressed
    (changed : p.ChangedAt (fun index => 10 ≤ index ∧ index < 20) q) : Writes q ↔ Writes p := by
  have hge := fragment.header_ge
  refine writes_congr changed (fun index h => h.1) fun _ index h => ?_
  rintro (rfl | rfl) <;> omega

theorem ten_le_rewritten (index : Nat) (hplace : RewrittenPlaces p index) : 10 ≤ index := by
  have hge := fragment.header_ge
  obtain hindex | ⟨-, rfl | rfl⟩ := hplace <;> omega

theorem exists_updateTransportChecksum :
    ∃ after, updateTransportChecksum p = .ok after ∧ p.ChangedAt (fun index => Writes p ∧
        WordPlaces (headerLen p + checksumField (p.byte 9)) index) after := by
  have hroom := fragment.room
  by_cases hwrites : Writes p
  · obtain ⟨after, hupdate⟩ := (succeeds_updateTransportChecksum (p := p)
      (by omega) fragment.total_le).2 ⟨fun _ => by omega, fun _ => by omega⟩
    refine ⟨after, hupdate, (changedAt_updateTransportChecksum hupdate).widen ?_⟩
    rintro index ⟨offset, hoffset, hplace⟩
    refine ⟨hwrites, ?_⟩
    rw [checksumField, hoffset]
    exact hplace
  · exact ⟨p, updateTransportChecksum_of_not_writes (by omega) (by omega) hwrites, .rfl p⟩

theorem exists_updateIPChecksum (side : Side) (ip : Bytes) :
    ∃ addressed middle, setIP side p ip = .ok addressed ∧ updateIPChecksum addressed = .ok middle ∧
      Fragment protocol start more addressed ∧ Fragment protocol start more middle ∧
      p.ChangedAt (fun index => 12 ≤ index ∧ index < 20) addressed ∧
      p.ChangedAt (fun index => 10 ≤ index ∧ index < 20) middle := by
  have hroom := fragment.room
  obtain ⟨addressed, hset, hfirst⟩ := exists_setIP (p := p) side ip
    (Nat.le_trans (by omega) p.len_le)
  have fragmentAddressed := fragment.of_changedAt hfirst
    fun index h => by omega
  have hroomAddressed := fragmentAddressed.room
  obtain ⟨middle, hheader⟩ := (succeeds_updateIPChecksum addressed).2 ⟨by omega, by omega⟩
  have hboth : p.ChangedAt (fun index => 10 ≤ index ∧ index < 20) middle :=
    (hfirst.widen fun index h => by omega).trans ((changedAt_resum hheader).widen fun index h => by
      obtain rfl | rfl := h <;> decide)
  exact ⟨addressed, middle, hset, hheader, fragmentAddressed,
    fragment.of_changedAt hboth fun index h => h.1, hfirst, hboth⟩

theorem updateChecksum_eq {middle : Slice} (hheader : updateIPChecksum p = .ok middle) :
    updateChecksum p = updateTransportChecksum middle := by
  have hroom := fragment.room
  rw [IPv4Packet.updateChecksum_eq (by omega) fragment.total_le, hheader, ok_bind]

theorem exists_rewriteFragment (side : Side) (ip : Bytes) : ∃ after, Rewritten side ip p after := by
  obtain ⟨addressed, middle, hset, hheader, fragmentAddressed, fragmentMiddle, hfirst, hboth⟩ :=
    fragment.exists_updateIPChecksum side ip
  obtain ⟨after, htransport, hthird⟩ := fragmentMiddle.exists_updateTransportChecksum
  have hupdate : updateChecksum addressed = .ok after := by
    rw [fragmentAddressed.updateChecksum_eq hheader, htransport]
  have hverifies : HeaderVerifies after := headerVerifies_updateChecksum fragmentAddressed.header_ge
      (Nat.le_trans fragmentAddressed.header_le fragmentAddressed.total_le)
      fragmentAddressed.total_le hupdate
  have hfields := header_of_changedAt hboth fun index h => h.1
  refine ⟨after, ?_, hverifies, (hboth.widen fun index h => .inl h).trans
    (hthird.widen fun index h => .inr ?_)⟩
  · rw [rewriteFragment, hset, ok_bind]
    exact hupdate
  · rw [fragment.writes_addressed hboth, hfields.1, hfields.2.2] at h
    exact h

end Fragment

end

section

variable {protocol : UInt8} {start position : Nat} {more : Bool}
  {p q middle : Slice} {places : Nat → Prop} {side : Side} {ip : Bytes}

theorem cleared_congr (changed : p.ChangedAt (WordPlaces position) q) :
    cleared q position = cleared p position := by
  apply Slice.ChangedAt.eq_of_nowhere
  refine ((changed.put_congr position 0).put_congr (position + 1) 0).widen ?_
  rintro index ⟨⟨hfirst | hsecond, hneither⟩, hnot⟩
  · exact hneither hfirst
  · exact hnot hsecond

theorem resum_eq (p : Slice) (position : Nat) (checksum : Slice → Checked UInt16) :
    resum p position checksum =
      if position + 1 < p.len then do
        let found ← checksum (cleared p position)
        storeChecksum (cleared p position) position found
      else .error .index := by
  by_cases hlen : position + 1 < p.len
  · have hfirst : p.set position 0 = .ok (p.put position 0) := if_pos (Nat.lt_of_succ_lt hlen)
    have hsecond : (p.put position 0).set (position + 1) 0 = .ok (cleared p position) := if_pos hlen
    rw [resum, if_pos hlen, hfirst, ok_bind, hsecond, ok_bind]
  · rw [resum, if_neg hlen]
    by_cases hlow : position < p.len
    · have hfirst : p.set position 0 = .ok (p.put position 0) := if_pos hlow
      have hsecond : (p.put position 0).set (position + 1) 0 = .error .index := if_neg hlen
      rw [hfirst, ok_bind, hsecond, error_bind]
    · have hfirst : p.set position 0 = .error .index := if_neg hlow
      rw [hfirst, error_bind]

theorem resum_congr (changed : p.ChangedAt (WordPlaces position) q)
    (checksum : Slice → Checked UInt16) :
    resum q position checksum = resum p position checksum := by
  rw [resum_eq, resum_eq, cleared_congr changed, changed.len_eq]

theorem storeChecksum_congr {checksum : UInt16} {before after : Slice}
    (changed : before.ChangedAt places after)
    (hstore : storeChecksum before position checksum = .ok middle) :
    ∃ other, storeChecksum after position checksum = .ok other ∧ middle.ChangedAt places other := by
  simp only [storeChecksum, Slice.set_bind_eq_ok, Slice.set_eq_ok_iff, Slice.len_put] at hstore ⊢
  obtain ⟨hfirst, hsecond, rfl⟩ := hstore
  rw [← changed.len_eq] at hfirst hsecond
  exact ⟨_, ⟨hfirst, hsecond, rfl⟩,
    ((changed.put_congr _ _).put_congr _ _).widen fun index h => h.1.1⟩

theorem setIP_congr (changed : p.ChangedAt places q) (hset : setIP side p ip = .ok middle) :
    ∃ other, setIP side q ip = .ok other ∧ middle.ChangedAt places other := by
  cases side
  all_goals
    simp only [setIP, setSourceIP, setDestinationIP, Slice.copyTo_eq_ok_iff] at hset ⊢
    obtain ⟨hbounds, rfl⟩ := hset
    rw [← changed.cap_eq] at hbounds
    exact ⟨_, ⟨hbounds, rfl⟩, changed.write_congr _ _⟩

theorem updateIPChecksum_congr (changed : p.ChangedAt places q) (hplaces : ∀ index, places index →
    headerLen p ≤ index) (hge : 20 ≤ headerLen p) (hlen : headerLen p ≤ p.len)
    (hupdate : updateIPChecksum p = .ok middle) :
    ∃ other, updateIPChecksum q = .ok other ∧ middle.ChangedAt places other := by
  have hcleared : (cleared p 10).ChangedAt places (cleared q 10) :=
    ((changed.put_congr 10 0).put_congr (10 + 1) 0).widen fun index h => h.1.1
  have hsame : headerLen (cleared q 10) = headerLen p := by
    rw [← headerLen_cleared p]
    refine (header_of_changedAt hcleared fun index hplace => ?_).1
    have hlow := hplaces index hplace
    omega
  have hsum : wordSum (cleared q 10) 0 (headerLen p / 2) =
      wordSum (cleared p 10) 0 (headerLen p / 2) := by
    apply wordSum_congr
    intro index _ hindex
    apply hcleared.byte_eq
    intro hplace
    have hlow := hplaces index hplace
    omega
  have hlenAfter := changed.len_eq
  rw [updateIPChecksum, resum_eq, if_pos (by omega)] at hupdate ⊢
  rw [bind_eq_ok] at hupdate
  obtain ⟨found, hfound, hstore⟩ := hupdate
  rw [payloadOffset_bind_eq_ok, headerLen_cleared,
    sumWords_zero _ (by rw [len_cleared]; omega)] at hfound
  obtain ⟨other, hother, hchanged⟩ := storeChecksum_congr hcleared hstore
  refine ⟨other, ?_, hchanged⟩
  rw [bind_eq_ok]
  refine ⟨found, ?_, hother⟩
  rw [payloadOffset_bind_eq_ok, hsame, sumWords_zero _ (by rw [len_cleared]; omega), hsum]
  exact ⟨by rw [len_cleared]; omega, hfound.2⟩

theorem resumAt_congr (place : Nat) (checksum : Nat → Nat → Slice → Checked UInt16)
    (hge : 20 ≤ headerLen p) (hlen : headerLen p ≤ p.len)
    (changed : p.ChangedAt (WordPlaces (headerLen p + place)) q) :
    (payloadOffset q >>= fun offset => totalLength q >>= fun total =>
        resum q (offset + place) (checksum offset total)) =
      payloadOffset p >>= fun offset => totalLength p >>= fun total =>
        resum p (offset + place) (checksum offset total) := by
  obtain ⟨hheader, htotal, -⟩ := header_of_changedAt changed (by
    rintro index (rfl | rfl) <;> omega)
  have hlenAfter := changed.len_eq
  rw [payloadOffset_eq (p := q) (by omega), payloadOffset_eq (p := p) (by omega), totalLength,
    totalLength, word_eq (p := q) (by omega), word_eq (p := p) (by omega), hheader, htotal]
  exact resum_congr changed _

theorem updateUDPChecksum_congr (hge : 20 ≤ headerLen p) (hlen : headerLen p + 8 ≤ p.len)
    (hfits : headerLen p + wordAt p (headerLen p + 4) ≤ p.len)
    (changed : p.ChangedAt (WordPlaces (headerLen p + 6)) q) :
    updateUDPChecksum q = updateUDPChecksum p := by
  obtain ⟨hheader, -⟩ := header_of_changedAt changed (by
    rintro index (rfl | rfl) <;> omega)
  have hlenAfter := changed.len_eq
  have hlength : wordAt q (headerLen p + 4) = wordAt p (headerLen p + 4) := by
    apply wordAt_congr
    all_goals
      apply changed.byte_eq
      rintro (h | h) <;> omega
  rw [updateUDPChecksum, updateUDPChecksum, payloadOffset_eq (p := q) (by omega), payloadOffset_eq
    (p := p) (by omega), hheader, ok_bind, ok_bind, if_neg (by omega), if_neg (by omega), word_eq
    (p := q) (by omega), word_eq (p := p) (by omega), ok_bind, ok_bind, hlength, if_neg (by omega),
    if_neg (by omega)]
  exact resum_congr changed _

section

variable (fragment : Fragment protocol start more p)
  (hprotocol : protocol = protocolTCP ∨ protocol = protocolUDP ∨ protocol = protocolICMP)
  (hwrites : Writes p)
  (changed : p.ChangedAt (WordPlaces (headerLen p + checksumField (p.byte 9))) q)

include fragment hprotocol hwrites changed

theorem Fragment.updateTransportChecksum_congr :
    updateTransportChecksum q = updateTransportChecksum p := by
  have hge := fragment.header_ge
  have hroom := fragment.room
  have hlen := changed.len_eq
  obtain ⟨-, -, hsame⟩ := header_of_changedAt changed fragment.ten_le_checksum
  rw [← fragment.protocol_eq] at hprotocol
  obtain htcp | hudp | hicmp := hprotocol
  · rw [updateTransportChecksum_of_tcp (by omega) (hsame.trans htcp),
      updateTransportChecksum_of_tcp (by omega) htcp]
    rw [htcp] at changed
    exact resumAt_congr 16 _ hge (by omega) changed
  · rw [updateTransportChecksum_of_udp (by omega) (hsame.trans hudp),
      updateTransportChecksum_of_udp (by omega) hudp]
    rw [hudp] at changed
    exact updateUDPChecksum_congr hge (by omega) (hwrites hudp) changed
  · rw [updateTransportChecksum_of_icmp (by omega) (hsame.trans hicmp),
      updateTransportChecksum_of_icmp (by omega) hicmp]
    rw [hicmp] at changed
    exact resumAt_congr 2 _ hge (by omega) changed

theorem Fragment.rewriteFragment_congr :
    rewriteFragment side ip q = rewriteFragment side ip p := by
  obtain ⟨addressed, middle, hset, hheader, fragmentAddressed, fragmentMiddle, hfirst, hboth⟩ :=
    fragment.exists_updateIPChecksum side ip
  have hfields := header_of_changedAt hboth fun index h => h.1
  have haddressed := header_of_changedAt hfirst fun index h => by omega
  -- The other fragment differs in the same two bytes after each step.
  obtain ⟨otherAddressed, hotherSet, hsecond⟩ := setIP_congr changed hset
  obtain ⟨otherMiddle, hotherHeader, hthird⟩ := updateIPChecksum_congr hsecond
    (by rintro index (rfl | rfl) <;> omega) fragmentAddressed.header_ge
    (Nat.le_trans fragmentAddressed.header_le fragmentAddressed.total_le) hheader
  have fragmentOther := fragmentAddressed.of_changedAt hsecond fragment.ten_le_checksum
  rw [← hfields.1, ← hfields.2.2] at hthird
  have htransport := fragmentMiddle.updateTransportChecksum_congr hprotocol
    ((fragment.writes_addressed hboth).2 hwrites) hthird
  rw [rewriteFragment, rewriteFragment, hset, hotherSet, ok_bind, ok_bind,
    fragmentAddressed.updateChecksum_eq hheader,
    fragmentOther.updateChecksum_eq hotherHeader, htransport]

end

end

section

variable {protocol : UInt8} {start : Nat} {more : Bool} {p q after : Slice}
  {side : Side} {ip : Bytes}

namespace Fragment

theorem length_payload (fragment : Fragment protocol start more p) :
    (payload p).length = wordAt p 2 - headerLen p := by
  have hle := fragment.header_le
  have htotal := Nat.le_trans fragment.total_le p.len_le
  exact Bytes.length_window _ _ _ (by omega)

theorem getD_payload (fragment : Fragment protocol start more p) {index : Nat}
    (hindex : headerLen p + index < wordAt p 2) :
    (payload p).getD index 0 = p.byte (headerLen p + index) := by
  have hlength := fragment.length_payload
  have htotal := Nat.le_trans fragment.total_le p.len_le
  have hinside : index < (payload p).length := by omega
  have harray : headerLen p + index < p.array.length := by omega
  rw [List.getD_eq_getElem?_getD, List.getElem?_eq_getElem hinside, Slice.byte,
    List.getD_eq_getElem?_getD, List.getElem?_eq_getElem harray]
  simp only [payload, Bytes.window, List.getElem_take, List.getElem_drop]

theorem payload_of_rewritten (fragment : Fragment protocol start more p)
    (changed : p.ChangedAt (RewrittenPlaces p) after) :
    (payload after).length = (payload p).length ∧
      ∀ index, (Hit p → ¬ WordPlaces (checksumField (p.byte 9)) index) →
        (payload after).getD index 0 = (payload p).getD index 0 := by
  have hge := fragment.header_ge
  have fragmentAfter := fragment.of_changedAt changed fragment.ten_le_rewritten
  obtain ⟨hheader, htotal, -⟩ := header_of_changedAt changed fragment.ten_le_rewritten
  have hlength : (payload after).length = (payload p).length := by
    rw [fragment.length_payload, fragmentAfter.length_payload, hheader, htotal]
  refine ⟨hlength, fun index hplace => ?_⟩
  by_cases hinside : headerLen p + index < wordAt p 2
  · rw [fragment.getD_payload hinside, fragmentAfter.getD_payload (by omega), hheader]
    apply changed.byte_eq
    rintro (hindex | ⟨hwrites, hword⟩)
    · omega
    · -- The two bytes of the checksum are hit together or from the first on.
      refine hplace ⟨?_, hwrites⟩ ?_
      · obtain heq | heq := hword <;> omega
      · obtain heq | heq := hword
        · exact .inl (by omega)
        · exact .inr (by omega)
  · have houtside : (payload p).length ≤ index := by
      rw [fragment.length_payload]
      omega
    simp only [List.getD_eq_getElem?_getD]
    rw [List.getElem?_eq_none houtside, List.getElem?_eq_none (by rw [hlength]; exact houtside)]

end Fragment

theorem Fragment.eq_of_not_hit (fragment : Fragment protocol start more p)
    (changed : p.ChangedAt (RewrittenPlaces p) after) (hhit : ¬ Hit p) :
    payload after = payload p := by
  obtain ⟨hlength, hbytes⟩ := fragment.payload_of_rewritten changed
  apply List.ext_getElem hlength
  intro index hafter hbefore
  have hbyte := hbytes index fun h => absurd h hhit
  simpa only [List.getD_eq_getElem?_getD, List.getElem?_eq_getElem hafter,
    List.getElem?_eq_getElem hbefore, Option.getD_some] using hbyte

end

section

variable {protocol : UInt8} {start : Nat} {p q : Slice} {fragments front back outs : List Slice}
  {bytes : Bytes} {side : Side} {ip : Bytes}

@[simp] theorem reassemble_cons (p : Slice) (rest : List Slice) : reassemble (p :: rest) = payload p
  ++ reassemble rest := rfl

@[simp] theorem reassemble_append (front back : List Slice) : reassemble (front ++ back) =
  reassemble front ++ reassemble back := List.flatMap_append

namespace Cut

theorem reassemble_eq (cut : Cut protocol start fragments bytes) :
    reassemble fragments = bytes := by
  induction cut with
  | last fragment => simp [reassemble]
  | more fragment hpositive haligned cut ih => rw [reassemble_cons, ih]

theorem cons_cases (cut : Cut protocol start (p :: back) bytes) :
    (back = [] ∧ Fragment protocol start false p) ∨
      (Fragment protocol start true p ∧ 0 < (payload p).length ∧ (payload p).length % 8 = 0 ∧
        Cut protocol (start + (payload p).length) back (reassemble back)) := by
  cases cut with
  | last fragment => exact .inl ⟨rfl, fragment⟩
  | more fragment hpositive haligned cut =>
    refine .inr ⟨fragment, hpositive, haligned, ?_⟩
    rw [cut.reassemble_eq]
    exact cut

theorem fragment_of_mem (cut : Cut protocol start fragments bytes) :
    ∀ p ∈ fragments, ∃ start more, Fragment protocol start more p := by
  induction cut with
  | last fragment => exact List.forall_mem_singleton.2 ⟨_, _, fragment⟩
  | more fragment hpositive haligned cut ih => exact List.forall_mem_cons.2 ⟨⟨_, _, fragment⟩, ih⟩

theorem replace (front : List Slice) (cut : Cut protocol start (front ++ p :: back) bytes)
    (hfragment : ∀ start more, Fragment protocol start more p → Fragment protocol start more q)
    (hlength : (payload q).length = (payload p).length) :
    Cut protocol start (front ++ q :: back) (reassemble (front ++ q :: back)) := by
  induction front generalizing start bytes with
  | nil =>
    obtain ⟨rfl, fragment⟩ | ⟨fragment, hpositive, haligned, rest⟩ := cut.cons_cases
    · simpa [reassemble] using Cut.last (hfragment _ _ fragment)
    · rw [← hlength] at hpositive haligned rest
      exact .more (hfragment _ _ fragment) hpositive haligned rest
  | cons first front ih =>
    obtain ⟨hnil, -⟩ | ⟨fragment, hpositive, haligned, rest⟩ := cut.cons_cases
    · simp at hnil
    · exact .more fragment hpositive haligned (ih rest)

end Cut

variable {relation : Slice → Slice → Prop}

theorem exists_of_mem_right (houts : List.Forall₂ relation fragments outs) (hq : q ∈ outs) :
    ∃ p ∈ fragments, relation p q := by
  induction houts with
  | nil => cases hq
  | cons hrelated houts ih =>
    obtain rfl | hrest := List.mem_cons.1 hq
    · exact ⟨_, List.mem_cons_self .., hrelated⟩
    · obtain ⟨p, hp, hpq⟩ := ih hrest
      exact ⟨p, List.mem_cons_of_mem _ hp, hpq⟩

section

variable (hfragments : ∀ p ∈ fragments, ∃ start more, Fragment protocol start more p)

include hfragments

theorem exists_rewritten (side : Side) (ip : Bytes) :
    ∃ outs, fragments.mapM (rewriteFragment side ip) = .ok outs ∧ (∀ p ∈ outs, HeaderVerifies p) ∧
      List.Forall₂ (Rewritten side ip) fragments outs := by
  have hall : ∃ outs, List.Forall₂ (Rewritten side ip) fragments outs := by
    induction fragments with
    | nil => exact ⟨[], .nil⟩
    | cons p rest ih =>
      obtain ⟨⟨start, more, fragment⟩, hrest⟩ := List.forall_mem_cons.1 hfragments
      obtain ⟨after, hafter⟩ := fragment.exists_rewriteFragment side ip
      obtain ⟨outs, houts⟩ := ih hrest
      exact ⟨after :: outs, .cons hafter houts⟩
  obtain ⟨outs, houts⟩ := hall
  refine ⟨outs, mapM_eq_ok.2 (houts.imp fun p after h => h.1), fun q hq => ?_, houts⟩
  obtain ⟨p, -, hafter⟩ := exists_of_mem_right houts hq
  exact hafter.2.1

theorem length_reassemble (houts : List.Forall₂ (Rewritten side ip) fragments outs) :
    (reassemble outs).length = (reassemble fragments).length := by
  induction houts with
  | nil => rfl
  | cons hafter houts ih =>
    obtain ⟨⟨start, more, fragment⟩, hrest⟩ := List.forall_mem_cons.1 hfragments
    rw [reassemble_cons, reassemble_cons, List.length_append, List.length_append, ih hrest,
      (fragment.payload_of_rewritten hafter.2.2).1]

theorem reassemble_of_not_hit (hhit : ∀ p ∈ fragments, ¬ Hit p)
    (houts : List.Forall₂ (Rewritten side ip) fragments outs) :
    reassemble outs = reassemble fragments := by
  induction houts with
  | nil => rfl
  | cons hafter houts ih =>
    obtain ⟨⟨start, more, fragment⟩, hrest⟩ := List.forall_mem_cons.1 hfragments
    obtain ⟨hfirst, hothers⟩ := List.forall_mem_cons.1 hhit
    rw [reassemble_cons, reassemble_cons, ih hrest hothers,
      fragment.eq_of_not_hit hafter.2.2 hfirst]

end

theorem transparent_of_not_hit (side : Side) (ip : Bytes) (cut : Cut protocol start fragments bytes)
    (hhit : ∀ p ∈ fragments.tail, ¬ Hit p) :
    Transparent side ip protocol fragments bytes := by
  have hfragments := cut.fragment_of_mem
  obtain ⟨outs, hmap, hverifies, houts⟩ := exists_rewritten hfragments side ip
  refine ⟨outs, hmap, hverifies, ?_, ?_⟩
  · rw [length_reassemble hfragments houts, cut.reassemble_eq]
  · intro index hindex
    rw [← cut.reassemble_eq]
    cases houts with
    | nil => rfl
    | @cons first after rest others hafter hothers =>
      obtain ⟨⟨start, more, fragment⟩, hfragments⟩ := List.forall_mem_cons.1 hfragments
      have hrest := reassemble_of_not_hit hfragments hhit hothers
      obtain ⟨hlength, hbytes⟩ := fragment.payload_of_rewritten hafter.2.2
      rw [reassemble_cons, reassemble_cons, hrest]
      by_cases hinside : index < (payload first).length
      · rw [List.getD_append _ _ _ _ (by omega), List.getD_append _ _ _ _ hinside]
        rw [fragment.protocol_eq] at hbytes
        exact hbytes index fun _ => hindex
      · rw [List.getD_append_right _ _ _ _ (by omega),
          List.getD_append_right _ _ _ _ (by omega), hlength]

theorem Fragment.hit_congr {more : Bool} (fragment : Fragment protocol start more p)
    (changed : p.ChangedAt (WordPlaces (headerLen p + checksumField (p.byte 9))) q) :
    Hit q ↔ Hit p := by
  obtain ⟨hheader, htotal, hsame⟩ := header_of_changedAt changed fragment.ten_le_checksum
  rw [Hit, Hit, hheader, htotal, hsame, writes_congr changed fragment.ten_le_checksum]
  intro hudp index hindex hlength
  have hsix : checksumField (p.byte 9) = 6 := by
    rw [hudp]
    rfl
  obtain rfl | rfl := hindex <;> obtain h | h := hlength <;> omega

theorem not_hit_of_varies {others : List Slice} (cut : Cut protocol start fragments bytes)
    (varies : Varies fragments others) (hhit : ∀ p ∈ fragments.tail, ¬ Hit p) :
    ∀ q ∈ others.tail, ¬ Hit q := by
  cases fragments with
  | nil =>
    obtain rfl : [] = others := varies
    simp
  | cons first rest =>
    cases others with
    | nil => simp
    | cons other others =>
      obtain ⟨-, hothers⟩ := varies
      intro q hq
      obtain ⟨p, hp, changed⟩ := exists_of_mem_right hothers hq
      obtain ⟨start, more, fragment⟩ := cut.fragment_of_mem p (List.mem_cons_of_mem first hp)
      rw [fragment.hit_congr changed]
      exact hhit p hp

theorem Fragment.exists_lost {more : Bool} (side : Side) (ip : Bytes)
    (fragment : Fragment protocol start more p) (hprotocol : protocol = protocolTCP ∨ protocol =
    protocolUDP ∨ protocol = protocolICMP) (hhit : Hit p) :
    ∃ q, p.ChangedAt (WordPlaces (headerLen p + checksumField (p.byte 9))) q ∧ ∀ after,
      rewriteFragment side ip q = .ok after → (payload after).getD (checksumField protocol) 0 ≠
      (payload q).getD (checksumField protocol) 0 := by
  obtain ⟨out, hout, -, hrewritten⟩ := fragment.exists_rewriteFragment side ip
  have hplace : headerLen p + checksumField (p.byte 9) < p.cap :=
    Nat.lt_of_lt_of_le hhit.1 (Nat.le_trans fragment.total_le p.len_le)
  have hother : ∃ value : UInt8, value ≠ out.byte (headerLen p + checksumField (p.byte 9)) := by
    by_cases hzero : out.byte (headerLen p + checksumField (p.byte 9)) = 0
    · exact ⟨1, by rw [hzero]; decide⟩
    · exact ⟨0, Ne.symm hzero⟩
  obtain ⟨value, hvalue⟩ := hother
  have hchanged : p.ChangedAt (WordPlaces (headerLen p + checksumField (p.byte 9)))
    (p.put (headerLen p + checksumField (p.byte 9)) value) := Slice.ChangedAt.put p value (.inl rfl)
  have fragmentPut := fragment.of_changedAt hchanged fragment.ten_le_checksum
  obtain ⟨hheader, htotal, -⟩ := header_of_changedAt hchanged fragment.ten_le_checksum
  refine ⟨_, hchanged, fun after hafter => ?_⟩
  rw [fragment.rewriteFragment_congr hprotocol hhit.2 hchanged, hout] at hafter
  obtain rfl := Except.ok.inj hafter
  have fragmentOut := fragment.of_changedAt hrewritten fragment.ten_le_rewritten
  obtain ⟨houtHeader, houtTotal, -⟩ := header_of_changedAt hrewritten fragment.ten_le_rewritten
  have hinside := hhit.1
  rw [fragment.protocol_eq] at *
  rw [fragmentOut.getD_payload (by omega), fragmentPut.getD_payload (by omega),
    houtHeader, hheader, Slice.byte_put_self p hplace]
  exact hvalue.symm

theorem forall₂_split (houts : List.Forall₂ relation (front ++ p :: back) outs) :
    ∃ before after behind, outs = before ++ after :: behind ∧
      List.Forall₂ relation front before ∧ relation p after := by
  induction front generalizing outs with
  | nil =>
    obtain ⟨after, behind, hafter, -, rfl⟩ := List.forall₂_cons_left_iff.1 houts
    exact ⟨[], after, behind, rfl, .nil, hafter⟩
  | cons first front ih =>
    obtain ⟨other, others, hother, hrest, rfl⟩ := List.forall₂_cons_left_iff.1 houts
    obtain ⟨before, after, behind, rfl, hbefore, hafter⟩ := ih hrest
    exact ⟨other :: before, after, behind, rfl, .cons hother hbefore, hafter⟩

theorem getD_reassemble {index : Nat} (hindex : index < (payload p).length) :
    (reassemble (front ++ p :: back)).getD
        ((reassemble front).length + index) 0 = (payload p).getD index 0 := by
  rw [reassemble_append, reassemble_cons, List.getD_append_right _ _ _ _ (Nat.le_add_right _ _),
    Nat.add_sub_cancel_left, List.getD_append _ _ _ _ hindex]

theorem not_transparent (first : Slice) (front back : List Slice) (cut : Cut protocol start
    (first :: front ++ q :: back) bytes) (hlost : ∀ after, rewriteFragment side ip q = .ok after →
    (payload after).getD (checksumField protocol) 0 ≠ (payload q).getD (checksumField protocol) 0)
    (hinside : checksumField protocol < (payload q).length) :
    ¬ Transparent side ip protocol (first :: front ++ q :: back) bytes := by
  rintro ⟨outs, hmap, -, -, hbytes⟩
  obtain ⟨found, hfoundMap, -, hfound⟩ := exists_rewritten cut.fragment_of_mem side ip
  obtain rfl : outs = found := Except.ok.inj (hmap.symm.trans hfoundMap)
  obtain ⟨before, after, behind, rfl, hbefore, hafter⟩ := forall₂_split hfound
  have hlength : (reassemble before).length = (reassemble (first :: front)).length :=
    length_reassemble (fun p hp => cut.fragment_of_mem p (List.mem_append_left _ hp)) hbefore
  obtain ⟨hnil, -⟩ | ⟨-, hpositive, haligned, -⟩ := cut.cons_cases
  · simp at hnil
  · obtain ⟨_, _, fragment⟩ := cut.fragment_of_mem q (by simp)
    have hpayload := (fragment.payload_of_rewritten hafter.2.2).1
    have hfirst : 8 ≤ (reassemble (first :: front)).length := by
      rw [reassemble_cons, List.length_append]
      omega
    refine hlost after hafter.1 ?_
    have hindex := hbytes ((reassemble (first :: front)).length + checksumField protocol) (by
        rintro (h | h) <;> omega)
    rw [← cut.reassemble_eq, getD_reassemble hinside, ← hlength,
      getD_reassemble (by omega)] at hindex
    exact hindex

theorem Datagram.of_middle {front back : Bytes} (middle other : Bytes)
    (datagram : Datagram protocol (front ++ (middle ++ back)))
    (hlength : other.length = middle.length) (hfront : 8 ≤ front.length) :
    Datagram protocol (front ++ (other ++ back)) := by
  have htotal : (front ++ (other ++ back)).length = (front ++ (middle ++ back)).length := by
    simp only [List.length_append, hlength]
  constructor
  · exact datagram.protocol_mem
  · rw [htotal]
    exact datagram.length_ge
  · rw [htotal]
    exact datagram.length_le
  · intro hudp
    have hstated := datagram.udp_length hudp
    rw [Bytes.window_append_left _ _ _ _ (by omega)] at hstated ⊢
    rw [hstated, htotal]

theorem exists_varies_not_transparent (side : Side) (ip : Bytes) (datagram : Datagram protocol
    bytes) (cut : Cut protocol start fragments bytes) (hp : p ∈ fragments.tail) (hhit : Hit p) :
    ∃ others changed, Datagram protocol changed ∧ Cut protocol start others changed ∧ Varies
      fragments others ∧ ¬ Transparent side ip protocol others changed := by
  cases fragments with
  | nil => simp at hp
  | cons first rest =>
    obtain ⟨front, back, rfl⟩ := List.append_of_mem hp
    obtain ⟨offset, more, fragment⟩ := cut.fragment_of_mem p (by simp)
    obtain ⟨q, changed, hlost⟩ := fragment.exists_lost side ip datagram.protocol_mem hhit
    have hlow := fragment.ten_le_checksum
    have fragmentOther := fragment.of_changedAt changed hlow
    obtain ⟨hheader, htotal, -⟩ := header_of_changedAt changed hlow
    have hlength : (payload q).length = (payload p).length := by
      rw [fragment.length_payload, fragmentOther.length_payload, hheader, htotal]
    have hinside : checksumField protocol < (payload q).length := by
      have hreach := hhit.1
      rw [fragment.protocol_eq] at hreach
      rw [hlength, fragment.length_payload]
      omega
    have cutOther := Cut.replace (first :: front) cut
      (fun start more h => h.of_changedAt changed hlow) hlength
    have varies : List.Forall₂ (fun p q => p.ChangedAt (WordPlaces
      (headerLen p + checksumField (p.byte 9))) q) (front ++ p :: back) (front ++ q :: back) :=
      List.rel_append (List.forall₂_same.2 fun p _ => .rfl p) (.cons changed
      (List.forall₂_same.2 fun p _ => .rfl p))
    have datagramOther : Datagram protocol (reassemble (first :: front ++ q :: back)) := by
      rw [← cut.reassemble_eq] at datagram
      rw [reassemble_append, reassemble_cons q]
      refine Datagram.of_middle (payload p) (payload q) ?_ hlength ?_
      · rw [← reassemble_cons p, ← reassemble_append]
        exact datagram
      · obtain ⟨hnil, -⟩ | ⟨-, hpositive, haligned, -⟩ := cut.cons_cases
        · simp at hnil
        · rw [reassemble_cons, List.length_append]
          omega
    exact ⟨_, _, datagramOther, cutOther, ⟨rfl, varies⟩,
      not_transparent first front back cutOther hlost hinside⟩

end

/-- Whatever stands in the two bytes concerned, rewriting is transparent exactly
when no later fragment reaches the place of the transport checksum: fragments
are not told from whole packets. The headers verify in any case. -/
theorem transparent_iff_not_hit (side : Side) (ip : Bytes) (protocol : UInt8)
    (fragments : List Slice) (bytes : Bytes) (datagram : Datagram protocol bytes)
    (cut : Cut protocol 0 fragments bytes) :
    (∃ after, fragments.mapM (rewriteFragment side ip) = .ok after ∧
      ∀ p ∈ after, HeaderVerifies p) ∧
    ((∀ others changed, Datagram protocol changed → Cut protocol 0 others changed → Varies fragments
      others → Transparent side ip protocol others changed) ↔ ∀ p ∈ fragments.tail, ¬ Hit p) := by
  refine ⟨?_, ?_, ?_⟩
  · obtain ⟨outs, hmap, hverifies, -⟩ := exists_rewritten cut.fragment_of_mem side ip
    exact ⟨outs, hmap, hverifies⟩
  · intro transparent p hp hhit
    obtain ⟨others, changed, datagramOther, cutOther, varies, hnot⟩ :=
      exists_varies_not_transparent side ip datagram cut hp hhit
    exact hnot (transparent others changed datagramOther cutOther varies)
  · intro hhit others changed _ cutOther varies
    exact transparent_of_not_hit side ip cutOther (not_hit_of_varies cut varies hhit)

def piece (protocol total flags offset : UInt8) (data : Bytes) : Slice :=
  .ofBytes ([0x45, 0, 0, total, 0, 7, flags, offset, 64, protocol, 0, 0,
    192, 168, 1, 5, 9, 9, 9, 9] ++ data ++ List.replicate 20 0)

def datagramPieces : List Slice := [piece 17 36 0x20 0 [200, 1, 0, 53, 0, 20, 0, 0, 1, 2, 3, 4, 5,
    6, 7, 8], piece 17 24 0 2 [9, 10, 11, 12]]

theorem cut_datagramPieces : Cut 17 0 datagramPieces (reassemble datagramPieces) :=
  .more (by decide +kernel) (by decide +kernel) (by decide +kernel) (.last (by decide +kernel))

theorem transparent_iff_not_hit_datagramPieces : (∀ p ∈ datagramPieces.tail, ¬ Hit p) ∧
  (∃ after, datagramPieces.mapM (rewriteFragment .source [10, 8, 0, 2]) = .ok after ∧ ∀ p ∈ after,
  HeaderVerifies p) ∧ ((∀ others changed, Datagram 17 changed → Cut 17 0 others changed → Varies
  datagramPieces others → Transparent .source [10, 8, 0, 2] 17 others changed) ↔ ∀ p ∈
  datagramPieces.tail, ¬ Hit p) := ⟨by decide +kernel, transparent_iff_not_hit .source [10, 8, 0, 2]
  17 datagramPieces (reassemble datagramPieces) (by decide +kernel) cut_datagramPieces⟩

def echoTail : Slice := piece 1 28 0 1 [1, 2, 3, 4, 5, 6, 7, 8]

def echoPieces : List Slice := [piece 1 28 0x20 0 [8, 0, 0, 0, 0, 1, 0, 1], echoTail]

/-- The third byte of the second fragment is overwritten. -/
theorem exists_not_transparent : ∃ fragments bytes, Datagram protocolICMP bytes ∧ Cut protocolICMP 0
      fragments bytes ∧ ¬ Transparent .source [10, 8, 0, 2] protocolICMP fragments bytes := by
  have cut : Cut protocolICMP 0 echoPieces (reassemble echoPieces) :=
    .more (by decide +kernel) (by decide +kernel) (by decide +kernel) (.last (by decide +kernel))
  refine ⟨echoPieces, _, by decide +kernel, cut, ?_⟩
  refine not_transparent (q := echoTail) _ [] [] cut ?_ (by decide +kernel)
  intro after hafter
  have hbyte : (rewriteFragment .source [10, 8, 0, 2] echoTail).map
      (fun after => (payload after).getD 2 0) = .ok 0xf2 := by decide +kernel
  rw [hafter] at hbyte
  have hfound : (payload after).getD 2 0 = 0xf2 := Except.ok.inj hbyte
  have hsent : (payload echoTail).getD 2 0 = 3 := by decide +kernel
  intro hsame
  have hthree := hfound.symm.trans (hsame.trans hsent)
  exact absurd hthree (by decide)

end Pig.Network.IPv4Packet
