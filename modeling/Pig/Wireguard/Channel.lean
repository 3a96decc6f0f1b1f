import Pig.Lib.Dialogue
import Pig.Wireguard.Control

namespace Pig.Wireguard

open Go Network

/-! The connection between two ends. What one end writes is handed to the
device; what the device delivers is read at the other end. -/

/-- A complete packet: the header is there, and the lengths in it agree with
each other and with the data. -/
def IsPacket (b : Bytes) : Prop := (LooksLikeIPv4 b ∧ headerLen ≤ IPv4Packet.headerLen
  (Slice.ofBytes b) ∧ IPv4Packet.headerLen (Slice.ofBytes b) ≤ b.length) ∨ LooksLikeIPv6 b

instance (b : Bytes) : Decidable (IsPacket b) := inferInstanceAs (Decidable (_ ∨ _))

/-- What waits at the reading end: packets from the device, and the rest of a
payload of which a part has been read. -/
structure Peer where
  inbound : List Bytes
  pending : Bytes
  deriving DecidableEq, Repr

inductive Call where
  | write (b : Bytes)
  | read (size : Nat)
  deriving DecidableEq, Repr

inductive Reply where
  | wrote (n : Nat)
  | data (bytes : Bytes)
  | shortBuffer
  | panicked
  deriving DecidableEq, Repr

namespace Peer

def start : Peer := ⟨[], []⟩

def deliver (peer : Peer) (packet : Bytes) : Peer :=
  if IsPacket packet then { peer with inbound := peer.inbound ++ [packet] }
  else peer

def read (peer : Peer) (size : Nat) : Checked (Option (Reply × Peer)) := do
  if peer.pending ≠ [] then
    return some (.data (peer.pending.take size), { peer with pending := peer.pending.drop size })
  match peer.inbound with
  | [] => return none
  | pkt :: rest =>
    match ← unwrapControlMessage size pkt with
    | some (copied, left) => return some (.data copied, ⟨rest, left⟩)
    | none =>
      if size < pkt.length then return some (.shortBuffer, ⟨rest, []⟩)
      else return some (.data pkt, ⟨rest, []⟩)

variable (library : Library) (pid : Nat)

def write (peer : Peer) (b : Bytes) : Checked (Reply × Peer) := do
  let (message, ok) ← wrapControlMessage library pid b
  let send := if ok then message else b
  return (.wrote b.length, peer.deliver send)

def call (peer : Peer) : Call → Option (Reply × Peer)
  | .write b =>
    match peer.write library pid b with
    | .ok result => some result
    | .error _ => some (.panicked, peer)
  | .read size =>
    match peer.read size with
    | .ok result => result
    | .error _ => some (.panicked, peer)

end Peer

/-! What the connection is meant to be: packets are read one by one, and each
payload as a string of bytes, in as many pieces as the buffers make. -/

inductive Item where
  | packet (b : Bytes)
  | payload (b : Bytes)
  deriving DecidableEq, Repr

def Item.of (b : Bytes) : Item := if IsPacket b then .packet b else .payload b

def Item.bytes : Item → Bytes
  | .packet b => b
  | .payload b => b

def channel (keeps : Bytes → Prop) [DecidablePred keeps]
    (items : List Item) : Call → Option (Reply × List Item)
  | .write b =>
    some (.wrote b.length, if keeps b then items ++ [.of b] else items)
  | .read size =>
    match items with
    | [] => none
    | .packet b :: rest => some (.data b, rest)
    | .payload b :: rest =>
      some (.data (b.take size),
        if b.length ≤ size then rest else .payload (b.drop size) :: rest)

abbrev perfect : List Item → Call → Option (Reply × List Item) := channel fun _ => True

def written (calls : List Call) : List Bytes := calls.filterMap fun
    | .write b => some b
    | .read _ => none

def sizes (calls : List Call) : List Nat := calls.filterMap fun
    | .write _ => none
    | .read size => some size

@[simp] theorem Item.bytes_of (b : Bytes) : (Item.of b).bytes = b := by
  unfold Item.of
  split <;> rfl

def Carried (b : Bytes) : Prop := headerLen ≤ b.length ∧ ¬ LooksLikeIPv4 b

def Kept (b : Bytes) : Prop := IsPacket b ∨ Carried b

instance (b : Bytes) : Decidable (Carried b) := inferInstanceAs (Decidable (_ ∧ _))

instance : DecidablePred Kept :=
  fun b => inferInstanceAs (Decidable (IsPacket b ∨ Carried b))

/-- A packet that does not look like a control message, or a payload that fits
in one. -/
@[mk_iff]
structure Admissible (b : Bytes) : Prop where
  packet : IsPacket b → ¬ IsControl b
  payload : ¬ IsPacket b → 1 ≤ b.length ∧ b.length ≤ 65507

instance (b : Bytes) : Decidable (Admissible b) := decidable_of_iff' _ (admissible_iff b)

section

variable {library : Library} {pid : Nat} {all : List Bytes}

def Conveys (all : List Bytes) (packet : Bytes) : Item → Prop
  | .packet b => packet = b ∧ b ∈ all ∧ IsPacket b
  | .payload b => b ≠ [] ∧ Encloses packet b

def remainder (pending : Bytes) : List Item :=
  if pending = [] then [] else [.payload pending]

theorem remainder_drop (b : Bytes) (size : Nat) (rest : List Item) :
    (if b.length ≤ size then rest else .payload (b.drop size) :: rest) =
      remainder (b.drop size) ++ rest := by
  rw [remainder]
  simp only [List.drop_eq_nil_iff]
  split <;> rfl

def Holds (all : List Bytes) (peer : Peer) (items : List Item) : Prop :=
  ∃ rest, items = remainder peer.pending ++ rest ∧ List.Forall₂ (Conveys all) peer.inbound rest

theorem Encloses.isPacket {message b : Bytes} (encloses : Encloses message b) :
    IsPacket message := by
  refine .inl ⟨⟨encloses.control.2.1, encloses.total_eq⟩, ?_, ?_⟩
  · exact Nat.le_of_eq encloses.header_eq.symm
  · rw [encloses.header_eq]
    exact encloses.control.1

variable {items : List Item}

variable {peer : Peer}

theorem Holds.deliver {packet : Bytes} {item : Item}
    (holds : Holds all peer items) (hpacket : IsPacket packet) (hitem : Conveys all packet item) :
    Holds all (peer.deliver packet) (items ++ [item]) := by
  obtain ⟨rest, rfl, hrest⟩ := holds
  rw [Peer.deliver, if_pos hpacket]
  exact ⟨rest ++ [item], List.append_assoc .., List.rel_append hrest (.cons hitem .nil)⟩

theorem Holds.write (lawful : library.Lawful) {b : Bytes}
    (holds : Holds all peer items) (hmem : b ∈ all) (hb : Admissible b) :
    SameAnswer (Holds all) (peer.call library pid (.write b)) (channel Kept items (.write b)) := by
  by_cases hpacket : IsPacket b
  · have hwrap : wrapControlMessage library pid b = .ok (b, false) :=
      wrapControlMessage_of_complete (.inr (hpacket.imp_left (·.1)))
    have hitem : Item.of b = .packet b := if_pos hpacket
    simp only [Peer.call, Peer.write, hwrap, channel, hitem, if_pos (show Kept b from .inl hpacket)]
    exact .some ⟨rfl, holds.deliver hpacket ⟨rfl, hmem, hpacket⟩⟩
  have hitem : Item.of b = .payload b := if_neg hpacket
  obtain ⟨hpos, hmax⟩ := hb.payload hpacket
  have h6 : ¬ LooksLikeIPv6 b := fun h => hpacket (.inr h)
  by_cases hcarried : Carried b
  · obtain ⟨message, hmessage, encloses⟩ := exists_encloses lawful pid hmax
    have hwrap := wrapControlMessage_of_other hcarried.1 hcarried.2 h6 hmessage
    simp only [Peer.call, Peer.write, hwrap, channel, hitem,
      if_pos (show Kept b from .inr hcarried)]
    refine .some ⟨rfl, holds.deliver encloses.isPacket ⟨?_, encloses⟩⟩
    exact List.ne_nil_of_length_pos hpos
  · have hlost : b.length < headerLen ∨ LooksLikeIPv4 b := by
      rwa [Carried, not_and_or, Nat.not_le, not_not] at hcarried
    have hwrap : wrapControlMessage library pid b = .ok (b, false) :=
      wrapControlMessage_of_complete (hlost.imp_right .inl)
    have hkept : ¬ Kept b := not_or.mpr ⟨hpacket, hcarried⟩
    have hdeliver : peer.deliver b = peer := if_neg hpacket
    simp only [Peer.call, Peer.write, hwrap, channel, if_neg hkept]
    exact .some ⟨rfl, hdeliver.symm ▸ holds⟩

theorem Holds.read {size : Nat} (hall : ∀ b ∈ all, Admissible b)
    (holds : Holds all peer items) (hsize : ∀ b ∈ all, IsPacket b → b.length ≤ size) :
    SameAnswer (Holds all) (peer.call library pid (.read size))
      (channel Kept items (.read size)) := by
  obtain ⟨rest, rfl, hrest⟩ := holds
  by_cases hpending : peer.pending = []
  · obtain ⟨inbound, pending⟩ := peer
    cases hpending
    cases hrest with
    | nil => exact .none
    | @cons packet item inbound rest hitem hrest =>
      cases item with
      | packet b =>
        obtain ⟨rfl, hmem, hpacket⟩ := hitem
        have hnot := (hall packet hmem).packet hpacket
        have hfits : ¬ size < packet.length := Nat.not_lt.mpr (hsize packet hmem hpacket)
        simp only [Peer.call, Peer.read, unwrapControlMessage_eq, if_neg hnot,
          ne_eq, not_true_eq_false, if_false, if_neg hfits]
        exact .some ⟨rfl, rest, rfl, hrest⟩
      | payload b =>
        obtain ⟨hne, encloses⟩ := hitem
        simp only [Peer.call, Peer.read, encloses.unwrap, ne_eq,
          not_true_eq_false, if_false, ok_bind]
        refine .some ⟨rfl, rest, ?_, hrest⟩
        exact remainder_drop ..
  · rw [remainder, if_neg hpending]
    simp only [Peer.call, Peer.read, ne_eq, hpending, not_false_eq_true, if_true]
    exact .some ⟨rfl, rest, remainder_drop .., hrest⟩

end

section

variable {calls : List Call} {keeps : Bytes → Prop} [DecidablePred keeps]

theorem mem_written {b : Bytes} : b ∈ written calls ↔ .write b ∈ calls := by
  simp only [written, List.mem_filterMap]
  constructor
  · rintro ⟨call, hcall, hb⟩
    cases call with
    | write other =>
      cases hb
      exact hcall
    | read size => cases hb
  · exact fun hcall => ⟨_, hcall, rfl⟩

theorem mem_sizes {size : Nat} : size ∈ sizes calls ↔ .read size ∈ calls := by
  simp only [sizes, List.mem_filterMap]
  constructor
  · rintro ⟨call, hcall, hsize⟩
    cases call with
    | write b => cases hsize
    | read other =>
      cases hsize
      exact hcall
  · exact fun hcall => ⟨_, hcall, rfl⟩

theorem channel_eq_perfect (hkeeps : ∀ b ∈ written calls, keeps b) (items : List Item) :
    (answers (channel keeps) items calls).map (·.1) = (answers perfect items calls).map (·.1) := by
  refine answers_eq_of_related Eq ?_ rfl
  rintro next hnext state - rfl
  cases next with
  | write b =>
    have hb := hkeeps b (mem_written.mpr hnext)
    simp only [perfect, channel, if_pos hb, if_true]
    exact .some ⟨rfl, rfl⟩
  | read size =>
    cases state with
    | nil => exact .none
    | cons item rest =>
      cases item with
      | packet b | payload b => exact .some ⟨rfl, rfl⟩

theorem isSome_answers_reads {size : Nat} (count : Nat) {items : List Item}
    (hitems : ∀ item ∈ items, item.bytes.length ≤ size) :
    (answers (channel keeps) items
      (List.replicate count (.read size))).isSome ↔ count ≤ items.length := by
  induction count generalizing items with
  | zero => simp [answers]
  | succ count ih =>
    rw [List.replicate_succ, answers]
    cases items with
    | nil => simp [channel]
    | cons item rest =>
      rw [List.forall_mem_cons] at hitems
      have hnext : ∃ reply, channel keeps (item :: rest) (.read size) = some (reply, rest) := by
        cases item with
        | packet b => exact ⟨_, rfl⟩
        | payload b =>
          exact ⟨_, congrArg (fun after => some (_, after)) (if_pos hitems.1)⟩
      obtain ⟨reply, hreply⟩ := hnext
      rw [hreply, Option.bind_some, Option.isSome_map, ih hitems.2, List.length_cons]
      omega

theorem answers_writes (items : List Item) (all : List Bytes) :
    answers (channel keeps) items (all.map .write) = some (all.map (.wrote ·.length),
        items ++ (all.filter keeps).map Item.of) := by
  induction all generalizing items with
  | nil => simp [answers]
  | cons b all ih =>
    rw [List.map_cons, answers, channel, Option.bind_some, ih]
    by_cases hb : keeps b <;> simp [hb]

end

def flooding (all : List Bytes) : List Call :=
  all.map .write ++ List.replicate all.length (.read all.flatten.length)

theorem written_flooding (all : List Bytes) : written (flooding all) = all := by
  simp [written, flooding, List.filterMap_append, List.filterMap_map]

variable {all : List Bytes}

theorem sizes_flooding {size : Nat}
    (hsize : size ∈ sizes (flooding all)) : size = all.flatten.length := by
  rw [mem_sizes, flooding, List.mem_append] at hsize
  rcases hsize with hwrite | hread
  · obtain ⟨b, -, hb⟩ := List.mem_map.mp hwrite
    cases hb
  · cases (List.mem_replicate.mp hread).2
    rfl

theorem length_le_flatten {b : Bytes} (hb : b ∈ all) :
    b.length ≤ all.flatten.length :=
  (List.sublist_flatten_of_mem hb).length_le

theorem isSome_answers_flooding {keeps : Bytes → Prop} [DecidablePred keeps] :
    (answers (channel keeps) [] (flooding all)).isSome ↔ ∀ b ∈ all, keeps b := by
  rw [flooding, answers_append, answers_writes, Option.bind_some,
    Option.isSome_map, List.nil_append, isSome_answers_reads]
  · rw [List.length_map]
    constructor
    · intro hlength
      have hall := List.length_filter_eq_length_iff.mp
        (Nat.le_antisymm (List.length_filter_le ..) hlength)
      simpa using hall
    · intro hall
      rw [List.filter_eq_self.mpr (by simpa using hall)]
  · intro item hitem
    obtain ⟨b, hb, rfl⟩ := List.mem_map.mp hitem
    rw [Item.bytes_of]
    exact length_le_flatten (List.mem_of_mem_filter hb)

section

variable {library : Library}

theorem answers_eq_channel (lawful : library.Lawful) (pid : Nat) (hall : ∀ b ∈ all, Admissible b)
    {calls : List Call} (hwritten : ∀ b ∈ written calls, b ∈ all) (hsizes : ∀ size ∈ sizes calls, ∀
    b ∈ all, IsPacket b → b.length ≤ size) :
    (answers (Peer.call library pid) .start calls).map (·.1) =
      (answers (channel Kept) [] calls).map (·.1) := by
  have hstart : Holds all .start [] := ⟨[], rfl, .nil⟩
  refine answers_eq_of_related (Holds all) ?_ hstart
  rintro next hnext peer items holds
  cases next with
  | write b =>
    have hb := hwritten b (mem_written.mpr hnext)
    exact holds.write lawful hb (hall b hb)
  | read size => exact holds.read hall (hsizes size (mem_sizes.mpr hnext))

/-- Whatever the order of the calls, what is read is what was written, if the
buffers are large enough for the packets: exactly if each payload is put into a
control message, that is, if it has at least the length of a header and does not
begin like an IPv4 packet of its length. -/
theorem transparent_iff_carried (lawful : library.Lawful) (pid : Nat)
    (all : List Bytes) (hall : ∀ b ∈ all, Admissible b) :
    (∀ calls, written calls = all → (∀ size ∈ sizes calls, ∀ b ∈ all, IsPacket b → b.length ≤ size)
      → (answers (Peer.call library pid) .start calls).map (·.1) = (answers perfect [] calls).map
      (·.1)) ↔ ∀ b ∈ all, ¬ IsPacket b → Carried b := by
  constructor
  · intro hsame
    have hfits : ∀ size ∈ sizes (flooding all), ∀ b ∈ all, IsPacket b → b.length ≤ size := by
      rintro size hsize b hb -
      rw [sizes_flooding hsize]
      exact length_le_flatten hb
    have hflood := hsame (flooding all) (written_flooding all) hfits
    rw [answers_eq_channel lawful pid hall (by simp [written_flooding]) hfits] at hflood
    have hkept := congrArg Option.isSome hflood
    rw [Option.isSome_map, Option.isSome_map,
      isSome_answers_flooding.mpr fun _ _ => trivial] at hkept
    intro b hb hpacket
    exact (isSome_answers_flooding.mp hkept b hb).resolve_left hpacket
  · intro hcarried calls hwritten hsizes
    rw [answers_eq_channel lawful pid hall (by simp [hwritten]) hsizes]
    refine channel_eq_perfect (fun b hb => ?_) []
    rw [hwritten] at hb
    by_cases hpacket : IsPacket b
    · exact .inl hpacket
    · exact .inr (hcarried b hb hpacket)

end

def sumWordsLE : Bytes → Nat
  | [] => 0
  | [last] => last.toNat
  | low :: high :: rest => high.toNat * 256 + low.toNat + sumWordsLE rest

def onesSum (b : Bytes) : UInt16 :=
  let sum := sumWordsLE b
  let sum := sum / 65536 + sum % 65536
  ~~~ UInt16.ofNat (sum + sum / 65536)

def goLibrary : Library where
  marshalEcho := fun id seq data =>
    let body := Bytes.ofNatBE 2 id ++ Bytes.ofNatBE 2 seq ++ data
    let sum := (onesSum ([8, 0, 0, 0] ++ body)).toNat
    some ([8, 0, UInt8.ofNat sum, UInt8.ofNat (sum / 256)] ++ body)
  marshalHeader := fun h =>
    if h.len < headerLen ∨ to4 h.dst = [] then none
    else some ([0x45, 0] ++ Bytes.ofNatBE 2 h.totalLen ++ [0, 0, 0, 0] ++
      [UInt8.ofNat h.ttl, UInt8.ofNat h.protocol, 0, 0] ++
      (if to4 h.src = [] then [0, 0, 0, 0] else to4 h.src) ++ to4 h.dst)

theorem lawful_goLibrary : goLibrary.Lawful where
  echo := by
    intro id seq data
    let body := Bytes.ofNatBE 2 id ++ Bytes.ofNatBE 2 seq ++ data
    let sum := (onesSum ([8, 0, 0, 0] ++ body)).toNat
    refine ⟨[8, 0, UInt8.ofNat sum, UInt8.ofNat (sum / 256)] ++
      (Bytes.ofNatBE 2 id ++ Bytes.ofNatBE 2 seq), ?_, ?_⟩
    · simp
    · simp [goLibrary, sum, body]
  header := by
    intro h hlen hsrc hdst
    have hnot : ¬ (h.len < headerLen ∨ to4 h.dst = []) := by
      rw [hlen]
      exact not_or.mpr ⟨Nat.lt_irrefl _, hdst⟩
    refine ⟨_, if_neg hnot, ?_, rfl, ?_, ?_, ?_⟩
    · simp [if_neg hsrc, length_to4 hsrc, length_to4 hdst, headerLen]
    · simp [Bytes.ofNatBE]
    · rw [if_neg hsrc]
      exact Bytes.window_middle (by simp) (length_to4 hsrc)
    · rw [if_neg hsrc, Bytes.window, List.drop_left' (by simp [length_to4 hsrc])]
      exact List.take_of_length_le (Nat.le_of_eq (length_to4 hdst))

def token : Bytes := List.replicate 24 0x61

def emptyDatagram : Bytes := [0x45, 0, 0, 20, 0, 0, 0, 0, 64, 17, 0, 0, 10, 0, 0, 1, 10, 0, 0, 2]

theorem transparent_iff_carried_token : (answers (Peer.call goLibrary 7) .start
        [.write token, .read 64, .write emptyDatagram, .read 64]).map (·.1) =
      (answers perfect [] [.write token, .read 64, .write emptyDatagram, .read 64]).map (·.1) :=
  (transparent_iff_carried lawful_goLibrary 7 [token, emptyDatagram]
    (by decide)).mpr (by decide) _ rfl (by decide)

/-- A payload of one byte, and one of twenty-four that begins like a packet but
has no header, are lost. -/
theorem exists_lost : (answers (Peer.call goLibrary 7) .start [.write [0x61], .read 64] = none ∧
    answers perfect [] [.write [0x61], .read 64] = some ([.wrote 1, .data [0x61]], [])) ∧
    (answers (Peer.call goLibrary 7) .start [.write ([0x40, 0, 0, 24] ++ List.replicate 20 0x61),
    .read 64] = none ∧ answers perfect [] [.write ([0x40, 0, 0, 24] ++ List.replicate 20 0x61),
    .read 64] = some ([.wrote 24, .data ([0x40, 0, 0, 24] ++ List.replicate 20 0x61)], [])) := by
  decide

end Pig.Wireguard
