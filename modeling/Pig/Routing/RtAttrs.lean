import Pig.Lib.Go

namespace Pig.Routing

open Go

inductive Endian where
  | little
  | big
  deriving DecidableEq, Repr

namespace Endian

def put : Endian → (width number : Nat) → Bytes
  | .little, width, number => (Bytes.ofNatBE width number).reverse
  | .big, width, number => Bytes.ofNatBE width number

def get : Endian → Bytes → Nat
  | .little, bytes => Bytes.toNatBE bytes.reverse
  | .big, bytes => bytes.toNatBE

@[simp] theorem length_put (endian : Endian) (width number : Nat) :
    (endian.put width number).length = width := by
  cases endian <;> simp [put]

theorem get_put (endian : Endian) (number : Nat) :
    endian.get (endian.put 2 number) = number % 65536 := by
  cases endian <;> simp [put, get, Bytes.toNatBE_ofNatBE]

end Endian

structure RtAttrEntry where
  typ : Int
  data : Bytes
  deriving DecidableEq, Repr

def nlmsgHdrLen : Nat := 16
def sizeofNdMsg : Nat := 12
def sizeofRtMsg : Nat := 12
def sizeofRtAttr : Nat := 4

/-- The mask clears the two lowest bits. -/
def rtaAlign (n : Nat) : Nat := (n + 4 - 1) / 4 * 4

def rtaLength (dataLen : Nat) : Nat := rtaAlign (sizeofRtAttr + dataLen)

def attrType (typ : Int) : Nat := (typ % 65536).toNat

section

variable (endian : Endian)

/-- The two fields are written through a pointer to the byte at `offset`. -/
def putRtAttr (buf : Slice) (offset : Nat) (typ : Int) (data : Bytes) : Checked (Slice × Nat) := do
  let attrLen := sizeofRtAttr + data.length
  let aligned := rtaLength data.length
  let _ ← buf.get offset
  let buf := buf.write offset (endian.put 2 attrLen ++ endian.put 2 (attrType typ))
  let buf ← buf.copyTo (offset + sizeofRtAttr) buf.len data
  return (buf, offset + aligned)

def putRtAttrs : Slice → (offset : Nat) → List RtAttrEntry → Checked Slice
  | buf, _, [] => return buf
  | buf, offset, a :: attrs => do
      let (buf, offset) ← putRtAttr endian buf offset a.typ a.data
      putRtAttrs buf offset attrs

def newNlMsghdr (buf : Slice) (length nlType flags seq pid : Nat) : Checked Slice :=
  buf.copyTo 0 16 (endian.put 4 length ++ endian.put 2 nlType ++ endian.put 2 flags ++
    endian.put 4 seq ++ endian.put 4 pid)

/-- A message of the given size is copied out of the memory it has. -/
def encodeNetlink (size : Nat) (nlType flags : UInt16) (seq port : UInt32)
    (msg : Vector UInt8 size) (attrs : List RtAttrEntry) : Checked Slice := do
  let bodyLen := size + (attrs.map fun a => rtaLength a.data.length).sum
  let totalLen := nlmsgHdrLen + bodyLen
  let buf := Slice.ofBytes (List.replicate totalLen 0)
  let buf ← newNlMsghdr endian buf totalLen nlType.toNat flags.toNat seq.toNat port.toNat
  let buf ← buf.copyTo nlmsgHdrLen buf.len msg.toList
  putRtAttrs endian buf (nlmsgHdrLen + size) attrs

def encodeNetlinkNeigh := encodeNetlink endian sizeofNdMsg

def encodeNetlinkRoute := encodeNetlink endian sizeofRtMsg

abbrev AttrMap := Int → Option Bytes

def attrLenAt (b : Slice) : Nat := endian.get (b.array.window 0 2)

def attrTypeAt (b : Slice) : Nat := endian.get (b.array.window 2 2)

theorem four_le_rtaAlign {n : Nat} (h : 4 ≤ n) : 4 ≤ rtaAlign n := by
  rw [rtaAlign]
  omega

/-- The loop, with the map so far. The last check is that of
`b[rtaAlign(a.Len):]`. -/
def parseFrom (b : Slice) (attrMap : AttrMap) : Checked (Option AttrMap) :=
  if _ : b.len < sizeofRtAttr then return some attrMap
  else do
    let _ ← b.get 0
    if _ : attrLenAt endian b < sizeofRtAttr ∨ b.len < attrLenAt endian b then return none
    else
      let valLen := attrLenAt endian b - sizeofRtAttr
      let value ← b.sub sizeofRtAttr (sizeofRtAttr + valLen)
      if _ : rtaAlign (attrLenAt endian b) ≤ b.len then
        parseFrom (b.advance (rtaAlign (attrLenAt endian b)))
          (Function.update attrMap (attrTypeAt endian b) (some value))
      else .error .sliceBounds
  termination_by b.len
  decreasing_by
    rename_i _ hheader _
    have hlow := four_le_rtaAlign (Nat.not_lt.mp (not_or.mp hheader).1)
    exact Nat.sub_lt (by omega) (by omega)

def parseRtAttrs (b : Slice) : Checked (Option AttrMap) := parseFrom endian b fun _ => none

/-- After some whole attributes the data ends in the padding of one. -/
inductive Overruns : Slice → Prop
  | here {b : Slice} (hlow : 4 ≤ attrLenAt endian b) (hhigh : attrLenAt endian b ≤ b.len)
      (hpadding : b.len < rtaAlign (attrLenAt endian b)) : Overruns b
  | later {b : Slice} (hlow : 4 ≤ attrLenAt endian b)
      (hrest : rtaAlign (attrLenAt endian b) ≤ b.len)
      (rest : Overruns (b.advance (rtaAlign (attrLenAt endian b)))) : Overruns b

/-- What is parsed from the attributes of the message are these types and
values. -/
def RoundTrips (size : Nat) (encoded : Checked Slice) (attrs : List RtAttrEntry) : Prop :=
  ∃ buf attrMap, encoded = .ok buf ∧
    parseRtAttrs endian (buf.advance (nlmsgHdrLen + size)) = .ok (some attrMap) ∧
    ∀ typ value, attrMap typ = some value ↔ ⟨typ, value⟩ ∈ attrs

variable {endian}

/-- The other checks of the loop never fail. -/
theorem parseFrom_eq (b : Slice) (attrMap : AttrMap) : parseFrom endian b attrMap =
    if b.len < 4 then .ok (some attrMap)
    else if attrLenAt endian b < 4 ∨ b.len < attrLenAt endian b then .ok none
    else if rtaAlign (attrLenAt endian b) ≤ b.len then
      parseFrom endian (b.advance (rtaAlign (attrLenAt endian b))) (Function.update attrMap
        (attrTypeAt endian b) (some (b.array.window 4 (attrLenAt endian b - 4))))
    else .error .sliceBounds := by
  rw [parseFrom, sizeofRtAttr]
  split
  · rfl
  · rw [Slice.get_of_lt _ (by omega), ok_bind]
    split
    · rfl
    · have hcap := b.len_le
      have hvalue : b.sub 4 (4 + (attrLenAt endian b - 4)) =
          .ok (b.array.window 4 (attrLenAt endian b - 4)) := by
        rw [Slice.sub, if_pos ⟨by omega, show _ ≤ b.array.length by omega⟩, Nat.add_sub_cancel_left]
      dsimp only
      rw [hvalue]
      rfl

theorem succeeds_parseFrom_iff (b : Slice) (attrMap : AttrMap) :
    Succeeds (parseFrom endian b attrMap) ↔ ¬ Overruns endian b := by
  induction hsize : b.len using Nat.strongRecOn generalizing b attrMap with
  | ind size ih =>
    have hpast : attrLenAt endian b ≤ rtaAlign (attrLenAt endian b) := by
      rw [rtaAlign]
      omega
    rw [parseFrom_eq]
    split_ifs with hlen hheader hrest
    · refine iff_of_true (succeeds_ok _) fun overruns => ?_
      cases overruns <;> omega
    · refine iff_of_true (succeeds_ok _) fun overruns => ?_
      cases overruns <;> omega
    · have hless : (b.advance (rtaAlign (attrLenAt endian b))).len < size := by
        change b.len - _ < size
        omega
      rw [ih _ hless _ _ rfl, not_iff_not]
      refine ⟨.later (by omega) hrest, fun overruns => ?_⟩
      cases overruns with
      | here _ _ hpadding => omega
      | later _ _ rest => exact rest
    · exact iff_of_false (not_succeeds_error _)
        (not_not.mpr (.here (by omega) (by omega) (by omega)))

def encoded (endian : Endian) (a : RtAttrEntry) : Bytes :=
  endian.put 2 (4 + a.data.length) ++ endian.put 2 (attrType a.typ) ++ a.data ++
    List.replicate (rtaLength a.data.length - (4 + a.data.length)) 0

structure Filled (buf : Slice) (front : Bytes) (count : Nat) : Prop where
  array_eq : buf.array = front ++ List.replicate count 0
  len_eq : buf.len = front.length + count

theorem length_encoded (a : RtAttrEntry) :
    (encoded endian a).length = rtaLength a.data.length := by
  simp only [encoded, List.length_append, Endian.length_put, List.length_replicate]
  rw [rtaLength, rtaAlign, sizeofRtAttr]
  omega

namespace Filled

variable {buf : Slice} {front : Bytes} {count : Nat}

theorem cap_eq (filled : Filled buf front count) : buf.cap = front.length + count := by
  rw [Slice.cap, filled.array_eq, List.length_append, List.length_replicate]

theorem write (filled : Filled buf front count) (source : Bytes) (hsource : source.length ≤ count) :
    Filled (buf.write front.length source) (front ++ source) (count - source.length) where
  array_eq := by
    have hcap := filled.cap_eq
    rw [buf.array_write (by omega), filled.array_eq, List.take_left, List.drop_append,
      List.drop_of_length_le (by omega), Nat.add_sub_cancel_left, List.drop_replicate,
      List.nil_append]
  len_eq := by
    rw [buf.len_write, filled.len_eq, List.length_append]
    omega

theorem copyTo (filled : Filled buf front count) (source : Bytes) (low high : Nat)
    (hlow : front.length = low) (hsource : low + source.length ≤ high) (hhigh : high ≤ buf.len) :
    ∃ after, buf.copyTo low high source = .ok after ∧
      Filled after (front ++ source) (count - source.length) := by
  have hlen := filled.len_eq
  have hcap := filled.cap_eq
  refine ⟨_, if_pos ⟨by omega, by omega⟩, ?_⟩
  rw [List.take_of_length_le (by omega), ← hlow]
  exact filled.write source (by omega)

theorem putRtAttr (endian : Endian) (filled : Filled buf front count) (a : RtAttrEntry)
    (hroom : rtaLength a.data.length ≤ count) :
    ∃ after, putRtAttr endian buf front.length a.typ a.data =
      .ok (after, (front ++ encoded endian a).length) ∧
      Filled after (front ++ encoded endian a) (count - rtaLength a.data.length) := by
  have hlong : 4 + a.data.length ≤ rtaLength a.data.length := by
    rw [rtaLength, rtaAlign, sizeofRtAttr]
    omega
  have hlen := filled.len_eq
  let header := endian.put 2 (4 + a.data.length) ++ endian.put 2 (attrType a.typ)
  have hheader : header.length = 4 := by
    rw [List.length_append, Endian.length_put, Endian.length_put]
  have hfirst := filled.write header (by omega)
  obtain ⟨after, hcopy, hafter⟩ := hfirst.copyTo a.data (front.length + 4) buf.len
    (by rw [List.length_append, hheader]) (by omega) (Nat.le_refl _)
  refine ⟨after, ?_, ?_, ?_⟩
  · rw [Routing.putRtAttr, buf.get_of_lt (by omega), ok_bind]
    change (buf.write front.length header).copyTo (front.length + 4) buf.len a.data >>= _ = _
    rw [hcopy, List.length_append, length_encoded]
    rfl
  · have hzeros : count - header.length - a.data.length = rtaLength a.data.length -
        (4 + a.data.length) + (count - rtaLength a.data.length) := by omega
    rw [hafter.array_eq, hzeros, ← List.replicate_append_replicate]
    simp only [encoded, header, List.append_assoc]
  · simp only [hafter.len_eq, List.length_append, length_encoded]
    omega

theorem putRtAttrs (endian : Endian) {attrs : List RtAttrEntry} (filled : Filled buf front
    (attrs.map fun a => rtaLength a.data.length).sum) :
    ∃ after, putRtAttrs endian buf front.length attrs = .ok after ∧
      Filled after (front ++ (attrs.map (encoded endian)).flatten) 0 := by
  induction attrs generalizing buf front with
  | nil =>
    refine ⟨buf, rfl, ?_⟩
    rw [List.map_nil, List.flatten_nil, List.append_nil]
    exact filled
  | cons a attrs ih =>
    rw [List.map_cons, List.sum_cons] at filled
    obtain ⟨middle, hput, hmiddle⟩ := filled.putRtAttr endian a (Nat.le_add_right _ _)
    rw [Nat.add_sub_cancel_left] at hmiddle
    obtain ⟨after, hrest, hafter⟩ := ih hmiddle
    refine ⟨after, ?_, ?_⟩
    · rw [Routing.putRtAttrs, hput]
      exact hrest
    · rw [List.map_cons, List.flatten_cons, ← List.append_assoc]
      exact hafter

end Filled

theorem encodeNetlink_eq (endian : Endian) (size : Nat) (nlType flags : UInt16) (seq port : UInt32)
    (msg : Vector UInt8 size) (attrs : List RtAttrEntry) :
    ∃ buf, encodeNetlink endian size nlType flags seq port msg attrs = .ok buf ∧
      (buf.advance (nlmsgHdrLen + size)).array = (attrs.map (encoded endian)).flatten ∧
      (buf.advance (nlmsgHdrLen + size)).len = (attrs.map (encoded endian)).flatten.length := by
  let totalLen := nlmsgHdrLen + (size + (attrs.map fun a => rtaLength a.data.length).sum)
  let header := endian.put 4 totalLen ++ endian.put 2 nlType.toNat ++ endian.put 2 flags.toNat ++
    endian.put 4 seq.toNat ++ endian.put 4 port.toNat
  have hheader : header.length = 16 := by
    simp only [header, List.length_append, Endian.length_put]
  have hmsg : msg.toList.length = size := msg.length_toList
  have htotal : totalLen = 16 + (size + _) := rfl
  have hzeros : Filled (.ofBytes (List.replicate totalLen 0)) [] totalLen :=
    ⟨rfl, by rw [Slice.len_ofBytes, List.length_replicate, List.length_nil, Nat.zero_add]⟩
  obtain ⟨first, hfirst, (filled : Filled first header _)⟩ := hzeros.copyTo header 0 16 rfl
    (by omega) (by rw [hzeros.len_eq]; omega)
  obtain ⟨second, hsecond, filled⟩ := filled.copyTo msg.toList 16 first.len hheader
    (by rw [filled.len_eq]; omega) (Nat.le_refl _)
  have hfront : (header ++ msg.toList).length = 16 + size := by
    rw [List.length_append, hheader, hmsg]
  have hcount : totalLen - header.length - msg.toList.length =
      (attrs.map fun a => rtaLength a.data.length).sum := by omega
  rw [hcount] at filled
  obtain ⟨buf, hbuf, filled⟩ := filled.putRtAttrs endian
  refine ⟨buf, ?_, ?_, ?_⟩
  · rw [hfront] at hbuf
    rw [encodeNetlink, newNlMsghdr, hfirst, ok_bind]
    change first.copyTo 16 first.len msg.toList >>= _ = _
    rw [hsecond]
    exact hbuf
  · change buf.array.drop (16 + size) = _
    rw [filled.array_eq, List.append_assoc, List.drop_left' hfront]
    exact List.append_nil _
  · change buf.len - (16 + size) = _
    rw [filled.len_eq, List.length_append, hfront, Nat.add_zero, Nat.add_sub_cancel_left]

def assigned (attrMap : AttrMap) (attrs : List RtAttrEntry) : AttrMap :=
  attrs.foldl (fun attrMap a => Function.update attrMap (attrType a.typ) (some a.data)) attrMap

variable {attrs : List RtAttrEntry}

theorem parseFrom_encoded (hlengths : ∀ a ∈ attrs, a.data.length ≤ 65531)
    {b : Slice} (harray : b.array = (attrs.map (encoded endian)).flatten)
    (hlen : b.len = b.array.length) (attrMap : AttrMap) :
    parseFrom endian b attrMap = .ok (some (assigned attrMap attrs)) := by
  induction attrs generalizing b attrMap with
  | nil =>
    rw [parseFrom_eq, if_pos (by rw [hlen, harray]; exact Nat.succ_pos 3)]
    rfl
  | cons a attrs ih =>
    have hshort := hlengths a List.mem_cons_self
    rw [List.map_cons, List.flatten_cons] at harray
    have hattrLen : attrLenAt endian b = 4 + a.data.length := by
      have hwindow : b.array.window 0 2 = endian.put 2 (4 + a.data.length) := by
        simp [harray, encoded, Bytes.window]
      rw [attrLenAt, hwindow, Endian.get_put, Nat.mod_eq_of_lt (by omega)]
    have hattrType : attrTypeAt endian b = attrType a.typ := by
      have hwindow : b.array.window 2 2 = endian.put 2 (attrType a.typ) := by
        simp [harray, encoded, Bytes.window]
      rw [attrTypeAt, hwindow, Endian.get_put, attrType, Nat.mod_eq_of_lt (by omega)]
    have hvalue : b.array.window 4 a.data.length = a.data := by
      rw [harray, encoded, List.append_assoc]
      exact Bytes.window_middle (by simp) rfl
    have hlength : b.len =
        rtaLength a.data.length + (attrs.map (encoded endian)).flatten.length := by
      rw [hlen, harray, List.length_append, length_encoded]
    have hlong : 4 + a.data.length ≤ rtaLength a.data.length := by
      rw [rtaLength, rtaAlign, sizeofRtAttr]
      omega
    rw [parseFrom_eq, hattrLen, hattrType, Nat.add_sub_cancel_left, hvalue]
    change (if _ then _ else if _ then _ else if rtaLength a.data.length ≤ b.len then _ else _) = _
    rw [if_neg (by omega), if_neg (by omega), if_pos (by omega)]
    refine ih (fun a ha => hlengths a (List.mem_cons_of_mem _ ha)) ?_ ?_ _
    · change b.array.drop (rtaLength a.data.length) = _
      rw [harray, List.drop_left' (length_encoded a)]
    · change b.len - rtaLength a.data.length = (b.array.drop (rtaLength a.data.length)).length
      rw [hlen, List.length_drop]

theorem assigned_of_ne {typ : Int}
    (hne : ∀ a ∈ attrs, (attrType a.typ : Int) ≠ typ) (attrMap : AttrMap) :
    assigned attrMap attrs typ = attrMap typ := by
  induction attrs generalizing attrMap with
  | nil => rfl
  | cons a attrs ih =>
    exact (ih (fun a ha => hne a (List.mem_cons_of_mem _ ha)) _).trans
      (Function.update_of_ne (hne a List.mem_cons_self).symm _ _)

theorem assigned_of_mem (hdistinct : (attrs.map (·.typ)).Nodup)
    (htypes : ∀ a ∈ attrs, (attrType a.typ : Int) = a.typ) {a : RtAttrEntry} (ha : a ∈ attrs)
    (attrMap : AttrMap) :
    assigned attrMap attrs a.typ = some a.data := by
  induction attrs generalizing attrMap with
  | nil => cases ha
  | cons first attrs ih =>
    rw [List.map_cons, List.nodup_cons] at hdistinct
    have hrest := fun a ha => htypes a (List.mem_cons_of_mem first ha)
    rcases List.mem_cons.mp ha with rfl | ha
    · change assigned (Function.update attrMap (attrType a.typ) (some a.data)) attrs a.typ = _
      rw [assigned_of_ne, htypes a List.mem_cons_self, Function.update_self]
      intro other hother hsame
      rw [hrest other hother] at hsame
      exact hdistinct.1 (hsame ▸ List.mem_map_of_mem hother)
    · exact ih hdistinct.2 hrest ha _

theorem attrType_eq_iff (typ : Int) : (attrType typ : Int) = typ ↔ 0 ≤ typ ∧ typ < 65536 := by
  rw [attrType]
  omega

theorem roundTrips_iff (endian : Endian) {size : Nat} (nlType flags : UInt16) (seq port : UInt32)
    (msg : Vector UInt8 size) (hdistinct : (attrs.map (·.typ)).Nodup)
    (hlengths : ∀ a ∈ attrs, a.data.length ≤ 65531) :
    RoundTrips endian size (encodeNetlink endian size nlType flags seq port msg attrs) attrs ↔
      ∀ a ∈ attrs, 0 ≤ a.typ ∧ a.typ < 65536 := by
  obtain ⟨buf, hbuf, harray, hlen⟩ := encodeNetlink_eq endian size nlType flags seq port msg attrs
  have hparse := parseFrom_encoded hlengths harray (by rw [hlen, harray]) fun _ => none
  simp only [← attrType_eq_iff]
  constructor
  · rintro ⟨other, attrMap, hother, hfound, hexact⟩ a ha
    cases hbuf.symm.trans hother
    cases hparse.symm.trans hfound
    by_contra hne
    have hvalue := (hexact a.typ a.data).mpr ha
    rw [assigned_of_ne fun other _ hsame => hne ?_] at hvalue
    · cases hvalue
    · rw [← hsame, attrType_eq_iff, attrType]
      omega
  · intro htypes
    refine ⟨buf, _, hbuf, hparse, fun typ value => ⟨fun hvalue => ?_, fun hmem => ?_⟩⟩
    · by_contra hmem
      rw [assigned_of_ne fun a ha hsame => hmem ?_] at hvalue
      · cases hvalue
      · rw [htypes a ha] at hsame
        subst hsame
        cases (assigned_of_mem hdistinct htypes ha _).symm.trans hvalue
        exact ha
    · exact assigned_of_mem hdistinct htypes hmem _

/-- Attributes with distinct types come back from both messages exactly if their
types fit sixteen bits, and the parser stays inside its data exactly if the data
does not end in the padding of an attribute. -/
theorem rtAttrs_iff (endian : Endian) (nlType flags : UInt16) (seq port : UInt32)
    (ndmsg : Vector UInt8 sizeofNdMsg) (rtmsg : Vector UInt8 sizeofRtMsg)
    (hdistinct : (attrs.map (·.typ)).Nodup) (hlengths : ∀ a ∈ attrs, a.data.length ≤ 65531) :
    (RoundTrips endian sizeofNdMsg (encodeNetlinkNeigh endian nlType flags seq port ndmsg attrs)
      attrs ↔ ∀ a ∈ attrs, 0 ≤ a.typ ∧ a.typ < 65536) ∧
    (RoundTrips endian sizeofRtMsg (encodeNetlinkRoute endian nlType flags seq port rtmsg attrs)
      attrs ↔ ∀ a ∈ attrs, 0 ≤ a.typ ∧ a.typ < 65536) ∧
    ∀ b, Succeeds (parseRtAttrs endian b) ↔ ¬ Overruns endian b :=
  ⟨roundTrips_iff endian nlType flags seq port ndmsg hdistinct hlengths,
    roundTrips_iff endian nlType flags seq port rtmsg hdistinct hlengths,
    fun b => succeeds_parseFrom_iff b _⟩

end

def sampleAttrs : List RtAttrEntry := [⟨1, [10, 0, 0, 1]⟩, ⟨4, [7]⟩, ⟨5, []⟩]

theorem rtAttrs_iff_sampleAttrs :
    RoundTrips .little sizeofNdMsg (encodeNetlinkNeigh .little 28 1 1 0 (.replicate _ 0)
      sampleAttrs) sampleAttrs :=
  (rtAttrs_iff .little 28 1 1 0 (.replicate _ 0) (.replicate _ 0) (by decide) (by decide)).1.mpr
    (by decide)

/-- The last attribute is not padded, and the parser slices past the end. A type
of more than sixteen bits does not come back. -/
theorem exists_rtAttrs_overrun :
    parseRtAttrs .little (.ofBytes [5, 0, 1, 0, 9]) = .error .sliceBounds ∧
      ¬ RoundTrips .little sizeofRtMsg (encodeNetlinkRoute .little 24 1 1 0 (.replicate _ 0)
        [⟨65537, [9]⟩]) [⟨65537, [9]⟩] := by
  refine ⟨?_, fun trips => ?_⟩
  · rw [parseRtAttrs, parseFrom_eq]
    rfl
  · have htypes := (roundTrips_iff .little 24 1 1 0 _ (by decide) (by decide)).mp trips
    exact absurd (htypes _ List.mem_cons_self).2 (by decide)

end Pig.Routing

