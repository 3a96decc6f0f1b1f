import Pig.Lib.Run
import Pig.Stun.Assembly
import Pig.Stun.Operations

namespace Pig.Stun

open Go

/-! A message is kept three times over: as a list of attributes, as a length in
its header and as raw bytes. Every call keeps them in agreement. -/

namespace Draft

/-- The three representations of a message agree, and its attributes come in an
order that is allowed. -/
structure Consistent (msg : Draft) : Prop where
  raw_eq : ∃ encodings, msg.attributes.mapM Item.serializeTo = .ok encodings ∧
    msg.raw = msg.header.serializeTo ++ encodings.flatten
  header_length : msg.header.serializeTo.length = 20
  length_eq : msg.header.length.toNat = msg.raw.length - 20
  field_eq : Bytes.toNatBE (msg.raw.window 2 2) = msg.raw.length - 20
  fingerprint_last : ∀ front attr back,
    msg.attributes = front ++ attr :: back → attr.type = attrFingerprint → back = []
  integrity_last : ∀ front attr back,
    msg.attributes = front ++ attr :: back → attr.type = attrMessageIntegrity →
      ∀ other ∈ back, other.type = attrMessageIntegritySHA256 ∨ other.type = attrFingerprint

def size (attributes : List Item) : Nat :=
  20 + (attributes.map fun attr => attrSerializedSize attr.value.length).sum

def accepted (attributes : List Item) : List Item → List Item
  | [] => []
  | attr :: rest =>
    if Item.follows attributes attr.type then
      attr :: accepted (attributes ++ [attr]) rest
    else []

def withoutFingerprint (attributes : List Item) : List Item :=
  match attributes.getLast? with
  | none => attributes
  | some last =>
    if last.type = attrFingerprint then attributes.dropLast else attributes

def sizeAfter (msg : Draft) : Operation → Nat
  | .appendAttribute attrs =>
    size (msg.attributes ++ accepted msg.attributes attrs)
  | .addMessageIntegrity password =>
    if password ≠ [] ∧ Item.follows msg.attributes attrMessageIntegrity then
      size msg.attributes + 24
    else size msg.attributes
  | .withFingerprint => size msg.attributes
  | .addFingerprint => size (withoutFingerprint msg.attributes) + 8
  | .serializeTo | .writeTo _ =>
    if msg.fingerprint then size (withoutFingerprint msg.attributes) + 8
    else size msg.attributes

def Fits (msg : Draft) (operation : Operation) : Prop := msg.sizeAfter operation < 65536

instance (msg : Draft) (operation : Operation) : Decidable (msg.Fits operation) :=
  inferInstanceAs (Decidable (_ < _))

end Draft

namespace Item

variable {attr : Item} {attributes : List Item}

def bytes (attr : Item) : Bytes := Bytes.ofNatBE 2 attr.type.toNat ++ Bytes.ofNatBE 2
  attr.value.length ++ attr.value ++ List.replicate (calculatePadding attr.value.length) 0

theorem length_bytes (attr : Item) : attr.bytes.length = attrSerializedSize attr.value.length := by
  simp only [bytes, attrSerializedSize, List.length_append,
    Bytes.length_ofNatBE, List.length_replicate]

theorem serializeLen_eq (hlength : attr.value.length < 65536) :
    attr.serializeLen = attrSerializedSize attr.value.length := by
  rw [serializeLen, Nat.mod_eq_of_lt hlength]

theorem serializeTo_eq (hlength : attr.value.length < 65536) :
    attr.serializeTo = .ok attr.bytes := by
  rw [serializeTo, serializeLen_eq hlength, attrSerializedSize,
    if_pos (by omega), Nat.add_sub_cancel_left]
  rfl

theorem mapM_serializeTo (hlengths : ∀ attr ∈ attributes, attr.value.length < 65536) :
    attributes.mapM serializeTo = .ok (attributes.map bytes) := by
  rw [mapM_eq_ok]
  induction attributes with
  | nil => exact .nil
  | cons attr rest ih =>
    obtain ⟨hfirst, hrest⟩ := List.forall_mem_cons.1 hlengths
    exact .cons (serializeTo_eq hfirst) (ih hrest)

theorem mayFollow_fingerprint {last : UInt16} :
    mayFollow last attrFingerprint = true ↔ last ≠ attrFingerprint := by
  rw [mayFollow]
  by_cases hfingerprint : last = attrFingerprint
  · simp [hfingerprint]
  · rw [if_neg hfingerprint]
    split
    · simp [hfingerprint]
    · split <;> simp [hfingerprint]

theorem not_mayFollow_fingerprint (next : UInt16) : mayFollow attrFingerprint next = false :=
  if_pos rfl

theorem mayFollow_integritySHA256 {next : UInt16} :
    mayFollow attrMessageIntegritySHA256 next = true ↔
      next = attrFingerprint := by
  rw [mayFollow, if_neg (by decide), if_neg (by decide), if_pos rfl, decide_eq_true_iff]

def Ordered (attributes : List Item) : Prop :=
  attributes.IsChain fun last next => mayFollow last.type next.type = true

theorem Ordered.append_singleton (ordered : Ordered attributes)
    (hfollows : follows attributes attr.type = true) :
    Ordered (attributes ++ [attr]) := by
  refine List.isChain_append.2 ⟨ordered, List.isChain_singleton _, ?_⟩
  intro last hlast other hother
  obtain rfl : attr = other := by simpa using hother
  rw [follows, hlast] at hfollows
  exact hfollows

variable {back : List Item}

theorem Ordered.nil_of_fingerprint
    (ordered : Ordered (attr :: back)) (htype : attr.type = attrFingerprint) :
    back = [] := by
  cases back with
  | nil => rfl
  | cons next rest =>
    have hnext := (List.isChain_cons_cons.1 ordered).1
    rw [htype, not_mayFollow_fingerprint] at hnext
    cases hnext

theorem Ordered.all_fingerprint (ordered : Ordered (attr :: back))
    (htype : attr.type = attrMessageIntegritySHA256) :
    ∀ other ∈ back, other.type = attrFingerprint := by
  cases back with
  | nil => simp
  | cons next rest =>
    obtain ⟨hnext, hrest⟩ := List.isChain_cons_cons.1 ordered
    rw [htype, mayFollow_integritySHA256] at hnext
    rw [Ordered.nil_of_fingerprint hrest hnext]
    simpa using hnext

theorem Ordered.after_integrity (ordered : Ordered (attr :: back))
    (htype : attr.type = attrMessageIntegrity) :
    ∀ other ∈ back, other.type = attrMessageIntegritySHA256 ∨ other.type = attrFingerprint := by
  cases back with
  | nil => simp
  | cons next rest =>
    obtain ⟨hnext, hrest⟩ := List.isChain_cons_cons.1 ordered
    rw [htype, mayFollow, if_neg (by decide), if_pos rfl, decide_eq_true_iff] at hnext
    refine List.forall_mem_cons.2 ⟨hnext, ?_⟩
    obtain hsha | hfingerprint := hnext
    · exact fun other hother =>
        .inr (Ordered.all_fingerprint hrest hsha other hother)
    · rw [Ordered.nil_of_fingerprint hrest hfingerprint]
      simp

end Item

namespace Draft

variable {attr : Item} {attributes : List Item} {msg after : Draft}

def encoded (attributes : List Item) : Bytes := attributes.flatMap Item.bytes

theorem encoded_append_singleton :
    encoded (attributes ++ [attr]) = encoded attributes ++ attr.bytes := by
  simp [encoded]

theorem length_encoded (attributes : List Item) :
    20 + (encoded attributes).length = size attributes := by
  simp only [encoded, size, List.length_flatMap, Item.length_bytes]

theorem size_append_singleton : size (attributes ++ [attr]) =
      size attributes + attrSerializedSize attr.value.length := by
  simp only [size, List.map_append, List.map_cons, List.map_nil,
    List.sum_append, List.sum_cons, List.sum_nil]
  omega

theorem length_lt_of_size (hsize : size attributes < 65536)
    (hattr : attr ∈ attributes) : attr.value.length < 65536 := by
  obtain ⟨front, back, rfl⟩ := List.append_of_mem hattr
  simp only [size, List.map_append, List.map_cons, List.sum_append,
    List.sum_cons, attrSerializedSize] at hsize
  omega

structure Whole (stale : UInt16) (msg : Draft) : Prop where
  size_lt : size msg.attributes < 65536
  length_eq : msg.header.length = UInt16.ofNat (encoded msg.attributes).length
  raw_eq : msg.raw = { msg.header with length := stale }.serializeTo ++ encoded msg.attributes
  ordered : Item.Ordered msg.attributes

def Sound (msg : Draft) : Prop := Whole msg.header.length msg

structure Kin (msg after : Draft) : Prop where
  header_eq : { after.header with length := 0 } = { msg.header with length := 0 }
  fingerprint_eq : after.fingerprint = msg.fingerprint

theorem Kin.trans {middle : Draft} (first : Kin msg middle)
    (second : Kin middle after) : Kin msg after :=
  ⟨second.header_eq.trans first.header_eq, second.fingerprint_eq.trans first.fingerprint_eq⟩

theorem Sound.eq_of_attributes (sound : Sound msg) (soundAfter : Sound after)
    (kin : Kin msg after) (hattributes : after.attributes = msg.attributes) :
    after = msg := by
  have hheader : after.header = msg.header := by
    have hlength : after.header.length = msg.header.length := by
      rw [sound.length_eq, soundAfter.length_eq, hattributes]
    have hrest := kin.header_eq
    cases hafter : after.header
    cases hmsg : msg.header
    simp only [hafter, hmsg, Header.mk.injEq] at hrest hlength ⊢
    exact ⟨hrest.1, hlength, hrest.2.2⟩
  have hraw : after.raw = msg.raw := by
    rw [sound.raw_eq, soundAfter.raw_eq, hattributes, hheader]
  have hflag := kin.fingerprint_eq
  cases after
  cases hattributes
  cases hheader
  cases hraw
  cases hflag
  rfl

theorem Sound.length_raw (sound : Sound msg) : msg.raw.length = size msg.attributes := by
  rw [sound.raw_eq, List.length_append, length_serializeTo, length_encoded]

theorem Sound.consistent (sound : Sound msg) : Consistent msg := by
  have hraw := sound.raw_eq
  have hlength := sound.length_raw
  have hsize := sound.size_lt
  have hencoded := length_encoded msg.attributes
  have hfield : msg.header.length.toNat = msg.raw.length - 20 := by
    rw [sound.length_eq, UInt16.toNat_ofNat']
    omega
  have hordered {front back : List Item} {attr : Item}
      (heq : msg.attributes = front ++ attr :: back) : Item.Ordered (attr :: back) :=
    (List.isChain_append.1 (heq ▸ sound.ordered)).2.1
  refine ⟨?_, length_serializeTo _, hfield, ?_, fun front attr back heq =>
    (hordered heq).nil_of_fingerprint, fun front attr back heq => (hordered heq).after_integrity⟩
  · refine ⟨msg.attributes.map Item.bytes, Item.mapM_serializeTo
      fun attr hattr => length_lt_of_size hsize hattr, ?_⟩
    rw [hraw, encoded, List.flatMap_def]
  · have hwindow : msg.raw.window 2 2 = Bytes.ofNatBE 2 msg.header.length.toNat := by
      rw [hraw, Bytes.window_append_left _ _ _ _
        (by rw [length_serializeTo]; decide), Header.serializeTo]
      exact Bytes.window_middle (Bytes.length_ofNatBE ..) (Bytes.length_ofNatBE ..)
    rw [hwindow, Bytes.toNatBE_ofNatBE, hfield]
    omega

theorem Whole.appendAttribute {stale : UInt16} (whole : Whole stale msg)
    (hsize : size (msg.attributes ++ [attr]) < 65536)
    (hfollows : Item.follows msg.attributes attr.type = true) :
    ∃ after, msg.appendAttribute attr = .ok (after, true) ∧ Sound after ∧
      Kin msg after ∧ after.attributes = msg.attributes ++ [attr] := by
  have hlength : attr.value.length < 65536 := length_lt_of_size hsize (by simp)
  have hfield : msg.header.length + UInt16.ofNat attr.serializeLen =
      UInt16.ofNat (encoded (msg.attributes ++ [attr])).length := by
    rw [whole.length_eq, encoded_append_singleton, List.length_append,
      Item.length_bytes, Item.serializeLen_eq hlength, UInt16.ofNat_add]
  rw [Draft.appendAttribute, if_pos hfollows, Draft.unsafeAppendAttribute,
    Item.serializeTo_eq hlength, ok_bind]
  refine ⟨_, rfl, ⟨hsize, hfield, ?_, whole.ordered.append_singleton hfollows⟩, ⟨rfl, rfl⟩, rfl⟩
  rw [whole.raw_eq, List.append_assoc, putLength_serializeTo, encoded_append_singleton]

theorem appendAttribute_of_refused (hfollows : ¬ Item.follows msg.attributes attr.type = true) :
    msg.appendAttribute attr = .ok (msg, false) :=
  if_neg hfollows

theorem size_le_append (attributes more : List Item) :
    size attributes ≤ size (attributes ++ more) := by
  simp only [size, List.map_append, List.sum_append]
  omega

theorem accepted_cons_of_follows {rest : List Item}
    (hfollows : Item.follows attributes attr.type = true) :
    attributes ++ accepted attributes (attr :: rest) =
      attributes ++ [attr] ++ accepted (attributes ++ [attr]) rest := by
  rw [accepted, if_pos hfollows, List.append_cons]

variable {attrs : List Item}

theorem Sound.appendAttributes (sound : Sound msg)
    (hsize : size (msg.attributes ++ accepted msg.attributes attrs) < 65536) :
    ∃ after done, msg.appendAttributes attrs = .ok (after, done) ∧ Sound after := by
  induction attrs generalizing msg with
  | nil => exact ⟨msg, true, rfl, sound⟩
  | cons attr rest ih =>
    rw [Draft.appendAttributes]
    by_cases hfollows : Item.follows msg.attributes attr.type = true
    · rw [accepted_cons_of_follows hfollows] at hsize
      obtain ⟨middle, happend, soundMiddle, -, hmiddle⟩ := sound.appendAttribute
          (Nat.lt_of_le_of_lt (size_le_append _ _) hsize) hfollows
      rw [← hmiddle] at hsize
      rw [happend]
      exact ih soundMiddle hsize
    · rw [appendAttribute_of_refused hfollows]
      exact ⟨msg, false, rfl, sound⟩

theorem attributes_of_appendAttributes {done : Bool}
    (happend : msg.appendAttributes attrs = .ok (after, done)) :
    after.attributes = msg.attributes ++ accepted msg.attributes attrs := by
  induction attrs generalizing msg with
  | nil =>
    cases happend
    exact (List.append_nil _).symm
  | cons attr rest ih =>
    rw [Draft.appendAttributes] at happend
    by_cases hfollows : Item.follows msg.attributes attr.type = true
    · rw [Draft.appendAttribute, if_pos hfollows, Draft.unsafeAppendAttribute] at happend
      cases hencoding : attr.serializeTo with
      | error fault => simp [hencoding] at happend
      | ok encoding =>
        rw [hencoding] at happend
        rw [ih happend, accepted_cons_of_follows hfollows]
    · rw [appendAttribute_of_refused hfollows] at happend
      cases happend
      rw [accepted, if_neg hfollows, List.append_nil]

theorem withoutFingerprint_cases (attributes : List Item) : (∃ last, last.type = attrFingerprint ∧
      attributes = withoutFingerprint attributes ++ [last]) ∨ (∀ last ∈ attributes.getLast?,
      last.type ≠ attrFingerprint) ∧ withoutFingerprint attributes = attributes := by
  rw [withoutFingerprint]
  cases hend : attributes.getLast? with
  | none => exact .inr ⟨nofun, rfl⟩
  | some last =>
    by_cases htype : last.type = attrFingerprint
    · have happend := List.dropLast_append_getLast? _ hend
      exact .inl ⟨last, htype, by simpa only [if_pos htype] using happend.symm⟩
    · refine .inr ⟨?_, if_neg htype⟩
      rintro other ⟨rfl⟩
      exact htype

theorem withoutFingerprint_append_singleton (htype : attr.type = attrFingerprint) :
    withoutFingerprint (attributes ++ [attr]) = attributes := by
  rw [withoutFingerprint, List.getLast?_concat]
  simp only [if_pos htype, List.dropLast_concat]

theorem Sound.dropFingerprint (sound : Sound msg) :
    ∃ after stale, msg.dropFingerprint = .ok after ∧ Whole stale after ∧
      Kin msg after ∧ after.attributes = withoutFingerprint msg.attributes := by
  obtain ⟨last, htype, happend⟩ | ⟨hlast, hsame⟩ := withoutFingerprint_cases msg.attributes
  · generalize withoutFingerprint msg.attributes = rest at happend ⊢
    have hsize := sound.size_lt
    have hordered := sound.ordered
    have hlength : last.value.length < 65536 := length_lt_of_size hsize (by rw [happend]; simp)
    have hraw := sound.raw_eq
    have htotal := sound.length_raw
    rw [happend] at hsize hordered hraw htotal
    rw [size_append_singleton] at hsize htotal
    have hencoded := length_encoded rest
    rw [Draft.dropFingerprint, happend, List.getLast?_concat]
    simp only [not_not.2 htype, if_false, Item.serializeLen_eq hlength, List.dropLast_concat]
    rw [if_neg (by omega)]
    refine ⟨_, msg.header.length, rfl, ⟨?_, ?_, ?_, ?_⟩, ⟨rfl, rfl⟩, rfl⟩
    · simp only
      omega
    · simp only [sound.length_eq, happend, encoded_append_singleton, List.length_append,
        Item.length_bytes, UInt16.ofNat_add, UInt16.add_sub_cancel]
    · rw [htotal, Nat.add_sub_cancel, hraw, encoded_append_singleton, ← List.append_assoc]
      apply List.take_left'
      rw [List.length_append, length_serializeTo]
      exact hencoded
    · exact (List.isChain_append.1 hordered).1
  · refine ⟨msg, msg.header.length, ?_, sound, ⟨rfl, rfl⟩, hsame.symm⟩
    rw [Draft.dropFingerprint]
    cases hend : msg.attributes.getLast? with
    | none => rfl
    | some last => exact if_pos (hlast last hend)

def fingerprintOf (crc32 : Bytes → UInt32) (header : Header) (attributes : List Item) : UInt32 :=
  calculateFingerprint crc32 ({ header with length := 0 }.serializeTo ++ encoded attributes)

theorem Whole.calculateFingerprint_eq (crc32 : Bytes → UInt32) {stale : UInt16}
    (whole : Whole stale msg) :
    calculateFingerprint crc32 msg.raw = fingerprintOf crc32 msg.header msg.attributes := by
  rw [whole.raw_eq]
  exact (calculateFingerprint_serializeTo crc32 ..).trans
    (calculateFingerprint_serializeTo crc32 ..).symm

section

variable (algorithms : Algorithms)

variable (sound : Sound msg)

include sound

theorem Sound.addFingerprint (hsize : size (withoutFingerprint msg.attributes) + 8 < 65536) :
    ∃ after, msg.addFingerprint algorithms = .ok (after, true) ∧ Sound after ∧ Kin msg after ∧
      after.attributes = withoutFingerprint msg.attributes ++ [⟨attrFingerprint, Bytes.ofNatBE 4
      (fingerprintOf algorithms.crc32 msg.header (withoutFingerprint msg.attributes)).toNat⟩] := by
  obtain ⟨middle, stale, hdrop, whole, kin, hmiddle⟩ := sound.dropFingerprint
  have hfollows : Item.follows middle.attributes attrFingerprint = true := by
    rw [Item.follows]
    cases hend : middle.attributes.getLast? with
    | none => rfl
    | some last =>
      rw [hmiddle] at hend
      rw [Item.mayFollow_fingerprint]
      obtain ⟨found, -, happend⟩ | ⟨hlast, hsame⟩ := withoutFingerprint_cases msg.attributes
      · have hordered := sound.ordered
        rw [happend, Item.Ordered, List.isChain_append] at hordered
        have hnext := hordered.2.2 last hend found rfl
        intro htype
        rw [htype, Item.not_mayFollow_fingerprint] at hnext
        cases hnext
      · rw [hsame] at hend
        exact hlast last hend
  have hvalue : newFingerprintAttr algorithms middle.raw = ⟨attrFingerprint, Bytes.ofNatBE 4
      (fingerprintOf algorithms.crc32 msg.header (withoutFingerprint msg.attributes)).toNat⟩ := by
    rw [newFingerprintAttr, whole.calculateFingerprint_eq, fingerprintOf,
      fingerprintOf, kin.header_eq, hmiddle]
  have hfits : size (middle.attributes ++ [newFingerprintAttr algorithms middle.raw]) < 65536 := by
    rw [size_append_singleton, hmiddle, newFingerprintAttr, Bytes.length_ofNatBE]
    exact hsize
  obtain ⟨after, happend, soundAfter, kinAfter, hafter⟩ := whole.appendAttribute hfits hfollows
  refine ⟨after, ?_, soundAfter, kin.trans kinAfter, ?_⟩
  · rw [Draft.addFingerprint, hdrop, ok_bind]
    exact happend
  · rw [hafter, hmiddle, hvalue]

theorem Sound.addFingerprint_twice (hsize : size (withoutFingerprint msg.attributes) + 8 < 65536) :
    ∃ after, msg.addFingerprint algorithms = .ok (after, true) ∧
      after.addFingerprint algorithms = .ok (after, true) := by
  obtain ⟨after, hadd, soundAfter, kin, hafter⟩ := sound.addFingerprint algorithms hsize
  have hwithout : withoutFingerprint after.attributes = withoutFingerprint msg.attributes := by
    rw [hafter, withoutFingerprint_append_singleton rfl]
  obtain ⟨again, hagain, soundAgain, kinAgain, hattributes⟩ :=
    soundAfter.addFingerprint algorithms (by rw [hwithout]; exact hsize)
  have hsame : again.attributes = after.attributes := by
    rw [hattributes, hwithout, hafter, fingerprintOf, kin.header_eq, ← fingerprintOf]
  rw [soundAfter.eq_of_attributes soundAgain kinAgain hsame] at hagain
  exact ⟨after, hadd, hagain⟩

theorem Sound.overwrite {front : List Item} {type : UInt16} {old new : Bytes}
    (hattributes : msg.attributes = front ++ [⟨type, old⟩]) (hlength : new.length = old.length)
    (hpadding : calculatePadding old.length = 0) (hordered : Item.Ordered (front ++ [⟨type, new⟩]))
    :
    Sound { msg with
      attributes := front ++ [⟨type, new⟩]
      raw := msg.raw.take (msg.raw.length - old.length) ++ new } := by
  have hencoded : ∀ value : Bytes, value.length = old.length → encoded (front ++ [⟨type, value⟩]) =
      encoded front ++ Bytes.ofNatBE 2 type.toNat ++ Bytes.ofNatBE 2 old.length ++ value := by
    intro value hvalue
    rw [encoded_append_singleton, Item.bytes]
    simp [hvalue, hpadding]
  have hraw : msg.raw = msg.header.serializeTo ++ encoded msg.attributes := sound.raw_eq
  have hsize := sound.size_lt
  have hfield := sound.length_eq
  rw [hattributes, hencoded old rfl] at hraw hfield
  refine ⟨?_, ?_, ?_, hordered⟩
  · rw [hattributes, size_append_singleton] at hsize
    rw [size_append_singleton, hlength]
    exact hsize
  · simp only [hencoded new hlength, List.length_append, hlength] at hfield ⊢
    exact hfield
  · rw [hencoded new hlength, hraw, ← List.append_assoc, List.length_append,
      Nat.add_sub_cancel, List.take_left]
    simp only [List.append_assoc]

theorem Sound.addMessageIntegrity (password : Bytes)
    (hsize : msg.sizeAfter (.addMessageIntegrity password) < 65536) :
    ∃ after done, msg.addMessageIntegrity algorithms password =
      .ok (after, done) ∧ Sound after := by
  by_cases hempty : password = []
  · exact ⟨msg, false, by rw [Draft.addMessageIntegrity, if_pos hempty]; rfl, sound⟩
  rw [Draft.addMessageIntegrity, if_neg hempty]
  by_cases hfollows : Item.follows msg.attributes attrMessageIntegrity = true
  · rw [sizeAfter, if_pos ⟨hempty, hfollows⟩] at hsize
    have hfits : size (msg.attributes ++
        [⟨attrMessageIntegrity, List.replicate 20 0⟩]) < 65536 := by
      rw [size_append_singleton, List.length_replicate]
      exact hsize
    obtain ⟨middle, happend, soundMiddle, -, hmiddle⟩ := sound.appendAttribute hfits hfollows
    have hlength : 20 ≤ middle.raw.length := by
      rw [soundMiddle.length_raw, size]
      omega
    obtain ⟨digest, hdigest, hcalculate⟩ := calculateIntegrity_eq_some algorithms hempty hlength
    have hcopy := FixedBytes.bytes_copyOf hdigest
    have hsame : digest.length = (List.replicate 20 (0 : UInt8)).length := by
      rw [hdigest, List.length_replicate]
    have soundAfter := soundMiddle.overwrite hmiddle hsame (by decide)
      (sound.ordered.append_singleton hfollows)
    rw [happend, ok_bind]
    simp only [if_true, hcalculate, hdigest, algorithms.size_sha1, ne_eq, not_true_eq_false,
      if_false, if_neg (Nat.not_lt.2 hlength), hcopy, hmiddle, List.dropLast_concat]
    exact ⟨_, true, rfl, soundAfter⟩
  · refine ⟨msg, false, ?_, sound⟩
    rw [appendAttribute_of_refused hfollows]
    rfl

theorem Sound.finish (hsize : (if msg.fingerprint then
      size (withoutFingerprint msg.attributes) + 8
      else size msg.attributes) < 65536) :
    ∃ after, msg.finish algorithms = .ok (after, true) ∧ Sound after := by
  rw [Draft.finish]
  split
  · rename_i hflag
    rw [if_pos hflag] at hsize
    obtain ⟨after, hadd, soundAfter, -⟩ := sound.addFingerprint algorithms hsize
    exact ⟨after, hadd, soundAfter⟩
  · exact ⟨msg, rfl, sound⟩

theorem Sound.perform (operation : Operation) (hfits : msg.Fits operation) :
    ∃ after done, msg.perform algorithms operation = .ok (after, done) ∧ Sound after := by
  cases operation with
  | appendAttribute attrs => exact sound.appendAttributes hfits
  | addMessageIntegrity password =>
    exact sound.addMessageIntegrity algorithms password hfits
  | withFingerprint =>
    exact ⟨msg.withFingerprint, true, rfl, sound.size_lt, sound.length_eq,
      sound.raw_eq, sound.ordered⟩
  | addFingerprint =>
    obtain ⟨after, hadd, soundAfter, -⟩ := sound.addFingerprint algorithms hfits
    exact ⟨after, true, hadd, soundAfter⟩
  | serializeTo =>
    obtain ⟨after, hfinish, soundAfter⟩ := sound.finish algorithms hfits
    refine ⟨after, true, ?_, soundAfter⟩
    rw [Draft.perform, Draft.serializeTo, hfinish, ok_bind]
    simp only [if_true]
    rw [Item.mapM_serializeTo fun attr hattr =>
      length_lt_of_size soundAfter.size_lt hattr]
    rfl
  | writeTo written =>
    obtain ⟨after, hfinish, soundAfter⟩ := sound.finish algorithms hfits
    refine ⟨after, true && written, ?_, soundAfter⟩
    rw [Draft.perform, Draft.writeTo, hfinish]
    rfl

end

theorem sound_of_new {msgType : UInt16} {txID : FixedBytes 12}
    (hnew : newMessageWithTransactionID msgType attrs txID = .ok (some msg))
    (hsize : size msg.attributes < 65536) : Sound msg := by
  obtain ⟨⟨after, done⟩, happend, hdone⟩ := bind_eq_ok.1 hnew
  cases done with
  | false => cases hdone
  | true =>
    cases hdone
    rw [attributes_of_appendAttributes happend] at hsize
    have blank : Sound {
        header := Header.new msgType txID
        attributes := []
        raw := (Header.new msgType txID).serializeTo
        fingerprint := false } :=
      ⟨(by decide : size [] < 65536), rfl, (List.append_nil _).symm, .nil⟩
    obtain ⟨again, done, hagain, sound⟩ := blank.appendAttributes hsize
    cases happend.symm.trans hagain
    exact sound

section

variable {algorithms : Algorithms} {msgType : UInt16} {txID : FixedBytes 12} {first last : Draft}
  {operations : List Operation}

theorem Sound.step {operation : Operation} (sound : Sound msg) (hfits : msg.Fits operation)
    (hstep : msg.step algorithms operation = some after) : Sound after := by
  obtain ⟨left, done, hperform, soundLeft⟩ := sound.perform algorithms operation hfits
  rw [Draft.step, hperform] at hstep
  cases hstep
  exact soundLeft

/-- Whatever calls were made on a new message, refused or not, its
representations agree, the next call returns, and a second FINGERPRINT replaces
the first by itself. -/
theorem representation_consistent (hnew : newMessageWithTransactionID msgType attrs txID = .ok
    (some first)) (hsize : size first.attributes < 65536) (run : Run (step algorithms) Fits first
    operations last) :
    Consistent last ∧ (∀ operation, last.Fits operation → ∃ after done, last.perform algorithms
      operation = .ok (after, done)) ∧ (last.Fits .addFingerprint → ∃ once, last.addFingerprint
      algorithms = .ok (once, true) ∧ once.addFingerprint algorithms = .ok (once, true)) := by
  have sound : Sound last := run.invariant Sound (sound_of_new hnew hsize)
    fun _ _ _ sound hfits hstep => sound.step hfits hstep
  refine ⟨sound.consistent, fun operation hfits => ?_, fun hfits =>
    sound.addFingerprint_twice algorithms hfits⟩
  obtain ⟨after, done, hperform, -⟩ := sound.perform algorithms operation hfits
  exact ⟨after, done, hperform⟩

end

/-- HMAC-SHA1 with the key "pw" and CRC-32 as they are on this request. -/
def requestAlgorithms : Algorithms where
  sha1 := {
    size := 20
    hmac := fun _ _ =>
      [0xbf, 0x65, 0x75, 0x88, 0x54, 0x42, 0x8d, 0x3c, 0xd5, 0xf9, 0x0e, 0xe9,
        0xcc, 0x1a, 0x62, 0xa0, 0x26, 0x05, 0x56, 0xe7]
    length_hmac := fun _ _ => rfl }
  size_sha1 := rfl
  crc32 := fun _ => 0x9c345eac
  opaqueString := fun text => text

def requestTxID : FixedBytes 12 := .copyOf 12 [1, 2, 3, 4, 5, 6, 7, 8, 9, 10, 11, 12]

def requestUser : Item := ⟨0x0006, [0x62, 0x3a, 0x61]⟩

def request : Draft where
  header := { Header.new 0x0001 requestTxID with length := 8 }
  attributes := [requestUser]
  raw := { Header.new 0x0001 requestTxID with length := 8 }.serializeTo ++ requestUser.bytes
  fingerprint := false

def requestOperations : List Operation := [.appendAttribute [⟨0x0025, []⟩, ⟨0x7f01, [1, 2, 3]⟩],
    .addMessageIntegrity [0x70, 0x77], .addMessageIntegrity [0x70, 0x77], .withFingerprint, .writeTo
    false, .appendAttribute [requestUser], .serializeTo, .addFingerprint]

theorem representation_consistent_request :
    ∃ last, Run (step requestAlgorithms) Fits request requestOperations last ∧ last.attributes.map
      Item.type = [0x0006, 0x0025, 0x7f01, attrMessageIntegrity, attrFingerprint] ∧ Consistent last
      := by
  have hnew : newMessageWithTransactionID 0x0001 [requestUser] requestTxID =
      .ok (some request) := by
    decide +kernel
  have hsize : size request.attributes < 65536 := by decide
  exact Run.exists_of_exec_imp (fun last => last.attributes.map Item.type =
    [0x0006, 0x0025, 0x7f01, attrMessageIntegrity, attrFingerprint]) (by decide +kernel)
    fun _ run htypes => ⟨htypes, (representation_consistent hnew hsize run).1⟩

end Draft

end Pig.Stun
