import Mathlib.Data.List.Perm.Basic

namespace Pig.Log

open scoped List

/-! The log file, which is renamed by the time when it has reached its size. -/

/-- The log and what it was renamed to, by the second of local time that stands
in the name. A file that does not exist counts as an empty one. -/
structure Directory (Byte : Type) where
  log : List Byte
  rotated : List (Int × List Byte)
  deriving DecidableEq, Repr

namespace Directory

variable {Byte : Type} (d : Directory Byte)

def contentAt (name : Int) : List Byte :=
  ((d.rotated.filter fun file => file.1 = name).map Prod.snd).flatten

def text : List Byte := (d.rotated.map Prod.snd).flatten ++ d.log

/-- The call `os.Rename`, which replaces a file of that name. -/
def rename (name : Int) : Directory Byte where
  log := []
  rotated := (d.rotated.filter fun file => !decide (file.1 = name)) ++ [(name, d.log)]

variable {d}

theorem contentAt_rename (name other : Int) :
    (d.rename name).contentAt other = if other = name then d.log else d.contentAt other := by
  rw [contentAt, rename, List.filter_append, List.filter_filter]
  split
  · next hsame =>
    subst hsame
    simp
  · next hother =>
    have hkept : ∀ file : Int × List Byte, (decide (file.1 = other) && !decide (file.1 = name)) =
        decide (file.1 = other) := by
      intro file
      grind
    simp only [hkept]
    simp [contentAt, Ne.symm hother]

theorem text_rename (name : Int) : (d.rename name).text ++ d.contentAt name ~ d.text := by
  have hfiles := ((List.filter_append_perm (fun file : Int × List Byte => file.1 = name)
    d.rotated).map Prod.snd).flatten
  rw [List.map_append, List.flatten_append] at hfiles
  simp only [text, rename, List.map_append, List.flatten_append, List.map_cons, List.map_nil,
    List.flatten_cons, List.flatten_nil, List.append_nil]
  refine List.perm_append_comm.trans ?_
  rw [← List.append_assoc]
  exact hfiles.append_right _

end Directory

inductive WriteError where
  | closed
  | write
  | stat
  | rename
  | openFile
  deriving DecidableEq, Repr

/-- A call of `Write` and what the system answers in it: how much is written if
not all, whether the other file operations succeed, and the clock. -/
structure Call (Byte : Type) where
  p : List Byte
  written : Option Nat
  stat : Bool
  rename : Bool
  openFile : Bool
  now : Nat
  deriving DecidableEq, Repr

def Call.Succeeds {Byte : Type} (call : Call Byte) : Prop :=
  call.written = none ∧ call.stat = true ∧ call.rename = true ∧ call.openFile = true

/-- One goroutine writes, and so the flag `rotating` is never found set. -/
structure FileWriter (Byte : Type) where
  directory : Directory Byte
  closed : Bool
  rotateSize : Int64
  bytesWritten : Int64
  deriving DecidableEq, Repr

def format (zone : Nat → Int) (now : Nat) : Int :=
  (now / 1000000000 : Nat) + zone (now / 1000000000)

def newFileWriter {Byte : Type} (directory : Directory Byte) (rotateSize : Int64) :
    FileWriter Byte where
  directory := directory
  closed := false
  rotateSize := rotateSize
  bytesWritten := Int64.ofNat directory.log.length

namespace FileWriter

variable {Byte : Type} (zone : Nat → Int) (l : FileWriter Byte)

def size : Int64 := Int64.ofNat l.directory.log.length

def append (p : List Byte) : FileWriter Byte :=
  { l with directory := { l.directory with log := l.directory.log ++ p } }

def stored (p : List Byte) : FileWriter Byte :=
  { l.append p with bytesWritten := l.bytesWritten + Int64.ofNat p.length }

def renamed (name : Int) : FileWriter Byte :=
  { l with directory := l.directory.rename name, closed := true }

def reopened : FileWriter Byte := { l with closed := false, bytesWritten := 0 }

def rotate (maxSize : Int64) (call : Call Byte) : FileWriter Byte × Option WriteError :=
  if l.bytesWritten < maxSize then (l, none)
  else if !call.stat then (l, some .stat)
  else if l.size < maxSize then (l, none)
  else if !call.rename then ({ l with closed := true }, some .rename)
  else if !call.openFile then (l.renamed (format zone call.now), some .openFile)
  else ((l.renamed (format zone call.now)).reopened, none)

def write (call : Call Byte) : FileWriter Byte × Nat × Option WriteError :=
  if l.closed then (l, 0, some .closed)
  else
    match call.written with
    | some n => (l.append (call.p.take n), n, some .write)
    | none =>
      if l.rotateSize > 0 then
        let (after, err) := (l.stored call.p).rotate zone l.rotateSize call
        (after, call.p.length, err)
      else (l.stored call.p, call.p.length, none)

def writeAll (calls : List (Call Byte)) : FileWriter Byte :=
  calls.foldl (fun l call => (l.write zone call).1) l

def errors : FileWriter Byte → List (Call Byte) → List (Option WriteError)
  | _, [] => []
  | l, call :: calls => (l.write zone call).2.2 :: errors (l.write zone call).1 calls

def Rotates (call : Call Byte) : Prop :=
  l.rotateSize > 0 ∧ ¬ (l.stored call.p).bytesWritten < l.rotateSize ∧
    ¬ (l.stored call.p).size < l.rotateSize

instance (call : Call Byte) : Decidable (l.Rotates call) := inferInstanceAs (Decidable (_ ∧ _ ∧ _))

def names : FileWriter Byte → List (Call Byte) → List Int
  | _, [] => []
  | l, call :: calls =>
    (if l.Rotates call then [format zone call.now] else []) ++ names (l.write zone call).1 calls

variable {zone l} {call : Call Byte} {calls : List (Call Byte)}

theorem write_of_succeeds (hopen : l.closed = false) (hsucceeds : call.Succeeds) :
    (l.write zone call).1.closed = false ∧ (l.write zone call).1.directory =
      if l.Rotates call then (l.stored call.p).directory.rename (format zone call.now)
      else (l.stored call.p).directory := by
  obtain ⟨hwritten, hstat, hrename, hopenFile⟩ := hsucceeds
  simp only [write, hopen, hwritten, rotate, hstat, hrename, hopenFile, Bool.not_true,
    Bool.false_eq_true, if_false]
  by_cases hrotates : l.Rotates call
  · obtain ⟨hsize, hbytes, hreached⟩ := hrotates
    rw [if_pos hsize, if_neg hbytes, if_neg hreached, if_pos ⟨hsize, hbytes, hreached⟩]
    exact ⟨rfl, rfl⟩
  · rw [if_neg hrotates]
    split_ifs with hsize hbytes hreached
    · exact ⟨hopen, rfl⟩
    · exact ⟨hopen, rfl⟩
    · exact absurd ⟨hsize, hbytes, hreached⟩ hrotates
    · exact ⟨hopen, rfl⟩

theorem log_ne_nil (hrotates : l.Rotates call) : (l.stored call.p).directory.log ≠ [] := by
  intro hnil
  refine hrotates.2.2 ?_
  rw [size, hnil]
  exact hrotates.1

theorem kept_iff (hopen : l.closed = false) (hsucceeds : ∀ call ∈ calls, call.Succeeds) :
    (l.writeAll zone calls).directory.text.length ≤
      (l.directory.text ++ (calls.map Call.p).flatten).length ∧
    ((l.writeAll zone calls).directory.text ~ l.directory.text ++ (calls.map Call.p).flatten ↔
      (l.names zone calls).Nodup ∧
        ∀ name ∈ l.names zone calls, l.directory.contentAt name = []) := by
  -- Induction on the calls: a file that is replaced is never written again.
  induction calls generalizing l with
  | nil => simp [writeAll, names]
  | cons call calls ih =>
    obtain ⟨hclosed, hdirectory⟩ :=
      @write_of_succeeds _ zone l call hopen (hsucceeds call List.mem_cons_self)
    obtain ⟨hle, hiff⟩ := ih hclosed fun call hcall => hsucceeds call (List.mem_cons_of_mem _ hcall)
    have hstored : (l.stored call.p).directory.text = l.directory.text ++ call.p :=
      (List.append_assoc ..).symm
    rw [writeAll, List.foldl_cons, ← writeAll, names, List.map_cons, List.flatten_cons,
      ← List.append_assoc, ← hstored]
    generalize (l.write zone call).1 = next at *
    by_cases hrotates : l.Rotates call
    · rw [if_pos hrotates] at hdirectory
      have hreplaced : next.directory.text ++ l.directory.contentAt (format zone call.now) ~
          (l.stored call.p).directory.text := by
        rw [hdirectory]
        exact Directory.text_rename _
      have hlength := hreplaced.length_eq
      have hcontent (name : Int) : next.directory.contentAt name = if name = format zone call.now
          then (l.stored call.p).directory.log else l.directory.contentAt name := by
        rw [hdirectory]
        exact Directory.contentAt_rename ..
      rw [List.length_append] at hle hlength
      rw [if_pos hrotates, List.length_append, List.singleton_append, List.nodup_cons,
        List.forall_mem_cons]
      refine ⟨by omega, ?_⟩
      by_cases hlost : l.directory.contentAt (format zone call.now) = []
      · rw [hlost, List.append_nil] at hreplaced
        rw [← (hreplaced.append_right _).congr_right, hiff]
        have hnew : (∀ name ∈ next.names zone calls, next.directory.contentAt name = []) ↔
            format zone call.now ∉ next.names zone calls ∧
              ∀ name ∈ next.names zone calls, l.directory.contentAt name = [] := by
          have hlog := log_ne_nil hrotates
          simp only [hcontent]
          grind
        rw [hnew]
        tauto
      · refine iff_of_false (fun kept => ?_) fun hnames => hlost hnames.2.1
        have hkept := kept.length_eq
        have hpositive := List.length_pos_of_ne_nil hlost
        rw [List.length_append] at hkept
        omega
    · rw [if_neg hrotates] at hdirectory
      rw [if_neg hrotates, List.nil_append, ← hdirectory]
      have hcontent (name : Int) :
          next.directory.contentAt name = l.directory.contentAt name := by
        rw [hdirectory]
        rfl
      simp only [hcontent] at hiff
      exact ⟨hle, hiff⟩

theorem closed_write_iff : (l.write zone call).1.closed = true ↔ l.closed = true ∨
    (l.write zone call).2.2 = some .rename ∨ (l.write zone call).2.2 = some .openFile := by
  simp only [write, rotate]
  split
  · simp [*]
  · split
    · simp [append, *]
    · split_ifs <;> simp_all [stored, append, renamed, reopened]

theorem error_closed_iff : (l.write zone call).2.2 = some .closed ↔ l.closed = true := by
  simp only [write, rotate]
  split
  · simp [*]
  · split
    · simp [*]
    · split_ifs <;> simp_all

theorem closed_writeAll_iff : (l.writeAll zone calls).closed = true ↔ l.closed = true ∨
    ∃ error ∈ l.errors zone calls, error = some .rename ∨ error = some .openFile := by
  induction calls generalizing l with
  | nil => simp [writeAll, errors]
  | cons call calls ih =>
    rw [writeAll, List.foldl_cons, ← writeAll, ih, closed_write_iff, errors, or_assoc]
    simp

end FileWriter

/-- If all file operations succeed, every byte is present exactly once if no two
rotations fall in the same second and none in that of a file with content. A
later call finds the file open exactly if no rename and no reopening has
failed. -/
theorem rotation_iff {Byte : Type} (zone : Nat → Int) (directory : Directory Byte)
    (rotateSize : Int64) (calls : List (Call Byte)) :
    let l := newFileWriter directory rotateSize
    ((∀ call ∈ calls, call.Succeeds) → ((l.writeAll zone calls).directory.text ~ directory.text ++
      (calls.map Call.p).flatten ↔ (l.names zone calls).Nodup ∧
        ∀ name ∈ l.names zone calls, directory.contentAt name = [])) ∧
    ∀ call, (((l.writeAll zone calls).write zone call).2.2 ≠ some .closed ↔
      ∀ error ∈ l.errors zone calls, error ≠ some .rename ∧ error ≠ some .openFile) := by
  intro l
  refine ⟨fun hsucceeds => (FileWriter.kept_iff rfl hsucceeds).2, fun call => ?_⟩
  rw [ne_eq, FileWriter.error_closed_iff, FileWriter.closed_writeAll_iff]
  simp [l, newFileWriter, not_or]

def sampleCall (byte : UInt8) (now : Nat) : Call UInt8 := ⟨[byte], none, true, true, true, now⟩

theorem rotation_iff_sampleCall :
    ((newFileWriter ⟨[], []⟩ 1).writeAll (fun _ => 0) [sampleCall 7 0, sampleCall 8 1000000000]
      ).directory.text ~ [7, 8] :=
  ((rotation_iff (fun _ => 0) ⟨[], []⟩ 1 [sampleCall 7 0, sampleCall 8 1000000000]).1
    (by simp [sampleCall, Call.Succeeds])).mpr (by decide)

/-- A second rotation within the same second replaces the file of the first, and
after a rename that failed the file is closed. -/
theorem exists_rotation_loss :
    ((newFileWriter ⟨[], []⟩ 1).writeAll (fun _ => 0) [sampleCall 7 0, sampleCall 8 500000000]
      ).directory = ⟨[], [(0, [8])]⟩ ∧
    (((newFileWriter ⟨[], []⟩ 1).writeAll (fun _ => 0) [{ sampleCall 7 0 with rename := false }]
      ).write (fun _ => 0) (sampleCall 8 1)).2.2 = some .closed := by
  decide +kernel

end Pig.Log
