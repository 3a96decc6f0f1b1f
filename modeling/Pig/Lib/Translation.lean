import Mathlib.Data.List.Basic

namespace Pig.Translation

/-! Boxes between a host and the network it talks to: they give its packets a
source and decide on the packets that come back. The ones that translate
addresses do so by what they keep of the remote endpoint. -/

@[ext] structure Endpoint (IP Port : Type) where
  ip : IP
  port : Port
  deriving DecidableEq, Repr

structure Middlebox (Remote State : Type) where
  outgoing : State → (dest : Remote) → Remote × State
  incoming : State → (dest source : Remote) → Bool

/-- What comes back from an endpoint that was just sent to passes. -/
def Middlebox.Lossless {Remote State : Type} (box : Middlebox Remote State) : Prop := ∀ state dest,
    box.incoming (box.outgoing state dest).2 (box.outgoing state dest).1 dest = true

inductive Dependence where
  | endpointIndependent
  | addressDependent
  | addressAndPortDependent
  deriving DecidableEq, Repr

section

variable {IP Port : Type}

inductive Part (IP Port : Type) where
  | nothing
  | address (ip : IP)
  | all (remote : Endpoint IP Port)
  deriving DecidableEq, Repr

def Dependence.part : Dependence → Endpoint IP Port → Part IP Port
  | .endpointIndependent, _ => .nothing
  | .addressDependent, remote => .address remote.ip
  | .addressAndPortDependent, remote => .all remote

def Dependence.Alike (behaviour : Dependence) (a b : Endpoint IP Port) : Prop :=
  match behaviour with
  | .endpointIndependent => True
  | .addressDependent => a.ip = b.ip
  | .addressAndPortDependent => a = b

theorem Dependence.part_eq_iff (behaviour : Dependence) {a b : Endpoint IP Port} :
    behaviour.part a = behaviour.part b ↔ behaviour.Alike a b := by
  cases behaviour with
  | endpointIndependent => exact iff_of_true rfl trivial
  | addressDependent => exact Eq.to_iff (Part.address.injEq _ _)
  | addressAndPortDependent => exact Eq.to_iff (Part.all.injEq _ _)

end

/-- The external endpoint is chosen by the host and by a part of the remote
endpoint. -/
structure Translator (IP Port : Type) where
  mapping : Dependence
  filtering : Dependence
  external : Endpoint IP Port → Part IP Port → Endpoint IP Port

namespace Translator

variable {IP Port : Type}

abbrev Sessions (IP Port : Type) := List (Endpoint IP Port × Endpoint IP Port)

section

variable (translator : Translator IP Port) (host : Endpoint IP Port)

def translate (dest : Endpoint IP Port) : Endpoint IP Port :=
  translator.external host (translator.mapping.part dest)

/-- Different parts of these remote endpoints are given different external
endpoints. There are too many endpoints to ask it for all of them. -/
def Separates (remotes : Endpoint IP Port → Prop) : Prop := ∀ a b, remotes a → remotes b →
    translator.translate host a = translator.translate host b →
      translator.mapping.part a = translator.mapping.part b

theorem Separates.translate_eq_iff {remotes : Endpoint IP Port → Prop}
    (separates : translator.Separates host remotes) {a b : Endpoint IP Port}
    (ha : remotes a) (hb : remotes b) :
    translator.translate host a = translator.translate host b ↔ translator.mapping.Alike a b := by
  rw [← Dependence.part_eq_iff]
  refine ⟨separates a b ha hb, fun hpart => ?_⟩
  rw [translate, translate, hpart]

variable [DecidableEq IP] [DecidableEq Port]

/-- A packet passes to the host if it is sent to an endpoint the host has, and
if the host has sent to a remote endpoint that is taken to be the same as the
one it comes from. -/
def incoming (sessions : Sessions IP Port) (dest source : Endpoint IP Port) : Bool :=
  (sessions.any fun session =>
    session.1 = host ∧ translator.translate host session.2 = dest) &&
  sessions.any fun session =>
    session.1 = host ∧ translator.filtering.part session.2 = translator.filtering.part source

def box : Middlebox (Endpoint IP Port) (Sessions IP Port) where
  outgoing sessions dest := (translator.translate host dest, (host, dest) :: sessions)
  incoming := translator.incoming host

variable {sessions : Sessions IP Port}

theorem incoming_iff {dest source : Endpoint IP Port} :
    translator.incoming host sessions dest source = true ↔ (∃ remote, (host, remote) ∈ sessions ∧
      translator.translate host remote = dest) ∧ ∃ remote, (host, remote) ∈ sessions ∧
      translator.filtering.Alike remote source := by
  simp only [incoming, Bool.and_eq_true, List.any_eq_true, decide_eq_true_eq,
    Prod.exists, Dependence.part_eq_iff]
  constructor
  · rintro ⟨⟨first, remote, hmem, rfl, hdest⟩, ⟨second, other, hother, rfl, halike⟩⟩
    exact ⟨⟨remote, hmem, hdest⟩, other, hother, halike⟩
  · rintro ⟨⟨remote, hmem, hdest⟩, other, hother, halike⟩
    exact ⟨⟨host, remote, hmem, rfl, hdest⟩, host, other, hother, rfl, halike⟩

theorem incoming_answer {dest : Endpoint IP Port} :
    translator.incoming host ((host, dest) :: sessions)
      (translator.translate host dest) dest = true := by
  refine (translator.incoming_iff host).2
    ⟨⟨dest, List.mem_cons_self, rfl⟩, dest, List.mem_cons_self, ?_⟩
  exact translator.filtering.part_eq_iff.1 rfl

theorem lossless_box : (translator.box host).Lossless :=
  fun _ _ => translator.incoming_answer host

end

end Translator

end Pig.Translation
