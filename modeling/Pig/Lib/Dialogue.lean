import Mathlib.Data.List.Basic

namespace Pig

section

variable {State Other Call Reply : Type} {call : State → Call → Option (Reply × State)}
  {call' : Other → Call → Option (Reply × Other)}

def answers (call : State → Call → Option (Reply × State)) :
    State → List Call → Option (List Reply × State)
  | state, [] => some ([], state)
  | state, next :: rest =>
    (call state next).bind fun first =>
      (answers call first.2 rest).map fun others =>
        (first.1 :: others.1, others.2)

theorem answers_append (state : State) (front back : List Call) :
    answers call state (front ++ back) = (answers call state front).bind fun first =>
        (answers call first.2 back).map fun others =>
          (first.1 ++ others.1, others.2) := by
  induction front generalizing state with
  | nil =>
    simp [answers]
  | cons next front ih =>
    rw [List.cons_append, answers, answers]
    cases call state next with
    | none => rfl
    | some first =>
      simp only [Option.bind_some, ih]
      cases answers call first.2 front with
      | none => rfl
      | some middle =>
        simp only [Option.bind_some, Option.map_some, Option.map_map]
        rfl

def SameAnswer (related : State → Other → Prop)
    (first : Option (Reply × State)) (second : Option (Reply × Other)) : Prop :=
  Option.Rel (fun left right => left.1 = right.1 ∧ related left.2 right.2) first second

section

variable {calls : List Call} {state : State} {other : Other} (related : State → Other → Prop)
  (hcall : ∀ next ∈ calls, ∀ state other, related state other → SameAnswer related (call state next)
    (call' other next))
  (hrelated : related state other)

include related hcall hrelated

theorem answers_related :
    SameAnswer related (answers call state calls) (answers call' other calls) := by
  induction calls generalizing state other with
  | nil => exact .some ⟨rfl, hrelated⟩
  | cons next rest ih =>
    rw [List.forall_mem_cons] at hcall
    have hsame := hcall.1 state other hrelated
    rw [answers, answers]
    revert hsame
    generalize call state next = first, call' other next = second
    rintro (⟨hreply, hafter⟩ | _)
    · have hrest := ih hcall.2 hafter
      simp only [Option.bind_some]
      revert hrest
      generalize answers call _ rest = left, answers call' _ rest = right
      rintro (⟨hreplies, hlast⟩ | _)
      · exact .some ⟨by simp only [hreply, hreplies], hlast⟩
      · exact .none
    · exact .none

/-- Machines that answer each of the calls in the same way give the same replies
to all of them. -/
theorem answers_eq_of_related :
    (answers call state calls).map (·.1) = (answers call' other calls).map (·.1) := by
  have hsame := answers_related related hcall hrelated
  revert hsame
  generalize answers call state calls = first, answers call' other calls = second
  rintro (⟨hreplies, -⟩ | _)
  · simp only [Option.map_some, hreplies]
  · rfl

end

end

end Pig
