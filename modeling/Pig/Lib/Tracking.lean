import Mathlib.Data.List.Induction
import Mathlib.Logic.Function.Basic

namespace Pig.Tracking

/-! A table of flows that is asked in both directions: under the key of a flow
when its host sends, and under the key of its replies when they come back. -/

structure Flow (Key Host : Type) where
  out : Key
  back : Key
  host : Host
  deriving DecidableEq, Repr

variable {Key Host : Type} [DecidableEq Key] {table : Key → Option Host} {flow : Flow Key Host}
  {flows : List (Flow Key Host)}

def note (table : Key → Option Host) (flow : Flow Key Host) : Key → Option Host :=
  match table flow.out with
  | some _ => table
  | none =>
    Function.update (Function.update table flow.out (some flow.host)) flow.back (some flow.host)

def noteAll (flows : List (Flow Key Host)) : Key → Option Host := flows.foldl note fun _ => none

structure Apart (flows : List (Flow Key Host)) : Prop where
  determined : ∀ first ∈ flows, ∀ second ∈ flows, first.out = second.out → first.back = second.back
  distinct : ∀ first ∈ flows, ∀ second ∈ flows, first.out ≠ second.back

structure Kept (table : Key → Option Host) (flows : List (Flow Key Host)) :
    Prop where
  sourced : ∀ key, table key ≠ none → ∃ flow ∈ flows, key = flow.out ∨ key = flow.back
  answered : ∀ flow ∈ flows, ∃ other ∈ flows,
    other.back = flow.back ∧ table flow.back = some other.host

theorem Kept.note (kept : Kept table flows) (apart : Apart (flows ++ [flow])) :
    Kept (note table flow) (flows ++ [flow]) := by
  have hsub : ∀ found ∈ flows, found ∈ flows ++ [flow] :=
    fun found hfound => List.mem_append_left _ hfound
  have hlast : flow ∈ flows ++ [flow] := by simp
  rw [Tracking.note]
  cases hknown : table flow.out with
  | some entry =>
    refine ⟨?_, ?_⟩
    · intro key hkey
      obtain ⟨found, hmem, hwhich⟩ := kept.sourced key hkey
      exact ⟨found, hsub found hmem, hwhich⟩
    · intro found hfound
      obtain hfound | hfound := List.mem_append.1 hfound
      · obtain ⟨other, hmem, hother⟩ := kept.answered found hfound
        exact ⟨other, hsub other hmem, hother⟩
      · obtain rfl := List.mem_singleton.1 hfound
        -- The flow is known as itself, not by the replies to another one.
        obtain ⟨earlier, hearlier, hout | hback⟩ := kept.sourced found.out (by simp [hknown])
        · obtain ⟨other, hmem, hother⟩ := kept.answered earlier hearlier
          rw [apart.determined found hlast earlier (hsub earlier hearlier) hout]
          exact ⟨other, hsub other hmem, hother⟩
        · exact absurd hback (apart.distinct found hlast earlier (hsub earlier hearlier))
  | none =>
    dsimp only
    refine ⟨?_, ?_⟩
    · intro key hkey
      by_cases hback : key = flow.back
      · exact ⟨flow, hlast, .inr hback⟩
      · rw [Function.update_of_ne hback] at hkey
        by_cases hout : key = flow.out
        · exact ⟨flow, hlast, .inl hout⟩
        · rw [Function.update_of_ne hout] at hkey
          obtain ⟨found, hmem, hwhich⟩ := kept.sourced key hkey
          exact ⟨found, hsub found hmem, hwhich⟩
    · intro found hfound
      by_cases hback : found.back = flow.back
      · exact ⟨flow, hlast, hback.symm, by rw [hback, Function.update_self]⟩
      · obtain hearlier | hfound' := List.mem_append.1 hfound
        · obtain ⟨other, hmem, hsame, hentry⟩ := kept.answered found hearlier
          refine ⟨other, hsub other hmem, hsame, ?_⟩
          rw [Function.update_of_ne hback, Function.update_of_ne
            (apart.distinct flow hlast found hfound).symm]
          exact hentry
        · exact absurd (by rw [List.mem_singleton.1 hfound']) hback

theorem kept_noteAll (apart : Apart flows) : Kept (noteAll flows) flows := by
  induction flows using List.reverseRecOn with
  | nil => exact ⟨fun key hkey => absurd rfl hkey, by simp⟩
  | append_singleton flows flow ih =>
    have hsub : ∀ found ∈ flows, found ∈ flows ++ [flow] :=
      fun found hfound => List.mem_append_left _ hfound
    have kept := ih ⟨fun first hfirst second hsecond => apart.determined first
          (hsub first hfirst) second (hsub second hsecond),
        fun first hfirst second hsecond => apart.distinct first
          (hsub first hfirst) second (hsub second hsecond)⟩
    rw [noteAll, List.foldl_append]
    exact kept.note apart

end Pig.Tracking
