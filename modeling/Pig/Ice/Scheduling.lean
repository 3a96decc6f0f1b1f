import Mathlib.Algebra.Order.Group.Unbundled.Int
import Mathlib.Tactic.Ring

namespace Pig.Ice

/-! The instants at which both ends begin to connect, from timestamps on two
clocks. Clocks are read in milliseconds, and instants are in nanoseconds. -/

/-- The clock of the server is ahead by `offset`. The other times are on the
clock of the client. -/
structure Exchange where
  offset : Int
  sent : Int
  offerDelay : Nat
  processing : Nat
  answerDelay : Nat
  connectOffset : Int

structure Timestamps where
  offer : Int × Int
  answer : Int × Int

def unixMilli (milliseconds : Int) : Int := milliseconds * 1000000

namespace Exchange

variable (exchange : Exchange)

def timestamps : Timestamps where
  offer := (exchange.sent,
    exchange.sent + exchange.offerDelay + exchange.processing + exchange.answerDelay)
  answer := (exchange.sent + exchange.offerDelay + exchange.offset,
    exchange.sent + exchange.offerDelay + exchange.processing + exchange.offset)

end Exchange

namespace Timestamps

def clockOffset (t : Timestamps) : Int :=
  ((t.answer.1 - t.offer.1) + (t.answer.2 - t.offer.2)).tdiv 2

def clientScheduledAt (t : Timestamps) (connectOffset : Int) : Int :=
  unixMilli (t.answer.2 - t.clockOffset) + connectOffset

def serverScheduledAt (t : Timestamps) (connectOffset : Int) : Int :=
  unixMilli t.answer.2 + connectOffset

end Timestamps

namespace Exchange

variable (exchange : Exchange)

def lag : Int := exchange.timestamps.clientScheduledAt exchange.connectOffset -
  (exchange.timestamps.serverScheduledAt exchange.connectOffset - unixMilli exchange.offset)

theorem lag_eq : exchange.lag = unixMilli (exchange.offset -
    (2 * exchange.offset + (exchange.offerDelay - exchange.answerDelay)).tdiv 2) := by
  have hsum : (exchange.timestamps.answer.1 - exchange.timestamps.offer.1) +
      (exchange.timestamps.answer.2 - exchange.timestamps.offer.2) =
      2 * exchange.offset + (exchange.offerDelay - exchange.answerDelay) := by
    simp only [timestamps]
    ring
  simp only [lag, Timestamps.clientScheduledAt, Timestamps.serverScheduledAt,
    Timestamps.clockOffset, hsum, unixMilli]
  ring

end Exchange

end Pig.Ice
