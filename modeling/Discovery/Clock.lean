import Discovery.Duration

/-!
# A clock with ticks

Waiting is done by a clock that shows whole milliseconds. A time that is waited for ends at the
first tick at which it has passed.
-/

namespace Discovery

/-- Stands for a time that never comes: thirty years of ticks. -/
def farFuture : Nat := 86400 * 365 * 30 * 1000

/-- The last tick that a clock can show, which is `2 ^ 64 - 3`. -/
def lastTick : Nat := 0xFFFFFFFFFFFFFFFD

/-- The least number of seconds that no clock can hold, which is `2 ^ 63`. -/
def clockBound : Nat := 0x8000000000000000

/-- The first tick at which a time has passed from now on. A time that no clock can hold ends in the
far future. -/
def Duration.deadline (now : Nat) (wait : Duration) : Nat :=
  if clockBound ≤ wait.seconds then now + farFuture
  else min lastTick (now + (wait.toNanos + 999999) / 1000000)

end Discovery
