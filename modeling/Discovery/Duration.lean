/-!
# Durations

A duration is a number of whole seconds below `2 ^ 64` and a number of nanoseconds below one
second. Sums may be too long; then there is none.
-/

namespace Discovery

def nanosPerSecond : Nat := 1000000000

/-- The least number of seconds that is too long, which is `2 ^ 64`. -/
def secondsBound : Nat := 0x10000000000000000

structure Duration where
  seconds : Nat
  /-- What is left, in nanoseconds. -/
  nanos : Nat
  seconds_lt : seconds < secondsBound
  nanos_lt : nanos < nanosPerSecond
  deriving DecidableEq, Repr

namespace Duration

instance : Inhabited Duration := ⟨⟨0, 0, by decide, by decide⟩⟩

def toNanos (d : Duration) : Nat := d.seconds * nanosPerSecond + d.nanos

/-- Whole milliseconds in all of it. -/
def toMillis (d : Duration) : Nat := d.seconds * 1000 + d.nanos / 1000000

/-- Whole milliseconds past the last whole second. -/
def subMillis (d : Duration) : Nat := d.nanos / 1000000

/-- Seconds and nanoseconds, of which there may be more than a second; too long a time is cut to
the longest. -/
def ofParts (seconds nanos : Nat) : Duration :=
  if h : seconds + nanos / nanosPerSecond < secondsBound then
    ⟨seconds + nanos / nanosPerSecond, nanos % nanosPerSecond, h, Nat.mod_lt _ (by decide)⟩
  else ⟨secondsBound - 1, nanosPerSecond - 1, by decide, by decide⟩

/-- Whole seconds; too long a time is cut to the longest. -/
def ofSeconds (seconds : Nat) : Duration := ofParts seconds 0

/-- The sum, unless it is too long. Nanoseconds that make up a second are carried. -/
def add? (a b : Duration) : Option Duration :=
  let carry := (a.nanos + b.nanos) / nanosPerSecond
  if h : a.seconds + b.seconds + carry < secondsBound then
    some ⟨a.seconds + b.seconds + carry, (a.nanos + b.nanos) % nanosPerSecond, h,
      Nat.mod_lt _ (by decide)⟩
  else none

/-- A sixteenth, rounded down to whole nanoseconds. Seconds that are left over are divided as
nanoseconds. -/
def sixteenth (d : Duration) : Duration where
  seconds := d.seconds / 16
  nanos := d.nanos / 16 + (d.seconds % 16 * nanosPerSecond + d.nanos % 16) / 16
  seconds_lt := Nat.lt_of_le_of_lt (Nat.div_le_self ..) d.seconds_lt
  nanos_lt := by
    have h := d.nanos_lt
    simp only [nanosPerSecond] at h ⊢
    omega

end Duration

end Discovery
