/-! Instants and durations, in nanoseconds. Instants count from the moment the program started; the
wall clock is the time at that moment plus the current instant. -/

namespace BorderProxy

/-- A moment, in nanoseconds after the start of the program. -/
abbrev Instant := Int

/-- A length of time, in nanoseconds. -/
abbrev Duration := Nat

namespace Duration

/-- The nanoseconds of a second. -/
def perSecond : Nat := 1000000000

/-- The longest length of time that is representable: 2^64 seconds less a nanosecond. -/
def longest : Duration := (1 <<< 64) * perSecond - 1

def seconds (n : Nat) : Duration := n * perSecond

def milliseconds (n : Nat) : Duration := n * 1000000

/-- Twice a length of time, if that is representable. -/
def double? (d : Duration) : Option Duration := if 2 * d ≤ longest then some (2 * d) else none

end Duration

namespace Instant

/-- The last moment that is representable: 2^63 seconds less a nanosecond. -/
def latest : Instant := Int.ofNat ((1 <<< 63) * Duration.perSecond) - 1

/-- A length of time after a moment, if that is representable. -/
def after? (t : Instant) (d : Duration) : Option Instant :=
  if t + d ≤ latest then some (t + d) else none

/-- The time from an earlier moment to `t`, zero if that moment is not earlier. -/
def since (t earlier : Instant) : Duration := (t - earlier).toNat

end Instant

structure Clock where
  /-- Wall-clock time when the program started, in nanoseconds of the Unix epoch. -/
  unixAtStart : Nat
  /-- The current moment. -/
  now : Instant
  deriving DecidableEq, Repr

/-- Wall-clock time in nanoseconds of the Unix epoch. -/
def Clock.wallNanos (c : Clock) : Nat := (c.unixAtStart + c.now).toNat

def Clock.advance (c : Clock) (d : Duration) : Clock := { c with now := c.now + d }

end BorderProxy
