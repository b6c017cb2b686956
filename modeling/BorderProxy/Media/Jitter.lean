import BorderProxy.Time

/-! Smoothing the jitter of a stream. The clock of an RTP source is learned from the arrival of its
packets: the seconds per tick are averaged over the first packets and follow later ones slowly. A packet
is due when its timestamp says it should have arrived, plus the delay aimed at, and never outside the
window from its arrival to twice that delay. An estimate that leads beyond what is representable gives no
time at all. -/

namespace BorderProxy

/-- The timestamp of an RTP packet; control packets and anything shorter than a header have none. -/
def rtpTimestamp? (payload : List UInt8) : Option UInt32 :=
  match payload with
  | b0 :: b1 :: _ :: _ :: t0 :: t1 :: t2 :: t3 :: _ :: _ :: _ :: _ :: _ =>
    if b0 >>> 6 != 2 then none
    else if 72 ≤ (b1 &&& 0x7f) && (b1 &&& 0x7f) ≤ 76 then none
    else some ((t0.toUInt32 <<< 24) ||| (t1.toUInt32 <<< 16) ||| (t2.toUInt32 <<< 8) ||| t3.toUInt32)
  | _ => none

def Duration.toSeconds (d : Duration) : Float :=
  Float.ofNat (d / perSecond) + Float.ofNat (d % perSecond) / 1e9

/-- The quotient of two numbers rounded to the nearest, halves to the even neighbour. -/
def roundedQuotient (numerator denominator : Nat) : Nat :=
  let q := numerator / denominator
  let twice := 2 * (numerator % denominator)
  if twice < denominator then q
  else if denominator < twice then q + 1
  else q + q % 2

/-- The nanoseconds nearest to a number of seconds, from the bits of the number, which is not negative. -/
def nanosOfBits (bits : Nat) : Nat :=
  let exponent := bits >>> 52
  let fraction := bits % (1 <<< 52)
  let mantissa := if exponent = 0 then fraction else fraction + (1 <<< 52)
  let scaled := mantissa * Duration.perSecond
  if 1075 ≤ exponent then scaled <<< (exponent - 1075)
  else roundedQuotient scaled (1 <<< (1075 - max exponent 1))

/-- The length of time nearest to a number of seconds, if that is representable; zero for what is negative
or no number. -/
def Duration.ofSeconds? (seconds : Float) : Option Duration :=
  let bits := seconds.toBits.toNat
  -- Above the bits of infinity are those of negative numbers and of what is no number.
  if 2047 <<< 52 < bits then some 0
  else if nanosOfBits bits ≤ longest then some (nanosOfBits bits)
  else none

structure Jitter where
  /-- The delay aimed at. -/
  target : Duration
  /-- The arrival of the packet that learning began with. -/
  start : Option Instant := none
  firstTimestamp : UInt32 := 0
  previousTimestamp : UInt32 := 0
  packets : UInt32 := 0
  tickLength : Float := 0

namespace Jitter

/-- The packets that are averaged evenly. -/
def warmUpLength : UInt32 := 20

/-- The packets after which the estimate follows more slowly. -/
def settlingLength : UInt32 := 200

/-- The longest step between timestamps of one source: about five seconds at 48 kHz. -/
def longestStep : UInt32 := 240000

def reset (j : Jitter) : Jitter := { target := j.target }

def restart (j : Jitter) (timestamp : UInt32) (now : Instant) : Jitter :=
  { target := j.target, start := some now, firstTimestamp := timestamp, previousTimestamp := timestamp,
    packets := 1, tickLength := 0 }

/-- The end of the window in which a packet that arrives now may be sent. -/
def windowEnd? (target : Duration) (now : Instant) : Option Instant :=
  target.double?.bind fun window => Instant.after? now window

/-- When a packet is due that should have arrived at `ideal` and arrived now. -/
def dueWithin (target : Duration) (ideal now : Instant) : Instant :=
  match windowEnd? target now with
  | none => now
  | some latest =>
    let due := (Instant.after? ideal target).getD latest
    if due < now then now else if latest < due then latest else due

/-- The estimate after the n-th packet since learning began, from the estimate before it and the
seconds per tick that the packet itself shows. -/
def estimate (packets : UInt32) (before sample : Float) : Float :=
  if packets ≤ warmUpLength then
    let n := Float.ofNat (packets - 1).toNat
    if n ≤ 1 then sample else (before * (n - 1) + sample) / n
  else if packets ≤ settlingLength then before * 0.95 + sample * 0.05
  else before * 0.99 + sample * 0.01

/-- One more packet, at most the largest number. -/
def oneMore (packets : UInt32) : UInt32 := if packets = 4294967295 then packets else packets + 1

/-- The ticks of a packet's timestamp since learning began. -/
def ticksSince (j : Jitter) (timestamp : UInt32) : UInt32 := timestamp - j.firstTimestamp

/-- Whether a packet's timestamp is too far from the last one to belong to the same source. -/
def isNewSource (j : Jitter) (timestamp : UInt32) : Bool :=
  longestStep < timestamp - j.previousTimestamp

/-- When a packet should have arrived by an estimate of the seconds per tick, if that is representable. -/
def idealArrival? (start : Instant) (tickLength : Float) (ticks : Nat) : Option Instant :=
  (Duration.ofSeconds? (tickLength * Float.ofNat ticks)).bind (Instant.after? start)

/-- When a packet that arrives now is due, and what is learned from it. Where its ideal arrival is not
representable the call breaks off without a time, but what was learned stays. -/
def schedule (j : Jitter) (timestamp : UInt32) (now : Instant) : Option Instant × Jitter :=
  match j.start with
  | none => (some (dueWithin j.target now now), j.restart timestamp now)
  | some start =>
    if j.isNewSource timestamp then
      (some (dueWithin j.target now now), j.restart timestamp now)
    else
      let j := { j with previousTimestamp := timestamp, packets := oneMore j.packets }
      let ticks := j.ticksSince timestamp
      if ticks = 0 then (some (dueWithin j.target now now), j)
      else
        let sample := (now.since start).toSeconds / Float.ofNat ticks.toNat
        let tickLength := estimate j.packets j.tickLength sample
        let ideal :=
          if j.packets ≤ warmUpLength then some now
          else idealArrival? start tickLength ticks.toNat
        (ideal.map fun ideal => dueWithin j.target ideal now, { j with tickLength })

end Jitter

end BorderProxy
