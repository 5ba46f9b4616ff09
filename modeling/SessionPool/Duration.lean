/-!
# Durations

Time is counted in whole nanoseconds, and a point in time is the number of them since the clock
started; no time passes between a point and an earlier one. Settings hold whole milliseconds of 64
bits; a duration is cut to them, never rounded up, and one that is too long becomes the longest.
-/

namespace SessionPool

structure Duration where
  nanos : Nat
  deriving DecidableEq, Inhabited

namespace Duration

def ofParts (seconds nanos : Nat) : Duration := ⟨seconds * 1000000000 + nanos⟩

def ofMillis (ms : UInt64) : Duration := ⟨ms.toNat * 1000000⟩

def seconds (d : Duration) : Nat := d.nanos / 1000000000

def subsecNanos (d : Duration) : Nat := d.nanos % 1000000000

def millis (d : Duration) : UInt64 :=
  UInt64.ofNat (min (d.nanos / 1000000) (UInt64.size - 1))

def isZero (d : Duration) : Bool := d.nanos == 0

/-- Zero stands for "no limit". -/
def nonZero? (d : Duration) : Option Duration := if d.isZero then none else some d

def between (since now : Nat) : Duration := ⟨now - since⟩

def expired (limit : Duration) (since now : Nat) : Bool :=
  limit.nanos < (between since now).nanos

end Duration

end SessionPool
