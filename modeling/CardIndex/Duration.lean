namespace CardIndex

abbrev Duration.nanosecondsPerSecond : Nat := 1000000000

/-- A length of time as whole seconds, of which 64 bits hold the number, and nanoseconds below one second. -/
structure Duration where
  seconds : Nat
  nanoseconds : Nat
  seconds_lt : seconds < UInt64.size
  nanoseconds_lt : nanoseconds < Duration.nanosecondsPerSecond
deriving DecidableEq

namespace Duration

def of? (seconds nanoseconds : Nat) : Option Duration :=
  if h : seconds < UInt64.size ∧ nanoseconds < nanosecondsPerSecond then some ⟨seconds, nanoseconds, h.1, h.2⟩
  else none

def ofMilliseconds (n : UInt64) : Duration where
  seconds := n.toNat / 1000
  nanoseconds := n.toNat % 1000 * 1000000
  seconds_lt := Nat.lt_of_le_of_lt (Nat.div_le_self _ _) n.toNat_lt_size
  nanoseconds_lt := by unfold nanosecondsPerSecond; omega

/-- The whole milliseconds in it. -/
def milliseconds (d : Duration) : Nat := d.seconds * 1000 + d.nanoseconds / 1000000

/-- Its whole length. -/
def inNanoseconds (d : Duration) : Nat := d.seconds * nanosecondsPerSecond + d.nanoseconds

/-- The longest pause: thirty years of 365 days. -/
def longestPause : Duration := ⟨946080000, 0, by decide, by decide⟩

/-- How many nanoseconds a pause lasts for which this length is asked. -/
def pauseLength (d : Duration) : Nat := min d.inNanoseconds longestPause.inNanoseconds

def isZero (d : Duration) : Bool := d.seconds = 0 && d.nanoseconds = 0

/-- A multiple, if its seconds fit. The nanoseconds are multiplied by themselves and carry into the seconds. -/
def times? (d : Duration) (n : UInt32) : Option Duration :=
  let nanoseconds := d.nanoseconds * n.toNat
  of? (d.seconds * n.toNat + nanoseconds / nanosecondsPerSecond) (nanoseconds % nanosecondsPerSecond)

end Duration

end CardIndex
