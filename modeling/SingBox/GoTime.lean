/-
This file is the part of the standard library's `time` that other files need. A time
is the number of nanoseconds since the epoch of Unix.
-/

import Mathlib.Data.Int.Basic

namespace SingBox

def second : Int := 1000000000

/-- `Time.Unix`. -/
def unix (time : Int) : Int64 := Int64.ofInt (time / second)

/-- `time.Unix` of a number of seconds. -/
def ofUnix (seconds : Int64) : Int := seconds.toInt * second

theorem unix_ofUnix (seconds : Int64) : unix (ofUnix seconds) = seconds := by
  rw [unix, ofUnix, Int.mul_ediv_cancel _ (by decide), Int64.ofInt_toInt]

end SingBox
