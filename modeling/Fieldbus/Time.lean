/-!
# Times

A time is a count of nanoseconds from some origin, which is as fine as clocks are read; only
differences of times matter.  Clocks may be set back, so a difference that would be negative counts
as zero.  Descriptions give durations in milliseconds.
-/

set_option autoImplicit false

namespace Fieldbus

/-- Nanoseconds from an origin. -/
abbrev Time := Int

/-- The nanoseconds from `since` to `now`, none if the clock was set back. -/
def Time.elapsed (since now : Time) : Nat := (now - since).toNat

/-- Milliseconds as nanoseconds.  The large factor stands first, since a product is computed by
going down its second factor. -/
def Time.ofMillis (ms : Nat) : Nat := 1_000_000 * ms

end Fieldbus
