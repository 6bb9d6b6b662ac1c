import Turnstile.Word

/-!
# Spans of time

A span is a whole number of nanoseconds below 2⁶⁴ seconds.  The clock counts milliseconds, so most
uses look at a span through `millis`, which drops what is smaller than a millisecond and stops at
the largest word.

* `ofMillis`, `ofParts`: spans from milliseconds, and from seconds and nanoseconds.
* `millis_ofMillis`: a span of whole milliseconds is read back as it was given.
* `double`: twice a span, stopping at the longest one.
-/

set_option autoImplicit false

namespace Turnstile

/-- A span of time in nanoseconds, shorter than 2⁶⁴ seconds. -/
structure Duration where
  nanos : Nat
  nanos_lt : nanos < wordCount * 1000000000
  deriving DecidableEq, Repr

namespace Duration

def perMilli : Nat := 1000000

/-- A number of nanoseconds, cut off at the longest span. -/
def ofNanos (n : Nat) : Duration where
  nanos := min n (wordCount * 1000000000 - 1)
  nanos_lt := by unfold wordCount; omega

def ofMillis (ms : UInt64) : Duration := ofNanos (ms.toNat * perMilli)

/-- Seconds and a part of a second in nanoseconds. -/
def ofParts (secs nanos : UInt64) : Duration := ofNanos (secs.toNat * 1000000000 + nanos.toNat)

/-- The sum of two spans, cut off at the longest one. -/
def add (d e : Duration) : Duration := ofNanos (d.nanos + e.nanos)

/-- Twice a span, cut off at the longest one. -/
def double (d : Duration) : Duration := ofNanos (2 * d.nanos)

/-- The whole milliseconds of a span, however many. -/
def wholeMillis (d : Duration) : Nat := d.nanos / perMilli

/-- The whole milliseconds of a span as a word, cut off at the largest one. -/
def millis (d : Duration) : UInt64 := wordOfNat d.wholeMillis

def IsZero (d : Duration) : Prop := d.nanos = 0

instance (d : Duration) : Decidable d.IsZero := inferInstanceAs (Decidable (d.nanos = 0))

theorem wholeMillis_ofMillis (ms : UInt64) : (ofMillis ms).wholeMillis = ms.toNat := by
  have h := ms.toNat_lt
  simp only [ofMillis, ofNanos, wholeMillis, perMilli, wordCount]
  omega

@[simp] theorem millis_ofMillis (ms : UInt64) : (ofMillis ms).millis = ms := by
  apply UInt64.toNat.inj
  have h := ms.toNat_lt
  rw [millis, toNat_wordOfNat, wholeMillis_ofMillis]
  unfold wordCount
  omega

end Duration

end Turnstile
