import Sinkhole.Text.Decimal

/-! How long to wait before asking again.

The wait doubles with every retry and never exceeds a minute. All of it is computed
in 64 bits that stay at their largest value instead of wrapping. -/
namespace Sinkhole.Fetch

def mostMillis : Nat := Text.greatest 64

/-- No wait is longer than a minute. -/
def longestWait : Nat := 60000

/-- Milliseconds before retry number `retry`, the first one being 1. -/
def backoff (base retry : Nat) : Nat :=
  let shift := retry - 1
  let factor := if shift < 64 then Nat.pow 2 shift else mostMillis
  min (min (base * factor) mostMillis) longestWait

/-- A request is never sent more often than this. -/
def mostAttempts : Nat := 10

/-- How often a request may be sent, for a configured number. -/
def attempts (configured : Nat) : Nat := min (max configured 1) mostAttempts

end Sinkhole.Fetch
