import LanguageClient.Host.Basic

/-!
# Waiting

What moves in time does so from one moment at which something happens to the next. At each of them
everything is done that can be done then, before anybody looks.
-/

namespace LanguageClient.Host

/-- Something that moves in time. -/
class Timed (ω : Type) where
  now : ω → Time
  /-- Does all that is to be done at the moment. -/
  settle : ω → ω
  /-- The next moment, up to a limit, at which something happens. -/
  next? : ω → Time → Option Time
  moveTo : ω → Time → ω

namespace Timed

variable {ω : Type} [Timed ω]

/-- Waits for a condition, up to a limit; the answer tells whether it came to hold. The number
bounds the moments on the way. -/
def waitUntil (done : ω → Bool) (limit : Time) : Nat → ω → Bool × ω
  | 0, w =>
      let w := settle (moveTo w (max (now w) limit))
      (done w, w)
  | steps + 1, w =>
      let w := settle w
      if done w then (true, w)
      else if limit ≤ now w then (false, w)
      else waitUntil done limit steps (moveTo w (((next? w limit).filter (· ≤ limit)).getD limit))

/-- How many moments are looked at while waiting. -/
def momentLimit : Nat := 100000

/-- Waits for a condition for some time; the answer tells whether it came to hold. -/
def await (done : ω → Bool) (time : Time) (w : ω) : Bool × ω :=
  waitUntil done (now w + time) momentLimit w

end Timed

end LanguageClient.Host
