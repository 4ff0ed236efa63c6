import RepoSurvey.Text.Fixed

/-!
Stretches of time and how a report writes them.
-/

namespace RepoSurvey

/-- A stretch of time: whole seconds, and the billionths of a second beyond them. -/
structure Duration where
  seconds : Nat
  nanoseconds : Nat
  deriving Repr, DecidableEq, Inhabited

namespace Duration

/-- A stretch of no time. -/
def zero : Duration := ⟨0, 0⟩

/-- A stretch of time of which any number of billionths is given; full seconds among them count as
seconds. -/
def ofParts (seconds nanoseconds : Nat) : Duration :=
  ⟨seconds + nanoseconds / 1000000000, nanoseconds % 1000000000⟩

def milliseconds (d : Duration) : Nat := d.seconds * 1000 + d.nanoseconds / 1000000

/-- A stretch of time in seconds, as a floating-point value. -/
def inSeconds (d : Duration) : Float :=
  d.seconds.toUInt64.toFloat + d.nanoseconds.toUInt64.toFloat / 1000000000

/-- The text of a stretch of time: whole milliseconds below one second, and otherwise seconds with
two places. -/
def text (d : Duration) : String :=
  if d.milliseconds < 1000 then s!"{d.milliseconds}ms" else s!"{twoPlaces d.inSeconds}s"

end Duration

end RepoSurvey
