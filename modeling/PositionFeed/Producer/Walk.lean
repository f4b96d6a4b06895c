import PositionFeed.Blueprint.Basic
import PositionFeed.Position

namespace PositionFeed

/-!
# The walk along a trajectory

The trajectory is a figure eight.  At phase `p` it is `sine p` half-widths east
and `sine p * cosine p` half-widths north of its centre.  Every position takes
the phase one step further; the phase is never reduced.
-/

/-- The two functions that a trajectory is drawn with. -/
structure Wave where
  /-- The sine of an angle. -/
  sine : Float → Float
  /-- The cosine of an angle. -/
  cosine : Float → Float

/-- The functions of the machine. -/
def Wave.computed : Wave := ⟨Float.sin, Float.cos⟩

/-- How far along its trajectory a producer is. -/
structure Walk where
  trajectory : Trajectory
  /-- The phase of the next position, in radians. -/
  phase : Float
  deriving DecidableEq

namespace Walk

def begin (trajectory : Trajectory) : Walk := ⟨trajectory, 0.0⟩

/-- The next position, taken at the given time. -/
def position (wave : Wave) (timestamp : Int64) (walk : Walk) : Position :=
  let sine := wave.sine walk.phase
  let cosine := wave.cosine walk.phase
  let east := walk.trajectory.amplitude * sine
  let north := walk.trajectory.amplitude * sine * cosine
  { longitude := walk.trajectory.centreLongitude + east
    latitude := walk.trajectory.centreLatitude + north
    timestamp := timestamp }

/-- The walk one position further. -/
def advance (walk : Walk) : Walk :=
  { walk with phase := walk.phase + walk.trajectory.angularStep }

/-- The walk back at the beginning of its trajectory. -/
def reset (walk : Walk) : Walk :=
  { walk with phase := 0.0 }

end Walk

end PositionFeed
