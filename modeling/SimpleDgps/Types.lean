import SimpleDgps.Exact
import SimpleDgps.Toolkit.SortedMap

/-!
# Positions, Ranges and Printed Lines

The data the library passes around.

A position is three coordinates, Earth-fixed or geodetic. Satellites are kept in
ordered maps from satellite id to position or range, and the loops of the
library walk those maps in id order.

The library reports trouble by printing a line and carrying on, so a function
that can print returns its result together with what it printed.

## Main definitions

* `EcefPos`: Earth-centred, Earth-fixed coordinates.
* `LatLonAltPos`: Geodetic coordinates.
* `SatRanges`: Ranges by satellite id.
* `SatLocation`: Satellite positions by satellite id.
* `Printed`: A result and the text printed on the way.
-/

namespace SimpleDgps

open Toolkit

/-- Earth-centred, Earth-fixed coordinates. -/
structure EcefPos (K : Type) where
  x : K
  y : K
  z : K
  deriving DecidableEq, Repr

/-- Latitude and longitude in radians, altitude above the ellipsoid. -/
structure LatLonAltPos (K : Type) where
  lat : K
  lon : K
  alt : K
  deriving DecidableEq, Repr

/-- Ranges by satellite id. -/
structure SatRanges (K : Type) where
  ranges : SortedMap Int K

/-- Satellite positions by satellite id. -/
structure SatLocation (K : Type) where
  locations : SortedMap Int (EcefPos K)

/-- A result and the text printed to standard output on the way. -/
structure Printed (α : Type) where
  value : α
  cout : List String
  deriving DecidableEq, Repr

end SimpleDgps
