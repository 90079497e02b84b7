import SimpleDgps.Toolkit.Loop
import SimpleDgps.Toolkit.Memory
import SimpleDgps.Toolkit.SortedMap
import SimpleDgps.Toolkit.Framing
import SimpleDgps.Toolkit.Codec
import SimpleDgps.Toolkit.Transition
import SimpleDgps.Toolkit.Interleave
import SimpleDgps.Toolkit.FixedPoint
import SimpleDgps.Toolkit.NewtonStep
import SimpleDgps.Toolkit.Ellipse
import SimpleDgps.Toolkit.Anomaly
import SimpleDgps.Exact
import SimpleDgps.Domain
import SimpleDgps.Types
import SimpleDgps.Geodesy
import SimpleDgps.Space
import SimpleDgps.GreatCircle
import SimpleDgps.Sphere
import SimpleDgps.Geodetic
import SimpleDgps.GeodeticStart
import SimpleDgps.GeodeticStep
import SimpleDgps.RoundTrip
import SimpleDgps.Stored
import SimpleDgps.Station
import SimpleDgps.Correction
import SimpleDgps.Orbit
import SimpleDgps.OrbitDomain
import SimpleDgps.Revolution
import SimpleDgps.Kepler
import SimpleDgps.Motion
import SimpleDgps.Ground
import SimpleDgps.Kernels
import SimpleDgps.Inverse
import SimpleDgps.Determinant
import SimpleDgps.LeastSquares
import SimpleDgps.MatrixAlgebra
import SimpleDgps.Cofactor
import SimpleDgps.Trilateration
import SimpleDgps.Numbering
import SimpleDgps.Receiver
import SimpleDgps.Outcomes
import SimpleDgps.Overrun
import SimpleDgps.Fix
import SimpleDgps.Session.Model
import SimpleDgps.Session.Moves
import SimpleDgps.Session.Ubx
import SimpleDgps.Session.Stream
import SimpleDgps.Session.Pending
import SimpleDgps.Session.Wire
import SimpleDgps.Session.Delivery
import SimpleDgps.Session.Order
import SimpleDgps.Session.Peer
import SimpleDgps.Session.Lifetime
