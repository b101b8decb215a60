import Mathlib.Order.Lattice
import Mathlib.Order.Basic

/-! # Instants and durations

Both are signed 64 bit nanosecond counts; subtraction is machine subtraction.
The least value marks an instant that was never set.
-/
namespace PathObservatory

abbrev Duration := Int64

def kUnsetTimeNanos : Int64 := Int64.minValue

/-- An instant on the Unix timescale. -/
@[ext] structure TimePoint where
  unixNanos : Int64 := kUnsetTimeNanos
deriving DecidableEq, Repr, Inhabited

namespace TimePoint

def isSet (point : TimePoint) : Bool := point.unixNanos != kUnsetTimeNanos

theorem toInt_injective : Function.Injective (fun point : TimePoint => point.unixNanos.toInt) := by
  intro a b h
  exact TimePoint.ext (Int64.toInt_inj.mp h)

instance : LinearOrder TimePoint :=
  LinearOrder.lift' (fun point => point.unixNanos.toInt) toInt_injective

end TimePoint

end PathObservatory
