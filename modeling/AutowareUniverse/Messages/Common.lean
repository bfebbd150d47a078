import Mathlib.Data.Rat.Defs

/-!
# Messages shared by the system components

The clock is the node's ROS clock in integer nanoseconds, and the numeric
parameters are exact rationals.  Of the message types only the fields that a
modelled function reads or writes are kept.
-/

namespace AutowareUniverse.Messages

/-- `rclcpp::Time` on the node's clock, in nanoseconds. -/
abbrev Time := Int

/-- `rclcpp::Duration::seconds` of a difference of two times. -/
def seconds (nanoseconds : Int) : ℚ := (nanoseconds : ℚ) / 1000000000

/-- `diagnostic_msgs::msg::DiagnosticStatus`. -/
structure DiagnosticStatus where
  level : Nat
  name : String
  message : String
  hardwareId : String
  deriving DecidableEq

namespace DiagnosticStatus

def ok : Nat := 0
def warn : Nat := 1
def error : Nat := 2
def stale : Nat := 3

end DiagnosticStatus

/-- `autoware_auto_system_msgs::msg::HazardStatus`. -/
structure HazardStatus where
  level : Nat
  emergency : Bool
  emergencyHolding : Bool
  diagNoFault : List DiagnosticStatus
  diagSafeFault : List DiagnosticStatus
  diagLatentFault : List DiagnosticStatus
  diagSinglePointFault : List DiagnosticStatus
  deriving DecidableEq

namespace HazardStatus

def noFault : Nat := 0
def safeFault : Nat := 1
def latentFault : Nat := 2
def singlePointFault : Nat := 3

/-- The value-initialized message. -/
def empty : HazardStatus := ⟨noFault, false, false, [], [], [], []⟩

end HazardStatus

/-- The `mode` values of `autoware_auto_vehicle_msgs::msg::ControlModeReport`. -/
inductive ControlMode where
  | noCommand
  | autonomous
  | autonomousSteerOnly
  | autonomousVelocityOnly
  | manual
  | disengaged
  | notReady
  deriving DecidableEq

end AutowareUniverse.Messages
