import ValidatorForge.Types.Ids

/-!
# Health snapshots

crates/validatorforge-types/src/health.rs. An `f64` is modelled as NaN or a
rational (`F64`), which is what the comparisons of `new` and `classify` look
at; times are nanoseconds, and `num_seconds` truncates towards zero.
-/
namespace ValidatorForge.Types

inductive F64 where
  | nan
  | num (q : Rat)
  deriving DecidableEq, Repr

namespace F64

/-- `x >= y`, false when either is NaN. -/
def ge : F64 → F64 → Bool
  | num x, num y => decide (y ≤ x)
  | _, _ => false

/-- `f64::clamp`: NaN stays NaN. -/
def clamp (lo hi : Rat) : F64 → F64
  | nan => nan
  | num q => num (if q < lo then lo else if hi < q then hi else q)

/-- `f64::max` with a number: a NaN argument is dropped. -/
def max (x : F64) (lo : Rat) : F64 :=
  match x with
  | nan => num lo
  | num q => num (if q < lo then lo else q)

end F64

/-- mirrors crates/validatorforge-types/src/health.rs:8-20 -/
inductive HealthStatus where
  | healthy | lagging | delinquent | unknown
  deriving DecidableEq, Repr

/-- mirrors crates/validatorforge-types/src/health.rs:46-53 -/
structure HealthSnapshot where
  tipSlot : Slot
  nodeSlot : Slot
  skipRate : F64
  cpuLoad : F64
  observedAt : DateTime
  deriving DecidableEq, Repr

namespace HealthSnapshot

/-- mirrors crates/validatorforge-types/src/health.rs:56-72 -/
def new (tipSlot nodeSlot : Slot) (skipRate cpuLoad : F64) (observedAt : DateTime) :
    HealthSnapshot :=
  { tipSlot, nodeSlot, skipRate := skipRate.clamp 0 1, cpuLoad := cpuLoad.max 0, observedAt }

/-- `u64::saturating_sub` is truncated subtraction.
mirrors crates/validatorforge-types/src/health.rs:74-78 -/
def slotLag (s : HealthSnapshot) : Nat := s.tipSlot.value - s.nodeSlot.value

/-- `Duration::num_seconds` on nanoseconds. -/
def numSeconds (d : Int) : Int := d.tdiv 1000000000

/-- mirrors crates/validatorforge-types/src/health.rs:98-121 -/
def classify (s : HealthSnapshot) (now : DateTime) (lagWarn lagCrit : Nat) (skipCrit : F64)
    (freshnessSecs : Int) : HealthStatus :=
  if numSeconds (now - s.observedAt) > freshnessSecs then .unknown
  else if lagCrit ≤ s.slotLag ∨ s.skipRate.ge skipCrit = true then .delinquent
  else if lagWarn ≤ s.slotLag then .lagging
  else .healthy

end HealthSnapshot

end ValidatorForge.Types
