import Mathlib.Data.List.Basic
import ValidatorForge.Lib.Numeral

/-!
# Domain errors and the validated newtypes

crates/validatorforge-types/src/error.rs and ids.rs. The four string newtypes
share one check (`checkStr`); their fields are private in Rust but
`Deserialize` is derived, so the types do not carry the check as a proof:
`NodeId.new` is the validating way in.
-/
namespace ValidatorForge.Types

/-- mirrors crates/validatorforge-types/src/error.rs:9-21 -/
inductive ErrorCode where
  | invalidNode | empty | tooLong | outOfRange | illegalTransition
  deriving DecidableEq, Repr

/-- mirrors crates/validatorforge-types/src/error.rs:23-35 -/
def ErrorCode.asStr : ErrorCode → String
  | .invalidNode => "INVALID_NODE"
  | .empty => "EMPTY"
  | .tooLong => "TOO_LONG"
  | .outOfRange => "OUT_OF_RANGE"
  | .illegalTransition => "ILLEGAL_TRANSITION"

/-- mirrors crates/validatorforge-types/src/error.rs:38-74 -/
inductive DomainError where
  | empty (field : String)
  | tooLong (field : String) (max got : Nat)
  | outOfRange (field : String) (min max got : Int)
  | illegalTransition (from' to' : String)
  deriving DecidableEq, Repr

/-- mirrors crates/validatorforge-types/src/error.rs:76-87 -/
def DomainError.code : DomainError → ErrorCode
  | .empty _ => .empty
  | .tooLong .. => .tooLong
  | .outOfRange .. => .outOfRange
  | .illegalTransition .. => .illegalTransition

/-- `to_string` of an error.
mirrors crates/validatorforge-types/src/error.rs:38-74 -/
def DomainError.fmt : DomainError → String
  | .empty field => field ++ " must not be empty"
  | .tooLong field max got =>
    field ++ " must be at most " ++ toString max ++ " characters, got " ++ toString got
  | .outOfRange field min max got =>
    field ++ " must be in [" ++ toString min ++ ", " ++ toString max ++ "], got " ++ toString got
  | .illegalTransition from' to' => "illegal transition from " ++ from' ++ " to " ++ to'

/-- mirrors crates/validatorforge-types/src/ids.rs:11-15 -/
def MAX_NODE_ID_LEN : Nat := 64
def MAX_CLUSTER_NAME_LEN : Nat := 32
def MAX_HOST_ADDR_LEN : Nat := 253

/-- Rust's `char::is_whitespace`: the Unicode property `White_Space`. -/
def isWhitespace (c : Char) : Bool :=
  (9 ≤ c.toNat && c.toNat ≤ 13) || c.toNat == 0x20 || c.toNat == 0x85 || c.toNat == 0xA0 ||
    c.toNat == 0x1680 || (0x2000 ≤ c.toNat && c.toNat ≤ 0x200A) || c.toNat == 0x2028 ||
    c.toNat == 0x2029 || c.toNat == 0x202F || c.toNat == 0x205F || c.toNat == 0x3000

/-- `raw.trim().is_empty()`. -/
def blank (raw : String) : Bool := raw.toList.all isWhitespace

/-- The check of the four constructors; `max = none` where the type has no
length bound. Rust's `len` counts UTF-8 bytes.
mirrors crates/validatorforge-types/src/ids.rs:26-39 -/
def checkStr (field : String) (max : Option Nat) (raw : String) : Except DomainError String :=
  if blank raw then .error (.empty field)
  else match max with
    | none => .ok raw
    | some m => if raw.utf8ByteSize > m then .error (.tooLong field m raw.utf8ByteSize) else .ok raw

/-- mirrors crates/validatorforge-types/src/ids.rs:17-46 -/
structure NodeId where
  raw : String
  deriving DecidableEq, Repr

def NodeId.new (raw : String) : Except DomainError NodeId :=
  NodeId.mk <$> checkStr "node_id" (some MAX_NODE_ID_LEN) raw

/-- mirrors crates/validatorforge-types/src/ids.rs:55-87 -/
structure ClusterName where
  raw : String
  deriving DecidableEq, Repr

def ClusterName.new (raw : String) : Except DomainError ClusterName :=
  ClusterName.mk <$> checkStr "cluster_name" (some MAX_CLUSTER_NAME_LEN) raw

/-- mirrors crates/validatorforge-types/src/ids.rs:95-117 -/
structure ValidatorVersion where
  raw : String
  deriving DecidableEq, Repr

def ValidatorVersion.new (raw : String) : Except DomainError ValidatorVersion :=
  ValidatorVersion.mk <$> checkStr "version" none raw

/-- mirrors crates/validatorforge-types/src/ids.rs:125-152 -/
structure HostAddr where
  raw : String
  deriving DecidableEq, Repr

def HostAddr.new (raw : String) : Except DomainError HostAddr :=
  HostAddr.mk <$> checkStr "host" (some MAX_HOST_ADDR_LEN) raw

/-- mirrors crates/validatorforge-types/src/ids.rs:160-173 -/
structure Slot where
  value : Nat
  deriving DecidableEq, Repr

/-- mirrors crates/validatorforge-types/src/ids.rs:180-190 -/
structure RunId where
  value : BitVec 128
  deriving DecidableEq, Repr

/-- `{:032x}`: a `u128` has at most 32 hexadecimal digits, so padding to 32 writes
all of them.
mirrors crates/validatorforge-types/src/ids.rs:192-196 -/
def RunId.fmt (id : RunId) : String := String.ofList (Numeral.render 16 32 id.value.toNat)

/-- Two run ids are never written alike. -/
theorem RunId.fmt_injective {a b : RunId} (h : a.fmt = b.fmt) : a = b := by
  have hlist : Numeral.render 16 32 a.value.toNat = Numeral.render 16 32 b.value.toNat :=
    String.ofList_injective h
  have hpow : Nat.pow 16 32 = 340282366920938463463374607431768211456 := by decide
  have ha := a.value.isLt
  have hb := b.value.isLt
  have hval := Numeral.render_injective (by decide) (by decide) 32 (by rw [hpow]; omega)
    (by rw [hpow]; omega) hlist
  obtain ⟨a⟩ := a
  obtain ⟨b⟩ := b
  exact congrArg RunId.mk (BitVec.eq_of_toNat_eq hval)

/-- `DateTime<Utc>`: nanoseconds since the Unix epoch. -/
abbrev DateTime : Type := Int

/-- An accepted string is returned unchanged, is not blank and fits its bound. -/
theorem checkStr_ok {field : String} {max : Option Nat} {raw s : String}
    (h : checkStr field max raw = .ok s) :
    s = raw ∧ blank raw = false ∧ ∀ m, max = some m → raw.utf8ByteSize ≤ m := by
  unfold checkStr at h
  split at h
  · cases h
  · rename_i hb
    have hb' : blank raw = false := by simpa using hb
    cases max with
    | none => cases h; exact ⟨rfl, hb', fun m hm => by cases hm⟩
    | some m =>
      simp only at h
      split at h
      · cases h
      · rename_i hl
        cases h
        exact ⟨rfl, hb', fun m' hm => by cases hm; omega⟩

/-- The strings the constructor with the bound `max` takes. -/
def Accepts (max : Option Nat) (raw : String) : Prop :=
  blank raw = false ∧ ∀ m, max = some m → raw.utf8ByteSize ≤ m

/-- What the four constructors make of their own string. -/
theorem new_eq_ok {α : Type} (mk : String → α) {field : String} {max : Option Nat}
    {raw : String} :
    (mk <$> checkStr field max raw : Except DomainError α) = .ok (mk raw) ↔ Accepts max raw := by
  constructor
  · intro h
    cases hc : checkStr field max raw with
    | error e =>
      rw [hc] at h
      cases h
    | ok s => exact (checkStr_ok hc).2
  · intro ⟨hblank, hlen⟩
    unfold checkStr
    cases max with
    | none => simp [hblank]
    | some m =>
      have hle : ¬ m < raw.utf8ByteSize := Nat.not_lt.2 (hlen m rfl)
      simp only [hblank, Bool.false_eq_true, if_false, gt_iff_lt, hle]
      rfl

end ValidatorForge.Types
