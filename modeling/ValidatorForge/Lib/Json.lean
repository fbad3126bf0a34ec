import Mathlib.Data.List.Nodup

/-!
# JSON values and derived decoders

A JSON value, and what the decoders derived from a type's declaration accept: a
struct is an object (members in any order, others ignored) or an array of all its
fields in their order; an enumeration is the name of a variant, or an object with
that name as its one key and null under it; an internally tagged variant is an
object with the tag among its members, or an array that starts with it. An
object's keys are distinct, so `List.lookup` finds the only member there is.
-/
namespace Json

/-- An integer by its sign, or the bits of a float. -/
inductive Number where
  | posInt (n : UInt64)
  | negInt (n : Int64)
  | float (bits : UInt64)
  deriving DecidableEq, Repr

inductive Value where
  | null
  | bool (b : Bool)
  | num (n : Number)
  | str (s : String)
  | arr (xs : List Value)
  | obj (members : List (String × Value))

namespace Value
variable {α β : Type}

/-! ## Decoders -/

def asStr : Value → Option String
  | .str s => some s
  | _ => none

def asU64 : Value → Option UInt64
  | .num (.posInt n) => some n
  | _ => none

def asArr (decode : Value → Option α) : Value → Option (List α)
  | .arr xs => xs.mapM decode
  | _ => none

/-- `null` is `none`. -/
def asOption (decode : Value → Option α) : Value → Option (Option α)
  | .null => some none
  | v => (decode v).map some

/-- What a struct with the fields `names` finds for each of them. -/
def asStruct (names : List String) : Value → Option (String → Option Value)
  | .obj members => some fun k => members.lookup k
  | .arr xs => if xs.length = names.length then some fun k => xs[names.idxOf k]? else none
  | _ => none

/-- A field that has to be there. -/
def required (get : String → Option Value) (k : String) (decode : Value → Option α) : Option α :=
  (get k).bind decode

/-- A field that is `none` where it is missing. -/
def optional (get : String → Option Value) (k : String) (decode : Value → Option α) :
    Option (Option α) :=
  match get k with
  | none => some none
  | some v => v.asOption decode

/-- An enumeration, given as its variants under their names. -/
def asVariant (table : List (String × α)) : Value → Option α
  | .str s => table.lookup s
  | .obj [(s, .null)] => table.lookup s
  | _ => none

/-- The tag of an internally tagged variant, and what is left for its fields. -/
def asTagged (tag : String) : Value → Option (String × Value)
  | .obj members =>
    ((members.lookup tag).bind asStr).map fun t => (t, .obj (members.filter fun m => m.1 ≠ tag))
  | .arr (x :: xs) => x.asStr.map fun t => (t, .arr xs)
  | _ => none

/-- What is left fits a variant without fields. -/
def isEmpty : Value → Bool
  | .obj _ => true
  | .arr xs => xs.isEmpty
  | _ => false

/-- An internally tagged enumeration whose variants have no fields. -/
def asTag (tag : String) (table : List (String × α)) (v : Value) : Option α := do
  let (t, rest) ← v.asTagged tag
  let a ← table.lookup t
  if rest.isEmpty then some a else none

/-- What the document has for the field `k` of a struct. -/
def field (names : List String) (k : String) (v : Value) : Option Value :=
  (v.asStruct names).bind fun get => get k

/-- The string the document has for the field `k` of a struct. -/
def strField (names : List String) (k : String) (v : Value) : Option String :=
  (v.field names k).bind asStr

/-! ## What was read -/

theorem required_eq_some {get : String → Option Value} {k : String} {decode : Value → Option α}
    {a : α} : required get k decode = some a ↔ ∃ v, get k = some v ∧ decode v = some a :=
  Option.bind_eq_some_iff

theorem field_of_required {names : List String} {v : Value} {get : String → Option Value}
    (hget : v.asStruct names = some get) {k : String} {decode : Value → Option α} {a : α}
    (h : required get k decode = some a) : ∃ w, v.field names k = some w ∧ decode w = some a := by
  obtain ⟨w, hk, hw⟩ := required_eq_some.1 h
  refine ⟨w, ?_, hw⟩
  unfold field
  rw [hget]
  exact hk

/-- A field read as a string under a constructor holds the string of the document. -/
theorem strField_of_required {names : List String} {v : Value} {get : String → Option Value}
    (hget : v.asStruct names = some get) {k : String} {mk : String → α} {a : α}
    (h : required get k (fun w => w.asStr.map mk) = some a) :
    ∃ s, v.strField names k = some s ∧ a = mk s := by
  obtain ⟨w, hw, ha⟩ := field_of_required hget h
  obtain ⟨s, hs, rfl⟩ := Option.map_eq_some_iff.1 ha
  refine ⟨s, ?_, rfl⟩
  unfold strField
  rw [hw]
  exact hs

/-! ## Reading back -/

theorem required_of {get : String → Option Value} {k : String} {decode : Value → Option α}
    {v : Value} {a : α} (hk : get k = some v) (hv : decode v = some a) :
    required get k decode = some a := required_eq_some.2 ⟨v, hk, hv⟩

theorem optional_of {get : String → Option Value} {k : String} {decode : Value → Option α}
    {v : Value} {a : Option α} (hk : get k = some v) (hv : v.asOption decode = some a) :
    optional get k decode = some a := by
  unfold optional
  rw [hk]
  exact hv

theorem lookup_of_mem {members : List (String × β)} (hnd : (members.map Prod.fst).Nodup)
    {k : String} {b : β} (h : (k, b) ∈ members) : members.lookup k = some b := by
  induction members with
  | nil => cases h
  | cons m members ih =>
    obtain ⟨k', b'⟩ := m
    rw [List.map_cons, List.nodup_cons] at hnd
    rcases List.mem_cons.1 h with heq | hmem
    · cases heq
      exact List.lookup_cons_self
    · have hne : k ≠ k' := by
        intro heq
        apply hnd.1
        subst heq
        exact List.mem_map.2 ⟨(k, b), hmem, rfl⟩
      rw [List.lookup_cons, beq_false_of_ne hne]
      exact ih hnd.2 hmem

/-- The variants of an enumeration under distinct names. -/
theorem lookup_names {name : α → String} {variants : List α}
    (hnd : (variants.map name).Nodup) {a : α} (h : a ∈ variants) :
    (variants.map fun a => (name a, a)).lookup (name a) = some a := by
  apply lookup_of_mem
  · rw [List.map_map]
    exact hnd
  · exact List.mem_map.2 ⟨a, h, rfl⟩

theorem asArr_map {decode : Value → Option α} {encode : α → Value} {xs : List α}
    (h : ∀ x ∈ xs, decode (encode x) = some x) : (arr (xs.map encode)).asArr decode = some xs := by
  show (xs.map encode).mapM decode = some xs
  induction xs with
  | nil => rfl
  | cons x xs ih =>
    rw [List.map_cons, List.mapM_cons, h x List.mem_cons_self,
      ih fun y hy => h y (List.mem_cons_of_mem x hy)]
    rfl

end Value

end Json
