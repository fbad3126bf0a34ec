import Mathlib.Data.List.Basic

/-!
# Numerals

Fixed-width positional numerals in a base of at most 16 (`render`, most
significant digit first) and the checked left-to-right reader of a base
(`parseFrom`, which refuses a foreign digit and a value above `max`).

* `render_injective`: a width that holds the value keeps it.
* `parse_render_le`, `parse_render_eq`: reading in one base what was rendered in
  a larger one gives at most the value, and the value itself only when it is a
  single digit.
* `parse_render_digit`: and then it does.
-/
namespace Numeral

/-- The digit a character stands for, in any base. -/
def digitOf (c : Char) : Option Nat :=
  if '0' ≤ c ∧ c ≤ '9' then some (c.toNat - 48)
  else if 'a' ≤ c ∧ c ≤ 'z' then some (c.toNat - 87)
  else if 'A' ≤ c ∧ c ≤ 'Z' then some (c.toNat - 55)
  else none

/-- The last `width` digits of `n` in base `base`, zeros in front. -/
def render (base : Nat) : (width n : Nat) → List Char
  | 0, _ => []
  | width + 1, n => render base width (n / base) ++ [Nat.digitChar (n % base)]

/-- Read on from the value `acc`. -/
def parseFrom (base max : Nat) : Nat → List Char → Option Nat
  | acc, [] => some acc
  | acc, c :: cs =>
    match digitOf c with
    | none => none
    | some d =>
      if d < base ∧ acc * base + d ≤ max then parseFrom base max (acc * base + d) cs else none

/-- An unsigned numeral with an optional plus sign. -/
def parse (base max : Nat) : List Char → Option Nat
  | [] => none
  | ['+'] => none
  | '+' :: cs => parseFrom base max 0 cs
  | cs => parseFrom base max 0 cs

variable {base base' max : Nat}

theorem digitOf_digitChar {d : Nat} (h : d < 16) : digitOf (Nat.digitChar d) = some d := by
  have hall : ∀ d < 16, digitOf (Nat.digitChar d) = some d := by decide
  exact hall d h

theorem length_render (width n : Nat) : (render base width n).length = width := by
  induction width generalizing n with
  | zero => rfl
  | succ width ih => simp [render, ih]

theorem digitOf_of_mem_render (hb : 0 < base) (hb' : base ≤ 16) {width n : Nat} {c : Char}
    (hc : c ∈ render base width n) : (digitOf c).isSome := by
  induction width generalizing n with
  | zero => cases hc
  | succ width ih =>
    rcases List.mem_append.1 hc with hc | hc
    · exact ih hc
    · rw [List.mem_singleton.1 hc, digitOf_digitChar (by have := Nat.mod_lt n hb; omega)]
      rfl

/-- A rendered numeral has no sign. -/
theorem parse_render (hb : 0 < base') (hb' : base' ≤ 16) (width n : Nat) :
    parse base max (render base' (width + 1) n) =
      parseFrom base max 0 (render base' (width + 1) n) := by
  have hlen : (render base' (width + 1) n).length = width + 1 := length_render ..
  have hdig : ∀ c ∈ render base' (width + 1) n, c ≠ '+' := by
    intro c hc hplus
    subst hplus
    exact absurd (digitOf_of_mem_render hb hb' hc) (by decide)
  cases hl : render base' (width + 1) n with
  | nil =>
    rw [hl] at hlen
    cases hlen
  | cons c cs =>
    rw [hl] at hdig
    have hc : c ≠ '+' := hdig c List.mem_cons_self
    unfold parse
    split <;> simp_all

theorem render_injective (hb : 0 < base) (hb' : base ≤ 16) (width : Nat) {m n : Nat}
    (hm : m < Nat.pow base width) (hn : n < Nat.pow base width)
    (h : render base width m = render base width n) : m = n := by
  induction width generalizing m n with
  | zero =>
    have hone : Nat.pow base 0 = 1 := rfl
    omega
  | succ width ih =>
    have hpow : Nat.pow base (width + 1) = Nat.pow base width * base := rfl
    rw [hpow] at hm hn
    obtain ⟨hq, hr⟩ := List.append_inj' h rfl
    have hdiv := ih (Nat.div_lt_of_lt_mul (by rwa [Nat.mul_comm])) (Nat.div_lt_of_lt_mul
      (by rwa [Nat.mul_comm])) hq
    have hmod : m % base = n % base := by
      have hdig := congrArg digitOf (List.cons.inj hr).1
      rw [digitOf_digitChar (by have := Nat.mod_lt m hb; omega),
        digitOf_digitChar (by have := Nat.mod_lt n hb; omega)] at hdig
      exact Option.some.inj hdig
    rw [← Nat.div_add_mod m base, ← Nat.div_add_mod n base, hdiv, hmod]

theorem parseFrom_append (acc : Nat) (l₁ l₂ : List Char) :
    parseFrom base max acc (l₁ ++ l₂) =
      (parseFrom base max acc l₁).bind fun v => parseFrom base max v l₂ := by
  induction l₁ generalizing acc with
  | nil => rfl
  | cons c l₁ ih =>
    simp only [List.cons_append, parseFrom]
    cases digitOf c with
    | none => rfl
    | some d =>
      dsimp only
      split
      · exact ih _
      · rfl

/-- One more digit. -/
theorem parseFrom_digitChar {acc d v : Nat} (hd : d < 16) :
    parseFrom base max acc [Nat.digitChar d] = some v ↔
      d < base ∧ acc * base + d ≤ max ∧ v = acc * base + d := by
  unfold parseFrom
  rw [digitOf_digitChar hd]
  dsimp only
  split
  · rename_i h
    constructor
    · intro hv
      exact ⟨h.1, h.2, (Option.some.inj hv).symm⟩
    · intro hv
      rw [hv.2.2]
      rfl
  · rename_i h
    constructor
    · intro hv
      cases hv
    · intro hv
      exact absurd ⟨hv.1, hv.2.1⟩ h

/-- The last digit read, and the value before it. -/
theorem parse_render_succ (hb : 0 < base') (hb' : base' ≤ 16) {width n v : Nat} :
    parseFrom base max 0 (render base' (width + 1) n) = some v ↔
      ∃ q, parseFrom base max 0 (render base' width (n / base')) = some q ∧
        n % base' < base ∧ q * base + n % base' ≤ max ∧ v = q * base + n % base' := by
  have hmod : n % base' < 16 := Nat.lt_of_lt_of_le (Nat.mod_lt n hb) hb'
  rw [render, parseFrom_append, Option.bind_eq_some_iff]
  constructor
  · intro h
    obtain ⟨q, hq, h⟩ := h
    exact ⟨q, hq, (parseFrom_digitChar hmod).1 h⟩
  · intro h
    obtain ⟨q, hq, h⟩ := h
    exact ⟨q, hq, (parseFrom_digitChar hmod).2 h⟩

/-- Reading in a smaller base gives at most the value. -/
theorem parse_render_le (hle : base ≤ base') (hb : 0 < base') (hb' : base' ≤ 16)
    (width : Nat) {n v : Nat} (h : parseFrom base max 0 (render base' width n) = some v) :
    v ≤ n := by
  induction width generalizing n v with
  | zero =>
    have hv : 0 = v := Option.some.inj h
    omega
  | succ width ih =>
    obtain ⟨q, hq, -, -, rfl⟩ := (parse_render_succ hb hb').1 h
    have hmul := Nat.mul_le_mul (ih hq) hle
    have hdiv := Nat.div_add_mod n base'
    rw [Nat.mul_comm base'] at hdiv
    omega

/-- And the value itself only of a single digit. -/
theorem parse_render_eq (hlt : base < base') (hb' : base' ≤ 16) (width : Nat) {n : Nat}
    (h : parseFrom base max 0 (render base' (width + 1) n) = some n) : n < base := by
  have hb : 0 < base' := by omega
  obtain ⟨q, hq, hd, -, hv⟩ := (parse_render_succ hb hb').1 h
  have hqn := parse_render_le (Nat.le_of_lt hlt) hb hb' width hq
  have hdiv := Nat.div_add_mod n base'
  -- `q * base = (n / base') * base'` with `q ≤ n / base'` and `base < base'`
  have hmul := Nat.mul_le_mul_right base hqn
  have hsplit : n / base' * base' = n / base' * base + n / base' * (base' - base) := by
    rw [← Nat.mul_add]
    congr 1
    omega
  have hzero : n / base' = 0 := by
    rcases Nat.eq_zero_or_pos (n / base') with h0 | hpos
    · exact h0
    · have := Nat.mul_pos hpos (Nat.sub_pos_of_lt hlt)
      rw [Nat.mul_comm base'] at hdiv
      omega
  rw [hzero, Nat.mul_zero, Nat.zero_add] at hdiv
  omega

theorem parse_render_zero (hb : 0 < base) (hle : base ≤ base') (hb' : base' ≤ 16) (width : Nat) :
    parseFrom base max 0 (render base' width 0) = some 0 := by
  induction width with
  | zero => rfl
  | succ width ih =>
    refine (parse_render_succ (Nat.lt_of_lt_of_le hb hle) hb').2 ⟨0, ?_, ?_⟩
    · rw [Nat.zero_div]
      exact ih
    · simp [hb]

/-- A single digit reads back, whatever the two bases. -/
theorem parse_render_digit (hle : base ≤ base') (hb' : base' ≤ 16) (width : Nat) {n : Nat}
    (hn : n < base) (hmax : n ≤ max) :
    parseFrom base max 0 (render base' (width + 1) n) = some n := by
  have hlt : n < base' := Nat.lt_of_lt_of_le hn hle
  refine (parse_render_succ (by omega) hb').2 ⟨0, ?_, ?_⟩
  · rw [Nat.div_eq_of_lt hlt]
    exact parse_render_zero (by omega) hle hb' width
  · rw [Nat.mod_eq_of_lt hlt]
    omega

end Numeral
