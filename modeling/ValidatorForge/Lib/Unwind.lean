import Mathlib.Data.List.Basic

/-!
# Undoing a sequence of actions

Actions are relations on a state (`R i w w'`: action `i` may lead from `w` to
`w'`). `Path R l w w'` performs the actions of `l` one after another. If each
action is undone by its inverse, whatever the state, then performing `l` and
then the inverses in reverse order ends where it began (`path_unwind`); no two
actions need commute.
-/
namespace Unwind

variable {ι κ W : Type}

def Path (R : ι → W → W → Prop) : List ι → W → W → Prop
  | [], w, w' => w' = w
  | i :: l, w, w' => ∃ w₁, R i w w₁ ∧ Path R l w₁ w'

theorem path_append {R : ι → W → W → Prop} {l₁ l₂ : List ι} {w w' : W} :
    Path R (l₁ ++ l₂) w w' ↔ ∃ w₁, Path R l₁ w w₁ ∧ Path R l₂ w₁ w' := by
  induction l₁ generalizing w with
  | nil => simp [Path]
  | cons i l₁ ih =>
    simp only [List.cons_append, Path, ih]
    constructor
    · rintro ⟨a, h₁, b, h₂, h₃⟩; exact ⟨b, ⟨a, h₁, h₂⟩, h₃⟩
    · rintro ⟨b, ⟨a, h₁, h₂⟩, h₃⟩; exact ⟨a, h₁, b, h₂, h₃⟩

theorem path_singleton {R : ι → W → W → Prop} {i : ι} {w w' : W} :
    Path R [i] w w' ↔ R i w w' := by
  simp [Path]

theorem path_map {R : κ → W → W → Prop} {f : ι → κ} {l : List ι} {w w' : W} :
    Path R (l.map f) w w' ↔ Path (fun i => R (f i)) l w w' := by
  induction l generalizing w with
  | nil => rfl
  | cons i l ih => simp only [List.map_cons, Path, ih]

/-- **Unwinding.** -/
theorem path_unwind {F B : ι → W → W → Prop} {l : List ι} {w w₁ w₂ : W}
    (hinv : ∀ i ∈ l, ∀ a b c, F i a b → B i b c → c = a) (hF : Path F l w w₁)
    (hB : Path B l.reverse w₁ w₂) : w₂ = w := by
  induction l generalizing w w₂ with
  | nil => cases hF; exact hB
  | cons i l ih =>
    obtain ⟨a, hi, hl⟩ := hF
    rw [List.reverse_cons, path_append] at hB
    obtain ⟨b, hb, hlast⟩ := hB
    have hba : b = a := ih (fun j hj => hinv j (List.mem_cons_of_mem _ hj)) hl hb
    subst hba
    exact hinv i List.mem_cons_self _ _ _ hi (path_singleton.1 hlast)

end Unwind
