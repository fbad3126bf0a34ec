import Mathlib.Data.List.Chain

/-!
# Change logs

A log of changes, each with the state before and the state after. `Replays s l t`:
the changes `l` lead from `s` to `t`, each starting where the one before it ended.
`final s l` is where the last one ends, whether or not they fit together; for a log
that replays it is the only state it can lead to (`Replays.final_eq`).
-/
namespace ChangeLog

variable {σ : Type}

def Replays : σ → List (σ × σ) → σ → Prop
  | s, [], t => t = s
  | s, c :: l, t => c.1 = s ∧ Replays c.2 l t

/-- Where the last change ends. -/
def final (s : σ) (l : List (σ × σ)) : σ := (l.getLast?.map Prod.snd).getD s

@[simp] theorem replays_nil (s t : σ) : Replays s [] t ↔ t = s := Iff.rfl

@[simp] theorem final_nil (s : σ) : final s [] = s := rfl

theorem final_cons (s : σ) (c : σ × σ) (l : List (σ × σ)) : final s (c :: l) = final c.2 l := by
  unfold final
  cases l with
  | nil => rfl
  | cons d l => simp [List.getLast?_cons]

theorem final_append (s : σ) (l₁ l₂ : List (σ × σ)) :
    final s (l₁ ++ l₂) = final (final s l₁) l₂ := by
  induction l₁ generalizing s with
  | nil => rfl
  | cons c l₁ ih => rw [List.cons_append, final_cons, final_cons, ih]

theorem Replays.final_eq {s t : σ} {l : List (σ × σ)} (h : Replays s l t) : t = final s l := by
  induction l generalizing s with
  | nil => exact h
  | cons c l ih => rw [final_cons]; exact ih h.2

theorem Replays.append {s t u : σ} {l₁ l₂ : List (σ × σ)} (h₁ : Replays s l₁ t)
    (h₂ : Replays t l₂ u) : Replays s (l₁ ++ l₂) u := by
  induction l₁ generalizing s with
  | nil => cases h₁; exact h₂
  | cons c l₁ ih => exact ⟨h₁.1, ih h₁.2⟩

theorem Replays.head {s t : σ} {l : List (σ × σ)} (h : Replays s l t) :
    ∀ c, l.head? = some c → c.1 = s := by
  intro c hc
  cases l with
  | nil => cases hc
  | cons d l => cases hc; exact h.1

/-- Each change starts where the one before it ended. -/
theorem Replays.isChain {s t : σ} {l : List (σ × σ)} (h : Replays s l t) :
    l.IsChain fun c d => d.1 = c.2 := by
  induction l generalizing s with
  | nil => exact .nil
  | cons c l ih => exact List.isChain_cons.2 ⟨h.2.head, ih h.2⟩

end ChangeLog
