import Mathlib.Data.List.Basic

/-!
# Labelled transition systems

Runs, reachable states and inductive invariants of a labelled transition
system, for any state and label type. An invariant is proved once
(`Inductive`: it holds initially and every step keeps it) and then holds in
every reachable state (`Inductive.reachable`). `Guarded` is the same system
with the steps restricted to those that meet a condition on the state before
the step: a result about it is a result about the runs all of whose steps meet
that condition (`Run.of_guarded`). `Simulates`: the runs of one system are, seen
through a function, runs of another (`Simulates.run`).
-/
structure LTS (S L : Type) where
  init : S → Prop
  step : S → L → S → Prop

namespace LTS

variable {S L : Type} {M : LTS S L}

inductive Run (M : LTS S L) : S → List L → S → Prop
  | nil (s : S) : M.Run s [] s
  | cons {s s₁ s₂ : S} {l : L} {ls : List L} : M.step s l s₁ → M.Run s₁ ls s₂ → M.Run s (l :: ls) s₂

def Reachable (M : LTS S L) (s : S) : Prop := ∃ s₀ ls, M.init s₀ ∧ M.Run s₀ ls s

structure Inductive (M : LTS S L) (I : S → Prop) : Prop where
  init : ∀ s, M.init s → I s
  step : ∀ s l s', I s → M.step s l s' → I s'

theorem Run.append {a b c : S} {l₁ l₂ : List L} (h₁ : M.Run a l₁ b) (h₂ : M.Run b l₂ c) :
    M.Run a (l₁ ++ l₂) c := by
  induction h₁ with
  | nil => exact h₂
  | cons hs _ ih => exact .cons hs (ih h₂)

/-- A property kept by every step is kept by every run. -/
theorem Run.keeps {I : S → Prop} (hI : ∀ s l s', I s → M.step s l s' → I s') {s s' : S}
    {ls : List L} (hr : M.Run s ls s') (h : I s) : I s' := by
  induction hr with
  | nil => exact h
  | cons hs _ ih => exact ih (hI _ _ _ h hs)

theorem Inductive.reachable {I : S → Prop} (hI : M.Inductive I) (s : S) (h : M.Reachable s) :
    I s := by
  obtain ⟨s₀, ls, h₀, hr⟩ := h
  exact hr.keeps hI.step (hI.init s₀ h₀)

theorem Reachable.step {s s' : S} {l : L} (hr : M.Reachable s) (hs : M.step s l s') :
    M.Reachable s' := by
  obtain ⟨s₀, ls, h₀, hrun⟩ := hr
  exact ⟨s₀, ls ++ [l], h₀, hrun.append (.cons hs (.nil _))⟩

/-- The system whose steps all meet `G` on the state before the step. -/
def Guarded (M : LTS S L) (G : S → L → Prop) : LTS S L where
  init := M.init
  step s l s' := G s l ∧ M.step s l s'

theorem Run.of_guarded {G : S → L → Prop} {s s' : S} {ls : List L}
    (h : (M.Guarded G).Run s ls s') : M.Run s ls s' := by
  induction h with
  | nil => exact .nil _
  | cons hs _ ih => exact .cons hs.2 ih

theorem Run.guard {G : S → L → Prop} (hG : ∀ s l, G s l) {s s' : S} {ls : List L}
    (h : M.Run s ls s') : (M.Guarded G).Run s ls s' := by
  induction h with
  | nil => exact .nil _
  | cons hs _ ih => exact .cons ⟨hG _ _, hs⟩ ih

/-! ## Simulation -/

/-- Seen through `see`, and while `J` holds, every step of `M` is one of `N` with the
same label. -/
structure Simulates {T : Type} (M : LTS S L) (N : LTS T L) (see : S → T) (J : S → Prop) :
    Prop where
  init : ∀ s, M.init s → N.init (see s) ∧ J s
  step : ∀ s l s', J s → M.step s l s' → N.step (see s) l (see s') ∧ J s'

theorem Simulates.run {T : Type} {N : LTS T L} {see : S → T} {J : S → Prop}
    (h : M.Simulates N see J) {s s' : S} {ls : List L} (hs : J s) (hr : M.Run s ls s') :
    N.Run (see s) ls (see s') ∧ J s' := by
  induction hr with
  | nil => exact ⟨.nil _, hs⟩
  | cons hstep _ ih =>
    obtain ⟨hn, hJ⟩ := h.step _ _ _ hs hstep
    obtain ⟨hrun, hJ'⟩ := ih hJ
    exact ⟨.cons hn hrun, hJ'⟩

end LTS
