import Mathlib.Algebra.BigOperators.Group.Finset.Basic
import ValidatorForge.Lib.Pool

/-!
# Accounting for permits

Some events of a signature take a permit, some give one back, and whether an
operation may be performed can hang on how many are held (`Permits`).
`P.Spends n p Q`: holding `n` permits, `p` never gives what it does not hold,
performs no operation it may not perform then, and returns `a` holding `m` only if
`Q m a`. It is a statement about the program alone, proved along its text
(`Spends.bind`, `Spends.tryBind`, `Spends.frame`).

* `Spends.after`: what is left of a program stopped anywhere still spends what it
  holds by then.
* `held_add_gives`: over every interleaving of such threads, what they hold and what
  they gave is what they took.
* `conserved`: so if the environment counts its free permits (`Metered`), free and
  held ones together stay the same.
-/
namespace Interaction

open Prog

structure Permits (S : Sig) where
  takes : S.Ev → Bool
  gives : S.Ev → Bool
  may : S.Op → Nat → Prop

namespace Permits

variable {S : Sig} {α β ε : Type} (P : Permits S)

/-- The permits held after an event. -/
def next (n : Nat) (e : S.Ev) : Nat := n + (P.takes e).toNat - (P.gives e).toNat

/-- The permits held after a trace. -/
def held (tr : List S.Ev) : Nat := tr.foldl P.next 0

@[simp] theorem held_nil : P.held [] = 0 := rfl

theorem held_append_singleton (tr : List S.Ev) (e : S.Ev) :
    P.held (tr ++ [e]) = P.next (P.held tr) e := by
  unfold held
  rw [List.foldl_append]
  rfl

/-- The operation neither takes nor gives a permit, whatever the answer. -/
def Neutral (o : S.Op) : Prop := ∀ r, P.takes ⟨o, r⟩ = false ∧ P.gives ⟨o, r⟩ = false

theorem next_neutral {o : S.Op} (h : P.Neutral o) (n : Nat) (r : S.Resp o) :
    P.next n ⟨o, r⟩ = n := by
  simp [next, h r]

def Spends : Nat → Prog S α → (Nat → α → Prop) → Prop
  | n, .ret a, Q => Q n a
  | n, .op o k, Q => P.may o n ∧
      ∀ r, (P.gives ⟨o, r⟩ = true → 0 < n) ∧ Spends (P.next n ⟨o, r⟩) (k r) Q

variable {P} {n : Nat} {Q : Nat → α → Prop}

theorem Spends.mono {p : Prog S α} {R : Nat → α → Prop} (hp : P.Spends n p Q)
    (h : ∀ m a, Q m a → R m a) : P.Spends n p R := by
  induction p generalizing n with
  | ret a => exact h n a hp
  | op o k ih => exact ⟨hp.1, fun r => ⟨(hp.2 r).1, ih r (hp.2 r).2⟩⟩

theorem Spends.bind {p : Prog S α} {f : α → Prog S β} {R : Nat → β → Prop}
    (hp : P.Spends n p Q) (hf : ∀ m a, Q m a → P.Spends m (f a) R) : P.Spends n (p >>= f) R := by
  induction p generalizing n with
  | ret a => exact hf n a hp
  | op o k ih => exact ⟨hp.1, fun r => ⟨(hp.2 r).1, ih r (hp.2 r).2⟩⟩

/-- Sequencing with `?`: a failure ends the program with what is held then. -/
theorem Spends.tryBind {x : ExceptT ε (Prog S) α} {f : α → ExceptT ε (Prog S) β}
    {Q : Nat → Except ε α → Prop} {R : Nat → Except ε β → Prop} (hx : P.Spends n x.run Q)
    (herr : ∀ m e, Q m (.error e) → R m (.error e))
    (hf : ∀ m a, Q m (.ok a) → P.Spends m (f a).run R) : P.Spends n (x >>= f).run R := by
  have hb : (x >>= f).run = x.run >>= ExceptT.bindCont f := rfl
  rw [hb]
  refine hx.bind fun m a ha => ?_
  cases a with
  | error e => exact herr m e ha
  | ok a => exact hf m a ha

/-- A program that leaves the permits alone. -/
theorem Spends.frame {p : Prog S α} (hp : p.Only fun o => P.Neutral o ∧ P.may o n) :
    P.Spends n p fun m _ => m = n := by
  induction p with
  | ret a => rfl
  | op o k ih =>
    obtain ⟨⟨hneutral, hmay⟩, hk⟩ := hp
    refine ⟨hmay, fun r => ⟨fun hg => ?_, ?_⟩⟩
    · rw [(hneutral r).2] at hg
      cases hg
    · rw [P.next_neutral hneutral]
      exact ih r (hk r)

theorem Spends.after {p q : Prog S α} {tr : List S.Ev} (hp : P.Spends n p Q) (h : p.After tr q) :
    P.Spends (tr.foldl P.next n) q Q := by
  induction tr generalizing n p with
  | nil =>
    cases h
    exact hp
  | cons e tr ih =>
    obtain ⟨k, rfl, h⟩ := h
    exact ih (hp.2 e.2).2 h

/-- Where a permit is only taken by who has none, no one has two. -/
theorem Spends.held_le_one {p q : Prog S α} {tr : List S.Ev}
    (hone : ∀ e n, P.takes e = true → P.may e.1 n → n = 0) (hp : P.Spends n p Q) (hn : n ≤ 1)
    (h : p.After tr q) : tr.foldl P.next n ≤ 1 := by
  induction tr generalizing n p with
  | nil => exact hn
  | cons e tr ih =>
    obtain ⟨k, rfl, h⟩ := h
    refine ih (hp.2 e.2).2 ?_ h
    unfold next
    cases ht : P.takes e with
    | false =>
      simp only [Bool.toNat_false]
      omega
    | true =>
      rw [hone e n ht hp.1]
      simp only [Bool.toNat_true]
      omega

theorem next_add_gives {e : S.Ev} (h : P.gives e = true → 0 < n) :
    P.next n e + (P.gives e).toNat = n + (P.takes e).toNat := by
  unfold next
  cases hg : P.gives e with
  | false => simp
  | true =>
    have hpos := h hg
    simp only [Bool.toNat_true]
    omega

/-! ## Threads -/

section Pool
variable {ι W : Type} [DecidableEq ι] {E : Env S W} {p : ι → Prog S α} {w₀ : W → Prop}
  {s s' : PoolState S ι W α}

omit [DecidableEq ι] in
theorem spends_of_threads (hp : ∀ i, P.Spends 0 (p i) Q) (h : Threads p s) (i : ι) :
    P.Spends (P.held (s.thread i).trace) (s.thread i).rest Q := (hp i).after (h i)

/-- What a thread does next, it may do with what it holds. -/
theorem may_of_step (hp : ∀ i, P.Spends 0 (p i) Q) (h : Threads p s) {l : ι × S.Ev}
    (hs : (pool E p w₀).step s l s') :
    P.may l.2.1 (P.held (s.thread l.1).trace) ∧
      (P.gives l.2 = true → 0 < P.held (s.thread l.1).trace) := by
  obtain ⟨k, w', hk, -, -⟩ := hs
  have hsp := spends_of_threads hp h l.1
  rw [hk] at hsp
  exact ⟨hsp.1, (hsp.2 l.2.2).1⟩

omit [DecidableEq ι] in
/-- What a thread holds when it has returned. -/
theorem held_of_ret (hp : ∀ i, P.Spends 0 (p i) Q) (h : Threads p s) {i : ι} {a : α}
    (hr : (s.thread i).rest = .ret a) : Q (P.held (s.thread i).trace) a := by
  have hsp := spends_of_threads hp h i
  rw [hr] at hsp
  exact hsp

theorem sum_held_advance [Fintype ι] (s : PoolState S ι W α) (i : ι) (e : S.Ev) (q : Prog S α)
    (w : W) :
    ∑ j, P.held ((s.advance i [e] q w).thread j).trace + P.held (s.thread i).trace =
      ∑ j, P.held (s.thread j).trace + P.next (P.held (s.thread i).trace) e := by
  have hrest : ∑ j ∈ Finset.univ.erase i, P.held ((s.advance i [e] q w).thread j).trace =
      ∑ j ∈ Finset.univ.erase i, P.held (s.thread j).trace :=
    Finset.sum_congr rfl fun j hj => by
      rw [PoolState.advance_of_ne s (Finset.ne_of_mem_erase hj)]
  have hself : P.held ((s.advance i [e] q w).thread i).trace =
      P.next (P.held (s.thread i).trace) e := by
    rw [PoolState.advance_self, held_append_singleton]
  rw [← Finset.add_sum_erase _ _ (Finset.mem_univ i), hrest, hself,
    ← Finset.add_sum_erase _ (fun j => P.held (s.thread j).trace) (Finset.mem_univ i)]
  omega

/-- **What is taken is held or given back.** -/
theorem held_add_gives [Fintype ι] (hp : ∀ i, P.Spends 0 (p i) Q) {ls : List (ι × S.Ev)}
    (h : (pool E p w₀).Run s ls s') (hth : Threads p s) :
    ∑ i, P.held (s'.thread i).trace + (ls.map Prod.snd).countP P.gives =
      ∑ i, P.held (s.thread i).trace + (ls.map Prod.snd).countP P.takes := by
  induction h with
  | nil => rfl
  | @cons s s₁ s₂ l ls hs _ ih =>
    have hgive := (may_of_step hp hth hs).2
    have hnext := next_add_gives hgive
    have hrest := ih (threads_step hth hs)
    obtain ⟨k, w', -, -, rfl⟩ := hs
    have hadv := sum_held_advance (P := P) s l.1 l.2 (k l.2.2) w'
    rw [List.map_cons, List.countP_cons, List.countP_cons]
    have hg : (if P.gives l.2 = true then 1 else 0) = (P.gives l.2).toNat := by
      cases P.gives l.2 <;> rfl
    have ht : (if P.takes l.2 = true then 1 else 0) = (P.takes l.2).toNat := by
      cases P.takes l.2 <;> rfl
    rw [hg, ht]
    omega

/-- The environment's free permits: an event takes one from them or adds one. -/
def Metered (P : Permits S) (E : Env S W) (free : W → Nat) : Prop :=
  ∀ o w r w', E o w r w' →
    free w' + (P.takes ⟨o, r⟩).toNat = free w + (P.gives ⟨o, r⟩).toNat

/-- **Conservation.** Free and held permits together are what was free at the start. -/
theorem conserved [Fintype ι] {free : W → Nat} (hE : P.Metered E free)
    (hp : ∀ i, P.Spends 0 (p i) Q) {c : Nat} (hc : ∀ w, w₀ w → free w = c)
    (h : (pool E p w₀).Reachable s) : free s.world + ∑ i, P.held (s.thread i).trace = c := by
  obtain ⟨s₀, ls, h₀, hr⟩ := h
  refine (hr.keeps (I := fun t => Threads p t ∧
    free t.world + ∑ i, P.held (t.thread i).trace = c) ?_ ⟨threads_init h₀, ?_⟩).2
  · intro t l t' hI hs
    obtain ⟨hth, hsum⟩ := hI
    refine ⟨threads_step hth hs, ?_⟩
    have hgive := (may_of_step hp hth hs).2
    have hnext := next_add_gives hgive
    obtain ⟨k, w', -, he, rfl⟩ := hs
    have hadv := sum_held_advance (P := P) t l.1 l.2 (k l.2.2) w'
    have hfree : free w' + (P.takes l.2).toNat = free t.world + (P.gives l.2).toNat := hE _ _ _ _ he
    rw [PoolState.advance_world]
    omega
  · have hz : ∀ i, P.held (s₀.thread i).trace = 0 := fun i => by rw [h₀.2 i]; rfl
    rw [Finset.sum_eq_zero fun i _ => hz i, hc _ h₀.1]
    rfl

end Pool

end Permits

end Interaction
