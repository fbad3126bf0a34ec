import ValidatorForge.Lib.Pool

/-!
# Rely and guarantee

`Ensures G R p Q`: as long as every operation `o` is answered with an `r` such that
`G o r`, the program `p` performs only operations in `R` and returns only values in
`Q`. Like `Only` it is a statement about the program alone, proved along its text
(`Ensures.bind`, `Ensures.tryBind`), and it passes through an interpretation
(`Ensures.interp`): what the upper program relies on, the lower one ensures.

* `Ensures.exec`: an execution so answered.
* `Ensures.refined`: an execution of the layers together, seen from the upper one.
* `pool_safe`: threads that ensure `R` in an environment that answers `R` by `G`,
  interleaved anyhow, keep the environment's invariant and return only in `Q`.
-/
namespace Interaction

open Prog

variable {S T : Sig} {α β ε : Type}

/-- What may be answered. -/
abbrev Answers (S : Sig) : Type := (o : S.Op) → S.Resp o → Prop

def Prog.Ensures (G : Answers S) (R : S.Op → Prop) : Prog S α → (α → Prop) → Prop
  | .ret a, Q => Q a
  | .op o k, Q => R o ∧ ∀ r, G o r → (k r).Ensures G R Q

namespace Prog

variable {G : Answers S} {R : S.Op → Prop} {Q : α → Prop}

theorem ensures_perform {o : S.Op} {Q : S.Resp o → Prop} :
    (perform o).Ensures G R Q ↔ R o ∧ ∀ r, G o r → Q r := Iff.rfl

/-- Every program ensures that much. -/
theorem ensures_true (p : Prog S α) : p.Ensures G (fun _ => True) fun _ => True := by
  induction p with
  | ret a => exact trivial
  | op o k ih => exact ⟨trivial, fun r _ => ih r⟩

theorem Ensures.mono {p : Prog S α} {Q' : α → Prop} (hp : p.Ensures G R Q)
    (h : ∀ a, Q a → Q' a) : p.Ensures G R Q' := by
  induction p with
  | ret a => exact h a hp
  | op o k ih => exact ⟨hp.1, fun r hr => ih r (hp.2 r hr)⟩

theorem Ensures.bind {p : Prog S α} {f : α → Prog S β} {Q' : β → Prop} (hp : p.Ensures G R Q)
    (hf : ∀ a, Q a → (f a).Ensures G R Q') : (p >>= f).Ensures G R Q' := by
  induction p with
  | ret a => exact hf a hp
  | op o k ih => exact ⟨hp.1, fun r hr => ih r (hp.2 r hr)⟩

/-- Sequencing with `?`: a failure is the result. -/
theorem Ensures.tryBind {x : ExceptT ε (Prog S) α} {f : α → ExceptT ε (Prog S) β}
    {Q : Except ε α → Prop} {Q' : Except ε β → Prop} (hx : x.run.Ensures G R Q)
    (herr : ∀ e, Q (.error e) → Q' (.error e))
    (hf : ∀ a, Q (.ok a) → (f a).run.Ensures G R Q') : (x >>= f).run.Ensures G R Q' := by
  have hb : (x >>= f).run = x.run >>= ExceptT.bindCont f := rfl
  rw [hb]
  refine hx.bind fun a ha => ?_
  cases a with
  | error e => exact herr e ha
  | ok a => exact hf a ha

/-- Nothing is said of a failure. -/
def IfOk (Q : α → Prop) : Except ε α → Prop
  | .ok a => Q a
  | .error _ => True

@[simp] theorem ifOk_ok {Q : α → Prop} {a : α} : IfOk Q (.ok a : Except ε α) ↔ Q a := Iff.rfl

@[simp] theorem ifOk_error {Q : α → Prop} {e : ε} : IfOk Q (.error e : Except ε α) ↔ True := Iff.rfl

theorem Ensures.tryThen {x : ExceptT ε (Prog S) α} {f : α → ExceptT ε (Prog S) β}
    {Q' : β → Prop} (hx : x.run.Ensures G R (IfOk Q))
    (hf : ∀ a, Q a → (f a).run.Ensures G R (IfOk Q')) : (x >>= f).run.Ensures G R (IfOk Q') :=
  hx.tryBind (fun _ _ => trivial) hf

/-- **Layers.** Where each operation's interpretation ensures what the program above
relies on, the whole ensures what that program ensures. -/
theorem Ensures.interp {f : (o : S.Op) → Prog T (S.Resp o)} {G' : Answers T} {R' : T.Op → Prop}
    (hf : ∀ o, R o → (f o).Ensures G' R' (G o)) {p : Prog S α} (hp : p.Ensures G R Q) :
    (p.interp f).Ensures G' R' Q := by
  induction p with
  | ret a => exact hp
  | op o k ih => exact (hf o hp.1).bind fun r hr => ih r (hp.2 r hr)

theorem Ensures.after {p q : Prog S α} {tr : List S.Ev} (hp : p.Ensures G R Q)
    (h : p.After tr q) (htr : ∀ e ∈ tr, G e.1 e.2) :
    (∀ e ∈ tr, R e.1) ∧ q.Ensures G R Q := by
  induction tr generalizing p with
  | nil =>
    cases h
    refine ⟨?_, hp⟩
    intro e he
    cases he
  | cons e tr ih =>
    obtain ⟨k, rfl, h⟩ := h
    have hrest := ih (hp.2 e.2 (htr e (List.mem_cons_self ..))) h
      fun d hd => htr d (List.mem_cons_of_mem _ hd)
    refine ⟨?_, hrest.2⟩
    intro d hd
    rcases List.mem_cons.1 hd with rfl | hd
    · exact hp.1
    · exact hrest.1 d hd

theorem Ensures.exec {p : Prog S α} {tr : List S.Ev} {a : α} (hp : p.Ensures G R Q)
    (h : p.Exec tr a) (htr : ∀ e ∈ tr, G e.1 e.2) : (∀ e ∈ tr, R e.1) ∧ Q a :=
  hp.after ((exec_iff_after ..).1 h) htr

end Prog

/-! ## The environment -/

/-- While `I` holds, operations in `R` are answered by `G`, and `I` goes on to hold. -/
def Env.Keeps {W : Type} (E : Env S W) (I : W → Prop) (G : Answers S) (R : S.Op → Prop) : Prop :=
  ∀ o w r w', I w → R o → E o w r w' → G o r ∧ I w'

section Environment
variable {W : Type} {E : Env S W} {I : W → Prop} {G : Answers S} {R : S.Op → Prop} {Q : α → Prop}

/-- A program alone with it. -/
theorem Env.Keeps.accepts (hE : E.Keeps I G R) {p q : Prog S α} {tr : List S.Ev} {w w' : W}
    (hp : p.Ensures G R Q) (h : p.After tr q) (hw : E.Accepts w tr w') (hI : I w) :
    (∀ e ∈ tr, G e.1 e.2) ∧ I w' := by
  induction tr generalizing p w with
  | nil =>
    cases hw
    refine ⟨?_, hI⟩
    intro e he
    cases he
  | cons e tr ih =>
    obtain ⟨k, rfl, h⟩ := h
    obtain ⟨w₁, he, hw⟩ := hw
    obtain ⟨hg, hI₁⟩ := hE _ _ _ _ hI hp.1 he
    have hrest := ih (hp.2 e.2 hg) h hw hI₁
    refine ⟨?_, hrest.2⟩
    intro d hd
    rcases List.mem_cons.1 hd with rfl | hd
    · exact hg
    · exact hrest.1 d hd

/-- **Refinement.** Where each operation's interpretation, alone with the lower
environment, does what the upper environment may do, an execution of the whole is one
of the program above with the upper environment. -/
theorem Prog.Ensures.refined {V : Type} {F : Env T V} {J : V → Prop} {see : V → W}
    {f : (o : S.Op) → Prog T (S.Resp o)}
    (hf : ∀ o v tr r v', R o → J v → (f o).Exec tr r → F.Accepts v tr v' →
      G o r ∧ E o (see v) r (see v') ∧ J v')
    {p : Prog S α} (hp : p.Ensures G R Q) {tr : List T.Ev} {a : α} (h : (p.interp f).Exec tr a)
    {v v' : V} (hv : F.Accepts v tr v') (hJ : J v) :
    ∃ up, p.Exec up a ∧ E.Accepts (see v) up (see v') ∧ (∀ e ∈ up, G e.1 e.2) ∧ J v' := by
  induction p generalizing tr v with
  | ret b =>
    obtain ⟨rfl, rfl⟩ := h
    cases hv
    refine ⟨[], ⟨rfl, rfl⟩, rfl, ?_, hJ⟩
    intro e he
    cases he
  | op o k ih =>
    obtain ⟨t₁, r, t₂, rfl, h₁, h₂⟩ := (exec_bind ..).1 h
    obtain ⟨v₁, hv₁, hv₂⟩ := (Env.accepts_append ..).1 hv
    obtain ⟨hg, he, hJ₁⟩ := hf o v t₁ r v₁ hp.1 hJ h₁ hv₁
    obtain ⟨up, hx, hacc, hans, hJ'⟩ := ih r (hp.2 r hg) h₂ hv₂ hJ₁
    refine ⟨⟨o, r⟩ :: up, ⟨r, up, rfl, hx⟩, ⟨see v₁, he, hacc⟩, ?_, hJ'⟩
    intro e hmem
    rcases List.mem_cons.1 hmem with rfl | hmem
    · exact hg
    · exact hans e hmem

variable {ι : Type} [DecidableEq ι] {p : ι → Prog S α} {w₀ : W → Prop}
  {Q : ι → α → Prop}

/-- **Threads.** -/
theorem pool_safe (hE : E.Keeps I G R) (hp : ∀ i, (p i).Ensures G R (Q i))
    (h₀ : ∀ w, w₀ w → I w) {s : PoolState S ι W α} (h : (pool E p w₀).Reachable s) :
    I s.world ∧ ∀ i, (s.thread i).rest.Ensures G R (Q i) := by
  refine LTS.Inductive.reachable (M := pool E p w₀)
    (I := fun s => I s.world ∧ ∀ i, (s.thread i).rest.Ensures G R (Q i)) ⟨?_, ?_⟩ s h
  · intro s hs
    refine ⟨h₀ _ hs.1, fun i => ?_⟩
    rw [hs.2 i]
    exact hp i
  · intro s l s' hI hs
    obtain ⟨k, w', hk, he, rfl⟩ := hs
    obtain ⟨hw, hrest⟩ := hI
    have hmine := hrest l.1
    rw [hk] at hmine
    obtain ⟨hg, hw'⟩ := hE _ _ _ _ hw hmine.1 he
    refine ⟨hw', fun j => ?_⟩
    by_cases hj : j = l.1
    · subst hj
      rw [PoolState.advance_self]
      exact hmine.2 _ hg
    · rw [PoolState.advance_of_ne s hj]
      exact hrest j

end Environment

end Interaction
