import ValidatorForge.Lib.Prog

/-!
# Two programs in step

`Coupling S T` says which operations of two signatures may be performed side by
side and which pairs of answers are then considered. `Coupled C Q p q`: `p` and
`q` perform coupled operations for as long as their answers are coupled, and
return values related by `Q`. The rules follow the shape of the programs
(`Coupled.bind`, `Coupled.tryBind`, `Coupled.interp`), so two instances of one
piece of code are compared without unfolding its executions.

`Coupled.replay` is what a coupling is for: whatever `p` did against one
environment, `q` can do in step against another, if that environment can answer
accordingly.
-/
namespace Interaction

structure Coupling (S T : Sig) where
  op : S.Op → T.Op → Prop
  resp : (o : S.Op) → (o' : T.Op) → S.Resp o → T.Resp o' → Prop

namespace Coupling

variable {S T : Sig}

/-- Two coupled events. -/
def Ev (C : Coupling S T) (e : S.Ev) (e' : T.Ev) : Prop := C.op e.1 e'.1 ∧ C.resp e.1 e'.1 e.2 e'.2

end Coupling

inductive Coupled {S T : Sig} (C : Coupling S T) {α β : Type} (Q : α → β → Prop) :
    Prog S α → Prog T β → Prop
  | ret {a : α} {b : β} : Q a b → Coupled C Q (.ret a) (.ret b)
  | op {o : S.Op} {o' : T.Op} {k : S.Resp o → Prog S α} {k' : T.Resp o' → Prog T β} :
      C.op o o' → (∀ r r', C.resp o o' r r' → Coupled C Q (k r) (k' r')) →
      Coupled C Q (.op o k) (.op o' k')

/-- Both failed, or both returned related values. -/
inductive ExceptRel {ε α β : Type} (Q : α → β → Prop) : Except ε α → Except ε β → Prop
  | error (e e' : ε) : ExceptRel Q (.error e) (.error e')
  | ok {a : α} {b : β} : Q a b → ExceptRel Q (.ok a) (.ok b)

namespace Coupled

variable {S T S' T' : Sig} {C : Coupling S T} {α β γ δ ε W : Type}

theorem perform {o : S.Op} {o' : T.Op} (ho : C.op o o') :
    Coupled C (C.resp o o') (Prog.perform o) (Prog.perform o') :=
  .op ho fun _ _ hr => .ret hr

/-- **Sequencing.** -/
theorem bind {Q : α → β → Prop} {R : γ → δ → Prop} {p : Prog S α} {q : Prog T β}
    {f : α → Prog S γ} {g : β → Prog T δ} (h : Coupled C Q p q)
    (hf : ∀ a b, Q a b → Coupled C R (f a) (g b)) : Coupled C R (p >>= f) (q >>= g) := by
  induction h with
  | ret hq => exact hf _ _ hq
  | op ho _ ih => exact .op ho ih

theorem pure {Q : α → β → Prop} {a : α} {b : β} (h : Q a b) :
    Coupled C (ExceptRel Q) (pure a : ExceptT ε (Prog S) α).run (pure b : ExceptT ε (Prog T) β).run :=
  .ret (.ok h)

/-- **Sequencing with `?`.** -/
theorem tryBind {Q : α → β → Prop} {R : γ → δ → Prop} {x : ExceptT ε (Prog S) α}
    {y : ExceptT ε (Prog T) β} {f : α → ExceptT ε (Prog S) γ} {g : β → ExceptT ε (Prog T) δ}
    (h : Coupled C (ExceptRel Q) x.run y.run)
    (hf : ∀ a b, Q a b → Coupled C (ExceptRel R) (f a).run (g b).run) :
    Coupled C (ExceptRel R) (x >>= f).run (y >>= g).run := by
  have hx : (x >>= f).run = x.run >>= ExceptT.bindCont f := rfl
  have hy : (y >>= g).run = y.run >>= ExceptT.bindCont g := rfl
  rw [hx, hy]
  refine h.bind ?_
  intro a b hab
  cases hab with
  | error e e' => exact .ret (.error e e')
  | ok hq => exact hf _ _ hq

theorem lift {Q : α → β → Prop} {p : Prog S α} {q : Prog T β} (h : Coupled C Q p q) :
    Coupled C (ExceptRel Q) (liftM p : ExceptT ε (Prog S) α).run
      (liftM q : ExceptT ε (Prog T) β).run :=
  h.bind fun _ _ hq => .ret (.ok hq)

/-- **Interpretation.** If each pair of coupled operations is carried out in
step below, so are two coupled programs. -/
theorem interp {D : Coupling S' T'} {Q : α → β → Prop} {p : Prog S α} {q : Prog T β}
    {f : (o : S.Op) → Prog S' (S.Resp o)} {g : (o : T.Op) → Prog T' (T.Resp o)}
    (h : Coupled C Q p q) (hfg : ∀ o o', C.op o o' → Coupled D (C.resp o o') (f o) (g o')) :
    Coupled D Q (p.interp f) (q.interp g) := by
  induction h with
  | ret hq => exact .ret hq
  | op ho _ ih => exact (hfg _ _ ho).bind ih

/-- **Replay.** An execution of `p` is replayed by `q` in any environment that
can answer every coupled operation by a coupled answer; `I` is what the
environment keeps, `G` what is known of the answers `p` got. -/
theorem replay {Q : α → β → Prop} {E : Env T W} {I : W → Prop} {G : S.Ev → Prop}
    (hE : ∀ o o' r w, C.op o o' → G ⟨o, r⟩ → I w → ∃ r' w', E o' w r' w' ∧ C.resp o o' r r' ∧ I w')
    {p : Prog S α} {q : Prog T β} (h : Coupled C Q p q) {tr : List S.Ev} {a : α}
    (hx : p.Exec tr a) (hG : ∀ e ∈ tr, G e) {w : W} (hw : I w) :
    ∃ tr' b w', q.Exec tr' b ∧ E.Accepts w tr' w' ∧ List.Forall₂ C.Ev tr tr' ∧ Q a b := by
  induction h generalizing tr w with
  | ret hq =>
    obtain ⟨rfl, rfl⟩ := hx
    exact ⟨[], _, w, ⟨rfl, rfl⟩, rfl, .nil, hq⟩
  | @op o o' k k' ho _ ih =>
    obtain ⟨r, tr₁, rfl, hx₁⟩ := hx
    obtain ⟨r', w₁, he, hr, hw₁⟩ := hE o o' r w ho (hG _ List.mem_cons_self) hw
    have hG₁ : ∀ e ∈ tr₁, G e := fun e he => hG e (List.mem_cons_of_mem _ he)
    obtain ⟨tr₂, b, w₂, hx₂, hacc, hall, hq⟩ := ih r r' hr hx₁ hG₁ hw₁
    exact ⟨⟨o', r'⟩ :: tr₂, b, w₂, ⟨r', tr₂, rfl, hx₂⟩, ⟨w₁, he, hacc⟩, .cons ⟨ho, hr⟩ hall, hq⟩

end Coupled

end Interaction
