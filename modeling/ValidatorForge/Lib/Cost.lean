import ValidatorForge.Lib.Rely

/-!
# What a program costs

`Within G w p n`: as long as its operations are answered as `G` allows, those that the
program `p` performs weigh at most `n` together, an operation `o` weighing `w o`. It
is proved along the program's text (`Within.bind`, `Within.tryBind`) and passes
through an interpretation (`Within.interp`).

* `Within.elapsed`: where an operation takes at most the time it weighs, an execution
  takes at most `n`.
-/
namespace Interaction

variable {S T : Sig} {α β ε : Type}

def Prog.Within (G : Answers S) (w : S.Op → Nat) : Prog S α → Nat → Prop
  | .ret _, _ => True
  | .op o k, n => w o ≤ n ∧ ∀ r, G o r → (k r).Within G w (n - w o)

namespace Prog

variable {G : Answers S} {w : S.Op → Nat} {n m : Nat}

@[simp] theorem within_ret (a : α) : (Prog.ret a : Prog S α).Within G w n := trivial

theorem within_perform {o : S.Op} : (perform o).Within G w n ↔ w o ≤ n := by
  simp [perform, Within]

theorem Within.mono {p : Prog S α} (hp : p.Within G w n) (h : n ≤ m) : p.Within G w m := by
  induction p generalizing n m with
  | ret a => trivial
  | op o k ih =>
    refine ⟨Nat.le_trans hp.1 h, ?_⟩
    intro r hr
    exact ih r (hp.2 r hr) (by omega)

theorem Within.bind {R : S.Op → Prop} {Q : α → Prop} {p : Prog S α} {f : α → Prog S β}
    (hp : p.Within G w n) (hq : p.Ensures G R Q) (hf : ∀ a, Q a → (f a).Within G w m) :
    (p >>= f).Within G w (n + m) := by
  induction p generalizing n with
  | ret a => exact (hf a hq).mono (by omega)
  | op o k ih =>
    have hle : w o ≤ n := hp.1
    refine ⟨by omega, ?_⟩
    intro r hr
    have hsplit : n + m - w o = n - w o + m := by omega
    rw [hsplit]
    exact ih r (hp.2 r hr) (hq.2 r hr)

/-- The same where nothing is to be known of what comes first. -/
theorem Within.andThen {p : Prog S α} {f : α → Prog S β} (hp : p.Within G w n)
    (hf : ∀ a, (f a).Within G w m) : (p >>= f).Within G w (n + m) :=
  hp.bind p.ensures_true fun a _ => hf a

/-- Sequencing with `?`: a failure costs nothing more. -/
theorem Within.tryThen {x : ExceptT ε (Prog S) α} {f : α → ExceptT ε (Prog S) β}
    (hx : x.run.Within G w n) (hf : ∀ a, (f a).run.Within G w m) :
    (x >>= f).run.Within G w (n + m) := by
  have hb : (x >>= f).run = x.run >>= ExceptT.bindCont f := rfl
  rw [hb]
  apply hx.andThen
  intro r
  cases r with
  | error e => trivial
  | ok a => exact hf a

/-- **Layers.** Where each operation's interpretation costs what the operation weighs,
the whole costs what the program above does. -/
theorem Within.interp {f : (o : S.Op) → Prog T (S.Resp o)} {G' : Answers T} {w' : T.Op → Nat}
    {R : T.Op → Prop} (hf : ∀ o, (f o).Within G' w' (w o)) (hg : ∀ o, (f o).Ensures G' R (G o))
    {p : Prog S α} (hp : p.Within G w n) : (p.interp f).Within G' w' n := by
  induction p generalizing n with
  | ret a => trivial
  | op o k ih =>
    have hle : w o ≤ n := hp.1
    have hbind := (hf o).bind (hg o) fun r hr => ih r (hp.2 r hr)
    exact hbind.mono (by omega)

/-- **Time.** -/
theorem Within.elapsed {E : Env S Nat}
    (hE : ∀ o t r t', E o t r t' → G o r ∧ t' ≤ t + w o) {p : Prog S α} {tr : List S.Ev} {a : α}
    (hp : p.Within G w n) (h : p.Exec tr a) {t t' : Nat} (hw : E.Accepts t tr t') :
    t' ≤ t + n := by
  induction p generalizing n tr t with
  | ret b =>
    obtain ⟨rfl, -⟩ := h
    cases hw
    omega
  | op o k ih =>
    obtain ⟨r, rest, rfl, hrest⟩ := h
    obtain ⟨u, hop, hmore⟩ := hw
    obtain ⟨hg, hu⟩ := hE _ _ _ _ hop
    have hle : w o ≤ n := hp.1
    have hend := ih r (hp.2 r hg) hrest hmore
    simp only at hu
    omega

end Prog

end Interaction
