import Mathlib.Data.List.Basic

/-!
# Programs that talk to an environment

A signature `Sig` lists operations and the type of the answer to each. A
`Prog S α` performs operations one after another, every continuation depending
on the answers so far, and returns an `α`. It is the meaning of code written
against ports: the code is fixed, the answers are not.

* `Exec p tr a`: `p`, given the answers recorded in the trace `tr`, performs
  exactly the operations of `tr` in that order and returns `a`. A law proved
  for all traces holds whatever is behind the ports, stateful or not.
* `After p tr q`: having performed `tr`, the program still has `q` to do
  (`exec_iff_after`). It is what a program stopped half way has done.
* `Env S W`: which answers an environment in state `w : W` may give, and its
  state after; `Env.Accepts` runs a trace through it.
* `runWith`: the total evaluation against a deterministic environment. Its
  trace is an execution (`exec_runWith`), so every program returns in every
  environment. `runFor` stops it after some operations.
* `interp`: replace each operation by a program over another signature. An
  execution of the result is an execution of the original, each of its events
  cut into a segment of operations below (`exec_interp`).
* `Only P p`: whatever the answers, `p` performs none but the operations `P`.

The rules for `bind` (`exec_bind`, `exec_tryBind`) cut an execution at a
sequence point; every proof about a concrete program uses them instead of
unfolding it.
-/
namespace Interaction

structure Sig where
  Op : Type
  Resp : Op → Type

/-- An operation together with the answer it got. -/
abbrev Sig.Ev (S : Sig) : Type := (o : S.Op) × S.Resp o

inductive Prog (S : Sig) (α : Type) where
  | ret (a : α)
  | op (o : S.Op) (k : S.Resp o → Prog S α)

namespace Prog

variable {S T : Sig} {α β ε W : Type}

protected def bind : Prog S α → (α → Prog S β) → Prog S β
  | .ret a, f => f a
  | .op o k, f => .op o fun r => (k r).bind f

instance : Monad (Prog S) where
  pure := .ret
  bind := Prog.bind

@[simp] theorem pure_eq (a : α) : (pure a : Prog S α) = .ret a := rfl

@[simp] theorem ret_bind (a : α) (f : α → Prog S β) : (Prog.ret a >>= f) = f a := rfl

@[simp] theorem op_bind (o : S.Op) (k : S.Resp o → Prog S α) (f : α → Prog S β) :
    (Prog.op o k >>= f) = .op o fun r => k r >>= f := rfl

protected theorem bind_ret (p : Prog S α) : p >>= Prog.ret = p := by
  induction p with
  | ret a => rfl
  | op o k ih => rw [op_bind]; simp only [ih]

protected theorem bind_assoc {γ : Type} (p : Prog S α) (f : α → Prog S β) (g : β → Prog S γ) :
    p >>= f >>= g = p >>= fun a => f a >>= g := by
  induction p with
  | ret a => rfl
  | op o k ih => simp only [op_bind, ih]

instance : LawfulMonad (Prog S) :=
  LawfulMonad.mk' (Prog S) Prog.bind_ret ret_bind Prog.bind_assoc

/-- Perform one operation and return its answer. -/
def perform (o : S.Op) : Prog S (S.Resp o) := .op o .ret

/-! ## Executions -/

def Exec : Prog S α → List S.Ev → α → Prop
  | .ret a, tr, b => tr = [] ∧ b = a
  | .op o k, tr, b => ∃ r tr', tr = ⟨o, r⟩ :: tr' ∧ (k r).Exec tr' b

/-- `p.After tr q`: `p` can perform `tr`, and `q` is what is left of it. -/
def After : Prog S α → List S.Ev → Prog S α → Prop
  | p, [], q => q = p
  | p, e :: tr, q => ∃ k, p = .op e.1 k ∧ (k e.2).After tr q

@[simp] theorem exec_ret (a b : α) (tr : List S.Ev) :
    (Prog.ret a : Prog S α).Exec tr b ↔ tr = [] ∧ b = a := Iff.rfl

theorem exec_op (o : S.Op) (k : S.Resp o → Prog S α) (tr : List S.Ev) (b : α) :
    (Prog.op o k).Exec tr b ↔ ∃ r tr', tr = ⟨o, r⟩ :: tr' ∧ (k r).Exec tr' b := Iff.rfl

@[simp] theorem exec_perform (o : S.Op) (tr : List S.Ev) (r : S.Resp o) :
    (perform o).Exec tr r ↔ tr = [⟨o, r⟩] := by
  constructor
  · rintro ⟨r', tr', rfl, rfl, rfl⟩; rfl
  · rintro rfl; exact ⟨r, [], rfl, rfl, rfl⟩

/-- **Sequencing.** An execution of `p >>= f` is an execution of `p` followed
by one of `f` on what `p` returned. -/
theorem exec_bind (p : Prog S α) (f : α → Prog S β) (tr : List S.Ev) (b : β) :
    (p >>= f).Exec tr b ↔
      ∃ t₁ a t₂, tr = t₁ ++ t₂ ∧ p.Exec t₁ a ∧ (f a).Exec t₂ b := by
  induction p generalizing tr with
  | ret a =>
    rw [ret_bind]
    constructor
    · exact fun h => ⟨[], a, tr, rfl, ⟨rfl, rfl⟩, h⟩
    · rintro ⟨_, _, t₂, rfl, ⟨rfl, rfl⟩, h⟩; exact h
  | op o k ih =>
    rw [op_bind, exec_op]
    constructor
    · rintro ⟨r, tr', rfl, h⟩
      obtain ⟨t₁, a, t₂, rfl, h₁, h₂⟩ := (ih r tr').1 h
      exact ⟨⟨o, r⟩ :: t₁, a, t₂, rfl, ⟨r, t₁, rfl, h₁⟩, h₂⟩
    · rintro ⟨_, a, t₂, rfl, ⟨r, t₁, rfl, h₁⟩, h₂⟩
      exact ⟨r, t₁ ++ t₂, rfl, (ih r _).2 ⟨t₁, a, t₂, rfl, h₁, h₂⟩⟩

theorem exec_iff_after (p : Prog S α) (tr : List S.Ev) (a : α) :
    p.Exec tr a ↔ p.After tr (.ret a) := by
  induction tr generalizing p with
  | nil => cases p <;> simp [Exec, After]
  | cons e tr ih =>
    cases p with
    | ret b => simp [Exec, After]
    | op o k =>
      constructor
      · rintro ⟨r, tr', he, h⟩
        simp only [List.cons.injEq] at he
        obtain ⟨rfl, rfl⟩ := he
        exact ⟨k, rfl, (ih (k r)).1 h⟩
      · rintro ⟨k', hk, h⟩
        cases hk
        exact ⟨e.2, tr, rfl, (ih _).2 h⟩

/-- Of a value nothing is left to do. -/
theorem after_ret {a : α} {q : Prog S α} {tr : List S.Ev} :
    (Prog.ret a).After tr q ↔ tr = [] ∧ q = .ret a := by
  cases tr <;> simp [After]

theorem After.append {p q r : Prog S α} {t₁ t₂ : List S.Ev} (h₁ : p.After t₁ q)
    (h₂ : q.After t₂ r) : p.After (t₁ ++ t₂) r := by
  induction t₁ generalizing p with
  | nil => cases h₁; exact h₂
  | cons e t₁ ih =>
    obtain ⟨k, hk, h⟩ := h₁
    exact ⟨k, hk, ih h⟩

theorem After.exec {p q : Prog S α} {t₁ t₂ : List S.Ev} {a : α} (h₁ : p.After t₁ q)
    (h₂ : q.Exec t₂ a) : p.Exec (t₁ ++ t₂) a :=
  (exec_iff_after ..).2 (h₁.append ((exec_iff_after ..).1 h₂))

/-- An execution can be stopped anywhere. -/
theorem exec_append {p : Prog S α} {t₁ t₂ : List S.Ev} {a : α} (h : p.Exec (t₁ ++ t₂) a) :
    ∃ q, p.After t₁ q ∧ q.Exec t₂ a := by
  induction t₁ generalizing p with
  | nil => exact ⟨p, rfl, h⟩
  | cons e t₁ ih =>
    cases p with
    | ret b => cases h.1
    | op o k =>
      obtain ⟨r, tr', he, hx⟩ := h
      simp only [List.cons_append, List.cons.injEq] at he
      obtain ⟨rfl, rfl⟩ := he
      obtain ⟨q, hq, hx⟩ := ih hx
      exact ⟨q, ⟨k, rfl, hq⟩, hx⟩

/-! ## Programs that may fail -/

/-- **Sequencing with `?`.** Either the first part fails and its error is the
result, or it returns a value the second part continues with. -/
theorem exec_tryBind (x : ExceptT ε (Prog S) α) (f : α → ExceptT ε (Prog S) β)
    (tr : List S.Ev) (r : Except ε β) :
    (x >>= f).run.Exec tr r ↔
      (∃ e, x.run.Exec tr (.error e) ∧ r = .error e) ∨
      (∃ t₁ a t₂, tr = t₁ ++ t₂ ∧ x.run.Exec t₁ (.ok a) ∧ (f a).run.Exec t₂ r) := by
  have hb : (x >>= f).run = x.run >>= ExceptT.bindCont f := rfl
  rw [hb, exec_bind]
  constructor
  · rintro ⟨t₁, e | a, t₂, rfl, h₁, h₂⟩
    · obtain ⟨rfl, rfl⟩ := h₂
      exact .inl ⟨e, by simpa using h₁, rfl⟩
    · exact .inr ⟨t₁, a, t₂, rfl, h₁, h₂⟩
  · rintro (⟨e, h, rfl⟩ | ⟨t₁, a, t₂, rfl, h₁, h₂⟩)
    · exact ⟨tr, .error e, [], by simp, h, rfl, rfl⟩
    · exact ⟨t₁, .ok a, t₂, rfl, h₁, h₂⟩

@[simp] theorem exec_tryPure (a : α) (tr : List S.Ev) (r : Except ε α) :
    (pure a : ExceptT ε (Prog S) α).run.Exec tr r ↔ tr = [] ∧ r = .ok a := Iff.rfl

@[simp] theorem exec_throw (e : ε) (tr : List S.Ev) (r : Except ε α) :
    (throw e : ExceptT ε (Prog S) α).run.Exec tr r ↔ tr = [] ∧ r = .error e := Iff.rfl

@[simp] theorem exec_lift (p : Prog S α) (tr : List S.Ev) (r : Except ε α) :
    (liftM p : ExceptT ε (Prog S) α).run.Exec tr r ↔ ∃ a, p.Exec tr a ∧ r = .ok a := by
  have hl : (liftM p : ExceptT ε (Prog S) α).run = p >>= fun a => .ret (.ok a) := by
    show (ExceptT.lift p).run = _
    simp only [ExceptT.lift, ExceptT.run, ExceptT.mk]
    rfl
  rw [hl, exec_bind]
  constructor
  · rintro ⟨t₁, a, t₂, rfl, h, rfl, rfl⟩; exact ⟨a, by simpa using h, rfl⟩
  · rintro ⟨a, h, rfl⟩; exact ⟨tr, a, [], by simp, h, rfl, rfl⟩

/-! ## What a program can perform -/

/-- Every operation `p` can perform, whatever the answers, is one of `P`. -/
def Only (P : S.Op → Prop) : Prog S α → Prop
  | .ret _ => True
  | .op o k => P o ∧ ∀ r, (k r).Only P

variable {P : S.Op → Prop}

@[simp] theorem only_perform (o : S.Op) : (perform o).Only P ↔ P o :=
  ⟨fun h => h.1, fun h => ⟨h, fun _ => trivial⟩⟩

theorem Only.mono {Q : S.Op → Prop} {p : Prog S α} (hp : p.Only P) (h : ∀ o, P o → Q o) :
    p.Only Q := by
  induction p with
  | ret a => exact trivial
  | op o k ih => exact ⟨h o hp.1, fun r => ih r (hp.2 r)⟩

theorem Only.bind {p : Prog S α} {f : α → Prog S β} (hp : p.Only P) (hf : ∀ a, (f a).Only P) :
    (p >>= f).Only P := by
  induction p with
  | ret a => exact hf a
  | op o k ih => exact ⟨hp.1, fun r => ih r (hp.2 r)⟩

theorem Only.exec {p : Prog S α} (hp : p.Only P) {tr : List S.Ev} {a : α} (h : p.Exec tr a) :
    ∀ e ∈ tr, P e.1 := by
  induction p generalizing tr with
  | ret b =>
    obtain ⟨rfl, -⟩ := h
    intro e he
    cases he
  | op o k ih =>
    obtain ⟨r, tr', rfl, h⟩ := h
    intro e he
    rcases List.mem_cons.1 he with rfl | he
    · exact hp.1
    · exact ih r (hp.2 r) h e he

theorem Only.tryBind {x : ExceptT ε (Prog S) α} {f : α → ExceptT ε (Prog S) β}
    (hx : x.run.Only P) (hf : ∀ a, (f a).run.Only P) : (x >>= f).run.Only P := by
  have hb : (x >>= f).run = x.run >>= ExceptT.bindCont f := rfl
  rw [hb]
  refine hx.bind fun a => ?_
  cases a with
  | error e => exact trivial
  | ok a => exact hf a

/-! ## Deterministic environments -/

abbrev Handler (S : Sig) (W : Type) : Type := (o : S.Op) → W → S.Resp o × W

/-- What a program returned, the trace it left and the environment's state. -/
structure Outcome (S : Sig) (W α : Type) where
  val : α
  trace : List S.Ev
  world : W

def runWith (h : Handler S W) : Prog S α → W → Outcome S W α
  | .ret a, w => ⟨a, [], w⟩
  | .op o k, w =>
    let out := runWith h (k (h o w).1) (h o w).2
    ⟨out.val, ⟨o, (h o w).1⟩ :: out.trace, out.world⟩

theorem exec_runWith (h : Handler S W) (p : Prog S α) (w : W) :
    p.Exec (p.runWith h w).trace (p.runWith h w).val := by
  induction p generalizing w with
  | ret a => exact ⟨rfl, rfl⟩
  | op o k ih => exact ⟨_, _, rfl, ih _ _⟩

/-- A program stopped half way: what it did, what is left of it, and the
environment's state. -/
structure Partial (S : Sig) (W α : Type) where
  trace : List S.Ev
  rest : Prog S α
  world : W

/-- The first `n` operations. -/
def runFor (h : Handler S W) : Nat → Prog S α → W → Partial S W α
  | 0, p, w => ⟨[], p, w⟩
  | _ + 1, .ret a, w => ⟨[], .ret a, w⟩
  | n + 1, .op o k, w =>
    let out := runFor h n (k (h o w).1) (h o w).2
    ⟨⟨o, (h o w).1⟩ :: out.trace, out.rest, out.world⟩

theorem after_runFor (h : Handler S W) (n : Nat) (p : Prog S α) (w : W) :
    p.After (p.runFor h n w).trace (p.runFor h n w).rest := by
  induction n generalizing p w with
  | zero => rfl
  | succ n ih =>
    cases p with
    | ret a => rfl
    | op o k => exact ⟨k, rfl, ih _ _⟩

end Prog

/-! ## Environments -/

/-- `E o w r w'`: in state `w` the operation `o` may be answered `r`, leaving
the state `w'`. -/
abbrev Env (S : Sig) (W : Type) : Type := (o : S.Op) → W → S.Resp o → W → Prop

namespace Env

variable {S : Sig} {α W : Type} {E : Env S W}

def Accepts (E : Env S W) : W → List S.Ev → W → Prop
  | w, [], w' => w' = w
  | w, e :: tr, w' => ∃ w₁, E e.1 w e.2 w₁ ∧ E.Accepts w₁ tr w'

@[simp] theorem accepts_nil (w w' : W) : E.Accepts w [] w' ↔ w' = w := Iff.rfl

@[simp] theorem accepts_cons (w w' : W) (e : S.Ev) (tr : List S.Ev) :
    E.Accepts w (e :: tr) w' ↔ ∃ w₁, E e.1 w e.2 w₁ ∧ E.Accepts w₁ tr w' := Iff.rfl

theorem accepts_append (w w' : W) (t₁ t₂ : List S.Ev) :
    E.Accepts w (t₁ ++ t₂) w' ↔ ∃ w₁, E.Accepts w t₁ w₁ ∧ E.Accepts w₁ t₂ w' := by
  induction t₁ generalizing w with
  | nil => simp
  | cons e t₁ ih =>
    simp only [List.cons_append, accepts_cons, ih]
    constructor
    · rintro ⟨a, h₁, b, h₂, h₃⟩; exact ⟨b, ⟨a, h₁, h₂⟩, h₃⟩
    · rintro ⟨b, ⟨a, h₁, h₂⟩, h₃⟩; exact ⟨a, h₁, b, h₂, h₃⟩

/-- A deterministic environment that only gives answers `E` allows runs every
program along a trace `E` accepts. -/
theorem accepts_runWith {h : Prog.Handler S W} (hE : ∀ o w, E o w (h o w).1 (h o w).2)
    (p : Prog S α) (w : W) : E.Accepts w (p.runWith h w).trace (p.runWith h w).world := by
  induction p generalizing w with
  | ret a => rfl
  | op o k ih => exact ⟨_, hE o w, ih _ _⟩

theorem accepts_runFor {h : Prog.Handler S W} (hE : ∀ o w, E o w (h o w).1 (h o w).2) (n : Nat)
    (p : Prog S α) (w : W) : E.Accepts w (p.runFor h n w).trace (p.runFor h n w).world := by
  induction n generalizing p w with
  | zero => rfl
  | succ n ih =>
    cases p with
    | ret a => rfl
    | op o k => exact ⟨_, hE o w, ih _ _⟩

end Env

/-! ## Interpretation -/

namespace Prog

variable {S T : Sig} {α β : Type}

def interp (f : (o : S.Op) → Prog T (S.Resp o)) : Prog S α → Prog T α
  | .ret a => .ret a
  | .op o k => f o >>= fun r => (k r).interp f

/-- An event of the upper signature and the events below that carried it out. -/
abbrev Seg (S T : Sig) : Type := S.Ev × List T.Ev

def upper (segs : List (Seg S T)) : List S.Ev := segs.map Prod.fst

def lower (segs : List (Seg S T)) : List T.Ev := segs.flatMap Prod.snd

@[simp] theorem upper_nil : upper ([] : List (Seg S T)) = [] := rfl
@[simp] theorem lower_nil : lower ([] : List (Seg S T)) = [] := rfl
@[simp] theorem upper_cons (s : Seg S T) (l : List (Seg S T)) : upper (s :: l) = s.1 :: upper l := rfl
@[simp] theorem lower_cons (s : Seg S T) (l : List (Seg S T)) : lower (s :: l) = s.2 ++ lower l := rfl

@[simp] theorem upper_append (l₁ l₂ : List (Seg S T)) : upper (l₁ ++ l₂) = upper l₁ ++ upper l₂ := by
  simp [upper]

@[simp] theorem lower_append (l₁ l₂ : List (Seg S T)) : lower (l₁ ++ l₂) = lower l₁ ++ lower l₂ := by
  simp [lower]

/-- Cutting the events above cuts the segments. -/
theorem exists_segs {segs : List (Seg S T)} {t₁ t₂ : List S.Ev} {e : S.Ev}
    (h : upper segs = t₁ ++ e :: t₂) :
    ∃ l₁ seg l₂, segs = l₁ ++ (e, seg) :: l₂ ∧ upper l₁ = t₁ ∧ upper l₂ = t₂ := by
  obtain ⟨l₁, l, rfl, h₁, h⟩ := List.map_eq_append_iff.1 h
  obtain ⟨⟨_, seg⟩, l₂, rfl, rfl, h₂⟩ := List.map_eq_cons_iff.1 h
  exact ⟨l₁, seg, l₂, rfl, h₁, h₂⟩

/-- Every segment is an execution of its operation's interpretation, with the
answer the event records. -/
def Refined (f : (o : S.Op) → Prog T (S.Resp o)) (segs : List (Seg S T)) : Prop :=
  ∀ s ∈ segs, (f s.1.1).Exec s.2 s.1.2

/-- **Interpretation.** The executions of `p.interp f` are the executions of
`p` with every event replaced by an execution of its interpretation. -/
theorem exec_interp (f : (o : S.Op) → Prog T (S.Resp o)) (p : Prog S α) (tr : List T.Ev) (a : α) :
    (p.interp f).Exec tr a ↔ ∃ segs, p.Exec (upper segs) a ∧ Refined f segs ∧ tr = lower segs := by
  induction p generalizing tr with
  | ret b =>
    constructor
    · rintro ⟨rfl, rfl⟩; exact ⟨[], ⟨rfl, rfl⟩, by simp [Refined], rfl⟩
    · rintro ⟨segs, ⟨hs, rfl⟩, -, rfl⟩
      cases segs with
      | nil => exact ⟨rfl, rfl⟩
      | cons s l => cases hs
  | op o k ih =>
    simp only [interp, exec_bind]
    constructor
    · rintro ⟨t₁, r, t₂, rfl, h₁, h₂⟩
      obtain ⟨segs, he, hr, rfl⟩ := (ih r t₂).1 h₂
      refine ⟨(⟨o, r⟩, t₁) :: segs, ⟨r, upper segs, rfl, he⟩, ?_, rfl⟩
      intro s hs
      rcases List.mem_cons.1 hs with rfl | hs
      · exact h₁
      · exact hr s hs
    · rintro ⟨segs, ⟨r, tr', hu, he⟩, hr, rfl⟩
      cases segs with
      | nil => cases hu
      | cons s l =>
        obtain ⟨e, t₁⟩ := s
        simp only [upper_cons, List.cons.injEq] at hu
        obtain ⟨rfl, rfl⟩ := hu
        exact ⟨t₁, r, lower l, rfl, hr _ (List.mem_cons_self ..),
          (ih r _).2 ⟨l, he, fun s hs => hr s (List.mem_cons_of_mem _ hs), rfl⟩⟩

theorem Only.interp {P : T.Op → Prop} {f : (o : S.Op) → Prog T (S.Resp o)}
    (hf : ∀ o, (f o).Only P) (p : Prog S α) : (p.interp f).Only P := by
  induction p with
  | ret a => exact trivial
  | op o k ih => exact (hf o).bind ih

end Prog

end Interaction
