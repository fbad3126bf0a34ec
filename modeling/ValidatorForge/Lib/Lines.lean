import Mathlib.Data.List.ReduceOption

/-!
# Texts read line by line

A text is cut at its line breaks and every line is read on its own (`read`);
the lines' items are then put together from the last to the first (`assemble`).

* `read_append_cons`: a line break separates what is read before it from what is
  read after it.
* `read_cut`: whatever is spliced in after `pre`, the first line still begins
  with `pre`, and goes on with a beginning of what was spliced in.
* `assemble_flatten`: an assembly that loses nothing determines its items.
-/
namespace Lines

variable {α β : Type} {brk : Char → Bool} {item : List Char → Option (Option α)}

/-- Read each line of `text`: `item` refuses a line (`none`), skips it
(`some none`) or reads it. -/
def read (brk : Char → Bool) (item : List Char → Option (Option α)) (text : List Char) :
    Option (List α) :=
  ((text.splitOnP brk).mapM item).map List.reduceOption

theorem read_append_cons {xs ys : List Char} {c : Char} (hc : brk c = true) :
    read brk item (xs ++ c :: ys) =
      (read brk item xs).bind fun is => (read brk item ys).map (is ++ ·) := by
  unfold read
  rw [List.splitOnP_append_cons xs ys hc, List.mapM_append]
  cases (xs.splitOnP brk).mapM item with
  | none => rfl
  | some is =>
    cases (ys.splitOnP brk).mapM item with
    | none => rfl
    | some js => simp [List.reduceOption_append]

/-- No line break in `l`. -/
def OneLine (brk : Char → Bool) (l : List Char) : Prop := ∀ c ∈ l, brk c = false

theorem oneLine_iff_any {l : List Char} : OneLine brk l ↔ l.any brk = false := by
  simp [OneLine, List.any_eq_false]

instance (brk : Char → Bool) (l : List Char) : Decidable (OneLine brk l) :=
  decidable_of_iff _ oneLine_iff_any.symm

theorem oneLine_append {xs ys : List Char} :
    OneLine brk (xs ++ ys) ↔ OneLine brk xs ∧ OneLine brk ys :=
  List.forall_mem_append

/-- A text without a line break is one line. -/
theorem read_line {l : List Char} (h : OneLine brk l) :
    read brk item l = (item l).map Option.toList := by
  unfold read
  rw [List.splitOnP_eq_singleton h, List.mapM_cons, List.mapM_nil]
  cases item l with
  | none => rfl
  | some o => cases o <;> rfl

/-- The first line of a text is a beginning of it. -/
theorem splitOnP_prefix (brk : Char → Bool) (s : List Char) :
    ∃ w ls, w <+: s ∧ s.splitOnP brk = w :: ls := by
  induction s with
  | nil => exact ⟨[], [], List.prefix_refl _, by simp⟩
  | cons c s ih =>
    obtain ⟨w, ls, hw, hs⟩ := ih
    rw [List.splitOnP_cons_eq_if_modifyHead, hs]
    by_cases hc : brk c = true
    · exact ⟨[], w :: ls, List.nil_prefix, by simp [hc]⟩
    · exact ⟨c :: w, ls, by simpa using hw, by simp [hc]⟩

theorem splitOnP_append {pre s : List Char} (h : OneLine brk pre) :
    (pre ++ s).splitOnP brk = (s.splitOnP brk).modifyHead (pre ++ ·) := by
  induction pre with
  | nil =>
    rw [List.nil_append]
    cases s.splitOnP brk <;> rfl
  | cons c pre ih =>
    obtain ⟨hc, hpre⟩ := List.forall_mem_cons.1 h
    rw [List.cons_append, List.splitOnP_cons_eq_if_modifyHead, ih hpre]
    simp [hc, Function.comp_def]

/-- The first line of what is read after `pre`. -/
theorem read_cut {pre s : List Char} {is : List α} (hpre : OneLine brk pre)
    (h : read brk item (pre ++ s) = some is) :
    ∃ w o rest, w <+: s ∧ item (pre ++ w) = some o ∧ is = o.toList ++ rest := by
  obtain ⟨w, ls, hw, hs⟩ := splitOnP_prefix brk s
  unfold read at h
  rw [splitOnP_append hpre, hs, List.modifyHead_cons, List.mapM_cons] at h
  cases ho : item (pre ++ w) with
  | none => simp [ho] at h
  | some o =>
    cases hls : ls.mapM item with
    | none => simp [ho, hls] at h
    | some os =>
      refine ⟨w, o, os.reduceOption, hw, ho, ?_⟩
      simp only [ho, hls, Option.bind_eq_bind, Option.bind_some, Option.pure_def,
        Option.map_some, Option.some.injEq] at h
      rw [← h]
      cases o <;> simp

/-- Where two lines are read as at least one item each, and all is as many items
as it should be, each is read as its one item. -/
theorem eq_of_spliced {x y a b : α} {is as bs tail : List α} (mid : List α)
    (h : x :: (mid ++ y :: tail) = is ++ (a :: as ++ (mid ++ (b :: bs ++ tail)))) :
    x = a ∧ y = b := by
  have hlen := congrArg List.length h
  simp only [List.length_cons, List.length_append] at hlen
  have his : is = [] := List.length_eq_zero_iff.1 (by omega)
  have has : as = [] := List.length_eq_zero_iff.1 (by omega)
  have hbs : bs = [] := List.length_eq_zero_iff.1 (by omega)
  rw [his, has, hbs] at h
  simp only [List.nil_append, List.cons_append, List.cons.injEq, List.append_cancel_left_eq,
    and_true] at h
  exact h

/-- Where the same items follow one of each kind, what follows can be told from all. -/
theorem eq_of_repeated {γ : Type} {f : γ → α} {t t' : List α} (c : γ) (cs : List γ)
    (h : (c :: cs).flatMap (fun d => f d :: t) = (c :: cs).flatMap (fun d => f d :: t')) :
    t = t' := by
  have hlen : t.length = t'.length := by
    have hcount := congrArg List.length h
    simp only [List.length_flatMap, List.length_cons, List.map_const', List.sum_replicate_nat]
      at hcount
    have hone := Nat.eq_of_mul_eq_mul_left (Nat.succ_pos cs.length) hcount
    omega
  simp only [List.flatMap_cons, List.cons_append, List.cons.injEq, true_and] at h
  exact (List.append_inj h hlen).1

/-! ## Putting the items together -/

/-- Add the items to `init`, the last one first. -/
def assemble (attach : α → β → Option β) (init : β) : List α → Option β
  | [] => some init
  | a :: as => (assemble attach init as).bind (attach a)

theorem assemble_append (attach : α → β → Option β) (init : β) (as as' : List α) :
    assemble attach init (as ++ as') =
      (assemble attach init as').bind fun b => assemble attach b as := by
  induction as with
  | nil =>
    rw [List.nil_append]
    cases assemble attach init as' <;> rfl
  | cons a as ih =>
    rw [List.cons_append, assemble, ih, Option.bind_assoc]
    rfl

/-- Where each addition can be undone (`flat`), so can all of them. -/
theorem assemble_flatten {attach : α → β → Option β} {init : β} {flat : β → List α}
    (hinit : flat init = []) (hstep : ∀ a b b', attach a b = some b' → flat b' = a :: flat b)
    {as : List α} {b : β} (h : assemble attach init as = some b) : flat b = as := by
  induction as generalizing b with
  | nil =>
    cases h
    exact hinit
  | cons a as ih =>
    obtain ⟨b', hb', hb⟩ := Option.bind_eq_some_iff.1 h
    rw [hstep a b' b hb, ih hb']

end Lines
