import Mathlib.Data.List.Infix
import ValidatorForge.Lib.Numeral

/-!
# Double-quoted literals

A literal is read from behind its opening quote up to the next quote that is not
escaped (`read`). What may follow a backslash, which characters stand for
themselves and which ones open a template before a brace is the language's
(`Dialect`).

* `read_sound`: a literal spells at most as many characters as it is written
  with, and as many only when it is written with those very characters, none
  of them special (`Clean`).
* `read_clean`: and then it spells them.
* `read_spliced`: so a string spliced in between two quotes is read back as
  itself only when it is clean.
-/
namespace Literal

/-- What a language makes of the characters of a literal. -/
structure Dialect where
  /-- The character a one-character escape stands for. -/
  simple : Char → Option Char
  /-- The number of digits of a hexadecimal escape. -/
  hex : Char → Option Nat
  /-- The characters that stand for themselves. -/
  raw : Char → Bool
  /-- The characters that open a template before a brace, unless doubled. -/
  marker : Char → Bool

variable {D : Dialect}

/-- Where in a literal the reader is. -/
inductive Mode where
  | text
  | escape
  | hex (left value : Nat)
  | verbatim (left : Nat)

/-- What a literal spells from here on, and what follows its closing quote. -/
def readFrom (D : Dialect) : Mode → List Char → Option (List Char × List Char)
  | _, [] => none
  | .text, c :: cs =>
    if c = '"' then some ([], cs)
    else if c = '\\' then readFrom D .escape cs
    else if D.marker c ∧ ['\x7b'] <+: cs then none
    -- a doubled marker stands for one
    else if D.marker c ∧ [c, '\x7b'] <+: cs then readFrom D (.verbatim 2) cs
    else if D.raw c then (readFrom D .text cs).map fun p => (c :: p.1, p.2)
    else none
  | .escape, c :: cs =>
    match D.simple c, D.hex c with
    | some d, _ => (readFrom D .text cs).map fun p => (d :: p.1, p.2)
    | none, some (n + 1) => readFrom D (.hex n 0) cs
    | none, _ => none
  | .hex left value, c :: cs =>
    match Numeral.digitOf c with
    | none => none
    | some d =>
      if 16 ≤ d then none
      else match left with
        | left + 1 => readFrom D (.hex left (16 * value + d)) cs
        | 0 =>
          if (16 * value + d).isValidChar then
            (readFrom D .text cs).map fun p => (Char.ofNat (16 * value + d) :: p.1, p.2)
          else none
  | .verbatim 0, _ :: _ => none
  | .verbatim (left + 1), c :: cs =>
    (readFrom D (if left = 0 then .text else .verbatim left) cs).map fun p => (c :: p.1, p.2)

/-- Read a literal from behind its opening quote. -/
def read (D : Dialect) (l : List Char) : Option (List Char × List Char) := readFrom D .text l

/-- The strings that a literal spells when they are written into it as they are. -/
structure Clean (D : Dialect) (s : List Char) : Prop where
  raw : ∀ c ∈ s, D.raw c = true ∧ c ≠ '"' ∧ c ≠ '\\'
  template : ∀ c, D.marker c = true → ¬ [c, '\x7b'] <:+: s

theorem clean_nil : Clean D [] where
  raw := by simp
  template := by simp

theorem clean_cons {c : Char} {s : List Char} :
    Clean D (c :: s) ↔
      D.raw c = true ∧ c ≠ '"' ∧ c ≠ '\\' ∧ (D.marker c = true → ¬ ['\x7b'] <+: s) ∧ Clean D s := by
  constructor
  · intro h
    obtain ⟨hraw, hquote, hslash⟩ := h.raw c (by simp)
    refine ⟨hraw, hquote, hslash, ?_, fun d hd => h.raw d (by simp [hd]), ?_⟩
    · intro hm hs
      exact h.template c hm (List.IsPrefix.isInfix (by simpa using hs))
    · intro d hd hs
      exact h.template d hd (List.infix_cons hs)
  · intro h
    obtain ⟨hraw, hquote, hslash, hm, hs⟩ := h
    constructor
    · intro d hd
      rcases List.mem_cons.1 hd with hd | hd
      · rw [hd]
        exact ⟨hraw, hquote, hslash⟩
      · exact hs.raw d hd
    · intro d hd hin
      rcases List.infix_cons_iff.1 hin with hpre | hin
      · obtain ⟨hdc, hpre⟩ := List.cons_prefix_cons.1 hpre
        rw [hdc] at hd
        exact hm hd hpre
      · exact hs.template d hd hin

/-- Reading on after a character has been read. -/
theorem map_cons_eq_some {c : Char} {o : Option (List Char × List Char)} {v r : List Char} :
    (o.map fun p => (c :: p.1, p.2)) = some (v, r) ↔ ∃ v', o = some (v', r) ∧ v = c :: v' := by
  cases o with
  | none => simp
  | some p =>
    obtain ⟨v', r'⟩ := p
    simp only [Option.map_some, Option.some.injEq, Prod.mk.injEq]
    constructor
    · intro h
      exact ⟨v', ⟨rfl, h.2⟩, h.1.symm⟩
    · intro h
      obtain ⟨w, hw, hv⟩ := h
      exact ⟨by rw [hv, hw.1], hw.2⟩

/-- What reading one character does: it closes the literal, it spells nothing, or
it spells one character, in plain text the character itself. -/
theorem readFrom_cons {m : Mode} {c : Char} {cs v r : List Char}
    (h : readFrom D m (c :: cs) = some (v, r)) :
    (c = '"' ∧ v = [] ∧ r = cs) ∨ (∃ m', readFrom D m' cs = some (v, r)) ∨
      ∃ m' d v', readFrom D m' cs = some (v', r) ∧ v = d :: v' ∧
        (m = .text → m' = .text ∧ d = c ∧ D.raw c = true ∧ c ≠ '"' ∧ c ≠ '\\' ∧
          (D.marker c = true → ¬ ['\x7b'] <+: cs)) := by
  cases m with
  | text =>
    simp only [readFrom] at h
    split at h
    · rename_i hc
      cases h
      exact .inl ⟨hc, rfl, rfl⟩
    rename_i hquote
    split at h
    · exact .inr (.inl ⟨_, h⟩)
    rename_i hslash
    split at h
    · cases h
    rename_i hopen
    split at h
    · exact .inr (.inl ⟨_, h⟩)
    split at h
    · rename_i hraw
      obtain ⟨v', hv', hv⟩ := map_cons_eq_some.1 h
      refine .inr (.inr ⟨_, c, v', hv', hv, fun _ => ⟨rfl, rfl, hraw, hquote, hslash, ?_⟩⟩)
      intro hm hpre
      exact hopen ⟨hm, hpre⟩
    · cases h
  | escape =>
    simp only [readFrom] at h
    split at h
    · obtain ⟨v', hv', hv⟩ := map_cons_eq_some.1 h
      exact .inr (.inr ⟨_, _, v', hv', hv, fun hm => by cases hm⟩)
    · exact .inr (.inl ⟨_, h⟩)
    · cases h
  | hex left value =>
    simp only [readFrom] at h
    split at h
    · cases h
    split at h
    · cases h
    split at h
    · exact .inr (.inl ⟨_, h⟩)
    split at h
    · obtain ⟨v', hv', hv⟩ := map_cons_eq_some.1 h
      exact .inr (.inr ⟨_, _, v', hv', hv, fun hm => by cases hm⟩)
    · cases h
  | verbatim left =>
    cases left with
    | zero => simp [readFrom] at h
    | succ left =>
      simp only [readFrom] at h
      obtain ⟨v', hv', hv⟩ := map_cons_eq_some.1 h
      exact .inr (.inr ⟨_, _, v', hv', hv, fun hm => by cases hm⟩)

/-- What a literal spells is at most as long as what it is written with; from
plain text on, as long only where both are the same clean string. -/
theorem readFrom_sound {m : Mode} {l v r : List Char} (h : readFrom D m l = some (v, r)) :
    ∃ raw, l = raw ++ '"' :: r ∧ v.length ≤ raw.length ∧
      (m = .text → v.length = raw.length → v = raw ∧ Clean D raw) := by
  induction l generalizing m v with
  | nil => simp [readFrom] at h
  | cons c cs ih =>
    rcases readFrom_cons h with ⟨hc, hv, hr⟩ | ⟨m', hrest⟩ | ⟨m', d, v', hrest, hv, htext⟩
    · refine ⟨[], by rw [hc, hr]; rfl, by simp [hv], fun _ _ => ⟨hv, clean_nil⟩⟩
    · obtain ⟨raw, hcs, hlen, -⟩ := ih hrest
      refine ⟨c :: raw, by rw [hcs]; rfl, by simp; omega, fun _ heq => ?_⟩
      simp only [List.length_cons] at heq
      omega
    · obtain ⟨raw, hcs, hlen, hclean⟩ := ih hrest
      refine ⟨c :: raw, by rw [hcs]; rfl, by simp [hv, hlen], fun hm heq => ?_⟩
      obtain ⟨hm', hd, hraw, hquote, hslash, hopen⟩ := htext hm
      obtain ⟨hvr, hr⟩ := hclean hm' (by simpa [hv] using heq)
      refine ⟨by rw [hv, hd, hvr], clean_cons.2 ⟨hraw, hquote, hslash, ?_, hr⟩⟩
      intro hmark hpre
      exact hopen hmark (hcs ▸ hpre.trans (List.prefix_append _ _))

theorem read_sound {l v r : List Char} (h : read D l = some (v, r)) :
    ∃ raw, l = raw ++ '"' :: r ∧ v.length ≤ raw.length ∧
      (v.length = raw.length → v = raw ∧ Clean D raw) := by
  obtain ⟨raw, hl, hlen, hclean⟩ := readFrom_sound h
  exact ⟨raw, hl, hlen, hclean rfl⟩

/-- A clean string spells itself. -/
theorem read_clean {s : List Char} (h : Clean D s) (r : List Char) :
    read D (s ++ '"' :: r) = some (s, r) := by
  unfold read
  induction s with
  | nil => simp [readFrom]
  | cons c s ih =>
    obtain ⟨hraw, hquote, hslash, hm, hs⟩ := clean_cons.1 h
    -- the next character, if any, is not the quote that is spliced in
    have hopen : D.marker c = true → ¬ ['\x7b'] <+: s ++ '"' :: r := by
      intro hmark hpre
      cases s with
      | nil => simp at hpre
      | cons d s => exact hm hmark (by simpa using hpre)
    have hdouble : D.marker c = true → ¬ [c, '\x7b'] <+: s ++ '"' :: r := by
      intro hmark hpre
      cases s with
      | nil => exact hquote (List.cons_prefix_cons.1 hpre).1
      | cons d s =>
        obtain ⟨hcd, hpre⟩ := List.cons_prefix_cons.1 hpre
        cases s with
        | nil => simp at hpre
        | cons e s =>
          obtain ⟨-, -, -, hm', -⟩ := clean_cons.1 hs
          exact hm' (hcd ▸ hmark) (by simpa using hpre)
    rw [List.cons_append, readFrom, if_neg hquote, if_neg hslash,
      if_neg fun hc => hopen hc.1 hc.2, if_neg fun hc => hdouble hc.1 hc.2, if_pos hraw, ih hs]
    rfl

/-- **Splicing a string in between two quotes.** What is read back as the string
itself from a beginning of the line it stands in is a clean string. -/
theorem read_spliced {s t w r : List Char} (ht : '"' ∉ t) (hw : w <+: s ++ '"' :: t)
    (h : read D w = some (s, r)) : Clean D s := by
  obtain ⟨raw, hraw, hlen, hclean⟩ := read_sound h
  obtain ⟨u, hu⟩ := hw
  have hsplit : raw ++ '"' :: (r ++ u) = s ++ '"' :: t := by
    rw [← hu, hraw]
    simp
  rcases List.append_eq_append_iff.1 hsplit with ⟨x, hs, hx⟩ | ⟨x, hr, hx⟩
  · cases x with
    | nil =>
      obtain ⟨rfl, hc⟩ := hclean (by simp [hs])
      exact hc
    | cons d x =>
      simp only [hs, List.length_append, List.length_cons] at hlen
      omega
  · cases x with
    | nil =>
      obtain ⟨rfl, hc⟩ := hclean (by simp [hr])
      exact hc
    | cons d x =>
      -- the closing quote would be in `t`
      have hmem : '"' ∈ t := by
        have htail := (List.cons.inj hx).2
        rw [htail]
        simp
      exact absurd hmem ht

end Literal
