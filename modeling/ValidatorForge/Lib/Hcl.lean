import ValidatorForge.Lib.Lines
import ValidatorForge.Lib.Literal

/-!
# HCL documents of flat blocks

A reader of the part of HCL that configuration files of attribute blocks are
written in: comments, block headers with quoted labels, attributes whose value is
a string literal or a tuple of them, closing braces, one to a line (`item`). A
document is a sequence of blocks (`readBlocks`); everything else is refused.
Literals follow HCL: no line break inside, backslash escapes, and a dollar or
percent sign before a brace opens a template, which is no literal.

* `readBlocks_eq_some`: the blocks read are the items of the lines, none lost.
* `labels_literal`, `value_literal`: what reading a label or a value says about
  the literal it starts with; `labels_clean`, `value_clean`: when it is clean.
-/
namespace Hcl

/-- HCL's quoted literals. -/
def dialect : Literal.Dialect where
  simple
    | 'n' => some '\n'
    | 'r' => some '\r'
    | 't' => some '\t'
    | '"' => some '"'
    | '\\' => some '\\'
    | _ => none
  hex
    | 'u' => some 4
    | 'U' => some 8
    | _ => none
  raw c := c ≠ '\n' ∧ c ≠ '\r'
  marker c := c = '$' ∨ c = '%'

inductive Value where
  | literal (s : List Char)
  | tuple (ss : List (List Char))
  deriving DecidableEq, Repr

/-- What a line adds to a document. -/
inductive Item where
  | header (kind : List Char) (labels : List (List Char))
  | attr (name : List Char) (value : Value)
  | close
  deriving DecidableEq, Repr

/-- A block, its attributes in the order they are written in. -/
structure Block where
  kind : List Char
  labels : List (List Char)
  attrs : List (List Char × Value)
  deriving DecidableEq, Repr

/-- HCL ends a line at a line feed. -/
def isBreak (c : Char) : Bool := c = '\n'

/-- A clean literal stays on its line. -/
theorem oneLine_of_clean {s : List Char} (h : Literal.Clean dialect s) :
    Lines.OneLine isBreak s := by
  intro c hc
  have hraw := (h.raw c hc).1
  simp only [dialect, decide_eq_true_eq] at hraw
  simpa [isBreak] using hraw.1

/-! ## One line -/

def isBlank (c : Char) : Bool := c = ' ' ∨ c = '\t'

def isIdent (c : Char) : Bool := c.isAlphanum ∨ c = '_' ∨ c = '-'

/-- Nothing but blanks and a comment is left of the line. -/
def atEnd (l : List Char) : Bool :=
  match l.dropWhile isBlank with
  | [] => true
  | '#' :: _ => true
  | '/' :: '/' :: _ => true
  | _ => false

/-- The labels of a header and its opening brace. Every label takes two
characters or more, so the length of the line is fuel enough. -/
def labels : (fuel : Nat) → List Char → Option (List (List Char))
  | 0, _ => none
  | fuel + 1, l =>
    match l.dropWhile isBlank with
    | '\x7b' :: r => if atEnd r then some [] else none
    | '"' :: r =>
      match Literal.read dialect r with
      | some (s, r) => (labels fuel r).map (s :: ·)
      | none => none
    | _ => none

/-- The elements of a tuple, from behind its opening bracket, and what follows
its closing one. -/
def elements : (fuel : Nat) → List Char → Option (List (List Char) × List Char)
  | 0, _ => none
  | fuel + 1, l =>
    match l.dropWhile isBlank with
    | ']' :: r => some ([], r)
    | '"' :: r =>
      match Literal.read dialect r with
      | some (s, r) =>
        match r.dropWhile isBlank with
        | ',' :: r => (elements fuel r).map (Prod.map (s :: ·) id)
        | ']' :: r => some ([s], r)
        | _ => none
      | none => none
    | _ => none

/-- The value of an attribute. -/
def value (l : List Char) : Option Value :=
  match l.dropWhile isBlank with
  | '"' :: r =>
    match Literal.read dialect r with
    | some (s, r) => if atEnd r then some (.literal s) else none
    | none => none
  | '[' :: r =>
    match elements r.length r with
    | some (ss, r) => if atEnd r then some (.tuple ss) else none
    | none => none
  | _ => none

/-- A line that starts with the identifier `name`. -/
def named (name l : List Char) : Option Item :=
  match l.dropWhile isBlank with
  | '=' :: r => (value r).map (.attr name)
  | r => (labels r.length r).map (.header name)

/-- One line of a document. -/
def item (l : List Char) : Option (Option Item) :=
  if atEnd l then some none
  else match l.dropWhile isBlank with
    | '\x7d' :: r => if atEnd r then some (some .close) else none
    | c :: r =>
      if c.isAlpha ∨ c = '_' then
        (named (c :: r.takeWhile isIdent) (r.dropWhile isIdent)).map some
      else none
    | [] => none

theorem labels_quote (fuel : Nat) (w : List Char) :
    labels (fuel + 1) ('"' :: w) =
      (Literal.read dialect w).bind fun p => (labels fuel p.2).map (p.1 :: ·) := by
  show (match Literal.read dialect w with
    | some (s, r) => (labels fuel r).map (s :: ·)
    | none => none) = _
  cases Literal.read dialect w <;> rfl

theorem value_quote (w : List Char) :
    value ('"' :: w) =
      (Literal.read dialect w).bind fun p => if atEnd p.2 then some (.literal p.1) else none := by
  show (match Literal.read dialect w with
    | some (s, r) => if atEnd r then some (Value.literal s) else none
    | none => none) = _
  cases Literal.read dialect w <;> rfl

/-- A label that has been read is a literal that has been read. -/
theorem labels_literal {fuel : Nat} {w : List Char} {ls : List (List Char)}
    (h : labels (fuel + 1) ('"' :: w) = some ls) :
    ∃ s r ls', Literal.read dialect w = some (s, r) ∧ ls = s :: ls' := by
  rw [labels_quote] at h
  obtain ⟨⟨s, r⟩, hr, h⟩ := Option.bind_eq_some_iff.1 h
  obtain ⟨ls', -, hls⟩ := Option.map_eq_some_iff.1 h
  exact ⟨s, r, ls', hr, hls.symm⟩

theorem labels_clean {s : List Char} (h : Literal.Clean dialect s) (fuel : Nat) (r : List Char) :
    labels (fuel + 1) ('"' :: (s ++ '"' :: r)) = (labels fuel r).map (s :: ·) := by
  rw [labels_quote, Literal.read_clean h]
  rfl

theorem value_literal {w : List Char} {v : Value} (h : value ('"' :: w) = some v) :
    ∃ s r, Literal.read dialect w = some (s, r) ∧ v = .literal s := by
  rw [value_quote] at h
  obtain ⟨⟨s, r⟩, hr, h⟩ := Option.bind_eq_some_iff.1 h
  obtain ⟨-, hv⟩ := Option.ite_none_right_eq_some.1 h
  exact ⟨s, r, hr, (Option.some.inj hv).symm⟩

theorem value_clean {s : List Char} (h : Literal.Clean dialect s) :
    value ('"' :: (s ++ ['"'])) = some (.literal s) := by
  rw [value_quote, Literal.read_clean h]
  rfl

/-! ## A document -/

/-- What has been read from the last line up: the attributes of a block whose
header is still to come, and the blocks after it. -/
structure Tail where
  attrs : Option (List (List Char × Value))
  blocks : List Block

def attach : Item → Tail → Option Tail
  | .close, ⟨none, bs⟩ => some ⟨some [], bs⟩
  | .attr name v, ⟨some as, bs⟩ => some ⟨some ((name, v) :: as), bs⟩
  | .header kind ls, ⟨some as, bs⟩ => some ⟨none, ⟨kind, ls, as⟩ :: bs⟩
  | _, _ => none

/-- The items of the lines of a document. -/
def readItems (text : List Char) : Option (List Item) := Lines.read isBreak item text

theorem readItems_append (xs ys : List Char) :
    readItems (xs ++ '\n' :: ys) =
      (readItems xs).bind fun is => (readItems ys).map (is ++ ·) :=
  Lines.read_append_cons rfl

/-- The blocks of a document. -/
def readBlocks (text : List Char) : Option (List Block) :=
  match (readItems text).bind (Lines.assemble attach ⟨none, []⟩) with
  | some ⟨none, bs⟩ => some bs
  | _ => none

def bodyItems (as : List (List Char × Value)) : List Item :=
  as.map (fun a => .attr a.1 a.2) ++ [.close]

/-- The lines of a block. -/
def Block.items (b : Block) : List Item := .header b.kind b.labels :: bodyItems b.attrs

def Tail.items (t : Tail) : List Item :=
  (match t.attrs with
    | none => []
    | some as => bodyItems as) ++ t.blocks.flatMap Block.items

theorem attach_items (i : Item) (t t' : Tail) (h : attach i t = some t') :
    t'.items = i :: t.items := by
  obtain ⟨as, bs⟩ := t
  cases i <;> cases as <;> cases h <;> rfl

theorem assemble_bodyItems (bs : List Block) (as : List (List Char × Value)) :
    Lines.assemble attach ⟨none, bs⟩ (bodyItems as) = some ⟨some as, bs⟩ := by
  induction as with
  | nil => rfl
  | cons a as ih =>
    show (Lines.assemble attach ⟨none, bs⟩ (bodyItems as)).bind (attach (.attr a.1 a.2)) = _
    rw [ih]
    rfl

theorem assemble_items (bs : List Block) :
    Lines.assemble attach ⟨none, []⟩ (bs.flatMap Block.items) = some ⟨none, bs⟩ := by
  induction bs with
  | nil => rfl
  | cons b bs ih =>
    rw [List.flatMap_cons, Lines.assemble_append, ih, Option.bind_some, Block.items,
      Lines.assemble, assemble_bodyItems]
    rfl

/-- A document is read as some blocks when its lines are their lines. -/
theorem readBlocks_eq_some {text : List Char} {bs : List Block} :
    readBlocks text = some bs ↔ readItems text = some (bs.flatMap Block.items) := by
  constructor
  · intro h
    unfold readBlocks at h
    split at h
    · rename_i bs' hbs
      cases h
      obtain ⟨is, his, hasm⟩ := Option.bind_eq_some_iff.1 hbs
      rw [his]
      exact congrArg some (Lines.assemble_flatten rfl attach_items hasm).symm
    · cases h
  · intro h
    unfold readBlocks
    rw [h, Option.bind_some, assemble_items]

end Hcl
