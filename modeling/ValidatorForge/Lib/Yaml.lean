import Mathlib.Data.List.DropRight
import ValidatorForge.Lib.Lines
import ValidatorForge.Lib.Literal

/-!
# YAML documents of flat mappings

A reader of the part of YAML 1.2 that a list of plays is written in: a block
sequence of block mappings, one entry to a line (`item`), whose values are plain
or double-quoted scalars on the line of their key, or a mapping one level further
in (`readMappings`). Everything else is refused. Scalars follow YAML: a plain one
is trimmed, ends before a comment, holds no colon before a blank and begins with
no indicator; its tag is the schema's to say (`resolve`), a quoted one is always
a string.

* `readMappings_entries`: the mappings read are the entries of the lines, none
  lost.
* `readPlain_sound`, `readPlain_plain`: a plain scalar is read as what it is
  written with exactly when that is `Plain`, and as something shorter otherwise.
* `scalar_spliced`, `scalar_plain`: so a string spliced in behind a key is read
  back as itself exactly when it is `Plain`.
-/
namespace Yaml

/-- YAML's double-quoted scalars, on one line. -/
def dialect : Literal.Dialect where
  simple
    | '0' => some '\x00'
    | 'a' => some '\x07'
    | 'b' => some '\x08'
    | 't' => some '\t'
    | '\t' => some '\t'
    | 'n' => some '\n'
    | 'v' => some '\x0b'
    | 'f' => some '\x0c'
    | 'r' => some '\r'
    | 'e' => some '\x1b'
    | ' ' => some ' '
    | '"' => some '"'
    | '/' => some '/'
    | '\\' => some '\\'
    | 'N' => some '\u0085'
    | '_' => some '\u00a0'
    | 'L' => some '\u2028'
    | 'P' => some '\u2029'
    | _ => none
  hex
    | 'x' => some 2
    | 'u' => some 4
    | 'U' => some 8
    | _ => none
  raw c := c = '\t' ∨ 0x20 ≤ c.toNat
  marker _ := false

/-- YAML ends a line at a line feed and at a carriage return. -/
def isBreak (c : Char) : Bool := c = '\n' ∨ c = '\r'

def isBlank (c : Char) : Bool := c = ' ' ∨ c = '\t'

/-- The characters that may stand on a line outside a quoted scalar: the
printable ones, line breaks and byte order marks apart. -/
def isText (c : Char) : Bool :=
  c = '\t' ∨ (0x20 ≤ c.toNat ∧ c.toNat ≤ 0x7E) ∨ c.toNat = 0x85 ∨
    (0xA0 ≤ c.toNat ∧ c.toNat ≤ 0xFFFD ∧ c.toNat ≠ 0xFEFF) ∨ 0x10000 ≤ c.toNat

/-- What holds of neither line break holds of strings on one line only. -/
theorem oneLine_of_forall {p : Char → Bool} {l : List Char} (hlf : p '\n' = false)
    (hcr : p '\r' = false) (h : ∀ c ∈ l, p c = true) : Lines.OneLine isBreak l := by
  intro c hc
  have hp := h c hc
  have hlf' : c ≠ '\n' := by
    intro heq
    rw [heq, hlf] at hp
    cases hp
  have hcr' : c ≠ '\r' := by
    intro heq
    rw [heq, hcr] at hp
    cases hp
  simp [isBreak, hlf', hcr']

/-- A clean literal stays on its line. -/
theorem oneLine_of_clean {s : List Char} (h : Literal.Clean dialect s) :
    Lines.OneLine isBreak s :=
  oneLine_of_forall (by decide) (by decide) fun c hc => (h.raw c hc).1

/-- The characters that mean something at the start of a node. -/
def isIndicator (c : Char) : Bool :=
  c ∈ ['-', '?', ':', ',', '[', ']', '\x7b', '\x7d', '#', '&', '*', '!', '|', '>', '\x27', '"',
    '%', '@', '\x60']

/-- Nothing, or a blank. -/
def endsWord (l : List Char) : Bool :=
  match l with
  | [] => true
  | c :: _ => isBlank c

/-- A plain scalar may begin with `l`: no blank and no indicator, but for the
three that are one only before a blank. -/
def startsPlain (l : List Char) : Bool :=
  match l with
  | [] => false
  | c :: cs => !isBlank c && (!isIndicator c || (c ∈ ['-', '?', ':'] && !endsWord cs))

/-- A plain scalar with the blanks behind it, up to the end of the line or a
comment; `prev` is the character before. -/
def scanPlain (prev : Char) : List Char → Option (List Char)
  | [] => some []
  | c :: cs =>
    if isText c = false then none
    else if c = '#' ∧ isBlank prev then (if cs.all isText then some [] else none)
    else if c = ':' ∧ endsWord cs then none
    else (scanPlain c cs).map (c :: ·)

def readPlain (l : List Char) : Option (List Char) :=
  if startsPlain l then (scanPlain ' ' l).map (List.rdropWhile isBlank) else none

/-- The strings that a plain scalar on one line is read as when it is written
with them as they are. -/
structure Plain (s : List Char) : Prop where
  starts : startsPlain s = true
  text : ∀ c ∈ s, isText c = true
  comment : ∀ b, isBlank b = true → ¬ [b, '#'] <:+: s
  key : ∀ cs, ':' :: cs <:+ s → endsWord cs = false
  trimmed : ∀ c, s.getLast? = some c → isBlank c = false

/-- And so does a plain scalar. -/
theorem oneLine_of_plain {s : List Char} (h : Plain s) : Lines.OneLine isBreak s :=
  oneLine_of_forall (by decide) (by decide) h.text

/-- What `scanPlain` asks of a line it takes whole. -/
structure Run (prev : Char) (l : List Char) : Prop where
  text : ∀ c ∈ l, isText c = true
  comment : ∀ b, isBlank b = true → ¬ [b, '#'] <:+: prev :: l
  key : ∀ cs, ':' :: cs <:+ l → endsWord cs = false

theorem run_nil (prev : Char) : Run prev [] where
  text := by simp
  comment := by
    intro b hb hin
    have hlen := hin.length_le
    simp at hlen
  key := by simp

theorem run_cons {prev c : Char} {cs : List Char} :
    Run prev (c :: cs) ↔
      isText c = true ∧ ¬ (c = '#' ∧ isBlank prev = true) ∧ ¬ (c = ':' ∧ endsWord cs = true) ∧
        Run c cs := by
  constructor
  · intro h
    refine ⟨h.text c (by simp), ?_, ?_, fun d hd => h.text d (by simp [hd]), ?_, ?_⟩
    · intro hc
      refine h.comment prev hc.2 (List.IsPrefix.isInfix ?_)
      rw [hc.1]
      exact ⟨cs, rfl⟩
    · intro hc
      have hend := h.key cs (by rw [hc.1])
      rw [hc.2] at hend
      cases hend
    · intro b hb hin
      exact h.comment b hb (List.infix_cons hin)
    · intro ds hds
      exact h.key ds (List.suffix_cons_iff.2 (.inr hds))
  · intro h
    obtain ⟨htext, hcomment, hkey, hrun⟩ := h
    refine ⟨?_, ?_, ?_⟩
    · intro d hd
      rcases List.mem_cons.1 hd with hd | hd
      · rw [hd]
        exact htext
      · exact hrun.text d hd
    · intro b hb hin
      rcases List.infix_cons_iff.1 hin with hpre | hin
      · obtain ⟨hbp, hpre⟩ := List.cons_prefix_cons.1 hpre
        exact hcomment ⟨(List.cons_prefix_cons.1 hpre).1.symm, hbp ▸ hb⟩
      · exact hrun.comment b hb hin
    · intro ds hds
      rcases List.suffix_cons_iff.1 hds with heq | hds
      · obtain ⟨hc, hcs⟩ := List.cons.inj heq
        cases hend : endsWord ds with
        | false => rfl
        | true => exact absurd ⟨hc.symm, hcs ▸ hend⟩ hkey
      · exact hrun.key ds hds

theorem scanPlain_sound {prev : Char} {l v : List Char} (h : scanPlain prev l = some v) :
    v.length ≤ l.length ∧ (v.length = l.length → v = l ∧ Run prev l) := by
  induction l generalizing prev v with
  | nil =>
    cases h
    exact ⟨Nat.le_refl _, fun _ => ⟨rfl, run_nil prev⟩⟩
  | cons c cs ih =>
    unfold scanPlain at h
    split at h
    · cases h
    rename_i htext
    split at h
    · obtain ⟨-, hv⟩ := Option.ite_none_right_eq_some.1 h
      cases hv
      simp
    rename_i hcomment
    split at h
    · cases h
    rename_i hkey
    obtain ⟨v', hv', hv⟩ := Option.map_eq_some_iff.1 h
    obtain ⟨hlen, hrun⟩ := ih hv'
    rw [← hv]
    refine ⟨by simpa using hlen, fun heq => ?_⟩
    obtain ⟨hvcs, hr⟩ := hrun (by simpa using heq)
    exact ⟨by rw [hvcs], run_cons.2 ⟨by simpa using htext, hcomment, hkey, hr⟩⟩

theorem scanPlain_run {prev : Char} {l : List Char} (h : Run prev l) :
    scanPlain prev l = some l := by
  induction l generalizing prev with
  | nil => rfl
  | cons c cs ih =>
    obtain ⟨htext, hcomment, hkey, hrun⟩ := run_cons.1 h
    unfold scanPlain
    rw [if_neg (by simp [htext]), if_neg hcomment, if_neg hkey, ih hrun]
    rfl

/-- A plain scalar starts with no blank, no comment and no quote. -/
theorem startsPlain_cons {c : Char} {cs : List Char} (h : startsPlain (c :: cs) = true) :
    isBlank c = false ∧ c ≠ '#' ∧ c ≠ '"' := by
  refine ⟨?_, ?_, ?_⟩
  · simp only [startsPlain, Bool.and_eq_true, Bool.not_eq_true'] at h
    exact h.1
  · intro hc
    rw [hc] at h
    cases cs <;> simp [startsPlain, isIndicator] at h
  · intro hc
    rw [hc] at h
    cases cs <;> simp [startsPlain, isIndicator] at h

theorem rdropWhile_eq_self {l : List Char} :
    l.rdropWhile isBlank = l ↔ ∀ c, l.getLast? = some c → isBlank c = false := by
  rw [List.rdropWhile_eq_self_iff]
  constructor
  · intro h c hc
    obtain ⟨hne, hlast⟩ := List.mem_getLast?_eq_getLast hc
    rw [hlast]
    simpa using h hne
  · intro h hne
    simp [h _ (List.getLast?_eq_some_getLast hne)]

/-- A plain scalar is at most as long as what it is written with, and as long
only where both are the same `Plain` string. -/
theorem readPlain_sound {l v : List Char} (h : readPlain l = some v) :
    v.length ≤ l.length ∧ (v.length = l.length → v = l ∧ Plain l) := by
  unfold readPlain at h
  obtain ⟨hstart, h⟩ := Option.ite_none_right_eq_some.1 h
  obtain ⟨u, hu, hv⟩ := Option.map_eq_some_iff.1 h
  obtain ⟨hlen, hrun⟩ := scanPlain_sound hu
  have hpre : v <+: u := hv ▸ List.rdropWhile_prefix isBlank u
  refine ⟨Nat.le_trans hpre.length_le hlen, fun heq => ?_⟩
  have hvu : v = u := hpre.eq_of_length_le (by omega)
  obtain ⟨hul, hr⟩ := hrun (by rw [← hvu, heq])
  rw [hul] at hvu hv
  refine ⟨hvu, hstart, hr.text, ?_, hr.key, rdropWhile_eq_self.1 (by rw [hv, hvu])⟩
  intro b hb hin
  exact hr.comment b hb (List.infix_cons hin)

theorem readPlain_plain {l : List Char} (h : Plain l) : readPlain l = some l := by
  have hrun : Run ' ' l := by
    refine ⟨h.text, ?_, h.key⟩
    intro b hb hin
    rcases List.infix_cons_iff.1 hin with hpre | hin
    · obtain ⟨-, hpre⟩ := List.cons_prefix_cons.1 hpre
      cases l with
      | nil => simp at hpre
      | cons c cs =>
        exact (startsPlain_cons h.starts).2.1 (List.cons_prefix_cons.1 hpre).1.symm
    · exact h.comment b hb hin
  unfold readPlain
  rw [if_pos h.starts, scanPlain_run hrun, Option.map_some, rdropWhile_eq_self.2 h.trimmed]

/-! ## One line -/

/-- The tags of the schemas in use. -/
inductive Tag where
  | str | null | bool | int | float
  deriving DecidableEq, Repr

structure Scalar where
  tag : Tag
  content : List Char
  deriving DecidableEq, Repr

def isDigits (l : List Char) : Bool := l != [] && l.all Char.isDigit

/-- Past a sign. -/
def unsigned (l : List Char) : List Char :=
  match l with
  | '+' :: cs => cs
  | '-' :: cs => cs
  | l => l

def isInt (l : List Char) : Bool :=
  match l with
  | '0' :: 'o' :: cs => cs != [] && cs.all fun c => '0' ≤ c ∧ c ≤ '7'
  | '0' :: 'x' :: cs => cs != [] && cs.all fun c => ((Numeral.digitOf c).getD 16) < 16
  | l => isDigits (unsigned l)

/-- Nothing, or an exponent. -/
def isExponent (l : List Char) : Bool :=
  match l with
  | [] => true
  | 'e' :: cs => isDigits (unsigned cs)
  | 'E' :: cs => isDigits (unsigned cs)
  | _ => false

def isFloat (l : List Char) : Bool :=
  let whole := (unsigned l).takeWhile Char.isDigit
  match (unsigned l).dropWhile Char.isDigit with
  | '.' :: cs =>
    ((whole != [] || cs.takeWhile Char.isDigit != []) && isExponent (cs.dropWhile Char.isDigit)) ||
      (unsigned l) ∈ [".inf".toList, ".Inf".toList, ".INF".toList] ||
      l ∈ [".nan".toList, ".NaN".toList, ".NAN".toList]
  | cs => whole != [] && isExponent cs

/-- The tag the core schema gives a plain scalar. -/
def core (l : List Char) : Tag :=
  if l ∈ [[], ['~'], "null".toList, "Null".toList, "NULL".toList] then .null
  else if l ∈ ["true".toList, "True".toList, "TRUE".toList, "false".toList, "False".toList,
    "FALSE".toList] then .bool
  else if isInt l then .int
  else if isFloat l then .float
  else .str

/-- What a line adds to a document: a key, the column it stands in, whether a
dash stands before it, and its value if that is on the line. -/
structure Entry where
  column : Nat
  dash : Bool
  key : List Char
  value : Option Scalar
  deriving DecidableEq, Repr

variable {resolve : List Char → Tag}

/-- Nothing but blanks and a comment is left of the line. -/
def atEnd (l : List Char) : Bool :=
  match l with
  | [] => true
  | c :: cs =>
    isBlank c && match cs.dropWhile isBlank with
      | [] => true
      | '#' :: r => r.all isText
      | _ => false

/-- The scalar behind a key and its colon, if there is one. -/
def scalar (resolve : List Char → Tag) (l : List Char) : Option (Option Scalar) :=
  match l.dropWhile isBlank with
  | [] => some none
  | '#' :: r => if r.all isText then some none else none
  | '"' :: r =>
    match Literal.read dialect r with
    | some (s, r) => if atEnd r then some (some ⟨.str, s⟩) else none
    | none => none
  | r => (readPlain r).map fun s => some ⟨resolve s, s⟩

theorem scalar_quote (w : List Char) :
    scalar resolve (' ' :: '"' :: w) =
      (Literal.read dialect w).bind fun p => if atEnd p.2 then some (some ⟨.str, p.1⟩) else none := by
  show (match Literal.read dialect w with
    | some (s, r) => if atEnd r then some (some (Scalar.mk .str s)) else none
    | none => none) = _
  cases Literal.read dialect w <;> rfl

/-- A quoted value that has been read is a literal that has been read. -/
theorem scalar_literal {w : List Char} {v : Option Scalar}
    (h : scalar resolve (' ' :: '"' :: w) = some v) :
    ∃ s r, Literal.read dialect w = some (s, r) ∧ v = some ⟨.str, s⟩ := by
  rw [scalar_quote] at h
  obtain ⟨⟨s, r⟩, hr, h⟩ := Option.bind_eq_some_iff.1 h
  obtain ⟨-, hv⟩ := Option.ite_none_right_eq_some.1 h
  exact ⟨s, r, hr, (Option.some.inj hv).symm⟩

theorem scalar_clean {s : List Char} (h : Literal.Clean dialect s) :
    scalar resolve (' ' :: '"' :: (s ++ ['"'])) = some (some ⟨.str, s⟩) := by
  rw [scalar_quote, Literal.read_clean h]
  rfl

/-- Plain strings are their own values. -/
theorem scalar_plain {s : List Char} (h : Plain s) :
    scalar resolve (' ' :: s) = some (some ⟨resolve s, s⟩) := by
  have hread := readPlain_plain h
  have hstart := h.starts
  cases s with
  | nil => cases hstart
  | cons c cs =>
    obtain ⟨hblank, hhash, hquote⟩ := startsPlain_cons hstart
    have hdrop : (' ' :: c :: cs).dropWhile isBlank = c :: cs := by
      simp [hblank, show isBlank ' ' = true by decide]
    unfold scalar
    rw [hdrop]
    split
    · rename_i heq
      cases heq
    · rename_i heq
      exact absurd (List.cons.inj heq).1 hhash
    · rename_i heq
      exact absurd (List.cons.inj heq).1 hquote
    · rw [hread]
      rfl

/-- **Splicing a string in as the value of a key.** What is read back as the
string itself from a beginning of it is a plain string. -/
theorem scalar_spliced {s w : List Char} {t : Tag} (hw : w <+: s)
    (h : scalar resolve (' ' :: w) = some (some ⟨t, s⟩)) : Plain s ∧ resolve s = t := by
  have hdrop : (' ' :: w).dropWhile isBlank = w.dropWhile isBlank := rfl
  have hle : (w.dropWhile isBlank).length ≤ s.length :=
    Nat.le_trans (List.dropWhile_suffix isBlank).length_le hw.length_le
  unfold scalar at h
  rw [hdrop] at h
  split at h
  · cases h
  · split at h <;> cases h
  · rename_i r heq
    -- between quotes the string would be longer than what it is read from
    split at h
    · rename_i v r' hr
      obtain ⟨-, hv⟩ := Option.ite_none_right_eq_some.1 h
      cases hv
      obtain ⟨raw, hraw, hlen, -⟩ := Literal.read_sound hr
      rw [heq, hraw] at hle
      simp only [List.length_cons, List.length_append] at hle
      omega
    · cases h
  · obtain ⟨v, hv, hs⟩ := Option.map_eq_some_iff.1 h
    cases hs
    obtain ⟨hlen, hplain⟩ := readPlain_sound hv
    obtain ⟨heq, hp⟩ := hplain (by omega)
    rw [← heq] at hp
    exact ⟨hp, rfl⟩

def isKey (c : Char) : Bool := c.isAlphanum ∨ c = '_'

/-- A line from its key on. -/
def entry (resolve : List Char → Tag) (column : Nat) (dash : Bool) (l : List Char) :
    Option Entry :=
  match l.dropWhile isKey with
  | ':' :: r =>
    if endsWord r && l.takeWhile isKey != [] then
      (scalar resolve r).map fun v => ⟨column, dash, l.takeWhile isKey, v⟩
    else none
  | _ => none

/-- One line of a document. -/
def item (resolve : List Char → Tag) (l : List Char) : Option (Option Entry) :=
  match l.dropWhile (· == ' ') with
  | [] => some none
  | '#' :: r => if r.all isText then some none else none
  | '-' :: ' ' :: r => (entry resolve ((l.takeWhile (· == ' ')).length + 2) true r).map some
  | r => (entry resolve (l.takeWhile (· == ' ')).length false r).map some

/-! ## A document -/

/-- The value of an entry of a mapping. -/
inductive Field where
  | scalar (s : Scalar)
  | null
  | mapping (entries : List (List Char × Option Scalar))
  deriving DecidableEq, Repr

/-- What has been read from the last line up: the entries whose key is still to
come, the entries whose dash is, and the mappings after them. -/
structure Tail where
  nested : List (List Char × Option Scalar)
  fields : List (List Char × Field)
  mappings : List (List (List Char × Field))

/-- A value on the line of its key, or the entries below it. -/
def field (v : Option Scalar) (nested : List (List Char × Option Scalar)) : Option Field :=
  match v, nested with
  | some s, [] => some (.scalar s)
  | none, [] => some .null
  | none, _ :: _ => some (.mapping nested)
  | some _, _ :: _ => none

/-- Mappings stand in column 2, behind the dash, and the ones inside them in
column 4. -/
def attach (e : Entry) (t : Tail) : Option Tail :=
  match e.column, e.dash with
  | 4, false => some { t with nested := (e.key, e.value) :: t.nested }
  | 2, dash =>
    (field e.value t.nested).map fun f =>
      if dash then ⟨[], [], ((e.key, f) :: t.fields) :: t.mappings⟩
      else ⟨[], (e.key, f) :: t.fields, t.mappings⟩
  | _, _ => none

def readEntries (resolve : List Char → Tag) (text : List Char) : Option (List Entry) :=
  Lines.read isBreak (item resolve) text

theorem readEntries_append (xs ys : List Char) :
    readEntries resolve (xs ++ '\n' :: ys) =
      (readEntries resolve xs).bind fun es => (readEntries resolve ys).map (es ++ ·) :=
  Lines.read_append_cons rfl

/-- The mappings of a document. -/
def readMappings (resolve : List Char → Tag) (text : List Char) :
    Option (List (List (List Char × Field))) :=
  match (readEntries resolve text).bind (Lines.assemble attach ⟨[], [], []⟩) with
  | some ⟨[], [], ms⟩ => some ms
  | _ => none

def nestedEntries (es : List (List Char × Option Scalar)) : List Entry :=
  es.map fun e => ⟨4, false, e.1, e.2⟩

def fieldEntries (dash : Bool) (f : List Char × Field) : List Entry :=
  match f.2 with
  | .scalar s => [⟨2, dash, f.1, some s⟩]
  | .null => [⟨2, dash, f.1, none⟩]
  | .mapping es => ⟨2, dash, f.1, none⟩ :: nestedEntries es

/-- The lines of a mapping. -/
def mappingEntries (m : List (List Char × Field)) : List Entry :=
  match m with
  | [] => []
  | f :: fs => fieldEntries true f ++ fs.flatMap (fieldEntries false)

def Tail.entries (t : Tail) : List Entry :=
  nestedEntries t.nested ++ t.fields.flatMap (fieldEntries false) ++
    t.mappings.flatMap mappingEntries

theorem field_entries {v : Option Scalar} {nested : List (List Char × Option Scalar)} {f : Field}
    (h : field v nested = some f) (dash : Bool) (key : List Char) :
    fieldEntries dash (key, f) = ⟨2, dash, key, v⟩ :: nestedEntries nested := by
  cases v <;> cases nested <;> cases h <;> rfl

theorem attach_entries (e : Entry) (t t' : Tail) (h : attach e t = some t') :
    t'.entries = e :: t.entries := by
  obtain ⟨column, dash, key, v⟩ := e
  unfold attach at h
  split at h
  · rename_i hcol hdash
    cases h
    simp only at hcol hdash
    rw [hcol, hdash]
    rfl
  · rename_i hcol
    obtain ⟨f, hf, ht⟩ := Option.map_eq_some_iff.1 h
    simp only at hcol hf ht
    have hentries := field_entries hf dash key
    cases dash <;> cases ht <;>
      simp [Tail.entries, mappingEntries, hentries, hcol, show nestedEntries [] = [] from rfl]
  · cases h

/-- A document is read entry by entry. -/
theorem readMappings_entries {text : List Char} {ms : List (List (List Char × Field))}
    (h : readMappings resolve text = some ms) :
    readEntries resolve text = some (ms.flatMap mappingEntries) := by
  unfold readMappings at h
  split at h
  · rename_i ms' hms
    cases h
    obtain ⟨es, hes, hasm⟩ := Option.bind_eq_some_iff.1 hms
    rw [hes]
    exact congrArg some (Lines.assemble_flatten rfl attach_entries hasm).symm
  · cases h

end Yaml
