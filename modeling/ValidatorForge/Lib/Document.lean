import ValidatorForge.Lib.Literal

/-!
# JSON documents as they are written

A document of numbers, strings and objects, and its compact text (`write`): no
blanks, members in their order, numbers in decimal, strings with the escapes that a
JSON string needs and no others.

* `write_append_inj`: where one document ends and what follows it begins can be told
  from the text, if what follows does not begin with a digit.
* `write_injective`: so no two documents are written alike.
-/
namespace Json

mutual
inductive Doc where
  | nat (n : Nat)
  | str (s : String)
  | obj (members : Members)
inductive Members where
  | nil
  | cons (key : String) (value : Doc) (members : Members)
end

/-- An object, its members in their order. -/
def Doc.ofList (members : List (String × Doc)) : Doc :=
  .obj (members.foldr (fun m => .cons m.1 m.2) .nil)

/-! ## Numbers -/

def decimal (n : Nat) : List Char :=
  if n < 10 then [Nat.digitChar n] else decimal (n / 10) ++ [Nat.digitChar (n % 10)]

/-- The value of a run of digits. -/
def value (ds : List Char) : Nat := ds.foldl (fun acc c => 10 * acc + (c.toNat - 48)) 0

theorem digitChar_lt_ten {d : Nat} (h : d < 10) :
    (Nat.digitChar d).isDigit = true ∧ (Nat.digitChar d).toNat - 48 = d := by
  have hall : ∀ d < 10, (Nat.digitChar d).isDigit = true ∧ (Nat.digitChar d).toNat - 48 = d := by
    decide
  exact hall d h

theorem value_decimal (n : Nat) : value (decimal n) = n := by
  induction n using Nat.strongRecOn with
  | ind n ih =>
    rw [decimal]
    by_cases hn : n < 10
    · rw [if_pos hn]
      simpa [value] using (digitChar_lt_ten hn).2
    · have hrest := ih (n / 10) (by omega)
      have hlast := (digitChar_lt_ten (Nat.mod_lt n (by decide : 0 < 10))).2
      unfold value at hrest ⊢
      rw [if_neg hn, List.foldl_append, hrest]
      simp only [List.foldl_cons, List.foldl_nil, hlast]
      omega

theorem isDigit_of_mem_decimal {n : Nat} : ∀ c ∈ decimal n, c.isDigit = true := by
  induction n using Nat.strongRecOn with
  | ind n ih =>
    rw [decimal]
    by_cases hn : n < 10
    · rw [if_pos hn]
      simpa using (digitChar_lt_ten hn).1
    · rw [if_neg hn]
      intro c hc
      rcases List.mem_append.1 hc with hc | hc
      · exact ih (n / 10) (by omega) c hc
      · rw [List.mem_singleton.1 hc]
        exact (digitChar_lt_ten (Nat.mod_lt n (by decide))).1

theorem decimal_ne_nil (n : Nat) : decimal n ≠ [] := by
  rw [decimal]
  split <;> simp

/-- What follows does not begin with a digit. -/
def Apart (r : List Char) : Prop := ∀ c, r.head? = some c → c.isDigit = false

theorem takeWhile_decimal {n : Nat} {r : List Char} (hr : Apart r) :
    (decimal n ++ r).takeWhile Char.isDigit = decimal n := by
  rw [List.takeWhile_append_of_pos isDigit_of_mem_decimal]
  cases r with
  | nil => simp
  | cons c r => simp [hr c rfl]

theorem decimal_append_inj {m n : Nat} {r r' : List Char} (hr : Apart r) (hr' : Apart r')
    (h : decimal m ++ r = decimal n ++ r') : m = n ∧ r = r' := by
  have hdigits : decimal m = decimal n := by
    rw [← takeWhile_decimal hr, h, takeWhile_decimal hr']
  rw [hdigits] at h
  have hvalue := congrArg value hdigits
  rw [value_decimal, value_decimal] at hvalue
  exact ⟨hvalue, List.append_cancel_left h⟩

/-! ## Strings -/

def escape (c : Char) : List Char :=
  if c = '"' then ['\\', '"']
  else if c = '\\' then ['\\', '\\']
  else if c = '\x08' then ['\\', 'b']
  else if c = '\x0c' then ['\\', 'f']
  else if c = '\n' then ['\\', 'n']
  else if c = '\r' then ['\\', 'r']
  else if c = '\t' then ['\\', 't']
  else if c.toNat < 32 then
    ['\\', 'u', '0', '0', Nat.digitChar (c.toNat / 16), Nat.digitChar (c.toNat % 16)]
  else [c]

def quote (s : String) : List Char := '"' :: (s.toList.flatMap escape ++ ['"'])

/-- JSON's string literals. -/
def dialect : Literal.Dialect where
  simple
    | '"' => some '"'
    | '\\' => some '\\'
    | '/' => some '/'
    | 'b' => some '\x08'
    | 'f' => some '\x0c'
    | 'n' => some '\n'
    | 'r' => some '\r'
    | 't' => some '\t'
    | _ => none
  hex
    | 'u' => some 4
    | _ => none
  raw c := 32 ≤ c.toNat
  marker _ := false

/-- An escaped character is read as the character. -/
theorem readFrom_escape (c : Char) (cs : List Char) :
    Literal.readFrom dialect .text (escape c ++ cs) =
      (Literal.readFrom dialect .text cs).map fun p => (c :: p.1, p.2) := by
  unfold escape
  by_cases h₁ : c = '"'
  · subst h₁
    simp [Literal.readFrom, dialect]
  by_cases h₂ : c = '\\'
  · subst h₂
    simp [Literal.readFrom, dialect]
  by_cases h₃ : c = '\x08'
  · subst h₃
    simp [Literal.readFrom, dialect]
  by_cases h₄ : c = '\x0c'
  · subst h₄
    simp [Literal.readFrom, dialect]
  by_cases h₅ : c = '\n'
  · subst h₅
    simp [Literal.readFrom, dialect]
  by_cases h₆ : c = '\r'
  · subst h₆
    simp [Literal.readFrom, dialect]
  by_cases h₇ : c = '\t'
  · subst h₇
    simp [Literal.readFrom, dialect]
  simp only [h₁, h₂, h₃, h₄, h₅, h₆, h₇, if_false]
  by_cases hlow : c.toNat < 32
  · rw [if_pos hlow]
    have hhigh := Numeral.digitOf_digitChar (d := c.toNat / 16) (by omega)
    have hunit := Numeral.digitOf_digitChar (d := c.toNat % 16) (by omega)
    have hzero : Numeral.digitOf '0' = some 0 := by decide
    have hsum : 16 * (c.toNat / 16) + c.toNat % 16 = c.toNat := by omega
    have hsmall : ¬ 16 ≤ c.toNat / 16 ∧ ¬ 16 ≤ c.toNat % 16 := by omega
    have hvalid : (c.toNat).isValidChar := c.valid
    simp [Literal.readFrom, dialect, hzero, hhigh, hunit, hsmall, hsum, hvalid]
  · have hraw : 32 ≤ c.toNat := by omega
    rw [if_neg hlow]
    simp [Literal.readFrom, h₁, h₂, dialect, hraw]

theorem read_quote (s : String) (r : List Char) :
    Literal.read dialect (s.toList.flatMap escape ++ '"' :: r) = some (s.toList, r) := by
  unfold Literal.read
  generalize s.toList = cs
  induction cs with
  | nil => simp [Literal.readFrom]
  | cons c cs ih =>
    rw [List.flatMap_cons, List.append_assoc, readFrom_escape, ih]
    rfl

theorem quote_append_inj {s t : String} {r r' : List Char} (h : quote s ++ r = quote t ++ r') :
    s = t ∧ r = r' := by
  unfold quote at h
  simp only [List.cons_append, List.append_assoc, List.nil_append, List.cons.injEq,
    true_and] at h
  have hread := read_quote s r
  rw [h, read_quote] at hread
  simp only [Option.some.injEq, Prod.mk.injEq] at hread
  exact ⟨String.toList_inj.1 hread.1.symm, hread.2.symm⟩

/-! ## Documents -/

mutual
def Doc.write : Doc → List Char
  | .nat n => decimal n
  | .str s => quote s
  | .obj .nil => ['\x7b', '\x7d']
  | .obj (.cons key value members) =>
    '\x7b' :: (quote key ++ ':' :: (value.write ++ members.write))
/-- The members after the first. -/
def Members.write : Members → List Char
  | .nil => ['\x7d']
  | .cons key value members => ',' :: (quote key ++ ':' :: (value.write ++ members.write))
end

inductive Kind where
  | number | string | object
  deriving DecidableEq

def Doc.kind : Doc → Kind
  | .nat _ => .number
  | .str _ => .string
  | .obj _ => .object

/-- The kind of a document that begins so. -/
def kindOf (c : Char) : Kind := if c = '"' then .string else if c = '\x7b' then .object else .number

theorem kindOf_write (d : Doc) : ∃ c cs, d.write = c :: cs ∧ kindOf c = d.kind := by
  cases d with
  | nat n =>
    cases hd : decimal n with
    | nil => exact absurd hd (decimal_ne_nil n)
    | cons c cs =>
      have hc : c.isDigit = true := isDigit_of_mem_decimal (n := n) c (by simp [hd])
      refine ⟨c, cs, hd, ?_⟩
      unfold kindOf
      rw [if_neg, if_neg]
      · rfl
      · intro hbrace
        rw [hbrace] at hc
        cases hc
      · intro hquote
        rw [hquote] at hc
        cases hc
  | str s => exact ⟨'"', _, rfl, rfl⟩
  | obj ms => cases ms <;> exact ⟨'\x7b', _, rfl, rfl⟩

theorem kind_eq {d d' : Doc} {r r' : List Char} (h : d.write ++ r = d'.write ++ r') :
    d.kind = d'.kind := by
  obtain ⟨c, cs, hd, hc⟩ := kindOf_write d
  obtain ⟨c', cs', hd', hc'⟩ := kindOf_write d'
  rw [hd, hd'] at h
  simp only [List.cons_append, List.cons.injEq] at h
  rw [← hc, ← hc', h.1]

theorem apart_cons {c : Char} (h : c.isDigit = false) (r : List Char) : Apart (c :: r) := by
  intro d hd
  cases hd
  exact h

/-- After a value there is a comma or a brace. -/
theorem apart_write (ms : Members) (r : List Char) : Apart (ms.write ++ r) := by
  cases ms with
  | nil => exact apart_cons (by decide) _
  | cons key v ms => exact apart_cons (by decide) _

mutual
/-- **Where a document ends.** -/
theorem write_append_inj : (d d' : Doc) → {r r' : List Char} → Apart r → Apart r' →
    d.write ++ r = d'.write ++ r' → d = d' ∧ r = r'
  | .nat m, .nat n, _, _, hr, hr', h => by
    obtain ⟨rfl, hrest⟩ := decimal_append_inj hr hr' h
    exact ⟨rfl, hrest⟩
  | .str s, .str t, _, _, _, _, h => by
    obtain ⟨rfl, hrest⟩ := quote_append_inj h
    exact ⟨rfl, hrest⟩
  | .obj .nil, .obj .nil, _, _, _, _, h => by
    simpa [Doc.write] using h
  | .obj (.cons k v ms), .obj (.cons k' v' ms'), _, _, _, _, h => by
    simp only [Doc.write, List.cons_append, List.append_assoc, List.cons.injEq, true_and] at h
    obtain ⟨rfl, hvalue⟩ := quote_append_inj h
    simp only [List.cons.injEq, true_and] at hvalue
    obtain ⟨rfl, htail⟩ := write_append_inj v v' (apart_write ms _) (apart_write ms' _) hvalue
    obtain ⟨rfl, hrest⟩ := members_append_inj ms ms' htail
    exact ⟨rfl, hrest⟩
  | .obj .nil, .obj (.cons k v ms), _, _, _, _, h => by
    simp [Doc.write, quote] at h
  | .obj (.cons k v ms), .obj .nil, _, _, _, _, h => by
    simp [Doc.write, quote] at h
  | .nat _, .str _, _, _, _, _, h | .nat _, .obj _, _, _, _, _, h
  | .str _, .nat _, _, _, _, _, h | .str _, .obj _, _, _, _, _, h
  | .obj _, .nat _, _, _, _, _, h | .obj _, .str _, _, _, _, _, h => by
    cases kind_eq h
theorem members_append_inj : (ms ms' : Members) → {r r' : List Char} →
    ms.write ++ r = ms'.write ++ r' → ms = ms' ∧ r = r'
  | .nil, .nil, _, _, h => by
    simpa [Members.write] using h
  | .cons k v ms, .cons k' v' ms', _, _, h => by
    simp only [Members.write, List.cons_append, List.append_assoc, List.cons.injEq, true_and] at h
    obtain ⟨rfl, hvalue⟩ := quote_append_inj h
    simp only [List.cons.injEq, true_and] at hvalue
    obtain ⟨rfl, htail⟩ := write_append_inj v v' (apart_write ms _) (apart_write ms' _) hvalue
    obtain ⟨rfl, hrest⟩ := members_append_inj ms ms' htail
    exact ⟨rfl, hrest⟩
  | .nil, .cons k v ms, _, _, h => by
    simp [Members.write] at h
  | .cons k v ms, .nil, _, _, h => by
    simp [Members.write] at h
end

/-- **No two documents are written alike.** -/
theorem write_injective {d d' : Doc} (h : d.write = d'.write) : d = d' := by
  have happend : d.write ++ [] = d'.write ++ [] := by rw [h]
  have hapart : Apart [] := by
    intro c hc
    cases hc
  exact (write_append_inj d d' hapart hapart happend).1

end Json
