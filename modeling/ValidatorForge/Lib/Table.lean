import Mathlib.Data.List.Dedup
import Mathlib.Data.List.Sort

/-!
# Keyed tables and their newest rows

A table is a list of rows, no two with the same key; the order of the rows
means nothing. `upsert` writes one row: it changes the row with the same key, or
adds one (`mem_upsert`, `nodup_upsert`).

`Holds key written vals`: the values `vals` are the last ones `written` under each
key; every upsert keeps it (`Holds.upsert`), and it determines what a read may
answer (`Holds.fetch`) and the table up to order (`Holds.perm`).

`Top key limit rows l`: `l` lists the `limit` rows with the largest keys, largest
first, ties in any order. `Top` is what sorting and cutting computes
(`top_take`) and it determines the result up to ties: the keys listed
(`Top.keys_eq`), and every row above the last one listed (`Top.mem_of_lt`).
-/
namespace Table

section Upsert
variable {ρ κ : Type} [DecidableEq κ] (key : ρ → κ) (merge : ρ → ρ → ρ)

/-- Merge `row` into the row with its key, or add it. -/
def upsert (row : ρ) : List ρ → List ρ
  | [] => [row]
  | r :: rs => if key r = key row then merge r row :: rs else r :: upsert row rs

variable {key merge} {row : ρ} {rows : List ρ}

variable (key merge) in
/-- Either no row has the key and `row` is added, or one has and is merged. -/
theorem upsert_cases (row : ρ) (rows : List ρ) :
    (∀ r ∈ rows, key r ≠ key row) ∧ upsert key merge row rows = rows ++ [row] ∨
    ∃ l₁ old l₂, rows = l₁ ++ old :: l₂ ∧ key old = key row ∧
      upsert key merge row rows = l₁ ++ merge old row :: l₂ := by
  induction rows with
  | nil => exact .inl ⟨by simp, rfl⟩
  | cons r rows ih =>
    by_cases hr : key r = key row
    · exact .inr ⟨[], r, rows, rfl, hr, by simp [upsert, hr]⟩
    · rcases ih with ⟨hnew, hadd⟩ | ⟨l₁, old, l₂, rfl, hold, hmerge⟩
      · refine .inl ⟨?_, by simp [upsert, hr, hadd]⟩
        intro x hx
        rcases List.mem_cons.1 hx with rfl | hx
        · exact hr
        · exact hnew x hx
      · exact .inr ⟨r :: l₁, old, l₂, rfl, hold, by simp [upsert, hr, hmerge]⟩

theorem nodup_upsert (hkey : ∀ old, key old = key row → key (merge old row) = key row)
    (h : (rows.map key).Nodup) : ((upsert key merge row rows).map key).Nodup := by
  rcases upsert_cases key merge row rows with
    ⟨hnew, hadd⟩ | ⟨l₁, old, l₂, rfl, hold, hmerge⟩
  · rw [hadd, List.map_append, List.nodup_append]
    refine ⟨h, by simp, ?_⟩
    intro a ha b hb
    obtain ⟨r, hr, rfl⟩ := List.mem_map.1 ha
    have hrow : b = key row := by simpa using hb
    rw [hrow]
    exact hnew r hr
  · rw [hmerge]
    rw [List.map_append, List.map_cons] at h ⊢
    rw [hkey old hold, ← hold]
    exact h

/-- What is in the table afterwards: what had another key, and the written row. -/
theorem mem_upsert (h : (rows.map key).Nodup) {x : ρ} :
    x ∈ upsert key merge row rows ↔
      x ∈ rows ∧ key x ≠ key row ∨
      (∀ r ∈ rows, key r ≠ key row) ∧ x = row ∨
      ∃ old ∈ rows, key old = key row ∧ x = merge old row := by
  rcases upsert_cases key merge row rows with
    ⟨hnew, hadd⟩ | ⟨l₁, old, l₂, rfl, hold, hmerge⟩
  · rw [hadd, List.mem_append, List.mem_singleton]
    refine ⟨?_, ?_⟩
    · intro hx
      rcases hx with hx | hx
      · exact .inl ⟨hx, hnew x hx⟩
      · exact .inr (.inl ⟨hnew, hx⟩)
    · intro hx
      rcases hx with hx | hx | ⟨old, hmem, hk, -⟩
      · exact .inl hx.1
      · exact .inr hx.2
      · exact absurd hk (hnew old hmem)
  · rw [List.map_append, List.map_cons, List.nodup_middle, List.nodup_cons] at h
    have hother : ∀ r ∈ l₁ ++ l₂, key r ≠ key row := by
      intro r hr hk
      rw [← List.map_append] at h
      exact h.1 (List.mem_map.2 ⟨r, hr, hk.trans hold.symm⟩)
    have hmem : ∀ y, y ∈ l₁ ++ old :: l₂ ↔ y = old ∨ y ∈ l₁ ++ l₂ := by
      intro y
      simp only [List.mem_append, List.mem_cons]
      tauto
    have hold_mem : old ∈ l₁ ++ old :: l₂ := (hmem old).2 (.inl rfl)
    have huniq : ∀ y ∈ l₁ ++ old :: l₂, key y = key row → y = old := by
      intro y hy hk
      exact ((hmem y).1 hy).resolve_right fun hy => hother y hy hk
    rw [hmerge]
    refine ⟨?_, ?_⟩
    · intro hx
      have hx' : x = merge old row ∨ x ∈ l₁ ++ l₂ := by
        simp only [List.mem_append, List.mem_cons] at hx ⊢
        tauto
      rcases hx' with hx | hx
      · exact .inr (.inr ⟨old, hold_mem, hold, hx⟩)
      · exact .inl ⟨(hmem x).2 (.inr hx), hother x hx⟩
    · intro hx
      have hx' : x = merge old row ∨ x ∈ l₁ ++ l₂ := by
        rcases hx with ⟨hx, hk⟩ | ⟨hall, -⟩ | ⟨o, ho, hk, hx⟩
        · rcases (hmem x).1 hx with rfl | hx
          · exact absurd hold hk
          · exact .inr hx
        · exact absurd hold (hall old hold_mem)
        · rw [huniq o ho hk] at hx
          exact .inl hx
      simp only [List.mem_append, List.mem_cons] at hx' ⊢
      tauto

/-- What values are in the table afterwards, where rows have the same key exactly
when their values have the same id. -/
theorem mem_map_upsert {α ν : Type} {val : ρ → α} {id : α → ν} (h : (rows.map key).Nodup)
    (hkey : ∀ r ∈ rows, key r = key row ↔ id (val r) = id (val row))
    (hval : ∀ old, val (merge old row) = val row) {x : α} :
    x ∈ (upsert key merge row rows).map val ↔
      x = val row ∨ x ∈ rows.map val ∧ id x ≠ id (val row) := by
  rw [List.mem_map]
  refine ⟨?_, ?_⟩
  · intro hx
    obtain ⟨r, hr, rfl⟩ := hx
    rcases (mem_upsert h).1 hr with ⟨hmem, hne⟩ | ⟨-, rfl⟩ | ⟨old, -, -, rfl⟩
    · exact .inr ⟨List.mem_map_of_mem hmem, fun hid => hne ((hkey r hmem).2 hid)⟩
    · exact .inl rfl
    · exact .inl (hval old)
  · intro hx
    rcases hx with rfl | ⟨hmem, hne⟩
    · by_cases hnew : ∀ r ∈ rows, key r ≠ key row
      · exact ⟨row, (mem_upsert h).2 (.inr (.inl ⟨hnew, rfl⟩)), rfl⟩
      · simp only [not_forall, not_not] at hnew
        obtain ⟨old, hold, hk⟩ := hnew
        exact ⟨merge old row, (mem_upsert h).2 (.inr (.inr ⟨old, hold, hk, rfl⟩)), hval old⟩
    · obtain ⟨r, hr, rfl⟩ := List.mem_map.1 hmem
      exact ⟨r, (mem_upsert h).2 (.inl ⟨hr, fun hk => hne ((hkey r hr).1 hk)⟩), rfl⟩

theorem mem_replace (h : (rows.map key).Nodup) {x : ρ} :
    x ∈ upsert key (fun _ new => new) row rows ↔ x = row ∨ x ∈ rows ∧ key x ≠ key row := by
  have hmem : x ∈ (upsert key (fun _ new => new) row rows).map (fun r => r) ↔
      x = row ∨ x ∈ rows.map (fun r => r) ∧ key x ≠ key row :=
    mem_map_upsert h (fun _ _ => Iff.rfl) fun _ => rfl
  rwa [List.map_id', List.map_id'] at hmem

/-- The values of a table are themselves a table. -/
theorem map_upsert {α ν : Type} [DecidableEq ν] {val : ρ → α} {id : α → ν}
    (hkey : ∀ r ∈ rows, key r = key row ↔ id (val r) = id (val row))
    (hval : ∀ old, val (merge old row) = val row) :
    (upsert key merge row rows).map val = upsert id (fun _ new => new) (val row) (rows.map val) := by
  induction rows with
  | nil => rfl
  | cons r rows ih =>
    have hr := hkey r List.mem_cons_self
    by_cases hk : key r = key row
    · simp [upsert, hk, hr.1 hk, hval]
    · simp [upsert, hk, mt hr.2 hk, ih fun x hx => hkey x (List.mem_cons_of_mem _ hx)]

end Upsert

/-- Any row that meets the condition, or none if there is none. -/
def Fetch {ρ : Type} (p : ρ → Prop) (rows : List ρ) (a : Option ρ) : Prop :=
  (∃ r ∈ rows, p r ∧ a = some r) ∨ (∀ r ∈ rows, ¬ p r) ∧ a = none

theorem fetch_find? {ρ : Type} (p : ρ → Prop) [DecidablePred p] (rows : List ρ) :
    Fetch p rows (rows.find? fun r => p r) := by
  cases h : rows.find? fun r => p r with
  | none =>
    refine .inr ⟨fun r hr => ?_, rfl⟩
    simpa using List.find?_eq_none.1 h r hr
  | some r => exact .inl ⟨r, List.mem_of_find?_eq_some h, by simpa using List.find?_some h, rfl⟩

theorem exists_fetch {ρ : Type} (p : ρ → Prop) (rows : List ρ) : ∃ a, Fetch p rows a := by
  classical exact ⟨_, fetch_find? p rows⟩

section Holds
variable {α ρ κ κ' : Type} [DecidableEq κ]

/-- The last value written under `k`. -/
def last (key : α → κ) (written : List α) (k : κ) : Option α :=
  (written.filter fun x => key x = k).getLast?

variable {key : α → κ} {written : List α} {vals : List α}

@[simp] theorem last_nil (k : κ) : last key [] k = none := rfl

theorem last_append (x : α) (k : κ) :
    last key (written ++ [x]) k = if key x = k then some x else last key written k := by
  unfold last
  rw [List.filter_append]
  by_cases h : key x = k
  · simp [h]
  · simp [h]

theorem key_of_last {k : κ} {x : α} (h : last key written k = some x) : key x = k := by
  simpa using (List.mem_filter.1 (List.mem_of_getLast? h)).2

theorem mem_of_last {k : κ} {x : α} (h : last key written k = some x) : x ∈ written :=
  (List.mem_filter.1 (List.mem_of_getLast? h)).1

theorem exists_last {x : α} (hx : x ∈ written) : ∃ y, last key written (key x) = some y := by
  have hmem : x ∈ written.filter fun y => key y = key x := by simp [hx]
  exact ⟨_, List.getLast?_eq_some_getLast (List.ne_nil_of_mem hmem)⟩

/-- `vals` has the last value written under each key, and nothing else. -/
structure Holds (key : α → κ) (written vals : List α) : Prop where
  nodup : (vals.map key).Nodup
  mem : ∀ x, x ∈ vals ↔ last key written (key x) = some x

theorem holds_nil : Holds key [] [] := ⟨by simp, by simp⟩

theorem Holds.perm {vals' : List α} (h : Holds key written vals) (h' : Holds key written vals') :
    vals.Perm vals' :=
  (List.perm_ext_iff_of_nodup (.of_map _ h.nodup) (.of_map _ h'.nodup)).2 fun x =>
    (h.mem x).trans (h'.mem x).symm

/-- One value for each key written. -/
theorem Holds.length (h : Holds key written vals) :
    vals.length = (written.map key).dedup.length := by
  rw [← List.length_map (f := key)]
  refine List.Perm.length_eq ((List.perm_ext_iff_of_nodup h.nodup (List.nodup_dedup _)).2 ?_)
  intro k
  rw [List.mem_dedup, List.mem_map, List.mem_map]
  refine ⟨?_, ?_⟩
  · intro hk
    obtain ⟨x, hx, rfl⟩ := hk
    exact ⟨x, mem_of_last ((h.mem x).1 hx), rfl⟩
  · intro hk
    obtain ⟨x, hx, rfl⟩ := hk
    obtain ⟨y, hy⟩ : ∃ y, last key written (key x) = some y := exists_last hx
    have hky := key_of_last hy
    exact ⟨y, (h.mem y).2 (by rw [hky]; exact hy), hky⟩

theorem Holds.replace (h : Holds key written vals) (x : α) :
    Holds key (written ++ [x]) (upsert key (fun _ new => new) x vals) := by
  refine ⟨nodup_upsert (fun _ _ => rfl) h.nodup, fun y => ?_⟩
  rw [mem_replace h.nodup, last_append]
  by_cases hk : key x = key y
  · rw [if_pos hk]
    refine ⟨?_, ?_⟩
    · intro hy
      rcases hy with rfl | ⟨-, hne⟩
      · rfl
      · exact absurd hk.symm hne
    · intro hy
      exact .inl (Option.some.inj hy).symm
  · rw [if_neg hk, ← h.mem]
    refine ⟨?_, ?_⟩
    · intro hy
      rcases hy with rfl | ⟨hmem, -⟩
      · exact absurd rfl hk
      · exact hmem
    · intro hmem
      exact .inr ⟨hmem, Ne.symm hk⟩

/-- Writing a row whose value is the written one, in place of the row with its
key. -/
theorem Holds.upsert [DecidableEq κ'] {val : ρ → α} {rowKey : ρ → κ'} {merge : ρ → ρ → ρ}
    {row : ρ} {rows : List ρ} (h : Holds key written (rows.map val))
    (hkey : ∀ r ∈ rows, rowKey r = rowKey row ↔ key (val r) = key (val row))
    (hval : ∀ old, val (merge old row) = val row) :
    Holds key (written ++ [val row]) ((upsert rowKey merge row rows).map val) := by
  rw [map_upsert hkey hval]
  exact h.replace (val row)

/-- What a read by key answers. -/
theorem Holds.fetch {val : ρ → α} {rows : List ρ} (h : Holds key written (rows.map val))
    {p : ρ → Prop} {k : κ} (hp : ∀ r ∈ rows, p r ↔ key (val r) = k) {a : Option ρ}
    (ha : Fetch p rows a) : a.map val = last key written k := by
  rcases ha with ⟨r, hr, hpr, rfl⟩ | ⟨hnone, rfl⟩
  · have hk := (hp r hr).1 hpr
    have hmem := (h.mem (val r)).1 (List.mem_map_of_mem hr)
    rw [hk] at hmem
    exact hmem.symm
  · cases hl : last key written k with
    | none => rfl
    | some x =>
      have hkx := key_of_last hl
      obtain ⟨r, hr, rfl⟩ := List.mem_map.1 ((h.mem x).2 (by rw [hkx]; exact hl))
      exact absurd ((hp r hr).2 hkx) (hnone r hr)

end Holds

section Top
variable {α κ : Type} [LinearOrder κ]

/-- `l` lists the `limit` rows with the largest keys, largest first. -/
structure Top (key : α → κ) (limit : Nat) (rows l : List α) : Prop where
  length : l.length = min limit rows.length
  sorted : l.Pairwise fun a b => key b ≤ key a
  cut : ∃ rest, (l ++ rest).Perm rows ∧ ∀ r ∈ rest, ∀ x ∈ l, key r ≤ key x

variable {key : α → κ} {limit : Nat} {rows l l' : List α}

/-- Sorting and cutting. -/
theorem top_take {s : List α} (hs : s.Perm rows) (hsort : s.Pairwise fun a b => key b ≤ key a) :
    Top key limit rows (s.take limit) where
  length := by rw [List.length_take, hs.length_eq]
  sorted := hsort.sublist (List.take_sublist _ _)
  cut := by
    have hsplit := List.take_append_drop limit s
    refine ⟨s.drop limit, by rw [hsplit]; exact hs, ?_⟩
    intro r hr x hx
    rw [← hsplit, List.pairwise_append] at hsort
    exact hsort.2.2 x hx r hr

/-- The comparison that sorts largest first. -/
def largestFirst (key : α → κ) (a b : α) : Bool := decide (key b ≤ key a)

theorem pairwise_largestFirst (key : α → κ) (s : List α) :
    (s.mergeSort (largestFirst key)).Pairwise fun a b => key b ≤ key a := by
  have htrans : ∀ a b c, largestFirst key a b → largestFirst key b c → largestFirst key a c := by
    intro a b c hab hbc
    unfold largestFirst at *
    exact decide_eq_true (le_trans (of_decide_eq_true hbc) (of_decide_eq_true hab))
  have htotal : ∀ a b, largestFirst key a b || largestFirst key b a := by
    intro a b
    rcases le_total (key b) (key a) with h | h
    · simp [largestFirst, h]
    · simp [largestFirst, h]
  exact (List.pairwise_mergeSort htrans htotal s).imp of_decide_eq_true

theorem Top.perm {rows' : List α} (h : Top key limit rows l) (hp : rows.Perm rows') :
    Top key limit rows' l where
  length := by rw [h.length, hp.length_eq]
  sorted := h.sorted
  cut := by
    obtain ⟨rest, hrest, hle⟩ := h.cut
    exact ⟨rest, hrest.trans hp, hle⟩

theorem Top.subset (h : Top key limit rows l) : ∀ x ∈ l, x ∈ rows := by
  obtain ⟨rest, hrest, -⟩ := h.cut
  intro x hx
  exact hrest.subset (List.mem_append_left _ hx)

/-- A row that is not listed is no larger than those that are. -/
theorem Top.le_of_not_mem (h : Top key limit rows l) {r x : α} (hr : r ∈ rows) (hrl : r ∉ l)
    (hx : x ∈ l) : key r ≤ key x := by
  obtain ⟨rest, hrest, hle⟩ := h.cut
  exact hle r ((List.mem_append.1 (hrest.symm.subset hr)).resolve_left hrl) x hx

/-- Every row above a listed one is listed. -/
theorem Top.mem_of_lt (h : Top key limit rows l) {r x : α} (hr : r ∈ rows) (hx : x ∈ l)
    (hlt : key x < key r) : r ∈ l := by
  by_contra hrl
  exact absurd (h.le_of_not_mem hr hrl hx) (not_le.2 hlt)

theorem Top.perm_of_le (h : Top key limit rows l) (hle : rows.length ≤ limit) : l.Perm rows := by
  obtain ⟨rest, hrest, -⟩ := h.cut
  have hlen := hrest.length_eq
  have hl := h.length
  rw [List.length_append] at hlen
  have hnil : rest = [] := List.length_eq_zero_iff.1 (by omega)
  rwa [hnil, List.append_nil] at hrest

/-- A limit beyond the table does not matter. -/
theorem Top.limit_irrel {limit' : Nat} (h : Top key limit rows l)
    (hle : min limit rows.length = min limit' rows.length) : Top key limit' rows l where
  length := by rw [h.length, hle]
  sorted := h.sorted
  cut := h.cut

/-- The keys listed are determined. -/
theorem Top.keys_eq (h : Top key limit rows l) (h' : Top key limit rows l') :
    l.map key = l'.map key := by
  have hfull : ∀ {m : List α}, Top key limit rows m → ∃ rest, (m ++ rest).Perm rows ∧
      ((m ++ rest).map key).Pairwise (fun a b => b ≤ a) := by
    intro m hm
    obtain ⟨rest, hrest, hle⟩ := hm.cut
    have hperm := List.mergeSort_perm rest (largestFirst key)
    refine ⟨rest.mergeSort (largestFirst key), (hperm.append_left m).trans hrest, ?_⟩
    rw [List.pairwise_map, List.pairwise_append]
    exact ⟨hm.sorted, pairwise_largestFirst key rest,
      fun x hx r hr => hle r (hperm.subset hr) x hx⟩
  obtain ⟨rest, hperm, hsort⟩ := hfull h
  obtain ⟨rest', hperm', hsort'⟩ := hfull h'
  have heq : (l ++ rest).map key = (l' ++ rest').map key :=
    List.Perm.eq_of_pairwise (fun a b _ _ hab hba => le_antisymm hba hab) hsort hsort'
      ((hperm.trans hperm'.symm).map key)
  have hlen : (l.map key).length = (l'.map key).length := by
    rw [List.length_map, List.length_map, h.length, h'.length]
  rw [List.map_append, List.map_append] at heq
  exact (List.append_inj heq hlen).1

end Top

end Table
