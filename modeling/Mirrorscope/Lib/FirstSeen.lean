import Mathlib.Data.List.Induction
import Mathlib.Order.Bounds.Basic

/-! # The order of first appearance

What a list holds in the order in which it first appears there, when extra entries
leave that order as it is, and the table that a fold of insertions builds: its keys
in that order, each with the least of its values.
-/

namespace FirstSeen

variable {α : Type} [DecidableEq α]

/-- The elements of a list, each once, in the order of their first appearance. -/
def firsts (xs : List α) : List α := xs.eraseDups

@[simp] theorem mem_firsts {xs : List α} {x : α} : x ∈ firsts xs ↔ x ∈ xs := List.mem_eraseDups

/-- Those that are not among `seen`. -/
def fresh (seen xs : List α) : List α := firsts (xs.filter (· ∉ seen))

theorem fresh_nil (xs : List α) : fresh [] xs = firsts xs := by
  rw [fresh, List.filter_eq_self.mpr (by simp)]

theorem fresh_cons_of_mem {seen xs : List α} {x : α} (h : x ∈ seen) :
    fresh seen (x :: xs) = fresh seen xs := by
  simp [fresh, h]

theorem fresh_cons_of_not_mem {seen xs : List α} {x : α} (h : x ∉ seen) :
    fresh seen (x :: xs) = x :: fresh (x :: seen) xs := by
  simp only [fresh, firsts, List.filter_cons, h, not_false_eq_true, decide_true, ↓reduceIte,
    List.eraseDups_cons, List.filter_filter, List.cons.injEq, true_and]
  congr 1
  refine List.filter_congr fun y _ => ?_
  by_cases hy : y = x <;> simp [hy]

/-- The first fresh element is the first that was not seen. -/
theorem fresh_eq_cons_iff {seen xs rest : List α} {q : α} :
    fresh seen xs = q :: rest ↔
      xs.find? (· ∉ seen) = some q ∧ rest = fresh (q :: seen) xs := by
  induction xs with
  | nil => simp [fresh, firsts]
  | cons x xs ih =>
    by_cases hx : x ∈ seen
    · have hq : x ∈ q :: seen := List.mem_cons_of_mem q hx
      simp [fresh_cons_of_mem hx, fresh_cons_of_mem hq, ih, hx]
    · rw [fresh_cons_of_not_mem hx]
      simp only [List.find?_cons, hx, not_false_eq_true, decide_true, List.cons.injEq,
        Option.some.injEq]
      constructor
      · rintro ⟨rfl, rfl⟩
        exact ⟨rfl, (fresh_cons_of_mem (by simp)).symm⟩
      · rintro ⟨rfl, rfl⟩
        exact ⟨rfl, (fresh_cons_of_mem (by simp)).symm⟩

/-- The entries of a list that count. -/
def counted (es : List (α × Bool)) : List α := (es.filter (·.2)).map (·.1)

/-- The extra entries of a list leave the order of the counted ones as it is: each
names an element already seen, or the next counted one not yet seen. -/
def Harmless (seen : List α) : List (α × Bool) → Prop
  | [] => True
  | (q, true) :: es => Harmless (q :: seen) es
  | (q, false) :: es =>
    (q ∈ seen ∨ (counted es).find? (· ∉ seen) = some q) ∧ Harmless (q :: seen) es

/-- What was seen matters as a set only. -/
theorem fresh_congr {seen seen' : List α} (h : ∀ x, x ∈ seen ↔ x ∈ seen') (xs : List α) :
    fresh seen xs = fresh seen' xs := by
  simp [fresh, h]

/-- All entries give the order that the counted ones give exactly when the extra
ones are harmless. -/
theorem fresh_map_eq_iff (seen : List α) (es : List (α × Bool)) :
    fresh seen (es.map (·.1)) = fresh seen (counted es) ↔ Harmless seen es := by
  induction es generalizing seen with
  | nil => simp [counted, Harmless]
  | cons e es ih =>
    obtain ⟨q, own⟩ := e
    have hagain (h : q ∈ seen) (xs : List α) : fresh (q :: seen) xs = fresh seen xs :=
      fresh_congr (fun x => by grind) xs
    cases own with
    | true =>
      have hcounted : counted ((q, true) :: es) = q :: counted es := rfl
      by_cases hq : q ∈ seen
      · simp only [List.map_cons, hcounted, fresh_cons_of_mem hq, Harmless, ← ih, hagain hq]
      · simp [hcounted, fresh_cons_of_not_mem hq, Harmless, ← ih]
    | false =>
      have hcounted : counted ((q, false) :: es) = counted es := rfl
      by_cases hq : q ∈ seen
      · simp only [List.map_cons, hcounted, fresh_cons_of_mem hq, Harmless, ← ih, hagain hq,
          hq, true_or, true_and]
      · -- the extra entry comes first, so it has to be the next counted one
        have hhead : q :: fresh (q :: seen) (es.map (·.1)) = fresh seen (counted es) ↔
            (counted es).find? (· ∉ seen) = some q ∧
              fresh (q :: seen) (es.map (·.1)) = fresh (q :: seen) (counted es) := by
          rw [eq_comm]
          exact fresh_eq_cons_iff
        simp only [List.map_cons, hcounted, fresh_cons_of_not_mem hq, hhead, Harmless, ← ih,
          hq, false_or]

/-! ## A table of least values -/

section Table

variable {β : Type} [LinearOrder β]

/-- Record a value under a key: a new key goes to the end, a known one keeps the
smaller value. -/
def upsert (k : α) (v : β) : List (α × β) → List (α × β)
  | [] => [(k, v)]
  | e :: es => if e.1 = k then (e.1, min e.2 v) :: es else e :: upsert k v es

/-- The table after all of `xs`. -/
def gather (xs : List (α × β)) : List (α × β) := xs.foldl (fun es x => upsert x.1 x.2 es) []

theorem upsert_keys (k : α) (v : β) (es : List (α × β)) :
    (upsert k v es).map (·.1) =
      if k ∈ es.map (·.1) then es.map (·.1) else es.map (·.1) ++ [k] := by
  induction es with
  | nil => simp [upsert]
  | cons e es ih =>
    by_cases h : e.1 = k
    · simp [upsert, h]
    · simp only [upsert, h, ↓reduceIte, List.map_cons, ih, List.mem_cons, Ne.symm h, false_or]
      split <;> simp

theorem mem_upsert {k : α} {v : β} {es : List (α × β)} {e : α × β}
    (hnodup : (es.map (·.1)).Nodup) (h : e ∈ upsert k v es) :
    (e.1 ≠ k ∧ e ∈ es) ∨ (e = (k, v) ∧ k ∉ es.map (·.1)) ∨
      ∃ w, (k, w) ∈ es ∧ e = (k, min w v) := by
  induction es with
  | nil =>
    have he : e = (k, v) := by simpa [upsert] using h
    exact .inr (.inl ⟨he, by simp⟩)
  | cons d es ih =>
    obtain ⟨hd, hnodup⟩ := List.nodup_cons.mp hnodup
    by_cases hk : d.1 = k
    · rcases List.mem_cons.mp (by simpa [upsert, hk] using h) with rfl | hmem
      · exact .inr (.inr ⟨d.2, by simp [← hk], rfl⟩)
      · have hne : e.1 ≠ k := by
          rintro he
          exact hd (List.mem_map.mpr ⟨e, hmem, he.trans hk.symm⟩)
        exact .inl ⟨hne, List.mem_cons_of_mem d hmem⟩
    · rcases List.mem_cons.mp (by simpa [upsert, hk] using h) with rfl | hmem
      · exact .inl ⟨hk, List.mem_cons_self⟩
      · rcases ih hnodup hmem with ⟨hne, he⟩ | ⟨he, hnew⟩ | ⟨w, hw, he⟩
        · exact .inl ⟨hne, List.mem_cons_of_mem d he⟩
        · exact .inr (.inl ⟨he, by simpa [Ne.symm hk] using hnew⟩)
        · exact .inr (.inr ⟨w, List.mem_cons_of_mem d hw, he⟩)

theorem firsts_concat (xs : List α) (x : α) :
    firsts (xs ++ [x]) = if x ∈ xs then firsts xs else firsts xs ++ [x] := by
  rw [firsts, List.eraseDups_append]
  by_cases h : x ∈ xs <;> simp [firsts, List.removeAll, h, List.eraseDups_cons]

theorem nodup_firsts (xs : List α) : (firsts xs).Nodup := by
  induction xs using List.reverseRecOn with
  | nil => simp [firsts]
  | append_singleton xs x ih =>
    rw [firsts_concat]
    split
    · exact ih
    · rename_i hx
      have hne : ∀ y ∈ xs, ¬ y = x := fun y hy h => hx (h ▸ hy)
      simpa [List.nodup_append, ih] using hne

/-- The keys of the table stand in the order of their first appearance. -/
theorem gather_keys (xs : List (α × β)) :
    (gather xs).map (·.1) = firsts (xs.map (·.1)) := by
  induction xs using List.reverseRecOn with
  | nil => simp [gather, firsts]
  | append_singleton xs x ih =>
    have hstep : gather (xs ++ [x]) = upsert x.1 x.2 (gather xs) := by simp [gather]
    rw [hstep, upsert_keys, ih, List.map_append, List.map_singleton, firsts_concat]
    simp only [mem_firsts]

/-- Each key of the table has the least of the values recorded under it. -/
theorem gather_isLeast (xs : List (α × β)) :
    ∀ e ∈ gather xs, IsLeast {v | (e.1, v) ∈ xs} e.2 := by
  induction xs using List.reverseRecOn with
  | nil => simp [gather]
  | append_singleton xs x ih =>
    intro e he
    have hstep : gather (xs ++ [x]) = upsert x.1 x.2 (gather xs) := by simp [gather]
    have hnodup : ((gather xs).map (·.1)).Nodup := by
      rw [gather_keys]
      exact nodup_firsts _
    rw [hstep] at he
    rcases mem_upsert hnodup he with ⟨hne, hmem⟩ | ⟨rfl, hnew⟩ | ⟨w, hw, rfl⟩
    · obtain ⟨hin, hle⟩ := ih e hmem
      refine ⟨List.mem_append_left _ hin, fun v hv => ?_⟩
      rcases List.mem_append.mp hv with hv | hv
      · exact hle hv
      · exact absurd (congrArg Prod.fst (List.mem_singleton.mp hv)) hne
    · refine ⟨List.mem_append_right _ (by simp), fun v hv => ?_⟩
      rcases List.mem_append.mp hv with hv | hv
      · -- a key that is new to the table has no earlier value
        rw [gather_keys, mem_firsts] at hnew
        exact absurd (List.mem_map.mpr ⟨_, hv, rfl⟩) hnew
      · have hx := List.mem_singleton.mp hv
        exact le_of_eq (congrArg Prod.snd hx).symm
    · obtain ⟨hin, hle⟩ := ih _ hw
      constructor
      · rcases le_total w x.2 with h | h
        · exact List.mem_append_left _ (by simpa [min_eq_left h] using hin)
        · exact List.mem_append_right _ (by simp [min_eq_right h])
      · intro v hv
        rcases List.mem_append.mp hv with hv | hv
        · exact (min_le_left w x.2).trans (hle hv)
        · have hx := List.mem_singleton.mp hv
          exact (min_le_right w x.2).trans (le_of_eq (congrArg Prod.snd hx).symm)

end Table

end FirstSeen
