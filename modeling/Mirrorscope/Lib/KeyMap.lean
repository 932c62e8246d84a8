import Mathlib.Tactic.Common

/-! # Ordered finite maps

The standard library's ordered maps over a lawful order, with look-up after
insertion and removal stated through equality of keys.
-/

/-- A finite map ordered by its keys. -/
abbrev KeyMap (κ β : Type) [Ord κ] : Type := Std.ExtTreeMap κ β compare

namespace KeyMap

variable {κ β : Type} [Ord κ] [Std.TransOrd κ] [Std.LawfulEqOrd κ] [DecidableEq κ]

theorem get_insert (m : KeyMap κ β) (k : κ) (v : β) (a : κ) :
    (m.insert k v)[a]? = if k = a then some v else m[a]? := by
  rw [Std.ExtTreeMap.getElem?_insert]
  by_cases h : k = a
  · simp [h]
  · have hne : compare k a ≠ .eq := fun heq => h (Std.LawfulEqOrd.eq_of_compare heq)
    simp [h, hne]

theorem get_erase (m : KeyMap κ β) (k a : κ) :
    (m.erase k)[a]? = if k = a then none else m[a]? := by
  rw [Std.ExtTreeMap.getElem?_erase]
  by_cases h : k = a
  · simp [h]
  · have hne : compare k a ≠ .eq := fun heq => h (Std.LawfulEqOrd.eq_of_compare heq)
    simp [h, hne]

omit [Std.LawfulEqOrd κ] [DecidableEq κ] in
@[simp] theorem get_empty (a : κ) : (∅ : KeyMap κ β)[a]? = none := by
  simp

omit [DecidableEq κ] in
theorem mem_keys_iff (m : KeyMap κ β) (a : κ) : a ∈ m.keys ↔ m[a]?.isSome = true := by
  rw [Std.ExtTreeMap.mem_keys, Std.ExtTreeMap.mem_iff_isSome_getElem?]

omit [Std.LawfulEqOrd κ] [DecidableEq κ] in
theorem isEmpty_iff (m : KeyMap κ β) : m.isEmpty = true ↔ ∀ a : κ, m[a]? = none := by
  rw [Std.ExtTreeMap.isEmpty_iff, Std.ExtTreeMap.eq_empty_iff_forall_not_mem]
  constructor
  · intro h a
    exact Std.ExtTreeMap.getElem?_eq_none (h a)
  · intro h a hmem
    have hsome := Std.ExtTreeMap.mem_iff_isSome_getElem?.mp hmem
    rw [h a] at hsome
    cases hsome

omit [Std.LawfulEqOrd κ] [DecidableEq κ] in
theorem values_eq_map_toList (m : KeyMap κ β) : m.values = m.toList.map Prod.snd := by
  rcases m with ⟨m⟩
  induction m using Std.ExtDTreeMap.inductionOn with
  | mk m =>
    show Std.DTreeMap.Internal.Impl.values _ =
      (Std.DTreeMap.Internal.Impl.Const.toList _).map Prod.snd
    rw [Std.DTreeMap.Internal.Impl.values_eq_map_snd,
      Std.DTreeMap.Internal.Impl.Const.toList_eq_toListModel_map]
    simp

omit [DecidableEq κ] in
theorem mem_values_iff (m : KeyMap κ β) (v : β) : v ∈ m.values ↔ ∃ k : κ, m[k]? = some v := by
  rw [values_eq_map_toList, List.mem_map]
  constructor
  · rintro ⟨⟨k, v⟩, hmem, rfl⟩
    exact ⟨k, Std.ExtTreeMap.mem_toList_iff_getElem?_eq_some.mp hmem⟩
  · rintro ⟨k, hget⟩
    exact ⟨(k, v), Std.ExtTreeMap.mem_toList_iff_getElem?_eq_some.mpr hget, rfl⟩

omit [DecidableEq κ] in
/-- Values that know their own keys stand in the order of the keys. -/
theorem pairwise_values {m : KeyMap κ β} {key : β → κ}
    (h : ∀ k v, m[k]? = some v → key v = k) :
    m.values.Pairwise fun v w => compare (key v) (key w) = .lt := by
  rw [values_eq_map_toList, List.pairwise_map]
  have hordered : m.toList.Pairwise fun a b => compare a.1 b.1 = .lt :=
    Std.ExtTreeMap.ordered_keys_toList
  have hkey : ∀ a ∈ m.toList, key a.2 = a.1 := fun a ha =>
    h a.1 a.2 (Std.ExtTreeMap.mem_toList_iff_getElem?_eq_some.mp ha)
  refine hordered.imp_of_mem ?_
  intro a b ha hb hlt
  rw [hkey a ha, hkey b hb]
  exact hlt

/-- Enter values under their own keys, where a key determines its value. -/
theorem get_foldl_insert {key : β → κ} {P : β → Prop}
    (hP : ∀ v w, P v → P w → key v = key w → v = w) {vs : List β} (hvs : ∀ v ∈ vs, P v)
    {m : KeyMap κ β} (hm : ∀ k v, m[k]? = some v → P v ∧ key v = k) (k : κ) (v : β) :
    (vs.foldl (fun m v => m.insert (key v) v) m)[k]? = some v ↔
      (key v = k ∧ v ∈ vs) ∨ m[k]? = some v := by
  induction vs generalizing m with
  | nil => simp
  | cons w vs ih =>
    have hw : P w := hvs w List.mem_cons_self
    have hnext : ∀ k' v', (m.insert (key w) w)[k']? = some v' → P v' ∧ key v' = k' := by
      intro k' v' hget
      rw [get_insert] at hget
      split at hget
      · rename_i hkey
        rcases Option.some.inj hget with rfl
        exact ⟨hw, hkey⟩
      · exact hm k' v' hget
    rw [List.foldl_cons, ih (fun u hu => hvs u (List.mem_cons_of_mem w hu)) hnext, get_insert,
      List.mem_cons]
    by_cases hkey : key w = k
    · -- a value that was there under this key is the new one
      rw [if_pos hkey, Option.some.injEq]
      constructor
      · rintro (⟨hv, hmem⟩ | rfl)
        · exact .inl ⟨hv, .inr hmem⟩
        · exact .inl ⟨hkey, .inl rfl⟩
      · rintro (⟨hv, rfl | hmem⟩ | hget)
        · exact .inr rfl
        · exact .inl ⟨hv, hmem⟩
        · rcases hm k v hget with ⟨hPv, hv⟩
          exact .inr (hP w v hw hPv (hkey.trans hv.symm))
    · rw [if_neg hkey]
      constructor
      · rintro (⟨hv, hmem⟩ | hget)
        · exact .inl ⟨hv, .inr hmem⟩
        · exact .inr hget
      · rintro (⟨hv, rfl | hmem⟩ | hget)
        · exact absurd hv hkey
        · exact .inl ⟨hv, hmem⟩
        · exact .inr hget

/-! ## Pairs entered one after the other -/

omit [Std.LawfulEqOrd κ] [DecidableEq κ] in
/-- Enter a value, unless there is one under its key. -/
def insertNew (m : KeyMap κ β) (k : κ) (v : β) : KeyMap κ β :=
  if m[k]?.isSome then m else m.insert k v

theorem get_insertNew (m : KeyMap κ β) (k : κ) (v : β) (a : κ) :
    (insertNew m k v)[a]? = if k = a then m[a]?.or (some v) else m[a]? := by
  unfold insertNew
  by_cases hkey : k = a
  · subst hkey
    cases hm : m[k]? with
    | none => simp
    | some w => simp [hm]
  · rw [if_neg hkey]
    split
    · rfl
    · rw [get_insert, if_neg hkey]

/-- Of the pairs with a key the first one stays, unless the key was taken. -/
theorem get_foldl_insertNew (pairs : List (κ × β)) (m : KeyMap κ β) (k : κ) :
    (pairs.foldl (fun m p => insertNew m p.1 p.2) m)[k]? =
      m[k]?.or ((pairs.find? fun p => p.1 = k).map Prod.snd) := by
  induction pairs generalizing m with
  | nil => simp
  | cons first rest ih =>
    rw [List.foldl_cons, ih, get_insertNew, List.find?_cons]
    by_cases hkey : first.1 = k
    · cases hm : m[k]? <;> simp [hkey]
    · simp [hkey]

/-- Of the pairs with a key the last one stays. -/
theorem get_foldl_pairs (pairs : List (κ × β)) (m : KeyMap κ β) (k : κ) :
    (pairs.foldl (fun m p => m.insert p.1 p.2) m)[k]? =
      ((pairs.reverse.find? fun p => p.1 = k).map Prod.snd).or m[k]? := by
  induction pairs generalizing m with
  | nil => simp
  | cons first rest ih =>
    rw [List.foldl_cons, ih, get_insert, List.reverse_cons, List.find?_append]
    by_cases hkey : first.1 = k
    · cases hrest : rest.reverse.find? fun p => p.1 = k <;> simp [hkey]
    · cases hrest : rest.reverse.find? fun p => p.1 = k <;> simp [hkey]

theorem keys_singleton (k : κ) (v : β) : ((∅ : KeyMap κ β).insert k v).keys = [k] := by
  have hnodup : ((∅ : KeyMap κ β).insert k v).keys.Nodup := by
    refine (Std.ExtTreeMap.ordered_keys).imp ?_
    rintro a c hlt rfl
    exact absurd hlt (by simp)
  refine List.perm_singleton.mp
    ((List.perm_ext_iff_of_nodup hnodup (List.pairwise_singleton _ k)).mpr ?_)
  intro a
  rw [mem_keys_iff, get_insert, List.mem_singleton]
  by_cases h : k = a
  · simp [h]
  · simp [h, Ne.symm h]

/-! ## Lists with different keys -/

omit [Ord κ] [Std.TransOrd κ] [Std.LawfulEqOrd κ] in
/-- Where keys are different, a key finds its one element. -/
theorem find_key_iff {α : Type} {key : α → κ} {l : List α}
    (h : l.Pairwise fun a b => key a ≠ key b) {k : κ} {a : α} :
    (l.find? fun b => key b = k) = some a ↔ a ∈ l ∧ key a = k := by
  constructor
  · intro hfind
    have hkey := List.find?_some hfind
    exact ⟨List.mem_of_find?_eq_some hfind, by simpa using hkey⟩
  · rintro ⟨hmem, rfl⟩
    induction h with
    | nil => cases hmem
    | @cons first rest hfirst _ ih =>
      rcases List.mem_cons.mp hmem with rfl | hmem
      · simp
      · rw [List.find?_cons_of_neg (by simpa using hfirst a hmem)]
        exact ih hmem

end KeyMap
