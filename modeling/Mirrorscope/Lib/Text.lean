import Mathlib.Data.List.Basic
import Mathlib.Data.List.TakeWhile

/-! # Text as lists of characters

Splitting a text into lines and into words, and what is left of a text whose
words are put together again with single spaces.
-/

namespace Text

/-- The characters with Unicode's White_Space property. -/
def isWhitespace (c : Char) : Bool :=
  let n := c.toNat
  (9 ≤ n && n ≤ 13) || n == 0x20 || n == 0x85 || n == 0xA0 || n == 0x1680 ||
    (0x2000 ≤ n && n ≤ 0x200A) || n == 0x2028 || n == 0x2029 || n == 0x202F ||
    n == 0x205F || n == 0x3000

@[simp] theorem isWhitespace_space : isWhitespace ' ' = true := by decide

/-- A text that has no whitespace in it. -/
def Solid (w : List Char) : Prop := ∀ c ∈ w, isWhitespace c = false

instance (w : List Char) : Decidable (Solid w) :=
  List.decidableBAll (fun c => isWhitespace c = false) w

@[simp] theorem solid_nil : Solid [] := by simp [Solid]

@[simp] theorem solid_cons {c : Char} {w : List Char} :
    Solid (c :: w) ↔ isWhitespace c = false ∧ Solid w := by
  simp [Solid]

@[simp] theorem solid_append {v w : List Char} :
    Solid (v ++ w) ↔ Solid v ∧ Solid w := by
  simp [Solid, or_imp, forall_and]

/-! ## Words -/

/-- The words of `s`, the first of which begins with `w`. -/
def wordsFrom (w : List Char) : List Char → List (List Char)
  | [] => if w = [] then [] else [w]
  | c :: s =>
    if isWhitespace c then if w = [] then wordsFrom [] s else w :: wordsFrom [] s
    else wordsFrom (w ++ [c]) s

/-- The maximal runs of non-whitespace of a text. -/
def words (s : List Char) : List (List Char) := wordsFrom [] s

/-- The words of a text with one space between them. -/
def squeeze (s : List Char) : List Char := [' '].intercalate (words s)

@[simp] theorem words_nil : words [] = [] := rfl

theorem words_cons_whitespace {c : Char} {s : List Char} (h : isWhitespace c = true) :
    words (c :: s) = words s := by
  simp [words, wordsFrom, h]

theorem words_append_whitespace {pad s : List Char} (h : ∀ c ∈ pad, isWhitespace c = true) :
    words (pad ++ s) = words s := by
  induction pad with
  | nil => rfl
  | cons c pad ih =>
    rw [List.cons_append, words_cons_whitespace (h c (by simp))]
    exact ih fun d hd => h d (by simp [hd])

/-- Characters without whitespace join the word that is being read. -/
theorem wordsFrom_append {v w s : List Char} (h : Solid v) :
    wordsFrom w (v ++ s) = wordsFrom (w ++ v) s := by
  induction v generalizing w with
  | nil => simp
  | cons c v ih =>
    obtain ⟨hc, hv⟩ := solid_cons.mp h
    simp [wordsFrom, hc, ih hv]

/-- A word ends at the next whitespace. -/
theorem words_word {w s : List Char} {c : Char} (hw : Solid w) (hne : w ≠ [])
    (hc : isWhitespace c = true) : words (w ++ c :: s) = w :: words s := by
  rw [words, wordsFrom_append hw]
  simp [wordsFrom, hc, hne, words]

theorem wordsFrom_solid {w s : List Char} (hw : Solid w) :
    ∀ v ∈ wordsFrom w s, Solid v ∧ v ≠ [] := by
  induction s generalizing w with
  | nil =>
    intro v hv
    by_cases h : w = []
    · simp [wordsFrom, h] at hv
    · simp only [wordsFrom, h, ↓reduceIte, List.mem_singleton] at hv
      exact ⟨hv ▸ hw, hv ▸ h⟩
  | cons c s ih =>
    by_cases hc : isWhitespace c = true
    · by_cases h : w = []
      · simpa [wordsFrom, hc, h] using ih solid_nil
      · simpa [wordsFrom, hc, h, hw] using ih solid_nil
    · have hw' : Solid (w ++ [c]) := by simpa [hw] using hc
      simpa [wordsFrom, hc] using ih hw'

/-- Words are not empty and have no whitespace. -/
theorem solid_of_mem_words {s w : List Char} (h : w ∈ words s) : Solid w ∧ w ≠ [] :=
  wordsFrom_solid solid_nil w h

/-- The first word of a text that begins with a word's character begins with it too. -/
theorem wordsFrom_head {w s : List Char} (hne : w ≠ []) :
    ∃ v ws, wordsFrom w s = (w ++ v) :: ws := by
  induction s generalizing w with
  | nil => exact ⟨[], [], by simp [wordsFrom, hne]⟩
  | cons c s ih =>
    by_cases hc : isWhitespace c = true
    · exact ⟨[], wordsFrom [] s, by simp [wordsFrom, hc, hne]⟩
    · obtain ⟨v, ws, h⟩ := ih (w := w ++ [c]) (by simp)
      exact ⟨c :: v, ws, by simp [wordsFrom, hc, h]⟩

/-! ## Single spacing -/

/-- Words with exactly one space between each two, and nothing before or after. -/
inductive SingleSpaced : List Char → Prop
  | last {c : Char} : isWhitespace c = false → SingleSpaced [c]
  | letter {c : Char} {s : List Char} : isWhitespace c = false → SingleSpaced s →
      SingleSpaced (c :: s)
  | space {c : Char} {s : List Char} : isWhitespace c = false → SingleSpaced s →
      SingleSpaced (c :: ' ' :: s)

theorem SingleSpaced.head {s : List Char} (h : SingleSpaced s) :
    ∃ c t, s = c :: t ∧ isWhitespace c = false := by
  cases h with
  | last hc => exact ⟨_, _, rfl, hc⟩
  | letter hc _ => exact ⟨_, _, rfl, hc⟩
  | space hc _ => exact ⟨_, _, rfl, hc⟩

theorem SingleSpaced.of_word {w : List Char} (hw : Solid w) (hne : w ≠ []) : SingleSpaced w := by
  induction w with
  | nil => exact absurd rfl hne
  | cons c w ih =>
    obtain ⟨hc, hw⟩ := solid_cons.mp hw
    by_cases h : w = []
    · subst h
      exact .last hc
    · exact .letter hc (ih hw h)

theorem SingleSpaced.word_space {w s : List Char} (hw : Solid w) (hne : w ≠ [])
    (hs : SingleSpaced s) : SingleSpaced (w ++ ' ' :: s) := by
  induction w with
  | nil => exact absurd rfl hne
  | cons c w ih =>
    obtain ⟨hc, hw⟩ := solid_cons.mp hw
    by_cases h : w = []
    · subst h
      exact .space hc hs
    · exact .letter hc (ih hw h)

theorem singleSpaced_intercalate {ws : List (List Char)} (h : ∀ w ∈ ws, Solid w ∧ w ≠ [])
    (hne : ws ≠ []) : SingleSpaced ([' '].intercalate ws) := by
  induction ws with
  | nil => exact absurd rfl hne
  | cons w ws ih =>
    obtain ⟨hw, hw'⟩ := h w (by simp)
    by_cases hws : ws = []
    · subst hws
      simpa using SingleSpaced.of_word hw hw'
    · have htail := ih (fun v hv => h v (by simp [hv])) hws
      rw [List.intercalate_cons_of_ne_nil hws]
      simpa using htail.word_space hw hw'

/-- Squeezing leaves single spaces only. -/
theorem singleSpaced_squeeze {s : List Char} (h : squeeze s ≠ []) : SingleSpaced (squeeze s) := by
  refine singleSpaced_intercalate (fun w hw => solid_of_mem_words hw) ?_
  intro hws
  exact h (by simp [squeeze, hws])

theorem intercalate_wordsFrom {w s : List Char} (hs : SingleSpaced s) :
    [' '].intercalate (wordsFrom w s) = w ++ s := by
  induction hs generalizing w with
  | last hc => simp [wordsFrom, hc]
  | @letter d t hd ht ih =>
    have := @ih (w ++ [d])
    simpa [wordsFrom, hd] using this
  | @space d t hd ht ih =>
    obtain ⟨e, t', rfl, he⟩ := ht.head
    have := @ih []
    -- the word that ends at the space, then the rest of the text
    have hne : wordsFrom [] (e :: t') ≠ [] := by
      obtain ⟨v, ws, hv⟩ := wordsFrom_head (w := [e]) (s := t') (by simp)
      simp [wordsFrom, he, hv]
    have hcons : wordsFrom w (d :: ' ' :: e :: t') = (w ++ [d]) :: wordsFrom [] (e :: t') := by
      simp [wordsFrom, hd]
    rw [hcons, List.intercalate_cons_of_ne_nil hne, this]
    simp

/-- A text with single spaces only is put together again as it was. -/
theorem SingleSpaced.squeeze_eq {s : List Char} (h : SingleSpaced s) : squeeze s = s := by
  simpa [squeeze, words] using intercalate_wordsFrom (w := []) h

theorem squeeze_squeeze (s : List Char) : squeeze (squeeze s) = squeeze s := by
  by_cases h : squeeze s = []
  · rw [h]
    rfl
  · exact (singleSpaced_squeeze h).squeeze_eq

/-- A text that begins with a word keeps its first character. -/
theorem squeeze_cons {c : Char} (s : List Char) (hc : isWhitespace c = false) :
    ∃ t, squeeze (c :: s) = c :: t := by
  obtain ⟨v, ws, h⟩ := wordsFrom_head (w := [c]) (s := s) (by simp)
  have hwords : words (c :: s) = (c :: v) :: ws := by simpa [words, wordsFrom, hc] using h
  cases ws with
  | nil => exact ⟨v, by simp [squeeze, hwords]⟩
  | cons w ws =>
    refine ⟨v ++ ' ' :: [' '].intercalate (w :: ws), ?_⟩
    simp [squeeze, hwords]

/-! ## Trimming -/

/-- A text without the whitespace at its end. -/
def trimEnd (s : List Char) : List Char := (s.reverse.dropWhile isWhitespace).reverse

/-- A text without the whitespace at both ends. -/
def trim (s : List Char) : List Char := (trimEnd s).dropWhile isWhitespace

theorem trimEnd_append_whitespace {s : List Char} {pad : List Char}
    (h : ∀ c ∈ pad, isWhitespace c = true) : trimEnd (s ++ pad) = trimEnd s := by
  have hpad : ∀ c ∈ pad.reverse, isWhitespace c = true := fun c hc => h c (by simpa using hc)
  rw [trimEnd, List.reverse_append, List.dropWhile_append_of_pos hpad, trimEnd]

theorem trimEnd_of_last {s : List Char} {c : Char} (h : isWhitespace c = false) :
    trimEnd (s ++ [c]) = s ++ [c] := by
  simp [trimEnd, h]

theorem trimEnd_ne_nil {c : Char} (s : List Char) (h : isWhitespace c = false) :
    trimEnd (c :: s) ≠ [] := by
  intro hnil
  have hall := List.dropWhile_eq_nil_iff.mp (List.reverse_eq_nil_iff.mp hnil)
  exact absurd (hall c (by simp)) (by simp [h])

/-- The whitespace before a word is dropped. -/
theorem trim_word {pad w : List Char} (hpad : ∀ c ∈ pad, isWhitespace c = true) (hw : Solid w)
    (hne : w ≠ []) : trim (pad ++ w) = w := by
  obtain ⟨c, v, rfl⟩ := List.exists_cons_of_ne_nil hne
  have hend : trimEnd (pad ++ c :: v) = pad ++ c :: v := by
    rcases List.eq_nil_or_concat' (c :: v) with h | ⟨u, d, h⟩
    · exact absurd h hne
    · rw [h, ← List.append_assoc]
      exact trimEnd_of_last (hw d (by simp [h]))
  rw [trim, hend, List.dropWhile_append_of_pos hpad]
  simp [(solid_cons.mp hw).1]

/-- The text begins with a character that is not whitespace. -/
def Starts (s : List Char) : Prop := ∃ c t, s = c :: t ∧ isWhitespace c = false

/-- The text ends with a character that is not whitespace. -/
def Ends (s : List Char) : Prop := ∃ t c, s = t ++ [c] ∧ isWhitespace c = false

theorem Starts.cons {c : Char} {s : List Char} (h : isWhitespace c = false) : Starts (c :: s) :=
  ⟨c, s, rfl, h⟩

theorem Starts.append {s t : List Char} (h : Starts s) : Starts (s ++ t) := by
  obtain ⟨c, u, rfl, hc⟩ := h
  exact ⟨c, u ++ t, rfl, hc⟩

theorem Ends.last {c : Char} {s : List Char} (h : isWhitespace c = false) : Ends (s ++ [c]) :=
  ⟨s, c, rfl, h⟩

theorem Ends.append {s t : List Char} (h : Ends t) : Ends (s ++ t) := by
  obtain ⟨u, c, rfl, hc⟩ := h
  exact ⟨s ++ u, c, (List.append_assoc s u [c]).symm, hc⟩

theorem Ends.cons {c : Char} {s : List Char} (h : Ends s) : Ends (c :: s) := by
  have happ : Ends ([c] ++ s) := h.append
  exact happ

theorem Solid.starts {w : List Char} (h : Solid w) (hne : w ≠ []) : Starts w := by
  obtain ⟨c, t, rfl⟩ := List.exists_cons_of_ne_nil hne
  exact .cons (h c (by simp))

theorem Solid.ends {w : List Char} (h : Solid w) (hne : w ≠ []) : Ends w := by
  rcases List.eq_nil_or_concat' w with hnil | ⟨t, c, rfl⟩
  · exact absurd hnil hne
  · exact .last (h c (by simp))

theorem length_trim_le (s : List Char) : (trim s).length ≤ s.length := by
  have hend : (trimEnd s).length ≤ s.length := by
    have h := (List.dropWhile_sublist isWhitespace : (s.reverse.dropWhile _).Sublist _).length_le
    rw [List.length_reverse] at h
    rwa [trimEnd, List.length_reverse]
  have hstart : (trim s).length ≤ (trimEnd s).length :=
    (List.dropWhile_sublist isWhitespace).length_le
  omega

/-- There is nothing to trim at either end. -/
theorem trim_eq {s : List Char} (hs : Starts s) (he : Ends s) : trim s = s := by
  have hend : trimEnd s = s := by
    obtain ⟨t, c, rfl, hc⟩ := he
    exact trimEnd_of_last hc
  obtain ⟨c, t, rfl, hc⟩ := hs
  rw [trim, hend, List.dropWhile_cons_of_neg (by simp [hc])]

/-- A word in the text is not trimmed, and nothing before it is, from the end. -/
theorem trimEnd_append {s t : List Char} {c : Char} (hc : isWhitespace c = false) :
    trimEnd (s ++ c :: t) = s ++ trimEnd (c :: t) := by
  have hne : (c :: t).reverse.dropWhile isWhitespace ≠ [] := by
    intro hnil
    exact trimEnd_ne_nil t hc (by rw [trimEnd, hnil, List.reverse_nil])
  rw [trimEnd, List.reverse_append, List.dropWhile_append, if_neg (by simpa using hne),
    List.reverse_append, List.reverse_reverse, trimEnd]

theorem trim_append {s t : List Char} {c : Char} (hs : Starts s) (hc : isWhitespace c = false) :
    trim (s ++ c :: t) = s ++ trimEnd (c :: t) := by
  rw [trim, trimEnd_append hc]
  obtain ⟨d, u, rfl, hd⟩ := hs
  rw [List.cons_append, List.dropWhile_cons_of_neg (by simp [hd])]

/-! ## Runs -/

theorem takeWhile_append_head {α : Type} {p : α → Bool} {front rest : List α}
    (hfront : ∀ a ∈ front, p a = true) (hrest : ∀ a ∈ rest.head?, p a = false) :
    (front ++ rest).takeWhile p = front := by
  rw [List.takeWhile_append_of_pos hfront]
  cases rest with
  | nil => simp
  | cons a rest =>
    have ha : p a = false := hrest a rfl
    simp [ha]

theorem dropWhile_head {α : Type} (p : α → Bool) (s : List α) :
    ∀ a ∈ (s.dropWhile p).head?, p a = false := by
  intro a ha
  have h := List.head?_dropWhile_not p s
  rw [ha] at h
  simpa using h

/-! ## Parts -/

/-- The parts of a text between the separators in it. -/
def split (sep : Char) : List Char → List (List Char)
  | [] => [[]]
  | c :: s =>
    if c = sep then [] :: split sep s
    else
      match split sep s with
      | [] => [[c]]
      | part :: parts => (c :: part) :: parts

theorem split_ne_nil {sep : Char} (s : List Char) : split sep s ≠ [] := by
  cases s with
  | nil => simp [split]
  | cons c s =>
    rw [split]
    split
    · simp
    · split <;> simp

/-- The first part ends at the first separator. -/
theorem split_append {sep : Char} {part : List Char} (h : sep ∉ part) (s : List Char) :
    split sep (part ++ sep :: s) = part :: split sep s := by
  induction part with
  | nil => simp [split]
  | cons c part ih =>
    obtain ⟨hc, hpart⟩ : sep ≠ c ∧ sep ∉ part := by simpa using h
    rw [List.cons_append, split, if_neg (Ne.symm hc), ih hpart]

theorem split_of_not_mem {sep : Char} {s : List Char} (h : sep ∉ s) : split sep s = [s] := by
  induction s with
  | nil => rfl
  | cons c s ih =>
    obtain ⟨hc, hs⟩ : sep ≠ c ∧ sep ∉ s := by simpa using h
    rw [split, if_neg (Ne.symm hc), ih hs]

/-- Behind the first part the text ends, or there is a separator. -/
theorem split_append_head {sep : Char} {part rest : List Char} (h : sep ∉ part)
    (hrest : ∀ c ∈ rest.head?, c = sep) : ∃ parts, split sep (part ++ rest) = part :: parts := by
  cases rest with
  | nil =>
    rw [List.append_nil]
    exact ⟨[], split_of_not_mem h⟩
  | cons c rest =>
    obtain rfl : c = sep := hrest c rfl
    exact ⟨_, split_append h rest⟩

/-- A text has one part only, or begins with its first part and a separator. -/
theorem split_eq_cons {sep : Char} {s part : List Char} {parts : List (List Char)}
    (h : split sep s = part :: parts) :
    sep ∉ part ∧
      ((s = part ∧ parts = []) ∨ ∃ more, s = part ++ sep :: more ∧ split sep more = parts) := by
  by_cases hsep : sep ∈ s
  · obtain ⟨front, more, rfl, hfront⟩ := List.eq_append_cons_of_mem hsep
    rw [split_append hfront] at h
    obtain ⟨rfl, rfl⟩ := List.cons_eq_cons.mp h
    exact ⟨hfront, .inr ⟨more, rfl, rfl⟩⟩
  · rw [split_of_not_mem hsep] at h
    obtain ⟨rfl, rfl⟩ := List.cons_eq_cons.mp h
    exact ⟨hsep, .inl ⟨rfl, rfl⟩⟩

/-! ## Lines -/

/-- A line without the carriage return it may end in. -/
def dropCr (line : List Char) : List Char :=
  if line.getLast? = some '\r' then line.dropLast else line

theorem dropCr_append {front back : List Char} (h : back ≠ []) :
    dropCr (front ++ back) = front ++ dropCr back := by
  rw [dropCr, dropCr, List.getLast?_append_of_ne_nil front h]
  split
  · exact List.dropLast_append_of_ne_nil h
  · rfl

/-- The lines of a text, the first of which begins with `l`. A line ends in a line
feed, with or without a carriage return before it; an unfinished last line counts
when it is not empty. -/
def linesFrom (l : List Char) : List Char → List (List Char)
  | [] => if l = [] then [] else [l]
  | c :: s => if c = '\n' then dropCr l :: linesFrom [] s else linesFrom (l ++ [c]) s

/-- The lines of a text. -/
def lines (s : List Char) : List (List Char) := linesFrom [] s

theorem linesFrom_append {k l s : List Char} (h : '\n' ∉ k) :
    linesFrom l (k ++ s) = linesFrom (l ++ k) s := by
  induction k generalizing l with
  | nil => simp
  | cons c k ih =>
    obtain ⟨hc, hk⟩ : '\n' ≠ c ∧ '\n' ∉ k := by simpa using h
    simp [linesFrom, Ne.symm hc, ih hk]

/-- Lines that are each ended by a line feed are read back one by one. -/
theorem lines_flatMap (ls : List (List Char)) (h : ∀ l ∈ ls, '\n' ∉ l) :
    lines (ls.flatMap fun l => l ++ ['\n']) = ls.map dropCr := by
  induction ls with
  | nil => rfl
  | cons l ls ih =>
    have hrest := ih fun k hk => h k (by simp [hk])
    have hl := h l (by simp)
    rw [List.flatMap_cons, List.append_assoc, lines, linesFrom_append hl]
    simpa [linesFrom, lines] using hrest

/-- The carriage return at a line's end is whitespace, so the words do not change. -/
theorem wordsFrom_append_whitespace {w s : List Char} {c : Char} (hc : isWhitespace c = true) :
    wordsFrom w (s ++ [c]) = wordsFrom w s := by
  induction s generalizing w with
  | nil => simp [wordsFrom, hc]
  | cons d s ih => simp [wordsFrom, ih]

theorem words_dropCr (l : List Char) : words (dropCr l) = words l := by
  by_cases h : l.getLast? = some '\r'
  · obtain ⟨k, rfl⟩ := List.getLast?_eq_some_iff.mp h
    have hcr : isWhitespace '\r' = true := by decide
    simp [dropCr, words, wordsFrom_append_whitespace hcr]
  · simp [dropCr, h]

end Text
