import Mirrorscope.Lib.ByteIO
import Mirrorscope.Lib.Text

/-! # Buffered byte sources

Bytes that arrive in pieces, cut anywhere, and the reads of a buffered reader on
them: up to a delimiter, a line of text, an exact number. What each of them gives
depends on the bytes only, not on the pieces.
-/

namespace ByteIO

/-- What one read of the underlying source delivered. -/
abbrev Piece := { bs : List UInt8 // bs ≠ [] }

/-- The bytes still to come, as they will be delivered; an empty list is the end of
the input. -/
abbrev Buffer := List Piece

namespace Buffer

/-- The bytes still to come. -/
def bytes (b : Buffer) : List UInt8 := b.flatMap (·.1)

@[simp] theorem bytes_nil : bytes [] = [] := rfl

@[simp] theorem bytes_cons (p : Piece) (b : Buffer) : bytes (p :: b) = p.1 ++ bytes b := rfl

/-- The buffered bytes, none at the end of the input. -/
def fillBuf : Buffer → List UInt8
  | [] => []
  | p :: _ => p.1

/-- Drop `n` of the buffered bytes. -/
def consume (n : Nat) : Buffer → Buffer
  | [] => []
  | p :: b => if h : n < p.1.length then ⟨p.1.drop n, by simpa using h⟩ :: b else b

theorem bytes_consume {n : Nat} {b : Buffer} (h : n ≤ (fillBuf b).length) :
    bytes (consume n b) = (bytes b).drop n := by
  cases b with
  | nil => simp [consume]
  | cons p b =>
    have hle : n ≤ p.1.length := h
    by_cases hlt : n < p.1.length
    · simp [consume, hlt, List.drop_append_of_le_length hle]
    · obtain rfl : n = p.1.length := by omega
      simp [consume]

instance : Read Buffer where
  read n b := (.ok ((fillBuf b).take n), consume ((fillBuf b).take n).length b)

/-- The bytes up to and with the first `delim`, or all there are. -/
def readUntil (delim : UInt8) : Buffer → List UInt8 × Buffer
  | [] => ([], [])
  | p :: b =>
    if delim ∈ p.1 then
      let used := p.1.idxOf delim + 1
      (p.1.take used, consume used (p :: b))
    else
      let (bs, rest) := readUntil delim b
      (p.1 ++ bs, rest)

theorem readUntil_of_not_mem {delim : UInt8} {b : Buffer} (h : delim ∉ bytes b) :
    readUntil delim b = (bytes b, []) := by
  induction b with
  | nil => rfl
  | cons p b ih =>
    obtain ⟨hp, hb⟩ : delim ∉ p.1 ∧ delim ∉ bytes b := by simpa using h
    simp [readUntil, hp, ih hb]

/-- What is read up to a delimiter depends on the bytes only. -/
theorem readUntil_eq {delim : UInt8} {b : Buffer} {bs rest : List UInt8} (hno : delim ∉ bs)
    (h : bytes b = bs ++ delim :: rest) :
    ∃ b', readUntil delim b = (bs ++ [delim], b') ∧ bytes b' = rest := by
  induction b generalizing bs with
  | nil => simp at h
  | cons p b ih =>
    rw [bytes_cons] at h
    by_cases hp : delim ∈ p.1
    · -- the delimiter is in this piece, right behind `bs`
      obtain ⟨more, hmore⟩ : ∃ more, p.1 = bs ++ delim :: more := by
        rcases List.append_eq_append_iff.mp h with ⟨xs, hbs, -⟩ | ⟨xs, hpx, hxs⟩
        · exact absurd (hbs ▸ List.mem_append_left xs hp) hno
        · cases xs with
          | nil => exact absurd (by simpa [hpx] using hp) hno
          | cons x xs =>
            obtain ⟨rfl, -⟩ : delim = x ∧ rest = xs ++ bytes b := by simpa using hxs
            exact ⟨xs, hpx⟩
      have hidx : p.1.idxOf delim = bs.length := by
        rw [hmore, List.idxOf_append_of_notMem hno, List.idxOf_cons_self, Nat.add_zero]
      have htake : p.1.take (bs.length + 1) = bs ++ [delim] := by
        have hlen : (bs ++ [delim]).length = bs.length + 1 := by simp
        rw [hmore, List.append_cons bs, ← hlen, List.take_left]
      refine ⟨consume (bs.length + 1) (p :: b), ?_, ?_⟩
      · simp only [readUntil, hp, ↓reduceIte, hidx, htake]
      · have hle : bs.length + 1 ≤ (fillBuf (p :: b)).length := by
          simp only [fillBuf, hmore, List.length_append, List.length_cons]
          omega
        rw [bytes_consume hle, bytes_cons, h]
        simp [List.drop_append]
    · -- the whole piece comes before the delimiter
      obtain ⟨more, hbs, hrest⟩ : ∃ more, bs = p.1 ++ more ∧ bytes b = more ++ delim :: rest := by
        rcases List.append_eq_append_iff.mp h with ⟨xs, hbs, hxs⟩ | ⟨xs, hpx, hxs⟩
        · exact ⟨xs, hbs, hxs⟩
        · cases xs with
          | nil => exact ⟨[], by simpa using hpx.symm, by simpa using hxs.symm⟩
          | cons x xs =>
            obtain ⟨rfl, -⟩ : delim = x ∧ rest = xs ++ bytes b := by simpa using hxs
            exact absurd (by simp [hpx]) hp
      have hmore : delim ∉ more := fun hm => hno (hbs ▸ List.mem_append_right _ hm)
      obtain ⟨b', hread, hb'⟩ := ih hmore hrest
      exact ⟨b', by simp [readUntil, hp, hread, hbs], hb'⟩

private theorem fillLoop_buffer (fuel n : Nat) (b : Buffer) (h : n ≤ fuel) :
    ∃ b', fillLoop fuel n b = (.ok ((bytes b).take n), b') ∧ bytes b' = (bytes b).drop n := by
  induction fuel generalizing n b with
  | zero =>
    obtain rfl : n = 0 := by omega
    exact ⟨b, by simp [fillLoop], by simp⟩
  | succ fuel ih =>
    by_cases hn : n = 0
    · exact ⟨b, by simp [fillLoop, hn], by simp [hn]⟩
    · cases b with
      | nil => exact ⟨[], by simp [fillLoop, hn, Read.read, fillBuf, consume], by simp⟩
      | cons p b =>
        -- one read takes what it can from the first piece
        obtain ⟨x, xs, hx⟩ : ∃ x xs, p.1.take n = x :: xs := by
          cases htake : p.1.take n with
          | nil =>
            rcases List.take_eq_nil_iff.mp htake with h0 | hnil
            · exact absurd h0 hn
            · exact absurd hnil p.2
          | cons x xs => exact ⟨x, xs, rfl⟩
        have hlen : (x :: xs).length = min n p.1.length := by rw [← hx, List.length_take]
        have hbytes := bytes_consume (n := (x :: xs).length) (b := p :: b)
          (by simp only [fillBuf]; omega)
        obtain ⟨b', hloop, hb'⟩ := ih (n - (x :: xs).length)
          (consume (x :: xs).length (p :: b)) (by simp only [List.length_cons]; omega)
        refine ⟨b', ?_, ?_⟩
        · simp only [fillLoop, hn, ↓reduceIte, Read.read, fillBuf, hx, hloop, hbytes]
          congr 2
          -- what the first piece gave, and the rest from what is left of it
          have hle : (x :: xs).length ≤ n := by omega
          have hhead : (bytes (p :: b)).take (x :: xs).length = x :: xs := by
            rw [hlen, ← List.take_take, bytes_cons, List.take_left, hx]
          have hsum : (x :: xs).length + (n - (x :: xs).length) = n := by omega
          calc (x :: xs) ++ ((bytes (p :: b)).drop (x :: xs).length).take (n - (x :: xs).length)
              = (bytes (p :: b)).take (x :: xs).length ++
                  ((bytes (p :: b)).drop (x :: xs).length).take (n - (x :: xs).length) := by
                rw [hhead]
            _ = (bytes (p :: b)).take n := by rw [← List.take_add, hsum]
        · rw [hb', hbytes, List.drop_drop]
          congr 1
          omega

/-- An exact read takes that many bytes off the front. -/
theorem readExact_eq {b : Buffer} {bs rest : List UInt8} (h : bytes b = bs ++ rest) :
    ∃ b', readExact bs.length b = (.ok bs, b') ∧ bytes b' = rest := by
  obtain ⟨b', hfill, hb'⟩ := fillLoop_buffer bs.length bs.length b (Nat.le_refl _)
  exact ⟨b', by simp [readExact, fill, hfill, h], by simp [hb', h]⟩

/-- An exact read fails when the input ends before it is done. -/
theorem readExact_short {b : Buffer} {n : Nat} (h : (bytes b).length < n) :
    ∃ b', readExact n b = (.error none, b') := by
  obtain ⟨b', hfill, -⟩ := fillLoop_buffer n n b (Nat.le_refl _)
  have htake : ((bytes b).take n).length < n := by
    rw [List.length_take]
    omega
  exact ⟨b', by simp only [readExact, fill, hfill, htake, ↓reduceIte]⟩

end Buffer

/-! ## UTF-8 text -/

/-- A text in UTF-8. -/
def encodeUtf8 (s : List Char) : List UInt8 := s.flatMap String.utf8EncodeChar

/-- The text that bytes in UTF-8 stand for. -/
def decodeUtf8 (bs : List UInt8) : Option (List Char) :=
  (bs.toByteArray.utf8Decode?).map Array.toList

@[simp] theorem encodeUtf8_append (s t : List Char) :
    encodeUtf8 (s ++ t) = encodeUtf8 s ++ encodeUtf8 t := by
  simp [encodeUtf8]

theorem decodeUtf8_encodeUtf8 (s : List Char) : decodeUtf8 (encodeUtf8 s) = some s := by
  have h : (encodeUtf8 s).toByteArray = s.utf8Encode := rfl
  simp [decodeUtf8, h]

/-- A text of one-byte characters: cutting its bytes anywhere cuts the text. -/
theorem take_encodeUtf8 {s : List Char} (h : ∀ c ∈ s, c.utf8Size = 1) (n : Nat) :
    (encodeUtf8 s).take n = encodeUtf8 (s.take n) := by
  induction s generalizing n with
  | nil => simp [encodeUtf8]
  | cons c s ih =>
    obtain ⟨x, hx⟩ : ∃ x, String.utf8EncodeChar c = [x] :=
      ⟨_, String.utf8EncodeChar_eq_singleton (h c (by simp))⟩
    cases n with
    | zero => simp [encodeUtf8]
    | succ n =>
      have hs := ih (fun d hd => h d (by simp [hd])) n
      simpa [encodeUtf8, hx] using hs

/-- A line of text: the bytes up to and with the next line feed, or all there are, and
how many they were. `none` stands for bytes that are not UTF-8. -/
def readLine (b : Buffer) : Option (Nat × List Char) × Buffer :=
  let (bs, b') := b.readUntil 0x0A
  ((decodeUtf8 bs).map fun line => (bs.length, line), b')

theorem readLine_eq {b : Buffer} {line : List Char} {rest : List UInt8}
    (hno : 0x0A ∉ encodeUtf8 line) (h : b.bytes = encodeUtf8 (line ++ ['\n']) ++ rest) :
    ∃ b', readLine b = (some ((encodeUtf8 (line ++ ['\n'])).length, line ++ ['\n']), b') ∧
      b'.bytes = rest := by
  have hnl : encodeUtf8 (line ++ ['\n']) = encodeUtf8 line ++ [0x0A] := by
    rw [encodeUtf8_append]
    rfl
  have hbytes : b.bytes = encodeUtf8 line ++ 0x0A :: rest := by simpa [hnl] using h
  obtain ⟨b', hread, hb'⟩ := Buffer.readUntil_eq hno hbytes
  refine ⟨b', ?_, hb'⟩
  rw [readLine, hread, ← hnl]
  simp only [decodeUtf8_encodeUtf8, Option.map_some]

/-- A line that the input ends in. -/
theorem readLine_last {b : Buffer} {line : List Char} (hno : 0x0A ∉ encodeUtf8 line)
    (h : b.bytes = encodeUtf8 line) :
    readLine b = (some ((encodeUtf8 line).length, line), []) := by
  have hmem : 0x0A ∉ b.bytes := h ▸ hno
  have hread := Buffer.readUntil_of_not_mem hmem
  simp only [readLine, hread, h, decodeUtf8_encodeUtf8, Option.map_some]

end ByteIO
