import Mirrorscope.Lib.Buffered

/-! # Text within bytes

Bytes that are a text in UTF-8 can be cut at every one-byte character and behind every
text they begin with, and both parts are texts again.
-/

namespace ByteIO

/-- The byte of a one-byte character. -/
def asciiByte (c : Char) : UInt8 := UInt8.ofNat c.toNat

theorem utf8EncodeChar_ascii {c : Char} (h : c.toNat < 128) :
    String.utf8EncodeChar c = [asciiByte c] := by
  have hle : c.val.toNat ≤ 0x7f := Nat.le_of_lt_succ h
  rw [String.utf8EncodeChar, if_pos hle]
  rfl

@[simp] theorem encodeUtf8_nil : encodeUtf8 [] = [] := rfl

@[simp] theorem encodeUtf8_cons (c : Char) (s : List Char) :
    encodeUtf8 (c :: s) = String.utf8EncodeChar c ++ encodeUtf8 s := rfl

theorem encodeUtf8_ascii {s : List Char} (h : ∀ c ∈ s, c.toNat < 128) :
    encodeUtf8 s = s.map asciiByte := by
  induction s with
  | nil => rfl
  | cons c s ih =>
    rw [encodeUtf8_cons, utf8EncodeChar_ascii (h c (by simp)), ih fun d hd => h d (by simp [hd])]
    rfl

/-- Bytes that decode to a text are its encoding. -/
theorem decodeUtf8_eq_some {bs : List UInt8} {s : List Char} :
    decodeUtf8 bs = some s ↔ encodeUtf8 s = bs := by
  constructor
  · intro h
    obtain ⟨a, ha, rfl⟩ := Option.map_eq_some_iff.mp h
    have hencode := @ByteArray.utf8Encode_get_utf8Decode? bs.toByteArray (by simp [ha])
    simp only [ha, Option.get_some] at hencode
    exact List.toByteArray_inj.mp hencode
  · rintro rfl
    exact decodeUtf8_encodeUtf8 s

/-- A text is decoded off the front. -/
theorem decodeUtf8_append (s : List Char) (bs : List UInt8) :
    decodeUtf8 (encodeUtf8 s ++ bs) = (decodeUtf8 bs).map (s ++ ·) := by
  induction s with
  | nil => simp
  | cons c s ih =>
    have hbytes : (encodeUtf8 (c :: s) ++ bs).toByteArray =
        [c].utf8Encode ++ (encodeUtf8 s ++ bs).toByteArray := by
      rw [List.utf8Encode_singleton, ← List.toByteArray_append, encodeUtf8_cons, List.append_assoc]
    have hstep := @ByteArray.utf8Decode?_utf8Encode_singleton_append
      (encodeUtf8 s ++ bs).toByteArray c
    rw [decodeUtf8, hbytes, hstep]
    rw [decodeUtf8] at ih
    cases hrest : (encodeUtf8 s ++ bs).toByteArray.utf8Decode? with
    | none =>
      rw [hrest, Option.map_none, eq_comm, Option.map_eq_none_iff] at ih
      simp [ih]
    | some a =>
      rw [hrest, Option.map_some, eq_comm, Option.map_eq_some_iff] at ih
      obtain ⟨t, ht, happ⟩ := ih
      simp [ht, happ]

/-- A byte of an encoded character is the character itself, or has its high bit set and is none
of the highest. -/
theorem mem_utf8EncodeChar {c : Char} {x : UInt8} (hx : x ∈ String.utf8EncodeChar c) :
    (x.toNat = c.toNat ∧ x.toNat < 128) ∨ (128 ≤ x.toNat ∧ x.toNat < 0xF8) := by
  have hhigh : ∀ n, 128 ≤ n → n < 0xF8 → x = UInt8.ofNat n →
      (x.toNat = c.toNat ∧ x.toNat < 128) ∨ (128 ≤ x.toNat ∧ x.toNat < 0xF8) := by
    rintro n hlo hhi rfl
    rw [UInt8.toNat_ofNat_of_lt' (Nat.lt_trans hhi (by decide))]
    exact .inr ⟨hlo, hhi⟩
  rw [String.utf8EncodeChar] at hx
  generalize hv : c.val.toNat = v at hx
  have hc : c.toNat = v := hv
  split at hx
  · rename_i hle
    rw [List.mem_singleton.mp hx, hc, UInt8.toNat_ofNat_of_lt' (Nat.lt_of_le_of_lt hle (by decide))]
    exact .inl ⟨rfl, by omega⟩
  split at hx
  · simp only [List.mem_cons, List.not_mem_nil, or_false] at hx
    rcases hx with hx | hx <;> exact hhigh _ (by omega) (by omega) hx
  split at hx
  · simp only [List.mem_cons, List.not_mem_nil, or_false] at hx
    rcases hx with hx | hx | hx <;> exact hhigh _ (by omega) (by omega) hx
  · simp only [List.mem_cons, List.not_mem_nil, or_false] at hx
    rcases hx with hx | hx | hx | hx <;> exact hhigh _ (by omega) (by omega) hx

/-- A byte that no character is encoded with. -/
theorem decodeUtf8_eq_none {bs : List UInt8} (h : 0xFF ∈ bs) : decodeUtf8 bs = none := by
  rw [Option.eq_none_iff_forall_ne_some]
  intro s hs
  rw [← decodeUtf8_eq_some.mp hs] at h
  obtain ⟨c, -, hc⟩ := List.mem_flatMap.mp h
  have hff : (0xFF : UInt8).toNat = 255 := rfl
  rcases mem_utf8EncodeChar hc with ⟨-, hlt⟩ | ⟨-, hlt⟩ <;> omega

theorem eq_of_asciiByte_mem {c d : Char} (hc : c.toNat < 128)
    (h : asciiByte c ∈ String.utf8EncodeChar d) : d = c := by
  have hbyte : (asciiByte c).toNat = c.toNat :=
    UInt8.toNat_ofNat_of_lt' (Nat.lt_trans hc (by decide))
  rcases mem_utf8EncodeChar h with ⟨heq, -⟩ | ⟨hle, -⟩
  · exact Char.toNat_inj.mp (heq.symm.trans hbyte)
  · omega

theorem mem_of_asciiByte_mem {c : Char} (hc : c.toNat < 128) {s : List Char}
    (h : asciiByte c ∈ encodeUtf8 s) : c ∈ s := by
  obtain ⟨d, hd, hmem⟩ := List.mem_flatMap.mp h
  rwa [← eq_of_asciiByte_mem hc hmem]

/-- Wherever a one-byte character stands in the bytes of a text, it stands in the text. -/
theorem encodeUtf8_split {s : List Char} {c : Char} (hc : c.toNat < 128) {front back : List UInt8}
    (h : encodeUtf8 s = front ++ asciiByte c :: back) :
    ∃ t u, s = t ++ c :: u ∧ encodeUtf8 t = front ∧ encodeUtf8 u = back := by
  induction s generalizing front with
  | nil => simp at h
  | cons d s ih =>
    rw [encodeUtf8_cons] at h
    rcases List.append_eq_append_iff.mp h with ⟨more, hfront, hrest⟩ | ⟨more, hd, hrest⟩
    · obtain ⟨t, u, rfl, ht, hu⟩ := ih hrest
      exact ⟨d :: t, u, rfl, by rw [encodeUtf8_cons, ht, hfront], hu⟩
    · cases more with
      | nil =>
        have hs : encodeUtf8 s = [] ++ asciiByte c :: back := by simpa using hrest.symm
        obtain ⟨t, u, rfl, ht, hu⟩ := ih hs
        exact ⟨d :: t, u, rfl, by rw [encodeUtf8_cons, ht, hd]; simp, hu⟩
      | cons x more =>
        -- the character whose bytes it is among has no other byte
        obtain ⟨rfl, hback⟩ : asciiByte c = x ∧ back = more ++ encodeUtf8 s := by simpa using hrest
        obtain rfl := eq_of_asciiByte_mem hc (by simp [hd] : asciiByte c ∈ String.utf8EncodeChar d)
        rw [utf8EncodeChar_ascii hc] at hd
        obtain ⟨rfl, rfl⟩ : front = [] ∧ more = [] := by
          have hlen := congrArg List.length hd
          simp only [List.length_append, List.length_cons, List.length_nil] at hlen
          exact ⟨List.length_eq_zero_iff.mp (by omega), List.length_eq_zero_iff.mp (by omega)⟩
        exact ⟨[], s, rfl, rfl, hback.symm⟩

/-- The bytes before and after a one-byte character are decoded apart. -/
theorem decodeUtf8_split {c : Char} (hc : c.toNat < 128) (front back : List UInt8) :
    decodeUtf8 (front ++ asciiByte c :: back) =
      (decodeUtf8 front).bind fun t => (decodeUtf8 back).map fun u => t ++ c :: u := by
  have hencode : ∀ t u, encodeUtf8 (t ++ c :: u) = encodeUtf8 t ++ asciiByte c :: encodeUtf8 u := by
    intro t u
    rw [encodeUtf8_append, encodeUtf8_cons, utf8EncodeChar_ascii hc, List.singleton_append]
  apply Option.ext
  intro s
  simp only [Option.bind_eq_some_iff, Option.map_eq_some_iff, decodeUtf8_eq_some]
  constructor
  · intro h
    obtain ⟨t, u, rfl, ht, hu⟩ := encodeUtf8_split hc h
    exact ⟨t, ht, u, hu, rfl⟩
  · rintro ⟨t, rfl, u, rfl, rfl⟩
    exact hencode t u

end ByteIO
