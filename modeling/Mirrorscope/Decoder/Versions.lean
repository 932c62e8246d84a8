import Mirrorscope.Lib.Numeral
import Mirrorscope.Lib.Occurrence
import Mirrorscope.Lib.Utf8
import Mirrorscope.Decoder.OwnedTasks

/-! # Versions in binaries

The version of a runtime is found in the bytes of the binary that was built with it, at the first
place where a text stands that every version begins with, and where it can be read on. For that
a few bytes from there on, as many as the longest version has, are taken to be text.
-/

namespace Mirrorscope.Decoder

open ByteIO (encodeUtf8 decodeUtf8 asciiByte encodeUtf8_ascii encodeUtf8_append
  decodeUtf8_encodeUtf8 decodeUtf8_append decodeUtf8_eq_some encodeUtf8_cons utf8EncodeChar_ascii)
open Occurrence (FirstAt)
open Text (split takeWhile_append_head dropWhile_head)

/-! ## Numbers and versions in text -/

/-- A number of 16 bits in decimal, by `str::parse`. -/
def u16FromStr (text : List Char) : Option UInt16 :=
  (Numeral.parse 10 (2 ^ 16) text).map UInt16.ofNat

/-- The number in the digits a text begins with. -/
def parseLeadingNumber (s : List Char) : Option UInt16 :=
  let digits := s.takeWhile Char.isDigit
  if digits = [] then none else u16FromStr digits

/-! ## Tokio -/

namespace AsyncRust

/-- The version in the digits and dots that the bytes begin with. -/
def parseTriple (bytes : List UInt8) : Option TokioVersion := do
  let text ← decodeUtf8 (bytes.take 24)
  let token := text.takeWhile fun c => c.isDigit || c = '.'
  let parts := split '.' token
  let major ← u16FromStr (← parts[0]?)
  let minor ← u16FromStr (← parts[1]?)
  let patch ← u16FromStr (← parts[2]?)
  return { major, minor, patch }

namespace TokioVersion

def needle : List UInt8 := encodeUtf8 "tokio-1.".toList

/-- The version at the first `tokio-1.` that one can be read at. -/
def detectInBytes (bytes : List UInt8) : Option TokioVersion :=
  Occurrence.scanFrom needle
    (fun found => parseTriple (found.drop (encodeUtf8 "tokio-".toList).length)) bytes 0

end TokioVersion

end AsyncRust

/-! ## Go -/

namespace Go

/-- A version of the Go toolchain. -/
structure GoVersion where
  major : UInt16
  minor : UInt16
  patch : UInt16
deriving DecidableEq, Repr

namespace GoVersion

/-- The version a text begins with, after `go` or without it; a patch that is missing or no
number is 0. -/
def parse (text : List Char) : Option GoVersion := do
  let digits := (text.dropPrefix? "go".toList).getD text
  let parts := split '.' digits
  let major ← parseLeadingNumber (← parts[0]?)
  let minor ← parseLeadingNumber (← parts[1]?)
  let patch := (parts[2]?.bind parseLeadingNumber).getD 0
  return { major, minor, patch }

def needle : List UInt8 := encodeUtf8 "go1.".toList

/-- The version at the first `go1.` that one can be read at. -/
def detectInBytes (image : List UInt8) : Option GoVersion :=
  Occurrence.scanFrom needle
    (fun found => (decodeUtf8 (found.take 16)).bind parse) image 0

end GoVersion

end Go

/-! ## Versions as they are written -/

/-- Numbers with dots between them, without leading zeros. -/
def dotted : List UInt16 → List Char
  | [] => []
  | [n] => Nat.toDigits 10 n.toNat
  | n :: ns => Nat.toDigits 10 n.toNat ++ '.' :: dotted ns

/-- The byte may continue a version. -/
def VersionByte (x : UInt8) : Prop := (0x30 ≤ x ∧ x ≤ 0x39) ∨ x = 0x2E

instance (x : UInt8) : Decidable (VersionByte x) :=
  inferInstanceAs (Decidable ((0x30 ≤ x ∧ x ≤ 0x39) ∨ x = 0x2E))

/-- The bytes begin with the text and a version of these numbers, which ends where the next byte
is neither a digit nor a dot, or with the bytes. -/
def Versioned (front : List Char) (bytes : List UInt8) (ns : List UInt16) : Prop :=
  ∃ rest, bytes = encodeUtf8 (front ++ dotted ns) ++ rest ∧ ∀ x ∈ rest.head?, ¬ VersionByte x

def TokioToken (bytes : List UInt8) (v : AsyncRust.TokioVersion) : Prop :=
  v.major = 1 ∧ Versioned "tokio-".toList bytes [v.major, v.minor, v.patch]

/-- A version of the Go toolchain may lack the patch, which is 0 then. -/
def GoToken (bytes : List UInt8) (v : Go.GoVersion) : Prop :=
  v.major = 1 ∧ (Versioned "go".toList bytes [v.major, v.minor, v.patch] ∨
    v.patch = 0 ∧ Versioned "go".toList bytes [v.major, v.minor])

/-! ## Numbers -/

/-- Digits that spell the number, with leading zeros or without. -/
structure Spelled (ds : List Char) (n : UInt16) : Prop where
  ne_nil : ds ≠ []
  digits : ∀ c ∈ ds, c.isDigit = true
  value : Numeral.digitsFrom 10 (2 ^ 16) 0 ds = some n.toNat

theorem Spelled.unique {ds : List Char} {n m : UInt16} (hn : Spelled ds n) (hm : Spelled ds m) :
    n = m :=
  UInt16.toNat_inj.mp (Option.some.inj (hn.value.symm.trans hm.value))

theorem Spelled.no_dot {ds : List Char} {n : UInt16} (h : Spelled ds n) : '.' ∉ ds := by
  intro hdot
  have hdigit := h.digits '.' hdot
  simp at hdigit

theorem spelled_toDigits (n : UInt16) : Spelled (Nat.toDigits 10 n.toNat) n where
  ne_nil := Nat.toDigits_ne_nil
  digits _ hc := Nat.isDigit_of_mem_toDigits (by omega) (by omega) hc
  value := Numeral.digitsFrom_toDigits (by omega) (by omega) n.toNat_lt

theorem u16FromStr_eq_some {ds : List Char} (hds : ∀ c ∈ ds, c.isDigit = true) {n : UInt16} :
    u16FromStr ds = some n ↔ Spelled ds n := by
  cases ds with
  | nil =>
    constructor
    · intro h
      cases h
    · intro h
      exact absurd rfl h.ne_nil
  | cons c ds =>
    have hplus : c ≠ '+' := by
      rintro rfl
      simpa using hds '+' (by simp)
    rw [u16FromStr, Numeral.parse_of_ne_plus hplus, Option.map_eq_some_iff]
    constructor
    · rintro ⟨k, hk, rfl⟩
      have hlt := Numeral.digitsFrom_lt (by decide) hk
      refine ⟨by simp, hds, ?_⟩
      rw [hk, UInt16.toNat_ofNat_of_lt' hlt]
    · intro h
      exact ⟨n.toNat, h.value, UInt16.ofNat_toNat⟩

/-- The text does not begin with a digit. -/
def NoDigit (s : List Char) : Prop := ∀ c ∈ s.head?, c.isDigit = false

/-- A text begins with a number that is followed by no further digit. -/
theorem parseLeadingNumber_eq_some {s : List Char} {n : UInt16} :
    parseLeadingNumber s = some n ↔ ∃ ds rest, s = ds ++ rest ∧ Spelled ds n ∧ NoDigit rest := by
  have hall : ∀ c ∈ s.takeWhile Char.isDigit, c.isDigit = true := fun c hc =>
    List.mem_takeWhile_imp hc
  constructor
  · intro h
    rw [parseLeadingNumber] at h
    split at h
    · cases h
    · exact ⟨_, _, List.takeWhile_append_dropWhile.symm, (u16FromStr_eq_some hall).mp h,
        dropWhile_head Char.isDigit s⟩
  · rintro ⟨ds, rest, rfl, hds, hrest⟩
    rw [parseLeadingNumber, takeWhile_append_head hds.digits hrest, if_neg hds.ne_nil]
    exact (u16FromStr_eq_some hds.digits).mpr hds

/-! ## Dotted numbers -/

theorem dotted_cons (n : UInt16) {ns : List UInt16} (h : ns ≠ []) :
    dotted (n :: ns) = Nat.toDigits 10 n.toNat ++ '.' :: dotted ns := by
  obtain ⟨m, ns, rfl⟩ := List.exists_cons_of_ne_nil h
  rfl

/-- A version that begins with 1. -/
theorem dotted_one {ns : List UInt16} (h : ns ≠ []) : dotted (1 :: ns) = '1' :: '.' :: dotted ns := by
  have hone : Nat.toDigits 10 (1 : UInt16).toNat = ['1'] := by decide
  rw [dotted_cons 1 h, hone]
  rfl

theorem split_dotted {ns : List UInt16} (h : ns ≠ []) :
    split '.' (dotted ns) = ns.map fun n => Nat.toDigits 10 n.toNat := by
  induction ns with
  | nil => exact absurd rfl h
  | cons n ns ih =>
    have hdot := (spelled_toDigits n).no_dot
    by_cases hns : ns = []
    · subst hns
      exact Text.split_of_not_mem hdot
    · rw [dotted_cons n hns, Text.split_append hdot, ih hns, List.map_cons]

theorem dotted_inj {ns ms : List UInt16} (hns : ns ≠ []) (hms : ms ≠ [])
    (h : dotted ns = dotted ms) : ns = ms := by
  have hsplit := congrArg (split '.') h
  rw [split_dotted hns, split_dotted hms] at hsplit
  refine List.map_injective_iff.mpr ?_ hsplit
  intro n m hnm
  have hm := spelled_toDigits m
  rw [← show Nat.toDigits 10 n.toNat = Nat.toDigits 10 m.toNat from hnm] at hm
  exact (spelled_toDigits n).unique hm

theorem mem_dotted {ns : List UInt16} {c : Char} (hc : c ∈ dotted ns) :
    c.isDigit = true ∨ c = '.' := by
  induction ns with
  | nil => cases hc
  | cons n ns ih =>
    by_cases hns : ns = []
    · subst hns
      exact .inl ((spelled_toDigits n).digits c hc)
    · rw [dotted_cons n hns, List.mem_append, List.mem_cons] at hc
      rcases hc with hc | rfl | hc
      · exact .inl ((spelled_toDigits n).digits c hc)
      · exact .inr rfl
      · exact ih hc

theorem length_dotted {ns : List UInt16} (h : ns ≠ []) : (dotted ns).length + 1 ≤ 6 * ns.length := by
  have hdigits : ∀ n : UInt16, (Nat.toDigits 10 n.toNat).length ≤ 5 := by
    intro n
    have hlt := n.toNat_lt
    exact (Nat.length_toDigits_le_iff (by omega) (by omega)).mpr (by omega)
  induction ns with
  | nil => exact absurd rfl h
  | cons n ns ih =>
    have hn := hdigits n
    by_cases hns : ns = []
    · subst hns
      simp only [dotted, List.length_cons, List.length_nil]
      omega
    · have hrest := ih hns
      rw [dotted_cons n hns, List.length_append, List.length_cons, List.length_cons]
      omega

/-- What a version is written with is what may continue one. -/
theorem versionByte_asciiByte {c : Char} (hc : c.toNat < 128) :
    VersionByte (asciiByte c) ↔ c.isDigit = true ∨ c = '.' := by
  have hall : ∀ n < 128, VersionByte (UInt8.ofNat n) ↔ (0x30 ≤ n ∧ n ≤ 0x39) ∨ n = 0x2E := by
    decide
  have hdot : c = '.' ↔ c.toNat = 0x2E := Char.toNat_inj.symm
  rw [asciiByte, hall c.toNat hc, Char.isDigit_iff_toNat, hdot]
  rfl

theorem ascii_of_versionChar {c : Char} (hc : c.isDigit = true ∨ c = '.') : c.toNat < 128 := by
  rcases hc with hdigit | rfl
  · have h := Char.isDigit_iff_toNat.mp hdigit
    have h9 : '9'.toNat = 57 := rfl
    omega
  · decide

theorem length_encodeUtf8_dotted {front : List Char} (hfront : ∀ c ∈ front, c.toNat < 128)
    (ns : List UInt16) :
    (encodeUtf8 (front ++ dotted ns)).length = front.length + (dotted ns).length := by
  have hascii : ∀ c ∈ front ++ dotted ns, c.toNat < 128 := by
    intro c hc
    rcases List.mem_append.mp hc with hc | hc
    · exact hfront c hc
    · exact ascii_of_versionChar (mem_dotted hc)
  rw [encodeUtf8_ascii hascii, List.length_map, List.length_append]

namespace Versioned

variable {front : List Char} {bytes : List UInt8} {ns ms : List UInt16}

/-- Bytes begin with at most one version. -/
theorem unique (h : Versioned front bytes ns) (h' : Versioned front bytes ms) (hns : ns ≠ [])
    (hms : ms ≠ []) : ns = ms := by
  -- the digits and dots behind the text before the version are those of the version
  have hrun : ∀ {ks}, Versioned front bytes ks →
      (bytes.drop (encodeUtf8 front).length).takeWhile (fun x => decide (VersionByte x)) =
        encodeUtf8 (dotted ks) := by
    rintro ks ⟨rest, rfl, hrest⟩
    rw [encodeUtf8_append, List.append_assoc, List.drop_left]
    refine takeWhile_append_head ?_ fun x hx => decide_eq_false (hrest x hx)
    have hascii : ∀ c ∈ dotted ks, c.toNat < 128 := fun c hc => ascii_of_versionChar (mem_dotted hc)
    rw [encodeUtf8_ascii hascii]
    intro x hx
    obtain ⟨c, hc, rfl⟩ := List.mem_map.mp hx
    exact decide_eq_true ((versionByte_asciiByte (hascii c hc)).mpr (mem_dotted hc))
  have hsame := congrArg decodeUtf8 ((hrun h).symm.trans (hrun h'))
  rw [decodeUtf8_encodeUtf8, decodeUtf8_encodeUtf8] at hsame
  exact dotted_inj hns hms (Option.some.inj hsame)

/-- The text before the version may be left out. -/
theorem drop_front (h : Versioned front bytes ns) :
    Versioned [] (bytes.drop (encodeUtf8 front).length) ns := by
  obtain ⟨rest, rfl, hrest⟩ := h
  refine ⟨rest, ?_, hrest⟩
  rw [encodeUtf8_append, List.append_assoc, List.drop_left, List.nil_append]

/-- A window that holds the version is text up to its end, and what comes next does not continue
it; or the window is no text. -/
theorem window (h : Versioned front bytes ns) {n : Nat}
    (hlen : (encodeUtf8 (front ++ dotted ns)).length ≤ n) :
    decodeUtf8 (bytes.take n) = none ∨
      ∃ rest, decodeUtf8 (bytes.take n) = some (front ++ dotted ns ++ rest) ∧
        ∀ c ∈ rest.head?, c.isDigit = false ∧ c ≠ '.' := by
  obtain ⟨tail, rfl, htail⟩ := h
  rw [List.take_append, List.take_of_length_le hlen, decodeUtf8_append]
  generalize n - (encodeUtf8 (front ++ dotted ns)).length = k
  cases hrest : decodeUtf8 (tail.take k) with
  | none => exact .inl rfl
  | some rest =>
    refine .inr ⟨rest, rfl, ?_⟩
    intro c hc
    obtain ⟨more, rfl⟩ : ∃ more, rest = c :: more := List.head?_eq_some_iff.mp hc
    have hbytes := decodeUtf8_eq_some.mp hrest
    by_contra hcont
    have hor : c.isDigit = true ∨ c = '.' := by
      by_contra hno
      simp only [not_or, Bool.not_eq_true] at hno
      exact hcont hno
    -- the byte of such a character would continue the version
    have hascii := ascii_of_versionChar hor
    rw [encodeUtf8_cons, utf8EncodeChar_ascii hascii] at hbytes
    have hmem : asciiByte c ∈ tail.head? := by
      cases tail with
      | nil => simp at hbytes
      | cons x tail =>
        cases k with
        | zero => simp at hbytes
        | succ k =>
          rw [List.take_succ_cons, List.singleton_append] at hbytes
          exact congrArg some (List.cons_eq_cons.mp hbytes).1.symm
    exact htail _ hmem ((versionByte_asciiByte hascii).mpr hor)

end Versioned

end Mirrorscope.Decoder
