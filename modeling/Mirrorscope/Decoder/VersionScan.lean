import Mirrorscope.Decoder.Versions

/-! # What a version scan finds

The scan gives the version of the first place that a version can be read at. That is the first
place with a version, unless one is not read because of the bytes behind it, or something else is
read as a version before it.
-/

namespace Mirrorscope.Decoder

open ByteIO (encodeUtf8 decodeUtf8 encodeUtf8_append decodeUtf8_append decodeUtf8_eq_some
  decodeUtf8_eq_none)
open Occurrence (FirstAt SameFirst)
open Relator (RightUnique)
open Text (split takeWhile_append_head dropWhile_head)

/-! ## What is found and what is there -/

section Found

variable {V : Type} {Token Reading Clean : List UInt8 → V → Prop} {Legible : List UInt8 → Prop}

/-- The answer is the first version that is written in the image, and that there is none if
there is none. -/
def FindsFirst (Token : List UInt8 → V → Prop) (answer : Option V) (image : List UInt8) : Prop :=
  (∀ v, answer = some v ↔ FirstAt Token image v) ∧
    (answer = none ↔ ∀ i v, ¬ Token (image.drop i) v)

/-- At the first place with a version, or with something that is read as one: a version there
is read as it is written, or else not at all, and the next thing that is read is the same;
what is read there is written, or else nothing is, and the next version that is written is the
same. -/
def ReadAsWritten (Token Reading Clean : List UInt8 → V → Prop) (Legible : List UInt8 → Prop)
    (image : List UInt8) : Prop :=
  ∀ i, (∀ j < i, ∀ w, ¬ Token (image.drop j) w ∧ ¬ Reading (image.drop j) w) → ∀ v,
    (Token (image.drop i) v →
      Clean (image.drop i) v ∨
        ¬ Legible (image.drop i) ∧ FirstAt Reading (image.drop (i + 1)) v) ∧
    (Reading (image.drop i) v →
      Token (image.drop i) v ∨
        (∀ w, ¬ Token (image.drop i) w) ∧ FirstAt Token (image.drop (i + 1)) v)

/-- A scan that stops at the first reading finds the first version exactly if versions are read
as they are written, as far as it matters. -/
theorem findsFirst_iff (hToken : RightUnique Token) (hReading : RightUnique Reading)
    (hclean : ∀ {bytes v}, Token bytes v → (Reading bytes v ↔ Clean bytes v))
    (hlegible : ∀ {bytes v}, Token bytes v → ((∃ w, Reading bytes w) ↔ Legible bytes))
    {answer : Option V} {image : List UInt8}
    (hanswer : ∀ v, answer = some v ↔ FirstAt Reading image v) :
    FindsFirst Token answer image ↔ ReadAsWritten Token Reading Clean Legible image := by
  have hsame : FindsFirst Token answer image ↔ SameFirst Token Reading image := by
    constructor
    · intro h v
      rw [← h.1 v, hanswer v]
    · intro h
      have hsome : ∀ v, answer = some v ↔ FirstAt Token image v := fun v => by
        rw [hanswer v, h v]
      refine ⟨hsome, ?_⟩
      constructor
      · intro hnone i v hv
        obtain ⟨w, hw⟩ := Occurrence.exists_firstAt hv
        rw [(hsome w).mpr hw] at hnone
        cases hnone
      · intro hno
        rw [Option.eq_none_iff_forall_ne_some]
        intro v hv
        obtain ⟨i, hi, -⟩ := (hsome v).mp hv
        exact hno i v hi
  rw [hsame, Occurrence.sameFirst_iff hToken hReading]
  -- the two say the same of every place: only what makes a token unread is put differently
  apply forall_congr'
  intro i
  apply imp_congr_right
  intro _
  apply forall_congr'
  intro v
  apply and_congr_left
  intro _
  apply imp_congr_right
  intro hv
  rw [hclean hv, ← hlegible hv, not_exists]

end Found

/-! ## Tokio -/

/-- The digits and dots that `parse_triple` reads a version from: three numbers, with leading
zeros or without, in 24 bytes of text; more dots and numbers may follow. -/
def ReadsTriple (bytes : List UInt8) (v : AsyncRust.TokioVersion) : Prop :=
  ∃ a b c rest, decodeUtf8 (bytes.take 24) = some (a ++ '.' :: (b ++ '.' :: (c ++ rest))) ∧
    Spelled a v.major ∧ Spelled b v.minor ∧ Spelled c v.patch ∧ NoDigit rest

/-- The parts of digits and dots are digits. -/
theorem digits_of_part {token part : List Char} (htoken : ∀ c ∈ token, c.isDigit = true ∨ c = '.')
    (hsub : ∀ c ∈ part, c ∈ token) (hdot : '.' ∉ part) : ∀ c ∈ part, c.isDigit = true := by
  intro c hc
  rcases htoken c (hsub c hc) with hdigit | rfl
  · exact hdigit
  · exact absurd hc hdot

/-- The characters `parse_triple` goes through. -/
def isVersionChar (c : Char) : Bool := c.isDigit || c = '.'

theorem isVersionChar_eq_true {c : Char} : isVersionChar c = true ↔ c.isDigit = true ∨ c = '.' := by
  simp [isVersionChar]

theorem ReadsTriple.of_parse {bytes : List UInt8} {v : AsyncRust.TokioVersion}
    (h : AsyncRust.parseTriple bytes = some v) : ReadsTriple bytes v := by
  obtain ⟨text, htext, h⟩ := Option.bind_eq_some_iff.mp h
  obtain ⟨a, hpart₀, h⟩ := Option.bind_eq_some_iff.mp h
  obtain ⟨major, ha, h⟩ := Option.bind_eq_some_iff.mp h
  obtain ⟨b, hpart₁, h⟩ := Option.bind_eq_some_iff.mp h
  obtain ⟨minor, hb, h⟩ := Option.bind_eq_some_iff.mp h
  obtain ⟨c, hpart₂, h⟩ := Option.bind_eq_some_iff.mp h
  obtain ⟨patch, hc, h⟩ := Option.bind_eq_some_iff.mp h
  rcases Option.some.inj h with rfl
  have hall : text.takeWhile isVersionChar ++ text.dropWhile isVersionChar = text :=
    List.takeWhile_append_dropWhile
  have hchars : ∀ d ∈ text.takeWhile isVersionChar, d.isDigit = true ∨ d = '.' := fun d hd =>
    isVersionChar_eq_true.mp (List.mem_takeWhile_imp hd)
  change (split '.' (text.takeWhile isVersionChar))[_]? = _ at hpart₀ hpart₁ hpart₂
  generalize text.takeWhile isVersionChar = token at hpart₀ hpart₁ hpart₂ hall hchars
  obtain ⟨parts, hparts⟩ : ∃ parts, split '.' token = a :: b :: c :: parts := by
    generalize split '.' token = all at hpart₀ hpart₁ hpart₂
    rcases all with _ | ⟨x, _ | ⟨y, _ | ⟨z, parts⟩⟩⟩ <;> simp_all
  -- two dots at least, and a third one or nothing behind the patch
  obtain ⟨hdota, ⟨-, hnil⟩ | ⟨more₁, rfl, hsplit₁⟩⟩ := Text.split_eq_cons hparts
  · cases hnil
  obtain ⟨hdotb, ⟨-, hnil⟩ | ⟨more₂, rfl, hsplit₂⟩⟩ := Text.split_eq_cons hsplit₁
  · cases hnil
  obtain ⟨hdotc, hlast⟩ := Text.split_eq_cons hsplit₂
  obtain ⟨tail, rfl, htail⟩ : ∃ tail, more₂ = c ++ tail ∧ ∀ d ∈ tail.head?, d = '.' := by
    rcases hlast with ⟨rfl, -⟩ | ⟨more, rfl, -⟩
    · exact ⟨[], by simp, by simp⟩
    · exact ⟨'.' :: more, rfl, by simp⟩
  have hspell : ∀ {part n}, u16FromStr part = some n →
      (∀ d ∈ part, d ∈ a ++ '.' :: (b ++ '.' :: (c ++ tail))) → '.' ∉ part → Spelled part n :=
    fun hpart hsub hdot => (u16FromStr_eq_some (digits_of_part hchars hsub hdot)).mp hpart
  refine ⟨a, b, c, tail ++ text.dropWhile isVersionChar, ?_, hspell ha (by simp +contextual) hdota,
    hspell hb (by simp +contextual) hdotb, hspell hc (by simp +contextual) hdotc, ?_⟩
  · rw [htext, Option.some.injEq]
    simpa using hall.symm
  · intro d hd
    cases tail with
    | nil =>
      have hhead := dropWhile_head isVersionChar text d hd
      simp only [isVersionChar, Bool.or_eq_false_iff] at hhead
      exact hhead.1
    | cons e tail =>
      obtain rfl : e = '.' := htail e rfl
      obtain rfl : '.' = d := Option.some.inj hd
      decide

theorem parseTriple_of_reads {bytes : List UInt8} {v : AsyncRust.TokioVersion}
    (h : ReadsTriple bytes v) : AsyncRust.parseTriple bytes = some v := by
  obtain ⟨a, b, c, rest, htext, ha, hb, hc, hrest⟩ := h
  have hpass : ∀ {ds n}, Spelled ds n → ∀ d ∈ ds, isVersionChar d = true := fun hds d hd =>
    isVersionChar_eq_true.mpr (.inl (hds.digits d hd))
  have hdot : isVersionChar '.' = true := by decide
  have htoken : (a ++ '.' :: (b ++ '.' :: (c ++ rest))).takeWhile isVersionChar =
      a ++ '.' :: (b ++ '.' :: (c ++ rest.takeWhile isVersionChar)) := by
    rw [List.takeWhile_append_of_pos (hpass ha), List.takeWhile_cons_of_pos hdot,
      List.takeWhile_append_of_pos (hpass hb), List.takeWhile_cons_of_pos hdot,
      List.takeWhile_append_of_pos (hpass hc)]
  -- a dot is all that the patch may be followed by in the token
  have hhead : ∀ d ∈ (rest.takeWhile isVersionChar).head?, d = '.' := by
    intro d hd
    cases rest with
    | nil => cases hd
    | cons e rest =>
      cases he : isVersionChar e with
      | false => simp [he] at hd
      | true =>
        obtain rfl : e = d := by simpa [he] using hd
        have hno := hrest e rfl
        rcases isVersionChar_eq_true.mp he with hyes | hdot
        · rw [hyes] at hno
          cases hno
        · exact hdot
  obtain ⟨parts, hparts⟩ := Text.split_append_head hc.no_dot hhead
  have hsplit := congrArg (split '.') htoken
  rw [Text.split_append ha.no_dot, Text.split_append hb.no_dot, hparts] at hsplit
  have hwhile : (fun c : Char => c.isDigit || decide (c = '.')) = isVersionChar := rfl
  simp [AsyncRust.parseTriple, htext, hwhile, hsplit, (u16FromStr_eq_some ha.digits).mpr ha,
    (u16FromStr_eq_some hb.digits).mpr hb, (u16FromStr_eq_some hc.digits).mpr hc]

/-- A version is read at the place. -/
def TokioReading (bytes : List UInt8) (v : AsyncRust.TokioVersion) : Prop :=
  AsyncRust.TokioVersion.needle <+: bytes ∧
    ReadsTriple (bytes.drop (encodeUtf8 "tokio-".toList).length) v

/-- The bytes that the version is looked for in are text. -/
def TokioLegible (bytes : List UInt8) : Prop :=
  (decodeUtf8 ((bytes.drop (encodeUtf8 "tokio-".toList).length).take 24)).isSome

theorem hit_iff_tokioReading {bytes : List UInt8} {v : AsyncRust.TokioVersion} :
    Occurrence.Hit AsyncRust.TokioVersion.needle
      (fun found => AsyncRust.parseTriple (found.drop (encodeUtf8 "tokio-".toList).length)) bytes v ↔
      TokioReading bytes v :=
  and_congr_right fun _ => ⟨ReadsTriple.of_parse, parseTriple_of_reads⟩

theorem tokio_detectInBytes {image : List UInt8} {v : AsyncRust.TokioVersion} :
    AsyncRust.TokioVersion.detectInBytes image = some v ↔ FirstAt TokioReading image v := by
  have hneedle : AsyncRust.TokioVersion.needle ≠ [] ∧
      Occurrence.Unbordered AsyncRust.TokioVersion.needle := by decide
  rw [AsyncRust.TokioVersion.detectInBytes, Occurrence.scanFrom_eq_some hneedle.1 hneedle.2,
    List.drop_zero]
  exact Occurrence.firstAt_congr fun _ _ => hit_iff_tokioReading

theorem TokioToken.rightUnique : RightUnique TokioToken := by
  rintro bytes ⟨major, minor, patch⟩ ⟨major', minor', patch'⟩ ⟨hmajor, h⟩ ⟨hmajor', h'⟩
  have hns := h.unique h' (by simp) (by simp)
  simp_all

theorem TokioReading.rightUnique : RightUnique TokioReading := by
  rintro bytes v w ⟨-, hv⟩ ⟨-, hw⟩
  exact Option.some.inj ((parseTriple_of_reads hv).symm.trans (parseTriple_of_reads hw))

/-- A version is read from text behind which it ends. -/
theorem TokioToken.reading {bytes : List UInt8} {v : AsyncRust.TokioVersion}
    (h : TokioToken bytes v) (hlegible : TokioLegible bytes) : TokioReading bytes v := by
  obtain ⟨hmajor, hv⟩ := h
  constructor
  · obtain ⟨rest, rfl, -⟩ := hv
    have hfront : "tokio-".toList ++ dotted [v.major, v.minor, v.patch] =
        "tokio-1.".toList ++ dotted [v.minor, v.patch] := by
      rw [hmajor, dotted_one (by simp)]
      rfl
    rw [hfront, encodeUtf8_append, List.append_assoc]
    exact List.prefix_append _ _
  · have hlen : (encodeUtf8 ([] ++ dotted [v.major, v.minor, v.patch])).length ≤ 24 := by
      have hdotted := length_dotted (by simp : [v.major, v.minor, v.patch] ≠ [])
      rw [length_encodeUtf8_dotted (by simp)]
      simp only [List.length_cons, List.length_nil] at hdotted ⊢
      omega
    rcases hv.drop_front.window hlen with hnone | ⟨rest, hsome, hrest⟩
    · rw [TokioLegible, hnone] at hlegible
      cases hlegible
    · refine ⟨_, _, _, rest, ?_, spelled_toDigits v.major, spelled_toDigits v.minor,
        spelled_toDigits v.patch, fun c hc => (hrest c hc).1⟩
      rw [hsome]
      simp [dotted]

theorem TokioReading.legible {bytes : List UInt8} {v : AsyncRust.TokioVersion}
    (h : TokioReading bytes v) : TokioLegible bytes := by
  obtain ⟨-, a, b, c, rest, htext, -⟩ := h
  rw [TokioLegible, htext]
  rfl

/-! ## Go -/

/-- The number behind the next dot, 0 if there is none. -/
def patchIn (s : List Char) : UInt16 :=
  match s.dropWhile (· ≠ '.') with
  | [] => 0
  | _ :: more => (parseLeadingNumber more).getD 0

theorem patchIn_append {front : List Char} (h : '.' ∉ front) (s : List Char) :
    patchIn (front ++ s) = patchIn s := by
  have hpass : ∀ c ∈ front, decide (c ≠ '.') = true := by
    intro c hc
    simp only [decide_eq_true_eq]
    rintro rfl
    exact h hc
  rw [patchIn, patchIn, List.dropWhile_append_of_pos hpass]

/-- Digits end at the next dot. -/
theorem parseLeadingNumber_append (s more : List Char) :
    parseLeadingNumber (s ++ '.' :: more) = parseLeadingNumber s := by
  have hall : s.takeWhile Char.isDigit ++ s.dropWhile Char.isDigit = s :=
    List.takeWhile_append_dropWhile
  have hdigits : ∀ c ∈ s.takeWhile Char.isDigit, c.isDigit = true := fun c hc =>
    List.mem_takeWhile_imp hc
  have hnext : ∀ c ∈ (s.dropWhile Char.isDigit ++ '.' :: more).head?, c.isDigit = false := by
    intro c hc
    cases hrest : s.dropWhile Char.isDigit with
    | nil =>
      obtain rfl : '.' = c := by simpa [hrest] using hc
      decide
    | cons d rest =>
      have hd := dropWhile_head Char.isDigit s d (by simp [hrest])
      obtain rfl : d = c := by simpa [hrest] using hc
      exact hd
  have hwhile := takeWhile_append_head hdigits hnext
  rw [← List.append_assoc, hall] at hwhile
  rw [parseLeadingNumber, parseLeadingNumber, hwhile]

theorem parseLeadingNumber_split {s part : List Char} {parts : List (List Char)}
    (h : split '.' s = part :: parts) : parseLeadingNumber s = parseLeadingNumber part := by
  rcases Text.split_eq_cons h with ⟨-, ⟨rfl, -⟩ | ⟨more, rfl, -⟩⟩
  · rfl
  · exact parseLeadingNumber_append part more

/-- The number in the part behind the first dot, if there is one. -/
theorem patchIn_split {s part : List Char} {parts : List (List Char)}
    (h : split '.' s = part :: parts) :
    patchIn s = (parts[0]?.bind parseLeadingNumber).getD 0 := by
  rcases Text.split_eq_cons h with ⟨hdot, ⟨rfl, rfl⟩ | ⟨more, rfl, hmore⟩⟩
  · have hnone := patchIn_append hdot []
    rw [List.append_nil] at hnone
    rw [hnone]
    rfl
  · rw [patchIn_append hdot]
    obtain ⟨next, rest, rfl⟩ : ∃ next rest, parts = next :: rest :=
      List.exists_cons_of_ne_nil (hmore ▸ Text.split_ne_nil more)
    rw [List.getElem?_cons_zero, Option.bind_some, ← parseLeadingNumber_split hmore]
    simp [patchIn]

/-- The minor version and the patch are read off what follows `go1.`. -/
theorem parse_go (s : List Char) :
    Go.GoVersion.parse ("go1.".toList ++ s) =
      (parseLeadingNumber s).map fun minor => { major := 1, minor, patch := patchIn s } := by
  have hdigits : (("go1.".toList ++ s).dropPrefix? "go".toList).getD ("go1.".toList ++ s) =
      ['1'] ++ '.' :: s := by
    simp [List.dropPrefix?]
  have hone : parseLeadingNumber ['1'] = some 1 := by decide
  obtain ⟨part, parts, hparts⟩ := List.exists_cons_of_ne_nil
    (Text.split_ne_nil s : split '.' s ≠ [])
  rw [patchIn_split hparts, parseLeadingNumber_split hparts]
  simp only [Go.GoVersion.parse, hdigits, Text.split_append (by decide : '.' ∉ ['1']), hparts]
  cases hminor : parseLeadingNumber part with
  | none => simp [hminor]
  | some minor => simp [hone, hminor]

/-- A version is read at the place: a number for the minor version, with leading zeros or without,
in 16 bytes of text, and whatever number is behind the next dot in them for the patch. -/
def GoReading (bytes : List UInt8) (v : Go.GoVersion) : Prop :=
  v.major = 1 ∧ ∃ minor rest,
    decodeUtf8 (bytes.take 16) = some ("go1.".toList ++ (minor ++ rest)) ∧
      Spelled minor v.minor ∧ NoDigit rest ∧ v.patch = patchIn rest

/-- The bytes that the version is looked for in are text. -/
def GoLegible (bytes : List UInt8) : Prop := (decodeUtf8 (bytes.take 16)).isSome

/-- Besides, what is behind the next dot is the patch of the version: there is no other number
behind a dot in those bytes if it has none. -/
def GoClean (bytes : List UInt8) (v : Go.GoVersion) : Prop :=
  ∃ rest, decodeUtf8 (bytes.take 16) =
    some ("go1.".toList ++ (Nat.toDigits 10 v.minor.toNat ++ rest)) ∧ patchIn rest = v.patch

theorem hit_iff_goReading {bytes : List UInt8} {v : Go.GoVersion} :
    Occurrence.Hit Go.GoVersion.needle
      (fun found => (decodeUtf8 (found.take 16)).bind Go.GoVersion.parse) bytes v ↔
      GoReading bytes v := by
  constructor
  · rintro ⟨⟨more, rfl⟩, hparse⟩
    obtain ⟨text, htext, hv⟩ := Option.bind_eq_some_iff.mp hparse
    have hlen : Go.GoVersion.needle.length ≤ 16 := by decide
    rw [List.take_append, List.take_of_length_le hlen, Go.GoVersion.needle,
      decodeUtf8_append] at htext
    obtain ⟨s, hs, rfl⟩ := Option.map_eq_some_iff.mp htext
    rw [parse_go] at hv
    obtain ⟨minor, hminor, rfl⟩ := Option.map_eq_some_iff.mp hv
    obtain ⟨ds, rest, rfl, hds, hrest⟩ := parseLeadingNumber_eq_some.mp hminor
    refine ⟨rfl, ds, rest, ?_, hds, hrest, patchIn_append hds.no_dot rest⟩
    rw [List.take_append, List.take_of_length_le hlen, Go.GoVersion.needle,
      decodeUtf8_append, hs, Option.map_some]
  · rintro ⟨hmajor, ds, rest, htext, hds, hrest, hpatch⟩
    constructor
    · have hbytes := decodeUtf8_eq_some.mp htext
      rw [encodeUtf8_append] at hbytes
      exact (List.prefix_append _ _).trans (hbytes ▸ List.take_prefix 16 bytes)
    · have hminor := parseLeadingNumber_eq_some.mpr ⟨ds, rest, rfl, hds, hrest⟩
      simp only [htext, Option.bind_some, parse_go, hminor, Option.map_some,
        patchIn_append hds.no_dot, ← hpatch, ← hmajor]

theorem go_detectInBytes {image : List UInt8} {v : Go.GoVersion} :
    Go.GoVersion.detectInBytes image = some v ↔ FirstAt GoReading image v := by
  have hneedle : Go.GoVersion.needle ≠ [] ∧ Occurrence.Unbordered Go.GoVersion.needle := by decide
  rw [Go.GoVersion.detectInBytes, Occurrence.scanFrom_eq_some hneedle.1 hneedle.2, List.drop_zero]
  exact Occurrence.firstAt_congr fun _ _ => hit_iff_goReading

theorem GoReading.rightUnique : RightUnique GoReading := by
  intro bytes v w hv hw
  exact Occurrence.Hit.rightUnique _ _ (hit_iff_goReading.mpr hv) (hit_iff_goReading.mpr hw)

theorem GoToken.rightUnique : RightUnique GoToken := by
  rintro bytes ⟨major, minor, patch⟩ ⟨major', minor', patch'⟩ ⟨hmajor, h⟩ ⟨hmajor', h'⟩
  rcases h with h | ⟨hpatch, h⟩
  · rcases h' with h' | ⟨hpatch', h'⟩
    · have hns := h.unique h' (by simp) (by simp)
      simp_all
    · have hns := h.unique h' (by simp) (by simp)
      simp at hns
  · rcases h' with h' | ⟨hpatch', h'⟩
    · have hns := h.unique h' (by simp) (by simp)
      simp at hns
    · have hns := h.unique h' (by simp) (by simp)
      simp_all

/-- The window of a version, if it is text. -/
theorem GoToken.window {bytes : List UInt8} {v : Go.GoVersion} (h : GoToken bytes v)
    (hlegible : GoLegible bytes) :
    ∃ rest, decodeUtf8 (bytes.take 16) =
      some ("go1.".toList ++ (Nat.toDigits 10 v.minor.toNat ++ rest)) ∧ NoDigit rest := by
  obtain ⟨hmajor, h⟩ := h
  have htext : ∀ {ns : List UInt16}, ns ≠ [] → ns.length ≤ 2 →
      Versioned "go".toList bytes (v.major :: ns) →
      ∃ rest, decodeUtf8 (bytes.take 16) = some ("go1.".toList ++ (dotted ns ++ rest)) ∧
        NoDigit rest := by
    intro ns hne hns hv
    have hlen : (encodeUtf8 ("go".toList ++ dotted (v.major :: ns))).length ≤ 16 := by
      have hdotted := length_dotted hne
      have hgo : "go".toList.length = 2 := rfl
      rw [length_encodeUtf8_dotted (by simp), hmajor, dotted_one hne, hgo]
      simp only [List.length_cons]
      omega
    rcases hv.window hlen with hnone | ⟨rest, hsome, hrest⟩
    · rw [GoLegible, hnone] at hlegible
      cases hlegible
    · refine ⟨rest, ?_, fun c hc => (hrest c hc).1⟩
      rw [hsome, hmajor, dotted_one hne]
      simp
  -- with a patch, its dot is the first thing behind the minor version
  rcases h with h | ⟨-, h⟩
  · obtain ⟨rest, hsome, -⟩ := htext (by simp) (by simp) h
    refine ⟨'.' :: Nat.toDigits 10 v.patch.toNat ++ rest, ?_, ?_⟩
    · rw [hsome]
      simp [dotted]
    · intro c hc
      obtain rfl : '.' = c := Option.some.inj hc
      decide
  · obtain ⟨rest, hsome, hrest⟩ := htext (by simp) (by simp) h
    exact ⟨rest, hsome, hrest⟩

/-- A version in a legible window is read as it is written if the window is clean. -/
theorem GoToken.reading_iff {bytes : List UInt8} {v : Go.GoVersion} (h : GoToken bytes v) :
    GoReading bytes v ↔ GoClean bytes v := by
  constructor
  · rintro ⟨-, minor, rest, htext, hminor, hrest, hpatch⟩
    obtain ⟨rest', htext', hrest'⟩ := h.window (by rw [GoLegible, htext]; rfl)
    refine ⟨rest', htext', ?_⟩
    have hsame : minor ++ rest = Nat.toDigits 10 v.minor.toNat ++ rest' := by
      rw [htext] at htext'
      exact List.append_cancel_left (Option.some.inj htext')
    -- both begin with the same digits, and what follows those is the same
    have hdigits := congrArg (List.takeWhile Char.isDigit) hsame
    rw [takeWhile_append_head hminor.digits hrest,
      takeWhile_append_head (spelled_toDigits v.minor).digits hrest'] at hdigits
    rw [hdigits] at hsame
    rw [hpatch, List.append_cancel_left hsame]
  · rintro ⟨rest, htext, hpatch⟩
    obtain ⟨rest', htext', hrest'⟩ := h.window (by rw [GoLegible, htext]; rfl)
    have hsame : rest' = rest := by
      rw [htext] at htext'
      exact (List.append_cancel_left (List.append_cancel_left (Option.some.inj htext'))).symm
    exact ⟨h.1, _, rest, htext, spelled_toDigits v.minor, hsame ▸ hrest', hpatch.symm⟩

theorem GoToken.exists_reading_iff {bytes : List UInt8} {v : Go.GoVersion} (h : GoToken bytes v) :
    (∃ w, GoReading bytes w) ↔ GoLegible bytes := by
  constructor
  · rintro ⟨w, -, minor, rest, htext, -⟩
    rw [GoLegible, htext]
    rfl
  · intro hlegible
    obtain ⟨rest, htext, hrest⟩ := h.window hlegible
    exact ⟨⟨1, v.minor, patchIn rest⟩, rfl, _, rest, htext, spelled_toDigits v.minor, hrest, rfl⟩

/-! ## Detection -/

/-- The scans find the first version that is written in the image exactly if, where it is written
and where something is read before it, versions are read as they are written: the bytes behind
them are text, for Go without a number behind another dot, and no version with leading zeros, with
a number too many or with a dot at its end comes before. -/
theorem detectInBytes_iff (image : List UInt8) :
    (FindsFirst TokioToken (AsyncRust.TokioVersion.detectInBytes image) image ↔
        ReadAsWritten TokioToken TokioReading (fun bytes _ => TokioLegible bytes) TokioLegible
          image) ∧
      (FindsFirst GoToken (Go.GoVersion.detectInBytes image) image ↔
        ReadAsWritten GoToken GoReading GoClean GoLegible image) := by
  constructor
  · refine findsFirst_iff TokioToken.rightUnique TokioReading.rightUnique ?_ ?_ fun v =>
      tokio_detectInBytes
    · intro bytes v h
      exact ⟨TokioReading.legible, h.reading⟩
    · intro bytes v h
      exact ⟨fun ⟨w, hw⟩ => hw.legible, fun hlegible => ⟨v, h.reading hlegible⟩⟩
  · exact findsFirst_iff GoToken.rightUnique GoReading.rightUnique GoToken.reading_iff
      GoToken.exists_reading_iff fun v => go_detectInBytes

/-- A path as it stands in a binary, and a byte behind it that is no text. -/
def tokioImage : List UInt8 := encodeUtf8 "tokio-1.44.2/".toList ++ [0xFF]

/-- The version is there, but the byte behind it keeps it from being found. -/
theorem not_findsFirst :
    TokioToken tokioImage ⟨1, 44, 2⟩ ∧ AsyncRust.TokioVersion.detectInBytes tokioImage = none ∧
      ¬ ∀ image,
        FindsFirst TokioToken (AsyncRust.TokioVersion.detectInBytes image) image ∧
          FindsFirst GoToken (Go.GoVersion.detectInBytes image) image := by
  have htoken : TokioToken tokioImage ⟨1, 44, 2⟩ := by
    have hslash : ¬ VersionByte 0x2F := by decide
    exact ⟨rfl, [0x2F, 0xFF], by decide, by simpa using hslash⟩
  have hnone : AsyncRust.TokioVersion.detectInBytes tokioImage = none := by
    rw [Option.eq_none_iff_forall_ne_some]
    intro v hv
    obtain ⟨i, hreading, -⟩ := tokio_detectInBytes.mp hv
    cases i with
    | zero =>
      -- the window behind the token is not text
      have hlegible := hreading.legible
      have hbyte : (0xFF : UInt8) ∈
          (tokioImage.drop (encodeUtf8 "tokio-".toList).length).take 24 := by decide
      rw [List.drop_zero, TokioLegible, decodeUtf8_eq_none hbyte] at hlegible
      cases hlegible
    | succ i =>
      -- further on the needle does not stand again
      have hlen := hreading.1.length_le
      have himage : tokioImage.length = 14 := by decide
      have hneedle : AsyncRust.TokioVersion.needle.length = 8 := by decide
      rw [List.length_drop, himage, hneedle] at hlen
      have hno : ∀ i < 6, ¬ AsyncRust.TokioVersion.needle <+: tokioImage.drop (i + 1) := by decide
      exact hno i (by omega) hreading.1
  refine ⟨htoken, hnone, ?_⟩
  intro h
  exact (h tokioImage).1.2.mp hnone 0 _ htoken

end Mirrorscope.Decoder
