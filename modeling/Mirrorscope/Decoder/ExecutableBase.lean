import Mathlib.Order.Bounds.Basic
import Mirrorscope.Decoder.LiveTasks
import Mirrorscope.Lib.Utf8
import Mirrorscope.Unwind.Maps

/-! # The base of the executable

Where the executable of a process is loaded is read off its maps file, from the lines that end
with the path of the executable. The lines of other files may end with it too, and a file with a
name that is no text makes the whole file unreadable.
-/

namespace Mirrorscope.Decoder

open ByteIO (encodeUtf8 decodeUtf8 mem_of_asciiByte_mem decodeUtf8_eq_some decodeUtf8_encodeUtf8
  asciiByte decodeUtf8_split decodeUtf8_append encodeUtf8_cons encodeUtf8_append)
open Text (lines split dropCr)
open Unwind (Mapping)

/-! ## Reading the file -/

/-- The lowest address in the maps file on a line that ends with the path the link leads to. Each
of the two may be unreadable, or no text. -/
def executableBase (link maps : Option (List UInt8)) : Option UInt64 := do
  let exe ← decodeUtf8 (← link)
  let maps ← decodeUtf8 (← maps)
  let lowest := ((((lines maps).filter (exe <:+ ·)).filterMap fun line =>
    (split '-' line).head?).filterMap (Numeral.parse 16 (2 ^ 64))).min?
  lowest.map UInt64.ofNat

/-! ## The file -/

/-- A mapping and the path of its file, which is empty for a mapping of no file. A path may have
any bytes in it. -/
structure MappedFile where
  region : Mapping
  unnamed : region.path = []
  file : List UInt8

namespace MappedFile

def start (m : MappedFile) : Nat := m.region.start

theorem start_lt (m : MappedFile) : m.start < 2 ^ 64 := m.region.start_lt

/-- A line feed in a path is written as an escape. -/
def escaped (file : List UInt8) : List UInt8 :=
  file.flatMap fun x => if x = 0x0A then encodeUtf8 "\\012".toList else [x]

/-- A line of the file, without its end: the path stands behind column 72. -/
def line (m : MappedFile) : List UInt8 :=
  encodeUtf8 m.region.header ++
    if m.file = [] then []
    else encodeUtf8 (List.replicate (72 - m.region.header.length) ' ' ++ [' ']) ++ escaped m.file

/-- The whole file. -/
def render (ms : List MappedFile) : List UInt8 := ms.flatMap fun m => m.line ++ [0x0A]

/-- The text of the line, if it is text. -/
def text (m : MappedFile) : List Char := (decodeUtf8 m.line).getD []

/-- The line of the mapping is text. -/
def Legible (m : MappedFile) : Prop := decodeUtf8 m.line = some m.text

/-- The line of the mapping ends with the text of the path. -/
def Shows (exe : List UInt8) (m : MappedFile) : Prop :=
  ∃ e s, decodeUtf8 exe = some e ∧ decodeUtf8 m.line = some s ∧ e <:+ dropCr s

theorem legible_of_decode {m : MappedFile} {s : List Char} (h : decodeUtf8 m.line = some s) :
    m.Legible ∧ m.text = s := by
  have htext : m.text = s := by rw [text, h, Option.getD_some]
  exact ⟨by rw [Legible, htext, h], htext⟩

/-! ## The file read back -/

theorem newline_not_mem_line (m : MappedFile) : 0x0A ∉ m.line := by
  have hnl : ∀ {s : List Char}, '\n' ∉ s → 0x0A ∉ encodeUtf8 s := fun hs hmem =>
    hs (mem_of_asciiByte_mem (by decide) hmem)
  have hheader : '\n' ∉ m.region.header := by
    have hline := m.region.newline_not_mem_line
    rwa [Mapping.line, if_pos m.unnamed] at hline
  intro hmem
  rw [line, List.mem_append] at hmem
  rcases hmem with hmem | hmem
  · exact hnl hheader hmem
  split at hmem
  · cases hmem
  rcases List.mem_append.mp hmem with hmem | hmem
  · exact hnl (by simp [List.mem_replicate]) hmem
  · obtain ⟨x, -, hx⟩ := List.mem_flatMap.mp hmem
    split at hx
    · exact hnl (by decide) hx
    · rename_i hne
      exact hne (List.mem_singleton.mp hx).symm

theorem newline_not_mem_text {m : MappedFile} (h : m.Legible) : '\n' ∉ m.text := by
  intro hmem
  have hbytes := decodeUtf8_eq_some.mp h
  apply m.newline_not_mem_line
  rw [← hbytes]
  exact List.mem_flatMap.mpr ⟨'\n', hmem, by decide⟩

/-- The lines are decoded one by one. -/
theorem decodeUtf8_render {ms : List MappedFile} {s : List Char} :
    decodeUtf8 (render ms) = some s ↔
      (∀ m ∈ ms, m.Legible) ∧ s = ms.flatMap fun m => m.text ++ ['\n'] := by
  induction ms generalizing s with
  | nil =>
    have hnil : decodeUtf8 (render []) = some [] := decodeUtf8_encodeUtf8 []
    rw [hnil]
    simp [eq_comm]
  | cons m ms ih =>
    -- the line feed behind the first line is no part of a longer character
    have hrender : render (m :: ms) = m.line ++ asciiByte '\n' :: render ms := by
      rw [render, List.flatMap_cons, List.append_assoc]
      rfl
    rw [hrender, decodeUtf8_split (by decide)]
    constructor
    · intro h
      obtain ⟨t, ht, h⟩ := Option.bind_eq_some_iff.mp h
      obtain ⟨u, hu, rfl⟩ := Option.map_eq_some_iff.mp h
      obtain ⟨hlegible, rfl⟩ := legible_of_decode ht
      obtain ⟨hall, rfl⟩ := ih.mp hu
      exact ⟨List.forall_mem_cons.mpr ⟨hlegible, hall⟩, by simp⟩
    · intro h
      obtain ⟨hlegible, hrest⟩ := List.forall_mem_cons.mp h.1
      rw [hlegible, Option.bind_some, ih.mpr ⟨hrest, rfl⟩, h.2]
      simp

/-- The first part of a line, up to the first dash, is the start of the mapping. -/
theorem parse_text {m : MappedFile} (h : m.Legible) :
    ((split '-' (dropCr m.text)).head?).bind (Numeral.parse 16 (2 ^ 64)) = some m.start := by
  obtain ⟨rest, hrest⟩ : ∃ rest, m.text = m.region.header ++ rest := by
    rw [Legible, line, decodeUtf8_append] at h
    obtain ⟨rest, -, hrest⟩ := Option.map_eq_some_iff.mp h
    exact ⟨rest, hrest.symm⟩
  obtain ⟨tail, htail⟩ : ∃ tail, m.region.header = m.region.addrRange ++ ' ' :: tail := ⟨_, rfl⟩
  have htext : m.text = Numeral.padded 16 8 m.start ++
      (['-'] ++ (Numeral.padded 16 8 m.region.finish ++ ' ' :: (tail ++ rest))) := by
    rw [hrest, htail, Mapping.addrRange]
    simp [start]
  have hdash : '-' ∉ Numeral.padded 16 8 m.start := fun hmem =>
    (Numeral.padded_plain (by decide) (by decide) _ hmem).2.2 rfl
  rw [htext, Text.dropCr_append (by simp), Text.dropCr_append (by simp), List.singleton_append,
    Text.split_append hdash, List.head?_cons, Option.bind_some]
  exact Numeral.parse_padded (by decide) (by decide) m.region.start_lt

theorem lines_text {ms : List MappedFile} (h : ∀ m ∈ ms, m.Legible) :
    lines (ms.flatMap fun m => m.text ++ ['\n']) = ms.map fun m => dropCr m.text := by
  have hno : ∀ l ∈ ms.map text, '\n' ∉ l := by
    intro l hl
    obtain ⟨m, hm, rfl⟩ := List.mem_map.mp hl
    exact newline_not_mem_text (h m hm)
  have hlines := Text.lines_flatMap _ hno
  simp only [List.flatMap_map, List.map_map, Function.comp_def] at hlines
  exact hlines

/-- The addresses that the lowest is taken of. -/
theorem starts_eq {ms : List MappedFile} (h : ∀ m ∈ ms, m.Legible) (e : List Char) :
    (((ms.map fun m => dropCr m.text).filter (e <:+ ·)).filterMap fun line =>
        (split '-' line).head?).filterMap (Numeral.parse 16 (2 ^ 64)) =
      (ms.filter fun m => e <:+ dropCr m.text).map start := by
  rw [List.filterMap_filterMap, List.filter_map, List.filterMap_map, ← List.filterMap_eq_map]
  apply List.filterMap_congr
  intro m hm
  have hparse := parse_text (h m (List.mem_of_mem_filter hm))
  rw [Function.comp_apply, Function.comp_apply, hparse]

theorem shows_iff {exe : List UInt8} {e : List Char} (he : decodeUtf8 exe = some e) {m : MappedFile}
    (h : m.Legible) : m.Shows exe ↔ e <:+ dropCr m.text := by
  constructor
  · rintro ⟨e', s, he', hs, hsuffix⟩
    rw [he] at he'
    rcases Option.some.inj he' with rfl
    rwa [(legible_of_decode hs).2]
  · intro hsuffix
    exact ⟨e, m.text, he, h, hsuffix⟩

end MappedFile

open MappedFile (render)

/-- The base is the lowest start of the mappings whose lines end with the path, in a file that is
text. -/
theorem executableBase_eq_some {exe : List UInt8} {ms : List MappedFile} {a : UInt64} :
    executableBase (some exe) (some (render ms)) = some a ↔
      (∀ m ∈ ms, m.Legible) ∧ IsLeast {b | ∃ m ∈ ms, m.Shows exe ∧ m.start = b} a.toNat := by
  cases he : decodeUtf8 exe with
  | none =>
    constructor
    · intro h
      simp [executableBase, he] at h
    · rintro ⟨-, ⟨m, -, ⟨e, s, he', -⟩, -⟩, -⟩
      rw [he] at he'
      cases he'
  | some e =>
    by_cases hall : ∀ m ∈ ms, m.Legible
    · have hbase : executableBase (some exe) (some (render ms)) =
          ((ms.filter fun m => e <:+ dropCr m.text).map MappedFile.start).min?.map UInt64.ofNat := by
        have hmaps := MappedFile.decodeUtf8_render.mpr ⟨hall, rfl⟩
        rw [← MappedFile.starts_eq hall e, ← MappedFile.lines_text hall]
        simp [executableBase, he, hmaps]
      -- the starts of those mappings, as a set
      have hmem : ∀ b, b ∈ (ms.filter fun m => e <:+ dropCr m.text).map MappedFile.start ↔
          ∃ m ∈ ms, m.Shows exe ∧ m.start = b := by
        intro b
        simp only [List.mem_map, List.mem_filter, decide_eq_true_eq, and_assoc]
        apply exists_congr
        intro m
        apply and_congr_right
        intro hm
        rw [MappedFile.shows_iff he (hall m hm)]
      rw [hbase, Option.map_eq_some_iff]
      constructor
      · rintro ⟨k, hk, rfl⟩
        obtain ⟨hin, hle⟩ := List.min?_eq_some_iff.mp hk
        obtain ⟨m, hm, hshows, rfl⟩ := (hmem k).mp hin
        rw [UInt64.toNat_ofNat_of_lt' m.start_lt]
        exact ⟨hall, ⟨m, hm, hshows, rfl⟩, fun b hb => hle b ((hmem b).mpr hb)⟩
      · rintro ⟨-, hin, hle⟩
        refine ⟨a.toNat, ?_, UInt64.ofNat_toNat⟩
        rw [List.min?_eq_some_iff]
        exact ⟨(hmem _).mpr hin, fun b hb => hle ((hmem b).mp hb)⟩
    · -- one line that is no text makes the whole file unreadable
      constructor
      · intro h
        rw [executableBase, Option.bind_eq_bind, Option.bind_some] at h
        obtain ⟨e', -, h⟩ := Option.bind_eq_some_iff.mp h
        obtain ⟨maps, hmaps, h⟩ := Option.bind_eq_some_iff.mp h
        rcases Option.some.inj hmaps with rfl
        obtain ⟨s, hs, -⟩ := Option.bind_eq_some_iff.mp h
        exact absurd (MappedFile.decodeUtf8_render.mp hs).1 hall
      · rintro ⟨hyes, -⟩
        exact absurd hyes hall

/-! ## The base and the bias -/

/-- The starts of the mappings of a file. -/
def bases (exe : List UInt8) (ms : List MappedFile) : Set Nat :=
  {a | ∃ m ∈ ms, m.file = exe ∧ m.start = a}

/-- The base is the lowest start of the mappings of the executable, if it has any, and the bias
computed from it is right. -/
structure BaseOf (exe : List UInt8) (ms : List MappedFile) (base : Option UInt64) : Prop where
  some_iff : ∀ a, base = some a ↔ IsLeast (bases exe ms) a.toNat
  none_iff : base = none ↔ ∀ m ∈ ms, m.file ≠ exe
  loadBias_iff : ∀ (plan : AsyncRust.EnumerationPlan) (view : ProcessView),
    view.executableBase = base → ∀ bias, plan.loadBias view = .ok bias ↔
      ∃ a : UInt64, IsLeast (bases exe ms) a.toNat ∧ bias = a - plan.facts.minLoadVaddr

/-- Each line that ends with the path has a mapping of the executable at or below its own; and if
the executable is mapped, the file is text, and each of its mappings has a line that ends with the
path at or below it. -/
structure OnlyOwn (exe : List UInt8) (ms : List MappedFile) : Prop where
  own : (∀ m ∈ ms, m.Legible) → ∀ m ∈ ms, m.Shows exe →
    ∃ n ∈ ms, n.file = exe ∧ n.start ≤ m.start
  shown : ∀ n ∈ ms, n.file = exe →
    (∀ m ∈ ms, m.Legible) ∧ ∃ m ∈ ms, m.Shows exe ∧ m.start ≤ n.start

/-- What `load_bias` computes from the base of the view. -/
theorem loadBias_eq_ok {plan : AsyncRust.EnumerationPlan} {view : ProcessView} {bias : UInt64} :
    plan.loadBias view = .ok bias ↔
      ∃ a, view.executableBase = some a ∧ bias = a - plan.facts.minLoadVaddr := by
  rw [AsyncRust.EnumerationPlan.loadBias]
  cases view.executableBase with
  | none =>
    constructor
    · intro h
      cases h
    · rintro ⟨a, h, -⟩
      cases h
  | some base =>
    constructor
    · intro h
      exact ⟨base, rfl, (Except.ok.inj h).symm⟩
    · rintro ⟨a, h, rfl⟩
      rw [Option.some.inj h]
      rfl

/-- With a lower element of the one below every element of the other, two sets have the same
least element. -/
theorem isLeast_congr {S T : Set Nat} (hST : ∀ s ∈ S, ∃ t ∈ T, t ≤ s)
    (hTS : ∀ t ∈ T, ∃ s ∈ S, s ≤ t) (a : Nat) : IsLeast S a ↔ IsLeast T a := by
  have hone : ∀ {S T : Set Nat}, (∀ s ∈ S, ∃ t ∈ T, t ≤ s) → (∀ t ∈ T, ∃ s ∈ S, s ≤ t) →
      IsLeast S a → IsLeast T a := by
    intro S T hST hTS h
    obtain ⟨t, ht, hta⟩ := hST a h.1
    have hlower : ∀ t ∈ T, a ≤ t := by
      intro t ht
      obtain ⟨s, hs, hst⟩ := hTS t ht
      exact Nat.le_trans (h.2 hs) hst
    have hat := hlower t ht
    obtain rfl : a = t := by omega
    exact ⟨ht, hlower⟩
  exact ⟨hone hST hTS, hone hTS hST⟩

/-- Among mappings of a kind, if there are any, some start is the lowest. -/
theorem exists_isLeast_start {ms : List MappedFile} {P : MappedFile → Prop} {m : MappedFile}
    (hm : m ∈ ms) (hP : P m) :
    ∃ a : UInt64, IsLeast {b | ∃ n ∈ ms, P n ∧ n.start = b} a.toNat := by
  classical
  have hex : ∃ b, ∃ n ∈ ms, P n ∧ n.start = b := ⟨m.start, m, hm, hP, rfl⟩
  obtain ⟨n, hn, hPn, hstart⟩ := Nat.find_spec hex
  refine ⟨UInt64.ofNat n.start, ?_⟩
  rw [UInt64.toNat_ofNat_of_lt' n.start_lt]
  exact ⟨⟨n, hn, hPn, rfl⟩, fun b hb => hstart ▸ Nat.find_min' hex hb⟩

/-- The base that is read off a maps file is that of the executable exactly if no other line with
the same end stands below its own, and its own can be read. -/
theorem executableBase_iff (exe : List UInt8) (ms : List MappedFile) :
    BaseOf exe ms (executableBase (some exe) (some (render ms))) ↔ OnlyOwn exe ms := by
  constructor
  · intro h
    constructor
    · -- the lowest line that ends with the path is the answer, so the executable is mapped there
      intro hall m hm hshows
      obtain ⟨a, hleast⟩ := exists_isLeast_start hm hshows
      have hown := (h.some_iff a).mp (executableBase_eq_some.mpr ⟨hall, hleast⟩)
      obtain ⟨n, hn, hfile, hstart⟩ := hown.1
      exact ⟨n, hn, hfile, hstart ▸ hleast.2 ⟨m, hm, hshows, rfl⟩⟩
    · intro n hn hfile
      have hex : ∃ a : UInt64, IsLeast (bases exe ms) a.toNat := exists_isLeast_start hn hfile
      obtain ⟨a, hleast⟩ := hex
      obtain ⟨hall, hshown⟩ := executableBase_eq_some.mp ((h.some_iff a).mpr hleast)
      obtain ⟨m, hm, hshows, hstart⟩ := hshown.1
      exact ⟨hall, m, hm, hshows, hstart ▸ hleast.2 ⟨n, hn, hfile, rfl⟩⟩
  · intro h
    have hsome : ∀ a, executableBase (some exe) (some (render ms)) = some a ↔
        IsLeast (bases exe ms) a.toNat := by
      intro a
      rw [executableBase_eq_some]
      have hcongr : (∀ m ∈ ms, m.Legible) →
          (IsLeast {b | ∃ m ∈ ms, m.Shows exe ∧ m.start = b} a.toNat ↔
            IsLeast (bases exe ms) a.toNat) := by
        intro hall
        apply isLeast_congr
        · rintro _ ⟨m, hm, hshows, rfl⟩
          obtain ⟨n, hn, hfile, hle⟩ := h.own hall m hm hshows
          exact ⟨n.start, ⟨n, hn, hfile, rfl⟩, hle⟩
        · rintro _ ⟨n, hn, hfile, rfl⟩
          obtain ⟨-, m, hm, hshows, hle⟩ := h.shown n hn hfile
          exact ⟨m.start, ⟨m, hm, hshows, rfl⟩, hle⟩
      constructor
      · rintro ⟨hall, hleast⟩
        exact (hcongr hall).mp hleast
      · intro hleast
        obtain ⟨n, hn, hfile, -⟩ := hleast.1
        have hall := (h.shown n hn hfile).1
        exact ⟨hall, (hcongr hall).mpr hleast⟩
    refine ⟨hsome, ?_, ?_⟩
    · constructor
      · intro hnone m hm hfile
        have hex : ∃ a : UInt64, IsLeast (bases exe ms) a.toNat := exists_isLeast_start hm hfile
        obtain ⟨a, hleast⟩ := hex
        rw [(hsome a).mpr hleast] at hnone
        cases hnone
      · intro hno
        rw [Option.eq_none_iff_forall_ne_some]
        intro a ha
        obtain ⟨m, hm, hfile, -⟩ := ((hsome a).mp ha).1
        exact hno m hm hfile
    · intro plan view hview bias
      rw [loadBias_eq_ok, hview]
      apply exists_congr
      intro a
      rw [hsome a]

/-- A readable page at the address, of a file that is not named yet. -/
def pageAt (start : Nat) (h : start < 2 ^ 64) : Mapping where
  start
  finish := start + 0x1000
  readable := true
  writable := false
  executable := false
  shared := false
  offset := 0x3000
  major := 8
  minor := 1
  inode := 42
  path := []
  start_lt := h
  offset_lt := by decide
  path_line := by simp

/-- A plugin whose path ends like that of the executable. -/
def plugin : MappedFile := ⟨pageAt 0x5000 (by decide), rfl, encodeUtf8 "/opt/app".toList⟩

def app : MappedFile := ⟨pageAt 0x400000 (by decide), rfl, encodeUtf8 "/app".toList⟩

/-- The plugin is mapped below the executable, and its address is taken for the base. -/
theorem not_executableBase :
    executableBase (some app.file) (some (render [plugin, app])) = some 0x5000 ∧
      ¬ ∀ exe ms, BaseOf exe ms (executableBase (some exe) (some (render ms))) := by
  have hline : ∀ {m : MappedFile} {s : List Char}, m.line = encodeUtf8 s →
      decodeUtf8 m.line = some s :=
    fun h => decodeUtf8_eq_some.mpr h.symm
  have hplugin : decodeUtf8 plugin.line =
      some (plugin.region.header ++ List.replicate 32 ' ' ++ "/opt/app".toList) := hline (by decide)
  have happ : decodeUtf8 app.line =
      some (app.region.header ++ List.replicate 32 ' ' ++ "/app".toList) := hline (by decide)
  have hall : ∀ m ∈ [plugin, app], m.Legible := by
    simp [(MappedFile.legible_of_decode hplugin).1, (MappedFile.legible_of_decode happ).1]
  have hlow : ∀ m ∈ [plugin, app], (0x5000 : UInt64).toNat ≤ m.start := by decide
  have hother : ∀ m ∈ [plugin, app], m.file = app.file → m.start ≠ (0x5000 : UInt64).toNat := by
    decide
  have hbase : executableBase (some app.file) (some (render [plugin, app])) = some 0x5000 := by
    apply executableBase_eq_some.mpr
    refine ⟨hall, ⟨plugin, by simp, ?_, rfl⟩, ?_⟩
    · exact ⟨"/app".toList, _, decodeUtf8_encodeUtf8 _, hplugin, by decide⟩
    · intro b hb
      obtain ⟨m, hm, -, hstart⟩ := hb
      rw [← hstart]
      exact hlow m hm
  refine ⟨hbase, ?_⟩
  intro h
  obtain ⟨m, hm, hfile, hstart⟩ := (((h app.file [plugin, app]).some_iff 0x5000).mp hbase).1
  exact hother m hm hfile hstart

end Mirrorscope.Decoder
