import Mathlib.Algebra.Group.Nat.Defs
import Mirrorscope.Lib.FirstSeen
import Mirrorscope.Lib.Numeral

/-! # The modules of a process, from its maps file

`parseMaps` turns the text of `/proc/<pid>/maps` into the list of loaded modules. A
line is split into words and the words after the fifth are put together with single
spaces; that is the path as it stands in the file only when the path is spaced that
way. `parseMaps_listed_iff` says for which lists of mappings the modules are the
right ones.
-/

namespace Mirrorscope.Unwind

open Text Numeral FirstSeen

/-! ## The parser -/

/-- A file-backed module and its load address. -/
structure ModuleMapping where
  path : List Char
  base : Nat
deriving DecidableEq, Repr

/-- One maps line as `(path, start)` if it is a file-backed, offset-0 mapping. -/
def parseLine (line : List Char) : Option (List Char × Nat) :=
  match words line with
  | addrRange :: _perms :: offset :: _dev :: _inode :: rest => do
    let path := [' '].intercalate rest
    if path.head? ≠ some '/' then none
    else if (← parse 16 (2 ^ 64) offset) ≠ 0 then none
    else
      let startHex := addrRange.takeWhile (· ≠ '-')
      let start ← parse 16 (2 ^ 64) startHex
      pure (path, start)
  | _ => none

/-- Record a module: the first entry of its path keeps the lower base, and a path
without an entry gets one at the end. -/
def recordModule (path : List Char) (base : Nat) : List ModuleMapping → List ModuleMapping
  | [] => [⟨path, base⟩]
  | m :: ms =>
    if m.path = path then { m with base := min m.base base } :: ms
    else m :: recordModule path base ms

/-- The modules named by the contents of a maps file; lines that do not parse are
skipped. -/
def parseMaps (content : List Char) : List ModuleMapping :=
  (lines content).foldl (fun modules line =>
    match parseLine line with
    | some (path, base) => recordModule path base modules
    | none => modules) []

/-- The module an entry of a table of paths and bases stands for. -/
def ModuleMapping.ofEntry (e : List Char × Nat) : ModuleMapping := ⟨e.1, e.2⟩

theorem recordModule_map (path : List Char) (base : Nat) (es : List (List Char × Nat)) :
    recordModule path base (es.map .ofEntry) = (upsert path base es).map .ofEntry := by
  induction es with
  | nil => rfl
  | cons e es ih =>
    by_cases h : e.1 = path
    · simp [recordModule, upsert, ModuleMapping.ofEntry, h]
    · simp [recordModule, upsert, ModuleMapping.ofEntry, h, ← ih]

/-- The parser gathers what its lines say. -/
theorem parseMaps_eq (content : List Char) :
    parseMaps content = (gather ((lines content).filterMap parseLine)).map .ofEntry := by
  have hfold (ls : List (List Char)) (es : List (List Char × Nat)) :
      ls.foldl (fun modules line =>
        match parseLine line with
        | some (path, base) => recordModule path base modules
        | none => modules) (es.map .ofEntry) =
      ((ls.filterMap parseLine).foldl (fun es x => upsert x.1 x.2 es) es).map
        ModuleMapping.ofEntry := by
    induction ls generalizing es with
    | nil => rfl
    | cons line ls ih =>
      cases h : parseLine line with
      | none => simpa [h] using ih es
      | some x => simpa [h, recordModule_map] using ih (upsert x.1 x.2 es)
  exact hfold (lines content) []

/-! ## The file -/

/-- One mapping of a process, as the kernel lists it. -/
structure Mapping where
  start : Nat
  finish : Nat
  readable : Bool
  writable : Bool
  executable : Bool
  shared : Bool
  offset : Nat
  major : Nat
  minor : Nat
  inode : Nat
  /-- The file's path or another name, empty for a mapping without one. -/
  path : List Char
  start_lt : start < 2 ^ 64
  offset_lt : offset < 2 ^ 64
  path_line : '\n' ∉ path

namespace Mapping

/-- The permission letters of a mapping. -/
def perms (m : Mapping) : List Char :=
  [if m.readable then 'r' else '-', if m.writable then 'w' else '-',
    if m.executable then 'x' else '-', if m.shared then 's' else 'p']

def addrRange (m : Mapping) : List Char := padded 16 8 m.start ++ '-' :: padded 16 8 m.finish

def dev (m : Mapping) : List Char := padded 16 2 m.major ++ ':' :: padded 16 2 m.minor

/-- What stands before the path: `start-end perms offset dev inode` and a space. -/
def header (m : Mapping) : List Char :=
  m.addrRange ++ ' ' :: (m.perms ++ ' ' :: (padded 16 8 m.offset ++ ' ' :: (m.dev ++ ' ' ::
    (Nat.toDigits 10 m.inode ++ [' ']))))

/-- A line of the file: the path, where there is one, stands behind column 72. -/
def line (m : Mapping) : List Char :=
  if m.path = [] then m.header
  else m.header ++ (List.replicate (72 - m.header.length) ' ' ++ ' ' :: m.path)

/-- The whole file. -/
def render (ms : List Mapping) : List Char := ms.flatMap fun m => m.line ++ ['\n']

/-- A mapping that anchors a module: it maps the start of a file with an absolute path. -/
def Anchor (m : Mapping) : Prop := m.offset = 0 ∧ m.path.head? = some '/'

/-- The path as the parser reads it. -/
def readAs (m : Mapping) : List Char := squeeze m.path

/-- An offset-0 mapping whose name only reads like an absolute path: it begins with
whitespace. -/
def Disguised (m : Mapping) : Prop :=
  m.offset = 0 ∧ m.path.head? ≠ some '/' ∧ m.readAs.head? = some '/'

instance (m : Mapping) : Decidable m.Anchor := inferInstanceAs (Decidable (_ ∧ _))

/-! ## A line read back -/

theorem addrRange_solid (m : Mapping) : Solid m.addrRange ∧ m.addrRange ≠ [] := by
  have hplain {n : Nat} : Solid (padded 16 8 n) :=
    fun c hc => (padded_plain (by decide) (by decide) c hc).1
  have hdash : isWhitespace '-' = false := by decide
  exact ⟨by simp [addrRange, hplain, hdash], by simp [addrRange]⟩

theorem perms_solid (m : Mapping) : Solid m.perms ∧ m.perms ≠ [] := by
  have h (b : Bool) : isWhitespace (if b then 'r' else '-') = false ∧
      isWhitespace (if b then 'w' else '-') = false ∧
      isWhitespace (if b then 'x' else '-') = false ∧
      isWhitespace (if b then 's' else 'p') = false := by cases b <;> decide
  refine ⟨?_, by simp [perms]⟩
  simp only [perms, solid_cons, solid_nil, and_true]
  exact ⟨(h _).1, (h _).2.1, (h _).2.2.1, (h _).2.2.2⟩

theorem dev_solid (m : Mapping) : Solid m.dev ∧ m.dev ≠ [] := by
  have hplain {n : Nat} : Solid (padded 16 2 n) :=
    fun c hc => (padded_plain (by decide) (by decide) c hc).1
  have hcolon : isWhitespace ':' = false := by decide
  exact ⟨by simp [dev, hplain, hcolon], by simp [dev]⟩

theorem padded_solid {width n : Nat} : Solid (padded 16 width n) ∧ padded 16 width n ≠ [] :=
  ⟨fun c hc => (padded_plain (by decide) (by decide) c hc).1, padded_ne_nil⟩

theorem inode_solid (m : Mapping) :
    Solid (Nat.toDigits 10 m.inode) ∧ Nat.toDigits 10 m.inode ≠ [] :=
  ⟨fun c hc => (toDigits_plain (by decide) (by decide) c hc).1, Nat.toDigits_ne_nil⟩

/-- The header's five words come before the words of what follows it. -/
theorem words_header (m : Mapping) (s : List Char) :
    words (m.header ++ s) = m.addrRange :: m.perms :: padded 16 8 m.offset :: m.dev ::
      Nat.toDigits 10 m.inode :: words s := by
  have hshape : m.header ++ s = m.addrRange ++ ' ' :: (m.perms ++ ' ' ::
      (padded 16 8 m.offset ++ ' ' :: (m.dev ++ ' ' ::
        (Nat.toDigits 10 m.inode ++ ' ' :: s)))) := by
    simp [header]
  rw [hshape, words_word m.addrRange_solid.1 m.addrRange_solid.2 isWhitespace_space,
    words_word m.perms_solid.1 m.perms_solid.2 isWhitespace_space,
    words_word padded_solid.1 padded_solid.2 isWhitespace_space,
    words_word m.dev_solid.1 m.dev_solid.2 isWhitespace_space,
    words_word m.inode_solid.1 m.inode_solid.2 isWhitespace_space]

theorem words_line (m : Mapping) :
    words m.line = m.addrRange :: m.perms :: padded 16 8 m.offset :: m.dev ::
      Nat.toDigits 10 m.inode :: words m.path := by
  by_cases h : m.path = []
  · have hwords := m.words_header []
    rw [List.append_nil] at hwords
    simp only [line, h, ↓reduceIte, hwords]
  · -- the padding up to the path's column is whitespace
    have hpad : words (List.replicate (72 - m.header.length) ' ' ++ ' ' :: m.path) =
        words m.path := by
      rw [words_append_whitespace (by simp +contextual [List.mem_replicate]),
        words_cons_whitespace isWhitespace_space]
    simp only [line, h, ↓reduceIte, words_header, hpad]

theorem takeWhile_addrRange (m : Mapping) :
    m.addrRange.takeWhile (· ≠ '-') = padded 16 8 m.start := by
  have hno : ∀ c ∈ padded 16 8 m.start, decide (c ≠ '-') = true := by
    intro c hc
    simpa using (padded_plain (by decide) (by decide) c hc).2.2
  rw [addrRange, List.takeWhile_append_of_pos hno]
  simp

/-- A line reads as its squeezed path and its start, when its offset is 0 and the
squeezed path is absolute. -/
theorem parseLine_line (m : Mapping) :
    parseLine (dropCr m.line) =
      if m.offset = 0 ∧ m.readAs.head? = some '/' then some (m.readAs, m.start) else none := by
  have hoffset : parse 16 (2 ^ 64) (padded 16 8 m.offset) = some m.offset :=
    parse_padded (by decide) (by decide) m.offset_lt
  have hstart : parse 16 (2 ^ 64) (padded 16 8 m.start) = some m.start :=
    parse_padded (by decide) (by decide) m.start_lt
  simp only [parseLine, words_dropCr, words_line, takeWhile_addrRange, hoffset, hstart]
  by_cases hhead : m.readAs.head? = some '/'
  · by_cases hzero : m.offset = 0
    · simp_all [readAs, squeeze]
    · simp_all [readAs, squeeze]
  · simp_all [readAs, squeeze]

theorem newline_not_mem_line (m : Mapping) : '\n' ∉ m.line := by
  have hsolid {w : List Char} (h : Solid w) : '\n' ∉ w := by
    intro hmem
    exact absurd (h _ hmem) (by decide)
  have hheader : '\n' ∉ m.header := by
    simp [header, hsolid m.addrRange_solid.1, hsolid m.perms_solid.1, hsolid m.dev_solid.1,
      hsolid m.inode_solid.1, hsolid padded_solid.1]
  by_cases h : m.path = []
  · simpa [line, h] using hheader
  · simp [line, h, hheader, m.path_line, List.mem_replicate]

end Mapping

/-! ## The file read back -/

section Listing

open Mapping

/-- What the modules of a process are: one for each path that anchors a module, in the
order of first appearance, based at the least start among its anchors. -/
structure Listed (ms : List Mapping) (modules : List ModuleMapping) : Prop where
  paths : modules.map (·.path) = firsts ((ms.filter (·.Anchor)).map (·.path))
  bases : ∀ m ∈ modules,
    IsLeast {a | ∃ n ∈ ms, n.Anchor ∧ n.path = m.path ∧ n.start = a} m.base

/-- The mappings that are read as modules, by the path they are read as; those that
anchor a module are marked. -/
def readings (ms : List Mapping) : List (List Char × Bool) :=
  (ms.filter fun m => m.offset = 0 ∧ m.readAs.head? = some '/').map
    fun m => (m.readAs, decide m.Anchor)

/-- An absolute path is read as one. -/
theorem Mapping.Anchor.reads {m : Mapping} (h : m.Anchor) :
    m.offset = 0 ∧ m.readAs.head? = some '/' := by
  refine ⟨h.1, ?_⟩
  obtain ⟨p, hp⟩ := List.head?_eq_some_iff.mp h.2
  obtain ⟨t, ht⟩ := squeeze_cons p (by decide : isWhitespace '/' = false)
  simp [readAs, hp, ht]

theorem Mapping.reads_iff (m : Mapping) :
    (m.offset = 0 ∧ m.readAs.head? = some '/') ↔ m.Anchor ∨ m.Disguised := by
  constructor
  · rintro ⟨hzero, hhead⟩
    by_cases h : m.path.head? = some '/'
    · exact .inl ⟨hzero, h⟩
    · exact .inr ⟨hzero, h, hhead⟩
  · rintro (h | h)
    · exact h.reads
    · exact ⟨h.1, h.2.2⟩

/-- An absolute path is read as it is exactly when it is single-spaced. -/
theorem Mapping.Anchor.readAs_eq_iff {m : Mapping} (h : m.Anchor) :
    m.readAs = m.path ↔ SingleSpaced m.path := by
  constructor
  · intro heq
    have hne : squeeze m.path ≠ [] := by
      intro hnil
      have hhead := h.reads.2
      simp [readAs, hnil] at hhead
    have hspaced := singleSpaced_squeeze hne
    exact heq ▸ hspaced
  · exact fun hs => hs.squeeze_eq

/-- The paths and starts that the lines of the file are read as. -/
def reads (ms : List Mapping) : List (List Char × Nat) :=
  (ms.filter fun m => m.offset = 0 ∧ m.readAs.head? = some '/').map fun m => (m.readAs, m.start)

theorem parseMaps_render (ms : List Mapping) :
    parseMaps (render ms) = (gather (reads ms)).map .ofEntry := by
  have hlines : lines (render ms) = ms.map fun m => dropCr m.line := by
    have h := lines_flatMap (ms.map Mapping.line) (by
      simp only [List.mem_map, forall_exists_index, and_imp]
      rintro _ m _ rfl
      exact m.newline_not_mem_line)
    simpa [render, List.flatMap_map, Function.comp_def] using h
  have hreads : (lines (render ms)).filterMap parseLine = reads ms := by
    rw [hlines, reads]
    clear hlines
    induction ms with
    | nil => rfl
    | cons m ms ih =>
      by_cases h : m.offset = 0 ∧ m.readAs.head? = some '/'
      · simpa [parseLine_line, h] using ih
      · simpa [parseLine_line, h] using ih
  rw [parseMaps_eq, hreads]

theorem parseMaps_paths (ms : List Mapping) :
    (parseMaps (render ms)).map (·.path) = fresh [] ((readings ms).map (·.1)) := by
  have hfst : (fun m : ModuleMapping => m.path) ∘ ModuleMapping.ofEntry = (·.1) := rfl
  rw [parseMaps_render, List.map_map, hfst, gather_keys, fresh_nil]
  simp [reads, readings, List.map_map, Function.comp_def]

theorem parseMaps_bases {ms : List Mapping} {m : ModuleMapping} (h : m ∈ parseMaps (render ms)) :
    IsLeast {a | ∃ n ∈ ms, (n.Anchor ∨ n.Disguised) ∧ n.readAs = m.path ∧ n.start = a}
      m.base := by
  rw [parseMaps_render, List.mem_map] at h
  obtain ⟨e, he, rfl⟩ := h
  have hleast := gather_isLeast (reads ms) e he
  have hset : {a | (e.1, a) ∈ reads ms} =
      {a | ∃ n ∈ ms, (n.Anchor ∨ n.Disguised) ∧ n.readAs = e.1 ∧ n.start = a} := by
    ext a
    simp [reads, ← Mapping.reads_iff, and_assoc]
  exact hset ▸ hleast

/-- The anchors are the readings that count. -/
theorem counted_readings (ms : List Mapping) :
    counted (readings ms) = (ms.filter (·.Anchor)).map (·.readAs) := by
  induction ms with
  | nil => rfl
  | cons m ms ih =>
    by_cases h : m.Anchor
    · simpa [readings, counted, h, h.reads] using ih
    · by_cases hr : m.offset = 0 ∧ m.readAs.head? = some '/'
      · simpa [readings, counted, h, hr] using ih
      · simpa [readings, counted, h, hr] using ih

/-- The maps file is read exactly when every anchor's path is single-spaced, every
disguised mapping lies at or above an anchor of the file it is read as, and the
disguised mappings do not come before an anchor of another new file. -/
theorem parseMaps_listed_iff (ms : List Mapping) :
    Listed ms (parseMaps (render ms)) ↔
      (∀ m ∈ ms, m.Anchor → SingleSpaced m.path) ∧
      (∀ m ∈ ms, m.Disguised → ∃ n ∈ ms, n.Anchor ∧ n.path = m.readAs ∧ n.start ≤ m.start) ∧
      Harmless [] (readings ms) := by
  have hmem (m : Mapping) (hm : m ∈ ms) (hr : m.Anchor ∨ m.Disguised) :
      m.readAs ∈ (parseMaps (render ms)).map (·.path) := by
    rw [parseMaps_paths, fresh_nil, mem_firsts]
    simp only [readings, List.map_map, List.mem_map, List.mem_filter, decide_eq_true_eq,
      Function.comp_apply]
    exact ⟨m, ⟨hm, m.reads_iff.mpr hr⟩, rfl⟩
  -- where the anchors are single-spaced, their paths are read as they are
  have hanchors (hs : ∀ m ∈ ms, m.Anchor → SingleSpaced m.path) :
      (ms.filter (·.Anchor)).map (·.path) = counted (readings ms) := by
    rw [counted_readings]
    refine List.map_congr_left fun m hm => ?_
    obtain ⟨hm, ha⟩ := List.mem_filter.mp hm
    have ha := of_decide_eq_true ha
    exact (ha.readAs_eq_iff.mpr (hs m hm ha)).symm
  constructor
  · intro h
    have hspaced : ∀ m ∈ ms, m.Anchor → SingleSpaced m.path := by
      intro m hm ha
      have hpath : m.path ∈ (parseMaps (render ms)).map (·.path) := by
        rw [h.paths, mem_firsts]
        exact List.mem_map.mpr ⟨m, List.mem_filter.mpr ⟨hm, by simpa using ha⟩, rfl⟩
      -- the path was read from some mapping, so squeezing does not change it
      rw [parseMaps_paths, fresh_nil, mem_firsts] at hpath
      simp only [readings, List.map_map, List.mem_map, Function.comp_apply] at hpath
      obtain ⟨n, _, hn⟩ := hpath
      refine ha.readAs_eq_iff.mp ?_
      rw [readAs, ← hn, readAs, squeeze_squeeze]
    refine ⟨hspaced, ?_, ?_⟩
    · intro m hm hd
      obtain ⟨k, hk, hpath⟩ := List.mem_map.mp (hmem m hm (.inr hd))
      obtain ⟨n, hn, ha, hnpath, hstart⟩ := (h.bases k hk).1
      refine ⟨n, hn, ha, hnpath.trans hpath, hstart ▸ ?_⟩
      exact (parseMaps_bases hk).2 ⟨m, hm, .inr hd, hpath.symm, rfl⟩
    · rw [← fresh_map_eq_iff, ← parseMaps_paths, h.paths, hanchors hspaced, fresh_nil]
  · rintro ⟨hspaced, hcovered, hharmless⟩
    constructor
    · rw [parseMaps_paths, (fresh_map_eq_iff [] _).mpr hharmless, fresh_nil, hanchors hspaced]
    · intro k hk
      obtain ⟨⟨m, hm, hr, hpath, hstart⟩, hleast⟩ := parseMaps_bases hk
      have hread (n : Mapping) (hn : n ∈ ms) (ha : n.Anchor) (hp : n.path = k.path) :
          k.base ≤ n.start :=
        hleast ⟨n, hn, .inl ha, (ha.readAs_eq_iff.mpr (hspaced n hn ha)).trans hp, rfl⟩
      constructor
      · rcases hr with ha | hd
        · exact ⟨m, hm, ha, (ha.readAs_eq_iff.mpr (hspaced m hm ha)).symm.trans hpath, hstart⟩
        · -- an anchor of the same file lies no higher, so it is as low
          obtain ⟨n, hn, ha, hp, hle⟩ := hcovered m hm hd
          have hge := hread n hn ha (hp.trans hpath)
          exact ⟨n, hn, ha, hp.trans hpath, by omega⟩
      · rintro a ⟨n, hn, ha, hp, rfl⟩
        exact hread n hn ha hp

/-- A file with two spaces in a row in its name. -/
def twoSpaces : Mapping where
  start := 0x1000
  finish := 0x2000
  readable := true
  writable := false
  executable := false
  shared := false
  offset := 0
  major := 8
  minor := 1
  inode := 100
  path := ['/', 'a', ' ', ' ', 'b']
  start_lt := by decide
  offset_lt := by decide
  path_line := by decide

/-- The module that is listed for it is another file's. -/
theorem parseMaps_twoSpaces : ¬ Listed [twoSpaces] (parseMaps (render [twoSpaces])) := by
  intro h
  have hparsed : parseMaps (render [twoSpaces]) = [⟨['/', 'a', ' ', 'b'], 0x1000⟩] := by decide
  have hpaths := h.paths
  rw [hparsed] at hpaths
  exact absurd hpaths (by decide)

end Listing

end Mirrorscope.Unwind
