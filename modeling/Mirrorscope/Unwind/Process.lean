import Mirrorscope.Unwind.Remote

/-! # The frames of a process

A process has images loaded at addresses of its own, and its maps file lists them among other
files. What a stack walk is resolved to is then what the debug information of the image at each
address says of the image's own address; an address outside every image has no frame.
-/

namespace Mirrorscope.Unwind

open Checked FirstSeen Text
open Linux (Arch Errno Pid Ptrace)
open Mapping (render)

variable {ω : Type} {files : ObjectFiles} {ms : List Mapping}

/-! ## Loaded images -/

/-- An image that is loaded in a process: its file, and how far it is moved. -/
structure LoadedImage where
  path : List Char
  segments : List Segment
  loader : Loader
  lo : Nat
  hi : Nat
  bias : UInt64

namespace LoadedImage

/-- The image lies at the address. -/
def Covers (img : LoadedImage) (avma : UInt64) : Prop :=
  img.bias.toNat + img.lo ≤ avma.toNat ∧ avma.toNat < img.bias.toNat + img.hi

instance (img : LoadedImage) (avma : UInt64) : Decidable (img.Covers avma) :=
  inferInstanceAs (Decidable (_ ∧ _))

/-- The file can be loaded, and the image lies within the address space. -/
structure WellLoaded (files : ObjectFiles) (img : LoadedImage) : Prop where
  segments : files.segments (String.ofList img.path) = .ok img.segments
  loader : files.loader (String.ofList img.path) = .ok img.loader
  image : Image img.segments img.lo img.hi
  nonempty : img.lo < img.hi
  fits : img.bias.toNat + img.hi < 2 ^ 64
  sections : ∀ name s, files.sectionByName (String.ofList img.path) name = some s →
    Fits s.address s.size

/-- The addresses of the image. -/
def range (img : LoadedImage) : AddressRange where
  start := img.bias + UInt64.ofNat img.lo
  finish := img.bias + UInt64.ofNat img.hi

def symModule (img : LoadedImage) : SymModule where
  baseAvma := img.bias
  avmaRange := img.range
  loader := img.loader

variable {img : LoadedImage}

theorem WellLoaded.range_contains (h : img.WellLoaded files) (avma : UInt64) :
    img.range.contains avma = true ↔ img.Covers avma := by
  have hlt := h.nonempty
  have hfits := h.fits
  have htoNat {n : Nat} (hn : n ≤ img.hi) :
      (img.bias + UInt64.ofNat n).toNat = img.bias.toNat + n := by
    rw [UInt64.toNat_add, UInt64.toNat_ofNat', Nat.mod_eq_of_lt (a := n) (by omega),
      Nat.mod_eq_of_lt (by omega)]
  simp [AddressRange.contains, range, Covers, UInt64.le_iff_toNat_le, UInt64.lt_iff_toNat_lt,
    htoNat hlt.le, htoNat le_rfl]

/-- From the address of its first mapping, the bias and the range of the image are found. -/
theorem WellLoaded.bounds_eq (h : img.WellLoaded files) :
    bounds img.segments (UInt64.ofNat (img.bias.toNat + img.lo)) = .ok (img.bias, img.range) := by
  have hlt := h.nonempty
  have hfits := h.fits
  have hbase : UInt64.ofNat (img.bias.toNat + img.lo) - UInt64.ofNat img.lo = img.bias := by
    rw [UInt64.ofNat_add, UInt64.ofNat_toNat, UInt64.add_sub_cancel]
  rw [h.image.bounds_eq]
  dsimp only
  rw [hbase, if_pos (by omega), if_neg (by omega), if_pos hfits]
  rfl

end LoadedImage

/-! ## Loading the modules -/

namespace RemoteUnwinder

variable {img : LoadedImage} {u : RemoteUnwinder} {m : ModuleMapping}

theorem exists_range {s : ElfSection} (h : Fits s.address s.size) :
    ∃ range, s.range = .ok range := by
  rw [ElfSection.range, add_of_fits h]
  exact ⟨_, rfl⟩

theorem exists_sectionData {s : Option ElfSection} (h : ∀ t, s = some t → Fits t.address t.size) :
    ∃ data, sectionData s = .ok data := by
  cases s with
  | none => exact ⟨none, rfl⟩
  | some s =>
    obtain ⟨range, hrange⟩ := exists_range (h s rfl)
    unfold sectionData
    dsimp only
    split
    · exact ⟨none, rfl⟩
    · rw [hrange]
      exact ⟨_, rfl⟩

theorem exists_sectionRange {s : Option ElfSection}
    (h : ∀ t, s = some t → Fits t.address t.size) : ∃ range, sectionRange s = .ok range := by
  cases s with
  | none => exact ⟨none, rfl⟩
  | some s =>
    obtain ⟨range, hrange⟩ := exists_range (h s rfl)
    unfold sectionRange
    dsimp only
    rw [hrange]
    exact ⟨_, rfl⟩

/-- The unwinder finds the image where it is. -/
theorem exists_readLayout (h : img.WellLoaded files) :
    ∃ layout, readLayout files (String.ofList img.path)
        (UInt64.ofNat (img.bias.toNat + img.lo)) = .ok layout ∧
      layout.baseAvma = img.bias ∧ layout.avmaRange = img.range := by
  have hsection (name : String) := exists_sectionData (h.sections name)
  obtain ⟨text, htext⟩ := hsection ".text"
  obtain ⟨ehFrame, hehFrame⟩ := hsection ".eh_frame"
  obtain ⟨ehFrameHdr, hehFrameHdr⟩ := hsection ".eh_frame_hdr"
  obtain ⟨gotSvma, hgotSvma⟩ := exists_sectionRange (h.sections ".got")
  refine ⟨⟨img.bias, img.range, text, ehFrame, ehFrameHdr, gotSvma⟩, ?_, rfl, rfl⟩
  rw [readLayout, h.segments, htext, hehFrame, hehFrameHdr, hgotSvma]
  have hbounds := h.bounds_eq
  change (bounds img.segments _ >>= _) = _
  rw [hbounds]
  rfl

/-- A module that is an image is registered with its bias. -/
theorem load_image (h : img.WellLoaded files) (hpath : m.path = img.path)
    (hbase : m.base = img.bias.toNat + img.lo) :
    ∃ layout, layout.baseAvma = img.bias ∧ layout.avmaRange = img.range ∧
      load files u m = .ok
        { u with
          unwinder := ⟨u.unwinder.modules ++ [⟨String.ofList img.path, layout⟩]⟩
          symbolizer := ⟨u.symbolizer.modules ++ [img.symModule]⟩ } := by
  obtain ⟨layout, hlayout, hbias, hrange⟩ := exists_readLayout h
  refine ⟨layout, hbias, hrange, ?_⟩
  have hunwinder : u.unwinder.addModule files (String.ofList img.path)
      (UInt64.ofNat (img.bias.toNat + img.lo)) =
        .ok ⟨u.unwinder.modules ++ [⟨String.ofList img.path, layout⟩]⟩ := by
    rw [StackUnwinder.addModule, hlayout]
    rfl
  have hsymbolizer : u.symbolizer.addModule files.toFiles (String.ofList img.path)
      (UInt64.ofNat (img.bias.toNat + img.lo)) =
        .ok ⟨u.symbolizer.modules ++ [img.symModule]⟩ := by
    have hbounds : moduleBounds files.toFiles (String.ofList img.path)
        (UInt64.ofNat (img.bias.toNat + img.lo)) = .ok (img.bias, img.range) := by
      rw [moduleBounds, h.segments]
      exact h.bounds_eq
    rw [Symbolizer.addModule, hbounds, h.loader]
    rfl
  unfold load
  dsimp only
  rw [hpath, hbase, hunwinder, hsymbolizer]
  rfl

/-- A file that is no object file is left out. -/
theorem load_other {e : UnwindError} (h : files.segments (String.ofList m.path) = .error e) :
    load files u m = .ok u := by
  have hunwinder : u.unwinder.addModule files (String.ofList m.path) (UInt64.ofNat m.base) =
      .error (.error e) := by
    rw [StackUnwinder.addModule, readLayout, h]
    rfl
  have hsymbolizer : u.symbolizer.addModule files.toFiles (String.ofList m.path)
      (UInt64.ofNat m.base) = .error (.error e) := by
    rw [Symbolizer.addModule, moduleBounds, h]
    rfl
  unfold load
  dsimp only
  rw [hunwinder, hsymbolizer]
  rfl

end RemoteUnwinder

/-! ## The images of a process -/

/-- The files that a process maps from their start are its images, which do not overlap, and files
that are no object files; their paths survive the maps file. -/
structure ProcessImages (files : ObjectFiles) (ms : List Mapping) (images : List LoadedImage) :
    Prop where
  wellLoaded : ∀ img ∈ images, img.WellLoaded files
  anchored : ∀ img ∈ images, IsLeast
    {a | ∃ n ∈ ms, n.Anchor ∧ n.path = img.path ∧ n.start = a} (img.bias.toNat + img.lo)
  disjoint : ∀ img ∈ images, ∀ other ∈ images, ∀ avma, img.Covers avma → other.Covers avma →
    img = other
  others : ∀ m ∈ ms, m.Anchor → (∃ img ∈ images, img.path = m.path) ∨
    ∃ e, files.segments (String.ofList m.path) = .error e
  spaced : ∀ m ∈ ms, m.Anchor → SingleSpaced m.path
  plain : ∀ m ∈ ms, ¬ m.Disguised

/-- What the image at an address says of it. -/
def framesAt (images : List LoadedImage) (avma : UInt64) : List SymbolizedFrame :=
  match images.find? fun img => img.Covers avma with
  | some img => img.loader.lookup (avma - img.bias) avma
  | none => []

/-- The modules that were registered are the images of these paths. -/
structure Registered (images : List LoadedImage) (paths : List (List Char))
    (u : RemoteUnwinder) : Prop where
  symbolizer : ∀ s, s ∈ u.symbolizer.modules ↔
    ∃ img ∈ images, img.path ∈ paths ∧ s = img.symModule
  unwinder : ∀ img ∈ images, img.path ∈ paths → ∃ module ∈ u.unwinder.modules,
    module.name = String.ofList img.path ∧ module.layout.baseAvma = img.bias ∧
      module.layout.avmaRange = img.range

/-- A module of the maps file is an image with its address, or no object file. -/
def Loadable (files : ObjectFiles) (images : List LoadedImage) (m : ModuleMapping) : Prop :=
  (∃ img ∈ images, m.path = img.path ∧ m.base = img.bias.toNat + img.lo) ∨
    ∃ e, files.segments (String.ofList m.path) = .error e

variable {images : List LoadedImage} {pid : Pid} {os : ω}

theorem ProcessImages.loadable (h : ProcessImages files ms images) {m : ModuleMapping}
    (hm : m ∈ parseMaps (render ms)) : Loadable files images m := by
  have hset : {a | ∃ n ∈ ms, (n.Anchor ∨ n.Disguised) ∧ n.readAs = m.path ∧ n.start = a} =
      {a | ∃ n ∈ ms, n.Anchor ∧ n.path = m.path ∧ n.start = a} := by
    ext a
    constructor
    · rintro ⟨n, hn, hanchor | hdisguised, hread, hstart⟩
      · exact ⟨n, hn, hanchor, by rw [← hread, hanchor.readAs_eq_iff.mpr (h.spaced n hn hanchor)],
          hstart⟩
      · exact absurd hdisguised (h.plain n hn)
    · rintro ⟨n, hn, hanchor, hpath, hstart⟩
      exact ⟨n, hn, .inl hanchor,
        by rw [hanchor.readAs_eq_iff.mpr (h.spaced n hn hanchor), hpath], hstart⟩
  have hleast := parseMaps_bases hm
  rw [hset] at hleast
  obtain ⟨n, hn, hanchor, hpath, -⟩ := hleast.1
  rcases h.others n hn hanchor with ⟨img, himg, himgPath⟩ | ⟨e, he⟩
  · have hbase := h.anchored img himg
    rw [himgPath, hpath] at hbase
    exact .inl ⟨img, himg, by rw [himgPath, hpath], hleast.unique hbase⟩
  · exact .inr ⟨e, hpath ▸ he⟩

/-- Every image is among the modules of the maps file. -/
theorem ProcessImages.listed (h : ProcessImages files ms images) {img : LoadedImage}
    (himg : img ∈ images) : img.path ∈ (parseMaps (render ms)).map (·.path) := by
  obtain ⟨n, hn, hanchor, hpath, -⟩ := (h.anchored img himg).1
  rw [parseMaps_paths, fresh_nil, mem_firsts, readings, List.map_map]
  refine List.mem_map.mpr ⟨n, List.mem_filter.mpr ⟨hn, ?_⟩, ?_⟩
  · simpa using hanchor.reads
  · show n.readAs = img.path
    rw [hanchor.readAs_eq_iff.mpr (h.spaced n hn hanchor), hpath]

/-- One image has one path. -/
theorem ProcessImages.eq_of_path (h : ProcessImages files ms images) {img other : LoadedImage}
    (himg : img ∈ images) (hother : other ∈ images) (hpath : img.path = other.path) :
    img = other := by
  have hstart := (hpath ▸ h.anchored img himg).unique (h.anchored other hother)
  have hfits := (h.wellLoaded img himg).fits
  have hnonempty := (h.wellLoaded img himg).nonempty
  have hnonempty' := (h.wellLoaded other hother).nonempty
  -- both lie at the address of the first mapping
  refine h.disjoint img himg other hother (UInt64.ofNat (img.bias.toNat + img.lo)) ?_ ?_
  · rw [LoadedImage.Covers, UInt64.toNat_ofNat', Nat.mod_eq_of_lt (by omega)]
    omega
  · rw [LoadedImage.Covers, UInt64.toNat_ofNat', Nat.mod_eq_of_lt (by omega)]
    omega

/-- Loading registers one module after the other. -/
theorem foldlM_load (h : ProcessImages files ms images) {modules : List ModuleMapping}
    (hmodules : ∀ m ∈ modules, Loadable files images m) {seen : List (List Char)}
    {u : RemoteUnwinder} (hu : Registered images seen u) :
    ∃ u', modules.foldlM (RemoteUnwinder.load files) u = .ok u' ∧ u'.pid = u.pid ∧
      Registered images (seen ++ modules.map (·.path)) u' := by
  induction modules generalizing seen u with
  | nil => exact ⟨u, rfl, rfl, by simpa using hu⟩
  | cons m modules ih =>
    obtain ⟨u₁, hload, hpid, hregistered⟩ : ∃ u₁, RemoteUnwinder.load files u m = .ok u₁ ∧
        u₁.pid = u.pid ∧ Registered images (seen ++ [m.path]) u₁ := by
      rcases hmodules m List.mem_cons_self with ⟨img, himg, hpath, hbase⟩ | ⟨e, he⟩
      · obtain ⟨layout, hbias, hrange, hload⟩ :=
          RemoteUnwinder.load_image (u := u) (h.wellLoaded img himg) hpath hbase
        refine ⟨_, hload, rfl, ?_, ?_⟩
        · intro s
          simp only [List.mem_append, List.mem_singleton, hu.symbolizer]
          constructor
          · rintro (⟨other, hother, hmem, rfl⟩ | rfl)
            · exact ⟨other, hother, .inl hmem, rfl⟩
            · exact ⟨img, himg, .inr hpath.symm, rfl⟩
          · rintro ⟨other, hother, hmem | hmem, rfl⟩
            · exact .inl ⟨other, hother, hmem, rfl⟩
            · rw [h.eq_of_path hother himg (hmem.trans hpath)]
              exact .inr rfl
        · intro other hother hmem
          rcases List.mem_append.mp hmem with hmem | hmem
          · obtain ⟨module, hmodule, hfound⟩ := hu.unwinder other hother hmem
            exact ⟨module, List.mem_append_left _ hmodule, hfound⟩
          · rw [h.eq_of_path hother himg ((List.mem_singleton.mp hmem).trans hpath)]
            exact ⟨_, List.mem_append_right _ (List.mem_singleton_self _), rfl, hbias, hrange⟩
      · have hnone : ∀ img ∈ images, img.path ∈ seen ++ [m.path] ↔ img.path ∈ seen := by
          intro img himg
          rw [List.mem_append, List.mem_singleton, or_iff_left]
          intro hpath
          have hsegments := (h.wellLoaded img himg).segments
          rw [hpath, he] at hsegments
          cases hsegments
        refine ⟨u, RemoteUnwinder.load_other he, rfl, ?_, ?_⟩
        · intro s
          rw [hu.symbolizer]
          exact exists_congr fun img => and_congr_right fun himg =>
            and_congr_left fun _ => (hnone img himg).symm
        · intro img himg hmem
          exact hu.unwinder img himg ((hnone img himg).mp hmem)
    obtain ⟨u', hfold, hpid', hregistered'⟩ :=
      ih (fun m hm => hmodules m (List.mem_cons_of_mem _ hm)) hregistered
    refine ⟨u', ?_, hpid'.trans hpid, ?_⟩
    · rw [List.foldlM_cons, hload]
      exact hfold
    · simpa using hregistered'

/-- Where all images are registered, an address is resolved by the image it lies in. -/
theorem resolve_registered (h : ProcessImages files ms images) {paths : List (List Char)}
    {u : RemoteUnwinder} (hu : Registered images paths u)
    (hpaths : ∀ img ∈ images, img.path ∈ paths) (avma : UInt64) :
    u.symbolizer.resolve avma = .ok (framesAt images avma) := by
  have hcontains {img : LoadedImage} (himg : img ∈ images) :
      img.symModule.avmaRange.contains avma = true ↔ img.Covers avma :=
    (h.wellLoaded img himg).range_contains avma
  cases hfind : u.symbolizer.modules.find? fun s => s.avmaRange.contains avma with
  | none =>
    have hnone : images.find? (fun img => img.Covers avma) = none := by
      rw [List.find?_eq_none]
      intro img himg hcovers
      have hmem := (hu.symbolizer img.symModule).mpr ⟨img, himg, hpaths img himg, rfl⟩
      refine List.find?_eq_none.mp hfind _ hmem ?_
      exact (hcontains himg).mpr (of_decide_eq_true hcovers)
    simp only [Symbolizer.resolve, hfind, framesAt, hnone]
    rfl
  | some s =>
    obtain ⟨img, himg, -, rfl⟩ := (hu.symbolizer s).mp (List.mem_of_find?_eq_some hfind)
    have hfound := List.find?_some hfind
    have hcovers : img.Covers avma := (hcontains himg).mp hfound
    have himage : images.find? (fun img => img.Covers avma) = some img := by
      cases hcase : images.find? (fun img => img.Covers avma) with
      | none => exact absurd (decide_eq_true hcovers) (List.find?_eq_none.mp hcase img himg)
      | some other =>
        have hother : other.Covers avma := by simpa using List.find?_some hcase
        rw [h.disjoint other (List.mem_of_find?_eq_some hcase) img himg avma hother hcovers]
    have hbase : img.symModule.baseAvma ≤ avma := by
      rw [UInt64.le_iff_toNat_le]
      exact (Nat.le_add_right _ _).trans hcovers.1
    simp only [Symbolizer.resolve, hfind, framesAt, himage, sub, hbase, ↓reduceIte]
    rfl

/-- A walk is resolved address by address. -/
theorem foldlM_resolve {symbolizer : Symbolizer} {frames : UInt64 → List SymbolizedFrame}
    (h : ∀ avma, symbolizer.resolve avma = .ok (frames avma)) (addresses : List UInt64)
    (before : List SymbolizedFrame) :
    addresses.foldlM (fun frames address => do
      let resolved ← symbolizer.resolve address
      pure (frames ++ resolved)) before =
        (.ok (before ++ addresses.flatMap frames) : Prog UnwindError _) := by
  induction addresses generalizing before with
  | nil => simp [pure, Except.pure]
  | cons address addresses ih =>
    rw [List.foldlM_cons, h]
    refine (ih (before ++ frames address)).trans ?_
    rw [List.flatMap_cons, List.append_assoc]

/-- A stopped process is unwound with its images at their biases, and every address of its stack is
shown as the image that it lies in says of its own address. -/
theorem process_symbolized [Procfs ω] (h : ProcessImages files ms images)
    (hmaps : Procfs.maps pid os = .ok (render ms)) :
    ∃ u, RemoteUnwinder.forPid files pid os = .ok u ∧
      (∀ img ∈ images, ∃ module ∈ u.unwinder.modules, module.name = String.ofList img.path ∧
        module.layout.baseAvma = img.bias ∧ module.layout.avmaRange = img.range) ∧
      ∀ (arch : Arch) [Ptrace arch ω] (iterFrames : IterFrames) (regs : InitialRegs),
        u.backtrace arch iterFrames regs os =
          .ok ((iterFrames u.unwinder.modules regs (u.readU64 arch os)).flatMap
            (framesAt images)) := by
  have hempty : Registered images []
      { pid, unwinder := StackUnwinder.new, symbolizer := Symbolizer.new } := by
    refine ⟨fun s => ?_, fun img _ hmem => absurd hmem List.not_mem_nil⟩
    simp [Symbolizer.new]
  obtain ⟨u, hfold, -, hregistered⟩ := foldlM_load h (fun m hm => h.loadable hm) hempty
  rw [List.nil_append] at hregistered
  have hlisted : ∀ img ∈ images, img.path ∈ (parseMaps (render ms)).map (·.path) :=
    fun img himg => h.listed himg
  refine ⟨u, ?_, fun img himg => hregistered.unwinder img himg (hlisted img himg), ?_⟩
  · rw [RemoteUnwinder.forPid, hmaps]
    exact hfold
  · intro arch _ iterFrames regs
    have hresolve := resolve_registered h hregistered hlisted
    rw [RemoteUnwinder.backtrace, unwindSymbolized, foldlM_resolve hresolve, List.nil_append]
    rfl

/-! ## An app and a data file -/

/-- A process that is stopped: its mappings, and a memory that has one word everywhere. -/
structure StoppedApp where
  mappings : List Mapping
  word : Bytes

instance : Procfs StoppedApp where
  maps _ os := .ok (render os.mappings)
  task pid _ := .ok [some (toString pid).toList]
  registers _ _ := .ok ⟨0, 0, 0, 0⟩

instance : Ptrace .x86_64 StoppedApp where
  spawnTraced _ os := (.error ⟨38⟩, os)
  syscall _ _ os := (.error Errno.ESRCH, os)
  step _ os := (.error Errno.ESRCH, os)
  kill _ os := (.error Errno.ESRCH, os)
  waitpid _ _ os := (.error Errno.ECHILD, os)
  setoptions _ _ os := (.error Errno.ESRCH, os)
  getevent _ os := (.error Errno.ESRCH, os)
  getregs _ os := (.error Errno.ESRCH, os)
  setregs _ _ os := (.error Errno.ESRCH, os)
  setSyscallNr _ _ os := (.error Errno.ESRCH, os)
  processVmReadv _ _ _ os := (.ok os.word, os)
  processVmWritev _ _ _ os := (.error Errno.ESRCH, os)
  pokeUser _ _ _ os := (.error (), os)
  setHwWatch _ _ _ os := (.error (), os)
  getsiginfo _ os := (.error Errno.ESRCH, os)

/-- A mapping of a file from its start. -/
def ofFile (start finish : Nat) (path : List Char) (hstart : start < 2 ^ 64)
    (hpath : '\n' ∉ path) : Mapping where
  start
  finish
  readable := true
  writable := false
  executable := false
  shared := false
  offset := 0
  major := 8
  minor := 1
  inode := 5
  path
  start_lt := hstart
  offset_lt := Nat.lt_of_le_of_lt (Nat.zero_le start) hstart
  path_line := hpath

/-- A position-independent image with one function. -/
def app : LoadedImage where
  path := "/app".toList
  segments := [⟨0, 0x2000⟩]
  loader :=
    { findFrames := fun svma =>
        if svma = 0x123 then .ok [⟨some (some "main"), some (some "main.rs", some 4)⟩] else .ok []
      findSymbol := fun _ => none }
  lo := 0
  hi := 0x2000
  bias := 0x7F0000000000

/-- The image is the only object file. -/
def appFiles : ObjectFiles where
  segments path := if path = "/app" then .ok app.segments else .error (.elf "no object file")
  loader path := if path = "/app" then .ok app.loader else .error "no object file"
  sectionByName _ _ := none

/-- The image, and a data file. -/
def appMappings : List Mapping :=
  [ofFile 0x7F0000000000 0x7F0000002000 "/app".toList (by decide) (by decide),
    ofFile 0x7F0000010000 0x7F0000011000 "/data".toList (by decide) (by decide)]

theorem app_processImages : ProcessImages appFiles appMappings [app] := by
  have himage : Image app.segments 0 0x2000 := by
    constructor
    · refine ⟨⟨_, List.mem_singleton_self _, rfl⟩, ?_⟩
      rintro a ⟨s, -, rfl⟩
      exact Nat.zero_le _
    · refine ⟨⟨_, List.mem_singleton_self _, rfl⟩, ?_⟩
      rintro e ⟨s, hs, rfl⟩
      rw [List.mem_singleton.mp hs]
      decide
  refine ⟨?_, ?_, ?_, ?_, ?_, ?_⟩
  · intro img himg
    rw [List.mem_singleton.mp himg]
    exact ⟨rfl, rfl, himage, by decide, by decide, fun _ _ h => by cases h⟩
  · intro img himg
    rw [List.mem_singleton.mp himg]
    refine ⟨⟨_, List.mem_cons_self, by decide, rfl, rfl⟩, ?_⟩
    rintro a ⟨n, hn, -, hpath, rfl⟩
    rcases List.mem_cons.mp hn with rfl | hn
    · exact le_rfl
    · rw [List.mem_singleton.mp hn] at hpath
      exact absurd hpath (by decide)
  · intro img himg other hother _ _ _
    rw [List.mem_singleton.mp himg, List.mem_singleton.mp hother]
  · intro m hm _
    rcases List.mem_cons.mp hm with rfl | hm
    · exact .inl ⟨app, List.mem_singleton_self _, rfl⟩
    · rw [List.mem_singleton.mp hm]
      exact .inr ⟨_, rfl⟩
  · intro m hm _
    rcases List.mem_cons.mp hm with rfl | hm
    · exact SingleSpaced.of_word (by decide) (by decide)
    · rw [List.mem_singleton.mp hm]
      exact SingleSpaced.of_word (by decide) (by decide)
  · rintro m hm ⟨-, hhead, -⟩
    rcases List.mem_cons.mp hm with rfl | hm
    · exact hhead rfl
    · rw [List.mem_singleton.mp hm] at hhead
      exact hhead rfl

/-- A walk that takes the leaf and the word on top of the stack. -/
def topOfStack : IterFrames := fun _ regs readStack => regs.pc :: (readStack regs.sp).toList

/-- The stopped app. -/
def stoppedApp : StoppedApp := ⟨appMappings, [1, 2]⟩

/-- The leaf lies in the image, and the word on the stack in no image. -/
theorem process_symbolized_app :
    ∃ u, RemoteUnwinder.forPid appFiles 7 stoppedApp = .ok u ∧
      u.backtrace .x86_64 topOfStack ⟨0x7F0000000123, 0, 0, 0⟩ stoppedApp =
        .ok [⟨some "main", some "main.rs", some 4, 0x7F0000000123⟩] := by
  have hmaps : Procfs.maps 7 stoppedApp = .ok (render appMappings) := rfl
  obtain ⟨u, hpid, -, hback⟩ := process_symbolized app_processImages hmaps
  exact ⟨u, hpid, (hback .x86_64 topOfStack _).trans rfl⟩

end Mirrorscope.Unwind
