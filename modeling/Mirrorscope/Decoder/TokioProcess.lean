import Mirrorscope.Decoder.Extraction
import Mirrorscope.Decoder.Finished
import Mirrorscope.Decoder.GoBinary
import Mirrorscope.Decoder.TokioBinary
import Mirrorscope.Decoder.VersionScan

/-! # The tasks of a Tokio process

From the binary and the memory of a process to its tasks. The linker placed `CONTEXT` in the
thread-local block and the poll function of each future type in the image; the loader moved the
image, and placed a block for each thread; the runtime linked its tasks. The decoder that is chosen
for the binary lists just the tasks whose futures are coroutines of the binary.

The parts of a process, and what the decoder makes of each:
* `HasHeaders`, `elfGeometry_eq`: the program headers of the image, and the geometry read from
  them.
* `BlockAt`, `staticTlsAddress_eq`: where the loader placed the block of a thread.
* `TokioProgram`, `TokioProcess`: the program and a process of it, with what the linker, the
  loader and the runtime did as fields.
* `enumerateRoots_lists`: the roots are the tasks of the process with a future of the binary.
* `tasks_of_binary`: so are the roots of the decoded tree.
-/

namespace Mirrorscope.Decoder.AsyncRust

open ByteIO (ByteVec decodeUtf8_encodeUtf8 encodeUtf8 encodeUtf8_append)
open Checked
open EnumerationPlan
open Occurrence (FirstAt firstAt_drop firstAt_of_head)

/-! ## Program headers -/

/-- A program header, as far as it is read. -/
structure ProgramHeader where
  kind : UInt64
  vaddr : UInt64
  memsz : UInt64
  align : UInt64
deriving DecidableEq, Repr

def programHeader (image : ByteVec) (pos : Nat) : ProgramHeader where
  kind := UInt64.ofNat (fieldAt image pos 4)
  vaddr := UInt64.ofNat (fieldAt image (pos + 16) 8)
  memsz := UInt64.ofNat (fieldAt image (pos + 40) 8)
  align := UInt64.ofNat (fieldAt image (pos + 48) 8)

/-- Where a header is. -/
def headerPos (image : ByteVec) (i : Nat) : Nat := fieldAt image 32 8 + i * fieldAt image 54 2

def programHeaders (image : ByteVec) : List ProgramHeader :=
  (List.range (fieldAt image 56 2)).map fun i => programHeader image (headerPos image i)

/-- The image has an ELF header, and its program headers. -/
structure HasHeaders (image : ByteVec) : Prop where
  elf : Elf64 image
  inside : ∀ i < fieldAt image 56 2, headerPos image i + 56 ≤ image.bytes.length

/-- What one header states. -/
def Geometry.note (g : Geometry) (h : ProgramHeader) : Geometry :=
  if h.kind = ptTls then { g with tlsAlign := max h.align 1, tlsMemsz := h.memsz }
  else if h.kind = ptLoad then { g with minLoad := min g.minLoad h.vaddr }
  else g

def geometry (image : ByteVec) : Geometry := (programHeaders image).foldl Geometry.note {}

/-- The lowest address that is loaded, where one is. -/
def Geometry.lowest (g : Geometry) : UInt64 :=
  if g.minLoad = 0xFFFFFFFFFFFFFFFF then 0 else g.minLoad

/-- The thread-local segment; the last one that is stated counts. -/
def tlsSegment (image : ByteVec) : Option ProgramHeader :=
  ((programHeaders image).filter fun h => h.kind = ptTls).getLast?

/-- The lowest address that is loaded. The last address of all stands for none. -/
structure LowestLoad (image : ByteVec) (lowest : UInt64) : Prop where
  loaded : ∃ h ∈ programHeaders image, h.kind = ptLoad ∧ h.vaddr = lowest
  least : ∀ h ∈ programHeaders image, h.kind = ptLoad → lowest ≤ h.vaddr
  ne_last : lowest ≠ 0xFFFFFFFFFFFFFFFF

section Headers

variable {image : ByteVec}

/-- A header inside the image is read field by field, without running over its end. -/
theorem visitHeader_inside {phoff phentsize : UInt64} {i : Nat} (hsize : phentsize.toNat < 2 ^ 16)
    (hi : i < 2 ^ 16) (hinside : phoff.toNat + i * phentsize.toNat + 56 ≤ image.bytes.length)
    (g : Geometry) : visitHeader image phoff phentsize g i =
      .ok (g.note (programHeader image (phoff.toNat + i * phentsize.toNat))) := by
  have hbounded := image.bounded
  have hindex : (UInt64.ofNat i).toNat = i := by
    rw [UInt64.toNat_ofNat']
    omega
  have hlow : phoff.toNat < 2 ^ 63 := by omega
  obtain ⟨hmul, hadd, -⟩ := headerBase hlow hsize hi
  have hbase : (phoff + UInt64.ofNat i * phentsize).toNat = phoff.toNat + i * phentsize.toNat := by
    rw [hadd.toNat_add, UInt64.toNat_mul, hindex, Nat.mod_eq_of_lt (by omega)]
  -- every field of the header is in the image
  have hfield (off width : UInt64) (hoff : off.toNat + width.toNat ≤ 56) :
      Fits (phoff + UInt64.ofNat i * phentsize) off ∧
        field width image (phoff + UInt64.ofNat i * phentsize + off) = .ok (UInt64.ofNat
          (fieldAt image (phoff.toNat + i * phentsize.toNat + off.toNat) width.toNat)) := by
    have hfits : Fits (phoff + UInt64.ofNat i * phentsize) off := by
      rw [Fits, hbase]
      omega
    have htoNat : (phoff + UInt64.ofNat i * phentsize + off).toNat =
        phoff.toNat + i * phentsize.toNat + off.toNat := by rw [hfits.toNat_add, hbase]
    refine ⟨hfits, ?_⟩
    rw [← htoNat]
    exact field_inside (by rw [htoNat]; omega)
  have hkind := (hfield 0 4 (by decide)).2
  obtain ⟨hfits₁, hvaddr⟩ := hfield 16 8 (by decide)
  obtain ⟨hfits₂, hmemsz⟩ := hfield 40 8 (by decide)
  obtain ⟨hfits₃, halign⟩ := hfield 48 8 (by decide)
  rw [UInt64.add_zero] at hkind
  rw [visitHeader, mul_of_fits hmul, Effect.except_ok_bind, add_of_fits hadd,
    Effect.except_ok_bind, quarter, hkind, Effect.except_ok_bind, add_of_fits hfits₁,
    Effect.except_ok_bind, word, hvaddr, Effect.except_ok_bind, add_of_fits hfits₂,
    Effect.except_ok_bind, hmemsz, Effect.except_ok_bind, add_of_fits hfits₃,
    Effect.except_ok_bind, halign, Effect.except_ok_bind]
  simp only [UInt64.reduceToNat, Nat.add_zero]
  unfold Geometry.note programHeader
  dsimp only
  by_cases htls : UInt64.ofNat (fieldAt image (phoff.toNat + i * phentsize.toNat) 4) = ptTls
  · rw [if_pos htls, if_pos htls]
    rfl
  rw [if_neg htls, if_neg htls]
  by_cases hload : UInt64.ofNat (fieldAt image (phoff.toNat + i * phentsize.toNat) 4) = ptLoad
  · rw [if_pos hload, if_pos hload]
    rfl
  · rw [if_neg hload, if_neg hload]
    rfl

/-- The geometry is what the headers state, one after the other. -/
theorem elfGeometry_eq (h : HasHeaders image) : elfGeometry image =
    .ok ((geometry image).tlsAlign, (geometry image).tlsMemsz, (geometry image).lowest) := by
  have hfield (pos width : UInt64) (hpos : pos.toNat + width.toNat ≤ 64) :
      field width image pos = .ok (UInt64.ofNat (fieldAt image pos.toNat width.toNat)) :=
    field_inside (hpos.trans h.elf.1)
  have htoNat {pos width : Nat} (hwidth : width ≤ 8) :
      (UInt64.ofNat (fieldAt image pos width)).toNat = fieldAt image pos width := by
    rw [UInt64.toNat_ofNat']
    have hle : 256 ^ width ≤ 256 ^ 8 := Nat.pow_le_pow_right (by decide) hwidth
    exact Nat.mod_eq_of_lt ((fieldAt_lt image pos width).trans_le hle)
  have hcount := fieldAt_lt image 56 2
  have hsize := fieldAt_lt image 54 2
  -- The table is inside the image, so each of its headers is read.
  have hvisit : ∀ i ∈ List.range (fieldAt image 56 2), ∀ g : Geometry,
      visitHeader image (UInt64.ofNat (fieldAt image 32 8)) (UInt64.ofNat (fieldAt image 54 2)) g i =
        .ok (g.note (programHeader image (headerPos image i))) := by
    intro i hi g
    have hlt := List.mem_range.mp hi
    have hinside := h.inside i hlt
    have hphoff : (UInt64.ofNat (fieldAt image 32 8)).toNat = fieldAt image 32 8 :=
      htoNat (by decide)
    have hphentsize : (UInt64.ofNat (fieldAt image 54 2)).toNat = fieldAt image 54 2 :=
      htoNat (by decide)
    rw [headerPos, ← hphoff, ← hphentsize] at hinside ⊢
    rw [UInt64.ofNat_toNat, UInt64.ofNat_toNat]
    exact visitHeader_inside (by rw [hphentsize]; exact hsize) (by omega) hinside g
  have hfold (is : List Nat) (his : ∀ i ∈ is, i ∈ List.range (fieldAt image 56 2)) (g : Geometry) :
      is.foldlM (visitHeader image (UInt64.ofNat (fieldAt image 32 8))
        (UInt64.ofNat (fieldAt image 54 2))) g =
        .ok ((is.map fun i => programHeader image (headerPos image i)).foldl Geometry.note g) := by
    induction is generalizing g with
    | nil => rfl
    | cons i is ih =>
      rw [List.foldlM_cons, hvisit i (his i List.mem_cons_self), Effect.except_ok_bind,
        ih fun j hj => his j (List.mem_cons_of_mem i hj)]
      rfl
  have hfields : word image 32 = .ok (UInt64.ofNat (fieldAt image 32 8)) ∧
      half image 54 = .ok (UInt64.ofNat (fieldAt image 54 2)) ∧
      half image 56 = .ok (UInt64.ofNat (fieldAt image 56 2)) :=
    ⟨hfield 32 8 (by decide), hfield 54 2 (by decide), hfield 56 2 (by decide)⟩
  rw [elfGeometry, isElf64_eq, Effect.except_ok_bind, if_neg (by simp [h.elf]), hfields.1,
    Effect.except_ok_bind, hfields.2.1, Effect.except_ok_bind, hfields.2.2, Effect.except_ok_bind,
    htoNat (by decide), hfold _ (fun _ hi => hi), Effect.except_ok_bind]
  rfl

/-- Only the header of the thread-local block sets its size. -/
theorem Geometry.tls_note (g : Geometry) {h : ProgramHeader} (hkind : h.kind ≠ ptTls) :
    (g.note h).tlsAlign = g.tlsAlign ∧ (g.note h).tlsMemsz = g.tlsMemsz := by
  rw [Geometry.note, if_neg hkind]
  by_cases hload : h.kind = ptLoad
  · rw [if_pos hload]
    exact ⟨rfl, rfl⟩
  · rw [if_neg hload]
    exact ⟨rfl, rfl⟩

/-- The lowest address is taken over the loadable segments. -/
theorem Geometry.minLoad_note (g : Geometry) (h : ProgramHeader) :
    (g.note h).minLoad = if h.kind = ptLoad then min g.minLoad h.vaddr else g.minLoad := by
  by_cases htls : h.kind = ptTls
  · have hload : h.kind ≠ ptLoad := by
      rw [htls]
      decide
    rw [Geometry.note, if_pos htls, if_neg hload]
  · rw [Geometry.note, if_neg htls]
    by_cases hload : h.kind = ptLoad
    · rw [if_pos hload, if_pos hload]
    · rw [if_neg hload, if_neg hload]

/-- Of several such headers the last one counts. -/
theorem tls_foldl_note {headers : List ProgramHeader} {tls : ProgramHeader}
    (h : (headers.filter fun h => h.kind = ptTls).getLast? = some tls) (g : Geometry) :
    (headers.foldl Geometry.note g).tlsAlign = max tls.align 1 ∧
      (headers.foldl Geometry.note g).tlsMemsz = tls.memsz := by
  induction headers using List.reverseRecOn with
  | nil => cases h
  | append_singleton headers last ih =>
    rw [List.foldl_append, List.foldl_cons, List.foldl_nil]
    rw [List.filter_append] at h
    by_cases hkind : last.kind = ptTls
    · rw [List.filter_cons_of_pos (by simpa using hkind), List.filter_nil,
        List.getLast?_concat] at h
      rcases Option.some.inj h with rfl
      rw [Geometry.note, if_pos hkind]
      exact ⟨rfl, rfl⟩
    · rw [List.filter_cons_of_neg (by simpa using hkind), List.filter_nil, List.append_nil] at h
      obtain ⟨halign, hmemsz⟩ := Geometry.tls_note (headers.foldl Geometry.note g) hkind
      rw [halign, hmemsz]
      exact ih h

/-- With one of the segments at the lowest address, or the address found already. -/
theorem minLoad_foldl_note {headers : List ProgramHeader} {lowest : UInt64}
    (hleast : ∀ h ∈ headers, h.kind = ptLoad → lowest ≤ h.vaddr) {g : Geometry}
    (hle : lowest ≤ g.minLoad)
    (hmem : g.minLoad = lowest ∨ ∃ h ∈ headers, h.kind = ptLoad ∧ h.vaddr = lowest) :
    (headers.foldl Geometry.note g).minLoad = lowest := by
  induction headers generalizing g with
  | nil =>
    rcases hmem with hg | ⟨h, hin, -⟩
    · exact hg
    · cases hin
  | cons h headers ih =>
    have hrest : ∀ h ∈ headers, h.kind = ptLoad → lowest ≤ h.vaddr :=
      fun h' hin => hleast h' (List.mem_cons_of_mem h hin)
    have hmin (a b : UInt64) : min a b = if a ≤ b then a else b := rfl
    rw [List.foldl_cons]
    refine ih hrest ?_ ?_
    · rw [Geometry.minLoad_note, hmin]
      split
      · rename_i hload
        split
        · exact hle
        · exact hleast h List.mem_cons_self hload
      · exact hle
    · rw [Geometry.minLoad_note, hmin]
      rcases hmem with hg | ⟨h', hin, hload, hvaddr⟩
      · left
        split
        · rename_i hload
          rw [if_pos (by rw [hg]; exact hleast h List.mem_cons_self hload), hg]
        · exact hg
      · -- This header is the one at the lowest address, or a later one is.
        rcases List.mem_cons.mp hin with rfl | hin
        · left
          rw [if_pos hload, hvaddr]
          split
          · rename_i hsmall
            exact UInt64.le_antisymm hsmall hle
          · rfl
        · exact .inr ⟨h', hin, hload, hvaddr⟩

theorem lowest_geometry {lowest : UInt64} (h : LowestLoad image lowest) :
    (geometry image).lowest = lowest := by
  have hmin : (geometry image).minLoad = lowest := by
    refine minLoad_foldl_note h.least ?_ (.inr h.loaded)
    rw [UInt64.le_iff_toNat_le]
    exact Nat.le_of_lt_succ lowest.toNat_lt
  rw [Geometry.lowest, hmin, if_neg h.ne_last]

end Headers

/-! ## Thread-local blocks -/

/-- The room that has to be left between a thread pointer and the block. -/
def TlsVariant.room (tls : ProgramHeader) : TlsVariant → UInt64
  | .variantI => aarch64TcbSize
  | .variantII => tls.memsz

def TlsVariant.place (tp distance : UInt64) : TlsVariant → UInt64
  | .variantI => tp + distance
  | .variantII => tp - distance

/-- Where the block of the executable is for a thread: as close to the thread pointer as the
alignment of the segment lets it be. -/
def BlockAt (variant : TlsVariant) (tls : ProgramHeader) (tp block : UInt64) : Prop :=
  ∃ distance : UInt64, block = variant.place tp distance ∧
    IsLeast {n : Nat | (variant.room tls).toNat ≤ n ∧ (max tls.align 1).toNat ∣ n} distance.toNat

/-- Rounding up gives the least multiple, where that is an address. -/
theorem alignUp_eq {value align distance : UInt64} (halign : 0 < align.toNat)
    (h : IsLeast {n : Nat | value.toNat ≤ n ∧ align.toNat ∣ n} distance.toNat) :
    alignUp value align = distance := by
  obtain ⟨⟨hle, k, hk⟩, hleast⟩ := h
  have hsplit := Nat.div_add_mod value.toNat align.toNat
  have hmod := Nat.mod_lt value.toNat halign
  have hdistance := distance.toNat_lt
  rw [alignUp]
  split
  · rename_i hone
    have hone : align.toNat = 1 := by
      have := UInt64.le_iff_toNat_le.mp hone
      simp only [UInt64.reduceToNat] at this
      omega
    have hself : distance.toNat ≤ value.toNat := hleast ⟨Nat.le_refl _, hone ▸ Nat.one_dvd _⟩
    exact UInt64.toNat_inj.mp (Nat.le_antisymm hle hself)
  · refine UInt64.toNat_inj.mp ?_
    by_cases hrem : value.toNat % align.toNat = 0
    · -- the value is a multiple itself
      have hself : distance.toNat ≤ value.toNat :=
        hleast ⟨Nat.le_refl _, Nat.dvd_of_mod_eq_zero hrem⟩
      have hzero : value % align = 0 := UInt64.toNat_inj.mp (by rw [UInt64.toNat_mod, hrem]; rfl)
      have hceil : divCeil value align = value / align := by
        rw [divCeil, hzero, if_neg (by decide)]
      rw [hceil, UInt64.toNat_mul, UInt64.toNat_div, Nat.mul_comm]
      omega
    · have hpos : value % align > 0 := by
        rw [gt_iff_lt, UInt64.lt_iff_toNat_lt, UInt64.toNat_mod]
        exact Nat.pos_of_ne_zero hrem
      -- The value lies between two multiples, and the upper one is the least above it.
      have hnext : distance.toNat ≤ align.toNat * (value.toNat / align.toNat + 1) := by
        refine hleast ⟨?_, Nat.dvd_mul_right _ _⟩
        rw [Nat.mul_add, Nat.mul_one]
        omega
      have hk' : k = value.toNat / align.toNat + 1 := by
        have hlow : align.toNat * (value.toNat / align.toNat) < align.toNat * k := by omega
        have hlt := Nat.lt_of_mul_lt_mul_left hlow
        have hup := Nat.le_of_mul_le_mul_left (hk ▸ hnext) halign
        omega
      have hquot : (value / align + 1).toNat = k := by
        have hsmall : k ≤ align.toNat * k := Nat.le_mul_of_pos_left k halign
        rw [UInt64.toNat_add, UInt64.toNat_div, hk']
        simp only [UInt64.reduceToNat]
        omega
      rw [divCeil, if_pos hpos, UInt64.toNat_mul, hquot, Nat.mul_comm, ← hk]
      omega

/-- The distance of the block from the thread pointer is rounded up in both variants; they differ
in its sign. -/
theorem staticTlsAddress_eq {variant : TlsVariant} {tls : ProgramHeader} {tp block : UInt64}
    (h : BlockAt variant tls tp block) (offset : UInt64) :
    staticTlsAddress variant tp offset (max tls.align 1) tls.memsz = block + offset := by
  obtain ⟨distance, rfl, hleast⟩ := h
  have hmax (a : UInt64) : max a 1 = if a ≤ 1 then 1 else a := rfl
  have hone : max (max tls.align 1) 1 = max tls.align 1 := by
    by_cases hsmall : tls.align ≤ 1
    · rw [hmax tls.align, if_pos hsmall]
      rfl
    · rw [hmax tls.align, if_neg hsmall, hmax, if_neg hsmall]
  have hpos : 0 < (max tls.align 1).toNat := by
    rw [hmax]
    split
    · decide
    · rename_i hbig
      have hle := mt UInt64.le_iff_toNat_le.mpr hbig
      simp only [UInt64.reduceToNat] at hle
      omega
  have hup : alignUp (variant.room tls) (max tls.align 1) = distance := alignUp_eq hpos hleast
  cases variant with
  | variantI =>
    rw [staticTlsAddress, hone]
    exact congrArg (tp + · + offset) hup
  | variantII =>
    rw [staticTlsAddress, hone]
    exact congrArg (tp - · + offset) hup

/-! ## A program and a process of it -/

/-- A binary of a Tokio version that has been verified, as it was linked. -/
structure TokioProgram where
  image : ByteVec
  file : TokioFile
  /-- where `CONTEXT` is in the thread-local block -/
  context : UInt64
  tls : ProgramHeader
  lowest : UInt64
  verified : ∃ version, TokioVersion.detectInBytes image.bytes = some version ∧
    version.major = 1 ∧ version.minor = 44
  has_context : ∃ symbol ∈ file.symbols, symbol.isContext = true
  context_eq : ∀ symbol ∈ file.symbols, symbol.isContext = true → symbol.address = context
  debug : file.hasDebugInfo = true
  headers : HasHeaders image
  tlsSegment_eq : tlsSegment image = some tls
  lowestLoad : LowestLoad image lowest
  legible : ∃ polls, pollTypeMap file.functions = .ok polls

section Entered

variable (program : TokioProgram) (variant : TlsVariant) (view : ProcessView)

/-- The thread with this pointer has entered a runtime. -/
def EnteredBy (tp : UInt64) (rt : Runtime) : Prop :=
  ∃ block, BlockAt variant program.tls tp block ∧
    Encodes view tokio144 (block + program.context) rt

/-- The thread with this pointer has entered none. -/
def Outside (tp : UInt64) : Prop :=
  ∃ block, BlockAt variant program.tls tp block ∧
    Holds view (handleAddr tokio144 (block + program.context)) 0

/-- The task is one of a runtime that a thread has entered. -/
def Owned (task : OwnedTask) : Prop :=
  ∃ tid ∈ view.threadIds, ∃ tp rt, view.threadPointer tid = .ok (some tp) ∧
    EnteredBy program variant view tp rt ∧ task ∈ rt.shards.flatten

end Entered

/-- The poll function of the task is one of the program, for a future of this type, whose name
can be read. -/
def HasFuture (file : TokioFile) (bias : UInt64) (task : OwnedTask) (typeName : String) : Prop :=
  ∃ addr T S, task.poll = bias + addr ∧ PollAt file.functions addr T S ∧ T.Readable ∧
    typeName = String.ofList T.print

/-- One poll function is of one future. -/
theorem HasFuture.unique {file : TokioFile} {bias : UInt64} {task : OwnedTask}
    {name name' : String} (h : HasFuture file bias task name)
    (h' : HasFuture file bias task name') : name = name' := by
  obtain ⟨addr, T, S, hpoll, hat, hreadable, rfl⟩ := h
  obtain ⟨addr', T', S', hpoll', hat', hreadable', rfl⟩ := h'
  rcases (UInt64.add_right_inj bias).mp (hpoll.symm.trans hpoll') with rfl
  -- one function is named for both
  obtain ⟨entry, hin, htag, hlow⟩ := hat.found
  have hnames := (hat.named entry hin htag hlow).symm.trans (hat'.named entry hin htag hlow)
  have hpolls := String.ofList_injective (Option.some.inj (Except.ok.inj hnames))
  have hfirst := (firstGenericArg_pollName T S).mpr hreadable
  rw [hpolls, (firstGenericArg_pollName T' S').mpr hreadable'] at hfirst
  rw [Option.some.inj hfirst]

/-- A process of a program, moved by `bias` when it was loaded. -/
structure TokioProcess (variant : TlsVariant) extends TokioProgram where
  view : ProcessView
  bias : UInt64
  base : view.executableBase = some (bias + lowest)
  threads : ∀ tid ∈ view.threadIds, view.threadPointer tid = .ok none ∨
    ∃ tp, view.threadPointer tid = .ok (some tp) ∧
      (Outside toTokioProgram variant view tp ∨ ∃ rt, EnteredBy toTokioProgram variant view tp rt)
  entered : ∃ tid ∈ view.threadIds, ∃ tp rt, view.threadPointer tid = .ok (some tp) ∧
    EnteredBy toTokioProgram variant view tp rt
  polled : ∀ task, Owned toTokioProgram variant view task → ∃ typeName,
    HasFuture file bias task typeName

/-- What a binary is resolved to. -/
structure PlanFor (program : TokioProgram) (plan : EnumerationPlan) : Prop where
  layout : plan.layout = tokio144
  context : plan.facts.contextTlsOffset = program.context
  tlsAlign : plan.facts.tlsAlign = max program.tls.align 1
  tlsBlockSize : plan.facts.tlsBlockSize = program.tls.memsz
  minLoadVaddr : plan.facts.minLoadVaddr = program.lowest
  pollTypes : pollTypeMap program.file.functions = .ok plan.facts.pollTypes

/-- There is a plan for such a binary. -/
theorem resolve_eq_ok (program : TokioProgram) :
    ∃ plan, EnumerationPlan.resolve program.image (.ok program.file) = .ok plan ∧
      PlanFor program plan := by
  obtain ⟨version, hversion, hverified⟩ := program.verified
  obtain ⟨symbol, hsymbol, hcontext⟩ := program.has_context
  obtain ⟨polls, hpolls⟩ := program.legible
  obtain ⟨halign, hsize⟩ := tls_foldl_note program.tlsSegment_eq {}
  have hfind : contextTlsOffset program.file = .ok program.context := by
    cases hfind : program.file.symbols.find? Symbol.isContext with
    | none => exact absurd hcontext (List.find?_eq_none.mp hfind symbol hsymbol)
    | some first =>
      rw [contextTlsOffset, hfind]
      exact congrArg Except.ok
        (program.context_eq first (List.mem_of_find?_eq_some hfind) (List.find?_some hfind))
  -- The facts are read in the order of the source, and none of the reads fails.
  have hfacts : BinaryFacts.resolve program.image (.ok program.file) = .ok
      ⟨version, program.context, max program.tls.align 1, program.tls.memsz, program.lowest,
        polls⟩ := by
    rw [BinaryFacts.resolve, hversion]
    dsimp only
    rw [Except.mapError, lift_ok_bind, hfind, lift_ok_bind, if_neg (by simp [program.debug]),
      elfGeometry_eq program.headers, Effect.except_ok_bind]
    dsimp only
    rw [hpolls, lift_ok_bind, lowest_geometry program.lowestLoad, geometry, halign, hsize]
    rfl
  refine ⟨⟨⟨version, program.context, max program.tls.align 1, program.tls.memsz, program.lowest,
    polls⟩, tokio144⟩, ?_, rfl, rfl, rfl, rfl, rfl, hpolls⟩
  rw [EnumerationPlan.resolve, hfacts, Effect.except_ok_bind, TokioRuntimeLayout.vendored,
    if_pos hverified]
  rfl

/-! ## The tasks -/

/-- The roots are the tasks of the process whose futures are coroutines: numbered from 1 in the
order of their headers, each with the address and the type of its future. -/
structure TokioProcess.Lists {variant : TlsVariant} (p : TokioProcess variant)
    (layouts : AsyncLayouts) (roots : List TaskRoot) : Prop where
  numbered : ∀ i root, roots[i]? = some root → root.id = UInt64.ofNat (i + 1)
  ascending : ∃ headers : List UInt64,
    roots.map TaskRoot.headerAddr = headers.map some ∧ headers.Pairwise (· < ·)
  mem : ∀ header base typeName,
    (∃ root ∈ roots, root.headerAddr = some header ∧ root.base = base ∧ root.typeName = typeName) ↔
      ∃ task, Owned p.toTokioProgram variant p.view task ∧ task.header = header ∧
        base = header + tokio144.futureOffset ∧ HasFuture p.file p.bias task typeName ∧
        layouts.isCoroutine typeName = true

section Process

variable {variant : TlsVariant} {p : TokioProcess variant} {plan : EnumerationPlan}

theorem contextAddr_eq (h : PlanFor p.toTokioProgram plan) {tp block : UInt64}
    (hblock : BlockAt variant p.tls tp block) :
    plan.contextAddr variant tp = block + p.context := by
  rw [EnumerationPlan.contextAddr, h.context, h.tlsAlign, h.tlsBlockSize]
  exact staticTlsAddress_eq hblock p.context

/-- A thread inside the runtime gives the tasks of all of its shards. -/
theorem walkThread_entered (h : PlanFor p.toTokioProgram plan) {tp : UInt64} {rt : Runtime}
    (hentered : EnteredBy p.toTokioProgram variant p.view tp rt) :
    plan.walkThread variant p.view tp =
      .ok (true, rt.shards.flatten.map (OwnedTask.raw tokio144)) := by
  obtain ⟨block, hblock, hencodes⟩ := hentered
  rw [walkThread, h.layout, contextAddr_eq h hblock]
  exact walkContext_eq hencodes

/-- A thread outside of it gives none. -/
theorem walkThread_outside (h : PlanFor p.toTokioProgram plan) {tp : UInt64}
    (houtside : Outside p.toTokioProgram variant p.view tp) :
    plan.walkThread variant p.view tp = .ok (false, []) := by
  obtain ⟨block, hblock, hnull⟩ := houtside
  rw [walkThread, h.layout, contextAddr_eq h hblock]
  exact walkContext_null hnull []

theorem mem_pointers {view : ProcessView} {pointer : Pointer} :
    pointer ∈ pointers view ↔ ∃ tid ∈ view.threadIds, view.threadPointer tid = pointer :=
  List.mem_map

/-- The threads can be walked, and one of them has entered a runtime. -/
theorem listable (h : PlanFor p.toTokioProgram plan) :
    Listable (plan.walkThread variant p.view) (pointers p.view) := by
  constructor
  · intro pointer hpointer
    obtain ⟨tid, htid, rfl⟩ := mem_pointers.mp hpointer
    rcases p.threads tid htid with hnone | ⟨tp, htp, hwhere⟩
    · exact ⟨none, hnone, fun tp heq => by cases heq⟩
    · refine ⟨some tp, htp, ?_⟩
      intro tp' heq
      rcases Option.some.inj heq with rfl
      rcases hwhere with houtside | ⟨rt, hentered⟩
      · exact ⟨_, walkThread_outside h houtside⟩
      · exact ⟨_, walkThread_entered h hentered⟩
  · obtain ⟨tid, htid, tp, rt, htp, hentered⟩ := p.entered
    exact ⟨_, tp, mem_pointers.mpr ⟨tid, htid, htp⟩, walkThread_entered h hentered⟩

/-- What the walk discovers are the tasks of the process. -/
theorem discovered_iff (h : PlanFor p.toTokioProgram plan) {raw : RawTask} :
    Discovered (plan.walkThread variant p.view) (pointers p.view) raw ↔
      ∃ task, Owned p.toTokioProgram variant p.view task ∧ task.raw tokio144 = raw := by
  constructor
  · rintro ⟨tasks, ⟨tp, hpointer, hwalk⟩, hraw⟩
    obtain ⟨tid, htid, htp⟩ := mem_pointers.mp hpointer
    rcases p.threads tid htid with hnone | ⟨tp', htp', hwhere⟩
    · rw [hnone] at htp
      cases htp
    rcases Option.some.inj (Except.ok.inj (htp'.symm.trans htp)) with rfl
    rcases hwhere with houtside | ⟨rt, hentered⟩
    · rw [walkThread_outside h houtside] at hwalk
      cases hwalk
    · rw [walkThread_entered h hentered] at hwalk
      rcases (Prod.mk.inj (Except.ok.inj hwalk)).2 with rfl
      obtain ⟨task, htask, rfl⟩ := List.mem_map.mp hraw
      exact ⟨task, ⟨tid, htid, tp', rt, htp, hentered, htask⟩, rfl⟩
  · rintro ⟨task, ⟨tid, htid, tp, rt, htp, hentered, htask⟩, rfl⟩
    exact ⟨_, ⟨tp, mem_pointers.mpr ⟨tid, htid, htp⟩, walkThread_entered h hentered⟩,
      List.mem_map_of_mem htask⟩

/-- The type of a task is that of its future. -/
theorem hasType_iff (h : PlanFor p.toTokioProgram plan) {layouts : AsyncLayouts}
    {task : OwnedTask} (htask : Owned p.toTokioProgram variant p.view task) {typeName : String} :
    HasType plan p.bias layouts (task.raw tokio144) typeName ↔
      HasFuture p.file p.bias task typeName ∧ layouts.isCoroutine typeName = true := by
  have htype {name : String} (hfuture : HasFuture p.file p.bias task name) :
      plan.facts.futureTypeFor ((task.raw tokio144).pollRuntime - p.bias) = some name := by
    obtain ⟨addr, T, S, hpoll, hat, hreadable, rfl⟩ := hfuture
    have hback : (task.raw tokio144).pollRuntime - p.bias = addr := by
      rw [OwnedTask.raw, hpoll, UInt64.add_comm, UInt64.add_sub_cancel]
    rw [hback, futureTypeFor_eq h.pollTypes hat, (firstGenericArg_pollName T S).mpr hreadable]
    rfl
  constructor
  · rintro ⟨hfound, hcoroutine⟩
    obtain ⟨name, hfuture⟩ := p.polled task htask
    rw [htype hfuture] at hfound
    rcases Option.some.inj hfound with rfl
    exact ⟨hfuture, hcoroutine⟩
  · rintro ⟨hfuture, hcoroutine⟩
    exact ⟨htype hfuture, hcoroutine⟩

theorem known_of_discovered {raw : RawTask}
    (h : Discovered (plan.walkThread variant p.view) (pointers p.view) raw) :
    Known p.view plan.layout raw := by
  obtain ⟨tasks, ⟨tp, -, hwalk⟩, hraw⟩ := h
  exact walkContext_known hwalk raw hraw

/-- The live tasks that are listed. -/
theorem enumerateRoots_lists (h : PlanFor p.toTokioProgram plan) (layouts : AsyncLayouts) :
    ∃ roots, plan.enumerateRoots variant p.view layouts = .ok roots ∧ p.Lists layouts roots := by
  have hbias : plan.loadBias p.view = .ok p.bias := by
    rw [loadBias, p.base]
    dsimp only
    rw [h.minLoadVaddr, UInt64.add_sub_cancel]
    rfl
  rcases collectRaw_cases plan variant p.view with ⟨-, acc, hgathers, hraw⟩ | ⟨hno, -⟩
  · have hroots := enumerates_rootsFromRaw plan p.bias layouts hgathers
    refine ⟨plan.rootsFromRaw p.bias layouts 1 acc.byHeader.values, ?_, hroots.numbered,
      hroots.ascending, ?_⟩
    · rw [enumerateRoots, hbias, Effect.except_ok_bind, hraw]
      rfl
    intro header base typeName
    constructor
    · rintro ⟨root, hroot, hheader, rfl, rfl⟩
      obtain ⟨raw, hdiscovered, hraw, hbase, htype⟩ := hroots.only root hroot
      obtain ⟨task, htask, rfl⟩ := (discovered_iff h).mp hdiscovered
      rcases Option.some.inj (hheader.symm.trans hraw) with rfl
      exact ⟨task, htask, rfl, hbase, (hasType_iff h htask).mp htype⟩
    · rintro ⟨task, htask, rfl, rfl, hfuture⟩
      have hdiscovered := (discovered_iff h).mpr ⟨task, htask, rfl⟩
      have htype := (hasType_iff h htask).mpr hfuture
      obtain ⟨root, hroot, hheader⟩ := (hroots.all _ hdiscovered).mpr ⟨typeName, htype⟩
      obtain ⟨raw, hdiscovered', hraw, hbase, htype'⟩ := hroots.only root hroot
      -- what is known of a header is one task
      have hsame : raw = task.raw tokio144 :=
        (known_of_discovered hdiscovered').eq (known_of_discovered hdiscovered)
          (Option.some.inj (hraw.symm.trans hheader))
      subst hsame
      exact ⟨root, hroot, hheader, hbase, Option.some.inj (htype'.1.symm.trans htype.1)⟩
  · exact absurd (listable h) hno

end Process

/-! ## The tree of the tasks -/

section Tree

variable {decoder : TokioDecoder} {view : ProcessView} {roots : List TaskRoot}

/-- Roots that are numbered from 1 have ascending numbers, as long as there are not too many. -/
theorem ascending_of_numbered
    (hnumbered : ∀ i root, roots[i]? = some root → root.id = UInt64.ofNat (i + 1))
    (hfew : roots.length ≤ maxTasks) :
    (roots.Pairwise fun a b => a.id < b.id) ∧
      ∀ root ∈ roots, root.id.toNat < 2 ^ 64 - 2 ^ 17 := by
  have hmax : maxTasks = 2 ^ 16 := rfl
  have hid {i : Nat} (hi : i < roots.length) : roots[i].id.toNat = i + 1 := by
    rw [hnumbered i _ (List.getElem?_eq_getElem hi), UInt64.toNat_ofNat']
    exact Nat.mod_eq_of_lt (by omega)
  constructor
  · rw [List.pairwise_iff_getElem]
    intro i j hi hj hlt
    rw [UInt64.lt_iff_toNat_lt, hid hi, hid hj]
    omega
  · intro root hroot
    obtain ⟨i, hi, rfl⟩ := List.mem_iff_getElem.mp hroot
    rw [hid hi]
    omega

/-- Every root is a node. -/
theorem Walked.length_roots {nodes : List DecodedNode} {start : UInt64}
    (h : Walked roots start nodes) : roots.length ≤ nodes.length := by
  have hlength := congrArg List.length h.tops
  rw [List.length_map, List.length_map] at hlength
  rw [← hlength]
  exact List.length_filter_le _ _

/-- The node of a root tells of its coroutine. -/
theorem node_of_root {tree : TaskTree} (hroots : decoder.effectiveRoots view = .ok roots)
    (htree : decoder.decodeTasks view = .ok tree) {root : TaskRoot} (hroot : root ∈ roots) :
    ∃ node layout, tree.node ⟨root.id⟩ = some node ∧
      node.name = TokioDecoder.shortName root.typeName ∧ node.parent = none ∧
      decoder.layouts.get root.typeName = some layout ∧
      taskState view decoder.layouts root.base layout root.headerAddr = .ok node.state := by
  obtain ⟨nodes, hnodes, htree⟩ := Effect.except_bind_ok htree
  have hwalked := (enumerate_walked hroots hnodes).1
  rw [TokioDecoder.enumerate, hroots, Effect.except_ok_bind] at hnodes
  obtain ⟨acc, hfold, hnodes⟩ := Effect.except_bind_ok hnodes
  rcases Except.ok.inj hnodes with rfl
  have hnode {n : DecodedNode} (hn : n ∈ acc.out) (hid : n.id = ⟨root.id⟩) :
      tree.node ⟨root.id⟩ = some (TokioDecoder.taskNode n) := by
    rw [TaskTree.node_tryFromNodes htree]
    exact (TaskTree.find_eq_some_iff (TaskTree.pairwise_tryFromNodes htree)).mpr
      ⟨List.mem_map_of_mem hn, hid⟩
  obtain ⟨n, hn, hid, layout, hlayout, hstate⟩ := (foldlM_root hfold).2 root hroot
  -- the node at the top of the walk is the same
  have htop : (root.id, root.coroutine) ∈
      (topTasks acc.out).map fun n => (n.id.raw, n.coroutine) := by
    rw [hwalked.tops]
    exact List.mem_map_of_mem hroot
  obtain ⟨top, htop, heq⟩ := List.mem_map.mp htop
  obtain ⟨hraw, hcoroutine⟩ := Prod.mk.inj heq
  obtain ⟨htop, hparent⟩ := List.mem_filter.mp htop
  have hsame : TokioDecoder.taskNode top = TokioDecoder.taskNode n :=
    Option.some.inj ((hnode htop (TaskId.raw_inj.mp hraw)).symm.trans (hnode hn hid))
  refine ⟨TokioDecoder.taskNode n, layout, hnode hn hid, ?_, ?_, hlayout, hstate⟩
  · rw [← hsame]
    exact congrArg TokioDecoder.shortName (congrArg Coroutine.typeName hcoroutine)
  · rw [← hsame]
    exact Option.isNone_iff_eq_none.mp hparent

/-- Tasks whose roots are numbered from 1 are decoded if their coroutines can be read. -/
theorem decodeTasks_numbered (hroots : decoder.effectiveRoots view = .ok roots)
    (hnumbered : ∀ i root, roots[i]? = some root → root.id = UInt64.ofNat (i + 1)) :
    ((∃ tree, decoder.decodeTasks view = .ok tree) ↔
      ∃ n, Unfolds view decoder.layouts (roots.map TaskRoot.item) n ∧ n ≤ maxTasks) ∧
    ∀ tree, decoder.decodeTasks view = .ok tree →
      tree.roots = roots.map fun root => ⟨root.id⟩ := by
  -- The nodes are as many as the limit allows, so no number is used twice.
  have hwalk {nodes : List DecodedNode} (hnodes : decoder.enumerate view = .ok nodes) :
      Walked roots (TokioDecoder.firstFreeId roots) nodes ∧ nodes.length ≤ maxTasks ∧
        (roots.Pairwise fun a b => a.id < b.id) ∧
          ∀ root ∈ roots, root.id.toNat < 2 ^ 64 - 2 ^ 17 := by
    obtain ⟨hwalked, hlength⟩ := enumerate_walked hroots hnodes
    exact ⟨hwalked, hlength,
      ascending_of_numbered hnumbered (hwalked.length_roots.trans hlength)⟩
  constructor
  · constructor
    · rintro ⟨tree, htree⟩
      obtain ⟨nodes, hnodes, -⟩ := Effect.except_bind_ok htree
      exact ⟨nodes.length, (enumerate_ok_iff hroots).mp ⟨nodes, hnodes, rfl⟩⟩
    · rintro ⟨n, hunfolds, hfew⟩
      obtain ⟨nodes, hnodes, -⟩ := (enumerate_ok_iff hroots).mpr ⟨hunfolds, hfew⟩
      obtain ⟨hwalked, hlength, hascending, hbound⟩ := hwalk hnodes
      have hnodup := List.pairwise_map.mp (hwalked.nodup hlength hascending hbound)
      rw [TokioDecoder.decodeTasks, hnodes, Effect.except_ok_bind]
      exact hwalked.tree_iff.mpr hnodup
  · intro tree htree
    obtain ⟨nodes, hnodes, htree⟩ := Effect.except_bind_ok htree
    obtain ⟨hwalked, hlength, hascending, hbound⟩ := hwalk hnodes
    have horder := TaskTree.order_of_siblings htree fun parent => by
      rw [filter_taskNode, List.pairwise_map]
      exact hwalked.siblings hlength hascending hbound parent
    have htops : (nodes.filter fun n => n.parent = none) = topTasks nodes := by
      refine List.filter_congr ?_
      intro n _
      cases n.parent <;> simp
    have hids := congrArg (List.map TaskId.mk) hwalked.topIds
    rw [List.map_map, List.map_map] at hids
    rw [horder.1, filter_taskNode, List.map_map, htops]
    exact hids

end Tree

/-! ## From the binary to the tasks -/

section Selected

variable [Go.AddressReader] {variant : TlsVariant} {orders : Nat → SetOrder} {binary : Binary}

/-- A file that is no Go binary has no decoder for goroutines. -/
theorem fromBinary_notGo
    (hgo : ∀ object, binary.goFile = .ok object → Go.isGoObject object = false) :
    ∃ e, Go.GoroutineDecoder.fromBinary binary.goFile binary.image.bytes = .error (.error e) := by
  rw [Go.GoroutineDecoder.fromBinary, Go.loadLayout]
  cases hfile : binary.goFile with
  | error reason => exact ⟨_, rfl⟩
  | ok object =>
    rw [Except.mapError, lift_ok_bind, if_pos (by simp [hgo object hfile])]
    exact ⟨_, rfl⟩

/-- **The tasks of a Tokio process, from its binary.** The decoder that is chosen lists the tasks
that the threads' runtimes own and whose futures are coroutines of the binary, numbered from 1 in
the order of their headers. They are decoded if there are any, and they and all that they fan out
to can be read; they are then the roots of the tree. -/
theorem tasks_of_binary (p : TokioProcess variant) {found : DwarfExtract}
    (himage : binary.image = p.image) (hfile : binary.tokioFile = .ok p.file)
    (hgo : ∀ object, binary.goFile = .ok object → Go.isGoObject object = false)
    (hfound : extract orders (.ok p.file.objectFile) = .ok found) :
    ∃ decoder roots, selectDecoderForBinary orders variant binary = .ok decoder ∧
      p.Lists found.layouts roots ∧
      ((∃ tree, decoder.decodeTasks p.view = .ok tree) ↔
        roots ≠ [] ∧ ∃ n, Unfolds p.view found.layouts (roots.map TaskRoot.item) n ∧
          n ≤ maxTasks) ∧
      ∀ tree, decoder.decodeTasks p.view = .ok tree →
        (tree.roots = roots.map fun root => ⟨root.id⟩) ∧
        ∀ root ∈ roots, ∃ node layout, tree.node ⟨root.id⟩ = some node ∧
          node.name = TokioDecoder.shortName root.typeName ∧ node.parent = none ∧
          found.layouts.get root.typeName = some layout ∧
          taskState p.view found.layouts root.base layout root.headerAddr = .ok node.state := by
  obtain ⟨plan, hplan, hfor⟩ := resolve_eq_ok p.toTokioProgram
  obtain ⟨roots, hroots, hlists⟩ := enumerateRoots_lists hfor found.layouts
  have hdecoder : TokioDecoder.fromBinary orders variant binary.image binary.tokioFile =
      .ok ⟨found.layouts, [], some (plan.lister variant)⟩ := by
    rw [TokioDecoder.fromBinary, himage, hfile, Except.map, hfound, lift_ok_bind, hplan]
    rfl
  obtain ⟨e, hnotGo⟩ := fromBinary_notGo hgo
  have hselect : selectDecoderForBinary orders variant binary =
      .ok (TokioDecoder.mk found.layouts [] (some (plan.lister variant))).semantic := by
    rw [selectDecoderForBinary, hnotGo, hdecoder]
    rfl
  refine ⟨_, roots, hselect, hlists, ?_⟩
  have hlister : plan.lister variant p.view found.layouts = .ok roots := by
    rw [EnumerationPlan.lister, hroots]
    rfl
  -- Without a task the decoder declines; with one the tree is that of the walk.
  cases roots with
  | nil =>
    have hdeclined : ∀ tree, ¬ (TokioDecoder.mk found.layouts []
        (some (plan.lister variant))).decodeTasks p.view = .ok tree := by
      intro tree h
      obtain ⟨nodes, hnodes, -⟩ := Effect.except_bind_ok h
      obtain ⟨none, hnone, -⟩ := Effect.except_bind_ok hnodes
      simp only [TokioDecoder.effectiveRoots, hlister] at hnone
      cases hnone
    constructor
    · constructor
      · rintro ⟨tree, htree⟩
        exact absurd htree (hdeclined tree)
      · rintro ⟨hsome, -⟩
        exact absurd rfl hsome
    · intro tree htree
      exact absurd htree (hdeclined tree)
  | cons root roots =>
    have heffective : (TokioDecoder.mk found.layouts []
        (some (plan.lister variant))).effectiveRoots p.view = .ok (root :: roots) := by
      simp only [TokioDecoder.effectiveRoots, hlister]
      rfl
    obtain ⟨hdecodes, htree⟩ := decodeTasks_numbered heffective hlists.numbered
    constructor
    · constructor
      · intro h
        exact ⟨List.cons_ne_nil _ _, hdecodes.mp h⟩
      · rintro ⟨-, h⟩
        exact hdecodes.mpr h
    · intro tree h
      exact ⟨htree tree h, fun r hr => node_of_root heffective h hr⟩

end Selected

/-! ### A process of two threads and two tasks -/

/-- One program header: its kind, where it is loaded, its size in memory and its alignment. -/
def headerBytes (kind vaddr memsz align : Nat) : List UInt8 :=
  LittleEndian.encode 4 kind ++ List.replicate 12 0 ++ LittleEndian.encode 8 vaddr ++
    List.replicate 16 0 ++ LittleEndian.encode 8 memsz ++ LittleEndian.encode 8 align

/-- An ELF header and two program headers: a segment at `0x400`, and 72 thread-local bytes. -/
def fetchHeaders : List UInt8 :=
  [0x7F, 0x45, 0x4C, 0x46, 2, 1] ++ List.replicate 26 0 ++ LittleEndian.encode 8 64 ++
    List.replicate 14 0 ++ LittleEndian.encode 2 56 ++ LittleEndian.encode 2 2 ++
    List.replicate 6 0 ++ headerBytes 1 0x400 0x10000 0x1000 ++ headerBytes 7 0x8000 72 8

@[simp] theorem length_headerBytes (kind vaddr memsz align : Nat) :
    (headerBytes kind vaddr memsz align).length = 56 := by
  simp [headerBytes]

theorem length_fetchHeaders : fetchHeaders.length = 176 := by
  simp [fetchHeaders]

/-- The path of a source file. -/
def fetchPath : List UInt8 := encodeUtf8 "tokio-1.44.2/src".toList

theorem length_fetch : (fetchHeaders ++ fetchPath).length = 192 := by
  have hpath : fetchPath.length = 16 := by decide
  rw [List.length_append, length_fetchHeaders, hpath]

/-- The headers, and a path behind them. -/
def fetchImage : ByteVec where
  bytes := fetchHeaders ++ fetchPath
  bounded := by
    rw [length_fetch]
    decide

theorem detectInBytes_fetchImage :
    TokioVersion.detectInBytes fetchImage.bytes = some ⟨1, 44, 2⟩ := by
  have htoken : TokioToken fetchPath ⟨1, 44, 2⟩ := by
    refine ⟨rfl, encodeUtf8 "/src".toList, by decide, ?_⟩
    intro byte hbyte
    rcases Option.some.inj (Option.mem_def.mp hbyte) with rfl
    decide
  have hlegible : TokioLegible fetchPath := by
    have hwindow : (fetchPath.drop (encodeUtf8 "tokio-".toList).length).take 24 =
        encodeUtf8 "1.44.2/src".toList := by decide
    rw [TokioLegible, hwindow, decodeUtf8_encodeUtf8]
    rfl
  rw [tokio_detectInBytes, @firstAt_drop _ _ _ _ _ fetchHeaders.length]
  · have hdrop : fetchImage.bytes.drop fetchHeaders.length = fetchPath := List.drop_left
    rw [hdrop, firstAt_of_head TokioReading.rightUnique (htoken.reading hlegible)]
  · -- the headers have no `t`
    intro j hj v hreading
    have hplain : (0x74 : UInt8) ∉ fetchHeaders := by decide
    obtain ⟨rest, hrest⟩ := hreading.1
    have hbyte : fetchImage.bytes[j]? = some 0x74 := by
      have hhead := congrArg List.head? hrest
      rw [List.head?_drop] at hhead
      exact hhead.symm
    rw [fetchImage, List.getElem?_append_left hj] at hbyte
    exact hplain (List.mem_of_getElem? hbyte)

def pollDie (T : RustType) (addr : UInt64) : FunctionDie where
  tag := dwTagSubprogram
  name := .ok (some (String.ofList (pollName T schedulerType)))
  lowPc := .ok (some addr)

/-- The body of an `async fn`. -/
def asyncFnEnv : Word where
  text := "async_fn".toList ++ "_env".toList
  ne_nil := by decide
  solid := by decide
  plain := by decide

/-- The body of `async fn fetch`. -/
def fetchType : RustType :=
  .ofPath (.segment (.first ⟨"fetch".toList, by decide, by decide, by decide⟩)
    (.marker asyncFnEnv 0))

/-- A future that is no coroutine. -/
def boxedType : RustType := .ofPath (.first ⟨"Boxed".toList, by decide, by decide, by decide⟩)

/-- The file has the layout of `fetch`, and the poll functions of two futures. -/
def fetchFile : TokioFile where
  symbols := [⟨false, some "_ZN5tokio7runtime4Core", 0x400⟩,
    ⟨true, some "_ZN5tokio7runtime7context7CONTEXT", 0⟩]
  hasDebugInfo := true
  units := [.ok (demoUnit 0 "clang LLVM (rustc version 1.80.1 (3f5fd8dd4 2024-08-06))")]
  functions := [.ok [.ok (pollDie fetchType 0xA6AA), .ok (pollDie boxedType 0xB7BB)]]

def fetchProgram : TokioProgram where
  image := fetchImage
  file := fetchFile
  context := 0
  tls := ⟨7, 0x8000, 72, 8⟩
  lowest := 0x400
  verified := ⟨_, detectInBytes_fetchImage, rfl, rfl⟩
  has_context := ⟨⟨true, some "_ZN5tokio7runtime7context7CONTEXT", 0⟩, by simp [fetchFile], rfl⟩
  context_eq := by
    intro symbol hsymbol hcontext
    rcases List.mem_cons.mp hsymbol with rfl | hsymbol
    · cases hcontext
    · rcases List.mem_singleton.mp hsymbol with rfl
      rfl
  debug := rfl
  headers := by
    have hlength : fetchImage.bytes.length = 192 := length_fetch
    refine ⟨⟨by omega, rfl, rfl, rfl⟩, ?_⟩
    intro i hi
    have hcount : fieldAt fetchImage 56 2 = 2 := rfl
    have hpos : headerPos fetchImage i = 64 + i * 56 := rfl
    omega
  tlsSegment_eq := rfl
  lowestLoad := by
    constructor
    · exact ⟨⟨1, 0x400, 0x10000, 0x1000⟩, .head _, rfl, rfl⟩
    · intro h hin hload
      have hheaders : programHeaders fetchImage =
        [⟨1, 0x400, 0x10000, 0x1000⟩, ⟨7, 0x8000, 72, 8⟩] := rfl
      rw [hheaders] at hin
      rcases List.mem_cons.mp hin with rfl | hin
      · decide
      · rcases List.mem_singleton.mp hin with rfl
        cases hload
    · decide
  legible := ⟨_, rfl⟩

/-- One thread has entered the runtime with two tasks, the other one none. -/
def fetchView : ProcessView := threadsOf [0x1048, 0x3048]

theorem blockAt_fetch (tp : UInt64) : BlockAt .variantII fetchProgram.tls tp (tp - 72) := by
  refine ⟨72, rfl, ⟨by decide, by decide⟩, ?_⟩
  rintro n ⟨hle, -⟩
  exact hle

theorem block_eq {tp block : UInt64} (h : BlockAt .variantII fetchProgram.tls tp block) :
    block = tp - 72 := by
  have hsame := (staticTlsAddress_eq h 0).symm.trans (staticTlsAddress_eq (blockAt_fetch tp) 0)
  rwa [UInt64.add_zero, UInt64.add_zero] at hsame

theorem encodes_fetch : Encodes fetchView tokio144 0x1000 twoShardsRuntime := by
  have hmemory : (memoryView twoShards).readMemory = fetchView.readMemory := rfl
  exact encodes_twoShards.congr hmemory

theorem null_fetch : Holds fetchView (handleAddr tokio144 0x3000) 0 := rfl

/-- The tasks are those of the one runtime. -/
theorem task_of_owned {task : OwnedTask} (h : Owned fetchProgram .variantII fetchView task) :
    task.raw tokio144 = ⟨0x10000, 0xAAAA, 0x10038⟩ ∨
      task.raw tokio144 = ⟨0x20000, 0xBBBB, 0x20038⟩ := by
  obtain ⟨tid, htid, tp, rt, htp, ⟨block, hblock, hencodes⟩, htask⟩ := h
  rcases block_eq hblock with rfl
  have hwalk := walkContext_eq hencodes
  have hraw : task.raw tokio144 ∈ rt.shards.flatten.map (OwnedTask.raw tokio144) :=
    List.mem_map_of_mem htask
  rcases List.mem_cons.mp htid with rfl | htid
  · rcases Option.some.inj (Except.ok.inj htp) with rfl
    have hsame := (walkContext_eq encodes_fetch).symm.trans hwalk
    rw [← (Prod.mk.inj (Except.ok.inj hsame)).2] at hraw
    rcases List.mem_cons.mp hraw with hfirst | hrest
    · exact .inl hfirst
    · exact .inr (List.mem_singleton.mp hrest)
  · -- the other thread has entered no runtime
    rcases List.mem_singleton.mp htid with rfl
    rcases Option.some.inj (Except.ok.inj htp) with rfl
    have hnone := (walkContext_null null_fetch []).symm.trans hwalk
    cases (Prod.mk.inj (Except.ok.inj hnone)).1

theorem pollAt_fetch :
    PollAt fetchFile.functions 0xA6AA fetchType schedulerType ∧
      PollAt fetchFile.functions 0xB7BB boxedType schedulerType := by
  have hall : ∀ entry, InUnits fetchFile.functions entry →
      entry = pollDie fetchType 0xA6AA ∨ entry = pollDie boxedType 0xB7BB := by
    rintro entry ⟨entries, hentries, hentry⟩
    rcases Except.ok.inj (List.mem_singleton.mp hentries) with rfl
    rcases List.mem_cons.mp hentry with hfirst | hrest
    · exact .inl (Except.ok.inj hfirst)
    · exact .inr (Except.ok.inj (List.mem_singleton.mp hrest))
  constructor
  · refine ⟨⟨_, ⟨_, .head _, .head _⟩, rfl, rfl⟩, ?_⟩
    intro entry hentry _ haddr
    rcases hall entry hentry with rfl | rfl
    · rfl
    · cases haddr
  · refine ⟨⟨_, ⟨_, .head _, .tail _ (.head _)⟩, rfl, rfl⟩, ?_⟩
    intro entry hentry _ haddr
    rcases hall entry hentry with rfl | rfl
    · cases haddr
    · rfl

/-- The image was moved by `0x400` when it was loaded. -/
def fetchProcess : TokioProcess .variantII where
  toTokioProgram := fetchProgram
  view := fetchView
  bias := 0x400
  base := rfl
  threads := by
    intro tid htid
    refine .inr ?_
    rcases List.mem_cons.mp htid with rfl | htid
    · exact ⟨0x1048, rfl, .inr ⟨_, _, blockAt_fetch _, encodes_fetch⟩⟩
    · rcases List.mem_singleton.mp htid with rfl
      exact ⟨0x3048, rfl, .inl ⟨_, blockAt_fetch _, null_fetch⟩⟩
  entered := ⟨⟨0⟩, .head _, 0x1048, _, rfl, _, blockAt_fetch _, encodes_fetch⟩
  polled := by
    intro task htask
    rcases task_of_owned htask with hraw | hraw
    · exact ⟨_, 0xA6AA, fetchType, schedulerType, congrArg RawTask.pollRuntime hraw,
        pollAt_fetch.1, by decide, rfl⟩
    · exact ⟨_, 0xB7BB, boxedType, schedulerType, congrArg RawTask.pollRuntime hraw,
        pollAt_fetch.2, by decide, rfl⟩

/-- The file is no Go binary. -/
def fetchBinary : Binary where
  image := fetchImage
  goFile := .ok ⟨true, true, [".text", ".tdata"], [], []⟩
  tokioFile := .ok fetchFile

/-- Of the two tasks the first one is listed, and its body, which has returned, is decoded. -/
theorem tasks_of_binary_fetch :
    ∃ found decoder roots tree, extract demoOrders (.ok fetchFile.objectFile) = .ok found ∧
      @selectDecoderForBinary Go.plainReader demoOrders .variantII fetchBinary = .ok decoder ∧
      fetchProcess.Lists found.layouts roots ∧
      decoder.decodeTasks fetchView = .ok tree ∧ tree.roots = [⟨1⟩] := by
  obtain ⟨found, hfound, hlegible, hfetch, hboxed⟩ : ∃ found,
      extract demoOrders (.ok fetchFile.objectFile) = .ok found ∧
        Legible fetchView found.layouts ⟨0x10038, String.ofList fetchType.print⟩ [] ∧
        found.layouts.isCoroutine (String.ofList fetchType.print) = true ∧
        found.layouts.isCoroutine (String.ofList boxedType.print) = false :=
    ⟨_, rfl, ⟨_, _, _, _, rfl, rfl, rfl, rfl⟩, rfl, rfl⟩
  obtain ⟨decoder, roots, hselect, hlists, hdecodes, htree⟩ :=
    @tasks_of_binary Go.plainReader .variantII demoOrders fetchBinary fetchProcess found rfl rfl
      (by
        intro object hobject
        rcases Except.ok.inj hobject with rfl
        rfl) hfound
  obtain ⟨hfirst, hsecond⟩ := pollAt_fetch
  have honly : ∀ root ∈ roots, ∀ header, root.headerAddr = some header →
      header = 0x10000 ∧ root.coroutine = ⟨0x10038, String.ofList fetchType.print⟩ := by
    intro root hroot header hheader
    obtain ⟨task, htask, rfl, hbase, hfuture, hcoroutine⟩ :=
      (hlists.mem header root.base root.typeName).mp ⟨root, hroot, hheader, rfl, rfl⟩
    rcases task_of_owned htask with hraw | hraw
    · have htype : root.typeName = String.ofList fetchType.print := hfuture.unique
        ⟨0xA6AA, _, _, congrArg RawTask.pollRuntime hraw, hfirst, by decide, rfl⟩
      have hhead : task.header = 0x10000 := congrArg RawTask.header hraw
      refine ⟨hhead, ?_⟩
      rw [TaskRoot.coroutine, htype, hbase, hhead]
      rfl
    · have htype : root.typeName = String.ofList boxedType.print := hfuture.unique
        ⟨0xB7BB, _, _, congrArg RawTask.pollRuntime hraw, hsecond, by decide, rfl⟩
      rw [htype, hboxed] at hcoroutine
      cases hcoroutine
  have howned : Owned fetchProgram .variantII fetchView ⟨0x10000, 0x9000, 0xAAAA, 0x400⟩ :=
    ⟨⟨0⟩, .head _, 0x1048, _, rfl, ⟨_, blockAt_fetch _, encodes_fetch⟩, .head _⟩
  obtain ⟨first, hin, hheader, -⟩ := (hlists.mem _ _ _).mpr
    ⟨_, howned, rfl, rfl, ⟨0xA6AA, _, _, rfl, hfirst, by decide, rfl⟩, hfetch⟩
  -- two roots would have headers one after the other
  obtain ⟨headers, hheaders, hascending⟩ := hlists.ascending
  have hall : ∀ header ∈ headers, header = 0x10000 := by
    intro header hmem
    have hsome : some header ∈ roots.map TaskRoot.headerAddr := by
      rw [hheaders]
      exact List.mem_map_of_mem hmem
    obtain ⟨root, hroot, heq⟩ := List.mem_map.mp hsome
    exact (honly root hroot header heq).1
  have hone : headers.length ≤ 1 := by
    cases headers with
    | nil => exact Nat.zero_le 1
    | cons header rest =>
      cases rest with
      | nil => exact Nat.le_refl 1
      | cons other rest =>
        have hlt := List.rel_of_pairwise_cons hascending (.head _)
        rw [hall header (.head _), hall other (.tail _ (.head _))] at hlt
        exact absurd hlt (by decide)
  have hlength := congrArg List.length hheaders
  rw [List.length_map, List.length_map] at hlength
  obtain ⟨root, hroots⟩ : ∃ root, roots = [root] :=
    List.length_eq_one_iff.mp (by have := List.length_pos_of_mem hin; omega)
  rcases hroots with rfl
  rcases List.mem_singleton.mp hin with rfl
  have hitem : first.item = (⟨0x10038, String.ofList fetchType.print⟩, some 0x10000) := by
    rw [TaskRoot.item, (honly first hin _ hheader).2, hheader]
  have hunfolds : Unfolds fetchView found.layouts [first.item] 1 := by
    rw [hitem]
    refine .cons hlegible ?_ .nil .nil
    intro addr _
    exact ⟨_, rfl⟩
  obtain ⟨tree, hdecoded⟩ := hdecodes.mpr ⟨List.cons_ne_nil _ _, 1, hunfolds, by decide⟩
  have hid : first.id = 1 := hlists.numbered 0 first rfl
  refine ⟨found, decoder, [first], tree, hfound, hselect, hlists, hdecoded, ?_⟩
  rw [(htree tree hdecoded).1, List.map_singleton, hid]

end Mirrorscope.Decoder.AsyncRust
