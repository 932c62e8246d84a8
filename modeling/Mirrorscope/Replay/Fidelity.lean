import Mirrorscope.Capture.Kernel
import Mirrorscope.Replay.Injection

/-! # Captured and re-injected memory

A suppressed syscall is replayed by writing what the recorder captured of the real one.
That leaves the memory the kernel left just when the captured range covers everything the
kernel wrote; the sender a `recvfrom` reports is outside of it, and the length a truncated
datagram reports reaches past the buffer of the caller.
-/

namespace Mirrorscope.Replay

open ByteMemory (Within)
open Capture Linux Run
open Trace (Event EventKind Record)

/-! ## What the capture covers -/

section Covers

variable {arch : Arch} {nr : UInt64} {args : Args} {ret : Int64} {addr : UInt64}

/-- What the kernel can write lies in the captured bytes, and these in the caller's
buffer. Only a `recvfrom` that succeeded can be at fault: by answering with more than its
buffer has room for, or by reporting a sender elsewhere. -/
def CaptureCovers (arch : Arch) (nr : UInt64) (args : Args) (ret : Int64) : Prop :=
  nr = Syscall.num arch .recvfrom → 0 ≤ ret →
    retLen ret ≤ args[2]!.toNat ∧
    (args[4]! = 0 ∨
      (∀ x, Within args[5]! 4 x → Within args[1]! (retLen ret) x) ∧
      ∀ x, Within args[4]! sockaddrLen x → Within args[1]! (retLen ret) x)

theorem injectionAddr_fills (hnr : FillsSecond arch nr) :
    injectionAddr arch nr args = some args[1]! := if_pos hnr

theorem injectionAddr_getrandom :
    injectionAddr arch (Syscall.num arch .getrandom) args = some args[0]! :=
  (if_neg not_fillsSecond_getrandom).trans (if_pos rfl)

theorem injectionAddr_clockGettime :
    injectionAddr arch (Syscall.num arch .clockGettime) args = some args[1]! :=
  (if_neg not_fillsSecond_clockGettime).trans
    ((if_neg clockGettime_ne_getrandom).trans (if_pos rfl))

/-- Outside of the captured bytes, reporting a sender changes nothing. -/
theorem writeSource_outside {m : ByteMemory} {source : Bytes} {len : Nat} {x : UInt64}
    (hlong : source.length ≤ sockaddrLen)
    (hword : ∀ x, Within args[5]! 4 x → Within args[1]! len x)
    (haddr : ∀ x, Within args[4]! sockaddrLen x → Within args[1]! len x)
    (hx : ¬ Within args[1]! len x) : writeSource m args source x = m x := by
  rw [writeSource, ByteMemory.write_outside, ByteMemory.write_outside]
  · intro hwithin
    refine hx (haddr x (hwithin.mono ?_))
    rw [List.length_take]
    omega
  · rw [LittleEndian.length_encode]
    exact fun hwithin => hx (hword x hwithin)

/-- Where the capture covers what was written, writing it back is the kernel's effect. -/
theorem inject_captured {before after : ByteMemory} (haddr : injectionAddr arch nr args = some addr)
    (hcovers : CaptureCovers arch nr args ret) (h : KernelWrote arch nr args ret before after) :
    before.write addr (capturedData arch nr args ret after) = after := by
  cases h with
  | failed hret => rw [capturedData_failed hret, ByteMemory.write_nil]
  | read hnr hret data hlen =>
    have hfills : FillsSecond arch nr := hnr.elim .inl fun h => .inr (.inl h)
    rcases Option.some.inj (haddr.symm.trans (injectionAddr_fills hfills)) with rfl
    rw [capturedData_fills hfills hret]
    apply ByteMemory.write_range_eq
    intro x hx
    exact ByteMemory.write_outside (by rwa [hlen])
  | recvfrom hnr hret data hlen hsource =>
    have hfills : FillsSecond arch nr := .inr (.inr hnr)
    rcases Option.some.inj (haddr.symm.trans (injectionAddr_fills hfills)) with rfl
    rw [Nat.min_eq_left (hcovers hnr hret).1] at hlen
    rw [capturedData_fills hfills hret]
    apply ByteMemory.write_range_eq
    intro x hx
    exact ByteMemory.write_outside (by rwa [hlen])
  | recvfromSource hnr hret data hlen hsource hroom source hlong =>
    have hfills : FillsSecond arch nr := .inr (.inr hnr)
    rcases Option.some.inj (haddr.symm.trans (injectionAddr_fills hfills)) with rfl
    -- The kernel wrote the source's name as well, which lies inside what was captured.
    rcases hcovers hnr hret with ⟨hfits, hnone | ⟨hword, hname⟩⟩
    · exact absurd hnone hsource
    rw [Nat.min_eq_left hfits] at hlen
    rw [capturedData_fills hfills hret]
    apply ByteMemory.write_range_eq
    intro x hx
    rw [writeSource_outside hlong hword hname hx]
    exact ByteMemory.write_outside (by rwa [hlen])
  | getrandom hnr hret data hlen =>
    subst hnr
    rcases Option.some.inj (haddr.symm.trans injectionAddr_getrandom) with rfl
    rw [capturedData_getrandom hret]
    apply ByteMemory.write_range_eq
    intro x hx
    exact ByteMemory.write_outside (by rwa [hlen])
  | clockGettime hnr hret data hlen =>
    subst hnr hret
    rcases Option.some.inj (haddr.symm.trans injectionAddr_clockGettime) with rfl
    rw [capturedData_clockGettime]
    apply ByteMemory.write_range_eq
    intro x hx
    exact ByteMemory.write_outside (by rwa [hlen])

/-- A covered transfer into the second argument's buffer fits it. -/
theorem fits_of_covers (hmay : MayReturn arch nr args ret)
    (hcovers : CaptureCovers arch nr args ret) (hnr : FillsSecond arch nr) (hret : 0 ≤ ret) :
    retLen ret ≤ args[2]!.toNat := by
  rcases hmay with hneg | ⟨-, -, ⟨-, hle⟩ | ⟨hrecv, -⟩ | ⟨rfl, -⟩ | ⟨rfl, -⟩⟩
  · exact absurd hneg (Int64.not_lt.mpr hret)
  · exact hle
  · exact (hcovers hrecv hret).1
  · exact absurd hnr not_fillsSecond_getrandom
  · exact absurd hnr not_fillsSecond_clockGettime

/-- A successful `getrandom` fits its buffer. -/
theorem fits_getrandom (hmay : MayReturn arch (Syscall.num arch .getrandom) args ret)
    (hret : 0 ≤ ret) : retLen ret ≤ args[1]!.toNat := by
  rcases hmay with hneg | ⟨-, -, ⟨hread, -⟩ | ⟨hrecv, -⟩ | ⟨-, hle⟩ | ⟨hclock, -⟩⟩
  · exact absurd hneg (Int64.not_lt.mpr hret)
  · exact absurd (hread.elim .inl fun h => .inr (.inl h)) not_fillsSecond_getrandom
  · exact absurd (.inr (.inr hrecv)) not_fillsSecond_getrandom
  · exact hle
  · exact absurd hclock.symm clockGettime_ne_getrandom

/-- Nothing is captured outside of the caller's buffer. -/
theorem captured_inBuffer (hmay : MayReturn arch nr args ret)
    (hcovers : CaptureCovers arch nr args ret) {x : UInt64} (h : IsCaptured arch nr args ret x) :
    InBuffer arch nr args x := by
  obtain ⟨start, len, hregion, hx⟩ := h
  unfold kernelWrittenRegion at hregion
  split at hregion
  · rename_i hfills
    rcases Prod.mk.inj (Option.some.inj hregion) with ⟨rfl, rfl⟩
    have hle := fits_of_covers hmay hcovers hfills.1 (Int64.le_of_lt hfills.2)
    exact .inl ⟨hfills.1, hx.mono hle⟩
  split at hregion
  · rename_i hrandom
    obtain ⟨rfl, hret⟩ := hrandom
    rcases Prod.mk.inj (Option.some.inj hregion) with ⟨rfl, rfl⟩
    exact .inr (.inl ⟨rfl, hx.mono (fits_getrandom hmay (Int64.le_of_lt hret))⟩)
  split at hregion
  · rename_i hclock
    rcases Prod.mk.inj (Option.some.inj hregion) with ⟨rfl, rfl⟩
    exact .inr (.inr ⟨hclock.1, hx⟩)
  · cases hregion

/-! ## Where the capture falls short -/

/-- Writing the capture back gives what the kernel left, whatever that is, and nothing
outside of the caller's buffer is captured. -/
def ExactlyCaptured (arch : Arch) (nr : UInt64) (args : Args) (ret : Int64) (addr : UInt64) :
    Prop :=
  ∀ before after, KernelWrote arch nr args ret before after →
    before.write addr (capturedData arch nr args ret after) = after ∧
    ∀ x, IsCaptured arch nr args ret x → InBuffer arch nr args x

/-- A memory of zeros. -/
def zeros : ByteMemory := fun _ => 0

theorem zeros_write_zeros (start : UInt64) (n : Nat) :
    zeros.write start (List.replicate n 0) = zeros := by
  funext x
  unfold ByteMemory.write
  cases h : (List.replicate n (0 : UInt8))[(x - start).toNat]? with
  | none => rfl
  | some byte =>
    have hmem := List.mem_of_getElem? h
    rw [List.eq_of_mem_replicate hmem]
    rfl

theorem sourceRoom_zeros (args : Args) : sourceRoom zeros args = 0 := by
  simp [sourceRoom, ByteMemory.range, zeros, LittleEndian.decode, List.range_succ]

/-- Some `recvfrom` with these arguments and this result was possible. -/
theorem exists_recvfrom (hnr : nr = Syscall.num arch .recvfrom) (hret : 0 ≤ ret) :
    ∃ before after, KernelWrote arch nr args ret before after := by
  have hlen := @List.length_replicate _ (min (retLen ret) args[2]!.toNat) (0 : UInt8)
  by_cases hsource : args[4]! = 0
  · exact ⟨zeros, _, .recvfrom hnr hret _ hlen hsource⟩
  · refine ⟨zeros, _, .recvfromSource hnr hret _ hlen hsource ?_ [] (Nat.zero_le _)⟩
    rw [zeros_write_zeros, sourceRoom_zeros]
    decide

/-- An answer beyond the buffer captures the byte behind it. -/
theorem fits_of_exactlyCaptured (hnr : nr = Syscall.num arch .recvfrom) (hret : 0 ≤ ret)
    (h : ExactlyCaptured arch nr args ret addr) : retLen ret ≤ args[2]!.toNat := by
  by_contra hlong
  have hfills : FillsSecond arch nr := .inr (.inr hnr)
  have hsize : args[2]!.toNat < 2 ^ 64 := args[2]!.toNat_lt
  obtain ⟨before, after, hwrote⟩ := @exists_recvfrom arch nr args ret hnr hret
  have hbehind := (h before after hwrote).2 (args[1]! + UInt64.ofNat args[2]!.toNat)
    ((isCaptured_fills hfills hret _).mpr
      ((ByteMemory.within_offset hsize).mpr (Nat.lt_of_not_le hlong)))
  rcases hbehind with ⟨-, hin⟩ | ⟨rfl, -⟩ | ⟨rfl, -⟩
  · exact Nat.lt_irrefl _ ((ByteMemory.within_offset hsize).mp hin)
  · exact absurd hfills not_fillsSecond_getrandom
  · exact absurd hfills not_fillsSecond_clockGettime

/-- A little-endian number of small digits is far from the largest one. -/
theorem decode_of_small {bs : Bytes} (h : ∀ b ∈ bs, b.toNat ≤ 1) :
    2 * LittleEndian.decode bs < 256 ^ bs.length := by
  induction bs with
  | nil => simp [LittleEndian.decode]
  | cons b bs ih =>
    have hb := h b List.mem_cons_self
    have hbs := ih fun c hc => h c (List.mem_cons_of_mem _ hc)
    rw [LittleEndian.decode, List.length_cons, Nat.pow_succ]
    omega

/-- A sender without an address is reported as a length of zero, so the old length has to
be among the captured bytes. -/
theorem word_of_exactlyCaptured (hnr : nr = Syscall.num arch .recvfrom) (hret : 0 ≤ ret)
    (hsource : args[4]! ≠ 0) (h : ExactlyCaptured arch nr args ret args[1]!) {x : UInt64}
    (hx : Within args[5]! 4 x) : Within args[1]! (retLen ret) x := by
  by_contra hout
  have hfills : FillsSecond arch nr := .inr (.inr hnr)
  -- the byte of the length that is not captured held a one
  let before : ByteMemory := fun y => if y = x then 1 else 0
  let data : Bytes := List.replicate (min (retLen ret) args[2]!.toNat) 0
  have hlen : data.length = min (retLen ret) args[2]!.toNat := List.length_replicate
  have hsmall : ∀ y, ((before.write args[1]! data) y).toNat ≤ 1 := by
    intro y
    by_cases hy : Within args[1]! data.length y
    · rw [ByteMemory.write_inside hy]
      simp [data]
    · rw [ByteMemory.write_outside hy]
      simp only [before]
      split <;> decide
  have hroom : sourceRoom (before.write args[1]! data) args < 2 ^ 31 := by
    have hdecode := @decode_of_small ((before.write args[1]! data).range args[5]! 4) (by
      intro b hb
      obtain ⟨i, -, rfl⟩ := List.mem_map.mp hb
      exact hsmall _)
    rw [ByteMemory.length_range] at hdecode
    rw [sourceRoom]
    omega
  have hexact := (h before _ (.recvfromSource hnr hret data hlen hsource hroom []
    (Nat.zero_le _))).1
  have hat := congrFun hexact x
  rw [capturedData_fills hfills hret, ByteMemory.write_range, if_neg hout, writeSource,
    ByteMemory.write_inside (by simpa using hx)] at hat
  have hzero : ∀ b ∈ LittleEndian.encode 4 0, b = 0 := by
    intro b hb
    exact (List.mem_replicate (n := 4)).mp hb |>.2
  have hold : before x = 1 := if_pos rfl
  rw [hold] at hat
  have hmem := hzero _ (List.get_mem (LittleEndian.encode 4 ([] : Bytes).length)
    ⟨(x - args[5]!).toNat, hx⟩)
  rw [← hat] at hmem
  exact absurd hmem (by decide)

/-- An address as long as any has to be among the captured bytes too. -/
theorem name_of_exactlyCaptured (hnr : nr = Syscall.num arch .recvfrom) (hret : 0 ≤ ret)
    (hsource : args[4]! ≠ 0) (h : ExactlyCaptured arch nr args ret args[1]!)
    (hfits : retLen ret ≤ args[2]!.toNat)
    (hword : ∀ x, Within args[5]! 4 x → Within args[1]! (retLen ret) x) {x : UInt64}
    (hx : Within args[4]! sockaddrLen x) : Within args[1]! (retLen ret) x := by
  by_contra hout
  have hfills : FillsSecond arch nr := .inr (.inr hnr)
  -- the data itself announces the room for the address
  let announced : ByteMemory := zeros.write args[5]! (LittleEndian.encode 4 sockaddrLen)
  let data : Bytes := announced.range args[1]! (retLen ret)
  have hlen : data.length = min (retLen ret) args[2]!.toNat := by
    rw [Nat.min_eq_left hfits]
    exact ByteMemory.length_range _ _ _
  have hroom : sourceRoom (zeros.write args[1]! data) args = sockaddrLen := by
    have hrange : (zeros.write args[1]! data).range args[5]! 4 = announced.range args[5]! 4 := by
      apply ByteMemory.range_congr (by decide)
      intro y hy
      rw [ByteMemory.write_range, if_pos (hword y hy)]
    rw [sourceRoom, hrange]
    have hread := @ByteMemory.range_write zeros args[5]! (LittleEndian.encode 4 sockaddrLen)
      (by decide)
    rw [LittleEndian.length_encode] at hread
    rw [show announced.range args[5]! 4 = _ from hread]
    decide
  have hexact := (h zeros _ (.recvfromSource hnr hret data hlen hsource
    (by rw [hroom]; decide) (List.replicate sockaddrLen 1) (by simp))).1
  have hat := congrFun hexact x
  have htake : (List.replicate sockaddrLen (1 : UInt8)).take sockaddrLen =
      List.replicate sockaddrLen 1 := by decide
  have hinside : Within args[4]! (List.replicate sockaddrLen (1 : UInt8)).length x := by
    rwa [List.length_replicate]
  rw [capturedData_fills hfills hret, ByteMemory.write_range, if_neg hout, writeSource,
    ByteMemory.write_outside (fun hin => hout (hword x (by simpa using hin))), hroom, htake,
    ByteMemory.write_inside hinside, List.get_eq_getElem, List.getElem_replicate] at hat
  exact absurd (show (0 : UInt8) = 1 from hat) (by decide)

/-- The capture is exact just when it covers what the kernel can write. -/
theorem exactlyCaptured_iff (haddr : injectionAddr arch nr args = some addr)
    (hmay : MayReturn arch nr args ret) :
    ExactlyCaptured arch nr args ret addr ↔ CaptureCovers arch nr args ret := by
  constructor
  · intro h hnr hret
    rcases Option.some.inj (haddr.symm.trans (injectionAddr_fills (.inr (.inr hnr)))) with rfl
    have hfits := fits_of_exactlyCaptured hnr hret h
    refine ⟨hfits, ?_⟩
    by_cases hsource : args[4]! = 0
    · exact .inl hsource
    · have hword := fun x => @word_of_exactlyCaptured arch nr args ret hnr hret hsource h x
      refine .inr ⟨hword, fun x hx => ?_⟩
      exact name_of_exactlyCaptured hnr hret hsource h hfits hword hx
  · intro hcovers before after hwrote
    exact ⟨inject_captured haddr hcovers hwrote, fun x => captured_inBuffer hmay hcovers⟩

end Covers

/-! ## Recording and replaying one syscall -/

section Runs

variable (arch : Arch)

/-- The recorder made `event` of the exit of a syscall, in a thread whose memory the
kernel left as `after`. -/
def ExitRecorded (nr : UInt64) (args : Args) (ret : Int64) (after : ByteMemory) (event : Event) :
    Prop :=
  ∃ (σ ω : Type) (_ : Ptrace arch ω) (U : UserMemory arch ω) (h h' : Hosted σ ω) (pid : Pid)
    (regs : Registers) (timestampNs : UInt64) (tid : UInt32),
    regs.nr = nr ∧ regs.args = args ∧ U.mem h.host pid = after ∧
    Run.exec (exitEvent arch timestampNs tid pid regs ret) h = some (.ok event, h')

/-- The driver took a tracee with the memory `before` through the syscall: over its entry
stop (`w` to `w₁`), then, the cancelled syscall having written nothing, over its exit stop
(`w₂` to `w₃`) against the recorded event. -/
def ExitReplayed (nr : UInt64) (args : Args) (event : Event) (before final : ByteMemory) : Prop :=
  ∃ (ω : Type) (_ : Ptrace arch ω) (_ : Unwind ω) (V : UserMemory arch ω)
    (w w₁ w₂ w₃ : World ω) (pid : Pid) (enter exit : Record),
    (w.session.pid = pid ∧ w.session.pending = none ∧ w.session.Upcoming enter ∧
      enter.event.kind = .syscallEnter ∧
      SyscallEnter.decode enter.event.payload = .ok { nr, args } ∧
      EnteredAs arch w.os pid { nr, args } ∧ V.mem w.os pid = before ∧
      Run.exec (onSyscallStop arch) w = some (.ok (), w₁)) ∧
    (w₂.session.pid = w₁.session.pid ∧ w₂.session.pending = w₁.session.pending ∧
      V.mem w₂.os pid = V.mem w₁.os pid ∧ w₂.session.Upcoming exit ∧ exit.event = event ∧
      Run.exec (onSyscallStop arch) w₂ = some (.ok (), w₃)) ∧
    V.mem w₃.os pid = final

/-- Replaying the recorded exit leaves the memory the kernel left, whatever that is, and
nothing outside of the caller's buffer is captured or overwritten. -/
def ReplaysKernelWrites (nr : UInt64) (args : Args) (ret : Int64) : Prop :=
  ∀ before after event final, KernelWrote arch nr args ret before after →
    ExitRecorded arch nr args ret after event → ExitReplayed arch nr args event before final →
    final = after ∧ ∀ x, IsCaptured arch nr args ret x → InBuffer arch nr args x

variable {arch} {nr : UInt64} {args : Args} {ret : Int64}

/-- What is captured always fits the length prefix of its payload. -/
theorem length_capturedData (hmay : MayReturn arch nr args ret) (m : ByteMemory) :
    (capturedData arch nr args ret m).length < 2 ^ 32 := by
  unfold capturedData
  split
  · rename_i addr len hregion
    rw [ByteMemory.length_range]
    have hret : ret < 0 ∨ retLen ret ≤ maxRwCount := hmay.imp_right fun h => h.2.1
    unfold kernelWrittenRegion at hregion
    split at hregion
    · rename_i hfills
      rcases Prod.mk.inj (Option.some.inj hregion) with ⟨-, rfl⟩
      rcases hret with hneg | hle
      · exact absurd hneg (Int64.lt_asymm hfills.2)
      · exact Nat.lt_of_le_of_lt hle (by decide)
    split at hregion
    · rename_i hrandom
      rcases Prod.mk.inj (Option.some.inj hregion) with ⟨-, rfl⟩
      rcases hret with hneg | hle
      · exact absurd hneg (Int64.lt_asymm hrandom.2)
      · exact Nat.lt_of_le_of_lt hle (by decide)
    split at hregion
    · rcases Prod.mk.inj (Option.some.inj hregion) with ⟨-, rfl⟩
      decide
    · cases hregion
  · decide

/-- A recorded exit carries the captured bytes. -/
theorem ExitRecorded.decode {after : ByteMemory} {event : Event} (hmay : MayReturn arch nr args ret)
    (h : ExitRecorded arch nr args ret after event) :
    event.kind = .syscallExit ∧ SyscallExit.decode event.payload =
      .ok { nr, ret, data := capturedData arch nr args ret after } := by
  obtain ⟨σ, ω, _, U, h, h', pid, regs, timestampNs, tid, rfl, rfl, rfl, hrun⟩ := h
  have hlen := length_capturedData hmay (U.mem h.host pid)
  unfold exitEvent at hrun
  cases hregion : kernelWrittenRegion arch regs.nr regs.args ret with
  | none =>
    rw [hregion] at hrun
    rcases Except.ok.inj (Prod.mk.inj (Option.some.inj hrun)).1 with rfl
    refine ⟨rfl, ?_⟩
    rw [capturedData, hregion] at hlen ⊢
    exact SyscallExit.decode_encode hlen
  | some region =>
    obtain ⟨addr, len⟩ := region
    rw [hregion] at hrun
    obtain ⟨data, u, hread, hrun⟩ := Run.bind_ok_inv hrun
    rcases Except.ok.inj (Prod.mk.inj (Option.some.inj hrun)).1 with rfl
    obtain ⟨copied, v, hcall, hpad⟩ := Run.bind_ok_inv hread
    rcases Except.ok.inj (Prod.mk.inj (Option.some.inj hpad)).1 with rfl
    have hcopied := U.readv (Prod.ext (Run.exec_call_ok hcall).1 rfl)
    rw [capturedData, hregion] at hlen ⊢
    refine ⟨rfl, ?_⟩
    rw [hcopied, ByteMemory.length_range, Nat.sub_self, List.replicate_zero, List.append_nil]
    exact SyscallExit.decode_encode hlen

end Runs

/-! ## The driver and the memory of its tracee -/

section Memory

variable {arch : Arch} {ω ε α : Type} [Ptrace arch ω] (V : UserMemory arch ω) (pid : Pid)
  (m : ByteMemory)

/-- The tracee's memory. -/
def MemoryIs (w : World ω) : Prop := V.mem w.os pid = m

variable {V pid m}

theorem osOr_memory {err : ε → ReplayError} {call : Call ω ε α}
    (h : ∀ os, V.mem (call os).2 pid = V.mem os pid) :
    Keeps (MemoryIs V pid m) (osOr err call) := by
  intro w hw r w' hexec
  have hsame := h w.os
  rcases exec_osOr_inv hexec with ⟨a, os', hcall, rfl, rfl⟩ | ⟨e, os', hcall, rfl, rfl⟩
  · rw [hcall] at hsame
    exact hsame.trans hw
  · rw [hcall] at hsame
    exact hsame.trans hw

theorem read_memory : Keeps (MemoryIs V pid m) (Regs.read arch pid : Method ω Registers) :=
  Keeps.bind (osOr_memory (V.getregs pid)) fun _ => Keeps.pure

theorem suppressSyscall_memory :
    Keeps (MemoryIs V pid m) (Regs.suppressSyscall arch pid : Method ω Unit) := by
  cases arch with
  | x86_64 =>
    exact Keeps.bind (osOr_memory (V.getregs pid)) fun _ => osOr_memory (V.setregs pid _)
  | aarch64 => exact osOr_memory (V.setSyscallNr pid _)

theorem setReturn_memory (ret : Int64) :
    Keeps (MemoryIs V pid m) (Regs.setReturn arch pid ret : Method ω Unit) :=
  Keeps.bind (osOr_memory (V.getregs pid)) fun _ => osOr_memory (V.setregs pid _)

theorem writeMemory_memory (addr : UInt64) (data : Bytes) :
    Spec (MemoryIs V pid m) (writeMemory arch pid addr data : Method ω Unit)
      (fun _ => MemoryIs V pid (m.write addr data)) (fun _ _ => True) := by
  unfold writeMemory
  split
  · rename_i hempty
    rw [List.isEmpty_iff.mp hempty]
    exact Spec.pure fun w hw => hw
  · have hwrite : Spec (MemoryIs V pid m)
        (osOr (.memory addr data.length) (Ptrace.processVmWritev arch pid addr data) : Method ω Nat)
        (fun _ => MemoryIs V pid (m.write addr data)) (fun _ _ => True) := by
      intro w hw r w' hexec
      rcases exec_osOr_inv hexec with ⟨n, os', hcall, rfl, rfl⟩ | ⟨e, os', hcall, rfl, rfl⟩
      · have hafter := V.writev hcall
        rwa [show V.mem w.os pid = m from hw] at hafter
      · trivial
    refine Spec.bind hwrite fun written => ?_
    split
    · exact Spec.fail fun _ _ => trivial
    · exact Spec.pure fun _ hw => hw

/-- Nothing is written at the entry stop. -/
theorem entryRule_memory (enter : SyscallEnter) :
    Keeps (MemoryIs V pid m)
      (atStop arch pid (entryRule arch pid enter) : Method ω Unit) :=
  Keeps.bind read_memory fun _ => Keeps.when suppressSyscall_memory

/-- The recorded bytes are written at the exit stop. -/
theorem exitRule_memory {enter : SyscallEnter} {exit : SyscallExit} {addr : UInt64}
    (haddr : injectionAddr arch enter.nr enter.args = some addr) :
    Spec (MemoryIs V pid m) (atStop arch pid (exitRule arch pid enter exit) : Method ω Unit)
      (fun _ => MemoryIs V pid (m.write addr exit.data)) (fun _ _ => True) := by
  refine Spec.bind (read_memory.mono (fun _ h => h) (fun _ _ h => h) fun _ _ _ => trivial)
    fun _ => ?_
  unfold exitRule
  rw [haddr]
  refine Spec.bind (writeMemory_memory addr exit.data) fun _ => ?_
  exact (setReturn_memory exit.ret).mono (fun _ h => h) (fun _ _ h => h) fun _ _ _ => trivial

end Memory

/-- Two runs of the same effect end in the same memory. -/
theorem ok_of_effect {ω : Type} {x y : Option (Except ReplayError Unit × World ω)} {w : World ω}
    (heffect : effect x = effect y) (hx : x = some (.ok (), w)) :
    ∃ u, y = some (.ok (), u) ∧ u.os = w.os := by
  rw [hx] at heffect
  cases y with
  | none => cases heffect
  | some end_ =>
    obtain ⟨r, u⟩ := end_
    rcases Prod.mk.inj (Option.some.inj heffect) with ⟨rfl, hos⟩
    exact ⟨u, rfl, hos.symm⟩

/-- Replaying a syscall whose result is injected writes the recorded bytes, and nothing
else. -/
theorem ExitReplayed.memory {arch : Arch} {nr : UInt64} {args : Args} {event : Event}
    {before final : ByteMemory} {addr : UInt64} {exit : SyscallExit}
    (haddr : injectionAddr arch nr args = some addr) (hkind : event.kind = .syscallExit)
    (hdecode : SyscallExit.decode event.payload = .ok exit)
    (h : ExitReplayed arch nr args event before final) : final = before.write addr exit.data := by
  obtain ⟨ω, _, _, V, w, w₁, w₂, w₃, pid, enter, record,
    ⟨rfl, hpending, hnext, henter, hcall, hregs, rfl, hentry⟩,
    ⟨hpid, hpending', hmem, hnext', rfl, hexit⟩, rfl⟩ := h
  obtain ⟨hentryEffect, hflight⟩ :=
    onSyscallStop_entry arch hpending hnext henter hcall hregs
  obtain ⟨hpid₁, hpending₁⟩ := hflight w₁ hentry
  obtain ⟨u, hu, hos⟩ := ok_of_effect hentryEffect hentry
  have hbefore : V.mem w₂.os w.session.pid = V.mem w.os w.session.pid := by
    rw [hmem, ← hos]
    exact (entryRule_memory _).ok rfl hu
  have hexitEffect := onSyscallStop_exit arch (hpending'.trans hpending₁) hnext' hkind hdecode
  obtain ⟨v, hv, hos'⟩ := ok_of_effect hexitEffect hexit
  rw [hpid, hpid₁] at hv
  rw [← hos']
  exact (exitRule_memory haddr).ok hbefore hv

/-! ## A system with memory -/

/-- One stopped process: its registers and its memory, all of it mapped. -/
structure StoppedProcess (arch : Arch) where
  regs : FullRegs arch
  mem : ByteMemory

namespace StoppedProcess

variable {arch : Arch}

instance : Ptrace arch (StoppedProcess arch) where
  spawnTraced _ os := (.ok 1, os)
  syscall _ _ os := (.ok (), os)
  step _ os := (.ok (), os)
  kill _ os := (.ok (), os)
  waitpid pid _ os := (.ok (.ptraceSyscall pid), os)
  setoptions _ _ os := (.ok (), os)
  getevent pid os := (.ok pid, os)
  getregs _ os := (.ok os.regs, os)
  setregs _ regs os := (.ok (), { os with regs })
  setSyscallNr _ _ os := (.ok (), os)
  processVmReadv _ addr len os := (.ok (os.mem.range addr len), os)
  processVmWritev _ addr data os := (.ok data.length, { os with mem := os.mem.write addr data })
  pokeUser _ _ _ os := (.ok (), os)
  setHwWatch _ _ _ os := (.ok (), os)
  getsiginfo _ os := (.ok 0, os)

instance : Unwind (StoppedProcess arch) where
  forPid _ os := (.ok (), os)
  registers _ os := (.ok 0, os)
  backtrace _ _ os := (.ok [], os)

/-- The memory of the process. -/
def userMemory : UserMemory arch (StoppedProcess arch) where
  mem os _ := os.mem
  readv h := (Except.ok.inj (Prod.mk.inj h).1).symm
  writev h := congrArg StoppedProcess.mem (Prod.mk.inj h).2.symm
  getregs _ _ := rfl
  setregs _ _ _ := rfl
  setSyscallNr _ _ _ := rfl

/-- The register file of a thread that enters a syscall. -/
def enterRegs : (arch : Arch) → UInt64 → Args → FullRegs arch
  | .x86_64, nr, args =>
    ({ rax := 0, origRax := nr, rdi := args[0]!, rsi := args[1]!, rdx := args[2]!, r10 := args[3]!,
       r8 := args[4]!, r9 := args[5]!, rip := 0, others := [] } : X86Regs)
  | .aarch64, nr, args =>
    ({ regs := ((((((Vector.replicate 31 0).set! 8 nr).set! 0 args[0]!).set! 1 args[1]!).set! 2
         args[2]!).set! 3 args[3]! |>.set! 4 args[4]!).set! 5 args[5]!
       sp := 0, pc := 0, pstate := 0 } : Aarch64Regs)

theorem args_eta (args : Args) :
    #v[args[0]!, args[1]!, args[2]!, args[3]!, args[4]!, args[5]!] = args := by
  ext i hi
  match i, hi with
  | 0, _ | 1, _ | 2, _ | 3, _ | 4, _ | 5, _ => rfl

theorem normalize_enterRegs (nr : UInt64) (args : Args) :
    (Linux.normalize arch (enterRegs arch nr args)).nr = nr ∧
      (Linux.normalize arch (enterRegs arch nr args)).args = args := by
  cases arch with
  | x86_64 => exact ⟨rfl, args_eta args⟩
  | aarch64 =>
    refine ⟨by simp [Linux.normalize, enterRegs], ?_⟩
    refine Eq.trans ?_ (args_eta args)
    simp [Linux.normalize, enterRegs]

/-- Any memory can be recorded from. -/
theorem exists_recorded (nr : UInt64) (args : Args) (ret : Int64) (after : ByteMemory) :
    ∃ event, ExitRecorded arch nr args ret after event := by
  let os : StoppedProcess arch := { regs := enterRegs arch nr args, mem := after }
  have hrun : ∃ event h', Run.exec (exitEvent arch 0 1 1 { nr, ret, args } ret)
      (⟨(), os⟩ : Hosted Unit (StoppedProcess arch)) = some (.ok event, h') := by
    unfold exitEvent
    cases kernelWrittenRegion arch nr args ret with
    | none => exact ⟨_, _, rfl⟩
    | some region => exact ⟨_, _, rfl⟩
  obtain ⟨event, h', hrun⟩ := hrun
  exact ⟨event, Unit, _, _, userMemory, ⟨(), os⟩, h', 1, _, 0, 1, rfl, rfl, rfl, hrun⟩

/-- A session with one record to come. -/
def session (record : Record) (pending : Option Pending) : ReplaySession :=
  { pid := 1, cmdline := { program := "", args := [] }, records := [record], pending,
    multithreaded := false }

theorem upcoming_session {record : Record} {pending : Option Pending}
    (h : record.event.kind ≠ .checkpoint) : (session record pending).Upcoming record := by
  simp [ReplaySession.Upcoming, session, skipFrom, h]

/-- The rule at the entry stop goes through. -/
theorem entryRule_succeeds (enter : SyscallEnter) (w : World (StoppedProcess arch)) :
    ∃ u, Run.exec (atStop arch 1 (entryRule arch 1 enter)) w = some (.ok (), u) := by
  unfold atStop entryRule Run.when
  split
  · cases arch with
    | x86_64 => exact ⟨_, rfl⟩
    | aarch64 => exact ⟨_, rfl⟩
  · exact ⟨_, rfl⟩

theorem writeMemory_succeeds (addr : UInt64) (data : Bytes) (w : World (StoppedProcess arch)) :
    ∃ u, Run.exec (writeMemory arch 1 addr data) w = some (.ok (), u) := by
  unfold writeMemory
  split
  · exact ⟨_, rfl⟩
  · have hcall : Run.exec (osOr (.memory addr data.length)
        (Ptrace.processVmWritev arch 1 addr data)) w = some (.ok data.length, _) := rfl
    rw [Run.bind_ok hcall, if_neg (not_not.mpr rfl)]
    exact ⟨_, rfl⟩

/-- So does the rule at the exit stop. -/
theorem exitRule_succeeds (enter : SyscallEnter) (exit : SyscallExit)
    (w : World (StoppedProcess arch)) :
    ∃ u, Run.exec (atStop arch 1 (exitRule arch 1 enter exit)) w = some (.ok (), u) := by
  have hread : Run.exec (Regs.read arch 1) w = some (.ok (normalize arch w.os.regs), w) := rfl
  rw [atStop, Run.bind_ok hread]
  unfold exitRule
  split
  · rename_i addr _
    obtain ⟨u, hwrite⟩ := writeMemory_succeeds addr exit.data w
    rw [Run.bind_ok hwrite]
    exact ⟨_, rfl⟩
  · exact ⟨_, rfl⟩

/-- Any recorded exit can be replayed on any memory. -/
theorem exists_replayed {nr : UInt64} {args : Args} {event : Event} {exit : SyscallExit}
    (hkind : event.kind = .syscallExit)
    (hdecode : SyscallExit.decode event.payload = .ok exit) (before : ByteMemory) :
    ∃ final, ExitReplayed arch nr args event before final := by
  let os : StoppedProcess arch := { regs := enterRegs arch nr args, mem := before }
  let enter : Record :=
    { seq := 0, event := .newWithTid .syscallEnter 0 1 (SyscallEnter.encode { nr, args }) }
  let record : Record := { seq := 1, event }
  let flight : Pending := { injectAddr := injectionAddr arch nr args }
  let w : World (StoppedProcess arch) := ⟨session enter none, os⟩
  let w₂ : World (StoppedProcess arch) := ⟨session record (some flight), os⟩
  have hnext : (session enter none).Upcoming enter :=
    upcoming_session (show EventKind.syscallEnter ≠ .checkpoint by decide)
  have hnext' : (session record (some flight)).Upcoming record :=
    upcoming_session (by simp [record, hkind])
  have hcall : SyscallEnter.decode enter.event.payload = .ok { nr, args } :=
    SyscallEnter.decode_encode { nr, args }
  have hregs : EnteredAs arch os 1 { nr, args } := by
    intro full os' hfull
    rcases Except.ok.inj (Prod.mk.inj hfull).1 with rfl
    exact normalize_enterRegs nr args
  obtain ⟨heffect, hflight⟩ :=
    @onSyscallStop_entry _ arch _ w enter { nr, args } rfl hnext rfl hcall hregs
  obtain ⟨u, hu⟩ := entryRule_succeeds { nr, args } w
  obtain ⟨w₁, hentry, hos⟩ := ok_of_effect heffect.symm hu
  have heffect' := @onSyscallStop_exit _ arch _ w₂ record { nr, args } exit rfl hnext' hkind
    hdecode
  obtain ⟨v, hv⟩ := exitRule_succeeds { nr, args } exit w₂
  obtain ⟨w₃, hexit, -⟩ := ok_of_effect heffect'.symm hv
  obtain ⟨hpid, hpending⟩ := hflight w₁ hentry
  -- the entry stop left the memory as it was, so `w₂` continues from it
  have hmem : w₁.os.mem = before := by
    rw [hos]
    have hstart : MemoryIs userMemory 1 before w := rfl
    exact (entryRule_memory { nr, args }).ok hstart hu
  exact ⟨w₃.os.mem, _, _, inferInstance, userMemory, w, w₁, w₂, w₃, 1, enter, record,
    ⟨rfl, rfl, hnext, rfl, hcall, hregs, rfl, hentry⟩,
    ⟨hpid.symm, hpending.symm, hmem.symm, hnext', rfl, hexit⟩, rfl⟩

end StoppedProcess

/-! ## Exactly the kernel's writes -/

section Exact

variable {arch : Arch} {nr : UInt64} {args : Args} {ret : Int64} {addr : UInt64}

/-- What a replay does to memory is to write back what was captured. -/
theorem replaysKernelWrites_iff_captured (haddr : injectionAddr arch nr args = some addr)
    (hmay : MayReturn arch nr args ret) :
    ReplaysKernelWrites arch nr args ret ↔ ExactlyCaptured arch nr args ret addr := by
  constructor
  · intro h before after hwrote
    obtain ⟨event, hrecorded⟩ := @StoppedProcess.exists_recorded arch nr args ret after
    obtain ⟨hkind, hdecode⟩ := hrecorded.decode hmay
    obtain ⟨final, hreplayed⟩ := StoppedProcess.exists_replayed hkind hdecode before
    obtain ⟨hfinal, hbuffer⟩ := h before after event final hwrote hrecorded hreplayed
    rw [hreplayed.memory haddr hkind hdecode] at hfinal
    exact ⟨hfinal, hbuffer⟩
  · intro h before after event final hwrote hrecorded hreplayed
    obtain ⟨hkind, hdecode⟩ := hrecorded.decode hmay
    obtain ⟨hexact, hbuffer⟩ := h before after hwrote
    rw [hreplayed.memory haddr hkind hdecode]
    exact ⟨hexact, hbuffer⟩

/-- Of every suppressed syscall and every result the kernel may give it, the replayed
memory is the one the kernel left just when the capture covers what it can write. -/
theorem replays_kernel_writes_iff (hsuppressed : (injectionAddr arch nr args).isSome)
    (hmay : MayReturn arch nr args ret) :
    ReplaysKernelWrites arch nr args ret ↔ CaptureCovers arch nr args ret := by
  obtain ⟨addr, haddr⟩ := Option.isSome_iff_exists.mp hsuppressed
  rw [replaysKernelWrites_iff_captured haddr hmay, exactlyCaptured_iff haddr hmay]

/-- A `read` of five bytes into a buffer of sixteen. -/
theorem replays_kernel_writes_read :
    ReplaysKernelWrites .x86_64 0 #v[3, 0x1000, 16, 0, 0, 0] 5 :=
  (replays_kernel_writes_iff (by decide)
    (.inr ⟨by decide, by decide, .inl ⟨by decide, by decide⟩⟩)).mpr (by
      intro hnr
      exact absurd hnr (by decide))

/-- A `recvfrom` of five bytes that asks for the sender: the replayed tracee does not get
to know it. -/
theorem recvfrom_sender_lost :
    ¬ ReplaysKernelWrites .x86_64 45 #v[3, 0x1000, 16, 0, 0x2000, 0x3000] 5 := by
  have haddr : injectionAddr .x86_64 45 #v[3, 0x1000, 16, 0, 0x2000, 0x3000] = some 0x1000 := by
    decide
  have hmay : MayReturn .x86_64 45 #v[3, 0x1000, 16, 0, 0x2000, 0x3000] 5 :=
    .inr ⟨by decide, by decide, .inr (.inl ⟨by decide, .inl (by decide)⟩)⟩
  rw [replaysKernelWrites_iff_captured haddr hmay, exactlyCaptured_iff haddr hmay]
  intro hcovers
  rcases (hcovers (by decide) (by decide)).2 with hnone | ⟨hword, -⟩
  · exact absurd hnone (by decide)
  · exact absurd (hword 0x3000 (by decide)) (by decide)

end Exact

end Mirrorscope.Replay
