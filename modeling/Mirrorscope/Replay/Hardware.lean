import Mirrorscope.Linux.DebugHardware
import Mirrorscope.Replay.Arming

/-! # What an armed watchpoint traps on

The encoders of both architectures against the hardware: registers armed with a valid
request trap on the accesses the request is about and on no other, disarmed registers on none.
With the invariant of the arming, this holds for every thread a session follows.
-/

namespace Mirrorscope.Replay

open Capture Linux Run
open Trace (Cmdline Record)

variable {ω : Type}

/-! ## Requests -/

/-- The accesses a kind of watchpoint is about. -/
def WatchKind.Includes : WatchKind → AccessKind → Prop
  | .write, kind => kind = .store
  | .readWrite, _ => True

namespace Watchpoint

/-- The watched range `[addr, addr + len)`. -/
def Range (wp : Watchpoint) (byte : Nat) : Prop :=
  wp.addr.toNat ≤ byte ∧ byte < wp.addr.toNat + wp.len.toNat

/-- The access is of the requested kind, and touches the watched range. -/
def Covers (wp : Watchpoint) (a : DataAccess) : Prop :=
  wp.kind.Includes a.kind ∧ ∃ byte, a.Touches byte ∧ wp.Range byte

/-- A request that passed `validate`. -/
structure Valid (wp : Watchpoint) : Prop where
  len : wp.len = 1 ∨ wp.len = 2 ∨ wp.len = 4 ∨ wp.len = 8
  aligned : wp.addr.toNat % wp.len.toNat = 0

end Watchpoint

/-! ## Granules -/

/-- The aligned address names the granule of the address. -/
theorem granule_div (addr : UInt64) : (addr &&& ~~~ 7).toNat / 8 = addr.toNat / 8 := by
  have hmask : (~~~ (7 : UInt64)).toNat / 8 = 2 ^ 61 - 1 := by decide
  have hlt : addr.toNat / 8 < 2 ^ 61 := by
    have haddr := addr.toNat_lt
    omega
  have hshift : (addr.toNat &&& (~~~ (7 : UInt64)).toNat) / 8 =
      addr.toNat / 8 &&& (~~~ (7 : UInt64)).toNat / 8 := by
    rw [show (8 : Nat) = 2 ^ 3 from rfl]
    simp only [← Nat.shiftRight_eq_div_pow, Nat.shiftRight_and_distrib]
  rw [UInt64.toNat_and, hshift, hmask, Nat.and_two_pow_sub_one_eq_mod, Nat.mod_eq_of_lt hlt]

theorem offset_toNat (addr : UInt64) : (addr &&& 7).toNat = addr.toNat % 8 := by
  rw [UInt64.toNat_and]
  exact Nat.and_two_pow_sub_one_eq_mod addr.toNat 3

namespace Watchpoint

/-- A valid range lies in one granule. -/
theorem Valid.fits {wp : Watchpoint} (hvalid : wp.Valid) :
    wp.addr.toNat % 8 + wp.len.toNat ≤ 8 := by
  have haligned := hvalid.aligned
  rcases hvalid.len with h | h | h | h <;> rw [h] at haligned ⊢ <;>
    simp only [UInt8.reduceToNat] at haligned ⊢ <;> omega

theorem fitsInGranule_iff (addr : UInt64) (len : UInt8) :
    fitsInGranule addr len = true ↔ addr.toNat % 8 + len.toNat ≤ 8 := by
  have hlen := len.toNat_lt
  have hsum : ((addr &&& 7) + len.toUInt64).toNat = addr.toNat % 8 + len.toNat := by
    rw [UInt64.toNat_add, offset_toNat, UInt8.toNat_toUInt64]
    omega
  rw [fitsInGranule, decide_eq_true_iff, UInt64.le_iff_toNat_le, hsum]
  exact Iff.rfl

/-- `validate` accepts the natural lengths at an aligned address; the check of the granule refuses
nothing more. -/
theorem validate_iff (wp : Watchpoint) : validate wp.addr wp.len = .ok () ↔ wp.Valid := by
  have hlen : isValidLen wp.len = true ↔ wp.len = 1 ∨ wp.len = 2 ∨ wp.len = 4 ∨ wp.len = 8 := by
    simp [isValidLen, or_assoc]
  have haligned : wp.addr % wp.len.toUInt64 = 0 ↔ wp.addr.toNat % wp.len.toNat = 0 := by
    rw [← UInt64.toNat_inj, UInt64.toNat_mod, UInt8.toNat_toUInt64]
    exact Iff.rfl
  unfold validate
  constructor
  · intro h
    split at h
    · cases h
    rename_i hvalid
    split at h
    · cases h
    rename_i hgranule
    refine ⟨hlen.mp (by simpa using hvalid), haligned.mp ?_⟩
    by_contra hne
    exact hgranule (.inl hne)
  · intro hvalid
    rw [if_neg (not_not.mpr (hlen.mpr hvalid.len)), if_neg]
    rintro (hne | hne)
    · exact hne (haligned.mpr hvalid.aligned)
    · exact hne ((fitsInGranule_iff _ _).mpr hvalid.fits)

end Watchpoint

/-! ## x86-64 -/

section X86

variable {kind : WatchKind} {len : UInt8} {dr7 : UInt64}

theorem len_of_x86Dr7 (h : x86Dr7 kind len = .ok dr7) :
    len = 1 ∨ len = 2 ∨ len = 8 ∨ len = 4 := by
  unfold x86Dr7 x86LenBits at h
  by_contra hne
  simp only [not_or] at hne
  simp [hne, Bind.bind, Except.bind] at h

/-- Of the four slots only the first is enabled. -/
theorem enabled_x86Dr7 (h : x86Dr7 kind len = .ok dr7) (n : Nat) (hn : n < 4) :
    field dr7.toNat (2 * n) 2 ≠ 0 ↔ n = 0 := by
  rcases len_of_x86Dr7 h with rfl | rfl | rfl | rfl <;> cases kind <;> cases h <;> revert n <;>
    decide

theorem condition_x86Dr7 (h : x86Dr7 kind len = .ok dr7) :
    field dr7.toNat 16 2 = (x86RwBits kind).toNat := by
  rcases len_of_x86Dr7 h with rfl | rfl | rfl | rfl <;> cases kind <;> cases h <;> decide

theorem size_x86Dr7 (h : x86Dr7 kind len = .ok dr7) :
    X86Debug.sizeOf (field dr7.toNat 18 2) = len.toNat := by
  rcases len_of_x86Dr7 h with rfl | rfl | rfl | rfl <;> cases kind <;> cases h <;> decide

theorem breaks_x86Dr7 {dr : Nat → UInt64} (h : x86Dr7 kind len = .ok dr7) (access : AccessKind) :
    X86Debug.Breaks ⟨dr, dr7⟩ 0 access ↔ kind.Includes access := by
  have hcondition := condition_x86Dr7 h
  cases access <;> cases kind <;>
    simp [X86Debug.Breaks, WatchKind.Includes, hcondition, x86RwBits]

end X86

/-- Division tells the aligned block a byte lies in. -/
theorem div_eq_div_iff_range {addr len byte : Nat} (hlen : 0 < len) (haddr : addr % len = 0) :
    byte / len = addr / len ↔ addr ≤ byte ∧ byte < addr + len := by
  obtain ⟨k, rfl⟩ := Nat.dvd_of_mod_eq_zero haddr
  rw [Nat.mul_div_cancel_left k hlen, Nat.div_eq_iff hlen, Nat.mul_comm len k]
  omega

/-- Registers armed for x86-64 trap on what the request is about. -/
theorem x86_traps_iff {wp : Watchpoint} (hvalid : wp.Valid) {regs : X86Debug}
    (haddr : regs.dr 0 = wp.addr) (hdr7 : x86Dr7 wp.kind wp.len = .ok regs.dr7) (a : DataAccess) :
    regs.Traps a ↔ wp.Covers a := by
  have hpos : 0 < wp.len.toNat := by
    rcases hvalid.len with h | h | h | h <;> rw [h] <;> decide
  have hwatches (byte : Nat) : regs.Watches 0 byte ↔ wp.Range byte := by
    unfold X86Debug.Watches X86Debug.size Watchpoint.Range
    rw [size_x86Dr7 hdr7, haddr]
    exact div_eq_div_iff_range hpos hvalid.aligned
  unfold X86Debug.Traps Watchpoint.Covers
  have hbreaks : regs.Breaks 0 a.kind ↔ wp.kind.Includes a.kind := breaks_x86Dr7 hdr7 a.kind
  simp only [← hwatches, ← hbreaks]
  constructor
  · rintro ⟨n, hn, henabled, hrest⟩
    obtain rfl := (enabled_x86Dr7 hdr7 n hn).mp henabled
    exact hrest
  · exact fun hrest => ⟨0, by omega, (enabled_x86Dr7 hdr7 0 (by omega)).mpr rfl, hrest⟩

/-- Without an enabled slot nothing traps. -/
theorem x86_not_traps {regs : X86Debug} (h : regs.dr7 = 0) (a : DataAccess) : ¬ regs.Traps a := by
  rintro ⟨n, -, henabled, -⟩
  unfold X86Debug.Enabled field at henabled
  rw [h] at henabled
  simp at henabled

/-! ## aarch64 -/

section Arm

/-- The byte selection for an offset in the granule. -/
def basAt (offset : Nat) (len : UInt8) : UInt32 :=
  (((1 <<< len.toUInt32) - 1) &&& 0xff) <<< (UInt64.ofNat offset).toUInt32

theorem aarch64Bas_eq (addr : UInt64) (len : UInt8) :
    aarch64Bas addr len = basAt (addr.toNat % 8) len := by
  unfold aarch64Bas basAt
  rw [← offset_toNat, UInt64.ofNat_toNat]

/-- The selection is that of the bytes `[offset, offset + len)`. -/
theorem field_basAt {offset byte : Fin 8} {len : UInt8}
    (hlen : len = 1 ∨ len = 2 ∨ len = 4 ∨ len = 8) (hfits : offset.val + len.toNat ≤ 8) :
    field (basAt offset len).toNat byte 1 = 1 ↔
      offset.val ≤ byte.val ∧ byte.val < offset.val + len.toNat := by
  rcases hlen with rfl | rfl | rfl | rfl <;> revert offset byte <;> decide

theorem basAt_lt {offset : Fin 8} {len : UInt8} (hlen : len = 1 ∨ len = 2 ∨ len = 4 ∨ len = 8)
    (hfits : offset.val + len.toNat ≤ 8) : (basAt offset len).toNat < 256 := by
  rcases hlen with rfl | rfl | rfl | rfl <;> revert offset <;> decide

theorem lsc_bounds (kind : WatchKind) :
    2 ≤ (aarch64Lsc kind).toNat ∧ (aarch64Lsc kind).toNat ≤ 3 := by
  cases kind <;> decide

/-- The control word by its fields: enabled, user programs, the access, the selection. -/
theorem control_toNat (kind : WatchKind) {bas : UInt32} (h : bas.toNat < 256) :
    ((1 : UInt32) ||| ((2 : UInt32) <<< 1) ||| (aarch64Lsc kind <<< 3) ||| (bas <<< 5)).toNat =
      32 * bas.toNat + (5 + 8 * (aarch64Lsc kind).toNat) := by
  have hlow : ((1 : UInt32) ||| ((2 : UInt32) <<< 1) ||| (aarch64Lsc kind <<< 3)).toNat =
      5 + 8 * (aarch64Lsc kind).toNat := by
    cases kind <;> exact rfl
  have hhigh : (bas <<< 5).toNat = 2 ^ 5 * bas.toNat := by
    rw [UInt32.toNat_shiftLeft]
    simp only [UInt32.reduceToNat, Nat.reduceMod, Nat.shiftLeft_eq]
    omega
  have hlsc := (lsc_bounds kind).2
  rw [UInt32.toNat_or, hlow, hhigh, Nat.or_comm, ← Nat.two_pow_add_eq_or_of_lt (by omega)]

theorem field_add (reg lo i width : Nat) :
    field reg (lo + i) width = field (reg / 2 ^ lo) i width := by
  unfold field
  rw [Nat.pow_add, Nat.div_div_eq_div_mul]

variable {wp : Watchpoint} (hvalid : wp.Valid)
include hvalid

/-- Registers armed for aarch64 trap on what the request is about. -/
theorem arm_traps_iff {regs : ArmWatch}
    (h : aarch64Control wp.addr wp.len wp.kind = .ok (regs.wvr, regs.wcr)) (a : DataAccess) :
    regs.Traps a ↔ wp.Covers a := by
  let offset : Fin 8 := ⟨wp.addr.toNat % 8, Nat.mod_lt _ (by decide)⟩
  have hfits : offset.val + wp.len.toNat ≤ 8 := hvalid.fits
  have hbas : (basAt offset wp.len).toNat < 256 := basAt_lt hvalid.len hfits
  obtain ⟨hwvr, hwcr⟩ : regs.wvr = wp.addr &&& ~~~ 7 ∧
      regs.wcr.toNat = 32 * (basAt offset wp.len).toNat + (5 + 8 * (aarch64Lsc wp.kind).toNat) := by
    unfold aarch64Control at h
    rw [aarch64Bas_eq] at h
    split at h
    · cases h
    · obtain ⟨hwvr, hwcr⟩ := Prod.mk.inj (Except.ok.inj h)
      refine ⟨hwvr.symm, ?_⟩
      rw [← hwcr]
      exact control_toNat wp.kind hbas
  obtain ⟨hlsc, hlsc'⟩ := lsc_bounds wp.kind
  have henabled : regs.Enabled := by
    unfold ArmWatch.Enabled field
    rw [hwcr]
    omega
  have hunprivileged : regs.Unprivileged := by
    left
    unfold field
    rw [hwcr]
    omega
  have hunlinked : regs.Unlinked := by
    unfold ArmWatch.Unlinked field
    rw [hwcr]
    omega
  have hbreaks : regs.Breaks a.kind ↔ wp.kind.Includes a.kind := by
    have hfield : field regs.wcr.toNat 3 2 = (aarch64Lsc wp.kind).toNat := by
      unfold field
      rw [hwcr]
      omega
    cases a.kind <;> cases hkind : wp.kind <;>
      simp [ArmWatch.Breaks, WatchKind.Includes, hfield, hkind, aarch64Lsc]
  have hwatches (byte : Nat) : regs.Watches byte ↔ wp.Range byte := by
    have hmask : field regs.wcr.toNat 24 5 = 0 := by
      unfold field
      rw [hwcr]
      omega
    have hhigh : regs.wcr.toNat / 2 ^ 5 = (basAt offset wp.len).toNat := by
      rw [hwcr]
      omega
    let selected : Fin 8 := ⟨byte % 8, Nat.mod_lt _ (by decide)⟩
    have hselected : field (basAt offset wp.len).toNat (byte % 8) 1 = 1 ↔
        offset.val ≤ byte % 8 ∧ byte % 8 < offset.val + wp.len.toNat :=
      @field_basAt offset selected wp.len hvalid.len hfits
    unfold ArmWatch.Watches Watchpoint.Range
    rw [if_pos hmask, field_add, hhigh, hselected, hwvr, granule_div]
    simp only [offset]
    have hfits' := hvalid.fits
    omega
  unfold ArmWatch.Traps Watchpoint.Covers
  simp only [henabled, hunprivileged, hunlinked, hbreaks, hwatches, true_and]

end Arm

/-- A pair that is not enabled traps on nothing. -/
theorem arm_not_traps {regs : ArmWatch} (h : regs.wcr = 0) (a : DataAccess) : ¬ regs.Traps a := by
  rintro ⟨henabled, -⟩
  unfold ArmWatch.Enabled field at henabled
  rw [h] at henabled
  simp at henabled

/-! ## Threads -/

/-- When a task's debug registers trap: slot 0 as given, and whatever the other slots hold. -/
def DebugRegs.Traps (regs : DebugRegs) (others : Nat → UInt64) (a : DataAccess) : Arch → Prop
  | .x86_64 => X86Debug.Traps ⟨fun n => if n = 0 then regs.dr0 else others n, regs.dr7⟩ a
  | .aarch64 => ArmWatch.Traps ⟨regs.hwAddr, regs.hwCtrl⟩ a

theorem DebugRegs.Armed.traps_iff {regs : DebugRegs} {wp : Watchpoint} {arch : Arch}
    (h : regs.Armed wp arch) (hvalid : wp.Valid) (others : Nat → UInt64) (a : DataAccess) :
    regs.Traps others a arch ↔ wp.Covers a := by
  cases arch with
  | x86_64 => exact @x86_traps_iff wp hvalid ⟨_, regs.dr7⟩ h.1 h.2 a
  | aarch64 => exact @arm_traps_iff wp hvalid ⟨regs.hwAddr, regs.hwCtrl⟩ h a

theorem DebugRegs.Disarmed.not_traps {regs : DebugRegs} {arch : Arch} (h : regs.Disarmed arch)
    (others : Nat → UInt64) (a : DataAccess) : ¬ regs.Traps others a arch := by
  cases arch with
  | x86_64 => exact @x86_not_traps ⟨_, regs.dr7⟩ h a
  | aarch64 => exact @arm_not_traps ⟨regs.hwAddr, regs.hwCtrl⟩ h a

/-- The request of a session, if there is one, is valid. -/
def ValidWatch (s : ReplaySession) : Prop := ∀ wp, s.watchpoint = some wp → wp.Valid

section

variable (arch : Arch) [Ptrace arch ω]

theorem validWatch_ignoresThreads : IgnoresThreads ValidWatch where
  unwinder _ _ h := h
  hits _ _ _ h := h
  mt _ _ h := h
  lastRegs _ _ h := h

theorem validWatch_modifySelf {f : ReplaySession → ReplaySession}
    (hf : ∀ s, (f s).watchpoint = s.watchpoint) :
    KeepsSession ValidWatch (modifySelf f : Method ω Unit) :=
  modifySelf_keeps fun s hs wp hwp => hs wp ((hf s).symm.trans hwp)

theorem restart_validWatch (start : StartPoint) :
    KeepsSession ValidWatch (restart arch start : Method ω Unit) := by
  have hrearm : KeepsSession ValidWatch (rearmWatchpoint arch : Method ω Unit) :=
    rearmWatchpoint_keeps arch validWatch_ignoresThreads.unwinder
  unfold Replay.restart
  split
  · apply Keeps.bind self_keeps
    intro s
    split
    · exact Keeps.never
    · apply Keeps.bind (forkSnapshot_keeps arch _)
      intro fresh
      apply Keeps.bind (killActive_keeps arch)
      intro _
      exact Keeps.bind (validWatch_modifySelf fun _ => rfl) fun _ => hrearm
  · apply Keeps.bind (killActive_keeps arch)
    intro _
    apply Keeps.bind self_keeps
    intro s
    apply Keeps.bind (spawnStopped_keeps arch s.cmdline)
    intro pid
    exact Keeps.bind (validWatch_modifySelf fun _ => rfl) fun _ => hrearm

/-- A request is taken over once it was validated. -/
theorem watch_validWatch (addr : UInt64) (len : UInt8) (kind : WatchKind) :
    KeepsSession ValidWatch (watch arch addr len kind : Method ω Unit) := by
  refine orFail_bind (fun _ w hw => hw) fun _ hvalidate => ?_
  apply Keeps.bind self_keeps
  intro s
  apply Keeps.bind (forEach_keeps (fun live => arm_keeps arch live addr len kind) _)
  intro _
  apply Keeps.bind (readMemory_keeps arch s.pid addr len.toNat)
  intro value
  refine modifySelf_keeps fun s hs => ?_
  rintro _ ⟨rfl⟩
  exact (Watchpoint.validate_iff ⟨addr, len, kind⟩).mp hvalidate

theorem clearWatch_validWatch : KeepsSession ValidWatch (clearWatch arch : Method ω Unit) := by
  apply Keeps.bind self_keeps
  intro s
  apply Keeps.bind (modifySelf_keeps (f := fun s => { s with watchpoint := none }) fun s _ => ?_)
  · intro _
    apply Keeps.bind (Keeps.when (forEach_keeps (disarm_keeps arch) _))
    intro _
    exact validWatch_modifySelf fun _ => rfl
  · intro wp hwp
    cases hwp

theorem validWatch_calls : CallUpkeep arch (On ValidWatch : World ω → Prop) (On ValidWatch) where
  interval _ _ hw := hw
  drained _ hw := hw
  restart := restart_validWatch arch

variable [Unwind ω]

theorem validWatch_upkeep : Upkeep arch (On ValidWatch : World ω → Prop) (On ValidWatch)
    { Running := fun _ => On ValidWatch
      Stopped := fun _ _ => On ValidWatch
      Trapped := fun _ => On ValidWatch
      Born := fun _ => On ValidWatch
      Bound := fun _ => On ValidWatch } where
  weaken _ hw := hw
  setoptions _ := os_keeps
  saveFull _ := os_keeps
  restoreFull _ _ := os_keeps
  setSyscallNr _ _ := os_keeps
  processVmWritev _ _ _ := osOr_keeps
  resume _ _ := os_keeps
  wait _ _ := os_keeps (P := ValidWatch)
  rest _ _ _ _ hw := hw
  trap pid _ := (isWatchHit_keeps arch pid).mono (fun _ hw => hw)
    (fun hit _ hw => by cases hit <;> exact hw) (fun _ _ hw => hw)
  hit := onWatchHit_keeps arch validWatch_ignoresThreads.toIgnoresHits
  event _ := os_keeps
  register := registerChild_keeps (P := ValidWatch) arch
  bindChild seq tid child parent vforked :=
    validWatch_ignoresThreads.bindChild seq tid child parent vforked
  armChild := armChild_keeps (P := ValidWatch) arch
  place _ _ _ _ _ _ hw := hw
  threads _ _ _ _ _ hw := hw
  seat _ _ _ hw := hw
  finished _ _ hw := hw
  checkpoints _ _ _ hw := hw
  snapshot pid := (forkSnapshot_keeps arch pid).mono (fun _ hw => hw.2) (fun _ _ hw => hw)
    (fun _ _ hw => hw)

theorem perform_validWatch (c : SessionCall) :
    KeepsSession ValidWatch (perform arch c : Method ω (Option ExitOutcome)) :=
  (validWatch_upkeep arch).perform (validWatch_calls arch) c
    (fun addr len kind _ => watch_validWatch arch addr len kind)
    (fun _ => clearWatch_validWatch arch)

end

/-! ## Runs -/

variable {arch : Arch} [Ptrace arch ω] [Unwind ω]

/-- What is requested is what `validate` lets through. -/
theorem reachable_validWatch {C : World ω → SessionCall → World ω → Prop} {w : World ω}
    (h : ReachableWhen arch C w) : ValidWatch w.session := by
  induction h with
  | launch hlaunch =>
    obtain ⟨pid, hs⟩ := launch_session arch hlaunch
    rw [hs]
    intro wp hwp
    cases hwp
  | call hw c hcall hc ih =>
    have hpost := perform_validWatch arch c _ ih _ _ hcall
    split at hpost
    · exact hpost
    · exact hpost

end Mirrorscope.Replay
