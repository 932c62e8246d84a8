import Mathlib.Algebra.Group.Nat.Defs

/-! # Debug hardware

When a processor traps on a data access, as a function of its debug registers: `DR0` to `DR3`
and `DR7` of x86-64, one `DBGWVR`/`DBGWCR` pair of aarch64.
-/

namespace Mirrorscope.Linux

/-! ## Accesses -/

inductive AccessKind where
  | load
  | store
deriving DecidableEq, Repr

/-- A data access of a user program: it loads from or stores to `size` bytes. -/
structure DataAccess where
  kind : AccessKind
  addr : Nat
  size : Nat
deriving DecidableEq, Repr

/-- The access reads or writes the byte. -/
def DataAccess.Touches (a : DataAccess) (byte : Nat) : Prop :=
  a.addr ≤ byte ∧ byte < a.addr + a.size

/-- The bits `[lo, lo + width)` of a register. -/
def field (reg lo width : Nat) : Nat := reg / 2 ^ lo % 2 ^ width

/-! ## x86-64 -/

/-- The debug registers of a task: four addresses and the control word. -/
structure X86Debug where
  dr : Nat → UInt64
  dr7 : UInt64

namespace X86Debug

/-- Slot `n` is enabled, locally or globally. -/
def Enabled (regs : X86Debug) (n : Nat) : Prop := field regs.dr7.toNat (2 * n) 2 ≠ 0

/-- What slot `n` breaks on: 1 is a write, 3 a read or a write; 0 is an instruction fetch and 2 a
port, which no data access is. -/
def Breaks (regs : X86Debug) (n : Nat) : AccessKind → Prop
  | .load => field regs.dr7.toNat (16 + 4 * n) 2 = 3
  | .store => field regs.dr7.toNat (16 + 4 * n) 2 = 1 ∨ field regs.dr7.toNat (16 + 4 * n) 2 = 3

/-- The size a length field stands for. -/
def sizeOf : Nat → Nat
  | 0 => 1
  | 1 => 2
  | 2 => 8
  | _ => 4

def size (regs : X86Debug) (n : Nat) : Nat := sizeOf (field regs.dr7.toNat (18 + 4 * n) 2)

/-- The bytes slot `n` watches: the low bits of the address, below the size, are ignored. -/
def Watches (regs : X86Debug) (n byte : Nat) : Prop :=
  byte / regs.size n = (regs.dr n).toNat / regs.size n

/-- The access traps. -/
def Traps (regs : X86Debug) (a : DataAccess) : Prop :=
  ∃ n < 4, regs.Enabled n ∧ regs.Breaks n a.kind ∧ ∃ byte, a.Touches byte ∧ regs.Watches n byte

end X86Debug

/-! ## aarch64 -/

/-- A watchpoint register pair. -/
structure ArmWatch where
  wvr : UInt64
  wcr : UInt32

namespace ArmWatch

/-- `E`: the pair is enabled. -/
def Enabled (regs : ArmWatch) : Prop := field regs.wcr.toNat 0 1 = 1

/-- `PAC`: accesses of user programs count. -/
def Unprivileged (regs : ArmWatch) : Prop :=
  field regs.wcr.toNat 1 2 = 2 ∨ field regs.wcr.toNat 1 2 = 3

/-- `LSC`: 1 is a load, 2 a store, 3 both. -/
def Breaks (regs : ArmWatch) : AccessKind → Prop
  | .load => field regs.wcr.toNat 3 2 = 1 ∨ field regs.wcr.toNat 3 2 = 3
  | .store => field regs.wcr.toNat 3 2 = 2 ∨ field regs.wcr.toNat 3 2 = 3

/-- `BAS` selects bytes of the granule at the address; with `MASK` the whole aligned block of
`2 ^ MASK` bytes is watched. -/
def Watches (regs : ArmWatch) (byte : Nat) : Prop :=
  if field regs.wcr.toNat 24 5 = 0 then
    byte / 8 = regs.wvr.toNat / 8 ∧ field regs.wcr.toNat (5 + byte % 8) 1 = 1
  else
    byte / 2 ^ field regs.wcr.toNat 24 5 = regs.wvr.toNat / 2 ^ field regs.wcr.toNat 24 5

/-- `WT`: the pair is not linked to a context. -/
def Unlinked (regs : ArmWatch) : Prop := field regs.wcr.toNat 20 1 = 0

/-- The access traps. -/
def Traps (regs : ArmWatch) (a : DataAccess) : Prop :=
  regs.Enabled ∧ regs.Unprivileged ∧ regs.Unlinked ∧ regs.Breaks a.kind ∧
    ∃ byte, a.Touches byte ∧ regs.Watches byte

end ArmWatch

end Mirrorscope.Linux
