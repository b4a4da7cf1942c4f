import Kakoi.Base.ClassicBpf

/-! The seccomp filter: a foreign architecture and an x32 system call kill the process,
`ioctl` of `TIOCSTI` fails with `EPERM`, and everything else passes. -/

namespace Kakoi.Seccomp

/-- What the kernel runs a filter on. -/
structure SeccompData where
  nr : UInt32
  arch : UInt32
  instructionPointer : UInt64
  args : Fin 6 → UInt64

def SeccompData.toBytes (data : SeccompData) : List UInt8 :=
  littleEndian 4 data.nr.toNat ++ littleEndian 4 data.arch.toNat ++
    littleEndian 8 data.instructionPointer.toNat ++
    (List.ofFn data.args).flatMap fun argument => littleEndian 8 argument.toNat

def nrOffset : Nat := 0

def archOffset : Nat := 4

def argsOffset : Nat := 16

def load (offset : Nat) : Bpf.Instruction :=
  { code := Bpf.ld ||| Bpf.w ||| Bpf.abs, jt := 0, jf := 0, k := .ofNat offset }

def jumpIfEqual (k : UInt32) (jt jf : UInt8) : Bpf.Instruction :=
  { code := Bpf.jmp ||| Bpf.jeq ||| Bpf.k, jt, jf, k }

def jumpIfAnyBit (k : UInt32) (jt jf : UInt8) : Bpf.Instruction :=
  { code := Bpf.jmp ||| Bpf.jset ||| Bpf.k, jt, jf, k }

def ret (k : UInt32) : Bpf.Instruction := { code := Bpf.ret ||| Bpf.k, jt := 0, jf := 0, k }

def retKillProcess : UInt32 := 0x80000000

def retErrno : UInt32 := 0x00050000

def retAllow : UInt32 := 0x7fff0000

def eperm : UInt32 := 1

def sysIoctl : UInt32 := 16

def tiocsti : UInt32 := 0x5412

def auditArchX8664 : UInt32 := 0xc000003e

def x32SyscallBit : UInt32 := 0x40000000

/-- The kernel takes the request as 32 bits, so the low word of the second argument is
compared. -/
def argument1LowWord : Nat := argsOffset + 8

/-- The filter. Jump offsets count the instructions to skip. -/
def filter : List Bpf.Instruction :=
  [load archOffset,
   jumpIfEqual auditArchX8664 1 0,
   ret retKillProcess,
   load nrOffset,
   jumpIfAnyBit x32SyscallBit 0 1,
   ret retKillProcess,
   jumpIfEqual sysIoctl 0 3,
   load argument1LowWord,
   jumpIfEqual tiocsti 0 1,
   ret (retErrno ||| eperm),
   ret retAllow]

/-- The filter as the bytes bwrap reads. -/
def filterBytes : List UInt8 := filter.flatMap Bpf.Instruction.toBytes

theorem run_load (small : offset < UInt32.size) (found : Bpf.loadWord data offset = some word) :
    Bpf.run data accumulator (load offset :: rest) = Bpf.run data word rest := by
  have exact : (UInt32.ofNat offset).toNat = offset := UInt32.toNat_ofNat_of_lt' small
  have effect : Bpf.step data accumulator (load offset) = some (.proceed 0 word) := by
    simp [Bpf.step, load, exact, found]
  exact Bpf.run_proceed effect

theorem run_jumpIfEqual (k : UInt32) (jt jf : UInt8) :
    Bpf.run data accumulator (jumpIfEqual k jt jf :: rest) =
      Bpf.run data accumulator (rest.drop (if accumulator = k then jt else jf).toNat) := by
  apply Bpf.run_proceed
  simp [Bpf.step, jumpIfEqual, Bpf.codes]

theorem run_jumpIfAnyBit (k : UInt32) (jt jf : UInt8) :
    Bpf.run data accumulator (jumpIfAnyBit k jt jf :: rest) =
      Bpf.run data accumulator (rest.drop (if accumulator &&& k ≠ 0 then jt else jf).toNat) := by
  apply Bpf.run_proceed
  simp [Bpf.step, jumpIfAnyBit, Bpf.codes]

theorem run_ret (k : UInt32) : Bpf.run data accumulator (ret k :: rest) = some k := by
  apply Bpf.run_finish
  simp [Bpf.step, ret, Bpf.codes]

namespace SeccompData

variable (data : SeccompData)

theorem load_nr : Bpf.loadWord data.toBytes nrOffset = some data.nr := by
  have layout : data.toBytes = [] ++ littleEndian 4 data.nr.toNat ++
      (littleEndian 4 data.arch.toNat ++ littleEndian 8 data.instructionPointer.toNat ++
        (List.ofFn data.args).flatMap fun argument => littleEndian 8 argument.toNat) := by
    simp [toBytes]
  exact (Bpf.loadWord_field layout rfl rfl (Nat.le_refl 4)).trans (by simp)

theorem load_arch : Bpf.loadWord data.toBytes archOffset = some data.arch := by
  have layout : data.toBytes = littleEndian 4 data.nr.toNat ++ littleEndian 4 data.arch.toNat ++
      (littleEndian 8 data.instructionPointer.toNat ++
        (List.ofFn data.args).flatMap fun argument => littleEndian 8 argument.toNat) := by
    simp [toBytes]
  exact (Bpf.loadWord_field layout (length_littleEndian 4 _) rfl (Nat.le_refl 4)).trans (by simp)

/-- The word behind the first argument is the lower half of the second. -/
theorem load_argument : Bpf.loadWord data.toBytes argument1LowWord = some (data.args 1).toUInt32 := by
  have layout : data.toBytes =
      (littleEndian 4 data.nr.toNat ++ littleEndian 4 data.arch.toNat ++
        littleEndian 8 data.instructionPointer.toNat ++ littleEndian 8 (data.args 0).toNat) ++
      littleEndian 8 (data.args 1).toNat ++
      ([data.args 2, data.args 3, data.args 4, data.args 5].flatMap fun argument =>
        littleEndian 8 argument.toNat) := by
    simp [toBytes, List.ofFn_succ]
  exact Bpf.loadWord_field layout rfl rfl (by decide)

/-- A call of another architecture, or one of x32. -/
def Foreign : Prop := data.arch ≠ auditArchX8664 ∨ data.nr &&& x32SyscallBit ≠ 0

/-- A call that puts input into a terminal, whatever the higher half of its request holds. -/
def PutsInput : Prop := data.nr = sysIoctl ∧ (data.args ⟨1, by decide⟩).toUInt32 = tiocsti

instance : Decidable data.Foreign := inferInstanceAs (Decidable (_ ∨ _))

instance : Decidable data.PutsInput := inferInstanceAs (Decidable (_ ∧ _))

theorem run_filter : Bpf.run data.toBytes 0 filter =
    some (if data.Foreign then retKillProcess
      else if data.PutsInput then retErrno ||| eperm else retAllow) := by
  unfold filter
  rw [run_load (by decide) data.load_arch, run_jumpIfEqual]
  by_cases known : data.arch = auditArchX8664
  · rw [if_pos known]
    change Bpf.run data.toBytes data.arch (load nrOffset :: jumpIfAnyBit x32SyscallBit 0 1 :: _) = _
    rw [run_load (by decide) data.load_nr, run_jumpIfAnyBit]
    by_cases x32 : data.nr &&& x32SyscallBit ≠ 0
    · rw [if_pos x32, if_pos (show data.Foreign from .inr x32)]
      exact run_ret retKillProcess
    · have own : ¬ data.Foreign := not_or.mpr ⟨not_not.mpr known, x32⟩
      rw [if_neg x32, if_neg own]
      change Bpf.run data.toBytes data.nr (jumpIfEqual sysIoctl 0 3 :: _) = _
      rw [run_jumpIfEqual]
      by_cases ioctl : data.nr = sysIoctl
      · rw [if_pos ioctl]
        change Bpf.run data.toBytes data.nr (load argument1LowWord :: jumpIfEqual tiocsti 0 1 :: _) = _
        rw [run_load (by decide) data.load_argument, run_jumpIfEqual]
        by_cases request : (data.args 1).toUInt32 = tiocsti
        · rw [if_pos request, if_pos (show data.PutsInput from ⟨ioctl, request⟩)]
          exact run_ret _
        · rw [if_neg request, if_neg fun puts => request puts.2]
          exact run_ret retAllow
      · rw [if_neg ioctl, if_neg fun puts => ioctl puts.1]
        exact run_ret retAllow
  · rw [if_neg known, if_pos (show data.Foreign from .inl known)]
    exact run_ret retKillProcess

end SeccompData

theorem answers_differ :
    retKillProcess ≠ retErrno ||| eperm ∧ retKillProcess ≠ retAllow ∧
      retErrno ||| eperm ≠ retAllow := by
  decide

/-- Whatever the record, the filter kills the process exactly for foreign calls, refuses exactly the
other calls that put input into a terminal, and allows the rest. -/
theorem filter_decides (data : SeccompData) :
    ∃ program answer, Bpf.decode filterBytes = some program ∧
      Bpf.run data.toBytes 0 program = some answer ∧
      (answer = retKillProcess ↔ data.Foreign) ∧
      (answer = retErrno ||| eperm ↔ ¬ data.Foreign ∧ data.PutsInput) ∧
      (answer = retAllow ↔ ¬ data.Foreign ∧ ¬ data.PutsInput) := by
  refine ⟨filter, _, Bpf.decode_program filter, data.run_filter, ?_⟩
  obtain ⟨killRefuse, killAllow, refuseAllow⟩ := answers_differ
  by_cases foreign : data.Foreign
  · simp [foreign, killRefuse, killAllow]
  · by_cases puts : data.PutsInput
    · simp [foreign, puts, killRefuse.symm, refuseAllow]
    · simp [foreign, puts, killAllow.symm, refuseAllow.symm]

end Kakoi.Seccomp
