import Mathlib.Data.List.Basic
import Mathlib.Tactic.Ring

/-! Classic packet filters: instructions as eight bytes each, and their run over one record of
data. -/

namespace Kakoi

/-- The lowest bytes of a number, the lowest first. -/
def littleEndian : Nat → Nat → List UInt8
  | 0, _ => []
  | width + 1, value => UInt8.ofNat value :: littleEndian width (value / 256)

def fromLittleEndian : List UInt8 → Nat
  | [] => 0
  | byte :: rest => byte.toNat + 256 * fromLittleEndian rest

@[simp]
theorem length_littleEndian (width value : Nat) : (littleEndian width value).length = width := by
  induction width generalizing value with
  | zero => rfl
  | succ width ih => rw [littleEndian, List.length_cons, ih]

theorem fromLittleEndian_littleEndian (width value : Nat) :
    fromLittleEndian (littleEndian width value) = value % 256 ^ width := by
  induction width generalizing value with
  | zero => simp [littleEndian, fromLittleEndian, Nat.mod_one]
  | succ width ih =>
    have lowest : (UInt8.ofNat value).toNat = value % 256 := UInt8.toNat_ofNat'
    rw [littleEndian, fromLittleEndian, ih, lowest, pow_succ', Nat.mod_mul]

theorem take_littleEndian (value : Nat) (fits : count ≤ width) :
    (littleEndian width value).take count = littleEndian count value := by
  induction count generalizing width value with
  | zero => rfl
  | succ count ih =>
    obtain ⟨less, rfl⟩ := Nat.exists_eq_add_of_lt (Nat.lt_of_lt_of_le (Nat.succ_pos count) fits)
    rw [littleEndian, List.take_succ_cons, ih _ (Nat.le_of_succ_le_succ fits), littleEndian]

namespace Bpf

/-- One instruction as `struct sock_filter` lays it out. -/
structure Instruction where
  code : UInt16
  jt : UInt8
  jf : UInt8
  k : UInt32
  deriving DecidableEq

def ld : UInt16 := 0x00
def jmp : UInt16 := 0x05
def ret : UInt16 := 0x06
def w : UInt16 := 0x00
def abs : UInt16 := 0x20
def ja : UInt16 := 0x00
def jeq : UInt16 := 0x10
def jgt : UInt16 := 0x20
def jge : UInt16 := 0x30
def jset : UInt16 := 0x40
def k : UInt16 := 0x00

theorem codes :
    ld ||| w ||| abs = 0x20 ∧ jmp ||| ja = 0x05 ∧ jmp ||| jeq ||| k = 0x15 ∧
      jmp ||| jgt ||| k = 0x25 ∧ jmp ||| jge ||| k = 0x35 ∧ jmp ||| jset ||| k = 0x45 ∧
      ret ||| k = 0x06 := by
  decide

def Instruction.toBytes (instruction : Instruction) : List UInt8 :=
  littleEndian 2 instruction.code.toNat ++ [instruction.jt, instruction.jf] ++
    littleEndian 4 instruction.k.toNat

/-- The instructions in some bytes, eight for each. -/
def decode : List UInt8 → Option (List Instruction)
  | [] => some []
  | code₀ :: code₁ :: jt :: jf :: k₀ :: k₁ :: k₂ :: k₃ :: rest =>
    (decode rest).map fun program =>
      { code := .ofNat (fromLittleEndian [code₀, code₁])
        jt
        jf
        k := .ofNat (fromLittleEndian [k₀, k₁, k₂, k₃]) } :: program
  | _ => none

theorem decode_toBytes (instruction : Instruction) (rest : List UInt8) :
    decode (instruction.toBytes ++ rest) = (decode rest).map (instruction :: ·) := by
  have code : fromLittleEndian (littleEndian 2 instruction.code.toNat) = instruction.code.toNat :=
    (fromLittleEndian_littleEndian 2 _).trans (Nat.mod_eq_of_lt instruction.code.toNat_lt)
  have value : fromLittleEndian (littleEndian 4 instruction.k.toNat) = instruction.k.toNat :=
    (fromLittleEndian_littleEndian 4 _).trans (Nat.mod_eq_of_lt instruction.k.toNat_lt)
  simp only [littleEndian] at code value
  simp only [Instruction.toBytes, littleEndian, List.cons_append, List.nil_append, decode, code,
    value, UInt16.ofNat_toNat, UInt32.ofNat_toNat]

theorem decode_program (program : List Instruction) :
    decode (program.flatMap Instruction.toBytes) = some program := by
  induction program with
  | nil => rfl
  | cons instruction program ih => rw [List.flatMap_cons, decode_toBytes, ih, Option.map_some]

/-- The word at an offset, which is inside the data and aligned. -/
def loadWord (data : List UInt8) (offset : Nat) : Option UInt32 :=
  if offset % 4 = 0 ∧ offset + 4 ≤ data.length then
    some (.ofNat (fromLittleEndian ((data.drop offset).take 4)))
  else none

/-- The lowest word of a number that stands in the data. -/
theorem loadWord_field (layout : data = front ++ littleEndian width value ++ back)
    (place : front.length = offset) (aligned : offset % 4 = 0) (fits : 4 ≤ width) :
    loadWord data offset = some (.ofNat value) := by
  subst layout place
  have inside : front.length + 4 ≤ (front ++ littleEndian width value ++ back).length := by
    simp
    omega
  have bytes : ((front ++ littleEndian width value ++ back).drop front.length).take 4 =
      littleEndian 4 value := by
    rw [List.append_assoc, List.drop_left, List.take_append_of_le_length (by simpa using fits),
      take_littleEndian value fits]
  rw [loadWord, if_pos ⟨aligned, inside⟩, bytes, fromLittleEndian_littleEndian]
  refine congrArg some (UInt32.toNat_inj.mp ?_)
  rw [UInt32.toNat_ofNat', UInt32.toNat_ofNat']
  exact Nat.mod_mod value _

/-- What an instruction does: it goes on behind some of those that follow, or ends the run. -/
inductive Effect where
  | proceed (skipped : Nat) (accumulator : UInt32)
  | finish (answer : UInt32)

/-- One instruction of those that need neither the index register nor the scratch memory; any
other has no effect that is known. -/
def step (data : List UInt8) (accumulator : UInt32) (instruction : Instruction) : Option Effect :=
  let branch (taken : Bool) : Option Effect :=
    some (.proceed (if taken then instruction.jt else instruction.jf).toNat accumulator)
  if instruction.code = ld ||| w ||| abs then
    (loadWord data instruction.k.toNat).map (.proceed 0)
  else if instruction.code = jmp ||| ja then some (.proceed instruction.k.toNat accumulator)
  else if instruction.code = jmp ||| jeq ||| k then branch (accumulator = instruction.k)
  else if instruction.code = jmp ||| jgt ||| k then branch (instruction.k < accumulator)
  else if instruction.code = jmp ||| jge ||| k then branch (instruction.k ≤ accumulator)
  else if instruction.code = jmp ||| jset ||| k then branch (accumulator &&& instruction.k ≠ 0)
  else if instruction.code = ret ||| k then some (.finish instruction.k)
  else none

/-- The answer of the instructions that are left; none where the run leaves the program or the
data, or comes to an instruction without a known effect. -/
def run (data : List UInt8) (accumulator : UInt32) : List Instruction → Option UInt32
  | [] => none
  | instruction :: rest =>
    match step data accumulator instruction with
    | some (.proceed skipped next) => run data next (rest.drop skipped)
    | some (.finish answer) => some answer
    | none => none
termination_by program => program.length
decreasing_by
  rw [List.length_drop, List.length_cons]
  omega

theorem run_proceed (effect : step data accumulator instruction = some (.proceed skipped next)) :
    run data accumulator (instruction :: rest) = run data next (rest.drop skipped) := by
  rw [run, effect]

theorem run_finish (effect : step data accumulator instruction = some (.finish answer)) :
    run data accumulator (instruction :: rest) = some answer := by
  rw [run, effect]

end Bpf

end Kakoi
