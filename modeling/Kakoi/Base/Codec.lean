import Mathlib.Data.List.Basic

/-! Codecs that compose: a codec reads back exactly what it wrote, in front of any rest. -/

namespace Kakoi

structure Codec (α : Type) where
  encode : α → List UInt8
  decode : List UInt8 → Option (α × List UInt8)
  roundTrip : ∀ value rest, decode (encode value ++ rest) = some (value, rest)

namespace Codec

variable {α β : Type}

def byte : Codec UInt8 where
  encode value := [value]
  decode
    | [] => none
    | first :: rest => some (first, rest)
  roundTrip _ _ := rfl

def pair (left : Codec α) (right : Codec β) : Codec (α × β) where
  encode value := left.encode value.1 ++ right.encode value.2
  decode bytes :=
    match left.decode bytes with
    | none => none
    | some (first, bytes) =>
      match right.decode bytes with
      | none => none
      | some (second, bytes) => some ((first, second), bytes)
  roundTrip value rest := by
    rw [List.append_assoc, left.roundTrip]
    simp only [right.roundTrip]

/-- A codec of another type that is written as values of the first. -/
def through (codec : Codec α) (pack : β → α) (unpack : α → β)
    (inverse : ∀ value, unpack (pack value) = value) : Codec β where
  encode value := codec.encode (pack value)
  decode bytes := (codec.decode bytes).map fun (value, rest) => (unpack value, rest)
  roundTrip value rest := by simp [codec.roundTrip, inverse]

/-- A mark in front of each element, and another at the end. -/
def encodeList (codec : Codec α) : List α → List UInt8
  | [] => [0]
  | first :: rest => 1 :: codec.encode first ++ encodeList codec rest

/-- Reads at most `limit` elements. -/
def decodeList (codec : Codec α) : Nat → List UInt8 → Option (List α × List UInt8)
  | 0, _ => none
  | _ + 1, [] => none
  | limit + 1, mark :: bytes =>
    if mark = 0 then some ([], bytes)
    else
      match codec.decode bytes with
      | none => none
      | some (first, bytes) =>
        match decodeList codec limit bytes with
        | none => none
        | some (rest, bytes) => some (first :: rest, bytes)

theorem decodeList_encodeList (codec : Codec α) (values : List α) (rest : List UInt8)
    (limit : Nat) (enough : values.length < limit) :
    decodeList codec limit (encodeList codec values ++ rest) = some (values, rest) := by
  induction values generalizing limit with
  | nil =>
    cases limit with
    | zero => cases enough
    | succ limit => rfl
  | cons first others ih =>
    cases limit with
    | zero => cases enough
    | succ limit =>
      have later := ih limit (by simpa using enough)
      have mark : ¬ (1 : UInt8) = 0 := by decide
      simp only [encodeList, List.cons_append, List.append_assoc, decodeList, if_neg mark,
        codec.roundTrip, later]

theorem length_encodeList (codec : Codec α) (values : List α) :
    values.length < (encodeList codec values).length := by
  induction values with
  | nil => simp [encodeList]
  | cons first others ih =>
    simp only [encodeList, List.length_cons, List.length_append]
    omega

def list (codec : Codec α) : Codec (List α) where
  encode := encodeList codec
  decode bytes := decodeList codec bytes.length bytes
  roundTrip values rest := by
    have enough := length_encodeList codec values
    exact decodeList_encodeList codec values rest _ (by rw [List.length_append]; omega)

/-- The digits of a number to base 256, the least first. -/
def digits : Nat → Nat → List UInt8
  | 0, _ => []
  | limit + 1, number =>
    if number = 0 then [] else UInt8.ofNat (number % 256) :: digits limit (number / 256)

def number : List UInt8 → Nat
  | [] => 0
  | digit :: rest => digit.toNat + 256 * number rest

theorem number_digits (limit value : Nat) (enough : value ≤ limit) :
    number (digits limit value) = value := by
  induction limit generalizing value with
  | zero => simp [digits, number, Nat.le_zero.mp enough]
  | succ limit ih =>
    by_cases zero : value = 0
    · simp [digits, number, zero]
    · have later := ih (value / 256) (by omega)
      have digit : (UInt8.ofNat (value % 256)).toNat = value % 256 := by
        rw [UInt8.toNat_ofNat']
        omega
      rw [digits, if_neg zero, number, later, digit]
      omega

def nat : Codec Nat :=
  (list byte).through (fun value => digits value value) number fun value =>
    number_digits value value (Nat.le_refl value)

def option (codec : Codec α) : Codec (Option α) :=
  (list codec).through Option.toList List.head? fun value => by cases value <;> rfl

def bool : Codec Bool :=
  nat.through Bool.toNat (· = 1) fun value => by cases value <;> rfl

/-- One of two, told by a mark in front. -/
def sum (left : Codec α) (right : Codec β) : Codec (α ⊕ β) where
  encode
    | .inl value => 0 :: left.encode value
    | .inr value => 1 :: right.encode value
  decode
    | [] => none
    | mark :: bytes =>
      if mark = 0 then (left.decode bytes).map fun (value, rest) => (.inl value, rest)
      else (right.decode bytes).map fun (value, rest) => (.inr value, rest)
  roundTrip value rest := by
    cases value with
    | inl value => simp [left.roundTrip]
    | inr value => simp [right.roundTrip]

end Codec

end Kakoi
