import Mathlib.Data.List.Basic
import Mathlib.Data.List.Flatten

/-! Messages in a stream of bytes, each behind its length in two bytes, the higher first. -/

namespace Kakoi

def frame (message : List UInt8) : List UInt8 :=
  UInt8.ofNat (message.length / 256) :: UInt8.ofNat (message.length % 256) :: message

def frames (messages : List (List UInt8)) : List UInt8 := messages.flatMap frame

/-- The length that the first two bytes announce. -/
def announced : List UInt8 → Nat
  | high :: low :: _ => high.toNat * 256 + low.toNat
  | _ => 0

/-- The messages at the start of a stream, up to one without bytes or one that is not there
as a whole. -/
def readFrames (bytes : List UInt8) : List (List UInt8) :=
  match bytes with
  | high :: low :: rest =>
    let length := high.toNat * 256 + low.toNat
    if length = 0 ∨ rest.length < length then []
    else rest.take length :: readFrames (rest.drop length)
  | _ => []
termination_by bytes.length
decreasing_by
  rw [List.length_drop]
  exact Nat.lt_succ_of_le (Nat.le_succ_of_le (Nat.sub_le _ _))

/-- Messages whose length two bytes can hold, none of them empty. -/
def Framable (messages : List (List UInt8)) : Prop :=
  ∀ message ∈ messages, 0 < message.length ∧ message.length < 65536

theorem frames_concat (front : List (List UInt8)) (last : List UInt8) :
    frames (front ++ [last]) = frames front ++ frame last := by
  simp [frames]

theorem announced_frame (short : message.length < 65536) (rest : List UInt8) :
    announced (frame message ++ rest) = message.length := by
  have high : message.length / 256 < 256 := by omega
  have low : message.length % 256 < 256 := Nat.mod_lt _ (by decide)
  simp only [frame, List.cons_append, announced, UInt8.toNat_ofNat', Nat.reducePow,
    Nat.mod_eq_of_lt high, Nat.mod_eq_of_lt low]
  omega

theorem announced_lt (bytes : List UInt8) : announced bytes < 65536 := by
  unfold announced
  split
  · rename_i high low rest
    have above := high.toNat_lt
    have below := low.toNat_lt
    omega
  · decide

theorem two_bytes (long : 2 ≤ bytes.length) : ∃ high low tail, bytes = high :: low :: tail := by
  obtain ⟨high, front, rfl⟩ := List.exists_cons_of_length_pos (Nat.lt_of_lt_of_le Nat.two_pos long)
  have behind : 0 < front.length := Nat.le_of_succ_le_succ long
  obtain ⟨low, tail, rfl⟩ := List.exists_cons_of_length_pos behind
  exact ⟨high, low, tail, rfl⟩

/-- A stream that holds what it announces starts with a framed message. -/
theorem split_frame (complete : announced bytes + 2 ≤ bytes.length) :
    bytes = frame ((bytes.take (announced bytes + 2)).drop 2) ++ bytes.drop (announced bytes + 2) ∧
      ((bytes.take (announced bytes + 2)).drop 2).length = announced bytes := by
  obtain ⟨high, low, tail, rfl⟩ := two_bytes (Nat.le_trans (Nat.le_add_left 2 _) complete)
  have above := high.toNat_lt
  have below := low.toNat_lt
  have size : (tail.take (high.toNat * 256 + low.toNat)).length = high.toNat * 256 + low.toNat := by
    simp [announced] at complete
    simp
    omega
  have higher : (high.toNat * 256 + low.toNat) / 256 = high.toNat := by omega
  have lower : (high.toNat * 256 + low.toNat) % 256 = low.toNat := by omega
  constructor
  · simp only [announced, List.take_succ_cons, List.drop_succ_cons, List.drop_zero, frame, size, higher,
      lower, UInt8.ofNat_toNat, List.cons_append, List.take_append_drop]
  · simpa [announced] using size

theorem readFrames_incomplete (incomplete : bytes.length < announced bytes + 2) :
    readFrames bytes = [] := by
  rw [readFrames.eq_def]
  split
  · simp only [announced, List.length_cons] at incomplete
    exact if_pos (.inr (by omega))
  · rfl

theorem readFrames_frame (full : 0 < message.length) (short : message.length < 65536)
    (rest : List UInt8) : readFrames (frame message ++ rest) = message :: readFrames rest := by
  have length := announced_frame short rest
  simp only [frame, List.cons_append, announced] at length
  have whole : ¬ (message.length = 0 ∨ (message ++ rest).length < message.length) := by
    rw [List.length_append]
    omega
  rw [readFrames.eq_def]
  simp only [frame, List.cons_append, length]
  rw [if_neg whole, List.take_left, List.drop_left]

end Kakoi
