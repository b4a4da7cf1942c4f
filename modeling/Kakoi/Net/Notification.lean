import Mathlib.Data.List.DropRight
import Kakoi.Base.BoundedQueue
import Kakoi.Net.Pool

/-! Bounded notification history: lines of bounded length, of which the oldest are left out. -/

namespace Kakoi

def maxNotices : Nat := 256

def maxNoticeBytes : Nat := 1024 * 1024

def maxLine : Nat := 4096

/-- The states that clients are told. -/
inductive NetworkState where
  | running
  | isolated
  | unsafeState
  deriving DecidableEq

def NetworkState.label : NetworkState → String
  | .running => "running"
  | .isolated => "isolated"
  | .unsafeState => "unsafe"

/-- `char::is_control`. -/
def isControl (character : Char) : Bool :=
  character.toNat < 0x20 || 0x7f ≤ character.toNat && character.toNat ≤ 0x9f

/-- `char::is_whitespace`. -/
def isWhitespace (character : Char) : Bool :=
  let code := character.toNat
  0x9 ≤ code && code ≤ 0xd || code = 0x20 || code = 0x85 || code = 0xa0 || code = 0x1680 ||
    0x2000 ≤ code && code ≤ 0x200a || code = 0x2028 || code = 0x2029 || code = 0x202f ||
    code = 0x205f || code = 0x3000

/-- `char::escape_default`. -/
def escapeDefault (character : Char) : String :=
  if character = '\t' then "\\t"
  else if character = '\r' then "\\r"
  else if character = '\n' then "\\n"
  -- both quotes and the backslash
  else if [0x27, 0x22, 0x5c].contains character.toNat then "\\" ++ String.singleton character
  else if 0x20 ≤ character.toNat && character.toNat ≤ 0x7e then String.singleton character
  else "\\u\x7b" ++ String.ofList (Nat.toDigits 16 character.toNat) ++ "\x7d"

def linePiece (character : Char) : String :=
  if isControl character then escapeDefault character else String.singleton character

/-- The loop of `bounded_line` from a line on. -/
def boundedFrom (line : String) : List Char → String
  | [] => line ++ "\n"
  | character :: rest =>
    if maxLine - 4 < line.utf8ByteSize + (linePiece character).utf8ByteSize then line ++ "...\n"
    else boundedFrom (line ++ linePiece character) rest

def boundedLine (head text : String) : String := boundedFrom "" (head.toList ++ text.toList)

/-- What every line is: short, with a newline at its end and no other control character. -/
structure BoundedLine (line : String) : Prop where
  shape : ∃ body : String, line = body ++ "\n" ∧ ∀ character ∈ body.toList, isControl character = false
  short : line.utf8ByteSize ≤ maxLine

theorem plain_escape {character : Char} (control : isControl character = true) :
    (escapeDefault character).toList.all (fun found => !isControl found) = true := by
  have small : character.toNat < 160 := by
    simp only [isControl, Bool.or_eq_true, Bool.and_eq_true, decide_eq_true_eq] at control
    omega
  have every : ∀ code < 160,
      (escapeDefault (Char.ofNat code)).toList.all (fun found => !isControl found) ||
        !isControl (Char.ofNat code) := by decide +kernel
  have found := every character.toNat small
  rw [Char.ofNat_toNat, control] at found
  simpa using found

theorem plain_linePiece (character : Char) (member : found ∈ (linePiece character).toList) :
    isControl found = false := by
  unfold linePiece at member
  split at member
  next control =>
    have plain := List.all_eq_true.mp (plain_escape control) found member
    simpa using plain
  next other =>
    rw [String.toList_singleton, List.mem_singleton] at member
    rw [member]
    exact Bool.eq_false_iff.mpr other

theorem boundedFrom_line {line : String} (plain : ∀ found ∈ line.toList, isControl found = false)
    (short : line.utf8ByteSize ≤ maxLine - 4) (text : List Char) :
    BoundedLine (boundedFrom line text) := by
  induction text generalizing line with
  | nil =>
    refine ⟨⟨line, rfl, plain⟩, ?_⟩
    rw [boundedFrom, String.utf8ByteSize_append]
    have newline : "\n".utf8ByteSize = 1 := rfl
    unfold maxLine at short ⊢
    omega
  | cons character rest ih =>
    rw [boundedFrom]
    split
    · refine ⟨⟨line ++ "...", by rw [String.append_assoc]; rfl, ?_⟩, ?_⟩
      · intro found member
        rw [String.toList_append, List.mem_append] at member
        rcases member with before | dots
        · exact plain found before
        · have dot : found = '.' := by simpa using dots
          rw [dot]
          rfl
      · rw [String.utf8ByteSize_append]
        have dots : "...\n".utf8ByteSize = 4 := rfl
        unfold maxLine at short ⊢
        omega
    next fits =>
      refine ih ?_ ?_
      · intro found member
        rw [String.toList_append, List.mem_append] at member
        rcases member with before | piece
        · exact plain found before
        · exact plain_linePiece character piece
      · rw [String.utf8ByteSize_append]
        exact Nat.le_of_not_lt fits

/-- Whatever the text, the line is bounded. -/
theorem boundedLine_bounded (head text : String) : BoundedLine (boundedLine head text) :=
  boundedFrom_line (by simp) (Nat.zero_le _) _

/-- A plain text that fits is taken over as it is. -/
theorem boundedFrom_taken {line : String} (text : List Char)
    (plain : ∀ found ∈ taken, isControl found = false)
    (fits : line.utf8ByteSize + (String.ofList taken).utf8ByteSize ≤ maxLine - 4) :
    boundedFrom line (taken ++ text) = boundedFrom (line ++ String.ofList taken) text := by
  induction taken generalizing line with
  | nil => simp
  | cons first rest ih =>
    have piece : linePiece first = String.singleton first :=
      if_neg (Bool.eq_false_iff.mp (plain first List.mem_cons_self))
    rw [String.ofList_cons, String.utf8ByteSize_append] at fits
    rw [List.cons_append, boundedFrom, piece, if_neg (by omega), String.ofList_cons,
      ← String.append_assoc]
    refine ih (fun found member => plain found (List.mem_cons_of_mem _ member)) ?_
    rw [String.utf8ByteSize_append]
    omega

theorem boundedFrom_starts (line : String) (text : List Char) :
    line.toList <+: (boundedFrom line text).toList := by
  induction text generalizing line with
  | nil => simp [boundedFrom]
  | cons first rest ih =>
    rw [boundedFrom]
    split
    · simp
    · have longer := ih (line ++ linePiece first)
      rw [String.toList_append] at longer
      exact (List.prefix_append _ _).trans longer

structure Notification where
  detail : String
  state : Option NetworkState

def Notification.size (record : Notification) : Nat := record.detail.utf8ByteSize

structure Notifications where
  queue : List Notification := []
  /-- The last state with its line. -/
  current : Option (String × NetworkState) := none
  bytes : Nat := 0
  omitted : Nat := 0
  inFlightBytes : Nat := 0

namespace Notifications

def pending (queue : List Notification) (inFlightBytes : Nat) : Nat :=
  queue.length + if inFlightBytes ≠ 0 then 1 else 0

/-- The loop of `push`: the oldest records go while there is too much. None where the source
panics, on an empty queue. -/
def overflow (inFlightBytes : Nat) : List Notification → Nat → Nat →
    Option (List Notification × Nat × Nat)
  | [], bytes, omitted =>
    if maxNotices < pending [] inFlightBytes ∨ maxNoticeBytes < bytes + inFlightBytes then none
    else some ([], bytes, omitted)
  | first :: rest, bytes, omitted =>
    if maxNotices < pending (first :: rest) inFlightBytes ∨
        maxNoticeBytes < bytes + inFlightBytes then
      overflow inFlightBytes rest (bytes - first.size) (saturatingAdd omitted 1)
    else some (first :: rest, bytes, omitted)

def push (notifications : Notifications) (record : Notification) : Option Notifications :=
  (overflow notifications.inFlightBytes (notifications.queue ++ [record])
    (notifications.bytes + record.size) notifications.omitted).map fun (queue, bytes, omitted) =>
      { notifications with queue, bytes, omitted }

def stateHead (state : NetworkState) : String := "kakoi: network " ++ state.label ++ ": "

/-- Whether a line was pushed for the state, and what became of the history. -/
def update (notifications : Notifications) (state : NetworkState) (reason : String) :
    Option (Bool × Notifications) :=
  let line := boundedLine (stateHead state) reason
  if notifications.current.any fun (current, _) => current = line then some (false, notifications)
  else
    (push { notifications with current := some (line, state) } ⟨line, some state⟩).map
      fun next => (true, next)

def notice (notifications : Notifications) (text : String) : Option Notifications :=
  notifications.push ⟨boundedLine "kakoi: " text, none⟩

def trimEnd (text : String) : String := String.ofList (text.toList.rdropWhile isWhitespace)

/-- The line that stands for all that is left out. -/
def summary (notifications : Notifications) : String :=
  let omitted := saturatingAdd notifications.omitted (notifications.queue.length - 1)
  match notifications.current with
  | some (current, _) =>
    boundedLine ("kakoi: " ++ toString omitted ++ " network notifications omitted; current ")
      ((((trimEnd current).toList.dropPrefix? "kakoi: network ".toList).map String.ofList).getD
        current)
  | none => boundedLine ("kakoi: " ++ toString omitted ++ " notifications omitted") ""

def popRecord (notifications : Notifications) : Option (Notification × Nat) × Notifications :=
  if notifications.omitted ≠ 0 then
    (some (⟨notifications.summary, notifications.current.map (·.2)⟩,
      saturatingAdd notifications.omitted notifications.queue.length),
      { notifications with queue := [], bytes := 0, omitted := 0 })
  else
    match notifications.queue with
    | [] => (none, notifications)
    | record :: rest =>
      (some (record, 0), { notifications with queue := rest, bytes := notifications.bytes - record.size })

end Notifications

end Kakoi
