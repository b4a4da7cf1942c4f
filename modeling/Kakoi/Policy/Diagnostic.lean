import Kakoi.Base.Path

/-! Diagnostics: a kind, which is the contract, and a description, kept as the pieces it is
formatted from. -/

namespace Kakoi

inductive Kind where
  | usage
  | policy
  | path
  | secret
  | env
  | bwrap
  | commandNotFound
  | commandNotExecutable
  | guard
  deriving DecidableEq

inductive Fragment where
  | text (text : String)
  | path (path : Path)
  deriving DecidableEq

abbrev Text := List Fragment

instance : Coe String Fragment := ⟨.text⟩

instance : Coe Path Fragment := ⟨.path⟩

instance : Coe String Text := ⟨fun text => [.text text]⟩

instance : Coe Path Text := ⟨fun path => [.path path]⟩

/-- `format!`: the parts one after the other. -/
def format (parts : List Text) : Text := parts.flatten

/-- An observed I/O failure, carried as data. -/
structure IoCause where
  osError : Option Int
  deriving DecidableEq

structure Diagnostic where
  kind : Kind
  description : Text
  ioCause : Option IoCause := none
  deriving DecidableEq

namespace Diagnostic

def usage (description : Text) : Diagnostic := { kind := .usage, description }

def policy (description : Text) : Diagnostic := { kind := .policy, description }

def path (description : Text) : Diagnostic := { kind := .path, description }

def secret (description : Text) : Diagnostic := { kind := .secret, description }

def env (description : Text) : Diagnostic := { kind := .env, description }

def bwrap (description : Text) : Diagnostic := { kind := .bwrap, description }

def withIoCause (diagnostic : Diagnostic) (cause : IoCause) : Diagnostic :=
  { diagnostic with ioCause := some cause }

end Diagnostic

structure Warning where
  description : Text
  deriving DecidableEq

/-- Runs a check on each element and stops at the first failure. -/
def checkAll (check : α → Except ε Unit) : List α → Except ε Unit
  | [] => .ok ()
  | first :: rest => do
    check first
    checkAll check rest

theorem Except.bind_eq_ok {computation : Except ε α} {result : β} :
    (computation >>= next) = .ok result ↔
      ∃ value, computation = .ok value ∧ next value = .ok result := by
  cases computation with
  | error failure => simp [bind, Except.bind]
  | ok value => simp [bind, Except.bind]

/-- A check followed by the rest: both must pass. -/
theorem Except.check_eq_ok {check : Except ε Unit} {result : β} :
    (check >>= next) = .ok result ↔ check = .ok () ∧ next () = .ok result := by
  cases check with
  | error failure => simp [bind, Except.bind]
  | ok value => simp [bind, Except.bind]

theorem checkAll_ok {check : α → Except ε Unit} :
    checkAll check elements = .ok () ↔ ∀ element ∈ elements, check element = .ok () := by
  induction elements with
  | nil => simp [checkAll]
  | cons first rest ih =>
    rw [checkAll, Except.check_eq_ok, ih]
    simp

theorem checkAll_congr {check other : α → Except ε Unit}
    (same : ∀ element ∈ elements, check element = other element) :
    checkAll check elements = checkAll other elements := by
  induction elements with
  | nil => rfl
  | cons first rest ih =>
    rw [checkAll, checkAll, same first List.mem_cons_self,
      ih fun element member => same element (List.mem_cons_of_mem first member)]

/-- A pass over a list that succeeds did so for each element, and returns just their results. -/
theorem Except.mapM_ok {step : α → Except ε β} {elements : List α}
    (ok : elements.mapM step = .ok results) :
    (∀ element ∈ elements, ∃ result ∈ results, step element = .ok result) ∧
      ∀ result ∈ results, ∃ element ∈ elements, step element = .ok result := by
  induction elements generalizing results with
  | nil =>
    cases ok
    simp
  | cons first rest ih =>
    rw [List.mapM_cons] at ok
    obtain ⟨head, taken, ok⟩ := Except.bind_eq_ok.mp ok
    obtain ⟨tail, others, ok⟩ := Except.bind_eq_ok.mp ok
    cases ok
    obtain ⟨forward, backward⟩ := ih others
    constructor
    · intro element member
      rcases List.mem_cons.mp member with rfl | later
      · exact ⟨head, List.mem_cons_self, taken⟩
      · obtain ⟨result, present, same⟩ := forward element later
        exact ⟨result, List.mem_cons_of_mem _ present, same⟩
    · intro result member
      rcases List.mem_cons.mp member with rfl | later
      · exact ⟨first, List.mem_cons_self, taken⟩
      · obtain ⟨element, present, same⟩ := backward result later
        exact ⟨element, List.mem_cons_of_mem _ present, same⟩

theorem Except.toOption_eq_some {result : Except ε α} {value : α} :
    result.toOption = some value ↔ result = .ok value := by
  cases result with
  | error failure => simp [Except.toOption]
  | ok value => simp [Except.toOption]

instance existsOk {result : Except ε α} : Decidable (∃ value, result = .ok value) :=
  match result with
  | .error _ => .isFalse nofun
  | .ok value => .isTrue ⟨value, rfl⟩

instance existsOkAnd {result : Except ε α} {holds : α → Prop} [DecidablePred holds] :
    Decidable (∃ value, result = .ok value ∧ holds value) :=
  match result with
  | .error _ => .isFalse nofun
  | .ok value => decidable_of_iff (holds value) (by simp)

end Kakoi
