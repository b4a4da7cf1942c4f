import Kakoi.Linux.BwrapArguments

/-! The placement of helper images: each guard is replaced by an image, and the first process by
an init. -/

namespace Kakoi.HelperPlacement

open BwrapArguments

/-- What a launch plan holds that placing an image reads or replaces. -/
structure Plan where
  arguments : List Argument
  launchLayout : LaunchLayout
  commands : Option CommandLimits
  guards : GuardPlan

/-- Moves a position at or behind a place in the arguments. -/
def shiftPosition (start : Nat) (delta : Int) (position : Nat) : Nat :=
  if start ≤ position then (position + delta).toNat else position

def shiftLayout (layout : LaunchLayout) (start : Nat) (delta : Int) : LaunchLayout where
  argv0 := layout.argv0.map (shiftPosition start delta)
  commandSeparator := layout.commandSeparator.map (shiftPosition start delta)
  resolverDestination := layout.resolverDestination.map (shiftPosition start delta)

def retargetResolver (plan : Plan) (target : Path) : Except String Plan :=
  match plan.launchLayout.resolverDestination with
  | none => .error "missing managed resolver"
  | some index => .ok { plan with arguments := plan.arguments.set index (BwrapArguments.place target) }

/-- Whether an operation is an option applied to one path. -/
def appliesTo (option : String) (path : Path) : Operation → Bool
  | [.literal name, .literal operand] => name = utf8 option && operand = path.bytes
  | _ => false

/-- The place of a read-only bind. -/
def boundAt : Operation → Option Path
  | [.literal option, _, .literal path] => if option = utf8 "--ro-bind" then some ⟨path⟩ else none
  | _ => none

/-- Drops the operations that place kakoi itself as the first process. -/
def removeFirstProcess (plan : Plan) : Except String Plan := do
  if plan.commands.isNone then return plan
  let parsed ← operations plan.arguments
  let some (first, _) := parsed.find? fun entry => appliesTo "--tmpfs" firstRoot entry.2
    | throw "missing first-process placement"
  -- The permissions of the tmpfs come right before it.
  if first < 2 then throw "missing first-process placement"
  let start := first - 2
  let some (last, _) := parsed.find? fun entry => appliesTo "--remount-ro" firstRoot entry.2
    | throw "missing first-process boundary"
  let stop := last + 2
  return { plan with
    arguments := plan.arguments.take start ++ plan.arguments.drop stop
    launchLayout := shiftLayout plan.launchLayout stop (-(stop - start : Nat)) }

/-- Puts the image in place of the first bind at an entry's location. -/
def placeEntry (guardImage : Option FileContent) (plan : Plan) (entry : TableEntry) :
    Except String Plan := do
  let some image := guardImage | throw "missing guard image"
  let parsed ← operations plan.arguments
  let some (index, _) := parsed.find? fun found => boundAt found.2 = some ⟨entry.location⟩
    | throw "missing guard placement"
  let replaced := (plan.arguments.set index (text "--ro-bind-data")).set (index + 1) (.copiedFile image)
  return { plan with
    arguments := replaced.take index ++ permissions "0555" ++ replaced.drop index
    launchLayout := shiftLayout plan.launchLayout index 2 }

/-- Places the image of the guard at every location of the guard table. -/
def place (plan : Plan) (guardImage : Option FileContent) : Except String Plan := do
  let rest ← removeFirstProcess plan
  plan.guards.table.entries.foldlM (placeEntry guardImage) rest

/-- Puts an init at a path and makes it the first process in place of the command. A path
without a directory and a plan without a command have no init. -/
def placeInit (plan : Plan) (image : FileContent) (path : Path) : Option Plan := do
  let directory ← path.parent
  let separator ← plan.launchLayout.commandSeparator
  let kept := plan.arguments.take separator
  let named := match plan.launchLayout.argv0 with
    | some index => kept.set index (BwrapArguments.place path)
    | none => kept
  return { plan with
    arguments := named ++
      [text "--dir", BwrapArguments.place directory, text "--perms", text "0700",
        text "--ro-bind-data", .copiedFile image, BwrapArguments.place path, text "--as-pid-1",
        text "--", BwrapArguments.place path] }

end Kakoi.HelperPlacement
