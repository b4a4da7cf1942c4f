import Kakoi.Plan.GuardPlacement

/-! The command mode "listed": the programs a run lets start. -/

namespace Kakoi

/-- Where kakoi's own executable is placed as the isolation's first process. -/
def firstProcess : Path := Path.ofString "/dev/kakoi-first/kakoi"

def allowedList : Path := Path.ofString "/dev/kakoi-first/allowed"

/-- An item of `commands.allow` that is not allowed, with the reason. -/
structure SkippedAllow where
  written : Text
  reason : Text
  deriving DecidableEq

/-- The programs a "listed" command mode lets start, as the plan decided them. -/
structure CommandLimits where
  allowed : List Path
  skipped : List SkippedAllow
  relocated : List Path
  outerGuards : List Path
  executable : Path

/-- What becomes of one item of `commands.allow`: the path allowed, or why it is not. -/
def allowedProgram (values : Variables) (home : HomeDirectory) (facts : MountFacts)
    (mounts : List ResolvedItem) (listed : Option ListedRoot) (item : PolicyPath) :
    Except SkippedAllow Path :=
  let skip (reason : Text) : Except SkippedAllow Path := .error { written := item.text, reason }
  match expand item values home with
  | .valueless start => skip (valuelessReason start)
  | .path path =>
    match (facts.entry path).path with
    | none => skip ["does not exist"]
    | some real =>
      let links := facts.traversedLinks path
      if listed.any fun root => !root.showsThrough links real then
        skip ["is not among the places the \"listed\" mount mode shows"]
      else if hidden real mounts || links.any fun link => hidden link mounts then
        skip ["is hidden inside the isolation"]
      else .ok path

/-- The items of `commands.allow` that are allowed, and those skipped. -/
def allowedPrograms (policy : Policy) (values : Variables) (home : HomeDirectory)
    (facts : MountFacts) (mounts : List ResolvedItem) (listed : Option ListedRoot) :
    List Path × List SkippedAllow :=
  let outcomes := policy.commandsAllow.map (allowedProgram values home facts mounts listed)
  (outcomes.filterMap fun outcome =>
     match outcome with
     | .ok path => some path
     | .error _ => none,
   outcomes.filterMap fun outcome =>
     match outcome with
     | .ok _ => none
     | .error skipped => some skipped)

end Kakoi
