import Kakoi.Linux.HelperPlacement

/-! Mount sources held open from preparation to launch. What the file system answers is a
parameter of each step. -/

namespace Kakoi.HelperPlacement

open BwrapArguments

/-- A file as `fstat` tells it apart from others. -/
structure Identity where
  device : Nat
  inode : Nat
  kind : Nat
  rdev : Nat
  deriving DecidableEq

/-- A descriptor that is open, with the file it refers to. -/
structure Opened where
  descriptor : Nat
  identity : Identity
  deriving DecidableEq

structure RetainedMount where
  source : Path
  destination : Path
  descriptor : Nat
  readOnly : Bool
  device : Bool
  argumentIndex : Nat
  identity : Identity
  deriving DecidableEq

def retainedOptions : List String := ["--bind", "--ro-bind", "--dev-bind"]

/-- What one operation leaves to retain: a bind of a path, not of a shared file, which is
prepared only at launch. -/
def retainOperation (openPath : Nat → Path → Except String Opened) (entry : Nat × Operation) :
    Except String (Option RetainedMount) :=
  match entry.2 with
  | [.literal option, .literal source, .literal destination] =>
    if retainedOptions.any fun known => utf8 known = option then do
      let opened ← openPath entry.1 ⟨source⟩
      return some
        { source := ⟨source⟩
          destination := ⟨destination⟩
          descriptor := opened.descriptor
          readOnly := option = utf8 "--ro-bind"
          device := option = utf8 "--dev-bind"
          argumentIndex := entry.1
          identity := opened.identity }
    else .ok none
  | _ => .ok none

/-- Holds open the sources of the binds among the arguments; `openPath` is what opening the
source of the bind at a position gives. -/
def retain (openPath : Nat → Path → Except String Opened) (arguments : List Argument) :
    Except String (List RetainedMount) := do
  let parsed ← operations arguments
  let mounts ← parsed.mapM (retainOperation openPath)
  return mounts.filterMap id

def sharedFile : Argument → Option (SharedFile × Path)
  | .sharedFile file path => some (file, path)
  | _ => none

/-- Each read-only bind of a shared file replaced by the file put from data. Every shared file
follows the `--ro-bind` that binds it. -/
def inDataForm (arguments : List Argument) : List Argument :=
  arguments.foldl (fun result argument =>
    match argument with
    | .sharedFile file _ => result.dropLast ++ [text "--ro-bind-data", file.fromData]
    | other => result ++ [other]) []

def inPathForm (arguments : List Argument) : List Argument :=
  arguments.map fun argument =>
    match argument with
    | .sharedFile _ path => .literal path.bytes
    | other => other

/-- Whether the place of the shared files could be made fit; none where no place is named. -/
def sharedFit (putInPlace : Path → List SharedFile → Bool) (arguments : List Argument) :
    Option Bool :=
  let files := arguments.filterMap sharedFile
  (files.findSome? fun file => file.2.parent).map fun place =>
    putInPlace place ([SharedFile.empty, SharedFile.resolver].filter fun file =>
      (files.map Prod.fst).contains file)

/-- The arguments ready to start: each shared file is its path when the place is fit, and the
same file put from data when it is not. -/
def settle (putInPlace : Path → List SharedFile → Bool) (arguments : List Argument) :
    List Argument :=
  match sharedFit putInPlace arguments with
  | none => arguments
  | some true => inPathForm arguments
  | some false => inDataForm arguments

/-- What one operation leaves to retain once its shared file was settled. -/
def retainShared (openPath : Nat → Path → Except String Opened) (settled : List Argument)
    (entry : Nat × Operation) : Except String (List RetainedMount) :=
  match entry.2 with
  | _ :: .sharedFile _ _ :: _ => do
    let mounts ← retain (fun _ => openPath entry.1) ((settled.drop entry.1).take 3)
    return mounts.map fun mount => { mount with argumentIndex := entry.1 }
  | _ => .ok []

/-- Settles the shared files of a launch and retains them like the sources retained before. -/
def settleShared (putInPlace : Path → List SharedFile → Bool)
    (openPath : Nat → Path → Except String Opened) (arguments : List Argument)
    (mounts : List RetainedMount) : Except String (List Argument × List RetainedMount) := do
  let settled := settle putInPlace arguments
  let parsed ← operations arguments
  let shared ← parsed.mapM (retainShared openPath settled)
  return (settled,
    (mounts ++ shared.flatten).insertionSort fun left right =>
      left.argumentIndex ≤ right.argumentIndex)

/-- Hands one mount to bwrap by a descriptor of its own; a device bind stays a path. -/
def describeMount (tryClone : RetainedMount → Except String Nat)
    (described : List Argument × List Nat) (mount : RetainedMount) :
    Except String (List Argument × List Nat) :=
  if mount.device then .ok described
  else do
    let descriptor ← tryClone mount
    let option := if mount.readOnly then "--ro-bind-fd" else "--bind-fd"
    return (((described.1.set mount.argumentIndex (text option)).set (mount.argumentIndex + 1)
      (text (toString descriptor))), described.2 ++ [descriptor])

def descriptorArguments (tryClone : RetainedMount → Except String Nat) (arguments : List Argument)
    (mounts : List RetainedMount) : Except String (List Argument × List Nat) :=
  mounts.foldlM (describeMount tryClone) (arguments, [])

/-- Removes a generated operation that is not retained, without opening a source again. -/
def removeGeneratedArguments (arguments : List Argument) (mounts : List RetainedMount)
    (start stop : Nat) : Except String (List Argument × List RetainedMount) :=
  if mounts.any fun mount => mount.argumentIndex < stop && start < mount.argumentIndex + 3 then
    .error "cannot remove retained operation"
  else
    .ok (arguments.take start ++ arguments.drop stop, mounts.map fun mount =>
      if stop ≤ mount.argumentIndex then
        { mount with argumentIndex := mount.argumentIndex - (stop - start) }
      else mount)

/-- Drops the resolver configuration where the one inherited has the same content. -/
def reuseResolver (plan : Plan) (mounts : List RetainedMount) :
    Except String (Plan × List RetainedMount) :=
  match plan.launchLayout.resolverDestination with
  | none => .error "missing managed resolver"
  | some index => do
    let (arguments, mounts) ← removeGeneratedArguments plan.arguments mounts (index - 2) (index + 1)
    return ({ plan with
      arguments
      launchLayout := shiftLayout { plan.launchLayout with resolverDestination := none } (index + 1)
        (-3) }, mounts)

/-- What a launch finds out about its network: whether it has a session, where the host's resolver
configuration really is, whether the run is nested, and what is there already. -/
structure ResolverFacts where
  session : Bool
  target : Option Path
  nested : Bool
  inherited : FileContent → Path → Bool

/-- Puts the resolver configuration where the host's really is. -/
def locateResolver (facts : ResolverFacts) (plan : Plan) : Except String Plan :=
  match facts.target with
  | some target => retargetResolver plan target
  | none => .ok plan

/-- Keeps a configuration that is inherited with the same content. -/
def inheritResolver (facts : ResolverFacts) (plan : Plan) (mounts : List RetainedMount) :
    Except String (Plan × List RetainedMount) :=
  if !facts.nested then .ok (plan, mounts)
  else
    match plan.launchLayout.resolverDestination with
    | none => .error "missing managed resolver"
    | some index =>
      match plan.arguments[index - 1]?, plan.arguments[index]? with
      | some (.copiedFile content), some (.literal path) =>
        if facts.inherited content ⟨path⟩ then reuseResolver plan mounts else .ok (plan, mounts)
      | _, _ => .ok (plan, mounts)

/-- What a launch does to the managed resolver configuration. -/
def launchResolver (facts : ResolverFacts) (plan : Plan) (mounts : List RetainedMount) :
    Except String (Plan × List RetainedMount) :=
  if !facts.session then .ok (plan, mounts)
  else do
    let plan ← locateResolver facts plan
    inheritResolver facts plan mounts

end Kakoi.HelperPlacement
