import Kakoi.Policy.Diagnostic

/-! The merged policy as the planner reads it, without the network settings and the text of policy
files. -/

namespace Kakoi

open Std (ExtTreeMap)

inductive Variable where
  | workspace
  | worktree
  | gitCommonDir
  | configDir
  deriving DecidableEq

def Variable.name : Variable → String
  | .workspace => "workspace"
  | .worktree => "worktree"
  | .gitCommonDir => "git_common_dir"
  | .configDir => "config_dir"

/-- A path as written: absolute, under the home directory, or starting with a variable. -/
inductive PolicyPath where
  | absolute (path : Path)
  | home (rest : String)
  | ofVariable (start : Variable) (rest : String)
  deriving DecidableEq

def PolicyPath.text : PolicyPath → Text
  | .absolute path => [path]
  | .home rest => ["~", rest]
  | .ofVariable start rest => ["$\x7b", start.name, "\x7d", rest]

inductive NetworkMode where
  | filtered
  | host
  | none
  deriving DecidableEq

inductive EnvMode where
  | inherit
  | clear
  deriving DecidableEq

inductive ListMode where
  | host
  | listed
  deriving DecidableEq

/-- The five directives of the mount table. -/
inductive Directive where
  | rw
  | rwFile
  | rwCopy
  | ro
  | hide
  deriving DecidableEq

def Directive.name : Directive → String
  | .rw => "rw"
  | .rwFile => "rw-file"
  | .rwCopy => "rw-copy"
  | .ro => "ro"
  | .hide => "hide"

/-- Whether what is written inside through an item of this directive reaches the host. -/
def Directive.writesToHost : Directive → Bool
  | .rw | .rwFile => true
  | .rwCopy | .ro | .hide => false

inductive LayerOrigin where
  | profile (path : Path)
  | builtInDefault
  | policyFile (path : Path)
  | commandLine
  deriving DecidableEq

/-- Origins are compared as the source compares them, their paths by components. -/
instance : BEq LayerOrigin where
  beq
    | .profile left, .profile right => left == right
    | .builtInDefault, .builtInDefault => true
    | .policyFile left, .policyFile right => left == right
    | .commandLine, .commandLine => true
    | _, _ => false

inductive PolicySource where
  | file (path : Path)
  | builtInDefault
  deriving DecidableEq

def PolicySource.path : PolicySource → Option Path
  | .file path => some path
  | .builtInDefault => none

/-- A written layer. The planner reads only where it came from. -/
structure Layer where
  origin : LayerOrigin

structure MountItem where
  directive : Directive
  path : PolicyPath
  origin : LayerOrigin

structure Scan where
  root : PolicyPath
  names : List String
  exclude : List String := []
  prune : List String := []

structure HideMounts where
  under : PolicyPath
  fstype : List String

/-- One position of a sequence: a word, or a list of alternatives. -/
inductive Position where
  | word (word : String)
  | alternatives (words : List String)
  deriving DecidableEq

abbrev Sequence := List Position

structure GuardRule where
  program : String
  reason : String
  optionsWithValue : Option (List String) := none
  for_ : Option (List Sequence) := none
  deny : Option (List Sequence) := none
  denyFlags : Option (List String) := none
  denyOptionValues : Option (ExtTreeMap String (List String)) := none
  denyEnv : Option (List String) := none
  only : Option (List Sequence) := none
  guardAbsolutePath : Bool := false

structure GuardEntry where
  rule : GuardRule
  origin : LayerOrigin

structure Policy where
  mountsMode : ListMode := .host
  mountsSystem : Bool := true
  mounts : List MountItem := []
  scan : List Scan := []
  hideMounts : List HideMounts := []
  networkMode : NetworkMode := .host
  allowNestedFiltered : Bool := false
  envMode : EnvMode := .inherit
  envPass : List String := []
  envSet : ExtTreeMap String String := ∅
  envUnset : List String := []
  pathPrepend : List PolicyPath := []
  secrets : ExtTreeMap String PolicyPath := ∅
  insteadOf : ExtTreeMap String String := ∅
  commandsMode : ListMode := .host
  commandsAllow : List PolicyPath := []
  guards : List GuardEntry := []

/-- The values of the four policy variables. -/
structure Variables where
  workspace : Path
  worktree : Path
  gitCommonDir : Option Path := none
  configDir : Option Path := none

structure HomeDirectory where
  path : Path

end Kakoi
