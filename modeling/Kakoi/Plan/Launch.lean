import Kakoi.Plan.CommandLimits
import Kakoi.Plan.Isolation

/-! What the plan hands to the generator of the bwrap arguments. -/

namespace Kakoi

/-- Content handed over in a descriptor. The guard table and the list of allowed programs
stand for the bytes they serialize to. -/
inductive FileContent where
  | bytes (content : List UInt8)
  | table (table : GuardTable)
  | allowedList (paths : List Path)

/-- One entry under a copied directory, at a path relative to the item's. -/
inductive CopiedEntry where
  | directory (relative : Path) (mode : Nat)
  | file (relative : Path) (mode : Nat) (content : FileContent)
  | symlink (relative target : Path)

def CopiedEntry.relative : CopiedEntry → Path
  | .directory relative _ | .file relative _ _ | .symlink relative _ => relative

/-- What is at one `rw-copy` item's real path. -/
inductive CopySource where
  | file (mode : Nat) (content : FileContent)
  | directory (mode : Nat) (entries : List CopiedEntry)

inductive SharedFile where
  | empty
  | resolver
  deriving DecidableEq

namespace SharedFile

def name : SharedFile → String
  | .empty => "empty"
  | .resolver => "resolv.conf"

def content : SharedFile → List UInt8
  | .empty => []
  | .resolver => utf8 "nameserver 127.0.0.53\n"

end SharedFile

/-- One argument of bwrap; descriptors are named by what they hold. -/
inductive Argument where
  | literal (text : Name)
  | emptyFile
  | seccomp
  | copiedFile (content : FileContent)
  | sharedFile (file : SharedFile) (path : Path)

def SharedFile.fromData : SharedFile → Argument
  | .empty => .emptyFile
  | .resolver => .copiedFile (.bytes SharedFile.resolver.content)

structure ResolvedCommand where
  command : Name
  arguments : List Name
  path : Path

/-- Positions in the arguments that later steps replace. -/
structure LaunchLayout where
  argv0 : Option Nat := none
  commandSeparator : Option Nat := none
  resolverDestination : Option Nat := none
  deriving DecidableEq

structure Provisions where
  sharedFiles : Option Path := none
  tun : Bool := false
  outerGuard : Bool := false
  listed : Option ListedRoot := none
  commands : Option CommandLimits := none

def provisions (inputs : Inputs) (isolation : Isolation) (commands : Option CommandLimits) :
    Provisions where
  sharedFiles := usedSharedFiles inputs isolation.mounts.items
  tun := inputs.policy.allowNestedFiltered
  outerGuard := inputs.outerGuard
  listed := isolation.listed
  commands := commands

end Kakoi
