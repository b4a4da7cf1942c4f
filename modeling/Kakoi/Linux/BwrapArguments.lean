import Kakoi.Plan.Launch

/-! Symbolic bwrap arguments from the isolation decisions. -/

namespace Kakoi.BwrapArguments

/-- An option with its operands. -/
abbrev Operation := List Argument

def text (text : String) : Argument := .literal (utf8 text)

def place (path : Path) : Argument := .literal path.bytes

def tmpfs (path : Path) : Operation := [text "--tmpfs", place path]

def permissions (mode : String) : Operation := [text "--perms", text mode]

def directory (path : Path) : List Operation := [permissions "0755", [text "--dir", place path]]

def readOnlyBind (source target : Path) : Operation := [text "--ro-bind", place source, place target]

def readOnlyData (content : FileContent) (target : Path) : List Operation :=
  [permissions "0444", [text "--ro-bind-data", .copiedFile content, place target]]

def remountReadOnly (path : Path) : Operation := [text "--remount-ro", place path]

/-- A mode in octal, with at least four digits. -/
def octal (mode : Nat) : String :=
  let digits := Nat.toDigits 8 mode
  String.ofList (List.replicate (4 - digits.length) '0' ++ digits)

/-- A shared file at a destination: bound from its place, or handed over as data. -/
def put (provisions : Provisions) (file : SharedFile) (destination : Path) : Operation :=
  match provisions.sharedFiles with
  | some shared =>
    [text "--ro-bind", .sharedFile file (shared.join (Path.ofString file.name)), place destination]
  | none => [text "--ro-bind-data", file.fromData, place destination]

def fixedOperations (networkMode : NetworkMode) (currentDir : Path) (provisions : Provisions) :
    List Operation :=
  (match provisions.listed with
    | some _ => [tmpfs Path.root]
    | none => [readOnlyBind Path.root Path.root]) ++
  [[text "--dev", place (Path.ofString "/dev")], [text "--ro-bind-data", .emptyFile, place nestingMark]] ++
  (if provisions.tun then [[text "--dev-bind", place tunDevice, place tunDevice]] else []) ++
  (if provisions.outerGuard then [readOnlyBind guardRoot guardRoot] else []) ++
  [[text "--proc", place (Path.ofString "/proc")], [text "--unshare-all"]] ++
  (if networkMode = .host ∨ networkMode = .filtered then [[text "--share-net"]] else []) ++
  (if networkMode = .filtered then [[text "--cap-drop", text "ALL"]] else []) ++
  [[text "--die-with-parent"], [text "--chdir", place currentDir], [text "--seccomp", .seccomp]]

def listedOperations (root : ListedRoot) : List Operation :=
  [permissions "1777", tmpfs (Path.ofString "/tmp")] ++
  root.directories.flatMap directory ++
  root.base.map (fun base => readOnlyBind base base) ++
  root.links.map (fun link => [text "--symlink", place link.target, place link.place]) ++
  root.resolver.toList.map fun resolver => readOnlyBind resolver resolver

def entryOperations (item : ResolvedItem) (entry : CopiedEntry) : List Operation :=
  let destination := place (item.real.join entry.relative)
  match entry with
  | .directory _ mode => [permissions (octal mode), [text "--dir", destination]]
  | .file _ mode content =>
    [permissions (octal mode), [text "--file", .copiedFile content, destination]]
  | .symlink _ target => [[text "--symlink", place target, destination]]

/-- What an `rw-copy` item puts at its place. A source that is missing fails closed. -/
def copyOperations (item : ResolvedItem) (source : Option CopySource) : List Operation :=
  match source, item.kind with
  | some (.file mode content), _ =>
    [permissions (octal mode), [text "--bind-data", .copiedFile content, place item.real]]
  | some (.directory mode entries), _ =>
    [permissions (octal mode), tmpfs item.real] ++ entries.flatMap (entryOperations item)
  | none, .directory => [tmpfs item.real]
  | none, .notDirectory => [[text "--ro-bind-data", .emptyFile, place item.real]]

def itemOperations (provisions : Provisions) (copies : PathMap CopySource) (item : ResolvedItem) :
    List Operation :=
  match item.directive, item.kind with
  | .rw, _ | .rwFile, _ => [[text "--bind", place item.real, place item.real]]
  | .ro, _ => [readOnlyBind item.real item.real]
  | .rwCopy, _ => copyOperations item (copies item.real)
  | .hide, .directory => [tmpfs item.real]
  | .hide, .notDirectory => [put provisions .empty item.real]

/-- Where the managed resolver configuration of the filtered network goes. -/
def resolverDestination (provisions : Provisions) : Path :=
  (provisions.listed.bind (·.filteredResolver)).getD resolver

def resolverOperations (networkMode : NetworkMode) (provisions : Provisions) : List Operation :=
  if networkMode = .filtered then [put provisions .resolver (resolverDestination provisions)] else []

/-- What overlaying one real program takes: the program relocated, and a guard over it. -/
def overlayOperations (kakoi : Path) (overlaid : Path × Path) : List Operation :=
  let parents := overlaid.2.parent.toList.flatMap fun parent => parent.parent.toList ++ [parent]
  parents.flatMap directory ++
    [readOnlyBind overlaid.1 overlaid.2, readOnlyBind kakoi overlaid.1]

def guardTmpfs (kakoi : Path) (guards : GuardPlan) : List Operation :=
  [permissions "0755", tmpfs guardRoot] ++ directory guardLocation ++
  guards.placed.map (fun placed => readOnlyBind kakoi placed.guard) ++
  guards.overlaid.flatMap (overlayOperations kakoi) ++
  readOnlyData (.table guards.table) guardTable ++ [remountReadOnly guardRoot]

def firstProcessTmpfs (limits : CommandLimits) : List Operation :=
  [permissions "0755", tmpfs firstRoot, readOnlyBind limits.executable firstProcess] ++
  readOnlyData (.allowedList (limits.allowed ++ limits.relocated ++ limits.outerGuards))
    allowedList ++ [remountReadOnly firstRoot]

def guardOperations (guards : GuardPlan) (commands : Option CommandLimits) : List Operation :=
  (match guards.executable with
    | some kakoi => if guards.placed.isEmpty then [] else guardTmpfs kakoi guards
    | none => []) ++
  commands.toList.flatMap firstProcessTmpfs

def commandArguments (provisions : Provisions) (command : ResolvedCommand) : List Argument :=
  [text "--"] ++ (if provisions.commands.isSome then [place firstProcess] else []) ++
    [place command.path] ++ command.arguments.map .literal

/-- The operations before the command, part by part. -/
structure Parts where
  fixed : List Operation
  argv0 : List Operation
  mounts : List Operation
  resolver : List Operation
  guards : List Operation

def Parts.operations (parts : Parts) : List Operation :=
  parts.fixed ++ parts.argv0 ++ parts.mounts ++ parts.resolver ++ parts.guards

def bwrapParts (networkMode : NetworkMode) (currentDir : Path) (items : List ResolvedItem)
    (copies : PathMap CopySource) (guards : GuardPlan) (provisions : Provisions)
    (command : Option ResolvedCommand) : Parts where
  fixed := fixedOperations networkMode currentDir provisions
  argv0 := command.toList.map fun command => [text "--argv0", .literal command.command]
  mounts := provisions.listed.toList.flatMap listedOperations ++
    items.flatMap (itemOperations provisions copies)
  resolver := resolverOperations networkMode provisions
  guards := guardOperations guards provisions.commands ++
    provisions.listed.toList.map fun _ => remountReadOnly Path.root

/-- The bwrap arguments of a run, with the positions that later steps replace. -/
def bwrapArgumentsWithLayout (networkMode : NetworkMode) (currentDir : Path)
    (items : List ResolvedItem) (copies : PathMap CopySource) (guards : GuardPlan)
    (provisions : Provisions) (command : Option ResolvedCommand) :
    List Argument × LaunchLayout :=
  let parts := bwrapParts networkMode currentDir items copies guards provisions command
  let beforeGuards := parts.fixed ++ parts.argv0 ++ parts.mounts ++ parts.resolver
  (parts.operations.flatten ++ command.toList.flatMap (commandArguments provisions),
   { argv0 := command.map fun _ => parts.fixed.flatten.length + 1
     resolverDestination :=
       if networkMode = .filtered then some (beforeGuards.flatten.length - 1) else none
     commandSeparator := command.map fun _ => parts.operations.flatten.length })

/-- The options bwrap is given, with the number of operands of each. -/
def optionArities : List (String × Nat) :=
  ["--unshare-all", "--share-net", "--die-with-parent", "--as-pid-1"].map (·, 0) ++
  ["--dev", "--proc", "--tmpfs", "--dir", "--perms", "--remount-ro", "--cap-drop", "--chdir",
    "--seccomp", "--argv0"].map (·, 1) ++
  ["--bind", "--ro-bind", "--dev-bind", "--bind-data", "--ro-bind-data", "--file", "--symlink",
    "--bind-fd", "--ro-bind-fd"].map (·, 2)

/-- The number of operands of an option; none for the separator of the command. -/
def arity (option : Name) : Except String (Option Nat) :=
  if option = utf8 "--" then .ok none
  else
    match optionArities.find? fun known => utf8 known.1 = option with
    | some known => .ok (some known.2)
    | none => .error "unknown generated bwrap operation"

/-- The operations from a position on, at most `fuel` of them. -/
def operationsFrom : Nat → Nat → List Argument → Except String (List (Nat × Operation))
  | _, _, [] => .ok []
  | 0, _, _ :: _ => .error "incomplete bwrap operation"
  | fuel + 1, index, .literal option :: rest => do
    match ← arity option with
    | none => return []
    | some operands =>
      if rest.length < operands then throw "incomplete bwrap operation"
      let later ← operationsFrom fuel (index + 1 + operands) (rest.drop operands)
      return (index, .literal option :: rest.take operands) :: later
  | _ + 1, _, _ :: _ => .error "missing bwrap operation"

/-- Walks generated arguments without reading their operands as options. -/
def operations (arguments : List Argument) : Except String (List (Nat × Operation)) :=
  operationsFrom arguments.length 0 arguments

def bindOptions : List String :=
  ["--bind", "--ro-bind", "--dev-bind", "--ro-bind-data", "--bind-data"]

def mountOptions : List String := ["--tmpfs", "--proc", "--dev"]

/-- Where an operation mounts something over what was there. -/
def destination : Operation → Option Path
  | [.literal option, _, .literal target] =>
    if bindOptions.any fun known => utf8 known = option then some ⟨target⟩ else none
  | [.literal option, .literal target] =>
    if mountOptions.any fun known => utf8 known = option then some ⟨target⟩ else none
  | _ => none

def covers (path : Path) (operation : Operation) : Bool :=
  (destination operation).any path.startsWith

end Kakoi.BwrapArguments
